import PipeScript.Proofs.Machine.Execution
import PipeScript.Proofs.Pipeline.Bars

/-! # One pipeline behind another

Two pipelines with a bar between them run as the one and then the other on its output: same answer,
same stages, same machine, and the same fault if either fails (`execute_append`).  The second
pipeline must be readable, since the joined one is read as a whole before anything runs. -/

namespace PipeScript.Proofs.Machine.Composition

open PipeScript.Pipeline
open PipeScript.Proofs.Pipeline.Bars
open PipeScript.Proofs.Machine.Programs PipeScript.Proofs.Machine.Relations
open PipeScript.Proofs.Machine.Execution

/-! ### One level deeper -/

/-- An answer may be changed on either side of a level. -/
theorem deeper_map {α β : Type} (g : α → β) (x : Action α) :
    (do return g (← x) : Action β).deeper = do return g (← x.deeper) := by
  funext m
  rw [bind_apply]
  unfold Action.deeper
  rw [bind_apply]
  rcases x { m with depth := m.depth + 1 } with ⟨fault | a, after⟩
  · rfl
  · rfl

/-- Coming up between two actions and going down again changes nothing, if the first has kept the
depth. -/
theorem deeper_bind {α β : Type} {x : Action α} (f : α → Action β) {m : Machine}
    (h : (x { m with depth := m.depth + 1 }).2.depth = m.depth + 1) :
    (x >>= f).deeper m = (x.deeper >>= fun a => (f a).deeper) m := by
  rw [bind_apply]
  unfold Action.deeper
  rw [bind_apply]
  rcases hx : x { m with depth := m.depth + 1 } with ⟨fault | a, after⟩
  · rfl
  · rw [hx] at h
    obtain ⟨store, registry, effects, depth, maxDepth, trace, clock, seed⟩ := after
    obtain rfl : depth = m.depth + 1 := h
    rfl

/-! ### Calls -/

/-- Calls run after others on the last output of those. -/
theorem runCalls_append (nested : Nested) (front back : List Call) (pipe : String) :
    runCalls nested (front ++ back) pipe = (do
      let before ← runCalls nested front pipe
      let after ← runCalls nested back (before.getLast?.getD pipe)
      return before ++ after) := by
  induction front generalizing pipe with
  | nil => simp [runCalls]
  | cons call front ih => simp [runCalls, ih, List.getLast?_cons]

/-- Calls keep depth, greatest depth and registry. -/
theorem settled_runCalls (cs : List Call) (pipe : String) (m : Machine) :
    Settled m.maxDepth m.registry m.depth (runCalls runNested cs pipe m).2
      (runCalls runNested cs pipe m).2 := by
  have hcongruent := (levelled_settled m.maxDepth m.registry).congruent m.depth
  exact (related_runCalls hcongruent (settled_runNested _ _ _) cs pipe m m (.self m)).2

/-- The output of a pipeline, read off the outputs of its stages. -/
def outputFrom (pipe : String) (stages : List String) : Output :=
  ⟨stages.getLast?.getD pipe, stages⟩

theorem outputFrom_append (pipe : String) (before after : List String) :
    outputFrom pipe (before ++ after) =
      ⟨(outputFrom (before.getLast?.getD pipe) after).pipe, before ++ after⟩ := by
  unfold outputFrom
  rw [List.getLast?_append]
  cases after.getLast? <;> rfl

/-- A pipeline that is read runs its calls one level deeper. -/
theorem execute_of_calls {m : Machine} (h : m.depth < m.maxDepth) {text : String} {cs : List Call}
    (hcalls : calls text = .ok cs) (pipe : String) :
    execute text pipe m =
      (do return outputFrom pipe (← (runCalls runNested cs pipe).deeper) : Action Output) m := by
  rw [execute_eq h, ← deeper_map]
  unfold Action.deeper runText
  rw [hcalls]
  rfl

/-- A pipeline that cannot be read leaves the machine as it is. -/
theorem execute_of_unread {m : Machine} (h : m.depth < m.maxDepth) {text : String} {fault : Fault}
    (hcalls : calls text = .error fault) (pipe : String) :
    execute text pipe m = (.error fault, m) := by
  rw [execute_eq h]
  unfold Action.deeper runText
  rw [hcalls]
  rfl

theorem calls_of_readable {text : String} (h : ∀ s ∈ segments text, ∃ c, call s = .ok c) :
    ∃ cs, calls text = .ok cs := by
  unfold calls
  generalize segments text = ss at h
  induction ss with
  | nil => exact ⟨[], rfl⟩
  | cons s rest ih =>
    obtain ⟨c, hc⟩ := h s (List.mem_cons_self ..)
    obtain ⟨cs, hcs⟩ := ih fun t ht => h t (List.mem_cons_of_mem _ ht)
    exact ⟨c :: cs, by rw [List.mapM_cons, hc, hcs]; rfl⟩

/-! ### Pipelines -/

/-- Runs two pipelines in turn, the second on the output of the first. -/
def executeInTurn (front back pipe : String) : Action Output := do
  let before ← execute front pipe
  let after ← execute back before.pipe
  return ⟨after.pipe, before.stages ++ after.stages⟩

/-- Joined calls run as two pipelines in turn. -/
theorem executeInTurn_of_calls {m : Machine} (h : m.depth < m.maxDepth) {front back : String}
    {first later : List Call} (hfirst : calls front = .ok first) (hlater : calls back = .ok later)
    (pipe : String) :
    executeInTurn front back pipe m = (do
      return outputFrom pipe (← (runCalls runNested (first ++ later) pipe).deeper) :
        Action Output) m := by
  have hdepth := (settled_runCalls first pipe { m with depth := m.depth + 1 }).depth
  have hmax := (settled_runCalls first pipe { m with depth := m.depth + 1 }).maxDepth
  have hjoined := deeper_bind (fun before => do
    let after ← runCalls runNested later (before.getLast?.getD pipe)
    return before ++ after) hdepth
  rw [← runCalls_append] at hjoined
  unfold executeInTurn
  rw [bind_apply, execute_of_calls h hfirst, bind_apply, bind_apply, hjoined, bind_apply]
  rcases hrun : (runCalls runNested first pipe).deeper m with ⟨fault | outputs, between⟩
  · rfl
  · have hbetween : between.depth < between.maxDepth := by
      unfold Action.deeper at hrun
      obtain ⟨-, rfl⟩ := Prod.mk.inj hrun
      dsimp only at hdepth hmax ⊢
      rw [hdepth, hmax]
      omega
    simp only [pure_apply]
    rw [bind_apply, execute_of_calls hbetween hlater, bind_apply, deeper_map, bind_apply]
    have hpipe : (outputFrom pipe outputs).pipe = outputs.getLast?.getD pipe := rfl
    rw [hpipe]
    rcases (runCalls runNested later (outputs.getLast?.getD pipe)).deeper between with
      ⟨fault | more, after⟩
    · rfl
    · simp only [pure_apply, outputFrom_append]
      rfl

/-- **A bar composes pipelines**: what is behind it runs on the output of what is before it, from
the machine that this has left; a fault of either ends both. -/
theorem execute_append {front back : String} (hfront : front.toList.getLast? ≠ some '\\')
    (hback : ∀ s ∈ segments back, ∃ c, call s = .ok c) (pipe : String) (m : Machine) :
    execute (front ++ "|" ++ back) pipe m = executeInTurn front back pipe m := by
  obtain ⟨later, hlater⟩ := calls_of_readable hback
  rcases Nat.lt_or_ge m.depth m.maxDepth with hd | hd
  · rcases hfirst : calls front with fault | first
    · have hjoined : calls (front ++ "|" ++ back) = .error fault := by
        rw [calls_append hfront, hfirst]
        rfl
      unfold executeInTurn
      rw [execute_of_unread hd hjoined, bind_error m (execute_of_unread hd hfirst pipe)]
    · have hjoined : calls (front ++ "|" ++ back) = .ok (first ++ later) := by
        rw [calls_append hfront, hfirst, hlater]
        rfl
      rw [execute_of_calls hd hjoined, executeInTurn_of_calls hd hfirst hlater]
  · unfold executeInTurn
    rw [execute_refused hd, bind_error m (execute_refused hd front pipe)]

/-- A pipeline that fails at its last stage, behind one that sets a variable. -/
theorem execute_appendFailing :
    let m := Machine.start .empty .empty 64
    "/setvar key=x 1".toList.getLast? ≠ some '\\' ∧
      (∀ s ∈ segments "/getvar x | /throw", ∃ c, call s = .ok c) ∧
      execute ("/setvar key=x 1" ++ "|" ++ "/getvar x | /throw") "" m =
        executeInTurn "/setvar key=x 1" "/getvar x | /throw" "" m := by
  have hfront : "/setvar key=x 1".toList.getLast? ≠ some '\\' := by decide
  have hsegments : segments "/getvar x | /throw" = ["/getvar x ", " /throw"] := by decide
  have hback : ∀ s ∈ segments "/getvar x | /throw", ∃ c, call s = .ok c := by
    rw [hsegments]
    simp only [List.mem_cons, List.not_mem_nil, or_false]
    rintro s (rfl | rfl)
    · exact ⟨⟨"getvar", [], "x", "/getvar x"⟩, by decide⟩
    · exact ⟨⟨"throw", [], "", "/throw"⟩, by decide⟩
  exact ⟨hfront, hback, execute_append hfront hback "" _⟩

end PipeScript.Proofs.Machine.Composition
