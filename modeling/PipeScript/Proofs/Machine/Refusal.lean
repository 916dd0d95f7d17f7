import PipeScript.Proofs.Machine.Composition
import PipeScript.Proofs.Machine.Progress
import PipeScript.Proofs.Pipeline.Refusal

/-! # Pipelines that are refused

A pipeline is refused before anything of it runs for two causes: it is started at the greatest depth,
or one of its segments is no call.  A refusal leaves the machine as it was; at the greatest depth, and
nowhere else, it is that of the nesting limit (`execute_refused_iff`), and below it that of the first
bad segment (`execute_of_bad_segment`). -/

namespace PipeScript.Proofs.Machine.Refusal

open PipeScript.Pipeline
open PipeScript.Proofs.Pipeline.Refusal
open PipeScript.Proofs.Machine.Programs PipeScript.Proofs.Machine.Execution
open PipeScript.Proofs.Machine.Progress PipeScript.Proofs.Machine.Composition

/-! ### Bad segments -/

/-- **A bad segment refuses the whole pipeline.**  Below the greatest depth the first segment that is
no call ends the run with its own fault, and the machine is as it was: nothing has run, not even what
stands left of it.  So it is for the pipelines that commands run. -/
theorem execute_of_bad_segment {text : String} {m : Machine} (hd : m.depth < m.maxDepth)
    (h : ∃ segment ∈ segments text, ∃ fault, call segment = .error fault) (pipe : String) :
    ∃ front bad back fault, segments text = front ++ bad :: back ∧
      (∀ segment ∈ front, ∃ c, call segment = .ok c) ∧ call bad = .error fault ∧
      Cause bad fault ∧ fault.kind = "PipelineSyntaxError" ∧
      execute text pipe m = (.error fault, m) ∧ runNested text m = (.error fault, m) := by
  obtain ⟨front, bad, back, fault, hsegments, hfront, hbad⟩ := exists_first_bad h
  have hcalls : calls text = .error fault :=
    calls_eq_error_iff.mpr ⟨front, bad, back, hsegments, hfront, hbad⟩
  have hcause := cause_of_call hbad
  refine ⟨front, bad, back, fault, hsegments, hfront, hbad, hcause, hcause.kind_eq,
    execute_of_unread hd hcalls pipe, ?_⟩
  exact bind_error m (execute_of_unread hd hcalls "") _

/-- A pipeline whose second segment has lost its slash, and whose last has an open quote. -/
def brokenPipeline : String := "/setvar key=x 1 | echo 2 | /echo a=\"b"

theorem execute_brokenPipeline :
    let m := Machine.start .empty .empty 64
    m.depth < m.maxDepth ∧
      (∃ segment ∈ segments brokenPipeline, ∃ fault, call segment = .error fault) ∧
      ∃ front bad back fault, segments brokenPipeline = front ++ bad :: back ∧
        (∀ segment ∈ front, ∃ c, call segment = .ok c) ∧ call bad = .error fault ∧
        Cause bad fault ∧ fault.kind = "PipelineSyntaxError" ∧
        execute brokenPipeline "" m = (.error fault, m) ∧
        runNested brokenPipeline m = (.error fault, m) := by
  have hdepth : (Machine.start .empty .empty 64).depth < (Machine.start .empty .empty 64).maxDepth :=
    Nat.zero_lt_succ 63
  have hsegments : segments brokenPipeline = ["/setvar key=x 1 ", " echo 2 ", " /echo a=\"b"] := by
    decide
  have hbad : ∃ segment ∈ segments brokenPipeline, ∃ fault, call segment = .error fault := by
    rw [hsegments]
    exact ⟨" echo 2 ", by simp, .notACommand "echo 2", by decide⟩
  exact ⟨hdepth, hbad, execute_of_bad_segment hdepth hbad ""⟩

/-! ### The greatest depth -/

/-- The trace only grows. -/
def Grows (m after : Machine) : Prop := m.trace <:+ after.trace

theorem course_grows : Course Grows where
  refl _ := List.suffix_rfl
  trans h h' := h.trans h'

theorem admits_grows : Admits (fun _ => True) Grows where
  toCourse := course_grows
  remark _ entry _ := List.suffix_cons entry _
  store _ _ _ := List.suffix_rfl
  effects _ _ _ := List.suffix_rfl
  seed _ _ _ := List.suffix_rfl

/-- A call that finds its command leaves at least the note of that. -/
theorem grows_dispatch_found {nested : Nested} (hnested : ∀ command, Onward Grows (nested command))
    {m : Machine} {call : Call} {command : Command}
    (h : m.registry.get? call.name = some command) (pipe : String) :
    Grows (dispatching command (call.invocation pipe) m) (dispatch nested call pipe m).2 := by
  rw [dispatch_found h]
  exact onward_leavingCommand course_grows (onward_handler admits_grows hnested _ _) _

theorem grows_dispatch {nested : Nested} (hnested : ∀ command, Onward Grows (nested command))
    (call : Call) (pipe : String) : Onward Grows (dispatch nested call pipe) := by
  intro m
  rcases hget : m.registry.get? call.name with _ | command
  · rw [dispatch_unknown hget]
    exact course_grows.refl m
  · exact course_grows.trans (n := dispatching command (call.invocation pipe) m)
      (List.suffix_cons _ m.trace) (grows_dispatch_found hnested hget pipe)

theorem grows_runNested (command : String) : Onward Grows (runNested command) := by
  refine onward_bind course_grows ?_ fun _ => onward_pure course_grows _
  exact onward_execute course_grows (fun _ _ h => h) (fun _ => grows_dispatch) command ""

/-- Calls are not refused for the nesting limit with the machine as it was: the call that meets the
limit further in has left the note of its dispatch. -/
theorem runCalls_ne_refused (cs : List Call) (pipe : String) (m : Machine) (limit : ℕ) :
    ((runCalls runNested cs pipe m).1, (runCalls runNested cs pipe m).2.trace) ≠
      (.error (.nestingLimit limit), m.trace) := by
  intro hrefused
  obtain ⟨hfault, htrace⟩ := Prod.mk.inj hrefused
  rcases cs with _ | ⟨first, rest⟩
  · cases hfault
  · rw [runCalls] at hfault htrace
    rcases hget : m.registry.get? first.name with _ | command
    · rw [bind_error m (dispatch_unknown hget runNested pipe)] at hfault
      cases hfault
    · have hgrows := onward_from course_grows (grows_dispatch_found grows_runNested hget pipe)
        fun output => onward_bind course_grows
          (onward_runCalls course_grows (grows_dispatch grows_runNested) rest output)
          fun outputs => onward_pure course_grows (output :: outputs)
      have hlength := List.IsSuffix.length_le hgrows
      rw [htrace] at hlength
      exact absurd hlength (Nat.not_succ_le_self _)

theorem execute_ne_refused {m : Machine} (h : m.depth < m.maxDepth) (text pipe : String) :
    execute text pipe m ≠ (.error (.nestingLimit m.maxDepth), m) := by
  intro hrefused
  rcases hcalls : calls text with fault | cs
  · rw [execute_of_unread h hcalls] at hrefused
    obtain ⟨front, bad, back, -, -, hbad⟩ := calls_eq_error_iff.mp hcalls
    have hkind := (cause_of_call hbad).kind_eq
    obtain rfl : fault = .nestingLimit m.maxDepth := by simpa using congrArg Prod.fst hrefused
    simp [Fault.kind] at hkind
  · have hne := runCalls_ne_refused cs pipe { m with depth := m.depth + 1 } m.maxDepth
    rw [execute_of_calls h hcalls, bind_apply] at hrefused
    unfold Action.deeper at hrefused
    rcases hrun : runCalls runNested cs pipe { m with depth := m.depth + 1 } with
      ⟨fault | outputs, after⟩
    · rw [hrun] at hrefused hne
      obtain ⟨hfault, hm⟩ := Prod.mk.inj hrefused
      obtain rfl : fault = .nestingLimit m.maxDepth := by simpa using hfault
      have htrace := congrArg Machine.trace hm
      exact hne (Prod.ext rfl htrace)
    · rw [hrun] at hrefused
      cases hrefused

/-- **At the greatest depth, and nowhere else,** a pipeline is refused for the nesting limit before
anything of it has run. -/
theorem execute_refused_iff (text pipe : String) (m : Machine) :
    execute text pipe m = (.error (.nestingLimit m.maxDepth), m) ↔ m.maxDepth ≤ m.depth := by
  constructor
  · intro hrefused
    by_contra hd
    exact execute_ne_refused (Nat.lt_of_not_le hd) text pipe hrefused
  · exact fun hd => execute_refused hd text pipe

end PipeScript.Proofs.Machine.Refusal
