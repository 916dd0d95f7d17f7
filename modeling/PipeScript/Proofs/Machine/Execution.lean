import PipeScript.Proofs.Machine.Relations
import PipeScript.Proofs.Pipeline.Refusal

/-! # Running pipelines

What every run keeps: depth, greatest depth and registry are after it what they were before
(`settled_execute`), and what it does depends neither on the trace nor on anything that differs
between machines that are the same but for the trace (`execute_sameButTrace`).  Below the greatest
depth, `execute` reads the text and runs its calls one level deeper, and the commands run their
pipelines by `execute` again (`execute_eq`); every fault that leaves a pipeline is one of the
command language (`ownFault_execute`). -/

namespace PipeScript.Proofs.Machine.Execution

open PipeScript.Proofs.Pipeline.Refusal
open PipeScript.Proofs.Machine.Programs PipeScript.Proofs.Machine.Relations

/-! ### The trace is never read -/

/-- Two machines that differ in the trace at most. -/
structure SameButTrace (m n : Machine) : Prop extends Alike m n where
  effects : m.effects = n.effects

theorem SameButTrace.refl (m : Machine) : SameButTrace m m :=
  ⟨⟨rfl, rfl, rfl, rfl, rfl, rfl⟩, rfl⟩

theorem SameButTrace.trans {m n o : Machine} (h : SameButTrace m n) (h' : SameButTrace n o) :
    SameButTrace m o :=
  ⟨⟨h.store.trans h'.store, h.registry.trans h'.registry, h.clock.trans h'.clock,
    h.seed.trans h'.seed, h.depth.trans h'.depth, h.maxDepth.trans h'.maxDepth⟩,
    h.effects.trans h'.effects⟩

theorem sameButTrace_note (m : Machine) (entry : TraceEntry) :
    SameButTrace { m with trace := entry :: m.trace } m :=
  ⟨⟨rfl, rfl, rfl, rfl, rfl, rfl⟩, rfl⟩

/-- Two runs with the same answer that end alike but for the trace. -/
def Agrees {α : Type} (r s : Except Fault α × Machine) : Prop :=
  r.1 = s.1 ∧ SameButTrace r.2 s.2

/-- Runs go on alike from where they agree; the one may go on with an image of the other's
answer. -/
theorem Agrees.bind_map {α β γ : Type} {x : Action α} {y : Action β} {k : β → α}
    {f : α → Action γ} {g : β → Action γ} {m n : Machine}
    (h : Agrees (x m) ((do return k (← y)) n)) (hf : ∀ b before after, y n = (.ok b, after) →
      SameButTrace before after → Agrees (f (k b) before) (g b after)) :
    Agrees ((x >>= f) m) ((y >>= g) n) := by
  obtain ⟨h1, h2⟩ := h
  rw [bind_apply] at h1 h2
  rw [bind_apply, bind_apply]
  generalize x m = r at h1 h2 ⊢
  generalize y n = s at h1 h2 hf ⊢
  obtain ⟨result, before⟩ := r
  obtain ⟨fault | b, after⟩ := s
  · obtain rfl : result = .error fault := h1
    exact ⟨rfl, h2⟩
  · obtain rfl : result = .ok (k b) := h1
    exact hf b before after rfl h2

theorem Agrees.bind {α β : Type} {x y : Action α} {f g : α → Action β} {m n : Machine}
    (h : Agrees (x m) (y n)) (hf : ∀ a before after, y n = (.ok a, after) →
      SameButTrace before after → Agrees (f a before) (g a after)) :
    Agrees ((x >>= f) m) ((y >>= g) n) := by
  refine Agrees.bind_map (k := id) ?_ hf
  have hid : (do return id (← y)) = y := bind_pure y
  rw [hid]
  exact h

/-- A run that does no more than answer can be left out of the other run. -/
theorem Agrees.bind_pure_left {α β : Type} {x : Action α} {a : α} {f : α → Action β} {y : Action β}
    {m n : Machine} (h : Agrees (x m) ((pure a : Action α) n))
    (hf : ∀ before, SameButTrace before n → Agrees (f a before) (y n)) :
    Agrees ((x >>= f) m) (y n) := by
  rw [← pure_bind a fun _ => y]
  refine h.bind fun a' before after hn hsame => ?_
  cases hn
  exact hf before hsame

theorem levelled_sameButTrace : Levelled fun _ => SameButTrace where
  congruent _ :=
    { alike := fun h => h.toAlike
      note := fun h _ => ⟨⟨h.store, h.registry, h.clock, h.seed, h.depth, h.maxDepth⟩, h.effects⟩
      store := fun _ _ _ h f => ⟨⟨congrArg f h.store, h.registry, h.clock, h.seed, h.depth,
        h.maxDepth⟩, h.effects⟩
      effects := fun _ _ _ h effect => ⟨⟨h.store, h.registry, h.clock, h.seed, h.depth, h.maxDepth⟩,
        congrArg (· ++ [effect]) h.effects⟩
      seed := fun _ _ _ h f => ⟨⟨h.store, h.registry, h.clock, congrArg f h.seed, h.depth,
        h.maxDepth⟩, h.effects⟩ }
  down h :=
    ⟨⟨h.store, h.registry, h.clock, h.seed, congrArg (· + 1) h.depth, h.maxDepth⟩, h.effects⟩
  up h :=
    ⟨⟨h.store, h.registry, h.clock, h.seed, congrArg (· - 1) h.depth, h.maxDepth⟩, h.effects⟩

theorem Agrees.deeper {α : Type} {x y : Action α} {m n : Machine}
    (h : Agrees (x { m with depth := m.depth + 1 }) (y { n with depth := n.depth + 1 })) :
    Agrees (x.deeper m) (y.deeper n) :=
  ⟨h.1, levelled_sameButTrace.up (d := 0) h.2⟩

/-- **The trace is never read**: machines that are the same but for it run a pipeline alike. -/
theorem execute_sameButTrace {m n : Machine} (h : SameButTrace m n) (text pipe : String) :
    Agrees (execute text pipe m) (execute text pipe n) :=
  related_execute levelled_sameButTrace 0 text pipe m n h

/-! ### What every run keeps -/

/-- A machine beside itself, at a depth, with a greatest depth and a registry. -/
structure Settled (maxDepth : ℕ) (registry : Registry) (d : ℕ) (m n : Machine) : Prop where
  eq : m = n
  depth : m.depth = d
  maxDepth : m.maxDepth = maxDepth
  registry : m.registry = registry

theorem Settled.self (m : Machine) : Settled m.maxDepth m.registry m.depth m m :=
  ⟨rfl, rfl, rfl, rfl⟩

theorem levelled_settled (maxDepth : ℕ) (registry : Registry) :
    Levelled (Settled maxDepth registry) where
  congruent d :=
    { alike := fun h => by cases h.eq; exact ⟨rfl, rfl, rfl, rfl, rfl, rfl⟩
      note := fun h _ => by cases h.eq; exact ⟨rfl, h.depth, h.maxDepth, h.registry⟩
      store := fun _ _ _ h _ => by cases h.eq; exact ⟨rfl, h.depth, h.maxDepth, h.registry⟩
      effects := fun _ _ _ h _ => by cases h.eq; exact ⟨rfl, h.depth, h.maxDepth, h.registry⟩
      seed := fun _ _ _ h _ => by cases h.eq; exact ⟨rfl, h.depth, h.maxDepth, h.registry⟩ }
  down h := by cases h.eq; exact ⟨rfl, congrArg (· + 1) h.depth, h.maxDepth, h.registry⟩
  up h := by cases h.eq; exact ⟨rfl, by simp [h.depth], h.maxDepth, h.registry⟩

/-- **Depth, greatest depth and registry stay**, whether the run succeeds or fails. -/
theorem settled_execute (text pipe : String) (m : Machine) :
    Settled m.maxDepth m.registry m.depth (execute text pipe m).2 (execute text pipe m).2 :=
  (related_execute (levelled_settled m.maxDepth m.registry) m.depth text pipe m m (.self m)).2

/-! ### One level of execution -/

/-- Runs a pipeline for what is on its pipe at the end. -/
def finalPipe (text pipe : String) : Action String := do return (← execute text pipe).pipe

/-- Runs a pipeline from an empty pipe, as commands do. -/
def runNested : Nested := fun command => finalPipe command ""

theorem runNested_sameButTrace {m n : Machine} (h : SameButTrace m n) (command : String) :
    Agrees (runNested command m) (runNested command n) :=
  (execute_sameButTrace h command "").bind fun _ _ _ _ h => ⟨rfl, h⟩

theorem runNested_snd (command : String) (m : Machine) :
    (runNested command m).2 = (execute command "" m).2 := by
  unfold runNested finalPipe
  rw [bind_apply]
  rcases execute command "" m with ⟨_ | _, _⟩ <;> rfl

theorem registry_runNested (command : String) (m : Machine) :
    (runNested command m).2.registry = m.registry := by
  rw [runNested_snd]
  exact (settled_execute command "" m).registry

theorem settled_runNested (maxDepth : ℕ) (registry : Registry) (d : ℕ) (command : String) :
    Related (Settled maxDepth registry d) (runNested command) (runNested command) :=
  .bind (related_execute (levelled_settled maxDepth registry) d command "") fun _ => .pure _

/-- One level deeper it counts only how pipelines run at that depth. -/
theorem deeper_runText_congr {nested : Nested} {m : Machine}
    (hnested : ∀ command n, n.depth = m.depth + 1 → n.maxDepth = m.maxDepth →
      nested command n = runNested command n) (text pipe : String) :
    (runText nested text pipe).deeper m = (runText runNested text pipe).deeper m := by
  have hrelated : ∀ command, Related (Settled m.maxDepth m.registry (m.depth + 1)) (nested command)
      (runNested command) := by
    intro command n n' hn
    cases hn.eq
    rw [hnested command n hn.depth hn.maxDepth]
    exact settled_runNested _ _ _ command n n hn
  have hrun := related_deeper (levelled_settled m.maxDepth m.registry)
    (related_runText ((levelled_settled m.maxDepth m.registry).congruent _) hrelated text pipe) m m
    (.self m)
  exact Prod.ext hrun.1 hrun.2.eq

/-- **Below the greatest depth** a pipeline is read and its calls run one level deeper. -/
theorem execute_eq {m : Machine} (h : m.depth < m.maxDepth) (text pipe : String) :
    execute text pipe m = Action.deeper (runText runNested text pipe) m := by
  obtain ⟨levels, hlevels⟩ : ∃ levels, m.maxDepth - m.depth = levels + 1 :=
    ⟨m.maxDepth - m.depth - 1, by omega⟩
  have hm : execute text pipe m = executeWithin (levels + 1) text pipe m := by
    unfold execute
    rw [hlevels]
  rw [hm]
  refine deeper_runText_congr (fun command n hdepth hmax => ?_) text pipe
  -- one level deeper there are `levels` levels left
  have hleft : n.maxDepth - n.depth = levels := by omega
  unfold runNested finalPipe execute
  rw [bind_apply, bind_apply, hleft]

/-- Runs calls for what is on the pipe after them. -/
def outputOf (nested : Nested) (calls : List Call) (pipe : String) : Action String := do
  return (← runCalls nested calls pipe).getLast?.getD pipe

/-- A call hands its output to the calls after it. -/
theorem outputOf_cons (nested : Nested) (call : Call) (rest : List Call) (pipe : String)
    (m : Machine) :
    outputOf nested (call :: rest) pipe m =
      (dispatch nested call pipe >>= outputOf nested rest) m := by
  unfold outputOf
  rw [runCalls, bind_apply, bind_apply, bind_apply]
  rcases dispatch nested call pipe m with ⟨fault | output, after⟩
  · rfl
  · dsimp only
    rw [bind_apply, bind_apply]
    rcases runCalls nested rest output after with ⟨fault | outputs, last⟩
    · rfl
    · simp [List.getLast?_cons]

theorem outputOf_singleton (nested : Nested) (call : Call) (pipe : String) :
    outputOf nested [call] pipe = dispatch nested call pipe := by
  funext m
  have hnil : outputOf nested [] = pure := rfl
  rw [outputOf_cons, hnil, bind_pure]

theorem finalPipe_eq {m : Machine} (h : m.depth < m.maxDepth) {text : String} {calls : List Call}
    (hcalls : Pipeline.calls text = .ok calls) (pipe : String) :
    finalPipe text pipe m = Action.deeper (outputOf runNested calls pipe) m := by
  unfold finalPipe
  rw [bind_apply, execute_eq h]
  unfold Action.deeper runText outputOf
  rw [hcalls]
  rw [bind_ok _ (x := Action.ofExcept (.ok calls)) rfl, bind_apply, bind_apply]
  rcases runCalls runNested calls pipe { m with depth := m.depth + 1 } with ⟨fault | outputs, after⟩
  · rfl
  · rfl

/-- What a pipeline does depends on its calls only. -/
theorem execute_congr {text text' : String} (h : Pipeline.calls text = Pipeline.calls text')
    (pipe : String) : execute text pipe = execute text' pipe := by
  funext m
  unfold execute
  cases m.maxDepth - m.depth with
  | zero => rfl
  | succ levels => rw [executeWithin, executeWithin, runText, runText, h]

/-- At the greatest depth a pipeline is refused as it is. -/
theorem execute_refused {m : Machine} (h : m.maxDepth ≤ m.depth) (text pipe : String) :
    execute text pipe m = (.error (.nestingLimit m.maxDepth), m) := by
  unfold execute
  rw [Nat.sub_eq_zero_of_le h]
  rfl

/-! ### Faults that leave a pipeline -/

/-- A run whose fault, if it has one, is of the command language. -/
def OwnFault {α : Type} (r : Except Fault α × Machine) : Prop :=
  ∀ fault, r.1 = .error fault → fault.isOwn = true

theorem OwnFault.ok {α : Type} (a : α) (m : Machine) : OwnFault (.ok a, m) :=
  fun _ h => nomatch h

theorem OwnFault.bind {α β : Type} {x : Action α} {f : α → Action β} {m : Machine}
    (hx : OwnFault (x m)) (hf : ∀ a after, OwnFault (f a after)) : OwnFault ((x >>= f) m) := by
  rw [bind_apply]
  rcases hr : x m with ⟨inner | a, after⟩
  · rw [hr] at hx
    intro fault h
    exact hx fault (by cases h; rfl)
  · exact hf a after

theorem isOwn_leavingCommand (fault : Fault) : fault.leavingCommand.isOwn = true := by
  by_cases h : fault.isOwn = true
  · rw [Fault.leavingCommand, if_pos h]
    exact h
  · rw [Fault.leavingCommand, if_neg h]
    rfl

theorem leavingCommand_of_isOwn {fault : Fault} (h : fault.isOwn = true) :
    fault.leavingCommand = fault := by
  rw [Fault.leavingCommand, if_pos h]

/-- A command whose fault is one of the command language ends in that very fault. -/
theorem leavingCommand_apply {α : Type} {x : Action α} {m : Machine} (h : OwnFault (x m)) :
    Action.leavingCommand x m = x m := by
  unfold Action.leavingCommand
  rw [tryCatch_apply]
  rcases hx : x m with ⟨fault | a, after⟩
  · have hown := h fault (by rw [hx])
    dsimp only
    rw [throw_apply, leavingCommand_of_isOwn hown]
  · rfl

theorem ownFault_leavingCommand {α : Type} (x : Action α) (m : Machine) :
    OwnFault (Action.leavingCommand x m) := by
  unfold Action.leavingCommand
  rw [tryCatch_apply]
  rcases x m with ⟨inner | a, after⟩
  · intro fault h
    obtain rfl : inner.leavingCommand = fault := by simpa using h
    exact isOwn_leavingCommand inner
  · exact .ok a after

theorem ownFault_dispatch (nested : Nested) (call : Call) (pipe : String) (m : Machine) :
    OwnFault (dispatch nested call pipe m) := by
  rcases hget : m.registry.get? call.name with _ | command
  · rw [dispatch_unknown hget]
    intro fault h
    cases h
    rfl
  · rw [dispatch_found hget]
    exact ownFault_leavingCommand _ _

theorem ownFault_runCalls (nested : Nested) (calls : List Call) (pipe : String) (m : Machine) :
    OwnFault (runCalls nested calls pipe m) := by
  induction calls generalizing pipe m with
  | nil => exact .ok _ _
  | cons call rest ih =>
    refine OwnFault.bind (ownFault_dispatch nested call pipe m) fun output after => ?_
    exact OwnFault.bind (ih output after) fun _ _ => .ok _ _

theorem ownFault_calls (text : String) (m : Machine) :
    OwnFault (Action.ofExcept (Pipeline.calls text) m) := by
  cases hc : Pipeline.calls text with
  | error inner =>
    intro fault h
    cases h
    obtain ⟨front, bad, back, -, -, hbad⟩ := calls_eq_error_iff.mp hc
    exact (cause_of_call hbad).isOwn_eq
  | ok calls => exact .ok _ _

/-- **Every fault that leaves a pipeline is one of the command language.** -/
theorem ownFault_execute (text pipe : String) (m : Machine) : OwnFault (execute text pipe m) := by
  rcases Nat.lt_or_ge m.depth m.maxDepth with hd | hd
  · rw [execute_eq hd]
    have hrun : OwnFault (runText runNested text pipe { m with depth := m.depth + 1 }) := by
      refine OwnFault.bind (ownFault_calls text _) fun calls after => ?_
      exact OwnFault.bind (ownFault_runCalls runNested calls pipe after) fun _ _ => .ok _ _
    exact hrun
  · rw [execute_refused hd]
    intro fault h
    cases h
    rfl

theorem ownFault_runNested (command : String) (m : Machine) : OwnFault (runNested command m) :=
  OwnFault.bind (ownFault_execute command "" m) fun _ _ => .ok _ _

end PipeScript.Proofs.Machine.Execution
