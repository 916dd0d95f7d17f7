import PipeScript.Proofs.Command.Tables
import PipeScript.Proofs.Machine.Progress
import PipeScript.Proofs.Store.FailedWrite

/-! # What a run changes

On a machine that has built-in commands only, the notes of a run account for all that it changes
outside the trace (`footprint_of_execute`): if no command that writes variables is dispatched, at no
level, the store stays as it was, inside its containers, too; and what is said is what the dispatched
`/echo`s say, in their order.  Both are one invariant of runs (`Records`), for a dispatch and what it
does to the machine stand together. -/

namespace PipeScript.Proofs.Machine.Footprint

open PipeScript.Proofs.Command.Binding PipeScript.Proofs.Command.Tables
open PipeScript.Proofs.Machine.Programs
open PipeScript.Proofs.Machine.Progress PipeScript.Proofs.Store.FailedWrite

/-! ### What notes tell -/

/-- The commands that write variables. -/
def writers : List String := ["flushvar", "setat", "setglobalvar", "setvar"]

/-- The note is that a command that writes variables is dispatched. -/
def NotesWrite : TraceEntry → Prop
  | .dispatch name _ _ _ => name ∈ writers
  | _ => False

/-- What the command says whose dispatch is noted. -/
def output? : TraceEntry → Option Effect
  | .dispatch name _ _ value => if name = "echo" then some (.output value) else none
  | _ => none

/-- What is said in the course of notes, which stand latest first. -/
def outputs (notes : List TraceEntry) : List Effect := notes.reverse.filterMap output?

theorem outputs_append (late early : List TraceEntry) :
    outputs (late ++ early) = outputs early ++ outputs late := by
  unfold outputs
  rw [List.reverse_append, List.filterMap_append]

theorem outputs_of_none {entry : TraceEntry} (h : output? entry = none) : outputs [entry] = [] := by
  unfold outputs
  simp [h]

theorem output?_remark {entry : TraceEntry} (h : IsRemark entry) : output? entry = none := by
  cases entry with
  | dispatch => exact h.elim
  | caught | idle | failed => rfl

/-- Of the built-in commands one speaks. -/
theorem output?_dispatch {b : Builtin} (h : b ≠ .echo) (depth : ℕ) (arguments : Arguments)
    (value : String) : output? (.dispatch b.command.name depth arguments value) = none := by
  refine if_neg ?_
  cases b with
  | echo => exact absurd rfl h
  | _ => decide

/-- The built-in commands that touch the store are the ones that write variables. -/
theorem name_mem_writers {b : Builtin} (h : touches b .store) : b.command.name ∈ writers := by
  cases b with
  | setAt | setVar | setGlobalVar | flushVar => decide
  | _ => exact h.elim

/-! ### Runs keep account -/

/-- From a machine with built-in commands only: the notes of a run account for what it has said and,
unless it may write on its own, for what it has stored. -/
def Records (writes : Prop) (m after : Machine) : Prop :=
  OnlyBuiltins m.registry → after.registry = m.registry ∧ ∃ notes, after.trace = notes ++ m.trace ∧
    after.effects = m.effects ++ outputs notes ∧
    (¬ writes → (∀ entry ∈ notes, ¬ NotesWrite entry) → after.store = m.store)

section Records

variable {writes : Prop} {m after : Machine}

theorem Records.mono (h : Records False m after) : Records writes m after := by
  intro honly
  obtain ⟨hregistry, notes, htrace, heffects, hstore⟩ := h honly
  exact ⟨hregistry, notes, htrace, heffects, fun _ => hstore not_false⟩

theorem course_records : Course (Records writes) where
  refl m _ := ⟨rfl, [], rfl, (List.append_nil _).symm, fun _ _ => rfl⟩
  trans := by
    intro m n o hmn hno honly
    obtain ⟨hregistry, early, htrace, heffects, hstore⟩ := hmn honly
    rw [← hregistry] at honly
    obtain ⟨hregistry', late, htrace', heffects', hstore'⟩ := hno honly
    refine ⟨hregistry'.trans hregistry, late ++ early, ?_, ?_, fun hwrites hquiet => ?_⟩
    · rw [htrace', htrace, List.append_assoc]
    · rw [heffects', heffects, outputs_append, List.append_assoc]
    · rw [hstore' hwrites fun entry h => hquiet entry (List.mem_append_left _ h),
        hstore hwrites fun entry h => hquiet entry (List.mem_append_right _ h)]

/-- A command that does not speak keeps account, on the condition that it does not write. -/
theorem admits_records {b : Builtin} (hb : b ≠ .echo) :
    Admits (touches b) (Records (touches b .store)) where
  toCourse := course_records
  remark m entry h _ := by
    refine ⟨rfl, [entry], rfl, ?_, fun _ _ => rfl⟩
    rw [outputs_of_none (output?_remark h), List.append_nil]
  store h m f _ := ⟨rfl, [], rfl, (List.append_nil _).symm, fun hwrites => absurd h hwrites⟩
  effects h := by
    cases b with
    | echo => exact absurd rfl hb
    | _ => exact h.elim
  seed h m f _ := ⟨rfl, [], rfl, (List.append_nil _).symm, fun _ _ => rfl⟩

/-- What a command says is noted with its dispatch. -/
theorem records_echo (nested : Nested) (inv : Invocation) (m : Machine) :
    Records writes m (Action.leavingCommand (Builtin.echo.run nested inv)
      (dispatching Builtin.echo.command inv m)).2 :=
  fun _ => ⟨rfl, [_], rfl, rfl, fun _ _ => rfl⟩

/-- **Every dispatch keeps account.** -/
theorem records_dispatch {nested : Nested} (hnested : ∀ command, Onward (Records False) (nested command))
    (call : Call) (pipe : String) : Onward (Records False) (dispatch nested call pipe) := by
  intro m honly
  rcases hget : m.registry.get? call.name with _ | command
  · rw [dispatch_unknown hget]
    exact course_records.refl m honly
  · obtain ⟨b, rfl⟩ := honly call.name command hget
    rw [dispatch_found hget]
    by_cases hb : b = .echo
    · subst hb
      exact records_echo nested _ m honly
    · obtain ⟨hregistry, notes, htrace, heffects, hstore⟩ := onward_leavingCommand course_records
        (onward_run (admits_records hb) (fun command n => (hnested command n).mono)
          (call.invocation pipe)) (dispatching b.command (call.invocation pipe) m) honly
      refine ⟨hregistry, notes ++ [_], htrace.trans (List.append_cons ..), ?_, fun _ hquiet => ?_⟩
      · rw [outputs_append, outputs_of_none (output?_dispatch hb _ _ _), List.nil_append]
        exact heffects
      · refine hstore (fun hwrites => ?_) fun entry h => hquiet entry (List.mem_append_left _ h)
        exact hquiet _ (List.mem_append_right _ (List.mem_singleton_self _)) (name_mem_writers hwrites)

end Records

/-- **The notes of a run account for what it changes.**  Whether it succeeds or fails: if no command
that writes variables is dispatched in it, the store is as it was; and it has said what the `/echo`s
dispatched in it say, in their order. -/
theorem footprint_of_execute {m : Machine} (h : OnlyBuiltins m.registry) (text pipe : String) :
    ∃ notes, (execute text pipe m).2.trace = notes ++ m.trace ∧
      ((∀ entry ∈ notes, ¬ NotesWrite entry) → (execute text pipe m).2.store = m.store) ∧
      (execute text pipe m).2.effects = m.effects ++ outputs notes := by
  obtain ⟨-, notes, htrace, heffects, hstore⟩ := onward_execute course_records (fun _ _ h => h)
    (fun _ => records_dispatch) text pipe m h
  exact ⟨notes, htrace, hstore not_false, heffects⟩

instance : DecidablePred NotesWrite
  | .dispatch name _ _ _ => inferInstanceAs (Decidable (name ∈ writers))
  | .caught _ | .idle _ _ _ | .failed _ => isFalse id

/-- A loop over a list that a variable holds, whose command speaks and then fails. -/
def speakingLoop : String := "/foreach var=y /echo \x7b\x7bitem\x7d\x7d \\| /throw"

/-- The loop says the item of the list and leaves the store as it was. -/
theorem footprint_of_speakingLoop :
    OnlyBuiltins heldMachine.registry ∧
      (∀ entry ∈ (execute speakingLoop "" heldMachine).2.trace, ¬ NotesWrite entry) ∧
      (execute speakingLoop "" heldMachine).2.store = heldMachine.store ∧
      outputs (execute speakingLoop "" heldMachine).2.trace = [.output "1"] ∧
      (execute speakingLoop "" heldMachine).2.effects = [.output "1"] := by
  have honly : OnlyBuiltins heldMachine.registry := by
    unfold heldMachine
    rw [registry_start]
    exact onlyBuiltins_withBuiltins
  have hquiet : ∀ entry ∈ (execute speakingLoop "" heldMachine).2.trace, ¬ NotesWrite entry := by
    decide +kernel
  have houtputs : outputs (execute speakingLoop "" heldMachine).2.trace = [.output "1"] := by
    decide +kernel
  obtain ⟨notes, htrace, hstore, heffects⟩ := footprint_of_execute honly speakingLoop ""
  have hbefore : heldMachine.trace = [] ∧ heldMachine.effects = [] := ⟨rfl, rfl⟩
  rw [hbefore.1, List.append_nil] at htrace
  subst htrace
  rw [hbefore.2, houtputs] at heffects
  exact ⟨honly, hquiet, hstore hquiet, houtputs, heffects⟩

end PipeScript.Proofs.Machine.Footprint
