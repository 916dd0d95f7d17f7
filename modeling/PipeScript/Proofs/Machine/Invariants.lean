import PipeScript.Proofs.Store.FailedWrite
import PipeScript.Proofs.Machine.Progress

/-! # Invariants of the store

Four commands write variables; all others leave the store to the pipelines that they run.  So a
property of stores that the writes of these four keep (`Lasting`) is kept by every command, by every
list of calls, and by `execute` itself (`lasting_execute`).  Numbers below the counter are such a
property (`numbered_execute`): a run from a store with numbers of its own never gives one out
twice.  So they are there at every point that runs lead to (`numbered_of_reached`), and a write that
fails at one of them leaves all variables apart from its data as they were
(`apart_of_reached`). -/

namespace PipeScript.Proofs.Machine.Invariants

open PipeScript.Proofs.Machine.Programs PipeScript.Proofs.Machine.Progress
open PipeScript.Proofs.Store.Sharing PipeScript.Proofs.Store.FailedWrite

/-- A property of stores that every write of a command keeps. -/
structure Lasting (P : Store → Prop) : Prop where
  writeLocal : ∀ {store}, P store → ∀ name text, P (store.writeLocal name text)
  writeGlobal : ∀ {store}, P store → ∀ name text, P (store.writeGlobal name text)
  deleteLocal : ∀ {store}, P store → ∀ name, P (store.deleteLocal name)
  written : ∀ {store}, P store → ∀ inv path, P (written inv path store)

/-- The action keeps a property of the store, whether it fails or not. -/
def Keeps (P : Store → Prop) {α : Type} (x : Action α) : Prop :=
  ∀ m : Machine, P m.store → P (x m).2.store

/-- What an action keeps, it leads onward by. -/
theorem course_keeps (P : Store → Prop) : Course fun m after => P m.store → P after.store where
  refl _ h := h
  trans h h' hm := h' (h hm)

/-- Commands that do not touch the store keep what their pipelines keep. -/
theorem admits_keeps (P : Store → Prop) {may : Part → Prop} (hmay : ¬ may .store) :
    Admits may fun m after => P m.store → P after.store where
  toCourse := course_keeps P
  remark _ _ _ h := h
  store hstore := absurd hstore hmay
  effects _ _ _ h := h
  seed _ _ _ h := h

theorem keeps_modifyStore {P : Store → Prop} {f : Store → Store}
    (hf : ∀ store, P store → P (f store)) : Keeps P (Action.modifyStore f) :=
  fun m h => hf m.store h

/-! ### Commands and pipelines -/

section Runs

variable {P : Store → Prop} (hP : Lasting P)
include hP

theorem lasting_setAt (inv : Invocation) : Keeps P (Command.setAt inv) := by
  intro m h
  obtain ⟨_, hcase⟩ | ⟨path, -, ⟨_, hcase⟩ | ⟨text, hcase⟩⟩ := setAt_cases inv m
  · rw [hcase]
    exact h
  · rw [hcase]
    exact hP.written h inv path
  · rw [hcase]
    have hwritten := hP.written h inv path
    unfold stored
    rcases inv.given? "var" with _ | name <;> rcases inv.given? "globalvar" with _ | other
    · exact hwritten
    · exact hP.writeGlobal hwritten other text
    · exact hP.writeLocal hwritten name text
    · exact hP.writeGlobal (hP.writeLocal hwritten name text) other text

theorem lasting_builtin {nested : Nested} (hnested : ∀ command, Keeps P (nested command))
    (b : Builtin) (inv : Invocation) : Keeps P (b.run nested inv) := by
  have hcourse := course_keeps P
  by_cases hstore : touches b .store
  · cases b with
    | setAt => exact lasting_setAt hP inv
    | setVar =>
      change Keeps P (Command.setVar inv)
      unfold Command.setVar
      rcases Command.keyArgument? inv with _ | name
      · exact onward_throw hcourse _
      · exact onward_bind hcourse (keeps_modifyStore fun _ h => hP.writeLocal h name _)
          fun _ => onward_pure hcourse _
    | setGlobalVar =>
      change Keeps P (Command.setGlobalVar inv)
      unfold Command.setGlobalVar
      rcases Command.keyArgument? inv with _ | name
      · exact onward_throw hcourse _
      · exact onward_bind hcourse (keeps_modifyStore fun _ h => hP.writeGlobal h name _)
          fun _ => onward_pure hcourse _
    | flushVar =>
      exact onward_bind hcourse (keeps_modifyStore fun _ h => hP.deleteLocal h _)
        fun _ => onward_pure hcourse _
    | _ => exact hstore.elim
  · exact onward_run (admits_keeps P hstore) hnested inv

theorem lasting_dispatch {nested : Nested} (hnested : ∀ command, Keeps P (nested command))
    (call : Call) (pipe : String) : Keeps P (dispatch nested call pipe) := by
  intro m h
  rcases hget : m.registry.get? call.name with _ | command
  · rw [dispatch_unknown hget]
    exact h
  · rw [dispatch_found hget]
    have hhandler : Keeps P (command.handler.run nested (call.invocation pipe)) := by
      rcases command.handler with b | run
      · exact lasting_builtin hP hnested b _
      · have hhost : Admits (fun _ : Part => False) _ := admits_keeps P not_false
        exact onward_of_within hhost hnested (within_host run _)
    exact onward_leavingCommand (course_keeps P) hhandler _ h

/-- **What every write keeps, every run keeps**, at every depth and also when it fails. -/
theorem lasting_execute (text pipe : String) : Keeps P (execute text pipe) :=
  onward_execute (course_keeps P) (fun _ _ h => h) (fun _ => lasting_dispatch hP) text pipe

end Runs

/-! ### Numbered stores -/

theorem lasting_numbered : Lasting Numbered where
  writeLocal h name text := numbered_writeLocal h name text
  writeGlobal h name text := numbered_writeGlobal h name text
  deleteLocal h name := numbered_deleteLocal h name
  written h _ path := numbered_revise h (below_found h _ _ _) _ path

/-- **Every run keeps the store numbered.** -/
theorem numbered_execute (text pipe : String) {m : Machine} (h : Numbered m.store) :
    Numbered (execute text pipe m).2.store :=
  lasting_execute lasting_numbered text pipe m h

theorem numbered_run (text : String) {m : Machine} (h : Numbered m.store) :
    Numbered (m.run text).2.store := by
  have hexecute : Numbered (execute text "" m.fresh).2.store := numbered_execute text "" h
  unfold Machine.run
  rcases hresult : execute text "" m.fresh with ⟨_ | _, after⟩
  all_goals
    rw [hresult] at hexecute
    exact hexecute

/-- What runs a nested pipeline. -/
def nestedRun : Nested := fun command => do return (← execute command "").pipe

theorem numbered_dispatch (call : Call) (pipe : String) {m : Machine} (h : Numbered m.store) :
    Numbered (dispatch nestedRun call pipe m).2.store := by
  have hcourse := course_keeps Numbered
  have hnested (command : String) : Keeps Numbered (nestedRun command) :=
    onward_bind hcourse (lasting_execute lasting_numbered command "") fun _ => onward_pure hcourse _
  exact lasting_dispatch lasting_numbered hnested call pipe m h

/-- A machine that runs lead to from variables without numbers: after runs, and between two commands
of one.  What it holds besides its store does not count. -/
inductive Reached : Machine → Prop
  | start (locals globals : Entries Value) (registry : Registry) (maxDepth : ℕ) :
      Reached (Machine.start (Store.ofEntries locals globals) registry maxDepth)
  | run {m : Machine} (h : Reached m) (text : String) : Reached (m.run text).2
  | call {m : Machine} (h : Reached m) (call : Call) (pipe : String) :
      Reached (dispatch nestedRun call pipe m).2
  | aside {m n : Machine} (h : Reached m) (hstore : n.store = m.store) : Reached n

/-- **Wherever runs lead, the store is numbered.** -/
theorem numbered_of_reached {m : Machine} (h : Reached m) : Numbered m.store := by
  induction h with
  | start locals globals => exact numbered_ofEntries locals globals
  | run _ text ih => exact numbered_run text ih
  | call _ call pipe ih => exact numbered_dispatch call pipe ih
  | aside _ hstore ih => rwa [hstore]

/-- **A write that fails on the way** changes no variable but those that share a container with its
data. -/
theorem apart_of_reached {inv : Invocation} {m after : Machine} {fault : Fault} (hm : Reached m)
    (h : Command.setAt inv m = (.error fault, after)) :
    (∀ name, Apart (target inv m.store) (m.store.readLocal name) →
        after.store.locals.get? (.text name) = m.store.locals.get? (.text name)) ∧
      ∀ name, Apart (target inv m.store) (m.store.readGlobal name) →
        after.store.globals.get? (.text name) = m.store.globals.get? (.text name) :=
  ⟨fun _ hapart => local_of_failed_setAt h (numbered_of_reached hm) hapart,
    fun _ hapart => global_of_failed_setAt h (numbered_of_reached hm) hapart⟩

end PipeScript.Proofs.Machine.Invariants
