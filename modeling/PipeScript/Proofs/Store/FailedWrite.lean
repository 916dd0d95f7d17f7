import PipeScript.Proofs.Store.Sharing
import PipeScript.Proofs.Machine.Programs
import PipeScript.Command.Structure

/-! # Writes that fail

`/setat` refuses its index, or writes inside its data as far as it gets; then it fails, or stores
the text of the outcome (`setAt_cases`).  Data that comes from a text or a literal is its own, so a
write that fails leaves the machine as it was (`machine_of_failed_setAt`).  A list or a dictionary
that a variable holds is written in place: what a failed write has created, decoded or replaced
there stays (`failed_setAt_leaves_list`).  It stays in this value, though: no variable changes that
has no container in common with it (`variables_of_failed_setAt`). -/

namespace PipeScript.Proofs.Store.FailedWrite

open PipeScript.Proofs.Machine.Programs PipeScript.Proofs.Store.Sharing

/-! ### What `/setat` can do -/

/-- The data that `/setat` writes into. -/
def target (inv : Invocation) (store : Store) : Shared :=
  store.structured (inv.argument? "var") (inv.argument? "globalvar") (inv.argumentValue "value")

/-- The store once `/setat` has written inside its data, as far as it got. -/
def written (inv : Invocation) (path : Path) (store : Store) : Store :=
  store.revise (target inv store)
    ((target inv store).toValue.setAt path (decodedText inv.value)).1 path

/-- The store with a text in the variables that the command names. -/
def stored (inv : Invocation) (text : String) (store : Store) : Store :=
  let store := match inv.given? "var" with
    | some name => store.writeLocal name text
    | none => store
  match inv.given? "globalvar" with
  | some name => store.writeGlobal name text
  | none => store

section Cases

variable {inv : Invocation} {path : Path}
  (hpath : Path.ofIndex (inv.argumentValue "index") = .ok path) (m : Machine)
include hpath

theorem path_apply : inv.path m = (.ok path, m) := by
  unfold Invocation.path
  rw [hpath]
  rfl

/-- A write that gets stuck leaves what it has written. -/
theorem setAt_of_fault {fault : Fault}
    (hset : ((target inv m.store).toValue.setAt path (decodedText inv.value)).2 = some fault) :
    Command.setAt inv m = (.error fault, { m with store := written inv path m.store }) := by
  have hdata : inv.structured (inv.argumentValue "value") m = (.ok (target inv m.store), m) := rfl
  unfold Command.setAt
  rw [bind_ok m (path_apply hpath m), bind_ok m hdata]
  dsimp only
  rw [bind_ok m (modifyStore_apply m _), hset]
  rfl

/-- A write that gets through stores its text, unless an integer in it is too long to be written. -/
theorem setAt_of_written {updated : Value}
    (hset : (target inv m.store).toValue.setAt path (decodedText inv.value) = (updated, none)) :
    Command.setAt inv m =
      if updated.hasLongInteger then
        (.error (.digitLimit none), { m with store := written inv path m.store })
      else
        (.ok updated.pipeText,
          { m with store := stored inv updated.pipeText (written inv path m.store) }) := by
  have hdata : inv.structured (inv.argumentValue "value") m = (.ok (target inv m.store), m) := rfl
  unfold Command.setAt
  rw [bind_ok m (path_apply hpath m), bind_ok m hdata]
  dsimp only
  rw [bind_ok m (modifyStore_apply m _)]
  simp only [hset, written]
  unfold Action.write
  split_ifs
  · rfl
  · unfold stored
    rcases inv.given? "var" with _ | name <;> rcases inv.given? "globalvar" with _ | other
    all_goals rfl

/-- A write that gets through stores its text, if it has one. -/
theorem setAt_of_success
    (hset : ((target inv m.store).toValue.setAt path (decodedText inv.value)).2 = none) :
    (∃ fault, Command.setAt inv m = (.error fault, { m with store := written inv path m.store })) ∨
      ∃ text, Command.setAt inv m =
        (.ok text, { m with store := stored inv text (written inv path m.store) }) := by
  rw [setAt_of_written hpath m (Prod.ext rfl hset)]
  split_ifs
  · exact .inl ⟨_, rfl⟩
  · exact .inr ⟨_, rfl⟩

end Cases

/-- **What `/setat` can do**: refuse its index; write inside its data and fail; or write inside its
data and store the text of the outcome. -/
theorem setAt_cases (inv : Invocation) (m : Machine) :
    (∃ fault, Command.setAt inv m = (.error fault, m)) ∨
      ∃ path, Path.ofIndex (inv.argumentValue "index") = .ok path ∧
        ((∃ fault, Command.setAt inv m =
            (.error fault, { m with store := written inv path m.store })) ∨
          ∃ text, Command.setAt inv m =
            (.ok text, { m with store := stored inv text (written inv path m.store) })) := by
  rcases hpath : Path.ofIndex (inv.argumentValue "index") with fault | path
  · left
    refine ⟨fault, ?_⟩
    unfold Command.setAt Invocation.path
    rw [hpath]
    rfl
  · right
    refine ⟨path, rfl, ?_⟩
    rcases hset : ((target inv m.store).toValue.setAt path (decodedText inv.value)).2 with _ | fault
    · exact setAt_of_success hpath m hset
    · exact .inl ⟨fault, setAt_of_fault hpath m hset⟩

/-- A write that fails has refused its index, or written inside its data and nothing else. -/
theorem failed_setAt_cases {inv : Invocation} {m after : Machine} {fault : Fault}
    (h : Command.setAt inv m = (.error fault, after)) :
    after = m ∨ ∃ path, Path.ofIndex (inv.argumentValue "index") = .ok path ∧
      after = { m with store := written inv path m.store } := by
  obtain ⟨_, hcase⟩ | ⟨path, hpath, ⟨_, hcase⟩ | ⟨_, hcase⟩⟩ := setAt_cases inv m
  · rw [hcase] at h
    exact .inl (Prod.mk.inj h).2.symm
  · rw [hcase] at h
    exact .inr ⟨path, hpath, (Prod.mk.inj h).2.symm⟩
  · rw [hcase] at h
    cases h

/-! ### What a failed write leaves -/

/-- A write into data of its own is no one else's concern. -/
theorem written_of_plain {inv : Invocation} {store : Store} {v : Value}
    (hplain : target inv store = .plain v) (path : Path) : written inv path store = store := by
  unfold written
  rw [hplain]
  rfl

/-- **Data of its own**: a write that fails leaves the machine as it was. -/
theorem machine_of_failed_setAt {inv : Invocation} {m after : Machine} {fault : Fault}
    (h : Command.setAt inv m = (.error fault, after)) {v : Value}
    (hplain : target inv m.store = .plain v) : after = m := by
  obtain rfl | ⟨path, -, rfl⟩ := failed_setAt_cases h
  · rfl
  · rw [written_of_plain hplain]

section Apart

variable {inv : Invocation} {m after : Machine} {fault : Fault}
  (h : Command.setAt inv m = (.error fault, after)) (hstore : Numbered m.store)
include h hstore

theorem local_of_failed_setAt {name : String}
    (hapart : Apart (target inv m.store) (m.store.readLocal name)) :
    after.store.locals.get? (.text name) = m.store.locals.get? (.text name) := by
  obtain rfl | ⟨path, -, rfl⟩ := failed_setAt_cases h
  · rfl
  · exact get?_revise_locals hstore name _ path hapart

theorem global_of_failed_setAt {name : String}
    (hapart : Apart (target inv m.store) (m.store.readGlobal name)) :
    after.store.globals.get? (.text name) = m.store.globals.get? (.text name) := by
  obtain rfl | ⟨path, -, rfl⟩ := failed_setAt_cases h
  · rfl
  · exact get?_revise_globals hstore name _ path hapart

end Apart

/-- **A failed write changes no variable** but those that share a container with its data. -/
theorem variables_of_failed_setAt {inv : Invocation} {m after : Machine} {fault : Fault}
    (h : Command.setAt inv m = (.error fault, after)) (hstore : Numbered m.store) :
    (∀ name, Apart (target inv m.store) (m.store.readLocal name) →
        after.store.locals.get? (.text name) = m.store.locals.get? (.text name)) ∧
      ∀ name, Apart (target inv m.store) (m.store.readGlobal name) →
        after.store.globals.get? (.text name) = m.store.globals.get? (.text name) :=
  ⟨fun _ hapart => local_of_failed_setAt h hstore hapart,
    fun _ hapart => global_of_failed_setAt h hstore hapart⟩

/-- An empty dictionary and a list that variables hold. -/
def heldStore : Store :=
  Store.ofEntries [(.text "x", .dict []), (.text "y", .list [.int 1])] []

def heldMachine : Machine := Machine.start heldStore Registry.empty 64

/-- A write that creates a list under `"a"` and cannot go on in it. -/
def stuckWrite : Invocation := ⟨[("var", "x"), ("index", "[\"a\",\"-1\"]")], "1", ""⟩

theorem path_stuckWrite :
    Path.ofIndex (stuckWrite.argumentValue "index") = .ok [.text "a", .text "-1"] := by
  have hparse : Json.parse? "[\"a\",\"-1\"]" = some (.list [.text "a", .text "-1"]) := by cbv
  have hindex : stuckWrite.argumentValue "index" = .text "[\"a\",\"-1\"]" := rfl
  rw [hindex, Path.ofIndex, hparse]

theorem setAt_stuckWrite : Command.setAt stuckWrite heldMachine =
    (.error (.badListIndex "-1"),
      { heldMachine with store := written stuckWrite [.text "a", .text "-1"] heldStore }) :=
  setAt_of_fault path_stuckWrite heldMachine rfl

theorem numbered_heldMachine : Numbered heldMachine.store :=
  numbered_ofEntries [(.text "x", .dict []), (.text "y", .list [.int 1])] []

theorem apart_heldStore : Apart (target stuckWrite heldStore) (heldStore.readLocal "y") := by
  have htarget : target stuckWrite heldStore = .dict 0 [] := rfl
  have hother : heldStore.readLocal "y" = .list 1 [.plain (.int 1)] := rfl
  rw [htarget, hother]
  intro node hnode hreach
  obtain rfl | ⟨_, hentry, -⟩ := reaches_dict_iff.mp hnode
  · obtain hone | ⟨item, hitem, hreach⟩ := reaches_list_iff.mp hreach
    · cases hone
    · obtain rfl := List.mem_singleton.mp hitem
      exact not_reaches_plain 0 _ hreach
  · cases hentry

/-- The list beside the dictionary stays when a write inside the dictionary fails. -/
theorem variables_of_stuckWrite :
    Command.setAt stuckWrite heldMachine =
        (.error (.badListIndex "-1"),
          { heldMachine with store := written stuckWrite [.text "a", .text "-1"] heldStore }) ∧
      Numbered heldMachine.store ∧ Apart (target stuckWrite heldStore) (heldStore.readLocal "y") ∧
      (written stuckWrite [.text "a", .text "-1"] heldStore).locals.get? (.text "y") =
        heldStore.locals.get? (.text "y") :=
  ⟨setAt_stuckWrite, numbered_heldMachine, apart_heldStore,
    (variables_of_failed_setAt setAt_stuckWrite numbered_heldMachine).1 "y" apart_heldStore⟩

/-- **The dictionary itself does not**: the list that the failed write has created stays in it. -/
theorem failed_setAt_leaves_list :
    ∃ fault after, Command.setAt stuckWrite heldMachine = (.error fault, after) ∧
      heldMachine.store.localValues = [(.text "x", .dict []), (.text "y", .list [.int 1])] ∧
      after.store.localValues =
        [(.text "x", .dict [(.text "a", .list [])]), (.text "y", .list [.int 1])] :=
  ⟨_, _, setAt_stuckWrite, rfl, rfl⟩

end PipeScript.Proofs.Store.FailedWrite
