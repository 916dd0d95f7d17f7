import PipeScript.Store.Operand
import PipeScript.Proofs.Value.Entries
import Mathlib.Data.Nat.Notation
import Mathlib.Tactic.SplitIfs

/-! # What shared values have in common

A shared value *reaches* a node if the container with that number is inside it.  Values that reach
no node in common are *apart*: bringing one up to date with the other leaves it as it is
(`adopt_of_apart`).  A write inside a shared value reaches nothing new but nodes that no value has
reached before (`reaches_revise`).  So in a store whose numbers are all below its counter
(`Numbered`), a write inside one shared value leaves the variables apart from it alone
(`get?_revise_locals`, `get?_revise_globals`). -/

namespace PipeScript.Proofs.Store.Sharing

open PipeScript.Proofs.Value.Entries

/-- The container with a number is inside a shared value. -/
inductive Reaches (node : ℕ) : Shared → Prop where
  | list (items : List Shared) : Reaches node (.list node items)
  | item {other : ℕ} {items : List Shared} {item : Shared} (hitem : item ∈ items)
      (h : Reaches node item) : Reaches node (.list other items)
  | dict (entries : Entries Shared) : Reaches node (.dict node entries)
  | entry {other : ℕ} {entries : Entries Shared} {entry : Scalar × Shared}
      (hentry : entry ∈ entries) (h : Reaches node entry.2) : Reaches node (.dict other entries)

/-- No container is inside both of two shared values. -/
def Apart (a b : Shared) : Prop := ∀ node, Reaches node a → ¬ Reaches node b

/-- All containers inside a shared value have numbers below a limit. -/
def Below (limit : ℕ) (s : Shared) : Prop := ∀ node, Reaches node s → node < limit

theorem not_reaches_plain (node : ℕ) (v : Value) : ¬ Reaches node (.plain v) := nofun

theorem below_plain (limit : ℕ) (v : Value) : Below limit (.plain v) :=
  fun node h => absurd h (not_reaches_plain node v)

theorem reaches_list_iff {node other : ℕ} {items : List Shared} :
    Reaches node (.list other items) ↔ node = other ∨ ∃ item ∈ items, Reaches node item := by
  constructor
  · intro h
    cases h with
    | list => exact .inl rfl
    | item hitem h => exact .inr ⟨_, hitem, h⟩
  · rintro (rfl | ⟨item, hitem, h⟩)
    · exact .list items
    · exact .item hitem h

theorem reaches_dict_iff {node other : ℕ} {entries : Entries Shared} :
    Reaches node (.dict other entries) ↔
      node = other ∨ ∃ entry ∈ entries, Reaches node entry.2 := by
  constructor
  · intro h
    cases h with
    | dict => exact .inl rfl
    | entry hentry h => exact .inr ⟨_, hentry, h⟩
  · rintro (rfl | ⟨entry, hentry, h⟩)
    · exact .dict entries
    · exact .entry hentry h

/-- Induction on a shared value, part by part. -/
@[elab_as_elim]
theorem parts_induction {P : Shared → Prop} (plain : ∀ v, P (.plain v))
    (list : ∀ node items, (∀ item ∈ items, P item) → P (.list node items))
    (dict : ∀ node entries, (∀ entry ∈ entries, P entry.2) → P (.dict node entries)) (s : Shared) :
    P s := by
  match s with
  | .plain v => exact plain v
  | .list node items => exact list node items fun item _ => parts_induction plain list dict item
  | .dict node entries =>
    exact dict node entries fun entry _ => parts_induction plain list dict entry.2
termination_by sizeOf s
decreasing_by
  · have hitem := List.sizeOf_lt_of_mem ‹item ∈ items›
    simp only [Shared.list.sizeOf_spec]
    omega
  · have hentry := List.sizeOf_lt_of_mem ‹entry ∈ entries›
    obtain ⟨key, item⟩ := entry
    simp only [Prod.mk.sizeOf_spec, Shared.dict.sizeOf_spec] at hentry ⊢
    omega

/-! ### Finding and adopting -/

theorem findInItems?_eq (node : ℕ) (items : List Shared) :
    Shared.findInItems? node items = items.findSome? (Shared.find? node) := by
  induction items with
  | nil => rfl
  | cons item items ih =>
    rw [Shared.findInItems?, ih, List.findSome?_cons]
    cases Shared.find? node item <;> rfl

theorem findInEntries?_eq (node : ℕ) (entries : Entries Shared) :
    Shared.findInEntries? node entries = entries.findSome? fun entry => entry.2.find? node := by
  induction entries with
  | nil => rfl
  | cons entry entries ih =>
    rw [Shared.findInEntries?, ih, List.findSome?_cons]
    cases Shared.find? node entry.2 <;> rfl

theorem adoptItems_eq (source : Shared) (items : List Shared) :
    source.adoptItems items = items.map source.adopt := by
  induction items with
  | nil => rfl
  | cons item items ih => rw [Shared.adoptItems, ih, List.map_cons]

theorem adoptEntries_eq (source : Shared) (entries : Entries Shared) :
    source.adoptEntries entries = entries.mapItems source.adopt := by
  induction entries with
  | nil => rfl
  | cons entry entries ih =>
    rw [Shared.adoptEntries, ih]
    rfl

/-- What is found inside a shared value reaches nothing else: neither its own number nor others. -/
theorem reaches_of_find? {node : ℕ} {source found : Shared} (h : source.find? node = some found) :
    Reaches node source ∧ ∀ other, Reaches other found → Reaches other source := by
  induction source using parts_induction with
  | plain v => cases h
  | list n items ih =>
    rw [Shared.find?] at h
    split_ifs at h with hn
    · cases h
      exact ⟨hn ▸ .list items, fun _ h => h⟩
    · rw [findInItems?_eq] at h
      obtain ⟨item, hitem, hfound⟩ := List.exists_of_findSome?_eq_some h
      obtain ⟨hnode, hothers⟩ := ih item hitem hfound
      exact ⟨.item hitem hnode, fun other hother => .item hitem (hothers other hother)⟩
  | dict n entries ih =>
    rw [Shared.find?] at h
    split_ifs at h with hn
    · cases h
      exact ⟨hn ▸ .dict entries, fun _ h => h⟩
    · rw [findInEntries?_eq] at h
      obtain ⟨entry, hentry, hfound⟩ := List.exists_of_findSome?_eq_some h
      obtain ⟨hnode, hothers⟩ := ih entry hentry hfound
      exact ⟨.entry hentry hnode, fun other hother => .entry hentry (hothers other hother)⟩

theorem find?_eq_none {node : ℕ} {source : Shared} (h : ¬ Reaches node source) :
    source.find? node = none := by
  rcases hfound : source.find? node with _ | found
  · rfl
  · exact absurd (reaches_of_find? hfound).1 h

/-- **Values apart** have nothing to tell each other. -/
theorem adopt_of_apart {source s : Shared} (h : Apart source s) : source.adopt s = s := by
  induction s using parts_induction with
  | plain v => rfl
  | list node items ih =>
    have hnode : ¬ Reaches node source := fun hsource => h node hsource (.list items)
    have hitems : ∀ item ∈ items, source.adopt item = item :=
      fun item hitem => ih item hitem fun n hn hs => h n hn (.item hitem hs)
    rw [Shared.adopt, find?_eq_none hnode, Option.getD_none, adoptItems_eq,
      List.map_congr_left hitems, List.map_id']
  | dict node entries ih =>
    have hnode : ¬ Reaches node source := fun hsource => h node hsource (.dict entries)
    have hentries : ∀ entry ∈ entries, (entry.1, source.adopt entry.2) = entry := by
      intro entry hentry
      rw [ih entry hentry fun n hn hs => h n hn (.entry hentry hs)]
    rw [Shared.adopt, find?_eq_none hnode, Option.getD_none, adoptEntries_eq]
    exact congrArg _ ((List.map_congr_left hentries).trans (List.map_id' entries))

/-- What has been brought up to date reaches what it reached before, or what its source reaches. -/
theorem reaches_adopt {node : ℕ} {source s : Shared} (h : Reaches node (source.adopt s)) :
    Reaches node s ∨ Reaches node source := by
  induction s using parts_induction with
  | plain v => exact .inl h
  | list n items ih =>
    rw [Shared.adopt] at h
    rcases hfound : source.find? n with _ | found
    · rw [hfound, Option.getD_none, adoptItems_eq, reaches_list_iff] at h
      obtain rfl | ⟨after, hafter, h⟩ := h
      · exact .inl (.list items)
      · obtain ⟨item, hitem, rfl⟩ := List.mem_map.mp hafter
        exact (ih item hitem h).imp (.item hitem) id
    · rw [hfound, Option.getD_some] at h
      exact .inr ((reaches_of_find? hfound).2 node h)
  | dict n entries ih =>
    rw [Shared.adopt] at h
    rcases hfound : source.find? n with _ | found
    · rw [hfound, Option.getD_none, adoptEntries_eq, reaches_dict_iff] at h
      obtain rfl | ⟨after, hafter, h⟩ := h
      · exact .inl (.dict entries)
      · obtain ⟨entry, hentry, rfl⟩ := List.mem_map.mp hafter
        exact (ih entry hentry h).imp (.entry hentry) id
    · rw [hfound, Option.getD_some] at h
      exact .inr ((reaches_of_find? hfound).2 node h)

/-! ### Numbers from the counter -/

/-- A way to build a shared value that reaches only old nodes and nodes that it numbers itself. -/
def Builds (old : ℕ → Prop) (build : StateM ℕ Shared) : Prop :=
  ∀ start, start ≤ (build.run start).2 ∧
    ∀ node, Reaches node (build.run start).1 →
      old node ∨ start ≤ node ∧ node < (build.run start).2

theorem builds_pure {old : ℕ → Prop} {s : Shared} (h : ∀ node, Reaches node s → old node) :
    Builds old (pure s) :=
  fun start => ⟨Nat.le_refl start, fun node hnode => .inl (h node hnode)⟩

/-- What is put around a part that is built may reach that part and old nodes. -/
theorem builds_around {old : ℕ → Prop} {build : StateM ℕ Shared} (hbuild : Builds old build)
    {f : Shared → Shared} (hf : ∀ s node, Reaches node (f s) → Reaches node s ∨ old node) :
    Builds old (do return f (← build)) := by
  intro start
  obtain ⟨hle, hnodes⟩ := hbuild start
  refine ⟨hle, fun node hnode => ?_⟩
  rcases hf _ node hnode with hnode | hold
  · exact hnodes node hnode
  · exact .inl hold

theorem Builds.mono {old older : ℕ → Prop} {build : StateM ℕ Shared} (h : Builds old build)
    (hold : ∀ node, old node → older node) : Builds older build :=
  fun start => ⟨(h start).1, fun node hnode => ((h start).2 node hnode).imp_left (hold node)⟩

/-- Items that are numbered one after the other. -/
theorem numberItems_spec {items : List Value}
    (h : ∀ item ∈ items, Builds (fun _ => False) (Shared.number item)) (start : ℕ) :
    start ≤ ((Shared.numberItems items).run start).2 ∧
      ∀ item ∈ ((Shared.numberItems items).run start).1, ∀ node, Reaches node item →
        start ≤ node ∧ node < ((Shared.numberItems items).run start).2 := by
  induction items generalizing start with
  | nil => exact ⟨Nat.le_refl start, fun _ h => (List.not_mem_nil h).elim⟩
  | cons first rest ih =>
    obtain ⟨hle, hfirst⟩ := h first (List.mem_cons_self ..) start
    obtain ⟨hle', hrest⟩ := ih (fun item hitem => h item (List.mem_cons_of_mem _ hitem))
      ((Shared.number first).run start).2
    refine ⟨Nat.le_trans hle hle', fun item hitem node hnode => ?_⟩
    rcases List.mem_cons.mp hitem with rfl | hitem
    · obtain hfalse | ⟨hlow, hhigh⟩ := hfirst node hnode
      · exact hfalse.elim
      · exact ⟨hlow, Nat.lt_of_lt_of_le hhigh hle'⟩
    · obtain ⟨hlow, hhigh⟩ := hrest item hitem node hnode
      exact ⟨Nat.le_trans hle hlow, hhigh⟩

/-- Entries that are numbered one after the other. -/
theorem numberEntries_spec {entries : Entries Value}
    (h : ∀ entry ∈ entries, Builds (fun _ => False) (Shared.number entry.2)) (start : ℕ) :
    start ≤ ((Shared.numberEntries entries).run start).2 ∧
      ∀ entry ∈ ((Shared.numberEntries entries).run start).1, ∀ node, Reaches node entry.2 →
        start ≤ node ∧ node < ((Shared.numberEntries entries).run start).2 := by
  induction entries generalizing start with
  | nil => exact ⟨Nat.le_refl start, fun _ h => (List.not_mem_nil h).elim⟩
  | cons first rest ih =>
    obtain ⟨key, value⟩ := first
    obtain ⟨hle, hfirst⟩ := h (key, value) (List.mem_cons_self ..) start
    obtain ⟨hle', hrest⟩ := ih (fun entry hentry => h entry (List.mem_cons_of_mem _ hentry))
      ((Shared.number value).run start).2
    refine ⟨Nat.le_trans hle hle', fun entry hentry node hnode => ?_⟩
    rcases List.mem_cons.mp hentry with rfl | hentry
    · obtain hfalse | ⟨hlow, hhigh⟩ := hfirst node hnode
      · exact hfalse.elim
      · exact ⟨hlow, Nat.lt_of_lt_of_le hhigh hle'⟩
    · obtain ⟨hlow, hhigh⟩ := hrest entry hentry node hnode
      exact ⟨Nat.le_trans hle hlow, hhigh⟩

/-- **A value with fresh numbers** reaches nothing but these. -/
theorem builds_number (v : Value) : Builds (fun _ => False) (Shared.number v) := by
  induction v using value_induction with
  | scalar s => exact builds_pure (not_reaches_plain · _)
  | list items ih =>
    intro start
    obtain ⟨hle, hitems⟩ := numberItems_spec ih (start + 1)
    refine ⟨Nat.le_trans (Nat.le_succ start) hle, fun node hnode => .inr ?_⟩
    obtain rfl | ⟨item, hitem, hnode⟩ := reaches_list_iff.mp hnode
    · exact ⟨Nat.le_refl _, hle⟩
    · obtain ⟨hlow, hhigh⟩ := hitems item hitem node hnode
      exact ⟨Nat.le_of_succ_le hlow, hhigh⟩
  | dict entries ih =>
    intro start
    obtain ⟨hle, hentries⟩ := numberEntries_spec ih (start + 1)
    refine ⟨Nat.le_trans (Nat.le_succ start) hle, fun node hnode => .inr ?_⟩
    obtain rfl | ⟨entry, hentry, hnode⟩ := reaches_dict_iff.mp hnode
    · exact ⟨Nat.le_refl _, hle⟩
    · obtain ⟨hlow, hhigh⟩ := hentries entry hentry node hnode
      exact ⟨Nat.le_of_succ_le hlow, hhigh⟩

/-- One step in a list: the item that the write goes on in is one of the list or plain. -/
theorem builds_revise_list {rest : Path}
    (ih : ∀ (old : Shared) (new : Value), Builds (Reaches · old) (old.revise new rest)) (node : ℕ)
    (items : List Shared) (values : List Value) (token : Value) :
    Builds (Reaches · (.list node items))
      ((Shared.list node items).revise (.list values) (token :: rest)) := by
  rw [Shared.revise.eq_def]
  dsimp only
  generalize hpadded : items ++ (values.drop items.length).map .plain = padded
  have hold : ∀ item ∈ padded, ∀ n, Reaches n item → Reaches n (.list node items) := by
    intro item hitem n hn
    rw [← hpadded] at hitem
    rcases List.mem_append.mp hitem with hitem | hitem
    · exact .item hitem hn
    · obtain ⟨v, -, rfl⟩ := List.mem_map.mp hitem
      exact absurd hn (not_reaches_plain n v)
  have hkeep : Builds (Reaches · (.list node items)) (pure (.list node padded)) := by
    refine builds_pure fun n hn => ?_
    obtain rfl | ⟨item, hitem, hn⟩ := reaches_list_iff.mp hn
    · exact .list items
    · exact hold item hitem n hn
  split
  · exact hkeep
  · exact hkeep
  · next index hindex =>
    split
    · next item value hitem hvalue =>
      have hchild : ∀ n,
          Reaches n (if Shared.namesExactly token index then item else .plain .null) →
            Reaches n (.list node items) := by
        intro n hn
        split_ifs at hn with hexact
        · exact hold item (List.mem_of_getElem? hitem) n hn
        · exact absurd hn (not_reaches_plain n _)
      refine builds_around ((ih _ value).mono hchild) fun s n hn => ?_
      obtain rfl | ⟨other, hother, hreach⟩ := reaches_list_iff.mp hn
      · exact .inr (.list items)
      · rcases List.mem_or_eq_of_mem_set hother with hother | rfl
        · exact .inr (hold other hother n hreach)
        · exact .inl hreach
    · exact hkeep

/-- One step in a dictionary. -/
theorem builds_revise_dict {rest : Path}
    (ih : ∀ (old : Shared) (new : Value), Builds (Reaches · old) (old.revise new rest)) (node : ℕ)
    (entries : Entries Shared) (values : Entries Value) (token : Value) :
    Builds (Reaches · (.dict node entries))
      ((Shared.dict node entries).revise (.dict values) (token :: rest)) := by
  rw [Shared.revise.eq_def]
  dsimp only
  split
  · exact builds_pure fun n hn => hn
  · next value hvalue =>
    have hchild : ∀ n,
        Reaches n ((Entries.get? (.text token.asText) entries).getD (.plain .null)) →
          Reaches n (.dict node entries) := by
      intro n hn
      rcases hitem : Entries.get? (.text token.asText) entries with _ | item
      · rw [hitem] at hn
        exact absurd hn (not_reaches_plain n _)
      · rw [hitem] at hn
        obtain ⟨key, hentry⟩ := mem_of_get? hitem
        exact .entry hentry hn
    refine builds_around ((ih _ value).mono hchild) fun s n hn => ?_
    obtain rfl | ⟨entry, hentry, hreach⟩ := reaches_dict_iff.mp hn
    · exact .inr (.dict entries)
    · rcases mem_insert_text hentry with rfl | hentry
      · exact .inl hreach
      · exact .inr (.entry hentry hreach)

/-- **A write inside a shared value** reaches nothing new but nodes that it numbers itself. -/
theorem builds_revise (old : Shared) (new : Value) (path : Path) :
    Builds (Reaches · old) (old.revise new path) := by
  have hnumber : ∀ (old : Shared) (new : Value), Builds (Reaches · old) (Shared.number new) :=
    fun old new => (builds_number new).mono fun _ h => h.elim
  induction path generalizing old new with
  | nil => exact hnumber old new
  | cons token rest ih =>
    rcases old with (s | items | entries) | ⟨node, items⟩ | ⟨node, entries⟩
    · rcases new with t | values | values
      · rw [Shared.revise.eq_def]
        refine builds_pure fun n hn => ?_
        split_ifs at hn with hst
        · exact hn
        · exact absurd hn (not_reaches_plain n _)
      · exact hnumber _ _
      · exact hnumber _ _
    · exact hnumber _ _
    · exact hnumber _ _
    · rcases new with t | values | values
      · exact hnumber _ _
      · exact builds_revise_list ih node items values token
      · exact hnumber _ _
    · rcases new with t | values | values
      · exact hnumber _ _
      · exact hnumber _ _
      · exact builds_revise_dict ih node entries values token

/-! ### Stores -/

/-- All containers of the variables have numbers that the counter has passed. -/
structure Numbered (store : Store) : Prop where
  locals : ∀ entry ∈ store.locals, Below store.nextNode entry.2
  globals : ∀ entry ∈ store.globals, Below store.nextNode entry.2

/-- **A store of given variables** is numbered. -/
theorem numbered_ofEntries (locals globals : Entries Value) :
    Numbered (Store.ofEntries locals globals) := by
  have hnumber : ∀ entries : Entries Value,
      ∀ entry ∈ entries, Builds (fun _ => False) (Shared.number entry.2) :=
    fun _ entry _ => builds_number entry.2
  obtain ⟨-, hlocals⟩ := numberEntries_spec (hnumber locals) 0
  obtain ⟨hle, hglobals⟩ := numberEntries_spec (hnumber globals)
    ((Shared.numberEntries locals).run 0).2
  exact ⟨fun entry hentry node hnode => Nat.lt_of_lt_of_le (hlocals entry hentry node hnode).2 hle,
    fun entry hentry node hnode => (hglobals entry hentry node hnode).2⟩

section Writes

variable {store : Store} (h : Numbered store)
include h

theorem numbered_writeLocal (name text : String) : Numbered (store.writeLocal name text) := by
  refine ⟨fun entry hentry => ?_, h.globals⟩
  rcases mem_insert_text hentry with rfl | hentry
  · exact below_plain _ _
  · exact h.locals entry hentry

theorem numbered_writeGlobal (name text : String) : Numbered (store.writeGlobal name text) := by
  refine ⟨h.locals, fun entry hentry => ?_⟩
  rcases mem_insert_text hentry with rfl | hentry
  · exact below_plain _ _
  · exact h.globals entry hentry

theorem numbered_deleteLocal (name : String) : Numbered (store.deleteLocal name) :=
  ⟨fun entry hentry => h.locals entry (mem_of_mem_erase hentry), h.globals⟩

/-- **A write inside a shared value** keeps the store numbered. -/
theorem numbered_revise {old : Shared} (hold : Below store.nextNode old) (new : Value)
    (path : Path) : Numbered (store.revise old new path) := by
  unfold Store.revise
  split
  · exact h
  · obtain ⟨hle, hnodes⟩ := builds_revise old new path store.nextNode
    have hadopted : ∀ entries : Entries Shared, (∀ entry ∈ entries, Below store.nextNode entry.2) →
        ∀ entry ∈ entries.mapItems ((old.revise new path).run store.nextNode).1.adopt,
          Below ((old.revise new path).run store.nextNode).2 entry.2 := by
      intro entries hentries entry hentry node hnode
      obtain ⟨before, hbefore, rfl⟩ := List.mem_map.mp hentry
      rcases reaches_adopt hnode with hnode | hnode
      · exact Nat.lt_of_lt_of_le (hentries before hbefore node hnode) hle
      · obtain hreach | ⟨-, hlt⟩ := hnodes node hnode
        · exact Nat.lt_of_lt_of_le (hold node hreach) hle
        · exact hlt
    exact ⟨hadopted _ h.locals, hadopted _ h.globals⟩

end Writes

/-! ### What a command finds -/

theorem below_getD {limit : ℕ} {entries : Entries Shared}
    (h : ∀ entry ∈ entries, Below limit entry.2) (key : Scalar) :
    Below limit ((Entries.get? key entries).getD (.plain .null)) := by
  rcases hget : Entries.get? key entries with _ | item
  · exact below_plain _ _
  · obtain ⟨other, hentry⟩ := mem_of_get? hget
    exact h _ hentry

theorem below_structured {limit : ℕ} {s : Shared} (h : Below limit s) :
    Below limit s.structured := by
  unfold Shared.structured
  split
  · exact below_plain _ _
  · exact h

theorem below_firstTruthy {limit : ℕ} {sources : List (Option Shared)}
    (h : ∀ s, some s ∈ sources → Below limit s) : Below limit (Store.firstTruthy sources) := by
  unfold Store.firstTruthy
  refine List.foldlRecOn sources _ (below_plain _ _) fun found hfound source hsource => ?_
  rcases source with _ | item
  · exact hfound
  · dsimp only
    split_ifs
    · exact hfound
    · exact h item hsource

/-- **The data that a command finds** has numbers that the counter has passed. -/
theorem below_found {store : Store} (h : Numbered store) (local? global? : Option String)
    (literal : Value) : Below store.nextNode (store.structured local? global? literal) := by
  refine below_firstTruthy fun s hs => ?_
  have hnamed : ∀ (read : String → Shared), (∀ name, Below store.nextNode (read name)) →
      ∀ name? s, (Store.named read name?).map Shared.structured = some s →
        Below store.nextNode s := by
    intro read hread name? s hsource
    obtain ⟨item, hitem, rfl⟩ := Option.map_eq_some_iff.mp hsource
    unfold Store.named at hitem
    split at hitem
    · split_ifs at hitem
      cases hitem
      exact below_structured (hread _)
    · cases hitem
  simp only [List.map_cons, List.map_nil, List.mem_cons, List.not_mem_nil, or_false] at hs
  rcases hs with hs | hs | hs
  · exact hnamed store.readLocal (fun _ => below_getD h.locals _) local? s hs.symm
  · exact hnamed store.readGlobal (fun _ => below_getD h.globals _) global? s hs.symm
  · obtain ⟨item, hitem, rfl⟩ := Option.map_eq_some_iff.mp hs.symm
    unfold Store.literalSource at hitem
    split_ifs at hitem
    cases hitem
    exact below_structured (below_plain _ _)

/-- After a write, what is apart from the value written inside is as it was. -/
theorem adopt_revise {old s : Shared} {start : ℕ} (hapart : Apart old s) (hbelow : Below start s)
    (new : Value) (path : Path) : ((old.revise new path).run start).1.adopt s = s := by
  refine adopt_of_apart fun node hsource hnode => ?_
  obtain ⟨-, hnodes⟩ := builds_revise old new path start
  obtain hold | ⟨hle, -⟩ := hnodes node hsource
  · exact hapart node hold hnode
  · exact Nat.not_lt.mpr hle (hbelow node hnode)

theorem get?_adopted {entries : Entries Shared} {old : Shared} {start : ℕ} (name : String)
    (hentries : ∀ entry ∈ entries, Below start entry.2)
    (hapart : Apart old ((entries.get? (.text name)).getD (.plain .null)))
    (new : Value) (path : Path) :
    Entries.get? (.text name) (entries.mapItems ((old.revise new path).run start).1.adopt) =
      Entries.get? (.text name) entries := by
  rw [get?_mapItems]
  rcases hget : Entries.get? (.text name) entries with _ | item
  · rfl
  · rw [hget, Option.getD_some] at hapart
    obtain ⟨key, hentry⟩ := mem_of_get? hget
    rw [Option.map_some, adopt_revise hapart (hentries _ hentry)]

section Revise

variable {store : Store} (hstore : Numbered store) {old : Shared} (name : String) (new : Value)
  (path : Path)
include hstore

/-- **A write inside a shared value** leaves a local variable apart from it as it was. -/
theorem get?_revise_locals (hapart : Apart old (store.readLocal name)) :
    (store.revise old new path).locals.get? (.text name) = store.locals.get? (.text name) := by
  unfold Store.revise
  split
  · rfl
  · exact get?_adopted name hstore.locals hapart new path

/-- So it does a global one. -/
theorem get?_revise_globals (hapart : Apart old (store.readGlobal name)) :
    (store.revise old new path).globals.get? (.text name) = store.globals.get? (.text name) := by
  unfold Store.revise
  split
  · rfl
  · exact get?_adopted name hstore.globals hapart new path

end Revise

end PipeScript.Proofs.Store.Sharing
