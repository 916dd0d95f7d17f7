import PipeScript.Value.Basic
import Mathlib.Data.List.Nodup
import Mathlib.Tactic.SplitIfs

/-! # Entries

Looking up what was put in gives it back, whatever the keys are (`get?_insert_self`).  Entries that
come from a text have text keys, all distinct (`TextKeys`); such entries stay as they are when they
are put together anew (`ofPairs_of_textKeys`).  A value is followed through its items and entries by
induction (`value_induction`). -/

namespace PipeScript.Proofs.Value.Entries

open PipeScript

section Keys

variable {α : Type}

theorem sameKey_text_iff {k : Scalar} {s : String} : k.sameKey (.text s) = true ↔ k = .text s := by
  cases k with
  | text t =>
    rw [Scalar.sameKey_text, beq_iff_eq]
    exact ⟨congrArg _, Scalar.text.inj⟩
  | null => simp [Scalar.sameKey, Scalar.keyNumber?]
  | bool b => simp [Scalar.sameKey, Scalar.keyNumber?]
  | number n => simp [Scalar.sameKey, Scalar.keyNumber?]
  | moment m => simp [Scalar.sameKey, Scalar.keyNumber?]

/-- What was put under a text is found under it. -/
theorem get?_insert_text (s : String) (x : α) (entries : Entries α) :
    (entries.insert (.text s) x).get? (.text s) = some x := by
  induction entries with
  | nil => rw [Entries.insert, Entries.get?, if_pos (sameKey_text_iff.mpr rfl)]
  | cons entry entries ih =>
    obtain ⟨k, y⟩ := entry
    rw [Entries.insert]
    split_ifs with hk
    · rw [Entries.get?, if_pos hk]
    · rw [Entries.get?, if_neg hk, ih]

/-- What is put under a text is found under no other. -/
theorem get?_insert_text_ne {s t : String} (h : s ≠ t) (x : α) (entries : Entries α) :
    (entries.insert (.text s) x).get? (.text t) = entries.get? (.text t) := by
  have hst : ¬ (Scalar.text s).sameKey (.text t) = true := by
    rw [sameKey_text_iff]
    exact fun heq => h (Scalar.text.inj heq)
  induction entries with
  | nil => rw [Entries.insert, Entries.get?, Entries.get?, if_neg hst, Entries.get?]
  | cons entry entries ih =>
    obtain ⟨k, y⟩ := entry
    rw [Entries.insert]
    split_ifs with hk
    · obtain rfl := sameKey_text_iff.mp hk
      rw [Entries.get?, if_neg hst, Entries.get?, if_neg hst]
    · rw [Entries.get?, Entries.get?, ih]

theorem mem_insert_text {s : String} {x : α} {entries : Entries α} {entry : Scalar × α}
    (h : entry ∈ entries.insert (.text s) x) : entry = (.text s, x) ∨ entry ∈ entries := by
  induction entries with
  | nil => exact .inl (List.mem_singleton.mp h)
  | cons other entries ih =>
    obtain ⟨k, y⟩ := other
    rw [Entries.insert] at h
    split_ifs at h with hk
    · obtain rfl := sameKey_text_iff.mp hk
      rcases List.mem_cons.mp h with rfl | h
      · exact .inl rfl
      · exact .inr (List.mem_cons_of_mem _ h)
    · rcases List.mem_cons.mp h with rfl | h
      · exact .inr (List.mem_cons_self ..)
      · rcases ih h with rfl | h
        · exact .inl rfl
        · exact .inr (List.mem_cons_of_mem _ h)

/-- What is put under a text leaves the other entries as they were. -/
theorem erase_insert_text (s : String) (x : α) (entries : Entries α) :
    (entries.insert (.text s) x).erase (.text s) = entries.erase (.text s) := by
  induction entries with
  | nil => rw [Entries.insert, Entries.erase, Entries.erase, if_pos (sameKey_text_iff.mpr rfl)]
  | cons entry entries ih =>
    obtain ⟨k, y⟩ := entry
    rw [Entries.insert]
    split_ifs with hk
    · rw [Entries.erase, if_pos hk, Entries.erase, if_pos hk]
    · rw [Entries.erase, if_neg hk, Entries.erase, if_neg hk, ih]

/-- What is put under a text a second time replaces what was put there first. -/
theorem insert_insert_text (s : String) (x y : α) (entries : Entries α) :
    (entries.insert (.text s) x).insert (.text s) y = entries.insert (.text s) y := by
  induction entries with
  | nil => rw [Entries.insert, Entries.insert, Entries.insert, if_pos (sameKey_text_iff.mpr rfl)]
  | cons entry entries ih =>
    obtain ⟨k, z⟩ := entry
    rw [Entries.insert]
    split_ifs with hk
    · rw [Entries.insert, if_pos hk, Entries.insert, if_pos hk]
    · rw [Entries.insert, if_neg hk, ih, Entries.insert, if_neg hk]

theorem mem_of_mem_erase {key : Scalar} {entries : Entries α} {entry : Scalar × α}
    (h : entry ∈ entries.erase key) : entry ∈ entries := by
  induction entries with
  | nil => exact h
  | cons other entries ih =>
    obtain ⟨k, y⟩ := other
    rw [Entries.erase] at h
    split_ifs at h with hk
    · exact List.mem_cons_of_mem _ h
    · rcases List.mem_cons.mp h with rfl | h
      · exact List.mem_cons_self ..
      · exact List.mem_cons_of_mem _ (ih h)

theorem mem_of_get? {key : Scalar} {x : α} {entries : Entries α}
    (h : entries.get? key = some x) : ∃ k, (k, x) ∈ entries := by
  induction entries with
  | nil => cases h
  | cons entry entries ih =>
    obtain ⟨k, y⟩ := entry
    rw [Entries.get?] at h
    split_ifs at h with hk
    · cases h
      exact ⟨k, List.mem_cons_self ..⟩
    · obtain ⟨k', hk'⟩ := ih h
      exact ⟨k', List.mem_cons_of_mem _ hk'⟩

/-- Putting back what is there changes nothing. -/
theorem insert_of_get? {key : Scalar} {x : α} {entries : Entries α}
    (h : Entries.get? key entries = some x) : Entries.insert key x entries = entries := by
  induction entries with
  | nil => cases h
  | cons entry entries ih =>
    obtain ⟨k, y⟩ := entry
    rw [Entries.get?] at h
    rw [Entries.insert]
    split_ifs at h ⊢ with hk
    · cases h
      rfl
    · rw [ih h]

theorem get?_mapItems {β : Type} (f : α → β) (key : Scalar) (entries : Entries α) :
    Entries.get? key (Entries.mapItems f entries) = (Entries.get? key entries).map f := by
  induction entries with
  | nil => rfl
  | cons entry entries ih =>
    obtain ⟨k, x⟩ := entry
    have hcons : Entries.mapItems f ((k, x) :: entries) = (k, f x) :: Entries.mapItems f entries :=
      rfl
    rw [hcons, Entries.get?, Entries.get?]
    split_ifs with hk
    · rfl
    · exact ih

theorem mapItems_insert {β : Type} (f : α → β) (key : Scalar) (x : α) (entries : Entries α) :
    Entries.mapItems f (Entries.insert key x entries) =
      Entries.insert key (f x) (Entries.mapItems f entries) := by
  induction entries with
  | nil => rfl
  | cons entry entries ih =>
    obtain ⟨k, y⟩ := entry
    have hcons : ∀ (k : Scalar) (y : α) (entries : Entries α),
        Entries.mapItems f ((k, y) :: entries) = (k, f y) :: Entries.mapItems f entries :=
      fun _ _ _ => rfl
    rw [Entries.insert, hcons, Entries.insert]
    split_ifs with hk
    · rfl
    · rw [hcons, ih]

end Keys

/-! ### Text keys -/

/-- Entries whose keys are texts, all distinct. -/
structure TextKeys {α : Type} (entries : Entries α) : Prop where
  texts : ∀ entry ∈ entries, ∃ s, entry.1 = .text s
  nodup : (entries.map (·.1)).Nodup

section TextKeys

variable {α : Type}

theorem insert_of_notMem {s : String} (x : α) {entries : Entries α}
    (h : Scalar.text s ∉ entries.map (·.1)) :
    entries.insert (.text s) x = entries ++ [(.text s, x)] := by
  induction entries with
  | nil => rfl
  | cons entry entries ih =>
    obtain ⟨k, y⟩ := entry
    rw [List.map_cons, List.mem_cons, not_or] at h
    have hk : ¬ k.sameKey (.text s) = true := fun hk => h.1 (sameKey_text_iff.mp hk).symm
    rw [Entries.insert, if_neg hk, ih h.2]
    rfl

theorem map_fst_insert_of_mem {s : String} (x : α) {entries : Entries α}
    (h : Scalar.text s ∈ entries.map (·.1)) :
    (entries.insert (.text s) x).map (·.1) = entries.map (·.1) := by
  induction entries with
  | nil => cases h
  | cons entry entries ih =>
    obtain ⟨k, y⟩ := entry
    rw [Entries.insert]
    split_ifs with hk
    · rfl
    · rw [List.map_cons, List.mem_cons] at h
      rcases h with h | h
      · exact absurd (sameKey_text_iff.mpr h.symm) hk
      · rw [List.map_cons, List.map_cons, ih h]

theorem textKeys_insert {entries : Entries α} (h : TextKeys entries) (s : String) (x : α) :
    TextKeys (entries.insert (.text s) x) := by
  constructor
  · intro entry hentry
    rcases mem_insert_text hentry with rfl | hentry
    · exact ⟨s, rfl⟩
    · exact h.texts entry hentry
  · by_cases hs : Scalar.text s ∈ entries.map (·.1)
    · rw [map_fst_insert_of_mem x hs]
      exact h.nodup
    · rw [insert_of_notMem x hs, List.map_append]
      refine List.nodup_append.mpr ⟨h.nodup, List.nodup_singleton _, ?_⟩
      intro k hk k' hk' heq
      rw [List.map_singleton, List.mem_singleton] at hk'
      rw [heq, hk'] at hk
      exact hs hk

/-- Putting pairs into entries keeps what holds of the entries and of every pair. -/
theorem foldl_insert_induct {P : Entries α → Prop} {pairs : List (Scalar × α)}
    (hstep : ∀ pair ∈ pairs, ∀ entries, P entries → P (entries.insert pair.1 pair.2))
    {before : Entries α} (hbefore : P before) :
    P (pairs.foldl (fun entries (k, x) => entries.insert k x) before) := by
  induction pairs generalizing before with
  | nil => exact hbefore
  | cons pair pairs ih =>
    refine ih (fun p hp => hstep p (List.mem_cons_of_mem _ hp)) ?_
    exact hstep pair (List.mem_cons_self ..) before hbefore

theorem textKeys_ofPairs {pairs : List (Scalar × α)} (h : ∀ pair ∈ pairs, ∃ s, pair.1 = .text s) :
    TextKeys (Entries.ofPairs pairs) := by
  refine foldl_insert_induct (fun pair hpair entries hentries => ?_) ⟨by simp, List.nodup_nil⟩
  obtain ⟨s, hs⟩ := h pair hpair
  rw [hs]
  exact textKeys_insert hentries s pair.2

theorem mem_ofPairs {pairs : List (Scalar × α)} (h : ∀ pair ∈ pairs, ∃ s, pair.1 = .text s) :
    ∀ entry ∈ Entries.ofPairs pairs, entry ∈ pairs := by
  refine foldl_insert_induct (P := fun entries => ∀ entry ∈ entries, entry ∈ pairs)
    (fun pair hpair entries hentries entry hentry => ?_) (by simp)
  obtain ⟨s, hs⟩ := h pair hpair
  rw [hs] at hentry
  rcases mem_insert_text hentry with rfl | hentry
  · rw [← hs]
    exact hpair
  · exact hentries entry hentry

/-- **Distinct text keys** stay where they are. -/
theorem ofPairs_of_textKeys {entries : Entries α} (h : TextKeys entries) :
    Entries.ofPairs entries = entries := by
  have hgen : ∀ (rest before : Entries α), TextKeys (before ++ rest) →
      rest.foldl (fun entries (entry : Scalar × α) => Entries.insert entry.1 entry.2 entries) before =
        before ++ rest := by
    intro rest
    induction rest with
    | nil => simp
    | cons entry rest ih =>
      intro before hb
      obtain ⟨s, hs⟩ := hb.texts entry (by simp)
      have hnew : Scalar.text s ∉ before.map (·.1) := by
        have hnodup := hb.nodup
        rw [List.map_append, List.map_cons] at hnodup
        intro hmem
        exact (List.nodup_append.mp hnodup).2.2 _ hmem _ (List.mem_cons_self ..) hs.symm
      have hstep : Entries.insert entry.1 entry.2 before = before ++ [entry] := by
        rw [hs, insert_of_notMem entry.2 hnew, ← hs]
      rw [List.foldl_cons, hstep, ih]
      · simp
      · simpa using hb
  exact hgen entries [] h

end TextKeys

/-! ### Values -/

/-- Induction on a value, part by part. -/
@[elab_as_elim]
theorem value_induction {P : Value → Prop} (scalar : ∀ s, P (.scalar s))
    (list : ∀ items, (∀ item ∈ items, P item) → P (.list items))
    (dict : ∀ entries, (∀ entry ∈ entries, P entry.2) → P (.dict entries)) (v : Value) : P v := by
  match v with
  | .scalar s => exact scalar s
  | .list items => exact list items fun item _ => value_induction scalar list dict item
  | .dict entries => exact dict entries fun entry _ => value_induction scalar list dict entry.2
termination_by sizeOf v
decreasing_by
  · have hitem := List.sizeOf_lt_of_mem ‹item ∈ items›
    simp only [Value.list.sizeOf_spec]
    omega
  · have hentry := List.sizeOf_lt_of_mem ‹entry ∈ entries›
    obtain ⟨key, item⟩ := entry
    simp only [Prod.mk.sizeOf_spec, Value.dict.sizeOf_spec] at hentry ⊢
    omega

end PipeScript.Proofs.Value.Entries
