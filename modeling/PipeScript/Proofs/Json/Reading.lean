import PipeScript.Json.Reader
import PipeScript.Value.Limit
import PipeScript.Proofs.Number.Digits
import PipeScript.Proofs.Value.Entries
import Mathlib.Data.List.TakeWhile

/-! # What reading gives

Everything that is read from a JSON text is built from few kinds of values: words, texts, doubles,
integers that can be written again, lists, and dictionaries of pairs with text keys (`ReadClosed`).
So what is read has no integer of too many digits (`hasLongInteger_of_parse?`), and the keys of a
dictionary that is read are distinct texts (`textKeys_of_parse?`). -/

namespace PipeScript.Proofs.Json.Reading

open PipeScript.Json PipeScript.Text
open PipeScript.Proofs.Number.Digits PipeScript.Proofs.Value.Entries

/-! ### One induction for the reader -/

/-- Pairs with text keys whose items have a property. -/
def MemberPairs (P : Value → Prop) (pairs : List (Scalar × Value)) : Prop :=
  ∀ pair ∈ pairs, (∃ s, pair.1 = .text s) ∧ P pair.2

/-- A property that everything has which the reader builds. -/
structure ReadClosed (P : Value → Prop) : Prop where
  null : P .null
  bool : ∀ b, P (.bool b)
  text : ∀ s, P (.text s)
  int : ∀ i, exceedsDigitLimit i = false → P (.int i)
  float : ∀ x, P (.number (.float x))
  list : ∀ items, (∀ item ∈ items, P item) → P (.list items)
  dict : ∀ pairs, MemberPairs P pairs → P (.dict (Entries.ofPairs pairs))

theorem readWhole?_digits {cs whole rest : List Char} (h : readWhole? cs = some (whole, rest)) :
    ∀ c ∈ whole, isAsciiDigit c = true := by
  unfold readWhole? at h
  split at h
  · cases h
    simp
    decide
  · split_ifs at h with hc
    cases h
    exact fun c hc => List.mem_takeWhile_imp hc
  · cases h

/-- Digits within the limit make an integer that can be written again. -/
theorem exceedsDigitLimit_digits {whole : List Char} (hdigits : ∀ c ∈ whole, isAsciiDigit c = true)
    (hlength : whole.length ≤ integerDigitLimit) {i : ℤ} (hi : i.natAbs = digitsValue whole) :
    exceedsDigitLimit i = false := by
  unfold exceedsDigitLimit
  rw [decide_eq_false_iff_not, hi]
  exact not_le.mpr (digitsValue_lt_tenTo hdigits hlength)

theorem readWord?_eq {word : String} {v w : Value} {cs rest : List Char}
    (h : readWord? word v cs = some (w, rest)) : v = w := by
  unfold readWord? at h
  split_ifs at h
  exact (Prod.mk.inj (Option.some.inj h)).1

/-- Readers of a fuel that give only what has a property. -/
structure ReadsClosed (P : Value → Prop) (nonFinite : Bool) (fuel : ℕ) : Prop where
  value : ∀ {cs v rest}, readValue? nonFinite fuel cs = some (v, rest) → P v
  items : ∀ {cs items rest},
    readItems? nonFinite fuel cs = some (items, rest) → ∀ item ∈ items, P item
  members : ∀ {cs pairs rest},
    readMembers? nonFinite fuel cs = some (pairs, rest) → MemberPairs P pairs

section Closed

variable {P : Value → Prop} (hP : ReadClosed P) {nonFinite : Bool}
include hP

theorem closed_readNumber? {cs rest : List Char} {n : Number}
    (h : readNumber? cs = some (n, rest)) : P (.number n) := by
  unfold readNumber? at h
  split at h
  -- the sign only says where the digits start
  next negative body _ =>
  obtain ⟨⟨whole, tail⟩, hwhole, h⟩ := Option.bind_eq_some_iff.mp h
  dsimp only at h
  split at h
  · split at h
    · cases h
    · next hlong =>
      obtain ⟨rfl, -⟩ := Prod.mk.inj (Option.some.inj h)
      refine hP.int _ (exceedsDigitLimit_digits (readWhole?_digits hwhole) (not_lt.mp hlong) ?_)
      split_ifs <;> omega
  · obtain ⟨rfl, -⟩ := Prod.mk.inj (Option.some.inj h)
    exact hP.float _

theorem closed_readScalar? {cs rest : List Char} {v : Value}
    (h : readScalar? nonFinite cs = some (v, rest)) : P v := by
  unfold readScalar? at h
  split at h
  · exact readWord?_eq h ▸ hP.null
  · exact readWord?_eq h ▸ hP.bool true
  · exact readWord?_eq h ▸ hP.bool false
  · obtain ⟨⟨xs, tail⟩, -, hx⟩ := Option.map_eq_some_iff.mp h
    obtain ⟨rfl, -⟩ := Prod.mk.inj hx
    exact hP.text _
  · split at h
    · next n tail hn =>
      obtain ⟨rfl, -⟩ := Prod.mk.inj (Option.some.inj h)
      exact closed_readNumber? hP hn
    · split_ifs at h
      unfold readNonFinite? at h
      rcases Option.or_eq_some_iff.mp h with h | ⟨-, h⟩
      · exact readWord?_eq h ▸ hP.float _
      · rcases Option.or_eq_some_iff.mp h with h | ⟨-, h⟩
        · exact readWord?_eq h ▸ hP.float _
        · exact readWord?_eq h ▸ hP.float _

section Step

variable {fuel : ℕ} (hreads : ReadsClosed P nonFinite fuel)
include hreads

theorem closed_readValue? {cs rest : List Char} {v : Value}
    (h : readValue? nonFinite (fuel + 1) cs = some (v, rest)) : P v := by
  unfold readValue? at h
  split at h
  · split at h
    · obtain ⟨rfl, -⟩ := Prod.mk.inj (Option.some.inj h)
      exact hP.list [] (by simp)
    · obtain ⟨⟨items, tail⟩, hitems, h⟩ := Option.bind_eq_some_iff.mp h
      obtain ⟨rfl, -⟩ := Prod.mk.inj (Option.some.inj h)
      exact hP.list items (hreads.items hitems)
  · split at h
    · obtain ⟨rfl, -⟩ := Prod.mk.inj (Option.some.inj h)
      exact hP.dict [] (fun _ hpair => nomatch hpair)
    · obtain ⟨⟨pairs, tail⟩, hpairs, h⟩ := Option.bind_eq_some_iff.mp h
      obtain ⟨rfl, -⟩ := Prod.mk.inj (Option.some.inj h)
      exact hP.dict pairs (hreads.members hpairs)
  · exact closed_readScalar? hP h

omit hP in
theorem closed_readItems? {cs rest : List Char} {items : List Value}
    (h : readItems? nonFinite (fuel + 1) cs = some (items, rest)) : ∀ item ∈ items, P item := by
  unfold readItems? at h
  obtain ⟨⟨item, tail⟩, hitem, h⟩ := Option.bind_eq_some_iff.mp h
  have hfirst := hreads.value hitem
  dsimp only at h
  split at h
  · obtain ⟨rfl, -⟩ := Prod.mk.inj (Option.some.inj h)
    simpa using hfirst
  · obtain ⟨⟨others, more⟩, hothers, h⟩ := Option.bind_eq_some_iff.mp h
    obtain ⟨rfl, -⟩ := Prod.mk.inj (Option.some.inj h)
    intro x hx
    rcases List.mem_cons.mp hx with rfl | hx
    · exact hfirst
    · exact hreads.items hothers x hx
  · cases h

omit hP in
theorem closed_readMembers? {cs rest : List Char} {pairs : List (Scalar × Value)}
    (h : readMembers? nonFinite (fuel + 1) cs = some (pairs, rest)) : MemberPairs P pairs := by
  unfold readMembers? at h
  split at h
  · obtain ⟨⟨key, tail⟩, -, h⟩ := Option.bind_eq_some_iff.mp h
    dsimp only at h
    split at h
    · obtain ⟨⟨item, more⟩, hitem, h⟩ := Option.bind_eq_some_iff.mp h
      have hfirst := hreads.value hitem
      dsimp only at h
      split at h
      · obtain ⟨rfl, -⟩ := Prod.mk.inj (Option.some.inj h)
        intro pair hpair
        obtain rfl := List.mem_singleton.mp hpair
        exact ⟨⟨_, rfl⟩, hfirst⟩
      · obtain ⟨⟨others, last⟩, hothers, h⟩ := Option.bind_eq_some_iff.mp h
        obtain ⟨rfl, -⟩ := Prod.mk.inj (Option.some.inj h)
        intro pair hpair
        rcases List.mem_cons.mp hpair with rfl | hpair
        · exact ⟨⟨_, rfl⟩, hfirst⟩
        · exact hreads.members hothers pair hpair
      · cases h
    · cases h
  · cases h

end Step

/-- **Everything that is read has a closed property**, and so have all items and members. -/
theorem closed_read (fuel : ℕ) : ReadsClosed P nonFinite fuel := by
  induction fuel with
  | zero => constructor <;> simp [readValue?, readItems?, readMembers?]
  | succ fuel ih => exact ⟨closed_readValue? hP ih, closed_readItems? ih, closed_readMembers? ih⟩

theorem closed_of_parse? {s : String} {v : Value} (h : Json.parse? s = some v) : P v := by
  unfold Json.parse? Json.read? at h
  dsimp only at h
  split at h
  · next w rest hw =>
    split_ifs at h
    cases h
    exact (closed_read hP _).value hw
  · cases h

theorem closed_decodedText (s : String) : P (decodedText s) := by
  unfold decodedText
  cases hs : Json.parse? s with
  | none => exact hP.text s
  | some v => exact closed_of_parse? hP hs

end Closed

/-! ### Integers and keys -/

theorem anyLongInteger_eq_false_iff {items : List Value} :
    Value.anyLongInteger items = false ↔ ∀ item ∈ items, item.hasLongInteger = false := by
  induction items with
  | nil => simp [Value.anyLongInteger]
  | cons item items ih => simp [Value.anyLongInteger, ih]

theorem anyLongEntry_eq_false_iff {entries : List (Scalar × Value)} :
    Value.anyLongEntry entries = false ↔
      ∀ entry ∈ entries, entry.1.isLongInteger = false ∧ entry.2.hasLongInteger = false := by
  induction entries with
  | nil => simp [Value.anyLongEntry]
  | cons entry entries ih => simp [Value.anyLongEntry, ih]

theorem readClosed_hasLongInteger : ReadClosed fun v => v.hasLongInteger = false where
  null := rfl
  bool _ := rfl
  text _ := rfl
  int _ h := h
  float _ := rfl
  list items h := anyLongInteger_eq_false_iff.mpr h
  dict pairs h := by
    refine anyLongEntry_eq_false_iff.mpr fun entry hentry => ?_
    have hentry := mem_ofPairs (fun pair hpair => (h pair hpair).1) entry hentry
    obtain ⟨⟨s, hs⟩, hlong⟩ := h entry hentry
    rw [hs]
    exact ⟨rfl, hlong⟩

theorem hasLongInteger_of_parse? {s : String} {v : Value} (h : Json.parse? s = some v) :
    v.hasLongInteger = false :=
  closed_of_parse? readClosed_hasLongInteger h

theorem hasLongInteger_decodedText (s : String) : (decodedText s).hasLongInteger = false :=
  closed_decodedText readClosed_hasLongInteger s

theorem readClosed_textKeys :
    ReadClosed fun v => ∀ entries, v = .dict entries → TextKeys entries where
  null := fun _ h => nomatch h
  bool _ := fun _ h => nomatch h
  text _ := fun _ h => nomatch h
  int _ _ := fun _ h => nomatch h
  float _ := fun _ h => nomatch h
  list _ _ := fun _ h => nomatch h
  dict pairs h := by
    rintro entries ⟨⟩
    exact textKeys_ofPairs fun pair hpair => (h pair hpair).1

theorem textKeys_of_parse? {s : String} {entries : Entries Value}
    (h : Json.parse? s = some (.dict entries)) : TextKeys entries :=
  closed_of_parse? readClosed_textKeys h entries rfl

end PipeScript.Proofs.Json.Reading
