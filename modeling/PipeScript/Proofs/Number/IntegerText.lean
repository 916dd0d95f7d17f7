import PipeScript.Value.LooseEq
import PipeScript.Proofs.Decimal.Reading
import PipeScript.Proofs.Number.Exact
import PipeScript.Proofs.Text.Strip

/-! # Integers and their texts

An integer of any size keeps its value, but its decimal text is read as the double nearest to it
(`ofText_text`).  So an integer and the number of its text are equal exactly when some double has
the value of the integer (`eq_ofText_text`, `IsDouble`).  Every integer up to `2^53` is a double
(`isDouble_of_le`), and the next one is none. -/

namespace PipeScript.Proofs.Number.IntegerText

open PipeScript.Text PipeScript.Decimal
open PipeScript.Proofs.Text.Strip
open PipeScript.Proofs.Number.Digits PipeScript.Proofs.Number.Exact
open PipeScript.Proofs.Decimal.Nearness PipeScript.Proofs.Decimal.Reading

/-! ### Comparing with an integer -/

theorem place?_eq_at_iff {x : Binary64} {d : Dyadic} :
    (Number.float x).place? = some (.at d) ↔ x.dyadic? = some d := by
  cases x with
  | nan => simp [Number.place?, Binary64.dyadic?]
  | infinite negative => cases negative <;> simp [Number.place?, Binary64.dyadic?]
  | finite negative mantissa exponent canonical => simp [Number.place?]

/-- A number is whole if its place on the line is that of an integer. -/
theorem whole?_iff_place? {m : Number} {n : ℤ} :
    m.whole? = some n ↔ ∃ d, m.place? = some (.at d) ∧ d.numerator = n * 2 ^ d.shift := by
  cases m with
  | int i => simp [Number.whole?, Number.place?, Dyadic.ofInt]
  | float x =>
    rw [whole?_float_iff]
    simp only [place?_eq_at_iff]

theorem compare_ofInt_iff {n : ℤ} {d : Dyadic} :
    (Dyadic.ofInt n).compare d = .eq ↔ d.numerator = n * 2 ^ d.shift := by
  unfold Dyadic.compare Dyadic.ofInt
  rw [compare_eq_iff_eq]
  simp [twoTo, eq_comm]

/-- **A number equals an integer if it is whole and has its value.** -/
theorem int_eq_iff {n : ℤ} {m : Number} : (Number.int n).eq m = true ↔ m.whole? = some n := by
  have hn : (Number.int n).place? = some (.at (.ofInt n)) := rfl
  rw [whole?_iff_place?]
  unfold Number.eq Number.compare?
  rw [hn]
  rcases m.place? with _ | (_ | d | _)
  · simp
  · simp [Place.compare]
  · simp [Place.compare, compare_ofInt_iff]
  · simp [Place.compare]

theorem compare_swap_iff (p q : Place) : p.compare q = .eq ↔ q.compare p = .eq := by
  cases p <;> cases q <;> simp only [Place.compare, reduceCtorEq]
  unfold Dyadic.compare
  rw [compare_eq_iff_eq, compare_eq_iff_eq]
  exact eq_comm

theorem eq_swap (a b : Number) : a.eq b = b.eq a := by
  unfold Number.eq Number.compare?
  rcases a.place? with _ | p
  · rcases b.place? with _ | q <;> rfl
  · rcases b.place? with _ | q
    · rfl
    · rw [Bool.eq_iff_iff]
      simpa using compare_swap_iff p q

/-- A double is as whole as the number that it becomes. -/
theorem whole?_ofBinary64 (x : Binary64) : (Number.ofBinary64 x).whole? = (Number.float x).whole? := by
  unfold Number.ofBinary64
  cases hwhole : (Number.float x).whole? with
  | none => exact hwhole
  | some i => rfl

/-! ### Integers that are doubles -/

/-- Some double has the value of an integer. -/
def IsDouble (n : ℤ) : Prop := ∃ x : Binary64, (Number.float x).whole? = some n

/-- The parts of a double that has the value of an integer. -/
theorem parts_of_whole? {negative : Bool} {mantissa : ℕ} {exponent : ℤ}
    {canonical : Binary64.Canonical mantissa exponent} {n : ℤ} (h0 : n ≠ 0)
    (h : (Number.float (.finite negative mantissa exponent canonical)).whole? = some n) :
    (n.natAbs : ℚ) = magnitude mantissa exponent ∧ negative = decide (n < 0) := by
  obtain ⟨a, b, hscaled, rfl⟩ : ∃ a b : ℕ,
      Binary64.signed negative mantissa * 2 ^ a = n * 2 ^ b ∧ exponent = a - b := by
    obtain ⟨d, hd, hnumerator⟩ := whole?_float_iff.mp h
    unfold Binary64.dyadic? at hd
    dsimp only at hd
    rcases lt_or_ge exponent 0 with hneg | hpos
    · rw [if_neg (not_le.mpr hneg)] at hd
      cases hd
      exact ⟨0, (-exponent).toNat, by simpa using hnumerator, by omega⟩
    · rw [if_pos hpos] at hd
      cases hd
      exact ⟨exponent.toNat, 0, by simpa [twoTo] using hnumerator, by omega⟩
  have ha : (0 : ℤ) < 2 ^ a := by positivity
  have hb : (0 : ℤ) < 2 ^ b := by positivity
  refine ⟨?_, ?_⟩
  · have habs : mantissa * 2 ^ a = n.natAbs * 2 ^ b := by
      have hnat := congrArg Int.natAbs hscaled
      simpa [Int.natAbs_mul, Int.natAbs_pow, natAbs_signed] using hnat
    have hrational : (mantissa : ℚ) * 2 ^ a = n.natAbs * 2 ^ b := by exact_mod_cast habs
    rw [magnitude, zpow_sub₀ two_ne_zero, zpow_natCast, zpow_natCast, ← mul_div_assoc, hrational,
      mul_div_cancel_right₀ _ (by positivity)]
  · -- the powers of two have no sign
    cases negative with
    | true =>
      refine (decide_eq_true ?_).symm
      by_contra hn
      have hpos : 0 < n * 2 ^ b := mul_pos (by omega) hb
      have hle : Binary64.signed true mantissa * 2 ^ a ≤ 0 :=
        mul_nonpos_of_nonpos_of_nonneg (by simp [Binary64.signed]) ha.le
      omega
    | false =>
      refine (decide_eq_false fun hn => ?_).symm
      have hneg : n * 2 ^ b < 0 := mul_neg_of_neg_of_pos hn hb
      have hle : 0 ≤ Binary64.signed false mantissa * 2 ^ a :=
        mul_nonneg (by simp [Binary64.signed]) ha.le
      omega

/-- **An integer that is a double is rounded to it.** -/
theorem isDouble_iff {n : ℤ} : IsDouble n ↔ (Number.float (.ofInt n)).whole? = some n := by
  refine ⟨?_, fun h => ⟨_, h⟩⟩
  rintro ⟨x, hx⟩
  by_cases h0 : n = 0
  · subst h0
    exact whole?_mantissa_zero _ _
  · rcases x with _ | negative | ⟨negative, mantissa, exponent, canonical⟩
    · cases hx
    · cases hx
    · obtain ⟨hmagnitude, rfl⟩ := parts_of_whole? h0 hx
      have hrounds : RoundsTo mantissa exponent ((n.natAbs : ℚ) / (1 : ℕ)) := by
        refine roundsTo_of_near ?_
        rw [Nat.cast_one, div_one, hmagnitude, sub_self, abs_zero]
        positivity
      have hround := ofRatio_of_roundsTo canonical (Int.natAbs_ne_zero.mpr h0) Nat.one_ne_zero hrounds
        (decide (n < 0))
      unfold Binary64.ofInt
      rwa [hround]

instance (n : ℤ) : Decidable (IsDouble n) := decidable_of_iff _ isDouble_iff.symm

theorem isDouble_neg {n : ℤ} (h : IsDouble n) : IsDouble (-n) := by
  obtain ⟨x, hx⟩ := h
  obtain ⟨d, hd, hnumerator⟩ := whole?_float_iff.mp hx
  refine ⟨x.neg, whole?_float_iff.mpr ⟨⟨-d.numerator, d.shift⟩, ?_, ?_⟩⟩
  · have hsigned : ∀ negative mantissa,
        Binary64.signed (!negative) mantissa = -Binary64.signed negative mantissa := by
      intro negative mantissa
      cases negative <;> simp [Binary64.signed]
    rcases x with _ | negative | ⟨negative, mantissa, exponent, canonical⟩
    · cases hd
    · cases hd
    · unfold Binary64.dyadic? at hd
      unfold Binary64.neg Binary64.dyadic?
      dsimp only at hd ⊢
      cases hd
      split_ifs
      · rw [hsigned, neg_mul]
      · rw [hsigned]
  · rw [hnumerator, neg_mul]

/-- **Every integer up to `2^53` is a double.** -/
theorem isDouble_of_le {n : ℤ} (h : n.natAbs ≤ 2 ^ 53) : IsDouble n := by
  have hnatural : IsDouble (n.natAbs : ℤ) := by
    generalize n.natAbs = m at h ⊢
    by_cases h0 : m = 0
    · subst h0
      decide +kernel
    · rcases Nat.lt_or_eq_of_le h with hlt | rfl
      · exact ⟨_, whole?_ofRatio h0 hlt⟩
      · decide +kernel
  rcases Int.natAbs_eq n with hn | hn
  · rw [hn]
    exact hnatural
  · rw [hn]
    exact isDouble_neg hnatural

/-! ### The text of an integer -/

theorem text_ne_empty (n : ℤ) : (Number.int n).text ≠ "" := by
  have hplain := plain_digitChars n.natAbs
  have hchars : Number.intChars n ≠ [] := by
    unfold Number.intChars
    split_ifs
    · exact List.cons_ne_nil _ _
    · exact hplain.ne_nil
  intro h
  have htext : (Number.int n).text.toList = Number.intChars n := String.toList_ofList
  rw [h] at htext
  exact hchars htext.symm

/-- **The text of an integer is read as the double nearest to it.** -/
theorem ofText_text (n : ℤ) :
    Number.ofText (Number.int n).text = .ofBinary64 (.ofInt n) := by
  have hplain := plain_digitChars n.natAbs
  have hdark : ∀ c ∈ Number.intChars n, isBlank c = false := by
    have hdigits : ∀ c ∈ digitChars n.natAbs, isBlank c = false := fun c hc =>
      isBlank_of_isAsciiDigit (hplain.all c hc)
    unfold Number.intChars
    split_ifs
    · exact List.forall_mem_cons.mpr ⟨by decide, hdigits⟩
    · exact hdigits
  have hstrip : stripChars (Number.intChars n) = Number.intChars n := stripChars_of_solid
    ⟨fun c hc => hdark c (List.mem_of_head? hc), fun c hc => hdark c (List.mem_of_getLast? hc)⟩
  unfold Number.ofText Number.text
  rw [Number.render, String.toList_ofList, hstrip]
  by_cases h0 : n = 0
  · subst h0
    decide +kernel
  · have h0' : n.natAbs ≠ 0 := Int.natAbs_ne_zero.mpr h0
    unfold Number.intChars Binary64.ofInt
    split_ifs with hneg
    · rw [ofChars_signed hplain rfl rfl, digitsValue_digitChars, ofDecimal_natural h0',
        decide_eq_true hneg]
    · rw [ofChars_nearest hplain, digitsValue_digitChars, ofDecimal_natural h0',
        decide_eq_false hneg]

/-- **An integer and its text are equal numbers if it is a double.** -/
theorem eq_ofText_text (n : ℤ) :
    (Number.int n).eq (.ofText (Number.int n).text) = decide (IsDouble n) := by
  rw [Bool.eq_iff_iff, int_eq_iff, ofText_text, whole?_ofBinary64, decide_eq_true_eq, isDouble_iff]

theorem isNaN_ofRatio (negative : Bool) (num den : ℕ) :
    (Binary64.ofRatio negative num den).isNaN = false := by
  have hparts : ∀ mantissa exponent, (Binary64.ofParts negative mantissa exponent).isNaN = false := by
    intro mantissa exponent
    unfold Binary64.ofParts
    split_ifs <;> rfl
  unfold Binary64.ofRatio
  dsimp only
  split_ifs
  all_goals first | rfl | exact hparts _ _

theorem isNaN_ofBinary64 (x : Binary64) : (Number.ofBinary64 x).isNaN = x.isNaN := by
  unfold Number.ofBinary64
  cases hwhole : (Number.float x).whole? with
  | none => rfl
  | some i =>
    cases x with
    | nan => cases hwhole
    | infinite | finite => rfl

/-- The text of an integer is that of a number. -/
theorem isNaN_ofText_text (n : ℤ) : (Number.ofText (Number.int n).text).isNaN = false := by
  rw [ofText_text, isNaN_ofBinary64]
  exact isNaN_ofRatio _ _ _

end PipeScript.Proofs.Number.IntegerText
