import PipeScript.Number.Reader
import PipeScript.Proofs.Number.Digits
import Mathlib.Data.List.TakeWhile
import Mathlib.Tactic.Ring

/-! # Exact integers

A natural number below `2^53` is a double (`ofRatio_eq`), so it is whole and stays what it is,
whether it comes as an integer (`isSome_toBinary64?`) or from its decimal digits
(`ofChars_plain`). -/

namespace PipeScript.Proofs.Number.Exact

open PipeScript.Text PipeScript.Decimal
open PipeScript.Proofs.Number.Digits

/-! ### Rounding a natural number -/

theorem roundQuotient_one (n : ℕ) : roundQuotient n 1 = n := by
  simp [roundQuotient, Nat.mod_one]

/-- The mantissa of a small number fills its 53 bits. -/
theorem mantissa_bounds {n : ℕ} (h0 : n ≠ 0) (h : n < 2 ^ 53) :
    n.log2 ≤ 52 ∧ 2 ^ 52 ≤ n * 2 ^ (52 - n.log2) ∧ n * 2 ^ (52 - n.log2) < 2 ^ 53 := by
  have hlog : n.log2 < 53 := (Nat.log2_lt h0).mpr h
  have hlow := Nat.mul_le_mul_right (2 ^ (52 - n.log2)) (Nat.log2_self_le h0)
  have hhigh := Nat.mul_lt_mul_of_pos_right (Nat.lt_log2_self (n := n))
    (Nat.two_pow_pos (52 - n.log2))
  rw [← pow_add] at hlow hhigh
  have e1 : n.log2 + (52 - n.log2) = 52 := by omega
  have e2 : n.log2 + 1 + (52 - n.log2) = 53 := by omega
  rw [e1] at hlow
  rw [e2] at hhigh
  exact ⟨by omega, hlow, hhigh⟩

theorem canonical_of_lt {n : ℕ} (h0 : n ≠ 0) (h : n < 2 ^ 53) :
    Binary64.Canonical (n * 2 ^ (52 - n.log2)) ((n.log2 : ℤ) - 52) := by
  obtain ⟨hlog, hlow, hhigh⟩ := mantissa_bounds h0 h
  exact ⟨hhigh, by omega, by omega, .inl hlow⟩

/-- **Small numbers are exact**: nothing is rounded off. -/
theorem ofRatio_eq {n : ℕ} (h0 : n ≠ 0) (h : n < 2 ^ 53) (negative : Bool) :
    Binary64.ofRatio negative n 1 =
      .finite negative (n * 2 ^ (52 - n.log2)) ((n.log2 : ℤ) - 52) (canonical_of_lt h0 h) := by
  obtain ⟨hlog, hlow, hhigh⟩ := mantissa_bounds h0 h
  have hone : Nat.log2 1 = 0 := by decide
  have hguess : max ((n.log2 : ℤ) - (Nat.log2 1 : ℕ) - 53) (-1074) = (n.log2 : ℤ) - 53 := by
    rw [hone]
    omega
  have hfirst : divideByPower n 1 ((n.log2 : ℤ) - 53) = (n * 2 ^ (53 - n.log2), 1) := by
    have he : (-((n.log2 : ℤ) - 53)).toNat = 53 - n.log2 := by omega
    unfold divideByPower
    rw [if_neg (by omega), he]
    rfl
  have hsecond : ∃ a b, divideByPower n 1 ((n.log2 : ℤ) - 52) = (a, b) ∧
      roundQuotient a b = n * 2 ^ (52 - n.log2) := by
    unfold divideByPower
    by_cases hfull : n.log2 = 52
    · refine ⟨n, 1 * twoTo 0, ?_, ?_⟩
      · rw [if_pos (by omega), hfull]
        rfl
      · rw [hfull]
        simp [roundQuotient_one]
    · have he : (-((n.log2 : ℤ) - 52)).toNat = 52 - n.log2 := by omega
      refine ⟨n * 2 ^ (52 - n.log2), 1, ?_, roundQuotient_one _⟩
      rw [if_neg (by omega), he]
      rfl
  obtain ⟨a, b, hab, hround⟩ := hsecond
  have hlarge : ¬ n * 2 ^ (53 - n.log2) / 1 < twoTo 53 := by
    have hstep : n * 2 ^ (53 - n.log2) = 2 * (n * 2 ^ (52 - n.log2)) := by
      rw [(by omega : 53 - n.log2 = 52 - n.log2 + 1), pow_succ]
      ring
    rw [Nat.div_one, hstep]
    change ¬ _ < 2 ^ 53
    omega
  have hexp : (n.log2 : ℤ) - 53 + 1 = (n.log2 : ℤ) - 52 := by omega
  unfold Binary64.ofRatio
  rw [if_neg h0, hguess]
  simp only [hfirst, if_neg hlarge, hexp, hab, hround]
  have hfits : n * 2 ^ (52 - n.log2) < twoTo 53 := hhigh
  rw [if_pos hfits, Binary64.ofParts, dif_pos (canonical_of_lt h0 h)]

/-- A double whose last binary digits are zeros is whole. -/
theorem integer_of_dyadic? {x : Binary64} {i : ℤ} {k : ℕ}
    (hd : x.dyadic? = some ⟨i * 2 ^ k, k⟩) : x.isInteger = true ∧ x.truncate? = some i := by
  have hpos : (0 : ℤ) < 2 ^ k := by positivity
  constructor
  · unfold Binary64.isInteger
    rw [hd]
    simp [twoTo]
  · unfold Binary64.truncate?
    rw [hd, Option.map_some]
    simp [twoTo, hpos.ne']

theorem whole?_of_dyadic? {x : Binary64} {i : ℤ} {k : ℕ}
    (hd : x.dyadic? = some ⟨i * 2 ^ k, k⟩) : (Number.float x).whole? = some i := by
  obtain ⟨hint, htrunc⟩ := integer_of_dyadic? hd
  rw [Number.whole?, if_pos hint, htrunc]

/-- A double is whole if its numerator is a multiple of its denominator. -/
theorem whole?_float_iff {x : Binary64} {n : ℤ} :
    (Number.float x).whole? = some n ↔
      ∃ d, x.dyadic? = some d ∧ d.numerator = n * 2 ^ d.shift := by
  constructor
  · intro h
    unfold Number.whole? at h
    dsimp only at h
    split_ifs at h with hwhole
    unfold Binary64.isInteger at hwhole
    unfold Binary64.truncate? at h
    cases hd : x.dyadic? with
    | none =>
      rw [hd] at h
      cases h
    | some d =>
      rw [hd] at h hwhole
      have hdvd : (twoTo d.shift : ℤ) ∣ d.numerator := Int.dvd_of_emod_eq_zero (by simpa using hwhole)
      have hquotient : d.numerator.tdiv (twoTo d.shift) = n := Option.some.inj h
      refine ⟨d, rfl, ?_⟩
      rw [← hquotient]
      exact_mod_cast (Int.tdiv_mul_cancel hdvd).symm
  · rintro ⟨⟨numerator, shift⟩, hd, hnumerator⟩
    dsimp only at hnumerator
    subst hnumerator
    exact whole?_of_dyadic? hd

theorem natAbs_signed (negative : Bool) (mantissa : ℕ) :
    (Binary64.signed negative mantissa).natAbs = mantissa := by
  unfold Binary64.signed
  split_ifs
  · rw [Int.natAbs_neg, Int.natAbs_natCast]
  · exact Int.natAbs_natCast mantissa

theorem dyadic?_ofRatio {n : ℕ} (h0 : n ≠ 0) (h : n < 2 ^ 53) :
    (Binary64.ofRatio false n 1).dyadic? = some ⟨n * 2 ^ (52 - n.log2), 52 - n.log2⟩ := by
  obtain ⟨hlog, -, -⟩ := mantissa_bounds h0 h
  rw [ofRatio_eq h0 h, Binary64.dyadic?]
  by_cases hfull : n.log2 = 52
  · rw [if_pos (by omega), hfull]
    simp [Binary64.signed]
  · have he : (-((n.log2 : ℤ) - 52)).toNat = 52 - n.log2 := by omega
    rw [if_neg (by omega), he]
    simp [Binary64.signed]

/-- A double that is a whole number. -/
theorem whole?_ofRatio {n : ℕ} (h0 : n ≠ 0) (h : n < 2 ^ 53) :
    (Number.float (Binary64.ofRatio false n 1)).whole? = some (n : ℤ) :=
  whole?_of_dyadic? (dyadic?_ofRatio h0 h)

theorem whole?_mantissa_zero (negative : Bool) {exponent : ℤ}
    (canonical : Binary64.Canonical 0 exponent) :
    (Number.float (.finite negative 0 exponent canonical)).whole? = some 0 := by
  have hsigned : Binary64.signed negative 0 = 0 := by cases negative <;> rfl
  obtain ⟨shift, hd⟩ : ∃ shift,
      (Binary64.finite negative 0 exponent canonical).dyadic? = some ⟨0 * 2 ^ shift, shift⟩ := by
    unfold Binary64.dyadic?
    dsimp only
    rw [hsigned, zero_mul]
    split_ifs
    · exact ⟨0, rfl⟩
    · exact ⟨(-exponent).toNat, by rw [zero_mul]⟩
  exact whole?_of_dyadic? hd

theorem isSome_toBinary64? {n : ℕ} (h : n < 2 ^ 53) :
    (Number.int (n : ℤ)).toBinary64?.isSome = true := by
  have hform : Binary64.ofInt (n : ℤ) = Binary64.ofRatio false n 1 := by
    unfold Binary64.ofInt
    rw [Int.natAbs_natCast, decide_eq_false (by omega)]
  unfold Number.toBinary64?
  dsimp only
  rw [hform]
  by_cases h0 : n = 0
  · subst h0
    rfl
  · rw [ofRatio_eq h0 h]
    rfl

/-- A natural number as a decimal is a fraction over one. -/
theorem ofDecimal_natural {n : ℕ} (h0 : n ≠ 0) (negative : Bool) :
    Binary64.ofDecimal negative n 0 = Binary64.ofRatio negative n 1 := by
  unfold Binary64.ofDecimal
  dsimp only
  rw [if_neg h0, if_neg (by omega), if_neg (by omega), if_pos (le_refl _)]
  simp [tenTo]

/-! ### Reading digits -/

/-- Plain decimal digits: at least one, and no zero before others. -/
structure Plain (digits : List Char) : Prop where
  ne_nil : digits ≠ []
  all : ∀ c ∈ digits, isAsciiDigit c = true
  leading : digits.head? = some '0' → digits.length ≤ 1

/-- The digits of a number are plain. -/
theorem plain_digitChars (n : ℕ) : Plain (digitChars n) := by
  refine ⟨Nat.toDigits_ne_nil, fun c hc => isAsciiDigit_of_mem_digitChars hc, ?_⟩
  induction n using Nat.strongRecOn with
  | ind n ih =>
    by_cases hn : n < 10
    · rw [digitChars_of_lt hn]
      exact fun _ => le_refl _
    · -- the first digit is that of the number without its last one, which is not zero
      intro hhead
      rw [digitChars_of_le (by omega)] at hhead
      obtain ⟨c, tail, hc⟩ :=
        List.exists_cons_of_ne_nil (Nat.toDigits_ne_nil (b := 10) (n := n / 10))
      have hfront : (digitChars (n / 10)).head? = some '0' := by
        rw [digitChars, hc] at hhead ⊢
        exact hhead
      have hsmall : n / 10 < 10 ^ 1 :=
        (Nat.length_toDigits_le_iff (by decide) (by decide)).mp (ih (n / 10) (by omega) hfront)
      rw [digitChars_of_lt (by omega), List.head?_singleton] at hfront
      have hvalue := digitValue_digitChar (d := n / 10) (by omega)
      rw [Option.some.inj hfront] at hvalue
      have hzero : digitValue '0' = 0 := by decide
      omega

section Plain

variable {digits : List Char} (h : Plain digits)
include h

theorem Plain.exists_cons : ∃ c rest, digits = c :: rest ∧ isAsciiDigit c = true := by
  obtain ⟨c, rest, rfl⟩ := List.exists_cons_of_ne_nil h.ne_nil
  exact ⟨c, rest, rfl, h.all c (List.mem_cons_self ..)⟩

/-- A number below a power of ten has no more plain digits than that. -/
theorem Plain.length_le {n : ℕ} (hlt : digitsValue digits < 10 ^ n) (hn : 0 < n) :
    digits.length ≤ n := by
  obtain ⟨c, rest, rfl, hc⟩ := h.exists_cons
  by_cases hzero : c = '0'
  · subst hzero
    exact le_trans (h.leading rfl) hn
  · have hpos : 0 < digitValue c := by
      unfold isAsciiDigit at hc
      rw [Bool.and_eq_true, decide_eq_true_eq, decide_eq_true_eq] at hc
      have hne : c.toNat ≠ '0'.toNat := fun heq => hzero (Char.toNat_inj.mp heq)
      have hlow : '0'.toNat ≤ c.toNat := hc.1
      unfold digitValue
      omega
    rw [digitsValue_cons] at hlt
    have hpower : 10 ^ rest.length < 10 ^ n := by
      calc 10 ^ rest.length ≤ digitValue c * 10 ^ rest.length := Nat.le_mul_of_pos_left _ hpos
        _ < 10 ^ n := by omega
    exact (Nat.pow_lt_pow_iff_right (by decide)).mp hpower

theorem splitSign_plain : splitSign digits = (false, digits) := by
  obtain ⟨c, rest, rfl, hc⟩ := h.exists_cons
  unfold splitSign
  split
  · next heq =>
    cases heq
    exact absurd hc (by decide)
  · next heq =>
    cases heq
    exact absurd hc (by decide)
  · rfl

theorem readRadix?_plain : Number.readRadix? digits = none := by
  unfold Number.readRadix?
  split
  · next mark rest =>
    have hlength := h.leading rfl
    simp only [List.length_cons] at hlength
    omega
  · rfl

section Signed

variable {cs : List Char} {negative : Bool} (hsign : splitSign cs = (negative, digits))
include hsign

theorem readInfinity?_signed : Number.readInfinity? cs = none := by
  unfold Number.readInfinity?
  rw [hsign]
  dsimp only
  refine if_neg fun heq => ?_
  obtain ⟨c, rest, rfl, hc⟩ := h.exists_cons
  have hI : c = 'I' := by
    have hhead := congrArg List.head? heq
    simpa using hhead
  rw [hI] at hc
  exact absurd hc (by decide)

theorem read?_signed : Numeral.read? cs = some ⟨negative, digits, [], 0⟩ := by
  have htake : digits.takeWhile isAsciiDigit = digits := List.takeWhile_eq_self_iff.mpr h.all
  have hdrop : digits.dropWhile isAsciiDigit = [] := List.dropWhile_eq_nil_iff.mpr h.all
  have hempty : digits.isEmpty = false := by simpa using h.ne_nil
  unfold Numeral.read?
  rw [hsign]
  simp only [htake, hdrop, hempty]
  rfl

/-- Plain digits behind a sign are read as the double nearest to what they write. -/
theorem ofChars_signed (hradix : Number.readRadix? cs = none) :
    Number.ofChars cs = .ofBinary64 (.ofDecimal negative (digitsValue digits) 0) := by
  have hempty : cs.isEmpty = false := by
    rw [List.isEmpty_eq_false_iff]
    rintro rfl
    exact h.ne_nil (congrArg Prod.snd hsign).symm
  unfold Number.ofChars
  rw [hempty, readInfinity?_signed h hsign, hradix, read?_signed h hsign]
  simp only [Bool.false_eq_true, if_false, Option.none_or, Option.map_some, Option.getD_some]
  unfold Numeral.toBinary64
  simp only [List.append_nil, List.length_nil, Int.natCast_zero, sub_zero]

end Signed

/-- Plain digits are read as the double nearest to what they write. -/
theorem ofChars_nearest :
    Number.ofChars digits = .ofBinary64 (.ofDecimal false (digitsValue digits) 0) :=
  ofChars_signed h (splitSign_plain h) (readRadix?_plain h)

/-- **Plain digits are read as the integer that they write.** -/
theorem ofChars_plain (hlt : digitsValue digits < 2 ^ 53) :
    Number.ofChars digits = .int (digitsValue digits) := by
  rw [ofChars_nearest h]
  generalize digitsValue digits = n at hlt
  unfold Number.ofBinary64
  by_cases h0 : n = 0
  · have hdouble : Binary64.ofDecimal false n 0 = Binary64.zero false := if_pos h0
    rw [hdouble, Binary64.zero, whole?_mantissa_zero, h0]
    rfl
  · rw [ofDecimal_natural h0, whole?_ofRatio h0 hlt]

end Plain

end PipeScript.Proofs.Number.Exact
