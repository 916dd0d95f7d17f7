import PipeScript.Decimal.Layout
import PipeScript.Proofs.Decimal.Reading
import PipeScript.Proofs.Number.Digits

/-! # The order of the shortest decimals

The numbers that round to a double lie below those that round to a greater one (`lt_of_roundsTo`),
so the shortest decimals are ordered as the doubles are (`shortest_le_iff`).  With it a power of ten
that is the shortest decimal of a double separates the doubles from that one on from the smaller
ones, by the exponent of the first digit that is written for them
(`leadingExponent_shortest_iff`). -/

namespace PipeScript.Proofs.Decimal.Order

open PipeScript.Decimal
open PipeScript.Proofs.Number.Digits
open PipeScript.Proofs.Decimal.Nearness PipeScript.Proofs.Decimal.Reading

/-! ### Rounding keeps the order -/

section Rounding

variable {m m' : ℕ} {e e' : ℤ} (hc : Binary64.Canonical m e) (hc' : Binary64.Canonical m' e')

/-- Of two doubles with the same exponent the greater has the greater mantissa. -/
theorem lt_of_roundsTo_same {x y : ℚ} (hx : RoundsTo m e x) (hy : RoundsTo m' e y) (h : m < m') :
    x < y := by
  have hunit : (0 : ℚ) < 2 ^ e := by positivity
  have hbelow : (quartersBelow m' e : ℚ) ≤ 2 := by exact_mod_cast quartersBelow_le m' e
  have hxhigh := hx.high
  have hylow := hy.low
  rcases Nat.lt_or_ge (m + 1) m' with hfar | hnear
  · have hmq : (m : ℚ) + 2 ≤ m' := by exact_mod_cast (by omega : m + 2 ≤ m')
    nlinarith
  · -- neighbours: halfway between them belongs to the even one
    obtain rfl : m' = m + 1 := by omega
    push_cast at hylow
    rcases Nat.mod_two_eq_zero_or_one m with heven | hodd
    · have hstrict := (hy.odd (by omega)).1
      push_cast at hstrict
      nlinarith
    · have hstrict := (hx.odd hodd).2
      nlinarith

/-- A greater exponent makes the unit twice as large at least. -/
theorem double_unit_le (h : e < e') : (2 : ℚ) ^ e * 2 ≤ 2 ^ e' := by
  rw [← zpow_add_one₀ (by norm_num)]
  exact zpow_le_zpow_right₀ (by norm_num) (by omega)

include hc hc' in
/-- Beyond the least exponent the mantissa is full. -/
theorem full_of_exponent_lt (h : e < e') : 2 ^ 52 ≤ m' := by
  obtain ⟨-, hleast, -, -⟩ := hc
  exact hc'.2.2.2.resolve_right (by omega)

include hc hc' in
/-- A full mantissa with a greater exponent is beyond all mantissas with the smaller one. -/
theorem lt_of_roundsTo_below {x y : ℚ} (hx : RoundsTo m e x) (hy : RoundsTo m' e' y) (h : e < e') :
    x < y := by
  have hfits : m < 2 ^ 53 := hc.1
  have hfull : 2 ^ 52 ≤ m' := full_of_exponent_lt hc hc' h
  have hleast : -1074 ≤ e := hc.2.1
  have hunit : (0 : ℚ) < 2 ^ e := by positivity
  have hdouble := double_unit_le h
  have hbelow : (2 ^ 52 - 1 / 4 : ℚ) ≤ m' - quartersBelow m' e' / 4 := by
    by_cases hpower : m' = 2 ^ 52
    · have hone : quartersBelow m' e' = 1 := if_pos ⟨hpower, by omega⟩
      rw [hone, hpower]
      norm_num
    · have htwo : (quartersBelow m' e' : ℚ) ≤ 2 := by exact_mod_cast quartersBelow_le m' e'
      have hmq : (2 : ℚ) ^ 52 + 1 ≤ m' := by exact_mod_cast (by omega : 2 ^ 52 + 1 ≤ m')
      linarith
  have hlow : (2 ^ 53 - 1 / 2 : ℚ) * 2 ^ e ≤ y := by
    have hylow := hy.low
    nlinarith
  rcases Nat.lt_or_ge (m + 1) (2 ^ 53) with hless | hlast
  · have hmq : (m : ℚ) + 2 ≤ 2 ^ 53 := by exact_mod_cast (by omega : m + 2 ≤ 2 ^ 53)
    have hxhigh := hx.high
    nlinarith
  · -- the last mantissa is odd
    have hm : m + 1 = 2 ^ 53 := by omega
    have hstrict := (hx.odd (by omega)).2
    have hmq : (m : ℚ) + 1 = 2 ^ 53 := by exact_mod_cast hm
    have hhalf : (m : ℚ) + 1 / 2 = 2 ^ 53 - 1 / 2 := by
      rw [← hmq]
      ring
    rw [hhalf] at hstrict
    exact lt_of_lt_of_le hstrict hlow

include hc hc' in
/-- A full mantissa with the greater exponent is the greater number. -/
theorem magnitude_lt_of_exponent (h : e < e') : magnitude m e < magnitude m' e' := by
  have hlt := magnitude_lt hc
  have hfull : (2 : ℚ) ^ 52 ≤ m' := by exact_mod_cast full_of_exponent_lt hc hc' h
  have hdouble := double_unit_le h
  have hunit : (0 : ℚ) < 2 ^ e := by positivity
  unfold magnitude at hlt ⊢
  nlinarith

include hc hc' in
/-- **Numbers that round to a double lie below those that round to a greater one.** -/
theorem lt_of_roundsTo {x y : ℚ} (hx : RoundsTo m e x) (hy : RoundsTo m' e' y)
    (h : magnitude m e < magnitude m' e') : x < y := by
  rcases lt_trichotomy e e' with hlt | rfl | hgt
  · exact lt_of_roundsTo_below hc hc' hx hy hlt
  · have hunit : (0 : ℚ) < 2 ^ e := by positivity
    have hm : (m : ℚ) < m' := lt_of_mul_lt_mul_right h hunit.le
    exact lt_of_roundsTo_same hx hy (by exact_mod_cast hm)
  · exact absurd (magnitude_lt_of_exponent hc' hc hgt) (not_lt.mpr h.le)

include hc hc' in
/-- A number has one canonical form. -/
theorem parts_of_magnitude (h : magnitude m e = magnitude m' e') : m = m' ∧ e = e' := by
  rcases lt_trichotomy e e' with hlt | rfl | hgt
  · exact absurd h (magnitude_lt_of_exponent hc hc' hlt).ne
  · have hunit : (0 : ℚ) < 2 ^ e := by positivity
    have hm : (m : ℚ) = m' := mul_right_cancel₀ hunit.ne' h
    exact ⟨by exact_mod_cast hm, rfl⟩
  · exact absurd h.symm (magnitude_lt_of_exponent hc' hc hgt).ne

include hc hc' in
/-- **The shortest decimals are ordered as the doubles are.** -/
theorem shortest_le_iff (h0 : 0 < m) (h0' : 0 < m') :
    amount (shortest m e) ≤ amount (shortest m' e') ↔ magnitude m e ≤ magnitude m' e' := by
  have hx := roundsTo_shortest hc h0
  have hy := roundsTo_shortest hc' h0'
  constructor
  · intro hle
    by_contra hgt
    exact absurd (lt_of_roundsTo hc' hc hy hx (not_le.mp hgt)) (not_lt.mpr hle)
  · intro hle
    rcases lt_or_eq_of_le hle with hlt | heq
    · exact (lt_of_roundsTo hc hc' hx hy hlt).le
    · obtain ⟨rfl, rfl⟩ := parts_of_magnitude hc hc' heq
      exact le_refl _

end Rounding

/-! ### The first digit -/

/-- **The first digit tells the power of ten** that a decimal has reached. -/
theorem le_leadingExponent_iff {d : Decimal} (hd : d.coefficient ≠ 0) (power : ℤ) :
    power ≤ d.leadingExponent ↔ (10 : ℚ) ^ power ≤ amount d := by
  have hlength : 0 < (digitChars d.coefficient).length :=
    List.length_pos_iff.mpr Nat.toDigits_ne_nil
  obtain ⟨count, hcount⟩ : ∃ count, (digitChars d.coefficient).length = count + 1 :=
    ⟨(digitChars d.coefficient).length - 1, by omega⟩
  have hhigh : d.coefficient < 10 ^ (count + 1) := by
    have hvalue := digitsValue_lt fun c (hc : c ∈ digitChars d.coefficient) =>
      isAsciiDigit_of_mem_digitChars hc
    rwa [digitsValue_digitChars, hcount] at hvalue
  have hlow : 10 ^ count ≤ d.coefficient := by
    by_contra hless
    have hshort : (digitChars d.coefficient).length ≤ max count 1 := by
      refine (Nat.length_toDigits_le_iff (by decide) (by omega)).mpr ?_
      exact lt_of_lt_of_le (not_le.mp hless) (Nat.pow_le_pow_right (by decide) (le_max_left _ _))
    have hzero : count = 0 := by omega
    subst hzero
    omega
  have hlead : d.leadingExponent = d.exponent + count := by
    unfold Decimal.leadingExponent
    rw [hcount]
    push_cast
    ring
  have hunit : (0 : ℚ) < 10 ^ d.exponent := by positivity
  rw [hlead]
  unfold amount
  constructor
  · intro hle
    calc (10 : ℚ) ^ power ≤ 10 ^ ((count : ℤ) + d.exponent) :=
          zpow_le_zpow_right₀ (by norm_num) (by omega)
      _ = 10 ^ count * 10 ^ d.exponent := by rw [zpow_add₀ (by norm_num), zpow_natCast]
      _ ≤ d.coefficient * 10 ^ d.exponent := by
          gcongr
          exact_mod_cast hlow
  · intro hle
    have hlt : (10 : ℚ) ^ power < 10 ^ (((count + 1 : ℕ) : ℤ) + d.exponent) := by
      rw [zpow_add₀ (by norm_num), zpow_natCast]
      refine lt_of_le_of_lt hle ?_
      gcongr
      exact_mod_cast hhigh
    have hpower := (zpow_lt_zpow_iff_right₀ (by norm_num)).mp hlt
    omega

/-- **A power of ten that is written for a double** separates the doubles from that one on from the
smaller ones. -/
theorem leadingExponent_shortest_iff {m m' : ℕ} {e e' power : ℤ} (hc : Binary64.Canonical m e)
    (hc' : Binary64.Canonical m' e') (h0 : 0 < m) (h0' : 0 < m')
    (hpower : shortest m e = ⟨1, power⟩) :
    power ≤ (shortest m' e').leadingExponent ↔ magnitude m e ≤ magnitude m' e' := by
  have hone : amount (shortest m e) = 10 ^ power := by
    rw [hpower, amount, Nat.cast_one, one_mul]
  rw [le_leadingExponent_iff (coefficient_shortest_ne_zero hc' h0'), ← hone,
    shortest_le_iff hc hc' h0 h0']

end PipeScript.Proofs.Decimal.Order
