import PipeScript.Decimal.Shortest
import Mathlib.Algebra.Order.Field.Power
import Mathlib.Data.Rat.Cast.Order
import Mathlib.Tactic.FieldSimp
import Mathlib.Tactic.GCongr
import Mathlib.Tactic.Linarith
import Mathlib.Tactic.NormNum
import Mathlib.Tactic.Positivity
import Mathlib.Tactic.Ring

/-! # The shortest decimal is near

The decimal that is written for a double lies less than one unit of its last place away from it
(`shortest_near`).  Either it lies in the interval that rounds to the double, which reaches half a
unit to both sides, or it has the full count of digits and is rounded at the last of them. -/

namespace PipeScript.Proofs.Decimal.Nearness

open PipeScript.Decimal

/-- The number that a decimal denotes. -/
def amount (d : Decimal) : ℚ := d.coefficient * 10 ^ d.exponent

/-- The number that a mantissa and an exponent denote. -/
def magnitude (mantissa : ℕ) (exponent : ℤ) : ℚ := mantissa * 2 ^ exponent

/-! ### Rounding and trimming -/

theorem roundQuotient_bounds (a : ℕ) {b : ℕ} (hb : 0 < b) :
    2 * (b * roundQuotient a b) ≤ 2 * a + b ∧ 2 * a ≤ 2 * (b * roundQuotient a b) + b := by
  have hdiv := Nat.div_add_mod a b
  have hmod := Nat.mod_lt a hb
  unfold roundQuotient
  dsimp only
  generalize a / b = q at hdiv ⊢
  generalize a % b = r at hdiv hmod ⊢
  split_ifs with hlow hhigh
  · omega
  · rw [Nat.mul_add]
    omega
  · -- halfway, to the even neighbour
    rw [Nat.mul_add]
    rcases Nat.mod_two_eq_zero_or_one q with hq | hq <;> rw [hq] <;> omega

/-- Rounding moves a fraction by half at most. -/
theorem roundQuotient_near (a : ℕ) {b : ℕ} (hb : 0 < b) :
    |(roundQuotient a b : ℚ) - a / b| ≤ 1 / 2 := by
  obtain ⟨hlow, hhigh⟩ := roundQuotient_bounds a hb
  have hbq : (0 : ℚ) < b := by exact_mod_cast hb
  have hlowq : 2 * (b * (roundQuotient a b : ℚ)) ≤ 2 * a + b := by exact_mod_cast hlow
  have hhighq : (2 : ℚ) * a ≤ 2 * (b * (roundQuotient a b : ℚ)) + b := by exact_mod_cast hhigh
  have hcancel : b * ((a : ℚ) / b) = a := mul_div_cancel₀ _ hbq.ne'
  rw [abs_le]
  constructor
  · nlinarith
  · nlinarith

theorem amount_trimZeros (fuel : ℕ) (d : Decimal) : amount (trimZeros fuel d) = amount d := by
  induction fuel generalizing d with
  | zero => rfl
  | succ fuel ih =>
    rw [trimZeros]
    split_ifs with h
    · rw [ih]
      have hcoeff : (d.coefficient : ℚ) = 10 * (d.coefficient / 10 : ℕ) := by
        exact_mod_cast (by omega : d.coefficient = 10 * (d.coefficient / 10))
      unfold amount
      dsimp only
      rw [zpow_add_one₀ (by norm_num), hcoeff]
      ring
    · rfl

/-! ### Neighbourhoods -/

/-- In other units everything is divided by the unit. -/
theorem inUnits_div (n : Neighbourhood) (power : ℤ) (part : Neighbourhood → ℕ)
    (hpart : part = (·.low) ∨ part = (·.value) ∨ part = (·.high)) :
    (part (n.inUnits power) : ℚ) / (n.inUnits power).denominator =
      (part n : ℚ) / n.denominator / 10 ^ power := by
  unfold Neighbourhood.inUnits
  by_cases hp : 0 ≤ power
  · obtain ⟨k, rfl⟩ := Int.eq_ofNat_of_zero_le hp
    rw [if_pos hp]
    rcases hpart with rfl | rfl | rfl <;>
      simp only [Int.toNat_natCast, Nat.cast_mul, zpow_natCast, tenTo,
        Nat.pow_eq, Nat.cast_pow, Nat.cast_ofNat] <;>
      field_simp
  · obtain ⟨k, rfl⟩ : ∃ k : ℕ, power = -k := ⟨(-power).toNat, by omega⟩
    rw [if_neg hp]
    rcases hpart with rfl | rfl | rfl <;>
      simp only [neg_neg, Int.toNat_natCast, Nat.cast_mul, zpow_neg, zpow_natCast, tenTo,
        Nat.pow_eq, Nat.cast_pow, Nat.cast_ofNat] <;>
      field_simp

theorem denominator_inUnits_pos {n : Neighbourhood} (h : 0 < n.denominator) (power : ℤ) :
    0 < (n.inUnits power).denominator := by
  unfold Neighbourhood.inUnits
  split_ifs
  · exact Nat.mul_pos h (Nat.pow_pos (by decide))
  · exact h

/-- An interval around a number that reaches no further than some distance to both sides. -/
structure Around (n : Neighbourhood) (x reach : ℚ) : Prop where
  denominator_pos : 0 < n.denominator
  value_eq : (n.value : ℚ) / n.denominator = x
  low_le : x - reach ≤ (n.low : ℚ) / n.denominator
  le_high : (n.high : ℚ) / n.denominator ≤ x + reach

section Around

variable {n : Neighbourhood} {x reach : ℚ} (h : Around n x reach)
include h

theorem around_inUnits (power : ℤ) :
    Around (n.inUnits power) (x / 10 ^ power) (reach / 10 ^ power) := by
  have hunit : (0 : ℚ) < 10 ^ power := by positivity
  refine ⟨denominator_inUnits_pos h.denominator_pos power, ?_, ?_, ?_⟩
  · rw [inUnits_div n power (·.value) (.inr (.inl rfl)), h.value_eq]
  · rw [inUnits_div n power (·.low) (.inl rfl), ← sub_div]
    gcongr
    exact h.low_le
  · rw [inUnits_div n power (·.high) (.inr (.inr rfl)), ← add_div]
    gcongr
    exact h.le_high

theorem near_of_holds {units : ℕ} (hu : n.holds units = true) : |(units : ℚ) - x| ≤ reach := by
  have hden : (0 : ℚ) < n.denominator := by exact_mod_cast h.denominator_pos
  have hbounds : n.low ≤ units * n.denominator ∧ units * n.denominator ≤ n.high := by
    unfold Neighbourhood.holds at hu
    dsimp only at hu
    split_ifs at hu
    · simpa using hu
    · have hlt : n.low < units * n.denominator ∧ units * n.denominator < n.high := by simpa using hu
      exact ⟨hlt.1.le, hlt.2.le⟩
  have hlow : (n.low : ℚ) / n.denominator ≤ units := by
    rw [div_le_iff₀ hden]
    exact_mod_cast hbounds.1
  have hhigh : (units : ℚ) ≤ n.high / n.denominator := by
    rw [le_div_iff₀ hden]
    exact_mod_cast hbounds.2
  have h1 := h.low_le
  have h2 := h.le_high
  rw [abs_le]
  constructor
  · linarith
  · linarith

end Around

theorem holds_of_nearest? {n : Neighbourhood} {units : ℕ} (h : n.nearest? = some units) :
    n.holds units = true := by
  unfold Neighbourhood.nearest? at h
  dsimp only at h
  split_ifs at h with h1 h2 h3
  · cases h
    exact h1
  · cases h
    exact h2
  · cases h
    exact h3

/-- A distance in units is a distance. -/
theorem near_of_near_units {units : ℕ} {x reach : ℚ} {power : ℤ}
    (h : |(units : ℚ) - x / 10 ^ power| ≤ reach / 10 ^ power) :
    |amount ⟨units, power⟩ - x| ≤ reach := by
  have hunit : (0 : ℚ) < 10 ^ power := by positivity
  have hform : amount ⟨units, power⟩ - x = (units - x / 10 ^ power) * 10 ^ power := by
    unfold amount
    field_simp
  rw [hform, abs_mul, abs_of_pos hunit]
  rwa [le_div_iff₀ hunit] at h

/-- **The search** ends with units that the interval holds, or rounds at its last digit. -/
theorem searchFrom_cases {n : Neighbourhood} {x reach : ℚ} (h : Around n x reach) (fuel : ℕ)
    (power : ℤ) :
    (∃ units last, n.searchFrom fuel power = ⟨units, last⟩ ∧ (n.inUnits last).holds units = true) ∨
      |amount (n.searchFrom fuel power) - x| ≤ 10 ^ (power - fuel) / 2 := by
  induction fuel generalizing power with
  | zero =>
    right
    have hround := roundQuotient_near (n.inUnits power).value
      (around_inUnits h power).denominator_pos
    rw [(around_inUnits h power).value_eq] at hround
    have hunit : (0 : ℚ) < 10 ^ power := by positivity
    have hhalf : (10 : ℚ) ^ (power - (0 : ℕ)) / 2 / 10 ^ power = 1 / 2 := by
      rw [Nat.cast_zero, sub_zero]
      field_simp
    refine near_of_near_units ?_
    rw [hhalf]
    exact hround
  | succ fuel ih =>
    rw [Neighbourhood.searchFrom]
    cases hn : (n.inUnits power).nearest? with
    | some units => exact .inl ⟨units, power, rfl, holds_of_nearest? hn⟩
    | none =>
      have hstep : power - 1 - (fuel : ℤ) = power - ((fuel + 1 : ℕ) : ℤ) := by
        push_cast
        ring
      have hrest := ih (power - 1)
      rw [hstep] at hrest
      exact hrest

theorem searchFrom_near {n : Neighbourhood} {x reach : ℚ} (h : Around n x reach) (fuel : ℕ)
    (power : ℤ) :
    |amount (n.searchFrom fuel power) - x| ≤ reach ∨
      |amount (n.searchFrom fuel power) - x| ≤ 10 ^ (power - fuel) / 2 := by
  rcases searchFrom_cases h fuel power with ⟨units, last, heq, hholds⟩ | hlast
  · rw [heq]
    exact .inl (near_of_near_units (near_of_holds (around_inUnits h last) hholds))
  · exact .inr hlast

/-- How many quarters of the last digit's unit the interval reaches down: fewer below a power of
two, where the doubles are closer. -/
def quartersBelow (mantissa : ℕ) (exponent : ℤ) : ℕ :=
  if mantissa = twoTo 52 ∧ exponent > -1074 then 1 else 2

theorem quartersBelow_le (mantissa : ℕ) (exponent : ℤ) : quartersBelow mantissa exponent ≤ 2 := by
  unfold quartersBelow
  split_ifs <;> omega

/-- The bounds of the interval in quarters of the last digit's unit. -/
theorem ofParts_quarters (mantissa : ℕ) (exponent : ℤ) {n : Neighbourhood}
    (hn : n = Neighbourhood.ofParts mantissa exponent) :
    ∃ unit : ℕ, n.value = 4 * mantissa * unit ∧ n.high = (4 * mantissa + 2) * unit ∧
      n.low = (4 * mantissa - quartersBelow mantissa exponent) * unit ∧ 0 < n.denominator ∧
      (unit : ℚ) / n.denominator = 2 ^ exponent / 4 := by
  subst hn
  refine ⟨if exponent ≥ 2 then twoTo (exponent - 2).toNat else 1, rfl, rfl, rfl, ?_, ?_⟩
  · rw [Neighbourhood.ofParts]
    dsimp only
    split_ifs
    · exact Nat.one_pos
    · exact Nat.pow_pos (by decide)
  · rw [Neighbourhood.ofParts]
    dsimp only
    split_ifs with he
    · obtain ⟨k, hk⟩ : ∃ k : ℕ, exponent = k + 2 := ⟨(exponent - 2).toNat, by omega⟩
      subst hk
      have hk : ((k : ℤ) + 2 - 2).toNat = k := by omega
      rw [hk, zpow_add₀ (by norm_num)]
      simp only [twoTo, Nat.pow_eq, Nat.cast_pow, Nat.cast_ofNat, Nat.cast_one, zpow_natCast]
      norm_num
    · obtain ⟨k, hk⟩ : ∃ k : ℕ, exponent = 2 - k := ⟨(2 - exponent).toNat, by omega⟩
      subst hk
      have hk : (2 - (2 - (k : ℤ))).toNat = k := by omega
      rw [hk, zpow_sub₀ (by norm_num)]
      simp only [twoTo, Nat.pow_eq, Nat.cast_pow, Nat.cast_ofNat, Nat.cast_one, zpow_natCast]
      norm_num
      ring

/-- **The ends of the interval** and its middle. -/
theorem ofParts_bounds {mantissa : ℕ} (h0 : 0 < mantissa) (exponent : ℤ) {n : Neighbourhood}
    (hn : n = Neighbourhood.ofParts mantissa exponent) :
    0 < n.denominator ∧ (n.value : ℚ) / n.denominator = magnitude mantissa exponent ∧
      (n.low : ℚ) / n.denominator =
        (mantissa - quartersBelow mantissa exponent / 4) * 2 ^ exponent ∧
      (n.high : ℚ) / n.denominator = (mantissa + 1 / 2) * 2 ^ exponent := by
  obtain ⟨unit, hvalue, hhigh, hlow, hpos, hunit⟩ := ofParts_quarters mantissa exponent hn
  have hbelow : quartersBelow mantissa exponent ≤ 4 * mantissa := by
    have hle := quartersBelow_le mantissa exponent
    omega
  refine ⟨hpos, ?_, ?_, ?_⟩
  · rw [hvalue]
    push_cast
    rw [mul_div_assoc, hunit, magnitude]
    ring
  · rw [hlow, Nat.cast_mul, Nat.cast_sub hbelow]
    push_cast
    rw [mul_div_assoc, hunit]
    ring
  · rw [hhigh]
    push_cast
    rw [mul_div_assoc, hunit]
    ring

/-- The interval of the numbers that round to a double reaches half a unit to both sides. -/
theorem around_ofParts {mantissa : ℕ} (h0 : 0 < mantissa) (exponent : ℤ) :
    Around (Neighbourhood.ofParts mantissa exponent) (magnitude mantissa exponent)
      (2 ^ exponent / 2) := by
  obtain ⟨hpos, hvalue, hlow, hhigh⟩ := ofParts_bounds h0 exponent rfl
  have hunit : (0 : ℚ) < 2 ^ exponent := by positivity
  have hbelow : (quartersBelow mantissa exponent : ℚ) ≤ 2 := by
    exact_mod_cast quartersBelow_le mantissa exponent
  refine ⟨hpos, hvalue, ?_, ?_⟩
  · rw [hlow, magnitude]
    nlinarith
  · rw [hhigh, magnitude]
    exact le_of_eq (by ring)

/-! ### The first digit -/

/-- A power of ten below a power of two, from one good rational bound for the exponents. -/
theorem zpow_ten_le {a b : ℕ} (hb : 0 < b) (hten : (10 : ℚ) ^ a ≤ 2 ^ (b + 1))
    (htwo : (2 : ℚ) ^ b ≤ 10 ^ a) {power size : ℤ} (hpower : power * b ≤ size * a)
    (hsize : size ≤ b) : (10 : ℚ) ^ power ≤ 2 ^ (size + 1) := by
  have hroot : ((10 : ℚ) ^ power) ^ b ≤ (2 ^ (size + 1)) ^ b := by
    rw [← zpow_natCast, ← zpow_mul, ← zpow_natCast, ← zpow_mul]
    have hmono : (10 : ℚ) ^ (power * b) ≤ 10 ^ (size * a) :=
      zpow_le_zpow_right₀ (by norm_num) hpower
    refine hmono.trans ?_
    rcases le_or_gt 0 size with hs | hs
    · obtain ⟨s, rfl⟩ := Int.eq_ofNat_of_zero_le hs
      calc (10 : ℚ) ^ ((s : ℤ) * a) = (10 ^ a) ^ s := by
            rw [mul_comm, zpow_mul, zpow_natCast, zpow_natCast]
        _ ≤ (2 ^ (b + 1)) ^ s := by gcongr
        _ = 2 ^ (((b + 1) * s : ℕ) : ℤ) := by rw [← pow_mul, zpow_natCast]
        _ ≤ 2 ^ (((s : ℤ) + 1) * b) := by
            refine zpow_le_zpow_right₀ (by norm_num) ?_
            push_cast
            nlinarith
    · obtain ⟨t, rfl⟩ : ∃ t : ℕ, size = -t := ⟨(-size).toNat, by omega⟩
      calc (10 : ℚ) ^ (-(t : ℤ) * a) = ((10 ^ a) ^ t)⁻¹ := by
            rw [neg_mul, zpow_neg, mul_comm, zpow_mul, zpow_natCast, zpow_natCast]
        _ ≤ ((2 ^ b) ^ t)⁻¹ := by gcongr
        _ = 2 ^ (-(t : ℤ) * b) := by
            rw [neg_mul, zpow_neg, mul_comm, zpow_mul, zpow_natCast, zpow_natCast]
        _ ≤ 2 ^ ((-(t : ℤ) + 1) * b) := by
            refine zpow_le_zpow_right₀ (by norm_num) ?_
            nlinarith
  exact (pow_le_pow_iff_left₀ (by positivity) (by positivity) hb.ne').mp hroot

theorem ten_pow_bounds : (10 : ℚ) ^ 30103 ≤ 2 ^ (100000 + 1) ∧ (2 : ℚ) ^ 100000 ≤ 10 ^ 30103 := by
  have hten : 10 ^ 30103 ≤ 2 ^ (100000 + 1) := by decide +kernel
  have htwo : 2 ^ 100000 ≤ 10 ^ 30103 := by decide +kernel
  constructor
  · exact_mod_cast hten
  · exact_mod_cast htwo

/-- The logarithms of a fraction bound it from below. -/
theorem two_zpow_le_div {a b : ℕ} (ha : a ≠ 0) (hb : 0 < b) :
    (2 : ℚ) ^ ((a.log2 : ℤ) - b.log2 - 1) ≤ a / b := by
  have hbq : (0 : ℚ) < b := by exact_mod_cast hb
  have hlow : (2 : ℚ) ^ a.log2 ≤ a := by exact_mod_cast Nat.log2_self_le ha
  have hhigh : (b : ℚ) ≤ 2 ^ (b.log2 + 1) := by exact_mod_cast (Nat.lt_log2_self (n := b)).le
  have hexp : (a.log2 : ℤ) - b.log2 - 1 = (a.log2 : ℤ) - ((b.log2 + 1 : ℕ) : ℤ) := by
    push_cast
    ring
  rw [hexp, zpow_sub₀ (by norm_num), zpow_natCast, zpow_natCast]
  gcongr

/-- A power of ten that is no more than the value in its units is no more than the number. -/
theorem zpow_ten_le_of_inUnits {n : Neighbourhood} {x reach : ℚ} (h : Around n x reach) {power : ℤ}
    (hle : (n.inUnits power).denominator ≤ (n.inUnits power).value) : (10 : ℚ) ^ power ≤ x := by
  have hunits := around_inUnits h power
  have hden : (0 : ℚ) < (n.inUnits power).denominator := by exact_mod_cast hunits.denominator_pos
  have hone : 1 ≤ x / 10 ^ power := by
    rw [← hunits.value_eq, le_div_iff₀ hden, one_mul]
    exact_mod_cast hle
  rwa [le_div_iff₀ (by positivity), one_mul] at hone

/-- **The power of ten of the first digit** is at most the number itself. -/
theorem leadingPower_le {n : Neighbourhood} {x reach : ℚ} (h : Around n x reach)
    (h0 : n.value ≠ 0) (hx : x < 2 ^ (1024 : ℤ)) : (10 : ℚ) ^ n.leadingPower ≤ x := by
  unfold Neighbourhood.leadingPower
  dsimp only
  set size : ℤ := (n.value.log2 : ℤ) - n.denominator.log2 with hsize
  have hlow : (2 : ℚ) ^ (size - 1) ≤ x := by
    rw [← h.value_eq, hsize]
    exact two_zpow_le_div h0 h.denominator_pos
  have hfdiv : (size * 30103).fdiv 100000 = size * 30103 / 100000 :=
    Int.fdiv_eq_ediv_of_nonneg _ (by norm_num)
  rw [hfdiv]
  split_ifs with hnext hthis
  · exact zpow_ten_le_of_inUnits h (by simpa using hnext)
  · exact zpow_ten_le_of_inUnits h (by simpa using hthis)
  · -- the guess was one too high: ten is more than the slack of the bound
    have hlt : size - 1 < 1024 :=
      (zpow_lt_zpow_iff_right₀ (by norm_num)).mp (lt_of_le_of_lt hlow hx)
    have hguess : (10 : ℚ) ^ (size * 30103 / 100000) ≤ 2 ^ (size + 1) := by
      refine zpow_ten_le (by norm_num) ten_pow_bounds.1 ten_pow_bounds.2 ?_ ?_
      · push_cast
        omega
      · push_cast
        omega
    have hpos : (0 : ℚ) < 2 ^ (size - 1) := by positivity
    have hfour : (2 : ℚ) ^ (size + 1) = 4 * 2 ^ (size - 1) := by
      rw [(by ring : size + 1 = size - 1 + 2), zpow_add₀ (by norm_num)]
      norm_num
      ring
    rw [zpow_sub_one₀ (by norm_num)]
    linarith

/-! ### The shortest decimal -/

theorem magnitude_lt {mantissa : ℕ} {exponent : ℤ} (hc : Binary64.Canonical mantissa exponent) :
    magnitude mantissa exponent < 2 ^ 53 * 2 ^ exponent := by
  have hmantissa : (mantissa : ℚ) < 2 ^ 53 := by
    have hlt : mantissa < 2 ^ 53 := hc.1
    exact_mod_cast hlt
  unfold magnitude
  gcongr

theorem magnitude_lt_top {mantissa : ℕ} {exponent : ℤ} (hc : Binary64.Canonical mantissa exponent) :
    magnitude mantissa exponent < 2 ^ (1024 : ℤ) := by
  have hexp : (2 : ℚ) ^ exponent ≤ 2 ^ (971 : ℤ) :=
    zpow_le_zpow_right₀ (by norm_num) hc.2.2.1
  calc magnitude mantissa exponent < 2 ^ 53 * 2 ^ exponent := magnitude_lt hc
    _ ≤ 2 ^ 53 * 2 ^ (971 : ℤ) := by gcongr
    _ = 2 ^ (1024 : ℤ) := by
        rw [(by norm_num : (1024 : ℤ) = 53 + 971), zpow_add₀ (by norm_num), zpow_ofNat 2 53]

section Shortest

variable {mantissa : ℕ} {exponent : ℤ} (hc : Binary64.Canonical mantissa exponent)
  (h0 : 0 < mantissa)
include hc h0

/-- Half a unit of the last digit that is tried is far less than the distance to other doubles. -/
theorem last_digit_lt :
    (10 : ℚ) ^ ((Neighbourhood.ofParts mantissa exponent).leadingPower - (17 : ℕ)) / 2 <
      2 ^ exponent / 4 := by
  have haround := around_ofParts h0 exponent
  have hunit : (0 : ℚ) < 2 ^ exponent := by positivity
  have hmagnitude := magnitude_lt hc
  have hvalue : (Neighbourhood.ofParts mantissa exponent).value ≠ 0 := by
    intro hzero
    have heq := haround.value_eq
    rw [hzero, Nat.cast_zero, zero_div, magnitude] at heq
    have hpos : (0 : ℚ) < mantissa * 2 ^ exponent := by
      have hm : (0 : ℚ) < mantissa := by exact_mod_cast h0
      positivity
    linarith
  have hlead := leadingPower_le haround hvalue (magnitude_lt_top hc)
  rw [zpow_sub₀ (by norm_num), zpow_natCast, div_div, div_lt_iff₀ (by norm_num)]
  have h53 : (2 : ℚ) ^ 53 < 1 / 4 * (10 ^ 17 * 2) := by norm_num
  nlinarith

/-- **The shortest decimal is less than one unit away** from the double that it is written for. -/
theorem shortest_near :
    |amount (shortest mantissa exponent) - magnitude mantissa exponent| < 2 ^ exponent := by
  have hunit : (0 : ℚ) < 2 ^ exponent := by positivity
  have hlast := last_digit_lt hc h0
  unfold shortest
  dsimp only
  rw [amount_trimZeros]
  rcases searchFrom_near (around_ofParts h0 exponent) 17
    (Neighbourhood.ofParts mantissa exponent).leadingPower with h | h
  · linarith
  · linarith

end Shortest

end PipeScript.Proofs.Decimal.Nearness
