import PipeScript.Proofs.Decimal.Order

/-! # Whole doubles up to `2^54` are written exactly

A search that reaches the unit 1 ends there with a whole number itself (`nearest?_exact`), and the
coarser units up to `2^54` leave no other multiple of ten in the interval (`coarse_exact`).  So the
shortest decimal of a whole double up to `2^54` denotes it (`amount_shortest_whole`).  The next
double but one is written as a neighbouring multiple of ten. -/

namespace PipeScript.Proofs.Decimal.Whole

open PipeScript.Decimal
open PipeScript.Proofs.Decimal.Nearness PipeScript.Proofs.Decimal.Reading
open PipeScript.Proofs.Decimal.Order

/-! ### The search for a whole number -/

section Search

variable {n : Neighbourhood} {x : ℕ} {reach : ℚ} (h : Around n x reach)
  (hinside : n.low < n.value ∧ n.value < n.high)

include hinside in
theorem inside_inUnits (power : ℤ) :
    (n.inUnits power).low < (n.inUnits power).value ∧
      (n.inUnits power).value < (n.inUnits power).high := by
  unfold Neighbourhood.inUnits
  split_ifs
  · exact hinside
  · have hfactor : 0 < tenTo (-power).toNat := Nat.pow_pos (by decide)
    exact ⟨Nat.mul_lt_mul_of_pos_right hinside.1 hfactor,
      Nat.mul_lt_mul_of_pos_right hinside.2 hfactor⟩

include h in
/-- In units of one or less a whole number is a whole number of units. -/
theorem value_inUnits {power : ℤ} (hp : power ≤ 0) :
    (n.inUnits power).value = x * 10 ^ (-power).toNat * (n.inUnits power).denominator := by
  obtain ⟨k, rfl⟩ : ∃ k : ℕ, power = -k := ⟨(-power).toNat, by omega⟩
  have hunits := around_inUnits h (-(k : ℤ))
  have hden : (0 : ℚ) < (n.inUnits (-k)).denominator := by exact_mod_cast hunits.denominator_pos
  have hvalue := hunits.value_eq
  rw [div_eq_iff hden.ne', zpow_neg, zpow_natCast, div_inv_eq_mul] at hvalue
  rw [neg_neg, Int.toNat_natCast]
  exact_mod_cast hvalue

/-- Units that make up the value are the nearest ones. -/
theorem nearest?_exact {n : Neighbourhood} {units : ℕ} (hden : 0 < n.denominator)
    (hinside : n.low < n.value ∧ n.value < n.high) (hvalue : n.value = units * n.denominator) :
    n.nearest? = some units := by
  have hround : roundQuotient n.value n.denominator = units := by
    refine roundQuotient_eq hden ?_ ?_ fun _ => ⟨?_, ?_⟩
    all_goals omega
  have hholds : n.holds units = true := by
    unfold Neighbourhood.holds
    dsimp only
    rw [← hvalue]
    split_ifs
    · simpa using ⟨hinside.1.le, hinside.2.le⟩
    · simpa using hinside
  unfold Neighbourhood.nearest?
  dsimp only
  rw [hround, if_pos hholds]

include h hinside in
/-- **The search finds a whole number**, when coarser units find nothing else. -/
theorem searchFrom_whole
    (hcoarse : ∀ units power, 0 < power → (n.inUnits power).holds units = true →
      amount ⟨units, power⟩ = x)
    {fuel : ℕ} {power : ℤ} (hfuel : power < fuel) : amount (n.searchFrom fuel power) = x := by
  have hexact : ∀ power : ℤ, power ≤ 0 →
      (x * 10 ^ (-power).toNat : ℕ) * (10 : ℚ) ^ power = x := by
    intro power hp
    obtain ⟨k, rfl⟩ : ∃ k : ℕ, power = -k := ⟨(-power).toNat, by omega⟩
    rw [neg_neg, Int.toNat_natCast, zpow_neg, zpow_natCast]
    push_cast
    field_simp
  induction fuel generalizing power with
  | zero =>
    have hp : power ≤ 0 := hfuel.le
    have hden := (around_inUnits h power).denominator_pos
    have hround : roundQuotient (n.inUnits power).value (n.inUnits power).denominator =
        x * 10 ^ (-power).toNat := by
      have hvalue := value_inUnits h hp
      refine roundQuotient_eq hden ?_ ?_ fun _ => ⟨?_, ?_⟩
      all_goals omega
    rw [Neighbourhood.searchFrom, hround]
    exact hexact power hp
  | succ fuel ih =>
    rw [Neighbourhood.searchFrom]
    rcases le_or_gt power 0 with hp | hp
    · rw [nearest?_exact (around_inUnits h power).denominator_pos (inside_inUnits hinside power)
        (value_inUnits h hp)]
      exact hexact power hp
    · cases hn : (n.inUnits power).nearest? with
      | some units => exact hcoarse units power hp (holds_of_nearest? hn)
      | none => exact ih (by omega)

end Search

/-! ### Whole doubles -/

/-- A double lies inside its interval. -/
theorem inside_ofParts {mantissa : ℕ} (h0 : 0 < mantissa) (exponent : ℤ) :
    (Neighbourhood.ofParts mantissa exponent).low <
        (Neighbourhood.ofParts mantissa exponent).value ∧
      (Neighbourhood.ofParts mantissa exponent).value <
        (Neighbourhood.ofParts mantissa exponent).high := by
  obtain ⟨unit, hvalue, hhigh, hlow, -, hunit⟩ := ofParts_quarters mantissa exponent rfl
  have hpos : 0 < unit := by
    rw [Nat.pos_iff_ne_zero]
    rintro rfl
    have hquarter : (0 : ℚ) < 2 ^ exponent / 4 := by positivity
    rw [← hunit, Nat.cast_zero, zero_div] at hquarter
    exact lt_irrefl _ hquarter
  have hbelow : 0 < quartersBelow mantissa exponent := by
    unfold quartersBelow
    split_ifs <;> omega
  rw [hvalue, hhigh, hlow]
  exact ⟨Nat.mul_lt_mul_of_pos_right (by omega) hpos, Nat.mul_lt_mul_of_pos_right (by omega) hpos⟩

section Double

variable {mantissa : ℕ} {exponent : ℤ} (hc : Binary64.Canonical mantissa exponent)
  (h0 : 0 < mantissa) {n : ℕ} (hn : magnitude mantissa exponent = n)
include hc hn

/-- Up to `2^54` a whole double is a multiple of two at most. -/
theorem exponent_le_of_whole (hle : n < 2 ^ 54) : exponent ≤ 1 := by
  by_contra hlarge
  have hfull : (2 : ℚ) ^ 52 ≤ mantissa := by
    exact_mod_cast (hc.2.2.2.resolve_right (by omega) : 2 ^ 52 ≤ mantissa)
  have hunit : (2 : ℚ) ^ (2 : ℤ) ≤ 2 ^ exponent := zpow_le_zpow_right₀ (by norm_num) (by omega)
  have hnq : (n : ℚ) < 2 ^ 54 := by exact_mod_cast hle
  have hmul : (2 : ℚ) ^ 52 * 2 ^ (2 : ℤ) ≤ mantissa * 2 ^ exponent := by gcongr
  rw [magnitude] at hn
  have hfour : (2 : ℚ) ^ 52 * 2 ^ (2 : ℤ) = 2 ^ 54 := by norm_num
  linarith

include h0

/-- Of the multiples of ten no other one lies as near. -/
theorem coarse_exact (hle : n < 2 ^ 54) {units : ℕ} {power : ℤ} (hp : 0 < power)
    (hholds : ((Neighbourhood.ofParts mantissa exponent).inUnits power).holds units = true) :
    amount ⟨units, power⟩ = n := by
  have haround := around_ofParts h0 exponent
  have hnear := near_of_near_units (near_of_holds (around_inUnits haround power) hholds)
  obtain ⟨k, rfl⟩ : ∃ k : ℕ, power = (k + 1 : ℕ) := ⟨(power - 1).toNat, by omega⟩
  have hamount : amount ⟨units, (k + 1 : ℕ)⟩ = (units * 10 ^ (k + 1) : ℕ) := by
    rw [amount, zpow_natCast]
    push_cast
    rfl
  rw [hn, hamount] at hnear
  rw [hamount]
  rcases lt_or_ge 0 exponent with hpos | hnonpos
  · -- both are even
    have hexp := exponent_le_of_whole hc hn hle
    obtain rfl : exponent = 1 := by omega
    have heven : n = 2 * mantissa := by
      rw [magnitude, zpow_one] at hn
      have hcast : (n : ℚ) = (2 * mantissa : ℕ) := by
        push_cast
        linarith
      exact_mod_cast hcast
    have hten : units * 10 ^ (k + 1) = 2 * (units * 10 ^ k * 5) := by ring
    rw [hten] at hnear ⊢
    generalize units * 10 ^ k * 5 = half at hnear ⊢
    have hdistance : |(((2 * half : ℕ) : ℤ) : ℚ) - (n : ℤ)| ≤ 1 := by
      simpa using hnear
    have hint : |((2 * half : ℕ) : ℤ) - (n : ℤ)| ≤ 1 := by exact_mod_cast hdistance
    obtain ⟨hlow, hhigh⟩ := abs_le.mp hint
    have heq : 2 * half = n := by omega
    rw [heq]
  · -- half a unit is less than the distance to another whole number
    have hunit : (2 : ℚ) ^ exponent ≤ 1 := zpow_le_one_of_nonpos₀ (by norm_num) hnonpos
    generalize units * 10 ^ (k + 1) = a at hnear ⊢
    have hdistance : |((a : ℤ) : ℚ) - (n : ℤ)| < 1 := by
      push_cast
      linarith
    have hint : |(a : ℤ) - (n : ℤ)| < 1 := by exact_mod_cast hdistance
    obtain ⟨hlow, hhigh⟩ := abs_lt.mp hint
    have heq : a = n := by omega
    rw [heq]

/-- **The shortest decimal of a whole double up to `2^54`** denotes it. -/
theorem amount_shortest_whole (hle : n ≤ 2 ^ 54) : amount (shortest mantissa exponent) = n := by
  rcases Nat.lt_or_eq_of_le hle with hlt | heq
  · have haround := around_ofParts h0 exponent
    rw [hn] at haround
    have hn0 : (0 : ℚ) < n := by
      rw [← hn, magnitude]
      positivity
    have hvalue : (Neighbourhood.ofParts mantissa exponent).value ≠ 0 := by
      have hinside := (inside_ofParts h0 exponent).1
      omega
    have hlead : (Neighbourhood.ofParts mantissa exponent).leadingPower < (17 : ℕ) := by
      have hle10 := leadingPower_le haround hvalue (hn ▸ magnitude_lt_top hc)
      have hsmall : (n : ℚ) < 10 ^ ((17 : ℕ) : ℤ) := by
        have hnq : (n : ℚ) < 2 ^ 54 := by exact_mod_cast hlt
        rw [zpow_natCast]
        linarith
      exact (zpow_lt_zpow_iff_right₀ (by norm_num)).mp (lt_of_le_of_lt hle10 hsmall)
    unfold shortest
    dsimp only
    rw [amount_trimZeros]
    exact searchFrom_whole haround (inside_ofParts h0 exponent)
      (fun units power hp hholds => coarse_exact hc h0 hn hlt hp hholds) hlead
  · -- the power of two itself has the next exponent
    have htop : magnitude (2 ^ 52) 2 = (n : ℚ) := by
      rw [heq, magnitude]
      norm_num
    obtain ⟨rfl, rfl⟩ := parts_of_magnitude hc (by decide) (hn.trans htop.symm)
    have hshortest : shortest (2 ^ 52) 2 = ⟨2 ^ 54, 0⟩ := by decide +kernel
    rw [hshortest, heq, amount, zpow_zero, mul_one]

end Double

end PipeScript.Proofs.Decimal.Whole
