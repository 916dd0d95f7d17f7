import PipeScript.Proofs.Decimal.Nearness

/-! # The shortest decimal is read back

The numbers that round to a double fill an interval around it, its ends included when the mantissa
is even (`RoundsTo`).  Rounding takes every number of the interval to that double
(`ofRatio_of_roundsTo`): the exponent is the one that gives the mantissa its 53 bits, or one less
below a power of two, where rounding carries over.  The shortest decimal lies in the interval
(`roundsTo_shortest`), so it is read back as the double that it was written for
(`ofDecimal_shortest`). -/

namespace PipeScript.Proofs.Decimal.Reading

open PipeScript.Decimal
open PipeScript.Proofs.Decimal.Nearness

/-! ### Numbers that round to a double -/

/-- The numbers that round to a double. -/
structure RoundsTo (mantissa : ℕ) (exponent : ℤ) (x : ℚ) : Prop where
  low : (mantissa - quartersBelow mantissa exponent / 4) * 2 ^ exponent ≤ x
  high : x ≤ (mantissa + 1 / 2) * 2 ^ exponent
  odd : mantissa % 2 = 1 →
    (mantissa - 1 / 2) * 2 ^ exponent < x ∧ x < (mantissa + 1 / 2) * 2 ^ exponent

theorem quartersBelow_of_odd {mantissa : ℕ} (h : mantissa % 2 = 1) (exponent : ℤ) :
    quartersBelow mantissa exponent = 2 := by
  unfold quartersBelow
  refine if_neg fun hpower => ?_
  rw [hpower.1] at h
  exact absurd h (by decide)

theorem roundsTo_of_near {mantissa : ℕ} {exponent : ℤ} {x : ℚ}
    (h : |x - magnitude mantissa exponent| < 2 ^ exponent / 4) : RoundsTo mantissa exponent x := by
  have hunit : (0 : ℚ) < 2 ^ exponent := by positivity
  obtain ⟨hlow, hhigh⟩ := abs_lt.mp h
  have hone : (1 : ℚ) ≤ quartersBelow mantissa exponent := by
    unfold quartersBelow
    split_ifs <;> norm_num
  unfold magnitude at hlow hhigh
  refine ⟨?_, ?_, fun _ => ⟨?_, ?_⟩⟩
  · nlinarith
  · linarith
  · linarith
  · linarith

/-- Whole units are compared with a fraction as the numbers that they denote are. -/
theorem amount_compare {a denominator : ℕ} (units : ℕ) (hden : 0 < denominator) {power : ℤ} {x : ℚ}
    (h : (a : ℚ) / denominator = x / 10 ^ power) :
    (x ≤ amount ⟨units, power⟩ ↔ a ≤ units * denominator) ∧
      (amount ⟨units, power⟩ ≤ x ↔ units * denominator ≤ a) := by
  have hdenq : (0 : ℚ) < denominator := by exact_mod_cast hden
  have hunit : (0 : ℚ) < 10 ^ power := by positivity
  unfold amount
  constructor
  · rw [← div_le_iff₀ hunit, ← h, div_le_iff₀ hdenq]
    exact_mod_cast Iff.rfl
  · rw [← le_div_iff₀ hunit, ← h, le_div_iff₀ hdenq]
    exact_mod_cast Iff.rfl

/-- Units that the interval holds denote a number that rounds to the double. -/
theorem roundsTo_of_holds {mantissa : ℕ} (h0 : 0 < mantissa) {exponent power : ℤ} {units : ℕ}
    (h : ((Neighbourhood.ofParts mantissa exponent).inUnits power).holds units = true) :
    RoundsTo mantissa exponent (amount ⟨units, power⟩) := by
  obtain ⟨hpos, -, hlow, hhigh⟩ := ofParts_bounds h0 exponent rfl
  set n := Neighbourhood.ofParts mantissa exponent with hn
  have hden := denominator_inUnits_pos hpos power
  have hclosed : (n.inUnits power).closed = (mantissa % 2 == 0) := by
    unfold Neighbourhood.inUnits
    split_ifs <;> rfl
  have hlowUnits := inUnits_div n power (·.low) (.inl rfl)
  have hhighUnits := inUnits_div n power (·.high) (.inr (.inr rfl))
  rw [hlow] at hlowUnits
  rw [hhigh] at hhighUnits
  obtain ⟨hlowLe, hleLow⟩ := amount_compare units hden hlowUnits
  obtain ⟨hhighLe, hleHigh⟩ := amount_compare units hden hhighUnits
  unfold Neighbourhood.holds at h
  dsimp only at h
  rw [hclosed] at h
  rcases Nat.mod_two_eq_zero_or_one mantissa with heven | hodd
  · have hwithin : (n.inUnits power).low ≤ units * (n.inUnits power).denominator ∧
        units * (n.inUnits power).denominator ≤ (n.inUnits power).high := by
      simpa [heven] using h
    refine ⟨hlowLe.mpr hwithin.1, hleHigh.mpr hwithin.2, fun hodd => ?_⟩
    rw [heven] at hodd
    cases hodd
  · have hstrict : (n.inUnits power).low < units * (n.inUnits power).denominator ∧
        units * (n.inUnits power).denominator < (n.inUnits power).high := by
      simpa [hodd] using h
    have hhalf : (quartersBelow mantissa exponent : ℚ) / 4 = 1 / 2 := by
      rw [quartersBelow_of_odd hodd]
      norm_num
    have hbelow := lt_of_not_ge fun hle => absurd (hleLow.mp hle) (not_le.mpr hstrict.1)
    have habove := lt_of_not_ge fun hle => absurd (hhighLe.mp hle) (not_le.mpr hstrict.2)
    refine ⟨hbelow.le, habove.le, fun _ => ⟨?_, habove⟩⟩
    rw [← hhalf]
    exact hbelow

/-- **The shortest decimal rounds to its double.** -/
theorem roundsTo_shortest {mantissa : ℕ} {exponent : ℤ}
    (hc : Binary64.Canonical mantissa exponent) (h0 : 0 < mantissa) :
    RoundsTo mantissa exponent (amount (shortest mantissa exponent)) := by
  unfold shortest
  dsimp only
  rw [amount_trimZeros]
  rcases searchFrom_cases (around_ofParts h0 exponent) 17
    (Neighbourhood.ofParts mantissa exponent).leadingPower with ⟨units, last, heq, hholds⟩ | hnear
  · rw [heq]
    exact roundsTo_of_holds h0 hholds
  · exact roundsTo_of_near (lt_of_le_of_lt hnear (last_digit_lt hc h0))

/-! ### Rounding -/

/-- A fraction near a whole number is rounded to it, one halfway if it is even. -/
theorem roundQuotient_eq {a b n : ℕ} (hb : 0 < b) (hlow : 2 * (n * b) ≤ 2 * a + b)
    (hhigh : 2 * a ≤ 2 * (n * b) + b)
    (hodd : n % 2 = 1 → 2 * (n * b) < 2 * a + b ∧ 2 * a < 2 * (n * b) + b) :
    roundQuotient a b = n := by
  have hdiv := Nat.div_add_mod' a b
  have hmod := Nat.mod_lt a hb
  unfold roundQuotient
  dsimp only
  generalize a / b = q at hdiv ⊢
  generalize a % b = r at hdiv hmod ⊢
  have hnear : n = q ∨ n = q + 1 := by
    by_contra hfar
    rcases (by omega : n + 1 ≤ q ∨ q + 2 ≤ n) with h | h
    · have hmul := Nat.mul_le_mul_right b h
      rw [Nat.add_mul] at hmul
      omega
    · have hmul := Nat.mul_le_mul_right b h
      rw [Nat.add_mul] at hmul
      omega
  rcases hnear with rfl | rfl
  · split_ifs
    · rfl
    · omega
    · have heven : ¬ n % 2 = 1 := fun h => by
        have hstrict := hodd h
        omega
      omega
  · rw [Nat.add_mul] at hlow hhigh hodd
    split_ifs
    · omega
    · rfl
    · have heven : ¬ (q + 1) % 2 = 1 := fun h => by
        have hstrict := hodd h
        omega
      omega

/-- The same of the fraction as a number. -/
theorem roundQuotient_eq_of_near {a b n : ℕ} (hb : 0 < b) (hlow : (n : ℚ) - 1 / 2 ≤ a / b)
    (hhigh : (a : ℚ) / b ≤ n + 1 / 2)
    (hodd : n % 2 = 1 → (n : ℚ) - 1 / 2 < a / b ∧ (a : ℚ) / b < n + 1 / 2) :
    roundQuotient a b = n := by
  have hbq : (0 : ℚ) < b := by exact_mod_cast hb
  rw [le_div_iff₀ hbq] at hlow
  rw [div_le_iff₀ hbq] at hhigh
  rw [lt_div_iff₀ hbq, div_lt_iff₀ hbq] at hodd
  refine roundQuotient_eq hb ?_ ?_ fun h => ⟨?_, ?_⟩
  · have hcast : 2 * ((n : ℚ) * b) ≤ 2 * a + b := by linarith
    exact_mod_cast hcast
  · have hcast : 2 * (a : ℚ) ≤ 2 * (n * b) + b := by linarith
    exact_mod_cast hcast
  · have hcast : 2 * ((n : ℚ) * b) < 2 * a + b := by linarith [(hodd h).1]
    exact_mod_cast hcast
  · have hcast : 2 * (a : ℚ) < 2 * (n * b) + b := by linarith [(hodd h).2]
    exact_mod_cast hcast

theorem divideByPower_div (num : ℕ) {den : ℕ} (hden : 0 < den) (exponent : ℤ) :
    0 < (divideByPower num den exponent).2 ∧
      ((divideByPower num den exponent).1 : ℚ) / (divideByPower num den exponent).2 =
        num / den / 2 ^ exponent := by
  unfold divideByPower
  by_cases he : 0 ≤ exponent
  · obtain ⟨k, rfl⟩ := Int.eq_ofNat_of_zero_le he
    rw [if_pos he]
    refine ⟨Nat.mul_pos hden (Nat.two_pow_pos _), ?_⟩
    simp only [Int.toNat_natCast, Nat.cast_mul, zpow_natCast, twoTo, Nat.pow_eq, Nat.cast_pow,
      Nat.cast_ofNat]
    field_simp
  · obtain ⟨k, rfl⟩ : ∃ k : ℕ, exponent = -k := ⟨(-exponent).toNat, by omega⟩
    rw [if_neg he]
    refine ⟨hden, ?_⟩
    simp only [neg_neg, Int.toNat_natCast, Nat.cast_mul, zpow_neg, zpow_natCast, twoTo, Nat.pow_eq,
      Nat.cast_pow, Nat.cast_ofNat]
    field_simp

theorem div_lt_two_zpow {a b : ℕ} (hb : b ≠ 0) :
    (a : ℚ) / b < 2 ^ ((a.log2 : ℤ) - b.log2 + 1) := by
  have hbq : (0 : ℚ) < b := by exact_mod_cast Nat.pos_of_ne_zero hb
  have hhigh : (a : ℚ) < 2 ^ (a.log2 + 1) := by exact_mod_cast Nat.lt_log2_self (n := a)
  have hlow : (2 : ℚ) ^ b.log2 ≤ b := by exact_mod_cast Nat.log2_self_le hb
  have hexp : (a.log2 : ℤ) - b.log2 + 1 = ((a.log2 + 1 : ℕ) : ℤ) - b.log2 := by
    push_cast
    ring
  rw [hexp, zpow_sub₀ (by norm_num), zpow_natCast, zpow_natCast]
  gcongr

/-- The exponent to which a fraction is rounded. -/
def roundingExponent (num den : ℕ) : ℤ :=
  let guess : ℤ := max ((num.log2 : ℤ) - den.log2 - 53) (-1074)
  if (divideByPower num den guess).1 / (divideByPower num den guess).2 < twoTo 53 then guess
  else guess + 1

theorem ofRatio_eq_round {num : ℕ} (h : num ≠ 0) (den : ℕ) (negative : Bool) {mantissa : ℕ}
    (hround : roundQuotient (divideByPower num den (roundingExponent num den)).1
      (divideByPower num den (roundingExponent num den)).2 = mantissa) :
    Binary64.ofRatio negative num den =
      if mantissa < twoTo 53 then .ofParts negative mantissa (roundingExponent num den)
      else .ofParts negative (twoTo 52) (roundingExponent num den + 1) := by
  subst hround
  exact if_neg h

/-- **A mantissa of 53 bits**, or fewer at the least exponent. -/
theorem roundingExponent_spec {num den : ℕ} (hnum : num ≠ 0) (hden : den ≠ 0) :
    -1074 ≤ roundingExponent num den ∧
      (num : ℚ) / den < 2 ^ 53 * 2 ^ roundingExponent num den ∧
      ((2 : ℚ) ^ 52 * 2 ^ roundingExponent num den ≤ num / den ∨
        roundingExponent num den = -1074) := by
  have hlow := two_zpow_le_div hnum (Nat.pos_of_ne_zero hden)
  have hhigh := div_lt_two_zpow (a := num) hden
  unfold roundingExponent
  dsimp only
  set size : ℤ := (num.log2 : ℤ) - den.log2
  set guess : ℤ := max (size - 53) (-1074) with hguess
  obtain ⟨hpos, hdiv⟩ := divideByPower_div num (Nat.pos_of_ne_zero hden) guess
  have hposq : (0 : ℚ) < (divideByPower num den guess).2 := by exact_mod_cast hpos
  have hunit : (0 : ℚ) < 2 ^ guess := by positivity
  have hfull : (divideByPower num den guess).1 / (divideByPower num den guess).2 < twoTo 53 ↔
      (num : ℚ) / den < 2 ^ 53 * 2 ^ guess := by
    rw [Nat.div_lt_iff_lt_mul hpos, ← div_lt_iff₀ hunit, ← hdiv, div_lt_iff₀ hposq]
    exact_mod_cast Iff.rfl
  have hpower : ∀ k : ℕ, (2 : ℚ) ^ k * 2 ^ guess = 2 ^ (k + guess) := fun k => by
    rw [zpow_add₀ (by norm_num), zpow_natCast]
  split_ifs with hsmall
  · refine ⟨le_max_right _ _, hfull.mp hsmall, ?_⟩
    rcases max_choice (size - 53) (-1074 : ℤ) with hmax | hmax
    · left
      have hexp : ((52 : ℕ) : ℤ) + guess = size - 1 := by omega
      rw [hpower, hexp]
      exact hlow
    · exact .inr hmax
  · have hlarge := not_lt.mp (mt hfull.mpr hsmall)
    rw [zpow_add_one₀ (by norm_num)]
    have hleast : -1074 ≤ guess := le_max_right _ _
    refine ⟨by omega, ?_, .inl (by linarith)⟩
    have hmono : (2 : ℚ) ^ (size + 1) ≤ 2 ^ (((54 : ℕ) : ℤ) + guess) :=
      zpow_le_zpow_right₀ (by norm_num) (by omega)
    rw [← hpower] at hmono
    have hstep : (2 : ℚ) ^ 54 = 2 ^ 53 * 2 := by norm_num
    rw [hstep] at hmono
    linarith

theorem two_pow_le_ten_pow (k : ℕ) : (2 : ℚ) ^ (3 * k) ≤ 10 ^ k := by
  rw [pow_mul]
  gcongr
  norm_num

section Double

variable {mantissa : ℕ} {exponent : ℤ} (hc : Binary64.Canonical mantissa exponent)
include hc

/-- The exponent of a number that rounds to a double is that of the double, or one less where
rounding carries over. -/
theorem exponent_of_roundsTo {x : ℚ} (h : RoundsTo mantissa exponent x) {power : ℤ}
    (hleast : -1074 ≤ power) (hhigh : x < 2 ^ 53 * 2 ^ power)
    (hlow : (2 : ℚ) ^ 52 * 2 ^ power ≤ x ∨ power = -1074) :
    power = exponent ∨
      (power = exponent - 1 ∧ mantissa = 2 ^ 52 ∧ quartersBelow mantissa exponent = 1) := by
  obtain ⟨hfits, hcleast, -, hcfull⟩ := hc
  have hunit : (0 : ℚ) < 2 ^ exponent := by positivity
  have hmono : ∀ k : ℤ, power ≤ exponent + k → (2 : ℚ) ^ power ≤ 2 ^ exponent * 2 ^ k :=
    fun k hk => by
      rw [← zpow_add₀ (by norm_num)]
      exact zpow_le_zpow_right₀ (by norm_num) hk
  have hxlow := h.low
  have hxhigh := h.high
  rcases lt_trichotomy power exponent with hlt | heq | hgt
  · right
    have hfull : 2 ^ 52 ≤ mantissa := hcfull.resolve_right (by omega)
    have hbelow : (quartersBelow mantissa exponent : ℚ) ≤ 2 := by
      exact_mod_cast quartersBelow_le mantissa exponent
    have hhalf := hmono (-1) (by omega)
    rw [zpow_neg_one] at hhalf
    have hm : mantissa = 2 ^ 52 := by
      by_contra hne
      have hmq : (2 : ℚ) ^ 52 + 1 ≤ mantissa := by
        exact_mod_cast (by omega : 2 ^ 52 + 1 ≤ mantissa)
      nlinarith
    have hone : quartersBelow mantissa exponent = 1 := if_pos ⟨hm, by omega⟩
    refine ⟨?_, hm, hone⟩
    by_contra hne
    have hquarter := hmono (-2) (by omega)
    have hfour : (2 : ℚ) ^ (-2 : ℤ) = 1 / 4 := by norm_num
    rw [hfour] at hquarter
    rw [hone, hm] at hxlow
    push_cast at hxlow
    nlinarith
  · exact .inl heq
  · -- the mantissa would have 54 bits
    have hfull : (2 : ℚ) ^ 52 * 2 ^ power ≤ x := hlow.resolve_right (by omega)
    have hdouble : (2 : ℚ) ^ exponent * 2 ≤ 2 ^ power := by
      rw [← zpow_add_one₀ (by norm_num)]
      exact zpow_le_zpow_right₀ (by norm_num) (by omega)
    have hmq : (mantissa : ℚ) + 1 ≤ 2 ^ 53 := by
      exact_mod_cast (hfits : mantissa < 2 ^ 53)
    nlinarith

/-- **Numbers that round to a double are rounded to it.** -/
theorem ofRatio_of_roundsTo {num den : ℕ} (hnum : num ≠ 0) (hden : den ≠ 0)
    (h : RoundsTo mantissa exponent (num / den)) (negative : Bool) :
    Binary64.ofRatio negative num den = .finite negative mantissa exponent hc := by
  obtain ⟨hleast, hhigh, hlow⟩ := roundingExponent_spec hnum hden
  obtain ⟨hpos, hdiv⟩ :=
    divideByPower_div num (Nat.pos_of_ne_zero hden) (roundingExponent num den)
  have hunit : (0 : ℚ) < 2 ^ exponent := by positivity
  have hbelow : (quartersBelow mantissa exponent : ℚ) ≤ 2 := by
    exact_mod_cast quartersBelow_le mantissa exponent
  rcases exponent_of_roundsTo hc h hleast hhigh hlow with heq | ⟨heq, hm, hone⟩
  · have hround : roundQuotient (divideByPower num den (roundingExponent num den)).1
        (divideByPower num den (roundingExponent num den)).2 = mantissa := by
      refine roundQuotient_eq_of_near hpos ?_ ?_ fun hodd => ⟨?_, ?_⟩
      all_goals rw [hdiv, heq]
      · rw [le_div_iff₀ hunit]
        nlinarith [h.low]
      · rw [div_le_iff₀ hunit]
        exact h.high
      · rw [lt_div_iff₀ hunit]
        exact (h.odd hodd).1
      · rw [div_lt_iff₀ hunit]
        exact (h.odd hodd).2
    have hfits : mantissa < twoTo 53 := hc.1
    rw [ofRatio_eq_round hnum den negative hround, if_pos hfits, heq, Binary64.ofParts, dif_pos hc]
  · -- the mantissa is rounded up to the power of two
    have hround : roundQuotient (divideByPower num den (roundingExponent num den)).1
        (divideByPower num den (roundingExponent num den)).2 = 2 ^ 53 := by
      have hhalf : (2 : ℚ) ^ (exponent - 1) = 2 ^ exponent / 2 := zpow_sub_one₀ (by norm_num) _
      have hlowest := h.low
      rw [hone, hm] at hlowest
      rw [heq, hhalf] at hhigh
      push_cast at hlowest
      refine roundQuotient_eq_of_near hpos ?_ ?_ fun hodd => absurd hodd (by decide)
      all_goals rw [hdiv, heq, hhalf]
      · rw [le_div_iff₀ (by linarith)]
        push_cast
        linarith
      · rw [div_le_iff₀ (by linarith)]
        push_cast
        linarith
    have hexp : roundingExponent num den + 1 = exponent := by omega
    have hcanonical : Binary64.Canonical (twoTo 52) exponent := by
      rw [hm] at hc
      exact hc
    rw [ofRatio_eq_round hnum den negative hround, if_neg (by decide), hexp, Binary64.ofParts,
      dif_pos hcanonical]
    subst hm
    rfl

/-- The numbers that round to a double lie between half the least one and the next power of two. -/
theorem bounds_of_roundsTo (h0 : 0 < mantissa) {x : ℚ} (h : RoundsTo mantissa exponent x) :
    (2 : ℚ) ^ (-1075 : ℤ) ≤ x ∧ x < 2 ^ (1025 : ℤ) := by
  obtain ⟨hfits, hleast, hmost, -⟩ := hc
  have hlow := h.low
  have hhigh := h.high
  have hunit : (0 : ℚ) < 2 ^ exponent := by positivity
  have hbelow : (quartersBelow mantissa exponent : ℚ) ≤ 2 := by
    exact_mod_cast quartersBelow_le mantissa exponent
  have hone : (1 : ℚ) ≤ mantissa := by exact_mod_cast h0
  have hfitsq : (mantissa : ℚ) + 1 ≤ 2 ^ 53 := by exact_mod_cast (hfits : mantissa < 2 ^ 53)
  constructor
  · have hmono : (2 : ℚ) ^ (-1074 : ℤ) ≤ 2 ^ exponent := zpow_le_zpow_right₀ (by norm_num) hleast
    rw [(by norm_num : (-1075 : ℤ) = -1074 - 1), zpow_sub_one₀ (by norm_num)]
    nlinarith
  · have hmono : (2 : ℚ) ^ exponent ≤ 2 ^ (971 : ℤ) := zpow_le_zpow_right₀ (by norm_num) hmost
    have htop : (2 : ℚ) ^ (1025 : ℤ) = 2 ^ 53 * 2 ^ (971 : ℤ) * 2 := by
      rw [(by norm_num : (1025 : ℤ) = 53 + 971 + 1), zpow_add_one₀ (by norm_num),
        zpow_add₀ (by norm_num), zpow_ofNat 2 53]
    have hproduct : ((mantissa : ℚ) + 1 / 2) * 2 ^ exponent ≤ 2 ^ 53 * 2 ^ (971 : ℤ) := by
      gcongr
      linarith
    rw [htop]
    exact lt_of_le_of_lt (hhigh.trans hproduct) (lt_mul_of_one_lt_right (by positivity) one_lt_two)

/-- A decimal that rounds to a double is neither too great nor too small to be looked at. -/
theorem size_of_roundsTo (h0 : 0 < mantissa) {digits : ℕ} {power : ℤ} (hdigits : digits ≠ 0)
    (h : RoundsTo mantissa exponent (amount ⟨digits, power⟩)) :
    power ≤ 400 ∧ -800 ≤ power + digits.log2 / 3 := by
  obtain ⟨hlow, hhigh⟩ := bounds_of_roundsTo hc h0 h
  unfold amount at hlow hhigh
  dsimp only at hlow hhigh
  constructor
  · by_contra hgreat
    have hone : (1 : ℚ) ≤ digits := by exact_mod_cast Nat.pos_of_ne_zero hdigits
    have hlarge : (2 : ℚ) ^ (1025 : ℤ) ≤ digits * 10 ^ power := by
      calc (2 : ℚ) ^ (1025 : ℤ) ≤ 2 ^ ((3 * 401 : ℕ) : ℤ) :=
            zpow_le_zpow_right₀ (by norm_num) (by norm_num)
        _ ≤ 10 ^ (401 : ℤ) := by
            rw [zpow_natCast, zpow_ofNat]
            exact two_pow_le_ten_pow 401
        _ ≤ 10 ^ power := zpow_le_zpow_right₀ (by norm_num) (by omega)
        _ ≤ digits * 10 ^ power := le_mul_of_one_le_left (by positivity) hone
    exact absurd hhigh (not_lt.mpr hlarge)
  · by_contra hsmall
    obtain ⟨k, rfl⟩ : ∃ k : ℕ, power = -k := ⟨(-power).toNat, by omega⟩
    have hlog : (digits : ℚ) < 2 ^ (digits.log2 + 1) := by
      exact_mod_cast Nat.lt_log2_self (n := digits)
    have height := two_pow_le_ten_pow k
    have hless : (digits : ℚ) * 10 ^ (-(k : ℤ)) < 2 ^ (-1075 : ℤ) := by
      calc (digits : ℚ) * 10 ^ (-(k : ℤ)) = digits / 10 ^ k := by
            rw [zpow_neg, zpow_natCast, div_eq_mul_inv]
        _ < 2 ^ (digits.log2 + 1) / 2 ^ (3 * k) := by gcongr
        _ = 2 ^ (((digits.log2 + 1 : ℕ) : ℤ) - (3 * k : ℕ)) := by
            rw [zpow_sub₀ (by norm_num), zpow_natCast, zpow_natCast]
        _ ≤ 2 ^ (-1075 : ℤ) := zpow_le_zpow_right₀ (by norm_num) (by omega)
    exact absurd hlow (not_le.mpr hless)

/-- **A decimal that rounds to a double is read as it.** -/
theorem ofDecimal_of_roundsTo (h0 : 0 < mantissa) {digits : ℕ} {power : ℤ} (hdigits : digits ≠ 0)
    (h : RoundsTo mantissa exponent (amount ⟨digits, power⟩)) (negative : Bool) :
    Binary64.ofDecimal negative digits power = .finite negative mantissa exponent hc := by
  obtain ⟨hmost, hleast⟩ := size_of_roundsTo hc h0 hdigits h
  unfold Binary64.ofDecimal
  dsimp only
  rw [if_neg hdigits, if_neg (by omega), if_neg (by omega)]
  unfold amount at h
  dsimp only at h
  by_cases hp : 0 ≤ power
  · obtain ⟨k, rfl⟩ := Int.eq_ofNat_of_zero_le hp
    rw [if_pos hp, Int.toNat_natCast]
    refine ofRatio_of_roundsTo hc (Nat.mul_ne_zero hdigits (Nat.pow_pos (by decide)).ne')
      Nat.one_ne_zero ?_ negative
    simpa [tenTo] using h
  · obtain ⟨k, rfl⟩ : ∃ k : ℕ, power = -k := ⟨(-power).toNat, by omega⟩
    rw [if_neg hp, neg_neg, Int.toNat_natCast]
    refine ofRatio_of_roundsTo hc hdigits (Nat.pow_pos (by decide)).ne' ?_ negative
    simpa [tenTo, div_eq_mul_inv] using h

theorem coefficient_shortest_ne_zero (h0 : 0 < mantissa) :
    (shortest mantissa exponent).coefficient ≠ 0 := by
  intro hzero
  have hlow := (bounds_of_roundsTo hc h0 (roundsTo_shortest hc h0)).1
  have hpos : (0 : ℚ) < 2 ^ (-1075 : ℤ) := by positivity
  rw [amount, hzero, Nat.cast_zero, zero_mul] at hlow
  linarith

/-- **The shortest decimal is read back** as the double that it is written for. -/
theorem ofDecimal_shortest (h0 : 0 < mantissa) (negative : Bool) :
    Binary64.ofDecimal negative (shortest mantissa exponent).coefficient
      (shortest mantissa exponent).exponent = .finite negative mantissa exponent hc :=
  ofDecimal_of_roundsTo hc h0 (coefficient_shortest_ne_zero hc h0) (roundsTo_shortest hc h0)
    negative

end Double

end PipeScript.Proofs.Decimal.Reading
