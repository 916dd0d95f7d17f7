import PipeScript.Proofs.Number.PlainText

/-! # Integers from `2^53` on

A natural number from `2^53` on is rounded to a double, and none of the doubles that it may go to
lies below `2^53` (`ofRatio_large`): its mantissa is full and the unit of its last place is two at
least.  Such a double is exact when it is rounded again (`ofRatio_self`).  So plain digits of such a
value are read as infinity, or as an integer from `2^53` on that is a double (`ofChars_large`). -/

namespace PipeScript.Proofs.Number.Rounding

open PipeScript.Proofs.Number.Exact PipeScript.Proofs.Number.PlainText

theorem ofParts_cases (negative : Bool) (mantissa : ℕ) (exponent : ℤ) :
    Binary64.ofParts negative mantissa exponent = .infinite negative ∨
      ∃ canonical, Binary64.ofParts negative mantissa exponent =
        .finite negative mantissa exponent canonical := by
  unfold Binary64.ofParts
  split_ifs with h
  · exact .inr ⟨h, rfl⟩
  · exact .inl rfl

theorem div_le_roundQuotient (num den : ℕ) : num / den ≤ roundQuotient num den := by
  unfold roundQuotient
  dsimp only
  split_ifs <;> omega

theorem roundQuotient_mul (q : ℕ) {den : ℕ} (h : 0 < den) : roundQuotient (q * den) den = q := by
  unfold roundQuotient
  dsimp only
  rw [Nat.mul_mod_left, Nat.mul_div_cancel q h, if_pos h]

theorem divideByPower_natCast (n k : ℕ) : divideByPower n 1 (k : ℤ) = (n, 2 ^ k) := by
  unfold divideByPower
  rw [if_pos (Int.natCast_nonneg k), Int.toNat_natCast, one_mul]
  rfl

/-- A number of `k + 54` binary digits loses `k + 1` of them. -/
theorem ofRatio_of_log2 {n k : ℕ} (h : n.log2 = k + 53) (negative : Bool) :
    Binary64.ofRatio negative n 1 =
      if roundQuotient n (2 ^ (k + 1)) < 2 ^ 53 then
        .ofParts negative (roundQuotient n (2 ^ (k + 1))) (k + 1 : ℕ)
      else .ofParts negative (2 ^ 52) (k + 2 : ℕ) := by
  have h0 : n ≠ 0 := by
    rintro rfl
    rw [Nat.log2_zero] at h
    omega
  have hone : Nat.log2 1 = 0 := by decide
  have hguess : max ((n.log2 : ℤ) - (Nat.log2 1 : ℕ) - 53) (-1074) = (k : ℤ) := by
    rw [hone, h]
    omega
  have hlarge : ¬ n / 2 ^ k < twoTo 53 := by
    have hlow := Nat.log2_self_le h0
    rw [h, Nat.add_comm, pow_add] at hlow
    exact not_lt.mpr ((Nat.le_div_iff_mul_le (Nat.two_pow_pos k)).mpr hlow)
  have hexp : (k : ℤ) + 1 = (k + 1 : ℕ) := rfl
  unfold Binary64.ofRatio
  rw [if_neg h0, hguess]
  simp only [divideByPower_natCast, if_neg hlarge, hexp]
  rfl

/-- **Numbers from `2^53` on stay there**: what they are rounded to has a full mantissa and an even
unit. -/
theorem ofRatio_large {n : ℕ} (h : 2 ^ 53 ≤ n) (negative : Bool) :
    Binary64.ofRatio negative n 1 = .infinite negative ∨
      ∃ (mantissa exponent : ℕ) (canonical : _), 2 ^ 52 ≤ mantissa ∧
        Binary64.ofRatio negative n 1 = .finite negative mantissa (exponent + 1 : ℕ) canonical := by
  have h0 : n ≠ 0 := by
    rintro rfl
    exact absurd h (by decide)
  have hlog : 53 ≤ n.log2 := (Nat.le_log2 h0).mpr h
  obtain ⟨k, hk⟩ : ∃ k, n.log2 = k + 53 := ⟨n.log2 - 53, by omega⟩
  have hfull : 2 ^ 52 ≤ roundQuotient n (2 ^ (k + 1)) := by
    refine le_trans ?_ (div_le_roundQuotient n (2 ^ (k + 1)))
    refine (Nat.le_div_iff_mul_le (Nat.two_pow_pos (k + 1))).mpr ?_
    have hlow := Nat.log2_self_le h0
    rw [hk] at hlow
    rwa [← pow_add, (by omega : 52 + (k + 1) = k + 53)]
  rw [ofRatio_of_log2 hk]
  split_ifs
  · rcases ofParts_cases negative (roundQuotient n (2 ^ (k + 1))) (k + 1 : ℕ) with hp | ⟨c, hp⟩
    · exact .inl hp
    · exact .inr ⟨_, k, c, hfull, hp⟩
  · rcases ofParts_cases negative (2 ^ 52) (k + 2 : ℕ) with hp | ⟨c, hp⟩
    · exact .inl hp
    · exact .inr ⟨2 ^ 52, k + 1, c, le_refl _, hp⟩

/-- **Such a double is exact.** -/
theorem ofRatio_self {mantissa exponent : ℕ}
    (canonical : Binary64.Canonical mantissa (exponent + 1 : ℕ)) (hfull : 2 ^ 52 ≤ mantissa)
    (negative : Bool) :
    Binary64.ofRatio negative (mantissa * 2 ^ (exponent + 1)) 1 =
      .finite negative mantissa (exponent + 1 : ℕ) canonical := by
  have hfits : mantissa < 2 ^ 53 := canonical.1
  have hlog : (mantissa * 2 ^ (exponent + 1)).log2 = exponent + 53 := by
    have hlow := Nat.mul_le_mul_right (2 ^ (exponent + 1)) hfull
    have hhigh := Nat.mul_lt_mul_of_pos_right hfits (Nat.two_pow_pos (exponent + 1))
    rw [← pow_add, (by omega : 52 + (exponent + 1) = exponent + 53)] at hlow
    rw [← pow_add, (by omega : 53 + (exponent + 1) = exponent + 53 + 1)] at hhigh
    have h0 : mantissa * 2 ^ (exponent + 1) ≠ 0 :=
      (lt_of_lt_of_le (Nat.two_pow_pos (exponent + 53)) hlow).ne'
    exact (Nat.log2_eq_iff h0).mpr ⟨hlow, hhigh⟩
  rw [ofRatio_of_log2 hlog, roundQuotient_mul mantissa (Nat.two_pow_pos (exponent + 1)),
    if_pos hfits, Binary64.ofParts, dif_pos canonical]

/-! ### Plain digits -/

/-- The integer of such a double is one that the doubles have. -/
theorem isSome_toBinary64?_full {mantissa exponent : ℕ}
    (canonical : Binary64.Canonical mantissa (exponent + 1 : ℕ)) (hfull : 2 ^ 52 ≤ mantissa) :
    (Number.int (mantissa * 2 ^ (exponent + 1) : ℕ)).toBinary64?.isSome = true := by
  have hexact : Binary64.ofInt (mantissa * 2 ^ (exponent + 1) : ℕ) =
      .finite false mantissa (exponent + 1 : ℕ) canonical := by
    unfold Binary64.ofInt
    rw [Int.natAbs_natCast, decide_eq_false (not_lt.mpr (Int.natCast_nonneg _))]
    exact ofRatio_self canonical hfull false
  unfold Number.toBinary64?
  dsimp only
  rw [hexact]
  rfl

theorem signed_mul (negative : Bool) (m k : ℕ) :
    Binary64.signed negative (m * k) = Binary64.signed negative m * k := by
  cases negative <;> simp [Binary64.signed]

theorem ofBinary64_full (negative : Bool) {mantissa exponent : ℕ}
    (canonical : Binary64.Canonical mantissa (exponent + 1 : ℕ)) :
    Number.ofBinary64 (.finite negative mantissa (exponent + 1 : ℕ) canonical) =
      .int (Binary64.signed negative (mantissa * 2 ^ (exponent + 1))) := by
  have hwhole : (Number.float (.finite negative mantissa (exponent + 1 : ℕ) canonical)).whole? =
      some (Binary64.signed negative (mantissa * 2 ^ (exponent + 1))) := by
    refine whole?_of_dyadic? (k := 0) ?_
    unfold Binary64.dyadic?
    dsimp only
    rw [if_pos (Int.natCast_nonneg _), Int.toNat_natCast, signed_mul, pow_zero, mul_one]
    rfl
  unfold Number.ofBinary64
  rw [hwhole]

/-- **Plain digits from `2^53` on** are read as infinity, or as an integer from `2^53` on that the
doubles have. -/
theorem ofChars_large {digits : List Char} (h : Plain digits)
    (hlarge : 2 ^ 53 ≤ digitsValue digits) :
    Number.ofChars digits = .float (.infinite false) ∨
      ∃ n : ℕ, 2 ^ 53 ≤ n ∧ (Number.int n).toBinary64?.isSome = true ∧
        Number.ofChars digits = .int n := by
  have h0 : digitsValue digits ≠ 0 := (lt_of_lt_of_le (by decide) hlarge).ne'
  rw [ofChars_nearest h, ofDecimal_natural h0]
  rcases ofRatio_large hlarge false with hround | ⟨mantissa, exponent, canonical, hfull, hround⟩
  · rw [hround]
    exact .inl rfl
  · rw [hround]
    refine .inr ⟨mantissa * 2 ^ (exponent + 1), ?_, isSome_toBinary64?_full canonical hfull,
      ofBinary64_full false canonical⟩
    calc 2 ^ 53 = 2 ^ 52 * 2 ^ 1 := rfl
      _ ≤ mantissa * 2 ^ (exponent + 1) :=
        Nat.mul_le_mul hfull (Nat.pow_le_pow_right (by decide) (by omega))

end PipeScript.Proofs.Number.Rounding
