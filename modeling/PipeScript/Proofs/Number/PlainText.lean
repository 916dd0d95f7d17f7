import PipeScript.Path.Basic
import PipeScript.Proofs.Decimal.Nearness
import PipeScript.Proofs.Number.Exact

/-! # Numbers that read as plain digits

A text names a list item exactly when it is plain digits, with a line end behind them at most
(`plainDigits?_spec`).  A number whose text is such digits is the integer that they write, as long
as that is below `2^53` (`whole?_of_text`): a double that is not whole, or is too great to be
written with all its digits, has no such text, since its shortest decimal is too near to it. -/

namespace PipeScript.Proofs.Number.PlainText

open PipeScript.Text PipeScript.Path PipeScript.Decimal
open PipeScript.Proofs.Number.Digits PipeScript.Proofs.Number.Exact
open PipeScript.Proofs.Decimal.Nearness

/-! ### Plain digits -/

theorem plainDigits?_spec {cs digits : List Char} (h : plainDigits? cs = some digits) :
    Plain digits ∧ (cs = digits ∨ cs = digits ++ ['\n']) := by
  unfold plainDigits? at h
  generalize hbody : (if cs.getLast? = some '\n' then cs.dropLast else cs) = body at h
  have hcs : cs = body ∨ cs = body ++ ['\n'] := by
    split_ifs at hbody with hlast
    · right
      rw [← hbody]
      exact (List.dropLast_append_getLast? _ hlast).symm
    · exact .inl hbody
  dsimp only at h
  split_ifs at h with hempty hzero
  cases h
  simp only [Bool.or_eq_true, List.isEmpty_iff, Bool.not_eq_true', not_or,
    Bool.not_eq_false] at hempty
  refine ⟨⟨hempty.1, List.all_eq_true.mp hempty.2, fun hhead => ?_⟩, hcs⟩
  by_contra hlength
  exact hzero (by simpa [hhead] using hlength)

/-- A text with any other character in it is no plain digits. -/
theorem plainDigits?_of_mem {cs : List Char} {c : Char} (hc : c ∈ cs)
    (hdigit : isAsciiDigit c = false) (hline : c ≠ '\n') : plainDigits? cs = none := by
  cases h : plainDigits? cs with
  | none => rfl
  | some digits =>
    obtain ⟨hplain, hcs⟩ := plainDigits?_spec h
    have hmem : c ∈ digits := by
      rcases hcs with rfl | rfl
      · exact hc
      · rw [List.mem_append, List.mem_singleton] at hc
        exact hc.resolve_right hline
    rw [hplain.all c hmem] at hdigit
    cases hdigit

/-- Digits are taken as they are. -/
theorem eq_of_plainDigits? {cs digits : List Char} (h : plainDigits? cs = some digits)
    (hall : ∀ c ∈ cs, isAsciiDigit c = true) : cs = digits := by
  obtain ⟨-, hcs | hcs⟩ := plainDigits?_spec h
  · exact hcs
  · have hline := hall '\n' (by rw [hcs]; simp)
    exact absurd hline (by decide)

/-! ### Integers -/

theorem whole?_of_intChars {i : ℤ} {digits : List Char}
    (h : plainDigits? (Number.intChars i) = some digits) : i = digitsValue digits := by
  unfold Number.intChars at h
  split_ifs at h with hneg
  · rw [plainDigits?_of_mem (List.mem_cons_self ..) (by decide) (by decide)] at h
    cases h
  · have heq := eq_of_plainDigits? h fun c hc => isAsciiDigit_of_mem_digitChars hc
    rw [← heq, digitsValue_digitChars]
    omega

/-! ### Doubles -/

/-- A decimal whose spelling is plain digits denotes the integer that they write. -/
theorem amount_of_plain {d : Decimal} {digits : List Char}
    (h : plainDigits? (NumberLayout.host.digits d) = some digits) :
    amount d = digitsValue digits := by
  unfold NumberLayout.digits at h
  split_ifs at h with hrange
  · unfold Decimal.positional at h
    dsimp only at h
    split_ifs at h with hwhole hplaces
    · obtain ⟨k, hk⟩ := Int.eq_ofNat_of_zero_le hwhole
      have htail : NumberLayout.host.wholeTail.toList = [] := rfl
      rw [htail, List.append_nil, hk, Int.toNat_natCast] at h
      have heq := eq_of_plainDigits? h fun c hc => by
        rcases List.mem_append.mp hc with hc | hc
        · exact isAsciiDigit_of_mem_digitChars hc
        · rw [(List.mem_replicate.mp hc).2]
          decide
      rw [← heq, digitsValue_append, digitsValue_digitChars, digitsValue_zeros,
        List.length_replicate, amount, hk]
      push_cast
      rw [zpow_natCast, add_zero]
    · rw [plainDigits?_of_mem (c := '.') (by simp) (by decide) (by decide)] at h
      cases h
    · rw [plainDigits?_of_mem (c := '.') (by simp) (by decide) (by decide)] at h
      cases h
  · unfold Decimal.scientific at h
    dsimp only at h
    rw [plainDigits?_of_mem (c := 'e') (by simp) (by decide) (by decide)] at h
    cases h

section Doubles

variable {mantissa : ℕ} {exponent : ℤ} (canonical : Binary64.Canonical mantissa exponent)

/-- A double between the integers is one when its shortest decimal is one. -/
theorem whole?_of_amount (h0 : 0 < mantissa) (he : exponent < 0) {i : ℕ}
    (hi : amount (shortest mantissa exponent) = i) :
    (Number.float (.finite false mantissa exponent canonical)).whole? = some (i : ℤ) := by
  obtain ⟨k, rfl⟩ : ∃ k : ℕ, exponent = -k := ⟨(-exponent).toNat, by omega⟩
  have hnear := shortest_near canonical h0
  have hpos : (0 : ℚ) < 2 ^ k := by positivity
  rw [hi, magnitude, zpow_neg, zpow_natCast] at hnear
  have hscaled : |(i : ℚ) * 2 ^ k - mantissa| < 1 := by
    have hform : (i : ℚ) * 2 ^ k - mantissa = (i - mantissa * (2 ^ k)⁻¹) * 2 ^ k := by
      field_simp
    rw [hform, abs_mul, abs_of_pos hpos]
    calc |(i : ℚ) - mantissa * (2 ^ k)⁻¹| * 2 ^ k < (2 ^ k)⁻¹ * 2 ^ k := by gcongr
      _ = 1 := inv_mul_cancel₀ hpos.ne'
  have hint : |(i : ℤ) * 2 ^ k - mantissa| < 1 := by exact_mod_cast hscaled
  have hm : (mantissa : ℤ) = i * 2 ^ k := by
    rw [Int.abs_lt_one_iff] at hint
    omega
  have hd : (Binary64.finite false mantissa (-(k : ℤ)) canonical).dyadic? =
      some ⟨i * 2 ^ k, k⟩ := by
    unfold Binary64.dyadic?
    dsimp only
    rw [if_neg (not_le.mpr he), ← hm, neg_neg, Int.toNat_natCast]
    rfl
  exact whole?_of_dyadic? hd

include canonical in
/-- A double without a fraction whose shortest decimal is small is small itself. -/
theorem magnitude_lt_of_amount (h0 : 0 < mantissa) (he : 0 ≤ exponent) {i : ℕ}
    (hi : amount (shortest mantissa exponent) = i) (hlt : i < 2 ^ 53) :
    mantissa * 2 ^ exponent.toNat < 10 ^ 21 := by
  obtain ⟨k, rfl⟩ := Int.eq_ofNat_of_zero_le he
  have hnear := shortest_near canonical h0
  rw [hi, magnitude, zpow_natCast] at hnear
  have hfull : 2 ^ 52 ≤ mantissa := by
    rcases canonical.2.2.2 with hfull | hleast
    · exact hfull
    · omega
  have hint : |(i : ℤ) - mantissa * 2 ^ k| < 2 ^ k := by exact_mod_cast hnear
  have hbelow : mantissa * 2 ^ k < i + 2 ^ k := by
    have hneg := (abs_lt.mp hint).1
    zify
    linarith
  rw [Int.toNat_natCast]
  have hunit : 2 ^ 52 * 2 ^ k ≤ mantissa * 2 ^ k := Nat.mul_le_mul_right _ hfull
  generalize mantissa * 2 ^ k = value at hbelow hunit
  generalize 2 ^ k = unit at hbelow hunit
  omega

theorem truncate?_whole (he : 0 ≤ exponent) :
    (Binary64.finite false mantissa exponent canonical).isInteger = true ∧
      (Binary64.finite false mantissa exponent canonical).truncate? =
        some ((mantissa * 2 ^ exponent.toNat : ℕ) : ℤ) := by
  refine integer_of_dyadic? (k := 0) ?_
  unfold Binary64.dyadic?
  dsimp only
  rw [if_pos he]
  simp [Binary64.signed, twoTo]

theorem truncate?_nonneg {whole : ℤ}
    (h : (Binary64.finite false mantissa exponent canonical).truncate? = some whole) :
    0 ≤ whole := by
  unfold Binary64.truncate? Binary64.dyadic? at h
  dsimp only at h
  rw [Option.map_some, Option.some.injEq] at h
  rw [← h]
  split_ifs
  · exact Int.tdiv_nonneg (Int.mul_nonneg (Int.natCast_nonneg _) (Int.natCast_nonneg _))
      (Int.natCast_nonneg _)
  · exact Int.tdiv_nonneg (Int.natCast_nonneg _) (Int.natCast_nonneg _)

/-- A whole double that is written with all its digits. -/
theorem whole?_of_exact {whole : ℤ} {digits : List Char}
    (hwhole : (Binary64.finite false mantissa exponent canonical).isInteger = true)
    (htrunc : (Binary64.finite false mantissa exponent canonical).truncate? = some whole)
    (h : plainDigits? ("" ++ String.ofList (digitChars whole.natAbs)).toList = some digits) :
    (Number.float (.finite false mantissa exponent canonical)).whole? =
      some (digitsValue digits : ℤ) := by
  rw [String.empty_append, String.toList_ofList] at h
  have heq := eq_of_plainDigits? h fun c hc => isAsciiDigit_of_mem_digitChars hc
  have hnonneg := truncate?_nonneg canonical htrunc
  rw [Number.whole?, if_pos hwhole, htrunc, ← heq, digitsValue_digitChars,
    Int.natAbs_of_nonneg hnonneg]

/-- The host spelling of a positive double is plain digits of small value for whole doubles only. -/
theorem whole?_of_host (h0 : 0 < mantissa) {digits : List Char}
    (h : plainDigits? (NumberLayout.host.render (.finite false mantissa exponent canonical)).toList =
      some digits) (hlt : digitsValue digits < 2 ^ 53) :
    (Number.float (.finite false mantissa exponent canonical)).whole? =
      some (digitsValue digits : ℤ) := by
  have hdigits : ∀ d, plainDigits? ("" ++ String.ofList (NumberLayout.host.digits d)).toList =
      some digits → amount d = digitsValue digits := by
    intro d hd
    refine amount_of_plain ?_
    rwa [String.empty_append, String.toList_ofList] at hd
  unfold NumberLayout.render at h
  dsimp only at h
  rw [if_neg Bool.false_ne_true, if_neg h0.ne'] at h
  rcases lt_or_ge exponent 0 with he | he
  · split at h
    · next whole htrunc =>
      split_ifs at h with hsmall
      · simp only [Bool.and_eq_true] at hsmall
        exact whole?_of_exact canonical hsmall.1.2 htrunc h
      · exact whole?_of_amount canonical h0 he (hdigits _ h)
    · exact whole?_of_amount canonical h0 he (hdigits _ h)
  · obtain ⟨hwhole, htrunc⟩ := truncate?_whole canonical he
    rw [htrunc] at h
    dsimp only at h
    split_ifs at h with hsmall
    · exact whole?_of_exact canonical hwhole htrunc h
    · -- a double of this size has a greater decimal
      have hlow := magnitude_lt_of_amount canonical h0 he (hdigits _ h) hlt
      rw [hwhole, Int.natAbs_natCast] at hsmall
      exact absurd (by simpa [NumberLayout.host, tenTo] using hlow) hsmall

end Doubles

theorem plainDigits?_negative {mantissa : ℕ} {exponent : ℤ}
    (canonical : Binary64.Canonical mantissa exponent) (h0 : mantissa ≠ 0) :
    plainDigits? (NumberLayout.host.render (.finite true mantissa exponent canonical)).toList =
      none := by
  have hsign : ∀ s : String, plainDigits? ("-" ++ s).toList = none := fun s =>
    plainDigits?_of_mem (c := '-') (by simp) (by decide) (by decide)
  unfold NumberLayout.render
  dsimp only
  rw [if_pos rfl, if_neg h0]
  split
  · split_ifs
    · exact hsign _
    · exact hsign _
  · exact hsign _

theorem plainDigits?_special : plainDigits? (NumberLayout.host.render .nan).toList = none ∧
    ∀ negative, plainDigits? (NumberLayout.host.render (.infinite negative)).toList = none := by
  decide

/-- **A number that reads as plain digits** is the integer that they write. -/
theorem whole?_of_text {n : Number} {digits : List Char}
    (h : plainDigits? n.text.toList = some digits) (hlt : digitsValue digits < 2 ^ 53) :
    n.whole? = some (digitsValue digits : ℤ) := by
  unfold Number.text at h
  cases n with
  | int i =>
    rw [Number.render, String.toList_ofList] at h
    rw [Number.whole?, whole?_of_intChars h]
  | float x =>
    rw [Number.render] at h
    rcases x with _ | negative | ⟨negative, mantissa, exponent, canonical⟩
    · rw [plainDigits?_special.1] at h
      cases h
    · rw [plainDigits?_special.2] at h
      cases h
    · by_cases h0 : mantissa = 0
      · subst h0
        have hzero : NumberLayout.host.render (.finite negative 0 exponent canonical) = "0" := by
          unfold NumberLayout.render
          dsimp only
          rw [if_pos rfl]
          rfl
        rw [hzero] at h
        obtain rfl : ['0'] = digits := Option.some.inj h
        exact whole?_mantissa_zero negative canonical
      · cases negative with
        | true =>
          rw [plainDigits?_negative canonical h0] at h
          cases h
        | false => exact whole?_of_host canonical (Nat.pos_of_ne_zero h0) h hlt

/-- The plain digits of a double that counts as a small natural number write that number. -/
theorem digitsValue_of_whole? {x : Binary64} {i : ℕ}
    (h : (Number.float x).whole? = some (i : ℤ)) (hi : i < 10 ^ 21) {digits : List Char}
    (hdigits : plainDigits? (Number.float x).text.toList = some digits) : digitsValue digits = i := by
  rw [Number.text, Number.render] at hdigits
  rcases x with _ | negative | ⟨negative, mantissa, exponent, canonical⟩
  · cases h
  · cases h
  · by_cases h0 : mantissa = 0
    · subst h0
      have hzero : NumberLayout.host.render (.finite negative 0 exponent canonical) = "0" := by
        unfold NumberLayout.render
        dsimp only
        rw [if_pos rfl]
        rfl
      rw [hzero] at hdigits
      obtain rfl : ['0'] = digits := Option.some.inj hdigits
      rw [whole?_mantissa_zero] at h
      exact Int.ofNat.inj (Option.some.inj h)
    · cases negative with
      | true =>
        rw [plainDigits?_negative canonical h0] at hdigits
        cases hdigits
      | false =>
        obtain ⟨hwhole, htrunc⟩ : (Binary64.finite false mantissa exponent canonical).isInteger =
            true ∧ (Binary64.finite false mantissa exponent canonical).truncate? = some (i : ℤ) := by
          rw [Number.whole?] at h
          split_ifs at h with hwhole
          exact ⟨hwhole, h⟩
        unfold NumberLayout.render at hdigits
        dsimp only at hdigits
        rw [if_neg Bool.false_ne_true, if_neg h0, htrunc] at hdigits
        dsimp only at hdigits
        rw [if_pos (by simpa [NumberLayout.host, hwhole, tenTo] using hi)] at hdigits
        have hvalue := whole?_of_exact canonical hwhole htrunc hdigits
        exact Int.ofNat.inj (Option.some.inj (hvalue.symm.trans h))

end PipeScript.Proofs.Number.PlainText
