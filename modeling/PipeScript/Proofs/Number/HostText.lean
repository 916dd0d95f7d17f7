import PipeScript.Proofs.Decimal.Whole
import PipeScript.Proofs.Number.Denotation

/-! # What the text of a double on the pipe denotes

The literal layout writes the shortest decimal of a double, and so does the host layout, except that
a whole number below `10^21` is written with all its digits (`render_whole`, `render_shortest`).  So
the two texts of a finite double are read back as that double, but they denote the same number only
where the shortest decimal is exact or the digits are not written out (`texts_denote`); from `2^54`
on it need not be (`texts_differ`).  The host text has an exponent exactly for numbers below `10^-6`
and from `10^21` on. -/

namespace PipeScript.Proofs.Number.HostText

open PipeScript.Text PipeScript.Decimal
open PipeScript.Proofs.Number.Digits PipeScript.Proofs.Number.Exact
open PipeScript.Proofs.Number.Denotation
open PipeScript.Proofs.Decimal.Nearness PipeScript.Proofs.Decimal.Reading
open PipeScript.Proofs.Decimal.Order PipeScript.Proofs.Decimal.Whole
open PipeScript.Proofs.Json.Scalars PipeScript.Proofs.Json.Numerals

/-! ### The number that a double is -/

/-- The number that a finite double is. -/
def worth : Binary64 → ℚ
  | .finite negative mantissa exponent _ => signOf negative * magnitude mantissa exponent
  | _ => 0

theorem abs_signOf_mul (negative : Bool) {x : ℚ} (hx : 0 ≤ x) : |signOf negative * x| = x := by
  cases negative <;> simp [signOf, abs_of_nonneg hx]

theorem signed_eq (negative : Bool) (mantissa : ℕ) :
    (Binary64.signed negative mantissa : ℚ) = signOf negative * mantissa := by
  cases negative <;> simp [Binary64.signed, signOf]

theorem magnitude_nonneg (mantissa : ℕ) (exponent : ℤ) : 0 ≤ magnitude mantissa exponent := by
  unfold magnitude
  positivity

theorem worth_of_dyadic? {x : Binary64} {d : Dyadic} (h : x.dyadic? = some d) :
    worth x = d.numerator / 2 ^ d.shift := by
  rcases x with _ | negative | ⟨negative, mantissa, exponent, canonical⟩
  · cases h
  · cases h
  · unfold Binary64.dyadic? at h
    dsimp only at h
    unfold worth magnitude
    dsimp only
    rw [← mul_assoc, ← signed_eq]
    split_ifs at h with hexp
    · obtain ⟨k, rfl⟩ := Int.eq_ofNat_of_zero_le hexp
      cases h
      simp [twoTo]
    · obtain ⟨k, rfl⟩ : ∃ k : ℕ, exponent = -k := ⟨(-exponent).toNat, by omega⟩
      cases h
      simp [zpow_neg, div_eq_mul_inv]

/-- **A finite double is a whole number** if it has its value. -/
theorem whole?_iff_worth {x : Binary64} (hx : x.isFinite = true) (n : ℤ) :
    (Number.float x).whole? = some n ↔ worth x = n := by
  obtain ⟨d, hd⟩ : ∃ d, x.dyadic? = some d := by
    rcases x with _ | negative | ⟨negative, mantissa, exponent, canonical⟩
    · cases hx
    · cases hx
    · exact ⟨_, rfl⟩
  have hunit : (0 : ℚ) < 2 ^ d.shift := by positivity
  rw [whole?_float_iff, worth_of_dyadic? hd, div_eq_iff hunit.ne']
  constructor
  · rintro ⟨d', hd', hnumerator⟩
    obtain rfl : d = d' := Option.some.inj (hd.symm.trans hd')
    rw [hnumerator]
    push_cast
    rfl
  · intro hnumerator
    exact ⟨d, hd, by exact_mod_cast hnumerator⟩

/-- A whole number below `10^21`, which the host layout writes with all its digits. -/
def WrittenOut (x : Binary64) : Prop := ∃ n : ℤ, worth x = n ∧ |n| < 10 ^ 21

/-! ### The two ways of writing -/

section Render

variable {negative : Bool} {mantissa : ℕ} {exponent : ℤ}
  {canonical : Binary64.Canonical mantissa exponent}

theorem abs_worth : |worth (.finite negative mantissa exponent canonical)| =
    magnitude mantissa exponent :=
  abs_signOf_mul negative (magnitude_nonneg mantissa exponent)

variable (h0 : mantissa ≠ 0) (layout : NumberLayout)
include h0

/-- **A whole number below `10^21`** has all its digits written where the layout does so. -/
theorem render_whole (hexact : layout.exactWhole = true) {n : ℤ}
    (hn : worth (.finite negative mantissa exponent canonical) = n) (hlt : |n| < 10 ^ 21) :
    (layout.render (.finite negative mantissa exponent canonical)).toList =
      minus negative ++ digitChars n.natAbs := by
  have hwhole := (whole?_iff_worth rfl n).mpr hn
  unfold Number.whole? at hwhole
  dsimp only at hwhole
  split_ifs at hwhole with hinteger
  have hsmall : n.natAbs < tenTo 21 := by
    rw [← Int.natCast_natAbs] at hlt
    exact_mod_cast hlt
  rw [render_eq h0, hwhole]
  dsimp only
  rw [hexact, hinteger, decide_eq_true hsmall]
  rfl

/-- **Every other number** is written by its shortest decimal. -/
theorem render_shortest (hother : layout.exactWhole = true →
      ¬ WrittenOut (.finite negative mantissa exponent canonical)) :
    (layout.render (.finite negative mantissa exponent canonical)).toList =
      minus negative ++ layout.digits (shortest mantissa exponent) := by
  rw [render_eq h0]
  cases hcut : (Binary64.finite negative mantissa exponent canonical).truncate? with
  | none => rfl
  | some n =>
    dsimp only
    rw [if_neg]
    intro hexact
    rw [Bool.and_eq_true, Bool.and_eq_true, decide_eq_true_eq] at hexact
    have hwhole :
        (Number.float (.finite negative mantissa exponent canonical)).whole? = some n := by
      rw [Number.whole?, if_pos hexact.1.2, hcut]
    have hlt : |n| < 10 ^ 21 := by
      rw [← Int.natCast_natAbs]
      exact_mod_cast hexact.2
    exact hother hexact.1.1 ⟨n, (whole?_iff_worth rfl n).mp hwhole, hlt⟩

end Render

/-! ### The digits of the shortest decimal -/

section Digits

variable {d : Decimal} (hd : d.coefficient ≠ 0) (layout : NumberLayout) {places : ℕ}
  (htail : layout.wholeTail.toList = pointed (List.replicate places '0'))
include hd htail

theorem digits_denotes : Denotes (layout.digits d) (amount d) := by
  unfold NumberLayout.digits
  rw [htail]
  split_ifs
  · exact positional_denotes hd places
  · exact scientific_denotes hd layout.exponentDigits

theorem mark_mem_digits_iff : 'e' ∈ layout.digits d ↔
    ¬ (layout.positionalFrom ≤ d.leadingExponent ∧ d.leadingExponent < layout.positionalBelow) := by
  unfold NumberLayout.digits
  rw [htail]
  split_ifs with hrange
  · exact iff_of_false (mark_notMem_positional hd places) (not_not_intro hrange)
  · exact iff_of_true (mark_mem_scientific layout.exponentDigits) hrange

end Digits

theorem host_wholeTail : NumberLayout.host.wholeTail.toList = pointed (List.replicate 0 '0') := rfl

theorem literal_wholeTail :
    NumberLayout.literal.wholeTail.toList = pointed (List.replicate 1 '0') := rfl

/-- The double nearest to `10^-6`. -/
theorem worth_millionth : worth (.ofDecimal false 1 (-6)) = magnitude 4722366482869645 (-72) := by
  have hmillionth : Binary64.ofDecimal false 1 (-6) =
      .finite false 4722366482869645 (-72) (by decide) := by
    decide +kernel
  rw [hmillionth, worth, signOf, if_neg Bool.false_ne_true, one_mul]

/-- **The host layout's range of positional notation**: from the double nearest to `10^-6` up to
`10^21`. -/
theorem positional_range_iff {mantissa : ℕ} {exponent : ℤ}
    (hc : Binary64.Canonical mantissa exponent) (h0 : 0 < mantissa) :
    (NumberLayout.host.positionalFrom ≤ (shortest mantissa exponent).leadingExponent ∧
        (shortest mantissa exponent).leadingExponent < NumberLayout.host.positionalBelow) ↔
      worth (.ofDecimal false 1 (-6)) ≤ magnitude mantissa exponent ∧
        magnitude mantissa exponent < 10 ^ 21 := by
  have hlow : Binary64.Canonical 4722366482869645 (-72) := by decide
  have hhigh : Binary64.Canonical 7629394531250000 17 := by decide
  have hmillionth : shortest 4722366482869645 (-72) = ⟨1, -6⟩ := by decide +kernel
  have hsextillion : shortest 7629394531250000 17 = ⟨1, 21⟩ := by decide +kernel
  have hfrom := leadingExponent_shortest_iff hlow hc (by decide) h0 hmillionth
  have hbelow := leadingExponent_shortest_iff hhigh hc (by decide) h0 hsextillion
  have htop : magnitude 7629394531250000 17 = 10 ^ 21 := by
    rw [magnitude]
    norm_num
  rw [worth_millionth, ← htop, ← hfrom, ← not_le (a := magnitude 7629394531250000 17), ← hbelow,
    not_le]
  exact Iff.rfl

/-! ### The two texts -/

theorem roundsTo_self (mantissa : ℕ) (exponent : ℤ) :
    RoundsTo mantissa exponent (magnitude mantissa exponent) := by
  refine roundsTo_of_near ?_
  rw [sub_self, abs_zero]
  positivity

section Texts

variable (negative : Bool) {mantissa : ℕ} {exponent : ℤ}
  (canonical : Binary64.Canonical mantissa exponent) (h0 : 0 < mantissa)
include h0

omit h0 in
theorem natAbs_of_worth {negative : Bool} {n : ℤ}
    (hn : worth (.finite negative mantissa exponent canonical) = n) :
    (n.natAbs : ℚ) = magnitude mantissa exponent := by
  have habs : |worth (.finite negative mantissa exponent canonical)| =
      magnitude mantissa exponent :=
    abs_worth
  rw [← habs, hn, Nat.cast_natAbs, Int.cast_abs]

/-- The host text of a whole number below `10^21` is that number, and has no exponent. -/
theorem host_text_of_writtenOut (h : WrittenOut (.finite negative mantissa exponent canonical)) :
    ∃ body, Denotes body (magnitude mantissa exponent) ∧
      (NumberLayout.host.render (.finite negative mantissa exponent canonical)).toList =
        minus negative ++ body ∧
      'e' ∉ body ∧ worth (.ofDecimal false 1 (-6)) ≤ magnitude mantissa exponent ∧
        magnitude mantissa exponent < 10 ^ 21 := by
  obtain ⟨n, hn, hlt⟩ := h
  have hnatural := natAbs_of_worth canonical hn
  have hmagnitude : (0 : ℚ) < magnitude mantissa exponent := by
    unfold magnitude
    positivity
  have hone : 1 ≤ n.natAbs := by
    rw [← hnatural] at hmagnitude
    exact_mod_cast hmagnitude
  have htop : n.natAbs < 10 ^ 21 := by
    rw [← Int.natCast_natAbs] at hlt
    exact_mod_cast hlt
  refine ⟨digitChars n.natAbs, ?_, render_whole h0.ne' NumberLayout.host rfl hn hlt, ?_, ?_, ?_⟩
  · rw [← hnatural]
    exact denotes_digitChars n.natAbs
  · intro hmem
    exact absurd (isAsciiDigit_of_mem_digitChars hmem) (by decide)
  · have hsmall : magnitude 4722366482869645 (-72) ≤ 1 := by
      rw [magnitude]
      norm_num
    rw [worth_millionth, ← hnatural]
    exact hsmall.trans (by exact_mod_cast hone)
  · rw [← hnatural]
    exact_mod_cast htop

/-- The host text of any other number is its shortest decimal. -/
theorem host_text_of_not_writtenOut
    (h : ¬ WrittenOut (.finite negative mantissa exponent canonical)) :
    ∃ body, Denotes body (amount (shortest mantissa exponent)) ∧
      (NumberLayout.host.render (.finite negative mantissa exponent canonical)).toList =
        minus negative ++ body ∧
      ('e' ∈ body ↔ ¬ (worth (.ofDecimal false 1 (-6)) ≤ magnitude mantissa exponent ∧
        magnitude mantissa exponent < 10 ^ 21)) := by
  have hd := coefficient_shortest_ne_zero canonical h0
  refine ⟨_, digits_denotes hd NumberLayout.host host_wholeTail,
    render_shortest h0.ne' NumberLayout.host fun _ => h, ?_⟩
  rw [mark_mem_digits_iff hd NumberLayout.host host_wholeTail, positional_range_iff canonical h0]

/-- **The host text**: what it denotes rounds to the double, and it has an exponent for small and
for great numbers. -/
theorem host_text : ∃ body x, Denotes body x ∧ RoundsTo mantissa exponent x ∧
    (NumberLayout.host.render (.finite negative mantissa exponent canonical)).toList =
      minus negative ++ body ∧
    (WrittenOut (.finite negative mantissa exponent canonical) → x = magnitude mantissa exponent) ∧
    (¬ WrittenOut (.finite negative mantissa exponent canonical) →
      x = amount (shortest mantissa exponent)) ∧
    ('e' ∈ body ↔ magnitude mantissa exponent < worth (.ofDecimal false 1 (-6)) ∨
      10 ^ 21 ≤ magnitude mantissa exponent) := by
  by_cases h : WrittenOut (.finite negative mantissa exponent canonical)
  · obtain ⟨body, hbody, htext, hmark, hlow, hhigh⟩ :=
      host_text_of_writtenOut negative canonical h0 h
    refine ⟨body, _, hbody, roundsTo_self mantissa exponent, htext, fun _ => rfl,
      fun hn => absurd h hn, iff_of_false hmark ?_⟩
    rintro (hless | hlarge)
    · exact absurd hlow (not_le.mpr hless)
    · exact absurd hhigh (not_lt.mpr hlarge)
  · obtain ⟨body, hbody, htext, hmark⟩ := host_text_of_not_writtenOut negative canonical h0 h
    refine ⟨body, _, hbody, roundsTo_shortest canonical h0, htext, fun hw => absurd hw h,
      fun _ => rfl, ?_⟩
    rw [hmark, not_and_or, not_le, not_lt]

/-- The literal text is the shortest decimal. -/
theorem literal_text : ∃ body, Denotes body (amount (shortest mantissa exponent)) ∧
    (NumberLayout.literal.render (.finite negative mantissa exponent canonical)).toList =
      minus negative ++ body :=
  ⟨_, digits_denotes (coefficient_shortest_ne_zero canonical h0) NumberLayout.literal
    literal_wholeTail, render_shortest h0.ne' NumberLayout.literal fun hexact => nomatch hexact⟩

end Texts

/-- Zero is written as a whole number, on the pipe without its sign. -/
theorem texts_of_zero (negative : Bool) {exponent : ℤ} (canonical : Binary64.Canonical 0 exponent) :
    denoted? (NumberLayout.host.render (.finite negative 0 exponent canonical)) = some 0 ∧
      denoted? (NumberLayout.literal.render (.finite negative 0 exponent canonical)) = some 0 := by
  have hzero : Denotes ['0', '.', '0'] 0 := by
    have hplain := plain_digitChars 0
    have hparts : ['0', '.', '0'] = digitChars 0 ++ (pointed (List.replicate 1 '0') ++ []) := rfl
    rw [hparts]
    refine denotes_parts (k := 0) hplain.ne_nil hplain.all isAsciiDigit_zeros rfl (by simp) ?_
    have hvalue : digitsValue (digitChars 0 ++ List.replicate 1 '0') = 0 := by decide
    rw [hvalue, amount, Nat.cast_zero, zero_mul]
  constructor
  · have htext : NumberLayout.host.render (.finite negative 0 exponent canonical) = "0" := rfl
    have hsplit : "0".toList = minus false ++ digitChars 0 := by decide
    rw [htext, denoted?_of_denotes (denotes_digitChars 0) hsplit, Nat.cast_zero, mul_zero]
  · have htext : NumberLayout.literal.render (.finite negative 0 exponent canonical) =
      (if negative then "-" else "") ++ "0" ++ ".0" := rfl
    have hsplit : ((if negative then "-" else "") ++ "0" ++ ".0").toList =
        minus negative ++ ['0', '.', '0'] := by
      cases negative <;> decide
    rw [htext, denoted?_of_denotes hzero hsplit, mul_zero]

/-- **What the host text of a finite double denotes.**  It is the number itself if that is whole and
below `10^21`, and what the literal text denotes otherwise; so both texts denote the same number
up to `2^54`, from `10^21` on and wherever there is a fraction.  Both are read as the double.  The
host text has an exponent if the number lies below the double nearest to `10^-6`, or from `10^21`
on. -/
theorem texts_denote {x : Binary64} (hx : x.isFinite = true) :
    ∃ host literal : ℚ, denoted? (NumberLayout.host.render x) = some host ∧
      denoted? (NumberLayout.literal.render x) = some literal ∧
      (WrittenOut x → host = worth x) ∧ (¬ WrittenOut x → host = literal) ∧
      (|worth x| ≤ 2 ^ 54 → host = literal) ∧
      ('e' ∈ (NumberLayout.host.render x).toList ↔
        worth x ≠ 0 ∧ (|worth x| < worth (.ofDecimal false 1 (-6)) ∨ 10 ^ 21 ≤ |worth x|)) ∧
      (worth x ≠ 0 → ∀ text ∈ [NumberLayout.host.render x, NumberLayout.literal.render x],
        (Numeral.read? text.toList).map (·.toBinary64) = some x) := by
  rcases x with _ | negative | ⟨negative, mantissa, exponent, canonical⟩
  · cases hx
  · cases hx
  rcases Nat.eq_zero_or_pos mantissa with rfl | h0
  · have hworth : worth (.finite negative 0 exponent canonical) = 0 := by
      simp [worth, magnitude]
    obtain ⟨hhost, hliteral⟩ := texts_of_zero negative canonical
    rw [hworth]
    refine ⟨0, 0, hhost, hliteral, fun _ => rfl, fun _ => rfl, fun _ => rfl, ?_,
      fun hne => absurd rfl hne⟩
    have htext : NumberLayout.host.render (.finite negative 0 exponent canonical) = "0" := rfl
    rw [htext]
    exact iff_of_false (by decide) fun hne => hne.1 rfl
  · obtain ⟨body, y, hbody, hrounds, htext, hwritten, hother, hmark⟩ :=
      host_text negative canonical h0
    obtain ⟨literalBody, hliteral, hliteralText⟩ := literal_text negative canonical h0
    have hworth : worth (.finite negative mantissa exponent canonical) =
      signOf negative * magnitude mantissa exponent := rfl
    have hpos : 0 < magnitude mantissa exponent := by
      unfold magnitude
      positivity
    have hne : worth (.finite negative mantissa exponent canonical) ≠ 0 := by
      rw [← abs_pos, abs_worth]
      exact hpos
    refine ⟨_, _, denoted?_of_denotes hbody htext, denoted?_of_denotes hliteral hliteralText,
      fun h => ?_, fun h => ?_, fun hle => ?_, ?_, fun _ => ?_⟩
    · rw [hwritten h, hworth]
    · rw [hother h]
    · by_cases h : WrittenOut (.finite negative mantissa exponent canonical)
      · obtain ⟨n, hn, -⟩ := id h
        have hnatural := natAbs_of_worth canonical hn
        have hsmall : n.natAbs ≤ 2 ^ 54 := by
          rw [abs_worth, ← hnatural] at hle
          exact_mod_cast hle
        rw [hwritten h, ← hnatural, amount_shortest_whole canonical h0 hnatural.symm hsmall]
      · rw [hother h]
    · have hsign : 'e' ∉ minus negative := by cases negative <;> decide
      rw [htext, List.mem_append, abs_worth, ← hmark]
      exact ⟨fun hmem => ⟨hne, hmem.resolve_left hsign⟩, fun hmem => .inr hmem.2⟩
    · intro text hmem
      rcases List.mem_pair.mp hmem with rfl | rfl
      · rw [htext]
        exact toBinary64_of_denotes canonical h0 hbody hrounds
      · rw [hliteralText]
        exact toBinary64_of_denotes canonical h0 hliteral (roundsTo_shortest canonical h0)

/-- A double beyond `2^54` with a multiple of ten at the end of its interval. -/
def uneven : Binary64 := .ofInt (2 ^ 54 + 8)

theorem texts_denote_uneven : uneven.isFinite = true ∧ WrittenOut uneven ∧
    denoted? (NumberLayout.host.render uneven) = some 18014398509481992 ∧
    'e' ∉ (NumberLayout.host.render uneven).toList := by
  have hfinite : uneven.isFinite = true := by decide +kernel
  have hworth : worth uneven = 18014398509481992 := by decide +kernel
  have hmillionth : worth (.ofDecimal false 1 (-6)) ≤ 1 := by decide +kernel
  have hwritten : WrittenOut uneven := ⟨18014398509481992, hworth, by decide⟩
  obtain ⟨host, literal, hhost, -, hexact, -, -, hmark, -⟩ := texts_denote hfinite
  rw [hexact hwritten, hworth] at hhost
  refine ⟨hfinite, hwritten, hhost, fun hmem => ?_⟩
  obtain ⟨-, hless | hlarge⟩ := hmark.mp hmem
  · rw [hworth] at hless
    have habs : (1 : ℚ) ≤ |18014398509481992| := by norm_num
    linarith
  · rw [hworth] at hlarge
    exact absurd hlarge (by norm_num)

/-- **The two texts of a double can denote different numbers.** -/
theorem texts_differ : NumberLayout.host.render uneven = "18014398509481992" ∧
    NumberLayout.literal.render uneven = "1.801439850948199e+16" ∧
    denoted? "18014398509481992" = some 18014398509481992 ∧
    denoted? "1.801439850948199e+16" = some 18014398509481990 := by
  refine ⟨by decide +kernel, by decide +kernel, by decide +kernel, by decide +kernel⟩

end PipeScript.Proofs.Number.HostText
