import PipeScript.Proofs.Json.Numerals

/-! # The numbers that texts denote

A numeral denotes a rational number, and is read as the double nearest to it.  Both notations of a
decimal are numerals that denote it: digits with zeros or a point among them (`positional_denotes`),
and digits with an exponent (`scientific_denotes`).  They are told apart by the mark of the exponent
(`mark_notMem_positional`, `mark_mem_scientific`). -/

namespace PipeScript.Proofs.Number.Denotation

open PipeScript.Text PipeScript.Decimal
open PipeScript.Proofs.Number.Digits PipeScript.Proofs.Number.Exact
open PipeScript.Proofs.Decimal.Nearness PipeScript.Proofs.Decimal.Reading
open PipeScript.Proofs.Json.Scalars PipeScript.Proofs.Json.Numerals

/-- A sign in front of a number. -/
def signOf (negative : Bool) : ℚ :=
  if negative then -1 else 1

/-- The number behind the sign of a numeral. -/
def numeralAmount (n : Numeral) : ℚ :=
  amount ⟨digitsValue (n.whole ++ n.fraction), n.exponent - n.fraction.length⟩

/-- The number that a text in decimal notation denotes. -/
def denoted? (text : String) : Option ℚ :=
  (Numeral.read? text.toList).map fun n => signOf n.negative * numeralAmount n

/-- Characters in decimal notation without a sign denote a number, whatever sign stands in front. -/
def Denotes (body : List Char) (x : ℚ) : Prop :=
  ∀ negative, ∃ n, Numeral.read? (minus negative ++ body) = some n ∧ n.negative = negative ∧
    numeralAmount n = x

theorem denoted?_of_denotes {text : String} {body : List Char} {negative : Bool} {x : ℚ}
    (h : Denotes body x) (htext : text.toList = minus negative ++ body) :
    denoted? text = some (signOf negative * x) := by
  obtain ⟨n, hn, rfl, rfl⟩ := h negative
  rw [denoted?, htext, hn]
  rfl

/-- **A numeral is read as the double** to which its number rounds. -/
theorem toBinary64_of_denotes {body : List Char} {negative : Bool} {x : ℚ} {mantissa : ℕ}
    {exponent : ℤ} (hc : Binary64.Canonical mantissa exponent) (h0 : 0 < mantissa)
    (h : Denotes body x) (hrounds : RoundsTo mantissa exponent x) :
    (Numeral.read? (minus negative ++ body)).map (·.toBinary64) =
      some (.finite negative mantissa exponent hc) := by
  obtain ⟨n, hn, hsign, rfl⟩ := h negative
  have hdigits : digitsValue (n.whole ++ n.fraction) ≠ 0 := by
    intro hzero
    have hlow := (bounds_of_roundsTo hc h0 hrounds).1
    have hpos : (0 : ℚ) < 2 ^ (-1075 : ℤ) := by positivity
    rw [numeralAmount, amount, hzero, Nat.cast_zero, zero_mul] at hlow
    linarith
  rw [hn, Option.map_some, Numeral.toBinary64, hsign, ofDecimal_of_roundsTo hc h0 hdigits hrounds]

/-! ### Numerals -/

/-- The point and the digits behind it, if there are any. -/
def pointed (fraction : List Char) : List Char :=
  if fraction.isEmpty then [] else '.' :: fraction

theorem splitSign_minus {body : List Char}
    (hbody : ∃ c rest, body = c :: rest ∧ isAsciiDigit c = true) (negative : Bool) :
    splitSign (minus negative ++ body) = (negative, body) := by
  obtain ⟨c, rest, rfl, hc⟩ := hbody
  cases negative with
  | true => rfl
  | false =>
    have hnone : minus false ++ c :: rest = c :: rest := rfl
    rw [hnone]
    unfold splitSign
    split
    · next heq =>
      rw [(List.cons.inj heq).1] at hc
      exact absurd hc (by decide)
    · next heq =>
      rw [(List.cons.inj heq).1] at hc
      exact absurd hc (by decide)
    · rfl

section Numeral

variable {whole fraction power : List Char} {k : ℤ} (hwhole : whole ≠ [])
  (hdigits : ∀ c ∈ whole, isAsciiDigit c = true)
  (hfraction : ∀ c ∈ fraction, isAsciiDigit c = true)
  (hpower : Numeral.readExponent? power = some k)
  (hmark : ∀ c ∈ power.head?, isAsciiDigit c = false ∧ c ≠ '.')
include hwhole hdigits hfraction hpower hmark

/-- Digits, a point with digits behind it if there are any, and an exponent make up a numeral. -/
theorem read?_parts (negative : Bool) :
    Numeral.read? (minus negative ++ (whole ++ (pointed fraction ++ power))) =
      some ⟨negative, whole, fraction, k⟩ := by
  have hbody : ∃ c rest, whole ++ (pointed fraction ++ power) = c :: rest ∧
      isAsciiDigit c = true := by
    obtain ⟨c, rest, rfl⟩ := List.exists_cons_of_ne_nil hwhole
    exact ⟨c, rest ++ (pointed fraction ++ power), rfl, hdigits c (List.mem_cons_self ..)⟩
  have hempty : whole.isEmpty = false := List.isEmpty_eq_false_iff.mpr hwhole
  have hend : ∀ c ∈ power.head?, isAsciiDigit c = false := fun c hc => (hmark c hc).1
  unfold Numeral.read?
  rw [splitSign_minus hbody]
  dsimp only
  by_cases hnone : fraction = []
  · subst hnone
    obtain ⟨htake, hdrop⟩ := Prod.mk.inj (spanDigits_append hdigits hend)
    have hbehind : pointed [] ++ power = power := rfl
    rw [hbehind, htake, hdrop]
    split
    · next rest => exact absurd rfl (hmark '.' rfl).2
    · rw [hempty, hpower]
      rfl
  · have hpoint : ∀ c ∈ ('.' :: fraction ++ power).head?, isAsciiDigit c = false := by
      rintro c ⟨⟩
      decide
    obtain ⟨htake, hdrop⟩ := Prod.mk.inj (spanDigits_append hdigits hpoint)
    obtain ⟨htakeBehind, hdropBehind⟩ := Prod.mk.inj (spanDigits_append hfraction hend)
    rw [pointed, if_neg (by simpa using hnone), htake, hdrop, List.cons_append]
    split
    · next rest heq =>
      obtain ⟨-, rfl⟩ := List.cons.inj heq
      rw [htakeBehind, hdropBehind, hempty, hpower]
      rfl
    · next hother => exact absurd rfl (hother (fraction ++ power))

theorem denotes_parts {x : ℚ}
    (hx : amount ⟨digitsValue (whole ++ fraction), k - fraction.length⟩ = x) :
    Denotes (whole ++ (pointed fraction ++ power)) x := fun negative =>
  ⟨_, read?_parts hwhole hdigits hfraction hpower hmark negative, rfl, hx⟩

end Numeral

theorem denotes_digitChars (n : ℕ) : Denotes (digitChars n) n := by
  have hplain := plain_digitChars n
  have hparts : digitChars n = digitChars n ++ (pointed [] ++ []) := (List.append_nil _).symm
  rw [hparts]
  refine denotes_parts (k := 0) hplain.ne_nil hplain.all (by simp) rfl (by simp) ?_
  rw [List.append_nil, digitsValue_digitChars, amount]
  simp

/-! ### Decimals -/

theorem isAsciiDigit_zeros {k : ℕ} : ∀ c ∈ List.replicate k '0', isAsciiDigit c = true := by
  intro c hc
  rw [List.eq_of_mem_replicate hc]
  decide

section Decimal

variable {d : Decimal} (hd : d.coefficient ≠ 0)
include hd

/-- **Positional notation denotes the decimal**, also when a whole number ends in a point and
zeros. -/
theorem positional_denotes (places : ℕ) :
    Denotes (d.positional (pointed (List.replicate places '0'))) (amount d) := by
  rcases lt_or_ge d.exponent 0 with hexp | hexp
  · obtain ⟨whole, fraction, hwhole, hfraction, hne, hbody, hvalue, hlength⟩ :=
      positional_parts hd hexp (pointed (List.replicate places '0'))
    have hparts : whole ++ '.' :: fraction = whole ++ (pointed fraction ++ []) := by
      rw [pointed, if_neg (by simpa using hne), List.append_nil]
    rw [hbody, hparts]
    refine denotes_parts (k := 0) hwhole.ne_nil hwhole.all hfraction rfl (by simp) ?_
    rw [hvalue, zero_sub, hlength]
  · obtain ⟨k, hk⟩ := Int.eq_ofNat_of_zero_le hexp
    have hplain := plain_digitChars (d.coefficient * 10 ^ k)
    have hparts : d.positional (pointed (List.replicate places '0')) =
        digitChars (d.coefficient * 10 ^ k) ++ (pointed (List.replicate places '0') ++ []) := by
      unfold Decimal.positional
      dsimp only
      rw [if_pos hexp, hk, Int.toNat_natCast, digitChars_zeros hd, List.append_nil]
    rw [hparts]
    refine denotes_parts (k := 0) hplain.ne_nil hplain.all isAsciiDigit_zeros rfl (by simp) ?_
    rw [digitsValue_append, digitsValue_digitChars, digitsValue_zeros, List.length_replicate,
      add_zero, amount, amount, hk, zpow_natCast, zero_sub, zpow_neg, zpow_natCast]
    push_cast
    field_simp

/-- **Notation with an exponent denotes the decimal**, however many digits the exponent is given. -/
theorem scientific_denotes (minDigits : ℕ) : Denotes (d.scientific minDigits) (amount d) := by
  have hplain := plain_take hd Nat.one_ne_zero
  have hdigits := plain_digitChars d.leadingExponent.natAbs
  have hlength := List.length_pos_iff.mpr (plain_digitChars d.coefficient).ne_nil
  set powerDigits :=
    List.replicate (minDigits - (digitChars d.leadingExponent.natAbs).length) '0' ++
      digitChars d.leadingExponent.natAbs with hpowerDigits
  have hall : ∀ c ∈ powerDigits, isAsciiDigit c = true := by
    intro c hc
    rcases List.mem_append.mp hc with hc | hc
    · exact isAsciiDigit_zeros c hc
    · exact hdigits.all c hc
  have hvalue : digitsValue powerDigits = d.leadingExponent.natAbs := by
    rw [hpowerDigits, digitsValue_append, digitsValue_zeros, zero_mul, zero_add,
      digitsValue_digitChars]
  have hne : powerDigits.isEmpty = false := by
    rw [List.isEmpty_eq_false_iff, hpowerDigits]
    exact List.append_ne_nil_of_right_ne_nil _ hdigits.ne_nil
  have hpower : Numeral.readExponent?
      ('e' :: (if d.leadingExponent < 0 then '-' else '+') :: powerDigits) =
        some d.leadingExponent := by
    have hsign : splitSign ((if d.leadingExponent < 0 then '-' else '+') :: powerDigits) =
        (decide (d.leadingExponent < 0), powerDigits) := by
      split_ifs with hneg <;> simp [splitSign, hneg]
    have hmark : ('e' == 'e' || 'e' == 'E') = true := by decide
    have hdigit : (!powerDigits.isEmpty && powerDigits.all isAsciiDigit) = true := by
      rw [hne]
      simpa using hall
    unfold Numeral.readExponent?
    dsimp only
    rw [if_pos hmark, hsign]
    dsimp only
    rw [if_pos hdigit, hvalue]
    simp only [decide_eq_true_eq]
    split_ifs <;> congr 1 <;> omega
  have hparts : d.scientific minDigits = (digitChars d.coefficient).take 1 ++
      (pointed ((digitChars d.coefficient).drop 1) ++
        'e' :: (if d.leadingExponent < 0 then '-' else '+') :: powerDigits) := by
    unfold Decimal.scientific pointed
    rw [List.append_assoc]
  rw [hparts]
  refine denotes_parts hplain.ne_nil hplain.all (isAsciiDigit_drop d.coefficient 1) hpower ?_ ?_
  · rintro c ⟨⟩
    decide
  · rw [List.take_append_drop, digitsValue_digitChars, List.length_drop]
    congr 2
    unfold Decimal.leadingExponent
    omega

/-- Positional notation has no exponent. -/
theorem mark_notMem_positional (places : ℕ) :
    'e' ∉ d.positional (pointed (List.replicate places '0')) := by
  have hdigits : ∀ cs : List Char, (∀ c ∈ cs, isAsciiDigit c = true) → 'e' ∉ cs := fun cs h hmem =>
    absurd (h 'e' hmem) (by decide)
  rcases lt_or_ge d.exponent 0 with hexp | hexp
  · obtain ⟨whole, fraction, hwhole, hfraction, -, hbody, -, -⟩ :=
      positional_parts hd hexp (pointed (List.replicate places '0'))
    rw [hbody]
    simpa using ⟨hdigits whole hwhole.all, hdigits fraction hfraction⟩
  · have hfront := hdigits (digitChars d.coefficient) (plain_digitChars d.coefficient).all
    unfold Decimal.positional pointed
    dsimp only
    rw [if_pos hexp]
    split_ifs
    · simpa using hfront
    · simpa using hfront

omit hd in
theorem mark_mem_scientific (minDigits : ℕ) : 'e' ∈ d.scientific minDigits := by
  unfold Decimal.scientific
  simp

end Decimal

end PipeScript.Proofs.Number.Denotation
