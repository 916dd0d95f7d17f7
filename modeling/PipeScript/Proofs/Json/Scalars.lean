import PipeScript.Json.Printer
import PipeScript.Json.Reader
import PipeScript.Proofs.Number.Exact
import PipeScript.Proofs.Text.Strip

/-! # Strings and integers in JSON

A string is read back from its escaped characters whatever follows it (`readString?_escaped`), and
an integer within the digit limit is read back from its digits if nothing follows that a numeral
could go on with (`readNumber?_intChars`). -/

namespace PipeScript.Proofs.Json.Scalars

open PipeScript.Json PipeScript.Text PipeScript.Decimal
open PipeScript.Proofs.Text.Strip
open PipeScript.Proofs.Number.Digits PipeScript.Proofs.Number.Exact

/-! ### Strings -/

theorem readUnit?_append {cs rest : List Char} {n : ℕ} (h : readUnit? cs = some (n, rest))
    (more : List Char) : readUnit? (cs ++ more) = some (n, rest ++ more) := by
  unfold readUnit? at h
  split at h
  · next a b c d tail =>
    simp only [Option.bind_eq_bind, Option.bind_eq_some_iff] at h
    obtain ⟨x, hx, y, hy, z, hz, w, hw, h⟩ := h
    obtain ⟨rfl, rfl⟩ := Prod.mk.inj (Option.some.inj h)
    simp [readUnit?, hx, hy, hz, hw]
  · cases h

theorem readUnit?_control : ∀ n < 0x20, readUnit? (hexDigits 4 n) = some (n, []) := by
  decide

theorem readEscape?_control {c : Char} (h : c.toNat < 0x20) (rest : List Char) :
    readEscape? (hexDigits 4 c.toNat ++ rest) = some (c, rest) := by
  have hunit := readUnit?_append (readUnit?_control _ h) rest
  have hhigh : ¬ 0xD800 ≤ c.toNat := by omega
  have hlow : ¬ 0xDC00 ≤ c.toNat := by omega
  unfold readEscape?
  rw [hunit]
  simp [hhigh, hlow]

theorem readString?_simple {e x : Char} (hu : e ≠ 'u') (hx : simpleEscape? e = some x) (fuel : ℕ)
    (rest : List Char) :
    readString? (fuel + 1) ('\\' :: e :: rest) =
      (readString? fuel rest).map fun (xs, rest) => (x :: xs, rest) := by
  rw [readString?]
  · simp only [hx, Char.reduceEq, if_false, if_true]
    rcases readString? fuel rest with _ | ⟨xs, tail⟩ <;> rfl
  · exact hu

theorem readString?_unicode {cs rest : List Char} {x : Char} (h : readEscape? cs = some (x, rest))
    (fuel : ℕ) :
    readString? (fuel + 1) ('\\' :: 'u' :: cs) =
      (readString? fuel rest).map fun (xs, rest) => (x :: xs, rest) := by
  rw [readString?]
  simp only [h, Char.reduceEq, if_false, if_true, Option.bind_eq_bind, Option.bind_some]
  rcases readString? fuel rest with _ | ⟨xs, tail⟩ <;> rfl

theorem readString?_plain {c : Char} (hquote : c ≠ '"') (hback : c ≠ '\\')
    (hcontrol : ¬ c.toNat < 0x20) (fuel : ℕ) (rest : List Char) :
    readString? (fuel + 1) (c :: rest) =
      (readString? fuel rest).map fun (xs, rest) => (c :: xs, rest) := by
  rw [readString?.eq_def]
  simp only [if_neg hquote, if_neg hback, if_neg hcontrol]
  rcases readString? fuel rest with _ | ⟨xs, tail⟩ <;> rfl

/-- An escaped character is read as that character. -/
theorem readString?_escapeChar (c : Char) (fuel : ℕ) (rest : List Char) :
    readString? (fuel + 1) (escapeChar c ++ rest) =
      (readString? fuel rest).map fun (xs, rest) => (c :: xs, rest) := by
  unfold escapeChar
  split_ifs with hquote hback hline hreturn htab hbell hfeed hcontrol
  · subst hquote
    exact readString?_simple (by decide) rfl fuel rest
  · subst hback
    exact readString?_simple (by decide) rfl fuel rest
  · subst hline
    exact readString?_simple (by decide) rfl fuel rest
  · subst hreturn
    exact readString?_simple (by decide) rfl fuel rest
  · subst htab
    exact readString?_simple (by decide) rfl fuel rest
  · subst hbell
    exact readString?_simple (by decide) rfl fuel rest
  · subst hfeed
    exact readString?_simple (by decide) rfl fuel rest
  · rw [List.cons_append, List.cons_append]
    exact readString?_unicode (readEscape?_control hcontrol rest) fuel
  · exact readString?_plain hquote hback hcontrol fuel rest

/-- **Escaped characters are read back** up to the closing quote. -/
theorem readString?_escaped {cs : List Char} {fuel : ℕ} (h : cs.length < fuel) (rest : List Char) :
    readString? fuel (cs.flatMap escapeChar ++ '"' :: rest) = some (cs, rest) := by
  induction cs generalizing fuel with
  | nil =>
    obtain ⟨fuel, rfl⟩ := Nat.exists_eq_succ_of_ne_zero h.ne'
    simp [readString?]
  | cons c cs ih =>
    obtain ⟨fuel, rfl⟩ := Nat.exists_eq_succ_of_ne_zero (Nat.ne_zero_of_lt h)
    have htail := ih (Nat.lt_of_succ_lt_succ h)
    rw [List.flatMap_cons, List.append_assoc, readString?_escapeChar, htail]
    rfl

theorem length_le_escaped (cs : List Char) : cs.length ≤ (cs.flatMap escapeChar).length := by
  induction cs with
  | nil => exact le_refl _
  | cons c cs ih =>
    have hone : 1 ≤ (escapeChar c).length := by
      unfold escapeChar
      split_ifs <;> simp
    rw [List.flatMap_cons, List.length_append, List.length_cons]
    omega

/-- The fuel that readers of strings are given is enough for what the printer writes. -/
theorem readString?_stringChars (s : String) (rest : List Char) :
    readString? ((s.toList.flatMap escapeChar ++ '"' :: rest).length + 1)
      (s.toList.flatMap escapeChar ++ '"' :: rest) = some (s.toList, rest) := by
  refine readString?_escaped ?_ rest
  have hlength := length_le_escaped s.toList
  rw [List.length_append]
  omega

/-! ### Integers -/

/-- What may follow a number: nothing that a numeral could go on with. -/
def Ends (rest : List Char) : Prop :=
  ∀ c ∈ rest.head?, isAsciiDigit c = false ∧ c ≠ '.' ∧ c ≠ 'e' ∧ c ≠ 'E'

/-- Digits are read up to the first other character. -/
theorem spanDigits_append {digits rest : List Char} (hdigits : ∀ c ∈ digits, isAsciiDigit c = true)
    (hrest : ∀ c ∈ rest.head?, isAsciiDigit c = false) :
    spanDigits (digits ++ rest) = (digits, rest) := by
  have hdrop : rest.dropWhile isAsciiDigit = rest := dropWhile_of_head hrest
  have htake : rest.takeWhile isAsciiDigit = [] := by
    have hsplit := List.takeWhile_append_dropWhile (p := isAsciiDigit) (l := rest)
    rw [hdrop] at hsplit
    exact List.append_left_eq_self.mp hsplit
  unfold spanDigits
  rw [List.takeWhile_append_of_pos hdigits, List.dropWhile_append_of_pos hdigits, hdrop, htake,
    List.append_nil]

theorem readWhole?_plain {digits rest : List Char} (h : Plain digits)
    (hrest : ∀ c ∈ rest.head?, isAsciiDigit c = false) :
    readWhole? (digits ++ rest) = some (digits, rest) := by
  obtain ⟨c, tail, rfl, hc⟩ := h.exists_cons
  by_cases hzero : c = '0'
  · subst hzero
    have hlength := h.leading rfl
    obtain rfl : tail = [] := List.length_eq_zero_iff.mp (by simpa using hlength)
    rfl
  · have hspan := spanDigits_append h.all hrest
    rw [List.cons_append] at hspan ⊢
    unfold readWhole?
    split
    · next heq => exact absurd (List.cons.inj heq).1 hzero
    · next heq =>
      obtain ⟨rfl, rfl⟩ := List.cons.inj heq
      rw [if_pos hc, hspan]
    · next heq => cases heq

theorem readFraction_of_ends {rest : List Char} (h : Ends rest) :
    readFraction rest = (none, rest) := by
  unfold readFraction
  split
  · exact absurd rfl (h '.' rfl).2.1
  · rfl

theorem readPower_of_ends {rest : List Char} (h : Ends rest) : readPower rest = (none, rest) := by
  unfold readPower
  split
  · next mark tail =>
    obtain ⟨-, -, hlower, hupper⟩ := h mark rfl
    simp [hlower, hupper]
  · rfl

/-- A fraction is read behind its point. -/
theorem readFraction_digits {digits rest : List Char} (hne : digits ≠ [])
    (hdigits : ∀ c ∈ digits, isAsciiDigit c = true)
    (hrest : ∀ c ∈ rest.head?, isAsciiDigit c = false) :
    readFraction ('.' :: (digits ++ rest)) = (some digits, rest) := by
  rw [readFraction, spanDigits_append hdigits hrest]
  exact if_neg (by simpa using hne)

/-- The sign of an exponent, which is always written. -/
def powerSign (negative : Bool) : Char :=
  if negative then '-' else '+'

/-- An exponent is read behind its mark and its sign. -/
theorem readPower_digits {digits rest : List Char} (hne : digits ≠ [])
    (hdigits : ∀ c ∈ digits, isAsciiDigit c = true)
    (hrest : ∀ c ∈ rest.head?, isAsciiDigit c = false) (negative : Bool) :
    readPower ('e' :: powerSign negative :: (digits ++ rest)) =
      (some (if negative then -(digitsValue digits : ℤ) else digitsValue digits), rest) := by
  have hsign : splitSign (powerSign negative :: (digits ++ rest)) = (negative, digits ++ rest) := by
    cases negative <;> rfl
  have hmark : ('e' == 'e' || 'e' == 'E') = true := by decide
  unfold readPower
  dsimp only
  rw [if_pos hmark, hsign]
  dsimp only
  rw [spanDigits_append hdigits hrest]
  exact if_neg (by simpa using hne)

theorem length_digitChars_le {n limit : ℕ} (hlimit : 0 < limit) (h : n < tenTo limit) :
    (digitChars n).length ≤ limit :=
  (Nat.length_toDigits_le_iff (by decide) hlimit).mpr h

/-- The minus in front of a negative number. -/
def minus (negative : Bool) : List Char :=
  if negative then ['-'] else []

/-- What is read before the point starts with a digit. -/
theorem cons_of_readWhole? {cs whole rest : List Char} (h : readWhole? cs = some (whole, rest)) :
    ∃ c tail, cs = c :: tail ∧ isAsciiDigit c = true := by
  unfold readWhole? at h
  split at h
  · exact ⟨_, _, rfl, by decide⟩
  · split_ifs at h with hc
    exact ⟨_, _, rfl, hc⟩
  · cases h

/-- **A number is read part by part**: the minus, the digits before the point, the fraction and the
exponent. -/
theorem readNumber?_parts {body tail more rest whole : List Char} {fraction : Option (List Char)}
    {power : Option ℤ} (hwhole : readWhole? body = some (whole, tail))
    (hfraction : readFraction tail = (fraction, more)) (hpower : readPower more = (power, rest))
    (negative : Bool) :
    readNumber? (minus negative ++ body) =
      if fraction.isNone && power.isNone then
        if whole.length > integerDigitLimit then none
        else some (.int (if negative then -(digitsValue whole : ℤ) else digitsValue whole), rest)
      else
        some (.float (Numeral.toBinary64 ⟨negative, whole, fraction.getD [], power.getD 0⟩),
          rest) := by
  unfold readNumber?
  split
  next sign digits hsign =>
  obtain ⟨rfl, rfl⟩ : sign = negative ∧ digits = body := by
    cases negative with
    | true =>
      obtain ⟨rfl, rfl⟩ := Prod.mk.inj hsign
      exact ⟨rfl, rfl⟩
    | false =>
      -- digits start with no sign
      obtain ⟨c, tail, rfl, hc⟩ := cons_of_readWhole? hwhole
      split at hsign
      · next heq =>
        cases heq
        exact absurd hc (by decide)
      · obtain ⟨rfl, rfl⟩ := Prod.mk.inj hsign
        exact ⟨rfl, rfl⟩
  rw [hwhole]
  simp only [Option.bind_eq_bind, Option.bind_some, hfraction, hpower]
  rfl

/-- The digits of an integer are read after its minus. -/
theorem readNumber?_signed {digits rest : List Char} (h : Plain digits) (hrest : Ends rest)
    (hlength : digits.length ≤ integerDigitLimit) (negative : Bool) :
    readNumber? (minus negative ++ (digits ++ rest)) =
      some (.int (if negative then -(digitsValue digits : ℤ) else digitsValue digits), rest) := by
  have hwhole := readWhole?_plain h fun c hc => (hrest c hc).1
  rw [readNumber?_parts hwhole (readFraction_of_ends hrest) (readPower_of_ends hrest),
    if_pos (by rfl), if_neg (not_lt.mpr hlength)]

/-- **An integer within the digit limit is read back.** -/
theorem readNumber?_intChars {i : ℤ} (hi : exceedsDigitLimit i = false) {rest : List Char}
    (hrest : Ends rest) : readNumber? (Number.intChars i ++ rest) = some (.int i, rest) := by
  have hlength : (digitChars i.natAbs).length ≤ integerDigitLimit :=
    length_digitChars_le (by decide) (not_le.mp (of_decide_eq_false hi))
  have hread := readNumber?_signed (plain_digitChars i.natAbs) hrest hlength (i < 0)
  have htext : minus (decide (i < 0)) ++ (digitChars i.natAbs ++ rest) =
      Number.intChars i ++ rest := by
    unfold Number.intChars minus
    simp only [decide_eq_true_eq]
    split_ifs <;> rfl
  have hvalue : (if decide (i < 0) = true then -(i.natAbs : ℤ) else i.natAbs) = i := by
    simp only [decide_eq_true_eq]
    split_ifs <;> omega
  rw [htext, digitsValue_digitChars, hvalue] at hread
  exact hread

end PipeScript.Proofs.Json.Scalars
