import PipeScript.Proofs.Number.Rounding
import PipeScript.Proofs.Text.Strip

/-! # Three ways to name an item

A token names a list item exactly, for a write, or for a read.  What is written under a token is
read under it again (`readIndex?_of_writeIndex?`), and below `2^53` a token that names an item
exactly names the same item for a write (`writeIndex?_of_exactIndex?`): only texts, lists and
numbers can read as plain digits, and all of them count as the number that they read as.

A natural number and its plain text name that item in all three ways (`readIndex?_plain`,
`writeIndex?_plain`, `exactIndex?_plain`), also where the text is rounded, since it is then read as
a number beyond every list.  Only an integer beyond the doubles names nothing: it is refused. -/

namespace PipeScript.Proofs.Path.Addressing

open PipeScript.Path PipeScript.Text PipeScript.Decimal
open PipeScript.Proofs.Text.Strip
open PipeScript.Proofs.Number.Digits PipeScript.Proofs.Number.Exact
open PipeScript.Proofs.Number.PlainText PipeScript.Proofs.Number.Rounding

/-! ### From writes to reads -/

/-- A token that names an item for a write counts as that number. -/
theorem itemNumber_of_writeIndex? {token : Value} {i : ℕ} (h : writeIndex? token = .ok (some i)) :
    ∃ n, itemNumber token = .ok n ∧ n.whole? = some (i : ℤ) := by
  unfold writeIndex? at h
  rcases hn : itemNumber token with fault | n
  · rw [hn] at h
    cases h
  · rw [hn] at h
    obtain ⟨z, hz, hi⟩ := Option.bind_eq_some_iff.mp (Except.ok.inj h)
    split_ifs at hi with hneg
    refine ⟨n, rfl, ?_⟩
    rw [hz]
    cases hi
    rw [Int.toNat_of_nonneg (not_lt.mp hneg)]

/-- A whole number is its own offset. -/
theorem readOffset?_of_whole? {n : Number} {z : ℤ} (h : n.whole? = some z) :
    readOffset? n = some z := by
  cases n with
  | int i => exact h
  | float x =>
    rw [Number.whole?] at h
    split_ifs at h with hint
    rcases x with _ | negative | ⟨negative, mantissa, exponent, canonical⟩
    · cases h
    · cases h
    · exact h

/-- A whole number that is no less than zero is read from as far in as it says. -/
theorem readIndex?_of_whole? {token : Value} {n : Number} {i : ℕ} (hn : itemNumber token = .ok n)
    (hwhole : n.whole? = some (i : ℤ)) (length : ℕ) :
    readIndex? length token = .ok (if i < length then some i else none) := by
  have hneg : ¬ (i : ℤ) < 0 := by omega
  unfold readIndex?
  rw [hn]
  change Except.ok ((readOffset? n).bind _) = _
  rw [readOffset?_of_whole? hwhole, Option.bind_some]
  dsimp only
  rw [if_neg hneg, Int.toNat_natCast]

/-- **What is written under a token is read under it.** -/
theorem readIndex?_of_writeIndex? {token : Value} {i length : ℕ}
    (h : writeIndex? token = .ok (some i)) (hi : i < length) :
    readIndex? length token = .ok (some i) := by
  obtain ⟨n, hn, hwhole⟩ := itemNumber_of_writeIndex? h
  rw [readIndex?_of_whole? hn hwhole, if_pos hi]

/-! ### From exact names to writes -/

theorem ofText_of_plainDigits? {s : String} {digits : List Char}
    (h : plainDigits? s.toList = some digits) : Number.ofText s = Number.ofChars digits := by
  obtain ⟨hplain, hcs⟩ := plainDigits?_spec h
  have hsolid : Solid digits := by
    constructor
    · intro c hc
      exact isBlank_of_isAsciiDigit (hplain.all c (List.mem_of_head? hc))
    · intro c hc
      exact isBlank_of_isAsciiDigit (hplain.all c (List.mem_of_getLast? hc))
  have hstrip : stripChars s.toList = digits := by
    have hleft : ∀ c ∈ ([] : List Char), isBlank c = true := by simp
    have hright : ∀ c ∈ ['\n'], isBlank c = true := List.all_eq_true.mp (by decide)
    rcases hcs with hcs | hcs
    · rw [hcs]
      exact stripChars_of_solid hsolid
    · rw [hcs]
      exact stripChars_pad hleft hright hsolid hplain.ne_nil
  unfold Number.ofText
  rw [hstrip]

/-- Plain digits count as the number that they write. -/
theorem ofText_plain {s : String} {digits : List Char} (h : plainDigits? s.toList = some digits)
    (hlt : digitsValue digits < 2 ^ 53) : Number.ofText s = .int (digitsValue digits) := by
  rw [ofText_of_plainDigits? h, ofChars_plain (plainDigits?_spec h).1 hlt]

theorem writeIndex?_of_int {token : Value} {i : ℕ} (h : token.asNumber = .int i)
    (hdouble : (Number.int i).toBinary64?.isSome = true) : writeIndex? token = .ok (some i) := by
  unfold writeIndex? itemNumber
  rw [h, if_pos hdouble]
  change Except.ok ((some (i : ℤ)).bind _) = _
  rw [Option.bind_some, if_neg (by omega), Int.toNat_natCast]

/-- So does a number that reads as plain digits. -/
theorem writeIndex?_of_number {n : Number} {i : ℕ} (h : n.whole? = some (i : ℤ)) (hi : i < 2 ^ 53) :
    writeIndex? (.number n) = .ok (some i) := by
  cases n with
  | int j =>
    obtain rfl : j = i := Option.some.inj h
    exact writeIndex?_of_int rfl (isSome_toBinary64? hi)
  | float x =>
    unfold writeIndex? itemNumber
    change Except.ok ((Number.float x).whole?.bind _) = _
    rw [h, Option.bind_some, if_neg (by omega), Int.toNat_natCast]

/-- The text of a date, a timestamp or another object is no plain number. -/
theorem plainDigits?_text (m : Moment) : plainDigits? m.text.toList = none := by
  cases m with
  | date d =>
    have hdash : '-' ∈ (Moment.date d).text.toList := by simp [Moment.text, CalendarDate.text]
    exact plainDigits?_of_mem hdash (by decide) (by decide)
  | instant d t offset =>
    have hdash : '-' ∈ (Moment.instant d t offset).text.toList := by
      simp [Moment.text, CalendarDate.text]
    exact plainDigits?_of_mem hdash (by decide) (by decide)
  | other o =>
    obtain ⟨c, hc, hdigit, hline⟩ := o.notDigits
    exact plainDigits?_of_mem hc hdigit hline

/-- **An exact name below `2^53`** names the same item for a write. -/
theorem writeIndex?_of_exactIndex? {token : Value} {i : ℕ}
    (h : exactIndex? token = .ok (some i)) (hi : i < 2 ^ 53) :
    writeIndex? token = .ok (some i) := by
  unfold exactIndex? at h
  split at h
  · cases h
  · next digits hdigits =>
    split_ifs at h
    obtain rfl : digitsValue digits = i := by
      cases h
      rfl
    rcases token with (_ | b | n | s | m) | items | entries
    · have hnone : plainDigits? "null".toList = none := by decide
      cases hnone.symm.trans hdigits
    · have hnone : plainDigits? (Value.bool b).asText.toList = none := by cases b <;> decide
      cases hnone.symm.trans hdigits
    · exact writeIndex?_of_number (whole?_of_text hdigits hi) hi
    · exact writeIndex?_of_int (ofText_plain hdigits hi) (isSome_toBinary64? hi)
    · have hnone := plainDigits?_text m
      cases hnone.symm.trans hdigits
    · exact writeIndex?_of_int (ofText_plain hdigits hi) (isSome_toBinary64? hi)
    · have hnone : plainDigits? "[object Object]".toList = none := by decide
      have htext : (Value.dict entries).asText = "[object Object]" := by rw [Value.asText]
      rw [htext] at hdigits
      cases hnone.symm.trans hdigits

/-! ### Digits that are too many -/

/-- A token reads as plain digits, and they are too many to be read as a number. -/
def LongDigits (token : Value) (digits : List Char) : Prop :=
  plainDigits? token.asText.toList = some digits ∧ integerDigitLimit < digits.length

/-- **A token is refused as an exact name for its digits only.** -/
theorem exactIndex?_cases (token : Value) :
    (∃ digits, LongDigits token digits ∧
      exactIndex? token = .error (.digitLimit (some digits.length))) ∨
    (∀ digits, ¬ LongDigits token digits) ∧ ∃ found, exactIndex? token = .ok found := by
  unfold exactIndex? LongDigits
  rcases plainDigits? token.asText.toList with _ | digits
  · exact .inr ⟨fun _ h => Option.some_ne_none _ h.1.symm, none, rfl⟩
  · dsimp only
    split_ifs with hlong
    · exact .inl ⟨digits, ⟨rfl, hlong⟩, rfl⟩
    · refine .inr ⟨?_, _, rfl⟩
      rintro _ ⟨heq, h⟩
      cases heq
      exact hlong h

/-! ### Plain names -/

/-- A token is a natural number, or its plain decimal text. -/
def NamesPlainly (n : ℕ) (token : Value) : Prop :=
  token = .int n ∨ token = .text (Value.int n).asText

theorem plainDigits?_of_plain {digits : List Char} (h : Plain digits) :
    plainDigits? digits = some digits := by
  have hlast : digits.getLast? ≠ some '\n' := by
    intro hlast
    exact absurd (h.all '\n' (List.mem_of_getLast? hlast)) (by decide)
  have hall : digits.all isAsciiDigit = true := List.all_eq_true.mpr h.all
  have hempty : digits.isEmpty = false := by simpa using h.ne_nil
  unfold plainDigits?
  rw [if_neg hlast]
  dsimp only
  rw [hempty, hall, if_neg (by simp), if_neg]
  simpa using h.leading

theorem toList_asText_int (n : ℕ) : (Value.int n).asText.toList = digitChars n := by
  rw [Value.asText, Scalar.asText, Number.text, Number.render, String.toList_ofList,
    Number.intChars, if_neg (not_lt.mpr (Int.natCast_nonneg n)), Int.natAbs_natCast]

/-- The number that the plain text of a number counts as. -/
theorem asNumber_text (n : ℕ) :
    n < 2 ^ 53 ∧ (Value.text (Value.int n).asText).asNumber = .int n ∨
      2 ^ 53 ≤ n ∧ ((Value.text (Value.int n).asText).asNumber = .float (.infinite false) ∨
        ∃ m : ℕ, 2 ^ 53 ≤ m ∧ (Number.int m).toBinary64?.isSome = true ∧
          (Value.text (Value.int n).asText).asNumber = .int m) := by
  have hplain := plain_digitChars n
  have hvalue := digitsValue_digitChars n
  have hread : (Value.text (Value.int n).asText).asNumber = Number.ofChars (digitChars n) := by
    refine ofText_of_plainDigits? ?_
    rw [toList_asText_int]
    exact plainDigits?_of_plain hplain
  rw [hread]
  rcases Nat.lt_or_ge n (2 ^ 53) with hn | hn
  · refine .inl ⟨hn, ?_⟩
    rw [ofChars_plain hplain (by rwa [hvalue]), hvalue]
  · exact .inr ⟨hn, ofChars_large hplain (by rwa [hvalue])⟩

/-- An integer beyond the doubles is refused. -/
theorem itemNumber_beyond {n : ℕ} (h : (Number.int n).toBinary64? = none) :
    itemNumber (.int n) = .error .doubleOverflow := by
  refine if_neg ?_
  change ¬ (Number.int n).toBinary64?.isSome = true
  rw [h]
  exact Bool.false_ne_true

section Plain

variable {n : ℕ} {token : Value} (h : NamesPlainly n token)
include h

theorem NamesPlainly.toList_asText : token.asText.toList = digitChars n := by
  rcases h with rfl | rfl
  · exact toList_asText_int n
  · exact toList_asText_int n

/-- The text of a plain name tells which item it names. -/
theorem NamesPlainly.unique {m : ℕ} {other : Value} (h' : NamesPlainly m other)
    (htext : token.asText = other.asText) : n = m := by
  have hdigits : digitChars n = digitChars m := by
    rw [← h.toList_asText, htext, h'.toList_asText]
  rw [← digitsValue_digitChars n, hdigits, digitsValue_digitChars]

/-- **A plain name names its item exactly**, unless it has too many digits. -/
theorem exactIndex?_plain :
    exactIndex? token = .ok (some n) ∨ ∃ fault, exactIndex? token = .error fault := by
  unfold exactIndex?
  rw [h.toList_asText, plainDigits?_of_plain (plain_digitChars n)]
  dsimp only
  split_ifs
  · exact .inr ⟨_, rfl⟩
  · rw [digitsValue_digitChars]
    exact .inl rfl

/-- A plain name counts as its number.  A text may be rounded, but not to below `2^53`. -/
theorem asNumber_plain :
    token.asNumber = .int n ∨ 2 ^ 53 ≤ n ∧ (token.asNumber = .float (.infinite false) ∨
      ∃ m : ℕ, 2 ^ 53 ≤ m ∧ token.asNumber = .int m) := by
  rcases h with rfl | rfl
  · exact .inl rfl
  · rcases asNumber_text n with ⟨-, hint⟩ | ⟨hn, hinf | ⟨m, hm, -, hint⟩⟩
    · exact .inl hint
    · exact .inr ⟨hn, .inl hinf⟩
    · exact .inr ⟨hn, .inr ⟨m, hm, hint⟩⟩

/-- A plain name that is refused is an integer beyond the doubles. -/
theorem itemNumber_plain :
    itemNumber token = .ok token.asNumber ∨
      itemNumber token = .error .doubleOverflow ∧ token = .int n ∧
        (Number.int n).toBinary64? = none := by
  have hok : token.asNumber.toBinary64?.isSome = true → itemNumber token = .ok token.asNumber :=
    fun hdouble => if_pos hdouble
  rcases h with rfl | rfl
  · rcases hdouble : (Number.int n).toBinary64? with _ | x
    · exact .inr ⟨itemNumber_beyond hdouble, rfl, rfl⟩
    · refine .inl (hok ?_)
      change (Number.int n).toBinary64?.isSome = true
      rw [hdouble]
      rfl
  · left
    rcases asNumber_text n with ⟨hn, hint⟩ | ⟨-, hinf | ⟨m, -, hdouble, hint⟩⟩
    · rw [hint] at hok ⊢
      exact hok (isSome_toBinary64? hn)
    · rw [hinf] at hok ⊢
      exact hok rfl
    · rw [hint] at hok ⊢
      exact hok hdouble

/-- **A plain name names its item for a write** into a short list. -/
theorem writeIndex?_plain {i : ℕ} (hwrite : writeIndex? token = .ok (some i)) (hi : i < 2 ^ 53) :
    i = n := by
  obtain ⟨number, hnumber, hwhole⟩ := itemNumber_of_writeIndex? hwrite
  have hown : token.asNumber.whole? = some (i : ℤ) := by
    rcases itemNumber_plain h with hok | ⟨herror, -⟩
    · obtain rfl : token.asNumber = number := Except.ok.inj (hok.symm.trans hnumber)
      exact hwhole
    · cases herror.symm.trans hnumber
  rcases asNumber_plain h with hint | ⟨-, hinf | ⟨m, hm, hint⟩⟩
  · rw [hint] at hown
    exact Int.ofNat.inj (Option.some.inj hown).symm
  · rw [hinf] at hown
    cases hown
  · rw [hint] at hown
    have him : (m : ℤ) = i := Option.some.inj hown
    omega

/-- **A plain name names its item for a read** from a short list, unless it is refused. -/
theorem readIndex?_plain {length : ℕ} (hlength : length ≤ 2 ^ 53)
    (hitem : itemNumber token = .ok token.asNumber) :
    readIndex? length token = .ok (if n < length then some n else none) := by
  rcases asNumber_plain h with hint | ⟨hn, hinf | ⟨m, hm, hint⟩⟩
  · rw [hint] at hitem
    exact readIndex?_of_whole? hitem rfl length
  · rw [hinf] at hitem
    unfold readIndex?
    rw [hitem, if_neg (by omega)]
    rfl
  · rw [hint] at hitem
    rw [readIndex?_of_whole? hitem rfl length, if_neg (by omega), if_neg (by omega)]

end Plain

theorem readIndex?_refused {token : Value} (h : itemNumber token = .error .doubleOverflow)
    (length : ℕ) : readIndex? length token = .error .doubleOverflow := by
  unfold readIndex?
  rw [h]
  rfl

end PipeScript.Proofs.Path.Addressing
