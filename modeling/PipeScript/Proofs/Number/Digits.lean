import PipeScript.Number.Reader
import Mathlib.Tactic.IntervalCases
import Mathlib.Tactic.Ring
import Mathlib.Tactic.SplitIfs

/-! # Digits

The value of a run of digits is below the power of ten of its length (`digitsValue_lt`), and reading
the digits of a number gives it back (`digitsValue_digitChars`). -/

namespace PipeScript.Proofs.Number.Digits

open PipeScript.Text PipeScript.Decimal

theorem digitValue_le {c : Char} (h : isAsciiDigit c = true) : digitValue c ≤ 9 := by
  have hle : c.toNat ≤ '9'.toNat := by
    unfold isAsciiDigit at h
    rw [Bool.and_eq_true, decide_eq_true_eq, decide_eq_true_eq] at h
    exact h.2
  have hnine : '9'.toNat = '0'.toNat + 9 := by decide
  unfold digitValue
  omega

theorem isBlank_of_isAsciiDigit {c : Char} (h : isAsciiDigit c = true) : isBlank c = false := by
  have hn : 48 ≤ c.toNat ∧ c.toNat ≤ 57 := by
    unfold isAsciiDigit at h
    rw [Bool.and_eq_true, decide_eq_true_eq, decide_eq_true_eq] at h
    exact h
  simp only [isBlank, isSpace, Bool.or_eq_false_iff, Bool.and_eq_false_iff,
    decide_eq_false_iff_not, beq_eq_false_iff_ne, ne_eq]
  omega

/-- Digits behind a number shift it by their count. -/
theorem foldl_digits (digits : List Char) (a : ℕ) :
    digits.foldl (fun n c => 10 * n + digitValue c) a =
      a * 10 ^ digits.length + digitsValue digits := by
  unfold digitsValue
  induction digits generalizing a with
  | nil => simp
  | cons c digits ih =>
    rw [List.foldl_cons, List.foldl_cons, ih, ih (10 * 0 + digitValue c), List.length_cons, pow_succ]
    ring

theorem digitsValue_cons (c : Char) (digits : List Char) :
    digitsValue (c :: digits) = digitValue c * 10 ^ digits.length + digitsValue digits := by
  have h := foldl_digits digits (10 * 0 + digitValue c)
  rw [Nat.mul_zero, Nat.zero_add] at h
  rw [digitsValue, List.foldl_cons, Nat.mul_zero, Nat.zero_add]
  exact h

theorem digitsValue_append (front back : List Char) :
    digitsValue (front ++ back) = digitsValue front * 10 ^ back.length + digitsValue back := by
  rw [digitsValue, List.foldl_append]
  exact foldl_digits back _

theorem digitsValue_lt {digits : List Char} (h : ∀ c ∈ digits, isAsciiDigit c = true) :
    digitsValue digits < 10 ^ digits.length := by
  induction digits with
  | nil => simp [digitsValue]
  | cons c digits ih =>
    have hc := digitValue_le (h c (List.mem_cons_self ..))
    have hrest := ih fun d hd => h d (List.mem_cons_of_mem _ hd)
    have hmul : digitValue c * 10 ^ digits.length ≤ 9 * 10 ^ digits.length :=
      Nat.mul_le_mul_right _ hc
    rw [digitsValue_cons, List.length_cons, pow_succ]
    omega

theorem digitsValue_lt_tenTo {digits : List Char} (h : ∀ c ∈ digits, isAsciiDigit c = true)
    {limit : ℕ} (hlength : digits.length ≤ limit) : digitsValue digits < tenTo limit :=
  lt_of_lt_of_le (digitsValue_lt h) (Nat.pow_le_pow_right (by decide) hlength)

theorem digitsValue_zeros (k : ℕ) : digitsValue (List.replicate k '0') = 0 := by
  induction k with
  | zero => rfl
  | succ k ih =>
    have hzero : digitValue '0' = 0 := by decide
    rw [List.replicate_succ, digitsValue_cons, ih, hzero, zero_mul]

theorem isAsciiDigit_digitChar {d : ℕ} (h : d < 10) : isAsciiDigit d.digitChar = true := by
  interval_cases d <;> decide

theorem digitValue_digitChar {d : ℕ} (h : d < 10) : digitValue d.digitChar = d := by
  interval_cases d <;> decide

theorem digitChars_of_lt {n : ℕ} (h : n < 10) : digitChars n = [n.digitChar] :=
  Nat.toDigits_of_lt_base h

theorem digitChars_of_le {n : ℕ} (h : 10 ≤ n) :
    digitChars n = digitChars (n / 10) ++ [(n % 10).digitChar] :=
  Nat.toDigits_of_base_le (by decide) h

theorem isAsciiDigit_of_mem_digitChars {n : ℕ} {c : Char} (h : c ∈ digitChars n) :
    isAsciiDigit c = true := by
  induction n using Nat.strongRecOn with
  | ind n ih =>
    by_cases hn : n < 10
    · rw [digitChars_of_lt hn, List.mem_singleton] at h
      rw [h]
      exact isAsciiDigit_digitChar hn
    · rw [digitChars_of_le (by omega), List.mem_append, List.mem_singleton] at h
      rcases h with h | rfl
      · exact ih (n / 10) (by omega) h
      · exact isAsciiDigit_digitChar (Nat.mod_lt _ (by decide))

/-- **Digits are read back** as the number that they write. -/
theorem digitsValue_digitChars (n : ℕ) : digitsValue (digitChars n) = n := by
  induction n using Nat.strongRecOn with
  | ind n ih =>
    by_cases hn : n < 10
    · rw [digitChars_of_lt hn, digitsValue_cons, digitValue_digitChar hn]
      simp [digitsValue]
    · rw [digitChars_of_le (by omega), digitsValue_append, ih (n / 10) (by omega),
        digitsValue_cons, digitValue_digitChar (Nat.mod_lt _ (by decide))]
      simp only [digitsValue, List.foldl_nil, List.length_nil, List.length_singleton]
      omega

end PipeScript.Proofs.Number.Digits
