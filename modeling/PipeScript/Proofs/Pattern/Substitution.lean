import PipeScript.Proofs.Pattern.Matching
import PipeScript.Proofs.Number.Digits
import Mathlib.Data.List.Basic

/-! # References in replacement texts

A replacement text is read from left to right (`expand_cons`, `expand_dollar`), and a reference by
digits is a group of the match.  The rule for such references takes two ASCII digits where they name
a group of the pattern, one digit where two do not, and copies all else (`substitution`).

* `expand_eq_substitution`: what is expanded is what the rule says where every reference by digits
  is clear (`Clear`).  It is not where two digits name no group and the first one does, since two
  digits are never taken as one, and where digits of other scripts name a group.
* `clear_iff`: these are the only texts on which the rule holds of all matches. -/

namespace PipeScript.Proofs.Pattern.Substitution

open PipeScript.Text PipeScript.Pattern
open PipeScript.Proofs.Number.Digits PipeScript.Proofs.Pattern.Matching

/-! ### The rule -/

/-- The text of the group that ASCII digits name. -/
def group? (o : Occurrence) (digits : List Char) : Option (List Char) :=
  if digits.all isAsciiDigit = true ∧ 0 < digitsValue digits then o.groups[digitsValue digits - 1]?
  else none

/-- What a replacement text stands for. -/
@[simp] def substitution (o : Occurrence) : List Char → List Char
  | [] => []
  | '$' :: '$' :: rest => '$' :: substitution o rest
  | '$' :: '&' :: rest => o.matched ++ substitution o rest
  | '$' :: '\x60' :: rest => o.before ++ substitution o rest
  | '$' :: '\'' :: rest => o.after ++ substitution o rest
  | '$' :: c :: d :: rest =>
    match group? o [c, d], group? o [c] with
    | some pair, _ => pair ++ substitution o rest
    | none, some single => single ++ substitution o (d :: rest)
    | none, none => '$' :: substitution o (c :: d :: rest)
  | ['$', c] => (group? o [c]).getD ['$', c]
  | c :: rest => c :: substitution o rest

/-- The digits that a reference takes, the first one given. -/
def taken (c : Char) : List Char → List Char
  | d :: _ => if isDigit d then [c, d] else [c]
  | [] => [c]

/-- The number that digits of any script write. -/
def number (digits : List Char) : ℕ :=
  digits.foldl (fun n c => 10 * n + anyDigitValue c) 0

/-- Digits that name one of a number of groups. -/
def Names (groups : ℕ) (digits : List Char) : Prop :=
  0 < number digits ∧ number digits ≤ groups

instance (groups : ℕ) (digits : List Char) : Decidable (Names groups digits) :=
  inferInstanceAs (Decidable (_ ∧ _))

/-- A reference by digits that the rule takes, too, as one reference to a group or as no reference:
ASCII digits with a group of their own, or digits without one, of which the first names none,
either. -/
def ClearDigits (groups : ℕ) (c : Char) (rest : List Char) : Prop :=
  isDigit c = true →
    (Names groups (taken c rest) ∧ (taken c rest).all isAsciiDigit = true) ∨
      (¬ Names groups (taken c rest) ∧ (isAsciiDigit c = true → ¬ Names groups [c]))

instance (groups : ℕ) (c : Char) (rest : List Char) : Decidable (ClearDigits groups c rest) :=
  inferInstanceAs (Decidable (_ → _ ∨ _))

/-- All references by digits in a replacement text are clear. -/
@[simp] def Clear (groups : ℕ) : List Char → Prop
  | [] => True
  | '$' :: '$' :: rest => Clear groups rest
  | '$' :: '&' :: rest => Clear groups rest
  | '$' :: '\x60' :: rest => Clear groups rest
  | '$' :: '\'' :: rest => Clear groups rest
  | '$' :: c :: rest => ClearDigits groups c rest ∧ Clear groups (c :: rest)
  | _ :: rest => Clear groups rest

/-! ### Expansion, character by character -/

variable (o : Occurrence)

theorem expandFrom_skip (n : ℕ) (cs : List Char) : o.expandFrom n cs = o.expand (cs.drop n) := by
  induction n generalizing cs with
  | zero => rfl
  | succ n ih =>
    cases cs with
    | nil => rfl
    | cons c rest => exact ih rest

theorem expand_nil : o.expand [] = [] := rfl

theorem expand_cons {c : Char} (h : c ≠ '$') (rest : List Char) :
    o.expand (c :: rest) = c :: o.expand rest := by
  rw [Occurrence.expand, Occurrence.expandFrom, if_neg h]
  rfl

theorem expand_dollar (rest : List Char) :
    o.expand ('$' :: rest) =
      (o.reference rest).1 ++ o.expand (rest.drop (o.reference rest).2) := by
  rw [Occurrence.expand, Occurrence.expandFrom, if_pos rfl, expandFrom_skip]

theorem ne_dollar_of_isDigit {c : Char} (h : isDigit c = true) : c ≠ '$' := by
  rintro rfl
  exact absurd h (by decide)

theorem isDigit_of_isAsciiDigit {c : Char} (h : isAsciiDigit c = true) : isDigit c = true := by
  have hlt : c.toNat < 0x80 := by
    unfold isAsciiDigit at h
    rw [Bool.and_eq_true, decide_eq_true_eq, decide_eq_true_eq] at h
    exact lt_of_le_of_lt (b := 57) h.2 (by decide)
  unfold isDigit
  rw [if_pos hlt]
  exact h

/-- A character that refers to a part of the text. -/
def IsMark (c : Char) : Prop := c = '$' ∨ c = '&' ∨ c = '\x60' ∨ c = '\''

theorem ne_dollar_of_not_mark {c : Char} (h : ¬ IsMark c) : c ≠ '$' := fun hc => h (.inl hc)

theorem reference_of_not_mark {c : Char} (h : ¬ IsMark c) (rest : List Char) :
    o.reference (c :: rest) =
      if isDigit c then
        match rest with
        | d :: _ => if isDigit d then (o.groupText [c, d], 2) else (o.groupText [c], 1)
        | [] => (o.groupText [c], 1)
      else (['$'], 0) := by
  unfold Occurrence.reference
  split
  · next heq => exact absurd (.inl (List.cons.inj heq).1) h
  · next heq => exact absurd (.inr (.inl (List.cons.inj heq).1)) h
  · next heq => exact absurd (.inr (.inr (.inl (List.cons.inj heq).1))) h
  · next heq => exact absurd (.inr (.inr (.inr (List.cons.inj heq).1))) h
  · next heq =>
    obtain ⟨rfl, rfl⟩ := List.cons.inj heq
    rfl
  · next heq => cases heq

theorem not_mark_of_isDigit {c : Char} (h : isDigit c = true) : ¬ IsMark c := by
  rintro (rfl | rfl | rfl | rfl) <;> exact absurd h (by decide)

/-- **Two digits of any script are one reference**, whether there is such a group or not. -/
theorem expand_pair {c d : Char} (hc : isDigit c = true) (hd : isDigit d = true)
    (rest : List Char) :
    o.expand ('$' :: c :: d :: rest) = o.groupText [c, d] ++ o.expand rest := by
  rw [expand_dollar, reference_of_not_mark o (not_mark_of_isDigit hc), if_pos hc]
  dsimp only
  rw [if_pos hd, List.drop_succ_cons, List.drop_succ_cons, List.drop_zero]

/-- A digit before anything else is a reference. -/
theorem expand_single {c : Char} (hc : isDigit c = true) {rest : List Char}
    (hrest : ∀ d ∈ rest.head?, isDigit d = false) :
    o.expand ('$' :: c :: rest) = o.groupText [c] ++ o.expand rest := by
  rw [expand_dollar, reference_of_not_mark o (not_mark_of_isDigit hc), if_pos hc]
  rcases rest with _ | ⟨d, rest⟩
  · dsimp only
    rw [List.drop_succ_cons, List.drop_zero]
  · dsimp only
    rw [hrest d rfl, if_neg Bool.false_ne_true, List.drop_succ_cons, List.drop_zero]

theorem expand_copied {c : Char} (hmark : ¬ IsMark c) (hc : isDigit c = false) (rest : List Char) :
    o.expand ('$' :: c :: rest) = '$' :: o.expand (c :: rest) := by
  rw [expand_dollar, reference_of_not_mark o hmark, hc, if_neg Bool.false_ne_true,
    List.drop_zero]
  rfl

/-! ### Groups by their digits -/

theorem anyDigitValue_of_isAsciiDigit {c : Char} (h : isAsciiDigit c = true) :
    anyDigitValue c = digitValue c := by
  have hbounds : 48 ≤ c.toNat ∧ c.toNat ≤ 57 := by
    unfold isAsciiDigit at h
    rw [Bool.and_eq_true, decide_eq_true_eq, decide_eq_true_eq] at h
    exact h
  have hvalues : ∀ n : Fin 58, 48 ≤ n.val →
      (n.val - digitSet.bounds.getD (digitSet.countBelow n.val - 1) 0) % 10 = n.val - 48 := by
    decide +kernel
  exact hvalues ⟨c.toNat, by omega⟩ hbounds.1

theorem number_eq_digitsValue {digits : List Char} (h : digits.all isAsciiDigit = true) :
    number digits = digitsValue digits := by
  rw [List.all_eq_true] at h
  exact List.foldl_ext _ _ _ fun n c hc => by rw [anyDigitValue_of_isAsciiDigit (h c hc)]

theorem groupText_of_names {digits : List Char} (h : Names o.groups.length digits) :
    o.groups[number digits - 1]? = some (o.groupText digits) := by
  have hlt : number digits - 1 < o.groups.length := by
    have := h.1
    have := h.2
    omega
  unfold Occurrence.groupText
  change _ = some (if 0 < number digits then (o.groups[number digits - 1]?).getD _ else _)
  rw [if_pos h.1, List.getElem?_eq_getElem hlt]
  rfl

theorem groupText_of_not_names {digits : List Char} (h : ¬ Names o.groups.length digits) :
    o.groupText digits = '$' :: digits := by
  unfold Occurrence.groupText
  change (if 0 < number digits then (o.groups[number digits - 1]?).getD _ else _) = _
  by_cases hpos : 0 < number digits
  · have hnone : o.groups.length ≤ number digits - 1 := by
      by_contra hlt
      exact h ⟨hpos, by omega⟩
    rw [if_pos hpos, List.getElem?_eq_none hnone]
    rfl
  · rw [if_neg hpos]

theorem group?_of_names {digits : List Char} (h : Names o.groups.length digits)
    (hascii : digits.all isAsciiDigit = true) : group? o digits = some (o.groupText digits) := by
  rw [group?, ← number_eq_digitsValue hascii, if_pos ⟨hascii, h.1⟩, groupText_of_names o h]

theorem group?_of_not_names {digits : List Char}
    (h : digits.all isAsciiDigit = true → ¬ Names o.groups.length digits) :
    group? o digits = none := by
  rw [group?]
  split
  · next hdigits =>
    rw [← number_eq_digitsValue hdigits.1] at hdigits ⊢
    refine List.getElem?_eq_none ?_
    by_contra hlt
    exact h hdigits.1 ⟨hdigits.2, by omega⟩
  · rfl

/-! ### The rule, character by character -/

theorem substitution_cons {c : Char} (h : c ≠ '$') (rest : List Char) :
    substitution o (c :: rest) = c :: substitution o rest := by
  rw [substitution]
  all_goals
    intros
    contradiction

theorem substitution_pair {c d : Char} {pair : List Char} (hmark : ¬ IsMark c)
    (hpair : group? o [c, d] = some pair) (rest : List Char) :
    substitution o ('$' :: c :: d :: rest) = pair ++ substitution o rest := by
  rw [substitution, hpair]
  all_goals
    intro h
    exact absurd (by simp [IsMark, h]) hmark

theorem substitution_unpaired {c : Char} (hmark : ¬ IsMark c) {rest : List Char}
    (hpair : ∀ d ∈ rest.head?, group? o [c, d] = none) :
    substitution o ('$' :: c :: rest) =
      (group? o [c]).getD ['$', c] ++ substitution o rest := by
  rcases rest with _ | ⟨d, rest⟩
  · rw [substitution, List.append_nil, substitution]
    all_goals
      intro h
      exact absurd (by simp [IsMark, h]) hmark
  · rw [substitution, hpair d rfl]
    · cases group? o [c] with
      | some single => rfl
      | none =>
        dsimp only
        rw [substitution_cons o (ne_dollar_of_not_mark hmark)]
        rfl
    all_goals
      intro h
      exact absurd (by simp [IsMark, h]) hmark

/-! ### Texts on which both agree -/

theorem taken_cases (c : Char) (rest : List Char) :
    (∃ d rest', rest = d :: rest' ∧ isDigit d = true ∧ taken c rest = [c, d]) ∨
      (∀ d ∈ rest.head?, isDigit d = false) ∧ taken c rest = [c] := by
  rcases rest with _ | ⟨d, rest⟩
  · exact .inr ⟨nofun, rfl⟩
  · cases hd : isDigit d with
    | true => exact .inl ⟨d, rest, rfl, hd, if_pos hd⟩
    | false =>
      refine .inr ⟨fun e he => ?_, if_neg (by simp [hd])⟩
      cases he
      exact hd

/-- A digit of another script or no digit at all is no second digit for the rule. -/
theorem group?_of_not_isAsciiDigit {c d : Char} (hd : isAsciiDigit d = false) :
    group? o [c, d] = none :=
  group?_of_not_names o fun h => by simp [hd] at h

theorem isAsciiDigit_eq_false {c : Char} (h : isDigit c = false) : isAsciiDigit c = false := by
  by_contra hascii
  rw [isDigit_of_isAsciiDigit (by simpa using hascii)] at h
  cases h

theorem group?_of_not_isDigit {c : Char} {rest : List Char}
    (h : ∀ d ∈ rest.head?, isDigit d = false) : ∀ d ∈ rest.head?, group? o [c, d] = none :=
  fun d hd => group?_of_not_isAsciiDigit o (isAsciiDigit_eq_false (h d hd))

variable {o}

/-- Digits that name no group are copied, however many of them are taken. -/
theorem expand_unnamed {c : Char} (hc : isDigit c = true) {rest : List Char}
    (hnames : ¬ Names o.groups.length (taken c rest)) :
    o.expand ('$' :: c :: rest) = '$' :: c :: o.expand rest := by
  obtain ⟨d, rest, rfl, hd, htaken⟩ | ⟨hrest, htaken⟩ := taken_cases c rest
  · rw [htaken] at hnames
    rw [expand_pair o hc hd, groupText_of_not_names o hnames,
      expand_cons o (ne_dollar_of_isDigit hd)]
    rfl
  · rw [htaken] at hnames
    rw [expand_single o hc hrest, groupText_of_not_names o hnames]
    rfl

/-- A clear reference by digits is what the rule takes it for. -/
theorem expand_digits {c : Char} (hc : isDigit c = true) {rest : List Char}
    (hclear : ClearDigits o.groups.length c rest) (ih : o.expand rest = substitution o rest) :
    o.expand ('$' :: c :: rest) = substitution o ('$' :: c :: rest) := by
  have hmark := not_mark_of_isDigit hc
  rcases hclear hc with ⟨hnames, hascii⟩ | ⟨hnames, hfirst⟩
  · obtain ⟨d, rest, rfl, hd, htaken⟩ | ⟨hrest, htaken⟩ := taken_cases c rest
    · rw [htaken] at hnames hascii
      rw [expand_cons o (ne_dollar_of_isDigit hd),
        substitution_cons o (ne_dollar_of_isDigit hd)] at ih
      rw [expand_pair o hc hd, substitution_pair o hmark (group?_of_names o hnames hascii),
        (List.cons.inj ih).2]
    · rw [htaken] at hnames hascii
      rw [expand_single o hc hrest, ih,
        substitution_unpaired o hmark (group?_of_not_isDigit o hrest),
        group?_of_names o hnames hascii, Option.getD_some]
  · have hsingle : group? o [c] = none :=
      group?_of_not_names o fun h => hfirst (by simpa using h)
    have hpair : ∀ d ∈ rest.head?, group? o [c, d] = none := by
      obtain ⟨d, rest, rfl, -, htaken⟩ | ⟨hrest, -⟩ := taken_cases c rest
      · rw [htaken] at hnames
        rintro _ ⟨⟩
        exact group?_of_not_names o fun _ => hnames
      · exact group?_of_not_isDigit o hrest
    rw [expand_unnamed hc hnames, substitution_unpaired o hmark hpair, hsingle, ih]
    rfl

theorem expand_not_digit {c : Char} (hmark : ¬ IsMark c) (hc : isDigit c = false)
    (rest : List Char) :
    o.expand ('$' :: c :: rest) = '$' :: c :: o.expand rest ∧
      substitution o ('$' :: c :: rest) = '$' :: c :: substitution o rest := by
  have hascii := isAsciiDigit_eq_false hc
  constructor
  · rw [expand_copied o hmark hc, expand_cons o (ne_dollar_of_not_mark hmark)]
  · rw [substitution_unpaired o hmark fun d _ =>
      group?_of_not_names o fun h => by simp [hascii] at h,
      group?_of_not_names o fun h => by simp [hascii] at h]
    rfl

/-- **Where all references by digits are clear, the rule holds.** -/
theorem expand_eq_substitution {replacement : List Char}
    (hclear : Clear o.groups.length replacement) :
    o.expand replacement = substitution o replacement := by
  fun_induction Clear o.groups.length replacement with
  | case1 => rw [expand_nil, substitution]
  | case2 rest ih | case3 rest ih | case4 rest ih | case5 rest ih =>
    rw [expand_dollar, substitution, ← ih hclear]
    rfl
  | case6 c rest h₁ h₂ h₃ h₄ ih =>
    have hmark : ¬ IsMark c := by rintro (h | h | h | h) <;> contradiction
    have hne : c ≠ '$' := ne_dollar_of_not_mark hmark
    have ih := ih hclear.2
    rw [expand_cons o hne, substitution_cons o hne] at ih
    cases hc : isDigit c with
    | true => exact expand_digits hc hclear.1 (List.cons.inj ih).2
    | false =>
      obtain ⟨hexpand, hrule⟩ := expand_not_digit (o := o) hmark hc rest
      rw [hexpand, hrule, ih]
  | case7 c rest _ _ _ _ hlast ih =>
    by_cases hc : c = '$'
    · rcases rest with _ | ⟨d, rest⟩
      · rw [hc, expand_dollar, substitution, substitution]
        · rfl
        all_goals nofun
      · exact absurd rfl (hlast d rest hc)
    · rw [expand_cons o hc, substitution_cons o hc, ih hclear]

/-! ### Texts on which they differ -/

/-- A text that tells its number, whatever is behind it. -/
def marker (k : ℕ) : List Char := List.replicate k 'a' ++ ['b']

theorem marker_append_inj {k l : ℕ} {x y : List Char} (h : marker k ++ x = marker l ++ y) :
    k = l ∧ x = y := by
  induction k generalizing l with
  | zero =>
    cases l with
    | zero => exact ⟨rfl, (List.cons.inj h).2⟩
    | succ l => exact absurd (List.cons.inj h).1 (by decide)
  | succ k ih =>
    cases l with
    | zero => exact absurd (List.cons.inj h).1 (by decide)
    | succ l =>
      obtain ⟨hkl, hxy⟩ := ih (List.cons.inj h).2
      exact ⟨congrArg (· + 1) hkl, hxy⟩

theorem marker_append_ne_dollar (k : ℕ) (x y : List Char) : marker k ++ x ≠ '$' :: y := by
  cases k with
  | zero => exact fun h => absurd (List.cons.inj h).1 (by decide)
  | succ k => exact fun h => absurd (List.cons.inj h).1 (by decide)

/-- A match whose groups tell which one they are. -/
def distinct (groups : ℕ) : Occurrence :=
  ⟨[], [], [], (List.range groups).map fun k => marker (k + 1)⟩

theorem length_distinct (groups : ℕ) : (distinct groups).groups.length = groups := by
  rw [distinct, List.length_map, List.length_range]

theorem getElem?_distinct {groups k : ℕ} (h : k < groups) :
    (distinct groups).groups[k]? = some (marker (k + 1)) := by
  rw [distinct, List.getElem?_map, List.getElem?_range h, Option.map_some]

theorem groupText_distinct {groups : ℕ} {digits : List Char} (h : Names groups digits) :
    (distinct groups).groupText digits = marker (number digits) := by
  have htext := groupText_of_names (distinct groups) (by rw [length_distinct]; exact h)
  have hlt : number digits - 1 < groups := by
    have := h.1
    have := h.2
    omega
  rw [getElem?_distinct hlt, Nat.sub_add_cancel h.1] at htext
  exact (Option.some.inj htext).symm

theorem group?_distinct (groups : ℕ) (digits : List Char) :
    (group? (distinct groups) digits = some (marker (number digits)) ∧
        Names groups digits ∧ digits.all isAsciiDigit = true) ∨
      (group? (distinct groups) digits = none ∧
        (digits.all isAsciiDigit = true → ¬ Names groups digits)) := by
  have hlength := length_distinct groups
  by_cases h : digits.all isAsciiDigit = true ∧ Names groups digits
  · refine .inl ⟨?_, h.2, h.1⟩
    rw [group?_of_names _ (hlength.symm ▸ h.2) h.1, groupText_distinct h.2]
  · have h : digits.all isAsciiDigit = true → ¬ Names groups digits := fun ha hn => h ⟨ha, hn⟩
    exact .inr ⟨group?_of_not_names _ (hlength.symm ▸ h), h⟩

/-- Two digits that name a group write a greater number than the first one. -/
theorem number_lt_pair {c d : Char} (h : 0 < number [c]) : number [c] < number [c, d] := by
  have hpair : number [c, d] = 10 * number [c] + anyDigitValue d := rfl
  omega

/-- A reference that is not clear tells the rule from what is done. -/
theorem clearDigits_of_expand {groups : ℕ} {c : Char} (hc : isDigit c = true) {rest : List Char}
    (h : (distinct groups).expand ('$' :: c :: rest) =
      substitution (distinct groups) ('$' :: c :: rest)) :
    ClearDigits groups c rest ∧
      (distinct groups).expand rest = substitution (distinct groups) rest := by
  have hmark := not_mark_of_isDigit hc
  have hlength := length_distinct groups
  obtain ⟨d, rest, rfl, hd, htaken⟩ | ⟨hrest, htaken⟩ := taken_cases c rest
  · have hne := ne_dollar_of_isDigit hd
    rw [expand_pair _ hc hd] at h
    rw [expand_cons _ hne, ClearDigits, htaken]
    rcases group?_distinct groups [c, d] with ⟨hpair, hnames, hascii⟩ | ⟨hpair, hnone⟩
    · rw [substitution_pair _ hmark hpair, groupText_distinct hnames] at h
      rw [substitution_cons _ hne, List.append_cancel_left h]
      exact ⟨fun _ => .inl ⟨hnames, hascii⟩, rfl⟩
    · rw [substitution_unpaired _ hmark (by rintro _ ⟨⟩; exact hpair)] at h
      by_cases hnames : Names groups [c, d]
      · rw [groupText_distinct hnames] at h
        rcases group?_distinct groups [c] with ⟨hsingle, hfirst, -⟩ | ⟨hsingle, -⟩
        · rw [hsingle, Option.getD_some] at h
          exact absurd (marker_append_inj h).1 (number_lt_pair hfirst.1).ne'
        · rw [hsingle] at h
          exact (marker_append_ne_dollar _ _ _ h).elim
      · rw [groupText_of_not_names _ (hlength.symm ▸ hnames)] at h
        rcases group?_distinct groups [c] with ⟨hsingle, -⟩ | ⟨hsingle, hfirst⟩
        · rw [hsingle, Option.getD_some] at h
          exact (marker_append_ne_dollar _ _ _ h.symm).elim
        · rw [hsingle] at h
          exact ⟨fun _ => .inr ⟨hnames, fun ha => hfirst (by simpa using ha)⟩,
            (List.cons.inj (List.cons.inj h).2).2⟩
  · rw [expand_single _ hc hrest, substitution_unpaired _ hmark (group?_of_not_isDigit _ hrest)] at h
    rw [ClearDigits, htaken]
    rcases group?_distinct groups [c] with ⟨hsingle, hnames, hascii⟩ | ⟨hsingle, hnone⟩
    · rw [hsingle, groupText_distinct hnames] at h
      exact ⟨fun _ => .inl ⟨hnames, hascii⟩, List.append_cancel_left h⟩
    · rw [hsingle] at h
      by_cases hnames : Names groups [c]
      · rw [groupText_distinct hnames] at h
        exact (marker_append_ne_dollar _ _ _ h).elim
      · rw [groupText_of_not_names _ (hlength.symm ▸ hnames)] at h
        exact ⟨fun _ => .inr ⟨hnames, fun _ => hnames⟩, List.append_cancel_left h⟩

theorem clear_of_expand {groups : ℕ} {replacement : List Char}
    (h : (distinct groups).expand replacement = substitution (distinct groups) replacement) :
    Clear groups replacement := by
  fun_induction Clear groups replacement with
  | case1 => trivial
  | case2 rest ih | case3 rest ih | case4 rest ih | case5 rest ih =>
    rw [expand_dollar, substitution] at h
    exact ih (List.append_cancel_left h)
  | case6 c rest h₁ h₂ h₃ h₄ ih =>
    have hmark : ¬ IsMark c := by rintro (h | h | h | h) <;> contradiction
    have hne : c ≠ '$' := ne_dollar_of_not_mark hmark
    rw [expand_cons _ hne, substitution_cons _ hne] at ih
    cases hc : isDigit c with
    | true =>
      obtain ⟨hclear, h⟩ := clearDigits_of_expand hc h
      exact ⟨hclear, ih (congrArg _ h)⟩
    | false =>
      obtain ⟨hexpand, hrule⟩ := expand_not_digit (o := distinct groups) hmark hc rest
      rw [hexpand, hrule] at h
      exact ⟨fun h => absurd h (by simp [hc]), ih (List.cons.inj h).2⟩
  | case7 c rest _ _ _ _ hlast ih =>
    by_cases hc : c = '$'
    · rcases rest with _ | ⟨d, rest⟩
      · exact ih (by rw [expand_nil, substitution])
      · exact absurd rfl (hlast d rest hc)
    · rw [expand_cons _ hc, substitution_cons _ hc] at h
      exact ih (List.cons.inj h).2

/-- **The rule holds of all matches with a number of groups** exactly for the texts whose references
by digits are clear. -/
theorem clear_iff (groups : ℕ) (replacement : List Char) :
    Clear groups replacement ↔
      ∀ o : Occurrence, o.groups.length = groups →
        o.expand replacement = substitution o replacement := by
  constructor
  · rintro hclear o rfl
    exact expand_eq_substitution hclear
  · exact fun h => clear_of_expand (h _ (length_distinct groups))

/-! ### Replacements of matches -/

theorem replaceMatches_congr {text : Array Char} {f g : Match → List Char} {found : List Match}
    (h : ∀ m ∈ found, f m = g m) (position : ℕ) :
    replaceMatches text f position found = replaceMatches text g position found := by
  induction found generalizing position with
  | nil => rfl
  | cons m found ih =>
    rw [replaceMatches, replaceMatches, h m (List.mem_cons_self ..),
      ih fun m hm => h m (List.mem_cons_of_mem _ hm)]

/-- A replacement whose references are clear puts for each match what the rule says. -/
theorem replace_of_clear {p : Pattern} {replacement : List Char}
    (hclear : Clear p.groups replacement) (all : Bool) (text : List Char) :
    p.replace all replacement text =
      replaceMatches text.toArray
        (fun m => substitution (Occurrence.ofMatch text.toArray m) replacement) 0
        (if all then p.allMatches text.toArray
          else (p.search? text.toArray (text.toArray.size + 1) 0 false).toList) := by
  refine replaceMatches_congr (fun m hm => ?_) 0
  have hfound : Found p m := by
    cases all with
    | true => exact found_of_mem_matchesFrom hm
    | false => exact found_of_search? (Option.mem_toList.1 hm)
  exact expand_eq_substitution (length_groups_ofMatch text.toArray hfound ▸ hclear)

/-- **References in the replacement of a match.**  The match has the groups of its pattern, a group
that took no part is empty, and the texts before it, of it and after it make up the subject.  Where
the references by digits are clear, the replacement stands for what the rule says; where they are
not, the rule fails for matches with as many groups. -/
theorem expand_of_match (p : Pattern) (text : Array Char) (position : ℕ) (advance : Bool)
    (m : Match) (hm : p.matchAt? text position advance = some m) (replacement : List Char) :
    let o := Occurrence.ofMatch text m
    o.groups.length = p.groups ∧
      (∀ k, m.groups[k + 1]? = some none → o.groups[k]? = some []) ∧
      (∀ k span, m.groups[k + 1]? = some (some span) → o.groups[k]? = some (spanText text span)) ∧
      o.before ++ o.matched ++ o.after = text.toList ∧
      (Clear p.groups replacement → o.expand replacement = substitution o replacement) ∧
      (¬ Clear p.groups replacement → ∃ o' : Occurrence, o'.groups.length = p.groups ∧
        o'.expand replacement ≠ substitution o' replacement) := by
  intro o
  have hfound := found_of_matchAt? hm
  have hlength := length_groups_ofMatch text hfound
  refine ⟨hlength, fun k => groups_ofMatch_of_none, fun k span => groups_ofMatch_of_some,
    ofMatch_append hfound, fun hclear => expand_eq_substitution (hlength ▸ hclear),
    fun hunclear => ?_⟩
  by_contra hnone
  refine hunclear ((clear_iff p.groups replacement).2 fun o' hlength => ?_)
  by_contra hne
  exact hnone ⟨o', hlength, hne⟩

/-- The pattern of two letters in a group each. -/
def eitherLetter : Pattern :=
  ⟨.alt (.group 1 (.single (.set .exact false [.point 97])))
    (.group 2 (.single (.set .exact false [.point 98]))), 2⟩

theorem expand_of_match_eitherLetter :
    eitherLetter.matchAt? #['a', 'b', 'c'] 1 false = some ⟨1, 2, #[none, none, some (1, 2)]⟩ ∧
      Clear 2 "$2$1$&$'$7".toList ∧
      (Occurrence.ofMatch #['a', 'b', 'c'] ⟨1, 2, #[none, none, some (1, 2)]⟩).expand
        "$2$1$&$'$7".toList = "bbc$7".toList := by
  have hmatch : eitherLetter.matchAt? #['a', 'b', 'c'] 1 false =
    some ⟨1, 2, #[none, none, some (1, 2)]⟩ := by rfl
  have hclear : Clear 2 "$2$1$&$'$7".toList := by
    change ClearDigits 2 '2' _ ∧ ClearDigits 2 '1' _ ∧ ClearDigits 2 '7' _ ∧ True
    decide +kernel
  have h := expand_of_match eitherLetter #['a', 'b', 'c'] 1 false _ hmatch "$2$1$&$'$7".toList
  refine ⟨hmatch, hclear, (h.2.2.2.2.1 hclear).trans ?_⟩
  decide +kernel

/-- **Two digits are never taken as one**, and digits of other scripts name groups. -/
theorem pair_without_group :
    ∃ (p : Pattern) (text : Array Char) (m : Match), p.matchAt? text 0 false = some m ∧
      (Occurrence.ofMatch text m).expand "$12".toList = "$12".toList ∧
      substitution (Occurrence.ofMatch text m) "$12".toList = "a2".toList ∧
      (Occurrence.ofMatch text m).expand "$١".toList = "a".toList ∧
      substitution (Occurrence.ofMatch text m) "$١".toList = "$١".toList := by
  refine ⟨⟨.group 1 (.single (.set .exact false [.point 97])), 1⟩, #['a'],
    ⟨0, 1, #[none, some (0, 1)]⟩, by rfl, ?_⟩
  decide +kernel

end PipeScript.Proofs.Pattern.Substitution
