import PipeScript.Proofs.Machine.Programs
import PipeScript.Proofs.Value.LooseEquality

/-! # Connectives

`/and` and `/or` pick one of their two sides by its truth and ask whether the side that they picked
loosely equals true.  Only what counts as one does (`looseEq_true`): of the true values those are
`true`, `1` and whatever reads as `1`, but neither `2` nor a word nor a dictionary.  So the answers
(`conjunction`, `disjunction`) are those of truth, and do not depend on the order of the sides,
exactly where the sides that are picked are told by their truth (`connectives_of_truth`). -/

namespace PipeScript.Proofs.Command.Connectives

open PipeScript.Command
open PipeScript.Proofs.Machine.Programs
open PipeScript.Proofs.Number.Exact PipeScript.Proofs.Number.IntegerText

/-! ### What loosely equals true -/

/-- The number of a value is one. -/
def countsAsOne (v : Value) : Bool := v.asNumber.eq (.int 1)

/-- **Loosely equal to true** is what counts as one. -/
theorem looseEq_true (v : Value) : v.looseEq false (.bool true) = countsAsOne v := by
  cases v with
  | scalar s => cases s <;> rfl
  | list items => rfl
  | dict entries =>
    -- a dictionary has a text, and it is no number
    have htext : (Number.ofText "[object Object]").eq (.int 1) = Number.nan.eq (.int 1) := by
      decide +kernel
    exact htext

theorem whole?_of_eq_one {n : Number} (h : n.eq (.int 1) = true) : n.whole? = some 1 := by
  rw [eq_swap] at h
  exact int_eq_iff.mp h

theorem whole?_of_isZero {n : Number} (h : n.isZero = true) : n.whole? = some 0 := by
  rcases n with i | (_ | negative | ⟨negative, mantissa, exponent, hc⟩)
  · have hi : i = 0 := by simpa [Number.isZero] using h
    rw [hi]
    rfl
  · cases h
  · cases h
  · obtain rfl : mantissa = 0 := by simpa [Number.isZero, Binary64.isZero] using h
    exact whole?_mantissa_zero negative hc

theorem whole?_of_isNaN {n : Number} (h : n.isNaN = true) : n.whole? = none := by
  rcases n with i | (_ | negative | ⟨negative, mantissa, exponent, hc⟩)
  · cases h
  · rfl
  · cases h
  · cases h

/-- What counts as one is true. -/
theorem isTruthy_of_countsAsOne {v : Value} (h : countsAsOne v = true) : v.isTruthy = true := by
  rcases v with (_ | b | n | s | m) | items | entries
  · exact absurd h (by decide)
  · cases b with
    | true => rfl
    | false => exact absurd h (by decide)
  · have hwhole : n.whole? = some 1 := whole?_of_eq_one h
    have hzero : n.isZero = false := by
      by_contra hz
      have h0 := whole?_of_isZero (Bool.eq_true_of_not_eq_false hz)
      rw [h0] at hwhole
      cases hwhole
    have hnan : n.isNaN = false := by
      by_contra hn
      have h0 := whole?_of_isNaN (Bool.eq_true_of_not_eq_false hn)
      rw [h0] at hwhole
      cases hwhole
    have htruth : (Value.number n).isTruthy = !(n.isZero || n.isNaN) := rfl
    simp [htruth, hzero, hnan]
  · have hne : s ≠ "" := by
      rintro rfl
      exact absurd h (by decide)
    have htruth : (Value.text s).isTruthy = (s != "") := rfl
    simp [htruth, hne]
  · rfl
  · rfl
  · rfl

theorem countsAsOne_of_false {v : Value} (h : v.isTruthy = false) : countsAsOne v = false := by
  by_contra hone
  have htrue := isTruthy_of_countsAsOne (Bool.eq_true_of_not_eq_false hone)
  rw [h] at htrue
  cases htrue

/-! ### The answers -/

/-- What a connective is given as one of its sides: data if the text is data, and null if there is
none. -/
def side (inv : Invocation) (name : String) : Value := (inv.argumentValue name).decoded

/-- Both sides are true, and the right one counts as one. -/
def conjunction (left right : Value) : Bool :=
  left.isTruthy && right.isTruthy && countsAsOne right

/-- The first side that is true counts as one. -/
def disjunction (left right : Value) : Bool :=
  if left.isTruthy then countsAsOne left else right.isTruthy && countsAsOne right

theorem countsAsOne_pick_right (left right : Value) :
    countsAsOne (if left.isTruthy then right else left) = conjunction left right := by
  unfold conjunction
  cases hleft : left.isTruthy with
  | true =>
    cases hright : right.isTruthy with
    | true => rfl
    | false => exact countsAsOne_of_false hright
  | false => exact countsAsOne_of_false hleft

theorem countsAsOne_pick_left (left right : Value) :
    countsAsOne (if left.isTruthy then left else right) = disjunction left right := by
  unfold disjunction
  split_ifs with hleft
  · rfl
  · cases hright : right.isTruthy with
    | true => rfl
    | false => exact countsAsOne_of_false hright

theorem both_eq (inv : Invocation) :
    both inv = boolText (conjunction (side inv "left") (side inv "right")) := by
  unfold both
  dsimp only
  rw [looseEq_true, countsAsOne_pick_right]
  rfl

theorem either_eq (inv : Invocation) :
    either inv = boolText (disjunction (side inv "left") (side inv "right")) := by
  unfold either
  dsimp only
  rw [looseEq_true, countsAsOne_pick_left]
  rfl

/-! ### Where they are those of truth -/

/-- A value is told by its truth: it counts as one unless it is false. -/
def ToldByTruth (v : Value) : Prop := countsAsOne v = v.isTruthy

instance (v : Value) : Decidable (ToldByTruth v) :=
  inferInstanceAs (Decidable (_ = _))

section Truth

variable (left right : Value)

theorem conjunction_eq_iff :
    conjunction left right = (left.isTruthy && right.isTruthy) ↔
      (left.isTruthy = true → ToldByTruth right) := by
  unfold conjunction ToldByTruth
  cases hright : right.isTruthy with
  | true => cases left.isTruthy <;> simp
  | false => simp [countsAsOne_of_false hright]

theorem disjunction_eq_iff :
    disjunction left right = (left.isTruthy || right.isTruthy) ↔
      ToldByTruth left ∧ (left.isTruthy = false → ToldByTruth right) := by
  unfold disjunction ToldByTruth
  cases hleft : left.isTruthy with
  | true => simp
  | false =>
    have hone := countsAsOne_of_false hleft
    cases hright : right.isTruthy with
    | true => simp [hone]
    | false => simp [hone, countsAsOne_of_false hright]

/-- Two true sides count as one or not, both of them. -/
def Alike : Prop :=
  left.isTruthy = true → right.isTruthy = true → countsAsOne left = countsAsOne right

theorem conjunction_comm_iff :
    conjunction left right = conjunction right left ↔ Alike left right := by
  unfold conjunction Alike
  cases left.isTruthy <;> cases right.isTruthy <;> simp [eq_comm]

theorem disjunction_comm_iff :
    disjunction left right = disjunction right left ↔ Alike left right := by
  unfold disjunction Alike
  cases left.isTruthy <;> cases right.isTruthy <;> simp

end Truth

/-- **The connectives by truth**: they never fail and leave the machine alone.  What they answer is
what the truth of their sides says exactly if the side that is picked is told by its truth, and the
sides can be exchanged exactly if, of two true ones, both count as one or none does. -/
theorem connectives_of_truth (nested : Nested) (inv : Invocation) (m : Machine) :
    Builtin.both.run nested inv m =
        (.ok (boolText (conjunction (side inv "left") (side inv "right"))), m) ∧
      Builtin.either.run nested inv m =
        (.ok (boolText (disjunction (side inv "left") (side inv "right"))), m) ∧
      ∀ left right : Value,
        (conjunction left right = (left.isTruthy && right.isTruthy) ↔
          (left.isTruthy = true → ToldByTruth right)) ∧
        (disjunction left right = (left.isTruthy || right.isTruthy) ↔
          ToldByTruth left ∧ (left.isTruthy = false → ToldByTruth right)) ∧
        (conjunction left right = conjunction right left ↔ Alike left right) ∧
        (disjunction left right = disjunction right left ↔ Alike left right) := by
  refine ⟨?_, ?_, fun left right => ?_⟩
  · rw [← both_eq]
    rfl
  · rw [← either_eq]
    rfl
  · exact ⟨conjunction_eq_iff left right, disjunction_eq_iff left right,
      conjunction_comm_iff left right, disjunction_comm_iff left right⟩

/-- What a connective is given with a text on either side. -/
def given (left right : String) : Invocation := ⟨[("left", left), ("right", right)], "", ""⟩

/-- Two numbers that are true are neither both nor one of them true to the connectives, and whether
`1` and `2` are depends on their order. -/
theorem connectives_miss_truth :
    (side (given "2" "3") "left").isTruthy = true ∧ (side (given "2" "3") "right").isTruthy = true ∧
      both (given "2" "3") = "false" ∧ either (given "2" "3") = "false" ∧
      both (given "2" "1") = "true" ∧ both (given "1" "2") = "false" ∧
      either (given "2" "1") = "false" ∧ either (given "1" "2") = "true" := by
  decide +kernel

end PipeScript.Proofs.Command.Connectives
