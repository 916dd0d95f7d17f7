import PipeScript.Value.LooseEq
import PipeScript.Value.Limit
import PipeScript.Fault
import PipeScript.Proofs.Number.IntegerText

/-! # Loose equality

Two values are compared by coercing one of them and comparing again, until they are of kinds that
have an answer: `Compares` says which value gives way, and the left one does so first.  A container
beside a scalar has to have a text, so an integer of too many digits in it is a fault.

The comparison ends after two coercions at most, in the one outcome that `outcome` gives, which is
that of `Value.looseEq` unless a text is lacking (`compares_iff`).  The sides do not matter: the
coercions are as many, and the outcome is the same (`looseEq_symmetric`). -/

namespace PipeScript.Proofs.Value.LooseEquality

open PipeScript.Proofs.Number.IntegerText

/-! ### Comparing by coercions -/

/-- The number that a boolean counts as. -/
def countOf (x : Bool) : Value := .int (if x then 1 else 0)

def isBool : Value → Bool
  | .bool _ => true
  | _ => false

/-- A value that a container is compared with by its text: a scalar other than null and the
booleans. -/
structure Plain (b : Value) : Prop where
  isContainer : b.isContainer = false
  isNull : b.isNull = false
  isBool : isBool b = false

/-- Two values are compared in so many coercions, with an outcome.  `same` tells whether two
containers are one and the same. -/
inductive Compares (same : Bool) : ℕ → Value → Value → Except Fault Bool → Prop where
  /-- Null equals null only. -/
  | null {a b : Value} (h : (a.isNull || b.isNull) = true) :
      Compares same 0 a b (.ok (a.isNull && b.isNull))
  | boolLeft {x : Bool} {b : Value} {n : ℕ} {r : Except Fault Bool} (hb : b.isNull = false)
      (h : Compares same n (countOf x) b r) : Compares same (n + 1) (.bool x) b r
  | boolRight {a : Value} {x : Bool} {n : ℕ} {r : Except Fault Bool} (ha : a.isNull = false)
      (hbool : isBool a = false) (h : Compares same n a (countOf x) r) :
      Compares same (n + 1) a (.bool x) r
  | numbers (i j : Number) : Compares same 0 (.number i) (.number j) (.ok (i.eq j))
  | texts (s t : String) : Compares same 0 (.text s) (.text t) (.ok (s == t))
  | numberText (i : Number) (t : String) :
      Compares same 0 (.number i) (.text t) (.ok (i.eq (.ofText t)))
  | textNumber (s : String) (j : Number) :
      Compares same 0 (.text s) (.number j) (.ok ((Number.ofText s).eq j))
  /-- Two containers are told apart as objects. -/
  | containers {a b : Value} (ha : a.isContainer = true) (hb : b.isContainer = true) :
      Compares same 0 a b (.ok same)
  | textLeft {a b : Value} {n : ℕ} {r : Except Fault Bool} (ha : a.isContainer = true)
      (hb : Plain b) (hshort : a.hasLongText = false) (h : Compares same n (.text a.asText) b r) :
      Compares same (n + 1) a b r
  | longLeft {a b : Value} (ha : a.isContainer = true) (hb : Plain b)
      (hlong : a.hasLongText = true) : Compares same 0 a b (.error (.digitLimit none))
  | textRight {a b : Value} {n : ℕ} {r : Except Fault Bool} (hb : b.isContainer = true)
      (ha : Plain a) (hshort : b.hasLongText = false) (h : Compares same n a (.text b.asText) r) :
      Compares same (n + 1) a b r
  | longRight {a b : Value} (hb : b.isContainer = true) (ha : Plain a)
      (hlong : b.hasLongText = true) : Compares same 0 a b (.error (.digitLimit none))
  /-- A point in time equals no scalar. -/
  | momentLeft (m : Moment) {s : Scalar} (hs : Plain (.scalar s)) :
      Compares same 0 (.scalar (.moment m)) (.scalar s) (.ok false)
  | momentRight {s : Scalar} (m : Moment) (hs : Plain (.scalar s)) :
      Compares same 0 (.scalar s) (.scalar (.moment m)) (.ok false)

/-! ### The outcome -/

/-- A container is compared by its text. -/
def asked (a b : Value) : Bool := a.isContainer && !(b.isContainer || b.isNull)

/-- How many coercions a comparison takes. -/
def coercions (a b : Value) : ℕ :=
  if a.isNull || b.isNull then 0
  else (isBool a).toNat + (isBool b).toNat + (asked a b && !a.hasLongText).toNat +
    (asked b a && !b.hasLongText).toNat

/-- What a comparison ends in: the fault of a text that is lacking, or loose equality. -/
def outcome (same : Bool) (a b : Value) : Except Fault Bool :=
  if asked a b && a.hasLongText || asked b a && b.hasLongText then .error (.digitLimit none)
  else .ok (a.looseEq same b)

theorem scalar_looseEq_comm (s t : Scalar) : s.looseEq t = t.looseEq s := by
  rcases s with _ | x | i | s | m <;> rcases t with _ | y | j | t | m'
  all_goals first | rfl | exact eq_swap _ _ | exact Bool.beq_comm

/-- Loose equality does not see the sides. -/
theorem looseEq_comm (same : Bool) (a b : Value) : a.looseEq same b = b.looseEq same a := by
  unfold Value.looseEq
  rw [Bool.or_comm, Bool.and_comm a.isNull, Bool.and_comm a.isContainer, scalar_looseEq_comm]

theorem coercions_comm (a b : Value) : coercions a b = coercions b a := by
  unfold coercions
  rw [Bool.or_comm, Nat.add_right_comm, Nat.add_comm (isBool a).toNat]

theorem outcome_comm (same : Bool) (a b : Value) : outcome same a b = outcome same b a := by
  unfold outcome
  rw [Bool.or_comm, looseEq_comm]

/-! ### What a coercion changes -/

section Null

variable {a b : Value} (h : (a.isNull || b.isNull) = true)
include h

theorem asked_null : asked a b = false := by
  unfold asked
  rcases (Bool.or_eq_true _ _).mp h with ha | hb
  · rcases a with (_ | _ | _ | _ | _) | items | entries
    all_goals first | rfl | cases ha
  · rw [hb, Bool.or_true, Bool.not_true, Bool.and_false]

theorem coercions_null : coercions a b = 0 := if_pos h

theorem outcome_null (same : Bool) : outcome same a b = .ok (a.isNull && b.isNull) := by
  have hba : (b.isNull || a.isNull) = true := by rwa [Bool.or_comm]
  unfold outcome Value.looseEq
  rw [asked_null h, asked_null hba, if_pos h]
  rfl

end Null

section Boolean

variable (x : Bool) (b : Value)

theorem coercions_bool (hb : b.isNull = false) :
    coercions (.bool x) b = coercions (countOf x) b + 1 := by
  have hbool : coercions (.bool x) b = 1 + (isBool b).toNat + 0 +
      (asked b (.bool x) && !b.hasLongText).toNat := if_neg (by rw [hb]; exact Bool.false_ne_true)
  have hcount : coercions (countOf x) b = 0 + (isBool b).toNat + 0 +
      (asked b (.bool x) && !b.hasLongText).toNat := if_neg (by rw [hb]; exact Bool.false_ne_true)
  omega

theorem outcome_bool (same : Bool) : outcome same (.bool x) b = outcome same (countOf x) b := by
  have hbool : asked (.bool x) b = false := rfl
  have hcount : asked (countOf x) b = false := rfl
  have hother : asked b (.bool x) = asked b (countOf x) := rfl
  have hequal : (Value.bool x).looseEq same b = (countOf x).looseEq same b := rfl
  unfold outcome
  rw [hbool, hcount, hother, hequal, Bool.false_and, Bool.false_and]

end Boolean

section Container

variable {a b : Value} (ha : a.isContainer = true) (hb : Plain b)
include ha

theorem isNull_of_isContainer : a.isNull = false := by
  cases a with
  | scalar s => cases ha
  | list items => rfl
  | dict entries => rfl

theorem isBool_of_isContainer : isBool a = false := by
  cases a with
  | scalar s => cases ha
  | list items => rfl
  | dict entries => rfl

theorem comparand_of_isContainer : a.comparand = .text a.asText := by
  cases a with
  | scalar s => cases ha
  | list items => rfl
  | dict entries => rfl

include hb

theorem asked_of_isContainer : asked a b = true ∧ asked b a = false := by
  unfold asked
  rw [ha, hb.isContainer, hb.isNull]
  exact ⟨rfl, rfl⟩

theorem coercions_container : coercions a b = (!a.hasLongText).toNat := by
  obtain ⟨hask, hask'⟩ := asked_of_isContainer ha hb
  unfold coercions
  rw [isNull_of_isContainer ha, hb.isNull, isBool_of_isContainer ha, hb.isBool, hask, hask']
  simp

theorem outcome_long (same : Bool) (hlong : a.hasLongText = true) :
    outcome same a b = .error (.digitLimit none) := by
  unfold outcome
  rw [(asked_of_isContainer ha hb).1, hlong]
  rfl

theorem outcome_text (same : Bool) (hshort : a.hasLongText = false) :
    outcome same a b = outcome same (.text a.asText) b := by
  obtain ⟨hask, hask'⟩ := asked_of_isContainer ha hb
  have htext : asked (.text a.asText) b = false := rfl
  have htext' : asked b (.text a.asText) = false := by
    unfold asked
    rw [hb.isContainer]
    rfl
  unfold outcome Value.looseEq
  rw [hask, hask', hshort, htext, htext', isNull_of_isContainer ha, hb.isNull, hb.isContainer,
    comparand_of_isContainer ha]
  simp [Value.isNull, Value.comparand]

end Container

/-- A value gives way once at most. -/
theorem coercions_side (a b : Value) :
    (isBool a).toNat + (asked a b && !a.hasLongText).toNat ≤ 1 := by
  rcases a with s | items | entries
  · exact Bool.toNat_le _
  · exact (Nat.zero_add _).trans_le (Bool.toNat_le _)
  · exact (Nat.zero_add _).trans_le (Bool.toNat_le _)

theorem coercions_le_two (a b : Value) : coercions a b ≤ 2 := by
  have ha := coercions_side a b
  have hb := coercions_side b a
  unfold coercions
  split_ifs <;> omega

/-! ### Every comparison ends -/

section Plain

variable {a b : Value} (ha : Plain a) (hb : Plain b)
include ha hb

theorem coercions_plain : coercions a b = 0 := by
  unfold coercions asked
  rw [ha.isNull, hb.isNull, ha.isBool, hb.isBool, ha.isContainer, hb.isContainer]
  rfl

theorem outcome_plain (same : Bool) :
    outcome same a b = .ok (a.comparand.looseEq b.comparand) := by
  unfold outcome asked Value.looseEq
  rw [ha.isNull, hb.isNull, ha.isContainer, hb.isContainer]
  rfl

omit hb in
theorem exists_of_plain :
    (∃ i, a = .number i) ∨ (∃ s, a = .text s) ∨ ∃ m, a = .scalar (.moment m) := by
  rcases a with (_ | x | i | s | m) | items | entries
  · cases ha.isNull
  · cases ha.isBool
  · exact .inl ⟨i, rfl⟩
  · exact .inr (.inl ⟨s, rfl⟩)
  · exact .inr (.inr ⟨m, rfl⟩)
  · cases ha.isContainer
  · cases ha.isContainer

theorem compares_plain (same : Bool) : Compares same 0 a b (outcome same a b) := by
  rw [outcome_plain ha hb]
  rcases exists_of_plain ha with ⟨i, rfl⟩ | ⟨s, rfl⟩ | ⟨m, rfl⟩
  · rcases exists_of_plain hb with ⟨j, rfl⟩ | ⟨t, rfl⟩ | ⟨m, rfl⟩
    · exact .numbers i j
    · exact .numberText i t
    · exact .momentRight m ha
  · rcases exists_of_plain hb with ⟨j, rfl⟩ | ⟨t, rfl⟩ | ⟨m, rfl⟩
    · exact .textNumber s j
    · exact .texts s t
    · exact .momentRight m ha
  · rcases exists_of_plain hb with ⟨j, rfl⟩ | ⟨t, rfl⟩ | ⟨m', rfl⟩
    · exact .momentLeft m hb
    · exact .momentLeft m hb
    · exact .momentLeft m hb

end Plain

section Containers

variable {a b : Value} (ha : a.isContainer = true) (hb : b.isContainer = true)
include ha hb

omit ha in
theorem asked_containers : asked a b = false := by
  unfold asked
  rw [hb, Bool.true_or, Bool.not_true, Bool.and_false]

theorem coercions_containers : coercions a b = 0 := by
  unfold coercions
  rw [isNull_of_isContainer ha, isNull_of_isContainer hb, isBool_of_isContainer ha,
    isBool_of_isContainer hb, asked_containers hb, asked_containers ha]
  rfl

theorem outcome_containers (same : Bool) : outcome same a b = .ok same := by
  unfold outcome Value.looseEq
  rw [isNull_of_isContainer ha, isNull_of_isContainer hb, asked_containers hb,
    asked_containers ha, ha, hb]
  rfl

end Containers

theorem plain_text (s : String) : Plain (.text s) := ⟨rfl, rfl, rfl⟩

/-- What is neither null nor a boolean is a container or plain. -/
theorem container_or_plain {a : Value} (hnull : a.isNull = false) (hbool : isBool a = false) :
    a.isContainer = true ∨ Plain a := by
  cases hcontainer : a.isContainer with
  | true => exact .inl rfl
  | false => exact .inr ⟨hcontainer, hnull, hbool⟩

/-- A container beside a plain value, on the left or on the right. -/
theorem compares_container {a b : Value} (ha : a.isContainer = true) (hb : Plain b)
    (same : Bool) :
    Compares same (coercions a b) a b (outcome same a b) ∧
      Compares same (coercions b a) b a (outcome same b a) := by
  rw [coercions_comm b a, outcome_comm same b a, coercions_container ha hb]
  cases hlong : a.hasLongText with
  | true =>
    rw [outcome_long ha hb same hlong]
    exact ⟨.longLeft ha hb hlong, .longRight ha hb hlong⟩
  | false =>
    rw [outcome_text ha hb same hlong]
    refine ⟨.textLeft ha hb hlong (compares_plain (plain_text _) hb same),
      .textRight ha hb hlong ?_⟩
    rw [outcome_comm]
    exact compares_plain hb (plain_text _) same

theorem compares_kinds {a b : Value} (ha : a.isContainer = true ∨ Plain a)
    (hb : b.isContainer = true ∨ Plain b) (same : Bool) :
    Compares same (coercions a b) a b (outcome same a b) := by
  rcases ha with ha | ha <;> rcases hb with hb | hb
  · rw [coercions_containers ha hb, outcome_containers ha hb]
    exact .containers ha hb
  · exact (compares_container ha hb same).1
  · exact (compares_container hb ha same).2
  · rw [coercions_plain ha hb]
    exact compares_plain ha hb same

theorem eq_bool_of_isBool {a : Value} (h : isBool a = true) : ∃ x, a = .bool x := by
  rcases a with (_ | x | _ | _ | _) | _ | _
  all_goals first | exact ⟨x, rfl⟩ | cases h

/-- **Every comparison ends**, in the outcome and with the coercions that the two values say. -/
theorem compares_outcome (same : Bool) (a b : Value) :
    Compares same (coercions a b) a b (outcome same a b) := by
  cases hnull : a.isNull || b.isNull with
  | true =>
    rw [coercions_null hnull, outcome_null hnull]
    exact .null hnull
  | false =>
    obtain ⟨ha, hb⟩ := (Bool.or_eq_false_iff).mp hnull
    have hcount : ∀ x, (countOf x).isContainer = true ∨ Plain (countOf x) := fun x =>
      .inr ⟨rfl, rfl, rfl⟩
    -- the right side is settled first, for every left side that is no boolean
    have hright : ∀ {a}, a.isNull = false → isBool a = false →
        Compares same (coercions a b) a b (outcome same a b) := by
      intro a ha hbool
      cases hb' : isBool b with
      | true =>
        obtain ⟨y, rfl⟩ := eq_bool_of_isBool hb'
        rw [coercions_comm, coercions_bool y a ha, coercions_comm, outcome_comm, outcome_bool,
          outcome_comm]
        exact .boolRight ha hbool (compares_kinds (container_or_plain ha hbool) (hcount y) same)
      | false =>
        exact compares_kinds (container_or_plain ha hbool) (container_or_plain hb hb') same
    cases ha' : isBool a with
    | true =>
      obtain ⟨x, rfl⟩ := eq_bool_of_isBool ha'
      rw [coercions_bool x b hb, outcome_bool]
      exact .boolLeft hb (hright rfl rfl)
    | false => exact hright ha ha'

/-- **No comparison ends otherwise.** -/
theorem eq_of_compares {same : Bool} {n : ℕ} {a b : Value} {r : Except Fault Bool}
    (h : Compares same n a b r) : n = coercions a b ∧ r = outcome same a b := by
  induction h with
  | null h => exact ⟨(coercions_null h).symm, (outcome_null h same).symm⟩
  | @boolLeft x b n r hb h ih =>
    rw [coercions_bool x b hb, outcome_bool, ← ih.1]
    exact ⟨rfl, ih.2⟩
  | @boolRight a x n r ha hbool h ih =>
    rw [coercions_comm, coercions_bool x a ha, coercions_comm, ← ih.1, outcome_comm, outcome_bool,
      outcome_comm]
    exact ⟨rfl, ih.2⟩
  | numbers i j => exact ⟨rfl, rfl⟩
  | texts s t => exact ⟨rfl, rfl⟩
  | numberText i t => exact ⟨rfl, rfl⟩
  | textNumber s j => exact ⟨rfl, rfl⟩
  | containers ha hb =>
    exact ⟨(coercions_containers ha hb).symm, (outcome_containers ha hb same).symm⟩
  | textLeft ha hb hshort h ih =>
    rw [coercions_container ha hb, outcome_text ha hb same hshort, hshort, ih.1,
      coercions_plain (plain_text _) hb]
    exact ⟨rfl, ih.2⟩
  | longLeft ha hb hlong =>
    rw [coercions_container ha hb, outcome_long ha hb same hlong, hlong]
    exact ⟨rfl, rfl⟩
  | textRight hb ha hshort h ih =>
    rw [coercions_comm, coercions_container hb ha, outcome_comm, outcome_text hb ha same hshort,
      hshort, ih.1, coercions_plain ha (plain_text _), outcome_comm]
    exact ⟨rfl, ih.2⟩
  | longRight hb ha hlong =>
    rw [coercions_comm, coercions_container hb ha, outcome_comm, outcome_long hb ha same hlong,
      hlong]
    exact ⟨rfl, rfl⟩
  | momentLeft m hs =>
    rw [coercions_plain ⟨rfl, rfl, rfl⟩ hs, outcome_plain ⟨rfl, rfl, rfl⟩ hs]
    exact ⟨rfl, rfl⟩
  | @momentRight s m hs =>
    rw [coercions_plain hs ⟨rfl, rfl, rfl⟩, outcome_plain hs ⟨rfl, rfl, rfl⟩]
    refine ⟨rfl, ?_⟩
    cases s <;> rfl

theorem compares_iff {same : Bool} {n : ℕ} {a b : Value} {r : Except Fault Bool} :
    Compares same n a b r ↔ n = coercions a b ∧ r = outcome same a b := by
  refine ⟨eq_of_compares, ?_⟩
  rintro ⟨rfl, rfl⟩
  exact compares_outcome same a b

/-- **Loose equality is symmetric**: whatever the two values are, comparing them the other way round
takes as many coercions, which are two at most, and has the same outcome.  There is exactly one
outcome, and it is that of loose equality unless the text of a container is lacking. -/
theorem looseEq_symmetric (same : Bool) (a b : Value) :
    a.looseEq same b = b.looseEq same a ∧
      (∀ n r, Compares same n a b r ↔ Compares same n b a r) ∧
      (∀ n r, Compares same n a b r ↔ n = coercions a b ∧ r = outcome same a b) ∧
      coercions a b ≤ 2 := by
  refine ⟨looseEq_comm same a b, fun n r => ?_, fun n r => compares_iff, coercions_le_two a b⟩
  rw [compares_iff, compares_iff, coercions_comm, outcome_comm]

end PipeScript.Proofs.Value.LooseEquality
