import PipeScript.Yaml.Content
import Mathlib.Data.Nat.Notation
import Mathlib.Tactic.SplitIfs

/-! # Which part of a document counts

A value is built from the parts of a node: its texts, each with the kind that it must have the form
of, and the containers where none may stand (`partsAt`).  The node has a value exactly when all of
them denote something.  If some do not, the failure of the node is that of the first part among the
outermost ones (`valueAt_accounts`). -/

namespace PipeScript.Proofs.Yaml.Values

open PipeScript.Yaml

/-! ### Parts -/

/-- What a place of a document must denote a value with. -/
inductive Part where
  /-- A text, by its kind. -/
  | text (kind : Kind) (cs : List Char)
  /-- A container where none of its kind may stand. -/
  | misfit

/-- Why a part denotes nothing. -/
def Part.failure? : Part → Option Failure
  | .text kind cs =>
    match scalarOf kind cs with
    | .ok _ => none
    | .error failure => some failure
  | .misfit => some .malformed

/-- The part that a node is where no container may stand: a text, or the text that stands for a
dictionary. -/
def simplePart : Node → Part
  | .scalar kind cs => .text kind cs
  | .dict _ kind pairs =>
    match Node.standIn? pairs with
    | some cs => if kind.isSimple then .text kind cs else .misfit
    | none => .misfit
  | _ => .misfit

/-- The parts of a key; the key of a stand-in item is a text whatever it says. -/
def keyPartsAt (depth : ℕ) : Node → List (ℕ × Part)
  | .scalar .standIn _ => []
  | node => [(depth, simplePart node)]

mutual

/-- The parts of a node in a container of a depth, as they stand in the document, each with the
depth of the container that it lies in. -/
def partsAt (depth : ℕ) : Node → List (ℕ × Part)
  | .scalar kind cs =>
    if kind = .list || kind = .dict then [(depth + 1, .misfit)] else [(depth, .text kind cs)]
  | .list _ kind items =>
    if kind = .list then itemPartsAt (depth + 1) items
    else [(if kind = .dict then depth + 1 else depth, .misfit)]
  | .dict node kind pairs =>
    if kind = .dict then pairPartsAt (depth + 1) pairs
    else if kind = .list then [(depth + 1, .misfit)]
    else [(depth, simplePart (.dict node kind pairs))]
  | .unmergeable => [(depth + 1, .misfit)]

def itemPartsAt (depth : ℕ) : List Node → List (ℕ × Part)
  | [] => []
  | item :: rest => partsAt depth item ++ itemPartsAt depth rest

def pairPartsAt (depth : ℕ) : List (Node × Node) → List (ℕ × Part)
  | [] => []
  | (key, item) :: rest => keyPartsAt depth key ++ partsAt depth item ++ pairPartsAt depth rest

end

/-! ### The first of the outermost failures -/

/-- Every part denotes something. -/
def Sound (parts : List (ℕ × Part)) : Prop := ∀ p ∈ parts, p.2.failure? = none

/-- The failure of the first part among the outermost ones that denote nothing. -/
def Foremost (depth : ℕ) (failure : Failure) (parts : List (ℕ × Part)) : Prop :=
  ∃ before part after, parts = before ++ (depth, part) :: after ∧ part.failure? = some failure ∧
    (∀ p ∈ before, p.2.failure? ≠ none → depth < p.1) ∧
    ∀ p ∈ after, p.2.failure? ≠ none → depth ≤ p.1

/-- All parts that denote nothing lie in containers of a depth at least. -/
theorem Foremost.least {depth : ℕ} {failure : Failure} {parts : List (ℕ × Part)}
    (h : Foremost depth failure parts) : ∀ p ∈ parts, p.2.failure? ≠ none → depth ≤ p.1 := by
  obtain ⟨before, part, after, rfl, -, hbefore, hafter⟩ := h
  intro p hp hfails
  rcases List.mem_append.mp hp with hp | hp
  · exact Nat.le_of_lt (hbefore p hp hfails)
  · rcases List.mem_cons.mp hp with rfl | hp
    · exact Nat.le_refl _
    · exact hafter p hp hfails

theorem Foremost.not_sound {depth : ℕ} {failure : Failure} {parts : List (ℕ × Part)}
    (h : Foremost depth failure parts) : ¬ Sound parts := by
  obtain ⟨before, part, after, rfl, hpart, -, -⟩ := h
  intro hsound
  have hnone : part.failure? = none := hsound (depth, part) (by simp)
  rw [hpart] at hnone
  cases hnone

section Append

variable {depth depth' : ℕ} {failure failure' : Failure} {parts parts' : List (ℕ × Part)}

theorem Sound.append (h : Sound parts) (h' : Sound parts') : Sound (parts ++ parts') := by
  intro p hp
  rcases List.mem_append.mp hp with hp | hp
  · exact h p hp
  · exact h' p hp

/-- A failure before others that lie no further out. -/
theorem Foremost.append (h : Foremost depth failure parts)
    (h' : ∀ p ∈ parts', p.2.failure? ≠ none → depth ≤ p.1) :
    Foremost depth failure (parts ++ parts') := by
  obtain ⟨before, part, after, rfl, hpart, hbefore, hafter⟩ := h
  refine ⟨before, part, after ++ parts', by simp, hpart, hbefore, fun p hp => ?_⟩
  rcases List.mem_append.mp hp with hp | hp
  · exact hafter p hp
  · exact h' p hp

/-- A failure behind others that lie further in. -/
theorem Foremost.prepend (h' : Foremost depth failure parts')
    (h : ∀ p ∈ parts, p.2.failure? ≠ none → depth < p.1) :
    Foremost depth failure (parts ++ parts') := by
  obtain ⟨before, part, after, rfl, hpart, hbefore, hafter⟩ := h'
  refine ⟨parts ++ before, part, after, by simp, hpart, fun p hp => ?_, hafter⟩
  rcases List.mem_append.mp hp with hp | hp
  · exact h p hp
  · exact hbefore p hp

end Append

/-- Two elements that a list is cut at are the same if none of them stands before the other. -/
theorem eq_of_cuts {α : Type} {x y : α} {front front' back back' : List α}
    (h : front ++ x :: back = front' ++ y :: back') (hx : x ∉ front') (hy : y ∉ front) : x = y := by
  induction front generalizing front' with
  | nil =>
    cases front' with
    | nil => exact (List.cons.inj h).1
    | cons z front' =>
      obtain ⟨rfl, -⟩ := List.cons.inj h
      exact absurd (List.mem_cons_self ..) hx
  | cons z front ih =>
    cases front' with
    | nil =>
      obtain ⟨rfl, -⟩ := List.cons.inj h
      exact absurd (List.mem_cons_self ..) hy
    | cons z' front' =>
      exact ih (List.cons.inj h).2 (fun hmem => hx (List.mem_cons_of_mem _ hmem))
        fun hmem => hy (List.mem_cons_of_mem _ hmem)

/-- **There is one foremost failure.** -/
theorem Foremost.unique {depth depth' : ℕ} {failure failure' : Failure} {parts : List (ℕ × Part)}
    (h : Foremost depth failure parts) (h' : Foremost depth' failure' parts) :
    depth = depth' ∧ failure = failure' := by
  have hleast := h.least
  have hleast' := h'.least
  obtain ⟨before, part, after, heq, hpart, hbefore, -⟩ := h
  obtain ⟨before', part', after', heq', hpart', hbefore', -⟩ := h'
  have hfails : part.failure? ≠ none := by simp [hpart]
  have hfails' : part'.failure? ≠ none := by simp [hpart']
  have hdepth : depth = depth' := by
    have hle := hleast (depth', part') (by simp [heq']) hfails'
    have hge := hleast' (depth, part) (by simp [heq]) hfails
    exact Nat.le_antisymm hle hge
  subst hdepth
  have hnot : (depth, part) ∉ before' := fun hmem =>
    absurd (hbefore' _ hmem hfails) (Nat.lt_irrefl _)
  have hnot' : (depth, part') ∉ before := fun hmem =>
    absurd (hbefore _ hmem hfails') (Nat.lt_irrefl _)
  have hsame := eq_of_cuts (heq.symm.trans heq') hnot hnot'
  cases hsame
  rw [hpart] at hpart'
  exact ⟨rfl, Option.some.inj hpart'⟩

/-! ### Building values -/

/-- A result accounts for parts: it is a value if all of them denote something, and fails with the
foremost of their failures otherwise. -/
def Accounts {α : Type} (result : Built α) (parts : List (ℕ × Part)) : Prop :=
  match result with
  | .ok _ => Sound parts
  | .error (depth, failure) => Foremost depth failure parts

theorem accounts_map {α β : Type} {result : Built α} {parts : List (ℕ × Part)}
    (h : Accounts result parts) (f : α → β) : Accounts (result.map f) parts := by
  cases result with
  | ok x => exact h
  | error e => exact h

/-- **Two results together account for the parts of both.** -/
theorem accounts_both {α β γ : Type} {first : Built α} {second : Built β}
    {parts parts' : List (ℕ × Part)} (h : Accounts first parts) (h' : Accounts second parts')
    (f : α → β → γ) : Accounts (Built.both f first second) (parts ++ parts') := by
  rcases first with ⟨depth, failure⟩ | x <;> rcases second with ⟨depth', failure'⟩ | y
  · have hfirst : Foremost depth failure parts := h
    have hsecond : Foremost depth' failure' parts' := h'
    unfold Built.both
    dsimp only
    split_ifs with hlt
    · exact hsecond.prepend fun p hp hfails => Nat.lt_of_lt_of_le hlt (hfirst.least p hp hfails)
    · exact hfirst.append fun p hp hfails =>
        Nat.le_trans (Nat.not_lt.mp hlt) (hsecond.least p hp hfails)
  · have hfirst : Foremost depth failure parts := h
    have hsecond : Sound parts' := h'
    exact hfirst.append fun p hp hfails => absurd (hsecond p hp) hfails
  · have hfirst : Sound parts := h
    have hsecond : Foremost depth' failure' parts' := h'
    exact hsecond.prepend fun p hp hfails => absurd (hfirst p hp) hfails
  · exact Sound.append h h'

theorem accounts_misfit (depth : ℕ) {α : Type} :
    Accounts (.error (depth, .malformed) : Built α) [(depth, .misfit)] :=
  ⟨[], .misfit, [], rfl, rfl, by simp, by simp⟩

/-- A text is built as its kind says. -/
theorem accounts_text (depth : ℕ) (kind : Kind) (cs : List Char) :
    Accounts ((scalarOf kind cs).mapError fun failure => (depth, failure))
      [(depth, .text kind cs)] := by
  cases hscalar : scalarOf kind cs with
  | ok s =>
    have hnone : (Part.text kind cs).failure? = none := by
      simp only [Part.failure?, hscalar]
    intro p hp
    rw [List.mem_singleton.mp hp]
    exact hnone
  | error failure =>
    have hsome : (Part.text kind cs).failure? = some failure := by
      simp only [Part.failure?, hscalar]
    exact ⟨[], .text kind cs, [], rfl, hsome, by simp, by simp⟩

theorem scalarAt_accounts (depth : ℕ) (node : Node) :
    Accounts (node.scalarAt depth) [(depth, simplePart node)] := by
  unfold Node.scalarAt simplePart
  dsimp only
  cases node with
  | scalar kind cs => exact accounts_text depth kind cs
  | list _ kind items => exact accounts_misfit depth
  | unmergeable => exact accounts_misfit depth
  | dict _ kind pairs =>
    dsimp only
    cases Node.standIn? pairs with
    | none => exact accounts_misfit depth
    | some cs =>
      dsimp only
      split_ifs
      · exact accounts_text depth kind cs
      · exact accounts_misfit depth

theorem keyAt_accounts (depth : ℕ) (key : Node) :
    Accounts (key.keyAt depth) (keyPartsAt depth key) := by
  by_cases hstandIn : ∃ cs, key = .scalar .standIn cs
  · obtain ⟨cs, rfl⟩ := hstandIn
    intro p hp
    cases hp
  · have hother : ∀ cs, key = .scalar .standIn cs → False := fun cs h => hstandIn ⟨cs, h⟩
    rw [Node.keyAt.eq_2 depth key hother, keyPartsAt.eq_2 depth key hother]
    exact scalarAt_accounts depth key

mutual

/-- **The value of a node** accounts for its parts. -/
theorem valueAt_accounts (depth : ℕ) :
    (node : Node) → Accounts (node.valueAt depth) (partsAt depth node)
  | .scalar kind cs => by
    unfold Node.valueAt partsAt
    split_ifs
    · exact accounts_misfit (depth + 1)
    · exact accounts_map (scalarAt_accounts depth (.scalar kind cs)) _
  | .list _ kind items => by
    unfold Node.valueAt partsAt
    split_ifs
    · exact accounts_map (itemsAt_accounts (depth + 1) items) _
    · exact accounts_misfit (depth + 1)
    · exact accounts_misfit depth
  | .dict node kind pairs => by
    unfold Node.valueAt partsAt
    split_ifs
    · exact accounts_map (pairsAt_accounts (depth + 1) pairs) _
    · exact accounts_misfit (depth + 1)
    · exact accounts_map (scalarAt_accounts depth (.dict node kind pairs)) _
  | .unmergeable => by
    unfold Node.valueAt partsAt
    exact accounts_misfit (depth + 1)

theorem itemsAt_accounts (depth : ℕ) :
    (items : List Node) → Accounts (Node.itemsAt depth items) (itemPartsAt depth items)
  | [] => by
    unfold Node.itemsAt itemPartsAt
    intro p hp
    cases hp
  | item :: rest => by
    unfold Node.itemsAt itemPartsAt
    exact accounts_both (valueAt_accounts depth item) (itemsAt_accounts depth rest) _

theorem pairsAt_accounts (depth : ℕ) :
    (pairs : List (Node × Node)) → Accounts (Node.pairsAt depth pairs) (pairPartsAt depth pairs)
  | [] => by
    unfold Node.pairsAt pairPartsAt
    intro p hp
    cases hp
  | (key, item) :: rest => by
    unfold Node.pairsAt pairPartsAt
    exact accounts_both
      (accounts_both (keyAt_accounts depth key) (valueAt_accounts depth item) _)
      (pairsAt_accounts depth rest) _

end

/-! ### Texts that denote nothing -/

/-- A foremost failure that is not about the form of the document is that of a text. -/
theorem Foremost.exists_text {depth : ℕ} {fault : Fault} {parts : List (ℕ × Part)}
    (h : Foremost depth (.meaningless fault) parts) :
    ∃ kind cs, (depth, .text kind cs) ∈ parts ∧ scalarOf kind cs = .error (.meaningless fault) := by
  obtain ⟨before, part, after, rfl, hpart, -, -⟩ := h
  cases part with
  | misfit => cases hpart
  | text kind cs =>
    refine ⟨kind, cs, by simp, ?_⟩
    unfold Part.failure? at hpart
    dsimp only at hpart
    split at hpart
    · cases hpart
    · next failure hscalar =>
      cases hpart
      exact hscalar

/-- Only booleans, numbers and timestamps have forms that denote nothing. -/
theorem kind_of_meaningless {kind : Kind} {cs : List Char} {fault : Fault}
    (h : scalarOf kind cs = .error (.meaningless fault)) :
    kind ∈ [.bool, .int, .float, .moment] := by
  cases kind with
  | bool | int | float | moment => simp
  | null | text | list | dict | merge | standIn | unknown => cases h

end PipeScript.Proofs.Yaml.Values
