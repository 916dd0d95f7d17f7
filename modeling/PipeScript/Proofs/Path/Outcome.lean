import PipeScript.Proofs.Path.RoundTrip

/-! # What a write leaves

A write that gets through leaves a value, and one that gets stuck leaves none that counts
(`write?`).  At every token but the last a write gets stuck, goes on in a new part, which it puts
under the token at the end, or goes on in the part that is there (`Move`, `writeInside?_cons`). -/

namespace PipeScript.Proofs.Path.Outcome

open PipeScript.Value PipeScript.Path
open PipeScript.Proofs.Path.RoundTrip

/-- What a write has left, if it got through. -/
def outcome? : Written → Option Value
  | (updated, none) => some updated
  | (_, some _) => none

/-- What a write inside a value leaves. -/
def writeInside? (container : Value) (path : Path) (value : Value) : Option Value :=
  outcome? (container.setInside path value)

/-- What a write leaves. -/
def write? (collection : Value) (path : Path) (value : Value) : Option Value :=
  outcome? (collection.setAt path value)

theorem outcome?_eq_some_iff {w : Written} {updated : Value} :
    outcome? w = some updated ↔ w = (updated, none) := by
  obtain ⟨v, _ | fault⟩ := w <;> simp [outcome?]

theorem outcome?_eq_none_iff {w : Written} : outcome? w = none ↔ ∃ fault, w.2 = some fault := by
  obtain ⟨v, _ | fault⟩ := w <;> simp [outcome?]

/-! ### One token -/

/-- How a write goes on under a token. -/
inductive Move where
  | stuck
  | fresh (part : Value)
  | into (part : Value)

/-- How a write goes on with the part that is under its token. -/
def moveTo (next : Value) : Except Fault (Option Value) → Move
  | .error _ => .stuck
  | .ok none => .fresh (emptyFor next)
  | .ok (some .null) => .fresh (emptyFor next)
  | .ok (some (.text s)) =>
    match Json.parse? s with
    | some part => .fresh part
    | none => .stuck
  | .ok (some part) => .into part

theorem outcome?_putThen (container token part : Value) (path : Path) (value : Value) :
    outcome? (container.putThen token part fun part => part.setInside path value) =
      (writeInside? part path value).bind fun inner => (container.put token inner).toOption := by
  unfold writeInside? putThen
  rcases hbefore : container.put token part with fault | before
  · -- what can be put does not depend on the part
    have hnever : ∀ other, (container.put token other).toOption = none := by
      intro other
      rcases hother : container.put token other with fault | after
      · rfl
      · obtain ⟨again, hagain⟩ := put_again hother part
        rw [put_put hother, hbefore] at hagain
        cases hagain
    rcases houtcome : outcome? (part.setInside path value) with _ | inner
    · rfl
    · exact (hnever inner).symm
  · dsimp only
    rcases hinner : part.setInside path value with ⟨inner, _ | fault⟩
    · obtain ⟨again, hagain⟩ := put_again hbefore inner
      have hput : container.put token inner = .ok again := (put_put hbefore inner).symm.trans hagain
      dsimp only
      rw [putOrKeep_of_put hagain, outcome?, outcome?, Option.bind_some, hput]
      rfl
    · rfl

theorem writeInside?_singleton (container token value : Value) :
    writeInside? container [token] value = (container.put token value).toOption := by
  unfold writeInside?
  rw [setInside]
  rcases container.put token value with fault | updated <;> rfl

/-- **One step of a write.** -/
theorem writeInside?_cons (container token next : Value) (rest : Path) (value : Value) :
    writeInside? container (token :: next :: rest) value =
      match moveTo next (container.exactPart? token) with
      | .stuck => none
      | .fresh part => (writeInside? part (next :: rest) value).bind fun inner =>
          (container.put token inner).toOption
      | .into part => (writeInside? part (next :: rest) value).map (container.putOrKeep token) := by
  have hfresh := outcome?_putThen container token
  unfold writeInside? at hfresh ⊢
  rw [setInside]
  split
  · next hpart =>
    rw [hpart]
    rfl
  · next hpart =>
    rw [hpart]
    exact hfresh _ _ _
  · next hpart =>
    rw [hpart]
    exact hfresh _ _ _
  · next s hpart =>
    rw [hpart, moveTo]
    rcases Json.parse? s with _ | part
    · exact outcome?_eq_none_iff.mpr
        (Option.ne_none_iff_exists'.mp (setInside_scalar (.text s) (next :: rest) value))
    · exact hfresh _ _ _
  · next part hnull htext hpart =>
    have hmove : moveTo next (.ok (some part)) = .into part := by
      rw [moveTo]
      · exact fun h => hnull h
      · exact fun s h => htext s h
    have hinto : ∀ w : Written, outcome? (container.putOrKeep token w.1, w.2) =
        (outcome? w).map (container.putOrKeep token) := by
      rintro ⟨inner, _ | fault⟩ <;> rfl
    rw [hpart, hmove]
    exact hinto _

/-! ### The whole path -/

theorem write?_null (token : Value) (rest : Path) (value : Value) :
    write? .null (token :: rest) value = writeInside? (emptyFor token) (token :: rest) value := by
  unfold write? writeInside?
  rw [setAt]
  rcases (emptyFor token).setInside (token :: rest) value with ⟨updated, _ | fault⟩ <;> rfl

theorem write?_nil (collection value : Value) : write? collection [] value = none := by
  unfold write?
  rw [setAt]
  rfl

theorem write?_of_ne_null {collection : Value} (h : collection ≠ .null) (path : Path)
    (value : Value) : write? collection path value = writeInside? collection path value := by
  rcases path with _ | ⟨token, rest⟩
  · rw [write?_nil, writeInside?, setInside]
    rfl
  · unfold write? writeInside?
    rw [setAt_eq_setInside h]

theorem isContainer_of_writeInside? {container updated value : Value} {path : Path}
    (h : writeInside? container path value = some updated) : updated.isContainer = true :=
  isContainer_of_setInside (outcome?_eq_some_iff.mp h)

/-- **A write that gets through leaves a container.** -/
theorem isContainer_of_write? {collection updated value : Value} {path : Path}
    (h : write? collection path value = some updated) : updated.isContainer = true := by
  by_cases hnull : collection = .null
  · subst hnull
    rcases path with _ | ⟨token, rest⟩
    · rw [write?_nil] at h
      cases h
    · rw [write?_null] at h
      exact isContainer_of_writeInside? h
  · rw [write?_of_ne_null hnull] at h
    exact isContainer_of_writeInside? h

end PipeScript.Proofs.Path.Outcome
