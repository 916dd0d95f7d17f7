import PipeScript.Proofs.Path.Outcome

/-! # The last write wins

A second write along the same path meets what the first one has left: containers where there were
nulls, gaps or texts, and lists that are long enough.  At each token but the last it goes on in the
part that the first write put there, or, where the token names an item for a write only, in the same
new part as the first one (`startPart?_of_put`).  What it puts under the token replaces what was
there, so the two writes leave what the second one alone leaves (`setAt_setAt`). -/

namespace PipeScript.Proofs.Path.Overwrite

open PipeScript.Value PipeScript.Path
open PipeScript.Proofs.Value.Entries PipeScript.Proofs.Path.Addressing
open PipeScript.Proofs.Path.RoundTrip PipeScript.Proofs.Path.Outcome

/-! ### Where a write goes on -/

/-- The part in which a write goes on under a token, unless it gets stuck. -/
def startPart? (container token next : Value) : Option Value :=
  match moveTo next (container.exactPart? token) with
  | .stuck => none
  | .fresh part => some part
  | .into part => some part

theorem startPart?_container {container token part : Value}
    (h : container.exactPart? token = .ok (some part)) (hpart : part.isContainer = true)
    (next : Value) : startPart? container token next = some part := by
  unfold startPart?
  rw [h]
  rcases part with s | items | entries
  · cases hpart
  · rfl
  · rfl

/-- A write that goes on in a part and puts what that leaves under its token. -/
theorem writeInside?_of_start {container token next part inner updated value : Value} {rest : Path}
    (hstart : startPart? container token next = some part)
    (hinner : writeInside? part (next :: rest) value = some inner)
    (hput : container.put token inner = .ok updated) :
    writeInside? container (token :: next :: rest) value = some updated := by
  unfold startPart? at hstart
  rw [writeInside?_cons]
  generalize moveTo next (container.exactPart? token) = move at hstart ⊢
  cases move with
  | stuck => cases hstart
  | fresh start =>
    obtain rfl : start = part := Option.some.inj hstart
    dsimp only
    rw [hinner, Option.bind_some, hput]
    rfl
  | into start =>
    obtain rfl : start = part := Option.some.inj hstart
    dsimp only
    rw [hinner, Option.map_some, putOrKeep_of_put hput]

/-- Every write that gets through and leaves short lists does so. -/
theorem start_of_writeInside? {container token next updated value : Value} {rest : Path}
    (h : writeInside? container (token :: next :: rest) value = some updated)
    (hshort : ShortLists (2 ^ 53) updated) :
    ∃ part inner, startPart? container token next = some part ∧
      writeInside? part (next :: rest) value = some inner ∧
      container.put token inner = .ok updated := by
  have hcontainer : container.isContainer = true :=
    isContainer_of_write (outcome?_eq_some_iff.mp h)
  unfold startPart?
  rw [writeInside?_cons] at h
  cases hmove : moveTo next (container.exactPart? token) with
  | stuck =>
    rw [hmove] at h
    cases h
  | fresh part =>
    rw [hmove] at h
    obtain ⟨inner, hinner, hput⟩ := Option.bind_eq_some_iff.mp h
    refine ⟨part, inner, rfl, hinner, ?_⟩
    rcases hafter : container.put token inner with fault | after
    · rw [hafter] at hput
      cases hput
    · rw [hafter] at hput
      exact congrArg Except.ok (Option.some.inj hput)
  | into part =>
    rw [hmove] at h
    obtain ⟨inner, hinner, rfl⟩ := Option.map_eq_some_iff.mp h
    have hpart : container.exactPart? token = .ok (some part) := by
      unfold moveTo at hmove
      split at hmove
      · cases hmove
      · cases hmove
      · cases hmove
      · split at hmove <;> cases hmove
      · next heq =>
        cases hmove
        exact heq
    exact ⟨part, inner, rfl, hinner, put_of_exactPart? hcontainer hpart inner hshort⟩

/-! ### Where it goes on the second time -/

theorem exactPart?_list (items : List Value) {token : Value} {i : ℕ}
    (h : exactIndex? token = .ok (some i)) :
    (Value.list items).exactPart? token = .ok items[i]? := by
  unfold exactPart?
  dsimp only
  rw [h]
  rfl

/-- What was put under a token of a short list is its exact part, unless the token names an item for
a write only: then it has the exact part that it had before. -/
theorem exactPart?_of_put {container token part updated : Value}
    (h : container.put token part = .ok updated) (hshort : ShortLists (2 ^ 53) updated) :
    updated.exactPart? token = .ok (some part) ∨
      updated.exactPart? token = container.exactPart? token := by
  obtain ⟨items, i, rfl, hwrite, -, rfl⟩ | ⟨entries, rfl, rfl⟩ := put_cases h
  · have hlength : (putItem items i part).length < 2 ^ 53 := by
      cases hshort with
      | list hlength _ => exact hlength
    have hlonger := length_putItem items i part
    rcases hexact : exactIndex? token with fault | _ | j
    · right
      unfold exactPart?
      rw [hexact]
      rfl
    · right
      unfold exactPart?
      rw [hexact]
      rfl
    · rw [exactPart?_list _ hexact, exactPart?_list _ hexact]
      rcases Nat.lt_or_ge j (2 ^ 53) with hj | hj
      · obtain rfl : i = j := by
          have hboth := hwrite.symm.trans (writeIndex?_of_exactIndex? hexact hj)
          exact Option.some.inj (Except.ok.inj hboth)
        left
        rw [getElem?_putItem]
      · -- the item named exactly lies beyond both lists
        right
        rw [List.getElem?_eq_none (by omega), List.getElem?_eq_none (by omega)]
  · left
    unfold exactPart? part?
    dsimp only
    rw [get?_insert_text]

/-- **The second write goes on in what the first one has left**, or where the first one went on. -/
theorem startPart?_of_put {container token next part inner updated : Value}
    (hstart : startPart? container token next = some part)
    (hput : container.put token inner = .ok updated) (hinner : inner.isContainer = true)
    (hshort : ShortLists (2 ^ 53) updated) :
    startPart? updated token next = some inner ∨ startPart? updated token next = some part := by
  rcases exactPart?_of_put hput hshort with hpart | hsame
  · exact .inl (startPart?_container hpart hinner next)
  · right
    unfold startPart? at hstart ⊢
    rw [hsame]
    exact hstart

/-! ### The whole path -/

/-- **The last write inside a value wins.** -/
theorem writeInside?_writeInside? {container updated value : Value} {path : Path}
    (h : writeInside? container path value = some updated) (hshort : ShortLists (2 ^ 53) updated)
    (other : Value) :
    ∃ again, writeInside? updated path other = some again ∧
      writeInside? container path other = some again := by
  induction path generalizing container updated with
  | nil => cases h
  | cons token rest ih =>
    cases rest with
    | nil =>
      rw [writeInside?_singleton] at h
      rcases hput : container.put token value with fault | after
      · rw [hput] at h
        cases h
      · rw [hput] at h
        obtain rfl := Option.some.inj h
        obtain ⟨again, hagain⟩ := put_again hput other
        refine ⟨again, ?_, ?_⟩
        · rw [writeInside?_singleton, hagain]
          rfl
        · rw [writeInside?_singleton, ← put_put hput, hagain]
          rfl
    | cons next rest =>
      obtain ⟨part, inner, hstart, hinner, hput⟩ := start_of_writeInside? h hshort
      obtain ⟨inside, hlater, halone⟩ := ih hinner (shortLists_of_put hput hshort)
      obtain ⟨again, hagain⟩ := put_again hput inside
      refine ⟨again, ?_, ?_⟩
      · rcases startPart?_of_put hstart hput (isContainer_of_writeInside? hinner) hshort with
          hstart' | hstart'
        · exact writeInside?_of_start hstart' hlater hagain
        · exact writeInside?_of_start hstart' halone hagain
      · exact writeInside?_of_start hstart halone ((put_put hput inside).symm.trans hagain)

theorem write?_write? {collection updated value : Value} {path : Path}
    (h : write? collection path value = some updated) (hshort : ShortLists (2 ^ 53) updated)
    (other : Value) :
    ∃ again, write? updated path other = some again ∧ write? collection path other = some again := by
  have hupdated : updated ≠ .null := by
    rintro rfl
    cases isContainer_of_write? h
  rw [write?_of_ne_null hupdated]
  by_cases hnull : collection = .null
  · subst hnull
    rcases path with _ | ⟨token, rest⟩
    · rw [write?_nil] at h
      cases h
    · rw [write?_null] at h ⊢
      exact writeInside?_writeInside? h hshort other
  · rw [write?_of_ne_null hnull] at h ⊢
    exact writeInside?_writeInside? h hshort other

/-- **The last write wins**: where a write has succeeded, any other value can be written along the
same path, and it leaves what it would have left without the first write, with the keys of every
dictionary in the same order.  To write the same value again changes nothing. -/
theorem setAt_setAt {collection updated value : Value} {path : Path}
    (h : collection.setAt path value = (updated, none)) (hshort : ShortLists (2 ^ 53) updated) :
    (∀ other, ∃ again, updated.setAt path other = (again, none) ∧
      collection.setAt path other = (again, none)) ∧
    updated.setAt path value = (updated, none) := by
  have hwritten : write? collection path value = some updated := outcome?_eq_some_iff.mpr h
  have hwins : ∀ other, ∃ again, updated.setAt path other = (again, none) ∧
      collection.setAt path other = (again, none) := by
    intro other
    obtain ⟨again, hlater, halone⟩ := write?_write? hwritten hshort other
    exact ⟨again, outcome?_eq_some_iff.mp hlater, outcome?_eq_some_iff.mp halone⟩
  refine ⟨hwins, ?_⟩
  obtain ⟨again, hlater, halone⟩ := hwins value
  obtain rfl : updated = again := congrArg Prod.fst (h.symm.trans halone)
  exact hlater

/-- A list that is stored as text, in front of another entry. -/
def textRow : Value := .dict [(.text "row", .text "[7]"), (.text "b", .int 2)]

/-- That list decoded, with a padded list behind its item. -/
def paddedRow : Value :=
  .dict [(.text "row", .list [.int 7, .list [.null, .null]]), (.text "b", .int 2)]

/-- A path with two tokens that name an item for a write only. -/
def looselySpelled : Path := [.text "row", .text " 1", .bool true]

theorem setAt_textRow : textRow.setAt looselySpelled .null = (paddedRow, none) := rfl

theorem shortLists_paddedRow : ShortLists (2 ^ 53) paddedRow := by
  have hnulls : ShortLists (2 ^ 53) (.list [.null, .null]) :=
    .list (by decide) (List.forall_mem_cons.mpr
      ⟨.scalar _, List.forall_mem_singleton.mpr (.scalar _)⟩)
  have hrow : ShortLists (2 ^ 53) (.list [.int 7, .list [.null, .null]]) :=
    .list (by decide) (List.forall_mem_cons.mpr ⟨.scalar _, List.forall_mem_singleton.mpr hnulls⟩)
  exact .dict (List.forall_mem_cons.mpr ⟨hrow, List.forall_mem_singleton.mpr (.scalar _)⟩)

theorem setAt_setAt_looselySpelled :
    textRow.setAt looselySpelled .null = (paddedRow, none) ∧ ShortLists (2 ^ 53) paddedRow ∧
      (∀ other, ∃ again, paddedRow.setAt looselySpelled other = (again, none) ∧
        textRow.setAt looselySpelled other = (again, none)) ∧
      paddedRow.setAt looselySpelled .null = (paddedRow, none) :=
  ⟨setAt_textRow, shortLists_paddedRow, setAt_setAt setAt_textRow shortLists_paddedRow⟩

end PipeScript.Proofs.Path.Overwrite
