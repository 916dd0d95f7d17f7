import PipeScript.Path.Access
import PipeScript.Proofs.Path.Addressing
import PipeScript.Proofs.Value.Entries

/-! # Reading what was written

A write puts a part under a token of a container, and goes on inside it; a read takes the part
under the token, and goes on inside it.  What a container gives under a token after a write is what
was put there (`part?_of_put`).  So a write that succeeds is read back along the same path
(`getAt?_of_setAt`), also where it creates, decodes or pads what it passes through: it leaves a
container behind at every step (`isContainer_of_setInside`), and a token that led it to a part
leads the read to that part (`put_of_exactPart?`), as long as lists are shorter than `2^53`. -/

namespace PipeScript.Proofs.Path.RoundTrip

open PipeScript.Value PipeScript.Path
open PipeScript.Proofs.Value.Entries PipeScript.Proofs.Path.Addressing

/-! ### Short lists -/

/-- All lists in a value are shorter than a limit. -/
inductive ShortLists (limit : ℕ) : Value → Prop where
  | scalar (s : Scalar) : ShortLists limit (.scalar s)
  | list {items : List Value} (hlength : items.length < limit)
      (hitems : ∀ item ∈ items, ShortLists limit item) : ShortLists limit (.list items)
  | dict {entries : Entries Value} (hitems : ∀ entry ∈ entries, ShortLists limit entry.2) :
      ShortLists limit (.dict entries)

/-! ### One step -/

theorem length_putItem (items : List Value) (i : ℕ) (part : Value) :
    (putItem items i part).length = max items.length (i + 1) := by
  unfold putItem
  rw [List.length_set, List.length_append, List.length_replicate]
  omega

theorem getElem?_putItem (items : List Value) (i : ℕ) (part : Value) :
    (putItem items i part)[i]? = some part := by
  unfold putItem
  rw [List.getElem?_set_self]
  rw [List.length_append, List.length_replicate]
  omega

theorem getElem?_putItem_ne {items : List Value} {i j : ℕ} (hj : j < items.length) (hne : i ≠ j)
    (part : Value) : (putItem items i part)[j]? = items[j]? := by
  unfold putItem
  rw [List.getElem?_set_ne hne, List.getElem?_append_left hj]

theorem putItem_putItem (items : List Value) (i : ℕ) (part other : Value) :
    putItem (putItem items i part) i other = putItem items i other := by
  have hlength : i + 1 - (putItem items i part).length = 0 := by
    rw [length_putItem]
    omega
  unfold putItem at hlength ⊢
  rw [hlength, List.replicate_zero, List.append_nil, List.set_set]

/-- What a write under a token does to a container. -/
theorem put_cases {container token part updated : Value}
    (h : container.put token part = .ok updated) :
    (∃ items i, container = .list items ∧ writeIndex? token = .ok (some i) ∧
      i < max items.length listCapacity ∧ updated = .list (putItem items i part)) ∨
    ∃ entries, container = .dict entries ∧
      updated = .dict (Entries.insert (.text token.asText) part entries) := by
  rcases container with s | items | entries
  · cases h
  · unfold put at h
    dsimp only at h
    rcases hw : writeIndex? token with fault | _ | i
    · rw [hw] at h
      cases h
    · rw [hw] at h
      cases h
    · rw [hw] at h
      dsimp only at h
      split_ifs at h with hi
      cases h
      exact .inl ⟨items, i, rfl, rfl, hi, rfl⟩
  · cases h
    exact .inr ⟨entries, rfl, rfl⟩

theorem put_list (items : List Value) {token : Value} {i : ℕ}
    (hw : writeIndex? token = .ok (some i)) (hi : i < max items.length listCapacity)
    (part : Value) : (Value.list items).put token part = .ok (.list (putItem items i part)) := by
  unfold put
  dsimp only
  rw [hw]
  exact if_pos hi

/-- **What was put under a token is the part under it.** -/
theorem part?_of_put {container token part updated : Value}
    (h : container.put token part = .ok updated) : updated.part? token = .ok (some part) := by
  obtain ⟨items, i, rfl, hw, -, rfl⟩ | ⟨entries, rfl, rfl⟩ := put_cases h
  · have hread : readIndex? (putItem items i part).length token = .ok (some i) := by
      refine readIndex?_of_writeIndex? hw ?_
      rw [length_putItem]
      omega
    unfold part?
    dsimp only
    rw [hread]
    change Except.ok ((some i).bind _) = _
    rw [Option.bind_some, getElem?_putItem]
  · unfold part?
    dsimp only
    rw [get?_insert_text]

/-- Where something was put, something else can be put. -/
theorem put_again {container token part updated : Value}
    (h : container.put token part = .ok updated) (other : Value) :
    ∃ again, updated.put token other = .ok again := by
  obtain ⟨items, i, rfl, hw, -, rfl⟩ | ⟨entries, rfl, rfl⟩ := put_cases h
  · refine ⟨_, put_list _ hw ?_ other⟩
    rw [length_putItem]
    omega
  · exact ⟨_, rfl⟩

/-- What is put under a token a second time replaces what was put there first. -/
theorem put_put {container token part before : Value} (h : container.put token part = .ok before)
    (other : Value) : before.put token other = container.put token other := by
  obtain ⟨items, i, rfl, hwrite, hi, rfl⟩ | ⟨entries, rfl, rfl⟩ := put_cases h
  · have hagain : i < max (putItem items i part).length listCapacity := by
      rw [length_putItem]
      omega
    rw [put_list _ hwrite hagain, put_list _ hwrite hi, putItem_putItem]
  · unfold put
    dsimp only
    rw [insert_insert_text]

theorem isContainer_of_put {container token part updated : Value}
    (h : container.put token part = .ok updated) : updated.isContainer = true := by
  obtain ⟨items, i, -, -, -, rfl⟩ | ⟨entries, -, rfl⟩ := put_cases h
  · rfl
  · rfl

/-- A part of a value with short lists has short lists. -/
theorem shortLists_of_put {limit : ℕ} {container token part updated : Value}
    (h : container.put token part = .ok updated) (hshort : ShortLists limit updated) :
    ShortLists limit part := by
  obtain ⟨items, i, -, -, -, rfl⟩ | ⟨entries, -, rfl⟩ := put_cases h
  · cases hshort with
    | list _ hitems => exact hitems part (List.mem_of_getElem? (getElem?_putItem items i part))
  · cases hshort with
    | dict hitems =>
      obtain ⟨key, hkey⟩ := mem_of_get? (get?_insert_text token.asText part entries)
      exact hitems _ hkey

theorem putOrKeep_of_put {container token part updated : Value}
    (h : container.put token part = .ok updated) :
    container.putOrKeep token part = updated := by
  unfold putOrKeep
  rw [h]

theorem decoded_of_isContainer {v : Value} (h : v.isContainer = true) : v.decoded = v := by
  rcases v with s | items | entries
  · cases h
  · rfl
  · rfl

theorem isNull_of_isContainer {v : Value} (h : v.isContainer = true) : v.isNull = false := by
  rcases v with s | items | entries
  · cases h
  · rfl
  · rfl

theorem getAt?_cons {v token part : Value} {rest : Path} (hv : v.isContainer = true)
    (h : v.part? token = .ok (some part)) :
    v.getAt? (token :: rest) = part.decoded.getAt? rest := by
  rw [getAt?, isNull_of_isContainer hv, h]
  rfl

/-! ### Steps of a write -/

theorem putThen_scalar (s : Scalar) (token part : Value) (descend : Value → Written) :
    ((Value.scalar s).putThen token part descend).2 ≠ none := by
  unfold putThen
  exact Option.some_ne_none _

/-- The parts of a text are texts. -/
theorem exactPart?_text (s : String) (token : Value) :
    (∃ fault, exactIndex? token = .error fault ∧ (Value.text s).exactPart? token = .error fault) ∨
      (Value.text s).exactPart? token = .ok none ∨
      ∃ t, (Value.text s).exactPart? token = .ok (some (.text t)) := by
  unfold exactPart? part?
  dsimp only
  rcases exactIndex? token with fault | _ | i
  · exact .inl ⟨fault, rfl, rfl⟩
  · exact .inr (.inl rfl)
  · right
    change Except.ok ((some i).bind _) = _ ∨ ∃ t, Except.ok ((some i).bind _) = _
    rw [Option.bind_some]
    rcases s.toList[i]? with _ | c
    · exact .inl rfl
    · exact .inr ⟨String.singleton c, rfl⟩

/-- **Nothing is written inside a scalar**, not even inside the characters of a text. -/
theorem setInside_scalar (s : Scalar) (path : Path) (value : Value) :
    ((Value.scalar s).setInside path value).2 ≠ none := by
  induction path generalizing s with
  | nil => exact Option.some_ne_none _
  | cons token rest ih =>
    cases rest with
    | nil => exact Option.some_ne_none _
    | cons next rest =>
      have hempty : ∀ s, ((Value.scalar s).putThen token (emptyFor next) fun part =>
          part.setInside (next :: rest) value).2 ≠ none :=
        fun s => putThen_scalar s token (emptyFor next) _
      rcases s with _ | b | n | s | m
      · exact hempty .null
      · exact hempty (.bool b)
      · exact hempty (.number n)
      · rw [setInside]
        rcases exactPart?_text s token with ⟨fault, -, h⟩ | h | ⟨t, h⟩
        · rw [h]
          exact Option.some_ne_none _
        · rw [h]
          exact putThen_scalar _ _ _ _
        · rw [h]
          dsimp only
          rcases Json.parse? t with _ | part
          · exact ih (.text t)
          · exact putThen_scalar _ _ _ _
      · exact hempty (.moment m)

/-- A write into a new part that succeeds puts the part under the token and goes on inside it. -/
theorem put_of_putThen {container token part updated value : Value} {path : Path}
    (h : container.putThen token part (fun part => part.setInside path value) = (updated, none)) :
    ∃ before inner, container.put token part = .ok before ∧
      part.setInside path value = (inner, none) ∧ before.put token inner = .ok updated := by
  unfold putThen at h
  rcases hbefore : container.put token part with fault | before
  · rw [hbefore] at h
    cases h
  · rw [hbefore] at h
    rcases hinner : part.setInside path value with ⟨inner, fault⟩
    dsimp only at h
    rw [hinner] at h
    obtain ⟨rfl, rfl⟩ := Prod.mk.inj h
    obtain ⟨again, hagain⟩ := put_again hbefore inner
    rw [putOrKeep_of_put hagain]
    exact ⟨before, inner, rfl, rfl, hagain⟩

/-- What a write that goes on under a token and succeeds does: it puts a new part under the token
and goes on inside that, or it goes on inside the part that is there. -/
theorem setInside_cases {container token next updated value : Value} {rest : Path}
    (h : container.setInside (token :: next :: rest) value = (updated, none)) :
    (∃ part before inner, container.put token part = .ok before ∧
      part.setInside (next :: rest) value = (inner, none) ∧ before.put token inner = .ok updated) ∨
    ∃ part inner, container.exactPart? token = .ok (some part) ∧
      part.setInside (next :: rest) value = (inner, none) ∧
      container.putOrKeep token inner = updated := by
  rw [setInside] at h
  split at h
  · cases h
  · exact .inl ⟨_, put_of_putThen h⟩
  · exact .inl ⟨_, put_of_putThen h⟩
  · next s hpart =>
    rcases hparse : Json.parse? s with _ | part
    · rw [hparse] at h
      exact absurd (congrArg Prod.snd h) (setInside_scalar (.text s) _ _)
    · rw [hparse] at h
      exact .inl ⟨_, put_of_putThen h⟩
  · next part hnull htext hpart =>
    rcases hinner : part.setInside (next :: rest) value with ⟨inner, fault⟩
    rw [hinner] at h
    obtain ⟨hupdated, rfl⟩ := Prod.mk.inj h
    exact .inr ⟨part, inner, hpart, hinner, hupdated⟩

theorem isContainer_of_write {container updated value : Value} {path : Path}
    (h : container.setInside path value = (updated, none)) : container.isContainer = true := by
  rcases container with s | items | entries
  · exact absurd (congrArg Prod.snd h) (setInside_scalar s path value)
  · rfl
  · rfl

theorem isContainer_putOrKeep {container : Value} (h : container.isContainer = true)
    (token part : Value) : (container.putOrKeep token part).isContainer = true := by
  unfold putOrKeep
  rcases hput : container.put token part with fault | updated
  · exact h
  · exact isContainer_of_put hput

/-- **A write that succeeds leaves a container.** -/
theorem isContainer_of_setInside {container updated value : Value} {path : Path}
    (h : container.setInside path value = (updated, none)) : updated.isContainer = true := by
  have hcontainer := isContainer_of_write h
  rcases path with _ | ⟨token, _ | ⟨next, rest⟩⟩
  · cases h
  · rw [setInside] at h
    rcases hput : container.put token value with fault | after
    · rw [hput] at h
      cases h
    · rw [hput] at h
      obtain ⟨rfl, -⟩ := Prod.mk.inj h
      exact isContainer_of_put hput
  · rcases setInside_cases h with ⟨_, _, _, _, _, hput⟩ | ⟨_, _, _, _, rfl⟩
    · exact isContainer_of_put hput
    · exact isContainer_putOrKeep hcontainer _ _

/-- A list that is short after a write was short before it. -/
theorem length_lt_of_putOrKeep {items : List Value} {token part : Value} {bound : ℕ}
    (h : ShortLists bound ((Value.list items).putOrKeep token part)) : items.length < bound := by
  rcases hput : (Value.list items).put token part with fault | updated
  · unfold putOrKeep at h
    rw [hput] at h
    cases h with
    | list hlength _ => exact hlength
  · rw [putOrKeep_of_put hput] at h
    obtain ⟨others, i, heq, -, -, rfl⟩ | ⟨entries, heq, -⟩ := put_cases hput
    · cases heq
      cases h with
      | list hlength _ =>
        rw [length_putItem] at hlength
        omega
    · cases heq

/-- A token that leads a write to a part of a short list is one under which that part can be put. -/
theorem put_of_exactPart? {container token part : Value}
    (hcontainer : container.isContainer = true)
    (h : container.exactPart? token = .ok (some part)) (inner : Value)
    (hshort : ShortLists (2 ^ 53) (container.putOrKeep token inner)) :
    container.put token inner = .ok (container.putOrKeep token inner) := by
  rcases container with s | items | entries
  · cases hcontainer
  · have hlength := length_lt_of_putOrKeep hshort
    unfold exactPart? at h
    dsimp only at h
    rcases hexact : exactIndex? token with fault | _ | i
    · rw [hexact] at h
      cases h
    · rw [hexact] at h
      cases h
    · rw [hexact] at h
      have hitem : items[i]? = some part := Except.ok.inj h
      have hi : i < items.length := (List.getElem?_eq_some_iff.mp hitem).1
      have hput := put_list items (writeIndex?_of_exactIndex? hexact (by omega))
        (by omega) inner
      rw [putOrKeep_of_put hput]
      exact hput
  · rfl

/-! ### The whole path -/

theorem decoded_eq_self {value : Value} (h : ∀ s, value = .text s → Json.parse? s = none) :
    value.decoded = value := by
  rcases value with (_ | _ | _ | s | _) | _ | _
  · rfl
  · rfl
  · rfl
  · unfold Value.decoded
    dsimp only
    rw [h s rfl]
    rfl
  · rfl
  · rfl
  · rfl

/-- **What was written inside a value is read back**, unless it is a text that would be decoded. -/
theorem getAt?_of_setInside {container updated value : Value} {path : Path}
    (hvalue : ∀ s, value = .text s → Json.parse? s = none)
    (h : container.setInside path value = (updated, none))
    (hshort : ShortLists (2 ^ 53) updated) : updated.getAt? path = .ok (some value) := by
  induction path generalizing container updated with
  | nil => cases h
  | cons token rest ih =>
    have hupdated := isContainer_of_setInside h
    cases rest with
    | nil =>
      rw [setInside] at h
      rcases hput : container.put token value with fault | after
      · rw [hput] at h
        cases h
      · rw [hput] at h
        obtain ⟨rfl, -⟩ := Prod.mk.inj h
        rw [getAt?_cons hupdated (part?_of_put hput), decoded_eq_self hvalue]
        rfl
    | cons next rest =>
      obtain ⟨part, before, inner, hinner, hput⟩ : ∃ part before inner : Value,
          part.setInside (next :: rest) value = (inner, none) ∧
            before.put token inner = .ok updated := by
        rcases setInside_cases h with ⟨part, before, inner, -, hinner, hput⟩ |
          ⟨part, inner, hpart, hinner, rfl⟩
        · exact ⟨part, before, inner, hinner, hput⟩
        · exact ⟨part, container, inner, hinner,
            put_of_exactPart? (isContainer_of_write h) hpart inner hshort⟩
      rw [getAt?_cons hupdated (part?_of_put hput),
        decoded_of_isContainer (isContainer_of_setInside hinner)]
      exact ih hinner (shortLists_of_put hput hshort)

/-- A collection that is there is written inside. -/
theorem setAt_eq_setInside {collection : Value} (h : collection ≠ .null) (token : Value)
    (rest : Path) (value : Value) :
    collection.setAt (token :: rest) value = collection.setInside (token :: rest) value := by
  rw [setAt]
  · simp
  · exact fun _ _ heq _ => h heq

/-- **Reading gives what was written**: a write that succeeds is read back along its path, so that
no default stands in for it, a null included. -/
theorem getAt?_of_setAt {collection updated value : Value} {path : Path}
    (hvalue : ∀ s, value = .text s → Json.parse? s = none)
    (h : collection.setAt path value = (updated, none))
    (hshort : ShortLists (2 ^ 53) updated) : updated.getAt? path = .ok (some value) := by
  cases path with
  | nil => cases collection <;> cases h
  | cons token rest =>
    by_cases hnull : collection = .null
    · subst hnull
      rw [setAt] at h
      rcases hinside : (emptyFor token).setInside (token :: rest) value with ⟨after, _ | fault⟩
      · rw [hinside] at h
        obtain ⟨rfl, -⟩ := Prod.mk.inj h
        exact getAt?_of_setInside hvalue hinside hshort
      · rw [hinside] at h
        cases h
    · have hinside : collection.setAt (token :: rest) value =
          collection.setInside (token :: rest) value := by
        rw [setAt]
        · simp
        · exact fun _ _ heq _ => hnull heq
      rw [hinside] at h
      exact getAt?_of_setInside hvalue h hshort

/-- A list that is stored as text. -/
def textList : Value := .dict [(.text "a", .text "[7]")]

/-- That list decoded, with a padded list behind its item. -/
def paddedList : Value := .dict [(.text "a", .list [.int 7, .list [.null, .null]])]

theorem setAt_textList :
    textList.setAt [.text "a", .text " 1", .bool true] .null = (paddedList, none) := rfl

theorem shortLists_paddedList : ShortLists (2 ^ 53) paddedList := by
  have hscalars : ∀ item ∈ [Value.null, .null], ShortLists (2 ^ 53) item := by
    intro item hitem
    obtain rfl : item = .null := by simpa using hitem
    exact .scalar _
  refine .dict fun entry hentry => ?_
  obtain rfl := List.mem_singleton.mp hentry
  refine .list (by decide) fun item hitem => ?_
  rcases List.mem_cons.mp hitem with rfl | hitem
  · exact .scalar _
  · obtain rfl := List.mem_singleton.mp hitem
    exact .list (by decide) hscalars

theorem getAt?_paddedList :
    (∀ s, Value.null = .text s → Json.parse? s = none) ∧
      textList.setAt [.text "a", .text " 1", .bool true] .null = (paddedList, none) ∧
      ShortLists (2 ^ 53) paddedList ∧
      paddedList.getAt? [.text "a", .text " 1", .bool true] = .ok (some .null) := by
  have hvalue : ∀ s, Value.null = .text s → Json.parse? s = none := fun _ h => nomatch h
  exact ⟨hvalue, setAt_textList, shortLists_paddedList,
    getAt?_of_setAt hvalue setAt_textList shortLists_paddedList⟩

end PipeScript.Proofs.Path.RoundTrip
