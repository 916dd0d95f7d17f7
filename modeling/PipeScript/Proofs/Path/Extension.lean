import PipeScript.Proofs.Path.RoundTrip

/-! # Writes extend what they pass through

A write that succeeds leaves every container that a read along its path would have walked: what was
under the other tokens is still there (`extends_of_setAt`).  Under the last token of the walk this
holds whatever the token is.  Before that, a read and a write must go into the same item of a list,
so the token has to name one item, exactly and for a write (`NamesOneItem`).  A token that names an
item for a write only, as `" 1"` does, makes the write start anew in place of that item
(`setInside_forgets`), and what the item held is lost (`not_extends_padded`). -/

namespace PipeScript.Proofs.Path.Extension

open PipeScript.Value PipeScript.Path
open PipeScript.Proofs.Value.Entries PipeScript.Proofs.Path.Addressing
open PipeScript.Proofs.Path.RoundTrip

/-! ### Containers that grow -/

/-- A container of the same kind that still holds every entry but the one under a token.  A
dictionary holds these entries in their order and no others. -/
inductive Extends (token : Value) : Value → Value → Prop where
  | list {items later : List Value}
      (hitems : ∀ i < items.length, writeIndex? token ≠ .ok (some i) → later[i]? = items[i]?) :
      Extends token (.list items) (.list later)
  | dict {entries later : Entries Value}
      (hentries : later.erase (.text token.asText) = entries.erase (.text token.asText)) :
      Extends token (.dict entries) (.dict later)

theorem Extends.refl {token container : Value} (h : container.isContainer = true) :
    Extends token container container := by
  rcases container with s | items | entries
  · cases h
  · exact .list fun _ _ _ => rfl
  · exact .dict rfl

theorem Extends.trans {token first second third : Value} (h₁ : Extends token first second)
    (h₂ : Extends token second third) : Extends token first third := by
  cases h₁ with
  | list hfirst =>
    cases h₂ with
    | list hsecond =>
      refine .list fun i hi hwrite => ?_
      have hkept := hfirst i hi hwrite
      have hthere := hkept.trans (List.getElem?_eq_getElem hi)
      exact (hsecond i (List.getElem?_eq_some_iff.mp hthere).1 hwrite).trans hkept
  | dict hfirst =>
    cases h₂ with
    | dict hsecond => exact .dict (hsecond.trans hfirst)

theorem extends_of_put {container token part updated : Value}
    (h : container.put token part = .ok updated) : Extends token container updated := by
  obtain ⟨items, i, rfl, hw, -, rfl⟩ | ⟨entries, rfl, rfl⟩ := put_cases h
  · refine .list fun j hj hwrite => getElem?_putItem_ne hj ?_ part
    rintro rfl
    exact hwrite hw
  · exact .dict (erase_insert_text _ _ _)

/-- **The container in which a write starts** is extended, whatever its token is. -/
theorem extends_of_setInside {container token updated value : Value} {rest : Path}
    (h : container.setInside (token :: rest) value = (updated, none)) :
    Extends token container updated := by
  have hcontainer := isContainer_of_write h
  cases rest with
  | nil =>
    rw [setInside] at h
    rcases hput : container.put token value with fault | after
    · rw [hput] at h
      cases h
    · rw [hput] at h
      obtain ⟨rfl, -⟩ := Prod.mk.inj h
      exact extends_of_put hput
  | cons next rest =>
    rcases setInside_cases h with ⟨_, before, _, hbefore, -, hput⟩ | ⟨_, inner, -, -, rfl⟩
    · exact (extends_of_put hbefore).trans (extends_of_put hput)
    · rcases hput : container.put token inner with fault | after
      · unfold putOrKeep
        rw [hput]
        exact .refl hcontainer
      · rw [putOrKeep_of_put hput]
        exact extends_of_put hput

/-! ### Where reads and writes go the same way -/

/-- The token names the same item exactly and for a write, or no item in either way. -/
def NamesOneItem (token : Value) : Prop :=
  ∀ i, exactIndex? token = .ok (some i) ↔ writeIndex? token = .ok (some i)

/-- A read along the path meets every list with a token that names one item. -/
def PlainWalk : Value → Path → Prop
  | _, [] => True
  | v, token :: rest =>
    ((∃ items, v = .list items) → NamesOneItem token) ∧
      ∀ part, v.part? token = .ok (some part) → PlainWalk part.decoded rest

/-- Plain decimal text below `2^53` names one item. -/
theorem namesOneItem_of_exactIndex? {token : Value} {i : ℕ}
    (h : exactIndex? token = .ok (some i)) (hi : i < 2 ^ 53) : NamesOneItem token := by
  have hwrite := writeIndex?_of_exactIndex? h hi
  intro j
  rw [h, hwrite]

/-- A read goes no further than the end of a list. -/
theorem readIndex?_of_length_le {token : Value} {i length : ℕ}
    (h : writeIndex? token = .ok (some i)) (hi : length ≤ i) :
    readIndex? length token = .ok none := by
  obtain ⟨n, hn, hwhole⟩ := itemNumber_of_writeIndex? h
  rw [readIndex?_of_whole? hn hwhole, if_neg (by omega)]

/-- A token that names an item exactly and for a write leads a read to that item. -/
theorem part?_eq_exactPart? {items : List Value} {token : Value} {i : ℕ}
    (hexact : exactIndex? token = .ok (some i)) (hwrite : writeIndex? token = .ok (some i)) :
    (Value.list items).part? token = (Value.list items).exactPart? token := by
  unfold exactPart? part?
  dsimp only
  rw [hexact]
  by_cases hi : i < items.length
  · rw [readIndex?_of_writeIndex? hwrite hi]
  · rw [readIndex?_of_length_le hwrite (by omega)]
    change Except.ok none = Except.ok ((some i).bind _)
    rw [Option.bind_some, List.getElem?_eq_none (by omega)]

theorem exactIndex?_of_exactPart? {items : List Value} {token part : Value}
    (h : (Value.list items).exactPart? token = .ok (some part)) :
    ∃ i, exactIndex? token = .ok (some i) ∧ i < items.length := by
  unfold exactPart? at h
  dsimp only at h
  rcases hexact : exactIndex? token with fault | _ | i
  · rw [hexact] at h
    cases h
  · rw [hexact] at h
    cases h
  · rw [hexact] at h
    have hitem : items[i]? = some part := Except.ok.inj h
    exact ⟨i, rfl, (List.getElem?_eq_some_iff.mp hitem).1⟩

/-- A write that goes on inside a list and succeeds has a token that names an item for it. -/
theorem exists_index_of_setInside {items : List Value} {token next updated value : Value}
    {rest : Path} (hname : NamesOneItem token)
    (h : (Value.list items).setInside (token :: next :: rest) value = (updated, none)) :
    ∃ i, exactIndex? token = .ok (some i) ∧ writeIndex? token = .ok (some i) := by
  rcases setInside_cases h with ⟨_, _, _, hput, -, -⟩ | ⟨_, _, hpart, -, -⟩
  · obtain ⟨_, i, -, hwrite, -, -⟩ | ⟨_, heq, -⟩ := put_cases hput
    · exact ⟨i, (hname i).mpr hwrite, hwrite⟩
    · cases heq
  · obtain ⟨i, hexact, -⟩ := exactIndex?_of_exactPart? hpart
    exact ⟨i, hexact, (hname i).mp hexact⟩

/-- What a read takes under the token, the write goes on inside. -/
theorem exactPart?_of_setInside {container token next part updated value : Value} {rest : Path}
    (hname : (∃ items, container = .list items) → NamesOneItem token)
    (h : container.setInside (token :: next :: rest) value = (updated, none))
    (hpart : container.part? token = .ok (some part)) :
    container.exactPart? token = .ok (some part) := by
  rcases container with s | items | entries
  · exact absurd (congrArg Prod.snd h) (setInside_scalar s _ _)
  · obtain ⟨i, hexact, hwrite⟩ := exists_index_of_setInside (hname ⟨items, rfl⟩) h
    rw [← part?_eq_exactPart? hexact hwrite]
    exact hpart
  · exact hpart

/-- What is put back under a token that names one item is there. -/
theorem part?_putOrKeep {container token part : Value}
    (hname : (∃ items, container = .list items) → NamesOneItem token)
    (hpart : container.exactPart? token = .ok (some part))
    (hcontainer : container.isContainer = true) (inner : Value) :
    (container.putOrKeep token inner).part? token = .ok (some inner) := by
  obtain ⟨updated, hput⟩ : ∃ updated, container.put token inner = .ok updated := by
    rcases container with s | items | entries
    · cases hcontainer
    · obtain ⟨i, hexact, hi⟩ := exactIndex?_of_exactPart? hpart
      exact ⟨_, put_list items ((hname ⟨items, rfl⟩ i).mp hexact) (by omega) inner⟩
    · exact ⟨_, rfl⟩
  rw [putOrKeep_of_put hput]
  exact part?_of_put hput

/-- **One step of a write along a read**: where the read takes a part, the write goes on inside that
part, decoded, and leaves the result in its place. -/
theorem setInside_step {container token part updated value : Value} {path : Path}
    (hname : (∃ items, container = .list items) → NamesOneItem token)
    (h : container.setInside (token :: path) value = (updated, none)) (hpath : path ≠ [])
    (hpart : container.part? token = .ok (some part)) (hnull : part.isNull = false) :
    ∃ inner, part.decoded.setInside path value = (inner, none) ∧
      updated.part? token = .ok (some inner) := by
  obtain ⟨next, rest, rfl⟩ := List.exists_cons_of_ne_nil hpath
  have hcontainer := isContainer_of_write h
  have hexact := exactPart?_of_setInside hname h hpart
  rw [setInside, hexact] at h
  split at h
  · next heq => cases heq
  · next heq => cases heq
  · next heq =>
    cases heq
    cases hnull
  · next s heq =>
    cases heq
    rcases hparse : Json.parse? s with _ | decoded
    · rw [hparse] at h
      exact absurd (congrArg Prod.snd h) (setInside_scalar (.text s) _ _)
    · rw [hparse] at h
      obtain ⟨before, inner, -, hinner, hput⟩ := put_of_putThen h
      have hdecoded : (Value.text s).decoded = decoded := by
        unfold Value.decoded
        dsimp only
        rw [hparse]
        rfl
      rw [hdecoded]
      exact ⟨inner, hinner, part?_of_put hput⟩
  · next part' _ _ heq =>
    cases heq
    rcases hinner : part.setInside (next :: rest) value with ⟨inner, fault⟩
    rw [hinner] at h
    obtain ⟨rfl, rfl⟩ := Prod.mk.inj h
    rw [decoded_of_isContainer (isContainer_of_write hinner)]
    exact ⟨inner, hinner, part?_putOrKeep hname hexact hcontainer inner⟩

/-! ### The whole walk -/

/-- The first step of a read that ends in a container. -/
theorem part?_of_getAt? {v token container : Value} {rest : Path}
    (h : v.getAt? (token :: rest) = .ok (some container))
    (hcontainer : container.isContainer = true) :
    ∃ part, v.part? token = .ok (some part) ∧ part.isNull = false ∧
      part.decoded.getAt? rest = .ok (some container) := by
  rw [getAt?] at h
  split_ifs at h
  · cases h
  rcases hpart : v.part? token with fault | _ | part
  · rw [hpart] at h
    cases h
  · rw [hpart] at h
    cases h
  · rw [hpart] at h
    refine ⟨part, rfl, ?_, h⟩
    rcases hnull : part.isNull with _ | _
    · rfl
    · obtain rfl : part = .null := by
        unfold isNull at hnull
        split at hnull
        · rfl
        · cases hnull
      cases rest with
      | nil =>
        cases h
        cases hcontainer
      | cons token rest => cases h

/-- **A write inside a value extends the container at every step of its path** that a read along
tokens naming one item each leads to. -/
theorem extends_along {collection updated value container token : Value} {before after : Path}
    (h : collection.setInside (before ++ token :: after) value = (updated, none))
    (hwalk : PlainWalk collection before)
    (hbefore : collection.getAt? before = .ok (some container))
    (hcontainer : container.isContainer = true) :
    ∃ later, updated.getAt? before = .ok (some later) ∧ Extends token container later := by
  induction before generalizing collection updated with
  | nil =>
    cases hbefore
    exact ⟨updated, rfl, extends_of_setInside h⟩
  | cons step before ih =>
    obtain ⟨hname, hrest⟩ := hwalk
    obtain ⟨part, hpart, hnull, hgo⟩ := part?_of_getAt? hbefore hcontainer
    obtain ⟨inner, hinner, hlater⟩ := setInside_step hname h (by simp) hpart hnull
    obtain ⟨later, hget, hextends⟩ := ih hinner (hrest part hpart) hgo
    refine ⟨later, ?_, hextends⟩
    rw [getAt?_cons (isContainer_of_setInside h) hlater,
      decoded_of_isContainer (isContainer_of_setInside hinner)]
    exact hget

/-- **A write that succeeds extends the containers that a read would have walked**, as long as the
tokens before them name one item each in the lists that they meet. -/
theorem extends_of_setAt {collection updated value container token : Value} {before after : Path}
    (h : collection.setAt (before ++ token :: after) value = (updated, none))
    (hwalk : PlainWalk collection before)
    (hbefore : collection.getAt? before = .ok (some container))
    (hcontainer : container.isContainer = true) :
    ∃ later, updated.getAt? before = .ok (some later) ∧ Extends token container later := by
  have hnull : collection ≠ .null := by
    rintro rfl
    cases before with
    | nil =>
      cases hbefore
      cases hcontainer
    | cons step before => cases hbefore
  have hinside : collection.setAt (before ++ token :: after) value =
      collection.setInside (before ++ token :: after) value := by
    obtain ⟨first, rest, hpath⟩ := List.exists_cons_of_ne_nil
      (List.append_ne_nil_of_right_ne_nil before (List.cons_ne_nil token after))
    rw [hpath]
    exact setAt_eq_setInside hnull first rest value
  rw [hinside] at h
  exact extends_along h hwalk hbefore hcontainer

/-- A list inside a list. -/
def storedRows : Value := .dict [(.text "rows", .list [.int 3, .list [.int 1, .int 2]])]

/-- The rows with another last item in the last one. -/
def writtenRows : Value := .dict [(.text "rows", .list [.int 3, .list [.int 1, .int 9]])]

theorem setAt_storedRows :
    storedRows.setAt [.text "rows", .text "1", .text " 1"] (.int 9) = (writtenRows, none) := rfl

theorem plainWalk_storedRows : PlainWalk storedRows [.text "rows", .text "1"] := by
  have hone : NamesOneItem (.text "1") := namesOneItem_of_exactIndex? (i := 1) rfl (by norm_num)
  constructor
  · rintro ⟨items, heq⟩
    cases heq
  · intro part hpart
    exact ⟨fun _ => hone, fun _ _ => trivial⟩

theorem extends_storedRows :
    storedRows.setAt ([.text "rows", .text "1"] ++ .text " 1" :: []) (.int 9) =
        (writtenRows, none) ∧
      PlainWalk storedRows [.text "rows", .text "1"] ∧
      storedRows.getAt? [.text "rows", .text "1"] = .ok (some (.list [.int 1, .int 2])) ∧
      (Value.list [.int 1, .int 2]).isContainer = true ∧
      ∃ later, writtenRows.getAt? [.text "rows", .text "1"] = .ok (some later) ∧
        Extends (.text " 1") (.list [.int 1, .int 2]) later :=
  ⟨setAt_storedRows, plainWalk_storedRows, rfl, rfl,
    extends_of_setAt setAt_storedRows plainWalk_storedRows rfl rfl⟩

/-! ### Where they part -/

/-- **A token that names an item for a write only** makes the write start anew: the outcome does not
depend on what the item was. -/
theorem setInside_forgets {items : List Value} {token next value : Value} {rest : Path} {i : ℕ}
    (hexact : exactIndex? token = .ok none) (hwrite : writeIndex? token = .ok (some i))
    (hi : i < items.length) (item : Value) :
    (Value.list (items.set i item)).setInside (token :: next :: rest) value =
      (Value.list items).setInside (token :: next :: rest) value := by
  have hpart : ∀ items : List Value, (Value.list items).exactPart? token = .ok none := by
    intro items
    unfold exactPart?
    dsimp only
    rw [hexact]
    rfl
  have hput : ∀ items : List Value, i < items.length → ∀ part,
      (Value.list items).put token part = .ok (.list (putItem items i part)) :=
    fun items hi part => put_list items hwrite (by omega) part
  have hsame : ∀ part, putItem (items.set i item) i part = putItem items i part := by
    intro part
    unfold putItem
    rw [List.length_set, ← List.set_append_left _ item hi, List.set_set]
  rw [setInside, setInside, hpart, hpart]
  dsimp only
  unfold putThen
  rw [hput _ (by rw [List.length_set]; exact hi), hput _ hi, hsame]

/-- A list inside a list, met by a token that names it for a read and a write, but not exactly. -/
theorem not_extends_padded :
    (Value.list [.int 0, .list [.int 1, .int 2]]).setAt ([.text " 1"] ++ .int 1 :: []) (.int 9) =
        (.list [.int 0, .list [.null, .int 9]], none) ∧
      (Value.list [.int 0, .list [.int 1, .int 2]]).getAt? [.text " 1"] =
        .ok (some (.list [.int 1, .int 2])) ∧
      ¬ ∃ later, (Value.list [.int 0, .list [.null, .int 9]]).getAt? [.text " 1"] =
          .ok (some later) ∧
        Extends (.int 1) (.list [.int 1, .int 2]) later := by
  refine ⟨rfl, rfl, ?_⟩
  rintro ⟨later, hlater, hextends⟩
  obtain rfl : Value.list [.null, .int 9] = later := Option.some.inj (Except.ok.inj hlater)
  have hwrite : writeIndex? (.int 1) = .ok (some 1) := rfl
  cases hextends with
  | list hitems =>
    have hfirst : some Value.null = some (.int 1) :=
      hitems 0 (by decide) (by rw [hwrite]; exact fun h => by cases h)
    cases hfirst

end PipeScript.Proofs.Path.Extension
