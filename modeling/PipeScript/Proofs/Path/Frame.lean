import PipeScript.Proofs.Path.RoundTrip

/-! # What a write leaves alone

A write that succeeds changes what a read along its own path finds.  A read along a path that turns
off somewhere finds what it found before, or a null with which a list was padded where it found
nothing before (`kept_of_setAt`), also where the write has decoded, created or padded what both
paths pass through.  The two paths have to meet lists with natural numbers or their plain texts, so
that tokens of different texts name different items.

The induction is on the path of the write.  As long as the tokens have the same texts, the read
goes into what the write left in the place of what the read went into before (`part?_of_put_same`);
at the first token that differs, the read goes past what was put (`kept_aside`).  A read that now
meets a list where there was nothing can also be refused, by an integer beyond the doubles
(`refused_behind_write`). -/

namespace PipeScript.Proofs.Path.Frame

open PipeScript.Value PipeScript.Path
open PipeScript.Proofs.Value.Entries PipeScript.Proofs.Path.Addressing
open PipeScript.Proofs.Number.Exact PipeScript.Proofs.Path.RoundTrip

/-! ### Two paths -/

/-- Neither path, as texts of its tokens, is the start of the other. -/
structure Diverge (path other : Path) : Prop where
  left : ¬ path.map asText <+: other.map asText
  right : ¬ other.map asText <+: path.map asText

/-- A read along the path meets every list with a natural number or its plain text. -/
def IndexedWalk : Value → Path → Prop
  | _, [] => True
  | v, token :: rest =>
    ((∃ items, v = .list items) → ∃ n, NamesPlainly n token) ∧
      ∀ part, v.part? token = .ok (some part) → IndexedWalk part.decoded rest

theorem Diverge.exists_cons {path other : Path} (h : Diverge path other) :
    ∃ token rest, other = token :: rest := by
  cases other with
  | nil => exact absurd List.nil_prefix h.right
  | cons token rest => exact ⟨token, rest, rfl⟩

theorem Diverge.symm {path other : Path} (h : Diverge path other) : Diverge other path :=
  ⟨h.right, h.left⟩

/-- Paths that start with the same text diverge behind it. -/
theorem Diverge.tail {token other : Value} {path rest : Path}
    (h : Diverge (token :: path) (other :: rest)) (htext : token.asText = other.asText) :
    Diverge path rest := by
  obtain ⟨hleft, hright⟩ := h
  rw [List.map_cons, List.map_cons, htext, List.cons_prefix_cons] at hleft hright
  exact ⟨fun h => hleft ⟨rfl, h⟩, fun h => hright ⟨rfl, h⟩⟩

/-! ### What a read may find instead -/

/-- A read along the path finds a null that is an item of a list. -/
def PaddingAt (v : Value) (path : Path) : Prop :=
  v.getAt? path = .ok (some .null) ∧ ∃ front token items i, path = front ++ [token] ∧
    v.getAt? front = .ok (some (.list items)) ∧
    readIndex? items.length token = .ok (some i) ∧ items[i]? = some .null

/-- The path has an integer beyond the doubles in it, by which the read is refused. -/
def BeyondDoubles (v : Value) (path : Path) : Prop :=
  v.getAt? path = .error .doubleOverflow ∧
    ∃ n : ℕ, Value.int n ∈ path ∧ (Number.int n).toBinary64? = none

/-- A read finds what it found before; where it found nothing it may find padding, or be refused. -/
def Kept (before after : Value) (path : Path) : Prop :=
  after.getAt? path = before.getAt? path ∨
    before.getAt? path = .ok none ∧ (PaddingAt after path ∨ BeyondDoubles after path)

/-- What holds of the parts under a token holds of the containers. -/
theorem Kept.step {before after base inner token : Value} {rest : Path}
    (hbefore : before.getAt? (token :: rest) = base.getAt? rest)
    (hafter : ∀ path, after.getAt? (token :: path) = inner.getAt? path)
    (h : Kept base inner rest) : Kept before after (token :: rest) := by
  rcases h with h | ⟨hnone, ⟨hread, front, last, items, i, rfl, hfront, hi, hnull⟩ |
    ⟨herror, n, hn, hbeyond⟩⟩
  · left
    rw [hafter, hbefore, h]
  · refine .inr ⟨by rw [hbefore, hnone], .inl ⟨by rw [hafter, hread], ?_⟩⟩
    exact ⟨token :: front, last, items, i, rfl, by rw [hafter, hfront], hi, hnull⟩
  · refine .inr ⟨by rw [hbefore, hnone], .inr ⟨?_, n, List.mem_cons_of_mem _ hn, hbeyond⟩⟩
    rw [hafter, herror]

/-! ### Steps into a container -/

theorem getAt?_congr {before after token : Value} {rest : Path}
    (hbefore : before.isContainer = true) (hafter : after.isContainer = true)
    (h : after.part? token = before.part? token) :
    after.getAt? (token :: rest) = before.getAt? (token :: rest) := by
  rw [getAt?, getAt?, isNull_of_isContainer hbefore, isNull_of_isContainer hafter, h]

theorem getAt?_of_none {v token : Value} (h : v.part? token = .ok none) (rest : Path) :
    v.getAt? (token :: rest) = .ok none := by
  rw [getAt?, h]
  split_ifs <;> rfl

theorem getAt?_of_error {v token : Value} {fault : Fault} (hv : v.isContainer = true)
    (h : v.part? token = .error fault) (rest : Path) :
    v.getAt? (token :: rest) = .error fault := by
  rw [getAt?, isNull_of_isContainer hv, h]
  rfl

/-- The item under a plain name. -/
theorem part?_list_plain {items : List Value} {token : Value} {n : ℕ} (h : NamesPlainly n token)
    (hitem : itemNumber token = .ok token.asNumber) (hlength : items.length ≤ 2 ^ 53) :
    (Value.list items).part? token = .ok items[n]? := by
  unfold part?
  dsimp only
  rw [readIndex?_plain h hlength hitem]
  split_ifs with hn
  · rfl
  · rw [List.getElem?_eq_none (by omega)]
    rfl

theorem part?_list_refused (items : List Value) {token : Value}
    (h : itemNumber token = .error .doubleOverflow) :
    (Value.list items).part? token = .error .doubleOverflow := by
  unfold part?
  dsimp only
  rw [readIndex?_refused h]
  rfl

/-- A plain name below `2^53` is not refused. -/
theorem itemNumber_of_lt {n : ℕ} {token : Value} (h : NamesPlainly n token) (hn : n < 2 ^ 53) :
    itemNumber token = .ok token.asNumber := by
  rcases itemNumber_plain h with hok | ⟨-, -, hbeyond⟩
  · exact hok
  · have hdouble := isSome_toBinary64? hn
    rw [hbeyond] at hdouble
    cases hdouble

/-- **Where a plain name puts a part** into a list that stays short. -/
theorem list_of_put {items : List Value} {token part updated : Value} {n : ℕ}
    (h : (Value.list items).put token part = .ok updated) (hn : NamesPlainly n token)
    (hshort : ShortLists (2 ^ 53) updated) :
    updated = .list (putItem items n part) ∧ items.length < 2 ^ 53 ∧ n < 2 ^ 53 ∧
      (putItem items n part).length < 2 ^ 53 := by
  obtain ⟨others, i, heq, hwrite, -, rfl⟩ | ⟨entries, heq, -⟩ := put_cases h
  · cases heq
    cases hshort with
    | list hlength _ =>
      have hmax := length_putItem items i part
      obtain rfl : i = n := writeIndex?_plain hn hwrite (by omega)
      exact ⟨rfl, by omega, by omega, hlength⟩
  · cases heq

theorem getElem?_putItem_padding {items : List Value} {i j : ℕ} (hj : items.length ≤ j)
    (hi : j < i) (part : Value) : (putItem items i part)[j]? = some .null := by
  unfold putItem
  rw [List.getElem?_set_ne (by omega), List.getElem?_append_right hj,
    List.getElem?_replicate_of_lt (by omega)]

theorem getElem?_putItem_behind {items : List Value} {i j : ℕ} (hj : items.length ≤ j)
    (hi : i < j) (part : Value) : (putItem items i part)[j]? = none := by
  rw [List.getElem?_eq_none]
  rw [length_putItem]
  omega

/-- A write of a part keeps the kind of the container. -/
theorem list_iff_of_put {container token part updated : Value}
    (h : container.put token part = .ok updated) :
    (∃ items, container = .list items) ↔ ∃ items, updated = .list items := by
  obtain ⟨items, i, rfl, -, -, rfl⟩ | ⟨entries, rfl, rfl⟩ := put_cases h
  · exact ⟨fun _ => ⟨_, rfl⟩, fun _ => ⟨_, rfl⟩⟩
  · exact ⟨fun ⟨_, heq⟩ => (nomatch heq), fun ⟨_, heq⟩ => (nomatch heq)⟩

/-! ### Past what was put -/

/-- A null of the padding is found at the end of a path, and leads nowhere before that. -/
theorem kept_padding {before after token : Value} {rest : Path}
    (hbefore : before.getAt? (token :: rest) = .ok none) (hafter : after.isContainer = true)
    (hpart : after.part? token = .ok (some .null))
    (hnull : ∃ items i, after = .list items ∧ readIndex? items.length token = .ok (some i) ∧
      items[i]? = some .null) : Kept before after (token :: rest) := by
  cases rest with
  | nil =>
    obtain ⟨items, i, rfl, hi, hitem⟩ := hnull
    have hread : (Value.list items).getAt? [token] = .ok (some .null) := by
      rw [getAt?_cons rfl hpart]
      rfl
    exact .inr ⟨hbefore, .inl ⟨hread, [], token, items, i, rfl, rfl, hi, hitem⟩⟩
  | cons next rest =>
    left
    rw [hbefore, getAt?_cons hafter hpart]
    rfl

/-- Another item of a list is as it was, unless it is a null of the padding now. -/
theorem kept_beside {items : List Value} {other part : Value} {n m : ℕ} (hm : NamesPlainly m other)
    (hne : n ≠ m) (hitems : items.length ≤ 2 ^ 53)
    (hlength : (putItem items n part).length ≤ 2 ^ 53) (rest : Path) :
    Kept (.list items) (.list (putItem items n part)) (other :: rest) := by
  rcases itemNumber_plain hm with hitem | ⟨hrefused, -, -⟩
  · have hbefore := part?_list_plain hm hitem hitems
    have hafter := part?_list_plain hm hitem hlength
    rcases Nat.lt_or_ge m items.length with hin | hout
    · left
      refine getAt?_congr rfl rfl ?_
      rw [hafter, hbefore, getElem?_putItem_ne hin hne]
    · rw [List.getElem?_eq_none hout] at hbefore
      rcases Nat.lt_or_ge m n with hpad | hbehind
      · have hnull := getElem?_putItem_padding hout hpad part
        rw [hnull] at hafter
        have hread := readIndex?_plain hm hlength hitem
        rw [if_pos (List.getElem?_eq_some_iff.mp hnull).1] at hread
        exact kept_padding (getAt?_of_none hbefore rest) rfl hafter ⟨_, m, rfl, hread, hnull⟩
      · left
        refine getAt?_congr rfl rfl ?_
        rw [hafter, hbefore, getElem?_putItem_behind hout (by omega)]
  · left
    refine getAt?_congr rfl rfl ?_
    rw [part?_list_refused _ hrefused, part?_list_refused _ hrefused]

/-- **A token with another text** is read past what was put: it finds what it found before, unless
it now meets a null of the padding. -/
theorem kept_aside {container token other part updated : Value} {rest : Path}
    (h : container.put token part = .ok updated) (hshort : ShortLists (2 ^ 53) updated)
    (htoken : (∃ items, updated = .list items) → ∃ n, NamesPlainly n token)
    (hother : (∃ items, updated = .list items) → ∃ n, NamesPlainly n other)
    (hne : token.asText ≠ other.asText) : Kept container updated (other :: rest) := by
  rcases container with s | items | entries
  · cases h
  · obtain ⟨n, hn⟩ := htoken ((list_iff_of_put h).mp ⟨items, rfl⟩)
    obtain ⟨m, hm⟩ := hother ((list_iff_of_put h).mp ⟨items, rfl⟩)
    obtain ⟨rfl, hitems, -, hlength⟩ := list_of_put h hn hshort
    have hnm : n ≠ m := by
      rintro rfl
      refine hne (String.toList_inj.mp ?_)
      rw [hn.toList_asText, hm.toList_asText]
    exact kept_beside hm hnm hitems.le hlength.le rest
  · cases h
    left
    refine getAt?_congr rfl rfl ?_
    unfold part?
    dsimp only
    rw [get?_insert_text_ne hne]

/-! ### Into what was put -/

section Same

variable {container token other part updated : Value}
  (h : container.put token part = .ok updated) (hshort : ShortLists (2 ^ 53) updated)
  (htoken : (∃ items, updated = .list items) → ∃ n, NamesPlainly n token)
  (hother : (∃ items, updated = .list items) → ∃ n, NamesPlainly n other)
  (htext : token.asText = other.asText)
include h hshort htoken hother htext

/-- **A token with the same text** is read into what was put. -/
theorem part?_of_put_same : updated.part? other = .ok (some part) := by
  rcases container with s | items | entries
  · cases h
  · obtain ⟨n, hn⟩ := htoken ((list_iff_of_put h).mp ⟨items, rfl⟩)
    obtain ⟨m, hm⟩ := hother ((list_iff_of_put h).mp ⟨items, rfl⟩)
    obtain rfl := hn.unique hm htext
    obtain ⟨rfl, -, hlow, hlength⟩ := list_of_put h hn hshort
    rw [part?_list_plain hm (itemNumber_of_lt hm hlow) hlength.le, getElem?_putItem]
  · cases h
    unfold part?
    dsimp only
    rw [← htext, get?_insert_text]

/-- Before the write it was read into what the write has found there. -/
theorem part?_before_put {found : Option Value} (hfound : container.exactPart? token = .ok found) :
    container.part? other = .ok found := by
  rcases container with s | items | entries
  · cases h
  · obtain ⟨n, hn⟩ := htoken ((list_iff_of_put h).mp ⟨items, rfl⟩)
    obtain ⟨m, hm⟩ := hother ((list_iff_of_put h).mp ⟨items, rfl⟩)
    obtain rfl := hn.unique hm htext
    obtain ⟨rfl, hitems, hlow, -⟩ := list_of_put h hn hshort
    rw [part?_list_plain hm (itemNumber_of_lt hm hlow) hitems.le, ← hfound]
    unfold exactPart?
    dsimp only
    rcases exactIndex?_plain hn with hexact | ⟨fault, hexact⟩
    · rw [hexact]
      rfl
    · unfold exactPart? at hfound
      dsimp only at hfound
      rw [hexact] at hfound
      cases hfound
  · rw [← hfound]
    unfold exactPart? part?
    dsimp only
    rw [htext]

end Same

/-! ### Steps of a write -/

/-- **One step of a write**: it goes on in a new container where there is nothing or a null, else in
what is there, decoded; and puts the result in its place. -/
theorem setInside_descends {container token next updated value : Value} {rest : Path}
    (h : container.setInside (token :: next :: rest) value = (updated, none))
    (hshort : ShortLists (2 ^ 53) updated) :
    ∃ found base inner, container.exactPart? token = .ok found ∧
      base.setInside (next :: rest) value = (inner, none) ∧
      container.put token inner = .ok updated ∧
      ((found = none ∨ found = some .null) ∧ base = emptyFor next ∨
        ∃ part, found = some part ∧ base = part.decoded) := by
  have hcontainer := isContainer_of_write h
  rw [setInside] at h
  split at h
  · cases h
  · next heq =>
    obtain ⟨before, inner, hput, hinner, hagain⟩ := put_of_putThen h
    rw [put_put hput] at hagain
    exact ⟨none, emptyFor next, inner, heq, hinner, hagain, .inl ⟨.inl rfl, rfl⟩⟩
  · next heq =>
    obtain ⟨before, inner, hput, hinner, hagain⟩ := put_of_putThen h
    rw [put_put hput] at hagain
    exact ⟨some .null, emptyFor next, inner, heq, hinner, hagain, .inl ⟨.inr rfl, rfl⟩⟩
  · next s heq =>
    rcases hparse : Json.parse? s with _ | decoded
    · rw [hparse] at h
      exact absurd (congrArg Prod.snd h) (setInside_scalar (.text s) _ _)
    · rw [hparse] at h
      obtain ⟨before, inner, hput, hinner, hagain⟩ := put_of_putThen h
      rw [put_put hput] at hagain
      have hdecoded : decoded = (Value.text s).decoded := by
        unfold Value.decoded
        dsimp only
        rw [hparse]
        rfl
      exact ⟨_, decoded, inner, heq, hinner, hagain, .inr ⟨_, rfl, hdecoded⟩⟩
  · next part _ _ heq =>
    rcases hinner : part.setInside (next :: rest) value with ⟨inner, fault⟩
    rw [hinner] at h
    obtain ⟨rfl, rfl⟩ := Prod.mk.inj h
    have hdecoded := decoded_of_isContainer (isContainer_of_write hinner)
    exact ⟨_, part, inner, heq, hinner, put_of_exactPart? hcontainer heq inner hshort,
      .inr ⟨part, rfl, hdecoded.symm⟩⟩

/-- A write that succeeds puts something under its first token. -/
theorem exists_put {container token updated value : Value} {rest : Path}
    (h : container.setInside (token :: rest) value = (updated, none))
    (hshort : ShortLists (2 ^ 53) updated) : ∃ part, container.put token part = .ok updated := by
  cases rest with
  | nil =>
    rw [setInside] at h
    rcases hput : container.put token value with fault | after
    · rw [hput] at h
      cases h
    · rw [hput] at h
      obtain ⟨rfl, -⟩ := Prod.mk.inj h
      exact ⟨value, hput⟩
  | cons next rest =>
    obtain ⟨found, base, inner, -, -, hput, -⟩ := setInside_descends h hshort
    exact ⟨inner, hput⟩

/-! ### New containers -/

/-- Nothing is read from a new container, but a read may be refused there. -/
theorem getAt?_emptyFor {next token : Value}
    (hplain : (∃ items, emptyFor next = .list items) → ∃ n, NamesPlainly n token) (rest : Path) :
    (emptyFor next).getAt? (token :: rest) = .ok none ∨
      (emptyFor next).getAt? (token :: rest) = .error .doubleOverflow ∧
        ∃ n : ℕ, token = .int n ∧ (Number.int n).toBinary64? = none := by
  unfold emptyFor at hplain ⊢
  split_ifs at hplain ⊢ with hnumeric
  · obtain ⟨n, hn⟩ := hplain ⟨[], rfl⟩
    rcases itemNumber_plain hn with hitem | ⟨hrefused, hint, hbeyond⟩
    · exact .inl (getAt?_of_none (part?_list_plain hn hitem (Nat.zero_le _)) rest)
    · exact .inr ⟨getAt?_of_error rfl (part?_list_refused [] hrefused) rest, n, hint, hbeyond⟩
  · exact .inl (getAt?_of_none rfl rest)

theorem getAt?_null {token : Value} (rest : Path) : Value.null.getAt? (token :: rest) = .ok none :=
  rfl

/-- What is kept of a new container is kept of nothing. -/
theorem Kept.of_empty {next token after : Value} {rest : Path}
    (h : Kept (emptyFor next) after (token :: rest))
    (hplain : (∃ items, emptyFor next = .list items) → ∃ n, NamesPlainly n token) :
    Kept .null after (token :: rest) := by
  rcases getAt?_emptyFor hplain rest with hnone | ⟨herror, n, hint, hbeyond⟩
  · rcases h with h | ⟨-, h⟩
    · left
      rw [h, hnone, getAt?_null]
    · exact .inr ⟨getAt?_null rest, h⟩
  · rcases h with h | ⟨hnone, -⟩
    · refine .inr ⟨getAt?_null rest, .inr ⟨h.trans herror, n, ?_, hbeyond⟩⟩
      rw [hint]
      exact List.mem_cons_self ..
    · cases hnone.symm.trans herror

/-! ### The whole path -/

/-- **What is off the path of a write inside a value is kept.** -/
theorem kept_of_setInside {container updated value : Value} {path other : Path}
    (h : container.setInside path value = (updated, none)) (hshort : ShortLists (2 ^ 53) updated)
    (hpath : IndexedWalk updated path) (hother : IndexedWalk updated other)
    (hdiverge : Diverge path other) : Kept container updated other := by
  induction path generalizing container updated other with
  | nil => cases h
  | cons token path ih =>
    obtain ⟨turn, rest, rfl⟩ := hdiverge.exists_cons
    by_cases htext : token.asText = turn.asText
    · have htail := hdiverge.tail htext
      obtain ⟨next, onward, rfl⟩ := htail.symm.exists_cons
      obtain ⟨step, back, rfl⟩ := htail.exists_cons
      obtain ⟨found, base, inner, hfound, hinner, hput, hbase⟩ := setInside_descends h hshort
      have hread := part?_of_put_same hput hshort hpath.1 hother.1 htext
      have hbefore := part?_before_put hput hshort hpath.1 hother.1 htext hfound
      have hdecoded := decoded_of_isContainer (isContainer_of_setInside hinner)
      have hafter : ∀ path, updated.getAt? (turn :: path) = inner.getAt? path := by
        intro path
        rw [getAt?_cons (isContainer_of_put hput) hread, hdecoded]
      have hinnerPath := hpath.2 inner (part?_of_put hput)
      have hinnerOther := hother.2 inner hread
      rw [hdecoded] at hinnerPath hinnerOther
      have hinnerShort := shortLists_of_put hput hshort
      have hkept := ih hinner hinnerShort hinnerPath hinnerOther htail
      -- the write goes on in a new container, or in what it has found there
      rcases hbase with ⟨hnothing, rfl⟩ | ⟨part, rfl, rfl⟩
      · have hplain : (∃ items, emptyFor next = .list items) → ∃ n, NamesPlainly n step := by
          obtain ⟨part, hinnerPut⟩ := exists_put hinner hinnerShort
          exact fun hlist => hinnerOther.1 ((list_iff_of_put hinnerPut).mp hlist)
        have hnull : Kept .null inner (step :: back) := hkept.of_empty hplain
        refine hnull.step ?_ hafter
        rcases hnothing with rfl | rfl
        · rw [getAt?_of_none hbefore, getAt?_null]
        · rw [getAt?_cons (isContainer_of_write h) hbefore]
          rfl
      · exact hkept.step (getAt?_cons (isContainer_of_write h) hbefore) hafter
    · obtain ⟨part, hput⟩ := exists_put h hshort
      exact kept_aside hput hshort hpath.1 hother.1 htext

/-- A write that succeeds is one inside the collection, or inside a new container for a null. -/
theorem setInside_of_setAt {collection token updated value : Value} {rest : Path}
    (h : collection.setAt (token :: rest) value = (updated, none)) :
    collection.setInside (token :: rest) value = (updated, none) ∨
      collection = .null ∧ (emptyFor token).setInside (token :: rest) value = (updated, none) := by
  by_cases hnull : collection = .null
  · subst hnull
    rw [setAt] at h
    rcases hinside : (emptyFor token).setInside (token :: rest) value with ⟨after, _ | fault⟩
    · rw [hinside] at h
      exact .inr ⟨rfl, h⟩
    · rw [hinside] at h
      cases h
  · rw [setAt_eq_setInside hnull] at h
    exact .inl h

/-- **What a write leaves alone**: after a write that succeeds, a read along a path that turns off
finds what it found before.  Where it found nothing it may find a null of the padding, or be refused
by an integer beyond the doubles. -/
theorem kept_of_setAt {collection updated value : Value} {path other : Path}
    (h : collection.setAt path value = (updated, none)) (hshort : ShortLists (2 ^ 53) updated)
    (hpath : IndexedWalk updated path) (hother : IndexedWalk updated other)
    (hdiverge : Diverge path other) : Kept collection updated other := by
  obtain ⟨token, rest, rfl⟩ := hdiverge.symm.exists_cons
  rcases setInside_of_setAt h with hinside | ⟨rfl, hinside⟩
  · exact kept_of_setInside hinside hshort hpath hother hdiverge
  · obtain ⟨turn, back, rfl⟩ := hdiverge.exists_cons
    obtain ⟨part, hput⟩ := exists_put hinside hshort
    have hkept := kept_of_setInside hinside hshort hpath hother hdiverge
    exact hkept.of_empty fun hlist => hother.1 ((list_iff_of_put hput).mp hlist)

/-- A list that was stored as text, decoded, with an item put in behind a padded one. -/
def writtenText : Value := .dict [(.text "a", .list [.int 7, .null, .bool true])]

theorem setAt_writtenText :
    textList.setAt [.text "a", .int 2] (.bool true) = (writtenText, none) := rfl

theorem shortLists_writtenText : ShortLists (2 ^ 53) writtenText := by
  refine .dict fun entry hentry => ?_
  obtain rfl := List.mem_singleton.mp hentry
  refine .list (by decide) fun item hitem => ?_
  simp only [List.mem_cons, List.not_mem_nil, or_false] at hitem
  rcases hitem with rfl | rfl | rfl
  · exact .scalar _
  · exact .scalar _
  · exact .scalar _

theorem indexedWalk_pair {entries : Entries Value} {name : String} {token : Value} {n : ℕ}
    (h : NamesPlainly n token) : IndexedWalk (.dict entries) [.text name, token] := by
  refine ⟨fun ⟨_, heq⟩ => (nomatch heq), fun part _ => ?_⟩
  exact ⟨fun _ => ⟨n, h⟩, fun _ _ => trivial⟩

theorem diverge_pair {name : String} {token other : Value} (h : token.asText ≠ other.asText) :
    Diverge [.text name, token] [.text name, other] := by
  constructor
  · intro hstart
    exact h (by simpa using hstart)
  · intro hstart
    exact h.symm (by simpa using hstart)

theorem kept_textList :
    textList.setAt [.text "a", .int 2] (.bool true) = (writtenText, none) ∧
      ShortLists (2 ^ 53) writtenText ∧
      IndexedWalk writtenText [.text "a", .int 2] ∧
      IndexedWalk writtenText [.text "a", .text "0"] ∧
      Diverge [.text "a", .int 2] [.text "a", .text "0"] ∧
      Kept textList writtenText [.text "a", .text "0"] :=
  have hpath : IndexedWalk writtenText [.text "a", .int 2] := indexedWalk_pair (n := 2) (.inl rfl)
  have hother : IndexedWalk writtenText [.text "a", .text "0"] :=
    indexedWalk_pair (n := 0) (.inr rfl)
  have hdiverge : Diverge [.text "a", .int 2] [.text "a", .text "0"] := diverge_pair (by decide)
  ⟨setAt_writtenText, shortLists_writtenText, hpath, hother, hdiverge,
    kept_of_setAt setAt_writtenText shortLists_writtenText hpath hother hdiverge⟩

/-- A write makes a list where a read found nothing; the read is refused there. -/
theorem refused_behind_write :
    (Value.dict []).setAt [.text "a", .int 0] (.int 1) =
        (.dict [(.text "a", .list [.int 1])], none) ∧
      ShortLists (2 ^ 53) (.dict [(.text "a", .list [.int 1])]) ∧
      IndexedWalk (.dict [(.text "a", .list [.int 1])]) [.text "a", .int 0] ∧
      IndexedWalk (.dict [(.text "a", .list [.int 1])]) [.text "a", .int (2 ^ 1024 : ℕ)] ∧
      Diverge [.text "a", .int 0] [.text "a", .int (2 ^ 1024 : ℕ)] ∧
      (Value.dict []).getAt? [.text "a", .int (2 ^ 1024 : ℕ)] = .ok none ∧
      (Value.dict [(.text "a", .list [.int 1])]).getAt? [.text "a", .int (2 ^ 1024 : ℕ)] =
        .error .doubleOverflow := by
  have hshort : ShortLists (2 ^ 53) (.dict [(.text "a", .list [.int 1])]) := by
    refine .dict fun entry hentry => ?_
    obtain rfl := List.mem_singleton.mp hentry
    refine .list (by decide) fun item hitem => ?_
    obtain rfl := List.mem_singleton.mp hitem
    exact .scalar _
  have hzero : NamesPlainly 0 (.int 0) := .inl rfl
  have hlarge : NamesPlainly (2 ^ 1024) (.int (2 ^ 1024 : ℕ)) := .inl rfl
  have hbeyond : (Number.int (2 ^ 1024 : ℕ)).toBinary64? = none :=
    Option.isNone_iff_eq_none.mp (by decide +kernel)
  have hread : ∀ token, itemNumber token = .error .doubleOverflow →
      (Value.dict [(.text "a", .list [.int 1])]).getAt? [.text "a", token] =
        .error .doubleOverflow := by
    intro token h
    have hlist : (Value.dict [(.text "a", .list [.int 1])]).part? (.text "a") =
        .ok (some (.list [.int 1])) := rfl
    rw [getAt?_cons rfl hlist]
    exact getAt?_of_error rfl (part?_list_refused [.int 1] h) []
  refine ⟨rfl, hshort, indexedWalk_pair hzero, indexedWalk_pair hlarge,
    diverge_pair fun htext => ?_, rfl, ?_⟩
  · exact pow_ne_zero 1024 two_ne_zero (hzero.unique hlarge htext).symm
  · exact hread _ (itemNumber_beyond hbeyond)

end PipeScript.Proofs.Path.Frame
