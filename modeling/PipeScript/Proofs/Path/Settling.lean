import PipeScript.Proofs.Json.Settling
import PipeScript.Proofs.Path.Outcome

/-! # Writes into settled values

Writing a decoded value into a decoded value leaves a decoded value (`decoded_write?`).  A write
takes the same way into a value and into what its JSON text is read as, and leaves the same text,
unless it meets a number on its way that is not finite (`settle_write?`).  For it looks at the kind
of what it meets: it gets stuck in every number and replaces a null, and only a number that is not
finite settles to a null. -/

namespace PipeScript.Proofs.Path.Settling

open PipeScript.Value PipeScript.Path
open PipeScript.Proofs.Value.Entries PipeScript.Proofs.Json.Reading
open PipeScript.Proofs.Json.Settling PipeScript.Proofs.Path.RoundTrip
open PipeScript.Proofs.Path.Outcome

/-! ### Decoded values stay decoded -/

theorem decoded_emptyFor (token : Value) : Decoded (emptyFor token) := by
  unfold emptyFor
  split_ifs
  · exact .list (by simp)
  · exact .dict ⟨by simp, List.nodup_nil⟩ (by simp)

theorem decoded_putItem {items : List Value} {part : Value}
    (hitems : ∀ item ∈ items, Decoded item) (hpart : Decoded part) (i : ℕ) :
    ∀ item ∈ putItem items i part, Decoded item := by
  intro item hitem
  rcases List.mem_or_eq_of_mem_set hitem with hitem | rfl
  · rcases List.mem_append.mp hitem with hitem | hitem
    · exact hitems item hitem
    · rw [List.eq_of_mem_replicate hitem]
      exact .null
  · exact hpart

theorem decoded_put {container token part updated : Value} (hcontainer : Decoded container)
    (hpart : Decoded part) (h : container.put token part = .ok updated) : Decoded updated := by
  obtain ⟨items, i, rfl, -, -, rfl⟩ | ⟨entries, rfl, rfl⟩ := put_cases h
  · cases hcontainer with
    | list hitems => exact .list (decoded_putItem hitems hpart i)
  · cases hcontainer with
    | dict hkeys hitems =>
      refine .dict (textKeys_insert hkeys _ part) fun entry hentry => ?_
      rcases mem_insert_text hentry with rfl | hentry
      · exact hpart
      · exact hitems entry hentry

theorem decoded_putOrKeep {container token part : Value} (hcontainer : Decoded container)
    (hpart : Decoded part) : Decoded (container.putOrKeep token part) := by
  rcases hput : container.put token part with fault | updated
  · unfold putOrKeep
    rw [hput]
    exact hcontainer
  · rw [putOrKeep_of_put hput]
    exact decoded_put hcontainer hpart hput

theorem decoded_exactPart? {container token part : Value} (hcontainer : Decoded container)
    (h : container.exactPart? token = .ok (some part)) : Decoded part := by
  rcases container with s | items | entries
  · cases s with
    | text s =>
      rcases exactPart?_text s token with ⟨_, -, heq⟩ | heq | ⟨t, heq⟩ <;> rw [heq] at h <;> cases h
      exact .text t
    | null | bool | number | moment => cases h
  · unfold exactPart? at h
    dsimp only at h
    rcases hexact : exactIndex? token with fault | _ | i <;> rw [hexact] at h
    · cases h
    · cases h
    · have hitem : items[i]? = some part := Except.ok.inj h
      cases hcontainer with
      | list hitems => exact hitems part (List.mem_of_getElem? hitem)
  · have hentry : Entries.get? (.text token.asText) entries = some part := Except.ok.inj h
    obtain ⟨key, hkey⟩ := mem_of_get? hentry
    cases hcontainer with
    | dict _ hitems => exact hitems _ hkey

/-- The part in which a write goes on is decoded. -/
theorem decoded_moveTo (next : Value) {found : Except Fault (Option Value)}
    (hfound : ∀ part, found = .ok (some part) → Decoded part) :
    (∀ part, moveTo next found = .fresh part → Decoded part) ∧
      ∀ part, moveTo next found = .into part → Decoded part := by
  unfold moveTo
  split
  · exact ⟨fun _ h => (nomatch h), fun _ h => (nomatch h)⟩
  · refine ⟨fun part h => ?_, fun _ h => (nomatch h)⟩
    cases h
    exact decoded_emptyFor next
  · refine ⟨fun part h => ?_, fun _ h => (nomatch h)⟩
    cases h
    exact decoded_emptyFor next
  · next s =>
    rcases hparse : Json.parse? s with _ | inner
    · exact ⟨fun _ h => (nomatch h), fun _ h => (nomatch h)⟩
    · refine ⟨fun part h => ?_, fun _ h => (nomatch h)⟩
      cases h
      exact closed_of_parse? readClosed_decoded hparse
  · refine ⟨fun _ h => (nomatch h), fun part h => ?_⟩
    cases h
    exact hfound _ rfl

theorem decoded_writeInside? {container updated value : Value} {path : Path}
    (hcontainer : Decoded container) (hvalue : Decoded value)
    (h : writeInside? container path value = some updated) : Decoded updated := by
  induction path generalizing container updated with
  | nil => cases h
  | cons token rest ih =>
    cases rest with
    | nil =>
      rw [writeInside?_singleton] at h
      rcases hput : container.put token value with fault | after
      · rw [hput] at h
        cases h
      · rw [hput] at h
        cases h
        exact decoded_put hcontainer hvalue hput
    | cons next rest =>
      obtain ⟨hfresh, hinto⟩ := decoded_moveTo next
        fun part (hpart : container.exactPart? token = .ok (some part)) =>
          decoded_exactPart? hcontainer hpart
      rw [writeInside?_cons] at h
      split at h
      · cases h
      · next part hmove =>
        obtain ⟨inner, hinner, hput⟩ := Option.bind_eq_some_iff.mp h
        rcases hafter : container.put token inner with fault | after
        · rw [hafter] at hput
          cases hput
        · rw [hafter] at hput
          cases hput
          exact decoded_put hcontainer (ih (hfresh part hmove) hinner) hafter
      · next part hmove =>
        obtain ⟨inner, hinner, rfl⟩ := Option.map_eq_some_iff.mp h
        exact decoded_putOrKeep hcontainer (ih (hinto part hmove) hinner)

/-- **Writes keep values decoded.** -/
theorem decoded_write? {collection updated value : Value} {path : Path}
    (hcollection : Decoded collection) (hvalue : Decoded value)
    (h : write? collection path value = some updated) : Decoded updated := by
  by_cases hnull : collection = .null
  · subst hnull
    cases path with
    | nil =>
      rw [write?_nil] at h
      cases h
    | cons token rest =>
      rw [write?_null] at h
      exact decoded_writeInside? (decoded_emptyFor token) hvalue h
  · rw [write?_of_ne_null hnull] at h
    exact decoded_writeInside? hcollection hvalue h

/-! ### The same way into the settled value -/

/-- A number that is not finite. -/
def isUnbounded : Value → Bool
  | .number (.float x) => !x.isFinite
  | _ => false

/-- Whether a write meets a number on its way that is not finite, in what was there before it. -/
def meetsUnbounded : Value → Path → Bool
  | container, token :: next :: rest =>
    match moveTo next (container.exactPart? token) with
    | .into part => isUnbounded part || meetsUnbounded part (next :: rest)
    | _ => false
  | _, _ => false

theorem map_putItem (items : List Value) (i : ℕ) (part : Value) :
    (putItem items i part).map settle = putItem (items.map settle) i (settle part) := by
  unfold putItem
  rw [List.map_set, List.map_append, List.map_replicate, List.length_map]
  rfl

/-- A part is put into a settled container as into the container. -/
theorem put_settle (container token part : Value) :
    ((settle container).put token (settle part)).toOption =
      (container.put token part).toOption.map settle := by
  rcases container with s | items | entries
  · rfl
  · rw [settle_list]
    unfold put
    dsimp only
    rw [List.length_map]
    rcases writeIndex? token with fault | _ | i
    · rfl
    · rfl
    · dsimp only
      split_ifs
      · rw [← map_putItem, ← settle_list]
        rfl
      · rfl
  · rw [settle_dict]
    unfold put
    dsimp only
    rw [← mapItems_insert, ← settle_dict]
    rfl

theorem putOrKeep_settle (container token part : Value) :
    (settle container).putOrKeep token (settle part) = settle (container.putOrKeep token part) := by
  have hput := put_settle container token part
  unfold putOrKeep
  generalize (settle container).put token (settle part) = settled at hput ⊢
  generalize container.put token part = plain at hput ⊢
  rcases settled with fault | updated <;> rcases plain with other | after
  · rfl
  · cases hput
  · cases hput
  · exact Option.some.inj hput

/-- What is put into a settled container settles as what is put into the container. -/
theorem put_settled {container part inner : Value} (hcontainer : Decoded container)
    (h : settle part = settle inner) (token : Value) :
    ((settle container).put token part).toOption.map settle =
      (container.put token inner).toOption.map settle := by
  rw [← put_settle, ← put_settle, settle_settle hcontainer, h]

theorem putOrKeep_settled {container part inner : Value} (hcontainer : Decoded container)
    (h : settle part = settle inner) (token : Value) :
    settle ((settle container).putOrKeep token part) =
      settle (container.putOrKeep token inner) := by
  rw [← putOrKeep_settle, ← putOrKeep_settle, settle_settle hcontainer, h]

/-- The part under a token of a settled container is the settled part. -/
theorem exactPart?_settle {container : Value} (hcontainer : Decoded container) (token : Value) :
    (settle container).exactPart? token = (container.exactPart? token).map (Option.map settle) := by
  cases hcontainer with
  | text s =>
    rcases exactPart?_text s token with ⟨fault, -, h⟩ | h | ⟨t, h⟩
    all_goals
      rw [settle_scalar (by simp), h]
      rfl
  | null | bool => rfl
  | int hi => rw [settle_int hi]; rfl
  | float x =>
    rw [settle, settleScalar]
    rcases settleNumber_float x with ⟨-, n, -, -, hsettle⟩ | ⟨-, -, hsettle⟩
    · rw [hsettle]
      rfl
    · rw [hsettle]
      rfl
  | @list items hitems =>
    rw [settle_list]
    unfold exactPart?
    dsimp only
    rcases exactIndex? token with fault | _ | i
    · rfl
    · rfl
    · change Except.ok ((some i).bind _) = Except.ok (Option.map settle ((some i).bind _))
      rw [Option.bind_some, Option.bind_some, List.getElem?_map]
  | @dict entries hkeys hitems =>
    rw [settle_dict]
    unfold exactPart? part?
    dsimp only
    rw [get?_mapItems]
    rfl

/-- The same way on in the settled part. -/
def settleMove : Move → Move
  | .into part => .into (settle part)
  | move => move

/-- **A write goes on in the same way** where the part is no number without bounds. -/
theorem moveTo_settle (next : Value) (found : Except Fault (Option Value))
    (hfound : ∀ part, found = .ok (some part) → Decoded part)
    (hbounded : ∀ part, moveTo next found = .into part → isUnbounded part = false) :
    moveTo next (found.map (Option.map settle)) = settleMove (moveTo next found) := by
  rcases found with fault | _ | part
  · rfl
  · rfl
  · change moveTo next (.ok (some (settle part))) = _
    cases hfound part rfl with
    | null | bool => rfl
    | text s =>
      rw [settle_scalar (by simp), moveTo]
      rcases Json.parse? s with _ | inner
      · rfl
      · rfl
    | @int i hi =>
      rw [settle_int hi]
      exact congrArg Move.into (settle_int hi).symm
    | float x =>
      rcases settleNumber_float x with ⟨-, n, -, -, hsettle⟩ | ⟨hx, -, -⟩
      · have hpart : settle (.number (.float x)) = .number n := congrArg _ hsettle
        rw [hpart]
        exact congrArg Move.into hpart.symm
      · have hfinite := hbounded _ rfl
        rw [isUnbounded, hx] at hfinite
        cases hfinite
    | list =>
      rw [settle_list]
      exact congrArg Move.into (settle_list _).symm
    | dict =>
      rw [settle_dict]
      exact congrArg Move.into (settle_dict _).symm

/-- **Writes inside a settled value.** -/
theorem settle_writeInside? {container : Value} {path : Path} (hcontainer : Decoded container)
    (hmeets : meetsUnbounded container path = false) (value : Value) :
    (writeInside? (settle container) path value).map settle =
      (writeInside? container path value).map settle := by
  induction path generalizing container with
  | nil => rfl
  | cons token rest ih =>
    cases rest with
    | nil => rw [writeInside?_singleton, writeInside?_singleton, put_settled hcontainer rfl]
    | cons next rest =>
      obtain ⟨-, hdecoded⟩ := decoded_moveTo next
        fun part (hpart : container.exactPart? token = .ok (some part)) =>
          decoded_exactPart? hcontainer hpart
      rw [meetsUnbounded] at hmeets
      have hmove := moveTo_settle next (container.exactPart? token)
        (fun part => decoded_exactPart? hcontainer) fun part hinto => by
          rw [hinto] at hmeets
          exact (Bool.or_eq_false_iff.mp hmeets).1
      rw [writeInside?_cons, writeInside?_cons, exactPart?_settle hcontainer, hmove]
      rcases hstep : moveTo next (container.exactPart? token) with _ | part | part
      · rfl
      · dsimp only [settleMove]
        rcases writeInside? part (next :: rest) value with _ | inner
        · rfl
        · exact put_settled hcontainer rfl token
      · rw [hstep] at hmeets
        have hinner := ih (hdecoded part hstep) (Bool.or_eq_false_iff.mp hmeets).2
        dsimp only [settleMove]
        generalize writeInside? (settle part) (next :: rest) value = left at hinner ⊢
        generalize writeInside? part (next :: rest) value = right at hinner ⊢
        rcases left with _ | inner <;> rcases right with _ | core
        · rfl
        · cases hinner
        · cases hinner
        · exact congrArg some (putOrKeep_settled hcontainer (Option.some.inj hinner) token)

/-- **Writes into a settled container** get through when writes into the container do, and leave the
same text, as long as they meet no number that is not finite. -/
theorem settle_write? {collection : Value} {path : Path} (hcollection : Decoded collection)
    (hshape : collection = .null ∨ collection.isContainer = true)
    (hmeets : meetsUnbounded collection path = false) (value : Value) :
    (write? (settle collection) path value).map settle =
      (write? collection path value).map settle := by
  rcases hshape with rfl | hcontainer
  · rfl
  · have hne : collection ≠ .null := by
      rintro rfl
      cases hcontainer
    have hsettled : settle collection ≠ .null := by
      rcases collection with s | items | entries
      · cases hcontainer
      · simp [settle]
      · simp [settle]
    rw [write?_of_ne_null hne, write?_of_ne_null hsettled]
    exact settle_writeInside? hcollection hmeets value

end PipeScript.Proofs.Path.Settling
