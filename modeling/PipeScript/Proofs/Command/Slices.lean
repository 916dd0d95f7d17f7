import PipeScript.Command.Structure
import PipeScript.Proofs.Command.Sources
import PipeScript.Proofs.Json.RoundTrip
import PipeScript.Proofs.Number.Bounds

/-! # Slices

`/slice` takes consecutive items of a list, or characters of a text (`part`), between two positions.
An integer names a position from the end when it is negative, and none beyond the two ends
(`position`); its text names the same one (`slicePosition_text`).

With `length=` the end is the sum of the start and the length, whatever side the start counts from.
So as many items come as are asked for, unless the start counts from the end and the sum names a
position inside from the front (`slice_length`).  A value is cut by its characters when it is no
data; as the text of a number or of a boolean it is data that cannot be cut (`slice_word`). -/

namespace PipeScript.Proofs.Command.Slices

open PipeScript.Command
open PipeScript.Proofs.Machine.Programs PipeScript.Proofs.Command.Sources
open PipeScript.Proofs.Json.RoundTrip
open PipeScript.Proofs.Number.IntegerText PipeScript.Proofs.Number.Bounds

/-! ### Positions -/

/-- The position that an integer names in something of a length: counted from the end when it is
negative, and between the two ends. -/
def position (length : ℕ) (i : ℤ) : ℕ :=
  if i < 0 then (length + i).toNat else min i.toNat length

theorem slicePosition_int (length : ℕ) (i : ℤ) :
    slicePosition length (.int i) = position length i :=
  rfl

theorem slicePosition_infinite (length : ℕ) (negative : Bool) :
    slicePosition length (.float (.infinite negative)) = if negative then 0 else length :=
  rfl

/-- Beyond its length there is one position on either side. -/
theorem position_beyond {length k : ℕ} (h : length ≤ k) (negative : Bool) :
    position length (Binary64.signed negative k) = if negative then 0 else length := by
  unfold position Binary64.signed
  cases negative with
  | true =>
    rw [if_pos rfl, if_pos rfl]
    split_ifs <;> omega
  | false =>
    rw [if_neg Bool.false_ne_true, if_neg Bool.false_ne_true, if_neg (by omega)]
    omega

/-- **The text of an integer names the position that the integer names.** -/
theorem slicePosition_text {length : ℕ} (h : length ≤ 2 ^ 53) (i : ℤ) :
    slicePosition length (.ofText (Number.int i).text) = position length i := by
  by_cases hi : i.natAbs ≤ 2 ^ 53
  · rw [ofText_text_exact hi, slicePosition_int]
  · have hsigned : i = Binary64.signed (decide (i < 0)) i.natAbs := by
      unfold Binary64.signed
      split_ifs with hneg
      · have := of_decide_eq_true hneg
        omega
      · have : ¬ i < 0 := fun hlt => hneg (decide_eq_true hlt)
        omega
    have hbeyond := position_beyond (k := i.natAbs) (by omega : length ≤ i.natAbs) (decide (i < 0))
    rw [← hsigned] at hbeyond
    rw [hbeyond]
    rcases ofText_text_beyond (n := i) (by omega) with hread | ⟨k, hk, hread⟩
    · rw [hread, slicePosition_infinite]
    · rw [hread, slicePosition_int, position_beyond (h.trans hk)]

/-! ### What is cut -/

/-- The number of items or characters of what can be cut. -/
def size? : Value → Option ℕ
  | .list items => some items.length
  | .text s => some s.toList.length
  | _ => none

/-- So many consecutive items or characters, from a position on. -/
def part (start count : ℕ) : Value → Value
  | .list items => .list ((items.drop start).take count)
  | .text s => .text (String.ofList ((s.toList.drop start).take count))
  | v => v

/-- What `/slice` cuts: the data of the call, or what it was given when that is no data. -/
def subject (inv : Invocation) (store : Store) : Value :=
  let local? := inv.argument? "var"
  let global? := inv.argument? "globalvar"
  let data := (store.structured local? global? (.text inv.value)).toValue
  if data.isNull then (store.firstValue local? global? (.text inv.value)).toValue else data

/-- Without a variable, it is what the value is as JSON, or else the text of the value. -/
theorem subject_value {inv : Invocation} (hvar : inv.given? "var" = none)
    (hglobal : inv.given? "globalvar" = none) (m : Machine) :
    subject inv m.store =
      if ((Json.parse? inv.value).getD .null).isNull then
        if inv.value = "" then .null else .text inv.value
      else (Json.parse? inv.value).getD .null := by
  have hdata : m.store.structured (inv.argument? "var") (inv.argument? "globalvar")
      (.text inv.value) = .plain ((Json.parse? inv.value).getD .null) :=
    Except.ok.inj (congrArg Prod.fst (structured_value inv hvar hglobal m))
  have htext : (m.store.firstValue (inv.argument? "var") (inv.argument? "globalvar")
      (.text inv.value)).toValue = if inv.value = "" then .null else .text inv.value :=
    Except.ok.inj (congrArg Prod.fst (firstValue_value inv hvar hglobal m))
  unfold subject
  dsimp only
  rw [hdata, htext, Shared.toValue]

theorem between_eq {α : Type} (low high : ℕ) (items : List α) :
    between low high items = (items.drop low).take (high - low) :=
  List.drop_take ..

theorem write_text (s : String) : Action.write Value.pipeText (.text s) = pure s := rfl

/-- Two ways to a value go on in the same way. -/
theorem ite_bind_ok {α β : Type} {c : Prop} [Decidable c] {x y : Action α} {a : α} {m : Machine}
    (h : (if c then x else y) m = (.ok a, m)) (f : α → Action β) :
    (if c then x >>= f else y >>= f) m = f a m := by
  split_ifs at h ⊢ <;> exact bind_ok m h f

/-- **`/slice` cuts its subject** between the two positions, or refuses what has no items and no
characters. -/
theorem slice_eq (inv : Invocation) (m : Machine) :
    Command.slice inv m =
      match size? (subject inv m.store) with
      | some size => (do
          let (low, high) ← sliceRange inv size
          Action.write Value.pipeText (part low (high - low) (subject inv m.store))) m
      | none => (.error (.notSliceable ((subject inv m.store).kindName "NoneType")), m) := by
  have hdata : inv.structured (.text inv.value) m =
      (.ok (m.store.structured (inv.argument? "var") (inv.argument? "globalvar")
        (.text inv.value)), m) := rfl
  have hsubject : (if (m.store.structured (inv.argument? "var") (inv.argument? "globalvar")
      (.text inv.value)).toValue.isNull then inv.firstValue
      else pure (m.store.structured (inv.argument? "var") (inv.argument? "globalvar")
        (.text inv.value)).toValue) m = (.ok (subject inv m.store), m) := by
    unfold subject
    dsimp only
    split_ifs <;> rfl
  unfold Command.slice
  rw [bind_ok m hdata]
  dsimp only
  rw [ite_bind_ok hsubject]
  rcases subject inv m.store with (_ | b | n | s | moment) | items | entries
  · rfl
  · rfl
  · rfl
  · simp only [size?, part, between_eq, write_text]
  · rfl
  · simp only [size?, part, between_eq]
  · rfl

/-! ### A start and a length -/

/-- A call that asks for so many items from a start on, and names no end. -/
structure AsksLength (inv : Invocation) (start length : ℤ) : Prop where
  startText : inv.argument? "start" = some (Number.int start).text
  lengthText : inv.argument? "length" = some (Number.int length).text
  noEnd : inv.argument? "end" = none

/-- The sum of a start and a length is on the side that the start counts from, or at an end of what
is cut. -/
def StaysOnSide (size : ℕ) (start length : ℤ) : Prop :=
  0 ≤ start ∨ start + length < 0 ∨ size ≤ start + length

instance (size : ℕ) (start length : ℤ) : Decidable (StaysOnSide size start length) :=
  inferInstanceAs (Decidable (_ ∨ _ ∨ _))

/-- An integer that is an argument of a call is given. -/
theorem given?_int {inv : Invocation} {name : String} {n : ℤ}
    (h : inv.argument? name = some (Number.int n).text) :
    inv.given? name = some (Number.int n).text := by
  unfold Invocation.given?
  rw [h, Option.filter_some, if_pos (decide_eq_true (text_ne_empty n))]

/-- A start that fits and a length have a sum, which names the position of the sum. -/
theorem exists_sum {size : ℕ} (hsize : size ≤ 2 ^ 52) {start length : ℤ}
    (hlow : -size ≤ start) (hhigh : start ≤ size) (hlength : 0 ≤ length) :
    ∃ sum, (Number.int start).add? (.ofText (Number.int length).text) = some sum ∧
      slicePosition size sum = position size (start + length) := by
  have hstart : start.natAbs ≤ 2 ^ 53 := by omega
  by_cases hexact : length.natAbs ≤ 2 ^ 53
  · exact ⟨_, by rw [ofText_text_exact hexact]; rfl, slicePosition_int size _⟩
  · -- the sum is beyond the end, whatever the text of the length is read as
    have hend : position size (start + length) = size := by
      unfold position
      rw [if_neg (by omega)]
      omega
    have hpositive : decide (length < 0) = false := decide_eq_false (by omega)
    rcases ofText_text_beyond (n := length) (by omega) with hread | ⟨k, hk, hread⟩
    · exact ⟨_, by rw [hread, add?_infinite hstart], by rw [hend, hpositive]; rfl⟩
    · refine ⟨.int (start + Binary64.signed (decide (length < 0)) k), by rw [hread]; rfl, ?_⟩
      rw [hend, hpositive, slicePosition_int]
      unfold position Binary64.signed
      rw [if_neg Bool.false_ne_true, if_neg (by omega)]
      omega

/-- The two positions of a start and a length. -/
theorem sliceRange_length {size : ℕ} (hsize : size ≤ 2 ^ 52) {start length : ℤ}
    (hlow : -size ≤ start) (hhigh : start ≤ size) (hlength : 0 ≤ length) {inv : Invocation}
    (h : AsksLength inv start length) (m : Machine) :
    sliceRange inv size m = (.ok (position size start, position size (start + length)), m) := by
  obtain ⟨sum, hsum, hposition⟩ := exists_sum hsize hlow hhigh hlength
  have hstart : (inv.argumentValue "start").asNumber = .int start := by
    unfold Invocation.argumentValue
    rw [h.startText]
    exact ofText_text_exact (by omega)
  have hend : sliceEnd? inv m = (.ok (some sum), m) := by
    unfold sliceEnd?
    rw [h.noEnd, given?_int h.lengthText]
    dsimp only
    rw [hstart, hsum]
    rfl
  unfold sliceRange
  rw [bind_ok m hend, h.startText, Option.map_some, Option.getD_some, Option.map_some,
    Option.getD_some, hposition, slicePosition_text (by omega)]
  rfl

/-- How many items are between the two positions of a start and a length. -/
theorem count_eq {size : ℕ} {start length : ℤ} (hlow : -size ≤ start) (hhigh : start ≤ size)
    (hlength : 0 ≤ length) :
    (StaysOnSide size start length →
      position size (start + length) - position size start =
        min length.toNat (size - position size start)) ∧
    (¬ StaysOnSide size start length →
      position size (start + length) - position size start = length.toNat - size ∧
        length.toNat - size < min length.toNat (size - position size start)) := by
  unfold StaysOnSide position
  split_ifs <;> omega

/-- **As many items as asked for**, from the start on or to the end, come from `/slice` when the sum
of the start and the length is on the side that the start counts from, or at an end.  When the start
counts from the end and the sum does not, that sum is taken for a position from the front, and fewer
come.  Sizes are up to `2^52`, so that the start and the sum are exact. -/
theorem slice_length {inv : Invocation} {start length : ℤ} (h : AsksLength inv start length)
    (hlength : 0 ≤ length) {m : Machine} {size : ℕ}
    (hsubject : size? (subject inv m.store) = some size) (hsize : size ≤ 2 ^ 52)
    (hlow : -size ≤ start) (hhigh : start ≤ size) :
    (StaysOnSide size start length →
      Command.slice inv m = Action.write Value.pipeText (part (position size start)
        (min length.toNat (size - position size start)) (subject inv m.store)) m) ∧
    (¬ StaysOnSide size start length →
      Command.slice inv m = Action.write Value.pipeText (part (position size start)
        (length.toNat - size) (subject inv m.store)) m ∧
      length.toNat - size < min length.toNat (size - position size start)) := by
  have hslice : Command.slice inv m = Action.write Value.pipeText (part (position size start)
      (position size (start + length) - position size start) (subject inv m.store)) m := by
    rw [slice_eq, hsubject]
    exact bind_ok m (sliceRange_length hsize hlow hhigh hlength h m) _
  obtain ⟨hstays, hcrosses⟩ := count_eq hlow hhigh hlength
  refine ⟨fun hside => ?_, fun hside => ?_⟩
  · rw [hslice, hstays hside]
  · obtain ⟨hcount, hfewer⟩ := hcrosses hside
    exact ⟨by rw [hslice, hcount], hfewer⟩

/-- A call for two characters of a text, from a start on. -/
def pairFrom (start : String) : Invocation :=
  ⟨[("start", start), ("length", "2")], "abcdef", ""⟩

/-- A machine without variables. -/
def idle : Machine := .start .empty .empty 64

theorem subject_pairFrom (start : String) :
    subject (pairFrom start) idle.store = .text "abcdef" := by
  have hparse : Json.parse? "abcdef" = none := rfl
  have hvalue : (pairFrom start).value = "abcdef" := rfl
  rw [subject_value rfl rfl, hvalue, hparse]
  rfl

theorem slice_length_inside :
    AsksLength (pairFrom "-3") (-3) 2 ∧ size? (subject (pairFrom "-3") idle.store) = some 6 ∧
      StaysOnSide 6 (-3) 2 ∧ Command.slice (pairFrom "-3") idle = (.ok "de", idle) := by
  have hasks : AsksLength (pairFrom "-3") (-3) 2 := ⟨by decide +kernel, by decide +kernel, rfl⟩
  have hsubject : size? (subject (pairFrom "-3") idle.store) = some 6 := by
    rw [subject_pairFrom]
    rfl
  have hside : StaysOnSide 6 (-3) 2 := by decide
  refine ⟨hasks, hsubject, hside, ?_⟩
  rw [(slice_length hasks (by decide) hsubject (by decide) (by decide) (by decide)).1 hside,
    subject_pairFrom]
  rfl

/-- Two characters from the second last on are the last two; but the sum of start and length is no
position from the end, and none comes. -/
theorem slice_stops_short :
    AsksLength (pairFrom "-2") (-2) 2 ∧ size? (subject (pairFrom "-2") idle.store) = some 6 ∧
      Action.write Value.pipeText (part (position 6 (-2)) (min 2 (6 - position 6 (-2)))
        (subject (pairFrom "-2") idle.store)) idle = (.ok "ef", idle) ∧
      Command.slice (pairFrom "-2") idle = (.ok "", idle) := by
  have hasks : AsksLength (pairFrom "-2") (-2) 2 := ⟨by decide +kernel, by decide +kernel, rfl⟩
  have hsize : size? (.text "abcdef") = some 6 := rfl
  rw [slice_eq, subject_pairFrom, hsize]
  refine ⟨hasks, rfl, rfl, ?_⟩
  dsimp only
  rw [bind_ok idle (sliceRange_length (by decide) (by decide) (by decide) (by decide) hasks idle)]
  rfl

/-! ### A start and an end -/

/-- A call that may name a start and an end, and names no variable. -/
structure AsksBetween (inv : Invocation) (start stop : Option ℤ) : Prop where
  startText : inv.argument? "start" = start.map fun i => (Number.int i).text
  endText : inv.argument? "end" = stop.map fun i => (Number.int i).text
  noLength : stop = none → inv.given? "length" = none
  var : inv.given? "var" = none
  globalvar : inv.given? "globalvar" = none

/-- The position that the text of an integer names. -/
def textPosition (length : ℕ) (i : ℤ) : ℕ :=
  slicePosition length (.ofText (Number.int i).text)

/-- The characters of a text between two positions, each of which is an end of the text when it is
not named; `place` tells the position that an integer names. -/
def charsBetween (place : ℤ → ℕ) (start stop : Option ℤ) (chars : List Char) : List Char :=
  (chars.drop (start.elim 0 place)).take (stop.elim chars.length place - start.elim 0 place)

/-- The two positions of a start and an end. -/
theorem sliceRange_between {inv : Invocation} {start stop : Option ℤ}
    (h : AsksBetween inv start stop) (size : ℕ) (m : Machine) :
    sliceRange inv size m =
      (.ok (start.elim 0 (textPosition size), stop.elim size (textPosition size)), m) := by
  have hend : sliceEnd? inv m = (.ok (stop.map fun i => .ofText (Number.int i).text), m) := by
    unfold sliceEnd?
    rw [h.endText]
    cases stop with
    | some j => rfl
    | none =>
      rw [h.noLength rfl]
      rfl
  unfold sliceRange
  rw [bind_ok m hend, h.startText]
  cases start <;> cases stop <;> rfl

/-- What comes before a position and what comes from it on make up the text, whatever position an
integer names. -/
theorem charsBetween_append (place : ℤ → ℕ) (k : ℤ) (chars : List Char) :
    charsBetween place none (some k) chars ++ charsBetween place (some k) none chars = chars := by
  have hfront : charsBetween place none (some k) chars = chars.take (place k) := rfl
  have hback : charsBetween place (some k) none chars = chars.drop (place k) :=
    List.take_of_length_le (List.length_drop ..).le
  rw [hfront, hback, List.take_append_drop]

/-- What `/slice` cuts out of a text that is no data. -/
theorem slice_between {v : String} (hv : v ≠ "")
    (hword : Json.parse? v = none ∨ Json.parse? v = some .null) {inv : Invocation}
    (hvalue : inv.value = v) {start stop : Option ℤ} (h : AsksBetween inv start stop)
    (m : Machine) :
    Command.slice inv m = (.ok (String.ofList
      (charsBetween (textPosition v.toList.length) start stop v.toList)), m) := by
  have hnull : (Json.parse? v).getD .null = .null := by
    rcases hword with hparse | hparse <;> rw [hparse] <;> rfl
  have hsubject : subject inv m.store = .text v := by
    rw [subject_value h.var h.globalvar, hvalue, hnull, if_neg hv]
    rfl
  have hsize : size? (.text v) = some v.toList.length := rfl
  rw [slice_eq, hsubject, hsize]
  exact bind_ok m (sliceRange_between h v.toList.length m) _

/-- What is data without items and without characters is refused. -/
theorem slice_refused {inv : Invocation} (hvar : inv.given? "var" = none)
    (hglobal : inv.given? "globalvar" = none) {data : Value}
    (hparse : Json.parse? inv.value = some data) (hnull : data.isNull = false)
    (hsize : size? data = none) (m : Machine) :
    Command.slice inv m = (.error (.notSliceable (data.kindName "NoneType")), m) := by
  have hsubject : subject inv m.store = data := by
    rw [subject_value hvar hglobal, hparse, Option.getD_some, hnull, if_neg Bool.false_ne_true]
  rw [slice_eq, hsubject, hsize]

/-- **A text that is no data is cut by its characters.**  When a value is no JSON, or `null`,
`/slice` answers its characters between the two positions, each at an end when it is not named; up
to `2^53` characters every integer names its position.  What comes before any integer and what comes
from it on make up the value.  A value that is the JSON of a number, a boolean or a dictionary is
that data, and `/slice` refuses it. -/
theorem slice_word {v : String} (hv : v ≠ "") :
    (Json.parse? v = none ∨ Json.parse? v = some .null →
      (∀ {inv : Invocation} {start stop : Option ℤ}, inv.value = v →
        AsksBetween inv start stop → ∀ m, ∃ s, Command.slice inv m = (.ok s, m) ∧
          (v.toList.length ≤ 2 ^ 53 →
            s.toList = charsBetween (position v.toList.length) start stop v.toList)) ∧
      ∀ {front back : Invocation} {k : ℤ}, front.value = v → AsksBetween front none (some k) →
        back.value = v → AsksBetween back (some k) none → ∀ m m',
          ∃ s t, Command.slice front m = (.ok s, m) ∧ Command.slice back m' = (.ok t, m') ∧
            s ++ t = v) ∧
    ∀ {data : Value}, Json.parse? v = some data → data.isNull = false → size? data = none →
      ∀ {inv : Invocation}, inv.value = v → inv.given? "var" = none →
        inv.given? "globalvar" = none → ∀ m,
          Command.slice inv m = (.error (.notSliceable (data.kindName "NoneType")), m) := by
  refine ⟨fun hword => ⟨?_, ?_⟩, ?_⟩
  · intro inv start stop hvalue h m
    refine ⟨_, slice_between hv hword hvalue h m, fun hlength => ?_⟩
    have hposition : textPosition v.toList.length = position v.toList.length :=
      funext fun i => slicePosition_text hlength i
    rw [String.toList_ofList, hposition]
  · intro front back k hfront hfrontAsks hback hbackAsks m m'
    refine ⟨_, _, slice_between hv hword hfront hfrontAsks m,
      slice_between hv hword hback hbackAsks m', ?_⟩
    rw [← String.ofList_append, charsBetween_append, String.ofList_toList]
  · intro data hparse hnull hsize inv hvalue hvar hglobal m
    exact slice_refused hvar hglobal (hvalue ▸ hparse) hnull hsize m

/-- A call for what is between two positions of a value. -/
def fromTo (start stop value : String) : Invocation :=
  ⟨[("start", start), ("end", stop)], value, ""⟩

theorem slice_word_hello :
    "hello" ≠ "" ∧ Json.parse? "hello" = none ∧
      AsksBetween (fromTo "-4" "9" "hello") (some (-4)) (some 9) ∧
      Command.slice (fromTo "-4" "9" "hello") idle = (.ok "ello", idle) := by
  have hword : Json.parse? "hello" = none := rfl
  have hasks : AsksBetween (fromTo "-4" "9" "hello") (some (-4)) (some 9) :=
    ⟨by decide +kernel, by decide +kernel, fun h => absurd h (Option.some_ne_none _), rfl, rfl⟩
  obtain ⟨s, hslice, hchars⟩ := ((slice_word (by decide)).1 (.inl hword)).1 rfl hasks idle
  have hs : s = "ello" := String.toList_injective (hchars (by decide))
  exact ⟨by decide, hword, hasks, hs ▸ hslice⟩

/-- Digits are a number, which is not cut. -/
theorem slice_refuses_digits :
    "12345" ≠ "" ∧ Json.parse? "12345" = some (.number (.int 12345)) ∧
      AsksBetween (fromTo "1" "3" "12345") (some 1) (some 3) ∧
      Command.slice (fromTo "1" "3" "12345") idle = (.error (.notSliceable "int"), idle) := by
  have hparse : Json.parse? "12345" = some (.number (.int 12345)) := by
    have hdigits : exceedsDigitLimit 12345 = false := by decide +kernel
    have hjson : (Value.int 12345).json = "12345" := by decide +kernel
    rw [← hjson]
    exact read?_render (Lossless.int hdigits).settled 0
  have hasks : AsksBetween (fromTo "1" "3" "12345") (some 1) (some 3) :=
    ⟨by decide +kernel, by decide +kernel, fun h => absurd h (Option.some_ne_none _), rfl, rfl⟩
  have hrefused := slice_refused hasks.var hasks.globalvar hparse rfl rfl idle
  exact ⟨by decide, hparse, hasks, hrefused⟩

end PipeScript.Proofs.Command.Slices
