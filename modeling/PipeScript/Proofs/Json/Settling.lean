import PipeScript.Proofs.Json.Numerals

/-! # What JSON text keeps of decoded values

A value that was decoded has distinct text keys and integers that can be written (`Decoded`).  Its
JSON text is read as the settled value, in which every number is what its own text is read as
(`settle`, `parse?_json`): an integer is read as itself, a whole double may come back as an integer,
another finite double comes back as itself, and what is not finite is written and read as null.
Settling changes no text (`json_settle`), so it is done once (`settle_settle`). -/

namespace PipeScript.Proofs.Json.Settling

open PipeScript.Json
open PipeScript.Proofs.Value.Entries PipeScript.Proofs.Json.Scalars
open PipeScript.Proofs.Json.Reading PipeScript.Proofs.Json.RoundTrip PipeScript.Proofs.Json.Numerals

/-! ### Decoded values -/

/-- Values as they are read from JSON text, and as writes of such values build them. -/
inductive Decoded : Value → Prop where
  | null : Decoded .null
  | bool (b : Bool) : Decoded (.bool b)
  | int {i : ℤ} (hi : exceedsDigitLimit i = false) : Decoded (.int i)
  | float (x : Binary64) : Decoded (.number (.float x))
  | text (s : String) : Decoded (.text s)
  | list {items : List Value} (hitems : ∀ item ∈ items, Decoded item) : Decoded (.list items)
  | dict {entries : Entries Value} (hkeys : TextKeys entries)
      (hitems : ∀ entry ∈ entries, Decoded entry.2) : Decoded (.dict entries)

theorem readClosed_decoded : ReadClosed Decoded where
  null := .null
  bool := .bool
  text := .text
  int _ hi := .int hi
  float := .float
  list _ hitems := .list hitems
  dict pairs hpairs :=
    have htexts : ∀ pair ∈ pairs, ∃ s, pair.1 = .text s := fun pair hpair => (hpairs pair hpair).1
    .dict (textKeys_ofPairs htexts) fun entry hentry =>
      (hpairs entry (mem_ofPairs htexts entry hentry)).2

theorem Decoded.hasLongInteger {v : Value} (h : Decoded v) : v.hasLongInteger = false := by
  induction h with
  | null | bool | float | text => rfl
  | int hi => exact hi
  | list _ ih => exact anyLongInteger_eq_false_iff.mpr ih
  | dict hkeys _ ih =>
    refine anyLongEntry_eq_false_iff.mpr fun entry hentry => ⟨?_, ih entry hentry⟩
    obtain ⟨s, hs⟩ := hkeys.texts entry hentry
    rw [hs]
    rfl

/-! ### Settling -/

/-- What the JSON text of a number is read as: a number, or null when there is none in it. -/
def settleNumber (n : Number) : Scalar :=
  match readNumber? (scalarChars (.number n)) with
  | some (m, _) => .number m
  | none => .null

def settleScalar : Scalar → Scalar
  | .number n => settleNumber n
  | s => s

mutual

/-- The value with every number replaced by what its text is read as. -/
def settle : Value → Value
  | .scalar s => .scalar (settleScalar s)
  | .list items => .list (settleItems items)
  | .dict entries => .dict (settleEntries entries)

def settleItems : List Value → List Value
  | [] => []
  | item :: rest => settle item :: settleItems rest

def settleEntries : List (Scalar × Value) → List (Scalar × Value)
  | [] => []
  | (key, item) :: rest => (key, settle item) :: settleEntries rest

end

/-- Only numbers change when a scalar settles. -/
theorem settle_scalar {s : Scalar} (h : ∀ n, s ≠ .number n) : settle (.scalar s) = .scalar s := by
  cases s with
  | number n => exact absurd rfl (h n)
  | null | bool | text | moment => rfl

theorem settle_list (items : List Value) : settle (.list items) = .list (items.map settle) := by
  have hitems : settleItems items = items.map settle := by
    induction items with
    | nil => rw [settleItems, List.map_nil]
    | cons item items ih => rw [settleItems, ih, List.map_cons]
  rw [settle, hitems]

theorem settle_dict (entries : Entries Value) :
    settle (.dict entries) = .dict (Entries.mapItems settle entries) := by
  have hentries : settleEntries entries = Entries.mapItems settle entries := by
    induction entries with
    | nil => rw [settleEntries, Entries.mapItems, List.map_nil]
    | cons entry entries ih => rw [settleEntries, ih, Entries.mapItems, Entries.mapItems, List.map_cons]
  rw [settle, hentries]

theorem settleNumber_of_reread {m n : Number} (h : Reread n)
    (htext : scalarChars (.number n) = scalarChars (.number m)) : settleNumber m = .number n := by
  have hread := h [] (by simp [Ends])
  rw [List.append_nil, htext] at hread
  rw [settleNumber, hread]

theorem settle_int {i : ℤ} (hi : exceedsDigitLimit i = false) : settle (.int i) = .int i :=
  congrArg _ (settleNumber_of_reread (reread_int hi) rfl)

/-- **What a double settles to**: a number of the same text that is read from it, or null. -/
theorem settleNumber_float (x : Binary64) :
    (x.isFinite = true ∧ ∃ n, Reread n ∧ scalarChars (.number n) = scalarChars (.number (.float x)) ∧
      settleNumber (.float x) = .number n) ∨
    (x.isFinite = false ∧ scalarChars (.number (.float x)) = scalarChars .null ∧
      settleNumber (.float x) = .null) := by
  cases hx : x.isFinite with
  | false =>
    have htext : scalarChars (.number (.float x)) = scalarChars .null := if_neg (by simp [hx])
    have hread : readNumber? (scalarChars .null) = none := by decide
    refine .inr ⟨rfl, htext, ?_⟩
    rw [settleNumber, htext, hread]
  | true =>
    obtain ⟨n, hn, htext⟩ := exists_reread hx
    exact .inl ⟨rfl, n, hn, htext, settleNumber_of_reread hn htext⟩

/-! ### What settling keeps -/

theorem itemParts_settle {indent level : ℕ} {items : List Value}
    (h : ∀ item ∈ items, valueChars indent level (settle item) = valueChars indent level item) :
    itemParts indent level (items.map settle) = itemParts indent level items := by
  induction items with
  | nil => rfl
  | cons item items ih =>
    rw [List.map_cons, itemParts, itemParts, h item (List.mem_cons_self ..),
      ih fun x hx => h x (List.mem_cons_of_mem _ hx)]

theorem entryParts_settle {indent level : ℕ} {entries : Entries Value}
    (h : ∀ entry ∈ entries, valueChars indent level (settle entry.2) =
      valueChars indent level entry.2) :
    entryParts indent level (Entries.mapItems settle entries) =
      entryParts indent level entries := by
  induction entries with
  | nil => rfl
  | cons entry entries ih =>
    have hrest := ih fun x hx => h x (List.mem_cons_of_mem _ hx)
    have hfirst := h entry (List.mem_cons_self ..)
    rw [Entries.mapItems] at hrest ⊢
    rw [List.map_cons, entryParts, entryParts, hfirst, hrest]

/-- **Settling keeps the text.** -/
theorem valueChars_settle {v : Value} (h : Decoded v) (indent level : ℕ) :
    valueChars indent level (settle v) = valueChars indent level v := by
  induction h generalizing level with
  | null | bool | text => rfl
  | int hi => rw [settle_int hi]
  | float x =>
    rw [settle, settleScalar, valueChars, valueChars]
    rcases settleNumber_float x with ⟨-, n, -, htext, hsettle⟩ | ⟨-, htext, hsettle⟩
    · rw [hsettle, htext]
    · rw [hsettle, htext]
  | list _ ih => rw [settle_list, valueChars, valueChars, itemParts_settle fun x hx => ih x hx _]
  | dict _ _ ih =>
    rw [settle_dict, valueChars, valueChars, entryParts_settle fun x hx => ih x hx _]

theorem json_settle {v : Value} (h : Decoded v) : (settle v).json = v.json := by
  rw [Value.json, Value.json, render, render, valueChars_settle h]

theorem textKeys_mapItems {α β : Type} {f : α → β} {entries : Entries α} (h : TextKeys entries) :
    TextKeys (Entries.mapItems f entries) := by
  constructor
  · intro entry hentry
    obtain ⟨before, hbefore, rfl⟩ := List.mem_map.mp hentry
    exact h.texts before hbefore
  · unfold Entries.mapItems
    rw [List.map_map]
    exact h.nodup

/-- **Settling makes settled values.** -/
theorem settled_settle {v : Value} (h : Decoded v) : Settled (settle v) := by
  induction h with
  | null => exact .null
  | bool b => exact .bool b
  | text s => exact .text s
  | int hi =>
    rw [settle_int hi]
    exact .number (reread_int hi)
  | float x =>
    rw [settle, settleScalar]
    rcases settleNumber_float x with ⟨-, n, hn, -, hsettle⟩ | ⟨-, -, hsettle⟩
    · rw [hsettle]
      exact .number hn
    · rw [hsettle]
      exact .null
  | list _ ih =>
    rw [settle_list]
    refine .list fun item hitem => ?_
    obtain ⟨before, hbefore, rfl⟩ := List.mem_map.mp hitem
    exact ih before hbefore
  | dict hkeys _ ih =>
    rw [settle_dict]
    refine .dict (textKeys_mapItems hkeys) fun entry hentry => ?_
    obtain ⟨before, hbefore, rfl⟩ := List.mem_map.mp hentry
    exact ih before hbefore

theorem settle_of_settled {v : Value} (h : Settled v) : settle v = v := by
  induction h with
  | null | bool | text => rfl
  | number hn => exact congrArg _ (settleNumber_of_reread hn rfl)
  | list _ ih =>
    rw [settle_list, List.map_congr_left ih, List.map_id']
  | dict _ _ ih =>
    rw [settle_dict]
    unfold Entries.mapItems
    have hitems : ∀ entry ∈ _, (entry.1, settle entry.2) = entry :=
      fun entry hentry => Prod.ext rfl (ih entry hentry)
    rw [List.map_congr_left hitems, List.map_id']

theorem settle_settle {v : Value} (h : Decoded v) : settle (settle v) = settle v :=
  settle_of_settled (settled_settle h)

/-- **JSON text is read as the settled value.** -/
theorem parse?_json {v : Value} (h : Decoded v) : parse? v.json = some (settle v) := by
  rw [← json_settle h]
  exact read?_render (settled_settle h) 0

end PipeScript.Proofs.Json.Settling
