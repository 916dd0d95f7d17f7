import PipeScript.Proofs.Json.Reading
import PipeScript.Proofs.Json.Scalars

/-! # Reading JSON that was printed

A value whose numbers are read from their own texts and whose dictionaries have distinct text keys
is read back from its JSON text (`read?_render`), on one line and at every indent; integers that can
be written are such numbers (`parse?_render`).  The induction is on the value: its text is read
whatever follows it, as long as a numeral could not go on there (`ReadBack`), and a container is
read part by part, each up to the comma or bracket behind it (`readItems?_parts`,
`readMembers?_parts`). -/

namespace PipeScript.Proofs.Json.RoundTrip

open PipeScript.Json PipeScript.Text
open PipeScript.Proofs.Text.Strip PipeScript.Proofs.Value.Entries PipeScript.Proofs.Json.Scalars
open PipeScript.Proofs.Number.Exact PipeScript.Proofs.Json.Reading

/-- Values of which JSON text loses nothing. -/
inductive Lossless : Value → Prop where
  | null : Lossless .null
  | bool (b : Bool) : Lossless (.bool b)
  | int {i : ℤ} (hi : exceedsDigitLimit i = false) : Lossless (.int i)
  | text (s : String) : Lossless (.text s)
  | list {items : List Value} (hitems : ∀ item ∈ items, Lossless item) : Lossless (.list items)
  | dict {entries : Entries Value} (hkeys : TextKeys entries)
      (hitems : ∀ entry ∈ entries, Lossless entry.2) : Lossless (.dict entries)

/-- A number that is read from its JSON text, whatever follows that a numeral could not go on
with. -/
def Reread (n : Number) : Prop :=
  ∀ rest, Ends rest → readNumber? (scalarChars (.number n) ++ rest) = some (n, rest)

/-- Values of which every number is read from its JSON text. -/
inductive Settled : Value → Prop where
  | null : Settled .null
  | bool (b : Bool) : Settled (.bool b)
  | number {n : Number} (hn : Reread n) : Settled (.number n)
  | text (s : String) : Settled (.text s)
  | list {items : List Value} (hitems : ∀ item ∈ items, Settled item) : Settled (.list items)
  | dict {entries : Entries Value} (hkeys : TextKeys entries)
      (hitems : ∀ entry ∈ entries, Settled entry.2) : Settled (.dict entries)

theorem reread_int {i : ℤ} (hi : exceedsDigitLimit i = false) : Reread (.int i) :=
  fun _ hrest => readNumber?_intChars hi hrest

/-- Integers that can be written are read back. -/
theorem Lossless.settled {v : Value} (h : Lossless v) : Settled v := by
  induction h with
  | null => exact .null
  | bool b => exact .bool b
  | int hi => exact .number (reread_int hi)
  | text s => exact .text s
  | list _ ih => exact .list ih
  | dict hkeys _ ih => exact .dict hkeys ih

/-! ### White space -/

theorem skipSpace_cons {c : Char} (h : isJsonSpace c = false) (rest : List Char) :
    skipSpace (c :: rest) = c :: rest :=
  dropWhile_of_head (by simpa using h)

theorem skipSpace_gap (indent level : ℕ) (rest : List Char) :
    skipSpace (gap indent level ++ rest) = skipSpace rest := by
  have hall : ∀ c ∈ gap indent level, isJsonSpace c = true := by
    intro c hc
    unfold gap at hc
    split_ifs at hc
    · cases hc
    · rcases List.mem_cons.mp hc with rfl | hc
      · rfl
      · rw [List.eq_of_mem_replicate hc]
        rfl
  exact List.dropWhile_append_of_pos hall

/-! ### How texts start and go on -/

/-- A character that starts a value: no white space and no closing bracket. -/
def opensValue (c : Char) : Bool :=
  !isJsonSpace c && c != ']' && c != '\x7d'

/-- A character that starts a number starts nothing else, and is no white space. -/
theorem notMem_of_number {c : Char} (h : c = '-' ∨ isAsciiDigit c = true) :
    c ∉ [' ', '\t', '\n', '\r', ']', '\x7d', '[', '\x7b', '"', 'n', 't', 'f'] := by
  intro hmem
  have hother : ∀ d ∈ [' ', '\t', '\n', '\r', ']', '\x7d', '[', '\x7b', '"', 'n', 't', 'f'],
      decide (d ≠ '-' ∧ isAsciiDigit d = false) = true := List.all_eq_true.mp (by decide)
  obtain ⟨hminus, hdigit⟩ := of_decide_eq_true (hother c hmem)
  rcases h with h | h
  · exact hminus h
  · exact Bool.false_ne_true (hdigit.symm.trans h)

/-- A number is read from a sign or a digit on. -/
theorem cons_of_readNumber? {cs rest : List Char} {n : Number}
    (h : readNumber? cs = some (n, rest)) :
    ∃ c tail, cs = c :: tail ∧ (c = '-' ∨ isAsciiDigit c = true) := by
  unfold readNumber? at h
  split at h
  next negative body hsign =>
  obtain ⟨⟨whole, tail⟩, hwhole, -⟩ := Option.bind_eq_some_iff.mp h
  split at hsign
  · exact ⟨_, _, rfl, .inl rfl⟩
  · obtain ⟨-, rfl⟩ := Prod.mk.inj hsign
    obtain ⟨c, rest, rfl, hc⟩ := cons_of_readWhole? hwhole
    exact ⟨c, rest, rfl, .inr hc⟩

theorem Reread.exists_cons {n : Number} (h : Reread n) :
    ∃ c tail, scalarChars (.number n) = c :: tail ∧ (c = '-' ∨ isAsciiDigit c = true) := by
  have hread := h [] (by simp [Ends])
  rw [List.append_nil] at hread
  exact cons_of_readNumber? hread

theorem bracketed_cons (opening closing : Char) (indent level : ℕ) (parts : List (List Char)) :
    ∃ tail, bracketed opening closing indent level parts = opening :: tail := by
  unfold bracketed
  split_ifs
  · exact ⟨_, rfl⟩
  · exact ⟨_, rfl⟩

theorem valueChars_cons {v : Value} (h : Settled v) (indent level : ℕ) :
    ∃ c tail, valueChars indent level v = c :: tail ∧ opensValue c = true := by
  cases h with
  | null => exact ⟨'n', _, by rw [valueChars]; rfl, by decide⟩
  | bool b =>
    cases b
    · exact ⟨'f', _, by rw [valueChars]; rfl, by decide⟩
    · exact ⟨'t', _, by rw [valueChars]; rfl, by decide⟩
  | number hn =>
    rw [valueChars]
    obtain ⟨c, tail, hc, hstart⟩ := hn.exists_cons
    have hother := notMem_of_number hstart
    simp only [List.mem_cons, List.not_mem_nil, or_false, not_or] at hother
    exact ⟨c, tail, hc, by simp [opensValue, isJsonSpace, hother]⟩
  | text s => exact ⟨'"', _, by rw [valueChars]; rfl, by decide⟩
  | list hitems =>
    rw [valueChars]
    obtain ⟨tail, htail⟩ := bracketed_cons '[' ']' indent level (itemParts indent (level + 1) _)
    exact ⟨'[', tail, htail, by decide⟩
  | dict hkeys hitems =>
    rw [valueChars]
    obtain ⟨tail, htail⟩ := bracketed_cons '{' '}' indent level (entryParts indent (level + 1) _)
    exact ⟨'{', tail, htail, by decide⟩

/-- What follows a part of a container: the other parts, each behind a comma, and the closing
bracket. -/
def following (closing : Char) (indent level : ℕ) (parts : List (List Char)) (rest : List Char) :
    List Char :=
  parts.flatMap (fun part => ',' :: gap indent (level + 1) ++ part) ++
    (gap indent level ++ closing :: rest)

theorem intercalate_cons (separator part : List Char) (parts : List (List Char)) :
    separator.intercalate (part :: parts) = part ++ parts.flatMap (separator ++ ·) := by
  induction parts generalizing part with
  | nil => simp
  | cons next parts ih =>
    rw [List.intercalate_cons_cons, ih next, List.flatMap_cons]
    simp

theorem bracketed_append (opening closing : Char) (indent level : ℕ) (part : List Char)
    (parts : List (List Char)) (rest : List Char) :
    bracketed opening closing indent level (part :: parts) ++ rest = opening ::
      (gap indent (level + 1) ++ (part ++ following closing indent level parts rest)) := by
  unfold bracketed following
  rw [if_neg (by simp), intercalate_cons]
  simp

theorem ends_following {closing : Char} (hclosing : closing = ']' ∨ closing = '\x7d')
    (indent level : ℕ) (parts : List (List Char)) (rest : List Char) :
    Ends (following closing indent level parts rest) := by
  have hhead : ∀ c ∈ (following closing indent level parts rest).head?,
      c ∈ [',', '\n', ']', '\x7d'] := by
    intro c hc
    unfold following gap at hc
    rcases parts with _ | ⟨part, parts⟩
    · split_ifs at hc
      · obtain rfl : closing = c := by simpa using hc
        rcases hclosing with rfl | rfl <;> simp
      · obtain rfl : '\n' = c := by simpa using hc
        simp
    · obtain rfl : ',' = c := by simpa using hc
      simp
  have hends : ∀ c ∈ [',', '\n', ']', '\x7d'],
      decide (isAsciiDigit c = false ∧ c ≠ '.' ∧ c ≠ 'e' ∧ c ≠ 'E') = true :=
    List.all_eq_true.mp (by decide)
  exact fun c hc => of_decide_eq_true (hends c (hhead c hc))

theorem length_following_nil (closing : Char) (indent level : ℕ) :
    1 ≤ (following closing indent level [] []).length := by
  unfold following
  simp

theorem length_following_cons (closing : Char) (indent level : ℕ) (part : List Char)
    (parts : List (List Char)) :
    (following closing indent level (part :: parts) []).length = (gap indent (level + 1)).length +
      1 + (part ++ following closing indent level parts []).length := by
  unfold following
  simp only [List.flatMap_cons, List.length_append, List.length_cons]
  omega

theorem skipSpace_following_nil {closing : Char} (h : isJsonSpace closing = false)
    (indent level : ℕ) (rest : List Char) :
    skipSpace (following closing indent level [] rest) = closing :: rest := by
  unfold following
  rw [List.flatMap_nil, List.nil_append, skipSpace_gap, skipSpace_cons h]

theorem skipSpace_following_cons (closing : Char) (indent level : ℕ) (part : List Char)
    (parts : List (List Char)) (rest : List Char) :
    skipSpace (following closing indent level (part :: parts) rest) =
      ',' :: (gap indent (level + 1) ++ (part ++ following closing indent level parts rest)) := by
  unfold following
  rw [List.flatMap_cons, List.append_assoc, List.append_assoc, List.cons_append,
    skipSpace_cons (by decide)]

/-! ### Reading the parts of a container -/

/-- A value is read from its text, whatever follows it that a numeral could not go on with. -/
def ReadBack (nonFinite : Bool) (indent : ℕ) (v : Value) : Prop :=
  ∀ fuel level rest, (valueChars indent level v).length < fuel → Ends rest →
    readValue? nonFinite fuel (valueChars indent level v ++ rest) = some (v, rest)

theorem skipSpace_of_opens {c : Char} (h : opensValue c = true) (rest : List Char) :
    skipSpace (c :: rest) = c :: rest := by
  unfold opensValue at h
  simp only [Bool.and_eq_true, Bool.not_eq_true'] at h
  exact skipSpace_cons h.1.1 rest

theorem skipSpace_valueChars {v : Value} (h : Settled v) (indent level : ℕ) (rest : List Char) :
    skipSpace (valueChars indent level v ++ rest) = valueChars indent level v ++ rest := by
  obtain ⟨c, tail, hc, hopens⟩ := valueChars_cons h indent level
  rw [hc, List.cons_append, skipSpace_of_opens hopens]

section Parts

variable {nonFinite : Bool} {indent level : ℕ}

theorem readItems?_parts {item : Value} {items : List Value}
    (hsettled : ∀ x ∈ item :: items, Settled x)
    (hback : ∀ x ∈ item :: items, ReadBack nonFinite indent x) (rest : List Char) (fuel : ℕ)
    (hfuel : (valueChars indent (level + 1) item ++
      following ']' indent level (itemParts indent (level + 1) items) []).length < fuel) :
    readItems? nonFinite fuel (valueChars indent (level + 1) item ++
      following ']' indent level (itemParts indent (level + 1) items) rest) =
        some (item :: items, rest) := by
  induction items generalizing item fuel with
  | nil =>
    obtain ⟨fuel, rfl⟩ := Nat.exists_eq_succ_of_ne_zero (Nat.ne_zero_of_lt hfuel)
    have hclosing := length_following_nil ']' indent level
    rw [itemParts, List.length_append] at hfuel
    have hread := hback item (List.mem_singleton_self item) fuel (level + 1) _ (by omega)
      (ends_following (.inl rfl) indent level [] rest)
    rw [itemParts, readItems?, hread]
    simp only [Option.bind_eq_bind, Option.bind_some]
    rw [skipSpace_following_nil (by decide)]
    rfl
  | cons next items ih =>
    obtain ⟨fuel, rfl⟩ := Nat.exists_eq_succ_of_ne_zero (Nat.ne_zero_of_lt hfuel)
    rw [itemParts, List.length_append, length_following_cons] at hfuel
    have hread := hback item (List.mem_cons_self ..) fuel (level + 1) _ (by omega)
      (ends_following (.inl rfl) indent level (itemParts indent (level + 1) (next :: items)) rest)
    have htail := ih (fun x hx => hsettled x (List.mem_cons_of_mem _ hx))
      (fun x hx => hback x (List.mem_cons_of_mem _ hx)) fuel (by omega)
    rw [readItems?, hread, itemParts]
    simp only [Option.bind_eq_bind, Option.bind_some]
    rw [skipSpace_following_cons]
    simp only
    rw [skipSpace_gap, skipSpace_valueChars (hsettled next (by simp)), htail]
    rfl

/-- Reading a member starts with its key. -/
theorem readMembers?_key (s : String) (fuel : ℕ) (rest : List Char) :
    readMembers? nonFinite (fuel + 1) (keyChars indent (.text s) ++ rest) = (do
      let (item, rest) ← readValue? nonFinite fuel (skipSpace rest)
      match skipSpace rest with
      | '}' :: rest => return ([(.text s, item)], rest)
      | ',' :: rest =>
        let (members, rest) ← readMembers? nonFinite fuel (skipSpace rest)
        return ((.text s, item) :: members, rest)
      | _ => none) := by
  have hcolon : skipSpace ((if indent = 0 then [':'] else [':', ' ']) ++ rest) =
      ':' :: ((if indent = 0 then [] else [' ']) ++ rest) := by
    split_ifs
    · exact skipSpace_cons (by decide) _
    · exact skipSpace_cons (by decide) _
  have hblank : skipSpace ((if indent = 0 then [] else [' ']) ++ rest) = skipSpace rest := by
    split_ifs
    · rfl
    · rfl
  unfold keyChars stringChars Scalar.keyText
  simp only [List.cons_append, List.append_assoc, List.nil_append]
  rw [readMembers?, readString?_stringChars, Option.bind_eq_bind, Option.bind_some]
  dsimp only
  rw [hcolon, ← hblank, String.ofList_toList]
  rfl

theorem skipSpace_keyChars (key : Scalar) (rest : List Char) :
    skipSpace (keyChars indent key ++ rest) = keyChars indent key ++ rest :=
  skipSpace_cons (by decide) _

theorem readMembers?_parts {entry : Scalar × Value} {entries : List (Scalar × Value)}
    (hkeys : ∀ x ∈ entry :: entries, ∃ s, x.1 = .text s)
    (hsettled : ∀ x ∈ entry :: entries, Settled x.2)
    (hback : ∀ x ∈ entry :: entries, ReadBack nonFinite indent x.2) (rest : List Char) (fuel : ℕ)
    (hfuel : (keyChars indent entry.1 ++ valueChars indent (level + 1) entry.2 ++
      following '}' indent level (entryParts indent (level + 1) entries) []).length < fuel) :
    readMembers? nonFinite fuel (keyChars indent entry.1 ++ valueChars indent (level + 1) entry.2 ++
      following '}' indent level (entryParts indent (level + 1) entries) rest) =
        some (entry :: entries, rest) := by
  induction entries generalizing entry fuel with
  | nil =>
    obtain ⟨fuel, rfl⟩ := Nat.exists_eq_succ_of_ne_zero (Nat.ne_zero_of_lt hfuel)
    obtain ⟨key, item⟩ := entry
    obtain ⟨s, rfl⟩ : ∃ s, key = .text s := hkeys _ (List.mem_cons_self ..)
    have hclosing := length_following_nil '}' indent level
    rw [entryParts, List.length_append, List.length_append] at hfuel
    have hread := hback _ (List.mem_cons_self ..) fuel (level + 1) _ (by omega)
      (ends_following (.inr rfl) indent level [] rest)
    rw [entryParts, List.append_assoc, readMembers?_key,
      skipSpace_valueChars (hsettled _ (List.mem_cons_self ..)), hread]
    simp only [Option.bind_eq_bind, Option.bind_some]
    rw [skipSpace_following_nil (by decide)]
    rfl
  | cons next entries ih =>
    obtain ⟨fuel, rfl⟩ := Nat.exists_eq_succ_of_ne_zero (Nat.ne_zero_of_lt hfuel)
    obtain ⟨key, item⟩ := entry
    obtain ⟨s, rfl⟩ : ∃ s, key = .text s := hkeys _ (List.mem_cons_self ..)
    rw [entryParts, List.length_append, List.length_append, length_following_cons] at hfuel
    have hread := hback _ (List.mem_cons_self ..) fuel (level + 1) _ (by omega)
      (ends_following (.inr rfl) indent level (entryParts indent (level + 1) (next :: entries))
        rest)
    have htail := ih (fun x hx => hkeys x (List.mem_cons_of_mem _ hx))
      (fun x hx => hsettled x (List.mem_cons_of_mem _ hx))
      (fun x hx => hback x (List.mem_cons_of_mem _ hx)) fuel (by omega)
    rw [List.append_assoc, readMembers?_key,
      skipSpace_valueChars (hsettled _ (List.mem_cons_self ..)), hread, entryParts]
    simp only [Option.bind_eq_bind, Option.bind_some]
    rw [skipSpace_following_cons]
    simp only
    rw [skipSpace_gap, List.append_assoc, skipSpace_keyChars, ← List.append_assoc, htail]
    rfl

end Parts

/-! ### Whole values -/

section Values

variable {nonFinite : Bool} {indent : ℕ}

theorem readValue?_scalar {c : Char} (hlist : c ≠ '[') (hdict : c ≠ '{') (fuel : ℕ)
    (rest : List Char) :
    readValue? nonFinite (fuel + 1) (c :: rest) = readScalar? nonFinite (c :: rest) := by
  rw [readValue?]
  · rintro tail ⟨⟩
    exact hlist rfl
  · rintro tail ⟨⟩
    exact hdict rfl

/-- A scalar is read back if its text starts like one and is read as such. -/
theorem readBack_scalar {s : Scalar} {c : Char} {tail : List Char}
    (htext : scalarChars s = c :: tail) (hlist : c ≠ '[') (hdict : c ≠ '{')
    (hread : ∀ rest, Ends rest →
      readScalar? nonFinite (c :: (tail ++ rest)) = some (.scalar s, rest)) :
    ReadBack nonFinite indent (.scalar s) := by
  intro fuel level rest hfuel hrest
  obtain ⟨fuel, rfl⟩ := Nat.exists_eq_succ_of_ne_zero (Nat.ne_zero_of_lt hfuel)
  rw [valueChars, htext, List.cons_append, readValue?_scalar hlist hdict, hread rest hrest]

theorem readScalar?_number {c : Char} (hnull : c ≠ 'n') (htrue : c ≠ 't') (hfalse : c ≠ 'f')
    (htext : c ≠ '"') {cs rest : List Char} {n : Number}
    (h : readNumber? (c :: cs) = some (n, rest)) :
    readScalar? nonFinite (c :: cs) = some (.number n, rest) := by
  rw [readScalar?, h]
  · rintro tail ⟨⟩
    exact hnull rfl
  · rintro tail ⟨⟩
    exact htrue rfl
  · rintro tail ⟨⟩
    exact hfalse rfl
  · rintro tail ⟨⟩
    exact htext rfl

theorem readBack_number {n : Number} (h : Reread n) :
    ReadBack nonFinite indent (.number n) := by
  obtain ⟨c, tail, hc, hstart⟩ := h.exists_cons
  have hother := notMem_of_number hstart
  simp only [List.mem_cons, List.not_mem_nil, or_false, not_or] at hother
  obtain ⟨-, -, -, -, -, -, hlist, hdict, htext, hnull, htrue, hfalse⟩ := hother
  refine readBack_scalar hc hlist hdict fun rest hrest => ?_
  have hread := h rest hrest
  rw [hc, List.cons_append] at hread
  exact readScalar?_number hnull htrue hfalse htext hread

theorem readBack_text (s : String) : ReadBack nonFinite indent (.text s) := by
  have htext : scalarChars (.text s) = '"' :: (s.toList.flatMap escapeChar ++ ['"']) := rfl
  refine readBack_scalar htext (by decide) (by decide) fun rest _ => ?_
  rw [readScalar?, List.append_assoc, List.singleton_append, readString?_stringChars]
  simp

theorem readValue?_list {c : Char} {cs rest : List Char} (hopens : opensValue c = true)
    {fuel : ℕ} {items : List Value}
    (h : readItems? nonFinite fuel (c :: cs) = some (items, rest)) (level : ℕ) :
    readValue? nonFinite (fuel + 1) ('[' :: (gap indent level ++ c :: cs)) =
      some (.list items, rest) := by
  rw [readValue?, skipSpace_gap, skipSpace_of_opens hopens]
  split
  · next heq =>
    cases heq
    exact absurd hopens (by decide)
  · rw [h]
    rfl

theorem readValue?_dict {c : Char} {cs rest : List Char} (hopens : opensValue c = true)
    {fuel : ℕ} {entries : Entries Value}
    (h : readMembers? nonFinite fuel (c :: cs) = some (entries, rest)) (level : ℕ) :
    readValue? nonFinite (fuel + 1) ('{' :: (gap indent level ++ c :: cs)) =
      some (.dict (Entries.ofPairs entries), rest) := by
  rw [readValue?, skipSpace_gap, skipSpace_of_opens hopens]
  split
  · next heq =>
    cases heq
    exact absurd hopens (by decide)
  · rw [h]
    rfl

theorem readBack_list {items : List Value} (hsettled : ∀ item ∈ items, Settled item)
    (hback : ∀ item ∈ items, ReadBack nonFinite indent item) :
    ReadBack nonFinite indent (.list items) := by
  intro fuel level rest hfuel hrest
  obtain ⟨fuel, rfl⟩ := Nat.exists_eq_succ_of_ne_zero (Nat.ne_zero_of_lt hfuel)
  rw [valueChars] at hfuel ⊢
  rcases items with _ | ⟨item, items⟩
  · rfl
  · rw [itemParts] at hfuel ⊢
    rw [← List.append_nil (bracketed ..), bracketed_append, List.length_cons,
      List.length_append] at hfuel
    rw [bracketed_append]
    have hparts : readItems? nonFinite fuel (valueChars indent (level + 1) item ++
        following ']' indent level (itemParts indent (level + 1) items) rest) =
          some (item :: items, rest) := readItems?_parts hsettled hback rest fuel (by omega)
    obtain ⟨c, tail, hc, hopens⟩ :=
      valueChars_cons (hsettled item (List.mem_cons_self ..)) indent (level + 1)
    rw [hc, List.cons_append] at hparts ⊢
    exact readValue?_list hopens hparts (level + 1)

theorem readBack_dict {entries : Entries Value} (hkeys : TextKeys entries)
    (hsettled : ∀ entry ∈ entries, Settled entry.2)
    (hback : ∀ entry ∈ entries, ReadBack nonFinite indent entry.2) :
    ReadBack nonFinite indent (.dict entries) := by
  intro fuel level rest hfuel hrest
  obtain ⟨fuel, rfl⟩ := Nat.exists_eq_succ_of_ne_zero (Nat.ne_zero_of_lt hfuel)
  rw [valueChars] at hfuel ⊢
  rcases entries with _ | ⟨⟨key, item⟩, entries⟩
  · rfl
  · rw [entryParts] at hfuel ⊢
    rw [← List.append_nil (bracketed ..), bracketed_append, List.length_cons,
      List.length_append] at hfuel
    rw [bracketed_append]
    have hparts : readMembers? nonFinite fuel (keyChars indent key ++
        valueChars indent (level + 1) item ++
          following '}' indent level (entryParts indent (level + 1) entries) rest) =
            some ((key, item) :: entries, rest) :=
      readMembers?_parts hkeys.texts hsettled hback rest fuel (by dsimp only; omega)
    rw [← ofPairs_of_textKeys hkeys]
    exact readValue?_dict (by decide) hparts (level + 1)

/-- **Every value whose numbers are read back is read back**, at every depth. -/
theorem readBack_of_settled {v : Value} (h : Settled v) : ReadBack nonFinite indent v := by
  induction h with
  | null => exact readBack_scalar rfl (by decide) (by decide) fun rest _ => rfl
  | bool b =>
    cases b with
    | false => exact readBack_scalar rfl (by decide) (by decide) fun rest _ => rfl
    | true => exact readBack_scalar rfl (by decide) (by decide) fun rest _ => rfl
  | number hn => exact readBack_number hn
  | text s => exact readBack_text s
  | list hitems ih => exact readBack_list hitems ih
  | dict hkeys hitems ih => exact readBack_dict hkeys hitems ih

/-- **A value is read back from its JSON text.** -/
theorem read?_render {v : Value} (h : Settled v) (indent : ℕ) :
    read? nonFinite (render indent v) = some v := by
  have hstart := skipSpace_valueChars h indent 0 []
  have hback : readValue? nonFinite ((valueChars indent 0 v).length + 1)
      (valueChars indent 0 v ++ []) = some (v, []) :=
    readBack_of_settled h _ 0 [] (Nat.lt_succ_self _) (by simp [Ends])
  rw [List.append_nil] at hstart hback
  unfold read? render
  rw [String.toList_ofList]
  simp only [hstart, hback]
  rfl

end Values

/-! ### Indent settings -/

/-- **JSON text keeps values**: at every setting of the indent, the text of a value is read as that
value, integers and booleans apart and entries in their order. -/
theorem parse?_render (setting : Option ℤ) {v : Value} (h : Lossless v) :
    parse? (render (indentWidth setting) v) = some v :=
  read?_render h.settled (indentWidth setting)

/-- Escapes, nesting, empty containers and a negative integer. -/
def nestedValue : Value :=
  .dict [(.text "a\"\\", .list [.int (-70), .bool true, .list [], .dict []]),
    (.text "", .text "\x01\n")]

theorem lossless_nestedValue : Lossless nestedValue := by
  have hkeys : TextKeys [(Scalar.text "a\"\\",
      Value.list [.int (-70), .bool true, .list [], .dict []]), (.text "", .text "\x01\n")] :=
    ⟨by simp, by decide⟩
  have hseventy : ∀ c ∈ ['7', '0'], isAsciiDigit c = true := List.all_eq_true.mp (by decide)
  have hint : Lossless (.int (-70)) := .int (exceedsDigitLimit_digits hseventy (by decide) rfl)
  have hdict : Lossless (.dict []) := .dict ⟨by simp, List.nodup_nil⟩ (by simp)
  have hitems : ∀ item ∈ [Value.int (-70), .bool true, .list [], .dict []], Lossless item := by
    simp only [List.mem_cons, List.not_mem_nil, or_false]
    rintro item (rfl | rfl | rfl | rfl)
    · exact hint
    · exact .bool true
    · exact .list (by simp)
    · exact hdict
  refine .dict hkeys fun entry hentry => ?_
  simp only [List.mem_cons, List.not_mem_nil, or_false] at hentry
  rcases hentry with rfl | rfl
  · exact .list hitems
  · exact .text _

theorem parse?_nestedValue : Lossless nestedValue ∧
    parse? (render (indentWidth (some 2)) nestedValue) = some nestedValue :=
  ⟨lossless_nestedValue, parse?_render (some 2) lossless_nestedValue⟩

end PipeScript.Proofs.Json.RoundTrip
