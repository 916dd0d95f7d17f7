import PipeScript.Proofs.Json.Numerals
import PipeScript.Proofs.Json.Spelling
import PipeScript.Proofs.Pipeline.Rendering

/-! # JSON text as a literal

The JSON text of a list or a dictionary is a literal of its own: where an argument begins with it,
the scan for its closing bracket stops right behind it, whatever follows, and whatever brackets, quotes
and backslashes its strings hold (`readLiteral?_json`).  So a command takes it as an argument as it
stands (`readArgument?_json`). -/

namespace PipeScript.Proofs.Pipeline.Literals

open PipeScript.Json PipeScript.Pipeline PipeScript.Text
open PipeScript.Proofs.Value.Entries PipeScript.Proofs.Json.Numerals
open PipeScript.Proofs.Json.RoundTrip PipeScript.Proofs.Json.Spelling
open PipeScript.Proofs.Pipeline.Rendering

/-! ### Inside a string -/

/-- The scan stays inside a string all over a text. -/
def InsideString (cs : List Char) : Prop :=
  ∀ awaited rest, readBrackets? true awaited (cs ++ rest) =
    (readBrackets? true awaited rest).map fun (text, rest) => (cs ++ text, rest)

theorem readBrackets?_inside {c : Char} (hc : c ≠ '\\') (awaited rest : List Char) :
    readBrackets? true awaited (c :: rest) =
      (readBrackets? (c != '"') awaited rest).map fun (text, rest) => (c :: text, rest) := by
  rw [readBrackets?, if_neg hc]
  exact fun _ _ h _ => hc h

theorem insideString_nil : InsideString [] := fun awaited rest => by
  simp

theorem InsideString.append {cs ds : List Char} (hcs : InsideString cs) (hds : InsideString ds) :
    InsideString (cs ++ ds) := by
  intro awaited rest
  rw [List.append_assoc, hcs, hds, Option.map_map]
  simp [Function.comp_def]

theorem insideString_plain {c : Char} (hquote : c ≠ '"') (hback : c ≠ '\\') : InsideString [c] := by
  intro awaited rest
  rw [List.singleton_append, readBrackets?_inside hback, bne_iff_ne.mpr hquote]
  rfl

theorem insideString_all {cs : List Char} (h : cs.all (fun c => c != '"' && c != '\\') = true) :
    InsideString cs := by
  induction cs with
  | nil => exact insideString_nil
  | cons c cs ih =>
    simp only [List.all_cons, Bool.and_eq_true, bne_iff_ne] at h
    exact (insideString_plain h.1.1 h.1.2).append (ih (by simpa using h.2))

theorem insideString_escaped (c : Char) : InsideString ['\\', c] := fun awaited rest => by
  rw [List.cons_append, List.singleton_append, readBrackets?]
  rfl

theorem insideString_escapeChar (c : Char) : InsideString (escapeChar c) := by
  rcases escapeChar_cases c with ⟨heq, hquote, hback⟩ | ⟨x, digits, heq, -, hall⟩
  · rw [heq]
    exact insideString_plain hquote hback
  · rw [heq]
    exact (insideString_escaped x).append (insideString_all hall)

theorem insideString_flatMap (cs : List Char) : InsideString (cs.flatMap escapeChar) := by
  induction cs with
  | nil => exact insideString_nil
  | cons c cs ih =>
    rw [List.flatMap_cons]
    exact (insideString_escapeChar c).append ih

/-! ### Between brackets -/

/-- Inside brackets, the scan passes over a text and waits for the same brackets behind it. -/
def PassedOver (cs : List Char) : Prop :=
  ∀ closer awaited rest, readBrackets? false (closer :: awaited) (cs ++ rest) =
    (readBrackets? false (closer :: awaited) rest).map fun (text, rest) => (cs ++ text, rest)

/-- A bracket and the one that closes it. -/
inductive BracketPair : Char → Char → Prop where
  | square : BracketPair '[' ']'
  | curly : BracketPair '{' '}'

section Brackets

variable {opening closing : Char} (h : BracketPair opening closing)
include h

theorem readBrackets?_open (awaited rest : List Char) :
    readBrackets? false awaited (opening :: rest) =
      (readBrackets? false (closing :: awaited) rest).map
        fun (text, rest) => (opening :: text, rest) := by
  cases h <;> rfl

theorem readBrackets?_close (closer : Char) (awaited rest : List Char) :
    readBrackets? false (closing :: closer :: awaited) (closing :: rest) =
      (readBrackets? false (closer :: awaited) rest).map
        fun (text, rest) => (closing :: text, rest) := by
  cases h <;> rfl

theorem readBrackets?_last (rest : List Char) :
    readBrackets? false [closing] (closing :: rest) = some ([closing], rest) := by
  cases h <;> rfl

theorem passedOver_bracketed {cs : List Char} (hcs : PassedOver cs) :
    PassedOver (opening :: cs ++ [closing]) := by
  intro closer awaited rest
  have hform : opening :: cs ++ [closing] ++ rest = opening :: (cs ++ closing :: rest) := by simp
  rw [hform, readBrackets?_open h, hcs, readBrackets?_close h, Option.map_map, Option.map_map]
  simp [Function.comp_def]

/-- A bracketed text is read up to its closing bracket. -/
theorem readLiteral?_bracketed {cs : List Char} (hcs : PassedOver cs) (rest : List Char) :
    readLiteral? (opening :: cs ++ [closing] ++ rest) = some (opening :: cs ++ [closing], rest) := by
  have hform : opening :: cs ++ [closing] ++ rest = opening :: (cs ++ closing :: rest) := by simp
  have hread : readBrackets? false [closing] (cs ++ closing :: rest) =
      some (cs ++ [closing], rest) := by
    rw [hcs, readBrackets?_last h]
    rfl
  rw [hform]
  cases h with
  | square =>
    change (readBrackets? false [']'] _).map _ = _
    rw [hread]
    rfl
  | curly =>
    change (readBrackets? false ['}'] _).map _ = _
    rw [hread]
    rfl

end Brackets

theorem passedOver_nil : PassedOver [] := fun closer awaited rest => by
  simp

theorem PassedOver.append {cs ds : List Char} (hcs : PassedOver cs) (hds : PassedOver ds) :
    PassedOver (cs ++ ds) := by
  intro closer awaited rest
  rw [List.append_assoc, hcs, hds, Option.map_map]
  simp [Function.comp_def]

/-- The characters that the scan between brackets heeds. -/
def delimiters : List Char := ['[', ']', '{', '}', '"']

theorem passedOver_plain {c : Char} (h : c ∉ delimiters) : PassedOver [c] := by
  intro closer awaited rest
  simp only [delimiters, List.mem_cons, List.not_mem_nil, or_false, not_or] at h
  obtain ⟨h1, h2, h3, h4, h5⟩ := h
  have hquote : (c == '"') = false := beq_false_of_ne h5
  have hcloser : closer? c = none := by simp [closer?, h1, h3]
  cases awaited with
  | nil => simp [readBrackets?, hcloser, h2, h4, hquote]
  | cons next awaited => simp [readBrackets?, hcloser, h2, h4, hquote]

/-- The scan passes over characters of a kind that no delimiter is of. -/
theorem passedOver_kind {kind : Char → Bool} (hkind : delimiters.all (!kind ·) = true)
    {cs : List Char} (h : ∀ c ∈ cs, kind c = true) : PassedOver cs := by
  induction cs with
  | nil => exact passedOver_nil
  | cons c cs ih =>
    have hplain : c ∉ delimiters := fun hc => by
      have hother := List.all_eq_true.mp hkind c hc
      rw [h c List.mem_cons_self] at hother
      cases hother
    exact (passedOver_plain hplain).append (ih fun d hd => h d (List.mem_cons_of_mem _ hd))

theorem passedOver_quoted {cs : List Char} (h : InsideString cs) :
    PassedOver ('"' :: (cs ++ ['"'])) := by
  intro closer awaited rest
  have hform : '"' :: (cs ++ ['"']) ++ rest = '"' :: (cs ++ '"' :: rest) := by simp
  have hopen : ∀ tail, readBrackets? false (closer :: awaited) ('"' :: tail) =
      (readBrackets? true (closer :: awaited) tail).map fun (text, rest) => ('"' :: text, rest) :=
    fun tail => rfl
  rw [hform, hopen, h, readBrackets?_inside (by decide), Option.map_map, Option.map_map]
  simp [Function.comp_def]

theorem passedOver_string (s : String) : PassedOver (stringChars s) :=
  passedOver_quoted (insideString_flatMap s.toList)

theorem compositional_passedOver : Compositional (fun _ => True) PassedOver where
  nil := passedOver_nil
  append hcs hds := hcs.append hds
  mark hc := passedOver_kind (by decide) (List.forall_mem_singleton.mpr hc)
  string {s} _ := passedOver_string s
  list hcs := passedOver_bracketed .square hcs
  dict hcs _ := passedOver_bracketed .curly hcs

theorem passedOver_scalarChars (s : Scalar) : PassedOver (scalarChars s) := by
  have hmarks {cs : List Char} (h : ∀ c ∈ cs, isMark c = true) : PassedOver cs :=
    passedOver_kind (by decide) h
  have hnull : PassedOver ['n', 'u', 'l', 'l'] := hmarks (List.all_eq_true.mp (by decide))
  cases s with
  | null => exact hnull
  | bool b =>
    cases b with
    | true => exact hmarks (List.all_eq_true.mp (by decide : ['t', 'r', 'u', 'e'].all _ = true))
    | false =>
      exact hmarks (List.all_eq_true.mp (by decide : ['f', 'a', 'l', 's', 'e'].all _ = true))
  | number n =>
    cases n with
    | int i => exact hmarks (isMark_intChars i)
    | float x =>
      rw [scalarChars]
      split_ifs with hfinite
      · exact passedOver_kind (by decide) (isNumeral_render hfinite)
      · exact hnull
  | text s => exact passedOver_string s
  | moment m => exact passedOver_string m.text

/-- **The scan passes over the JSON text of every value.** -/
theorem passedOver_valueChars (v : Value) (level : ℕ) : PassedOver (Json.valueChars 0 level v) := by
  have hP := compositional_passedOver
  induction v using value_induction generalizing level with
  | scalar s =>
    rw [Json.valueChars]
    exact passedOver_scalarChars s
  | list items ih =>
    rw [Json.valueChars, bracketed_eq]
    exact passedOver_bracketed .square (hP.itemParts fun item hitem => ih item hitem _)
  | dict entries ih =>
    rw [Json.valueChars, bracketed_eq]
    exact passedOver_bracketed .curly
      (hP.entryParts (fun _ _ => trivial) fun entry hentry => ih entry hentry _)

/-! ### Containers as literals -/

section Json

variable {v : Value} (hcontainer : v.isContainer = true)
include hcontainer

/-- The text of a container stands between brackets. -/
theorem exists_bracketed (level : ℕ) : ∃ opening cs closing, BracketPair opening closing ∧
    PassedOver cs ∧ Json.valueChars 0 level v = opening :: cs ++ [closing] := by
  have hP := compositional_passedOver
  cases v with
  | scalar => cases hcontainer
  | list items =>
    rw [Json.valueChars, bracketed_eq]
    exact ⟨_, _, _, .square, hP.itemParts fun item _ => passedOver_valueChars item _, rfl⟩
  | dict entries =>
    rw [Json.valueChars, bracketed_eq]
    exact ⟨_, _, _, .curly,
      hP.entryParts (fun _ _ => trivial) fun entry _ => passedOver_valueChars entry.2 _, rfl⟩

/-- **The JSON text of a container is read as a literal**, whatever follows it. -/
theorem readLiteral?_json (rest : List Char) :
    readLiteral? (v.json.toList ++ rest) = some (v.json.toList, rest) := by
  obtain ⟨opening, cs, closing, hbracket, hcs, hform⟩ := exists_bracketed hcontainer 0
  rw [Value.json, Json.render, String.toList_ofList, hform]
  exact readLiteral?_bracketed hbracket hcs rest

/-- **A command takes it as an argument as it stands.** -/
theorem readArgument?_json {key : List Char} (hkey : IsKey key) (rest : List Char) :
    readArgument? (' ' :: (key ++ '=' :: (v.json.toList ++ rest))) =
      some ((String.ofList key, v.json), rest) := by
  rw [readArgument?, List.dropWhile_cons_of_pos (by decide), dropWhile_isGap_key hkey,
    readKey?_append hkey]
  simp [readLiteral?_json hcontainer]

end Json

end PipeScript.Proofs.Pipeline.Literals
