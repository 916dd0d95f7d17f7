import PipeScript.Proofs.Json.RoundTrip
import PipeScript.Proofs.Text.Filling

/-! # How JSON text is spelled

JSON text on one line is put together from strings, brackets and a few other characters
(`Compositional.valueChars`).  What holds of the strings of a value and goes through the brackets
holds of its whole text.  So no white space stands around it (`compositional_edged`); it has no bar if
no string in it has one (`compositional_barless`); and no two opening braces stand next to each other
if they do in no string (`compositional_unbraced`), for an opening bracket is followed by a key or by
its closing bracket. -/

namespace PipeScript.Proofs.Json.Spelling

open PipeScript.Json PipeScript.Text
open PipeScript.Proofs.Value.Entries PipeScript.Proofs.Json.RoundTrip
open PipeScript.Proofs.Number.Digits PipeScript.Proofs.Text.Strip PipeScript.Proofs.Text.Filling

/-! ### Values by their texts -/

/-- Values of which JSON text loses nothing, and whose texts and keys all have a property. -/
inductive Worded (ok : String → Prop) : Value → Prop where
  | null : Worded ok .null
  | bool (b : Bool) : Worded ok (.bool b)
  | int {i : ℤ} (hi : exceedsDigitLimit i = false) : Worded ok (.int i)
  | text {s : String} (hs : ok s) : Worded ok (.text s)
  | list {items : List Value} (hitems : ∀ item ∈ items, Worded ok item) : Worded ok (.list items)
  | dict {entries : Entries Value} (hkeys : TextKeys entries)
      (hok : ∀ entry ∈ entries, ok entry.1.keyText)
      (hitems : ∀ entry ∈ entries, Worded ok entry.2) : Worded ok (.dict entries)

section Worded

variable {ok good : String → Prop} {v : Value}

theorem Worded.lossless (h : Worded ok v) : Lossless v := by
  induction h with
  | null => exact .null
  | bool b => exact .bool b
  | int hi => exact .int hi
  | text => exact .text _
  | list _ ih => exact .list ih
  | dict hkeys _ _ ih => exact .dict hkeys ih

theorem Worded.mono (h : Worded ok v) (himp : ∀ s, ok s → good s) : Worded good v := by
  induction h with
  | null => exact .null
  | bool b => exact .bool b
  | int hi => exact .int hi
  | text hs => exact .text (himp _ hs)
  | list _ ih => exact .list ih
  | dict hkeys hok _ ih => exact .dict hkeys (fun entry hentry => himp _ (hok entry hentry)) ih

end Worded

/-! ### What JSON text is put together from -/

/-- A character of JSON text outside of strings that is no bracket. -/
def isMark (c : Char) : Bool :=
  isAsciiLetter c || isAsciiDigit c || c == ',' || c == ':' || c == '-'

/-- Properties of texts that go from strings with a property to all of JSON text. -/
structure Compositional (ok : String → Prop) (P : List Char → Prop) : Prop where
  nil : P []
  append : ∀ {cs ds}, P cs → P ds → P (cs ++ ds)
  mark : ∀ {c}, isMark c = true → P [c]
  string : ∀ {s}, ok s → P (stringChars s)
  list : ∀ {cs}, P cs → P ('[' :: cs ++ [']'])
  dict : ∀ {cs}, P cs → cs.head? ≠ some '{' → P ('{' :: cs ++ ['}'])

theorem bracketed_eq (opening closing : Char) (level : ℕ) (parts : List (List Char)) :
    bracketed opening closing 0 level parts = opening :: [','].intercalate parts ++ [closing] := by
  have hgap : ∀ level, gap 0 level = [] := fun _ => rfl
  unfold bracketed
  rw [hgap, hgap]
  cases parts with
  | nil => rfl
  | cons part parts => simp

theorem mem_itemParts {indent level : ℕ} {items : List Value} {part : List Char}
    (h : part ∈ itemParts indent level items) :
    ∃ item ∈ items, part = valueChars indent level item := by
  induction items with
  | nil => cases h
  | cons item items ih =>
    rw [itemParts] at h
    rcases List.mem_cons.mp h with rfl | h
    · exact ⟨item, List.mem_cons_self, rfl⟩
    · obtain ⟨other, hother, hpart⟩ := ih h
      exact ⟨other, List.mem_cons_of_mem _ hother, hpart⟩

theorem mem_entryParts {indent level : ℕ} {entries : Entries Value} {part : List Char}
    (h : part ∈ entryParts indent level entries) :
    ∃ entry ∈ entries, part = keyChars indent entry.1 ++ valueChars indent level entry.2 := by
  induction entries with
  | nil => cases h
  | cons entry entries ih =>
    obtain ⟨key, item⟩ := entry
    rw [entryParts] at h
    rcases List.mem_cons.mp h with rfl | h
    · exact ⟨(key, item), List.mem_cons_self, rfl⟩
    · obtain ⟨other, hother, hpart⟩ := ih h
      exact ⟨other, List.mem_cons_of_mem _ hother, hpart⟩

/-- The parts of a dictionary start with a quote. -/
theorem head_entryParts (level : ℕ) (entries : Entries Value) :
    ([','].intercalate (entryParts 0 level entries)).head? ≠ some '{' := by
  rcases entries with _ | ⟨⟨key, item⟩, entries⟩
  · exact Option.some_ne_none _ |>.symm
  · rw [entryParts, intercalate_cons]
    simp [keyChars, stringChars]

theorem isMark_intChars (i : ℤ) : ∀ c ∈ Number.intChars i, isMark c = true := by
  have hdigits : ∀ c ∈ Decimal.digitChars i.natAbs, isMark c = true := fun c hc => by
    simp [isMark, isAsciiDigit_of_mem_digitChars hc]
  unfold Number.intChars
  split_ifs
  · exact List.forall_mem_cons.mpr ⟨by decide, hdigits⟩
  · exact hdigits

namespace Compositional

variable {ok : String → Prop} {P : List Char → Prop} (hP : Compositional ok P)
include hP

theorem marks {cs : List Char} (h : ∀ c ∈ cs, isMark c = true) : P cs := by
  induction cs with
  | nil => exact hP.nil
  | cons c cs ih =>
    exact hP.append (hP.mark (h c List.mem_cons_self)) (ih fun d hd => h d (List.mem_cons_of_mem _ hd))

theorem intercalate {parts : List (List Char)} (h : ∀ part ∈ parts, P part) :
    P ([','].intercalate parts) := by
  induction parts with
  | nil => exact hP.nil
  | cons part parts ih =>
    have hrest := ih fun other hother => h other (List.mem_cons_of_mem _ hother)
    have hpart := h part List.mem_cons_self
    cases parts with
    | nil => simpa using hpart
    | cons next parts =>
      rw [List.intercalate_cons_cons]
      exact hP.append (hP.append hpart (hP.mark (by decide))) hrest

theorem itemParts {items : List Value} {level : ℕ}
    (h : ∀ item ∈ items, P (Json.valueChars 0 level item)) :
    P ([','].intercalate (Json.itemParts 0 level items)) := by
  refine hP.intercalate fun part hpart => ?_
  obtain ⟨item, hitem, rfl⟩ := mem_itemParts hpart
  exact h item hitem

theorem entryParts {entries : Entries Value} {level : ℕ}
    (hok : ∀ entry ∈ entries, ok entry.1.keyText)
    (h : ∀ entry ∈ entries, P (Json.valueChars 0 level entry.2)) :
    P ([','].intercalate (Json.entryParts 0 level entries)) := by
  refine hP.intercalate fun part hpart => ?_
  obtain ⟨entry, hentry, rfl⟩ := mem_entryParts hpart
  have hkey : P (keyChars 0 entry.1) := hP.append (hP.string (hok entry hentry)) (hP.mark (by decide))
  exact hP.append hkey (h entry hentry)

/-- **The text of a value has what its strings have.** -/
theorem valueChars {v : Value} (h : Worded ok v) (level : ℕ) : P (valueChars 0 level v) := by
  induction h generalizing level with
  | null =>
    have hnull : ∀ c ∈ ['n', 'u', 'l', 'l'], isMark c = true := List.all_eq_true.mp (by decide)
    exact hP.marks hnull
  | bool b =>
    have htrue : ∀ c ∈ ['t', 'r', 'u', 'e'], isMark c = true := List.all_eq_true.mp (by decide)
    have hfalse : ∀ c ∈ ['f', 'a', 'l', 's', 'e'], isMark c = true :=
      List.all_eq_true.mp (by decide)
    cases b with
    | true => exact hP.marks htrue
    | false => exact hP.marks hfalse
  | int hi => exact hP.marks (isMark_intChars _)
  | text hs => exact hP.string hs
  | list _ ih =>
    rw [Json.valueChars, bracketed_eq]
    exact hP.list (hP.itemParts fun item hitem => ih item hitem (level + 1))
  | dict _ hok _ ih =>
    rw [Json.valueChars, bracketed_eq]
    exact hP.dict (hP.entryParts hok fun entry hentry => ih entry hentry (level + 1))
      (head_entryParts _ _)

end Compositional

/-! ### Escapes -/

/-- A character stays as it is inside a string, or becomes a backslash, a character after it and
digits. -/
theorem escapeChar_cases (c : Char) :
    (escapeChar c = [c] ∧ c ≠ '"' ∧ c ≠ '\\') ∨ ∃ x digits, escapeChar c = '\\' :: x :: digits ∧
      (x :: digits).all (fun d => d != '{' && d != '|') = true ∧
      digits.all (fun d => d != '"' && d != '\\') = true := by
  unfold escapeChar
  split_ifs with hquote hback hlf hcr htab hbs hff hcontrol
  · exact .inr ⟨'"', [], rfl, by decide, by decide⟩
  · exact .inr ⟨'\\', [], rfl, by decide, by decide⟩
  · exact .inr ⟨'n', [], rfl, by decide, by decide⟩
  · exact .inr ⟨'r', [], rfl, by decide, by decide⟩
  · exact .inr ⟨'t', [], rfl, by decide, by decide⟩
  · exact .inr ⟨'b', [], rfl, by decide, by decide⟩
  · exact .inr ⟨'f', [], rfl, by decide, by decide⟩
  · have hdigits : ∀ n < 0x20, ('u' :: hexDigits 4 n).all (fun d => d != '{' && d != '|') = true ∧
        (hexDigits 4 n).all (fun d => d != '"' && d != '\\') = true := by
      decide
    exact .inr ⟨'u', hexDigits 4 c.toNat, rfl, hdigits _ hcontrol⟩
  · exact .inl ⟨rfl, hquote, hback⟩

/-! ### How texts start and end -/

/-- A character that JSON text starts or ends with. -/
def isEdge (c : Char) : Bool :=
  isMark c || ['"', '[', ']', '{', '}'].contains c

/-- A text that starts and ends like JSON text. -/
structure Edged (cs : List Char) : Prop where
  head : ∀ c ∈ cs.head?, isEdge c = true
  last : ∀ c ∈ cs.getLast?, isEdge c = true

theorem isBlank_of_isEdge {c : Char} (h : isEdge c = true) : isBlank c = false := by
  rw [← Bool.not_eq_true]
  intro hblank
  have hpoints : ∀ n ∈ blankPoints, isEdge (Char.ofNat n) = false := by decide
  have hpoint := hpoints _ (mem_blankPoints hblank)
  rw [Char.ofNat_toNat, h] at hpoint
  cases hpoint

theorem isGap_of_isEdge {c : Char} (h : isEdge c = true) : isGap c = false := by
  rw [isGap, Bool.or_eq_false_iff]
  constructor
  · rw [← Bool.not_eq_true]
    intro hspace
    have hblank := isBlank_of_isSpace hspace
    rw [isBlank_of_isEdge h] at hblank
    cases hblank
  · refine beq_false_of_ne fun hpoint => ?_
    have hother : isEdge (Char.ofNat 0x180E) = false := by decide
    rw [← hpoint, Char.ofNat_toNat, h] at hother
    cases hother

theorem Edged.solid {cs : List Char} (h : Edged cs) : Solid cs :=
  ⟨fun c hc => isBlank_of_isEdge (h.head c hc), fun c hc => isBlank_of_isEdge (h.last c hc)⟩

theorem Edged.append {cs ds : List Char} (hcs : Edged cs) (hds : Edged ds) : Edged (cs ++ ds) := by
  refine ⟨fun c hc => ?_, fun c hc => ?_⟩
  · rcases cs with _ | ⟨d, cs⟩
    · exact hds.head c hc
    · exact hcs.head c hc
  · rw [List.getLast?_append] at hc
    cases hlast : ds.getLast? with
    | none =>
      rw [hlast] at hc
      exact hcs.last c hc
    | some d =>
      rw [hlast] at hc
      exact hds.last c (hlast.trans hc)

theorem edged_around {opening closing : Char} (hopening : isEdge opening = true)
    (hclosing : isEdge closing = true) (cs : List Char) : Edged (opening :: cs ++ [closing]) := by
  refine ⟨fun c hc => ?_, fun c hc => ?_⟩
  · obtain rfl : opening = c := by simpa using hc
    exact hopening
  · rw [List.getLast?_concat] at hc
    obtain rfl : closing = c := Option.some.inj hc
    exact hclosing

/-- **JSON text starts and ends with a mark, a quote or a bracket.** -/
theorem compositional_edged : Compositional (fun _ => True) Edged where
  nil := ⟨by simp, by simp⟩
  append := Edged.append
  mark {c} hc := by
    have hedge : isEdge c = true := by rw [isEdge, hc, Bool.true_or]
    exact ⟨by simpa using hedge, by simpa using hedge⟩
  string _ := edged_around (by decide) (by decide) _
  list _ := edged_around (by decide) (by decide) _
  dict _ _ := edged_around (by decide) (by decide) _

/-! ### Texts without bars -/

/-- There is no bar in a text. -/
def Barless (cs : List Char) : Prop := ∀ c ∈ cs, c ≠ '|'

instance (cs : List Char) : Decidable (Barless cs) :=
  decidable_of_iff (cs.all (· != '|') = true) (by simp [Barless])

theorem barless_escapeChar {c : Char} (h : c ≠ '|') : Barless (escapeChar c) := by
  rcases escapeChar_cases c with ⟨heq, -⟩ | ⟨x, digits, heq, hall, -⟩
  · rw [heq]
    exact List.forall_mem_singleton.mpr h
  · rw [heq]
    refine List.forall_mem_cons.mpr ⟨by decide, fun d hd => ?_⟩
    have hd := List.all_eq_true.mp hall d hd
    simp only [Bool.and_eq_true, bne_iff_ne] at hd
    exact hd.2

/-- **JSON text has no bar** if no string in it has one. -/
theorem compositional_barless : Compositional (fun s => Barless s.toList) Barless where
  nil := fun _ h => nomatch h
  append hcs hds := List.forall_mem_append.mpr ⟨hcs, hds⟩
  mark {c} hc := by
    refine List.forall_mem_singleton.mpr ?_
    rintro rfl
    exact absurd hc (by decide)
  string {s} hs := by
    have hescaped : Barless (s.toList.flatMap escapeChar) := by
      intro d hd
      obtain ⟨c, hc, hd⟩ := List.mem_flatMap.mp hd
      exact barless_escapeChar (hs c hc) d hd
    exact List.forall_mem_append.mpr ⟨List.forall_mem_cons.mpr ⟨by decide, hescaped⟩, by simp⟩
  list hcs := List.forall_mem_append.mpr ⟨List.forall_mem_cons.mpr ⟨by decide, hcs⟩, by simp⟩
  dict hcs _ := List.forall_mem_append.mpr ⟨List.forall_mem_cons.mpr ⟨by decide, hcs⟩, by simp⟩

/-! ### Texts without double braces -/

theorem unbraced_of_notMem {cs : List Char} (h : '{' ∉ cs) : Unbraced cs := by
  induction cs with
  | nil => exact .nil
  | cons c cs ih =>
    have hrest := ih fun hmem => h (List.mem_cons_of_mem _ hmem)
    refine List.isChain_cons.mpr ⟨fun d _ hboth => ?_, hrest⟩
    exact h (hboth.1 ▸ List.mem_cons_self)

/-- Texts with the first one not ending in a brace, or the second one not starting with one. -/
theorem unbraced_append {cs ds : List Char} (hcs : Unbraced cs) (hds : Unbraced ds)
    (h : cs.getLast? ≠ some '{' ∨ ds.head? ≠ some '{') : Unbraced (cs ++ ds) := by
  refine List.isChain_append.mpr ⟨hcs, hds, fun c hc d hd hboth => ?_⟩
  obtain ⟨rfl, rfl⟩ := hboth
  rcases h with h | h
  · exact h hc
  · exact h hd

theorem unbraced_escapeChar (c : Char) :
    Unbraced (escapeChar c) ∧ ((escapeChar c).getLast? = some '{' → c = '{') ∧
      ((escapeChar c).head? = some '{' → c = '{') ∧ escapeChar c ≠ [] := by
  rcases escapeChar_cases c with ⟨heq, -⟩ | ⟨x, digits, heq, hall, -⟩
  · rw [heq]
    exact ⟨.singleton c, by simp, by simp, by simp⟩
  · have hmem : '{' ∉ escapeChar c := by
      rw [heq]
      intro hmem
      rcases List.mem_cons.mp hmem with hmem | hmem
      · exact absurd hmem (by decide)
      · exact absurd (List.all_eq_true.mp hall _ hmem) (by decide)
    refine ⟨unbraced_of_notMem hmem, fun h => ?_, fun h => ?_, by rw [heq]; simp⟩
    · exact absurd (List.mem_of_getLast? h) hmem
    · exact absurd (List.mem_of_head? h) hmem

/-- Escapes put no braces next to each other. -/
theorem unbraced_escaped {cs : List Char} (h : Unbraced cs) : Unbraced (cs.flatMap escapeChar) := by
  induction cs with
  | nil => exact .nil
  | cons c cs ih =>
    obtain ⟨hfirst, hlast, -, -⟩ := unbraced_escapeChar c
    have hrest : Unbraced cs := List.IsChain.of_cons h
    rw [List.flatMap_cons]
    refine unbraced_append hfirst (ih hrest) ?_
    by_contra hboth
    obtain ⟨hend, hstart⟩ := not_or.mp hboth
    have hc := hlast (not_not.mp hend)
    rcases cs with _ | ⟨d, cs⟩
    · exact hstart (by simp)
    · obtain ⟨-, -, hhead, hne⟩ := unbraced_escapeChar d
      rw [List.flatMap_cons, List.head?_append_of_ne_nil _ hne] at hstart
      exact (List.isChain_cons_cons.mp h).1 ⟨hc, hhead (not_not.mp hstart)⟩

theorem unbraced_around {opening closing : Char} {cs : List Char} (h : Unbraced cs)
    (hclosing : closing ≠ '{')
    (hhead : opening ≠ '{' ∨ cs.head? ≠ some '{') :
    Unbraced (opening :: cs ++ [closing]) ∧ (opening :: cs ++ [closing]).getLast? ≠ some '{' := by
  have hbehind : Unbraced (cs ++ [closing]) :=
    unbraced_append h (.singleton closing) (.inr (by simpa using hclosing))
  refine ⟨List.isChain_cons.mpr ⟨fun d hd hboth => ?_, hbehind⟩, ?_⟩
  · obtain ⟨rfl, rfl⟩ := hboth
    cases cs with
    | nil => exact hclosing (by simpa using hd)
    | cons c cs => exact hhead.elim (fun h => h rfl) fun h => h hd
  · rw [List.getLast?_concat]
    exact fun hend => hclosing (Option.some.inj hend)

/-- **JSON text has no two opening braces next to each other** if no string in it has, and it does
not end in one. -/
theorem compositional_unbraced : Compositional (fun s => Unbraced s.toList)
    fun cs => Unbraced cs ∧ cs.getLast? ≠ some '{' where
  nil := ⟨.nil, by simp⟩
  append {cs ds} hcs hds := by
    refine ⟨unbraced_append hcs.1 hds.1 (.inl hcs.2), ?_⟩
    rw [List.getLast?_append]
    cases hlast : ds.getLast? with
    | none => exact hcs.2
    | some d => exact fun h => hds.2 (hlast.trans h)
  mark {c} hc := by
    refine ⟨.singleton c, ?_⟩
    rintro h
    obtain rfl : c = '{' := by simpa using h
    exact absurd hc (by decide)
  string hs := unbraced_around (unbraced_escaped hs) (by decide) (.inl (by decide))
  list hcs := unbraced_around hcs.1 (by decide) (.inl (by decide))
  dict hcs hhead := unbraced_around hcs.1 (by decide) (.inr hhead)

end PipeScript.Proofs.Json.Spelling
