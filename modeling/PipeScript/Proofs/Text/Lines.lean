import PipeScript.Text.Blank
import PipeScript.Text.Lines
import PipeScript.Proofs.Text.Cutting

/-! # Lines of a text

A text holds lines (`Holds`) if it is these lines, each with a line feed behind it, which may be
missing behind the last one.  If no line has a character that ends lines (`Unbroken`), such a text
has just these lines, where line ends of every convention count (`lines_of_holds`), and it is cut
into them at its line feeds (`cutAt_closed`, `cutAt_unclosed`). -/

namespace PipeScript.Proofs.Text.Lines

open PipeScript.Text
open PipeScript.Proofs.Text.Cutting

/-- No character that ends a line. -/
def Unbroken (cs : List Char) : Prop := ∀ c ∈ cs, endsLine c = false

instance (cs : List Char) : Decidable (Unbroken cs) :=
  List.decidableBAll (endsLine · = false) cs

/-- Lines, each with a line feed behind it. -/
def ended (lines : List String) : String := String.join (lines.map (· ++ "\n"))

/-- The texts that hold some lines. -/
inductive Holds : List String → String → Prop
  | closed (lines : List String) : Holds lines (ended lines)
  /-- The last line may lack its line feed. -/
  | unclosed (front : List String) (last : String) : Holds (front ++ [last]) (ended front ++ last)

/-- The characters of `ended`. -/
def endedChars (lines : List (List Char)) : List Char := lines.flatMap (· ++ ['\n'])

theorem toList_ended (lines : List String) :
    (ended lines).toList = endedChars (lines.map String.toList) := by
  simp [ended, endedChars, String.toList_join, List.flatMap_map]

section Characters

variable {cs : List Char}

theorem ne_of_unbroken {c d : Char} (h : Unbroken cs) (hc : c ∈ cs) (hd : endsLine d = true) :
    c ≠ d := by
  rintro rfl
  rw [h c hc] at hd
  cases hd

/-! ### Line ends of one kind -/

/-- Without a carriage return all line ends are unified. -/
theorem unifyLineEndsChars_of_absent (h : '\r' ∉ cs) : unifyLineEndsChars cs = cs := by
  induction cs with
  | nil => rfl
  | cons c rest ih =>
    have hc : c ≠ '\r' := fun heq => h (heq ▸ List.mem_cons_self)
    rw [unifyLineEndsChars, ih fun hmem => h (List.mem_cons_of_mem c hmem)]
    · exact fun _ heq _ => hc heq
    · exact hc

theorem return_not_mem_endedChars {lines : List (List Char)} (h : ∀ line ∈ lines, Unbroken line) :
    '\r' ∉ endedChars lines := by
  intro hmem
  obtain ⟨line, hline, hmem⟩ := List.mem_flatMap.mp hmem
  rcases List.mem_append.mp hmem with hmem | hmem
  · exact ne_of_unbroken (h line hline) hmem rfl rfl
  · exact absurd (List.mem_singleton.mp hmem) (by decide)

/-! ### Cutting -/

/-- What cuts off a line in front of a text cuts off all lines in front of it. -/
theorem cut_endedChars {cut : List Char → List (List Char)}
    (hcut : ∀ line rest, Unbroken line → cut (line ++ '\n' :: rest) = line :: cut rest)
    {lines : List (List Char)} (h : ∀ line ∈ lines, Unbroken line) (rest : List Char) :
    cut (endedChars lines ++ rest) = lines ++ cut rest := by
  induction lines with
  | nil => rfl
  | cons line lines ih =>
    have htext : endedChars (line :: lines) ++ rest =
        line ++ '\n' :: (endedChars lines ++ rest) := by simp [endedChars]
    rw [htext, hcut _ _ (h line List.mem_cons_self),
      ih fun other hother => h other (List.mem_cons_of_mem _ hother), List.cons_append]

theorem linesFrom_append (h : Unbroken cs) (line rest : List Char) :
    linesFrom line (cs ++ rest) = linesFrom (cs.reverse ++ line) rest := by
  induction cs generalizing line with
  | nil => rfl
  | cons c cs ih =>
    have hc : ¬ endsLine c = true := by simp [h c List.mem_cons_self]
    rw [List.cons_append, linesFrom, if_neg hc, ih fun d hd => h d (List.mem_cons_of_mem c hd),
      List.reverse_cons, List.append_assoc, List.singleton_append]

theorem linesFrom_line (line rest : List Char) (h : Unbroken line) :
    linesFrom [] (line ++ '\n' :: rest) = line :: linesFrom [] rest := by
  have hfeed : endsLine '\n' = true := rfl
  rw [linesFrom_append h, linesFrom, if_pos hfeed, List.append_nil, List.reverse_reverse]

theorem linesFrom_unbroken (h : Unbroken cs) (hne : cs ≠ []) : linesFrom [] cs = [cs] := by
  have hrun := linesFrom_append h [] []
  rw [List.append_nil, List.append_nil] at hrun
  rw [hrun, linesFrom, if_neg (by simpa using hne), List.reverse_reverse]

theorem piecesFrom_cons {c : Char} (h : c ≠ '\n') (rest : List Char) :
    piecesFrom ['\n'] 0 (c :: rest) = extendFirst c (piecesFrom ['\n'] 0 rest) := by
  have hc : ¬ List.isPrefixOf ['\n'] (c :: rest) = true := by simpa using h.symm
  rw [piecesFrom, if_neg hc]

theorem piecesFrom_line (line rest : List Char) (h : Unbroken line) :
    piecesFrom ['\n'] 0 (line ++ '\n' :: rest) = line :: piecesFrom ['\n'] 0 rest := by
  induction line with
  | nil => rfl
  | cons c line ih =>
    rw [List.cons_append, piecesFrom_cons (ne_of_unbroken h List.mem_cons_self rfl),
      ih fun d hd => h d (List.mem_cons_of_mem c hd)]
    rfl

theorem piecesFrom_unbroken (h : Unbroken cs) : piecesFrom ['\n'] 0 cs = [cs] := by
  induction cs with
  | nil => rfl
  | cons c cs ih =>
    rw [piecesFrom_cons (ne_of_unbroken h List.mem_cons_self rfl),
      ih fun d hd => h d (List.mem_cons_of_mem c hd)]
    rfl

end Characters

/-! ### Texts -/

theorem map_ofList_toList (lines : List String) :
    (lines.map String.toList).map String.ofList = lines := by
  have hback : String.ofList ∘ String.toList = id := funext fun _ => String.ofList_toList
  rw [List.map_map, hback, List.map_id]

section Texts

variable {lines : List String}

theorem unbroken_chars (h : ∀ line ∈ lines, Unbroken line.toList) :
    ∀ line ∈ lines.map String.toList, Unbroken line := by
  intro chars hchars
  obtain ⟨line, hline, rfl⟩ := List.mem_map.mp hchars
  exact h line hline

/-- **A text that holds lines has just these lines**, as long as none is empty or broken. -/
theorem lines_of_holds {text : String} (hholds : Holds lines text)
    (h : ∀ line ∈ lines, Unbroken line.toList) (hne : ∀ line ∈ lines, line ≠ "") :
    Text.lines (unifyLineEnds text) = lines := by
  cases hholds with
  | closed =>
    have hchars := unbroken_chars h
    rw [Text.lines, unifyLineEnds, String.toList_ofList, toList_ended,
      unifyLineEndsChars_of_absent (return_not_mem_endedChars hchars),
      ← List.append_nil (endedChars _), cut_endedChars linesFrom_line hchars, linesFrom,
      if_pos List.isEmpty_nil, List.append_nil, map_ofList_toList]
  | unclosed front last =>
    have hchars := unbroken_chars fun line hline => h line (List.mem_append_left _ hline)
    have hmem : last ∈ front ++ [last] := List.mem_append_right _ (List.mem_singleton_self last)
    have hlast := h last hmem
    have hnonempty := toList_ne_nil (hne last hmem)
    have hreturn : '\r' ∉ endedChars (front.map String.toList) ++ last.toList := by
      intro hmem
      rcases List.mem_append.mp hmem with hmem | hmem
      · exact return_not_mem_endedChars hchars hmem
      · exact ne_of_unbroken hlast hmem rfl rfl
    rw [Text.lines, unifyLineEnds, String.toList_ofList, String.toList_append, toList_ended,
      unifyLineEndsChars_of_absent hreturn, cut_endedChars linesFrom_line hchars,
      linesFrom_unbroken hlast hnonempty, List.map_append, map_ofList_toList, List.map_singleton,
      String.ofList_toList]

theorem cutAt_closed (h : ∀ line ∈ lines, Unbroken line.toList) :
    cutAt "\n" (ended lines) = lines ++ [""] := by
  have hfeed : "\n".toList = ['\n'] := rfl
  rw [cutAt, hfeed, toList_ended, ← List.append_nil (endedChars _),
    cut_endedChars piecesFrom_line (unbroken_chars h), piecesFrom, List.map_append,
    map_ofList_toList]
  rfl

theorem cutAt_unclosed {last : String} (h : ∀ line ∈ lines, Unbroken line.toList)
    (hlast : Unbroken last.toList) : cutAt "\n" (ended lines ++ last) = lines ++ [last] := by
  have hfeed : "\n".toList = ['\n'] := rfl
  rw [cutAt, hfeed, String.toList_append, toList_ended,
    cut_endedChars piecesFrom_line (unbroken_chars h), piecesFrom_unbroken hlast, List.map_append,
    map_ofList_toList, List.map_singleton, String.ofList_toList]

end Texts

end PipeScript.Proofs.Text.Lines
