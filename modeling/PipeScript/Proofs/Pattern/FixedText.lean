import PipeScript.Pattern.Replacement
import Mathlib.Data.Nat.Notation
import Mathlib.Logic.Basic

/-! # Patterns of fixed texts

The pattern of a fixed text is the sequence of its characters.  It matches where the text stands
(`run_literal`), a search for it comes to the first place where it does (`search?_fixed`), and
replacing one match puts the replacement there (`replace_fixed`). -/

namespace PipeScript.Proofs.Pattern.FixedText

open PipeScript.Pattern

/-- The part that is a character. -/
def charNode (c : Char) : Node := .single (.set .exact false [.point c.toNat])

/-- The node that a fixed text is. -/
def literal : List Char → Node
  | [] => .empty
  | c :: cs =>
    match literal cs with
    | .empty => charNode c
    | node => .seq (charNode c) node

/-- The pattern that a fixed text is. -/
def fixed (cs : List Char) : Pattern := ⟨literal cs, 0⟩

theorem widthComplaint?_literal (cs : List Char) : (literal cs).widthComplaint? = none := by
  induction cs with
  | nil => rfl
  | cons c cs ih =>
    rw [literal]
    split
    · rfl
    · rw [Node.widthComplaint?, ih]
      rfl

/-! ### Finding a fixed text -/

theorem run_charNode (c : Char) (text : Array Char) (k : Continuation) (s : MatchState) :
    (charNode c).run text k s =
      if text[s.position]? = some c then k { s with position := s.position + 1 } else none := by
  rw [charNode, Node.run]
  cases text[s.position]? with
  | none => rfl
  | some d =>
    have hholds : (CharTest.set .exact false [.point c.toNat]).holds d = decide (d = c) := by
      simp [CharTest.holds, Fold.points, Member.holds, Char.toNat_inj, eq_comm]
    dsimp only
    rw [hholds]
    by_cases hdc : d = c
    · rw [if_pos (decide_eq_true hdc), if_pos (congrArg some hdc)]
    · rw [if_neg (by simpa using hdc), if_neg fun h => hdc (Option.some.inj h)]

theorem run_literal_cons (c : Char) (cs : List Char) (text : Array Char) (k : Continuation) :
    (literal (c :: cs)).run text k = (charNode c).run text ((literal cs).run text k) := by
  funext s
  rw [literal]
  split
  · next h =>
    rw [h]
    rfl
  · rw [Node.run]

theorem prefix_drop_iff {c : Char} {cs text : List Char} {position : ℕ} :
    c :: cs <+: text.drop position ↔
      text[position]? = some c ∧ cs <+: text.drop (position + 1) := by
  rw [← List.head?_drop, ← List.tail_drop]
  cases text.drop position with
  | nil => simp
  | cons d rest => simp [List.cons_prefix_cons, eq_comm]

/-- **A fixed text matches where it stands**, and what is left goes on behind it. -/
theorem run_literal (cs : List Char) (text : Array Char) (k : Continuation) (s : MatchState) :
    (literal cs).run text k s =
      if cs <+: text.toList.drop s.position then k { s with position := s.position + cs.length }
      else none := by
  induction cs generalizing s with
  | nil =>
    rw [if_pos List.nil_prefix]
    rfl
  | cons c cs ih =>
    rw [run_literal_cons, run_charNode, ← Array.getElem?_toList]
    by_cases hc : text.toList[s.position]? = some c
    · rw [if_pos hc, ih, List.length_cons, Nat.add_assoc s.position, Nat.add_comm 1]
      exact if_congr (by rw [prefix_drop_iff, and_iff_right hc]) rfl rfl
    · rw [if_neg hc, if_neg fun h => hc (prefix_drop_iff.1 h).1]

/-- Where a text first occurs in another one. -/
structure FirstIn (find text before after : List Char) : Prop where
  eq : text = before ++ find ++ after
  le : ∀ before' after', text = before' ++ find ++ after' → before.length ≤ before'.length

theorem FirstIn.here (find after : List Char) : FirstIn find (find ++ after) [] after :=
  ⟨rfl, fun _ _ _ => Nat.zero_le _⟩

theorem FirstIn.cons {find text before after : List Char} {c : Char}
    (h : FirstIn find text before after) (hhere : ¬ find <+: c :: text) :
    FirstIn find (c :: text) (c :: before) after := by
  refine ⟨by rw [h.eq]; rfl, fun before' after' heq => ?_⟩
  cases before' with
  | nil => exact absurd ⟨after', heq.symm⟩ hhere
  | cons d before' => exact Nat.succ_le_succ (h.le before' after' (List.cons.inj heq).2)

theorem FirstIn.unique {find text before after before' after' : List Char}
    (h : FirstIn find text before after) (h' : FirstIn find text before' after') :
    before = before' ∧ after = after' := by
  have hlength := Nat.le_antisymm (h.le _ _ h'.eq) (h'.le _ _ h.eq)
  have heq := h.eq.symm.trans h'.eq
  rw [List.append_assoc, List.append_assoc] at heq
  obtain ⟨hbefore, hrest⟩ := List.append_inj heq hlength
  exact ⟨hbefore, List.append_cancel_left hrest⟩

/-- The match of a fixed text behind another one. -/
def fixedMatch (cs before : List Char) : Match := ⟨before.length, (before ++ cs).length, #[none]⟩

theorem matchAt?_fixed (cs front back : List Char) :
    (fixed cs).matchAt? (front ++ back).toArray front.length false =
      if cs <+: back then some (fixedMatch cs front) else none := by
  unfold matchAt? fixed fixedMatch
  dsimp only
  rw [run_literal, List.drop_left, List.length_append]
  split <;> rfl

/-- What a search comes to behind a part of the text that it has passed. -/
def Comes (cs front back : List Char) (found : Option Match) : Prop :=
  (¬ cs <:+: back ∧ found = none) ∨
    ∃ before after, FirstIn cs back before after ∧
      found = some (fixedMatch cs (front ++ before))

theorem comes_of_prefix {cs front back : List Char} (hhere : cs <+: back) (fuel : ℕ) :
    Comes cs front back
      ((fixed cs).search? (front ++ back).toArray (fuel + 1) front.length false) := by
  obtain ⟨after, rfl⟩ := hhere
  refine .inr ⟨[], after, .here cs after, ?_⟩
  rw [search?, matchAt?_fixed, if_pos (List.prefix_append cs after), List.append_nil]

/-- **The search for a fixed text** comes to its first occurrence, and fails where it has none. -/
theorem search?_fixed (cs front back : List Char) {fuel : ℕ} (hfuel : back.length < fuel) :
    Comes cs front back ((fixed cs).search? (front ++ back).toArray fuel front.length false) := by
  -- the search moves one character from `back` to `front` at a time; what it has passed holds no
  -- occurrence, so an occurrence in `back` is the first one
  induction back generalizing front fuel with
  | nil =>
    obtain ⟨fuel, rfl⟩ := Nat.exists_eq_add_one_of_ne_zero (Nat.ne_of_gt hfuel)
    by_cases hhere : cs <+: []
    · exact comes_of_prefix hhere fuel
    · refine .inl ⟨fun hnowhere => hhere (List.infix_nil.1 hnowhere ▸ List.nil_prefix), ?_⟩
      rw [search?, matchAt?_fixed, if_neg hhere, List.append_nil]
      exact if_neg (Nat.lt_irrefl _)
  | cons c back ih =>
    obtain ⟨fuel, rfl⟩ := Nat.exists_eq_add_one_of_ne_zero (Nat.ne_of_gt (Nat.zero_lt_of_lt hfuel))
    by_cases hhere : cs <+: c :: back
    · exact comes_of_prefix hhere fuel
    · have hsize : front.length < (front ++ c :: back).toArray.size := by
        rw [List.size_toArray, List.length_append, List.length_cons]
        omega
      have h := ih (front ++ [c]) (Nat.lt_of_succ_lt_succ hfuel)
      rw [List.append_assoc, List.singleton_append, List.length_append, List.length_singleton] at h
      rw [search?, matchAt?_fixed, if_neg hhere]
      dsimp only
      rw [if_pos hsize]
      rcases h with ⟨hnowhere, hfound⟩ | ⟨before, after, hfirst, hfound⟩
      · exact .inl ⟨fun h => (List.infix_cons_iff.1 h).elim hhere hnowhere, hfound⟩
      · refine .inr ⟨c :: before, after, hfirst.cons hhere, hfound.trans ?_⟩
        rw [List.append_assoc, List.singleton_append]

/-! ### Replacing a fixed text -/

theorem spanText_front (front back : List Char) :
    spanText (front ++ back).toArray (0, front.length) = front := by
  simp [spanText]

theorem spanText_back (front back : List Char) :
    spanText (front ++ back).toArray (front.length, (front ++ back).toArray.size) = back := by
  simp [spanText]

theorem spanText_middle (front middle back : List Char) :
    spanText (front ++ middle ++ back).toArray (front.length, (front ++ middle).length) = middle := by
  simp [spanText]

variable (cs before after : List Char)

theorem ofMatch_fixed :
    Occurrence.ofMatch (before ++ cs ++ after).toArray (fixedMatch cs before) =
      ⟨before, cs, after, []⟩ := by
  have hbefore : spanText (before ++ cs ++ after).toArray (0, before.length) = before := by
    rw [List.append_assoc, spanText_front]
  simp only [Occurrence.ofMatch, fixedMatch, hbefore, spanText_middle, spanText_back]
  rfl

theorem replaceMatches_fixed (expand : Match → List Char) :
    replaceMatches (before ++ cs ++ after).toArray expand 0 [fixedMatch cs before] =
      before ++ expand (fixedMatch cs before) ++ after := by
  have hbefore : spanText (before ++ cs ++ after).toArray (0, before.length) = before := by
    rw [List.append_assoc, spanText_front]
  rw [replaceMatches, replaceMatches]
  simp only [fixedMatch, hbefore, spanText_back]

variable {cs before after}

/-- **One fixed text is replaced where it first occurs**, and nothing else changes. -/
theorem replace_fixed (cs replacement text : List Char) :
    (¬ cs <:+: text ∧ (fixed cs).replace false replacement text = text) ∨
      ∃ before after, FirstIn cs text before after ∧
        (fixed cs).replace false replacement text =
          before ++ (⟨before, cs, after, []⟩ : Occurrence).expand replacement ++ after := by
  have hreplace : (fixed cs).replace false replacement text =
      replaceMatches text.toArray
        (fun m => (Occurrence.ofMatch text.toArray m).expand replacement) 0
        ((fixed cs).search? ([] ++ text).toArray (text.length + 1) ([] : List Char).length
          false).toList := rfl
  rcases search?_fixed cs [] text (Nat.lt_succ_self _) with
    ⟨hnowhere, hfound⟩ | ⟨before, after, hfirst, hfound⟩
  · refine .inl ⟨hnowhere, ?_⟩
    rw [hreplace, hfound]
    exact spanText_back [] text
  · refine .inr ⟨before, after, hfirst, ?_⟩
    rw [hreplace, hfound, Option.toList_some, List.nil_append, hfirst.eq, replaceMatches_fixed,
      ofMatch_fixed]

end PipeScript.Proofs.Pattern.FixedText
