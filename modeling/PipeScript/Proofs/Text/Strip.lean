import PipeScript.Text.Blank
import Mathlib.Data.List.DropRight
import Mathlib.Data.List.TakeWhile

/-! # Stripping

A text is *solid* if neither its first nor its last character is a blank.  Stripping leaves solid
texts alone (`stripChars_of_solid`), always ends in one (`solid_stripChars`), takes away nothing but
blanks at both ends (`exists_stripChars`), and does not see blanks that are put around a text
(`stripChars_around`).  Behind a solid text it takes away blanks at the end only
(`stripChars_append`). -/

namespace PipeScript.Proofs.Text.Strip

open PipeScript.Text

/-- No blank at either end. -/
def Solid (cs : List Char) : Prop :=
  (∀ c ∈ cs.head?, isBlank c = false) ∧ ∀ c ∈ cs.getLast?, isBlank c = false

theorem dropWhile_of_head {p : Char → Bool} {cs : List Char} (h : ∀ c ∈ cs.head?, p c = false) :
    cs.dropWhile p = cs := by
  cases cs with
  | nil => rfl
  | cons c cs => rw [List.dropWhile_cons_of_neg (by simp [h c (by simp)])]

theorem head_dropWhile {p : Char → Bool} (cs : List Char) :
    ∀ c ∈ (cs.dropWhile p).head?, p c = false := by
  intro c hc
  have h := List.head?_dropWhile_not p cs
  rw [Option.mem_def.mp hc] at h
  simpa using h

theorem stripChars_of_solid {cs : List Char} (h : Solid cs) : stripChars cs = cs := by
  unfold stripChars
  rw [dropWhile_of_head h.1, dropWhile_of_head (by simpa using h.2), List.reverse_reverse]

theorem solid_stripChars (cs : List Char) : Solid (stripChars cs) := by
  unfold stripChars
  set front := cs.dropWhile isBlank with hfront
  refine ⟨fun c hc => ?_, fun c hc => ?_⟩
  · -- what stripping the end leaves is a prefix, so the first character stays
    have hpre : (front.reverse.dropWhile isBlank).reverse <+: front := by
      have hs := List.dropWhile_suffix isBlank (l := front.reverse)
      rw [← List.reverse_prefix] at hs
      simpa using hs
    obtain ⟨tail, htail⟩ := hpre
    refine head_dropWhile cs c ?_
    rw [← hfront, ← htail, Option.mem_def, List.head?_append]
    rw [Option.mem_def] at hc
    rw [hc]
    rfl
  · rw [List.getLast?_reverse] at hc
    exact head_dropWhile _ c hc

theorem stripChars_eq_self_iff {cs : List Char} : stripChars cs = cs ↔ Solid cs :=
  ⟨fun h => h ▸ solid_stripChars cs, stripChars_of_solid⟩

@[simp] theorem stripChars_stripChars (cs : List Char) :
    stripChars (stripChars cs) = stripChars cs :=
  stripChars_of_solid (solid_stripChars cs)

/-- Blanks around a solid text go away. -/
theorem stripChars_pad {left cs right : List Char}
    (hl : ∀ c ∈ left, isBlank c = true) (hr : ∀ c ∈ right, isBlank c = true) (h : Solid cs)
    (hne : cs ≠ []) :
    stripChars (left ++ cs ++ right) = cs := by
  obtain ⟨c, tail, rfl⟩ := List.exists_cons_of_ne_nil hne
  unfold stripChars
  have hc : isBlank c = false := h.1 c (by simp)
  have hfront : (left ++ (c :: tail) ++ right).dropWhile isBlank = c :: tail ++ right := by
    rw [List.append_assoc, List.dropWhile_append_of_pos hl, List.cons_append,
      List.dropWhile_cons_of_neg (by simp [hc])]
  rw [hfront, List.reverse_append, List.dropWhile_append_of_pos (by simpa using hr),
    dropWhile_of_head (by rw [List.head?_reverse]; exact h.2), List.reverse_reverse]

/-- Behind a solid text only the blanks at the end go away. -/
theorem stripChars_append {cs : List Char} (h : Solid cs) (hne : cs ≠ []) (behind : List Char) :
    stripChars (cs ++ behind) = cs ++ behind.rdropWhile isBlank := by
  have hfront : (cs ++ behind).dropWhile isBlank = cs ++ behind := by
    refine dropWhile_of_head fun c hc => h.1 c ?_
    rwa [List.head?_append_of_ne_nil _ hne] at hc
  have hlast : cs.reverse.dropWhile isBlank = cs.reverse :=
    dropWhile_of_head (by rw [List.head?_reverse]; exact h.2)
  unfold stripChars List.rdropWhile
  rw [hfront, List.reverse_append, List.dropWhile_append]
  split_ifs with hblank
  · rw [hlast, List.reverse_reverse, List.isEmpty_iff.mp hblank, List.reverse_nil, List.append_nil]
  · rw [List.reverse_append, List.reverse_reverse]

theorem stripChars_eq_nil_iff {cs : List Char} :
    stripChars cs = [] ↔ ∀ c ∈ cs, isBlank c = true := by
  unfold stripChars
  rw [List.reverse_eq_nil_iff, List.dropWhile_eq_nil_iff]
  simp only [List.mem_reverse]
  constructor
  · intro h c hc
    rw [← List.takeWhile_append_dropWhile (p := isBlank) (l := cs), List.mem_append] at hc
    rcases hc with hc | hc
    · exact List.mem_takeWhile_imp hc
    · exact h c hc
  · exact fun h c hc => h c ((List.dropWhile_sublist isBlank).subset hc)

/-- Stripping takes away all the blanks in front and some blanks behind. -/
theorem exists_behind_stripChars (cs : List Char) :
    ∃ right, cs = cs.takeWhile isBlank ++ stripChars cs ++ right ∧ ∀ c ∈ right, isBlank c = true := by
  refine ⟨((cs.dropWhile isBlank).reverse.takeWhile isBlank).reverse, ?_,
    fun c hc => List.mem_takeWhile_imp (List.mem_reverse.mp hc)⟩
  unfold stripChars
  rw [List.append_assoc, ← List.reverse_append, List.takeWhile_append_dropWhile,
    List.reverse_reverse, List.takeWhile_append_dropWhile]

/-- Stripping takes away blanks at both ends. -/
theorem exists_stripChars (cs : List Char) :
    ∃ left right, cs = left ++ stripChars cs ++ right ∧ (∀ c ∈ left, isBlank c = true) ∧
      ∀ c ∈ right, isBlank c = true := by
  obtain ⟨right, heq, hright⟩ := exists_behind_stripChars cs
  exact ⟨_, right, heq, fun c hc => List.mem_takeWhile_imp hc, hright⟩

/-- Blanks around a text do not change what stripping leaves of it. -/
theorem stripChars_around {left cs right : List Char} (hl : ∀ c ∈ left, isBlank c = true)
    (hr : ∀ c ∈ right, isBlank c = true) : stripChars (left ++ cs ++ right) = stripChars cs := by
  by_cases hne : stripChars cs = []
  · have hblank := stripChars_eq_nil_iff.mp hne
    rw [hne, stripChars_eq_nil_iff]
    intro c hc
    rw [List.mem_append, List.mem_append] at hc
    rcases hc with (hc | hc) | hc
    · exact hl c hc
    · exact hblank c hc
    · exact hr c hc
  · obtain ⟨before, after, hcs, hbefore, hafter⟩ := exists_stripChars cs
    have hform : left ++ cs ++ right = left ++ before ++ stripChars cs ++ (after ++ right) := by
      calc left ++ cs ++ right = left ++ (before ++ stripChars cs ++ after) ++ right := by
            rw [← hcs]
        _ = _ := by simp only [List.append_assoc]
    rw [hform]
    refine stripChars_pad (fun c hc => ?_) (fun c hc => ?_) (solid_stripChars cs) hne
    · exact (List.mem_append.mp hc).elim (hl c) (hbefore c)
    · exact (List.mem_append.mp hc).elim (hafter c) (hr c)

end PipeScript.Proofs.Text.Strip
