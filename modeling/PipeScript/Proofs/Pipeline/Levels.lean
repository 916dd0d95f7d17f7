import PipeScript.Proofs.Pipeline.Bars
import Mathlib.Logic.Function.Iterate

/-! # Segments and nesting levels

A bar cuts a pipeline unless the character right before it is a backslash: the pieces between these
*free* bars are taken with a library scan over each character and the one before it (`freePieces`),
and a piece then gives up the backslash before each of its bars.  That is what `cutBars` does in one
pass (`cutBars_eq_freePieces`).

Segments that are not blank, none with another behind it ending in a backslash, are *separable*.
Escaped and joined they are cut into themselves (`segments_joinBars`), and the segments of every
text are such a list (`separable_segments`).  A text that is escaped once for each of `k` levels
carries `k` backslashes before each bar (`escaped_iterate`), and `k` cuts take them away again
(`splitEach_iterate`). -/

namespace PipeScript.Proofs.Pipeline.Levels

open PipeScript.Pipeline PipeScript.Text
open PipeScript.Proofs.Text.Strip PipeScript.Proofs.Pipeline.Bars

/-! ### The scan -/

/-- A bar, seen with the character before it, that no backslash holds. -/
def isFreeBar (seen : Char × Char) : Bool :=
  seen.1 = '|' && seen.2 ≠ '\\'

/-- The pieces of a text between its free bars, with `before` the character before the text. -/
def freePiecesFrom (before : Char) (cs : List Char) : List (List Char) :=
  ((cs.zip (before :: cs)).splitOnP isFreeBar).map fun piece => piece.map (·.1)

/-- The pieces of a text between its free bars. -/
def freePieces (cs : List Char) : List (List Char) :=
  freePiecesFrom ' ' cs

theorem freePiecesFrom_nil (before : Char) : freePiecesFrom before [] = [[]] := rfl

theorem freePiecesFrom_bar {before : Char} (h : before ≠ '\\') (rest : List Char) :
    freePiecesFrom before ('|' :: rest) = [] :: freePiecesFrom '|' rest := by
  have hfree : isFreeBar ('|', before) = true := by simp [isFreeBar, h]
  unfold freePiecesFrom
  rw [List.zip_cons_cons, List.splitOnP_cons_eq_if_modifyHead, if_pos hfree]
  rfl

theorem freePiecesFrom_cons {before c : Char} (h : c = '|' → before = '\\') (rest : List Char) :
    freePiecesFrom before (c :: rest) = extendFirst c (freePiecesFrom c rest) := by
  have hheld : ¬ isFreeBar (c, before) = true := by
    rw [isFreeBar, Bool.and_eq_true, decide_eq_true_eq, decide_eq_true_eq]
    exact fun hfree => hfree.2 (h hfree.1)
  unfold freePiecesFrom
  rw [List.zip_cons_cons, List.splitOnP_cons_eq_if_modifyHead, if_neg hheld]
  obtain ⟨piece, pieces, hsplit⟩ :=
    List.exists_cons_of_ne_nil (List.splitOnP_ne_nil isFreeBar (rest.zip (c :: rest)))
  rw [hsplit, List.modifyHead_cons]
  rfl

/-- A character moves into the first piece past the backslashes that go, unless it is one. -/
theorem map_unescape_extendFirst {c : Char} {pieces : List (List Char)}
    (h : c = '\\' → ∀ piece ∈ pieces.head?, piece.head? ≠ some '|') :
    (extendFirst c pieces).map (unescape '|') = extendFirst c (pieces.map (unescape '|')) := by
  cases pieces with
  | nil => exact congrArg (fun piece => [piece]) (unescape_cons fun _ => by simp)
  | cons piece pieces =>
    rw [extendFirst, List.map_cons, unescape_cons fun hc => h hc piece rfl, List.map_cons]
    rfl

/-- The first piece starts as the text does, unless a bar cuts there. -/
theorem head_freePiecesFrom {before : Char} {cs : List Char} (h : cs.head? ≠ some '|') :
    ∀ piece ∈ (freePiecesFrom before cs).head?, piece.head? ≠ some '|' := by
  cases cs with
  | nil =>
    rintro piece hpiece
    obtain rfl : [] = piece := by simpa [freePiecesFrom_nil] using hpiece
    simp
  | cons c rest =>
    have hc : c ≠ '|' := by simpa using h
    rw [freePiecesFrom_cons fun hbar => absurd hbar hc]
    intro piece hpiece
    cases hrest : freePiecesFrom c rest with
    | nil =>
      obtain rfl : [c] = piece := by simpa [hrest, extendFirst] using hpiece
      simpa using hc
    | cons first pieces =>
      obtain rfl : c :: first = piece := by simpa [hrest, extendFirst] using hpiece
      simpa using hc

theorem map_unescape_freePiecesFrom {before : Char} (cs : List Char)
    (h : before = '\\' → cs.head? ≠ some '|') :
    (freePiecesFrom before cs).map (unescape '|') = cutBars cs := by
  fun_induction cutBars cs generalizing before with
  | case1 => rfl
  | case2 rest ih =>
    have hback : '\\' ≠ '|' := by decide
    rw [freePiecesFrom_cons fun hbar => absurd hbar hback, freePiecesFrom_cons fun _ => rfl,
      ← ih fun hbar => absurd hbar.symm hback]
    cases freePiecesFrom '|' rest with
    | nil => exact congrArg (fun piece => [piece]) (unescape_freed '|' [])
    | cons piece pieces =>
      rw [extendFirst, extendFirst, List.map_cons, unescape_freed, List.map_cons, extendFirst]
  | case3 rest ih =>
    rw [freePiecesFrom_bar (fun hbefore => h hbefore rfl), List.map_cons,
      ih fun hbar => absurd hbar (by decide)]
    rfl
  | case4 c rest hback hbar ih =>
    have hfree : c = '\\' → rest.head? ≠ some '|' := by
      rintro rfl hhead
      obtain ⟨tail, rfl⟩ := List.head?_eq_some_iff.mp hhead
      exact hback tail rfl rfl
    rw [freePiecesFrom_cons fun hc => absurd hc hbar,
      map_unescape_extendFirst fun hc => head_freePiecesFrom (hfree hc), ih hfree]

/-- **Cutting is the scan**: the pieces between the free bars, each without the backslashes before
its bars. -/
theorem cutBars_eq_freePieces (cs : List Char) :
    cutBars cs = (freePieces cs).map (unescape '|') :=
  (map_unescape_freePiecesFrom cs fun hblank => absurd hblank (by decide)).symm

theorem segments_eq_freePieces (text : String) :
    segments text = ((freePieces text.toList).map fun piece =>
      String.ofList (unescape '|' piece)).filter fun segment => strip segment ≠ "" := by
  have hblank : (fun segment => decide (strip segment ≠ "")) ∘ String.ofList =
      fun piece => !isBlankSegment piece := by
    funext piece
    rw [Function.comp_apply, Bool.eq_iff_iff, decide_eq_true_eq, Bool.not_eq_true',
      ← Bool.not_eq_true, isBlankSegment_iff, strip, String.toList_ofList, ne_eq,
      String.ofList_eq_empty_iff]
  unfold segments
  rw [cutBars_eq_freePieces, ← hblank, ← List.filter_map, List.map_map]
  rfl

/-! ### Separable segments -/

/-- No segment is blank, and none with another behind it ends in a backslash. -/
structure Separable (ss : List String) : Prop where
  solid : ∀ s ∈ ss, strip s ≠ ""
  unheld : ss.Pairwise fun s _ => s.toList.getLast? ≠ some '\\'

/-- An empty piece with another behind it ends at a bar. -/
theorem head_of_cutBars {cs piece : List Char} {pieces : List (List Char)}
    (h : cutBars cs = [] :: piece :: pieces) : cs.head? = some '|' := by
  fun_cases cutBars cs with
  | case1 => simp [cutBars] at h
  | case2 rest =>
    rw [cutBars_escaped] at h
    cases hrest : cutBars rest <;> simp [hrest, extendFirst] at h
  | case3 rest => rfl
  | case4 c rest hback hbar =>
    rw [cutBars] at h
    · cases hrest : cutBars rest <;> simp [hrest, extendFirst] at h
    · exact hback
    · exact hbar

theorem pairwise_extendFirst {c : Char} {pieces : List (List Char)}
    (h : pieces.Pairwise fun piece _ => piece.getLast? ≠ some '\\')
    (hc : c = '\\' → ∀ piece others, pieces ≠ [] :: piece :: others) :
    (extendFirst c pieces).Pairwise fun piece _ => piece.getLast? ≠ some '\\' := by
  rcases pieces with _ | ⟨first, _ | ⟨second, others⟩⟩
  · exact List.pairwise_singleton _ _
  · exact List.pairwise_singleton _ _
  · obtain ⟨hfirst, hothers⟩ := List.pairwise_cons.mp h
    have hlast := hfirst second (List.mem_cons_self ..)
    refine List.pairwise_cons.mpr ⟨fun _ _ => ?_, hothers⟩
    cases first with
    | nil =>
      intro hback
      exact hc (by simpa using hback) second others rfl
    | cons d first => rwa [List.getLast?_cons_cons]

/-- A piece that a cut ends does not end in a backslash. -/
theorem pairwise_cutBars (cs : List Char) :
    (cutBars cs).Pairwise fun piece _ => piece.getLast? ≠ some '\\' := by
  fun_induction cutBars cs with
  | case1 => exact List.pairwise_singleton _ _
  | case2 rest ih => exact pairwise_extendFirst ih fun hback => absurd hback (by decide)
  | case3 rest ih => exact List.pairwise_cons.mpr ⟨fun _ _ => by decide, ih⟩
  | case4 c rest hback hbar ih =>
    refine pairwise_extendFirst ih fun hc piece others hcut => ?_
    obtain ⟨tail, rfl⟩ := List.head?_eq_some_iff.mp (head_of_cutBars hcut)
    exact hback tail hc rfl

/-- **The segments of every text are separable.** -/
theorem separable_segments (text : String) : Separable (segments text) where
  solid s hs := by
    rw [segments_eq_freePieces] at hs
    simpa using (List.mem_filter.mp hs).2
  unheld := by
    unfold segments
    refine List.pairwise_map.mpr (((pairwise_cutBars _).filter _).imp fun hlast => ?_)
    rwa [String.toList_ofList]

/-! ### Escaping and joining -/

/-- A text with a backslash before each of its bars. -/
def escaped (s : String) : String := String.ofList (escapeBars s.toList)

/-- Segments, escaped, with a bar between any two. -/
def joinBars (ss : List String) : String := "|".intercalate (ss.map escaped)

theorem toList_joinBars (ss : List String) :
    (joinBars ss).toList = ['|'].intercalate ((ss.map String.toList).map escapeBars) := by
  rw [joinBars, String.toList_intercalate, List.map_map, List.map_map]
  congr 1
  refine List.map_congr_left fun s _ => ?_
  rw [Function.comp_apply, Function.comp_apply, escaped, String.toList_ofList]

/-- **Joined pieces are cut into themselves.** -/
theorem cutBars_intercalate {pieces : List (List Char)} (hne : pieces ≠ [])
    (h : pieces.Pairwise fun piece _ => piece.getLast? ≠ some '\\') :
    cutBars (['|'].intercalate (pieces.map escapeBars)) = pieces := by
  induction pieces with
  | nil => exact absurd rfl hne
  | cons first pieces ih =>
    obtain ⟨hfirst, hothers⟩ := List.pairwise_cons.mp h
    cases pieces with
    | nil => rw [List.map_singleton, List.intercalate_singleton, cutBars_escapeBars]
    | cons second pieces =>
      rw [List.map_cons, List.map_cons, List.intercalate_cons_cons, List.append_assoc,
        List.singleton_append, cutBars_escapeBars_bar (hfirst second (List.mem_cons_self ..)),
        ← List.map_cons, ih (List.cons_ne_nil _ _) hothers]

/-- Segments that are no blanks stay when they are cut out. -/
theorem segments_of_cutBars {text : String} {ss : List String}
    (hcut : cutBars text.toList = ss.map String.toList) (hsolid : ∀ s ∈ ss, strip s ≠ "") :
    segments text = ss := by
  have hkeep : ∀ piece ∈ ss.map String.toList, (!isBlankSegment piece) = true := by
    intro piece hpiece
    obtain ⟨s, hs, rfl⟩ := List.mem_map.mp hpiece
    rw [Bool.not_eq_true', ← Bool.not_eq_true, isBlankSegment_iff]
    intro hblank
    exact hsolid s hs (by rw [strip, hblank])
  unfold segments
  rw [hcut, List.filter_eq_self.mpr hkeep, List.map_map]
  simp

/-- **Separable segments are the segments of their pipeline.** -/
theorem segments_joinBars {ss : List String} (h : Separable ss) : segments (joinBars ss) = ss := by
  rcases eq_or_ne ss [] with rfl | hne
  · rfl
  · refine segments_of_cutBars ?_ h.solid
    rw [toList_joinBars]
    exact cutBars_intercalate (by simpa using hne) (List.pairwise_map.mpr h.unheld)

/-! ### Levels -/

/-- Cuts each text into its segments. -/
def splitEach (texts : List String) : List String := texts.flatMap segments

/-- A bar with a number of backslashes before it. -/
def heldBar (k : ℕ) : List Char := List.replicate k '\\' ++ ['|']

theorem escapeBars_heldBar (k : ℕ) : escapeBars (heldBar k) = heldBar (k + 1) := by
  induction k with
  | zero => rfl
  | succ k ih =>
    have hcons : ∀ n, heldBar (n + 1) = '\\' :: heldBar n := fun n => rfl
    rw [hcons k, escapeBars_cons (by decide), ih, hcons (k + 1)]

/-- **A level is a backslash**: a text escaped `k` times has `k` of them before each bar. -/
theorem escaped_iterate (k : ℕ) (s : String) :
    (escaped^[k] s).toList = s.toList.flatMap fun c => if c = '|' then heldBar k else [c] := by
  induction k with
  | zero =>
    have hsame : (fun c => if c = '|' then heldBar 0 else [c]) = fun c : Char => [c] := by
      funext c
      split_ifs with hc
      · rw [hc]
        rfl
      · rfl
    rw [Function.iterate_zero, id_eq, hsame, List.flatMap_singleton']
  | succ k ih =>
    rw [Function.iterate_succ_apply', escaped, String.toList_ofList, ih, escapeBars,
      List.flatMap_assoc]
    congr 1
    funext c
    by_cases hc : c = '|'
    · rw [if_pos hc, if_pos hc]
      exact escapeBars_heldBar k
    · rw [if_neg hc, if_neg hc]
      exact escapeBars_cons hc []

theorem strip_eq_empty_iff {s : String} : strip s = "" ↔ ∀ c ∈ s.toList, isBlank c = true := by
  rw [strip, String.ofList_eq_empty_iff, stripChars_eq_nil_iff]

theorem strip_escaped_ne {s : String} (h : strip s ≠ "") : strip (escaped s) ≠ "" := by
  rw [ne_eq, strip_eq_empty_iff] at h ⊢
  intro hblank
  refine h fun c hc => hblank c ?_
  rw [escaped, String.toList_ofList, escapeBars, List.mem_flatMap]
  refine ⟨c, hc, ?_⟩
  split_ifs with hbar
  · simp [hbar]
  · simp

/-- **Cutting takes one level away.** -/
theorem segments_escaped {s : String} (h : strip s ≠ "") : segments (escaped s) = [s] := by
  refine segments_of_cutBars ?_ (by simpa using h)
  rw [escaped, String.toList_ofList, cutBars_escapeBars, List.map_singleton]

/-- **As many cuts as levels** give the text back. -/
theorem splitEach_iterate {s : String} (h : strip s ≠ "") (k : ℕ) :
    splitEach^[k] [escaped^[k] s] = [s] := by
  induction k generalizing s with
  | zero => rfl
  | succ k ih =>
    rw [Function.iterate_succ_apply', Function.iterate_succ_apply, ih (strip_escaped_ne h),
      splitEach, List.flatMap_singleton, segments_escaped h]

/-- **Cutting is the scan, and undoes escaping.**  The segments of a text are its pieces between
free bars, without the backslashes before their bars, as far as they are not blank, and they are
separable; separable segments come back from their escaped and joined text; a text escaped `k` times
carries `k` backslashes before each bar and comes back after `k` cuts. -/
theorem segments_and_levels (text : String) {ss : List String} (hss : Separable ss) {s : String}
    (hs : strip s ≠ "") (k : ℕ) :
    (segments text = ((freePieces text.toList).map fun piece =>
        String.ofList (unescape '|' piece)).filter fun segment => strip segment ≠ "") ∧
      Separable (segments text) ∧ segments (joinBars ss) = ss ∧
      ((escaped^[k] s).toList =
        s.toList.flatMap fun c => if c = '|' then heldBar k else [c]) ∧
      splitEach^[k] [escaped^[k] s] = [s] :=
  ⟨segments_eq_freePieces text, separable_segments text, segments_joinBars hss,
    escaped_iterate k s, splitEach_iterate hs k⟩

/-- Segments with runs of backslashes before bars, the last of which ends in one. -/
def heldSegments : List String := ["/a \\| |", " |\\ ", "/b |\\"]

theorem segments_and_levels_heldSegments :
    Separable heldSegments ∧ strip "\\||" ≠ "" ∧
      (segments "a\\||\\\\|b| |\\" = ((freePieces "a\\||\\\\|b| |\\".toList).map fun piece =>
          String.ofList (unescape '|' piece)).filter fun segment => strip segment ≠ "") ∧
      Separable (segments "a\\||\\\\|b| |\\") ∧
      segments (joinBars heldSegments) = heldSegments ∧
      ((escaped^[2] "\\||").toList =
        "\\||".toList.flatMap fun c => if c = '|' then heldBar 2 else [c]) ∧
      splitEach^[2] [escaped^[2] "\\||"] = ["\\||"] := by
  have hss : Separable heldSegments := ⟨by decide, by decide⟩
  have hs : strip "\\||" ≠ "" := by decide
  exact ⟨hss, hs, segments_and_levels "a\\||\\\\|b| |\\" hss hs 2⟩

example : segments "a\\||\\\\|b| |\\" = ["a|", "\\|b", "\\"] := by decide

end PipeScript.Proofs.Pipeline.Levels
