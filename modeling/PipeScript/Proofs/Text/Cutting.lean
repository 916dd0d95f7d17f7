import PipeScript.Text.Search
import Mathlib.Data.Nat.Notation
import Mathlib.Tactic.SplitIfs

/-! # Cutting at a fixed text

A text is cut at every occurrence of another one that is not empty.  The pieces with that one
between them are the text again (`intercalate_cutAt`), and it occurs in none of them
(`not_infix_of_mem_cutAt`).  Where a text does not occur, replacing it changes nothing
(`replaceEvery_of_absent`). -/

namespace PipeScript.Proofs.Text.Cutting

open PipeScript.Text

theorem extendFirst_ne_nil (c : Char) (pieces : List (List Char)) : extendFirst c pieces ≠ [] := by
  cases pieces with
  | nil => exact List.cons_ne_nil _ _
  | cons piece pieces => exact List.cons_ne_nil _ _

section Pieces

variable {needle : List Char}

theorem exists_cons_extendFirst (c : Char) {pieces : List (List Char)} (h : pieces ≠ []) :
    ∃ piece rest, pieces = piece :: rest ∧ extendFirst c pieces = (c :: piece) :: rest := by
  obtain ⟨piece, rest, rfl⟩ := List.exists_cons_of_ne_nil h
  exact ⟨piece, rest, rfl, rfl⟩

theorem piecesFrom_ne_nil (needle : List Char) (skip : ℕ) (cs : List Char) :
    piecesFrom needle skip cs ≠ [] := by
  fun_induction piecesFrom needle skip cs with
  | case1 => exact List.cons_ne_nil _ _
  | case2 skip c rest ih => exact ih
  | case3 c rest hfound ih => exact List.cons_ne_nil _ _
  | case4 c rest hfound ih => exact extendFirst_ne_nil _ _

theorem intercalate_extendFirst (separator : List Char) (c : Char) {pieces : List (List Char)}
    (h : pieces ≠ []) :
    separator.intercalate (extendFirst c pieces) = c :: separator.intercalate pieces := by
  obtain ⟨piece, rest, rfl, heq⟩ := exists_cons_extendFirst c h
  rw [heq]
  cases rest with
  | nil => rw [List.intercalate_singleton, List.intercalate_singleton]
  | cons next rest =>
    rw [List.intercalate_cons_cons, List.intercalate_cons_cons]
    rfl

/-- **The pieces of the rest of a text make up that rest**, past what the scan has to skip. -/
theorem intercalate_piecesFrom (h : needle ≠ []) (skip : ℕ) (cs : List Char) :
    needle.intercalate (piecesFrom needle skip cs) = cs.drop skip := by
  fun_induction piecesFrom needle skip cs with
  | case1 skip => rw [List.drop_nil, List.intercalate_singleton]
  | case2 skip c rest ih => rw [ih, List.drop_succ_cons]
  | case3 c rest hfound ih =>
    obtain ⟨after, hafter⟩ := List.isPrefixOf_iff_prefix.mp hfound
    obtain ⟨d, tail, rfl⟩ := List.exists_cons_of_ne_nil h
    obtain ⟨piece, pieces, heq⟩ := List.exists_cons_of_ne_nil
      (piecesFrom_ne_nil (d :: tail) ((d :: tail).length - 1) rest)
    have hrest : rest.drop tail.length = after := by
      rw [← (List.cons.inj hafter).2]
      exact List.drop_left
    rw [List.length_cons, Nat.add_sub_cancel] at ih heq
    rw [List.length_cons, Nat.add_sub_cancel, heq, List.intercalate_cons_cons, ← heq, ih, hrest,
      List.nil_append, hafter, List.drop_zero]
  | case4 c rest hfound ih =>
    rw [intercalate_extendFirst needle c (piecesFrom_ne_nil _ _ _), ih, List.drop_zero,
      List.drop_zero]

/-- The first piece is what the text starts with. -/
theorem prefix_of_piecesFrom {cs piece : List Char} {pieces : List (List Char)}
    (h : piecesFrom needle 0 cs = piece :: pieces) : piece <+: cs := by
  induction cs generalizing piece pieces with
  | nil =>
    obtain ⟨rfl, -⟩ := List.cons.inj h
    exact List.nil_prefix
  | cons c rest ih =>
    rw [piecesFrom] at h
    split_ifs at h with hfound
    · obtain ⟨rfl, -⟩ := List.cons.inj h
      exact List.nil_prefix
    · obtain ⟨first, others, hrest, heq⟩ :=
        exists_cons_extendFirst c (piecesFrom_ne_nil needle 0 rest)
      obtain ⟨rfl, -⟩ := List.cons.inj (heq.symm.trans h)
      exact List.cons_prefix_cons.mpr ⟨rfl, ih hrest⟩

/-- **What a text was cut at occurs in none of the pieces.** -/
theorem not_infix_of_mem_piecesFrom (h : needle ≠ []) {skip : ℕ} {cs piece : List Char}
    (hpiece : piece ∈ piecesFrom needle skip cs) : ¬ needle <:+: piece := by
  have hempty : ¬ needle <:+: [] := fun hinfix => h (List.infix_nil.mp hinfix)
  fun_induction piecesFrom needle skip cs generalizing piece with
  | case1 skip =>
    rw [List.mem_singleton.mp hpiece]
    exact hempty
  | case2 skip c rest ih => exact ih hpiece
  | case3 c rest hfound ih =>
    rcases List.mem_cons.mp hpiece with rfl | hpiece
    · exact hempty
    · exact ih hpiece
  | case4 c rest hfound ih =>
    obtain ⟨first, others, hrest, heq⟩ :=
      exists_cons_extendFirst c (piecesFrom_ne_nil needle 0 rest)
    rw [heq] at hpiece
    rw [hrest] at ih
    rcases List.mem_cons.mp hpiece with rfl | hpiece
    · -- an occurrence at the start of the piece would be one at the start of the text
      intro hinfix
      rcases List.infix_cons_iff.mp hinfix with hhere | hinfix
      · have hstart : c :: first <+: c :: rest :=
          List.cons_prefix_cons.mpr ⟨rfl, prefix_of_piecesFrom hrest⟩
        exact hfound (List.isPrefixOf_iff_prefix.mpr (hhere.trans hstart))
      · exact ih List.mem_cons_self hinfix
    · exact ih (List.mem_cons_of_mem _ hpiece)

end Pieces

/-! ### Texts -/

theorem toList_ne_nil {s : String} (h : s ≠ "") : s.toList ≠ [] :=
  fun hnil => h (String.toList_eq_nil_iff.mp hnil)

/-- **Cut and joined again**, a text is what it was. -/
theorem intercalate_cutAt {needle : String} (h : needle ≠ "") (s : String) :
    needle.intercalate (cutAt needle s) = s := by
  have hback : String.toList ∘ String.ofList = id := funext fun _ => String.toList_ofList
  rw [← String.toList_inj, String.toList_intercalate, cutAt, List.map_map, hback, List.map_id,
    intercalate_piecesFrom (toList_ne_nil h), List.drop_zero]

theorem not_infix_of_mem_cutAt {needle s piece : String} (h : needle ≠ "")
    (hpiece : piece ∈ cutAt needle s) : ¬ needle.toList <:+: piece.toList := by
  obtain ⟨chars, hchars, rfl⟩ := List.mem_map.mp hpiece
  rw [String.toList_ofList]
  exact not_infix_of_mem_piecesFrom (toList_ne_nil h) hchars

/-- The characters of a text, one by one, make it up. -/
theorem intercalate_singletons (s : String) :
    "".intercalate (s.toList.map String.singleton) = s := by
  have hone : String.toList ∘ String.singleton = fun c => [c] := funext fun c =>
    String.toList_singleton c
  rw [← String.toList_inj, String.toList_intercalate, List.map_map, hone]
  induction s.toList with
  | nil => rfl
  | cons c cs ih =>
    cases cs with
    | nil => rfl
    | cons d cs => exact congrArg (List.cons c) ih

/-- **What does not occur is not replaced.** -/
theorem replaceEvery_of_absent {old s : String} (h : occursIn old s = false) (new : String) :
    replaceEvery old new s = s := by
  have hfrom : ∀ cs, breakOn old.toList cs = none →
      replaceFrom old.toList new.toList 0 cs = cs := by
    intro cs hnone
    induction cs with
    | nil => rfl
    | cons c rest ih =>
      rw [breakOn] at hnone
      split_ifs at hnone with hfound
      rw [replaceFrom, if_neg hfound, ih (Option.map_eq_none_iff.mp hnone)]
  have hnone : breakOn old.toList s.toList = none :=
    Option.isNone_iff_eq_none.mp (Option.isSome_eq_false_iff.mp h)
  rw [replaceEvery, hfrom s.toList hnone, String.ofList_toList]

end PipeScript.Proofs.Text.Cutting
