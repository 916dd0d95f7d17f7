import PipeScript.Pipeline.Call
import PipeScript.Proofs.Text.Cutting
import PipeScript.Proofs.Text.Strip

/-! # Cutting at bars and escaping them

`cutBars` undoes `escapeBars` piece by piece: an escaped text that does not end in a backslash is
followed by a cut wherever a bar comes next (`cutBars_escapeBars_bar`), and the last piece may end
as it likes (`cutBars_escapeBars`).  For any two texts, a bar between them cuts there unless the
first ends in a backslash (`cutBars_append`, `calls_append`).

What a pipeline says depends on its pieces without the blanks around them (`calls_eq_of_pieces`).  So
a pipeline whose segments are escaped and joined with a blank on each side of every bar has exactly
those segments (`map_stripChars_cutBars_joined`), reading it is reading them one by one
(`calls_joined`), and blanks behind a whole pipeline do not matter either (`calls_append_blank`). -/

namespace PipeScript.Proofs.Pipeline.Bars

open PipeScript.Pipeline PipeScript.Text
open PipeScript.Proofs.Text.Cutting PipeScript.Proofs.Text.Strip

/-! ### Cutting -/

@[simp] theorem escapeBars_nil : escapeBars [] = [] := rfl

theorem escapeBars_cons_bar (cs : List Char) :
    escapeBars ('|' :: cs) = '\\' :: '|' :: escapeBars cs :=
  rfl

theorem escapeBars_cons {c : Char} (h : c ≠ '|') (cs : List Char) :
    escapeBars (c :: cs) = c :: escapeBars cs := by
  simp [escapeBars, h]

theorem escapeBars_append (cs ds : List Char) :
    escapeBars (cs ++ ds) = escapeBars cs ++ escapeBars ds := by
  simp [escapeBars]

theorem cutBars_bar (rest : List Char) : cutBars ('|' :: rest) = [] :: cutBars rest := by
  simp [cutBars]

theorem cutBars_escaped (rest : List Char) :
    cutBars ('\\' :: '|' :: rest) = extendFirst '|' (cutBars rest) := by
  simp [cutBars]

/-- Any character but a bar stays, unless it is a backslash with a bar behind it. -/
theorem cutBars_cons {c : Char} {rest : List Char} (hc : c ≠ '|')
    (hr : c = '\\' → rest.head? ≠ some '|') :
    cutBars (c :: rest) = extendFirst c (cutBars rest) := by
  rw [cutBars]
  · rintro tail rfl rfl
    exact hr rfl rfl
  · rintro rfl
    exact hc rfl

/-- An escaped text never starts with a bar, so a backslash in front of it frees nothing. -/
theorem head_escapeBars_append {cs rest : List Char} (h : rest.head? ≠ some '|' ∨ cs ≠ []) :
    (escapeBars cs ++ rest).head? ≠ some '|' := by
  cases cs with
  | nil => simpa using h
  | cons c cs =>
    by_cases hc : c = '|'
    · subst hc
      simp [escapeBars_cons_bar]
    · simp [escapeBars_cons hc, hc]

theorem getLast?_tail {c d : Char} {cs : List Char} (h : (c :: cs).getLast? ≠ some d) :
    cs.getLast? ≠ some d := by
  intro hcs
  refine h ?_
  rw [List.getLast?_cons, hcs]
  rfl

/-- Escaped text moves into the first piece as it was before escaping. -/
theorem cutBars_escapeBars_append (cs rest : List Char)
    (h : rest.head? = some '|' → cs.getLast? ≠ some '\\') :
    cutBars (escapeBars cs ++ rest) = cs.foldr extendFirst (cutBars rest) := by
  induction cs with
  | nil => rfl
  | cons c cs ih =>
    have ih := ih fun hr => getLast?_tail (h hr)
    by_cases hc : c = '|'
    · subst hc
      rw [escapeBars_cons_bar, List.cons_append, List.cons_append, cutBars_escaped, ih]
      rfl
    · rw [escapeBars_cons hc, List.cons_append, cutBars_cons hc, ih]
      · rfl
      · rintro rfl
        refine head_escapeBars_append ?_
        by_cases hr : rest.head? = some '|'
        · right
          rintro rfl
          exact h hr rfl
        · exact Or.inl hr

theorem foldr_extendFirst (cs piece : List Char) (pieces : List (List Char)) :
    cs.foldr extendFirst (piece :: pieces) = (cs ++ piece) :: pieces := by
  induction cs with
  | nil => rfl
  | cons c cs ih => rw [List.foldr_cons, ih]; rfl

/-- The last piece of a pipeline is cut nowhere. -/
theorem cutBars_escapeBars (cs : List Char) : cutBars (escapeBars cs) = [cs] := by
  have h := cutBars_escapeBars_append cs [] (by simp)
  rw [List.append_nil] at h
  rw [h, cutBars, foldr_extendFirst, List.append_nil]

/-- A piece ends at the first bar behind its escaped text. -/
theorem cutBars_escapeBars_bar {cs : List Char} (h : cs.getLast? ≠ some '\\') (rest : List Char) :
    cutBars (escapeBars cs ++ '|' :: rest) = cs :: cutBars rest := by
  rw [cutBars_escapeBars_append cs _ (fun _ => h), cutBars_bar, foldr_extendFirst, List.append_nil]

/-! ### Taking backslashes away -/

/-- Takes the backslash before each `mark` away. -/
def unescape (mark : Char) (cs : List Char) : List Char :=
  replaceFrom ['\\', mark] [mark] 0 cs

@[simp] theorem unescape_nil (mark : Char) : unescape mark [] = [] := rfl

theorem unescape_freed (mark : Char) (cs : List Char) :
    unescape mark ('\\' :: mark :: cs) = mark :: unescape mark cs := by
  rw [unescape, replaceFrom, if_pos (by simp), List.singleton_append, List.length_cons,
    List.length_singleton, replaceFrom]
  rfl

theorem unescape_cons {mark c : Char} {cs : List Char} (h : c = '\\' → cs.head? ≠ some mark) :
    unescape mark (c :: cs) = c :: unescape mark cs := by
  have hother : ¬ ['\\', mark].isPrefixOf (c :: cs) = true := by
    rw [List.isPrefixOf_iff_prefix]
    rintro ⟨rest, hrest⟩
    obtain ⟨rfl, hcs⟩ := List.cons.inj hrest
    exact h rfl (by rw [← hcs]; rfl)
  rw [unescape, replaceFrom, if_neg hother]
  rfl

/-! ### Pipelines one behind the other -/

theorem extendFirst_append (c : Char) {front : List (List Char)} (h : front ≠ [])
    (back : List (List Char)) : extendFirst c (front ++ back) = extendFirst c front ++ back := by
  obtain ⟨piece, pieces, rfl⟩ := List.exists_cons_of_ne_nil h
  rfl

theorem cutBars_ne_nil (cs : List Char) : cutBars cs ≠ [] := by
  fun_cases cutBars cs with
  | case1 => exact List.cons_ne_nil _ _
  | case2 rest => exact extendFirst_ne_nil _ _
  | case3 rest => exact List.cons_ne_nil _ _
  | case4 c rest => exact extendFirst_ne_nil _ _

/-- **A bar between two texts cuts there**, unless a backslash frees it. -/
theorem cutBars_append {front : List Char} (h : front.getLast? ≠ some '\\') (back : List Char) :
    cutBars (front ++ '|' :: back) = cutBars front ++ cutBars back := by
  fun_induction cutBars front with
  | case1 => exact cutBars_bar back
  | case2 rest ih =>
    rw [List.cons_append, List.cons_append, cutBars_escaped, ih (getLast?_tail (getLast?_tail h)),
      extendFirst_append _ (cutBars_ne_nil rest)]
  | case3 rest ih =>
    rw [List.cons_append, cutBars_bar, ih (getLast?_tail h)]
    rfl
  | case4 c rest hback hbar ih =>
    have hfree : c = '\\' → (rest ++ '|' :: back).head? ≠ some '|' := by
      rintro rfl
      rcases rest with _ | ⟨d, rest⟩
      · exact absurd rfl h
      · intro hhead
        obtain rfl : d = '|' := by simpa using hhead
        exact hback rest rfl rfl
    rw [List.cons_append, cutBars_cons (fun hc => hbar hc) hfree, ih (getLast?_tail h),
      extendFirst_append _ (cutBars_ne_nil rest)]

theorem segments_append {front : String} (h : front.toList.getLast? ≠ some '\\') (back : String) :
    segments (front ++ "|" ++ back) = segments front ++ segments back := by
  unfold segments
  rw [String.toList_append, String.toList_append, List.append_assoc]
  change ((cutBars (front.toList ++ '|' :: back.toList)).filter _).map _ = _
  rw [cutBars_append h, List.filter_append, List.map_append]

/-- **Reading a pipeline behind another** is reading the one and then the other. -/
theorem calls_append {front : String} (h : front.toList.getLast? ≠ some '\\') (back : String) :
    calls (front ++ "|" ++ back) = do return (← calls front) ++ (← calls back) := by
  unfold calls
  rw [segments_append h, List.mapM_append]

/-! ### Joined pipelines -/

/-- Segments, escaped and joined. -/
def joined (segments : List (List Char)) : List Char :=
  [' ', '|', ' '].intercalate (segments.map escapeBars)

/-- The segments after the first, each behind a bar. -/
def joinedTail : List (List Char) → List Char
  | [] => []
  | r :: rest => ' ' :: '|' :: ' ' :: escapeBars r ++ joinedTail rest

theorem joined_cons (r : List Char) (rest : List (List Char)) :
    joined (r :: rest) = escapeBars r ++ joinedTail rest := by
  unfold joined
  induction rest generalizing r with
  | nil => simp [joinedTail]
  | cons s rest ih =>
    rw [List.map_cons, List.map_cons, List.intercalate_cons_cons, ← List.map_cons, ih s]
    simp [joinedTail]

/-- The pieces that a pipeline of segments is cut into: the blanks beside the bars stay with
them. -/
def pieces : (first : List Char) → List (List Char) → List (List Char)
  | first, [] => [first]
  | first, r :: rest => (first ++ [' ']) :: pieces (' ' :: r) rest

theorem cutBars_joinedTail (first : List Char) (rest : List (List Char)) :
    cutBars (escapeBars first ++ joinedTail rest) = pieces first rest := by
  induction rest generalizing first with
  | nil => rw [joinedTail, List.append_nil, cutBars_escapeBars]; rfl
  | cons r rest ih =>
    have hsplit : escapeBars first ++ joinedTail (r :: rest) =
        escapeBars (first ++ [' ']) ++ '|' :: (escapeBars (' ' :: r) ++ joinedTail rest) := by
      rw [escapeBars_append, escapeBars_cons (by decide)]
      simp [joinedTail, escapeBars]
    rw [hsplit, cutBars_escapeBars_bar (by simp), ih]
    rfl

theorem map_stripChars_pieces {first left r : List Char} {rest : List (List Char)}
    (hfirst : first = left ++ r) (hleft : ∀ c ∈ left, isBlank c = true) :
    (pieces first rest).map stripChars = (r :: rest).map stripChars := by
  induction rest generalizing first left r with
  | nil =>
    have hstrip : stripChars first = stripChars r := by
      rw [hfirst, ← List.append_nil (left ++ r)]
      exact stripChars_around hleft (by simp)
    rw [pieces, List.map_singleton, hstrip, List.map_singleton]
  | cons s rest ih =>
    have hblank : ∀ c ∈ [' '], isBlank c = true := by simp; decide
    have hstrip : stripChars (first ++ [' ']) = stripChars r := by
      rw [hfirst]
      exact stripChars_around hleft hblank
    rw [pieces, List.map_cons, hstrip, ih (List.singleton_append).symm hblank, ← List.map_cons]

/-- **A joined pipeline is cut into its segments**, blanks aside. -/
theorem map_stripChars_cutBars_joined {rs : List (List Char)} (hne : rs ≠ []) :
    (cutBars (joined rs)).map stripChars = rs.map stripChars := by
  obtain ⟨r, rest, rfl⟩ := List.exists_cons_of_ne_nil hne
  rw [joined_cons, cutBars_joinedTail]
  exact map_stripChars_pieces (List.nil_append r).symm (by simp)

/-! ### Reading stripped pieces -/

/-- The call of a segment depends on the segment without its surrounding blanks only. -/
theorem call_stripChars (cs : List Char) :
    call (String.ofList (stripChars cs)) = call (String.ofList cs) := by
  simp [call]

theorem mapM_call_stripChars (ps : List (List Char)) :
    ((ps.map stripChars).map String.ofList).mapM call = (ps.map String.ofList).mapM call := by
  rw [List.mapM_map, List.mapM_map, List.mapM_map]
  have hcall : (call ∘ String.ofList) ∘ stripChars = call ∘ String.ofList := by
    funext p
    rw [Function.comp_apply, Function.comp_apply, Function.comp_apply, call_stripChars]
  rw [hcall]

theorem isBlankSegment_iff {cs : List Char} : isBlankSegment cs = true ↔ stripChars cs = [] := by
  rw [stripChars_eq_nil_iff, isBlankSegment, List.all_eq_true]

/-- **The calls of a pipeline depend on its pieces without their surrounding blanks only.** -/
theorem calls_eq_of_pieces (text : String) :
    calls text = ((((cutBars text.toList).map stripChars).filter fun p => !p.isEmpty).map
      String.ofList).mapM call := by
  have hblank : (fun p => !isBlankSegment p) = (fun p => !p.isEmpty) ∘ stripChars := by
    funext p
    rw [Function.comp_apply, Bool.not_inj_iff, Bool.eq_iff_iff, isBlankSegment_iff,
      List.isEmpty_iff]
  unfold calls segments
  rw [List.filter_map, mapM_call_stripChars, hblank]

/-- **Reading a joined pipeline is reading its segments one by one.** -/
theorem calls_joined {rs : List (List Char)} (h : ∀ r ∈ rs, stripChars r ≠ []) :
    calls (String.ofList (joined rs)) = (rs.map String.ofList).mapM call := by
  rcases eq_or_ne rs [] with rfl | hne
  · rfl
  · have hfilter : ((rs.map stripChars).filter fun p => !p.isEmpty) = rs.map stripChars := by
      refine List.filter_eq_self.mpr fun p hp => ?_
      obtain ⟨r, hr, rfl⟩ := List.mem_map.mp hp
      simpa using h r hr
    rw [calls_eq_of_pieces, String.toList_ofList, map_stripChars_cutBars_joined hne, hfilter,
      mapM_call_stripChars]

/-! ### Blanks behind a pipeline -/

theorem ne_of_isBlank {c : Char} (h : isBlank c = true) : c ≠ '|' ∧ c ≠ '\\' := by
  constructor
  · rintro rfl
    exact absurd h (by decide)
  · rintro rfl
    exact absurd h (by decide)

theorem extendFirst_concat (c : Char) (pieces : List (List Char)) (last : List Char) :
    ∃ pieces' last', ∀ right, extendFirst c (pieces ++ [last ++ right]) =
      pieces' ++ [last' ++ right] := by
  cases pieces with
  | nil => exact ⟨[], c :: last, fun _ => rfl⟩
  | cons piece pieces => exact ⟨(c :: piece) :: pieces, last, fun _ => rfl⟩

/-- Blanks at the end stay with the last piece. -/
theorem cutBars_append_blank (cs : List Char) :
    ∃ pieces last, ∀ right, (∀ c ∈ right, isBlank c = true) →
      cutBars (cs ++ right) = pieces ++ [last ++ right] := by
  fun_induction cutBars cs with
  | case1 =>
    refine ⟨[], [], fun right hright => ?_⟩
    have hplain : escapeBars right = right := by
      induction right with
      | nil => rfl
      | cons c right ih =>
        rw [escapeBars_cons (ne_of_isBlank (hright c (List.mem_cons_self ..))).1,
          ih fun d hd => hright d (List.mem_cons_of_mem _ hd)]
    have hcut := cutBars_escapeBars right
    rwa [hplain] at hcut
  | case2 rest ih =>
    obtain ⟨pieces, last, hrest⟩ := ih
    obtain ⟨pieces', last', hfirst⟩ := extendFirst_concat '|' pieces last
    refine ⟨pieces', last', fun right hright => ?_⟩
    rw [List.cons_append, List.cons_append, cutBars_escaped, hrest right hright, hfirst]
  | case3 rest ih =>
    obtain ⟨pieces, last, hrest⟩ := ih
    refine ⟨[] :: pieces, last, fun right hright => ?_⟩
    rw [List.cons_append, cutBars_bar, hrest right hright]
    rfl
  | case4 c rest hback hbar ih =>
    obtain ⟨pieces, last, hrest⟩ := ih
    obtain ⟨pieces', last', hfirst⟩ := extendFirst_concat c pieces last
    refine ⟨pieces', last', fun right hright => ?_⟩
    have hfree : c = '\\' → (rest ++ right).head? ≠ some '|' := by
      rintro rfl hhead
      rcases rest with _ | ⟨d, rest⟩
      · have hblank := hright '|' (List.mem_of_head? hhead)
        exact (ne_of_isBlank hblank).1 rfl
      · obtain rfl : d = '|' := by simpa using hhead
        exact hback rest rfl rfl
    rw [List.cons_append, cutBars_cons (fun hc => hbar hc) hfree, hrest right hright, hfirst]

theorem map_stripChars_cutBars_back (cs : List Char) {right : List Char}
    (h : ∀ c ∈ right, isBlank c = true) :
    (cutBars (cs ++ right)).map stripChars = (cutBars cs).map stripChars := by
  obtain ⟨pieces, last, hcut⟩ := cutBars_append_blank cs
  have hplain := hcut [] (by simp)
  rw [List.append_nil, List.append_nil] at hplain
  have hstrip : stripChars (last ++ right) = stripChars last := by
    rw [← List.nil_append last]
    exact stripChars_around (by simp) h
  rw [hcut right h, hplain, List.map_append, List.map_append, List.map_singleton,
    List.map_singleton, hstrip]

/-- **Reading a pipeline does not see the blanks behind it.** -/
theorem calls_append_blank (text : String) {right : String}
    (h : ∀ c ∈ right.toList, isBlank c = true) : calls (text ++ right) = calls text := by
  rw [calls_eq_of_pieces, calls_eq_of_pieces text, String.toList_append,
    map_stripChars_cutBars_back _ h]

end PipeScript.Proofs.Pipeline.Bars
