import PipeScript.Proofs.Pipeline.Bars
import Mathlib.Data.List.Nodup

/-! # Writing calls down

`render` writes a call as a segment: its name, its arguments in quotes, its value.  A quote inside
an argument gets a backslash (`escapeQuotes`), and in a pipeline every bar of the segment gets one
too. A call that can be told apart again (`Renderable`) is read back as it was (`call_render`),
whatever bars, backslashes, quotes and pipelines its arguments and its value hold; so is every
pipeline of such calls (`calls_renderPipeline`). -/

namespace PipeScript.Proofs.Pipeline.Rendering

open PipeScript.Pipeline PipeScript.Text
open PipeScript.Proofs.Text.Strip PipeScript.Proofs.Pipeline.Bars

/-! ### Renderings -/

/-- Puts a backslash before every quote. -/
def escapeQuotes (text : List Char) : List Char :=
  text.flatMap fun c => if c = '"' then ['\\', '"'] else [c]

/-- A named argument with the blank before it. -/
def argumentChars (argument : String × String) : List Char :=
  ' ' :: (argument.1.toList ++ '=' :: '"' :: (escapeQuotes argument.2.toList ++ ['"']))

/-- A value with the blank before it; an empty value is left out. -/
def valueChars (value : String) : List Char :=
  if value = "" then [] else ' ' :: value.toList

def renderChars (c : Call) : List Char :=
  '/' :: (c.name.toList ++ (c.arguments.flatMap argumentChars ++ valueChars c.value))

/-- A call as a segment. -/
def render (c : Call) : String := String.ofList (renderChars c)

/-- Calls as a pipeline. -/
def renderPipeline (cs : List Call) : String := String.ofList (joined (cs.map renderChars))

/-- A key: a letter or an underscore, then letters, digits, underscores and hyphens. -/
def IsKey (cs : List Char) : Prop :=
  ∃ c rest, cs = c :: rest ∧ isKeyStart c = true ∧ ∀ x ∈ rest, isKeyChar x = true

/-- A text that starts with a key and an equals sign. -/
def StartsWithKey (cs : List Char) : Prop :=
  ∃ key rest, IsKey key ∧ cs = key ++ '=' :: rest

/-- The calls that a rendering tells apart: the name has no white space of either kind, the keys are
distinct keys, no argument ends in a backslash, and the value is stripped and does not start like an
argument. -/
structure Renderable (c : Call) : Prop where
  name_ne : c.name ≠ ""
  name_solid : ∀ x ∈ c.name.toList, isBlank x = false ∧ isGap x = false
  keys_nodup : (c.arguments.map (·.1)).Nodup
  keys : ∀ a ∈ c.arguments, IsKey a.1.toList
  texts : ∀ a ∈ c.arguments, a.2.toList.getLast? ≠ some '\\'
  value_stripped : strip c.value = c.value
  value_keyless : ¬ StartsWithKey (c.value.toList.dropWhile isGap)

theorem name_solid_of_all {cs : List Char}
    (h : cs.all (fun x => !isBlank x && !isGap x) = true) :
    ∀ x ∈ cs, isBlank x = false ∧ isGap x = false := by
  intro x hx
  have hboth := List.all_eq_true.mp h x hx
  rw [Bool.and_eq_true, Bool.not_eq_true', Bool.not_eq_true'] at hboth
  exact hboth

/-! ### Keys -/

theorem isKeyChar_of_isKeyStart {c : Char} (h : isKeyStart c = true) : isKeyChar c = true := by
  simp only [isKeyStart, Bool.or_eq_true] at h
  simp only [isKeyChar, Bool.or_eq_true]
  tauto

theorem isGap_of_isKeyStart {c : Char} (h : isKeyStart c = true) : isGap c = false := by
  have hn : 65 ≤ c.toNat ∧ c.toNat ≤ 122 := by
    simp only [isKeyStart, isAsciiLetter, Bool.or_eq_true, Bool.and_eq_true, decide_eq_true_eq,
      beq_iff_eq, Char.le_def, UInt32.le_iff_toNat_le] at h
    rcases h with (⟨h1, h2⟩ | ⟨h1, h2⟩) | rfl
    · exact ⟨le_trans (by decide) h1, h2⟩
    · exact ⟨h1, le_trans h2 (by decide)⟩
    · decide
  simp only [isGap, isSpace, Bool.or_eq_false_iff, Bool.and_eq_false_iff, decide_eq_false_iff_not,
    beq_eq_false_iff_ne, ne_eq]
  omega

theorem IsKey.all {cs : List Char} (h : IsKey cs) : ∀ x ∈ cs, isKeyChar x = true := by
  obtain ⟨c, rest, rfl, hc, hrest⟩ := h
  intro x hx
  rcases List.mem_cons.mp hx with rfl | hx
  · exact isKeyChar_of_isKeyStart hc
  · exact hrest x hx

theorem dropWhile_isGap_key {key : List Char} (h : IsKey key) (rest : List Char) :
    (key ++ rest).dropWhile isGap = key ++ rest := by
  obtain ⟨c, tail, rfl, hc, -⟩ := h
  rw [List.cons_append, List.dropWhile_cons_of_neg (by simp [isGap_of_isKeyStart hc])]

theorem readKey?_append {key : List Char} (h : IsKey key) (rest : List Char) :
    readKey? (key ++ '=' :: rest) = some (key, rest) := by
  have hall := h.all
  obtain ⟨c, tail, rfl, hc, -⟩ := h
  have hdrop : (c :: tail ++ '=' :: rest).dropWhile isKeyChar = '=' :: rest := by
    rw [List.dropWhile_append_of_pos hall, List.dropWhile_cons_of_neg (by decide)]
  have htake : (c :: tail ++ '=' :: rest).takeWhile isKeyChar = c :: tail := by
    rw [List.takeWhile_append_of_pos hall, List.takeWhile_cons_of_neg (by decide), List.append_nil]
  rw [List.cons_append] at hdrop htake ⊢
  simp only [readKey?, hc, if_true, hdrop, htake]

theorem startsWithKey_of_readKey? {cs key rest : List Char} (h : readKey? cs = some (key, rest)) :
    IsKey key ∧ cs = key ++ '=' :: rest := by
  cases cs with
  | nil => simp [readKey?] at h
  | cons c tail =>
    rw [readKey?] at h
    split_ifs at h with hc
    split at h
    · next rest' hdrop =>
      obtain ⟨rfl, rfl⟩ := Prod.mk.inj (Option.some.inj h)
      have hkc := isKeyChar_of_isKeyStart hc
      refine ⟨⟨c, tail.takeWhile isKeyChar, ?_, hc, fun x hx => List.mem_takeWhile_imp hx⟩, ?_⟩
      · rw [List.takeWhile_cons_of_pos hkc]
      · rw [← hdrop, List.takeWhile_append_dropWhile]
    · cases h

theorem readKey?_eq_none_iff {cs : List Char} : readKey? cs = none ↔ ¬ StartsWithKey cs := by
  constructor
  · rintro h ⟨key, rest, hkey, rfl⟩
    rw [readKey?_append hkey] at h
    cases h
  · intro h
    cases hr : readKey? cs with
    | none => rfl
    | some p => exact absurd ⟨p.1, p.2, startsWithKey_of_readKey? hr⟩ h

/-! ### Quoted arguments -/

theorem readQuoted?_cons {c : Char} {rest : List Char} (hc : c ≠ '"')
    (hr : c = '\\' → rest.head? ≠ some '"') :
    readQuoted? (c :: rest) = (readQuoted? rest).map fun (text, rest) => (c :: text, rest) := by
  rw [readQuoted?]
  · rintro rfl
    exact hc rfl
  · rintro tail rfl rfl
    exact hr rfl rfl

theorem head_escapeQuotes (t rest : List Char) (h : t ≠ []) :
    (escapeQuotes t ++ rest).head? ≠ some '"' := by
  obtain ⟨c, tail, rfl⟩ := List.exists_cons_of_ne_nil h
  by_cases hc : c = '"'
  · simp [escapeQuotes, hc]
  · simp [escapeQuotes, hc]

/-- A text between its escaped quotes is read back; only a backslash at its end would swallow the
closing quote. -/
theorem readQuoted?_escapeQuotes {t : List Char} (h : t.getLast? ≠ some '\\') (rest : List Char) :
    readQuoted? (escapeQuotes t ++ '"' :: rest) = some (t, rest) := by
  induction t with
  | nil => simp [escapeQuotes, readQuoted?]
  | cons c t ih =>
    have hlast : t.getLast? ≠ some '\\' := by
      intro ht
      refine h ?_
      rw [List.getLast?_cons, ht]
      rfl
    have ih := ih hlast
    by_cases hc : c = '"'
    · subst hc
      have he : escapeQuotes ('"' :: t) = '\\' :: '"' :: escapeQuotes t := rfl
      rw [he, List.cons_append, List.cons_append, readQuoted?, ih]
      rfl
    · have he : escapeQuotes (c :: t) = c :: escapeQuotes t := by simp [escapeQuotes, hc]
      rw [he, List.cons_append, readQuoted?_cons hc, ih]
      · rfl
      · rintro rfl
        refine head_escapeQuotes t _ ?_
        rintro rfl
        exact h rfl

theorem readArgument?_argumentChars {a : String × String} (hkey : IsKey a.1.toList)
    (htext : a.2.toList.getLast? ≠ some '\\') (rest : List Char) :
    readArgument? (argumentChars a ++ rest) = some (a, rest) := by
  have hgap : (argumentChars a ++ rest).dropWhile isGap =
      a.1.toList ++ '=' :: '"' :: (escapeQuotes a.2.toList ++ '"' :: rest) := by
    have hform : argumentChars a ++ rest =
        ' ' :: (a.1.toList ++ '=' :: '"' :: (escapeQuotes a.2.toList ++ '"' :: rest)) := by
      simp [argumentChars]
    rw [hform, List.dropWhile_cons_of_pos (by decide), dropWhile_isGap_key hkey]
  rw [readArgument?, hgap, readKey?_append hkey]
  simp [readLiteral?, readQuoted?_escapeQuotes htext]

theorem readArgument?_valueChars {value : String}
    (h : ¬ StartsWithKey (value.toList.dropWhile isGap)) :
    readArgument? (valueChars value) = none := by
  have hkey : readKey? ((valueChars value).dropWhile isGap) = none := by
    unfold valueChars
    split_ifs with hv
    · rfl
    · rw [List.dropWhile_cons_of_pos (by decide)]
      exact readKey?_eq_none_iff.mpr h
  simp [readArgument?, hkey]

theorem readArguments_render {args : List (String × String)} {tail : List Char}
    (hkeys : ∀ a ∈ args, IsKey a.1.toList) (htexts : ∀ a ∈ args, a.2.toList.getLast? ≠ some '\\')
    (htail : readArgument? tail = none) {fuel : ℕ} (hfuel : args.length < fuel) :
    readArguments fuel (args.flatMap argumentChars ++ tail) = (args, tail) := by
  induction args generalizing fuel with
  | nil =>
    obtain ⟨fuel, rfl⟩ : ∃ f, fuel = f + 1 := ⟨fuel - 1, by simp at hfuel; omega⟩
    simp [readArguments, htail]
  | cons a args ih =>
    obtain ⟨fuel, rfl⟩ : ∃ f, fuel = f + 1 := ⟨fuel - 1, by simp at hfuel; omega⟩
    have hlength : args.length < fuel := by simpa using hfuel
    have hrest := ih (fun b hb => hkeys b (List.mem_cons_of_mem _ hb))
      (fun b hb => htexts b (List.mem_cons_of_mem _ hb)) hlength
    rw [List.flatMap_cons, List.append_assoc, readArguments,
      readArgument?_argumentChars (hkeys a (by simp)) (htexts a (by simp))]
    simp only [hrest]

/-! ### Argument lists -/

theorem insert_of_notMem {name : String} (text : String) {args : Arguments}
    (h : name ∉ args.map (·.1)) : Arguments.insert name text args = args ++ [(name, text)] := by
  induction args with
  | nil => rfl
  | cons a args ih =>
    simp only [List.map_cons, List.mem_cons, not_or] at h
    rw [Arguments.insert, if_neg (Ne.symm h.1), ih h.2]
    rfl

/-- Arguments with distinct names stay as they are. -/
theorem ofPairs_of_nodup {args : List (String × String)} (h : (args.map (·.1)).Nodup) :
    Arguments.ofPairs args = args := by
  have hgen : ∀ (rest before : List (String × String)), ((before ++ rest).map (·.1)).Nodup →
      rest.foldl (fun args (a : String × String) => Arguments.insert a.1 a.2 args) before =
        before ++ rest := by
    intro rest
    induction rest with
    | nil => simp
    | cons a rest ih =>
      intro before hb
      have ha : a.1 ∉ before.map (·.1) := by
        rw [List.map_append, List.map_cons] at hb
        exact fun hmem => (List.nodup_append.mp hb).2.2 _ hmem _ (by simp) rfl
      rw [List.foldl_cons, insert_of_notMem _ ha, ih]
      · simp
      · simpa using hb
  exact hgen args [] (by simpa using h)

/-! ### Reading back -/

theorem stripChars_valueChars {value : String} (h : strip value = value) :
    stripChars (valueChars value) = value.toList := by
  unfold valueChars
  split_ifs with hv
  · rw [hv]
    rfl
  · have hs : stripChars value.toList = value.toList := by
      rw [← toList_strip, h]
    have hne : value.toList ≠ [] := by simpa using hv
    have hleft : ∀ c ∈ [' '], isBlank c = true := by simp; decide
    have hright : ∀ c ∈ ([] : List Char), isBlank c = true := by simp
    simpa using stripChars_pad hleft hright (stripChars_eq_self_iff.mp hs) hne

theorem unclosedOpener?_of_keyless {value : List Char}
    (h : ¬ StartsWithKey (value.dropWhile isGap)) : unclosedOpener? value = none := by
  have hkey : readKey? value = none := by
    rw [readKey?_eq_none_iff]
    rintro ⟨key, rest, hkey, rfl⟩
    rw [dropWhile_isGap_key hkey] at h
    exact h ⟨key, rest, hkey, rfl⟩
  simp [unclosedOpener?, hkey]

/-- The part after the name is empty or starts with a blank. -/
theorem head_after_name (c : Call) :
    ∀ x ∈ (c.arguments.flatMap argumentChars ++ valueChars c.value).head?, isGap x = true := by
  have hblank : isGap ' ' = true := by decide
  cases hargs : c.arguments with
  | nil =>
    unfold valueChars
    split_ifs <;> simp [hblank]
  | cons a args => simp [argumentChars, hblank]

theorem takeWhile_name {name tail : List Char} (hname : ∀ x ∈ name, isGap x = false)
    (htail : ∀ x ∈ tail.head?, isGap x = true) :
    (name ++ tail).takeWhile (!isGap ·) = name ∧ (name ++ tail).dropWhile (!isGap ·) = tail := by
  have hpos : ∀ x ∈ name, (!isGap x) = true := fun x hx => by simp [hname x hx]
  rw [List.takeWhile_append_of_pos hpos, List.dropWhile_append_of_pos hpos,
    dropWhile_of_head (fun x hx => by simp [htail x hx])]
  cases tail with
  | nil => simp
  | cons x tail => simp [htail x (by simp)]

theorem length_le_flatMap (args : List (String × String)) :
    args.length ≤ (args.flatMap argumentChars).length := by
  induction args with
  | nil => simp
  | cons a args ih =>
    simp only [List.flatMap_cons, List.length_append, List.length_cons, argumentChars] at ih ⊢
    omega

theorem getLast_valueChars {value : String} (h : strip value = value) :
    ∀ x ∈ (valueChars value).getLast?, isBlank x = false := by
  intro x hx
  unfold valueChars at hx
  split_ifs at hx with hv
  · cases hx
  · have hs : stripChars value.toList = value.toList := by rw [← toList_strip, h]
    have hne : value.toList ≠ [] := by simpa using hv
    obtain ⟨y, tail, hcons⟩ := List.exists_cons_of_ne_nil hne
    rw [hcons, List.getLast?_cons_cons, ← hcons] at hx
    exact (stripChars_eq_self_iff.mp hs).2 x hx

/-- A rendering neither starts nor ends with a blank. -/
theorem solid_renderChars {c : Call} (h : Renderable c) : Solid (renderChars c) := by
  refine ⟨fun x hx => ?_, fun x hx => ?_⟩
  · obtain rfl : '/' = x := by simpa [renderChars] using hx
    decide
  · -- the last character is the value's, or a closing quote, or the name's
    rw [renderChars, List.getLast?_cons] at hx
    rcases hv : (valueChars c.value).getLast? with _ | y
    · rw [List.getLast?_append, List.getLast?_append, hv] at hx
      rcases List.eq_nil_or_concat c.arguments with hargs | ⟨args, a, hargs⟩
      · rw [hargs] at hx
        have hne : c.name.toList ≠ [] := by simpa using h.name_ne
        obtain ⟨z, hz⟩ := List.getLast?_isSome.mpr hne |> Option.isSome_iff_exists.mp
        simp only [List.flatMap_nil, List.getLast?_nil, Option.none_or, hz, Option.getD_some,
          Option.mem_def, Option.some.injEq] at hx
        subst hx
        exact (h.name_solid z (List.mem_of_getLast? hz)).1
      · rw [hargs] at hx
        have hq : ((args ++ [a]).flatMap argumentChars).getLast? = some '"' := by
          have hform : (args ++ [a]).flatMap argumentChars =
              args.flatMap argumentChars ++
                (' ' :: (a.1.toList ++ '=' :: '"' :: escapeQuotes a.2.toList)) ++ ['"'] := by
            simp [argumentChars]
          rw [hform, List.getLast?_concat]
        rw [List.concat_eq_append, hq] at hx
        obtain rfl : '"' = x := by simpa using hx
        decide
    · rw [List.getLast?_append, List.getLast?_append, hv] at hx
      obtain rfl : y = x := by simpa using hx
      exact getLast_valueChars h.value_stripped y hv

/-- **A rendered call is read back**, with its rendering as the segment it came from. -/
theorem call_render {c : Call} (h : Renderable c) :
    call (render c) = .ok { c with raw := render c } := by
  set tail := c.arguments.flatMap argumentChars ++ valueChars c.value with htail
  have hstrip : stripChars (render c).toList = '/' :: (c.name.toList ++ tail) := by
    rw [render, String.toList_ofList, stripChars_of_solid (solid_renderChars h), renderChars]
  obtain ⟨htake, hdrop⟩ := takeWhile_name (fun x hx => (h.name_solid x hx).2) (head_after_name c)
  rw [← htail] at htake hdrop
  have hargs : readArguments (tail.length + 1) tail = (c.arguments, valueChars c.value) := by
    refine readArguments_render h.keys h.texts (readArgument?_valueChars h.value_keyless) ?_
    have := length_le_flatMap c.arguments
    rw [htail, List.length_append]
    omega
  have hname : c.name.toList ≠ [] := by simpa using h.name_ne
  have hraw : String.ofList ('/' :: (c.name.toList ++ tail)) = render c := rfl
  rw [call, hstrip]
  simp only [readCall, htake, hdrop, hargs, stripChars_valueChars h.value_stripped,
    unclosedOpener?_of_keyless h.value_keyless, ofPairs_of_nodup h.keys_nodup, hraw,
    List.isEmpty_iff, hname, if_false, String.ofList_toList]

theorem mapM_call_render {cs : List Call} (h : ∀ c ∈ cs, Renderable c) :
    (cs.map render).mapM call = .ok (cs.map fun c => { c with raw := render c }) := by
  induction cs with
  | nil => rfl
  | cons c cs ih =>
    rw [List.map_cons, List.mapM_cons, call_render (h c (by simp)),
      ih fun d hd => h d (List.mem_cons_of_mem _ hd)]
    rfl

/-- A rendered pipeline is read rendering by rendering. -/
theorem calls_rendered {cs : List Call} (h : ∀ c ∈ cs, Renderable c) :
    calls (renderPipeline cs) = (cs.map render).mapM call := by
  have hne : ∀ r ∈ cs.map renderChars, stripChars r ≠ [] := by
    intro r hr
    obtain ⟨c, hc, rfl⟩ := List.mem_map.mp hr
    rw [stripChars_of_solid (solid_renderChars (h c hc))]
    exact List.cons_ne_nil _ _
  rw [renderPipeline, calls_joined hne, List.map_map]
  rfl

/-- **Reading undoes rendering for whole pipelines**: the calls come back in order, with the same
names, arguments and values, each with its rendering as the segment it came from. -/
theorem calls_renderPipeline {cs : List Call} (h : ∀ c ∈ cs, Renderable c) :
    calls (renderPipeline cs) = .ok (cs.map fun c => { c with raw := render c }) := by
  rw [calls_rendered h, mapM_call_render h]

/-- A pipeline whose calls carry bars, quotes, runs of backslashes and pipelines of their own. -/
def nestedPipeline : List Call :=
  [⟨"setvar", [("key", "a|\\|b"), ("note", "x\\\"y\" = |")], "/then /echo p \\| /echo \\\\| q", ""⟩,
    ⟨"e|cho\\", [], "", ""⟩]

theorem renderable_nestedPipeline : ∀ c ∈ nestedPipeline, Renderable c := by
  intro c hc
  simp only [nestedPipeline, List.mem_cons, List.not_mem_nil, or_false] at hc
  rcases hc with rfl | rfl
  · refine ⟨by decide, name_solid_of_all (by decide), by decide, ?_, by decide, by decide, ?_⟩
    · intro a ha
      simp only [List.mem_cons, List.not_mem_nil, or_false] at ha
      rcases ha with rfl | rfl
      · exact ⟨'k', ['e', 'y'], by decide, by decide, List.all_eq_true.mp (by decide)⟩
      · exact ⟨'n', ['o', 't', 'e'], by decide, by decide, List.all_eq_true.mp (by decide)⟩
    · exact readKey?_eq_none_iff.mp (by decide)
  · exact ⟨by decide, name_solid_of_all (by decide), by decide, by simp, by simp, by decide,
      readKey?_eq_none_iff.mp (by decide)⟩

theorem calls_nestedPipeline : (∀ c ∈ nestedPipeline, Renderable c) ∧
    calls (renderPipeline nestedPipeline) =
      .ok (nestedPipeline.map fun c => { c with raw := render c }) :=
  ⟨renderable_nestedPipeline, calls_renderPipeline renderable_nestedPipeline⟩

end PipeScript.Proofs.Pipeline.Rendering
