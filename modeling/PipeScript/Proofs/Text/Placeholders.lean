import PipeScript.Proofs.Text.Filling
import Mathlib.Data.List.Nodup

/-! # Filling in several placeholders at once

A template seen at once for several names is a row of parts: its own characters, and the texts that
are put where a placeholder stands (`parts`).  No two placeholders of the names in use overlap
(`startsWith_inside`), so what is put does not depend on the order of the names
(`fillTogether_perm`).

Filling in one name after the other scans the texts already put as well.  The result is the same as
at once, as long as no placeholder of a later name touches such a text (`Untouched`,
`fillAll_together`); a text that holds the placeholder of a later name is filled in itself
(`fillAll_scans_put_text`). -/

namespace PipeScript.Proofs.Text.Placeholders

open PipeScript.Text PipeScript.Template
open PipeScript.Proofs.Text.Filling

/-! ### The same letter -/

/-- What a character may be in lower case when it is the same letter as another. -/
def spellings (p : Char) : List Char := lowerChar p :: twinsOf (lowerChar p)

theorem sameLetter_iff {p c : Char} : sameLetter p c = true ↔ lowerChar c ∈ spellings p := by
  unfold sameLetter spellings
  rw [Bool.or_eq_true, beq_iff_eq, List.contains_iff_mem, List.mem_cons, eq_comm]

/-- No character is the same letter as both. -/
def areApart (p q : Char) : Bool := (spellings p).all fun x => !(spellings q).contains x

theorem not_sameLetter_of_areApart {p q c : Char} (h : areApart p q = true)
    (hp : sameLetter p c = true) : sameLetter q c = false := by
  have hnone := List.all_eq_true.mp h _ (sameLetter_iff.mp hp)
  rw [← Bool.not_eq_true, sameLetter_iff, ← List.contains_iff_mem]
  simpa using hnone

/-- Two patterns that differ somewhere, so that no text starts with both. -/
def clash : List Char → List Char → Bool
  | p :: ps, q :: qs => areApart p q || clash ps qs
  | _, _ => false

theorem not_startsWith_of_clash {ps qs cs : List Char} (h : clash ps qs = true)
    (hps : startsWith ps cs = true) : startsWith qs cs = false := by
  induction ps generalizing qs cs with
  | nil => cases h
  | cons p ps ih =>
    rcases qs with _ | ⟨q, qs⟩
    · cases h
    · rcases cs with _ | ⟨c, cs⟩
      · rfl
      · rw [startsWith, Bool.and_eq_true] at hps
        rw [clash, Bool.or_eq_true] at h
        rw [startsWith, Bool.and_eq_false_iff]
        rcases h with hfirst | hrest
        · exact .inl (not_sameLetter_of_areApart hfirst hps.1)
        · exact .inr (ih hrest hps.2)

/-! ### The names in use -/

/-- The names that commands and the machine fill in. -/
def names : List String := ["item", "index", "value", "exception", "error", "pipe"]

theorem clash_of_ne {n k : String} (hn : n ∈ names) (hk : k ∈ names) (h : n ≠ k) :
    clash (placeholder n) (placeholder k) = true := by
  have hall : ∀ n ∈ names, ∀ k ∈ names, n ≠ k → clash (placeholder n) (placeholder k) = true := by
    decide +kernel
  exact hall n hn k hk h

/-- A placeholder of a name in use opens with two braces; no other of its characters is one. -/
theorem placeholder_shape {n : String} (hn : n ∈ names) : ∃ first rest,
    placeholder n = '{' :: '{' :: first :: rest ∧ '{' ∉ first :: rest := by
  have hbody : ∀ n ∈ names, '{' ∉ (placeholder n).drop 2 := by decide
  have hform : placeholder n = '{' :: '{' :: (placeholder n).drop 2 := rfl
  obtain ⟨first, rest, hcons⟩ : ∃ first rest, (placeholder n).drop 2 = first :: rest := by
    refine List.exists_cons_of_ne_nil ?_
    simp [placeholder]
  exact ⟨first, rest, hcons ▸ hform, hcons ▸ hbody n hn⟩

theorem placeholder_ne_nil (n : String) : placeholder n ≠ [] := by
  simp [placeholder]

theorem startsWith_drop {ps cs : List Char} (h : startsWith ps cs = true) (j : ℕ) :
    startsWith (ps.drop j) (cs.drop j) = true := by
  induction j generalizing ps cs with
  | zero => exact h
  | succ j ih =>
    rcases ps with _ | ⟨p, ps⟩
    · rw [List.drop_nil, startsWith]
    · rcases cs with _ | ⟨c, cs⟩
      · cases h
      · rw [startsWith, Bool.and_eq_true] at h
        exact ih h.2

/-- Where a pattern and a brace both stand, the pattern starts with a brace. -/
theorem eq_brace_of_startsWith {p : Char} {ps qs cs : List Char}
    (hp : startsWith (p :: ps) cs = true) (hbrace : startsWith ('{' :: qs) cs = true) :
    p = '{' := by
  rcases cs with _ | ⟨c, cs⟩
  · cases hp
  · rw [startsWith, Bool.and_eq_true] at hp hbrace
    refine eq_brace_of_sameLetter ?_
    rw [← eq_of_sameLetter_brace hbrace.1]
    exact hp.1

/-- **Placeholders do not overlap**: none begins inside another. -/
theorem startsWith_inside {n k : String} (hn : n ∈ names) (hk : k ∈ names) {cs : List Char}
    (h : startsWith (placeholder n) cs = true) {j : ℕ} (hpos : 0 < j)
    (hj : j < (placeholder n).length) : startsWith (placeholder k) (cs.drop j) = false := by
  obtain ⟨first, rest, hshape, hbody⟩ := placeholder_shape hn
  obtain ⟨first', rest', hshape', -⟩ := placeholder_shape hk
  rw [hshape] at h hj
  rw [hshape', ← Bool.not_eq_true]
  intro hinside
  rcases j with _ | _ | j
  · omega
  · -- the second brace of the other would stand on the first letter of the name
    have hbrace := startsWith_drop hinside 1
    rw [List.drop_drop] at hbrace
    have hfirst := eq_brace_of_startsWith (startsWith_drop h 2) hbrace
    exact hbody (hfirst ▸ List.mem_cons_self ..)
  · have hlt : j < (first :: rest).length := by
      simp only [List.length_cons] at hj ⊢
      omega
    have hhere := startsWith_drop h (j + 2)
    rw [List.drop_succ_cons, List.drop_succ_cons, List.drop_eq_getElem_cons hlt] at hhere
    have hbrace := eq_brace_of_startsWith hhere hinside
    exact hbody (hbrace ▸ List.getElem_mem hlt)

/-! ### A template as parts -/

/-- A part of a template that is filled in: a character of its own, or a text put for a
placeholder. -/
inductive Part where
  | own (c : Char)
  | put (text : List Char)
  deriving DecidableEq

def Part.chars : Part → List Char
  | .own c => [c]
  | .put text => text

/-- The text of parts. -/
def textOf (parts : List Part) : List Char := parts.flatMap Part.chars

/-- Whether a text starts with the placeholder of an entry. -/
def standsAt (cs : List Char) (entry : String × String) : Bool :=
  startsWith (placeholder entry.1) cs

/-- The entry whose placeholder a text starts with. -/
def placeholderAt? (values : List (String × String)) (cs : List Char) : Option (String × String) :=
  values.find? (standsAt cs)

/-- The parts of a text, with the texts of all values put in one scan; while `skip` is positive the
scan stands inside a placeholder. -/
def partsFrom (values : List (String × String)) : (skip : ℕ) → List Char → List Part
  | _, [] => []
  | skip + 1, _ :: rest => partsFrom values skip rest
  | 0, c :: rest =>
    match placeholderAt? values (c :: rest) with
    | some (name, text) =>
      .put text.toList :: partsFrom values ((placeholder name).length - 1) rest
    | none => .own c :: partsFrom values 0 rest

def parts (template : String) (values : List (String × String)) : List Part :=
  partsFrom values 0 template.toList

/-- Fills in all names at once: what is put is not looked at again. -/
def fillTogether (template : String) (values : List (String × String)) : String :=
  String.ofList (textOf (parts template values))

/-- Distinct names, all of them in use. -/
structure InUse (values : List (String × String)) : Prop where
  mem : ∀ entry ∈ values, entry.1 ∈ names
  nodup : (values.map (·.1)).Nodup

theorem partsFrom_nil (cs : List Char) : partsFrom [] 0 cs = cs.map .own := by
  induction cs with
  | nil => rfl
  | cons c cs ih =>
    rw [partsFrom]
    exact congrArg (Part.own c :: ·) ih

/-! ### The order of the names -/

/-- A text starts with one placeholder at most. -/
theorem InUse.unique {values : List (String × String)} (h : InUse values) {a b : String × String}
    (ha : a ∈ values) (hb : b ∈ values) {cs : List Char} (hstarta : standsAt cs a = true)
    (hstartb : standsAt cs b = true) : a = b := by
  by_contra hne
  have hname : a.1 ≠ b.1 := fun heq => hne (List.inj_on_of_nodup_map h.nodup ha hb heq)
  have hnone := not_startsWith_of_clash (clash_of_ne (h.mem a ha) (h.mem b hb) hname) hstarta
  exact absurd hstartb (by rw [standsAt, hnone]; exact Bool.false_ne_true)

theorem placeholderAt?_eq_some_iff {values : List (String × String)} (h : InUse values)
    {cs : List Char} {entry : String × String} :
    placeholderAt? values cs = some entry ↔ entry ∈ values ∧ standsAt cs entry = true := by
  unfold placeholderAt?
  constructor
  · exact fun hfind => ⟨List.mem_of_find?_eq_some hfind, List.find?_some hfind⟩
  · rintro ⟨hmem, hstands⟩
    rcases hfind : values.find? (standsAt cs) with _ | other
    · exact absurd hstands (List.find?_eq_none.mp hfind entry hmem)
    · rw [h.unique (List.mem_of_find?_eq_some hfind) hmem (List.find?_some hfind) hstands]

theorem InUse.perm {values others : List (String × String)} (h : InUse values)
    (hperm : values.Perm others) : InUse others where
  mem entry hentry := h.mem entry (hperm.mem_iff.mpr hentry)
  nodup := (hperm.map _).nodup_iff.mp h.nodup

theorem placeholderAt?_perm {values others : List (String × String)} (h : InUse values)
    (hperm : values.Perm others) (cs : List Char) :
    placeholderAt? others cs = placeholderAt? values cs := by
  refine Option.ext fun entry => ?_
  rw [placeholderAt?_eq_some_iff (h.perm hperm), placeholderAt?_eq_some_iff h, hperm.mem_iff]

/-- **At once, the order of the names does not matter.** -/
theorem fillTogether_perm {values others : List (String × String)} (h : InUse values)
    (hperm : values.Perm others) (template : String) :
    fillTogether template others = fillTogether template values := by
  have hparts : ∀ skip cs, partsFrom others skip cs = partsFrom values skip cs := by
    intro skip cs
    induction cs generalizing skip with
    | nil => rw [partsFrom, partsFrom]
    | cons c cs ih =>
      cases skip with
      | succ skip => exact ih skip
      | zero =>
        rw [partsFrom, partsFrom, placeholderAt?_perm h hperm]
        rcases placeholderAt? values (c :: cs) with _ | ⟨name, text⟩
        · exact congrArg _ (ih 0)
        · exact congrArg _ (ih _)
  unfold fillTogether parts
  rw [hparts]

/-! ### One name after the other -/

def Part.isOwn : Part → Bool
  | .own _ => true
  | .put _ => false

/-- Whether a pattern stands at the start of parts, in own characters only. -/
def startsWithOwn (pattern : List Char) (row : List Part) : Bool :=
  startsWith pattern (textOf row) && (row.take pattern.length).all Part.isOwn

/-- Puts a text for every occurrence of a pattern in own characters. -/
def fillParts (pattern text : List Char) : (skip : ℕ) → List Part → List Part
  | _, [] => []
  | skip + 1, _ :: rest => fillParts pattern text skip rest
  | 0, .put other :: rest => .put other :: fillParts pattern text 0 rest
  | 0, .own c :: rest =>
    if startsWithOwn pattern (.own c :: rest) then
      .put text :: fillParts pattern text (pattern.length - 1) rest
    else .own c :: fillParts pattern text 0 rest

/-- No occurrence of a pattern in the text of parts touches a text that was put: an occurrence that
begins at an own character takes own characters only, and none begins in a text that was put. -/
def Untouched (pattern : List Char) : List Part → Prop
  | [] => True
  | .own c :: rest =>
    (startsWith pattern (c :: textOf rest) = true →
      (rest.take (pattern.length - 1)).all Part.isOwn = true) ∧ Untouched pattern rest
  | .put text :: rest =>
    (∀ tail ∈ text.tails, tail ≠ [] → startsWith pattern (tail ++ textOf rest) = false) ∧
      Untouched pattern rest

instance (pattern : List Char) : (row : List Part) → Decidable (Untouched pattern row)
  | [] => .isTrue trivial
  | .own c :: rest =>
    have : Decidable (Untouched pattern rest) := instDecidableUntouched pattern rest
    inferInstanceAs (Decidable ((startsWith pattern (c :: textOf rest) = true →
      (rest.take (pattern.length - 1)).all Part.isOwn = true) ∧ Untouched pattern rest))
  | .put text :: rest =>
    have : Decidable (Untouched pattern rest) := instDecidableUntouched pattern rest
    inferInstanceAs (Decidable ((∀ tail ∈ text.tails, tail ≠ [] →
      startsWith pattern (tail ++ textOf rest) = false) ∧ Untouched pattern rest))

theorem textOf_own (c : Char) (rest : List Part) : textOf (.own c :: rest) = c :: textOf rest := rfl

theorem textOf_put (text : List Char) (rest : List Part) :
    textOf (.put text :: rest) = text ++ textOf rest := rfl

theorem textOf_map_own (cs : List Char) : textOf (cs.map .own) = cs := by
  induction cs with
  | nil => rfl
  | cons c cs ih => rw [List.map_cons, textOf_own, ih]

/-- A template with nothing put in yet is not touched. -/
theorem untouched_map_own (pattern cs : List Char) : Untouched pattern (cs.map .own) := by
  induction cs with
  | nil => trivial
  | cons c cs ih =>
    refine ⟨fun _ => ?_, ih⟩
    rw [← List.map_take, List.all_map]
    exact List.all_eq_true.mpr fun _ _ => rfl

theorem startsWithOwn_eq {pattern : List Char} (hne : pattern ≠ []) {c : Char} {rest : List Part}
    (h : Untouched pattern (.own c :: rest)) :
    startsWithOwn pattern (.own c :: rest) = startsWith pattern (c :: textOf rest) := by
  obtain ⟨p, ps, rfl⟩ := List.exists_cons_of_ne_nil hne
  unfold startsWithOwn
  rw [textOf_own, List.length_cons, List.take_succ_cons, List.all_cons]
  rcases hstart : startsWith (p :: ps) (c :: textOf rest) with _ | _
  · rfl
  · have hown := h.1 hstart
    rw [List.length_cons, Nat.add_sub_cancel] at hown
    rw [hown]
    rfl

/-- A text that is not touched is passed over. -/
theorem fillFrom_append {pattern : List Char} {put : List Char} (text : List Char) {cs : List Char}
    (h : ∀ tail ∈ put.tails, tail ≠ [] → startsWith pattern (tail ++ cs) = false) :
    fillFrom pattern text 0 (put ++ cs) = put ++ fillFrom pattern text 0 cs := by
  induction put with
  | nil => rfl
  | cons c put ih =>
    rw [List.tails_cons] at h
    have hhere := h (c :: put) (List.mem_cons_self ..) (List.cons_ne_nil _ _)
    rw [List.cons_append] at hhere
    rw [List.cons_append, fillFrom, hhere, if_neg Bool.false_ne_true,
      ih fun tail htail => h tail (List.mem_cons_of_mem _ htail), List.cons_append]

/-- **Filling in a name fills in the own characters**, if no occurrence touches a text that was
put. -/
theorem fillFrom_textOf {pattern : List Char} (hne : pattern ≠ []) (text : List Char)
    {skip : ℕ} {row : List Part} (h : Untouched pattern row)
    (hskip : (row.take skip).all Part.isOwn = true) :
    fillFrom pattern text skip (textOf row) = textOf (fillParts pattern text skip row) := by
  induction row generalizing skip with
  | nil => cases skip <;> rfl
  | cons part rest ih =>
    cases part with
    | put put =>
      cases skip with
      | succ skip => cases hskip
      | zero => rw [textOf_put, fillFrom_append text h.1, ih h.2 rfl, fillParts, textOf_put]
    | own c =>
      cases skip with
      | succ skip => exact ih h.2 hskip
      | zero =>
        rw [fillParts, startsWithOwn_eq hne h, textOf_own, fillFrom]
        split_ifs with hstart
        · rw [ih h.2 (h.1 hstart), textOf_put]
        · rw [ih h.2 rfl, textOf_own]

section Parts

variable {values : List (String × String)}

theorem partsFrom_of_none {c : Char} {rest : List Char}
    (h : placeholderAt? values (c :: rest) = none) :
    partsFrom values 0 (c :: rest) = .own c :: partsFrom values 0 rest := by
  rw [partsFrom, h]

theorem partsFrom_of_some {c : Char} {rest : List Char} {entry : String × String}
    (h : placeholderAt? values (c :: rest) = some entry) :
    partsFrom values 0 (c :: rest) =
      .put entry.2.toList :: partsFrom values ((placeholder entry.1).length - 1) rest := by
  rw [partsFrom, h]

/-- Own characters are those of the template, one behind the other. -/
theorem startsWith_of_startsWithOwn {pattern cs : List Char}
    (h : startsWithOwn pattern (partsFrom values 0 cs) = true) : startsWith pattern cs = true := by
  induction pattern generalizing cs with
  | nil => rw [startsWith]
  | cons p ps ih =>
    unfold startsWithOwn at h
    rw [Bool.and_eq_true] at h
    rcases cs with _ | ⟨c, cs⟩
    · exact absurd h.1 (by rw [partsFrom]; exact Bool.false_ne_true)
    · rcases hat : placeholderAt? values (c :: cs) with _ | entry
      · rw [partsFrom_of_none hat, textOf_own, startsWith, Bool.and_eq_true, List.length_cons,
          List.take_succ_cons, List.all_cons, Bool.and_eq_true] at h
        rw [startsWith, h.1.1, Bool.true_and]
        exact ih (by rw [startsWithOwn, h.1.2, h.2.2, Bool.true_and])
      · rw [partsFrom_of_some hat] at h
        exact absurd h.2 Bool.false_ne_true

/-- A pattern in the template stands in own characters where no placeholder begins. -/
theorem startsWithOwn_of_startsWith {pattern cs : List Char}
    (hfree : ∀ j < pattern.length, placeholderAt? values (cs.drop j) = none)
    (h : startsWith pattern cs = true) : startsWithOwn pattern (partsFrom values 0 cs) = true := by
  induction pattern generalizing cs with
  | nil => rw [startsWithOwn, startsWith]; rfl
  | cons p ps ih =>
    rcases cs with _ | ⟨c, cs⟩
    · cases h
    · rw [startsWith, Bool.and_eq_true] at h
      have hrest := ih (fun j hj => hfree (j + 1) (Nat.succ_lt_succ hj)) h.2
      rw [startsWithOwn, Bool.and_eq_true] at hrest
      have hhere := hfree 0 (Nat.succ_pos _)
      rw [List.drop_zero] at hhere
      rw [partsFrom_of_none hhere, startsWithOwn, textOf_own, startsWith, h.1, hrest.1,
        List.length_cons, List.take_succ_cons, List.all_cons, hrest.2]
      rfl

/-- Where no placeholder begins, skipping parts is skipping characters. -/
theorem fillParts_skip (pattern text : List Char) {skip : ℕ} {cs : List Char}
    (hfree : ∀ j < skip, placeholderAt? values (cs.drop j) = none) :
    fillParts pattern text skip (partsFrom values 0 cs) =
      fillParts pattern text 0 (partsFrom values skip cs) := by
  induction skip generalizing cs with
  | zero => rfl
  | succ skip ih =>
    rcases cs with _ | ⟨c, cs⟩
    · rfl
    · have hhere := hfree 0 (Nat.succ_pos _)
      rw [List.drop_zero] at hhere
      rw [partsFrom_of_none hhere, fillParts, partsFrom]
      exact ih fun j hj => hfree (j + 1) (Nat.succ_lt_succ hj)

/-- No other placeholder begins where one stands. -/
theorem placeholderAt?_inside {entry : String × String} (h : InUse (values ++ [entry]))
    {cs : List Char} (hat : placeholderAt? values cs = none) (hstands : standsAt cs entry = true)
    {j : ℕ} (hj : j < (placeholder entry.1).length) : placeholderAt? values (cs.drop j) = none := by
  rcases Nat.eq_zero_or_pos j with rfl | hpos
  · exact hat
  · refine List.find?_eq_none.mpr fun other hother => ?_
    have hinside := startsWith_inside (h.mem entry (by simp)) (h.mem other (by simp [hother]))
      hstands hpos hj
    rw [standsAt, hinside]
    exact Bool.false_ne_true

/-- **One name more**: the parts with its text put in are the parts for all names. -/
theorem partsFrom_concat {entry : String × String} (h : InUse (values ++ [entry])) (skip : ℕ)
    (cs : List Char) : partsFrom (values ++ [entry]) skip cs =
      fillParts (placeholder entry.1) entry.2.toList 0 (partsFrom values skip cs) := by
  induction cs generalizing skip with
  | nil => rw [partsFrom, partsFrom]; rfl
  | cons c cs ih =>
    cases skip with
    | succ skip => exact ih skip
    | zero =>
      have hfind : placeholderAt? (values ++ [entry]) (c :: cs) =
          (placeholderAt? values (c :: cs)).or (placeholderAt? [entry] (c :: cs)) :=
        List.find?_append
      rcases hat : placeholderAt? values (c :: cs) with _ | other
      · rw [hat, Option.none_or] at hfind
        have hone : placeholderAt? [entry] (c :: cs) =
            if standsAt (c :: cs) entry then some entry else none := by
          rw [placeholderAt?, List.find?_singleton]
        by_cases hstands : standsAt (c :: cs) entry = true
        · rw [hone, if_pos hstands] at hfind
          have hfree : ∀ j < (placeholder entry.1).length,
              placeholderAt? values ((c :: cs).drop j) = none :=
            fun j hj => placeholderAt?_inside h hat hstands hj
          have hown := startsWithOwn_of_startsWith hfree hstands
          rw [partsFrom_of_none hat] at hown
          rw [partsFrom_of_some hfind, partsFrom_of_none hat, fillParts, if_pos hown, ih,
            fillParts_skip]
          intro j hj
          exact hfree (j + 1) (by omega)
        · rw [hone, if_neg hstands] at hfind
          have hown : ¬ startsWithOwn (placeholder entry.1)
              (.own c :: partsFrom values 0 cs) = true := by
            rw [← partsFrom_of_none hat]
            exact fun hown => hstands (startsWith_of_startsWithOwn hown)
          rw [partsFrom_of_none hfind, partsFrom_of_none hat, fillParts, if_neg hown, ih]
      · rw [hat, Option.some_or] at hfind
        rw [partsFrom_of_some hfind, partsFrom_of_some hat, fillParts, ih]

theorem InUse.of_append {later : List (String × String)} (h : InUse (values ++ later)) :
    InUse values where
  mem entry hentry := h.mem entry (List.mem_append_left _ hentry)
  nodup := by
    have hnodup := h.nodup
    rw [List.map_append] at hnodup
    exact hnodup.of_append_left

end Parts

/-- A later name finds what was put for the earlier ones left alone. -/
theorem fillAll_eq_fillTogether {template : String} {values : List (String × String)}
    (h : InUse values) (huntouched : ∀ done entry, done ≠ [] → done ++ [entry] <+: values →
      Untouched (placeholder entry.1) (parts template done)) :
    fillAll template values = fillTogether template values := by
  induction values using List.reverseRecOn with
  | nil =>
    rw [fillTogether, parts, partsFrom_nil, textOf_map_own, String.ofList_toList]
    rfl
  | append_singleton done entry ih =>
    have hdone := ih h.of_append fun earlier other hne hpre =>
      huntouched earlier other hne (hpre.trans (List.prefix_append _ _))
    have hhere : Untouched (placeholder entry.1) (parts template done) := by
      rcases eq_or_ne done [] with rfl | hne
      · rw [parts, partsFrom_nil]
        exact untouched_map_own _ _
      · exact huntouched done entry hne List.prefix_rfl
    have hlast : fillAll template (done ++ [entry]) =
        fill (fillAll template done) entry.1 entry.2 := by
      unfold fillAll
      rw [List.foldl_append]
      rfl
    rw [hlast, hdone, fill, fillTogether, String.toList_ofList,
      fillFrom_textOf (placeholder_ne_nil _) _ hhere rfl, fillTogether, parts, parts,
      partsFrom_concat h]

/-- **Filling in one name after the other is filling in all at once**, in whatever order, as long as
no placeholder of a later name touches a text that was put for an earlier one. -/
theorem fillAll_together {template : String} {values : List (String × String)} (h : InUse values)
    (huntouched : ∀ done entry, done ≠ [] → done ++ [entry] <+: values →
      Untouched (placeholder entry.1) (parts template done)) :
    fillAll template values = fillTogether template values ∧
      ∀ others, values.Perm others →
        fillTogether template others = fillTogether template values :=
  ⟨fillAll_eq_fillTogether h huntouched, fun _ hperm => fillTogether_perm h hperm template⟩

/-- A template with its placeholders in several cases, and an item with braces of its own. -/
def bracedTemplate : String :=
  "\x7b\x7b\x7bItem\x7d\x7d|\x7b\x7bINDEX\x7d\x7d\x7d \x7b\x7bite\x7d\x7d"

def bracedValues : List (String × String) :=
  [("item", "\x7b\"a\":\x7b\x7d\x7d"), ("index", "\x7b\x7bitem\x7d\x7d")]

theorem inUse_bracedValues : InUse bracedValues := ⟨by decide, by decide⟩

theorem untouched_bracedTemplate : ∀ done entry, done ≠ [] → done ++ [entry] <+: bracedValues →
    Untouched (placeholder entry.1) (parts bracedTemplate done) := by
  intro done entry hne hpre
  rcases done with _ | ⟨first, _ | ⟨second, done⟩⟩
  · exact absurd rfl hne
  · obtain ⟨rest, hrest⟩ := hpre
    obtain ⟨rfl, hentry⟩ := List.cons.inj hrest
    obtain ⟨rfl, -⟩ := List.cons.inj hentry
    decide +kernel
  · have hlength := hpre.length_le
    simp [bracedValues] at hlength

theorem fillAll_bracedTemplate : InUse bracedValues ∧
    (∀ done entry, done ≠ [] → done ++ [entry] <+: bracedValues →
      Untouched (placeholder entry.1) (parts bracedTemplate done)) ∧
    fillAll bracedTemplate bracedValues = fillTogether bracedTemplate bracedValues ∧
      ∀ others, bracedValues.Perm others →
        fillTogether bracedTemplate others = fillTogether bracedTemplate bracedValues :=
  ⟨inUse_bracedValues, untouched_bracedTemplate,
    fillAll_together inUse_bracedValues untouched_bracedTemplate⟩

/-- A text that holds the placeholder of a later name is filled in itself, where at once it would
stay; the order of the names decides. -/
theorem fillAll_scans_put_text :
    InUse [("item", "\x7b\x7bindex\x7d\x7d"), ("index", "0")] ∧
      fillAll "\x7b\x7bitem\x7d\x7d" [("item", "\x7b\x7bindex\x7d\x7d"), ("index", "0")] = "0" ∧
      fillAll "\x7b\x7bitem\x7d\x7d" [("index", "0"), ("item", "\x7b\x7bindex\x7d\x7d")] =
        "\x7b\x7bindex\x7d\x7d" ∧
      fillTogether "\x7b\x7bitem\x7d\x7d" [("item", "\x7b\x7bindex\x7d\x7d"), ("index", "0")] =
        "\x7b\x7bindex\x7d\x7d" := by
  refine ⟨⟨by decide, by decide⟩, ?_, ?_, ?_⟩
  · decide +kernel
  · decide +kernel
  · decide +kernel

end PipeScript.Proofs.Text.Placeholders
