import PipeScript.Template
import PipeScript.Text.Blank
import Mathlib.Data.List.Chain
import Mathlib.Data.List.Infix
import Mathlib.Tactic.SplitIfs

/-! # Filling in placeholders

A text in which a placeholder does not occur stays as it is (`fill_of_free`), and none occurs where
no two opening braces stand next to each other (`freeOf_of_unbraced`).  No letter of a placeholder
is a blank in any case, so blanks behind a template stay behind it (`fill_append_blank`). -/

namespace PipeScript.Proofs.Text.Filling

open PipeScript.Text PipeScript.Template

/-! ### Texts without a placeholder -/

/-- The placeholder of a name occurs nowhere in a text, in whatever case. -/
def FreeOf (name text : String) : Prop :=
  ∀ rest ∈ text.toList.tails, startsWith (placeholder name) rest = false

instance (name text : String) : Decidable (FreeOf name text) :=
  inferInstanceAs (Decidable (∀ rest ∈ _, _))

theorem fillFrom_of_free {pattern text cs : List Char}
    (h : ∀ rest ∈ cs.tails, startsWith pattern rest = false) : fillFrom pattern text 0 cs = cs := by
  induction cs with
  | nil => rfl
  | cons c cs ih =>
    have hhere : startsWith pattern (c :: cs) = false := h _ (by simp)
    rw [fillFrom, hhere, if_neg Bool.false_ne_true, ih fun rest hrest => h rest ?_]
    rw [List.tails_cons]
    exact List.mem_cons_of_mem _ hrest

/-- **A text without the placeholder stays as it is.** -/
theorem fill_of_free {name template : String} (h : FreeOf name template) (text : String) :
    fill template name text = template := by
  rw [fill, fillFrom_of_free h, String.ofList_toList]

/-! ### Texts without double braces -/

/-- Two opening braces never stand next to each other. -/
def Unbraced (cs : List Char) : Prop :=
  cs.IsChain fun c d => ¬ (c = '{' ∧ d = '{')

instance (cs : List Char) : Decidable (Unbraced cs) :=
  inferInstanceAs (Decidable (List.IsChain _ cs))

theorem eq_of_image? {run : CaseRun} {point image : ℕ} (h : run.image? point = some image)
    (hpos : 0 < image) : point = (image - run.shift).toNat := by
  unfold CaseRun.image? at h
  split_ifs at h
  have himage : (point + run.shift).toNat = image := Option.some.inj h
  omega

/-- An opening brace is the lower case of nothing else. -/
theorem eq_of_lowerChar_brace {c : Char} (h : lowerChar c = '{') : c = '{' := by
  unfold lowerChar at h
  split_ifs at h with hlow
  · have hascii : ∀ n < 0x80, (Char.ofNat n).toLower = '{' → Char.ofNat n = '{' := by decide
    have hc := hascii c.toNat hlow
    rw [Char.ofNat_toNat] at hc
    exact hc h
  · rcases hmoved : lowerRuns.findSome? (·.image? c.toNat) with _ | image
    · rw [hmoved] at h
      exact h
    · rw [hmoved, Option.map_some, Option.getD_some] at h
      have himage : image = 0x7b := by
        by_cases hvalid : image.isValidChar
        · have hsome : Char.ofNat image = Char.ofNatAux image hvalid := dif_pos hvalid
          exact congrArg Char.toNat (hsome.symm.trans h)
        · have hzero : Char.ofNat image = Char.ofNat 0 := dif_neg hvalid
          exact absurd (hzero.symm.trans h) (by decide)
      have hnone : ∀ run ∈ lowerRuns, run.image? (((0x7b : ℕ) : ℤ) - run.shift).toNat = none := by
        decide +kernel
      obtain ⟨run, hrun, hpoint⟩ := List.exists_of_findSome?_eq_some hmoved
      subst himage
      have hrun := hnone run hrun
      rw [← eq_of_image? hpoint (by decide), hpoint] at hrun
      cases hrun

theorem eq_of_sameLetter_brace {c : Char} (h : sameLetter '{' c = true) : c = '{' := by
  have hlower : lowerChar '{' = '{' := by decide
  have htwins : twinsOf '{' = [] := by decide
  unfold sameLetter at h
  simp only [hlower, htwins, List.contains_nil, Bool.or_false, beq_iff_eq] at h
  exact eq_of_lowerChar_brace h.symm

theorem exists_entry_of_mem_twinsOf {c twin : Char} (h : twin ∈ twinsOf c) :
    ∃ entry ∈ lowerTwins, ∃ n ∈ entry.2, twin = Char.ofNat n := by
  obtain ⟨n, hn, rfl⟩ := List.mem_map.mp h
  rcases hlookup : lowerTwins.lookup c.toNat with _ | points
  · rw [hlookup] at hn
    cases hn
  · rw [hlookup] at hn
    obtain ⟨front, back, hentry, -⟩ := List.lookup_eq_some_iff.mp hlookup
    refine ⟨(c.toNat, points), ?_, n, hn, rfl⟩
    rw [hentry]
    exact List.mem_append_right _ (List.mem_cons_self ..)

/-- Nothing else is the same letter as an opening brace. -/
theorem eq_brace_of_sameLetter {p : Char} (h : sameLetter p '{' = true) : p = '{' := by
  have hlower : lowerChar '{' = '{' := by decide
  have htable : ∀ entry ∈ lowerTwins, ∀ n ∈ entry.2, Char.ofNat n ≠ '{' := by decide +kernel
  unfold sameLetter at h
  rw [hlower, Bool.or_eq_true, beq_iff_eq, List.contains_iff_mem] at h
  rcases h with hsame | htwin
  · exact eq_of_lowerChar_brace hsame
  · obtain ⟨entry, hentry, n, hn, hbrace⟩ := exists_entry_of_mem_twinsOf htwin
    exact absurd hbrace.symm (htable entry hentry n hn)

/-- **A text without double braces is free of every placeholder.** -/
theorem freeOf_of_unbraced {text : String} (h : Unbraced text.toList) (name : String) :
    FreeOf name text := by
  intro rest hrest
  rw [← Bool.not_eq_true]
  intro hstart
  have hsuffix := (List.mem_tails _ _).mp hrest
  rcases rest with _ | ⟨c, _ | ⟨d, rest⟩⟩
  · cases hstart
  · simp [placeholder, startsWith] at hstart
  · simp only [placeholder, List.cons_append, startsWith, Bool.and_eq_true] at hstart
    have hchain := h.suffix hsuffix
    exact (List.isChain_cons_cons.mp hchain).1
      ⟨eq_of_sameLetter_brace hstart.1, eq_of_sameLetter_brace hstart.2.1⟩
/-! ### Blanks behind a template -/

/-- The code points of the blanks. -/
def blankPoints : List ℕ :=
  [0x09, 0x0A, 0x0B, 0x0C, 0x0D, 0x1C, 0x1D, 0x1E, 0x1F, 0x20, 0x85, 0xA0, 0x1680, 0x2000, 0x2001,
    0x2002, 0x2003, 0x2004, 0x2005, 0x2006, 0x2007, 0x2008, 0x2009, 0x200A, 0x2028, 0x2029, 0x202F,
    0x205F, 0x3000]

theorem mem_blankPoints {c : Char} (h : isBlank c = true) : c.toNat ∈ blankPoints := by
  simp only [isBlank, isSpace, Bool.or_eq_true, Bool.and_eq_true, decide_eq_true_eq,
    beq_iff_eq] at h
  simp only [blankPoints, List.mem_cons, List.not_mem_nil, or_false]
  omega

/-- A blank has no case. -/
theorem lowerChar_blank {c : Char} (h : isBlank c = true) : lowerChar c = c := by
  have hpoints : ∀ n ∈ blankPoints, lowerChar (Char.ofNat n) = Char.ofNat n := by decide +kernel
  have hpoint := hpoints _ (mem_blankPoints h)
  rwa [Char.ofNat_toNat] at hpoint

/-- The twins of a letter are letters. -/
theorem isBlank_of_mem_twinsOf {c twin : Char} (h : twin ∈ twinsOf c) : isBlank twin = false := by
  have htable : ∀ entry ∈ lowerTwins, ∀ n ∈ entry.2, isBlank (Char.ofNat n) = false := by
    decide +kernel
  obtain ⟨entry, hentry, n, hn, rfl⟩ := exists_entry_of_mem_twinsOf h
  exact htable entry hentry n hn

/-- No character that is not a blank in lower case is the same letter as a blank. -/
theorem sameLetter_blank {p c : Char} (hp : isBlank (lowerChar p) = false)
    (hc : isBlank c = true) : sameLetter p c = false := by
  unfold sameLetter
  rw [lowerChar_blank hc, Bool.or_eq_false_iff]
  constructor
  · refine beq_false_of_ne ?_
    rintro rfl
    rw [hp] at hc
    cases hc
  · rw [← Bool.not_eq_true, List.contains_iff_mem]
    intro htwin
    rw [isBlank_of_mem_twinsOf htwin] at hc
    cases hc

/-- No character of a pattern is a blank, in whatever case. -/
def Dark (pattern : List Char) : Prop :=
  ∀ p ∈ pattern, isBlank (lowerChar p) = false

theorem dark_of_all {pattern : List Char}
    (h : pattern.all (fun p => !isBlank (lowerChar p)) = true) : Dark pattern := by
  intro p hp
  simpa using List.all_eq_true.mp h p hp

theorem dark_exception : Dark (placeholder "exception") := dark_of_all (by decide)

theorem dark_error : Dark (placeholder "error") := dark_of_all (by decide)

theorem startsWith_blank {p : Char} {pattern right : List Char} (hdark : Dark (p :: pattern))
    (hright : ∀ c ∈ right, isBlank c = true) : startsWith (p :: pattern) right = false := by
  cases right with
  | nil => rfl
  | cons c right =>
    rw [startsWith, sameLetter_blank (hdark p (List.mem_cons_self ..))
      (hright c (List.mem_cons_self ..)), Bool.false_and]

/-- An occurrence does not reach into the blanks behind a text. -/
theorem startsWith_append {pattern right : List Char} (hdark : Dark pattern)
    (hright : ∀ c ∈ right, isBlank c = true) (cs : List Char) :
    startsWith pattern (cs ++ right) = startsWith pattern cs := by
  induction pattern generalizing cs with
  | nil => rw [startsWith, startsWith]
  | cons p pattern ih =>
    cases cs with
    | nil => exact startsWith_blank hdark hright
    | cons c cs =>
      rw [List.cons_append, startsWith, startsWith,
        ih fun q hq => hdark q (List.mem_cons_of_mem _ hq)]

theorem length_le_of_startsWith {pattern cs : List Char} (h : startsWith pattern cs = true) :
    pattern.length ≤ cs.length := by
  induction pattern generalizing cs with
  | nil => exact Nat.zero_le _
  | cons p pattern ih =>
    cases cs with
    | nil => cases h
    | cons c cs =>
      rw [startsWith, Bool.and_eq_true] at h
      exact Nat.succ_le_succ (ih h.2)

theorem fillFrom_blank {pattern right : List Char} (hne : pattern ≠ []) (hdark : Dark pattern)
    (text : List Char) (hright : ∀ c ∈ right, isBlank c = true) :
    fillFrom pattern text 0 right = right := by
  refine fillFrom_of_free fun rest hrest => ?_
  obtain ⟨p, pattern, rfl⟩ := List.exists_cons_of_ne_nil hne
  exact startsWith_blank hdark fun c hc => hright c (((List.mem_tails _ _).mp hrest).subset hc)

/-- The scan keeps the blanks, wherever it stands before them. -/
theorem fillFrom_append_blank {pattern right : List Char} (hne : pattern ≠ [])
    (hdark : Dark pattern) (text : List Char) (hright : ∀ c ∈ right, isBlank c = true)
    {skip : ℕ} {cs : List Char} (hskip : skip ≤ cs.length) :
    fillFrom pattern text skip (cs ++ right) = fillFrom pattern text skip cs ++ right := by
  induction cs generalizing skip with
  | nil =>
    obtain rfl : skip = 0 := Nat.le_zero.mp hskip
    exact fillFrom_blank hne hdark text hright
  | cons c cs ih =>
    cases skip with
    | succ skip => exact ih (Nat.le_of_succ_le_succ hskip)
    | zero =>
      have hahead : startsWith pattern (c :: cs ++ right) = startsWith pattern (c :: cs) :=
        startsWith_append hdark hright (c :: cs)
      rw [List.cons_append] at hahead ⊢
      rw [fillFrom, fillFrom, hahead]
      split_ifs with hfound
      · have hlength : pattern.length - 1 ≤ cs.length := by
          have := length_le_of_startsWith hfound
          rw [List.length_cons] at this
          omega
        rw [ih hlength, List.append_assoc]
      · rw [ih (Nat.zero_le _), List.cons_append]

/-- **Blanks behind a template stay behind it.** -/
theorem fill_append_blank {name right : String} (hdark : Dark (placeholder name))
    (hright : ∀ c ∈ right.toList, isBlank c = true) (template text : String) :
    fill (template ++ right) name text = fill template name text ++ right := by
  have hne : placeholder name ≠ [] := by simp [placeholder]
  unfold fill
  rw [String.toList_append, fillFrom_append_blank hne hdark _ hright (Nat.zero_le _),
    String.ofList_append, String.ofList_toList]

end PipeScript.Proofs.Text.Filling
