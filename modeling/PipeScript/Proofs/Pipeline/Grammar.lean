import PipeScript.Proofs.Pipeline.Literals

/-! # The grammar of named arguments

A named argument is a *group*: a gap, a key, an equals sign and a literal.  The literal is a quoted
text, a bracketed text in which brackets nest and strings are opaque, or a bare word up to the next
gap; the first two end by themselves, and a bare word ends where what follows it allows.  The
readers accept exactly these: `readLiteral?` reads a literal where one stands in front of the rest
(`readLiteral?_eq_some_iff`) and `readArgument?` a group (`readArgument?_eq_some_iff`).

A text is groups and a tail in front of which no group stands in one way only (`FitAll.unique`),
and that way is the one that `readArguments` finds (`readArguments_spec`). -/

namespace PipeScript.Proofs.Pipeline.Grammar

open PipeScript.Pipeline PipeScript.Text
open PipeScript.Proofs.Text.Strip PipeScript.Proofs.Pipeline.Bars
open PipeScript.Proofs.Pipeline.Rendering PipeScript.Proofs.Pipeline.Literals

theorem exists_of_map_cons {c : Char} {read : Option (List Char × List Char)}
    {text rest : List Char}
    (h : (read.map fun (text, rest) => (c :: text, rest)) = some (text, rest)) :
    ∃ inner, read = some (inner, rest) ∧ text = c :: inner := by
  obtain ⟨⟨inner, rest'⟩, hread, hpair⟩ := Option.map_eq_some_iff.mp h
  cases hpair
  exact ⟨inner, hread, rfl⟩

/-! ### Quoted literals -/

/-- What stands between the quotes of a quoted literal: no quote but behind a backslash, and no
backslash at the end, where it would take the closing quote with it. -/
inductive QuotedBody : List Char → Prop where
  | nil : QuotedBody []
  | freed {cs : List Char} (h : QuotedBody cs) : QuotedBody ('\\' :: '"' :: cs)
  | plain {c : Char} {cs : List Char} (hc : c ≠ '"') (hback : c = '\\' → ∃ d ∈ cs.head?, d ≠ '"')
      (h : QuotedBody cs) : QuotedBody (c :: cs)

theorem readQuoted?_body {body : List Char} (h : QuotedBody body) (rest : List Char) :
    readQuoted? (body ++ '"' :: rest) = some (unescape '"' body, rest) := by
  induction h with
  | nil => simp [readQuoted?]
  | @freed cs h ih =>
    rw [List.cons_append, List.cons_append, readQuoted?, ih, unescape_freed]
    rfl
  | @plain c cs hc hback h ih =>
    have hfree : ∀ tail : List Char, c = '\\' → (cs ++ tail).head? ≠ some '"' := by
      intro tail hslash
      obtain ⟨d, hd, hne⟩ := hback hslash
      rw [List.head?_append, Option.mem_def.mp hd]
      simpa using hne
    have hbody := hfree []
    rw [List.append_nil] at hbody
    rw [List.cons_append, readQuoted?_cons hc (hfree _), ih, unescape_cons hbody]
    rfl

theorem exists_body_of_readQuoted? {cs text rest : List Char}
    (h : readQuoted? cs = some (text, rest)) :
    ∃ body, QuotedBody body ∧ cs = body ++ '"' :: rest := by
  fun_induction readQuoted? cs generalizing text rest with
  | case1 => cases h
  | case2 tail =>
    cases h
    exact ⟨[], .nil, rfl⟩
  | case3 tail ih =>
    obtain ⟨inner, hread, -⟩ := exists_of_map_cons h
    obtain ⟨body, hbody, rfl⟩ := ih hread
    exact ⟨_, hbody.freed, rfl⟩
  | case4 c tail hquote hfreed ih =>
    obtain ⟨inner, hread, -⟩ := exists_of_map_cons h
    obtain ⟨body, hbody, rfl⟩ := ih hread
    refine ⟨c :: body, hbody.plain (fun hc => hquote hc) fun hslash => ?_, rfl⟩
    -- the closing quote is not right behind the backslash, so the body goes on
    cases body with
    | nil => exact absurd rfl (hfreed rest hslash)
    | cons d body =>
      refine ⟨d, rfl, fun hd => ?_⟩
      subst hd
      exact hfreed _ hslash rfl

theorem readQuoted?_eq_some_iff {cs text rest : List Char} :
    readQuoted? cs = some (text, rest) ↔
      ∃ body, QuotedBody body ∧ cs = body ++ '"' :: rest ∧ text = unescape '"' body := by
  constructor
  · intro h
    obtain ⟨body, hbody, rfl⟩ := exists_body_of_readQuoted? h
    rw [readQuoted?_body hbody] at h
    exact ⟨body, hbody, rfl, (Prod.mk.inj (Option.some.inj h)).1.symm⟩
  · rintro ⟨body, hbody, rfl, rfl⟩
    exact readQuoted?_body hbody rest

/-! ### Bracketed literals -/

/-- What stands in a string between its quotes: a backslash takes the next character with it. -/
inductive StringBody : List Char → Prop where
  | nil : StringBody []
  | plain {c : Char} {cs : List Char} (hquote : c ≠ '"') (hback : c ≠ '\\') (h : StringBody cs) :
      StringBody (c :: cs)
  | escaped (c : Char) {cs : List Char} (h : StringBody cs) : StringBody ('\\' :: c :: cs)

/-- Text in which the brackets outside of strings close each other in order. -/
inductive Balanced : List Char → Prop where
  | nil : Balanced []
  | plain {c : Char} {cs : List Char} (hc : c ∉ delimiters) (h : Balanced cs) : Balanced (c :: cs)
  | string {body cs : List Char} (hbody : StringBody body) (h : Balanced cs) :
      Balanced ('"' :: (body ++ '"' :: cs))
  | bracketed {opening closing : Char} {inside cs : List Char}
      (hpair : BracketPair opening closing) (hinside : Balanced inside) (h : Balanced cs) :
      Balanced (opening :: (inside ++ closing :: cs))

theorem StringBody.insideString {body : List Char} (h : StringBody body) : InsideString body := by
  induction h with
  | nil => exact insideString_nil
  | plain hquote hback h ih => exact (insideString_plain hquote hback).append ih
  | escaped c h ih => exact (insideString_escaped c).append ih

/-- **The scan passes over balanced text.** -/
theorem Balanced.passedOver {cs : List Char} (h : Balanced cs) : PassedOver cs := by
  induction h with
  | nil => exact passedOver_nil
  | plain hc h ih => exact (passedOver_plain hc).append ih
  | @string body cs hbody h ih =>
    have hpassed := (passedOver_quoted hbody.insideString).append ih
    simpa using hpassed
  | @bracketed opening closing inside cs hpair hinside h ihinside ih =>
    have hpassed := (passedOver_bracketed hpair ihinside).append ih
    simpa using hpassed

theorem Balanced.append {cs ds : List Char} (hcs : Balanced cs) (hds : Balanced ds) :
    Balanced (cs ++ ds) := by
  induction hcs with
  | nil => exact hds
  | plain hc h ih => exact ih.plain hc
  | @string body cs hbody h ih =>
    have hstring := ih.string hbody
    simpa using hstring
  | @bracketed opening closing inside cs hpair hinside h ihinside ih =>
    have hbracketed := Balanced.bracketed hpair hinside ih
    simpa using hbracketed

/-- Text that closes open brackets, the innermost first, and ends with the last of them. -/
def Closes : List Char → List Char → Prop
  | [], text => text = []
  | closer :: awaited, text =>
    ∃ inside after, Balanced inside ∧ text = inside ++ closer :: after ∧ Closes awaited after

/-- What a scan between brackets has read at its end; inside a string that string ends first. -/
def Finishes : Bool → List Char → List Char → Prop
  | false, awaited, text => Closes awaited text
  | true, awaited, text =>
    ∃ body after, StringBody body ∧ text = body ++ '"' :: after ∧ Closes awaited after

theorem closes_here {closer : Char} {awaited text : List Char} (h : Closes awaited text) :
    Closes (closer :: awaited) (closer :: text) :=
  ⟨[], text, .nil, rfl, h⟩

theorem Closes.behind {awaited text cs : List Char} (h : Closes awaited text) (hne : awaited ≠ [])
    (hcs : Balanced cs) : Closes awaited (cs ++ text) := by
  obtain ⟨closer, awaited, rfl⟩ := List.exists_cons_of_ne_nil hne
  obtain ⟨inside, after, hinside, rfl, hafter⟩ := h
  exact ⟨cs ++ inside, after, hcs.append hinside, by rw [List.append_assoc], hafter⟩

/-- An opening bracket is one more to be closed. -/
theorem Closes.opened {opening closing : Char} {awaited text : List Char}
    (h : Closes (closing :: awaited) text) (hpair : BracketPair opening closing)
    (hne : awaited ≠ []) : Closes awaited (opening :: text) := by
  obtain ⟨inside, after, hinside, rfl, hafter⟩ := h
  have hopened := hafter.behind hne (Balanced.bracketed hpair hinside .nil)
  simpa using hopened

theorem bracketPair_of_closer? {opening closing : Char} (h : closer? opening = some closing) :
    BracketPair opening closing := by
  unfold closer? at h
  split_ifs at h with hsquare hcurly
  · cases h
    rw [hsquare]
    exact .square
  · cases h
    rw [hcurly]
    exact .curly

/-- A character that neither opens nor closes a bracket and is no quote. -/
theorem notMem_delimiters {c : Char} (hopener : closer? c = none)
    (hcloser : ¬ (decide (c = ']') || decide (c = '}')) = true) (hquote : c ≠ '"') :
    c ∉ delimiters := by
  have hopening : c ≠ '[' ∧ c ≠ '{' := by
    unfold closer? at hopener
    split_ifs at hopener with hsquare hcurly
    exact ⟨hsquare, hcurly⟩
  simp only [Bool.or_eq_true, decide_eq_true_eq, not_or] at hcloser
  simp [delimiters, hopening.1, hopening.2, hcloser.1, hcloser.2, hquote]

/-- What the scan has read when it stops. -/
theorem finishes_of_readBrackets? {inString : Bool} {awaited cs text rest : List Char}
    (hne : awaited ≠ []) (h : readBrackets? inString awaited cs = some (text, rest)) :
    cs = text ++ rest ∧ Finishes inString awaited text := by
  fun_induction readBrackets? inString awaited cs generalizing text rest with
  | case1 | case3 | case6 | case8 | case10 => cases h
  | case2 awaited c tail ih =>
    obtain ⟨⟨inner, rest'⟩, hread, hpair⟩ := Option.map_eq_some_iff.mp h
    cases hpair
    obtain ⟨rfl, body, after, hbody, rfl, hafter⟩ := ih hne hread
    exact ⟨rfl, '\\' :: c :: body, after, hbody.escaped c, rfl, hafter⟩
  | case4 awaited c tail _ hback ih =>
    obtain ⟨inner, hread, rfl⟩ := exists_of_map_cons h
    obtain ⟨rfl, hinner⟩ := ih hne hread
    refine ⟨rfl, ?_⟩
    by_cases hquote : c = '"'
    · subst hquote
      exact ⟨[], inner, .nil, rfl, hinner⟩
    · rw [bne_iff_ne.mpr hquote] at hinner
      obtain ⟨body, after, hbody, rfl, hafter⟩ := hinner
      exact ⟨c :: body, after, hbody.plain hquote hback, rfl, hafter⟩
  | case5 awaited c tail closer hcloser ih =>
    obtain ⟨inner, hread, rfl⟩ := exists_of_map_cons h
    obtain ⟨rfl, hinner⟩ := ih (List.cons_ne_nil _ _) hread
    exact ⟨rfl, Closes.opened hinner (bracketPair_of_closer? hcloser) hne⟩
  | case7 tail last _ _ =>
    cases h
    exact ⟨rfl, closes_here rfl⟩
  | case9 tail first others hothers _ _ ih =>
    obtain ⟨inner, hread, rfl⟩ := exists_of_map_cons h
    obtain ⟨rfl, hinner⟩ := ih (fun heq => hothers heq) hread
    exact ⟨rfl, closes_here hinner⟩
  | case11 awaited c tail hopener hcloser ih =>
    obtain ⟨inner, hread, rfl⟩ := exists_of_map_cons h
    obtain ⟨rfl, hinner⟩ := ih hne hread
    refine ⟨rfl, ?_⟩
    by_cases hquote : c = '"'
    · subst hquote
      obtain ⟨body, after, hbody, rfl, hafter⟩ := hinner
      have hstring := hafter.behind hne (Balanced.string hbody .nil)
      simpa [Finishes] using hstring
    · have hplain : c ∉ delimiters := notMem_delimiters hopener hcloser hquote
      rw [beq_false_of_ne hquote] at hinner
      exact hinner.behind hne (Balanced.plain hplain .nil)

theorem readBrackets?_eq_some_iff {opening closing : Char} (hpair : BracketPair opening closing)
    {cs text rest : List Char} :
    readBrackets? false [closing] cs = some (text, rest) ↔
      ∃ inside, Balanced inside ∧ cs = inside ++ closing :: rest ∧ text = inside ++ [closing] := by
  constructor
  · intro h
    obtain ⟨rfl, inside, after, hinside, rfl, rfl⟩ :=
      finishes_of_readBrackets? (List.cons_ne_nil _ _) h
    exact ⟨inside, hinside, by simp, rfl⟩
  · rintro ⟨inside, hinside, rfl, rfl⟩
    rw [hinside.passedOver, readBrackets?_last hpair]
    rfl

/-! ### Literals -/

/-- The characters that open a literal which ends by itself. -/
def openers : List Char := ['"', '[', '{']

theorem notMem_openers_iff {c : Char} : c ∉ openers ↔ c ≠ '"' ∧ closer? c = none := by
  unfold closer?
  split_ifs with hsquare hcurly
  · simp [openers, hsquare]
  · simp [openers, hcurly]
  · simp [openers, hsquare, hcurly]

/-- A literal, where `rest` follows it. -/
inductive IsLiteral : (literal rest : List Char) → Prop where
  | quoted {body rest : List Char} (h : QuotedBody body) : IsLiteral ('"' :: (body ++ ['"'])) rest
  | bracketed {opening closing : Char} {inside rest : List Char}
      (hpair : BracketPair opening closing) (h : Balanced inside) :
      IsLiteral (opening :: (inside ++ [closing])) rest
  | bare {word rest : List Char} (hword : ∀ c ∈ word, isGap c = false)
      (hfirst : ∀ c ∈ word.head?, c ∉ openers) (hend : ∀ c ∈ rest.head?, isGap c = true) :
      IsLiteral word rest

/-- The text that a literal denotes: quotes go, and so do the backslashes that free quotes. -/
def denoted : List Char → List Char
  | '"' :: cs => unescape '"' cs.dropLast
  | cs => cs

theorem denoted_quoted (body : List Char) :
    denoted ('"' :: (body ++ ['"'])) = unescape '"' body := by
  rw [denoted, List.dropLast_concat]

theorem denoted_of_head {cs : List Char} (h : cs.head? ≠ some '"') : denoted cs = cs := by
  unfold denoted
  split
  · exact absurd rfl h
  · rfl

theorem readLiteral?_bare {cs : List Char} (h : ∀ c ∈ cs.head?, c ∉ openers) :
    readLiteral? cs = some (cs.takeWhile (!isGap ·), cs.dropWhile (!isGap ·)) := by
  cases cs with
  | nil => rfl
  | cons c tail =>
    obtain ⟨hquote, hcloser⟩ := notMem_openers_iff.mp (h c rfl)
    rw [readLiteral?, if_neg hquote, hcloser]

/-- A bare word and what follows it never start with an opener: a gap is none. -/
theorem notMem_openers_of_head {word rest : List Char} (hfirst : ∀ c ∈ word.head?, c ∉ openers)
    (hend : ∀ c ∈ rest.head?, isGap c = true) : ∀ c ∈ (word ++ rest).head?, c ∉ openers := by
  intro c hc
  cases word with
  | nil =>
    intro hmem
    have hdark := List.all_eq_true.mp (by decide : openers.all (!isGap ·) = true) c hmem
    rw [hend c hc] at hdark
    cases hdark
  | cons d word => exact hfirst c hc

theorem readLiteral?_of_isLiteral {literal rest : List Char} (h : IsLiteral literal rest) :
    readLiteral? (literal ++ rest) = some (denoted literal, rest) := by
  cases h with
  | @quoted body _ hbody =>
    have hform : '"' :: (body ++ ['"']) ++ rest = '"' :: (body ++ '"' :: rest) := by simp
    rw [hform, readLiteral?, if_pos rfl, readQuoted?_body hbody, denoted_quoted]
  | @bracketed opening closing inside _ hpair hinside =>
    rw [denoted_of_head (by cases hpair <;> simp)]
    exact readLiteral?_bracketed hpair hinside.passedOver rest
  | bare hword hfirst hend =>
    obtain ⟨htake, hdrop⟩ := takeWhile_name hword hend
    rw [denoted_of_head fun hquote => hfirst '"' hquote (by decide),
      readLiteral?_bare (notMem_openers_of_head hfirst hend), htake, hdrop]

theorem solid_takeWhile (cs : List Char) : ∀ c ∈ cs.takeWhile (!isGap ·), isGap c = false := by
  intro c hc
  simpa using List.mem_takeWhile_imp hc

theorem gap_head_dropWhile (cs : List Char) :
    ∀ c ∈ (cs.dropWhile (!isGap ·)).head?, isGap c = true := by
  intro c hc
  simpa using head_dropWhile cs c hc

/-- What does not start with an opener starts with a bare word, which may be empty. -/
theorem isLiteral_takeWhile {cs : List Char} (h : ∀ c ∈ cs.head?, c ∉ openers) :
    IsLiteral (cs.takeWhile (!isGap ·)) (cs.dropWhile (!isGap ·)) := by
  refine .bare (solid_takeWhile cs) (fun c hc => ?_) (gap_head_dropWhile cs)
  rw [List.head?_takeWhile] at hc
  exact h c (Option.filter_eq_some_iff.mp hc).1

theorem exists_literal_of_opener {c : Char} (hopener : c ∈ openers) {tail text rest : List Char}
    (h : readLiteral? (c :: tail) = some (text, rest)) :
    ∃ literal, IsLiteral literal rest ∧ c :: tail = literal ++ rest := by
  rw [readLiteral?] at h
  split_ifs at h with hquote
  · subst hquote
    obtain ⟨body, hbody, rfl, -⟩ := readQuoted?_eq_some_iff.mp h
    exact ⟨_, .quoted hbody, by simp⟩
  · cases hcloser : closer? c with
    | none => exact absurd hopener (notMem_openers_iff.mpr ⟨hquote, hcloser⟩)
    | some closing =>
      rw [hcloser] at h
      have hpair := bracketPair_of_closer? hcloser
      obtain ⟨inner, hread, rfl⟩ := exists_of_map_cons h
      obtain ⟨inside, hinside, rfl, rfl⟩ := (readBrackets?_eq_some_iff hpair).mp hread
      exact ⟨_, .bracketed hpair hinside, by simp⟩

/-- **The reader of literals takes a literal** and what it denotes. -/
theorem readLiteral?_eq_some_iff {cs text rest : List Char} :
    readLiteral? cs = some (text, rest) ↔
      ∃ literal, IsLiteral literal rest ∧ cs = literal ++ rest ∧ text = denoted literal := by
  constructor
  · intro h
    have hliteral : ∃ literal, IsLiteral literal rest ∧ cs = literal ++ rest := by
      by_cases hfirst : ∀ c ∈ cs.head?, c ∉ openers
      · rw [readLiteral?_bare hfirst] at h
        cases h
        exact ⟨_, isLiteral_takeWhile hfirst, (List.takeWhile_append_dropWhile).symm⟩
      · push Not at hfirst
        obtain ⟨c, hc, hopener⟩ := hfirst
        obtain ⟨tail, rfl⟩ := List.head?_eq_some_iff.mp hc
        exact exists_literal_of_opener hopener h
    obtain ⟨literal, hliteral, rfl⟩ := hliteral
    rw [readLiteral?_of_isLiteral hliteral] at h
    exact ⟨literal, hliteral, rfl, (Prod.mk.inj (Option.some.inj h)).1.symm⟩
  · rintro ⟨literal, hliteral, rfl, rfl⟩
    exact readLiteral?_of_isLiteral hliteral

/-! ### Groups -/

/-- A named argument as it is written, with the gap before it. -/
@[ext]
structure Group where
  gap : List Char
  key : List Char
  literal : List Char

namespace Group

/-- The text of a group. -/
def source (g : Group) : List Char := g.gap ++ (g.key ++ '=' :: g.literal)

/-- The argument that a group gives. -/
def argument (g : Group) : String × String :=
  (String.ofList g.key, String.ofList (denoted g.literal))

/-- The group is one where `rest` follows it. -/
structure Fits (g : Group) (rest : List Char) : Prop where
  gap : ∀ c ∈ g.gap, isGap c = true
  key : IsKey g.key
  literal : IsLiteral g.literal rest

variable {g g' : Group} {rest rest' : List Char}

theorem source_append (g : Group) (rest : List Char) :
    g.source ++ rest = g.gap ++ (g.key ++ '=' :: (g.literal ++ rest)) := by
  simp [source]

theorem Fits.dropWhile_source (h : g.Fits rest) :
    (g.source ++ rest).dropWhile isGap = g.key ++ '=' :: (g.literal ++ rest) := by
  rw [source_append, List.dropWhile_append_of_pos h.gap, dropWhile_isGap_key h.key]

theorem readArgument?_source (h : g.Fits rest) :
    readArgument? (g.source ++ rest) = some (g.argument, rest) := by
  rw [readArgument?, h.dropWhile_source, readKey?_append h.key]
  simp [readLiteral?_of_isLiteral h.literal, argument]

/-- What a group and its rest are is told by their text. -/
theorem Fits.unique (h : g.Fits rest) (h' : g'.Fits rest')
    (heq : g.source ++ rest = g'.source ++ rest') : g = g' ∧ rest = rest' := by
  have hrest : rest = rest' := by
    have hread := readArgument?_source h
    rw [heq, readArgument?_source h'] at hread
    exact (Prod.mk.inj (Option.some.inj hread)).2.symm
  subst hrest
  have hsource : g.source = g'.source := List.append_cancel_right heq
  have hlater : g.key ++ '=' :: (g.literal ++ rest) = g'.key ++ '=' :: (g'.literal ++ rest) := by
    rw [← h.dropWhile_source, heq, h'.dropWhile_source]
  have hkey := readKey?_append h.key (g.literal ++ rest)
  rw [hlater, readKey?_append h'.key] at hkey
  obtain ⟨hkey, hliteral⟩ := Prod.mk.inj (Option.some.inj hkey)
  have hliteral : g.literal = g'.literal := (List.append_cancel_right hliteral).symm
  have hgap : g.gap = g'.gap := by
    rw [source, source, hkey, hliteral] at hsource
    exact List.append_cancel_right hsource
  exact ⟨Group.ext hgap hkey.symm hliteral, rfl⟩

end Group

/-- **The reader of arguments takes a group.** -/
theorem readArgument?_eq_some_iff {cs rest : List Char} {argument : String × String} :
    readArgument? cs = some (argument, rest) ↔
      ∃ g : Group, g.Fits rest ∧ cs = g.source ++ rest ∧ argument = g.argument := by
  constructor
  · intro h
    obtain ⟨⟨key, after⟩, hkey, h⟩ := Option.bind_eq_some_iff.mp h
    obtain ⟨⟨text, rest'⟩, htext, h⟩ := Option.bind_eq_some_iff.mp h
    cases h
    obtain ⟨hiskey, hlater⟩ := startsWithKey_of_readKey? hkey
    obtain ⟨literal, hliteral, rfl, rfl⟩ := readLiteral?_eq_some_iff.mp htext
    have hgap : ∀ c ∈ cs.takeWhile isGap, isGap c = true := fun c hc => List.mem_takeWhile_imp hc
    refine ⟨⟨cs.takeWhile isGap, key, literal⟩, ⟨hgap, hiskey, hliteral⟩, ?_, rfl⟩
    rw [Group.source_append, ← hlater, List.takeWhile_append_dropWhile]
  · rintro ⟨g, hg, rfl, rfl⟩
    exact Group.readArgument?_source hg

/-! ### Runs of groups -/

/-- The text of groups in a row. -/
def sources (groups : List Group) : List Char := groups.flatMap Group.source

theorem sources_cons (g : Group) (groups : List Group) (tail : List Char) :
    sources (g :: groups) ++ tail = g.source ++ (sources groups ++ tail) := by
  simp [sources]

/-- No group stands in front of a text. -/
def NoGroup (tail : List Char) : Prop :=
  ∀ (g : Group) (rest : List Char), g.Fits rest → tail ≠ g.source ++ rest

/-- Each of the groups is one where the others and the tail follow it, and the tail begins with no
further one. -/
def FitAll : List Group → List Char → Prop
  | [], tail => NoGroup tail
  | g :: groups, tail => g.Fits (sources groups ++ tail) ∧ FitAll groups tail

theorem readArgument?_eq_none_iff {tail : List Char} :
    readArgument? tail = none ↔ NoGroup tail := by
  constructor
  · rintro h g rest hg rfl
    rw [Group.readArgument?_source hg] at h
    cases h
  · intro h
    cases hread : readArgument? tail with
    | none => rfl
    | some read =>
      obtain ⟨g, hg, heq, -⟩ := readArgument?_eq_some_iff.mp hread
      exact absurd heq (h g read.2 hg)

/-- **There is one way to part a text into groups and a tail.** -/
theorem FitAll.unique {groups groups' : List Group} {tail tail' : List Char}
    (h : FitAll groups tail) (h' : FitAll groups' tail')
    (heq : sources groups ++ tail = sources groups' ++ tail') :
    groups = groups' ∧ tail = tail' := by
  induction groups generalizing groups' with
  | nil =>
    cases groups' with
    | nil => exact ⟨rfl, heq⟩
    | cons g' groups' => exact absurd (heq.trans (sources_cons ..)) (h g' _ h'.1)
  | cons g groups ih =>
    cases groups' with
    | nil => exact absurd (heq.symm.trans (sources_cons ..)) (h' g _ h.1)
    | cons g' groups' =>
      rw [sources_cons, sources_cons] at heq
      obtain ⟨rfl, hrest⟩ := h.1.unique h'.1 heq
      obtain ⟨rfl, rfl⟩ := ih h.2 h'.2 hrest
      exact ⟨rfl, rfl⟩

theorem Group.length_lt (g : Group) (rest : List Char) :
    rest.length < (g.source ++ rest).length := by
  rw [source_append]
  simp only [List.length_append, List.length_cons]
  omega

/-- **Reading arguments finds that way.** -/
theorem readArguments_spec {fuel : ℕ} {cs : List Char} (hfuel : cs.length < fuel) :
    ∃ groups tail, cs = sources groups ++ tail ∧ FitAll groups tail ∧
      readArguments fuel cs = (groups.map Group.argument, tail) := by
  induction fuel generalizing cs with
  | zero => omega
  | succ fuel ih =>
    cases hread : readArgument? cs with
    | none =>
      refine ⟨[], cs, rfl, readArgument?_eq_none_iff.mp hread, ?_⟩
      rw [readArguments, hread]
      rfl
    | some read =>
      obtain ⟨argument, rest⟩ := read
      obtain ⟨g, hg, rfl, rfl⟩ := readArgument?_eq_some_iff.mp hread
      have hlength : rest.length < fuel := by
        have := g.length_lt rest
        omega
      obtain ⟨groups, tail, rfl, hfit, harguments⟩ := ih hlength
      refine ⟨g :: groups, tail, (sources_cons ..).symm, ⟨hg, hfit⟩, ?_⟩
      rw [readArguments, hread]
      simp only [harguments, List.map_cons]

end PipeScript.Proofs.Pipeline.Grammar
