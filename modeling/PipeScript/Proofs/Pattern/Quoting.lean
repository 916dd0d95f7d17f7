import PipeScript.Proofs.Pattern.FixedText
import PipeScript.Pattern.Reader
import Mathlib.Tactic.FinCases

/-! # Quoted patterns

A quoted text is read character by character: those with a meaning in patterns stand behind a
backslash, and the escape of such a character is the character itself (`gives_readEscape`); the
others mean nothing to begin with (`gives_readSimple`, `gives_readBounds?`).  So every character is
one more part of a sequence (`gives_readSequence_cons`), and the pattern is the fixed text that was
quoted (`read_quoted`). -/

namespace PipeScript.Proofs.Pattern.Quoting

open PipeScript.Pattern
open PipeScript.Proofs.Pattern.FixedText

/-! ### Tokens of a quoted text -/

/-- The token that a quoted character is. -/
def quotedToken (c : Char) : Token :=
  if isSpecial c then .escape c else .plain c

theorem ne_of_not_special {c d : Char} (hc : isSpecial c = false) (hd : isSpecial d = true) :
    c ≠ d := by
  rintro rfl
  rw [hc] at hd
  cases hd

theorem ofChars_quotedChar (c : Char) (rest : List Char) :
    Token.ofChars (quotedChar c ++ rest) = quotedToken c :: Token.ofChars rest := by
  unfold quotedChar quotedToken
  cases h : isSpecial c with
  | true => rfl
  | false =>
    rw [if_neg Bool.false_ne_true, if_neg Bool.false_ne_true, List.singleton_append,
      Token.ofChars]
    · exact fun h' => absurd h' (ne_of_not_special h rfl)
    · exact fun _ _ h' => absurd h' (ne_of_not_special h rfl)

theorem ofChars_quoted (cs : List Char) :
    Token.ofChars (cs.flatMap quotedChar) = cs.map quotedToken := by
  induction cs with
  | nil => rfl
  | cons c cs ih => rw [List.flatMap_cons, ofChars_quotedChar, ih, List.map_cons]

/-! ### Reading quoted characters -/

/-- A reading that succeeds: from which state, with what, and in which state. -/
def Gives {α : Type} (reading : Reading α) (s : Reader) (a : α) (t : Reader) : Prop :=
  reading.run s = .ok (a, t)

theorem Gives.bind {α β : Type} {reading : Reading α} {f : α → Reading β} {s t u : Reader} {a : α}
    {b : β} (h : Gives reading s a t) (hf : Gives (f a) t b u) : Gives (reading >>= f) s b u := by
  unfold Gives at *
  rw [StateT.run_bind, h]
  exact hf

theorem Gives.pure {α : Type} (a : α) (s : Reader) : Gives (Pure.pure a) s a s := rfl

theorem gives_get (s : Reader) : Gives get s s s := rfl

theorem quotedToken_ne_dangling (c : Char) : quotedToken c ≠ .dangling := by
  unfold quotedToken
  split <;> nofun

variable {s : Reader}

theorem gives_refuseDangling (h : s.rest.head? ≠ some .dangling) :
    Gives Reading.refuseDangling s () s := by
  unfold Reading.refuseDangling
  refine .bind (gives_get s) ?_
  rw [if_neg h]
  exact .pure () s

/-- None of the characters that are quoted is a letter or a digit, which alone mean something else
behind a backslash. -/
theorem gives_readEscape {c : Char} (h : isSpecial c = true) (hmode : s.mode = {}) :
    Gives (readEscape c) s (charNode c) s := by
  obtain ⟨rest, position, mode, groups, names, behind, conditions, asked⟩ := s
  cases hmode
  have hmem : c ∈ "()[]\x7b\x7d?*+-|^$\\.&~# \t\n\r\x0b\x0c".toList := by
    simpa [isSpecial] using h
  fin_cases hmem <;> rfl

theorem gives_readSimple {c : Char} (hmode : s.mode = {}) :
    Gives (readSimple (quotedToken c)) s (charNode c) s := by
  unfold readSimple
  refine .bind (gives_get s) ?_
  cases h : isSpecial c with
  | true =>
    rw [quotedToken, h]
    exact gives_readEscape h hmode
  | false =>
    rw [quotedToken, h, if_neg Bool.false_ne_true]
    dsimp only
    rw [if_neg (ne_of_not_special h rfl), if_neg (ne_of_not_special h rfl),
      if_neg (ne_of_not_special h rfl), if_neg (ne_of_not_special h rfl), hmode]
    exact .pure (charNode c) s

theorem gives_readBounds? {c : Char} (h : isSpecial c = false) :
    Gives (readBounds? c) s none s := by
  unfold readBounds?
  rw [if_neg (ne_of_not_special h rfl), if_neg (ne_of_not_special h rfl),
    if_neg (ne_of_not_special h rfl), if_neg (ne_of_not_special h rfl)]
  exact .pure none s

theorem gives_next? {token : Token} {rest : List Token} (hrest : s.rest = token :: rest)
    (hdangling : rest.head? ≠ some .dangling) :
    Gives Reading.next? s (some token)
      { s with rest, position := s.position + token.chars.length } := by
  unfold Reading.next?
  refine .bind (gives_get s) ?_
  rw [hrest]
  exact .bind (a := ()) rfl (.bind (gives_refuseDangling hdangling) (.pure _ _))

/-- The part that a quoted character is read as. -/
def charPart (c : Char) : Part := ⟨charNode c, false⟩

/-- **A quoted character is one more part**, whatever it means elsewhere in a pattern. -/
theorem gives_readSequence_cons {c : Char} {rest : List Token} {fuel : ℕ} {first : Bool}
    {parts : List Part} {node : Node} {t : Reader} (hrest : s.rest = quotedToken c :: rest)
    (hdangling : rest.head? ≠ some .dangling) (hmode : s.mode = {})
    (h : Gives (readSequence fuel first (charPart c :: parts))
      { s with rest, position := s.position + (quotedToken c).chars.length } node t) :
    Gives (readSequence (fuel + 1) first parts) s node t := by
  have hends : (decide (quotedToken c = .plain '|') || decide (quotedToken c = .plain ')')) =
      false := by
    unfold quotedToken
    cases hc : isSpecial c with
    | true => rfl
    | false =>
      simp [ne_of_not_special hc (d := '|') rfl, ne_of_not_special hc (d := ')') rfl]
  rw [readSequence]
  refine .bind (a := some (quotedToken c)) (t := s) ?_ ?_
  · unfold Reading.peek?
    refine .bind (gives_get s) ?_
    rw [hrest]
    exact .pure _ s
  · dsimp only
    rw [hends, if_neg Bool.false_ne_true]
    refine .bind (a := s.position) (t := s) (.bind (gives_get s) (.pure _ s)) ?_
    refine .bind (gives_next? hrest hdangling) (.bind (gives_get _) ?_)
    have hverbose : s.mode.verbose = false := by rw [hmode]
    have hsimple : Gives (readSimple (quotedToken c))
        { s with rest, position := s.position + (quotedToken c).chars.length } (charNode c) _ :=
      gives_readSimple hmode
    cases hc : isSpecial c with
    | true =>
      rw [quotedToken, hc] at hsimple h ⊢
      exact .bind hsimple h
    | false =>
      rw [quotedToken, hc, if_neg Bool.false_ne_true] at hsimple h ⊢
      dsimp only
      rw [hverbose, Bool.false_and, Bool.false_and, if_neg Bool.false_ne_true,
        if_neg Bool.false_ne_true, if_neg (ne_of_not_special hc rfl)]
      exact .bind (gives_readBounds? hc) (.bind hsimple h)

theorem head?_quotedToken_ne_dangling (cs : List Char) :
    (cs.map quotedToken).head? ≠ some .dangling := by
  cases cs with
  | nil => nofun
  | cons c cs => exact fun h => quotedToken_ne_dangling c (Option.some.inj h)

theorem sequenceOf_charParts (cs : List Char) :
    sequenceOf (cs.map charPart).reverse = literal cs := by
  induction cs with
  | nil => rfl
  | cons c cs ih =>
    rw [List.map_cons, List.reverse_cons, sequenceOf, List.foldl_append, ← sequenceOf, ih]
    rfl

/-- The parts of a quoted text are its characters.  Where the reader stands in the end is left
open: only complaints tell positions. -/
theorem gives_readSequence {cs : List Char} {fuel : ℕ} (first : Bool) (parts : List Part)
    (hrest : s.rest = cs.map quotedToken) (hmode : s.mode = {}) (hfuel : cs.length < fuel) :
    ∃ position, Gives (readSequence fuel first parts) s
      (sequenceOf ((cs.map charPart).reverse ++ parts)) { s with rest := [], position } := by
  induction cs generalizing fuel first parts s with
  | nil =>
    obtain ⟨fuel, rfl⟩ := Nat.exists_eq_add_one_of_ne_zero (Nat.ne_of_gt hfuel)
    obtain ⟨_, position, _⟩ := s
    cases hrest
    refine ⟨position, ?_⟩
    rw [readSequence]
    exact .bind (a := none) rfl (.pure _ _)
  | cons c cs ih =>
    obtain ⟨fuel, rfl⟩ := Nat.exists_eq_add_one_of_ne_zero (Nat.ne_of_gt (Nat.zero_lt_of_lt hfuel))
    obtain ⟨position, h⟩ := ih first (charPart c :: parts)
      (s := { s with
        rest := cs.map quotedToken
        position := s.position + (quotedToken c).chars.length })
      rfl hmode (Nat.lt_of_succ_lt_succ hfuel)
    refine ⟨position, ?_⟩
    rw [List.map_cons, List.reverse_cons, List.append_assoc, List.singleton_append]
    exact gives_readSequence_cons hrest (head?_quotedToken_ne_dangling cs) hmode h

theorem gives_readFurther (fuel : ℕ) (hrest : s.rest = []) : Gives (readFurther fuel) s [] s := by
  obtain ⟨_, _⟩ := s
  cases hrest
  cases fuel with
  | zero => exact .pure [] _
  | succ fuel =>
    rw [readFurther]
    exact .bind (a := false) rfl (.pure [] _)

/-- A reader in front of a whole pattern. -/
def start (tokens : List Token) : Reader := ⟨tokens, 0, {}, #[none], [], none, [], false⟩

theorem gives_readAlternatives (cs : List Char) (fuel : ℕ) (hfuel : cs.length < fuel) :
    ∃ position, Gives (readAlternatives (fuel + 1) true) (start (cs.map quotedToken)) (literal cs)
      { start [] with position } := by
  obtain ⟨position, h⟩ := gives_readSequence (s := start (cs.map quotedToken)) true [] rfl rfl hfuel
  rw [List.append_nil, sequenceOf_charParts] at h
  refine ⟨position, ?_⟩
  rw [readAlternatives]
  exact h.bind ((gives_readFurther fuel rfl).bind (.pure _ _))

/-- **A quoted text is read as the fixed text** that it quotes. -/
theorem read_quoted (text : String) :
    Pattern.read {} (quoted text) = .ok (fixed text.toList) := by
  have hchars : (quoted text).toList = text.toList.flatMap quotedChar := String.toList_ofList
  generalize text.toList = cs at hchars ⊢
  obtain ⟨position, h⟩ := gives_readAlternatives cs
    (4 * (cs.map quotedToken).length + 3) (by rw [List.length_map]; omega)
  have hall : Gives readAll (start (cs.map quotedToken)) ⟨literal cs, 0⟩
      { start [] with position } := by
    unfold readAll
    refine (gives_refuseDangling (head?_quotedToken_ne_dangling cs)).bind ?_
    refine Gives.bind (a := (cs.map quotedToken).length + 1) rfl (h.bind ?_)
    refine (gives_get _).bind ?_
    dsimp only [start]
    rw [widthComplaint?_literal]
    exact .pure _ _
  unfold Pattern.read
  rw [hchars, ofChars_quoted]
  change (readAll.run (start (cs.map quotedToken))).map (·.1) = _
  rw [hall]
  rfl

end PipeScript.Proofs.Pattern.Quoting
