import PipeScript.Proofs.Pipeline.Decomposition

/-! # Unterminated arguments

A value that starts like an argument with a quote or an opening bracket is refused as an argument
that is not closed.  The refusal is right where the arguments were read up to the value: no group
stands there, so what follows the equals sign begins with no closed literal (`not_closed_of_fit`),
and a segment is refused in this way only for a literal that is open (`open_of_unclosed`).

The arguments are read up to the value if only gaps stand in front of it (`Reached`).  The value is
freed of *blanks*, and the separators U+001C to U+001F are blanks and no gaps: behind one of them a
closed literal is refused as well (`refuses_closed_literal`). -/

namespace PipeScript.Proofs.Pipeline.Unclosed

open PipeScript.Pipeline PipeScript.Text
open PipeScript.Proofs.Text.Strip PipeScript.Proofs.Pipeline.Rendering
open PipeScript.Proofs.Pipeline.Literals PipeScript.Proofs.Pipeline.Grammar
open PipeScript.Proofs.Pipeline.Decomposition

/-- A literal that ends by itself: a quoted text with both its quotes, or a bracketed text in which
the brackets nest, up to the bracket that closes the first. -/
inductive Closed : List Char → Prop where
  | quoted {body : List Char} (h : QuotedBody body) : Closed ('"' :: (body ++ ['"']))
  | bracketed {opening closing : Char} {inside : List Char} (hpair : BracketPair opening closing)
      (h : Balanced inside) : Closed (opening :: (inside ++ [closing]))

/-- Reading arguments comes as far as the value: the blanks in front of it are gaps. -/
def Reached (tail : List Char) : Prop := ∀ c ∈ tail.takeWhile isBlank, isGap c = true

/-- A closed literal is one whatever follows it. -/
theorem Closed.isLiteral {literal : List Char} (h : Closed literal) (rest : List Char) :
    IsLiteral literal rest := by
  cases h with
  | quoted hbody => exact .quoted hbody
  | bracketed hpair hinside => exact .bracketed hpair hinside

/-- Behind all the groups there is none. -/
theorem noGroup_of_fitAll {groups : List Group} {tail : List Char} (h : FitAll groups tail) :
    NoGroup tail := by
  induction groups with
  | nil => exact h
  | cons g groups ih => exact ih h.2

/-- Where gaps, a key, an equals sign and a closed literal stand, there is a group. -/
theorem not_noGroup {gap key literal : List Char} (hgap : ∀ c ∈ gap, isGap c = true)
    (hkey : IsKey key) (hclosed : Closed literal) (rest : List Char) :
    ¬ NoGroup (gap ++ (key ++ '=' :: (literal ++ rest))) := by
  intro hnone
  have hfits : Group.Fits ⟨gap, key, literal⟩ rest := ⟨hgap, hkey, hclosed.isLiteral rest⟩
  exact hnone _ rest hfits (Group.source_append ⟨gap, key, literal⟩ rest).symm

/-- In a segment whose blanks are all gaps, the arguments are read as far as the value. -/
theorem reached_of_source {p : Parts} (h : ∀ c ∈ p.source, isBlank c = true → isGap c = true) :
    Reached p.tail := by
  intro c hc
  have htail : c ∈ p.tail := (List.takeWhile_sublist isBlank).subset hc
  have hsource : c ∈ p.source :=
    List.mem_cons_of_mem _ (List.mem_append_right _ (List.mem_append_right _ htail))
  exact h c hsource (List.mem_takeWhile_imp hc)

/-- **A value that is reached opens its literal and does not close it.** -/
theorem not_closed_of_fit {p : Parts} {key rest : List Char} (hfit : p.Fit)
    (hreached : Reached p.tail) (hkey : IsKey key) (hvalue : p.value = key ++ '=' :: rest) :
    ∀ literal after, Closed literal → rest ≠ literal ++ after := by
  rintro literal after hclosed rfl
  obtain ⟨right, htail, -⟩ := exists_behind_stripChars p.tail
  have hform : p.tail = p.tail.takeWhile isBlank ++ (key ++ '=' :: (literal ++ (after ++ right))) := by
    calc p.tail = p.tail.takeWhile isBlank ++ p.value ++ right := htail
      _ = _ := by simp [hvalue]
  have hnone : NoGroup p.tail := noGroup_of_fitAll hfit.groups
  rw [hform] at hnone
  exact not_noGroup hreached hkey hclosed _ hnone

/-- **An argument that is refused as unterminated is open**, if its key is reached: the segment is
cut into a name, arguments and a value, the value starts with a key, an equals sign and the opener,
and no closed literal starts at that opener. -/
theorem open_of_unclosed {segment shown : String} {opener : Char}
    (h : call segment = .error (.unclosed opener shown)) :
    ∃ p key rest, Parts.Fit p ∧ stripChars segment.toList = p.source ∧
      shown = String.ofList p.source ∧ IsKey key ∧ opener ∈ openers ∧
      p.value = key ++ '=' :: opener :: rest ∧
      (Reached p.tail → ∀ literal after, Closed literal → opener :: rest ≠ literal ++ after) := by
  have hrefused := call_eq_error_iff.mp h
  generalize heq : stripChars segment.toList = chars at hrefused
  cases hrefused with
  | @unclosed p _ hfit hopens =>
    obtain ⟨key, rest, hkey, hopener, hvalue⟩ := hopens
    exact ⟨p, key, rest, hfit, rfl, rfl, hkey, hopener, hvalue,
      fun hreached => not_closed_of_fit hfit hreached hkey hvalue⟩

/-- A segment in which a bracket is open behind an argument that is closed. -/
def openBracket : String := "/n a=\"b\" c=[\"]\""

/-- Its arguments are read as far as the value, and no closed literal starts at the bracket. -/
theorem open_of_unclosed_bracket :
    call openBracket = .error (.unclosed '[' openBracket) ∧
      ∃ p key rest, Parts.Fit p ∧ stripChars openBracket.toList = p.source ∧ IsKey key ∧
        p.value = key ++ '=' :: '[' :: rest ∧ Reached p.tail ∧
        ∀ literal after, Closed literal → '[' :: rest ≠ literal ++ after := by
  have hcall : call openBracket = .error (.unclosed '[' openBracket) := by decide
  have hall : (stripChars openBracket.toList).all (fun c => isGap c || !isBlank c) = true := by
    decide +kernel
  have hblanks : ∀ c ∈ stripChars openBracket.toList, isBlank c = true → isGap c = true := by
    intro c hc hblank
    simpa [hblank] using List.all_eq_true.mp hall c hc
  obtain ⟨p, key, rest, hfit, hsource, -, hkey, -, hvalue, hopen⟩ := open_of_unclosed hcall
  rw [hsource] at hblanks
  have hreached : Reached p.tail := reached_of_source hblanks
  exact ⟨hcall, p, key, rest, hfit, hsource, hkey, hvalue, hreached, hopen hreached⟩

/-- **A closed literal is refused behind a separator**: U+001C is no gap, so no argument is read
there, and it is a blank, so the value begins behind it. -/
theorem refuses_closed_literal :
    call "/echo \x1ckey=\"abc\"" = .error (.unclosed '"' "/echo \x1ckey=\"abc\"") ∧
      ∃ p literal, Parts.Fit p ∧ stripChars "/echo \x1ckey=\"abc\"".toList = p.source ∧
        p.value = "key".toList ++ '=' :: literal ∧ Closed literal := by
  have hnone : NoGroup " \x1ckey=\"abc\"".toList := readArgument?_eq_none_iff.mp (by decide)
  have hbody : QuotedBody "abc".toList :=
    .plain (by decide) (by decide) (.plain (by decide) (by decide)
      (.plain (by decide) (by decide) .nil))
  have hsolid : ∀ c ∈ "echo".toList, isGap c = false := fun c hc =>
    (name_solid_of_all (by decide : "echo".toList.all _ = true) c hc).2
  have hgap : ∀ c ∈ (" \x1ckey=\"abc\"".toList).head?, isGap c = true := by
    rintro c ⟨⟩
    decide
  exact ⟨by decide, ⟨"echo".toList, [], " \x1ckey=\"abc\"".toList⟩, _,
    ⟨List.cons_ne_nil _ _, hsolid, hgap, hnone⟩, by decide, by decide, .quoted hbody⟩

end PipeScript.Proofs.Pipeline.Unclosed
