import PipeScript.Proofs.Command.Sources
import PipeScript.Proofs.Pattern.Quoting
import PipeScript.Proofs.Pattern.Substitution

/-! # Replacing a fixed text

`/replace` looks for a text without slashes by the pattern that quotes it, so no character of it has
a meaning.  It puts the replacement in the place of the first occurrence (`replace_fixedText`); there
are no groups, so a dollar sign before digits is copied (`expand_of_no_groups`). -/

namespace PipeScript.Proofs.Command.FirstOccurrence

open PipeScript.Text PipeScript.Pattern
open PipeScript.Proofs.Machine.Programs PipeScript.Proofs.Command.Sources
open PipeScript.Proofs.Pattern.FixedText PipeScript.Proofs.Pattern.Quoting
open PipeScript.Proofs.Pattern.Substitution

/-! ### Replacement texts without groups -/

/-- What a replacement text stands for in the place of a fixed text. -/
def inPlaceOf (find before after : List Char) : List Char → List Char
  | [] => []
  | '$' :: '$' :: rest => '$' :: inPlaceOf find before after rest
  | '$' :: '&' :: rest => find ++ inPlaceOf find before after rest
  | '$' :: '\x60' :: rest => before ++ inPlaceOf find before after rest
  | '$' :: '\'' :: rest => after ++ inPlaceOf find before after rest
  | c :: rest => c :: inPlaceOf find before after rest

theorem not_names_zero (digits : List Char) : ¬ Names 0 digits :=
  fun h => Nat.not_lt_of_le h.2 h.1

theorem expand_of_no_groups (before find after replacement : List Char) :
    (⟨before, find, after, []⟩ : Occurrence).expand replacement =
      inPlaceOf find before after replacement := by
  fun_induction inPlaceOf find before after replacement with
  | case1 => rfl
  | case2 rest ih | case3 rest ih | case4 rest ih | case5 rest ih =>
    rw [expand_dollar, ← ih]
    rfl
  | case6 c rest h₁ h₂ h₃ h₄ ih =>
    by_cases hc : c = '$'
    · rcases rest with _ | ⟨d, rest⟩
      · rw [hc]
        rfl
      · have hmark : ¬ IsMark d := by
          rintro (rfl | rfl | rfl | rfl)
          · exact h₁ _ hc rfl
          · exact h₂ _ hc rfl
          · exact h₃ _ hc rfl
          · exact h₄ _ hc rfl
        rw [expand_cons _ (ne_dollar_of_not_mark hmark)] at ih
        rw [hc, ← ih]
        cases hd : isDigit d with
        | true => exact expand_unnamed hd (not_names_zero _)
        | false => exact (expand_not_digit hmark hd rest).1
    · rw [expand_cons _ hc, ih]

/-! ### The command -/

/-- The command replaces with the pattern that the fixed text is. -/
theorem replace_eq_fixed {inv : Invocation} {find : String} (hfind : inv.given? "find" = some find)
    (hfixed : PatternLiteral.ofText? find = none) {m : Machine} {target : String}
    (htarget : (Command.subjectText inv m).1 = .ok target) :
    Command.replace false inv m =
      (.ok (String.ofList ((fixed find.toList).replace false
        ((inv.argument? "replace").getD "").toList target.toList)), m) := by
  have hsubject : Command.subjectText inv m = (.ok target, m) :=
    Prod.ext htarget (subjectText_snd inv m)
  unfold Command.replace
  rw [hfind]
  dsimp only
  rw [bind_ok m hsubject, hfixed]
  dsimp only
  rw [if_neg Bool.false_ne_true]
  unfold Command.readPattern
  rw [read_quoted]
  rfl

/-- **`/replace` of a fixed text**, which is any text that is not written between slashes.  Where it
does not occur in the text to work on, that text is the result; where it does, the replacement takes
the place of its first occurrence and all else stays.  In the replacement `$$`, `$&`, `` $` `` and
`$'` have a meaning, and all else is copied. -/
theorem replace_fixedText {inv : Invocation} {find : String} (hfind : inv.given? "find" = some find)
    (hfixed : PatternLiteral.ofText? find = none) {m : Machine} {target : String}
    (htarget : (Command.subjectText inv m).1 = .ok target) :
    (¬ find.toList <:+: target.toList → Command.replace false inv m = (.ok target, m)) ∧
      (find.toList <:+: target.toList →
        ∃ before after, FirstIn find.toList target.toList before after ∧
          Command.replace false inv m =
            (.ok (String.ofList (before ++ inPlaceOf find.toList before after
              ((inv.argument? "replace").getD "").toList ++ after)), m)) := by
  rw [replace_eq_fixed hfind hfixed htarget]
  rcases replace_fixed find.toList ((inv.argument? "replace").getD "").toList target.toList with
    ⟨hnowhere, htext⟩ | ⟨before, after, hfirst, htext⟩
  · refine ⟨fun _ => ?_, fun h => absurd h hnowhere⟩
    rw [htext, String.ofList_toList]
  · refine ⟨fun h => absurd ⟨before, after, hfirst.eq.symm⟩ h, fun _ => ⟨before, after, hfirst, ?_⟩⟩
    rw [htext, expand_of_no_groups]

/-- A call that looks for a text with a dot in it. -/
def dotted : Invocation :=
  ⟨[("find", "a.c"), ("replace", "[$&|$\x60|$'|$$|$1]")], "xabca.c+a.c", ""⟩

/-- A machine without variables. -/
def resting : Machine := Machine.start (Store.ofEntries [] []) Registry.empty 64

theorem replace_fixedText_dotted :
    dotted.given? "find" = some "a.c" ∧ PatternLiteral.ofText? "a.c" = none ∧
      (Command.subjectText dotted resting).1 = .ok "xabca.c+a.c" ∧
      Command.replace false dotted resting = (.ok "xabc[a.c|xabc|+a.c|$|$1]+a.c", resting) := by
  have hfind : dotted.given? "find" = some "a.c" := by decide
  have hfixed : PatternLiteral.ofText? "a.c" = none := by decide
  have htarget : (Command.subjectText dotted resting).1 = .ok "xabca.c+a.c" :=
    congrArg Prod.fst (subjectText_value dotted (by decide) (by decide) resting)
  have hfirst : FirstIn "a.c".toList "xabca.c+a.c".toList "xabc".toList "+a.c".toList :=
    ((((FirstIn.here "a.c".toList "+a.c".toList).cons (by decide)).cons (by decide)).cons
      (by decide)).cons (by decide)
  obtain ⟨before, after, hoccurs, hresult⟩ := (replace_fixedText hfind hfixed htarget).2
    ⟨"xabc".toList, "+a.c".toList, rfl⟩
  obtain ⟨rfl, rfl⟩ := hfirst.unique hoccurs
  exact ⟨hfind, hfixed, htarget, hresult⟩

end PipeScript.Proofs.Command.FirstOccurrence
