import PipeScript.Command.TextEdit
import PipeScript.Proofs.Machine.Programs

/-! # Where a command finds its data

A command that names no variable works on its value: on what it is as JSON (`structured_value`), on
the value as it stands (`firstValue_value`), or on its text (`subjectText_value`).  Finding the data
changes nothing. -/

namespace PipeScript.Proofs.Command.Sources

open PipeScript.Proofs.Machine.Programs

/-- Finding the text to work on changes nothing. -/
theorem subjectText_snd (inv : Invocation) (m : Machine) : (Command.subjectText inv m).2 = m := by
  obtain ⟨v, hfirst⟩ : ∃ v, inv.firstValue m = (.ok v, m) := ⟨_, rfl⟩
  have hspell : (Action.spell v m).2 = m := by
    unfold Action.spell
    split <;> rfl
  unfold Command.subjectText
  rw [bind_ok m hfirst]
  split
  · rfl
  · exact hspell

theorem named_of_given? {inv : Invocation} {name : String} (h : inv.given? name = none)
    (read : String → Shared) : Store.named read (inv.argument? name) = none := by
  unfold Invocation.given? at h
  cases hargument : inv.argument? name with
  | none => rfl
  | some own =>
    rw [hargument, Option.filter_some] at h
    unfold Store.named
    split at h
    · cases h
    · next hown => exact if_pos (by simpa using hown)

/-- A text is a source of data unless it is empty. -/
theorem literalSource_text (s : String) :
    Store.literalSource (.text s) = if s = "" then none else some (.plain (.text s)) := by
  unfold Store.literalSource Value.isGiven
  by_cases hs : s = "" <;> simp [hs]

section Value

variable (inv : Invocation) (hvar : inv.given? "var" = none)
  (hglobal : inv.given? "globalvar" = none) (m : Machine)
include hvar hglobal

/-- Without a variable, the data is what the value is as JSON. -/
theorem structured_value :
    inv.structured (.text inv.value) m =
      (.ok (.plain ((Json.parse? inv.value).getD .null)), m) := by
  unfold Invocation.structured Store.structured
  simp only [named_of_given? hvar, named_of_given? hglobal, literalSource_text]
  by_cases hvalue : inv.value = ""
  · rw [if_pos hvalue, hvalue]
    rfl
  · rw [if_neg hvalue]
    rfl

/-- Without a variable, the value stands for itself. -/
theorem firstValue_value :
    inv.firstValue m = (.ok (if inv.value = "" then .null else .text inv.value), m) := by
  unfold Invocation.firstValue Store.firstValue
  simp only [named_of_given? hvar, named_of_given? hglobal, literalSource_text]
  by_cases hvalue : inv.value = ""
  · rw [if_pos hvalue, if_pos hvalue]
    rfl
  · rw [if_neg hvalue, if_neg hvalue]
    rfl

/-- Without a variable, the text to work on is the value. -/
theorem subjectText_value : Command.subjectText inv m = (.ok inv.value, m) := by
  unfold Command.subjectText
  rw [bind_ok m (firstValue_value inv hvar hglobal m)]
  by_cases hvalue : inv.value = ""
  · rw [if_pos hvalue, hvalue]
    rfl
  · rw [if_neg hvalue]
    rfl

end Value

end PipeScript.Proofs.Command.Sources
