import PipeScript.Proofs.Store.LiveWrite
import PipeScript.Proofs.Yaml.Failing

/-! # When a document cannot be read

Text that is no document of its format is taken as it is.  YAML is read by a reader that comes from
outside the language.  All that is assumed of one is when it gives a value, when it says that a text
is no document, and when it passes on the fault of a part that denotes nothing (`Assumed`).  Under
that, loading a document gives the value of a format, or the text, or such a fault; it gives the fault
exactly when the text is read as YAML and has such a part (`load_outcome`).  The reader in use is one
of this kind (`assumed_read`), and a date that is in no calendar shows it (`read_date`). -/

namespace PipeScript.Proofs.Yaml.Documents

open PipeScript.Yaml
open PipeScript.Proofs.Store.LiveWrite PipeScript.Proofs.Yaml.Failing

/-- A text is read as YAML: by its name or its look, or because it is no JSON as these say. -/
def ReadAsYaml (named : Option String) (text : String) : Prop :=
  DocumentFormat.choose? named text = some .yaml ∨
    DocumentFormat.choose? named text = some .json ∧ Json.read? true text = none

/-- What is assumed of a reader of YAML.  `Problem` says which texts break its syntax or cannot be
composed, and `Senseless` which texts have a part that has the form of a date or an integer, say, and
denotes nothing, with the fault of the first such part. -/
structure Assumed (yaml : Loader) (Problem : String → Prop) (Senseless : String → Fault → Prop) :
    Prop where
  /-- Problems of syntax and composition are told as such. -/
  malformed {text : String} : Problem text → yaml text = .error .malformed
  /-- What is raised for a part that denotes nothing is passed on. -/
  meaningless {text : String} {fault : Fault} :
    ¬ Problem text → Senseless text fault → yaml text = .error (.meaningless fault)
  /-- Every other text has a value. -/
  value {text : String} :
    ¬ Problem text → (∀ fault, ¬ Senseless text fault) → ∃ result, yaml text = .ok result

/-- The value that a document gives: that of the first format in which it has one, and the text as it
is if it has no format or is no document of its formats. -/
inductive Gives (yaml : Loader) (Problem : String → Prop) (named : Option String) (text : String) :
    Value → Prop
  | json {v : Value} (format : DocumentFormat.choose? named text = some .json)
      (value : Json.read? true text = some v) : Gives yaml Problem named text v
  | yaml {v : Shared} {number : ℕ} (format : ReadAsYaml named text)
      (value : yaml text = .ok (v, number)) : Gives yaml Problem named text v.toValue
  | problem (format : ReadAsYaml named text) (problem : Problem text) :
      Gives yaml Problem named text (.text text)
  | formless (format : DocumentFormat.choose? named text = none) :
      Gives yaml Problem named text (.text text)

/-- Every text is JSON by its format, or read as YAML, or of no format. -/
theorem format_cases (named : Option String) (text : String) :
    (∃ v, DocumentFormat.choose? named text = some .json ∧ Json.read? true text = some v) ∨
      ReadAsYaml named text ∨ DocumentFormat.choose? named text = none := by
  cases hformat : DocumentFormat.choose? named text with
  | none => exact .inr (.inr rfl)
  | some format =>
    cases format with
    | yaml => exact .inr (.inl (.inl hformat))
    | json =>
      cases hjson : Json.read? true text with
      | none => exact .inr (.inl (.inr ⟨hformat, hjson⟩))
      | some v => exact .inl ⟨v, rfl, rfl⟩

/-! ### Loading -/

section Load

variable {yaml : Loader} {named : Option String} {text : String}

theorem load_of_json {v : Value} (hformat : DocumentFormat.choose? named text = some .json)
    (hjson : Json.read? true text = some v) :
    Document.load yaml (DocumentFormat.choose? named text) text = .ok v := by
  unfold Document.load Document.readShared
  rw [hformat]
  dsimp only
  rw [hjson]
  exact congrArg Except.ok (toValue_number v 0)

/-- A text that is read as YAML gives what it has as YAML, itself if it is malformed, or a fault. -/
theorem load_of_readAsYaml (h : ReadAsYaml named text) :
    Document.load yaml (DocumentFormat.choose? named text) text =
      (Document.readYaml yaml text).map fun (value, _) => value.toValue := by
  unfold Document.load Document.readShared
  rcases h with hformat | ⟨hformat, hjson⟩
  · rw [hformat]
  · rw [hformat]
    dsimp only
    rw [hjson]

theorem load_of_none (hformat : DocumentFormat.choose? named text = none) :
    Document.load yaml (DocumentFormat.choose? named text) text = .ok (.text text) := by
  unfold Document.load Document.readShared
  rw [hformat]
  rfl

section Assumed

variable {Problem : String → Prop} {Senseless : String → Fault → Prop}
  (h : Assumed yaml Problem Senseless)
include h

/-- Three things can come of a text: it is no document, it passes a fault on, or it has a value. -/
theorem Assumed.cases (text : String) :
    (Problem text ∧ yaml text = .error .malformed) ∨
      (∃ fault, ¬ Problem text ∧ Senseless text fault ∧
        yaml text = .error (.meaningless fault)) ∨
      ∃ result, ¬ Problem text ∧ (∀ fault, ¬ Senseless text fault) ∧ yaml text = .ok result := by
  by_cases hproblem : Problem text
  · exact .inl ⟨hproblem, h.malformed hproblem⟩
  · by_cases hsense : ∃ fault, Senseless text fault
    · obtain ⟨fault, hfault⟩ := hsense
      exact .inr (.inl ⟨fault, hproblem, hfault, h.meaningless hproblem hfault⟩)
    · have hsenseless : ∀ fault, ¬ Senseless text fault :=
        fun fault hfault => hsense ⟨fault, hfault⟩
      obtain ⟨result, hresult⟩ := h.value hproblem hsenseless
      exact .inr (.inr ⟨result, hproblem, hsenseless, hresult⟩)

/-- A text gives a value, or is read as YAML and has a part that denotes nothing. -/
theorem gives_or_senseless (named : Option String) (text : String) :
    (∃ v, Gives yaml Problem named text v) ∨
      ∃ fault, ReadAsYaml named text ∧ ¬ Problem text ∧ Senseless text fault := by
  rcases format_cases named text with ⟨v, hformat, hjson⟩ | hyaml | hnone
  · exact .inl ⟨v, .json hformat hjson⟩
  · rcases h.cases text with ⟨hproblem, -⟩ | ⟨fault, hproblem, hfault, -⟩ |
      ⟨⟨v, number⟩, -, -, hread⟩
    · exact .inl ⟨.text text, .problem hyaml hproblem⟩
    · exact .inr ⟨fault, hyaml, hproblem, hfault⟩
    · exact .inl ⟨v.toValue, .yaml hyaml hread⟩
  · exact .inl ⟨.text text, .formless hnone⟩

/-- What a text gives is what is loaded. -/
theorem load_of_gives {v : Value} (hgives : Gives yaml Problem named text v) :
    Document.load yaml (DocumentFormat.choose? named text) text = .ok v := by
  cases hgives with
  | json hformat hvalue => exact load_of_json hformat hvalue
  | yaml hyaml hvalue =>
    rw [load_of_readAsYaml hyaml, Document.readYaml, hvalue]
    rfl
  | problem hyaml hproblem =>
    rw [load_of_readAsYaml hyaml, Document.readYaml, h.malformed hproblem]
    rfl
  | formless hformat => exact load_of_none hformat

/-- The fault of a part that denotes nothing comes out. -/
theorem load_of_senseless {fault : Fault} (hyaml : ReadAsYaml named text)
    (hproblem : ¬ Problem text) (hfault : Senseless text fault) :
    Document.load yaml (DocumentFormat.choose? named text) text = .error fault := by
  rw [load_of_readAsYaml hyaml, Document.readYaml, h.meaningless hproblem hfault]
  rfl

/-- **A value comes out** exactly where the text gives it. -/
theorem load_ok_iff {v : Value} :
    Document.load yaml (DocumentFormat.choose? named text) text = .ok v ↔
      Gives yaml Problem named text v := by
  refine ⟨fun hload => ?_, load_of_gives h⟩
  rcases gives_or_senseless h named text with ⟨w, hgives⟩ | ⟨fault, hyaml, hproblem, hfault⟩
  · cases hload.symm.trans (load_of_gives h hgives)
    exact hgives
  · cases hload.symm.trans (load_of_senseless h hyaml hproblem hfault)

/-- **A fault comes out** exactly where a text is read as YAML and has a part that denotes nothing. -/
theorem load_error_iff {fault : Fault} :
    Document.load yaml (DocumentFormat.choose? named text) text = .error fault ↔
      ReadAsYaml named text ∧ ¬ Problem text ∧ Senseless text fault := by
  refine ⟨fun hload => ?_, fun ⟨hyaml, hproblem, hfault⟩ =>
    load_of_senseless h hyaml hproblem hfault⟩
  rcases gives_or_senseless h named text with ⟨w, hgives⟩ | ⟨fault', hyaml, hproblem, hfault⟩
  · cases hload.symm.trans (load_of_gives h hgives)
  · cases hload.symm.trans (load_of_senseless h hyaml hproblem hfault)
    exact ⟨hyaml, hproblem, hfault⟩

end Assumed

end Load

/-! ### The reader in use -/

/-- The reader in use meets the assumptions: its problems are the failures without a fault. -/
theorem assumed_read :
    Assumed Yaml.read (Fails · .malformed) fun text fault => Fails text (.meaningless fault) where
  malformed hproblem := read_error_iff.mpr hproblem
  meaningless _ hfault := read_error_iff.mpr hfault
  value := by
    intro text hproblem hsense
    rcases hread : Yaml.read text with (_ | fault) | result
    · exact absurd (read_error_iff.mp hread) hproblem
    · exact absurd (read_error_iff.mp hread) (hsense fault)
    · exact ⟨result, rfl⟩

/-! ### Outcomes -/

/-- **The outcome of loading a document** under any name of a format, with any reader of YAML that
meets the assumptions.  A fault comes out exactly when the text is read as YAML, is a document, and
has a part that denotes nothing; it is the fault of that part.  Otherwise the value of a format comes
out, or the text itself when there is none.  So loading never fails exactly if no document has such a
part. -/
theorem load_outcome {yaml : Loader} {Problem : String → Prop} {Senseless : String → Fault → Prop}
    (h : Assumed yaml Problem Senseless) :
    (∀ named text,
      (∀ fault, Document.load yaml (DocumentFormat.choose? named text) text = .error fault ↔
        ReadAsYaml named text ∧ ¬ Problem text ∧ Senseless text fault) ∧
      ∀ v, Document.load yaml (DocumentFormat.choose? named text) text = .ok v ↔
        Gives yaml Problem named text v) ∧
    ((∀ named text, ∃ v,
        Document.load yaml (DocumentFormat.choose? named text) text = .ok v) ↔
      ∀ text fault, ¬ Problem text → ¬ Senseless text fault) := by
  refine ⟨fun named text => ⟨fun fault => load_error_iff h, fun v => load_ok_iff h⟩, ?_, ?_⟩
  · intro hall text fault hproblem hfault
    -- Asked for by its name, YAML is what every text is read as.
    have hyaml : ReadAsYaml (some "yaml") text := .inl rfl
    obtain ⟨v, hload⟩ := hall (some "yaml") text
    cases hload.symm.trans (load_of_senseless h hyaml hproblem hfault)
  · intro hsense named text
    rcases gives_or_senseless h named text with ⟨v, hgives⟩ | ⟨fault, -, hproblem, hfault⟩
    · exact ⟨v, load_of_gives h hgives⟩
    · exact absurd hfault (hsense text fault hproblem)

/-- How a text fails shows without its value. -/
theorem read_of_map {text : String} {failure : Failure}
    (h : (Yaml.read text).map (fun _ => ()) = .error failure) : Yaml.read text = .error failure := by
  cases hread : Yaml.read text with
  | ok result =>
    rw [hread] at h
    cases h
  | error other =>
    rw [hread] at h
    cases h
    rfl

/-- The form of a date, and a month that no year has. -/
def noDate : String := "2020-13-45"

theorem read_noDate : Yaml.read noDate = .error (.meaningless (.document (.calendar .month))) :=
  read_of_map (by decide +kernel)

theorem readAsYaml_noDate : ReadAsYaml none noDate ∧ ReadAsYaml (some "yaml") noDate :=
  ⟨.inl (by decide +kernel), .inl (by decide +kernel)⟩

/-- With the reader in use, the fault of a date that is in no calendar comes out, and a list that is
never closed is taken as it is. -/
theorem load_outcome_noDate :
    Assumed Yaml.read (Fails · .malformed) (fun text fault => Fails text (.meaningless fault)) ∧
      Document.load Yaml.read (DocumentFormat.choose? none noDate) noDate =
        .error (.document (.calendar .month)) ∧
      Document.load Yaml.read (DocumentFormat.choose? none "[1") "[1" = .ok (.text "[1") ∧
      ¬ ∀ named text, ∃ v,
        Document.load Yaml.read (DocumentFormat.choose? named text) text = .ok v := by
  obtain ⟨houtcome, htotal⟩ := load_outcome assumed_read
  have hfault : Fails noDate (.meaningless (.document (.calendar .month))) :=
    read_error_iff.mp read_noDate
  have hproblem : ¬ Fails noDate .malformed :=
    fun h => nomatch read_noDate.symm.trans (read_error_iff.mpr h)
  have hopen : Fails "[1" .malformed := read_error_iff.mp (read_of_map (by decide +kernel))
  have hformat : ReadAsYaml none "[1" := .inr ⟨by decide +kernel, by decide +kernel⟩
  refine ⟨assumed_read, ?_, ?_, fun hall => ?_⟩
  · exact ((houtcome none noDate).1 _).mpr ⟨readAsYaml_noDate.1, hproblem, hfault⟩
  · exact ((houtcome none "[1").2 _).mpr (.problem hformat hopen)
  · exact htotal.mp hall noDate _ hproblem hfault

/-- **A date that is in no calendar** is not left as it is, whether the format is named or
guessed. -/
theorem read_date :
    Document.read (DocumentFormat.choose? none noDate) noDate =
        .error (.document (.calendar .month)) ∧
      Document.read (DocumentFormat.choose? (some "yaml") noDate) noDate =
        .error (.document (.calendar .month)) := by
  have hread {named : Option String} (h : ReadAsYaml named noDate) :
      Document.read (DocumentFormat.choose? named noDate) noDate =
        .error (.document (.calendar .month)) := by
    rw [Document.read, load_of_readAsYaml h, Document.readYaml, read_noDate]
    rfl
  exact ⟨hread readAsYaml_noDate.1, hread readAsYaml_noDate.2⟩

end PipeScript.Proofs.Yaml.Documents
