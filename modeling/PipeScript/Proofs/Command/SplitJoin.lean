import PipeScript.Proofs.Command.Sources
import PipeScript.Proofs.Json.RoundTrip
import PipeScript.Proofs.Text.Cutting

/-! # Splitting and joining

`/split` writes the pieces of a text as a list in JSON, and `/join` reads a list and puts its texts
together.  Cut at a fixed text, with the blanks kept, and joined with the same text, every text is
what it was (`join_split`): no piece has the separator in it, and the JSON text keeps the pieces. -/

namespace PipeScript.Proofs.Command.SplitJoin

open PipeScript.Text
open PipeScript.Proofs.Machine.Programs PipeScript.Proofs.Command.Sources
open PipeScript.Proofs.Json.RoundTrip PipeScript.Proofs.Text.Cutting

/-- The text that stands for a blank in a glue. -/
def blankWord : String := "\x7b\x7bspace\x7d\x7d"

/-- A call of `/split` that cuts its value at a text and keeps the blanks. -/
structure Cuts (inv : Invocation) (separator : String) : Prop where
  find : inv.argument? "find" = some separator
  trim : inv.argument? "trim" = some "false"
  var : inv.given? "var" = none
  globalvar : inv.given? "globalvar" = none

/-- A call of `/join` that puts a text between the texts of its value. -/
structure Glues (inv : Invocation) (separator : String) : Prop where
  glue : inv.argument? "glue" = some separator
  var : inv.given? "var" = none
  globalvar : inv.given? "globalvar" = none

/-- The pieces of a text at another one; nothing separates all characters. -/
def piecesAt (separator s : String) : List String :=
  if separator = "" then s.toList.map String.singleton else cutAt separator s

/-- The list of some texts. -/
def texts (pieces : List String) : Value := .list (pieces.map .text)

/-! ### The pieces -/

theorem intercalate_piecesAt (separator s : String) :
    separator.intercalate (piecesAt separator s) = s := by
  unfold piecesAt
  split_ifs with h
  · rw [h, intercalate_singletons]
  · exact intercalate_cutAt h s

/-- A piece at nothing is a character, and a piece at a text does not have it inside. -/
theorem piece_of_mem {separator s piece : String} (h : piece ∈ piecesAt separator s) :
    if separator = "" then piece.length = 1 else ¬ separator.toList <:+: piece.toList := by
  unfold piecesAt at h
  split_ifs at h ⊢ with hempty
  · obtain ⟨c, -, rfl⟩ := List.mem_map.mp h
    exact String.length_singleton
  · exact not_infix_of_mem_cutAt hempty h

/-! ### The commands -/

/-- `/split` writes the list of the pieces. -/
theorem split_cuts {inv : Invocation} {separator : String} (h : Cuts inv separator)
    (hfixed : PatternLiteral.ofText? separator = none) (m : Machine) :
    Command.split inv m = (.ok (texts (piecesAt separator inv.value)).json, m) := by
  have hpieces : Command.pieces separator inv.value m =
      (.ok (piecesAt separator inv.value), m) := by
    unfold Command.pieces piecesAt
    rw [hfixed]
    dsimp only
    split_ifs <;> rfl
  have hkeep : saysYes "false" = false := by decide
  unfold Command.split
  rw [bind_ok m (subjectText_value inv h.var h.globalvar m), h.find, h.trim, Option.getD_some,
    Option.getD_some, bind_ok m hpieces, hkeep, if_neg Bool.false_ne_true]
  rfl

theorem lossless_texts (pieces : List String) : Lossless (texts pieces) := by
  refine .list fun item hitem => ?_
  obtain ⟨s, -, rfl⟩ := List.mem_map.mp hitem
  exact .text s

theorem itemTexts_texts (pieces : List String) : Value.itemTexts (pieces.map .text) = pieces := by
  induction pieces with
  | nil => rfl
  | cons s rest ih =>
    rw [List.map_cons, Value.itemTexts, ih]
    rfl

theorem anyLongText_texts (pieces : List String) :
    Value.anyLongText (pieces.map .text) = false := by
  induction pieces with
  | nil => rfl
  | cons s rest ih =>
    rw [List.map_cons, Value.anyLongText, ih]
    rfl

/-- `/join` puts the texts of a list in JSON together. -/
theorem join_texts {inv : Invocation} {separator : String} (h : Glues inv separator)
    (hblank : occursIn blankWord separator = false) {pieces : List String}
    (hvalue : inv.value = (texts pieces).json) (m : Machine) :
    Command.join inv m = (.ok (separator.intercalate pieces), m) := by
  have hdata : inv.structured (.text inv.value) m = (.ok (.plain (texts pieces)), m) := by
    have hread : Json.parse? inv.value = some (texts pieces) := by
      rw [hvalue]
      exact read?_render (lossless_texts pieces).settled 0
    rw [structured_value inv h.var h.globalvar, hread]
    rfl
  have hshort : (Value.list (pieces.map .text)).hasLongText = false := anyLongText_texts pieces
  have hglue : replaceEvery blankWord " " separator = separator :=
    replaceEvery_of_absent hblank " "
  unfold blankWord at hglue
  unfold Command.join
  rw [bind_ok m hdata, Shared.toValue, texts]
  dsimp only
  rw [hshort, if_neg Bool.false_ne_true, h.glue, Option.getD_some, hglue, itemTexts_texts]
  rfl

/-- **Joining undoes splitting**, for every separator that is not written between slashes and in
which no blank is put: `/split` answers the list of the pieces, none of which has the separator in
it, or of the characters, if nothing separates; and on that answer `/join` with the same text gives
the text that was split.  Neither changes anything. -/
theorem join_split {separator : String} (hfixed : PatternLiteral.ofText? separator = none)
    (hblank : occursIn blankWord separator = false) {cut : Invocation} (hcut : Cuts cut separator)
    (m : Machine) :
    ∃ pieces : List String, Command.split cut m = (.ok (texts pieces).json, m) ∧
      (∀ piece ∈ pieces,
        if separator = "" then piece.length = 1 else ¬ separator.toList <:+: piece.toList) ∧
      ∀ (glue : Invocation), Glues glue separator → glue.value = (texts pieces).json →
        ∀ m', Command.join glue m' = (.ok cut.value, m') := by
  refine ⟨piecesAt separator cut.value, split_cuts hcut hfixed m, fun _ => piece_of_mem, ?_⟩
  intro glue hglue hvalue m'
  rw [join_texts hglue hblank hvalue m', intercalate_piecesAt]

/-- A call that cuts where the separator overlaps itself and stands at both ends. -/
def overlapping : Invocation := ⟨[("find", "aa"), ("trim", "false")], "aaaXaa", ""⟩

theorem join_split_overlapping :
    PatternLiteral.ofText? "aa" = none ∧ occursIn blankWord "aa" = false ∧ Cuts overlapping "aa" ∧
      ∃ pieces : List String,
        Command.split overlapping (.start .empty .empty 64) =
          (.ok (texts pieces).json, .start .empty .empty 64) ∧
        (∀ piece ∈ pieces, ¬ "aa".toList <:+: piece.toList) ∧
        Command.join ⟨[("glue", "aa")], (texts pieces).json, ""⟩ (.start .empty .empty 64) =
          (.ok "aaaXaa", .start .empty .empty 64) := by
  have hfixed : PatternLiteral.ofText? "aa" = none := by decide
  have hblank : occursIn blankWord "aa" = false := by decide
  have hcut : Cuts overlapping "aa" := ⟨rfl, rfl, rfl, rfl⟩
  obtain ⟨pieces, hsplit, hfree, hjoin⟩ :=
    join_split hfixed hblank hcut (.start .empty .empty 64)
  exact ⟨hfixed, hblank, hcut, pieces, hsplit, hfree,
    hjoin ⟨[("glue", "aa")], (texts pieces).json, ""⟩ ⟨rfl, rfl, rfl⟩ rfl _⟩

end PipeScript.Proofs.Command.SplitJoin
