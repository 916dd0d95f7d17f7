import PipeScript.Yaml.BlockText
import PipeScript.Yaml.FlowText
import Mathlib.Data.List.Infix
import Mathlib.Data.List.TakeWhile
import Mathlib.Data.Nat.Notation
import Mathlib.Tactic.SplitIfs

/-! # What stops the scanning of a text

A scan starts somewhere in the text and ends there too (`Within`).  It fails for the form of the
text, or for one of two things that stand in the text: an escape for a code point beyond the last
one, and a number of more digits than may be read (`Beyond`).  The same holds of every way to read
labels, quoted texts and block texts (`Scans`). -/

namespace PipeScript.Proofs.Yaml.Scanning

open PipeScript.Text PipeScript.Yaml

/-- What a text holds that has the form of a document and denotes nothing. -/
inductive Beyond (cs : List Char) : Fault → Prop
  /-- An escape for a code point beyond the last one. -/
  | escape {x : Char} {digits : List Char} {code : ℕ} (width : escapeWidth? x = some digits.length)
      (value : radixValue? 16 digits = some code) (large : 0x10FFFF < code)
      (stands : '\\' :: x :: digits <:+: cs) : Beyond cs (.document (.codePoint code))
  /-- More digits than a number may have. -/
  | number {digits : List Char} (all : ∀ c ∈ digits, isAsciiDigit c = true)
      (long : integerDigitLimit < digits.length) (stands : digits <:+: cs) :
      Beyond cs (.digitLimit (some digits.length))

/-- A scan of a text: what it gives is good, and what stops it stands in the text. -/
structure Scans {α : Type} (cs : List Char) (Good : α → Prop) (result : Except Failure α) :
    Prop where
  good : ∀ {x}, result = .ok x → Good x
  beyond : ∀ {fault}, result = .error (.meaningless fault) → Beyond cs fault

/-- A place in a text. -/
def Within (cs : List Char) (c : Cursor) : Prop := c.rest <:+ cs

section Combinators

variable {α β : Type} {cs : List Char} {Good : α → Prop} {Good' : β → Prop}

theorem scans_ok {x : α} (h : Good x) : Scans cs Good (.ok x) := by
  refine ⟨fun heq => ?_, fun heq => (nomatch heq)⟩
  cases heq
  exact h

theorem scans_malformed : Scans cs Good (.error .malformed) :=
  ⟨fun heq => (nomatch heq), fun heq => (nomatch heq)⟩

/-- **One scan after another.** -/
theorem scans_bind {result : Except Failure α} {f : α → Except Failure β} (h : Scans cs Good result)
    (hf : ∀ x, Good x → Scans cs Good' (f x)) : Scans cs Good' (result >>= f) := by
  cases result with
  | ok x => exact hf x (h.good rfl)
  | error failure =>
    refine ⟨fun heq => (nomatch heq), fun heq => ?_⟩
    cases heq
    exact h.beyond rfl

/-- Either of two scans. -/
theorem scans_ite {p : Prop} [Decidable p] {first second : Except Failure α}
    (h : Scans cs Good first) (h' : Scans cs Good second) :
    Scans cs Good (if p then first else second) := by
  split_ifs
  · exact h
  · exact h'

end Combinators

/-! ### Places -/

section Places

variable {cs : List Char} {c : Cursor}

theorem rest_next (c : Cursor) : c.next.rest = c.rest.tail := by
  unfold Cursor.next
  split
  · next hrest => rw [hrest]; rfl
  · next hrest =>
    rw [hrest]
    split_ifs <;> rfl

theorem rest_forward (n : ℕ) (c : Cursor) : (c.forward n).rest = c.rest.drop n := by
  induction n generalizing c with
  | zero => rfl
  | succ n ih => rw [Cursor.forward, ih, rest_next, List.drop_tail]

theorem Within.next (h : Within cs c) : Within cs c.next := by
  unfold Within
  rw [rest_next]
  exact (List.tail_suffix c.rest).trans h

theorem Within.forward (h : Within cs c) (n : ℕ) : Within cs (c.forward n) := by
  unfold Within
  rw [rest_forward]
  exact (List.drop_suffix n c.rest).trans h

theorem Within.span (h : Within cs c) (p : Char → Bool) : Within cs (c.span p).2 :=
  h.forward _

theorem Within.skip (h : Within cs c) (p : Char → Bool) : Within cs (c.skip p) :=
  h.span p

theorem Within.indentTo (h : Within cs c) (column : ℕ) : Within cs (c.indentTo column) :=
  h.forward _

theorem Within.skipComment (h : Within cs c) : Within cs c.skipComment := by
  unfold Cursor.skipComment
  split_ifs
  · exact h.skip _
  · exact h

theorem Within.takeBreak? (h : Within cs c) {lineEnd : Char} {after : Cursor}
    (hbreak : c.takeBreak? = some (lineEnd, after)) : Within cs after := by
  unfold Cursor.takeBreak? at hbreak
  split at hbreak
  · cases hbreak
    exact h.forward 2
  · split_ifs at hbreak
    · cases hbreak
      exact h.next
    · cases hbreak
      exact h.next
  · cases hbreak

theorem Within.skipBreak (h : Within cs c) : Within cs c.skipBreak := by
  unfold Cursor.skipBreak
  cases hbreak : c.takeBreak? with
  | none => exact h
  | some result => exact h.takeBreak? hbreak

end Places

/-! ### Labels -/

section Labels

variable {cs : List Char} {c : Cursor} (h : Within cs c)
include h

theorem scans_name : Scans cs (fun r => Within cs r.2) (scanName c) := by
  unfold scanName
  dsimp only
  split_ifs
  · exact scans_malformed
  · exact scans_ok (h.span isNameChar)

omit h in
theorem scans_tagChars (fuel : ℕ) (h : Within cs c) :
    Scans cs (fun r => Within cs r.2) (scanTagChars fuel c) := by
  induction fuel generalizing c with
  | zero => exact scans_malformed
  | succ fuel ih =>
    unfold scanTagChars
    dsimp only
    have hrun := h.span isTagChar
    split_ifs
    · split
      · split
        · exact scans_bind (ih (hrun.forward _)) fun _ hmore => scans_ok hmore
        · exact scans_malformed
      · exact scans_malformed
    · exact scans_ok hrun

theorem scans_tagText : Scans cs (fun r => Within cs r.2) (scanTagText c) := by
  unfold scanTagText
  split_ifs
  · exact scans_bind (scans_tagChars _ h) fun _ htext => scans_ok htext
  · exact scans_malformed

theorem scans_handle : Scans cs (fun r => Within cs r.2) (scanHandle c) := by
  unfold scanHandle
  dsimp only
  split_ifs
  · exact scans_malformed
  · exact scans_ok h.next
  · exact scans_ok (h.next.span isNameChar).next
  · exact scans_malformed

theorem scans_wholeTag : Scans cs (fun r => Within cs r.2) (scanWholeTag c) := by
  unfold scanWholeTag
  refine scans_bind (scans_tagText h) ?_
  rintro ⟨suffix, after⟩ hafter
  dsimp only
  split_ifs
  · exact scans_ok hafter.next
  · exact scans_malformed

theorem scans_shortTag : Scans cs (fun r => Within cs r.2) (scanShortTag c) := by
  have hmark : Scans cs (fun r : String × Cursor => Within cs r.2) (.ok ("!", c.next)) :=
    scans_ok h.next
  unfold scanShortTag
  dsimp only
  split_ifs
  · exact scans_bind (scans_handle h) fun _ hbehind =>
      scans_bind (scans_tagText hbehind) fun _ hsuffix => scans_ok hsuffix
  · exact scans_bind hmark fun _ hbehind =>
      scans_bind (scans_tagText hbehind) fun _ hsuffix => scans_ok hsuffix

theorem scans_tag : Scans cs (fun r => Within cs r.2) (scanTag c) := by
  have hend : ∀ r : WrittenTag × Cursor, Within cs r.2 → Scans cs (fun r => Within cs r.2)
      (if endsWord r.2.peek? then .ok r else .error .malformed) := by
    intro r hr
    split_ifs
    · exact scans_ok hr
    · exact scans_malformed
  unfold scanTag
  dsimp only
  split_ifs
  · exact scans_bind (scans_wholeTag (h.forward 2)) hend
  · exact hend (⟨none, "!"⟩, c.next) h.next
  · exact scans_bind (scans_shortTag h) hend

theorem scans_lineRest : Scans cs (Within cs) (scanLineRest c) := by
  unfold scanLineRest
  dsimp only
  split_ifs
  · exact scans_ok (h.skip _).skipComment.skipBreak
  · exact scans_malformed

/-- A part of a version may have too many digits. -/
theorem scans_versionPart : Scans cs (fun r => Within cs r.2) (scanVersionPart c) := by
  unfold scanVersionPart
  dsimp only
  split_ifs with hempty hlong
  · exact scans_malformed
  · refine ⟨fun heq => (nomatch heq), fun heq => ?_⟩
    cases heq
    refine .number (fun x hx => List.mem_takeWhile_imp hx) hlong ?_
    exact (List.takeWhile_prefix isAsciiDigit).isInfix.trans h.isInfix
  · exact scans_ok (h.span isAsciiDigit)

theorem scans_version : Scans cs (fun r => Within cs r.2) (scanVersion c) := by
  unfold scanVersion
  refine scans_bind (scans_versionPart (h.skip _)) ?_
  rintro ⟨major, behind⟩ hbehind
  dsimp only
  split_ifs
  · exact scans_malformed
  · refine scans_bind (scans_versionPart hbehind.next) ?_
    rintro ⟨minor, after⟩ hafter
    dsimp only
    split_ifs
    · exact scans_ok hafter
    · exact scans_malformed

theorem scans_shorthand : Scans cs (fun r => Within cs r.2) (scanShorthand c) := by
  unfold scanShorthand
  refine scans_bind (scans_handle (h.skip _)) ?_
  rintro ⟨handle, behind⟩ hbehind
  dsimp only
  split_ifs
  · exact scans_malformed
  · refine scans_bind (scans_tagText (hbehind.skip _)) ?_
    rintro ⟨expansion, after⟩ hafter
    dsimp only
    split_ifs
    · exact scans_ok hafter
    · exact scans_malformed

theorem scans_directive : Scans cs (fun r => Within cs r.2) (scanDirective c) := by
  have hname := h.span isNameChar
  unfold scanDirective
  dsimp only
  split_ifs
  · exact scans_malformed
  · exact scans_bind (scans_version hname) fun _ hbehind =>
      scans_bind (scans_lineRest hbehind) fun _ hrest => scans_ok hrest
  · exact scans_bind (scans_shorthand hname) fun _ hbehind =>
      scans_bind (scans_lineRest hbehind) fun _ hrest => scans_ok hrest
  · exact scans_bind (scans_ok (hname.skip _)) fun _ hbehind =>
      scans_bind (scans_lineRest hbehind) fun _ hrest => scans_ok hrest

end Labels

/-! ### Quoted and plain text -/

section Texts

variable {cs : List Char}

theorem scans_emptyLines (fuel : ℕ) {c : Cursor} (h : Within cs c) :
    Scans cs (fun r => Within cs r.2) (scanEmptyLines fuel c) := by
  induction fuel generalizing c with
  | zero => exact scans_malformed
  | succ fuel ih =>
    unfold scanEmptyLines
    split_ifs
    · exact scans_malformed
    · split
      · next lineEnd after hbreak =>
        exact scans_bind (ih ((h.skip isSpaceOrTab).takeBreak? hbreak)) fun _ hmore =>
          scans_ok hmore
      · exact scans_ok (h.skip isSpaceOrTab)

theorem scans_quotedGap {c : Cursor} (h : Within cs c) :
    Scans cs (fun r => Within cs r.2) (scanQuotedGap c) := by
  have hblanks := h.span isSpaceOrTab
  unfold scanQuotedGap
  dsimp only
  split
  · next lineEnd after hbreak =>
    exact scans_bind (scans_emptyLines _ (hblanks.takeBreak? hbreak)) fun _ hmore => scans_ok hmore
  · exact scans_ok hblanks

/-- An escape may be one for a code point beyond the last one. -/
theorem scans_escape {c : Cursor} (h : '\\' :: c.rest <:+ cs) :
    Scans cs (fun r => Within cs r.2) (scanEscape c) := by
  have hwithin : Within cs c := (List.suffix_cons _ _).trans h
  unfold scanEscape
  cases hpeek : c.peek? with
  | none => exact scans_malformed
  | some x =>
    dsimp only
    split
    · exact scans_ok hwithin.next
    · next width hnamed hwidth =>
      split
      · next code hcode =>
        split_ifs with hshort
        · exact scans_malformed
        · obtain ⟨rest, hrest⟩ : ∃ rest, c.rest = x :: rest := List.head?_eq_some_iff.mp hpeek
          have hnext : c.next.rest = rest := by rw [rest_next, hrest]; rfl
          have hlength : (rest.take width).length = width := by
            rw [hnext] at hshort
            have hle : (rest.take width).length ≤ width := List.length_take_le _ _
            omega
          have hstands : '\\' :: x :: rest.take width <:+: cs := by
            rw [hrest] at h
            have hfront : '\\' :: x :: rest.take width <+: '\\' :: x :: rest :=
              (List.prefix_append_right_inj ['\\', x]).mpr (List.take_prefix width rest)
            exact hfront.isInfix.trans h.isInfix
          rw [hnext] at hcode
          rw [← hlength] at hwidth
          have hcharacter : Scans cs (fun _ => True) (characterOf code) := by
            unfold characterOf
            split_ifs with hlarge
            · refine ⟨fun heq => (nomatch heq), fun heq => ?_⟩
              cases heq
              exact .escape hwidth hcode hlarge hstands
            · exact scans_ok trivial
            · exact scans_ok trivial
          exact scans_bind hcharacter fun _ _ => scans_ok (hwithin.next.forward width)
      · exact scans_malformed
    · split
      · next lineEnd after hbreak => exact scans_emptyLines _ (hwithin.takeBreak? hbreak)
      · exact scans_malformed

/-- **A quoted text** stops at an escape beyond the last code point, or is malformed. -/
theorem scans_quoted (quote : Char) (fuel : ℕ) {c : Cursor} (h : Within cs c) :
    Scans cs (fun r => Within cs r.2) (scanQuoted quote fuel c) := by
  induction fuel generalizing c with
  | zero => exact scans_malformed
  | succ fuel ih =>
    unfold scanQuoted
    split
    · exact scans_malformed
    · next x rest hrest =>
      have hmore : ∀ r : List Char × Cursor, Within cs r.2 → Scans cs (fun r => Within cs r.2)
          (scanQuoted quote fuel r.2 >>= fun more => .ok (r.1 ++ more.1, more.2)) := fun r hr =>
        scans_bind (ih hr) fun _ hafter => scans_ok hafter
      have hsingle : Scans cs (fun r : List Char × Cursor => Within cs r.2) (.ok ([x], c.next)) :=
        scans_ok h.next
      dsimp only
      split_ifs with hquote hdouble hescape hgap
      · exact scans_bind (ih (h.forward 2)) fun _ hafter => scans_ok hafter
      · exact scans_ok h.next
      · rw [Bool.and_eq_true, beq_iff_eq, beq_iff_eq] at hescape
        have hstands : '\\' :: c.next.rest <:+ cs := by
          rw [rest_next, hrest, List.tail_cons, ← hescape.2, ← hrest]
          exact h
        exact scans_bind (scans_escape hstands) hmore
      · exact scans_bind (scans_quotedGap h) hmore
      · exact scans_bind hsingle hmore

theorem within_plainEmptyLines (fuel : ℕ) {c : Cursor} (h : Within cs c) :
    Within cs (plainEmptyLines fuel c).2 := by
  induction fuel generalizing c with
  | zero => exact h
  | succ fuel ih =>
    unfold plainEmptyLines
    split
    · exact h.skip _
    · next lineEnd after hbreak =>
      have hafter := (h.skip (· == ' ')).takeBreak? hbreak
      split_ifs
      · exact hafter
      · exact ih hafter

theorem within_plainGap {c : Cursor} (h : Within cs c) : Within cs (plainGap c).after := by
  have hspaces := h.span (· == ' ')
  unfold plainGap
  dsimp only
  split
  · exact hspaces
  · next lineEnd after hbreak =>
    have hafter := hspaces.takeBreak? hbreak
    split_ifs
    · exact hafter
    · exact within_plainEmptyLines _ hafter

theorem within_plainText (inFlow : Bool) (indent fuel : ℕ) (crossed : Bool) {c : Cursor}
    (h : Within cs c) : Within cs (plainText inFlow indent fuel crossed c).after := by
  induction fuel generalizing c crossed with
  | zero => exact h
  | succ fuel ih =>
    have hgap := within_plainGap (h.forward (plainLength inFlow c.rest))
    unfold plainText
    split
    · exact h
    · dsimp only
      split
      · exact hgap
      · split_ifs
        · exact hgap
        · exact ih _ hgap
        · exact ih _ hgap

end Texts

/-! ### Block text -/

section Blocks

variable {cs : List Char}

theorem within_takeMeaning {α : Type} (meaning? : Char → Option α) {c : Cursor} (h : Within cs c) :
    Within cs (takeMeaning meaning? c).2 := by
  unfold takeMeaning
  split
  · exact h.next
  · exact h

theorem scans_blockHeader {c : Cursor} (h : Within cs c) :
    Scans cs (fun r => Within cs r.2) (scanBlockHeader c) := by
  have hboth := within_takeMeaning increment? (within_takeMeaning chomping? h)
  have hend : ∀ (chomping : Option Chomping) (increment : Option ℕ) (after : Cursor),
      Within cs after → Scans cs (fun r : BlockHeader × Cursor => Within cs r.2)
        (if increment == some 0 || !endsWord after.peek? then .error .malformed
          else do return (⟨chomping.getD .clip, increment⟩, ← scanLineRest after)) := by
    intro chomping increment after hafter
    split_ifs
    · exact scans_malformed
    · exact scans_bind (scans_lineRest hafter) fun _ hrest => scans_ok hrest
  unfold scanBlockHeader
  dsimp only
  split
  · exact hend _ _ _ (within_takeMeaning chomping? hboth)
  · exact hend _ _ _ hboth

theorem within_blockEmptyLines (indent fuel : ℕ) {c : Cursor} (h : Within cs c) :
    Within cs (blockEmptyLines indent fuel c).2 := by
  induction fuel generalizing c with
  | zero => exact h
  | succ fuel ih =>
    unfold blockEmptyLines
    split
    · next lineEnd after hbreak => exact ih ((h.indentTo indent).takeBreak? hbreak)
    · exact h.indentTo indent

theorem within_leadingEmptyLines (fuel widest : ℕ) {c : Cursor} (h : Within cs c) :
    Within cs (leadingEmptyLines fuel widest c).2.2 := by
  induction fuel generalizing c widest with
  | zero => exact h
  | succ fuel ih =>
    have hspaces := h.span (· == ' ')
    unfold leadingEmptyLines
    dsimp only
    split
    · next lineEnd after hbreak => exact ih _ (hspaces.takeBreak? hbreak)
    · exact hspaces

theorem within_blockLines (fold : Bool) (indent fuel : ℕ) (emptyLines : List Char) {c : Cursor}
    (h : Within cs c) : Within cs (blockLines fold indent fuel emptyLines c).after := by
  induction fuel generalizing c emptyLines with
  | zero => exact h
  | succ fuel ih =>
    have hline := h.span (!isBreak ·)
    unfold blockLines
    dsimp only
    cases hbreak : (c.span (!isBreak ·)).2.takeBreak? with
    | none =>
      dsimp only
      split_ifs
      · exact h
      · exact ih _ (within_blockEmptyLines indent _ hline)
      · exact ih _ (within_blockEmptyLines indent _ hline)
      · exact ih _ (within_blockEmptyLines indent _ hline)
      · exact within_blockEmptyLines indent _ hline
    | some result =>
      have hbehind := hline.takeBreak? hbreak
      dsimp only
      split_ifs
      · exact h
      · exact ih _ (within_blockEmptyLines indent _ hbehind)
      · exact ih _ (within_blockEmptyLines indent _ hbehind)
      · exact ih _ (within_blockEmptyLines indent _ hbehind)
      · exact within_blockEmptyLines indent _ hbehind

/-- **A block text** is read, or malformed. -/
theorem scans_blockText (fold : Bool) (least : ℕ) {c : Cursor} (h : Within cs c) :
    Scans cs (fun r => Within cs r.2) (scanBlockText fold least c) := by
  unfold scanBlockText
  refine scans_bind (scans_blockHeader h) ?_
  rintro ⟨header, behind⟩ hbehind
  dsimp only
  split
  · exact scans_ok (within_blockLines _ _ _ _ (within_blockEmptyLines _ _ hbehind))
  · exact scans_ok (within_blockLines _ _ _ _ (within_leadingEmptyLines _ _ hbehind))

end Blocks

end PipeScript.Proofs.Yaml.Scanning
