import PipeScript.Yaml.Layout
import PipeScript.Proofs.Yaml.Scanning

/-! # What breaks the tokens of a text

Between two tokens the cursor stands in the text and no token so far is a broken one (`Intact`);
every way to read a token keeps it so, or fails as a scan does.  So a failure that the tokens of a
text end with is about its form, or stands in it (`beyond_of_broken`). -/

namespace PipeScript.Proofs.Yaml.Tokens

open PipeScript.Yaml
open PipeScript.Proofs.Yaml.Scanning

/-- A token that something can be read from. -/
def Whole (token : Token) : Prop := ∀ failure, token ≠ .broken failure

/-- The layout of a text whose tokens so far are whole. -/
structure Intact (cs : List Char) (l : Layout) : Prop where
  within : Within cs l.cursor
  whole : ∀ token ∈ l.tokens, Whole token

/-- A scan that gives a whole token. -/
def ScansToken (cs : List Char) (scan : Cursor → Except Failure (Token × Cursor)) : Prop :=
  ∀ c, Within cs c → Scans cs (fun r => Whole r.1 ∧ Within cs r.2) (scan c)

section Layouts

variable {cs : List Char} {l : Layout} (h : Intact cs l)
include h

/-! ### Tokens and blocks -/

omit h in
/-- A whole token behind whole ones. -/
theorem scans_emit {token : Token} (hwithin : Within cs l.cursor)
    (hwhole : ∀ token ∈ l.tokens, Whole token) (htoken : Whole token) :
    Scans cs (Intact cs) (pure (l.emit token)) :=
  scans_ok ⟨hwithin, List.forall_mem_cons.mpr ⟨htoken, hwhole⟩⟩

theorem Intact.emitAt {token : Token} (htoken : Whole token) (position : ℕ) :
    Intact cs (l.emitAt position token) := by
  refine ⟨h.within, fun other hmem => ?_⟩
  rcases List.mem_append.mp hmem with hmem | hmem
  · exact h.whole other (List.mem_of_mem_take hmem)
  · rcases List.mem_cons.mp hmem with rfl | hmem
    · exact htoken
    · exact h.whole other (List.mem_of_mem_drop hmem)

theorem Intact.pass (n : ℕ) : Intact cs (l.pass n) :=
  ⟨h.within.forward n, h.whole⟩

/-- Any number of tokens that close blocks. -/
theorem whole_blockEnds (n : ℕ) :
    ∀ token ∈ List.replicate n Token.blockEnd ++ l.tokens, Whole token := by
  intro token hmem
  rcases List.mem_append.mp hmem with hmem | hmem
  · rw [List.eq_of_mem_replicate hmem]
    exact fun _ => nofun
  · exact h.whole token hmem

theorem Intact.closeBlocks (column : ℕ) : Intact cs (l.closeBlocks column) := by
  unfold Layout.closeBlocks
  split_ifs
  · exact h
  · exact ⟨h.within, whole_blockEnds h _⟩

theorem Intact.closeAllBlocks : Intact cs l.closeAllBlocks := by
  unfold Layout.closeAllBlocks
  split_ifs
  · exact h
  · exact ⟨h.within, whole_blockEnds h _⟩

theorem Intact.openBlock {token : Token} (htoken : Whole token) (column position : ℕ) :
    Intact cs (l.openBlock column position token) := by
  unfold Layout.openBlock
  split_ifs
  · exact Intact.emitAt (l := { l with blocks := column :: l.blocks }) ⟨h.within, h.whole⟩ htoken
      position
  · exact h

theorem Intact.skipMark : Intact cs l.skipMark := by
  unfold Layout.skipMark
  split_ifs
  · exact h.pass 1
  · exact h

omit h in
theorem Intact.skipToToken (fuel : ℕ) {l : Layout} (h : Intact cs l) :
    Intact cs (l.skipToToken fuel) := by
  induction fuel generalizing l with
  | zero => exact h
  | succ fuel ih =>
    have hbehind := (h.within.skip (· == ' ')).skipComment
    unfold Layout.skipToToken
    dsimp only
    split
    · next lineEnd after hbreak => exact ih ⟨hbehind.takeBreak? hbreak, h.whole⟩
    · exact ⟨hbehind, h.whole⟩

/-! ### Keys -/

omit h in
theorem scans_giveUp (key : Option KeyCandidate) :
    Scans cs (fun _ => True) (Layout.giveUp key) := by
  unfold Layout.giveUp
  split
  · split_ifs
    · exact scans_malformed
    · exact scans_ok trivial
  · exact scans_ok trivial

omit h in
theorem scans_mapM {α β : Type} {f : α → Except Failure β}
    (hf : ∀ x, Scans cs (fun _ => True) (f x)) (xs : List α) :
    Scans cs (fun _ => True) (xs.mapM f) := by
  induction xs with
  | nil => exact scans_ok trivial
  | cons x xs ih =>
    rw [List.mapM_cons]
    exact scans_bind (hf x) fun _ _ => scans_bind ih fun _ _ => scans_ok trivial

theorem scans_dropCandidate : Scans cs (Intact cs) l.dropCandidate := by
  unfold Layout.dropCandidate
  split
  · exact scans_bind (scans_giveUp _) fun _ _ => scans_ok ⟨h.within, h.whole⟩
  · exact scans_ok h

theorem scans_dropStale : Scans cs (Intact cs) l.dropStale := by
  unfold Layout.dropStale
  refine scans_bind (scans_mapM (fun key => ?_) _) fun _ _ => scans_ok ⟨h.within, h.whole⟩
  split
  · split_ifs
    · exact scans_giveUp _
    · exact scans_ok trivial
  · exact scans_ok trivial

theorem scans_addCandidate : Scans cs (Intact cs) l.addCandidate := by
  unfold Layout.addCandidate
  split_ifs
  · exact scans_bind (scans_dropCandidate h) fun _ hl => scans_ok ⟨hl.within, hl.whole⟩
  · exact scans_ok h

/-! ### Steps of the scanner -/

theorem scans_topLevel {scan : Cursor → Except Failure (Token × Cursor)}
    (hscan : ScansToken cs scan) :
    Scans cs (Intact cs) (l.topLevel scan) := by
  unfold Layout.topLevel
  refine scans_bind (scans_dropCandidate h.closeAllBlocks) fun closed hclosed => ?_
  refine scans_bind (hscan closed.cursor hclosed.within) ?_
  rintro ⟨token, cursor⟩ ⟨htoken, hcursor⟩
  exact scans_emit hcursor hclosed.whole htoken

theorem scans_openFlow {token : Token} (htoken : Whole token) :
    Scans cs (Intact cs) (l.openFlow token) := by
  unfold Layout.openFlow
  refine scans_bind (scans_addCandidate h) fun added hadded => ?_
  exact scans_emit (hadded.within.forward 1) hadded.whole htoken

theorem scans_closeFlow {token : Token} (htoken : Whole token) :
    Scans cs (Intact cs) (l.closeFlow token) := by
  unfold Layout.closeFlow
  refine scans_bind (scans_dropCandidate h) fun dropped hdropped => ?_
  split_ifs
  · exact scans_emit (hdropped.within.forward 1) hdropped.whole htoken
  · exact scans_malformed

/-- A mark behind which a key may stand, or may not. -/
theorem scans_mark {token : Token} (htoken : Whole token) (keyAllowed : Bool) :
    Scans cs (Intact cs)
      (do return Layout.emit token { (← l.dropCandidate).pass 1 with keyAllowed }) :=
  scans_bind (scans_dropCandidate h) fun _ hdropped =>
    scans_emit (hdropped.within.forward 1) hdropped.whole htoken

theorem scans_flowEntry : Scans cs (Intact cs) l.flowEntry := by
  unfold Layout.flowEntry
  refine scans_mark h ?_ true
  exact fun _ => nofun

/-- A mark that opens a block outside brackets, where a key may stand. -/
theorem scans_opening {token : Token} (htoken : Whole token) {next : Layout → Except Failure Layout}
    (hnext : ∀ opened, Intact cs opened → Scans cs (Intact cs) (next opened)) :
    Scans cs (Intact cs)
      (if l.inFlow then Except.ok l >>= next
        else if l.keyAllowed then
          Except.ok (l.openBlock l.cursor.column l.count token) >>= next
        else Except.error .malformed >>= next) := by
  split_ifs
  · exact hnext l h
  · exact hnext _ (h.openBlock htoken _ _)
  · exact scans_malformed

theorem scans_blockEntry : Scans cs (Intact cs) l.blockEntry := by
  unfold Layout.blockEntry
  refine scans_opening h ?_ fun opened hopened => scans_mark hopened ?_ true
  · exact fun _ => nofun
  · exact fun _ => nofun

theorem scans_explicitKey : Scans cs (Intact cs) l.explicitKey := by
  unfold Layout.explicitKey
  refine scans_opening h ?_ fun opened hopened => scans_mark hopened ?_ (!opened.inFlow)
  · exact fun _ => nofun
  · exact fun _ => nofun

/-- The colon before an item puts a key before what stands in front of it, or opens a block. -/
theorem scans_item : Scans cs (Intact cs) l.item := by
  have hkey : Whole .key := fun _ => nofun
  have hvalue : Whole .value := fun _ => nofun
  have hdict : Whole .blockDict := fun _ => nofun
  unfold Layout.item
  split
  · next key outer hcandidates =>
    have hput := Intact.emitAt (l := { l with candidates := none :: outer })
      ⟨h.within, h.whole⟩ hkey key.position
    dsimp only
    split_ifs
    · exact scans_emit (hput.within.forward 1) hput.whole hvalue
    · have hopened := hput.openBlock hdict key.column key.position
      exact scans_emit (hopened.within.forward 1) hopened.whole hvalue
  · exact scans_opening h hdict fun opened hopened => scans_mark hopened hvalue (!opened.inFlow)

theorem scans_nodePart {scan : Cursor → Except Failure (Token × Cursor)}
    (hscan : ScansToken cs scan) :
    Scans cs (Intact cs) (l.nodePart scan) := by
  unfold Layout.nodePart
  refine scans_bind (scans_addCandidate h) fun added hadded => ?_
  refine scans_bind (hscan added.cursor hadded.within) ?_
  rintro ⟨token, cursor⟩ ⟨htoken, hcursor⟩
  exact scans_emit hcursor hadded.whole htoken

theorem scans_plain : Scans cs (Intact cs) l.plain := by
  unfold Layout.plain
  refine scans_bind (scans_addCandidate h) fun added hadded => ?_
  exact scans_emit (within_plainText _ _ _ _ hadded.within) hadded.whole fun _ => nofun

theorem scans_blockTextToken (fold : Bool) : Scans cs (Intact cs) (l.blockText fold) := by
  unfold Layout.blockText
  refine scans_bind (scans_dropCandidate h) fun dropped hdropped => ?_
  refine scans_bind (scans_blockText fold _ hdropped.within.next) fun _ hbehind => ?_
  exact scans_emit hbehind hdropped.whole fun _ => nofun

end Layouts

/-! ### Tokens read at their first character -/

section Scanners

variable (cs : List Char)

theorem scansToken_quoted (quote : Char) : ScansToken cs (Layout.scanQuotedToken quote) :=
  fun _ hc => scans_bind (scans_quoted quote _ hc.next) fun _ hbehind =>
    scans_ok ⟨fun _ => nofun, hbehind⟩

theorem scansToken_name {make : String → Token} (hmake : ∀ name, Whole (make name)) :
    ScansToken cs (Layout.scanNameToken make) :=
  fun _ hc => scans_bind (scans_name hc.next) fun _ hbehind => scans_ok ⟨hmake _, hbehind⟩

theorem scansToken_tag : ScansToken cs Layout.scanTagToken :=
  fun _ hc => scans_bind (scans_tag hc) fun _ hbehind => scans_ok ⟨fun _ => nofun, hbehind⟩

theorem scansToken_directive : ScansToken cs Layout.scanDirectiveToken :=
  fun _ hc => scans_bind (scans_directive hc.next) fun _ hbehind =>
    scans_ok ⟨fun _ => nofun, hbehind⟩

theorem scansToken_marks {token : Token} (htoken : Whole token) :
    ScansToken cs fun c => .ok (token, c.forward 3) :=
  fun _ hc => scans_ok ⟨htoken, hc.forward 3⟩

end Scanners

/-- **One token** is read, or what stops it stands in the text. -/
theorem scans_token {cs : List Char} {l : Layout} (h : Intact cs l) (x : Char) :
    Scans cs (Intact cs) (l.token x) := by
  unfold Layout.token
  refine scans_ite (scans_topLevel h (scansToken_directive cs)) ?_
  refine scans_ite (scans_topLevel h (scansToken_marks cs fun _ => nofun)) ?_
  refine scans_ite (scans_topLevel h (scansToken_marks cs fun _ => nofun)) ?_
  refine scans_ite (scans_openFlow h fun _ => nofun) ?_
  refine scans_ite (scans_openFlow h fun _ => nofun) ?_
  refine scans_ite (scans_closeFlow h fun _ => nofun) ?_
  refine scans_ite (scans_closeFlow h fun _ => nofun) ?_
  refine scans_ite (scans_flowEntry h) ?_
  refine scans_ite (scans_blockEntry h) ?_
  refine scans_ite (scans_explicitKey h) ?_
  refine scans_ite (scans_item h) ?_
  refine scans_ite (scans_nodePart h (scansToken_name cs fun _ _ => nofun)) ?_
  refine scans_ite (scans_nodePart h (scansToken_name cs fun _ _ => nofun)) ?_
  refine scans_ite (scans_nodePart h (scansToken_tag cs)) ?_
  refine scans_ite (scans_blockTextToken h false) ?_
  refine scans_ite (scans_blockTextToken h true) ?_
  refine scans_ite (scans_nodePart h (scansToken_quoted cs x)) ?_
  exact scans_ite (scans_plain h) scans_malformed

/-! ### All tokens -/

/-- A failure behind whole tokens is the only one among them. -/
theorem eq_of_mem_broken {cs : List Char} {l : Layout} (h : Intact cs l)
    {failure failure' : Failure}
    (hmem : Token.broken failure ∈ (Token.broken failure' :: l.tokens).reverse) :
    failure = failure' := by
  rcases List.mem_cons.mp (List.mem_reverse.mp hmem) with heq | hmem
  · exact Token.broken.inj heq
  · exact absurd rfl (h.whole _ hmem failure)

/-- **The tokens of a text**: the failure that they may end with stands in it. -/
theorem beyond_of_mem_readAll {cs : List Char} {l : Layout} (h : Intact cs l) {fuel : ℕ}
    {fault : Fault} (hmem : Token.broken (.meaningless fault) ∈ l.readAll fuel) :
    Beyond cs fault := by
  induction fuel generalizing l with
  | zero => exact nomatch eq_of_mem_broken h hmem
  | succ fuel ih =>
    have hstart : Intact cs (l.skipMark.skipToToken (l.cursor.rest.length + 1)) :=
      Intact.skipToToken _ h.skipMark
    unfold Layout.readAll at hmem
    dsimp only at hmem
    split at hmem
    · next failure hstale =>
      obtain rfl := eq_of_mem_broken hstart hmem
      exact (scans_dropStale hstart).beyond hstale
    · next fresh hfresh =>
      have hclosed := ((scans_dropStale hstart).good hfresh).closeBlocks fresh.cursor.column
      split at hmem
      · split at hmem
        · next failure hend =>
          obtain rfl := eq_of_mem_broken hclosed hmem
          exact (scans_dropCandidate hclosed.closeAllBlocks).beyond hend
        · next last hlast =>
          have hintact := (scans_dropCandidate hclosed.closeAllBlocks).good hlast
          rcases List.mem_cons.mp (List.mem_reverse.mp hmem) with heq | hmem
          · cases heq
          · exact absurd rfl (hintact.whole _ hmem _)
      · next x hx =>
        split at hmem
        · next failure htoken =>
          obtain rfl := eq_of_mem_broken hclosed hmem
          exact (scans_token hclosed x).beyond htoken
        · next after hafter => exact ih ((scans_token hclosed x).good hafter) hmem

/-- **What breaks the tokens of a text stands in it**, or the text is malformed. -/
theorem beyond_of_broken {cs : List Char} {fault : Fault}
    (h : Token.broken (.meaningless fault) ∈ tokens cs) : Beyond cs fault := by
  unfold tokens at h
  split_ifs at h
  · have hstart : Intact cs (.start cs) :=
      ⟨List.suffix_refl cs, fun token hmem => absurd hmem (List.not_mem_nil)⟩
    exact beyond_of_mem_readAll hstart h
  · cases List.mem_singleton.mp h

end PipeScript.Proofs.Yaml.Tokens
