import PipeScript.Yaml.NodeReader
import Mathlib.Data.List.Infix
import Mathlib.Data.Nat.Notation
import Mathlib.Tactic.SplitIfs

/-! # What stops the reading of nodes

Nodes are read from the front of the tokens, and no step puts any back.  A token from which nothing
can be read stops it with the failure it holds; everything else that goes wrong is malformed
(`Honest`).  So a text that composes no node for another reason than its form has such a token
(`broken_of_nodeOf`). -/

namespace PipeScript.Proofs.Yaml.Composing

open PipeScript.Yaml PipeScript.Yaml.NodeReading

/-- A step passes some of the tokens, and of the failures that are not about the form of the text it
has only those that the tokens hold. -/
structure Honest {α : Type} (m : NodeReading α) : Prop where
  tokens : ∀ {r : NodeReader} {x after}, m.run r = .ok (x, after) → after.tokens <:+ r.tokens
  broken : ∀ {r : NodeReader} {fault}, m.run r = .error (.meaningless fault) →
    Token.broken (.meaningless fault) ∈ r.tokens

/-! ### Single steps -/

section Steps

variable {α β : Type}

theorem honest_pure (x : α) : Honest (pure x) := by
  refine ⟨fun h => ?_, fun h => nomatch h⟩
  cases h
  exact List.suffix_refl _

theorem honest_fail : Honest (fail : NodeReading α) :=
  ⟨fun h => (nomatch h), fun h => (nomatch h)⟩

theorem honest_get : Honest (get : NodeReading NodeReader) := by
  refine ⟨fun h => ?_, fun h => nomatch h⟩
  cases h
  exact List.suffix_refl _

theorem honest_modifyGet {f : NodeReader → α × NodeReader}
    (hf : ∀ r, (f r).2.tokens <:+ r.tokens) : Honest (modifyGet f) := by
  refine ⟨fun {r} x after h => ?_, fun h => nomatch h⟩
  have hafter : (f r).2 = after := congrArg Prod.snd (Except.ok.inj h)
  rw [← hafter]
  exact hf r

/-- **One step after another.** -/
theorem honest_bind {m : NodeReading α} {f : α → NodeReading β} (hm : Honest m)
    (hf : ∀ x, Honest (f x)) : Honest (m >>= f) := by
  constructor
  · intro r y after h
    rw [StateT.run_bind] at h
    cases hrun : m.run r with
    | error failure =>
      rw [hrun] at h
      cases h
    | ok result =>
      obtain ⟨x, between⟩ := result
      rw [hrun] at h
      exact ((hf x).tokens h).trans (hm.tokens hrun)
  · intro r fault h
    rw [StateT.run_bind] at h
    cases hrun : m.run r with
    | error failure =>
      rw [hrun] at h
      cases h
      exact hm.broken hrun
    | ok result =>
      obtain ⟨x, between⟩ := result
      rw [hrun] at h
      exact (hm.tokens hrun).subset ((hf x).broken h)

end Steps

theorem run_peek (r : NodeReader) : peek.run r =
    match r.tokens with
    | [] => .error .malformed
    | .broken failure :: _ => .error failure
    | token :: _ => .ok (token, r) := by
  unfold peek
  rw [StateT.run_bind]
  change (match r.tokens with
    | [] => fail
    | .broken failure :: _ => throw failure
    | token :: _ => pure token : NodeReading Token).run r = _
  split <;> rfl

theorem honest_peek : Honest peek := by
  constructor
  · intro r token after h
    rw [run_peek] at h
    split at h
    · cases h
    · cases h
    · cases h
      exact List.suffix_refl _
  · intro r fault h
    rw [run_peek] at h
    split at h
    · cases h
    · next failure rest htokens =>
      cases h
      rw [htokens]
      exact List.mem_cons_self ..
    · cases h

theorem honest_pass : Honest pass :=
  honest_modifyGet fun r => List.tail_suffix r.tokens

theorem honest_number : Honest number :=
  honest_modifyGet fun _ => List.suffix_refl _

theorem honest_openAnchor (name : Option String) : Honest (openAnchor name) := by
  unfold openAnchor
  cases name with
  | none => exact honest_pure ()
  | some name =>
    refine honest_bind honest_get fun r => ?_
    split_ifs
    · exact honest_fail
    · exact honest_modifyGet fun _ => List.suffix_refl _

theorem honest_closeAnchor (name : Option String) (node : Node) :
    Honest (closeAnchor name node) := by
  unfold closeAnchor
  cases name with
  | none => exact honest_pure node
  | some name =>
    exact honest_bind (honest_modifyGet fun _ => List.suffix_refl _) fun _ => honest_pure node

theorem honest_aliased (name : String) : Honest (aliased name) := by
  unfold aliased
  refine honest_bind honest_get fun r => ?_
  split
  · exact honest_pure _
  · exact honest_fail

theorem honest_wholeTag (tag : WrittenTag) : Honest (wholeTag tag) := by
  unfold wholeTag
  split
  · exact honest_pure _
  · refine honest_bind honest_get fun r => ?_
    split
    · exact honest_pure _
    · exact honest_fail

theorem honest_takeAnchor : Honest takeAnchor := by
  unfold takeAnchor
  refine honest_bind honest_peek fun token => ?_
  split
  · exact honest_bind honest_pass fun _ => honest_pure _
  · exact honest_pure none

theorem honest_takeTag : Honest takeTag := by
  unfold takeTag
  refine honest_bind honest_peek fun token => ?_
  split
  · exact honest_bind honest_pass fun _ => honest_pure _
  · exact honest_pure none

theorem honest_takeProperties : Honest takeProperties := by
  unfold takeProperties
  refine honest_bind honest_takeAnchor fun anchor => ?_
  split
  · exact honest_bind honest_takeTag fun tag => honest_pure _
  · refine honest_bind honest_takeTag fun tag => ?_
    split
    · exact honest_bind honest_takeAnchor fun anchor => honest_pure _
    · exact honest_pure _

theorem honest_next (p : Token → Bool) : Honest (next p) :=
  honest_bind honest_peek fun token => honest_pure (p token)

theorem honest_takeEnd (ends : Token → Bool) : Honest (takeEnd ends) := by
  unfold takeEnd
  refine honest_bind (honest_next ends) fun found => ?_
  split_ifs
  · exact honest_bind honest_pass fun _ => honest_pure true
  · exact honest_pure false

theorem honest_takeFlowEnd (first : Bool) (ends : Token → Bool) :
    Honest (takeFlowEnd first ends) := by
  unfold takeFlowEnd
  refine honest_bind (honest_takeEnd ends) fun closed => ?_
  split_ifs
  · exact honest_pure true
  · exact honest_pure false
  · refine honest_bind honest_peek fun token => ?_
    split
    · exact honest_bind honest_pass fun _ => honest_takeEnd ends
    · exact honest_fail

theorem honest_mapM_wholeTag (written : Option WrittenTag) : Honest (written.mapM wholeTag) := by
  cases written with
  | none => exact honest_pure none
  | some tag => exact honest_bind (honest_wholeTag tag) fun _ => honest_pure _

theorem honest_readBare (anchor tag : Option String) : Honest (readBare anchor tag) := by
  unfold readBare
  split_ifs
  · exact honest_fail
  · exact honest_closeAnchor anchor _

/-! ### Nodes -/

/-- Readers that are honest with the same fuel. -/
structure HonestReaders (fuel : ℕ) : Prop where
  node : ∀ place, Honest (readNode place fuel)
  unlessEnd : ∀ ends place, Honest (readUnless ends place fuel)
  blockEntries : Honest (readBlockEntries fuel)
  bareEntries : Honest (readBareEntries fuel)
  item : ∀ ends place, Honest (readItem ends place fuel)
  blockPairs : Honest (readBlockPairs fuel)
  flowItems : ∀ first, Honest (readFlowItems first fuel)
  flowPairs : ∀ first, Honest (readFlowPairs first fuel)

section Readers

variable {fuel : ℕ} (ih : HonestReaders fuel)
include ih

theorem honest_readNode (place : NodeReading.Place) : Honest (readNode place (fuel + 1)) := by
  unfold readNode
  refine honest_bind honest_peek fun token => ?_
  split
  · exact honest_bind honest_pass fun _ => honest_aliased _
  · refine honest_bind honest_takeProperties fun properties => ?_
    refine honest_bind (honest_mapM_wholeTag properties.2) fun tag => ?_
    refine honest_bind (honest_openAnchor properties.1) fun _ => ?_
    refine honest_bind honest_peek fun token => ?_
    split
    · split_ifs
      · exact honest_bind honest_number fun node =>
          honest_bind ih.bareEntries fun items => honest_closeAnchor _ _
      · exact honest_readBare _ _
    · exact honest_bind honest_pass fun _ => honest_closeAnchor _ _
    · exact honest_bind honest_pass fun _ => honest_bind honest_number fun node =>
        honest_bind (ih.flowItems true) fun items => honest_closeAnchor _ _
    · exact honest_bind honest_pass fun _ => honest_bind honest_number fun node =>
        honest_bind (ih.flowPairs true) fun items => honest_closeAnchor _ _
    · split_ifs
      · exact honest_readBare _ _
      · exact honest_bind honest_pass fun _ => honest_bind honest_number fun node =>
          honest_bind ih.blockEntries fun items => honest_closeAnchor _ _
    · split_ifs
      · exact honest_readBare _ _
      · exact honest_bind honest_pass fun _ => honest_bind honest_number fun node =>
          honest_bind ih.blockPairs fun items => honest_closeAnchor _ _
    · exact honest_readBare _ _

theorem honest_readUnless (ends : Token → Bool) (place : NodeReading.Place) :
    Honest (readUnless ends place (fuel + 1)) := by
  unfold readUnless
  refine honest_bind (honest_next ends) fun found => ?_
  split_ifs
  · exact honest_pure _
  · exact ih.node place

theorem honest_readBlockEntries : Honest (readBlockEntries (fuel + 1)) := by
  unfold readBlockEntries
  refine honest_bind honest_peek fun token => ?_
  split
  · exact honest_bind honest_pass fun _ => honest_bind (ih.unlessEnd _ _) fun entry =>
      honest_bind ih.blockEntries fun entries => honest_pure _
  · exact honest_bind honest_pass fun _ => honest_pure _
  · exact honest_fail

theorem honest_readBareEntries : Honest (readBareEntries (fuel + 1)) := by
  unfold readBareEntries
  refine honest_bind honest_peek fun token => ?_
  split
  · exact honest_bind honest_pass fun _ => honest_bind (ih.unlessEnd _ _) fun entry =>
      honest_bind ih.bareEntries fun entries => honest_pure _
  · exact honest_pure _

theorem honest_readItem (ends : Token → Bool) (place : NodeReading.Place) :
    Honest (readItem ends place (fuel + 1)) := by
  unfold readItem
  refine honest_bind honest_peek fun token => ?_
  split
  · exact honest_bind honest_pass fun _ => ih.unlessEnd ends place
  · exact honest_pure _

theorem honest_readBlockPairs : Honest (readBlockPairs (fuel + 1)) := by
  unfold readBlockPairs
  refine honest_bind honest_peek fun token => ?_
  split
  · exact honest_bind honest_pass fun _ => honest_bind (ih.unlessEnd _ _) fun key =>
      honest_bind (ih.item _ _) fun item => honest_bind ih.blockPairs fun pairs => honest_pure _
  · exact honest_bind honest_pass fun _ => honest_pure _
  · exact honest_fail

theorem honest_readFlowItems (first : Bool) : Honest (readFlowItems first (fuel + 1)) := by
  unfold readFlowItems
  refine honest_bind (honest_takeFlowEnd first _) fun closed => ?_
  split_ifs
  · exact honest_pure _
  · refine honest_bind honest_peek fun token => ?_
    split
    · exact honest_bind honest_pass fun _ => honest_bind honest_number fun node =>
        honest_bind (ih.unlessEnd _ _) fun key => honest_bind (ih.item _ _) fun item =>
          honest_bind (ih.flowItems false) fun items => honest_pure _
    · exact honest_bind (ih.node _) fun item =>
        honest_bind (ih.flowItems false) fun items => honest_pure _

theorem honest_readFlowPairs (first : Bool) : Honest (readFlowPairs first (fuel + 1)) := by
  unfold readFlowPairs
  refine honest_bind (honest_takeFlowEnd first _) fun closed => ?_
  split_ifs
  · exact honest_pure _
  · refine honest_bind honest_peek fun token => ?_
    split
    · exact honest_bind honest_pass fun _ => honest_bind (ih.unlessEnd _ _) fun key =>
        honest_bind (ih.item _ _) fun item =>
          honest_bind (ih.flowPairs false) fun pairs => honest_pure _
    · exact honest_bind (ih.node _) fun key =>
        honest_bind (ih.flowPairs false) fun pairs => honest_pure _

end Readers

/-- **Every reader is honest**, whatever its fuel. -/
theorem honestReaders (fuel : ℕ) : HonestReaders fuel := by
  induction fuel with
  | zero =>
    constructor
    · intro place
      unfold readNode
      exact honest_fail
    · intro ends place
      unfold readUnless
      exact honest_fail
    · unfold readBlockEntries
      exact honest_fail
    · unfold readBareEntries
      exact honest_fail
    · intro ends place
      unfold readItem
      exact honest_fail
    · unfold readBlockPairs
      exact honest_fail
    · intro first
      unfold readFlowItems
      exact honest_fail
    · intro first
      unfold readFlowPairs
      exact honest_fail
  | succ fuel ih =>
    exact ⟨honest_readNode ih, honest_readUnless ih, honest_readBlockEntries ih,
      honest_readBareEntries ih, honest_readItem ih, honest_readBlockPairs ih,
      honest_readFlowItems ih, honest_readFlowPairs ih⟩

/-! ### Documents -/

theorem honest_readDirectives (fuel : ℕ) (versioned : Bool) (handles : List (String × String)) :
    Honest (readDirectives fuel versioned handles) := by
  induction fuel generalizing versioned handles with
  | zero => exact honest_fail
  | succ fuel ih =>
    unfold readDirectives
    refine honest_bind honest_peek fun token => ?_
    split
    · refine honest_bind honest_pass fun _ => ?_
      split_ifs
      · exact honest_fail
      · exact ih _ _
    · refine honest_bind honest_pass fun _ => ?_
      split_ifs
      · exact honest_fail
      · exact ih _ _
    · exact honest_bind honest_pass fun _ => ih _ _
    · exact honest_pure _

theorem honest_readDocument (fuel : ℕ) : Honest (readDocument fuel) := by
  have readers := honestReaders fuel
  unfold readDocument
  refine honest_bind (honest_next _) fun explicit => ?_
  split_ifs
  · refine honest_bind (honest_readDirectives fuel false []) fun handles => ?_
    refine honest_bind (honest_modifyGet fun _ => List.suffix_refl _) fun _ => ?_
    refine honest_bind honest_peek fun token => ?_
    split
    · exact honest_bind honest_pass fun _ => readers.unlessEnd _ _
    · exact honest_fail
  · exact readers.node _

theorem honest_passDocumentEnds (fuel : ℕ) : Honest (passDocumentEnds fuel) := by
  induction fuel with
  | zero => exact honest_fail
  | succ fuel ih =>
    unfold passDocumentEnds
    refine honest_bind honest_peek fun token => ?_
    split
    · exact honest_bind honest_pass fun _ => ih
    · exact honest_pure ()

theorem honest_readStream (fuel : ℕ) : Honest (readStream fuel) := by
  unfold readStream
  refine honest_bind honest_peek fun token => ?_
  split
  · exact honest_pure none
  · refine honest_bind (honest_readDocument fuel) fun node => ?_
    refine honest_bind (honest_passDocumentEnds fuel) fun _ => ?_
    refine honest_bind honest_peek fun token => ?_
    split
    · exact honest_pure _
    · exact honest_fail

/-- **Tokens that compose no node** although they have the form of one hold the reason. -/
theorem broken_of_nodeOf {tokens : List Token} {fault : Fault}
    (h : nodeOf tokens = .error (.meaningless fault)) :
    Token.broken (.meaningless fault) ∈ tokens := by
  unfold nodeOf at h
  dsimp only at h
  cases hrun : (readStream (4 * tokens.length + 8)).run ⟨tokens, [], usualHandles, 0⟩ with
  | ok result =>
    rw [hrun] at h
    cases h
  | error failure =>
    rw [hrun] at h
    cases h
    exact (honest_readStream (4 * tokens.length + 8)).broken hrun

end PipeScript.Proofs.Yaml.Composing
