import PipeScript.Yaml.Standard
import PipeScript.Proofs.Yaml.Composing
import PipeScript.Proofs.Yaml.Tokens
import PipeScript.Proofs.Yaml.Values

/-! # When the reader in use fails

`Yaml.read` fails with what comes first of a text: something that no token can be read from, or among
the outermost texts of its node that have no value the first (`read_error_iff`).  What makes it pass a
fault on stands in the text (`exists_of_fails`). -/

namespace PipeScript.Proofs.Yaml.Failing

open PipeScript.Yaml
open PipeScript.Proofs.Yaml.Composing PipeScript.Proofs.Yaml.Scanning
open PipeScript.Proofs.Yaml.Tokens PipeScript.Proofs.Yaml.Values

/-- A failure is what comes first of a text. -/
inductive Fails (text : String) (failure : Failure) : Prop
  /-- Something that no token can be read from, or tokens that make up no node. -/
  | token (broken : nodeOf (tokens text.toList) = .error failure)
  /-- A part of the node: among the outermost ones that have no value the first. -/
  | part {node : Node} {number depth : ℕ}
      (composed : nodeOf (tokens text.toList) = .ok (some node, number))
      (foremost : Foremost depth failure (partsAt 0 node))

section Read

variable {text : String} {node : Node} {number : ℕ}

theorem read_of_failed {failure : Failure} (h : nodeOf (tokens text.toList) = .error failure) :
    Yaml.read text = .error failure := by
  unfold Yaml.read
  rw [h]
  rfl

theorem read_of_empty (h : nodeOf (tokens text.toList) = .ok (none, number)) :
    Yaml.read text = .ok (.plain .null, number) := by
  unfold Yaml.read
  rw [h]
  rfl

section Node

variable (h : nodeOf (tokens text.toList) = .ok (some node, number))
include h

theorem read_of_node : Yaml.read text =
    match node.valueAt 0 with
    | .ok value => .ok (value, number)
    | .error (_, failure) => .error failure := by
  unfold Yaml.read
  rw [h]
  rfl

/-- A node without a value fails with the foremost failure of its parts. -/
theorem read_node_error_iff (failure : Failure) :
    Yaml.read text = .error failure ↔ ∃ depth, Foremost depth failure (partsAt 0 node) := by
  have haccounts := valueAt_accounts 0 node
  rw [read_of_node h]
  rcases hvalue : node.valueAt 0 with ⟨depth, failure'⟩ | value
  · rw [hvalue] at haccounts
    have hforemost : Foremost depth failure' (partsAt 0 node) := haccounts
    constructor
    · intro heq
      cases heq
      exact ⟨depth, hforemost⟩
    · rintro ⟨depth', hother⟩
      rw [(hforemost.unique hother).2]
  · rw [hvalue] at haccounts
    have hsound : Sound (partsAt 0 node) := haccounts
    constructor
    · intro heq
      cases heq
    · rintro ⟨depth', hother⟩
      exact absurd hsound hother.not_sound

end Node

/-- **When the reader fails**, and with what. -/
theorem read_error_iff {failure : Failure} :
    Yaml.read text = .error failure ↔ Fails text failure := by
  cases hnode : nodeOf (tokens text.toList) with
  | error failure' =>
    rw [read_of_failed hnode]
    constructor
    · intro heq
      cases heq
      exact .token hnode
    · rintro (hbroken | ⟨hcomposed, -⟩)
      · cases hnode.symm.trans hbroken
        rfl
      · exact nomatch hnode.symm.trans hcomposed
  | ok result =>
    obtain ⟨_ | node, number⟩ := result
    · rw [read_of_empty hnode]
      constructor
      · intro heq
        cases heq
      · rintro (hbroken | ⟨hcomposed, -⟩)
        · exact nomatch hnode.symm.trans hbroken
        · exact nomatch hnode.symm.trans hcomposed
    · rw [read_node_error_iff hnode]
      constructor
      · rintro ⟨depth, hforemost⟩
        exact .part hnode hforemost
      · rintro (hbroken | ⟨hcomposed, hforemost⟩)
        · exact nomatch hnode.symm.trans hbroken
        · cases hnode.symm.trans hcomposed
          exact ⟨_, hforemost⟩

/-- **What makes the reader pass a fault on** stands in the text: an escape beyond the last code point,
a number with too many digits, or the text of a boolean, number or timestamp that has not its form. -/
theorem exists_of_fails {fault : Fault} (h : Fails text (.meaningless fault)) :
    Beyond text.toList fault ∨ ∃ node number depth kind cs,
      nodeOf (tokens text.toList) = .ok (some node, number) ∧
        (depth, .text kind cs) ∈ partsAt 0 node ∧ kind ∈ [.bool, .int, .float, .moment] ∧
          scalarOf kind cs = .error (.meaningless fault) := by
  rcases h with hbroken | ⟨hcomposed, hforemost⟩
  · exact .inl (beyond_of_broken (broken_of_nodeOf hbroken))
  · obtain ⟨kind, cs, hmem, hscalar⟩ := hforemost.exists_text
    exact .inr ⟨_, _, _, kind, cs, hcomposed, hmem, kind_of_meaningless hscalar, hscalar⟩

end Read

end PipeScript.Proofs.Yaml.Failing
