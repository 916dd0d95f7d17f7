import PipeScript.Pattern.Replacement
import Mathlib.Data.Nat.Notation
import Mathlib.Tactic.SplitIfs

/-! # What a match keeps

A part hands on a state at or behind the place it started from, with as many groups as before
(`keeps_run`).  So a match of a pattern has the groups of the pattern and does not stop before it
starts (`Found`), whichever search found it, and the texts before it, of it and after it are the
subject. -/

namespace PipeScript.Proofs.Pattern.Matching

open PipeScript.Pattern

/-! ### One part -/

/-- A state that a match can reach from another one. -/
structure Follows (s t : MatchState) : Prop where
  position : s.position ≤ t.position
  size : t.captures.size = s.captures.size

theorem Follows.refl (s : MatchState) : Follows s s := ⟨Nat.le_refl _, rfl⟩

theorem Follows.trans {s t u : MatchState} (hst : Follows s t) (htu : Follows t u) :
    Follows s u :=
  ⟨Nat.le_trans hst.position htu.position, htu.size.trans hst.size⟩

/-- What is left succeeds from a state that follows. -/
def Succeeds (k : Continuation) (s done : MatchState) : Prop :=
  ∃ t, Follows s t ∧ k t = some done

theorem Succeeds.of_eq {k : Continuation} {s done : MatchState} (h : k s = some done) :
    Succeeds k s done :=
  ⟨s, .refl s, h⟩

theorem Succeeds.of_follows {k : Continuation} {s t done : MatchState} (hst : Follows s t)
    (h : Succeeds k t done) : Succeeds k s done := by
  obtain ⟨u, htu, h⟩ := h
  exact ⟨u, hst.trans htu, h⟩

theorem Succeeds.of_moved {k : Continuation} {s done : MatchState} {position : ℕ}
    (hle : s.position ≤ position) (h : k { s with position } = some done) : Succeeds k s done :=
  ⟨{ s with position }, ⟨hle, rfl⟩, h⟩

/-- A match that succeeds does so by what is left. -/
def Keeps (body : Continuation → Continuation) : Prop :=
  ∀ ⦃k s done⦄, body k s = some done → Succeeds k s done

theorem keeps_iterate {body : Continuation → Continuation} (hbody : Keeps body) (lazy : Bool)
    (least : ℕ) (most : Option ℕ) (fuel count : ℕ) (last : Option ℕ) :
    Keeps fun k => iterate body lazy least most k fuel count last := by
  induction fuel generalizing count last with
  | zero => exact fun k s done h => .of_eq h
  | succ fuel ih =>
    intro k s done h
    have once {last' : Option ℕ}
        (h : body (iterate body lazy least most k fuel (count + 1) last') s = some done) :
        Succeeds k s done := by
      obtain ⟨t, hst, h⟩ := hbody h
      exact .of_follows hst (ih _ _ h)
    have further {goes : Bool}
        (h : (if goes = true then
          body (iterate body lazy least most k fuel (count + 1) (some s.position)) s
          else none) = some done) : Succeeds k s done := by
      split at h
      · exact once h
      · cases h
    simp only [iterate] at h
    split at h
    · exact once h
    cases lazy with
    | true =>
      rw [if_pos rfl] at h
      cases hk : k s with
      | some _ =>
        rw [hk] at h
        exact .of_eq (hk.trans h)
      | none =>
        rw [hk] at h
        exact further h
    | false =>
      rw [if_neg Bool.false_ne_true] at h
      split at h
      · next hgoes =>
        exact further (hgoes.trans h)
      · exact .of_eq h

/-- **A part hands on a state that follows**, and all else is left to the continuation. -/
theorem keeps_run (text : Array Char) (node : Node) : Keeps (node.run text) := by
  have cut {body : Continuation → Continuation} (hbody : Keeps body) :
      Keeps fun k s => (body some s).bind k := by
    intro k s done h
    obtain ⟨t, ht, h⟩ := Option.bind_eq_some_iff.1 h
    obtain ⟨u, hsu, hu⟩ := hbody ht
    cases hu
    exact ⟨t, hsu, h⟩
  induction node with
  | empty => exact fun k s done h => .of_eq h
  | single test =>
    intro k s done h
    rw [Node.run] at h
    split at h
    · split at h
      · exact .of_moved (Nat.le_succ _) h
      · cases h
    · cases h
  | anchor a =>
    intro k s done h
    rw [Node.run] at h
    split at h
    · exact .of_eq h
    · cases h
  | seq a b iha ihb =>
    intro k s done h
    rw [Node.run] at h
    obtain ⟨t, hst, h⟩ := iha h
    exact .of_follows hst (ihb h)
  | alt a b iha ihb =>
    intro k s done h
    rw [Node.run] at h
    split at h
    · next ha => exact iha (ha.trans h)
    · exact ihb h
  | group index body ih =>
    intro k s done h
    rw [Node.run] at h
    obtain ⟨t, hst, h⟩ := ih h
    have hmarked : Follows s { t with
        captures := t.captures.setIfInBounds index (some (s.position, t.position)) } :=
      ⟨hst.position, by rw [Array.size_setIfInBounds, hst.size]⟩
    exact ⟨_, hmarked, h⟩
  | backref fold index =>
    intro k s done h
    rw [Node.run] at h
    split at h
    · split at h
      · exact .of_moved (Nat.le_add_right _ _) h
      · cases h
    · cases h
  | loop style least most body ih =>
    intro k s done h
    cases style with
    | possessive =>
      rw [Node.run] at h
      exact cut (keeps_iterate (cut ih) false least most _ 0 none) h
    | greedy =>
      rw [Node.run] at h
      · exact keeps_iterate ih _ least most _ 0 none h
      · nofun
    | lazy =>
      rw [Node.run] at h
      · exact keeps_iterate ih _ least most _ 0 none h
      · nofun
  | atomic body ih =>
    intro k s done h
    rw [Node.run] at h
    exact cut ih h
  | look behind negated body ih =>
    intro k s done h
    rw [Node.run.eq_def] at h
    dsimp only at h
    split at h
    · next t hfound =>
      split_ifs at hfound
      obtain ⟨u, hsu, hu⟩ := ih hfound
      cases hu
      have hback : Follows s { t with position := s.position } := ⟨Nat.le_refl _, hsu.size⟩
      exact ⟨_, hback, h⟩
    · exact .of_eq h
    · cases h
  | ifGroup index yes no ihyes ihno =>
    intro k s done h
    rw [Node.run] at h
    split at h
    · exact ihyes h
    · exact ihno h

/-! ### Matches of a pattern -/

variable {p : Pattern} {text : Array Char} {m : Match}

/-- What every match of a pattern has. -/
structure Found (p : Pattern) (m : Match) : Prop where
  le : m.start ≤ m.stop
  size : m.groups.size = p.groups + 1

theorem found_of_matchAt? {position : ℕ} {advance : Bool}
    (h : p.matchAt? text position advance = some m) : Found p m := by
  obtain ⟨s, hrun, rfl⟩ := Option.map_eq_some_iff.1 h
  obtain ⟨t, hfollows, ht⟩ := keeps_run text p.node hrun
  have hts : t = s := by
    dsimp only at ht
    split at ht
    · cases ht
    · exact Option.some.inj ht
  rw [hts] at hfollows
  exact ⟨hfollows.position, hfollows.size.trans Array.size_replicate⟩

theorem found_of_search? {fuel position : ℕ} {advance : Bool}
    (h : p.search? text fuel position advance = some m) : Found p m := by
  induction fuel generalizing position advance with
  | zero => cases h
  | succ fuel ih =>
    rw [search?] at h
    split at h
    · next hat =>
      cases h
      exact found_of_matchAt? hat
    · split at h
      · exact ih h
      · cases h

theorem found_of_mem_matchesFrom {fuel position : ℕ} {advance : Bool}
    (h : m ∈ p.matchesFrom text fuel position advance) : Found p m := by
  induction fuel generalizing position advance with
  | zero => cases h
  | succ fuel ih =>
    rw [matchesFrom] at h
    split at h
    · next hsearch =>
      rcases List.mem_cons.1 h with rfl | h
      · exact found_of_search? hsearch
      · exact ih h
    · cases h

/-! ### Occurrences -/

theorem length_groups_ofMatch (text : Array Char) (h : Found p m) :
    (Occurrence.ofMatch text m).groups.length = p.groups := by
  rw [Occurrence.ofMatch, List.length_map, List.length_drop, Array.length_toList, h.size,
    Nat.add_sub_cancel]

/-- **A match cuts its subject** into what is before it, what it matches and what is after it. -/
theorem ofMatch_append (h : Found p m) :
    (Occurrence.ofMatch text m).before ++ (Occurrence.ofMatch text m).matched ++
      (Occurrence.ofMatch text m).after = text.toList := by
  have hspans : text.extract 0 m.start ++ text.extract m.start m.stop ++
      text.extract m.stop text.size = text := by
    rw [Array.extract_append_extract, Nat.zero_min, Nat.max_eq_right h.le,
      Array.extract_append_extract, Nat.zero_min, Array.extract_eq_self_of_le (Nat.le_max_right _ _)]
  simp only [Occurrence.ofMatch, spanText]
  rw [← Array.toList_append, ← Array.toList_append, hspans]

/-- A group that took no part has no text. -/
theorem groups_ofMatch_of_none {k : ℕ} (h : m.groups[k + 1]? = some none) :
    (Occurrence.ofMatch text m).groups[k]? = some [] := by
  rw [Occurrence.ofMatch, List.getElem?_map, List.getElem?_drop, Nat.add_comm 1 k,
    Array.getElem?_toList, h]
  rfl

theorem groups_ofMatch_of_some {k : ℕ} {span : Span} (h : m.groups[k + 1]? = some (some span)) :
    (Occurrence.ofMatch text m).groups[k]? = some (spanText text span) := by
  rw [Occurrence.ofMatch, List.getElem?_map, List.getElem?_drop, Nat.add_comm 1 k,
    Array.getElem?_toList, h]
  rfl

end PipeScript.Proofs.Pattern.Matching
