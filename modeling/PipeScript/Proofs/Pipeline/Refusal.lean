import PipeScript.Pipeline.Call
import Mathlib.Tactic.SplitIfs

/-! # Segments that are no calls

A segment is refused for one of three causes: it does not start with a slash, it has no name, or it
has an argument whose literal is never closed (`fault_of_call`).  A pipeline is read as a whole, and
the first segment that is refused refuses all of it (`calls_eq_error_iff`). -/

namespace PipeScript.Proofs.Pipeline.Refusal

open PipeScript.Pipeline

/-- The segment without the blanks around it, as messages show it. -/
def shown (segment : String) : String := String.ofList (Text.stripChars segment.toList)

/-- Why a segment is refused. -/
inductive Cause (segment : String) : Fault → Prop where
  /-- It does not start with a slash. -/
  | slash (h : (shown segment).toList.head? ≠ some '/') : Cause segment (.notACommand (shown segment))
  /-- Behind its slash no name follows. -/
  | name {body : List Char} (h : (shown segment).toList = '/' :: body)
      (hname : body.takeWhile (!Text.isGap ·) = []) : Cause segment (.namelessCommand (shown segment))
  /-- It is a command, but its value starts like an argument whose literal is never closed. -/
  | literal {opener : Char} (h : (shown segment).toList.head? = some '/')
      (hopener : opener = '"' ∨ opener = '[' ∨ opener = '\x7b') :
      Cause segment (.unclosed opener (shown segment))

theorem Cause.kind_eq {segment : String} {fault : Fault} (h : Cause segment fault) :
    fault.kind = "PipelineSyntaxError" := by
  cases h <;> rfl

/-- Such a fault is one of the command language. -/
theorem Cause.isOwn_eq {segment : String} {fault : Fault} (h : Cause segment fault) :
    fault.isOwn = true := by
  cases h <;> rfl

theorem opener_of_unclosedOpener? {value : List Char} {opener : Char}
    (h : unclosedOpener? value = some opener) :
    opener = '"' ∨ opener = '[' ∨ opener = '\x7b' := by
  unfold unclosedOpener? at h
  split at h
  · split_ifs at h with hopener
    cases h
    simp only [Bool.or_eq_true, decide_eq_true_eq] at hopener
    rcases hopener with hquote | hbracket
    · exact .inl hquote
    · unfold closer? at hbracket
      split_ifs at hbracket with hsquare hcurly
      · exact .inr (.inl hsquare)
      · exact .inr (.inr hcurly)
      · cases hbracket
  · cases h

/-- **Why a segment is no call.** -/
theorem cause_of_call {segment : String} {fault : Fault} (h : call segment = .error fault) :
    Cause segment fault := by
  have hshown : (shown segment).toList = Text.stripChars segment.toList := String.toList_ofList
  unfold call at h
  dsimp only at h
  split at h
  · rename_i body hraw
    unfold readCall at h
    dsimp only at h
    split_ifs at h with hname
    · cases h
      exact .name (hshown.trans hraw) (List.isEmpty_iff.mp hname)
    · split at h
      · rename_i opener hopener
        cases h
        refine .literal ?_ (opener_of_unclosedOpener? hopener)
        rw [hshown, hraw, List.head?_cons]
      · cases h
  · rename_i hslash
    cases h
    refine .slash fun hhead => ?_
    rw [hshown] at hhead
    obtain ⟨body, hbody⟩ := List.head?_eq_some_iff.mp hhead
    exact hslash body hbody

/-! ### Whole pipelines -/

theorem mapM_call_eq_error_iff {ss : List String} {fault : Fault} :
    ss.mapM call = .error fault ↔ ∃ front bad back, ss = front ++ bad :: back ∧
      (∀ segment ∈ front, ∃ c, call segment = .ok c) ∧ call bad = .error fault := by
  constructor
  · intro h
    induction ss with
    | nil => cases h
    | cons first rest ih =>
      rw [List.mapM_cons] at h
      rcases hfirst : call first with inner | c
      · rw [hfirst] at h
        cases h
        exact ⟨[], first, rest, rfl, List.forall_mem_nil _, hfirst⟩
      · have hrest : rest.mapM call = .error fault := by
          rw [hfirst] at h
          rcases hrest : rest.mapM call with inner | cs
          · rw [hrest] at h
            exact h
          · rw [hrest] at h
            cases h
        obtain ⟨front, bad, back, rfl, hfront, hbad⟩ := ih hrest
        exact ⟨first :: front, bad, back, rfl, List.forall_mem_cons.mpr ⟨⟨c, hfirst⟩, hfront⟩, hbad⟩
  · rintro ⟨front, bad, back, rfl, hfront, hbad⟩
    induction front with
    | nil =>
      rw [List.nil_append, List.mapM_cons, hbad]
      rfl
    | cons first front ih =>
      obtain ⟨⟨c, hc⟩, hfront⟩ := List.forall_mem_cons.mp hfront
      rw [List.cons_append, List.mapM_cons, hc, ih hfront]
      rfl

/-- **The first segment that is no call refuses the pipeline**, with its own fault. -/
theorem calls_eq_error_iff {text : String} {fault : Fault} :
    calls text = .error fault ↔ ∃ front bad back, segments text = front ++ bad :: back ∧
      (∀ segment ∈ front, ∃ c, call segment = .ok c) ∧ call bad = .error fault :=
  mapM_call_eq_error_iff

/-- Among segments of which one is no call there is a first one that is none. -/
theorem exists_first_bad {ss : List String}
    (h : ∃ segment ∈ ss, ∃ fault, call segment = .error fault) :
    ∃ front bad back fault, ss = front ++ bad :: back ∧
      (∀ segment ∈ front, ∃ c, call segment = .ok c) ∧ call bad = .error fault := by
  induction ss with
  | nil =>
    obtain ⟨_, hmem, _⟩ := h
    cases hmem
  | cons first rest ih =>
    rcases hfirst : call first with fault | c
    · exact ⟨[], first, rest, fault, rfl, List.forall_mem_nil _, hfirst⟩
    · obtain ⟨segment, hmem, fault, hbad⟩ := h
      have hlater : segment ∈ rest := by
        rcases List.mem_cons.mp hmem with rfl | hmem
        · rw [hfirst] at hbad
          cases hbad
        · exact hmem
      obtain ⟨front, bad, back, inner, rfl, hfront, hinner⟩ := ih ⟨segment, hlater, fault, hbad⟩
      exact ⟨first :: front, bad, back, inner, rfl,
        List.forall_mem_cons.mpr ⟨⟨c, hfirst⟩, hfront⟩, hinner⟩

end PipeScript.Proofs.Pipeline.Refusal
