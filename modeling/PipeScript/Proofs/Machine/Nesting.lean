import PipeScript.Proofs.Machine.Refusal
import Mathlib.Logic.Function.Iterate

/-! # Nesting

Pipelines run inside one another, and the depth counts how many are under way.  Every run comes back
to its depth, also when it fails and when a command swallows a failure further in, and every command
is dispatched between the next depth and the greatest one (`noted_execute`).  So the recursion of
pipelines ends: unrolled once more often than there are levels left it is the run, whatever stands
for the calls further in (`iterate_level`). -/

namespace PipeScript.Proofs.Machine.Nesting

open PipeScript.Proofs.Machine.Programs PipeScript.Proofs.Machine.Relations
open PipeScript.Proofs.Machine.Execution PipeScript.Proofs.Machine.Progress
open PipeScript.Proofs.Machine.Refusal

/-! ### Depths of dispatches -/

/-- If the note is that a command is dispatched, it is so between two depths. -/
def DispatchedBetween (low high : ℕ) : TraceEntry → Prop
  | .dispatch _ depth _ _ => low ≤ depth ∧ depth ≤ high
  | _ => True

theorem dispatchedBetween_of_remark {entry : TraceEntry} (h : IsRemark entry) (low high : ℕ) :
    DispatchedBetween low high entry := by
  cases entry with
  | dispatch => exact h.elim
  | caught | idle | failed => trivial

theorem DispatchedBetween.mono {low low' high : ℕ} (hlow : low' ≤ low) {entry : TraceEntry}
    (h : DispatchedBetween low high entry) : DispatchedBetween low' high entry := by
  cases entry with
  | dispatch => exact ⟨Nat.le_trans hlow h.1, h.2⟩
  | caught | idle | failed => trivial

/-- From a depth and a greatest one: both stay, and what is dispatched is so between `low` and the
greatest depth. -/
def Noted (low depth maxDepth : ℕ) (m after : Machine) : Prop :=
  m.depth = depth → m.maxDepth = maxDepth →
    after.depth = depth ∧ after.maxDepth = maxDepth ∧ ∃ notes, after.trace = notes ++ m.trace ∧
      ∀ entry ∈ notes, DispatchedBetween low maxDepth entry

section Noted

variable {low depth maxDepth : ℕ}

theorem noted_of_trace {m after : Machine} (hdepth : after.depth = m.depth)
    (hmax : after.maxDepth = m.maxDepth) (htrace : after.trace = m.trace) :
    Noted low depth maxDepth m after := by
  rintro rfl rfl
  exact ⟨hdepth, hmax, [], htrace, fun _ h => nomatch h⟩

theorem noted_cons {m : Machine} {entry : TraceEntry}
    (h : m.depth = depth → m.maxDepth = maxDepth → DispatchedBetween low maxDepth entry) :
    Noted low depth maxDepth m { m with trace := entry :: m.trace } := by
  intro hdepth hmax
  refine ⟨hdepth, hmax, [entry], rfl, fun other hother => ?_⟩
  obtain rfl := List.mem_singleton.mp hother
  exact h hdepth hmax

theorem course_noted : Course (Noted low depth maxDepth) where
  refl m := noted_of_trace rfl rfl rfl
  trans := by
    intro m n o hmn hno hdepth hmax
    obtain ⟨hdepth, hmax, early, htrace, hearly⟩ := hmn hdepth hmax
    obtain ⟨hdepth, hmax, late, htrace', hlate⟩ := hno hdepth hmax
    refine ⟨hdepth, hmax, late ++ early, by rw [htrace', htrace, List.append_assoc], ?_⟩
    intro entry hentry
    rcases List.mem_append.mp hentry with hentry | hentry
    · exact hlate entry hentry
    · exact hearly entry hentry

theorem admits_noted : Admits (fun _ => True) (Noted low depth maxDepth) where
  toCourse := course_noted
  remark _ _ h := noted_cons fun _ _ => dispatchedBetween_of_remark h _ _
  store _ _ _ := noted_of_trace rfl rfl rfl
  effects _ _ _ := noted_of_trace rfl rfl rfl
  seed _ _ _ := noted_of_trace rfl rfl rfl

/-- A command is dispatched at the depth of its pipeline. -/
theorem noted_dispatch (hlow : low ≤ depth) (hhigh : depth ≤ maxDepth) {nested : Nested}
    (hnested : ∀ command, Onward (Noted low depth maxDepth) (nested command)) (call : Call)
    (pipe : String) : Onward (Noted low depth maxDepth) (dispatch nested call pipe) := by
  intro m
  rcases hget : m.registry.get? call.name with _ | command
  · rw [dispatch_unknown hget]
    exact course_noted.refl m
  · rw [dispatch_found hget]
    refine course_noted.trans (noted_cons ?_) (onward_leavingCommand course_noted
      (onward_handler admits_noted hnested command.handler _) _)
    rintro rfl rfl
    exact ⟨hlow, hhigh⟩

/-- One level further in is one level deeper. -/
theorem noted_deeper {α : Type} {x : Action α} (h : Onward (Noted low (depth + 1) maxDepth) x) :
    Onward (Noted low depth maxDepth) x.deeper := by
  intro m hdepth hmax
  obtain ⟨hdepth', hmax', hnotes⟩ := h { m with depth := m.depth + 1 } (by rw [hdepth]) hmax
  refine ⟨?_, hmax', hnotes⟩
  change (x { m with depth := m.depth + 1 }).2.depth - 1 = depth
  rw [hdepth', Nat.add_sub_cancel]

theorem Noted.mono {low' : ℕ} (hlow : low' ≤ low) {m after : Machine}
    (h : Noted low depth maxDepth m after) : Noted low' depth maxDepth m after := by
  intro hdepth hmax
  obtain ⟨hdepth, hmax, notes, htrace, hnotes⟩ := h hdepth hmax
  exact ⟨hdepth, hmax, notes, htrace, fun entry hentry => (hnotes entry hentry).mono hlow⟩

/-- **Every command is dispatched between the next depth and the greatest one.** -/
theorem noted_execute (depth maxDepth : ℕ) (text pipe : String) :
    Onward (Noted (depth + 1) depth maxDepth) (execute text pipe) := by
  -- the levels that are left bound the recursion
  induction hlevels : maxDepth - depth generalizing depth text pipe with
  | zero =>
    intro m hdepth hmax
    rw [execute_refused (by omega)]
    exact course_noted.refl m hdepth hmax
  | succ levels ih =>
    intro m hdepth hmax
    have hnested : ∀ command,
        Onward (Noted (depth + 1) (depth + 1) maxDepth) (runNested command) := by
      intro command
      refine onward_bind course_noted (fun n => ?_) fun _ => onward_pure course_noted _
      exact (ih (depth + 1) command "" (by omega) n).mono (Nat.le_succ _)
    rw [execute_eq (by omega)]
    refine noted_deeper (onward_runText course_noted (fun call pipe => ?_) text pipe) m hdepth hmax
    exact noted_dispatch (Nat.le_refl _) (by omega) hnested call pipe

end Noted

/-! ### The end of the recursion -/

/-- One level of the recursion of pipelines: at the greatest depth a pipeline is refused; below it is
read and run one level deeper, and the commands run their pipelines by `inner`. -/
def level (inner : String → String → Action Output) (text pipe : String) : Action Output := fun m =>
  if m.maxDepth ≤ m.depth then (.error (.nestingLimit m.maxDepth), m)
  else (runText (fun command => do return (← inner command "").pipe) text pipe).deeper m

theorem level_refused (inner : String → String → Action Output) {m : Machine}
    (h : m.maxDepth ≤ m.depth) (text pipe : String) :
    level inner text pipe m = (.error (.nestingLimit m.maxDepth), m) :=
  if_pos h

theorem level_below (inner : String → String → Action Output) {m : Machine}
    (h : m.depth < m.maxDepth) (text pipe : String) :
    level inner text pipe m =
      (runText (fun command => do return (← inner command "").pipe) text pipe).deeper m :=
  if_neg (Nat.not_le_of_lt h)

/-- **The recursion of pipelines.** -/
theorem execute_eq_level : execute = level execute := by
  funext text pipe m
  rcases Nat.lt_or_ge m.depth m.maxDepth with hd | hd
  · rw [level_below _ hd]
    exact execute_eq hd text pipe
  · rw [level_refused _ hd]
    exact execute_refused hd text pipe

/-- **The recursion ends**: unrolled once more often than there are levels left it is the run,
whatever stands for the calls further in. -/
theorem iterate_level (inner : String → String → Action Output) {n : ℕ} {m : Machine}
    (h : m.maxDepth - m.depth < n) (text pipe : String) :
    level^[n] inner text pipe m = execute text pipe m := by
  induction n generalizing m text pipe with
  | zero => exact absurd h (Nat.not_lt_zero _)
  | succ n ih =>
    rw [Function.iterate_succ_apply']
    rcases Nat.lt_or_ge m.depth m.maxDepth with hd | hd
    · rw [level_below _ hd, execute_eq hd]
      refine deeper_runText_congr (fun command after hdepth hmax => ?_) text pipe
      -- one level deeper there is one level less left
      unfold runNested finalPipe
      rw [bind_apply, bind_apply, ih (by omega)]
    · rw [level_refused _ hd, execute_refused hd]

/-- **Nesting is balanced and bounded.**  A run comes back to its depth; every command in it is
dispatched deeper than it, and no deeper than the greatest depth; it is refused unread, with the
machine as it was, exactly at the greatest depth; and the recursion by which it runs further
pipelines ends with the levels that are left. -/
theorem nesting_of_execute (text pipe : String) (m : Machine) :
    (execute text pipe m).2.depth = m.depth ∧
    (∃ notes, (execute text pipe m).2.trace = notes ++ m.trace ∧
      ∀ entry ∈ notes, DispatchedBetween (m.depth + 1) m.maxDepth entry) ∧
    (execute text pipe m = (.error (.nestingLimit m.maxDepth), m) ↔ m.maxDepth ≤ m.depth) ∧
    execute = level execute ∧
    ∀ inner, level^[m.maxDepth - m.depth + 1] inner text pipe m = execute text pipe m := by
  obtain ⟨hdepth, -, hnotes⟩ := noted_execute m.depth m.maxDepth text pipe m rfl rfl
  exact ⟨hdepth, hnotes, execute_refused_iff text pipe m, execute_eq_level,
    fun inner => iterate_level inner (Nat.lt_succ_self _) text pipe⟩

end PipeScript.Proofs.Machine.Nesting
