import PipeScript.Proofs.Machine.Programs

/-! # Related runs

Two actions are *related* by a relation of machines if they give the same answer from related
machines and leave related machines behind.  A relation that the primitives respect (`Congruent`)
is respected by every program (`related_of_within`), so by every command and by every list of
calls.  Pipelines run one level deeper than the commands that start them; a family of relations,
one for each depth, that goes down and up with them (`Levelled`) is respected by `execute` itself
(`related_execute`). -/

namespace PipeScript.Proofs.Machine.Relations

open PipeScript.Proofs.Machine.Programs

/-- Two machines that no command tells apart: they may differ in what was said and in the trace. -/
structure Alike (m n : Machine) : Prop where
  store : m.store = n.store
  registry : m.registry = n.registry
  clock : m.clock = n.clock
  seed : m.seed = n.seed
  depth : m.depth = n.depth
  maxDepth : m.maxDepth = n.maxDepth

/-- **Related actions**: the same answer from related machines, and related machines after it. -/
def Related (R : Machine → Machine → Prop) {α : Type} (x y : Action α) : Prop :=
  ∀ m n, R m n → (x m).1 = (y n).1 ∧ R (x m).2 (y n).2

/-- Relations of machines that are alike, and that every note and every change of a part that may be
changed respects. -/
structure Congruent (may : Part → Prop) (R : Machine → Machine → Prop) : Prop where
  alike : ∀ {m n}, R m n → Alike m n
  note : ∀ {m n}, R m n → ∀ entry,
    R { m with trace := entry :: m.trace } { n with trace := entry :: n.trace }
  store : may .store → ∀ {m n}, R m n → ∀ f : Store → Store,
    R { m with store := f m.store } { n with store := f n.store }
  effects : may .effects → ∀ {m n}, R m n → ∀ effect,
    R { m with effects := m.effects ++ [effect] } { n with effects := n.effects ++ [effect] }
  seed : may .seed → ∀ {m n}, R m n → ∀ f : ℕ → ℕ,
    R { m with seed := f m.seed } { n with seed := f n.seed }

/-- Every part. -/
abbrev everything : Part → Prop := fun _ => True

section Combinators

variable {R : Machine → Machine → Prop} {α β : Type}

theorem Related.pure (a : α) : Related R (Pure.pure a : Action α) (Pure.pure a) :=
  fun _ _ h => ⟨rfl, h⟩

theorem Related.throw (fault : Fault) :
    Related R (MonadExcept.throw fault : Action α) (MonadExcept.throw fault) :=
  fun _ _ h => ⟨rfl, h⟩

theorem Related.bind {x y : Action α} {f g : α → Action β} (hx : Related R x y)
    (hf : ∀ a, Related R (f a) (g a)) : Related R (x >>= f) (y >>= g) := by
  intro m n h
  obtain ⟨h1, h2⟩ := hx m n h
  rw [bind_apply, bind_apply]
  generalize x m = before at h1 h2 ⊢
  generalize y n = after at h1 h2 ⊢
  obtain ⟨r, m'⟩ := before
  obtain ⟨r', n'⟩ := after
  obtain rfl : r = r' := h1
  cases r with
  | ok a => exact hf a m' n' h2
  | error fault => exact ⟨rfl, h2⟩

theorem Related.tryCatch {x y : Action α} {f g : Fault → Action α} (hx : Related R x y)
    (hf : ∀ fault, Related R (f fault) (g fault)) :
    Related R (MonadExcept.tryCatch x f) (MonadExcept.tryCatch y g) := by
  intro m n h
  obtain ⟨h1, h2⟩ := hx m n h
  rw [tryCatch_apply, tryCatch_apply]
  generalize x m = before at h1 h2 ⊢
  generalize y n = after at h1 h2 ⊢
  obtain ⟨r, m'⟩ := before
  obtain ⟨r', n'⟩ := after
  obtain rfl : r = r' := h1
  cases r with
  | ok a => exact ⟨rfl, h2⟩
  | error fault => exact hf fault m' n' h2

end Combinators

section Programs

variable {may : Part → Prop} {R : Machine → Machine → Prop} {nested nested' : Nested}

/-- **Programs respect congruent relations**, if the pipelines that they run do. -/
theorem related_of_within (hR : Congruent may R)
    (hnested : ∀ command, Related R (nested command) (nested' command)) {α : Type} {p : Program α}
    (hp : Within may p) : Related R (p nested) (p nested') := by
  induction hp with
  | pure a => exact .pure a
  | bind _ _ ihx ihf => exact ihx.bind ihf
  | throw fault => exact .throw fault
  | trial command =>
    refine .tryCatch ((hnested command).bind fun _ => .pure _) fun fault => ?_
    exact .bind (fun m n h => ⟨rfl, hR.note h (.caught fault)⟩) fun _ => .pure _
  | look f =>
    intro m n h
    have ha := hR.alike h
    refine ⟨?_, h⟩
    change Except.ok (f m.store m.registry m.clock m.seed) =
      .ok (f n.store n.registry n.clock n.seed)
    rw [ha.store, ha.registry, ha.clock, ha.seed]
  | idle => exact fun m n h => ⟨rfl, hR.note h _⟩
  | modifyStore hm f => exact fun m n h => ⟨rfl, hR.store hm h f⟩
  | say hm effect => exact fun m n h => ⟨rfl, hR.effects hm h effect⟩
  | reseed hm f => exact fun m n h => ⟨rfl, hR.seed hm h f⟩
  | nested command => exact hnested command

theorem related_run {b : Builtin} (hR : Congruent (touches b) R)
    (hnested : ∀ command, Related R (nested command) (nested' command)) (inv : Invocation) :
    Related R (b.run nested inv) (b.run nested' inv) :=
  related_of_within hR hnested (within_run b inv)

theorem Congruent.mono (hR : Congruent may R) {might : Part → Prop}
    (hm : ∀ part, might part → may part) : Congruent might R :=
  ⟨hR.alike, hR.note, fun h => hR.store (hm _ h), fun h => hR.effects (hm _ h),
    fun h => hR.seed (hm _ h)⟩

theorem Congruent.dispatching (hR : Congruent may R) {m n : Machine} (h : R m n)
    (command : Command) (inv : Invocation) :
    R (Programs.dispatching command inv m) (Programs.dispatching command inv n) := by
  have hn : Programs.dispatching command inv n =
      { n with trace := .dispatch command.name m.depth inv.arguments inv.value :: n.trace } := by
    rw [(hR.alike h).depth]
    rfl
  rw [hn]
  exact hR.note h _

variable (hR : Congruent everything R)
  (hnested : ∀ command, Related R (nested command) (nested' command))
include hR hnested

theorem related_handler (handler : Handler) (inv : Invocation) :
    Related R (handler.run nested inv) (handler.run nested' inv) := by
  cases handler with
  | builtin b => exact related_run (hR.mono fun _ _ => trivial) hnested inv
  | host run => exact related_of_within hR hnested (within_host run inv)

theorem related_dispatch (call : Call) (pipe : String) :
    Related R (dispatch nested call pipe) (dispatch nested' call pipe) := by
  intro m n h
  have ha := hR.alike h
  rcases hget : n.registry.get? call.name with _ | command
  · rw [dispatch_unknown hget, dispatch_unknown (by rw [ha.registry, hget])]
    exact ⟨rfl, h⟩
  · rw [dispatch_found hget, dispatch_found (by rw [ha.registry, hget])]
    have hrun := related_handler hR hnested command.handler (call.invocation pipe)
    exact hrun.tryCatch (fun _ => .throw _) _ _ (hR.dispatching h command _)

theorem related_runCalls (calls : List Call) (pipe : String) :
    Related R (runCalls nested calls pipe) (runCalls nested' calls pipe) := by
  induction calls generalizing pipe with
  | nil => exact .pure _
  | cons call rest ih =>
    refine (related_dispatch hR hnested call pipe).bind fun output => ?_
    exact (ih output).bind fun _ => .pure _

theorem related_runText (text pipe : String) :
    Related R (runText nested text pipe) (runText nested' text pipe) := by
  refine .bind ?_ fun calls => .bind (related_runCalls hR hnested calls pipe) fun _ => .pure _
  exact related_of_within hR hnested (.ofExcept _)

end Programs

/-! ### Levels -/

/-- Relations for the depths: each goes down to the next one, which comes back up to it. -/
structure Levelled (R : ℕ → Machine → Machine → Prop) : Prop where
  congruent : ∀ d, Congruent everything (R d)
  down : ∀ {d m n}, R d m n →
    R (d + 1) { m with depth := m.depth + 1 } { n with depth := n.depth + 1 }
  up : ∀ {d m n}, R (d + 1) m n →
    R d { m with depth := m.depth - 1 } { n with depth := n.depth - 1 }

section Levels

variable {R : ℕ → Machine → Machine → Prop} (hR : Levelled R)
include hR

theorem related_deeper {d : ℕ} {α : Type} {x y : Action α} (h : Related (R (d + 1)) x y) :
    Related (R d) x.deeper y.deeper := by
  intro m n hmn
  obtain ⟨h1, h2⟩ := h _ _ (hR.down hmn)
  exact ⟨h1, hR.up h2⟩

theorem related_executeWithin (levels : ℕ) (d : ℕ) (text pipe : String) :
    Related (R d) (executeWithin levels text pipe) (executeWithin levels text pipe) := by
  induction levels generalizing d text pipe with
  | zero =>
    intro m n h
    refine ⟨?_, h⟩
    change Except.error (Fault.nestingLimit m.maxDepth) = .error (.nestingLimit n.maxDepth)
    rw [((hR.congruent d).alike h).maxDepth]
  | succ levels ih =>
    refine related_deeper hR (related_runText (hR.congruent (d + 1)) (fun command => ?_) text pipe)
    exact (ih (d + 1) command "").bind fun _ => .pure _

/-- **Pipelines respect levelled relations.** -/
theorem related_execute (d : ℕ) (text pipe : String) :
    Related (R d) (execute text pipe) (execute text pipe) := by
  intro m n h
  have ha := (hR.congruent d).alike h
  unfold execute
  rw [ha.maxDepth, ha.depth]
  exact related_executeWithin hR _ d text pipe m n h

end Levels

end PipeScript.Proofs.Machine.Relations
