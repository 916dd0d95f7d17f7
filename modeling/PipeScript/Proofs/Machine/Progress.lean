import PipeScript.Proofs.Machine.Programs

/-! # What runs leave behind

An action leads *onward* by a relation of machines if the machine it leaves is related to the one it
started from, whether it fails or not.  If nothing may happen and what happens may go on (`Course`),
actions that lead onward compose; if the primitives do it, too (`Admits`), then every command does
(`onward_run`), and with its dispatch every pipeline (`onward_runText`).  In contrast to related runs,
which compare two machines at one moment, this compares one machine at two moments. -/

namespace PipeScript.Proofs.Machine.Progress

open PipeScript.Proofs.Machine.Programs

/-- **Onward actions**: every machine is related to the one that they leave. -/
def Onward (R : Machine → Machine → Prop) {α : Type} (x : Action α) : Prop :=
  ∀ m, R m (x m).2

/-- Relations by which nothing may happen, and what happens may go on. -/
structure Course (R : Machine → Machine → Prop) : Prop where
  refl : ∀ m, R m m
  trans : ∀ {m n o}, R m n → R n o → R m o

/-- Relations by which a command may note remarks and change the parts that it touches. -/
structure Admits (may : Part → Prop) (R : Machine → Machine → Prop) : Prop extends Course R where
  remark : ∀ m entry, IsRemark entry → R m { m with trace := entry :: m.trace }
  store : may .store → ∀ m (f : Store → Store), R m { m with store := f m.store }
  effects : may .effects → ∀ m effect, R m { m with effects := m.effects ++ [effect] }
  seed : may .seed → ∀ m (f : ℕ → ℕ), R m { m with seed := f m.seed }

theorem Admits.mono {may might : Part → Prop} {R : Machine → Machine → Prop} (hR : Admits may R)
    (hm : ∀ part, might part → may part) : Admits might R :=
  ⟨hR.toCourse, hR.remark, fun h => hR.store (hm _ h), fun h => hR.effects (hm _ h),
    fun h => hR.seed (hm _ h)⟩

/-! ### Composition -/

section Combinators

variable {R : Machine → Machine → Prop} (hR : Course R) {α β : Type}
include hR

theorem onward_pure (a : α) : Onward R (pure a : Action α) := fun m => hR.refl m

theorem onward_throw (fault : Fault) : Onward R (throw fault : Action α) := fun m => hR.refl m

/-- What an action has led to, the actions after it lead on. -/
theorem onward_from {x : Action α} {f : α → Action β} {m n : Machine} (hx : R m (x n).2)
    (hf : ∀ a, Onward R (f a)) : R m ((x >>= f) n).2 := by
  rw [bind_apply]
  generalize x n = result at hx ⊢
  obtain ⟨fault | a, after⟩ := result
  · exact hx
  · exact hR.trans hx (hf a after)

theorem onward_bind {x : Action α} {f : α → Action β} (hx : Onward R x)
    (hf : ∀ a, Onward R (f a)) : Onward R (x >>= f) :=
  fun m => onward_from hR (hx m) hf

theorem onward_tryCatch {x : Action α} {f : Fault → Action α} (hx : Onward R x)
    (hf : ∀ fault, Onward R (f fault)) : Onward R (tryCatch x f) := by
  intro m
  have hafter := hx m
  rw [tryCatch_apply]
  generalize x m = result at hafter ⊢
  obtain ⟨fault | a, after⟩ := result
  · exact hR.trans hafter (hf fault after)
  · exact hafter

theorem onward_ofExcept (result : Except Fault α) : Onward R (Action.ofExcept result) := by
  cases result with
  | ok a => exact onward_pure hR a
  | error fault => exact onward_throw hR fault

theorem onward_leavingCommand {x : Action α} (hx : Onward R x) :
    Onward R (Action.leavingCommand x) :=
  onward_tryCatch hR hx fun _ => onward_throw hR _

end Combinators

/-! ### Commands and pipelines -/

section Runs

variable {may : Part → Prop} {R : Machine → Machine → Prop} {nested : Nested}

/-- **Programs lead onward** by what admits them, if the pipelines that they run do. -/
theorem onward_of_within (hR : Admits may R) (hnested : ∀ command, Onward R (nested command))
    {α : Type} {p : Program α} (hp : Within may p) : Onward R (p nested) := by
  induction hp with
  | pure a => exact onward_pure hR.toCourse a
  | bind _ _ ihx ihf => exact onward_bind hR.toCourse ihx ihf
  | throw fault => exact onward_throw hR.toCourse fault
  | trial command =>
    refine onward_tryCatch hR.toCourse ?_ fun fault => ?_
    · exact onward_bind hR.toCourse (hnested command) fun _ => onward_pure hR.toCourse _
    · exact onward_bind hR.toCourse (fun m => hR.remark m _ trivial) fun _ =>
        onward_pure hR.toCourse _
  | look f => exact fun m => hR.refl m
  | idle => exact fun m => hR.remark m _ trivial
  | modifyStore hm f => exact fun m => hR.store hm m f
  | say hm effect => exact fun m => hR.effects hm m effect
  | reseed hm f => exact fun m => hR.seed hm m f
  | nested command => exact hnested command

theorem onward_run {b : Builtin} (hR : Admits (touches b) R)
    (hnested : ∀ command, Onward R (nested command)) (inv : Invocation) :
    Onward R (b.run nested inv) :=
  onward_of_within hR hnested (within_run b inv)

theorem onward_handler (hR : Admits (fun _ => True) R)
    (hnested : ∀ command, Onward R (nested command)) (handler : Handler) (inv : Invocation) :
    Onward R (handler.run nested inv) := by
  cases handler with
  | builtin b => exact onward_run (hR.mono fun _ _ => trivial) hnested inv
  | host run => exact onward_of_within hR hnested (within_host run inv)

theorem onward_runCalls (hR : Course R)
    (hdispatch : ∀ call pipe, Onward R (dispatch nested call pipe)) (calls : List Call)
    (pipe : String) : Onward R (runCalls nested calls pipe) := by
  induction calls generalizing pipe with
  | nil => exact onward_pure hR _
  | cons call rest ih =>
    refine onward_bind hR (hdispatch call pipe) fun output => ?_
    exact onward_bind hR (ih output) fun _ => onward_pure hR _

theorem onward_runText (hR : Course R)
    (hdispatch : ∀ call pipe, Onward R (dispatch nested call pipe)) (text pipe : String) :
    Onward R (runText nested text pipe) := by
  refine onward_bind hR (onward_ofExcept hR _) fun calls => ?_
  exact onward_bind hR (onward_runCalls hR hdispatch calls pipe) fun _ => onward_pure hR _

/-- **Runs lead onward** by what every dispatch does, if it is indifferent to the level. -/
theorem onward_execute (hR : Course R)
    (hdeeper : ∀ m n, R { m with depth := m.depth + 1 } n → R m { n with depth := n.depth - 1 })
    (hdispatch : ∀ nested : Nested, (∀ command, Onward R (nested command)) →
      ∀ call pipe, Onward R (dispatch nested call pipe))
    (text pipe : String) : Onward R (execute text pipe) := by
  have hlevels : ∀ (levels : ℕ) (text pipe : String), Onward R (executeWithin levels text pipe) := by
    intro levels
    induction levels with
    | zero => exact fun _ _ m => hR.refl m
    | succ levels ih =>
      intro text pipe m
      refine hdeeper m _ (onward_runText hR (hdispatch _ fun command => ?_) text pipe _)
      exact onward_bind hR (ih command "") fun _ => onward_pure hR _
  exact fun m => hlevels _ text pipe m

end Runs

end PipeScript.Proofs.Machine.Progress
