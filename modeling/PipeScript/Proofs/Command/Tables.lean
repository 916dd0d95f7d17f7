import PipeScript.Proofs.Command.Binding
import Mathlib.Data.List.Induction
import Mathlib.Data.List.Nodup

/-! # The two tables of a registry

A registry finds commands in one table and lists them from another.  Both are read off the history of
its registrations: a name leads to the latest command that goes by it (`get?_enrolled`), and listed is
the latest command of each own name (`mem_listed_enrolled`).  Binding a library is a number of
registrations, too (`bind_eq`).

So the tables agree for some histories only: an alias takes a name away from a command that stays
listed, and a command that is registered again leaves its former aliases behind.  A history that does
neither is `Tidy`, and these are exactly the ones for which the tables agree (`tables_of_built`).  The
built-in commands have a tidy history (`agree_withBuiltins`). -/

namespace PipeScript.Proofs.Command.Tables

open PipeScript.Proofs.Command.Binding

/-! ### Histories -/

/-- A call that changes a registry. -/
inductive Change where
  | register (command : Command)
  | bind (library : List Command) (replace : Bool)

def Change.apply (r : Registry) : Change → Registry
  | .register command => r.register command
  | .bind library replace => r.bind library replace

/-- The registry that calls make of an empty one. -/
def built (changes : List Change) : Registry := changes.foldl Change.apply .empty

/-- The registry that registering commands one after the other makes of an empty one. -/
def enrolled (log : List Command) : Registry := log.foldl .register .empty

/-- The commands of a library that binding registers. -/
def added (replace : Bool) : Registry → List Command → List Command
  | _, [] => []
  | r, command :: library =>
    if r.contains command.name && !replace then added replace r library
    else command :: added replace (r.register command) library

def Change.registers (r : Registry) : Change → List Command
  | .register command => [command]
  | .bind library replace => added replace r library

/-- The commands that calls register, in order. -/
def registrations : Registry → List Change → List Command
  | _, [] => []
  | r, change :: changes => change.registers r ++ registrations (change.apply r) changes

/-- **Binding registers** the commands that it does not pass over. -/
theorem bind_eq (r : Registry) (library : List Command) (replace : Bool) :
    r.bind library replace = (added replace r library).foldl .register r := by
  induction library generalizing r with
  | nil => rfl
  | cons command library ih =>
    have hstep : r.bind (command :: library) replace =
        (if r.contains command.name && !replace then r else r.register command).bind library
          replace := rfl
    rw [hstep, added]
    split_ifs with hknown
    · exact ih r
    · exact ih (r.register command)

theorem mem_of_mem_added {replace : Bool} {r : Registry} {library : List Command}
    {command : Command} (h : command ∈ added replace r library) : command ∈ library := by
  induction library generalizing r with
  | nil => exact h
  | cons first library ih =>
    rw [added] at h
    split_ifs at h with hknown
    · exact List.mem_cons_of_mem _ (ih h)
    · rcases List.mem_cons.mp h with rfl | h
      · exact List.mem_cons_self ..
      · exact List.mem_cons_of_mem _ (ih h)

theorem apply_eq (r : Registry) (change : Change) :
    change.apply r = (change.registers r).foldl .register r := by
  cases change with
  | register command => rfl
  | bind library replace => exact bind_eq r library replace

/-- **Every registry comes from registrations** alone. -/
theorem built_eq (changes : List Change) : built changes = enrolled (registrations .empty changes) := by
  unfold built enrolled
  generalize Registry.empty = r
  induction changes generalizing r with
  | nil => rfl
  | cons change changes ih =>
    rw [List.foldl_cons, ih, registrations, List.foldl_append, ← apply_eq]

/-! ### The latest command of a kind -/

/-- The command is the latest one in a history with a property. -/
def Latest (P : Command → Prop) (log : List Command) (command : Command) : Prop :=
  ∃ before after, log = before ++ command :: after ∧ P command ∧ ∀ later ∈ after, ¬ P later

section Latest

variable {P : Command → Prop} {log : List Command} {command : Command}

theorem latest_concat {last : Command} :
    Latest P (log ++ [last]) command ↔ P last ∧ command = last ∨ ¬ P last ∧ Latest P log command := by
  constructor
  · rintro ⟨before, after, heq, hcommand, hafter⟩
    rcases List.eq_nil_or_concat after with rfl | ⟨front, final, rfl⟩
    · obtain ⟨-, hlast⟩ := List.append_inj' heq rfl
      obtain rfl : last = command := by simpa using hlast
      exact .inl ⟨hcommand, rfl⟩
    · rw [List.concat_eq_append, ← List.cons_append, ← List.append_assoc] at heq
      rw [List.concat_eq_append] at hafter
      obtain ⟨hlog, hlast⟩ := List.append_inj' heq rfl
      obtain rfl : last = final := by simpa using hlast
      exact .inr ⟨hafter last (by simp), before, front, hlog, hcommand,
        fun later hlater => hafter later (List.mem_append_left _ hlater)⟩
  · rintro (⟨hlast, rfl⟩ | ⟨hlast, before, after, rfl, hcommand, hafter⟩)
    · exact ⟨log, [], rfl, hlast, fun later hlater => nomatch hlater⟩
    · refine ⟨before, after ++ [last], by simp, hcommand, fun later hlater => ?_⟩
      rcases List.mem_append.mp hlater with hlater | hlater
      · exact hafter later hlater
      · obtain rfl := List.mem_singleton.mp hlater
        exact hlast

theorem Latest.holds (h : Latest P log command) : P command := by
  obtain ⟨_, _, _, hcommand, _⟩ := h
  exact hcommand

theorem Latest.mem (h : Latest P log command) : command ∈ log := by
  obtain ⟨before, after, rfl, -, -⟩ := h
  simp

theorem Latest.behind (h : Latest P log command) (before : List Command) :
    Latest P (before ++ log) command := by
  obtain ⟨front, after, rfl, hcommand, hafter⟩ := h
  exact ⟨before ++ front, after, by simp, hcommand, hafter⟩

theorem Latest.unique {other : Command} (h : Latest P log command) (h' : Latest P log other) :
    command = other := by
  induction log using List.reverseRecOn with
  | nil =>
    obtain ⟨before, after, heq, -, -⟩ := h
    simp at heq
  | append_singleton log last ih =>
    rcases latest_concat.mp h with ⟨hlast, rfl⟩ | ⟨hlast, h⟩
    · rcases latest_concat.mp h' with ⟨-, rfl⟩ | ⟨hno, -⟩
      · rfl
      · exact absurd hlast hno
    · rcases latest_concat.mp h' with ⟨hyes, -⟩ | ⟨-, h'⟩
      · exact absurd hyes hlast
      · exact ih h h'

theorem exists_latest (h : ∃ command ∈ log, P command) : ∃ command, Latest P log command := by
  induction log using List.reverseRecOn with
  | nil =>
    obtain ⟨_, hmem, _⟩ := h
    cases hmem
  | append_singleton log last ih =>
    by_cases hlast : P last
    · exact ⟨last, latest_concat.mpr (.inl ⟨hlast, rfl⟩)⟩
    · obtain ⟨command, hmem, hcommand⟩ := h
      rcases List.mem_append.mp hmem with hmem | hmem
      · obtain ⟨found, hfound⟩ := ih ⟨command, hmem, hcommand⟩
        exact ⟨found, latest_concat.mpr (.inr ⟨hlast, hfound⟩)⟩
      · obtain rfl := List.mem_singleton.mp hmem
        exact absurd hcommand hlast

end Latest

/-! ### What the tables hold -/

/-- The own names of two commands are the same, regardless of case. -/
def SameName (a b : Command) : Prop := Text.lower a.name = Text.lower b.name

theorem goesBy_iff {command : Command} {name : String} :
    GoesBy command name ↔ Text.lower command.name = Text.lower name ∨ HasAlias command name := by
  unfold GoesBy HasAlias
  simp

theorem enrolled_concat (log : List Command) (last : Command) :
    enrolled (log ++ [last]) = (enrolled log).register last := by
  unfold enrolled
  rw [List.foldl_append]
  rfl

/-- **A name leads to the latest command that goes by it.** -/
theorem get?_enrolled {log : List Command} {name : String} {command : Command} :
    (enrolled log).get? name = some command ↔ Latest (GoesBy · name) log command := by
  induction log using List.reverseRecOn with
  | nil =>
    constructor
    · intro h
      cases h
    · rintro ⟨before, after, heq, -, -⟩
      simp at heq
  | append_singleton log last ih =>
    rw [enrolled_concat, latest_concat]
    by_cases hlast : GoesBy last name
    · rw [get?_register _ hlast]
      simp [hlast, eq_comm]
    · rw [get?_register_of_not _ hlast, ih]
      simp [hlast]

/-- **Listed is the latest command of each own name.** -/
theorem mem_listed_enrolled {log : List Command} {command : Command} :
    command ∈ (enrolled log).listed ↔ Latest (SameName · command) log command := by
  induction log using List.reverseRecOn with
  | nil =>
    constructor
    · intro h
      cases h
    · rintro ⟨before, after, heq, -, -⟩
      simp at heq
  | append_singleton log last ih =>
    have hlisted : command ∈ ((enrolled log).register last).listed ↔
        command ∈ (enrolled log).listed ∧ ¬ SameName last command ∨ command = last := by
      have heq : ((enrolled log).register last).listed = ((enrolled log).listed.filter
          fun c => Text.lower c.name ≠ Text.lower last.name) ++ [last] := rfl
      rw [heq, List.mem_append, List.mem_filter, List.mem_singleton, decide_eq_true_eq, ne_comm]
      exact Iff.rfl
    rw [enrolled_concat, hlisted, latest_concat, ih]
    constructor
    · rintro (⟨hcommand, hlast⟩ | rfl)
      · exact .inr ⟨hlast, hcommand⟩
      · exact .inl ⟨rfl, rfl⟩
    · rintro (⟨-, rfl⟩ | ⟨hlast, hcommand⟩)
      · exact .inr rfl
      · exact .inl ⟨hcommand, hlast⟩

/-- A listed name leads to its command, or to one that has it as an alias. -/
theorem get?_of_listed {log : List Command} {command : Command}
    (h : command ∈ (enrolled log).listed) :
    ∃ found, (enrolled log).get? command.name = some found ∧
      (found = command ∨ HasAlias found command.name) := by
  obtain ⟨before, after, rfl, -, hafter⟩ := mem_listed_enrolled.mp h
  have hgoes : ∃ other ∈ command :: after, GoesBy other command.name :=
    ⟨command, List.mem_cons_self .., goesBy_iff.mpr (.inl rfl)⟩
  obtain ⟨found, hfound⟩ := exists_latest hgoes
  refine ⟨found, get?_enrolled.mpr (hfound.behind before), ?_⟩
  rcases List.mem_cons.mp hfound.mem with rfl | hmem
  · exact .inl rfl
  · rcases goesBy_iff.mp hfound.holds with hname | halias
    · exact absurd hname (hafter found hmem)
    · exact .inr halias

/-- A command that is found is listed, or it is found under an alias that it left behind when another
command was registered under its own name. -/
theorem listed_of_get? {log : List Command} {name : String} {found : Command}
    (h : (enrolled log).get? name = some found) :
    found ∈ (enrolled log).listed ∨ HasAlias found name ∧
      ∃ command ∈ (enrolled log).listed, SameName command found ∧ ¬ GoesBy command name := by
  obtain ⟨before, after, rfl, hfound, hafter⟩ := get?_enrolled.mp h
  by_cases hagain : ∃ later ∈ after, SameName later found
  · obtain ⟨command, hcommand⟩ := exists_latest hagain
    have hsame : SameName command found := hcommand.holds
    have hother : ¬ GoesBy command name := hafter command hcommand.mem
    have hlisted : Latest (SameName · command) (before ++ found :: after) command := by
      have hkind : (SameName · command) = (SameName · found) := by
        funext other
        unfold SameName at hsame ⊢
        rw [hsame]
      rw [hkind]
      simpa using hcommand.behind (before ++ [found])
    refine .inr ⟨?_, command, mem_listed_enrolled.mpr hlisted, hsame, hother⟩
    rcases goesBy_iff.mp hfound with hname | halias
    · exact absurd (goesBy_iff.mpr (.inl (hsame.trans hname))) hother
    · exact halias
  · refine .inl (mem_listed_enrolled.mpr ⟨before, after, rfl, rfl, fun later hlater hsame => ?_⟩)
    exact hagain ⟨later, hlater, hsame⟩

/-! ### When the tables agree -/

/-- The tables agree: what is listed is found under its name, and what is found is listed. -/
structure Agree (r : Registry) : Prop where
  found : ∀ command ∈ r.listed, r.get? command.name = some command
  listed : ∀ name command, r.get? name = some command → command ∈ r.listed

/-- A history in which no name of a listed command is taken for an alias later, and no alias of a
command is left behind when its own name is registered again. -/
structure Tidy (log : List Command) : Prop where
  names : ∀ before command after, log = before ++ command :: after →
    (∀ later ∈ after, ¬ SameName later command) → ∀ later ∈ after, ¬ HasAlias later command.name
  aliases : ∀ before command after, log = before ++ command :: after →
    (∃ later ∈ after, SameName later command) →
      ∀ name, HasAlias command name → ∃ later ∈ after, GoesBy later name

theorem tidy_of_agree {log : List Command} (h : Agree (enrolled log)) : Tidy log where
  names := by
    rintro before command after rfl hafter later hlater halias
    have hlisted : command ∈ (enrolled (before ++ command :: after)).listed :=
      mem_listed_enrolled.mpr ⟨before, after, rfl, rfl, hafter⟩
    obtain ⟨found, hfound⟩ := exists_latest (P := (GoesBy · command.name))
      ⟨later, hlater, goesBy_iff.mpr (.inr halias)⟩
    have hget : (enrolled (before ++ command :: after)).get? command.name = some found :=
      get?_enrolled.mpr (by simpa using hfound.behind (before ++ [command]))
    obtain rfl : command = found := Option.some.inj ((h.found command hlisted).symm.trans hget)
    exact hafter command hfound.mem rfl
  aliases := by
    rintro before command after rfl hagain name halias
    refine Classical.byContradiction fun hleft => ?_
    have hget : (enrolled (before ++ command :: after)).get? name = some command :=
      get?_enrolled.mpr ⟨before, after, rfl, goesBy_iff.mpr (.inr halias),
        fun later hlater hname => hleft ⟨later, hlater, hname⟩⟩
    -- the command is the latest of its name, so it was registered again as it is
    obtain ⟨again, hlatest⟩ := exists_latest hagain
    obtain rfl : again = command := by
      refine Latest.unique ?_ (mem_listed_enrolled.mp (h.listed name command hget))
      simpa using hlatest.behind (before ++ [command])
    exact hleft ⟨again, hlatest.mem, goesBy_iff.mpr (.inr halias)⟩

theorem agree_of_tidy {log : List Command} (h : Tidy log) : Agree (enrolled log) where
  found := by
    intro command hlisted
    obtain ⟨before, after, heq, -, hafter⟩ := mem_listed_enrolled.mp hlisted
    refine get?_enrolled.mpr
      ⟨before, after, heq, goesBy_iff.mpr (.inl rfl), fun later hlater hlaterName => ?_⟩
    rcases goesBy_iff.mp hlaterName with hname | halias
    · exact hafter later hlater hname
    · exact h.names before command after heq hafter later hlater halias
  listed := by
    intro name command hget
    obtain ⟨before, after, heq, hcommand, hafter⟩ := get?_enrolled.mp hget
    refine mem_listed_enrolled.mpr ⟨before, after, heq, rfl, fun later hlater hsame => ?_⟩
    rcases goesBy_iff.mp hcommand with hname | halias
    · exact hafter later hlater (goesBy_iff.mpr (.inl (hsame.trans hname)))
    · obtain ⟨taker, htaker, hname⟩ := h.aliases before command after heq ⟨later, hlater, hsame⟩
        name halias
      exact hafter taker htaker hname

/-- **The two tables of a registry.**  Whatever calls have built it, a listed name leads to its
command or to one that has the name as an alias; a command that is found is listed, or found under an
alias that it left behind; and the tables agree exactly if the history is tidy. -/
theorem tables_of_built (changes : List Change) :
    (∀ command ∈ (built changes).listed, ∃ found,
      (built changes).get? command.name = some found ∧
        (found = command ∨ HasAlias found command.name)) ∧
    (∀ name found, (built changes).get? name = some found →
      found ∈ (built changes).listed ∨ HasAlias found name ∧
        ∃ command ∈ (built changes).listed, SameName command found ∧ ¬ GoesBy command name) ∧
    (Agree (built changes) ↔ Tidy (registrations .empty changes)) := by
  rw [built_eq]
  exact ⟨fun _ h => get?_of_listed h, fun _ _ h => listed_of_get? h, tidy_of_agree, agree_of_tidy⟩

/-- A command under the name `"a"`, and one that has this name as an alias. -/
def shadowing : List Change :=
  [.register (hostCommand "a"), .register { hostCommand "b" with aliases := ["a"] }]

/-- A command with the alias `"x"`, registered again without it. -/
def forgetting : List Change :=
  [.register { hostCommand "a" with aliases := ["x"] }, .register (hostCommand "a")]

/-- **The tables may disagree**, and in both ways: the name of a listed command leads elsewhere, and
a command that is found is not listed. -/
theorem tables_disagree :
    ((built shadowing).listed.map (·.name) = ["a", "b"] ∧
      ((built shadowing).get? "a").map (·.name) = some "b" ∧
      ¬ ∀ command ∈ (built shadowing).listed,
        (built shadowing).get? command.name = some command) ∧
    ((built forgetting).listed.map (·.aliases) = [[]] ∧
      ((built forgetting).get? "x").map (·.aliases) = some ["x"] ∧
      ¬ ∀ name command, (built forgetting).get? name = some command →
        command ∈ (built forgetting).listed) := by
  have hlisted : (built shadowing).listed.map (·.name) = ["a", "b"] := by decide +kernel
  have hshadowed : ((built shadowing).get? "a").map (·.name) = some "b" := by decide +kernel
  have hremaining : (built forgetting).listed.map (·.aliases) = [[]] := by decide +kernel
  have hforgotten : ((built forgetting).get? "x").map (·.aliases) = some ["x"] := by decide +kernel
  refine ⟨⟨hlisted, hshadowed, fun hfound => ?_⟩, hremaining, hforgotten, fun hlisted => ?_⟩
  · have hname : "a" ∈ (built shadowing).listed.map (·.name) := by
      rw [hlisted]
      exact List.mem_cons_self ..
    obtain ⟨command, hmem, hcommand⟩ := List.mem_map.mp hname
    have hget := hfound command hmem
    rw [hcommand] at hget
    rw [hget, Option.map_some, hcommand] at hshadowed
    exact absurd hshadowed (by decide)
  · obtain ⟨command, hget, haliases⟩ := Option.map_eq_some_iff.mp hforgotten
    have hmem := List.mem_map_of_mem (f := (·.aliases)) (hlisted "x" command hget)
    rw [hremaining, haliases] at hmem
    exact absurd hmem (by decide)

/-! ### The built-in commands -/

/-- Commands whose aliases are no names of others, and whose names are registered once or with the
same aliases, have a tidy history. -/
theorem tidy_of_apart {log : List Command}
    (hnames : ∀ a ∈ log, ∀ b ∈ log, HasAlias b a.name → SameName b a)
    (haliases : ∀ a ∈ log, ∀ b ∈ log, SameName b a → ∀ name, HasAlias a name → GoesBy b name) :
    Tidy log where
  names := by
    rintro before command after rfl hafter later hlater halias
    exact hafter later hlater (hnames command (by simp) later (by simp [hlater]) halias)
  aliases := by
    rintro before command after rfl ⟨later, hlater, hsame⟩ name halias
    exact ⟨later, hlater, haliases command (by simp) later (by simp [hlater]) hsame name halias⟩

/-- Built-in commands have different names. -/
theorem eq_of_sameName {b b' : Builtin} (h : SameName b.command b'.command) : b = b' := by
  have hdistinct : ((Builtin.expressions ++ Builtin.hostCommands).map
      fun b => Text.lower b.command.name).Nodup := by decide +kernel
  have hall : ∀ b : Builtin, b ∈ Builtin.expressions ++ Builtin.hostCommands := by
    intro b
    cases b <;> decide
  exact List.inj_on_of_nodup_map hdistinct (hall b) (hall b') h

/-- No built-in command is called as the one alias among them. -/
theorem not_hasAlias_name (b b' : Builtin) : ¬ HasAlias b.command b'.command.name := by
  intro halias
  have hname := lower_of_hasAlias halias
  revert hname
  cases b' <;> decide

/-- A machine without commands of its host has registered built-in ones only. -/
theorem withBuiltins_eq : ∃ log, Registry.empty.withBuiltins = enrolled log ∧
    ∀ command ∈ log, ∃ b : Builtin, b.command = command := by
  have hbuilt : Registry.empty.withBuiltins =
      built [.bind (Builtin.expressions.map (·.command)) false,
        .bind (Builtin.hostCommands.map (·.command)) false] := by
    simp only [Registry.withBuiltins, built, List.foldl_cons, List.foldl_nil, Change.apply]
  refine ⟨_, hbuilt.trans (built_eq _), fun command hmem => ?_⟩
  simp only [registrations, Change.registers, List.append_nil, List.mem_append] at hmem
  rcases hmem with hmem | hmem
  all_goals
    obtain ⟨b, -, hb⟩ := List.mem_map.mp (mem_of_mem_added hmem)
    exact ⟨b, hb⟩

/-- A registry that finds built-in commands only. -/
def OnlyBuiltins (r : Registry) : Prop :=
  ∀ name command, r.get? name = some command → ∃ b : Builtin, b.command = command

theorem onlyBuiltins_withBuiltins : OnlyBuiltins Registry.empty.withBuiltins := by
  intro name command hget
  obtain ⟨log, heq, hlog⟩ := withBuiltins_eq
  rw [heq] at hget
  exact hlog command (get?_enrolled.mp hget).mem

/-- **The listing of a machine without commands of its host** is what can be run on it. -/
theorem agree_withBuiltins : Agree Registry.empty.withBuiltins := by
  obtain ⟨log, heq, hlog⟩ := withBuiltins_eq
  rw [heq]
  refine agree_of_tidy (tidy_of_apart (fun a ha b hb halias => ?_) fun a ha b hb hsame name halias => ?_)
  · obtain ⟨x, rfl⟩ := hlog a ha
    obtain ⟨y, rfl⟩ := hlog b hb
    exact absurd halias (not_hasAlias_name y x)
  · obtain ⟨x, rfl⟩ := hlog a ha
    obtain ⟨y, rfl⟩ := hlog b hb
    obtain rfl := eq_of_sameName hsame
    exact goesBy_iff.mpr (.inr halias)

end PipeScript.Proofs.Command.Tables
