import PipeScript.Proofs.Machine.Programs

/-! # Binding a library

A registration takes all names of its command, the own one and the aliases, and leaves every other
name as it was (`get?_register`).  Binding a library without `replace` passes over the commands whose
own name is known, and over nothing else.  So a known name stays with its command unless a command
that is added has it as an alias (`get?_bind_of_known`): binding asks for the own name only.  Among
the built-in commands one has an alias, so a host keeps every name but that one
(`host_command_runs`). -/

namespace PipeScript.Proofs.Command.Binding

open PipeScript.Proofs.Machine.Programs

/-- A command goes by its name and its aliases, regardless of case. -/
def GoesBy (command : Command) (name : String) : Prop :=
  ∃ own ∈ command.name :: command.aliases, Text.lower own = Text.lower name

/-- A command has an alias, regardless of case. -/
def HasAlias (command : Command) (name : String) : Prop :=
  ∃ own ∈ command.aliases, Text.lower own = Text.lower name

instance (command : Command) (name : String) : Decidable (HasAlias command name) :=
  inferInstanceAs (Decidable (∃ own ∈ command.aliases, _))

/-! ### One registration -/

theorem lookup_filter_ne {α : Type} {key other : String} (h : key ≠ other)
    (table : List (String × α)) :
    (table.filter fun (k, _) => k ≠ other).lookup key = table.lookup key := by
  induction table with
  | nil => rfl
  | cons entry table ih =>
    obtain ⟨k, x⟩ := entry
    by_cases hk : k = other
    · subst hk
      rw [List.filter_cons_of_neg (by simp), List.lookup_cons, ih, beq_false_of_ne h]
    · rw [List.filter_cons_of_pos (by simpa using hk), List.lookup_cons, List.lookup_cons, ih]

theorem lookup_enter_self (command : Command) (table : List (String × Command)) (own : String) :
    (Registry.enter command table own).lookup (Text.lower own) = some command := by
  rw [Registry.enter, List.lookup_cons_self]

theorem lookup_enter_ne {own key : String} (h : key ≠ Text.lower own) (command : Command)
    (table : List (String × Command)) :
    (Registry.enter command table own).lookup key = table.lookup key := by
  rw [Registry.enter, List.lookup_cons, beq_false_of_ne h]
  exact lookup_filter_ne h table

/-- The names that are entered lead to the command, the others to where they led before. -/
theorem lookup_foldl_enter (command : Command) (names : List String) (key : String)
    (table : List (String × Command)) :
    (names.foldl (Registry.enter command) table).lookup key =
      if ∃ own ∈ names, Text.lower own = key then some command else table.lookup key := by
  induction names generalizing table with
  | nil => simp
  | cons own names ih =>
    rw [List.foldl_cons, ih]
    by_cases hlater : ∃ own ∈ names, Text.lower own = key
    · rw [if_pos hlater, if_pos]
      obtain ⟨later, hmem, hlower⟩ := hlater
      exact ⟨later, List.mem_cons_of_mem _ hmem, hlower⟩
    · rw [if_neg hlater]
      by_cases hown : Text.lower own = key
      · subst hown
        rw [lookup_enter_self, if_pos ⟨own, List.mem_cons_self .., rfl⟩]
      · rw [lookup_enter_ne (Ne.symm hown), if_neg]
        rintro ⟨other, hmem, hlower⟩
        rcases List.mem_cons.mp hmem with rfl | hmem
        · exact hown hlower
        · exact hlater ⟨other, hmem, hlower⟩

section Register

variable {command : Command} {name : String} (r : Registry)

/-- **A registration takes all names of its command.** -/
theorem get?_register (h : GoesBy command name) : (r.register command).get? name = some command := by
  unfold Registry.get? Registry.register
  rw [lookup_foldl_enter]
  exact if_pos h

/-- **A registration leaves all other names as they were.** -/
theorem get?_register_of_not (h : ¬ GoesBy command name) :
    (r.register command).get? name = r.get? name := by
  unfold Registry.get? Registry.register
  rw [lookup_foldl_enter]
  exact if_neg h

/-- No registration makes a name unknown. -/
theorem contains_register {r : Registry} (h : r.contains name = true) (command : Command) :
    (r.register command).contains name = true := by
  unfold Registry.contains at h ⊢
  by_cases hname : GoesBy command name
  · rw [get?_register r hname]
    rfl
  · rw [get?_register_of_not r hname]
    exact h

end Register

/-! ### A whole library -/

theorem get?_congr (r : Registry) {name other : String} (h : Text.lower name = Text.lower other) :
    r.get? name = r.get? other := by
  unfold Registry.get?
  rw [h]

/-- Binding a command and the ones after it: a known own name is passed over. -/
theorem bind_cons (r : Registry) (command : Command) (library : List Command) :
    r.bind (command :: library) false =
      (if r.contains command.name then r else r.register command).bind library false := by
  simp [Registry.bind]

/-- **A known name stays with its command**, unless a command that is added has it as an alias. -/
theorem get?_bind_of_known {r : Registry} {name : String} (h : r.contains name = true)
    (library : List Command) :
    (r.bind library false).get? name = r.get? name ∨
      ∃ added ∈ library, r.contains added.name = false ∧ HasAlias added name ∧
        (r.bind library false).get? name = some added := by
  induction library generalizing r with
  | nil => exact .inl rfl
  | cons command library ih =>
    rw [bind_cons]
    by_cases hknown : r.contains command.name = true
    · rw [if_pos hknown]
      rcases ih h with hkept | ⟨added, hmem, hfree, halias, hget⟩
      · exact .inl hkept
      · exact .inr ⟨added, List.mem_cons_of_mem _ hmem, hfree, halias, hget⟩
    · rw [if_neg hknown]
      rcases ih (contains_register h command) with hkept | ⟨added, hmem, hfree, halias, hget⟩
      · rw [hkept]
        by_cases hname : GoesBy command name
        · rw [get?_register r hname]
          obtain ⟨own, hown, hlower⟩ := hname
          rcases List.mem_cons.mp hown with rfl | hown
          · -- the own name would have been known
            unfold Registry.contains at h hknown
            rw [get?_congr r hlower] at hknown
            exact absurd h hknown
          · exact .inr ⟨command, List.mem_cons_self .., by simpa using hknown,
              ⟨own, hown, hlower⟩, rfl⟩
        · exact .inl (get?_register_of_not r hname)
      · refine .inr ⟨added, List.mem_cons_of_mem _ hmem, ?_, halias, hget⟩
        rcases hadded : r.contains added.name with _ | _
        · rfl
        · rw [contains_register hadded command] at hfree
          cases hfree

/-- A known name that no added command has as an alias stays with its command. -/
theorem get?_bind_of_free {r : Registry} {name : String} {command : Command}
    (h : r.get? name = some command) {library : List Command}
    (hfree : ∀ added ∈ library, ¬ HasAlias added name) :
    (r.bind library false).get? name = some command := by
  have hknown : r.contains name = true := by
    unfold Registry.contains
    rw [h]
    rfl
  rcases get?_bind_of_known hknown library with hkept | ⟨added, hmem, -, halias, -⟩
  · rw [hkept, h]
  · exact absurd halias (hfree added hmem)

/-! ### The built-in commands -/

/-- One built-in command has an alias. -/
theorem lower_of_hasAlias {b : Builtin} {name : String} (h : HasAlias b.command name) :
    Text.lower name = "replace-all" := by
  obtain ⟨own, hown, hlower⟩ := h
  cases b with
  | replaceAll =>
    obtain rfl : own = "replace-all" := List.mem_singleton.mp hown
    rw [← hlower]
    decide
  | _ => cases hown

theorem get?_withBuiltins {r : Registry} {name : String} {command : Command}
    (h : r.get? name = some command) (hname : Text.lower name ≠ "replace-all") :
    r.withBuiltins.get? name = some command := by
  have hfree : ∀ builtins : List Builtin, ∀ added ∈ builtins.map (·.command),
      ¬ HasAlias added name := by
    intro builtins added hadded halias
    obtain ⟨b, -, rfl⟩ := List.mem_map.mp hadded
    exact hname (lower_of_hasAlias halias)
  exact get?_bind_of_free (get?_bind_of_free h (hfree Builtin.expressions))
    (hfree Builtin.hostCommands)

theorem registry_start (store : Store) (r : Registry) (maxDepth : ℕ) :
    (Machine.start store r maxDepth).registry = r.withBuiltins := by
  rw [Machine.start]

/-- **Binding keeps the names that are known**: such a name stays with its command, or goes to an
added command that has it as an alias.  So a command of the host that is registered before the
built-in ones is the one that runs, under every name but the alias that one of those has. -/
theorem host_command_runs {r : Registry} {name : String} {command : Command}
    (h : r.get? name = some command) :
    (∀ library : List Command, (r.bind library false).get? name = some command ∨
      ∃ added ∈ library, r.contains added.name = false ∧ HasAlias added name ∧
        (r.bind library false).get? name = some added) ∧
    (Text.lower name ≠ "replace-all" → ∀ m : Machine, m.registry = r.withBuiltins →
      ∀ (nested : Nested) (call : Call) (pipe : String), call.name = name →
        ∃ entry, dispatch nested call pipe m =
          Action.leavingCommand (command.handler.run nested (call.invocation pipe))
            { m with trace := entry :: m.trace }) := by
  constructor
  · intro library
    have hknown : r.contains name = true := by
      unfold Registry.contains
      rw [h]
      rfl
    rw [← h]
    exact get?_bind_of_known hknown library
  · rintro hname m hm nested call pipe rfl
    have hget : m.registry.get? call.name = some command := by
      rw [hm]
      exact get?_withBuiltins h hname
    exact dispatch_of_get? hget nested pipe

/-- A command of the host that is told its value only. -/
def hostCommand (name : String) : Command :=
  ⟨name, .host fun _ value _ => .ok (.text value), [], "", "", false⟩

/-- A machine whose host has a command under the name of a built-in one. -/
def hostMachine : Machine :=
  Machine.start .empty (Registry.empty.register (hostCommand "echo")) 64

theorem host_command_runs_echo :
    (Registry.empty.register (hostCommand "echo")).get? "ECHO" = some (hostCommand "echo") ∧
      Text.lower "ECHO" ≠ "replace-all" ∧
      hostMachine.registry = (Registry.empty.register (hostCommand "echo")).withBuiltins ∧
      ∃ entry, dispatch (fun _ => pure "") ⟨"ECHO", [], "hello", ""⟩ "" hostMachine =
        Action.leavingCommand ((hostCommand "echo").handler.run (fun _ => pure "")
            (Call.invocation ⟨"ECHO", [], "hello", ""⟩ ""))
          { hostMachine with trace := entry :: hostMachine.trace } := by
  have hget : (Registry.empty.register (hostCommand "echo")).get? "ECHO" =
      some (hostCommand "echo") :=
    get?_register .empty ⟨"echo", List.mem_cons_self .., by decide⟩
  have hname : Text.lower "ECHO" ≠ "replace-all" := by decide
  have hmachine : hostMachine.registry =
      (Registry.empty.register (hostCommand "echo")).withBuiltins := registry_start _ _ _
  refine ⟨hget, hname, hmachine, ?_⟩
  exact (host_command_runs hget).2 hname hostMachine hmachine (fun _ => pure "")
    ⟨"ECHO", [], "hello", ""⟩ "" rfl

/-- A command of the host that says its value in capitals. -/
def loudCommand : Command :=
  ⟨"loud", .host fun _ value _ => .ok (.text (Text.upper value)), [], "", "", false⟩

example : (dispatch (fun _ => pure "") ⟨"Loud", [], "stra\u00dfe", ""⟩ ""
    (Machine.start .empty (Registry.empty.register loudCommand) 64)).1.toOption = some "STRASSE" := by
  decide +kernel

/-- A command of the host under the alias of a built-in one, which takes the name away. -/
theorem alias_takes_known_name :
    let r := Registry.empty.register (hostCommand "replace-all")
    (r.get? "replace-all").map (·.name) = some "replace-all" ∧
      ((r.bind (Builtin.expressions.map (·.command)) false).get? "replace-all").map (·.name) =
        some "replaceAll" ∧
      ¬ ∀ (library : List Command) (name : String), r.contains name = true →
        (r.bind library false).get? name = r.get? name := by
  have hbefore : ((Registry.empty.register (hostCommand "replace-all")).get? "replace-all").map
      (·.name) = some "replace-all" := by decide +kernel
  have hafter : (((Registry.empty.register (hostCommand "replace-all")).bind
      (Builtin.expressions.map (·.command)) false).get? "replace-all").map (·.name) =
        some "replaceAll" := by decide +kernel
  refine ⟨hbefore, hafter, fun hkeeps => ?_⟩
  have hkept := hkeeps (Builtin.expressions.map (·.command)) "replace-all" (by decide +kernel)
  rw [hkept, hbefore] at hafter
  exact absurd hafter (by decide)

end PipeScript.Proofs.Command.Binding
