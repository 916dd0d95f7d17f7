import PipeScript.Proofs.Control.Envelopes
import PipeScript.Proofs.Machine.Execution
import PipeScript.Proofs.Pipeline.Rendering

/-! # Chains of conditions

A chain `/ife c0 | /then b0 | /elseif c1 | /then b1 | … | /else e` keeps its state on the pipe, as
text that every stage reads again.  Between two stages the pipe is in one of three states: it says
that the last condition was true, that it was false, or it says nothing about conditions.  Followed
through these states, the chain does what `select` does: it runs the conditions up to the first one
that says yes, and the branch of that one alone (`finalPipe_chain`). -/

namespace PipeScript.Proofs.Control.IfChain

open PipeScript.Command PipeScript.Pipeline
open PipeScript.Proofs.Machine.Programs PipeScript.Proofs.Machine.Relations
open PipeScript.Proofs.Machine.Execution PipeScript.Proofs.Pipeline.Rendering
open PipeScript.Proofs.Control.Envelopes

/-! ### Chains -/

/-- A condition and its branch. -/
structure Clause where
  condition : String
  branch : String

/-- A stage that is given a command line and nothing else. -/
def stage (name command : String) : Call := ⟨name, [], command, ""⟩

/-- The stages after the first clause. -/
def laterStages (rest : List Clause) (final : Option String) : List Call :=
  match rest with
  | [] => (final.map (stage "else")).toList
  | clause :: rest =>
    stage "elseif" clause.condition :: stage "then" clause.branch :: laterStages rest final

def chain (first : Clause) (rest : List Clause) (final : Option String) : List Call :=
  stage "ife" first.condition :: stage "then" first.branch :: laterStages rest final

/-- The commands of a chain. -/
def commands (clauses : List Clause) (final : Option String) : List String :=
  clauses.flatMap (fun clause => [clause.condition, clause.branch]) ++ final.toList

/-- A text that starts like a command and is stripped. -/
structure IsCommandLine (s : String) : Prop where
  slash : s.toList.head? = some '/'
  stripped : Text.strip s = s

/-! ### What a chain is meant to do -/

/-- The branch of the first condition that says yes; no condition after it is run. -/
def firstBranch? (nested : Nested) : List Clause → Action (Option String)
  | [] => return none
  | clause :: rest => do
    if saysYes (← nested clause.condition) then return some clause.branch
    else firstBranch? nested rest

/-- Runs that branch, or the last command when no condition says yes. -/
def select (nested : Nested) (clauses : List Clause) (final : Option String) : Action String := do
  match ← firstBranch? nested clauses with
  | some branch => nested branch
  | none =>
    match final with
    | some command => nested command
    | none => return "\x7b\"if\":false\x7d"

/-- Whether a text is the outcome of a condition. -/
def IsOutcome (s : String) : Prop :=
  ∃ outcome, Envelope.decode? s = some (.condition outcome)

instance (s : String) : Decidable (IsOutcome s) :=
  match h : Envelope.decode? s with
  | some (.condition outcome) => isTrue ⟨outcome, h⟩
  | none => isFalse fun ⟨_, hs⟩ => nomatch h.symm.trans hs
  | some (.returned _) => isFalse fun ⟨_, hs⟩ => nomatch h.symm.trans hs
  | some (.raised _) => isFalse fun ⟨_, hs⟩ => nomatch h.symm.trans hs
  | some (.switch _) => isFalse fun ⟨_, hs⟩ => nomatch h.symm.trans hs

/-- The output of the branch that runs is no outcome of a condition. -/
def BranchSilent (nested : Nested) (clauses : List Clause) (m : Machine) : Prop :=
  ∀ branch before output after, firstBranch? nested clauses m = (.ok (some branch), before) →
    nested branch before = (.ok output, after) → ¬ IsOutcome output

instance (nested : Nested) (clauses : List Clause) (m : Machine) :
    Decidable (BranchSilent nested clauses m) :=
  match hf : firstBranch? nested clauses m with
  | (.ok (some branch), before) =>
    match hb : nested branch before with
    | (.ok output, after) =>
      decidable_of_iff (¬ IsOutcome output) ⟨fun h _ _ _ _ hf' hb' => by
        cases hf.symm.trans hf'
        cases hb.symm.trans hb'
        exact h, fun h => h branch before output after hf hb⟩
    | (.error _, _) => isTrue fun _ _ _ _ hf' hb' => by
      cases hf.symm.trans hf'
      cases hb.symm.trans hb'
  | (.ok none, _) => isTrue fun _ _ _ _ hf' _ => nomatch hf.symm.trans hf'
  | (.error _, _) => isTrue fun _ _ _ _ hf' _ => nomatch hf.symm.trans hf'

/-- The built-in command that a handler runs. -/
def builtin? : Handler → Option Builtin
  | .builtin b => some b
  | .host _ => none

/-- A built-in command is found under its name. -/
def Holds (registry : Registry) (b : Builtin) : Prop :=
  (registry.get? b.describe.name).bind (builtin? ·.handler) = some b

instance (registry : Registry) (b : Builtin) : Decidable (Holds registry b) :=
  inferInstanceAs (Decidable (_ = _))

/-- The commands of the stages are found under their names. -/
def HoldsChain (registry : Registry) : Prop :=
  ∀ b ∈ [Builtin.condition, .whenTrue, .elseIf, .otherwise], Holds registry b

instance (registry : Registry) : Decidable (HoldsChain registry) :=
  inferInstanceAs (Decidable (∀ b ∈ _, _))

/-! ### Outcomes on the pipe -/

theorem decode?_condition (outcome : Bool) :
    Envelope.decode? (Envelope.condition outcome).encode = some (.condition outcome) :=
  decode?_encode (.condition outcome)

theorem encode_false : (Envelope.condition false).encode = "\x7b\"if\":false\x7d" := by decide

theorem not_outcome {s : String} (h : ¬ IsOutcome s) (outcome : Bool) :
    Envelope.decode? s ≠ some (.condition outcome) :=
  fun hs => h ⟨outcome, hs⟩

section Outcome

variable {stageName incoming : String} {outcome : Bool} {run : Action String}

theorem whenOutcome_runs (h : Envelope.decode? incoming = some (.condition outcome)) :
    whenOutcome stageName outcome run incoming = run := by
  unfold whenOutcome
  rw [h]
  exact if_pos rfl

/-- A stage that the pipe does not call for changes the trace at most. -/
theorem whenOutcome_passes (h : Envelope.decode? incoming ≠ some (.condition outcome))
    {m n : Machine} (hmn : SameButTrace m n) :
    Agrees (whenOutcome stageName outcome run incoming m) ((pure incoming : Action String) n) := by
  unfold whenOutcome
  rcases hd : Envelope.decode? incoming with _ | (actual | result | message | subject)
  · exact ⟨rfl, (sameButTrace_note m _).trans hmn⟩
  · have hne : actual ≠ outcome := by
      rintro rfl
      exact h hd
    dsimp only
    rw [if_neg hne]
    exact ⟨rfl, hmn⟩
  · exact ⟨rfl, hmn⟩
  · exact ⟨rfl, hmn⟩
  · exact ⟨rfl, hmn⟩

end Outcome

/-! ### One stage -/

theorem builtin?_eq_some {handler : Handler} {b : Builtin} (h : builtin? handler = some b) :
    handler = .builtin b := by
  cases handler with
  | builtin _ => exact congrArg Handler.builtin (Option.some.inj h)
  | host _ => cases h

/-- A call of a built-in command runs it. -/
theorem dispatch_builtin (nested : Nested) {b : Builtin} {m : Machine} (h : Holds m.registry b)
    {call : Call} (hname : call.name = b.describe.name) (pipe : String) :
    ∃ entry, dispatch nested call pipe m =
      Action.leavingCommand (b.run nested (call.invocation pipe))
        { m with trace := entry :: m.trace } := by
  obtain ⟨command, hget, hhandler⟩ := Option.bind_eq_some_iff.mp h
  rw [← hname] at hget
  obtain ⟨entry, hdispatch⟩ := dispatch_of_get? hget nested pipe
  rw [builtin?_eq_some hhandler] at hdispatch
  exact ⟨entry, hdispatch⟩

/-- A call does what its command does, when that ends in faults of the command language only. -/
theorem call_agrees {b : Builtin} {call : Call} {pipe : String} {m n : Machine}
    (h : Holds n.registry b) (hname : call.name = b.describe.name) (hmn : SameButTrace m n)
    {run : Action String}
    (hrun : ∀ m', SameButTrace m' n → Agrees (b.run runNested (call.invocation pipe) m') (run n))
    (hown : OwnFault (run n)) : Agrees (dispatch runNested call pipe m) (run n) := by
  rw [← hmn.registry] at h
  obtain ⟨entry, he⟩ := dispatch_builtin runNested h hname pipe
  have hr := hrun _ ((sameButTrace_note m entry).trans hmn)
  rw [he, leavingCommand_apply]
  · exact hr
  · intro fault hf
    rw [hr.1] at hf
    exact hown fault hf

/-- The pipe fills no placeholder in the command line of a stage. -/
theorem invocation_stage (name : String) {line : String} (hslash : line.toList.head? = some '/')
    (pipe : String) : (stage name line).invocation pipe = ⟨[], line, pipe⟩ := by
  have hne : line ≠ "" := by
    rintro rfl
    cases hslash
  simp [stage, Call.invocation, Call.hasValue, hslash, hne]

/-- A stage runs its command on the command line as it stands. -/
theorem stage_agrees {b : Builtin} {line pipe : String} {m n : Machine} (h : Holds n.registry b)
    (hline : IsCommandLine line) (hmn : SameButTrace m n) {run : Action String}
    (hrun : ∀ m', SameButTrace m' n → Agrees (b.run runNested ⟨[], line, pipe⟩ m') (run n))
    (hown : OwnFault (run n)) :
    Agrees (dispatch runNested (stage b.describe.name line) pipe m) (run n) := by
  refine call_agrees h rfl hmn (fun m' hm' => ?_) hown
  rw [invocation_stage b.describe.name hline.slash]
  exact hrun m' hm'

section Stages

variable {b : Builtin} {line pipe stageName : String} {outcome : Bool} {run : Action String}
  {m n : Machine} (hb : Holds n.registry b) (hline : IsCommandLine line) (hmn : SameButTrace m n)
  (hwhen : b.run runNested ⟨[], line, pipe⟩ = whenOutcome stageName outcome run pipe)
include hb hline hmn hwhen

/-- A stage that the pipe calls for runs. -/
theorem stage_runs (hpipe : Envelope.decode? pipe = some (.condition outcome))
    (hrun : ∀ m', SameButTrace m' n → Agrees (run m') (run n))
    (hown : OwnFault (run n)) :
    Agrees (dispatch runNested (stage b.describe.name line) pipe m) (run n) := by
  refine stage_agrees hb hline hmn (fun m' hm' => ?_) hown
  rw [hwhen, whenOutcome_runs hpipe]
  exact hrun m' hm'

/-- A stage that the pipe does not call for hands the pipe on. -/
theorem stage_passes (hpipe : Envelope.decode? pipe ≠ some (.condition outcome)) :
    Agrees (dispatch runNested (stage b.describe.name line) pipe m)
      ((pure pipe : Action String) n) := by
  refine stage_agrees hb hline hmn (fun m' hm' => ?_) fun _ hf => nomatch hf
  rw [hwhen]
  exact whenOutcome_passes hpipe hm'

end Stages

/-- Runs a condition for the text of its outcome. -/
def outcomeText (nested : Nested) (condition : String) : Action String := do
  return (Envelope.condition (saysYes (← nested condition))).encode

theorem run_elseIf (nested : Nested) (line pipe : String) :
    Builtin.elseIf.run nested ⟨[], line, pipe⟩ =
      whenOutcome "ELSEIF" false (outcomeText nested line) pipe := rfl

theorem run_whenTrue (nested : Nested) (line pipe : String) :
    Builtin.whenTrue.run nested ⟨[], line, pipe⟩ =
      whenOutcome "THEN" true (nested line) pipe := rfl

theorem run_otherwise (nested : Nested) (line pipe : String) :
    Builtin.otherwise.run nested ⟨[], line, pipe⟩ =
      whenOutcome "ELSE" false (nested line) pipe := rfl

theorem outcomeText_sameButTrace {m n : Machine} (h : SameButTrace m n) (condition : String) :
    Agrees (outcomeText runNested condition m) (outcomeText runNested condition n) :=
  (runNested_sameButTrace h condition).bind fun _ _ _ _ h => ⟨rfl, h⟩

theorem ownFault_outcomeText (condition : String) (m : Machine) :
    OwnFault (outcomeText runNested condition m) :=
  OwnFault.bind (ownFault_runNested condition m) fun _ _ => .ok _ _

section Clauses

variable {m n : Machine} (hchain : HoldsChain n.registry) (hmn : SameButTrace m n)
include hchain hmn

theorem ife_agrees {condition : String} (hline : IsCommandLine condition) (pipe : String) :
    Agrees (dispatch runNested (stage "ife" condition) pipe m)
      (outcomeText runNested condition n) :=
  stage_agrees (b := .condition) (hchain _ (by simp)) hline hmn
    (fun _ hm' => outcomeText_sameButTrace hm' condition) (ownFault_outcomeText condition n)

theorem elseif_agrees {condition : String} (hline : IsCommandLine condition) :
    Agrees (dispatch runNested (stage "elseif" condition) (Envelope.condition false).encode m)
      (outcomeText runNested condition n) :=
  stage_runs (b := .elseIf) (hchain _ (by simp)) hline hmn (run_elseIf _ _ _)
    (decode?_condition false) (fun _ hm' => outcomeText_sameButTrace hm' condition)
    (ownFault_outcomeText condition n)

theorem then_agrees {branch : String} (hline : IsCommandLine branch) :
    Agrees (dispatch runNested (stage "then" branch) (Envelope.condition true).encode m)
      (runNested branch n) :=
  stage_runs (b := .whenTrue) (hchain _ (by simp)) hline hmn (run_whenTrue _ _ _)
    (decode?_condition true) (fun _ hm' => runNested_sameButTrace hm' branch)
    (ownFault_runNested branch n)

theorem else_agrees {command : String} (hline : IsCommandLine command) :
    Agrees (dispatch runNested (stage "else" command) (Envelope.condition false).encode m)
      (runNested command n) :=
  stage_runs (b := .otherwise) (hchain _ (by simp)) hline hmn (run_otherwise _ _ _)
    (decode?_condition false) (fun _ hm' => runNested_sameButTrace hm' command)
    (ownFault_runNested command n)

end Clauses

/-! ### Followed through the chain -/

/-- Every text of a chain is a command line. -/
def CommandLines (clauses : List Clause) (final : Option String) : Prop :=
  ∀ line ∈ commands clauses final, IsCommandLine line

instance (line : String) : Decidable (IsCommandLine line) :=
  decidable_of_iff (line.toList.head? = some '/' ∧ Text.strip line = line)
    ⟨fun h => ⟨h.1, h.2⟩, fun h => ⟨h.1, h.2⟩⟩

instance (clauses : List Clause) (final : Option String) : Decidable (CommandLines clauses final) :=
  inferInstanceAs (Decidable (∀ line ∈ _, _))

section Lines

variable {clause : Clause} {rest : List Clause} {final : Option String}

theorem CommandLines.condition (h : CommandLines (clause :: rest) final) :
    IsCommandLine clause.condition :=
  h _ (by simp [commands])

theorem CommandLines.branch (h : CommandLines (clause :: rest) final) :
    IsCommandLine clause.branch :=
  h _ (by simp [commands])

theorem CommandLines.tail (h : CommandLines (clause :: rest) final) : CommandLines rest final :=
  fun line hline => h line (by
    rw [commands, List.flatMap_cons, List.append_assoc]
    exact List.mem_append_right _ hline)

theorem CommandLines.last {command : String} (h : CommandLines [] (some command)) :
    IsCommandLine command :=
  h _ (by simp [commands])

end Lines

/-- **Once a branch has run** the stages after it hand its output on. -/
theorem laterStages_pass {rest : List Clause} {final : Option String}
    (hlines : CommandLines rest final) {output : String} (hout : ¬ IsOutcome output)
    {m n : Machine} (hchain : HoldsChain n.registry) (hmn : SameButTrace m n) :
    Agrees (outputOf runNested (laterStages rest final) output m)
      ((pure output : Action String) n) := by
  induction rest generalizing m with
  | nil =>
    cases final with
    | none => exact ⟨rfl, hmn⟩
    | some command =>
      have hpass := stage_passes (b := .otherwise) (hchain _ (by simp)) hlines.last hmn
        (run_otherwise _ _ _) (not_outcome hout false)
      change Agrees (outputOf runNested [stage "else" command] output m) _
      rw [outputOf_singleton]
      exact hpass
  | cons clause rest ih =>
    have hcond := stage_passes (b := .elseIf) (hchain _ (by simp)) hlines.condition hmn
      (run_elseIf _ _ _) (not_outcome hout false)
    rw [laterStages, outputOf_cons]
    refine hcond.bind_pure_left fun before h => ?_
    have hthen := stage_passes (b := .whenTrue) (hchain _ (by simp)) hlines.branch h
      (run_whenTrue _ _ _) (not_outcome hout true)
    rw [outputOf_cons]
    exact hthen.bind_pure_left fun before' h' => ih hlines.tail h'

theorem select_cons (nested : Nested) (clause : Clause) (rest : List Clause)
    (final : Option String) :
    select nested (clause :: rest) final = (do
      if saysYes (← nested clause.condition) then nested clause.branch
      else select nested rest final) := by
  unfold select
  rw [firstBranch?, bind_assoc]
  refine bind_congr fun output => ?_
  by_cases h : saysYes output = true
  · simp only [h, if_true, pure_bind]
  · simp only [h, if_false, Bool.false_eq_true]

section Silent

variable {nested : Nested} {clause : Clause} {rest : List Clause} {m after : Machine}
  {output : String} (h : BranchSilent nested (clause :: rest) m)
  (hc : nested clause.condition m = (.ok output, after))
include h hc

theorem BranchSilent.branch (hy : saysYes output = true) {last : Machine} {text : String}
    (hb : nested clause.branch after = (.ok text, last)) : ¬ IsOutcome text := by
  refine h clause.branch after text last ?_ hb
  rw [firstBranch?, bind_ok m hc, if_pos hy]
  rfl

theorem BranchSilent.tail (hn : saysYes output ≠ true) : BranchSilent nested rest after := by
  intro branch before text last hbranch
  refine h branch before text last ?_
  rw [firstBranch?, bind_ok m hc, if_neg hn]
  exact hbranch

end Silent

/-- **A condition and the stages after it**, once the stages after its branch are followed through
from a false outcome on. -/
theorem clause_agrees {clause : Clause} {rest : List Clause} {final : Option String}
    (hlines : CommandLines (clause :: rest) final) {call : Call} {pipe : String} {m n : Machine}
    (hchain : HoldsChain n.registry) (hsilent : BranchSilent runNested (clause :: rest) n)
    (hcall : Agrees (dispatch runNested call pipe m) (outcomeText runNested clause.condition n))
    (hrest : ∀ m' n', HoldsChain n'.registry → BranchSilent runNested rest n' → SameButTrace m' n' →
      Agrees (outputOf runNested (laterStages rest final) (Envelope.condition false).encode m')
        (select runNested rest final n')) :
    Agrees
      (outputOf runNested (call :: stage "then" clause.branch :: laterStages rest final) pipe m)
      (select runNested (clause :: rest) final n) := by
  rw [outputOf_cons, select_cons]
  refine Agrees.bind_map hcall fun output before after hc h => ?_
  have hafter : HoldsChain after.registry := by
    have hkeep := registry_runNested clause.condition n
    rw [hc] at hkeep
    rw [hkeep]
    exact hchain
  rw [outputOf_cons]
  by_cases hy : saysYes output = true
  · rw [hy, if_pos rfl, ← bind_pure (runNested clause.branch)]
    refine (then_agrees hafter h hlines.branch).bind fun text before' after' hb h' => ?_
    have hkeep := registry_runNested clause.branch after
    rw [hb] at hkeep
    refine laterStages_pass hlines.tail (hsilent.branch hc hy hb) ?_ h'
    rw [hkeep]
    exact hafter
  · have hno : saysYes output = false := by simpa using hy
    have hfalse : Envelope.decode? (Envelope.condition false).encode ≠ some (.condition true) := by
      rw [decode?_condition]
      simp
    have hpass := stage_passes (b := .whenTrue) (hafter _ (by simp)) hlines.branch h
      (run_whenTrue _ _ _) hfalse
    rw [hno, if_neg (by simp)]
    exact hpass.bind_pure_left fun before' h' => hrest before' after hafter (hsilent.tail hc hy) h'

/-- **After a false outcome** the rest of the chain does what it is meant to do. -/
theorem laterStages_agree {rest : List Clause} {final : Option String}
    (hlines : CommandLines rest final) {m n : Machine} (hchain : HoldsChain n.registry)
    (hsilent : BranchSilent runNested rest n) (hmn : SameButTrace m n) :
    Agrees (outputOf runNested (laterStages rest final) (Envelope.condition false).encode m)
      (select runNested rest final n) := by
  induction rest generalizing m n with
  | nil =>
    cases final with
    | none =>
      rw [encode_false]
      exact ⟨rfl, hmn⟩
    | some command =>
      change Agrees (outputOf runNested [stage "else" command] _ m) (runNested command n)
      rw [outputOf_singleton]
      exact else_agrees hchain hmn hlines.last
  | cons clause rest ih =>
    refine clause_agrees hlines hchain hsilent (elseif_agrees hchain hmn hlines.condition) ?_
    exact fun m' n' hchain' hsilent' h => ih hlines.tail hchain' hsilent' h

/-! ### Executed -/

theorem IsCommandLine.toList_eq {line : String} (h : IsCommandLine line) :
    ∃ more, line.toList = '/' :: more := by
  have hslash := h.slash
  cases hl : line.toList with
  | nil =>
    rw [hl] at hslash
    cases hslash
  | cons c more =>
    rw [hl, List.head?_cons, Option.some.injEq] at hslash
    exact ⟨more, by rw [hslash]⟩

theorem renderable_stage {name line : String} (hname : name ≠ "")
    (hsolid : ∀ x ∈ name.toList, Text.isBlank x = false ∧ Text.isGap x = false)
    (hline : IsCommandLine line) : Renderable (stage name line) where
  name_ne := hname
  name_solid := hsolid
  keys_nodup := List.nodup_nil
  keys := fun _ h => nomatch h
  texts := fun _ h => nomatch h
  value_stripped := hline.stripped
  value_keyless := by
    obtain ⟨more, hmore⟩ := hline.toList_eq
    change ¬ StartsWithKey (line.toList.dropWhile Text.isGap)
    rw [hmore, List.dropWhile_cons_of_neg (by decide)]
    rintro ⟨key, rest, ⟨c, tail, rfl, hc, -⟩, he⟩
    rw [List.cons_append, List.cons.injEq] at he
    rw [← he.1] at hc
    exact absurd hc (by decide)

theorem renderable_laterStages {rest : List Clause} {final : Option String}
    (hlines : CommandLines rest final) : ∀ c ∈ laterStages rest final, Renderable c := by
  induction rest with
  | nil =>
    cases final with
    | none => exact fun _ h => nomatch h
    | some command =>
      intro c hc
      obtain rfl := List.mem_singleton.mp hc
      exact renderable_stage (by decide) (name_solid_of_all (by decide)) hlines.last
  | cons clause rest ih =>
    intro c hc
    rw [laterStages, List.mem_cons, List.mem_cons] at hc
    rcases hc with rfl | rfl | hc
    · exact renderable_stage (by decide) (name_solid_of_all (by decide)) hlines.condition
    · exact renderable_stage (by decide) (name_solid_of_all (by decide)) hlines.branch
    · exact ih hlines.tail c hc

theorem renderable_chain {first : Clause} {rest : List Clause} {final : Option String}
    (hlines : CommandLines (first :: rest) final) : ∀ c ∈ chain first rest final, Renderable c := by
  intro c hc
  rw [chain, List.mem_cons, List.mem_cons] at hc
  rcases hc with rfl | rfl | hc
  · exact renderable_stage (by decide) (name_solid_of_all (by decide)) hlines.condition
  · exact renderable_stage (by decide) (name_solid_of_all (by decide)) hlines.branch
  · exact renderable_laterStages hlines.tail c hc

/-- Where a call was read from does not matter to what it does. -/
theorem outputOf_raw (nested : Nested) (cs : List Call) (raw : Call → String) (pipe : String) :
    outputOf nested (cs.map fun c => { c with raw := raw c }) pipe = outputOf nested cs pipe := by
  induction cs generalizing pipe with
  | nil => rfl
  | cons c cs ih =>
    funext m
    rw [List.map_cons, outputOf_cons, outputOf_cons]
    have hrest : outputOf nested (cs.map fun c => { c with raw := raw c }) = outputOf nested cs :=
      funext ih
    rw [hrest]
    rfl

/-- **A chain of conditions runs exactly one branch**: whatever its commands do, fail at and write,
it has the final pipe or the fault of `select`, one level deeper, and leaves the same machine but
for the trace. -/
theorem finalPipe_chain {first : Clause} {rest : List Clause} {final : Option String}
    (hlines : CommandLines (first :: rest) final) {m : Machine} (hdepth : m.depth < m.maxDepth)
    (hchain : HoldsChain m.registry)
    (hsilent : BranchSilent runNested (first :: rest) { m with depth := m.depth + 1 })
    (pipe : String) :
    Agrees (finalPipe (renderPipeline (chain first rest final)) pipe m)
      (Action.deeper (select runNested (first :: rest) final) m) := by
  have hcalls : calls (renderPipeline (chain first rest final)) =
      .ok ((chain first rest final).map fun c => { c with raw := render c }) := by
    rw [calls_rendered (renderable_chain hlines), mapM_call_render (renderable_chain hlines)]
  rw [finalPipe_eq hdepth hcalls, outputOf_raw]
  refine Agrees.deeper ?_
  have hdeep : HoldsChain { m with depth := m.depth + 1 }.registry := hchain
  refine clause_agrees hlines hdeep hsilent (ife_agrees hdeep (.refl _) hlines.condition pipe) ?_
  exact fun _ _ hchain' hsilent' h => laterStages_agree hlines.tail hchain' hsilent' h

/-- A first clause whose condition says no. -/
def idleClause : Clause := ⟨"/pass a | /test left=b rule=eq right=c", "/echo not this"⟩

/-- A clause whose condition says yes, with a bar in its branch. -/
def barredClause : Clause := ⟨"/pass On", "/setvar key=x \x7b\x7bpipe\x7d\x7d | /echo that"⟩

theorem finalPipe_barredClause :
    CommandLines [idleClause, barredClause] (some "/raise too late") ∧
      (Machine.start .empty .empty 2).depth < (Machine.start .empty .empty 2).maxDepth ∧
      HoldsChain (Machine.start .empty .empty 2).registry ∧
      BranchSilent runNested [idleClause, barredClause]
        { Machine.start .empty .empty 2 with depth := 1 } ∧
      Agrees
        (finalPipe (renderPipeline (chain idleClause [barredClause] (some "/raise too late"))) ""
          (Machine.start .empty .empty 2))
        (Action.deeper (select runNested [idleClause, barredClause] (some "/raise too late"))
          (Machine.start .empty .empty 2)) := by
  have hlines : CommandLines [idleClause, barredClause] (some "/raise too late") := by
    decide +kernel
  have hchain : HoldsChain (Machine.start .empty .empty 2).registry := by decide +kernel
  have hsilent : BranchSilent runNested [idleClause, barredClause]
      { Machine.start .empty .empty 2 with depth := 1 } := by decide +kernel
  exact ⟨hlines, by decide, hchain, hsilent, finalPipe_chain hlines (by decide) hchain hsilent ""⟩

end PipeScript.Proofs.Control.IfChain
