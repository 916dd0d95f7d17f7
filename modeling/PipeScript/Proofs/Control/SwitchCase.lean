import PipeScript.Proofs.Control.IfChain
import PipeScript.Proofs.Text.Filling

/-! # Switches and cases

The stages `/case value=v c` of a chain see a switch on the pipe and hand it on until one of them has
a value that loosely equals its subject.  That one puts the output of its command in the place of
the switch, so the stages behind it find nothing to compare with.  The chain does what `runMatch`
does: it runs the command of the first case that matches, with the subject filled in, or leaves the
pipe as it is (`finalPipe_cases`). -/

namespace PipeScript.Proofs.Control.SwitchCase

open PipeScript.Command PipeScript.Pipeline
open PipeScript.Proofs.Text.Filling PipeScript.Proofs.Json.Reading PipeScript.Proofs.Value.Entries
open PipeScript.Proofs.Machine.Programs PipeScript.Proofs.Machine.Relations
open PipeScript.Proofs.Machine.Execution
open PipeScript.Proofs.Control.Envelopes PipeScript.Proofs.Control.IfChain

/-! ### Cases -/

/-- A case: its value, its command, and the segment that it was read from. -/
structure Case where
  value : String
  command : String
  raw : String

/-- The stage of a case. -/
def Case.call (c : Case) : Call := ⟨"case", [("value", c.value)], c.command, c.raw⟩

/-- A case that is read as it stands: its command is one, and no placeholder of the pipe is in its
value. -/
structure Case.Plain (c : Case) : Prop where
  slash : c.command.toList.head? = some '/'
  free : FreeOf "pipe" c.value

instance (c : Case) : Decidable c.Plain :=
  decidable_of_iff (c.command.toList.head? = some '/' ∧ FreeOf "pipe" c.value)
    ⟨fun h => ⟨h.1, h.2⟩, fun h => ⟨h.1, h.2⟩⟩

/-! ### What a chain is meant to do -/

/-- The first case whose value loosely equals a subject. -/
def matching? (subject : Value) (cases : List Case) : Option Case :=
  cases.find? fun c => subject.looseEq false (.text c.value)

/-- The command of a case with the subject filled in. -/
def Case.filled (c : Case) (subject : Value) : String :=
  Template.fillAll c.command [("value", subject.placeholderText)]

/-- Runs the command of that case; without one the pipe stays. -/
def runMatch (nested : Nested) (subject : Value) (cases : List Case) (pipe : String) :
    Action String :=
  match matching? subject cases with
  | some c => nested (c.filled subject)
  | none => return pipe

/-- Whether a text is a switch. -/
def IsSwitch (s : String) : Prop :=
  ∃ subject, Envelope.decode? s = some (.switch subject)

instance (s : String) : Decidable (IsSwitch s) :=
  match h : Envelope.decode? s with
  | some (.switch subject) => isTrue ⟨subject, h⟩
  | none => isFalse fun ⟨_, hs⟩ => nomatch h.symm.trans hs
  | some (.returned _) => isFalse fun ⟨_, hs⟩ => nomatch h.symm.trans hs
  | some (.raised _) => isFalse fun ⟨_, hs⟩ => nomatch h.symm.trans hs
  | some (.condition _) => isFalse fun ⟨_, hs⟩ => nomatch h.symm.trans hs

/-- The output of the case that runs is no switch. -/
def CaseSilent (nested : Nested) (subject : Value) (cases : List Case) (m : Machine) : Prop :=
  ∀ c output after, matching? subject cases = some c →
    nested (c.filled subject) m = (.ok output, after) → ¬ IsSwitch output

instance (nested : Nested) (subject : Value) (cases : List Case) (m : Machine) :
    Decidable (CaseSilent nested subject cases m) :=
  match hc : matching? subject cases with
  | some c =>
    match hrun : nested (c.filled subject) m with
    | (.ok output, after) =>
      decidable_of_iff (¬ IsSwitch output) ⟨fun h _ _ _ hc' hrun' => by
        cases hc.symm.trans hc'
        cases hrun.symm.trans hrun'
        exact h, fun h => h c output after hc hrun⟩
    | (.error _, _) => isTrue fun _ _ _ hc' hrun' => by
      cases hc.symm.trans hc'
      cases hrun.symm.trans hrun'
  | none => isTrue fun _ _ _ hc' _ => nomatch hc.symm.trans hc'

/-! ### One stage -/

/-- The subject of a switch is an item of its dictionary. -/
theorem mem_of_switch {entries : Entries Value} {subject : Value}
    (h : Envelope.ofEntries? entries = some (.switch subject)) :
    ∃ key, (key, subject) ∈ entries := by
  unfold Envelope.ofEntries? at h
  split at h
  · cases h
  · split at h
    · split_ifs at h
      · cases h
      · cases h
    · obtain ⟨item, hitem, hsubject⟩ := Option.map_eq_some_iff.mp h
      obtain rfl : item = subject := Envelope.switch.inj hsubject
      exact mem_of_get? (Option.filter_eq_some_iff.mp hitem).1

/-- Integers that were read from the pipe are short enough to be written again. -/
theorem hasLongInteger_of_switch {s : String} {subject : Value}
    (h : Envelope.decode? s = some (.switch subject)) : subject.hasLongInteger = false := by
  unfold Envelope.decode? at h
  split at h
  · next entries hread =>
    have hshort := anyLongEntry_eq_false_iff.mp (hasLongInteger_of_parse? hread)
    obtain ⟨key, hkey⟩ := mem_of_switch h
    exact (hshort _ hkey).2
  · cases h

theorem matchCase_switch (nested : Nested) {inv : Invocation} {subject : Value}
    (h : Envelope.decode? inv.incoming = some (.switch subject)) :
    matchCase nested inv =
      if subject.looseEq false (inv.argumentValue "value") then
        nested (Template.fillAll inv.value [("value", subject.placeholderText)])
      else pure inv.incoming := by
  have hwrite : Action.write Value.placeholderText subject = pure subject.placeholderText := by
    rw [Action.write, hasLongInteger_of_switch h, if_neg Bool.false_ne_true]
  unfold matchCase
  rw [h]
  dsimp only
  rw [hwrite, pure_bind]

theorem matchCase_passes (nested : Nested) {inv : Invocation} (h : ¬ IsSwitch inv.incoming)
    {m n : Machine} (hmn : SameButTrace m n) :
    Agrees (matchCase nested inv m) ((pure inv.incoming : Action String) n) := by
  unfold matchCase
  rcases hd : Envelope.decode? inv.incoming with _ | (outcome | result | message | subject)
  · exact ⟨rfl, (sameButTrace_note m _).trans hmn⟩
  · exact ⟨rfl, hmn⟩
  · exact ⟨rfl, hmn⟩
  · exact ⟨rfl, hmn⟩
  · exact absurd ⟨subject, hd⟩ h

section Call

variable {c : Case} (hplain : c.Plain) (pipe : String)
include hplain

theorem invocation_call :
    c.call.invocation pipe = ⟨[("value", c.value)], c.command, pipe⟩ := by
  have hne : c.command ≠ "" := by
    intro hempty
    have hslash := hplain.slash
    rw [hempty] at hslash
    cases hslash
  simp [Case.call, Call.invocation, Call.hasValue, hplain.slash, hne, fill_of_free hplain.free]

theorem incoming_call : (c.call.invocation pipe).incoming = pipe := by
  rw [invocation_call hplain]
  rfl

theorem argumentValue_call : (c.call.invocation pipe).argumentValue "value" = .text c.value := by
  rw [invocation_call hplain]
  rfl

theorem value_call : (c.call.invocation pipe).value = c.command := by
  rw [invocation_call hplain]

end Call

/-- Runs the command of a case that matches, and otherwise hands the pipe on. -/
def runCase (nested : Nested) (subject : Value) (c : Case) (pipe : String) : Action String :=
  if subject.looseEq false (.text c.value) then nested (c.filled subject) else pure pipe

theorem matchCase_call (nested : Nested) {c : Case} (hplain : c.Plain) {pipe : String}
    {subject : Value} (hpipe : Envelope.decode? pipe = some (.switch subject)) :
    matchCase nested (c.call.invocation pipe) = runCase nested subject c pipe := by
  have hincoming : Envelope.decode? (c.call.invocation pipe).incoming = some (.switch subject) := by
    rw [incoming_call hplain]
    exact hpipe
  rw [matchCase_switch nested hincoming, incoming_call hplain, argumentValue_call hplain,
    value_call hplain]
  rfl

theorem runCase_sameButTrace {m n : Machine} (hmn : SameButTrace m n) (subject : Value) (c : Case)
    (pipe : String) :
    Agrees (runCase runNested subject c pipe m) (runCase runNested subject c pipe n) := by
  unfold runCase
  split_ifs
  · exact runNested_sameButTrace hmn _
  · exact ⟨rfl, hmn⟩

theorem ownFault_runCase (subject : Value) (c : Case) (pipe : String) (m : Machine) :
    OwnFault (runCase runNested subject c pipe m) := by
  unfold runCase
  split_ifs
  · exact ownFault_runNested _ m
  · exact .ok _ _

section Stage

variable {c : Case} (hplain : c.Plain) {m n : Machine} (h : Holds n.registry .matchCase)
  (hmn : SameButTrace m n) {pipe : String}
include hplain h hmn

/-- With a switch on the pipe a case runs its command, if it matches. -/
theorem case_agrees {subject : Value} (hpipe : Envelope.decode? pipe = some (.switch subject)) :
    Agrees (dispatch runNested c.call pipe m) (runCase runNested subject c pipe n) := by
  have hname : c.call.name = Builtin.matchCase.describe.name := rfl
  refine call_agrees h hname hmn (fun m' hm' => ?_) (ownFault_runCase subject c pipe n)
  have hrun : Builtin.matchCase.run runNested (c.call.invocation pipe) =
      runCase runNested subject c pipe := matchCase_call runNested hplain hpipe
  rw [hrun]
  exact runCase_sameButTrace hm' subject c pipe

/-- Without one it hands the pipe on. -/
theorem case_passes (hpipe : ¬ IsSwitch pipe) :
    Agrees (dispatch runNested c.call pipe m) ((pure pipe : Action String) n) := by
  have hname : c.call.name = Builtin.matchCase.describe.name := rfl
  refine call_agrees h hname hmn (fun m' hm' => ?_) (.ok _ _)
  have hincoming : ¬ IsSwitch (c.call.invocation pipe).incoming := by
    rw [incoming_call hplain]
    exact hpipe
  have hpass := matchCase_passes runNested hincoming hm'
  rw [incoming_call hplain] at hpass
  exact hpass

end Stage

/-! ### Followed through the chain -/

/-- **Without a switch on the pipe** the cases hand it on. -/
theorem cases_pass {cases : List Case} (hplain : ∀ c ∈ cases, c.Plain) {pipe : String}
    (hpipe : ¬ IsSwitch pipe) {m n : Machine} (h : Holds n.registry .matchCase)
    (hmn : SameButTrace m n) :
    Agrees (outputOf runNested (cases.map Case.call) pipe m) ((pure pipe : Action String) n) := by
  induction cases generalizing m with
  | nil => exact ⟨rfl, hmn⟩
  | cons c rest ih =>
    rw [List.map_cons, outputOf_cons]
    refine (case_passes (hplain c (List.mem_cons_self ..)) h hmn hpipe).bind_pure_left ?_
    exact fun before hbefore => ih (fun d hd => hplain d (List.mem_cons_of_mem _ hd)) hbefore

/-- **With a switch on the pipe** the first case that matches runs, and no other. -/
theorem cases_agree {cases : List Case} (hplain : ∀ c ∈ cases, c.Plain) {pipe : String}
    {subject : Value} (hpipe : Envelope.decode? pipe = some (.switch subject)) {m n : Machine}
    (h : Holds n.registry .matchCase) (hsilent : CaseSilent runNested subject cases n)
    (hmn : SameButTrace m n) :
    Agrees (outputOf runNested (cases.map Case.call) pipe m)
      (runMatch runNested subject cases pipe n) := by
  induction cases generalizing m with
  | nil => exact ⟨rfl, hmn⟩
  | cons c rest ih =>
    have hc := hplain c (List.mem_cons_self ..)
    have hrest : ∀ d ∈ rest, d.Plain := fun d hd => hplain d (List.mem_cons_of_mem _ hd)
    rw [List.map_cons, outputOf_cons]
    have hcase := case_agrees hc h hmn hpipe
    unfold runCase at hcase
    by_cases hequal : subject.looseEq false (.text c.value) = true
    · have hfind : matching? subject (c :: rest) = some c := List.find?_cons_of_pos hequal
      have hmatch : runMatch runNested subject (c :: rest) pipe = runNested (c.filled subject) := by
        unfold runMatch
        rw [hfind]
      rw [if_pos hequal] at hcase
      rw [hmatch, ← bind_pure (runNested (c.filled subject))]
      refine hcase.bind fun output before after hrun hsame => ?_
      refine cases_pass hrest (hsilent c output after hfind hrun) ?_ hsame
      have hkeep := registry_runNested (c.filled subject) n
      rw [hrun] at hkeep
      rw [hkeep]
      exact h
    · have hfind : matching? subject (c :: rest) = matching? subject rest :=
        List.find?_cons_of_neg hequal
      have hmatch : runMatch runNested subject (c :: rest) pipe =
          runMatch runNested subject rest pipe := by
        unfold runMatch
        rw [hfind]
      rw [if_neg hequal] at hcase
      rw [hmatch]
      refine hcase.bind_pure_left fun before hbefore => ?_
      refine ih hrest (fun d output after hd => hsilent d output after ?_) hbefore
      rw [hfind]
      exact hd

/-! ### Executed -/

/-- **A switch runs the first case that matches**, and no other: the final pipe or the fault is that
of `runMatch`, one level deeper, and so is the machine but for the trace. -/
theorem finalPipe_cases {cases : List Case} (hplain : ∀ c ∈ cases, c.Plain) {text : String}
    (hcalls : calls text = .ok (cases.map Case.call)) {pipe : String} {subject : Value}
    (hpipe : Envelope.decode? pipe = some (.switch subject)) {m : Machine}
    (hdepth : m.depth < m.maxDepth) (h : Holds m.registry .matchCase)
    (hsilent : CaseSilent runNested subject cases { m with depth := m.depth + 1 }) :
    Agrees (finalPipe text pipe m) ((runMatch runNested subject cases pipe).deeper m) := by
  rw [finalPipe_eq hdepth hcalls]
  have hdeep : Holds { m with depth := m.depth + 1 }.registry .matchCase := h
  exact Agrees.deeper (cases_agree hplain hpipe hdeep hsilent (.refl _))

/-- A case that does not match, one that does, and one that would. -/
def threeCases : List Case :=
  [⟨"two", "/throw not this", "/case value=two /throw not this"⟩,
    ⟨"1e0", "/setvar key=x \x7b\x7bVALUE\x7d\x7d | /echo one",
      "/case value=1e0 /setvar key=x \x7b\x7bVALUE\x7d\x7d | /echo one"⟩,
    ⟨"1", "/throw too late", "/case value=\"1\" /throw too late"⟩]

/-- The pipeline that these cases are read from. -/
def threeCasesText : String :=
  "/case value=two /throw not this | " ++
    "/case value=1e0 /setvar key=x \x7b\x7bVALUE\x7d\x7d \\| /echo one | " ++
    "/case value=\"1\" /throw too late"

theorem finalPipe_threeCases :
    (∀ c ∈ threeCases, c.Plain) ∧
      calls threeCasesText = .ok (threeCases.map Case.call) ∧
      Envelope.decode? (Envelope.switch (.bool true)).encode = some (.switch (.bool true)) ∧
      (Machine.start .empty .empty 2).depth < (Machine.start .empty .empty 2).maxDepth ∧
      Holds (Machine.start .empty .empty 2).registry .matchCase ∧
      CaseSilent runNested (.bool true) threeCases
        { Machine.start .empty .empty 2 with depth := 1 } ∧
      Agrees
        (finalPipe threeCasesText (Envelope.switch (.bool true)).encode
          (Machine.start .empty .empty 2))
        ((runMatch runNested (.bool true) threeCases (Envelope.switch (.bool true)).encode).deeper
          (Machine.start .empty .empty 2)) := by
  have hplain : ∀ c ∈ threeCases, c.Plain := by decide +kernel
  have hcalls : calls threeCasesText = .ok (threeCases.map Case.call) := by decide +kernel
  have hpipe : Envelope.decode? (Envelope.switch (.bool true)).encode =
      some (.switch (.bool true)) := decode?_encode (.switch (.bool true) rfl)
  have hholds : Holds (Machine.start .empty .empty 2).registry .matchCase := by decide +kernel
  have hsilent : CaseSilent runNested (.bool true) threeCases
      { Machine.start .empty .empty 2 with depth := 1 } := by decide +kernel
  exact ⟨hplain, hcalls, hpipe, by decide, hholds, hsilent,
    finalPipe_cases hplain hcalls hpipe (by decide) hholds hsilent⟩

end PipeScript.Proofs.Control.SwitchCase
