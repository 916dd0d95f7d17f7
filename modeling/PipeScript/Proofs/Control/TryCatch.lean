import PipeScript.Proofs.Control.IfChain
import PipeScript.Proofs.Text.Filling

/-! # Trying and catching

`/try c | /catch h` runs `c`.  What `c` puts out, or the message it fails with, travels to the next
stage inside an envelope and comes out of it as it went in, so the two stages do what
`runOrHandle` does: they end in the output of `c`, or in that of `h` with the message filled in
(`finalPipe_tryCatch`).  The commands may have blanks behind them, which reading a pipeline drops:
neither what runs nor what is filled in depends on those. -/

namespace PipeScript.Proofs.Control.TryCatch

open PipeScript.Command PipeScript.Pipeline PipeScript.Text
open PipeScript.Proofs.Text.Strip PipeScript.Proofs.Text.Filling
open PipeScript.Proofs.Json.Reading PipeScript.Proofs.Value.Entries
open PipeScript.Proofs.Pipeline.Bars PipeScript.Proofs.Pipeline.Rendering
open PipeScript.Proofs.Machine.Programs PipeScript.Proofs.Machine.Relations
open PipeScript.Proofs.Machine.Execution
open PipeScript.Proofs.Control.Envelopes PipeScript.Proofs.Control.IfChain

/-! ### What is meant -/

/-- A handler with the message of a failure filled in. -/
def handling (handler message : String) : String :=
  Template.fillAll handler [("exception", message), ("error", message)]

/-- Runs a command and, when it fails, its handler. -/
def runOrHandle (nested : Nested) (command handler : String) : Action String :=
  tryCatch (nested command) fun fault => nested (handling handler fault.message)

/-- The envelope of what a command gives. -/
def outcomeOf : Except Fault String → Envelope
  | .ok output => .returned (.text output)
  | .error fault => .raised (some fault.message)

/-! ### Trying -/

/-- Runs a command for the envelope of what it gives. -/
def tried (nested : Nested) (command : String) : Action String := fun m =>
  (.ok (outcomeOf (nested command m).1).encode, (nested command m).2)

theorem attempt_agrees (inv : Invocation) {m n : Machine} (hmn : SameButTrace m n) :
    Agrees (attempt runNested inv m) (tried runNested inv.value n) := by
  obtain ⟨hresult, hafter⟩ := runNested_sameButTrace hmn inv.value
  unfold attempt tried
  rw [← hresult]
  rw [bind_apply, tryCatch_apply, bind_apply]
  rcases hrun : runNested inv.value m with ⟨fault | output, after⟩
  · rw [hrun] at hafter
    exact ⟨rfl, (sameButTrace_note after _).trans hafter⟩
  · rw [hrun] at hafter
    exact ⟨rfl, hafter⟩

/-- **A tried command never fails**: `/try` ends in the envelope of what its command gives, from
which it keeps all that was done. -/
theorem try_agrees {command : String} (hcommand : IsCommandLine command) {m n : Machine}
    (h : Holds n.registry .attempt) (hmn : SameButTrace m n) (pipe : String) :
    Agrees (dispatch runNested (stage "try" command) pipe m) (tried runNested command n) :=
  stage_agrees (b := .attempt) h hcommand hmn
    (fun _ hm' => attempt_agrees ⟨[], command, pipe⟩ hm') (.ok _ _)

/-! ### Catching -/

/-- The result in an envelope is null or an item of its dictionary. -/
theorem mem_of_returned {entries : Entries Value} {result : Value}
    (h : Envelope.ofEntries? entries = some (.returned result)) :
    result = .null ∨ ∃ key, (key, result) ∈ entries := by
  unfold Envelope.ofEntries? at h
  split at h
  · cases h
  · split at h
    · split_ifs at h
      · cases h
      · obtain rfl := Envelope.returned.inj (Option.some.inj h)
        cases hmember : Envelope.member? entries "result" with
        | none => exact .inl rfl
        | some result => exact .inr (mem_of_get? (Option.filter_eq_some_iff.mp hmember).1)
    · obtain ⟨item, -, hitem⟩ := Option.map_eq_some_iff.mp h
      cases hitem

/-- A result that was read from the pipe can be written to it again. -/
theorem hasLongInteger_of_returned {s : String} {result : Value}
    (h : Envelope.decode? s = some (.returned result)) : result.hasLongInteger = false := by
  unfold Envelope.decode? at h
  split at h
  · next entries hread =>
    have hshort := anyLongEntry_eq_false_iff.mp (hasLongInteger_of_parse? hread)
    rcases mem_of_returned h with rfl | ⟨key, hkey⟩
    · rfl
    · exact (hshort _ hkey).2
  · cases h

/-- A result is unwrapped without failing, whatever it is. -/
theorem recover_returned (nested : Nested) {inv : Invocation} {result : Value}
    (h : Envelope.decode? inv.incoming = some (.returned result)) :
    recover nested inv = pure result.pipeText := by
  unfold recover
  rw [h]
  dsimp only
  rw [Action.write, hasLongInteger_of_returned h, if_neg Bool.false_ne_true]

theorem recover_raised (nested : Nested) {inv : Invocation} {message : String}
    (h : Envelope.decode? inv.incoming = some (.raised (some message))) :
    recover nested inv = nested (handling inv.value message) := by
  unfold recover
  rw [h]
  rfl

/-- `/catch` puts out what was put in the envelope, or runs its handler on the message. -/
def resolve (nested : Nested) (handler : String) : Except Fault String → Action String
  | .ok output => pure output
  | .error fault => nested (handling handler fault.message)

theorem recover_eq (nested : Nested) {inv : Invocation} {result : Except Fault String}
    (h : inv.incoming = (outcomeOf result).encode) :
    recover nested inv = resolve nested inv.value result := by
  cases result with
  | ok output =>
    have hdecode : Envelope.decode? inv.incoming = some (.returned (.text output)) := by
      rw [h]
      exact decode?_encode (.returned (.text output))
    exact recover_returned nested hdecode
  | error fault =>
    refine recover_raised nested ?_
    rw [h]
    exact decode?_encode (.raised (some fault.message))

theorem resolve_sameButTrace {m n : Machine} (h : SameButTrace m n) (handler : String)
    (result : Except Fault String) :
    Agrees (resolve runNested handler result m) (resolve runNested handler result n) := by
  cases result with
  | ok output => exact ⟨rfl, h⟩
  | error fault => exact runNested_sameButTrace h _

theorem ownFault_resolve (handler : String) (result : Except Fault String) (m : Machine) :
    OwnFault (resolve runNested handler result m) := by
  cases result with
  | ok output => exact .ok _ _
  | error fault => exact ownFault_runNested _ _

theorem catch_agrees {handler : String} (hhandler : IsCommandLine handler) {m n : Machine}
    (h : Holds n.registry .recover) (hmn : SameButTrace m n) (result : Except Fault String) :
    Agrees (dispatch runNested (stage "catch" handler) (outcomeOf result).encode m)
      (resolve runNested handler result n) := by
  refine stage_agrees (b := .recover) h hhandler hmn (fun m' hm' => ?_)
    (ownFault_resolve handler result n)
  have hrun : Builtin.recover.run runNested ⟨[], handler, (outcomeOf result).encode⟩ =
      resolve runNested handler result := recover_eq runNested rfl
  rw [hrun]
  exact resolve_sameButTrace hm' handler result

/-! ### One after the other -/

theorem runOrHandle_apply (nested : Nested) (command handler : String) (m : Machine) :
    runOrHandle nested command handler m =
      resolve nested handler (nested command m).1 (nested command m).2 := by
  unfold runOrHandle
  rw [tryCatch_apply]
  rcases nested command m with ⟨fault | output, after⟩
  · rfl
  · rfl

/-- **The two stages run the command or handle its failure.** -/
theorem stages_agree {command handler : String} (hcommand : IsCommandLine command)
    (hhandler : IsCommandLine handler) {m : Machine} (htry : Holds m.registry .attempt)
    (hcatch : Holds m.registry .recover) (pipe : String) :
    Agrees (outputOf runNested [stage "try" command, stage "catch" handler] pipe m)
      (runOrHandle runNested command handler m) := by
  have hafter : Holds (runNested command m).2.registry .recover := by
    rw [registry_runNested]
    exact hcatch
  obtain ⟨hresult, hsame⟩ := try_agrees hcommand htry (.refl m) pipe
  rw [outputOf_cons, bind_apply, runOrHandle_apply]
  rcases hdispatch : dispatch runNested (stage "try" command) pipe m with ⟨result, before⟩
  rw [hdispatch] at hresult hsame
  obtain rfl : result = .ok (outcomeOf (runNested command m).1).encode := hresult
  dsimp only
  rw [outputOf_singleton]
  exact catch_agrees hhandler hafter hsame _

/-! ### Blanks behind a command -/

theorem exists_strip {line : String} (h : line.toList.head? = some '/') :
    ∃ right, line = strip line ++ right ∧ ∀ c ∈ right.toList, isBlank c = true := by
  obtain ⟨left, right, hline, hleft, hright⟩ := exists_stripChars line.toList
  have hnil : left = [] := by
    rcases left with _ | ⟨c, left⟩
    · rfl
    · rw [hline] at h
      obtain rfl : c = '/' := by simpa using h
      exact absurd (hleft '/' (List.mem_cons_self ..)) (by decide)
  refine ⟨String.ofList right, ?_, by rwa [String.toList_ofList]⟩
  rw [← String.toList_inj, String.toList_append, toList_strip, String.toList_ofList]
  rwa [hnil, List.nil_append] at hline

theorem isCommandLine_strip {line : String} (h : line.toList.head? = some '/') :
    IsCommandLine (strip line) := by
  refine ⟨?_, by simp [strip]⟩
  obtain ⟨right, hline, hright⟩ := exists_strip h
  rw [hline, String.toList_append, List.head?_append] at h
  rcases hhead : (strip line).toList.head? with _ | c
  · rw [hhead, Option.none_or] at h
    exact absurd (hright '/' (List.mem_of_head? h)) (by decide)
  · rwa [hhead, Option.some_or] at h

theorem valueChars_of_slash {line : String} (h : line.toList.head? = some '/') :
    valueChars line = ' ' :: line.toList := by
  have hne : line ≠ "" := by
    rintro rfl
    cases h
  exact if_neg hne

theorem stripChars_renderChars_stage (name : String) {line : String}
    (h : line.toList.head? = some '/') :
    stripChars (renderChars (stage name line)) =
      stripChars (renderChars (stage name (strip line))) := by
  obtain ⟨right, hline, hright⟩ := exists_strip h
  have hform : renderChars (stage name line) =
      [] ++ renderChars (stage name (strip line)) ++ right.toList := by
    have hvalue : valueChars line = valueChars (strip line) ++ right.toList := by
      rw [valueChars_of_slash h, valueChars_of_slash (isCommandLine_strip h).slash,
        List.cons_append, ← String.toList_append, ← hline]
    simp [renderChars, stage, hvalue]
  rw [hform, stripChars_around (by simp) hright]

theorem stripChars_renderChars_ne (c : Call) : stripChars (renderChars c) ≠ [] := by
  intro h
  exact absurd (stripChars_eq_nil_iff.mp h '/' (List.mem_cons_self ..)) (by decide)

/-- Stages are read as those of the stripped command lines. -/
theorem calls_stages {stages : List (String × String)}
    (h : ∀ s ∈ stages, s.2.toList.head? = some '/') :
    calls (renderPipeline (stages.map fun s => stage s.1 s.2)) =
      calls (renderPipeline (stages.map fun s => stage s.1 (strip s.2))) := by
  have hne : ∀ cs : List Call, ∀ r ∈ cs.map renderChars, stripChars r ≠ [] := by
    intro cs r hr
    obtain ⟨c, -, rfl⟩ := List.mem_map.mp hr
    exact stripChars_renderChars_ne c
  have hstrip : ((stages.map fun s => stage s.1 s.2).map renderChars).map stripChars =
      ((stages.map fun s => stage s.1 (strip s.2)).map renderChars).map stripChars := by
    simp only [List.map_map]
    exact List.map_congr_left fun s hs => stripChars_renderChars_stage s.1 (h s hs)
  rw [renderPipeline, renderPipeline, calls_joined (hne _), calls_joined (hne _),
    ← mapM_call_stripChars, hstrip, mapM_call_stripChars]

theorem runNested_append_blank (command : String) {right : String}
    (h : ∀ c ∈ right.toList, isBlank c = true) :
    runNested (command ++ right) = runNested command := by
  unfold runNested finalPipe
  rw [execute_congr (calls_append_blank command h)]

theorem runNested_strip {command : String} (h : command.toList.head? = some '/') :
    runNested (strip command) = runNested command := by
  obtain ⟨right, hcommand, hright⟩ := exists_strip h
  calc runNested (strip command) = runNested (strip command ++ right) :=
        (runNested_append_blank _ hright).symm
    _ = runNested command := by rw [← hcommand]

theorem handling_append_blank (handler message : String) {right : String}
    (h : ∀ c ∈ right.toList, isBlank c = true) :
    handling (handler ++ right) message = handling handler message ++ right := by
  unfold handling Template.fillAll
  simp only [List.foldl_cons, List.foldl_nil]
  rw [fill_append_blank dark_exception h, fill_append_blank dark_error h]

theorem runNested_handling_strip {handler : String} (h : handler.toList.head? = some '/')
    (message : String) :
    runNested (handling (strip handler) message) = runNested (handling handler message) := by
  obtain ⟨right, hhandler, hright⟩ := exists_strip h
  calc runNested (handling (strip handler) message)
      = runNested (handling (strip handler ++ right) message) := by
        rw [handling_append_blank _ _ hright, runNested_append_blank _ hright]
    _ = runNested (handling handler message) := by rw [← hhandler]

theorem runOrHandle_strip {command handler : String} (hcommand : command.toList.head? = some '/')
    (hhandler : handler.toList.head? = some '/') :
    runOrHandle runNested (strip command) (strip handler) =
      runOrHandle runNested command handler := by
  unfold runOrHandle
  rw [runNested_strip hcommand]
  simp only [runNested_handling_strip hhandler]

/-! ### Executed -/

/-- Stages run on their stripped command lines. -/
theorem finalPipe_stages (stages : List (String × String))
    (hnames : ∀ s ∈ stages, s.1 ≠ "" ∧ ∀ x ∈ s.1.toList, isBlank x = false ∧ isGap x = false)
    (hlines : ∀ s ∈ stages, s.2.toList.head? = some '/') {m : Machine}
    (hdepth : m.depth < m.maxDepth) (pipe : String) :
    finalPipe (renderPipeline (stages.map fun s => stage s.1 s.2)) pipe m =
      (outputOf runNested (stages.map fun s => stage s.1 (strip s.2)) pipe).deeper m := by
  have hrenderable : ∀ c ∈ stages.map fun s => stage s.1 (strip s.2), Renderable c := by
    intro c hc
    obtain ⟨s, hs, rfl⟩ := List.mem_map.mp hc
    exact renderable_stage (hnames s hs).1 (hnames s hs).2 (isCommandLine_strip (hlines s hs))
  have hcalls := calls_stages hlines
  rw [calls_rendered hrenderable, mapM_call_render hrenderable] at hcalls
  rw [finalPipe_eq hdepth hcalls, outputOf_raw]

/-- **Trying and catching**: whatever a command does, trying it never fails; and with a handler
behind it, it runs the command, and only when that fails the handler on its message.  The final pipe
or the fault is that of `runOrHandle`, one level deeper, and so is the machine but for the trace. -/
theorem finalPipe_tryCatch {command handler : String} (hcommand : command.toList.head? = some '/')
    (hhandler : handler.toList.head? = some '/') {m : Machine} (hdepth : m.depth < m.maxDepth)
    (htry : Holds m.registry .attempt) (hcatch : Holds m.registry .recover) (pipe : String) :
    (∃ output, (finalPipe (renderPipeline [stage "try" command]) pipe m).1 = .ok output) ∧
      Agrees (finalPipe (renderPipeline [stage "try" command, stage "catch" handler]) pipe m)
        ((runOrHandle runNested command handler).deeper m) := by
  have htryName : "try" ≠ "" ∧ ∀ x ∈ "try".toList, isBlank x = false ∧ isGap x = false :=
    ⟨by decide, name_solid_of_all (by decide)⟩
  have hcatchName : "catch" ≠ "" ∧ ∀ x ∈ "catch".toList, isBlank x = false ∧ isGap x = false :=
    ⟨by decide, name_solid_of_all (by decide)⟩
  have htryDeep : Holds { m with depth := m.depth + 1 }.registry .attempt := htry
  have hcatchDeep : Holds { m with depth := m.depth + 1 }.registry .recover := hcatch
  constructor
  · have hstage : finalPipe (renderPipeline [stage "try" command]) pipe m =
        (outputOf runNested [stage "try" (strip command)] pipe).deeper m :=
      finalPipe_stages [("try", command)] (List.forall_mem_singleton.mpr htryName)
        (List.forall_mem_singleton.mpr hcommand) hdepth pipe
    have htried := Agrees.deeper
      (try_agrees (isCommandLine_strip hcommand) htryDeep (.refl _) pipe)
    rw [hstage, outputOf_singleton]
    exact ⟨_, htried.1⟩
  · have hstages : finalPipe (renderPipeline [stage "try" command, stage "catch" handler]) pipe m =
        (outputOf runNested [stage "try" (strip command), stage "catch" (strip handler)]
          pipe).deeper m :=
      finalPipe_stages [("try", command), ("catch", handler)]
        (List.forall_mem_cons.mpr ⟨htryName, List.forall_mem_singleton.mpr hcatchName⟩)
        (List.forall_mem_cons.mpr ⟨hcommand, List.forall_mem_singleton.mpr hhandler⟩) hdepth pipe
    rw [hstages, ← runOrHandle_strip hcommand hhandler]
    exact Agrees.deeper (stages_agree (isCommandLine_strip hcommand)
      (isCommandLine_strip hhandler) htryDeep hcatchDeep pipe)

/-- A command that writes a variable and then fails, with a blank behind it. -/
def failingCommand : String := "/setvar key=x 1 | /throw no "

/-- A handler that shows the message, in whatever case its name is written, and the variable. -/
def tellingHandler : String := "/echo \x7b\x7bERROR\x7d\x7d | /getvar x"

theorem finalPipe_failingCommand :
    failingCommand.toList.head? = some '/' ∧ tellingHandler.toList.head? = some '/' ∧
      (Machine.start .empty .empty 2).depth < (Machine.start .empty .empty 2).maxDepth ∧
      Holds (Machine.start .empty .empty 2).registry .attempt ∧
      Holds (Machine.start .empty .empty 2).registry .recover ∧
      (∃ output, (finalPipe (renderPipeline [stage "try" failingCommand]) ""
        (Machine.start .empty .empty 2)).1 = .ok output) ∧
      Agrees
        (finalPipe (renderPipeline [stage "try" failingCommand, stage "catch" tellingHandler]) ""
          (Machine.start .empty .empty 2))
        ((runOrHandle runNested failingCommand tellingHandler).deeper
          (Machine.start .empty .empty 2)) := by
  have hcommand : failingCommand.toList.head? = some '/' := by decide
  have hhandler : tellingHandler.toList.head? = some '/' := by decide
  have htry : Holds (Machine.start .empty .empty 2).registry .attempt := by decide +kernel
  have hcatch : Holds (Machine.start .empty .empty 2).registry .recover := by decide +kernel
  exact ⟨hcommand, hhandler, by decide, htry, hcatch,
    finalPipe_tryCatch hcommand hhandler (by decide) htry hcatch ""⟩

end PipeScript.Proofs.Control.TryCatch
