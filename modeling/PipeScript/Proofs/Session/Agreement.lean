import PipeScript.Session
import PipeScript.Proofs.Text.Lines

/-! # Scripts and conversations

A script and a conversation that hold the same lines run the same pipelines in turn, each on the
machine that the one before it has left.  What each line answers (`answers`) does not depend on who
runs it.  A line fails if its run reports an error or if the stream refuses a text of its result
(`failed_answer`).  A conversation tells all answers, each behind a prompt (`run_conversation`); a
script tells those up to the first failure and ends with it (`run_script`).  So both agree in what
they print and in the machine they leave until a line fails, and from there only the conversation
goes on (`script_agrees`). -/

namespace PipeScript.Proofs.Session.Agreement

open PipeScript.Text
open PipeScript.Proofs.Text.Lines PipeScript.Proofs.Text.Cutting

/-- A line that a script does not skip and that does not end a conversation. -/
structure Enterable (line : String) : Prop where
  unbroken : Unbroken line.toList
  notBlank : strip line ≠ ""
  notComment : (strip line).toList.head? ≠ some '#'
  notExit : strip line ≠ "exit"

instance (line : String) : Decidable (Enterable line) :=
  decidable_of_iff (Unbroken line.toList ∧ strip line ≠ "" ∧ (strip line).toList.head? ≠ some '#' ∧
      strip line ≠ "exit")
    ⟨fun ⟨hunbroken, hblank, hcomment, hexit⟩ => ⟨hunbroken, hblank, hcomment, hexit⟩,
      fun h => ⟨h.unbroken, h.notBlank, h.notComment, h.notExit⟩⟩

/-- What lines answer in turn, each on the machine that the one before it has left, even if that one
has failed. -/
def answers (refusal : Print.Refusal) : List String → Machine → List Transcript
  | [], _ => []
  | line :: rest, m =>
    m.answer refusal (strip line) :: answers refusal rest (m.answer refusal (strip line)).machine

/-- Answers up to the first failure and with it; all of them, if none fails. -/
def upToFailure (told : List Transcript) : List Transcript :=
  told.take (told.findIdx (·.failed) + 1)

/-- The machine that answers leave behind. -/
def machineAfter (m : Machine) (told : List Transcript) : Machine :=
  (told.getLast?.map (·.machine)).getD m

/-- How answers end: as the last of them does. -/
def endingOf (told : List Transcript) : Ending :=
  (told.getLast?.map (·.ending)).getD .finished

/-! ### Answers -/

section Answers

variable {a : Transcript} {told : List Transcript}

theorem failed_eq_false : a.failed = false ↔ a.ending = .finished := by
  unfold Transcript.failed
  cases a.ending <;> simp

/-- Something is refused if any piece of it is. -/
theorem refused_deliver (refusal : Print.Refusal) (prints : List Print) :
    (Print.deliver refusal prints).2.isSome = prints.any fun p => (p.refused? refusal).isSome := by
  induction prints with
  | nil => rfl
  | cons p rest ih =>
    rw [Print.deliver, List.any_cons]
    cases p.refused? refusal with
    | none => exact ih
    | some message => rfl

/-- **When a line fails**: its run reports an error, or the stream refuses something that it
prints. -/
theorem failed_answer (refusal : Print.Refusal) (text : String) (m : Machine) :
    (m.answer refusal text).failed =
      ((m.run text).1.failed || (m.run text).1.prints.any fun p => (p.refused? refusal).isSome) := by
  unfold Machine.answer
  rw [← refused_deliver]
  rcases m.run text with ⟨report, after⟩
  dsimp only
  rcases Print.deliver refusal report.prints with ⟨delivered, _ | message⟩
  · cases hfailed : report.failed <;> simp [Transcript.failed]
  · simp [Transcript.failed]

theorem machineAfter_cons (m : Machine) (a : Transcript) (told : List Transcript) :
    machineAfter m (a :: told) = machineAfter a.machine told := by
  unfold machineAfter
  rw [List.getLast?_cons]
  cases told.getLast? <;> rfl

theorem endingOf_cons (h : a.failed = false) : endingOf (a :: told) = endingOf told := by
  unfold endingOf
  rw [List.getLast?_cons]
  cases told.getLast? with
  | none => exact failed_eq_false.mp h
  | some last => rfl

theorem upToFailure_of_failed (h : a.failed = true) : upToFailure (a :: told) = [a] := by
  simp [upToFailure, List.findIdx_cons, h]

theorem upToFailure_of_succeeded (h : a.failed = false) :
    upToFailure (a :: told) = a :: upToFailure told := by
  simp [upToFailure, List.findIdx_cons, h]

theorem upToFailure_eq_take (told : List Transcript) :
    upToFailure told = told.take (upToFailure told).length :=
  List.prefix_iff_eq_take.mp (List.take_prefix _ _)

/-- A failure is among the answers up to it. -/
theorem any_upToFailure (told : List Transcript) :
    (upToFailure told).any (·.failed) = told.any (·.failed) := by
  induction told with
  | nil => rfl
  | cons a told ih =>
    cases ha : a.failed with
    | true =>
      rw [upToFailure_of_failed ha, List.any_cons, List.any_cons, ha, Bool.true_or, Bool.true_or]
    | false => rw [upToFailure_of_succeeded ha, List.any_cons, List.any_cons, ih]

/-- Where no answer before the last one is a failure, all are answers up to the first failure. -/
theorem upToFailure_take {k : ℕ} (h : k ≤ (upToFailure told).length) :
    upToFailure (told.take k) = told.take k := by
  unfold upToFailure at h ⊢
  rw [List.length_take] at h
  rw [List.findIdx_take, List.take_take]
  congr 1
  omega

theorem answers_take (refusal : Print.Refusal) (lines : List String) (m : Machine) (k : ℕ) :
    answers refusal (lines.take k) m = (answers refusal lines m).take k := by
  induction lines generalizing m k with
  | nil => rw [List.take_nil, answers, List.take_nil]
  | cons line rest ih =>
    cases k with
    | zero => rfl
    | succ k => rw [List.take_succ_cons, answers, answers, List.take_succ_cons, ih]

/-- Lines go on from the machine that those before them have left. -/
theorem answers_append (refusal : Print.Refusal) (front back : List String) (m : Machine) :
    answers refusal (front ++ back) m =
      answers refusal front m ++
        answers refusal back (machineAfter m (answers refusal front m)) := by
  induction front generalizing m with
  | nil => rfl
  | cons line rest ih =>
    rw [List.cons_append, answers, answers, ih, machineAfter_cons, List.cons_append]

end Answers

/-! ### Scripts -/

section Scripts

variable {refusal : Print.Refusal} {line : String} {lines : List String} {m : Machine}

theorem run_script_of_failed (h : (m.answer refusal (strip line)).failed = true)
    (rest : List String) :
    Script.run refusal (strip line :: rest) m = m.answer refusal (strip line) := by
  rw [Script.run]
  exact if_pos h

theorem run_script_of_succeeded (h : (m.answer refusal (strip line)).failed = false)
    (rest : List String) :
    Script.run refusal (strip line :: rest) m =
      (Script.run refusal rest (m.answer refusal (strip line)).machine).after
        (m.answer refusal (strip line)).prints := by
  rw [Script.run]
  exact if_neg (Bool.eq_false_iff.mp h)

/-- **A script tells what its lines answer up to the first failure**, and ends as that one does. -/
theorem run_script (refusal : Print.Refusal) (lines : List String) (m : Machine) :
    Script.run refusal (lines.map strip) m =
      ⟨(upToFailure (answers refusal lines m)).flatMap (·.prints),
        machineAfter m (upToFailure (answers refusal lines m)),
        endingOf (upToFailure (answers refusal lines m))⟩ := by
  induction lines generalizing m with
  | nil => rfl
  | cons line rest ih =>
    rw [List.map_cons, answers]
    cases h : (m.answer refusal (strip line)).failed with
    | true =>
      rw [run_script_of_failed h, upToFailure_of_failed h, List.flatMap_singleton]
      rfl
    | false =>
      rw [run_script_of_succeeded h, upToFailure_of_succeeded h, ih, List.flatMap_cons,
        machineAfter_cons, endingOf_cons h]
      rfl

/-- A script has failed if one of its lines does. -/
theorem failed_script (refusal : Print.Refusal) (lines : List String) (m : Machine) :
    (Script.run refusal (lines.map strip) m).failed =
      (answers refusal lines m).any (·.failed) := by
  induction lines generalizing m with
  | nil => rfl
  | cons line rest ih =>
    rw [List.map_cons, answers, List.any_cons]
    cases h : (m.answer refusal (strip line)).failed with
    | true => rw [run_script_of_failed h, h, Bool.true_or]
    | false =>
      rw [run_script_of_succeeded h, Bool.false_or, ← ih]
      rfl

/-- **After a failure nothing has an effect.** -/
theorem run_script_append (h : (answers refusal lines m).any (·.failed) = true)
    (later : List String) :
    Script.run refusal (lines.map strip ++ later) m = Script.run refusal (lines.map strip) m := by
  induction lines generalizing m with
  | nil => cases h
  | cons line rest ih =>
    rw [List.map_cons, List.cons_append]
    cases hline : (m.answer refusal (strip line)).failed with
    | true => rw [run_script_of_failed hline, run_script_of_failed hline]
    | false =>
      rw [answers, List.any_cons, hline, Bool.false_or] at h
      rw [run_script_of_succeeded hline, run_script_of_succeeded hline, ih h]

/-- The lines that a script has run decide how it goes. -/
theorem run_script_take (h : (answers refusal lines m).any (·.failed) = true)
    (later : List String) :
    Script.run refusal
        ((lines.take (upToFailure (answers refusal lines m)).length).map strip ++ later) m =
      Script.run refusal (lines.map strip) m := by
  generalize hk : (upToFailure (answers refusal lines m)).length = k
  have hfailed : (answers refusal (lines.take k) m).any (·.failed) = true := by
    rw [answers_take, ← hk, ← upToFailure_eq_take, any_upToFailure, h]
  have hlines : lines.map strip = (lines.take k).map strip ++ (lines.drop k).map strip := by
    rw [← List.map_append, List.take_append_drop]
  rw [run_script_append hfailed, hlines, run_script_append hfailed]

end Scripts

/-! ### Conversations -/

theorem request_of_enterable {line : String} (h : Enterable line) :
    Conversation.request line = .pipeline (strip line) := by
  unfold Conversation.request
  rw [if_neg h.notBlank, if_neg h.notExit]

/-- **A conversation tells what all its lines answer**, each behind a prompt and with an excuse where
its result cannot be printed, until they end. -/
theorem run_conversation (refusal : Print.Refusal) {lines : List String}
    (h : ∀ line ∈ lines, Enterable line) (m : Machine) :
    Conversation.run refusal lines m =
      ⟨(answers refusal lines m).flatMap (fun a => Conversation.prompt :: a.prints ++ a.excuse) ++
          [Conversation.prompt, Conversation.farewell],
        machineAfter m (answers refusal lines m), .finished⟩ := by
  induction lines generalizing m with
  | nil => rfl
  | cons line rest ih =>
    have hrest := ih fun other hother => h other (List.mem_cons_of_mem line hother)
    rw [Conversation.run, request_of_enterable (h line List.mem_cons_self), answers,
      machineAfter_cons, List.flatMap_cons, List.append_assoc]
    dsimp only
    rw [hrest]
    rfl

/-! ### The lines of a session -/

theorem ne_empty_of_enterable {line : String} (h : Enterable line) : line ≠ "" := by
  rintro rfl
  exact h.notBlank rfl

theorem isPipeline_of_enterable {line : String} (h : Enterable line) :
    Script.isPipeline (strip line) = true := by
  have hcomment := h.notComment
  unfold Script.isPipeline
  cases hchars : (strip line).toList with
  | nil => exact absurd (String.toList_eq_nil_iff.mp hchars) h.notBlank
  | cons c rest =>
    rw [hchars] at hcomment
    simpa using hcomment

/-- A script skips none of these lines. -/
theorem pipelines_of_holds {lines : List String} (h : ∀ line ∈ lines, Enterable line)
    {text : String} (hholds : Holds lines text) : Script.pipelines text = lines.map strip := by
  unfold Script.pipelines
  rw [lines_of_holds hholds (fun line hline => (h line hline).unbroken)
    fun line hline => ne_empty_of_enterable (h line hline), List.filter_eq_self]
  intro stripped hstripped
  obtain ⟨line, hline, rfl⟩ := List.mem_map.mp hstripped
  exact isPipeline_of_enterable (h line hline)

theorem conversation_lines_of_holds {lines : List String} (h : ∀ line ∈ lines, Enterable line)
    {text : String} (hholds : Holds lines text) : Conversation.lines text = lines := by
  unfold Conversation.lines
  cases hholds with
  | closed =>
    rw [cutAt_closed fun line hline => (h line hline).unbroken]
    simp
  | unclosed front last =>
    have hlast := h last (List.mem_append_right _ (List.mem_singleton_self last))
    rw [cutAt_unclosed (fun line hline => (h line (List.mem_append_left _ hline)).unbroken)
      hlast.unbroken]
    simp [ne_empty_of_enterable hlast]

theorem run_of_scriptPath {s : Session} {m : Machine} (hopen : s.openMachine = .ok m)
    {path : String} (hpath : Session.scriptPath? s.arguments = some path) {source : String}
    (hread : s.read path = some source) :
    s.run = .ofScript (Script.run s.refusal (Script.pipelines source) m) := by
  unfold Session.run Session.runScript
  rw [hpath, hopen]
  dsimp only
  rw [hread]

theorem run_of_no_scriptPath {s : Session} {m : Machine} (hopen : s.openMachine = .ok m)
    (hpath : Session.scriptPath? s.arguments = none) :
    s.run =
      let t := Conversation.run s.refusal (Conversation.lines s.input) m
      ⟨Conversation.banner ++ t.prints, 0, none⟩ := by
  unfold Session.run Session.converse
  rw [hpath, hopen]

/-- The program ends with 1 if its script has failed, by itself or by a fault. -/
theorem status_ofScript (t : Transcript) :
    (SessionResult.ofScript t).status = if t.failed then 1 else 0 := by
  unfold SessionResult.ofScript Transcript.failed
  cases t.ending <;> rfl

/-- **A script and a conversation of the same lines agree up to the first failure**, from any
machine, whatever variables it has been seeded with and whatever its clock says, and whatever texts
the stream refuses to print.  Each line answers the same; the script tells the answers up to the
first failure and ends there, and the program ends with 1 if there is one and with 0 otherwise; the
conversation tells them all.  After each line that the script has run both have left the same
machine.  From the last of these the conversation goes on, while nothing behind the failure has an
effect on the script.  A line fails if its run reports an error or if something it prints is
refused; where the stream prints every text, that is, if its run reports an error. -/
theorem script_agrees (refusal : Print.Refusal) {lines : List String}
    (hlines : ∀ line ∈ lines, Enterable line) {script input : String}
    (hscript : Holds lines script) (hinput : Holds lines input) (m : Machine) :
    let told := answers refusal lines m
    let heard := upToFailure told
    let transcript : Transcript :=
      ⟨heard.flatMap (·.prints), machineAfter m heard, endingOf heard⟩
    let conversed := told.flatMap (fun a => Conversation.prompt :: a.prints ++ a.excuse) ++
      [Conversation.prompt, Conversation.farewell]
    Script.run refusal (Script.pipelines script) m = transcript ∧
      Conversation.run refusal (Conversation.lines input) m =
        ⟨conversed, machineAfter m told, .finished⟩ ∧
      (∀ k ≤ heard.length, (Script.run refusal ((lines.take k).map strip) m).machine =
        (Conversation.run refusal (lines.take k) m).machine) ∧
      told = heard ++ answers refusal (lines.drop heard.length) (machineAfter m heard) ∧
      (told.any (·.failed) = true → ∀ later,
        Script.run refusal ((lines.take heard.length).map strip ++ later) m =
          Script.run refusal (Script.pipelines script) m) ∧
      (∀ line before, (Machine.answer refusal (strip line) before).failed =
        ((before.run (strip line)).1.failed ||
          (before.run (strip line)).1.prints.any fun p => (p.refused? refusal).isSome)) ∧
      ∀ s : Session, s.refusal = refusal → s.openMachine = .ok m →
        (∀ path, Session.scriptPath? s.arguments = some path → s.read path = some script →
          s.run = .ofScript transcript ∧
            s.run.status = if told.any (·.failed) then 1 else 0) ∧
        (Session.scriptPath? s.arguments = none → s.input = input →
          s.run = ⟨Conversation.banner ++ conversed, 0, none⟩) := by
  intro told heard transcript conversed
  have hpipelines := pipelines_of_holds hlines hscript
  have hentered := conversation_lines_of_holds hlines hinput
  have hrun := run_script refusal lines m
  have hconversation := run_conversation refusal hlines m
  have hheard : heard = told.take heard.length := upToFailure_eq_take told
  have hmachine : ∀ k ≤ heard.length, (Script.run refusal ((lines.take k).map strip) m).machine =
      (Conversation.run refusal (lines.take k) m).machine := by
    intro k hk
    rw [run_script,
      run_conversation refusal fun line hline => hlines line (List.mem_of_mem_take hline),
      answers_take, upToFailure_take hk]
  have hgoesOn :
      told = heard ++ answers refusal (lines.drop heard.length) (machineAfter m heard) := by
    have happend := answers_append refusal (lines.take heard.length) (lines.drop heard.length) m
    rwa [List.take_append_drop, answers_take, ← hheard] at happend
  refine ⟨hpipelines ▸ hrun, hentered.symm ▸ hconversation, hmachine, hgoesOn,
    fun hfailed later => ?_, fun line before => failed_answer refusal (strip line) before,
    fun s hrefusal hopen => ⟨fun path hpath hread => ⟨?_, ?_⟩, fun hpath hgiven => ?_⟩⟩
  · rw [hpipelines]
    exact run_script_take hfailed later
  · rw [run_of_scriptPath hopen hpath hread, hrefusal, hpipelines, hrun]
  · rw [run_of_scriptPath hopen hpath hread, hrefusal, hpipelines, status_ofScript, failed_script]
  · rw [run_of_no_scriptPath hopen hpath, hrefusal, hgiven, hentered, hconversation]

/-- Lines of which the second fails inside a loop, behind a command that has written a variable. -/
def loopFailure : List String :=
  ["/setvar key=x 1", "  /foreach var=y /setvar key=x \x7b\x7bitem\x7d\x7d \\| /throw lost ",
    "/getvar x"]

/-- A document that seeds a variable with a list in JSON. -/
def seedText : String := "\x7b\"local\":\x7b\"y\":\"[2,3]\"\x7d\x7d"

/-- A session that runs these lines as a script, and has them as its input. -/
def scripted : Session where
  arguments := ["run.txt"]
  read := fun path => if path = "vars.json" then some seedText else some (ended loopFailure)
  seed := some "vars.json"
  input := ended loopFailure
  clock := 0

/-- The machine that the document seeds. -/
def seededMachine : Machine :=
  match scripted.openMachine with
  | .ok m => m
  | .error _ => .start .empty .empty Machine.defaultMaxDepth

theorem openMachine_scripted : scripted.openMachine = .ok seededMachine := by
  have hopen : scripted.openMachine.isOk = true := by decide +kernel
  unfold seededMachine
  cases hresult : scripted.openMachine with
  | ok m => rfl
  | error fault =>
    rw [hresult] at hopen
    cases hopen

/-- Lines of which the first writes a variable and gives a text that is not ASCII. -/
def accented : List String :=
  ["/setvar key=x \u00e9", "/getvar x | /replace find=\u00e9 replace=e"]

/-- What a stream says that encodes ASCII only, of a text that starts with this letter. -/
def asciiMessage : String :=
  "'ascii' codec can't encode character '\\xe9' in position 0: ordinal not in range(128)"

/-- A session of these lines whose results are printed on such a stream. -/
def unencodable : Session where
  arguments := ["run.txt"]
  read := fun _ => some (ended accented)
  seed := none
  input := ended accented
  clock := 0
  refusal := fun text => if text.toList.all (·.toNat < 128) then none else some asciiMessage

/-- The machine of a session that nothing seeds. -/
def startMachine : Machine :=
  { Machine.start .empty .empty Machine.defaultMaxDepth with clock := 0 }

/-- Answers that are known but for the machine that the first one leaves. -/
theorem eq_cons_of_map {told : List Transcript} {prints : List Print} {ending : Ending}
    {rest : List (List Print × Ending)}
    (h : told.map (fun a => (a.prints, a.ending)) = (prints, ending) :: rest) :
    ∃ m others, told = ⟨prints, m, ending⟩ :: others ∧
      others.map (fun a => (a.prints, a.ending)) = rest := by
  obtain ⟨⟨prints', m, ending'⟩, others, rfl, hfirst, hrest⟩ := List.map_eq_cons_iff.mp h
  cases hfirst
  exact ⟨m, others, rfl, hrest⟩

theorem answers_loopFailure : ∃ first second third,
    answers scripted.refusal loopFailure seededMachine =
      [⟨[.line "1"], first, .finished⟩,
        ⟨[.errorLine "UserHandlerFailure: lost"], second, .failed⟩,
        ⟨[.line "2"], third, .finished⟩] := by
  have htold : (answers scripted.refusal loopFailure seededMachine).map
      (fun a => (a.prints, a.ending)) =
        [([.line "1"], .finished), ([.errorLine "UserHandlerFailure: lost"], .failed),
          ([.line "2"], .finished)] := by
    decide +kernel
  obtain ⟨first, rest, heq, hrest⟩ := eq_cons_of_map htold
  obtain ⟨second, rest', rfl, hrest'⟩ := eq_cons_of_map hrest
  obtain ⟨third, rest'', rfl, hnil⟩ := eq_cons_of_map hrest'
  obtain rfl := List.map_eq_nil_iff.mp hnil
  exact ⟨first, second, third, heq⟩

theorem answers_accented : ∃ first second,
    answers unencodable.refusal accented startMachine =
      [⟨[], first, .broken (.unprintable asciiMessage)⟩, ⟨[.line "e"], second, .finished⟩] := by
  have htold : (answers unencodable.refusal accented startMachine).map
      (fun a => (a.prints, a.ending)) =
        [([], .broken (.unprintable asciiMessage)), ([.line "e"], .finished)] := by
    decide +kernel
  obtain ⟨first, rest, heq, hrest⟩ := eq_cons_of_map htold
  obtain ⟨second, rest', rfl, hnil⟩ := eq_cons_of_map hrest
  obtain rfl := List.map_eq_nil_iff.mp hnil
  exact ⟨first, second, heq⟩

/-- The script ends with the failure; the conversation goes on and finds what the failing line has
written.  A result that cannot be printed ends a script as well, with a fault; the conversation says
so and finds what that line has written. -/
theorem script_agrees_loopFailure :
    (∀ line ∈ loopFailure, Enterable line) ∧ Holds loopFailure (ended loopFailure) ∧
      scripted.openMachine = .ok seededMachine ∧
      (Script.run scripted.refusal ((loopFailure.take 2).map strip) seededMachine).machine =
        (Conversation.run scripted.refusal (loopFailure.take 2) seededMachine).machine ∧
      (scripted.run.prints = [.line "1", .errorLine "UserHandlerFailure: lost"] ∧
        scripted.run.status = 1) ∧
      { scripted with arguments := [] }.run =
        ⟨Conversation.banner ++ [Conversation.prompt, .line "1", Conversation.prompt,
          .errorLine "UserHandlerFailure: lost", Conversation.prompt, .line "2",
          Conversation.prompt, Conversation.farewell], 0, none⟩ ∧
      (∀ line ∈ accented, Enterable line) ∧
      unencodable.run = ⟨[], 0, some (.unprintable asciiMessage)⟩ ∧
      unencodable.run.status = 1 ∧
      { unencodable with arguments := [] }.run =
        ⟨Conversation.banner ++ [Conversation.prompt, .errorLine ("Error: " ++ asciiMessage),
          Conversation.prompt, .line "e", Conversation.prompt, Conversation.farewell], 0, none⟩ := by
  have hlines : ∀ line ∈ loopFailure, Enterable line := by decide +kernel
  have hholds : Holds loopFailure (ended loopFailure) := .closed loopFailure
  obtain ⟨first, second, third, htold⟩ := answers_loopFailure
  obtain ⟨-, -, hmachine, -, -, -, hsession⟩ :=
    script_agrees scripted.refusal hlines hholds hholds seededMachine
  rw [htold] at hmachine hsession
  obtain ⟨hrun, hstatus⟩ := (hsession scripted rfl openMachine_scripted).1 "run.txt" rfl rfl
  have hconversation :=
    (hsession { scripted with arguments := [] } rfl openMachine_scripted).2 rfl rfl
  have hletters : ∀ line ∈ accented, Enterable line := by decide +kernel
  have hwritten : Holds accented (ended accented) := .closed accented
  obtain ⟨first', second', htold'⟩ := answers_accented
  obtain ⟨-, -, -, -, -, -, hsession'⟩ :=
    script_agrees unencodable.refusal hletters hwritten hwritten startMachine
  rw [htold'] at hsession'
  obtain ⟨hrun', hstatus'⟩ := (hsession' unencodable rfl rfl).1 "run.txt" rfl rfl
  have hconversation' := (hsession' { unencodable with arguments := [] } rfl rfl).2 rfl rfl
  have hprints : scripted.run.prints = [.line "1", .errorLine "UserHandlerFailure: lost"] := by
    rw [hrun]
    rfl
  exact ⟨hlines, hholds, openMachine_scripted, hmachine 2 (Nat.le_refl 2), ⟨hprints, hstatus⟩,
    hconversation, hletters, hrun', hstatus', hconversation'⟩

end PipeScript.Proofs.Session.Agreement
