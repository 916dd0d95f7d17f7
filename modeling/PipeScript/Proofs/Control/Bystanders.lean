import PipeScript.Proofs.Control.IfChain
import PipeScript.Proofs.Machine.Nesting
import PipeScript.Proofs.Text.Filling

/-! # Stages that do not apply

Which envelope a text carries is told by the keys of its dictionary: by the first of three that is
there and not null, whatever else is in it and however it is laid out (`Tells`,
`decode?_eq_some_iff`).  A stage of control acts on the envelopes of its family, and of those on the
ones it waits for (`Acts`).  Every other text passes it as it came, whatever its command would do
(`handsOn_run`), and so passes any number of such stages: nothing runs inside them, and no more
than the trace changes (`execute_bystanders`). -/

namespace PipeScript.Proofs.Control.Bystanders

open PipeScript.Command PipeScript.Pipeline PipeScript.Template
open PipeScript.Proofs.Text.Filling
open PipeScript.Proofs.Machine.Programs PipeScript.Proofs.Machine.Execution
open PipeScript.Proofs.Machine.Nesting
open PipeScript.Proofs.Control.IfChain

/-! ### The envelope of a text -/

/-- What stands under a key of a dictionary; a null counts as nothing. -/
inductive Under (entries : Entries Value) (key : String) : Option Value → Prop where
  | given {item : Value} (h : entries.get? (.text key) = some item) (hnull : item.isNull = false) :
      Under entries key (some item)
  | lacking (h : ∀ item, entries.get? (.text key) = some item → item.isNull = true) :
      Under entries key none

/-- The envelope that a dictionary tells: a condition before the outcome of a trial before a
switch. -/
inductive Tells (entries : Entries Value) : Envelope → Prop where
  | condition {outcome : Value} (h : Under entries "if" (some outcome)) :
      Tells entries (.condition outcome.isGiven)
  | raised {flag : Value} {message : Option Value} (hif : Under entries "if" none)
      (h : Under entries "isException" (some flag)) (hflag : flag.isGiven = true)
      (hmessage : Under entries "exception" message) :
      Tells entries (.raised (message.map Value.messageText))
  | returned {flag : Value} {result : Option Value} (hif : Under entries "if" none)
      (h : Under entries "isException" (some flag)) (hflag : flag.isGiven = false)
      (hresult : Under entries "result" result) : Tells entries (.returned (result.getD .null))
  | switch {subject : Value} (hif : Under entries "if" none)
      (htrial : Under entries "isException" none) (h : Under entries "switch" (some subject)) :
      Tells entries (.switch subject)

/-- A text carries an envelope if it is the JSON of a dictionary that tells it. -/
def Carries (text : String) (e : Envelope) : Prop :=
  ∃ entries, Json.parse? text = some (.dict entries) ∧ Tells entries e

theorem under_iff {entries : Entries Value} {key : String} {item : Option Value} :
    Under entries key item ↔ Envelope.member? entries key = item := by
  unfold Envelope.member?
  constructor
  · intro h
    cases h with
    | given h hnull => simp [h, hnull]
    | lacking h =>
      rw [Option.filter_eq_none_iff]
      intro item hitem
      simp [h item hitem]
  · rintro rfl
    cases hitem : (entries.get? (.text key)).filter fun v => !v.isNull with
    | none =>
      refine .lacking fun item h => ?_
      simpa using Option.filter_eq_none_iff.mp hitem item h
    | some item =>
      obtain ⟨h, hnull⟩ := Option.filter_eq_some_iff.mp hitem
      exact .given h (by simpa using hnull)

theorem ofEntries?_eq_some_iff {entries : Entries Value} {e : Envelope} :
    Envelope.ofEntries? entries = some e ↔ Tells entries e := by
  unfold Envelope.ofEntries?
  constructor
  · intro h
    cases hif : Envelope.member? entries "if" with
    | some outcome =>
      rw [hif] at h
      obtain rfl := Option.some.inj h
      exact .condition (under_iff.mpr hif)
    | none =>
      rw [hif] at h
      cases htrial : Envelope.member? entries "isException" with
      | none =>
        rw [htrial] at h
        obtain ⟨subject, hswitch, rfl⟩ := Option.map_eq_some_iff.mp h
        exact .switch (under_iff.mpr hif) (under_iff.mpr htrial) (under_iff.mpr hswitch)
      | some flag =>
        rw [htrial] at h
        dsimp only at h
        split_ifs at h with hflag
        · obtain rfl := Option.some.inj h
          exact .raised (under_iff.mpr hif) (under_iff.mpr htrial) hflag (under_iff.mpr rfl)
        · obtain rfl := Option.some.inj h
          exact .returned (under_iff.mpr hif) (under_iff.mpr htrial) (by simpa using hflag)
            (under_iff.mpr rfl)
  · intro h
    cases h with
    | condition h => rw [under_iff.mp h]
    | raised hif h hflag hmessage =>
      rw [under_iff.mp hif, under_iff.mp h, under_iff.mp hmessage]
      simp [hflag]
    | returned hif h hflag hresult =>
      rw [under_iff.mp hif, under_iff.mp h, under_iff.mp hresult]
      simp [hflag]
    | switch hif htrial h =>
      rw [under_iff.mp hif, under_iff.mp htrial, under_iff.mp h]
      rfl

/-- **What is decoded is what the text carries.** -/
theorem decode?_eq_some_iff {text : String} {e : Envelope} :
    Envelope.decode? text = some e ↔ Carries text e := by
  unfold Envelope.decode? Carries
  constructor
  · intro h
    split at h
    · next entries hread => exact ⟨entries, hread, ofEntries?_eq_some_iff.mp h⟩
    · cases h
  · rintro ⟨entries, hread, htells⟩
    rw [hread]
    exact ofEntries?_eq_some_iff.mpr htells

/-! ### The stages that act on it -/

/-- The commands that act on an envelope. -/
def stages : List Builtin := [.whenTrue, .otherwise, .elseIf, .matchCase, .recover]

/-- A command acts on a text, when the value that it compares with is given. -/
inductive Acts (text : String) (value : Value) : Builtin → Prop where
  | whenTrue (h : Carries text (.condition true)) : Acts text value .whenTrue
  | otherwise (h : Carries text (.condition false)) : Acts text value .otherwise
  | elseIf (h : Carries text (.condition false)) : Acts text value .elseIf
  | matchCase {subject : Value} (h : Carries text (.switch subject))
      (hequal : subject.looseEq false value = true) : Acts text value .matchCase
  | raised {message : Option String} (h : Carries text (.raised message)) : Acts text value .recover
  | returned {result : Value} (h : Carries text (.returned result)) : Acts text value .recover

/-- Whether a command acts on the envelope that it finds. -/
def actsOn (value : Value) : Builtin → Option Envelope → Bool
  | .whenTrue, some (.condition outcome) => outcome
  | .otherwise, some (.condition outcome) | .elseIf, some (.condition outcome) => !outcome
  | .matchCase, some (.switch subject) => subject.looseEq false value
  | .recover, some (.raised _) | .recover, some (.returned _) => true
  | _, _ => false

theorem acts_iff {text : String} {value : Value} {b : Builtin} :
    Acts text value b ↔ actsOn value b (Envelope.decode? text) = true := by
  constructor
  · intro h
    cases h with
    | whenTrue h => rw [decode?_eq_some_iff.mpr h]; rfl
    | otherwise h => rw [decode?_eq_some_iff.mpr h]; rfl
    | elseIf h => rw [decode?_eq_some_iff.mpr h]; rfl
    | matchCase h hequal => rw [decode?_eq_some_iff.mpr h]; exact hequal
    | raised h => rw [decode?_eq_some_iff.mpr h]; rfl
    | returned h => rw [decode?_eq_some_iff.mpr h]; rfl
  · intro h
    unfold actsOn at h
    split at h
    · next outcome hd =>
      obtain rfl : outcome = true := h
      exact .whenTrue (decode?_eq_some_iff.mp hd)
    · next outcome hd =>
      obtain rfl : outcome = false := by simpa using h
      exact .otherwise (decode?_eq_some_iff.mp hd)
    · next outcome hd =>
      obtain rfl : outcome = false := by simpa using h
      exact .elseIf (decode?_eq_some_iff.mp hd)
    · next subject hd => exact .matchCase (decode?_eq_some_iff.mp hd) h
    · next message hd => exact .raised (decode?_eq_some_iff.mp hd)
    · next result hd => exact .returned (decode?_eq_some_iff.mp hd)
    · cases h

instance (text : String) (value : Value) (b : Builtin) : Decidable (Acts text value b) :=
  decidable_of_iff _ acts_iff.symm

/-! ### One stage -/

theorem startsWith_self (pattern rest : List Char) :
    startsWith pattern (pattern ++ rest) = true := by
  induction pattern with
  | nil => rfl
  | cons c pattern ih => simp [startsWith, Text.sameLetter, ih]

theorem fillFrom_skip (pattern text : List Char) (cs : List Char) :
    fillFrom pattern text cs.length cs = [] := by
  induction cs with
  | nil => rfl
  | cons c cs ih => exact ih

/-- A placeholder by itself becomes the text that fills it. -/
theorem fill_placeholder (name text : String) :
    fill (String.ofList (placeholder name)) name text = text := by
  obtain ⟨c, rest, hpattern⟩ : ∃ c rest, placeholder name = c :: rest := ⟨_, _, rfl⟩
  have hstart := startsWith_self (placeholder name) []
  have hskip := fillFrom_skip (placeholder name) text.toList rest
  rw [hpattern, List.append_nil] at hstart
  rw [hpattern] at hskip
  rw [fill, String.toList_ofList, hpattern, fillFrom, if_pos hstart, List.length_cons,
    Nat.add_sub_cancel, hskip, List.append_nil, String.ofList_toList]

/-- A program hands a text on: whatever running a pipeline would do, it answers the text and changes
nothing, but for remarks that it notes. -/
def HandsOn (text : String) (m : Machine) (program : Program String) : Prop :=
  ∃ remarks, (∀ entry ∈ remarks, IsRemark entry) ∧
    ∀ nested, program nested m = (.ok text, { m with trace := remarks ++ m.trace })

theorem handsOn_pure (text : String) (m : Machine) : HandsOn text m fun _ => pure text :=
  ⟨[], by simp, fun _ => rfl⟩

theorem handsOn_idle (stage awaited text : String) (m : Machine) :
    HandsOn text m fun _ => handOn stage awaited text :=
  ⟨[.idle stage awaited text], by simp [IsRemark], fun _ => rfl⟩

/-- A text passes a stage unless it is the outcome of a condition that the stage waits for. -/
theorem handsOn_whenOutcome {stage text : String} {outcome : Bool}
    (h : Envelope.decode? text ≠ some (.condition outcome)) (run : Program String) (m : Machine) :
    HandsOn text m fun nested => whenOutcome stage outcome (run nested) text := by
  unfold whenOutcome
  rcases hd : Envelope.decode? text with _ | (actual | result | message | subject)
  · exact handsOn_idle stage "ife" text m
  · have hne : actual ≠ outcome := by
      rintro rfl
      exact h hd
    simpa only [if_neg hne] using handsOn_pure text m
  · exact handsOn_pure text m
  · exact handsOn_pure text m
  · exact handsOn_pure text m

theorem handsOn_matchCase {inv : Invocation}
    (h : ¬ Acts inv.incoming (inv.argumentValue "value") .matchCase) (m : Machine) :
    HandsOn inv.incoming m fun nested => matchCase nested inv := by
  unfold matchCase
  rcases hd : Envelope.decode? inv.incoming with _ | (outcome | result | message | subject)
  · exact handsOn_idle "CASE" "switch" inv.incoming m
  · exact handsOn_pure inv.incoming m
  · exact handsOn_pure inv.incoming m
  · exact handsOn_pure inv.incoming m
  · have hunequal : ¬ subject.looseEq false (inv.argumentValue "value") = true := fun hequal =>
      h (.matchCase (decode?_eq_some_iff.mp hd) hequal)
    simpa only [if_neg hunequal] using handsOn_pure inv.incoming m

theorem handsOn_recover {inv : Invocation} {value : Value} (h : ¬ Acts inv.incoming value .recover)
    (m : Machine) : HandsOn inv.incoming m fun nested => recover nested inv := by
  unfold recover
  rcases hd : Envelope.decode? inv.incoming with _ | (outcome | result | message | subject)
  · exact handsOn_idle "CATCH" "try" inv.incoming m
  · exact handsOn_idle "CATCH" "try" inv.incoming m
  · exact absurd (.returned (decode?_eq_some_iff.mp hd)) h
  · exact absurd (.raised (decode?_eq_some_iff.mp hd)) h
  · exact handsOn_idle "CATCH" "try" inv.incoming m

/-- **What does not act hands its text on.** -/
theorem handsOn_run {b : Builtin} (hb : b ∈ stages) {inv : Invocation}
    (h : ¬ Acts inv.incoming (inv.argumentValue "value") b) (m : Machine) :
    HandsOn inv.incoming m fun nested => b.run nested inv := by
  simp only [stages, List.mem_cons, List.not_mem_nil, or_false] at hb
  rcases hb with rfl | rfl | rfl | rfl | rfl
  · exact handsOn_whenOutcome (fun hd => h (.whenTrue (decode?_eq_some_iff.mp hd)))
      (fun nested => nested inv.value) m
  · exact handsOn_whenOutcome (fun hd => h (.otherwise (decode?_eq_some_iff.mp hd)))
      (fun nested => nested inv.value) m
  · exact handsOn_whenOutcome (fun hd => h (.elseIf (decode?_eq_some_iff.mp hd)))
      (fun nested => evaluateCondition nested inv) m
  · exact handsOn_matchCase h m
  · exact handsOn_recover h m

theorem argument?_invocation (call : Call) (pipe name : String) :
    (call.invocation pipe).argument? name =
      (call.arguments.get? name).map fun text => fill text "pipe" pipe := by
  have hlookup : ∀ arguments : Arguments,
      (arguments.map fun entry => (entry.1, fill entry.2 "pipe" pipe)).lookup name =
        (arguments.lookup name).map fun text => fill text "pipe" pipe := by
    intro arguments
    induction arguments with
    | nil => rfl
    | cons entry arguments ih =>
      rw [List.map_cons, List.lookup_cons, List.lookup_cons, ih]
      cases name == entry.1 <;> rfl
  exact hlookup call.arguments

/-- A call that reads the pipe and does not act on what is there. -/
structure Bystander (registry : Registry) (pipe : String) (call : Call) : Prop where
  /-- The pipe is read as it is, or through its placeholder. -/
  source : call.arguments.get? "pipe" = none ∨
    call.arguments.get? "pipe" = some "\x7b\x7bpipe\x7d\x7d"
  idle : ∃ b ∈ stages, (registry.get? call.name).bind (builtin? ·.handler) = some b ∧
    ¬ Acts pipe ((call.invocation pipe).argumentValue "value") b

instance (registry : Registry) (pipe : String) (call : Call) :
    Decidable (Bystander registry pipe call) :=
  decidable_of_iff ((call.arguments.get? "pipe" = none ∨
      call.arguments.get? "pipe" = some "\x7b\x7bpipe\x7d\x7d") ∧
    ∃ b ∈ stages, (registry.get? call.name).bind (builtin? ·.handler) = some b ∧
      ¬ Acts pipe ((call.invocation pipe).argumentValue "value") b)
    ⟨fun h => ⟨h.1, h.2⟩, fun h => ⟨h.1, h.2⟩⟩

theorem incoming_bystander {registry : Registry} {pipe : String} {call : Call}
    (h : Bystander registry pipe call) : (call.invocation pipe).incoming = pipe := by
  unfold Invocation.incoming
  rw [argument?_invocation]
  rcases h.source with hnone | hplaceholder
  · rw [hnone]
    rfl
  · rw [hplaceholder]
    exact fill_placeholder "pipe" pipe

/-- **One stage**: it hands the pipe on, and notes its own dispatch and remarks. -/
theorem dispatch_bystander {m : Machine} {pipe : String} {call : Call}
    (h : Bystander m.registry pipe call) :
    ∃ notes, (∀ entry ∈ notes, DispatchedBetween m.depth m.depth entry) ∧ ∀ nested,
      dispatch nested call pipe m = (.ok pipe, { m with trace := notes ++ m.trace }) := by
  obtain ⟨b, hb, hfound, hacts⟩ := h.idle
  obtain ⟨command, hget, hhandler⟩ := Option.bind_eq_some_iff.mp hfound
  have hincoming := incoming_bystander h
  have hidle : ¬ Acts (call.invocation pipe).incoming
      ((call.invocation pipe).argumentValue "value") b := by
    rw [hincoming]
    exact hacts
  obtain ⟨remarks, hremarks, hrun⟩ := handsOn_run hb hidle
    (dispatching command (call.invocation pipe) m)
  rw [hincoming] at hrun
  refine ⟨remarks ++ [.dispatch command.name m.depth (call.invocation pipe).arguments
    (call.invocation pipe).value], ?_, fun nested => ?_⟩
  · intro entry hentry
    rcases List.mem_append.mp hentry with hremark | hdispatch
    · exact dispatchedBetween_of_remark (hremarks entry hremark) _ _
    · obtain rfl := List.mem_singleton.mp hdispatch
      exact ⟨le_rfl, le_rfl⟩
  · rw [dispatch_found hget, builtin?_eq_some hhandler, Action.leavingCommand, tryCatch_apply]
    have hhandled : (Handler.builtin b).run nested (call.invocation pipe)
        (dispatching command (call.invocation pipe) m) = _ := hrun nested
    rw [hhandled, List.append_assoc]
    rfl

/-! ### Any number of stages -/

/-- **Any number of stages**, one after the other. -/
theorem runCalls_bystanders {pipe : String} {calls : List Call} {m : Machine}
    (h : ∀ call ∈ calls, Bystander m.registry pipe call) :
    ∃ notes, (∀ entry ∈ notes, DispatchedBetween m.depth m.depth entry) ∧ ∀ nested,
      runCalls nested calls pipe m =
        (.ok (List.replicate calls.length pipe), { m with trace := notes ++ m.trace }) := by
  induction calls generalizing m with
  | nil => exact ⟨[], by simp, fun _ => rfl⟩
  | cons call rest ih =>
    obtain ⟨early, hearly, hcall⟩ := dispatch_bystander (h call (List.mem_cons_self ..))
    obtain ⟨late, hlate, hrest⟩ := ih (m := { m with trace := early ++ m.trace })
      fun other hother => h other (List.mem_cons_of_mem _ hother)
    refine ⟨late ++ early, ?_, fun nested => ?_⟩
    · intro entry hentry
      exact (List.mem_append.mp hentry).elim (hlate entry) (hearly entry)
    · rw [runCalls, bind_ok _ (hcall nested), bind_ok _ (hrest nested), List.append_assoc]
      rfl

/-- **Stages that do not apply are invisible**: the pipe comes out of every one of them as it went
in, whatever running a pipeline would do; so none is run inside them, and the machine is the same
but for the notes of the stages themselves. -/
theorem execute_bystanders {pipe text : String} {calls : List Call} {m : Machine}
    (h : ∀ call ∈ calls, Bystander m.registry pipe call) (hcalls : Pipeline.calls text = .ok calls)
    (hdepth : m.depth < m.maxDepth) :
    ∃ notes, (∀ entry ∈ notes, DispatchedBetween (m.depth + 1) (m.depth + 1) entry) ∧
      (∀ nested, (runText nested text pipe).deeper m =
        (.ok ⟨pipe, List.replicate calls.length pipe⟩, { m with trace := notes ++ m.trace })) ∧
      execute text pipe m =
        (.ok ⟨pipe, List.replicate calls.length pipe⟩, { m with trace := notes ++ m.trace }) := by
  obtain ⟨notes, hnotes, hrun⟩ := runCalls_bystanders (m := { m with depth := m.depth + 1 }) h
  have htext : ∀ nested, (runText nested text pipe).deeper m =
      (.ok ⟨pipe, List.replicate calls.length pipe⟩, { m with trace := notes ++ m.trace }) := by
    intro nested
    unfold Action.deeper runText
    rw [hcalls, bind_ok _ (x := Action.ofExcept (.ok calls)) rfl, bind_ok _ (hrun nested)]
    cases calls with
    | nil => rfl
    | cons call rest => simp [List.getLast?_replicate]
  refine ⟨notes, hnotes, htext, ?_⟩
  rw [execute_eq hdepth]
  exact htext runNested

/-- A switch on one, laid out loosely, with a null in the place of a condition and one member
more. -/
def looseSwitch : String :=
  " \x7b \"more\" : [ ],\t\"if\":null, \"switch\" : 1 \x7d\n"

/-- Stages of other families, and a case with another value. -/
def idleCalls : List Call :=
  [⟨"then", [], "/throw a", "/then /throw a"⟩,
    ⟨"else", [("pipe", "\x7b\x7bpipe\x7d\x7d")], "/throw b",
      "/else pipe=\x7b\x7bpipe\x7d\x7d /throw b"⟩,
    ⟨"elseif", [], "/throw c", "/elseif /throw c"⟩,
    ⟨"case", [("value", "2")], "/throw d", "/case value=2 /throw d"⟩,
    ⟨"catch", [("pipe", "\x7b\x7bpipe\x7d\x7d")], "/throw e",
      "/catch pipe=\x7b\x7bpipe\x7d\x7d /throw e"⟩]

/-- The pipeline that these stages are read from. -/
def idleText : String :=
  "/then /throw a | /else pipe=\x7b\x7bpipe\x7d\x7d /throw b | /elseif /throw c | " ++
    "/case value=2 /throw d | /catch pipe=\x7b\x7bpipe\x7d\x7d /throw e"

theorem execute_idleText :
    (∀ call ∈ idleCalls,
        Bystander (Machine.start .empty .empty 2).registry looseSwitch call) ∧
      Pipeline.calls idleText = .ok idleCalls ∧
      (Machine.start .empty .empty 2).depth < (Machine.start .empty .empty 2).maxDepth ∧
      (execute idleText looseSwitch (Machine.start .empty .empty 2)).1 =
        .ok ⟨looseSwitch, List.replicate 5 looseSwitch⟩ := by
  have hidle : ∀ call ∈ idleCalls,
      Bystander (Machine.start .empty .empty 2).registry looseSwitch call := by decide +kernel
  have hcalls : Pipeline.calls idleText = .ok idleCalls := by decide +kernel
  obtain ⟨notes, -, -, hrun⟩ := execute_bystanders hidle hcalls (by decide)
  exact ⟨hidle, hcalls, by decide, congrArg Prod.fst hrun⟩

end PipeScript.Proofs.Control.Bystanders
