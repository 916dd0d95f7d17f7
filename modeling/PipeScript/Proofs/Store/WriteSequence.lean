import PipeScript.Proofs.Path.Settling
import PipeScript.Proofs.Store.FailedWrite

/-! # Writes through a text variable

A variable that `/setat` creates holds the JSON text of its value, which every further call reads
and writes anew.  Calls that write into such a variable do what writes into one value in memory do
(`mirrors_of_calls`): the variable always holds the text of that value, each call answers this text
or fails when the write in memory gets stuck, and nothing else changes.  The induction is on the
calls, and what one call keeps is that the machine holds the value in memory as text (`holding`,
`setAt_holding`).  Between two calls an infinite number turns into a null, since its text is that of
null.  No write may pass through one, then: in memory it gets stuck in the number, where it replaces
the null that the variable holds (`infinite_number_is_replaced`). -/

namespace PipeScript.Proofs.Store.WriteSequence

open PipeScript.Proofs.Value.Entries PipeScript.Proofs.Json.Reading
open PipeScript.Proofs.Json.RoundTrip (Lossless)
open PipeScript.Proofs.Json.Settling PipeScript.Proofs.Path.Settling
open PipeScript.Proofs.Path.RoundTrip PipeScript.Proofs.Path.Outcome
open PipeScript.Proofs.Store.FailedWrite

/-! ### The two sides -/

/-- A call of `/setat` that writes into one local variable. -/
structure WritesTo (name : String) (inv : Invocation) : Prop where
  var : inv.argument? "var" = some name
  globalvar : inv.argument? "globalvar" = none
  value : inv.argument? "value" = none

/-- Such a call writes inside what its variable holds. -/
theorem target_of_writesTo {name : String} (hname : name ≠ "") {inv : Invocation}
    (hinv : WritesTo name inv) (store : Store) :
    target inv store = (store.readLocal name).structured := by
  have hnamed : Store.named store.readLocal (some name) = some (store.readLocal name) :=
    if_neg hname
  have hvalue : inv.argumentValue "value" = .null := by
    unfold Invocation.argumentValue
    rw [hinv.value]
  unfold target Store.structured
  rw [hinv.var, hinv.globalvar, hvalue, hnamed]
  rfl

/-- It stores its text there, and nowhere else. -/
theorem stored_of_writesTo {name : String} (hname : name ≠ "") {inv : Invocation}
    (hinv : WritesTo name inv) (text : String) (store : Store) :
    stored inv text store = store.writeLocal name text := by
  have hgiven : inv.given? "var" = some name := by
    unfold Invocation.given?
    rw [hinv.var, Option.filter_some, if_pos (by simpa using hname)]
  have hglobal : inv.given? "globalvar" = none := by
    unfold Invocation.given?
    rw [hinv.globalvar, Option.filter_none]
  unfold stored
  rw [hgiven, hglobal]

/-- The machine after calls of `/setat`, whether they fail or not. -/
def afterCalls (calls : List Invocation) (m : Machine) : Machine :=
  calls.foldl (fun m inv => (Command.setAt inv m).2) m

/-- What the write of a call leaves of a value in memory, if it gets through. -/
def writtenInMemory? (inv : Invocation) (v : Value) : Option Value :=
  match Path.ofIndex (inv.argumentValue "index") with
  | .ok path => write? v path (decodedText inv.value)
  | .error _ => none

/-- Whether the write of a call meets a number in memory that is not finite. -/
def meetsUnboundedInMemory (inv : Invocation) (v : Value) : Bool :=
  match Path.ofIndex (inv.argumentValue "index") with
  | .ok path => meetsUnbounded v path
  | .error _ => false

/-- A value in memory after the writes of calls; those that get stuck are skipped. -/
def inMemory (calls : List Invocation) (v : Value) : Value :=
  calls.foldl (fun v inv => (writtenInMemory? inv v).getD v) v

/-- What a variable holds for a value in memory; there is no variable for null. -/
def textOf? : Value → Option Shared
  | .null => none
  | v => some (.plain (.text v.json))

/-- A machine in which a variable mirrors a value in memory, and all other variables are as in
another machine. -/
structure Mirrors (name : String) (v : Value) (start m : Machine) : Prop where
  variable_eq : m.store.locals.get? (.text name) = textOf? v
  locals_eq : ∀ other ≠ name,
    m.store.locals.get? (.text other) = start.store.locals.get? (.text other)
  globals_eq : m.store.globals = start.store.globals

/-- A call answers the text that it has stored when the write in memory gets through; it fails and
changes nothing when that gets stuck. -/
def Answers (name : String) (inv : Invocation) (v : Value) (m : Machine) : Prop :=
  match writtenInMemory? inv v with
  | some updated =>
    (Command.setAt inv m).1 = .ok updated.json ∧
      (Command.setAt inv m).2.store.locals.get? (.text name) = some (.plain (.text updated.json))
  | none => ∃ fault, Command.setAt inv m = (.error fault, m)

/-! ### One call -/

/-- Values that calls build from null: null, or a decoded container. -/
structure Built (v : Value) : Prop where
  decoded : Decoded v
  shape : v = .null ∨ v.isContainer = true

theorem built_null : Built .null := ⟨.null, .inl rfl⟩

theorem built_of_writtenInMemory? {inv : Invocation} {v updated : Value} (hv : Built v)
    (h : writtenInMemory? inv v = some updated) :
    Built updated ∧ updated.isContainer = true := by
  unfold writtenInMemory? at h
  split at h
  · have hcontainer := isContainer_of_write? h
    have hvalue := closed_decodedText readClosed_decoded inv.value
    exact ⟨⟨decoded_write? hv.decoded hvalue h, .inr hcontainer⟩, hcontainer⟩
  · cases h

/-- The machine with the text of a value in a variable. -/
def holding (name : String) (v : Value) (m : Machine) : Machine :=
  match v with
  | .null => m
  | v => { m with store := m.store.writeLocal name v.json }

theorem holding_container {v : Value} (h : v.isContainer = true) (name : String) (m : Machine) :
    holding name v m = { m with store := m.store.writeLocal name v.json } := by
  rcases v with s | items | entries
  · cases h
  · rfl
  · rfl

theorem textOf?_container {v : Value} (h : v.isContainer = true) :
    textOf? v = some (.plain (.text v.json)) := by
  rcases v with s | items | entries
  · cases h
  · rfl
  · rfl

theorem pipeText_container {v : Value} (h : v.isContainer = true) : v.pipeText = v.json := by
  rcases v with s | items | entries
  · cases h
  · rfl
  · rfl

theorem decoded_settle {v : Value} (hv : Built v) : Decoded (settle v) :=
  closed_of_parse? readClosed_decoded (parse?_json hv.decoded)

/-- The text is stored where the text of the value before it was. -/
theorem stored_holding {name : String} (hname : name ≠ "") {inv : Invocation}
    (hinv : WritesTo name inv) {v updated : Value} (hv : Built v)
    (hupdated : updated.isContainer = true) (m : Machine) :
    { holding name v m with store := stored inv updated.json (holding name v m).store } =
      holding name updated m := by
  rw [stored_of_writesTo hname hinv, holding_container hupdated]
  rcases hv.shape with rfl | hcontainer
  · rfl
  · rw [holding_container hcontainer]
    dsimp only
    unfold Store.writeLocal
    dsimp only
    rw [insert_insert_text]

section Call

variable {name : String} {m : Machine} (habsent : m.store.locals.get? (.text name) = none)
include habsent

theorem mirrors_holding {v : Value} (hv : Built v) : Mirrors name v m (holding name v m) := by
  rcases hv.shape with rfl | hcontainer
  · exact ⟨habsent, fun _ _ => rfl, rfl⟩
  · rw [holding_container hcontainer]
    refine ⟨?_, fun other hother => get?_insert_text_ne hother.symm _ _, rfl⟩
    rw [textOf?_container hcontainer]
    exact get?_insert_text name _ _

/-- What the variable is read as. -/
theorem structured_holding {v : Value} (hv : Built v) :
    ((holding name v m).store.readLocal name).structured = .plain (settle v) := by
  have hmirrors := (mirrors_holding habsent hv).variable_eq
  unfold Store.readLocal
  rw [hmirrors]
  rcases hv.shape with rfl | hcontainer
  · rfl
  · rw [textOf?_container hcontainer, Option.getD_some, Shared.structured,
      parse?_json hv.decoded, Option.getD_some]

/-- A call finds the settled value in the variable. -/
theorem target_holding (hname : name ≠ "") {inv : Invocation} (hinv : WritesTo name inv) {v : Value}
    (hv : Built v) : target inv (holding name v m).store = .plain (settle v) := by
  rw [target_of_writesTo hname hinv, structured_holding habsent hv]

/-- **One call** on a machine that holds a value does what the write does in memory. -/
theorem setAt_holding (hname : name ≠ "") {inv : Invocation} (hinv : WritesTo name inv) {v : Value}
    (hv : Built v) (hmeets : meetsUnboundedInMemory inv v = false) :
    (∀ updated, writtenInMemory? inv v = some updated →
      Command.setAt inv (holding name v m) = (.ok updated.json, holding name updated m)) ∧
    (writtenInMemory? inv v = none →
      ∃ fault, Command.setAt inv (holding name v m) = (.error fault, holding name v m)) := by
  have htarget := target_holding habsent hname hinv hv
  have hvalue := closed_decodedText readClosed_decoded inv.value
  have hbuilt : ∀ updated, writtenInMemory? inv v = some updated →
      Built updated ∧ updated.isContainer = true := fun _ => built_of_writtenInMemory? hv
  unfold writtenInMemory? at hbuilt ⊢
  unfold meetsUnboundedInMemory at hmeets
  rcases hindex : Path.ofIndex (inv.argumentValue "index") with fault | path
  · refine ⟨fun _ h => (nomatch h), fun _ => ⟨fault, ?_⟩⟩
    unfold Command.setAt Invocation.path
    rw [hindex]
    rfl
  · rw [hindex] at hbuilt hmeets
    dsimp only at hbuilt ⊢
    have hsettle := settle_write? hv.decoded hv.shape hmeets (decodedText inv.value)
    constructor
    · intro updated hupdated
      rw [hupdated] at hsettle
      obtain ⟨other, hother, heq⟩ := Option.map_eq_some_iff.mp hsettle
      obtain ⟨hnew, hnewContainer⟩ := hbuilt updated hupdated
      have hdecoded := decoded_write? (decoded_settle hv) hvalue hother
      have hcontainer := isContainer_of_write? hother
      have htext : other.pipeText = updated.json := by
        rw [pipeText_container hcontainer, ← json_settle hdecoded, heq,
          json_settle hnew.decoded]
      have hset : (target inv (holding name v m).store).toValue.setAt path
          (decodedText inv.value) = (other, none) := by
        rw [htarget]
        exact outcome?_eq_some_iff.mp hother
      rw [setAt_of_written hindex _ hset, if_neg (by simp [hdecoded.hasLongInteger]), htext,
        written_of_plain htarget,
        stored_holding hname hinv hv hnewContainer]
    · intro hnone
      rw [hnone] at hsettle
      obtain ⟨fault, hfault⟩ := outcome?_eq_none_iff.mp (Option.map_eq_none_iff.mp hsettle)
      have hset : ((target inv (holding name v m).store).toValue.setAt path
          (decodedText inv.value)).2 = some fault := by
        rw [htarget]
        exact hfault
      refine ⟨fault, ?_⟩
      rw [setAt_of_fault hindex _ hset, written_of_plain htarget]

end Call

/-! ### Sequences of calls -/

theorem afterCalls_cons (inv : Invocation) (calls : List Invocation) (m : Machine) :
    afterCalls (inv :: calls) m = afterCalls calls (Command.setAt inv m).2 := rfl

theorem inMemory_cons (inv : Invocation) (calls : List Invocation) (v : Value) :
    inMemory (inv :: calls) v = inMemory calls ((writtenInMemory? inv v).getD v) := rfl

section Calls

variable {name : String} (hname : name ≠ "") {m : Machine}
  (habsent : m.store.locals.get? (.text name) = none)
include hname habsent

theorem afterCall_holding {inv : Invocation} (hinv : WritesTo name inv) {v : Value} (hv : Built v)
    (hmeets : meetsUnboundedInMemory inv v = false) :
    (Command.setAt inv (holding name v m)).2 = holding name ((writtenInMemory? inv v).getD v) m ∧
      Built ((writtenInMemory? inv v).getD v) ∧ Answers name inv v (holding name v m) := by
  obtain ⟨hsome, hnone⟩ := setAt_holding habsent hname hinv hv hmeets
  unfold Answers
  rcases hwritten : writtenInMemory? inv v with _ | updated
  · obtain ⟨fault, hcall⟩ := hnone hwritten
    rw [hcall]
    exact ⟨rfl, hv, fault, rfl⟩
  · obtain ⟨hbuilt, hcontainer⟩ := built_of_writtenInMemory? hv hwritten
    have hstored := (mirrors_holding habsent hbuilt).variable_eq
    rw [textOf?_container hcontainer] at hstored
    rw [hsome updated hwritten]
    exact ⟨rfl, hbuilt, rfl, hstored⟩

/-- **A run of calls** keeps that the machine holds the value in memory. -/
theorem afterCalls_holding {calls : List Invocation} (hcalls : ∀ inv ∈ calls, WritesTo name inv)
    {v : Value} (hv : Built v)
    (hmeets : ∀ (k : ℕ) (hk : k < calls.length),
      meetsUnboundedInMemory calls[k] (inMemory (calls.take k) v) = false) :
    (afterCalls calls (holding name v m) = holding name (inMemory calls v) m ∧
      Built (inMemory calls v)) ∧
    ∀ (k : ℕ) (hk : k < calls.length), Answers name calls[k] (inMemory (calls.take k) v)
      (afterCalls (calls.take k) (holding name v m)) := by
  induction calls generalizing v with
  | nil => exact ⟨⟨rfl, hv⟩, fun k hk => absurd hk (Nat.not_lt_zero k)⟩
  | cons inv calls ih =>
    have hfirst := hmeets 0 (Nat.zero_lt_succ _)
    obtain ⟨hafter, hbuilt, hanswers⟩ :=
      afterCall_holding hname habsent (hcalls inv (List.mem_cons_self ..)) hv hfirst
    obtain ⟨hrest, hothers⟩ := ih (fun other hother => hcalls other (List.mem_cons_of_mem _ hother))
      hbuilt fun k hk => hmeets (k + 1) (Nat.succ_lt_succ hk)
    rw [afterCalls_cons, hafter, inMemory_cons]
    refine ⟨hrest, fun k hk => ?_⟩
    cases k with
    | zero => exact hanswers
    | succ k =>
      rw [List.take_succ_cons, afterCalls_cons, hafter, inMemory_cons]
      exact hothers k (Nat.lt_of_succ_lt_succ hk)

/-- **Writes through a text variable behave like writes to one value in memory**, as long as none of
them passes through a number in that value that is not finite. -/
theorem mirrors_of_calls {calls : List Invocation} (hcalls : ∀ inv ∈ calls, WritesTo name inv)
    (hmeets : ∀ (k : ℕ) (hk : k < calls.length),
      meetsUnboundedInMemory calls[k] (inMemory (calls.take k) .null) = false) :
    Mirrors name (inMemory calls .null) m (afterCalls calls m) ∧
      ∀ (k : ℕ) (hk : k < calls.length), Answers name calls[k] (inMemory (calls.take k) .null)
        (afterCalls (calls.take k) m) := by
  obtain ⟨⟨hafter, hbuilt⟩, hanswers⟩ :=
    afterCalls_holding hname habsent hcalls built_null hmeets
  have hmirrors := mirrors_holding habsent hbuilt
  rw [← hafter] at hmirrors
  exact ⟨hmirrors, hanswers⟩

end Calls

/-! ### Two runs -/

/-- A call that writes a value at an index of the variable `x`. -/
def call (index value : String) : Invocation := ⟨[("var", "x"), ("index", index)], value, ""⟩

theorem writesTo_call (index value : String) : WritesTo "x" (call index value) := ⟨rfl, rfl, rfl⟩

def emptyMachine : Machine := Machine.start Store.empty Registry.empty 64

/-- Writes that create containers, get stuck in a list and in a double, and go on in a text. -/
def growingCalls : List Invocation :=
  [call "[\"rows\",0]" "7", call "[\"rows\",\"k\"]" "1", call "[\"note\"]" "\"[1.5,1e999]\"",
    call "[\"note\",2]" "2", call "[\"note\",0,\"k\"]" "3"]

theorem mirrors_of_growingCalls :
    "x" ≠ "" ∧ emptyMachine.store.locals.get? (.text "x") = none ∧
      (∀ inv ∈ growingCalls, WritesTo "x" inv) ∧
      (∀ (k : ℕ) (hk : k < growingCalls.length),
        meetsUnboundedInMemory growingCalls[k] (inMemory (growingCalls.take k) .null) = false) ∧
      (inMemory growingCalls .null).json = "\x7b\"rows\":[7],\"note\":[1.5,null,2]\x7d" ∧
      Mirrors "x" (inMemory growingCalls .null) emptyMachine
        (afterCalls growingCalls emptyMachine) := by
  have hcalls : ∀ inv ∈ growingCalls, WritesTo "x" inv := by
    simp [growingCalls, writesTo_call]
  have hmeets : ∀ (k : ℕ) (hk : k < growingCalls.length),
      meetsUnboundedInMemory growingCalls[k] (inMemory (growingCalls.take k) .null) = false := by
    decide +kernel
  have hmirrors := (mirrors_of_calls (by decide) rfl hcalls hmeets (m := emptyMachine)).1
  exact ⟨by decide, rfl, hcalls, hmeets, by decide +kernel, hmirrors⟩

/-- A write of a text, one that decodes it to a list of an infinite number, and one that gets stuck
in that number. -/
def unboundedCalls : List Invocation :=
  [call "[\"a\"]" "\"[1e999]\"", call "[\"a\",1]" "2", call "[\"a\",0,\"k\"]" "5"]

/-- **An infinite number is replaced**: the variable holds a null for it, in place of which the last
write creates a dictionary, while in memory it gets stuck. -/
theorem infinite_number_is_replaced :
    (∀ inv ∈ unboundedCalls, WritesTo "x" inv ∧ Lossless (decodedText inv.value)) ∧
      emptyMachine.store.locals.get? (.text "x") = none ∧
      ((afterCalls unboundedCalls emptyMachine).store.readLocal "x").toValue.pipeText =
        "\x7b\"a\":[\x7b\"k\":5\x7d,2]\x7d" ∧
      (inMemory unboundedCalls .null).json = "\x7b\"a\":[null,2]\x7d" ∧
      ¬ Mirrors "x" (inMemory unboundedCalls .null) emptyMachine
        (afterCalls unboundedCalls emptyMachine) := by
  have hcalls : ∀ inv ∈ unboundedCalls, WritesTo "x" inv ∧ Lossless (decodedText inv.value) := by
    have htext : Lossless (decodedText "\"[1e999]\"") := Lossless.text "[1e999]"
    have htwo : Lossless (decodedText "2") := Lossless.int (i := 2) (by decide +kernel)
    have hfive : Lossless (decodedText "5") := Lossless.int (i := 5) (by decide +kernel)
    simp only [unboundedCalls, List.forall_mem_cons, List.not_mem_nil]
    exact ⟨⟨writesTo_call _ _, htext⟩, ⟨writesTo_call _ _, htwo⟩, ⟨writesTo_call _ _, hfive⟩,
      fun _ h => h.elim⟩
  have hstored : ((afterCalls unboundedCalls emptyMachine).store.readLocal "x").toValue.pipeText =
      "\x7b\"a\":[\x7b\"k\":5\x7d,2]\x7d" := by decide +kernel
  have hmemory : (inMemory unboundedCalls .null).json = "\x7b\"a\":[null,2]\x7d" := by
    decide +kernel
  refine ⟨hcalls, rfl, hstored, hmemory, fun hmirrors => ?_⟩
  have hcontainer : (inMemory unboundedCalls .null).isContainer = true := by decide +kernel
  have hheld := hmirrors.variable_eq
  rw [textOf?_container hcontainer, hmemory] at hheld
  rw [Store.readLocal, hheld] at hstored
  exact absurd hstored (by decide)

end PipeScript.Proofs.Store.WriteSequence
