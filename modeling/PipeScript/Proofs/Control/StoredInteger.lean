import PipeScript.Proofs.Control.SwitchCase
import PipeScript.Proofs.Json.Spelling
import PipeScript.Proofs.Number.IntegerText

/-! # A stored integer against its text

A variable keeps an integer exactly, and its text on a command line is read as a double.  So an
integer loosely equals its own text exactly when it is a double (`looseEq_text`), and the commands
that compare the two answer accordingly: `/test` with the rule `eq` says so, and `/case` with the
text for its value takes the switch on the variable (`stored_integer`).  An identifier of more than 53
bits is a double only if enough of its last bits are zeros; the first integer that misses its own
text is `2^53 + 1` (`misses_text`). -/

namespace PipeScript.Proofs.Control.StoredInteger

open PipeScript.Command PipeScript.Pipeline PipeScript.Text
open PipeScript.Proofs.Text.Filling PipeScript.Proofs.Json.Spelling PipeScript.Proofs.Json.RoundTrip
open PipeScript.Proofs.Number.Exact PipeScript.Proofs.Number.IntegerText
open PipeScript.Proofs.Machine.Programs PipeScript.Proofs.Machine.Relations
open PipeScript.Proofs.Machine.Execution
open PipeScript.Proofs.Control.Envelopes PipeScript.Proofs.Control.IfChain
open PipeScript.Proofs.Control.SwitchCase

/-- The text of an integer. -/
abbrev textOf (n : ℤ) : String := (Number.int n).text

/-! ### Comparing -/

/-- **An integer loosely equals its own text if it is a double**, on either side. -/
theorem looseEq_text (n : ℤ) (same : Bool) :
    (Value.int n).looseEq same (.text (textOf n)) = decide (IsDouble n) ∧
      (Value.text (textOf n)).looseEq same (.int n) = decide (IsDouble n) :=
  ⟨eq_ofText_text n, (eq_swap _ _).trans (eq_ofText_text n)⟩

theorem evaluate_text (n : ℤ) :
    Rule.evaluate "eq" (.int n) (.text (textOf n)) = .ok (decide (IsDouble n)) := by
  rw [← eq_ofText_text]
  rfl

/-! ### The texts of integers -/

theorem free_text (n : ℤ) (name : String) : FreeOf name (textOf n) := by
  refine freeOf_of_unbraced (unbraced_of_notMem fun hmem => ?_) name
  unfold textOf Number.text at hmem
  rw [Number.render, String.toList_ofList] at hmem
  exact absurd (isMark_intChars n _ hmem) (by decide)

/-! ### Commands on a stored integer -/

/-- A local variable holds an integer, under a name that is no number and has no placeholder of the
pipe in it. -/
structure Stores (m : Machine) (name : String) (n : ℤ) : Prop where
  word : (Number.ofText name).isNaN = true
  free : FreeOf "pipe" name
  held : m.store.locals.get? (.text name) = some (.plain (.int n))

/-- The call `/test left=name rule=eq right=n`. -/
def testCall (name : String) (n : ℤ) (raw : String) : Call :=
  ⟨"test", [("left", name), ("rule", "eq"), ("right", textOf n)], "", raw⟩

/-- The call `/switch var=name`. -/
def switchCall (name raw : String) : Call := ⟨"switch", [("var", name)], "", raw⟩

/-- A case for the text of an integer. -/
def caseOf (n : ℤ) (command raw : String) : Case := ⟨textOf n, command, raw⟩

theorem operand_text (store : Store) (n : ℤ) :
    store.operand (some (textOf n)) = .number (.ofText (textOf n)) := by
  unfold Store.operand
  dsimp only
  rw [isNaN_ofText_text]
  rfl

section Stored

variable {m m' : Machine} {name : String} {n : ℤ} (h : Stores m name n) (hm : SameButTrace m' m)
include h

theorem name_ne_empty : name ≠ "" := by
  rintro rfl
  exact absurd h.word (by decide)

include hm

theorem operand_stored : m'.store.operand (some name) = .int n := by
  unfold Store.operand Store.hasLocal Store.readLocal
  simp [hm.store, h.word, h.held, Shared.isNull, Shared.toValue, Value.isNull]

theorem firstValue_stored (literal : Value) :
    m'.store.firstValue (some name) none literal = .plain (.int n) := by
  have hread : m'.store.readLocal name = .plain (.int n) := by
    rw [Store.readLocal, hm.store, h.held]
    rfl
  unfold Store.firstValue Store.named
  dsimp only
  rw [if_neg (name_ne_empty h), hread]
  cases Store.literalSource literal <;> rfl

/-- `/test` answers whether the integer equals its text. -/
theorem compare_stored (pipe raw : String) :
    Command.compare ((testCall name n raw).invocation pipe) m' =
      (pure (boolText (decide (IsDouble n))) : Action String) m' := by
  have hinvocation : (testCall name n raw).invocation pipe =
      ⟨[("left", name), ("rule", "eq"), ("right", textOf n)], pipe, pipe⟩ := by
    have hrule : FreeOf "pipe" "eq" := by decide
    simp [testCall, Call.invocation, Call.hasValue, fill_of_free h.free, fill_of_free hrule,
      fill_of_free (free_text n "pipe")]
  have hleft : firstArgument? [("left", name), ("rule", "eq"), ("right", textOf n)]
      ["a", "left", "first", "x"] = some name := by
    simp [firstArgument?, List.lookup_cons, name_ne_empty h]
  have hright : firstArgument? [("left", name), ("rule", "eq"), ("right", textOf n)]
      ["b", "right", "second", "y"] = some (textOf n) := by
    simp [firstArgument?, List.lookup_cons, text_ne_empty n]
  have hevaluate : Rule.evaluate "eq" (.int n) (.number (.ofText (textOf n))) =
      .ok (decide (IsDouble n)) := by
    rw [← eq_ofText_text]
    rfl
  rw [hinvocation]
  unfold Command.compare
  rw [bind_ok m' (store_apply m')]
  dsimp only
  rw [hleft, hright, operand_stored h hm, operand_text]
  change (Action.ofExcept (Rule.evaluate "eq" (.int n) (.number (.ofText (textOf n)))) >>= _) m' = _
  rw [hevaluate]
  rfl

/-- `/switch` puts the integer on the pipe. -/
theorem switch_stored (hdigits : exceedsDigitLimit n = false) (pipe raw : String) :
    Command.switch ((switchCall name raw).invocation pipe) m' =
      (pure (Envelope.switch (.int n)).encode : Action String) m' := by
  have hinvocation : (switchCall name raw).invocation pipe = ⟨[("var", name)], pipe, pipe⟩ := by
    simp [switchCall, Call.invocation, Call.hasValue, fill_of_free h.free]
  have hfirst : (Invocation.mk [("var", name)] pipe pipe).firstValue m' = (.ok (.int n), m') := by
    unfold Invocation.firstValue
    rw [bind_ok m' (store_apply m')]
    have hargument : Invocation.argument? ⟨[("var", name)], pipe, pipe⟩ "var" = some name := rfl
    have hglobal : Invocation.argument? ⟨[("var", name)], pipe, pipe⟩ "globalvar" = none := rfl
    rw [hargument, hglobal, firstValue_stored h hm]
    rfl
  have hshort : (Value.int n).hasLongInteger = false := hdigits
  rw [hinvocation]
  unfold Command.switch
  rw [bind_ok m' hfirst, Action.write, hshort, if_neg Bool.false_ne_true]

omit hm

theorem test_agrees (htest : Holds m.registry .compare) (pipe raw : String) :
    Agrees (dispatch runNested (testCall name n raw) pipe m)
      ((pure (boolText (decide (IsDouble n))) : Action String) m) := by
  have hname : (testCall name n raw).name = Builtin.compare.describe.name := rfl
  refine call_agrees htest hname (.refl m) (fun m' hm' => ?_) (.ok _ _)
  have hrun : Builtin.compare.run runNested ((testCall name n raw).invocation pipe) m' =
      (pure (boolText (decide (IsDouble n))) : Action String) m' := compare_stored h hm' pipe raw
  rw [hrun]
  exact ⟨rfl, hm'⟩

theorem switch_agrees (hdigits : exceedsDigitLimit n = false) (hswitch : Holds m.registry .switch)
    (pipe raw : String) :
    Agrees (dispatch runNested (switchCall name raw) pipe m)
      ((pure (Envelope.switch (.int n)).encode : Action String) m) := by
  have hname : (switchCall name raw).name = Builtin.switch.describe.name := rfl
  refine call_agrees hswitch hname (.refl m) (fun m' hm' => ?_) (.ok _ _)
  have hrun : Builtin.switch.run runNested ((switchCall name raw).invocation pipe) m' =
      (pure (Envelope.switch (.int n)).encode : Action String) m' :=
    switch_stored h hm' hdigits pipe raw
  rw [hrun]
  exact ⟨rfl, hm'⟩

end Stored

/-! ### Executed -/

section Executed

variable {m : Machine} {name : String} {n : ℤ} (h : Stores m name n) (hdepth : m.depth < m.maxDepth)
include h hdepth

theorem finalPipe_test (htest : Holds m.registry .compare) {text raw : String}
    (hcalls : calls text = .ok [testCall name n raw]) (pipe : String) :
    Agrees (finalPipe text pipe m)
      ((pure (boolText (decide (IsDouble n))) : Action String).deeper m) := by
  have hdeep : Stores { m with depth := m.depth + 1 } name n := ⟨h.word, h.free, h.held⟩
  rw [finalPipe_eq hdepth hcalls, outputOf_singleton]
  exact Agrees.deeper (test_agrees hdeep htest pipe raw)

theorem finalPipe_switch (hdigits : exceedsDigitLimit n = false)
    (hswitch : Holds m.registry .switch) (hcase : Holds m.registry .matchCase)
    {text raw caseRaw command : String} (hslash : command.toList.head? = some '/')
    (hcalls : calls text = .ok [switchCall name raw, (caseOf n command caseRaw).call])
    (pipe : String) :
    Agrees (finalPipe text pipe m)
      ((if IsDouble n then runNested ((caseOf n command caseRaw).filled (.int n))
        else pure (Envelope.switch (.int n)).encode : Action String).deeper m) := by
  have hplain : (caseOf n command caseRaw).Plain := ⟨hslash, free_text n "pipe"⟩
  have hdecode : Envelope.decode? (Envelope.switch (.int n)).encode = some (.switch (.int n)) :=
    decode?_encode (.switch (.int hdigits) rfl)
  have hmatch : runCase runNested (.int n) (caseOf n command caseRaw)
      (Envelope.switch (.int n)).encode = if IsDouble n then
        runNested ((caseOf n command caseRaw).filled (.int n))
      else pure (Envelope.switch (.int n)).encode := by
    have hloose : (Value.int n).looseEq false (.text (caseOf n command caseRaw).value) =
        decide (IsDouble n) := (looseEq_text n false).1
    unfold runCase
    simp only [hloose, decide_eq_true_eq]
  have hdeep : Stores { m with depth := m.depth + 1 } name n := ⟨h.word, h.free, h.held⟩
  have hcaseDeep : Holds { m with depth := m.depth + 1 }.registry .matchCase := hcase
  rw [finalPipe_eq hdepth hcalls, ← hmatch]
  refine Agrees.deeper ?_
  rw [outputOf_cons]
  refine (switch_agrees hdeep hdigits hswitch pipe raw).bind_pure_left fun before hbefore => ?_
  rw [outputOf_singleton]
  exact case_agrees hplain hcaseDeep hbefore hdecode

end Executed

/-- **A stored integer is compared with its own text** by value: it loosely equals the text, `/test`
says so and `/case` takes the switch on the variable, each exactly if the integer is a double. -/
theorem stored_integer {n : ℤ} (hdigits : exceedsDigitLimit n = false) {m : Machine} {name : String}
    (hstored : Stores m name n) (hdepth : m.depth < m.maxDepth)
    (htest : Holds m.registry .compare) (hswitch : Holds m.registry .switch)
    (hcase : Holds m.registry .matchCase) {testText testRaw : String}
    (htestCalls : calls testText = .ok [testCall name n testRaw])
    {switchText switchRaw caseRaw command : String} (hslash : command.toList.head? = some '/')
    (hswitchCalls : calls switchText =
      .ok [switchCall name switchRaw, (caseOf n command caseRaw).call]) (pipe : String) :
    (Value.int n).looseEq false (.text (textOf n)) = decide (IsDouble n) ∧
      (Value.text (textOf n)).looseEq false (.int n) = decide (IsDouble n) ∧
      Rule.evaluate "eq" (.int n) (.text (textOf n)) = .ok (decide (IsDouble n)) ∧
      Agrees (finalPipe testText pipe m)
        ((pure (boolText (decide (IsDouble n))) : Action String).deeper m) ∧
      Agrees (finalPipe switchText pipe m)
        ((if IsDouble n then runNested ((caseOf n command caseRaw).filled (.int n))
          else pure (Envelope.switch (.int n)).encode : Action String).deeper m) :=
  ⟨(looseEq_text n false).1, (looseEq_text n false).2, evaluate_text n,
    finalPipe_test hstored hdepth htest htestCalls pipe,
    finalPipe_switch hstored hdepth hdigits hswitch hcase hslash hswitchCalls pipe⟩

/-- A machine with an identifier of more than 53 bits in a variable. -/
def withId : Machine := { Machine.start .empty .empty 2 with
  store := { Store.empty with locals := [(.text "id", .plain (.int (2 ^ 60)))] } }

theorem stored_integer_id :
    IsDouble (2 ^ 60) ∧
      Agrees (finalPipe "/test left=id rule=eq right=1152921504606846976" "" withId)
        ((pure "true" : Action String).deeper withId) ∧
      Agrees (finalPipe "/switch var=id | /case value=1152921504606846976 /echo found" "" withId)
        ((runNested "/echo found").deeper withId) := by
  have hdouble : IsDouble (2 ^ 60) := by decide +kernel
  have hstored : Stores withId "id" (2 ^ 60) := ⟨by decide +kernel, by decide +kernel, rfl⟩
  have htestCalls : calls "/test left=id rule=eq right=1152921504606846976" =
      .ok [testCall "id" (2 ^ 60) "/test left=id rule=eq right=1152921504606846976"] := by
    decide +kernel
  have hswitchCalls : calls "/switch var=id | /case value=1152921504606846976 /echo found" =
      .ok [switchCall "id" "/switch var=id", (caseOf (2 ^ 60) "/echo found"
        "/case value=1152921504606846976 /echo found").call] := by
    decide +kernel
  have hfilled : (caseOf (2 ^ 60) "/echo found"
      "/case value=1152921504606846976 /echo found").filled (.int (2 ^ 60)) = "/echo found" := by
    decide +kernel
  obtain ⟨-, -, -, htest, hswitch⟩ := stored_integer (by decide +kernel) hstored (by decide)
    (by decide +kernel) (by decide +kernel) (by decide +kernel) htestCalls (by decide) hswitchCalls ""
  rw [decide_eq_true hdouble] at htest
  rw [if_pos hdouble, hfilled] at hswitch
  exact ⟨hdouble, htest, hswitch⟩

/-- **The first integer that misses its own text.** -/
theorem misses_text : textOf (2 ^ 53 + 1) = "9007199254740993" ∧
    exceedsDigitLimit (2 ^ 53 + 1) = false ∧
    (Value.int (2 ^ 53 + 1)).looseEq false (.text (textOf (2 ^ 53 + 1))) = false ∧
    (Value.text (textOf (2 ^ 53 + 1))).looseEq false (.int (2 ^ 53 + 1)) = false ∧
    Rule.evaluate "eq" (.int (2 ^ 53 + 1)) (.text (textOf (2 ^ 53 + 1))) = .ok false := by
  decide +kernel

end PipeScript.Proofs.Control.StoredInteger
