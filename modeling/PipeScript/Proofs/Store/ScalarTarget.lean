import PipeScript.Proofs.Store.WriteSequence

/-! # Writes through scalar variables

A variable may hold a scalar, which has no part to write.  `/setat` refuses it and leaves the
variable as it was whenever the scalar is data of its own: a number, a boolean, or the JSON text of
one or of a text (`setAt_scalar`).  A text that is not JSON is no data, so the command takes such a
variable for one that is not there, and what it creates replaces the text
(`plain_text_is_overwritten`). -/

namespace PipeScript.Proofs.Store.ScalarTarget

open PipeScript.Value PipeScript.Path
open PipeScript.Proofs.Path.Addressing PipeScript.Proofs.Path.RoundTrip
open PipeScript.Proofs.Store.FailedWrite PipeScript.Proofs.Store.WriteSequence

/-! ### Writes into a scalar -/

/-- A step through which a write goes on in a text has too many digits. -/
def StepTooLong (s : Scalar) (path : Path) (fault : Fault) : Prop :=
  (∃ u, s = .text u) ∧ ∃ token ∈ path.dropLast, ∃ digits, LongDigits token digits ∧
    fault = .digitLimit (some digits.length)

theorem StepTooLong.cons {u : String} {token next : Value} {rest : Path} {s : Scalar} {fault : Fault}
    (h : StepTooLong s (next :: rest) fault) :
    StepTooLong (.text u) (token :: next :: rest) fault := by
  obtain ⟨-, long, hlong, hdigits⟩ := h
  refine ⟨⟨u, rfl⟩, long, ?_, hdigits⟩
  rw [List.dropLast_cons_cons]
  exact List.mem_cons_of_mem _ hlong

theorem kind_putThen_scalar (s : Scalar) (token part : Value) (descend : Value → Written) :
    ∃ fault, ((Value.scalar s).putThen token part descend).2 = some fault ∧
      fault.kind = "IndexPathError" :=
  ⟨_, rfl, rfl⟩

/-- **A write into a scalar is refused for its path**, or for the digits of a step in a text. -/
theorem setInside_scalar_refused (s : Scalar) (path : Path) (value : Value) :
    ∃ fault, ((Value.scalar s).setInside path value).2 = some fault ∧
      (fault.kind = "IndexPathError" ∨ StepTooLong s path fault) := by
  induction path generalizing s with
  | nil => exact ⟨_, rfl, .inl rfl⟩
  | cons token rest ih =>
    rcases rest with _ | ⟨next, rest⟩
    · exact ⟨_, rfl, .inl rfl⟩
    · have hempty : ∀ s part, ∃ fault, ((Value.scalar s).putThen token part fun part =>
          part.setInside (next :: rest) value).2 = some fault ∧
          (fault.kind = "IndexPathError" ∨ StepTooLong s (token :: next :: rest) fault) := by
        intro s part
        obtain ⟨fault, hfault, hkind⟩ := kind_putThen_scalar s token part _
        exact ⟨fault, hfault, .inl hkind⟩
      rcases s with _ | b | n | u | m
      · exact hempty .null (emptyFor next)
      · exact hempty (.bool b) (emptyFor next)
      · exact hempty (.number n) (emptyFor next)
      · rw [setInside]
        rcases exactPart?_text u token with ⟨fault, hindex, h⟩ | h | ⟨t, h⟩
        · rw [h]
          refine ⟨fault, rfl, .inr ⟨⟨u, rfl⟩, token, ?_, ?_⟩⟩
          · rw [List.dropLast_cons_cons]
            exact List.mem_cons_self ..
          · rcases exactIndex?_cases token with ⟨digits, hlong, hfault⟩ | ⟨-, found, hfound⟩
            · exact ⟨digits, hlong, Except.error.inj (hindex.symm.trans hfault)⟩
            · cases hindex.symm.trans hfound
        · rw [h]
          exact hempty (.text u) _
        · rw [h]
          dsimp only
          rcases Json.parse? t with _ | part
          · obtain ⟨fault, hfault, hkind⟩ := ih (.text t)
            exact ⟨fault, hfault, hkind.imp_right StepTooLong.cons⟩
          · exact hempty (.text u) part
      · exact hempty (.moment m) (emptyFor next)

theorem setAt_scalar_refused {s : Scalar} (h : s ≠ .null) (path : Path) (value : Value) :
    ∃ fault, ((Value.scalar s).setAt path value).2 = some fault ∧
      (fault.kind = "IndexPathError" ∨ StepTooLong s path fault) := by
  have hnull : Value.scalar s ≠ .null := fun heq => h (Value.scalar.inj heq)
  rcases path with _ | ⟨token, rest⟩
  · rw [setAt]
    exact ⟨_, rfl, .inl rfl⟩
  · rw [setAt_eq_setInside hnull]
    exact setInside_scalar_refused s (token :: rest) value

/-- An index is refused only if there is none. -/
theorem ofIndex_eq_error {index : Value} {fault : Fault} (h : Path.ofIndex index = .error fault) :
    fault = .indexMissing := by
  unfold Path.ofIndex at h
  split at h
  · exact (Except.error.inj h).symm
  · cases h
  · split at h <;> cases h
  · cases h

/-! ### Variables that hold a scalar -/

section Variable

variable {name : String} (hname : name ≠ "") {inv : Invocation} (hinv : WritesTo name inv)
  {m : Machine} {s t : Scalar}
  (hholds : m.store.locals.get? (.text name) = some (.plain (.scalar s)))
  (hdata : (Shared.plain (.scalar s)).structured = .plain (.scalar t))
include hname hinv hholds hdata

theorem target_scalar : target inv m.store = .plain (.scalar t) := by
  rw [target_of_writesTo hname hinv, Store.readLocal, hholds, Option.getD_some, hdata]

/-- **Scalar data stays**: `/setat` refuses its index and leaves the machine as it was. -/
theorem setAt_keeps (hnull : t ≠ .null) :
    ∃ fault, Command.setAt inv m = (.error fault, m) ∧
      (fault.kind = "IndexPathError" ∨
        ∃ path, Path.ofIndex (inv.argumentValue "index") = .ok path ∧ StepTooLong t path fault) := by
  have htarget := target_scalar hname hinv hholds hdata
  rcases hpath : Path.ofIndex (inv.argumentValue "index") with fault | path
  · refine ⟨fault, ?_, .inl ?_⟩
    · unfold Command.setAt Invocation.path
      rw [hpath]
      rfl
    · rw [ofIndex_eq_error hpath]
      rfl
  · obtain ⟨fault, hset, hkind⟩ := setAt_scalar_refused hnull path (decodedText inv.value)
    refine ⟨fault, ?_, hkind.imp_right fun hlong => ⟨path, rfl, hlong⟩⟩
    have hfault : ((target inv m.store).toValue.setAt path (decodedText inv.value)).2 =
        some fault := by
      rw [htarget]
      exact hset
    rw [setAt_of_fault hpath m hfault, written_of_plain htarget]

/-- **What is no data is replaced**: `/setat` stores what its write makes out of nothing. -/
theorem setAt_replaces (hnull : t = .null) {path : Path}
    (hpath : Path.ofIndex (inv.argumentValue "index") = .ok path) {created : Value}
    (hset : Value.null.setAt path (decodedText inv.value) = (created, none))
    (hshort : created.hasLongInteger = false) :
    Command.setAt inv m =
      (.ok created.pipeText, { m with store := m.store.writeLocal name created.pipeText }) := by
  have htarget := target_scalar hname hinv hholds hdata
  have hfound : (target inv m.store).toValue.setAt path (decodedText inv.value) =
      (created, none) := by
    rw [htarget, hnull]
    exact hset
  rw [setAt_of_written hpath m hfound, hshort, written_of_plain htarget,
    stored_of_writesTo hname hinv]
  rfl

/-- **Writes through a scalar variable**: when the scalar is data, which a text is by being decoded,
the command is refused and the variable keeps it, as does everything else.  It is refused for its
index, or, in a text, for the digits of a step that it cannot read.  When the scalar is no data, a
null or a text that is not JSON, what the command makes out of nothing replaces it. -/
theorem setAt_scalar :
    (t ≠ .null → ∃ fault, Command.setAt inv m = (.error fault, m) ∧
      (fault.kind = "IndexPathError" ∨ ∃ path,
        Path.ofIndex (inv.argumentValue "index") = .ok path ∧ StepTooLong t path fault)) ∧
    (t = .null → ∀ path created, Path.ofIndex (inv.argumentValue "index") = .ok path →
      Value.null.setAt path (decodedText inv.value) = (created, none) →
      created.hasLongInteger = false →
      Command.setAt inv m =
        (.ok created.pipeText, { m with store := m.store.writeLocal name created.pipeText })) :=
  ⟨setAt_keeps hname hinv hholds hdata,
    fun hnull _ _ hpath => setAt_replaces hname hinv hholds hdata hnull hpath⟩

end Variable

/-- A machine with a text in the variable `x`. -/
def holdingText (s : String) : Machine :=
  Machine.start (Store.ofEntries [(.text "x", .text s)] []) Registry.empty 64

/-- The text of a JSON text is kept, also where the path leads to one of its characters. -/
theorem setAt_scalar_quotedText :
    "x" ≠ "" ∧ WritesTo "x" (call "[0,\"k\"]" "1") ∧
      (holdingText "\"a7\"").store.locals.get? (.text "x") = some (.plain (.text "\"a7\"")) ∧
      (Shared.plain (.text "\"a7\"")).structured = .plain (.text "a7") ∧
      ∃ fault, Command.setAt (call "[0,\"k\"]" "1") (holdingText "\"a7\"") =
        (.error fault, holdingText "\"a7\"") := by
  have hdata : (Shared.plain (.text "\"a7\"")).structured = .plain (.text "a7") := rfl
  have hname : "x" ≠ "" := by decide
  have hnull : Scalar.text "a7" ≠ .null := by decide
  obtain ⟨fault, hfault, -⟩ :=
    (setAt_scalar hname (writesTo_call "[0,\"k\"]" "1") (m := holdingText "\"a7\"") rfl hdata).1 hnull
  exact ⟨hname, writesTo_call _ _, rfl, hdata, fault, hfault⟩

/-- **A plain text is overwritten**: it is no data, and a dictionary takes its place. -/
theorem plain_text_is_overwritten :
    (holdingText "hello").store.locals.get? (.text "x") = some (.plain (.text "hello")) ∧
      Json.parse? "hello" = none ∧
      ∃ after, Command.setAt (call "a" "1") (holdingText "hello") = (.ok "\x7b\"a\":1\x7d", after) ∧
        after.store.locals.get? (.text "x") = some (.plain (.text "\x7b\"a\":1\x7d")) := by
  have hdata : (Shared.plain (.text "hello")).structured = .plain .null := rfl
  have hpath : Path.ofIndex ((call "a" "1").argumentValue "index") = .ok [.text "a"] := by
    have hparse : Json.parse? "a" = none := rfl
    have hindex : (call "a" "1").argumentValue "index" = .text "a" := rfl
    rw [hindex, Path.ofIndex, hparse]
  have hset : Value.null.setAt [.text "a"] (decodedText "1") = (.dict [(.text "a", .int 1)], none) :=
    rfl
  have hshort : (Value.dict [(.text "a", .int 1)]).hasLongInteger = false := by decide +kernel
  have hholds : (holdingText "hello").store.locals.get? (.text "x") =
      some (.plain (.text "hello")) := rfl
  have hrun := setAt_replaces (by decide) (writesTo_call "a" "1") hholds hdata rfl hpath hset hshort
  exact ⟨hholds, rfl, _, hrun, rfl⟩

end PipeScript.Proofs.Store.ScalarTarget
