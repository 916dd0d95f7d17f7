import PipeScript.Envelope
import PipeScript.Proofs.Json.RoundTrip

/-! # Envelopes on the pipe

An envelope is read back from its text (`decode?_encode`), whatever text or other value of which
JSON loses nothing it carries.  Only a switch on null is lost, since null members are left out.
So the text on the pipe tells the envelope, its kind and its payload with it
(`encode_tells_envelope`). -/

namespace PipeScript.Proofs.Control.Envelopes

open PipeScript.Envelope
open PipeScript.Proofs.Json.RoundTrip PipeScript.Proofs.Value.Entries

/-- The envelopes of which JSON text loses nothing. -/
inductive Carried : Envelope → Prop where
  | condition (outcome : Bool) : Carried (.condition outcome)
  | returned {result : Value} (h : Lossless result) : Carried (.returned result)
  | raised (message : Option String) : Carried (.raised message)
  | switch {subject : Value} (h : Lossless subject) (hgiven : subject.isNull = false) :
      Carried (.switch subject)

/-- Entries under text keys. -/
def textEntries (pairs : List (String × Value)) : Entries Value :=
  pairs.map fun (k, v) => (.text k, v)

theorem lossless_textEntries {pairs : List (String × Value)} (hkeys : (pairs.map (·.1)).Nodup)
    (hitems : ∀ pair ∈ pairs, Lossless pair.2) : Lossless (.dict (textEntries pairs)) := by
  refine .dict ⟨fun entry hentry => ?_, ?_⟩ fun entry hentry => ?_
  · obtain ⟨pair, -, rfl⟩ := List.mem_map.mp hentry
    exact ⟨pair.1, rfl⟩
  · have hform : (textEntries pairs).map (·.1) = (pairs.map (·.1)).map Scalar.text := by
      simp [textEntries]
    rw [hform]
    exact hkeys.map fun _ _ => Scalar.text.inj
  · obtain ⟨pair, hpair, rfl⟩ := List.mem_map.mp hentry
    exact hitems pair hpair

theorem members_eq (pairs : List (String × Value)) :
    members pairs = .dict (textEntries (pairs.filter fun pair => !pair.2.isNull)) :=
  rfl

theorem lossless_members {pairs : List (String × Value)} (hkeys : (pairs.map (·.1)).Nodup)
    (hitems : ∀ pair ∈ pairs, Lossless pair.2) : Lossless (members pairs) := by
  rw [members_eq]
  exact lossless_textEntries (hkeys.sublist (List.filter_sublist.map _))
    fun pair hpair => hitems pair (List.mem_of_mem_filter hpair)

/-- JSON text loses nothing of such an envelope's dictionary. -/
theorem lossless_toValue {e : Envelope} (h : Carried e) : Lossless e.toValue := by
  cases h with
  | condition outcome =>
    have hdict : Lossless (.dict (textEntries [("if", .bool outcome)])) :=
      lossless_textEntries (by simp) (by simpa using .bool outcome)
    exact hdict
  | @returned result h => exact lossless_members (by simp) (by simpa using ⟨.bool false, h⟩)
  | raised message =>
    have hdict : ∀ text, Lossless text →
        Lossless (.dict (textEntries [("isException", .bool true), ("exception", text)])) :=
      fun text h => lossless_textEntries (by simp) (by simpa using ⟨.bool true, h⟩)
    cases message with
    | none => exact hdict .null .null
    | some s => exact hdict (.text s) (.text s)
  | switch h hgiven => exact lossless_members (by simp) (by simpa using h)

theorem member?_textEntries (pairs : List (String × Value)) (key : String) :
    member? (textEntries pairs) key = (pairs.lookup key).filter fun v => !v.isNull := by
  unfold member?
  congr 1
  induction pairs with
  | nil => rfl
  | cons pair pairs ih =>
    obtain ⟨k, v⟩ := pair
    rw [textEntries, List.map_cons, Entries.get?, Scalar.sameKey_text, List.lookup_cons, ← ih,
      Bool.beq_comm]
    cases key == k <;> rfl

theorem eq_null_of_isNull {v : Value} (h : v.isNull = true) : v = .null := by
  rcases v with (_ | _ | _ | _ | _) | _ | _
  · rfl
  all_goals cases h

/-- The dictionary of such an envelope tells which one it is. -/
theorem ofEntries?_toValue {e : Envelope} (h : Carried e) :
    ∃ entries, e.toValue = .dict entries ∧ ofEntries? entries = some e := by
  cases h with
  | condition outcome =>
    refine ⟨textEntries [("if", .bool outcome)], rfl, ?_⟩
    rw [ofEntries?, member?_textEntries]
    rfl
  | @returned result h =>
    cases hnull : result.isNull with
    | true =>
      obtain rfl := eq_null_of_isNull hnull
      refine ⟨textEntries [("isException", .bool false)], rfl, ?_⟩
      simp only [ofEntries?, member?_textEntries]
      rfl
    | false =>
      refine ⟨textEntries [("isException", .bool false), ("result", result)], ?_, ?_⟩
      · rw [toValue, members_eq, List.filter_cons_of_pos rfl,
          List.filter_cons_of_pos (by simp [hnull]), List.filter_nil]
      · have hresult : [("isException", Value.bool false), ("result", result)].lookup "result" =
            some result := rfl
        simp only [ofEntries?, member?_textEntries]
        rw [hresult, Option.filter_some, hnull]
        rfl
  | raised message =>
    cases message with
    | none =>
      refine ⟨textEntries [("isException", .bool true), ("exception", .null)], rfl, ?_⟩
      rw [ofEntries?, member?_textEntries, member?_textEntries, member?_textEntries]
      rfl
    | some s =>
      refine ⟨textEntries [("isException", .bool true), ("exception", .text s)], rfl, ?_⟩
      rw [ofEntries?, member?_textEntries, member?_textEntries, member?_textEntries]
      rfl
  | @switch subject h hgiven =>
    refine ⟨textEntries [("switch", subject)], ?_, ?_⟩
    · rw [toValue, members_eq, List.filter_cons_of_pos (by simp [hgiven]), List.filter_nil]
    · have hswitch : [("switch", subject)].lookup "switch" = some subject := rfl
      simp only [ofEntries?, member?_textEntries]
      rw [hswitch, Option.filter_some, hgiven]
      rfl

/-- **An envelope is read back from its text.** -/
theorem decode?_encode {e : Envelope} (h : Carried e) : decode? e.encode = some e := by
  obtain ⟨entries, hvalue, hentries⟩ := ofEntries?_toValue h
  have hread : Json.parse? e.encode = some e.toValue := read?_render (lossless_toValue h).settled 0
  rw [decode?, hread, hvalue]
  exact hentries

/-! ### The text on the pipe -/

/-- **The text on the pipe tells the envelope**: it is read back as it was, payload and all, and no
other envelope, of the same kind or of another, has that text. -/
theorem encode_tells_envelope {e : Envelope} (h : Carried e) :
    decode? e.encode = some e ∧
      ∀ other, Carried other → other.encode = e.encode → other = e := by
  have hdecode : decode? e.encode = some e := decode?_encode h
  refine ⟨hdecode, fun other hother hsame => ?_⟩
  have hboth : some other = some e := by
    rw [← decode?_encode hother, hsame, hdecode]
  exact Option.some.inj hboth

/-- A switch on a dictionary that looks like a condition, with the text of another envelope under a
key with a quote, a bar and control characters. -/
def switchOnEnvelope : Envelope :=
  .switch (.dict [(.text "if", .bool true),
    (.text "\"|\n\x00", .text (Envelope.raised (some "a | b")).encode)])

theorem carried_switchOnEnvelope : Carried switchOnEnvelope := by
  refine .switch (.dict ⟨by simp, by decide⟩ fun entry hentry => ?_) rfl
  simp only [List.mem_cons, List.not_mem_nil, or_false] at hentry
  rcases hentry with rfl | rfl
  · exact .bool true
  · exact .text _

theorem encode_tells_switchOnEnvelope :
    Carried switchOnEnvelope ∧ decode? switchOnEnvelope.encode = some switchOnEnvelope ∧
      ∀ other, Carried other → other.encode = switchOnEnvelope.encode →
        other = switchOnEnvelope :=
  ⟨carried_switchOnEnvelope, encode_tells_envelope carried_switchOnEnvelope⟩

end PipeScript.Proofs.Control.Envelopes
