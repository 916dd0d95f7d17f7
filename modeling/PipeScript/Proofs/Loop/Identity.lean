import PipeScript.Proofs.Control.IfChain
import PipeScript.Proofs.Loop.CommonTrace
import PipeScript.Proofs.Machine.Composition
import PipeScript.Proofs.Pipeline.Literals

/-! # Mapping the identity

`/map list=… /pass {{item}}` over the text of a container answers that very text
(`run_mapIdentity`).  The text goes through every layer and comes out as it went in: the command takes
it as a literal, the loop reads it as JSON and writes each item into a command (`entryCommand_pass`),
which is read again and hands the item on (`pass_agrees`), and the outputs are read as JSON and put
back in their places (`mapped_json`).  What could get in the way are bars, which cut pipelines, double
braces, which are placeholders, and items that are texts, which are no JSON on their own. -/

namespace PipeScript.Proofs.Loop.Identity

open PipeScript.Command PipeScript.Pipeline PipeScript.Text
open PipeScript.Proofs.Text.Strip PipeScript.Proofs.Text.Filling
open PipeScript.Proofs.Value.Entries PipeScript.Proofs.Json.RoundTrip
open PipeScript.Proofs.Json.Spelling PipeScript.Proofs.Json.Reading
open PipeScript.Proofs.Pipeline.Bars PipeScript.Proofs.Pipeline.Rendering
open PipeScript.Proofs.Pipeline.Literals
open PipeScript.Proofs.Machine.Programs PipeScript.Proofs.Machine.Execution
open PipeScript.Proofs.Control.IfChain PipeScript.Proofs.Loop.CommonTrace

/-! ### Inert texts -/

/-- A text that means nothing to the command language: no bar and no double brace. -/
structure Inert (s : String) : Prop where
  barless : Barless s.toList
  unbraced : Unbraced s.toList

instance (s : String) : Decidable (Inert s) :=
  decidable_of_iff (Barless s.toList ∧ Unbraced s.toList) ⟨fun h => ⟨h.1, h.2⟩, fun h => ⟨h.1, h.2⟩⟩

section Inert

variable {v : Value} (h : Worded Inert v)
include h

theorem inert_json : Inert v.json := by
  rw [Value.json, Json.render]
  refine ⟨?_, ?_⟩
  · rw [String.toList_ofList]
    exact compositional_barless.valueChars (h.mono fun _ hs => hs.barless) 0
  · rw [String.toList_ofList]
    exact (compositional_unbraced.valueChars (h.mono fun _ hs => hs.unbraced) 0).1

theorem edged_json : Edged v.json.toList := by
  rw [Value.json, Json.render, String.toList_ofList]
  exact compositional_edged.valueChars (h.mono fun _ _ => trivial) 0

end Inert

/-! ### Items -/

/-- A value that is no text. -/
def Textless (v : Value) : Prop := ∀ s, v ≠ .text s

section Items

variable {ok : String → Prop} {v : Value} (h : Worded ok v) (htextless : Textless v)
include h htextless

/-- In a command such a value is written as JSON. -/
theorem placeholderText_eq_json : v.placeholderText = v.json := by
  cases h with
  | null => rfl
  | bool b => cases b <;> rfl
  | int hi => rfl
  | text hs => exact (htextless _ rfl).elim
  | list => rfl
  | dict => rfl

omit h htextless in
theorem isKeyStart_of_number {c : Char} (h : c = '-' ∨ isAsciiDigit c = true) :
    isKeyStart c = false := by
  rcases h with rfl | h
  · decide
  · simp only [isAsciiDigit, Bool.and_eq_true, decide_eq_true_eq, Char.le_def,
      UInt32.le_iff_toNat_le] at h
    have hbelow : c.val.toNat ≤ 57 := h.2
    simp only [isKeyStart, isAsciiLetter, Bool.or_eq_false_iff, Bool.and_eq_false_iff,
      decide_eq_false_iff_not, beq_eq_false_iff_ne, Char.le_def, UInt32.le_iff_toNat_le]
    refine ⟨⟨.inl fun hle => ?_, .inl fun hle => ?_⟩, ?_⟩
    · exact absurd (Nat.le_trans hle hbelow) (by decide)
    · exact absurd (Nat.le_trans hle hbelow) (by decide)
    · rintro rfl
      exact absurd hbelow (by decide)

/-- Its JSON text does not look like an argument. -/
theorem keyless_json : ¬ StartsWithKey v.json.toList := by
  rw [← readKey?_eq_none_iff]
  have hopen : ∀ {c : Char} {cs : List Char}, isKeyStart c = false → readKey? (c :: cs) = none :=
    fun hc => by rw [readKey?, if_neg (by simp [hc])]
  have hbracketed : ∀ w : Value, w.isContainer = true → readKey? w.json.toList = none := by
    intro w hw
    obtain ⟨opening, cs, closing, hbracket, -, hform⟩ := exists_bracketed hw 0
    rw [Value.json, Json.render, String.toList_ofList, hform]
    refine hopen ?_
    cases hbracket <;> decide
  cases hlossless : h.lossless with
  | null => decide
  | bool b => cases b <;> decide
  | @int i hi =>
    obtain ⟨c, tail, hform, hstart⟩ := (reread_int hi).exists_cons
    have hjson : (Value.int i).json.toList = c :: tail := by
      rw [← hform]
      exact String.toList_ofList
    rw [hjson]
    exact hopen (isKeyStart_of_number hstart)
  | text s => exact (htextless s rfl).elim
  | list | dict => exact hbracketed _ rfl

end Items

/-! ### The command of the loop -/

/-- The command that hands the item on. -/
def passItem : String := "/pass \x7b\x7bitem\x7d\x7d"

theorem escapeBars_of_barless {cs : List Char} (h : Barless cs) : escapeBars cs = cs := by
  induction cs with
  | nil => rfl
  | cons c cs ih =>
    rw [escapeBars_cons (h c List.mem_cons_self), ih fun d hd => h d (List.mem_cons_of_mem _ hd)]

/-- A pipeline without bars is one segment. -/
theorem calls_of_barless {cs : List Char} (h : Barless cs) (hne : stripChars cs ≠ []) :
    calls (String.ofList cs) = [String.ofList cs].mapM call := by
  have hjoined : joined [cs] = cs := by
    rw [joined_cons, joinedTail, List.append_nil, escapeBars_of_barless h]
  have hcalls : calls (String.ofList (joined [cs])) = [String.ofList cs].mapM call :=
    calls_joined (by simpa using hne)
  rwa [hjoined] at hcalls

/-- Filled in, an inert item stands behind the name of the command. -/
theorem entryCommand_pass (key : Scalar) {text : String} (h : Unbraced text.toList) :
    entryCommand passItem key text = "/pass " ++ text := by
  have hitem : Template.fill passItem "item" text = "/pass " ++ text := by
    have hfilled : Template.fillFrom (Template.placeholder "item") text.toList 0 passItem.toList =
        ['/', 'p', 'a', 's', 's', ' '] ++ (text.toList ++ []) := rfl
    rw [Template.fill, hfilled, List.append_nil, String.ofList_append, String.ofList_toList]
  have hindex : Unbraced ("/pass " ++ text).toList := by
    rw [String.toList_append]
    exact unbraced_append (unbraced_of_notMem (by decide)) h (.inl (by decide))
  change Template.fill (Template.fill passItem "item" text) "index" key.asText = _
  rw [hitem, fill_of_free (freeOf_of_unbraced hindex "index")]

/-- A value of its own without placeholders reaches the command as it is. -/
theorem value_invocation {call : Call} {pipe : String} (hgiven : call.hasValue = true)
    (hfree : Template.fill call.value "pipe" pipe = call.value) :
    (call.invocation pipe).value = call.value := by
  unfold Call.invocation
  rw [if_pos hgiven, hfree, ite_self]

section Pass

variable {v : Value} (h : Worded Inert v) (htextless : Textless v)
include h

/-- The call of the command with an item. -/
def passCall (v : Value) : Call := ⟨"pass", [], v.json, "/pass " ++ v.json⟩

theorem json_ne : v.json ≠ "" := by
  intro hempty
  obtain ⟨c, tail, hform, -⟩ := valueChars_cons h.lossless.settled 0 0
  have hjson : v.json.toList = c :: tail := by
    rw [← hform]
    exact String.toList_ofList
  rw [hempty] at hjson
  cases hjson

theorem render_pass : render (passCall v) = "/pass " ++ v.json := by
  have hvalue : valueChars v.json = ' ' :: v.json.toList := if_neg (json_ne h)
  have hchars : renderChars (passCall v) = "/pass ".toList ++ v.json.toList := by
    change '/' :: ("pass".toList ++ ([] ++ valueChars v.json)) = _
    rw [hvalue]
    rfl
  rw [render, hchars, String.ofList_append, String.ofList_toList, String.ofList_toList]

include htextless

theorem renderable_pass : Renderable (passCall v) where
  name_ne := (by decide : "pass" ≠ "")
  name_solid := name_solid_of_all (by decide : "pass".toList.all _ = true)
  keys_nodup := List.nodup_nil
  keys := fun _ h => nomatch h
  texts := fun _ h => nomatch h
  value_stripped := by
    change strip v.json = v.json
    rw [strip, stripChars_of_solid (edged_json h).solid, String.ofList_toList]
  value_keyless := by
    change ¬ StartsWithKey (v.json.toList.dropWhile isGap)
    rw [dropWhile_of_head fun c hc => isGap_of_isEdge ((edged_json h).head c hc)]
    exact keyless_json h htextless

/-- The filled in command is read as that call. -/
theorem calls_pass : calls ("/pass " ++ v.json) = .ok [passCall v] := by
  have hrenderable := renderable_pass h htextless
  have hsegment : calls ("/pass " ++ v.json) = ["/pass " ++ v.json].mapM call := by
    have hbarless : Barless ("/pass " ++ v.json).toList := by
      rw [String.toList_append]
      exact compositional_barless.append (by decide) (inert_json h).barless
    have hne : stripChars ("/pass " ++ v.json).toList ≠ [] := by
      rw [← render_pass h, render, String.toList_ofList,
        stripChars_of_solid (solid_renderChars hrenderable)]
      exact List.cons_ne_nil _ _
    have hcalls := calls_of_barless hbarless hne
    rwa [String.ofList_toList] at hcalls
  have hcall := call_render hrenderable
  rw [render_pass h] at hcall
  rw [hsegment, List.mapM_cons, hcall]
  rfl

/-- **The command hands the item on** and changes nothing but the trace. -/
theorem pass_agrees {m : Machine} (hpass : Holds m.registry .pass) (hdepth : m.depth < m.maxDepth) :
    Agrees (runNested ("/pass " ++ v.json) m) ((pure v.json : Action String) m) := by
  have hvalue : ((passCall v).invocation "").value = v.json := by
    have hfree := fill_of_free (freeOf_of_unbraced (inert_json h).unbraced "pipe") ""
    have hgiven : (passCall v).hasValue = true := decide_eq_true (json_ne h)
    exact value_invocation hgiven hfree
  have hdispatch : Agrees (dispatch runNested (passCall v) "" { m with depth := m.depth + 1 })
      ((pure v.json : Action String) { m with depth := m.depth + 1 }) := by
    have hname : (passCall v).name = Builtin.pass.describe.name := rfl
    refine call_agrees (n := { m with depth := m.depth + 1 }) hpass hname (.refl _)
      (fun m' hm' => ⟨?_, hm'⟩) (.ok _ _)
    exact congrArg Except.ok hvalue
  rw [runNested, finalPipe_eq hdepth (calls_pass h htextless), outputOf_singleton]
  exact hdispatch.deeper (y := pure v.json)

end Pass

/-! ### The loop -/

/-- The JSON texts of the items. -/
def itemTexts (entries : Entries Value) : List String :=
  entries.map fun entry => entry.2.json

theorem parse?_json {v : Value} (h : Lossless v) : Json.parse? v.json = some v :=
  read?_render h.settled 0

theorem decodedText_json {v : Value} (h : Lossless v) : decodedText v.json = v := by
  rw [decodedText, parse?_json h, Option.getD_some]

/-- **Every entry answers its own text**, and nothing changes but the trace. -/
theorem runEntries_pass {entries : Entries Value}
    (hitems : ∀ entry ∈ entries, Worded Inert entry.2 ∧ Textless entry.2) {m n : Machine}
    (hpass : Holds n.registry .pass) (hdepth : n.depth < n.maxDepth) (hmn : SameButTrace m n) :
    Agrees (runEntries runNested passItem (Entries.mapItems Shared.plain entries) m)
      ((pure (itemTexts entries) : Action (List String)) n) := by
  induction entries generalizing m with
  | nil => exact ⟨rfl, hmn⟩
  | cons entry entries ih =>
    obtain ⟨key, item⟩ := entry
    obtain ⟨hworded, htextless⟩ := hitems _ List.mem_cons_self
    have hfirst : Agrees (runEntry runNested passItem (key, .plain item) m)
        ((pure item.json : Action String) n) := by
      have hshort : item.hasLongInteger = false :=
        hasLongInteger_of_parse? (parse?_json hworded.lossless)
      rw [runEntry_plain runNested passItem key hshort, placeholderText_eq_json hworded htextless,
        entryCommand_pass key (inert_json hworded).unbraced]
      have hrun := pass_agrees hworded htextless (m := m) (by rw [hmn.registry]; exact hpass)
        (by rw [hmn.depth, hmn.maxDepth]; exact hdepth)
      exact ⟨hrun.1, hrun.2.trans hmn⟩
    rw [runEntries_cons]
    refine hfirst.bind_pure_left fun before hbefore => ?_
    have hrest := ih (fun e he => hitems e (List.mem_cons_of_mem _ he)) hbefore
    exact hrest.bind_pure_left fun after hafter => ⟨rfl, hafter⟩

/-- **The texts of the items make up the container again.** -/
theorem mapped_json {v : Value} {c : Collection Value} (hc : v.collection? = some c)
    (hitems : ∀ entry ∈ c.entries, Lossless entry.2) : mapped c (itemTexts c.entries) = v := by
  have hdecoded : (itemTexts c.entries).map decodedText = c.entries.map (·.2) := by
    unfold itemTexts
    rw [List.map_map]
    exact List.map_congr_left fun entry hentry => decodedText_json (hitems entry hentry)
  have hzip : (c.entries.map (·.1)).zip (c.entries.map (·.2)) = c.entries := by
    rw [List.zip_map']
    exact List.map_id _
  unfold mapped
  rw [hdecoded, hzip]
  cases v with
  | scalar s => cases hc
  | list items =>
    cases hc
    unfold refill Collection.entries
    rw [List.map_map]
    exact congrArg Value.list (List.zipIdx_map_fst 0 items)
  | dict entries =>
    cases hc
    rfl

/-! ### The whole command -/

/-- The command that maps the identity over the text of a container. -/
def mapIdentity (v : Value) : String :=
  "/map list=" ++ v.json ++ " /pass \x7b\x7bitem\x7d\x7d"

/-- What is read from it. -/
def mapCall (v : Value) : Call := ⟨"map", [("list", v.json)], passItem, mapIdentity v⟩

section Map

variable {v : Value} {c : Collection Value} (h : Worded Inert v) (hc : v.collection? = some c)
include h hc

theorem worded_entries : ∀ entry ∈ c.entries, Worded Inert entry.2 := by
  intro entry hentry
  cases h with
  | null | bool | int | text => cases hc
  | list hitems =>
    cases hc
    obtain ⟨⟨item, i⟩, hitem, rfl⟩ := List.mem_map.mp hentry
    exact hitems item (List.fst_mem_of_mem_zipIdx hitem)
  | dict _ _ hitems =>
    cases hc
    exact hitems entry hentry

omit h in
theorem isContainer_of_collection? : v.isContainer = true := by
  cases v with
  | scalar => cases hc
  | list | dict => rfl

/-- What follows the name of the command. -/
def afterMap (v : Value) : List Char :=
  ' ' :: ("list".toList ++ '=' :: (v.json.toList ++ ' ' :: passItem.toList))

omit h hc in
theorem toList_mapIdentity : (mapIdentity v).toList = '/' :: ("map".toList ++ afterMap v) := by
  rw [mapIdentity, String.toList_append, String.toList_append, List.append_assoc]
  rfl

omit hc in
theorem barless_mapIdentity : Barless (mapIdentity v).toList := by
  rw [mapIdentity, String.toList_append, String.toList_append]
  refine compositional_barless.append (compositional_barless.append ?_ (inert_json h).barless) ?_
  · decide
  · decide

omit h hc in
theorem solid_mapIdentity : Solid (mapIdentity v).toList := by
  refine ⟨fun x hx => ?_, fun x hx => ?_⟩
  · rw [toList_mapIdentity] at hx
    obtain rfl : '/' = x := by simpa using hx
    decide
  · have hlast : (mapIdentity v).toList.getLast? = some '\x7d' := by
      rw [mapIdentity, String.toList_append, List.getLast?_append]
      rfl
    rw [hlast] at hx
    obtain rfl : '\x7d' = x := by simpa using hx
    decide

omit h in
/-- The text of the container is the only argument. -/
theorem readArguments_list (fuel : ℕ) : readArguments (fuel + 1) (afterMap v) =
    ([("list", v.json)], ' ' :: passItem.toList) := by
  have hkey : IsKey "list".toList :=
    ⟨'l', ['i', 's', 't'], rfl, by decide, List.all_eq_true.mp (by decide)⟩
  have hrest : readArguments fuel (' ' :: passItem.toList) = ([], ' ' :: passItem.toList) := by
    have hnone : readArgument? (' ' :: passItem.toList) = none := by decide
    cases fuel with
    | zero => rfl
    | succ fuel => rw [readArguments, hnone]
  rw [readArguments, afterMap, readArgument?_json (isContainer_of_collection? hc) hkey]
  dsimp only
  rw [hrest]
  rfl

omit h in
theorem call_mapIdentity : call (mapIdentity v) = .ok (mapCall v) := by
  have hname : ∀ x ∈ "map".toList, isGap x = false := fun x hx =>
    (name_solid_of_all (by decide : "map".toList.all _ = true) x hx).2
  have hbehind : ∀ x ∈ (afterMap v).head?, isGap x = true := by
    intro x hx
    obtain rfl : ' ' = x := by simpa [afterMap] using hx
    decide
  obtain ⟨htake, hdrop⟩ := takeWhile_name hname hbehind
  have hraw : String.ofList ('/' :: ("map".toList ++ afterMap v)) = mapIdentity v := by
    rw [← toList_mapIdentity, String.ofList_toList]
  have hvalue : stripChars (' ' :: passItem.toList) = passItem.toList := by decide
  have hopener : unclosedOpener? passItem.toList = none := by decide
  rw [call, stripChars_of_solid solid_mapIdentity, toList_mapIdentity]
  simp only [readCall, htake, hdrop, readArguments_list hc, hvalue, hopener, hraw]
  rfl

/-- The command is read with the text of the container as its argument. -/
theorem calls_mapIdentity : calls (mapIdentity v) = .ok [mapCall v] := by
  have hne : stripChars (mapIdentity v).toList ≠ [] := by
    rw [stripChars_of_solid solid_mapIdentity, toList_mapIdentity]
    exact List.cons_ne_nil _ _
  have hcalls := calls_of_barless (barless_mapIdentity h) hne
  rw [String.ofList_toList] at hcalls
  rw [hcalls, List.mapM_cons, call_mapIdentity hc]
  rfl

omit h hc in
/-- It reaches its command with its argument and its own command as they are. -/
theorem invocation_mapCall (hfree : Template.fill v.json "pipe" "" = v.json) :
    (mapCall v).invocation "" = ⟨[("list", v.json)], passItem, ""⟩ := by
  have hvalue : ((mapCall v).invocation "").value = passItem :=
    value_invocation (by decide : decide (passItem ≠ "") = true)
      (by decide : Template.fill passItem "pipe" "" = passItem)
  have harguments : ((mapCall v).invocation "").arguments = [("list", v.json)] := by
    exact congrArg (fun text => [("list", text)]) hfree
  rw [← hvalue, ← harguments]
  rfl

/-- **The loop answers the text of its container** and changes nothing but the trace. -/
theorem mapItems_pass (htextless : ∀ entry ∈ c.entries, Textless entry.2) {m n : Machine}
    (hpass : Holds n.registry .pass) (hdepth : n.depth < n.maxDepth) (hmn : SameButTrace m n) :
    Agrees (mapItems runNested ⟨[("list", v.json)], passItem, ""⟩ m)
      ((pure v.json : Action String) n) := by
  have hread : Json.parse? v.json = some v := parse?_json h.lossless
  have hitems := worded_entries h hc
  obtain ⟨hanswer, hafter⟩ := runEntries_pass
    (fun entry hentry => ⟨hitems entry hentry, htextless entry hentry⟩) hpass hdepth hmn
  rcases hruns : runEntries runNested passItem (Entries.mapItems Shared.plain c.entries) m with
    ⟨result, after⟩
  rw [hruns] at hanswer hafter
  obtain rfl : result = .ok (itemTexts c.entries) := hanswer
  have hmap : mapItems runNested ⟨[("list", v.json)], passItem, ""⟩ m =
      (outcome none (mapped c (itemTexts c.entries)).json, after) :=
    mapItems_runs (iterated_literal m.store hread hc none none) hc hruns
      (keyed_of_parse? hread hc) (fun _ => List.length_map _)
  rw [hmap, mapped_json hc fun entry hentry => (hitems entry hentry).lossless]
  exact ⟨rfl, hafter⟩

end Map

/-- **Mapping the identity is the identity.**  Over the text of a list or a dictionary whose items are
no texts, and in whose texts and keys there are no bars and no double braces, the command answers that
very text, says nothing and leaves the store as it was. -/
theorem run_mapIdentity {v : Value} {c : Collection Value} {m : Machine} (h : Worded Inert v)
    (hc : v.collection? = some c) (htextless : ∀ entry ∈ c.entries, Textless entry.2)
    (hmap : Holds m.registry .mapItems) (hpass : Holds m.registry .pass) (hdepth : 2 ≤ m.maxDepth) :
    (m.run (mapIdentity v)).1 = ⟨.ok v.json, []⟩ ∧
      (m.run (mapIdentity v)).2.store = m.store := by
  have hdispatch : Agrees (dispatch runNested (mapCall v) "" { m.fresh with depth := 1 })
      ((pure v.json : Action String) { m.fresh with depth := 1 }) := by
    refine call_agrees (b := .mapItems) (n := { m.fresh with depth := 1 }) hmap rfl (.refl _)
      (fun m' hm' => ?_) (.ok _ _)
    have hfree := fill_of_free (freeOf_of_unbraced (inert_json h).unbraced "pipe") ""
    rw [invocation_mapCall hfree]
    exact mapItems_pass h hc htextless hpass hdepth hm'
  have hrun : Agrees (finalPipe (mapIdentity v) "" m.fresh)
      ((pure v.json : Action String) m.fresh) := by
    have hbelow : m.fresh.depth < m.fresh.maxDepth := Nat.lt_of_lt_of_le Nat.zero_lt_two hdepth
    rw [finalPipe_eq hbelow (calls_mapIdentity h hc), outputOf_singleton]
    exact Agrees.deeper (y := pure v.json) hdispatch
  unfold finalPipe at hrun
  rw [bind_apply] at hrun
  unfold Machine.run
  rcases hresult : execute (mapIdentity v) "" m.fresh with ⟨fault | output, after⟩
  · rw [hresult] at hrun
    cases hrun.1
  · rw [hresult] at hrun
    have heffects : after.effects = [] := hrun.2.effects
    have hpipe : output.pipe = v.json := Except.ok.inj hrun.1
    dsimp only
    rw [hpipe, heffects]
    exact ⟨rfl, hrun.2.store⟩

/-- Entries with brackets, quotes and backslashes in their texts. -/
def rows : Value :=
  .dict [(.text "a\"]", .list [.int (-70), .text "\\ \x7b[\n", .null]), (.text "", .bool true)]

theorem worded_rows : Worded Inert rows := by
  have hkeys : TextKeys [(Scalar.text "a\"]",
      Value.list [.int (-70), .text "\\ \x7b[\n", .null]), (.text "", .bool true)] :=
    ⟨by simp, by decide⟩
  have hitems : ∀ item ∈ [Value.int (-70), .text "\\ \x7b[\n", .null], Worded Inert item := by
    simp only [List.mem_cons, List.not_mem_nil, or_false]
    rintro item (rfl | rfl | rfl)
    · exact .int (by decide +kernel)
    · exact .text (by decide)
    · exact .null
  refine .dict hkeys (fun entry hentry => ?_) fun entry hentry => ?_
  all_goals
    simp only [List.mem_cons, List.not_mem_nil, or_false] at hentry
    rcases hentry with rfl | rfl
  · exact (by decide : Inert "a\"]")
  · exact (by decide : Inert "")
  · exact .list hitems
  · exact .bool true

theorem run_mapIdentity_rows :
    Worded Inert rows ∧ Holds (Machine.start .empty .empty 2).registry .mapItems ∧
      Holds (Machine.start .empty .empty 2).registry .pass ∧
      ((Machine.start .empty .empty 2).run (mapIdentity rows)).1 = ⟨.ok rows.json, []⟩ ∧
      ((Machine.start .empty .empty 2).run (mapIdentity rows)).2.store = .empty := by
  have hmap : Holds (Machine.start .empty .empty 2).registry .mapItems := by decide +kernel
  have hpass : Holds (Machine.start .empty .empty 2).registry .pass := by decide +kernel
  have htextless : ∀ entry ∈ (Collection.mapping [(Scalar.text "a\"]",
      Value.list [.int (-70), .text "\\ \x7b[\n", .null]), (.text "", .bool true)]).entries,
      Textless entry.2 := by
    intro entry hentry s
    simp only [Collection.entries, List.mem_cons, List.not_mem_nil, or_false] at hentry
    rcases hentry with rfl | rfl
    · exact nofun
    · exact nofun
  exact ⟨worded_rows, hmap, hpass,
    run_mapIdentity worded_rows rfl htextless hmap hpass (Nat.le_refl 2)⟩

end PipeScript.Proofs.Loop.Identity
