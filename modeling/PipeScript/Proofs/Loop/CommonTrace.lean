import PipeScript.Proofs.Json.Reading
import PipeScript.Proofs.Machine.Execution

/-! # The common trace of the loops

`/foreach`, `/map` and `/filter` run the same commands in the same order, from the first entry on
up to the first command that fails (`Runs`), and differ only in what they make of the outputs
(`loops_run_alike`).  The entries are those of a collection that was read from a text: they stay
what they were, whatever the commands do to the variable that held the text. -/

namespace PipeScript.Proofs.Loop.CommonTrace

open PipeScript.Command
open PipeScript.Proofs.Value.Entries PipeScript.Proofs.Json.Reading
open PipeScript.Proofs.Machine.Programs PipeScript.Proofs.Machine.Execution

/-! ### Runs of commands -/

/-- Commands run in order up to the first that fails: their outputs, the fault if there is one, and
the machine that they leave. -/
inductive Runs (nested : Nested) :
    List String → Machine → List String → Option Fault → Machine → Prop where
  | done (m : Machine) : Runs nested [] m [] none m
  | step {command output : String} {rest outputs : List String} {fault : Option Fault}
      {m between after : Machine} (hcommand : nested command m = (.ok output, between))
      (hrest : Runs nested rest between outputs fault after) :
      Runs nested (command :: rest) m (output :: outputs) fault after
  | fail {command : String} {rest : List String} {fault : Fault} {m after : Machine}
      (hcommand : nested command m = (.error fault, after)) :
      Runs nested (command :: rest) m [] (some fault) after

/-- What a loop answers: the fault of its commands, or what it makes of their outputs. -/
def outcome (fault : Option Fault) (result : String) : Except Fault String :=
  match fault with
  | some fault => .error fault
  | none => .ok result

/-- The commands of a loop. -/
def bodies (template : String) (entries : Entries Value) : List String :=
  entries.map fun (key, item) => entryCommand template key item.placeholderText

/-! ### Containers of the same kind -/

/-- A container of the same kind: a list of the items, or a dictionary with exactly these
entries. -/
def refill (c : Collection Value) (entries : Entries Value) : Value :=
  match c with
  | .sequence _ => .list (entries.map (·.2))
  | .mapping _ => .dict entries

/-- The keys with the outputs, decoded where they are JSON. -/
def mapped (c : Collection Value) (outputs : List String) : Value :=
  refill c ((c.entries.map (·.1)).zip (outputs.map decodedText))

/-- The entries whose output says yes. -/
def kept (c : Collection Value) (outputs : List String) : Value :=
  refill c (((c.entries.zip outputs).filter fun (_, output) => saysYes output).map (·.1))

/-- A collection that no other place can reach. -/
def plain : Collection Value → Collection Shared
  | .sequence items => .sequence (items.map .plain)
  | .mapping entries => .mapping (entries.mapItems .plain)

theorem collection?_plain (v : Value) :
    (Shared.plain v).collection? = v.collection?.map plain := by
  cases v <;> rfl

theorem entries_plain (c : Collection Value) :
    (plain c).entries = Entries.mapItems Shared.plain c.entries := by
  cases c with
  | sequence items =>
    change (items.map Shared.plain).zipIdx.map (fun p => (Collection.position p.2, p.1)) =
      (items.zipIdx.map fun p => (Collection.position p.2, p.1)).map fun p =>
        (p.1, Shared.plain p.2)
    rw [List.zipIdx_map, List.map_map, List.map_map]
    rfl
  | mapping entries => rfl

theorem rebuild_plain (c : Collection Value) (pairs : List (Scalar × Value)) :
    (plain c).rebuild pairs = c.rebuild pairs := by
  cases c <;> rfl

/-- The keys of a collection can be kept: it is a list, or its keys are distinct texts. -/
def Keyed (c : Collection Value) : Prop :=
  ∀ entries, c = .mapping entries → TextKeys entries

theorem keyed_of_parse? {s : String} {v : Value} {c : Collection Value}
    (hs : Json.parse? s = some v) (hc : v.collection? = some c) : Keyed c := by
  rintro entries rfl
  rcases v with scalar | items | others
  · cases hc
  · cases hc
  · cases hc
    exact textKeys_of_parse? hs

section Refill

variable {c : Collection Value} {entries : Entries Value}

/-- Rebuilding keeps the entries, when a dictionary gets distinct texts for keys. -/
theorem rebuild_eq_refill (h : ∀ others, c = .mapping others → TextKeys entries) :
    c.rebuild entries = refill c entries := by
  cases c with
  | sequence items => rfl
  | mapping others =>
    have hkeys := h others rfl
    have hsame : entries.map (fun (key, item) => (Scalar.text key.keyText, item)) = entries := by
      conv_rhs => rw [← List.map_id entries]
      refine List.map_congr_left fun entry hentry => ?_
      obtain ⟨s, hs⟩ := hkeys.texts entry hentry
      obtain ⟨key, item⟩ := entry
      obtain rfl : key = .text s := hs
      rfl
    unfold Collection.rebuild refill
    dsimp only
    rw [hsame, ofPairs_of_textKeys hkeys]

theorem hasLongInteger_refill (h : ∀ others, c = .mapping others → TextKeys entries)
    (hitems : ∀ entry ∈ entries, entry.2.hasLongInteger = false) :
    (refill c entries).hasLongInteger = false := by
  cases c with
  | sequence items =>
    refine anyLongInteger_eq_false_iff.mpr fun item hitem => ?_
    obtain ⟨entry, hentry, rfl⟩ := List.mem_map.mp hitem
    exact hitems entry hentry
  | mapping others =>
    refine anyLongEntry_eq_false_iff.mpr fun entry hentry => ?_
    obtain ⟨s, hs⟩ := (h others rfl).texts entry hentry
    rw [hs]
    exact ⟨rfl, hitems entry hentry⟩

/-- A container that is rebuilt from such entries is written as it is. -/
theorem write_rebuild (h : ∀ others, c = .mapping others → TextKeys entries)
    (hitems : ∀ entry ∈ entries, entry.2.hasLongInteger = false) :
    Action.write Value.json ((plain c).rebuild entries) = pure (refill c entries).json := by
  rw [rebuild_plain, rebuild_eq_refill h]
  unfold Action.write
  rw [hasLongInteger_refill h hitems]
  rfl

end Refill

theorem textKeys_entries {c : Collection Value} (h : Keyed c) {others : Entries Value}
    (hc : c = .mapping others) : TextKeys c.entries := by
  subst hc
  exact h others rfl

theorem textKeys_of_sublist {entries others : Entries Value} (h : TextKeys entries)
    (hsub : others.Sublist entries) : TextKeys others where
  texts entry hentry := h.texts entry (hsub.subset hentry)
  nodup := h.nodup.sublist (hsub.map _)

theorem textKeys_zip {entries : Entries Value} (h : TextKeys entries) {items : List Value}
    (hlength : items.length = entries.length) : TextKeys ((entries.map (·.1)).zip items) where
  texts pair hpair := by
    obtain ⟨entry, hentry, heq⟩ := List.mem_map.mp (List.of_mem_zip hpair).1
    rw [← heq]
    exact h.texts entry hentry
  nodup := by
    have hfst : ((entries.map (·.1)).zip items).map (·.1) = entries.map (·.1) :=
      List.map_fst_zip (by rw [List.length_map, hlength])
    rw [hfst]
    exact h.nodup

theorem hasLongInteger_entries {v : Value} {c : Collection Value} (hv : v.hasLongInteger = false)
    (hc : v.collection? = some c) : ∀ entry ∈ c.entries, entry.2.hasLongInteger = false := by
  intro entry hentry
  rcases v with scalar | items | entries
  · cases hc
  · cases hc
    obtain ⟨⟨item, i⟩, hitem, rfl⟩ := List.mem_map.mp hentry
    exact anyLongInteger_eq_false_iff.mp hv item (List.fst_mem_of_mem_zipIdx hitem)
  · cases hc
    exact (anyLongEntry_eq_false_iff.mp hv entry hentry).2

/-! ### Where the collection comes from -/

/-- The first source wins when it is true. -/
theorem firstTruthy_cons {item : Shared} (h : item.isTruthy = true) (rest : List (Option Shared)) :
    Store.firstTruthy (some item :: rest) = item := by
  unfold Store.firstTruthy
  have hnull : ¬ (Shared.plain .null).isTruthy = true := by decide
  rw [List.foldl_cons]
  dsimp only
  rw [if_neg hnull]
  induction rest with
  | nil => rfl
  | cons source rest ih =>
    rw [List.foldl_cons]
    cases source with
    | none => exact ih
    | some other =>
      dsimp only
      rw [if_pos h]
      exact ih

theorem isTruthy_of_collection? {v : Value} {c : Collection Value} (h : v.collection? = some c) :
    (Shared.plain v).isTruthy = true := by
  cases v with
  | scalar s => cases h
  | list items => rfl
  | dict entries => rfl

/-- A literal that is a collection is what the loop walks. -/
theorem iterated_literal (store : Store) {s : String} {v : Value} {c : Collection Value}
    (hs : Json.parse? s = some v) (hc : v.collection? = some c) (local? global? : Option String) :
    store.iterated (.text s) local? global? = .plain v := by
  have hgiven : (Value.text s).isGiven = true := by
    by_cases he : s = ""
    · rw [he] at hs
      cases hs
    · simpa [Value.isGiven] using he
  have hsource : (Store.literalSource (.text s)).map Shared.structured = some (.plain v) := by
    unfold Store.literalSource
    rw [if_pos hgiven, Option.map_some, Shared.structured, hs]
    rfl
  unfold Store.iterated
  rw [List.map_cons, hsource, firstTruthy_cons (isTruthy_of_collection? hc)]

/-! ### Running the entries -/

theorem current_plain (v : Value) (m : Machine) : Action.current (.plain v) m = (.ok v, m) := by
  have hadopt : ∀ revisions : List Shared, revisions.foldr Shared.adopt (.plain v) = .plain v := by
    intro revisions
    induction revisions with
    | nil => rfl
    | cons revision revisions ih =>
      rw [List.foldr_cons, ih]
      rfl
  unfold Action.current
  rw [bind_ok m (store_apply m)]
  unfold Store.current
  rw [hadopt]
  rfl

theorem runEntry_plain (nested : Nested) (template : String) (key : Scalar) {v : Value}
    (hv : v.hasLongInteger = false) (m : Machine) :
    runEntry nested template (key, .plain v) m =
      nested (entryCommand template key v.placeholderText) m := by
  unfold runEntry
  rw [bind_ok m (current_plain v m)]
  unfold Action.write
  rw [hv, if_neg (by simp), bind_ok m (pure_apply m _)]

theorem runEntries_cons (nested : Nested) (template : String) (key : Scalar) (item : Value)
    (entries : Entries Value) :
    runEntries nested template (Entries.mapItems Shared.plain ((key, item) :: entries)) =
      (do
        let output ← runEntry nested template (key, .plain item)
        let outputs ← runEntries nested template (Entries.mapItems Shared.plain entries)
        return output :: outputs) := by
  unfold runEntries Entries.mapItems
  rw [List.map_cons, List.mapM_cons]

/-- **The entries run one after the other**, each from where the one before it left the machine. -/
theorem runEntries_runs (nested : Nested) (template : String) {entries : Entries Value}
    (hitems : ∀ entry ∈ entries, entry.2.hasLongInteger = false) (m : Machine) :
    ∃ outputs fault after, Runs nested (bodies template entries) m outputs fault after ∧
      (fault = none → outputs.length = entries.length) ∧
      runEntries nested template (Entries.mapItems Shared.plain entries) m =
        (match fault with | some fault => .error fault | none => .ok outputs, after) := by
  induction entries generalizing m with
  | nil => exact ⟨[], none, m, .done m, fun _ => rfl, rfl⟩
  | cons entry entries ih =>
    obtain ⟨key, item⟩ := entry
    have hfirst := runEntry_plain nested template key (hitems _ (List.mem_cons_self ..)) m
    rw [runEntries_cons]
    rcases hrun : nested (entryCommand template key item.placeholderText) m with
      ⟨fault | output, between⟩
    · refine ⟨[], some fault, between, .fail hrun, by simp, ?_⟩
      rw [bind_error m (hfirst.trans hrun)]
    · obtain ⟨outputs, fault, after, hruns, hlength, hrest⟩ :=
        ih (fun e he => hitems e (List.mem_cons_of_mem _ he)) between
      refine ⟨output :: outputs, fault, after, .step hrun hruns, ?_, ?_⟩
      · intro hfault
        rw [List.length_cons, List.length_cons, hlength hfault]
      · rw [bind_ok m (hfirst.trans hrun)]
        cases fault with
        | none => rw [bind_ok between hrest]; rfl
        | some fault => rw [bind_error between hrest]

theorem filter_zip_plain (yes : String → Bool) (entries : Entries Value) (outputs : List String) :
    ((Entries.mapItems Shared.plain entries).zip outputs).filter (fun (_, output) => yes output) =
      ((entries.zip outputs).filter fun (_, output) => yes output).map fun entry =>
        ((entry.1.1, Shared.plain entry.1.2), entry.2) := by
  unfold Entries.mapItems
  rw [List.zip_map_left, List.filter_map]
  rfl

/-- The kept entries are taken from the store as they were read. -/
theorem mapM_current (entries : List ((Scalar × Value) × String)) (m : Machine) :
    (entries.map fun entry => ((entry.1.1, Shared.plain entry.1.2), entry.2)).mapM
        (fun ((key, item), _) => do
          let item ← Action.current item
          return (key, item) : (Scalar × Shared) × String → Action (Scalar × Value)) m =
      (.ok (entries.map (·.1)), m) := by
  induction entries with
  | nil => rfl
  | cons entry entries ih =>
    obtain ⟨⟨key, item⟩, output⟩ := entry
    rw [List.map_cons, List.mapM_cons]
    have hfirst : (do
        let item ← Action.current (.plain item)
        return (key, item) : Action (Scalar × Value)) m = (.ok (key, item), m) := by
      rw [bind_ok m (current_plain item m)]
      rfl
    rw [bind_ok m hfirst, bind_ok m ih]
    rfl

/-! ### The three loops -/

section Loops

variable {nested : Nested} {inv : Invocation} {m after : Machine} {v : Value}
  {c : Collection Value} {outputs : List String} {fault : Option Fault}
  (hdata : m.store.iterated (inv.argumentValue "list") (inv.argument? "var")
    (inv.argument? "globalvar") = .plain v) (hc : v.collection? = some c)
  (hruns : runEntries nested inv.value (Entries.mapItems Shared.plain c.entries) m =
    (match fault with | some fault => .error fault | none => .ok outputs, after))
include hdata hc hruns

omit hruns in
theorem collection_plain (name : String) : collection name inv m = (.ok (plain c), m) := by
  unfold collection
  rw [bind_ok m (store_apply m), hdata, collection?_plain, hc]
  rfl

theorem forEach_runs :
    forEach nested inv m = (outcome fault (outputs.getLast?.getD ""), after) := by
  unfold forEach
  rw [bind_ok m (collection_plain hdata hc _), entries_plain]
  cases fault with
  | some fault => exact bind_error m hruns _
  | none =>
    rw [bind_ok m hruns]
    rfl

theorem mapItems_runs (hkeyed : Keyed c)
    (hlength : fault = none → outputs.length = c.entries.length) :
    mapItems nested inv m = (outcome fault (mapped c outputs).json, after) := by
  unfold mapItems
  rw [bind_ok m (collection_plain hdata hc _), entries_plain]
  cases fault with
  | some fault => exact bind_error m hruns _
  | none =>
    rw [bind_ok m hruns]
    have hfst : (Entries.mapItems Shared.plain c.entries).map (·.1) = c.entries.map (·.1) := by
      unfold Entries.mapItems
      rw [List.map_map]
      rfl
    rw [hfst, write_rebuild]
    · rfl
    · intro others hothers
      refine textKeys_zip (textKeys_entries hkeyed hothers) ?_
      rw [List.length_map, hlength rfl]
    · intro pair hpair
      obtain ⟨output, -, heq⟩ := List.mem_map.mp (List.of_mem_zip hpair).2
      rw [← heq]
      exact hasLongInteger_decodedText output

theorem filter_runs (hkeyed : Keyed c)
    (hitems : ∀ entry ∈ c.entries, entry.2.hasLongInteger = false)
    (hlength : fault = none → outputs.length = c.entries.length) :
    filter nested inv m = (outcome fault (kept c outputs).json, after) := by
  unfold filter
  rw [bind_ok m (collection_plain hdata hc _), entries_plain]
  cases fault with
  | some fault => exact bind_error m hruns _
  | none =>
    rw [bind_ok m hruns]
    have hsub : (((c.entries.zip outputs).filter fun (_, output) => saysYes output).map
        (·.1)).Sublist c.entries := by
      have hzip : (c.entries.zip outputs).map (·.1) = c.entries :=
        List.map_fst_zip (le_of_eq (hlength rfl).symm)
      have hmap := (List.filter_sublist (p := fun (_, output) => saysYes output)
        (l := c.entries.zip outputs)).map (·.1)
      rwa [hzip] at hmap
    rw [filter_zip_plain, bind_ok after (mapM_current _ after), write_rebuild]
    · rfl
    · exact fun others hothers => textKeys_of_sublist (textKeys_entries hkeyed hothers) hsub
    · exact fun entry hentry => hitems entry (hsub.subset hentry)

end Loops

/-- **The loops run alike**: over a collection that was read from a text, `/foreach`, `/map` and
`/filter` run the same commands, end in the same machine, and fail with the same fault; else they
answer the last output, the decoded outputs under the keys, and the entries whose output says
yes. -/
theorem loops_run_alike (nested : Nested) {inv : Invocation} {m : Machine} {s : String} {v : Value}
    {c : Collection Value} (hs : Json.parse? s = some v) (hc : v.collection? = some c)
    (hdata : m.store.iterated (inv.argumentValue "list") (inv.argument? "var")
      (inv.argument? "globalvar") = .plain v) :
    ∃ outputs fault after, Runs nested (bodies inv.value c.entries) m outputs fault after ∧
      (fault = none → outputs.length = c.entries.length) ∧
      forEach nested inv m = (outcome fault (outputs.getLast?.getD ""), after) ∧
      mapItems nested inv m = (outcome fault (mapped c outputs).json, after) ∧
      filter nested inv m = (outcome fault (kept c outputs).json, after) := by
  have hitems := hasLongInteger_entries (hasLongInteger_of_parse? hs) hc
  have hkeyed := keyed_of_parse? hs hc
  obtain ⟨outputs, fault, after, hruns, hlength, hrun⟩ :=
    runEntries_runs nested inv.value hitems m
  exact ⟨outputs, fault, after, hruns, hlength, forEach_runs hdata hc hrun,
    mapItems_runs hdata hc hrun hkeyed hlength, filter_runs hdata hc hrun hkeyed hitems hlength⟩

/-- A text of two entries. -/
def twoCommands : String := "\x7b\"a\":\"pass\",\"b\":\"no\"\x7d"

def twoEntries : Entries Value := [(.text "a", .text "pass"), (.text "b", .text "no")]

/-- A loop that fails at its second entry. -/
def failingLoop : Invocation :=
  ⟨[("list", twoCommands)],
    "/setvar key=\x7b\x7bindex\x7d\x7d x | /\x7b\x7bitem\x7d\x7d y", ""⟩

theorem parse?_twoCommands : Json.parse? twoCommands = some (.dict twoEntries) := by cbv

theorem loops_run_alike_failingLoop :
    Json.parse? twoCommands = some (.dict twoEntries) ∧
      (Value.dict twoEntries).collection? = some (.mapping twoEntries) ∧
      ∃ outputs fault after,
        Runs runNested (bodies failingLoop.value twoEntries) (.start .empty .empty 64) outputs
          fault after ∧
        (fault = none → outputs.length = 2) ∧
        forEach runNested failingLoop (.start .empty .empty 64) =
          (outcome fault (outputs.getLast?.getD ""), after) ∧
        mapItems runNested failingLoop (.start .empty .empty 64) =
          (outcome fault (mapped (.mapping twoEntries) outputs).json, after) ∧
        filter runNested failingLoop (.start .empty .empty 64) =
          (outcome fault (kept (.mapping twoEntries) outputs).json, after) :=
  ⟨parse?_twoCommands, rfl, loops_run_alike runNested parse?_twoCommands rfl
    (iterated_literal Store.empty parse?_twoCommands rfl none none)⟩

end PipeScript.Proofs.Loop.CommonTrace
