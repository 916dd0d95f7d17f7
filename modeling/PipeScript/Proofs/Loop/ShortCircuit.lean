import PipeScript.Proofs.Loop.CommonTrace

/-! # The search that stops

`/find` runs the commands of `/filter` up to the first whose output says yes, and answers the item
of that entry (`find_of_filter`).  The commands in front run first (`runs_of_append`), so the two
stay in step: where the search ends at an entry (`EndsAt`) the filter, if it succeeds, keeps that
entry and none before it. -/

namespace PipeScript.Proofs.Loop.ShortCircuit

open PipeScript.Command
open PipeScript.Proofs.Value.Entries PipeScript.Proofs.Json.Reading
open PipeScript.Proofs.Machine.Programs PipeScript.Proofs.Loop.CommonTrace

/-! ### Runs of the first commands -/

section Runs

variable {nested : Nested} {commands outputs : List String} {fault : Option Fault}
  {m after : Machine}

/-- The first command fails, or the others run from where it left the machine. -/
theorem runs_cons_cases {command : String}
    (h : Runs nested (command :: commands) m outputs fault after) :
    (∃ inner, nested command m = (.error inner, after) ∧ outputs = [] ∧ fault = some inner) ∨
      ∃ output others between, nested command m = (.ok output, between) ∧
        outputs = output :: others ∧ Runs nested commands between others fault after := by
  cases h with
  | step hcommand hrest => exact .inr ⟨_, _, _, hcommand, rfl, hrest⟩
  | fail hcommand => exact .inl ⟨_, hcommand, rfl, rfl⟩

/-- **What runs before runs first**: where the commands in front succeed, a run of all is their run
and then one of the commands behind. -/
theorem runs_of_append {back others : List String} {other : Option Fault} {last : Machine}
    (h : Runs nested commands m outputs none after)
    (hall : Runs nested (commands ++ back) m others other last) :
    ∃ rest, others = outputs ++ rest ∧ Runs nested back after rest other last := by
  generalize hfault : (none : Option Fault) = fault at h
  induction h generalizing others with
  | done m => exact ⟨others, rfl, hall⟩
  | step hcommand hrest ih =>
    rcases runs_cons_cases hall with ⟨inner, hfail, -, -⟩ | ⟨output, rest, _, hstep, rfl, hothers⟩
    · exact absurd (congrArg Prod.fst (hcommand.symm.trans hfail)) nofun
    · obtain ⟨houtput, rfl⟩ := Prod.mk.inj (hcommand.symm.trans hstep)
      obtain ⟨rest, rfl, hback⟩ := ih hothers hfault
      exact ⟨rest, by rw [Except.ok.inj houtput, List.cons_append], hback⟩
  | fail hcommand => cases hfault

/-- A run that succeeds ends where every other run of its commands does. -/
theorem runs_unique {others : List String} {other : Option Fault} {last : Machine}
    (h : Runs nested commands m outputs none after)
    (hother : Runs nested commands m others other last) : others = outputs ∧ last = after := by
  rw [← List.append_nil commands] at hother
  obtain ⟨rest, rfl, hrest⟩ := runs_of_append h hother
  cases hrest
  exact ⟨List.append_nil _, rfl⟩

end Runs

/-! ### The search -/

/-- The search of entries ends at entry `i`: the commands up to it succeed, and its output is the
first that says yes. -/
def EndsAt (nested : Nested) (template : String) (entries : Entries Value) (m : Machine) (i : ℕ)
    (between : Machine) : Prop :=
  ∃ outputs, Runs nested (bodies template (entries.take (i + 1))) m outputs none between ∧
    outputs.findIdx? saysYes = some i

/-- The search of entries ends behind the last: all commands succeed and no output says yes. -/
def EndsUnmet (nested : Nested) (template : String) (entries : Entries Value)
    (m between : Machine) : Prop :=
  ∃ outputs, Runs nested (bodies template entries) m outputs none between ∧
    outputs.findIdx? saysYes = none

/-- The entries whose output says yes. -/
def keptEntries (entries : Entries Value) (outputs : List String) : Entries Value :=
  ((entries.zip outputs).filter fun pair => saysYes pair.2).map (·.1)

/-- The text of the first item on the pipe; there is none when there is no item. -/
def firstText (entries : Entries Value) : String :=
  (entries.head?.map fun entry => entry.2.pipeText).getD ""

theorem bodies_take (template : String) (entries : Entries Value) (n : ℕ) :
    bodies template (entries.take n) = (bodies template entries).take n :=
  List.map_take

theorem keptEntries_cons (entry : Scalar × Value) (entries : Entries Value) (output : String)
    (outputs : List String) : keptEntries (entry :: entries) (output :: outputs) =
      if saysYes output then entry :: keptEntries entries outputs
      else keptEntries entries outputs := by
  unfold keptEntries
  rw [List.zip_cons_cons, List.filter_cons]
  split_ifs <;> rfl

theorem head_keptEntries (entries : Entries Value) {outputs : List String} {i : ℕ}
    (h : outputs.findIdx? saysYes = some i) :
    (keptEntries entries outputs).head? = entries[i]? := by
  induction outputs generalizing entries i with
  | nil => cases h
  | cons output outputs ih =>
    cases entries with
    | nil => rfl
    | cons entry entries =>
      rw [List.findIdx?_cons] at h
      rw [keptEntries_cons]
      split_ifs at h ⊢ with hyes
      · obtain rfl := Option.some.inj h
        rfl
      · obtain ⟨j, hj, rfl⟩ := Option.map_eq_some_iff.mp h
        exact ih entries hj

theorem keptEntries_eq_nil (entries : Entries Value) {outputs : List String}
    (h : outputs.findIdx? saysYes = none) : keptEntries entries outputs = [] := by
  unfold keptEntries
  rw [List.map_eq_nil_iff, List.filter_eq_nil_iff]
  intro entry hentry
  rw [List.findIdx?_eq_none_iff.mp h entry.2 (List.of_mem_zip hentry).2]
  exact Bool.false_ne_true

section Search

variable {nested : Nested} {template : String}

/-- The search runs the first entry and stops there or goes on. -/
theorem findEntry_cons (key : Scalar) {item : Value} (hitem : item.hasLongInteger = false)
    (entries : Entries Value) (m : Machine) :
    findEntry nested template (Entries.mapItems Shared.plain ((key, item) :: entries)) m =
      match nested (entryCommand template key item.placeholderText) m with
      | (.ok output, between) =>
        if saysYes output then (.ok item.pipeText, between)
        else findEntry nested template (Entries.mapItems Shared.plain entries) between
      | (.error fault, between) => (.error fault, between) := by
  have hstep : findEntry nested template (Entries.mapItems Shared.plain ((key, item) :: entries)) =
      (do
        let output ← runEntry nested template (key, .plain item)
        if saysYes output then Action.write Value.pipeText (← Action.current (.plain item))
        else findEntry nested template (Entries.mapItems Shared.plain entries)) := rfl
  have hrun := runEntry_plain nested template key hitem m
  rw [hstep]
  rcases hnested : nested (entryCommand template key item.placeholderText) m with
    ⟨fault | output, between⟩
  · rw [bind_error m (hrun.trans hnested)]
  · rw [bind_ok m (hrun.trans hnested)]
    dsimp only
    split_ifs with hyes
    · rw [bind_ok between (current_plain item between), Action.write, hitem]
      rfl
    · rfl

/-- Where the search ends at an entry, its output is the first that says yes in every run of all
entries. -/
theorem findIdx?_of_endsAt {entries : Entries Value} {m between after : Machine}
    {outputs : List String} {fault : Option Fault} {i : ℕ}
    (h : EndsAt nested template entries m i between)
    (hall : Runs nested (bodies template entries) m outputs fault after) :
    outputs.findIdx? saysYes = some i := by
  obtain ⟨front, hfront, hi⟩ := h
  rw [bodies_take] at hfront
  rw [← List.take_append_drop (i + 1) (bodies template entries)] at hall
  obtain ⟨rest, rfl, -⟩ := runs_of_append hfront hall
  rw [List.findIdx?_append, hi]
  rfl

variable {entries : Entries Value} {m after : Machine} {outputs : List String}
  {fault : Option Fault} (hitems : ∀ entry ∈ entries, entry.2.hasLongInteger = false)
include hitems

/-- **The search stops where the first output says yes.** -/
theorem findEntry_of_match (h : Runs nested (bodies template entries) m outputs fault after) {i : ℕ}
    (hi : outputs.findIdx? saysYes = some i) :
    ∃ entry between, entries[i]? = some entry ∧
      Runs nested (bodies template (entries.take (i + 1))) m (outputs.take (i + 1)) none between ∧
      findEntry nested template (Entries.mapItems Shared.plain entries) m =
        (.ok entry.2.pipeText, between) := by
  induction entries generalizing m outputs i with
  | nil =>
    cases h
    cases hi
  | cons entry entries ih =>
    obtain ⟨key, item⟩ := entry
    rw [findEntry_cons key (hitems _ (List.mem_cons_self ..))]
    rcases runs_cons_cases h with ⟨-, -, rfl, -⟩ | ⟨output, others, between, hcommand, rfl, hrest⟩
    · cases hi
    · rw [hcommand]
      dsimp only
      rw [List.findIdx?_cons] at hi
      split_ifs at hi with hyes
      · obtain rfl := Option.some.inj hi
        rw [if_pos hyes]
        exact ⟨(key, item), between, rfl, .step hcommand (.done _), rfl⟩
      · obtain ⟨j, hj, rfl⟩ := Option.map_eq_some_iff.mp hi
        rw [if_neg hyes]
        obtain ⟨entry, last, hentry, hruns, hfind⟩ :=
          ih (fun e he => hitems e (List.mem_cons_of_mem _ he)) hrest hj
        exact ⟨entry, last, hentry, .step hcommand hruns, hfind⟩

/-- **Where no output says yes the search runs everything**, and fails where a command does. -/
theorem findEntry_of_none (h : Runs nested (bodies template entries) m outputs fault after)
    (hnone : outputs.findIdx? saysYes = none) :
    findEntry nested template (Entries.mapItems Shared.plain entries) m =
      (outcome fault "", after) := by
  induction entries generalizing m outputs with
  | nil =>
    cases h
    rfl
  | cons entry entries ih =>
    obtain ⟨key, item⟩ := entry
    rw [findEntry_cons key (hitems _ (List.mem_cons_self ..))]
    rcases runs_cons_cases h with ⟨inner, hcommand, rfl, rfl⟩ |
      ⟨output, others, between, hcommand, rfl, hrest⟩
    · rw [hcommand]
      rfl
    · rw [List.findIdx?_cons] at hnone
      split_ifs at hnone with hyes
      rw [hcommand]
      dsimp only
      rw [if_neg hyes]
      exact ih (fun e he => hitems e (List.mem_cons_of_mem _ he)) hrest
        (Option.map_eq_none_iff.mp hnone)

/-- **When a search succeeds**: it ends at an entry and answers its item, or it ends behind the last
and answers nothing. -/
theorem findEntry_eq_ok_iff {found : String} {between : Machine} :
    findEntry nested template (Entries.mapItems Shared.plain entries) m = (.ok found, between) ↔
      (∃ i entry, entries[i]? = some entry ∧ EndsAt nested template entries m i between ∧
        found = entry.2.pipeText) ∨
      (EndsUnmet nested template entries m between ∧ found = "") := by
  obtain ⟨outputs, fault, after, hruns, -, -⟩ := runEntries_runs nested template hitems m
  constructor
  · intro hfound
    rcases hi : outputs.findIdx? saysYes with _ | i
    · rw [findEntry_of_none hitems hruns hi] at hfound
      cases fault with
      | some fault => exact absurd (congrArg Prod.fst hfound) nofun
      | none =>
        obtain ⟨hempty, rfl⟩ := Prod.mk.inj hfound
        exact .inr ⟨⟨outputs, hruns, hi⟩, (Except.ok.inj hempty).symm⟩
    · obtain ⟨entry, last, hentry, hfront, hfind⟩ := findEntry_of_match hitems hruns hi
      obtain ⟨htext, rfl⟩ := Prod.mk.inj (hfound.symm.trans hfind)
      refine .inl ⟨i, entry, hentry, ⟨_, hfront, ?_⟩, Except.ok.inj htext⟩
      rw [List.findIdx?_take, hi]
      simp
  · rintro (⟨i, entry, hentry, hends, rfl⟩ | ⟨⟨all, hall, hnone⟩, rfl⟩)
    · obtain ⟨entry', last, hentry', hruns', hfind⟩ :=
        findEntry_of_match hitems hruns (findIdx?_of_endsAt hends hruns)
      obtain rfl := Option.some.inj (hentry.symm.trans hentry')
      obtain ⟨front, hfront, -⟩ := hends
      rw [hfind, (runs_unique hfront hruns').2]
    · rw [findEntry_of_none hitems hall hnone]
      rfl

/-- **After a run of all entries** the search is a run of those up to the first that says yes, and
answers the first item that is kept. -/
theorem findEntry_of_runs (h : Runs nested (bodies template entries) m outputs none after)
    (hlength : outputs.length = entries.length) :
    ∃ between, Runs nested (bodies template (entries.take (outputs.findIdx saysYes + 1))) m
        (outputs.take (outputs.findIdx saysYes + 1)) none between ∧
      findEntry nested template (Entries.mapItems Shared.plain entries) m =
        (.ok (firstText (keptEntries entries outputs)), between) := by
  rcases hi : outputs.findIdx? saysYes with _ | i
  · have hall : outputs.findIdx saysYes = outputs.length :=
      List.findIdx?_eq_none_iff_findIdx_eq.mp hi
    refine ⟨after, ?_, ?_⟩
    · rw [hall, List.take_of_length_le (by omega), List.take_of_length_le (by omega)]
      exact h
    · rw [findEntry_of_none hitems h hi, keptEntries_eq_nil entries hi]
      rfl
  · obtain ⟨entry, between, hentry, hfront, hfind⟩ := findEntry_of_match hitems h hi
    refine ⟨between, ?_, ?_⟩
    · rw [(List.findIdx?_eq_some_iff_findIdx_eq.mp hi).2]
      exact hfront
    · rw [hfind, firstText, head_keptEntries entries hi, hentry]
      rfl

end Search

/-! ### The two loops -/

section Loops

variable {nested : Nested} {inv : Invocation} {m after : Machine} {v : Value}
  {c : Collection Value} (hdata : m.store.iterated (inv.argumentValue "list") (inv.argument? "var")
    (inv.argument? "globalvar") = .plain v) (hc : v.collection? = some c)
include hdata hc

theorem find_eq : find nested inv m =
    findEntry nested inv.value (Entries.mapItems Shared.plain c.entries) m := by
  unfold find
  rw [bind_ok m (collection_plain hdata hc _), entries_plain]

/-- When the filter succeeds all its commands have, and it answers the entries that it keeps. -/
theorem runs_of_filter (hkeyed : Keyed c)
    (hitems : ∀ entry ∈ c.entries, entry.2.hasLongInteger = false) {text : String}
    (h : filter nested inv m = (.ok text, after)) :
    ∃ outputs, Runs nested (bodies inv.value c.entries) m outputs none after ∧
      outputs.length = c.entries.length ∧
      text = (refill c (keptEntries c.entries outputs)).json := by
  obtain ⟨outputs, fault, last, hruns, hlength, hrun⟩ := runEntries_runs nested inv.value hitems m
  rw [filter_runs hdata hc hrun hkeyed hitems hlength] at h
  cases fault with
  | some fault => exact absurd (congrArg Prod.fst h) nofun
  | none =>
    obtain ⟨htext, rfl⟩ := Prod.mk.inj h
    exact ⟨outputs, hruns, hlength rfl, (Except.ok.inj htext).symm⟩

end Loops

/-- **The search is the short circuit of the filter.**  Over a collection that was read from a text:
when the filter succeeds, the search runs the commands of the entries up to the first that is kept,
ends where these end, and answers that item; it succeeds in no other way than at an entry or behind
the last; and where it ends at an entry, a filter that succeeds keeps this entry first. -/
theorem find_of_filter (nested : Nested) {inv : Invocation} {m : Machine} {s : String} {v : Value}
    {c : Collection Value} (hs : Json.parse? s = some v) (hc : v.collection? = some c)
    (hdata : m.store.iterated (inv.argumentValue "list") (inv.argument? "var")
      (inv.argument? "globalvar") = .plain v) :
    (∀ text after, filter nested inv m = (.ok text, after) →
      ∃ outputs between, Runs nested (bodies inv.value c.entries) m outputs none after ∧
        text = (refill c (keptEntries c.entries outputs)).json ∧
        Runs nested (bodies inv.value (c.entries.take (outputs.findIdx saysYes + 1))) m
          (outputs.take (outputs.findIdx saysYes + 1)) none between ∧
        find nested inv m = (.ok (firstText (keptEntries c.entries outputs)), between)) ∧
    (∀ found between, find nested inv m = (.ok found, between) ↔
      (∃ i entry, c.entries[i]? = some entry ∧ EndsAt nested inv.value c.entries m i between ∧
        found = entry.2.pipeText) ∨
      (EndsUnmet nested inv.value c.entries m between ∧ found = "")) ∧
    ∀ i between, EndsAt nested inv.value c.entries m i between →
      ∀ text after, filter nested inv m = (.ok text, after) →
        ∃ outputs, Runs nested (bodies inv.value c.entries) m outputs none after ∧
          text = (refill c (keptEntries c.entries outputs)).json ∧
          outputs.findIdx? saysYes = some i ∧
          (keptEntries c.entries outputs).head? = c.entries[i]? := by
  have hitems := hasLongInteger_entries (hasLongInteger_of_parse? hs) hc
  have hkeyed := keyed_of_parse? hs hc
  refine ⟨fun text after hfilter => ?_, fun found between => ?_,
    fun i between hends text after hfilter => ?_⟩
  · obtain ⟨outputs, hruns, hlength, htext⟩ := runs_of_filter hdata hc hkeyed hitems hfilter
    obtain ⟨between, hfront, hfind⟩ := findEntry_of_runs hitems hruns hlength
    exact ⟨outputs, between, hruns, htext, hfront, (find_eq hdata hc).trans hfind⟩
  · rw [find_eq hdata hc]
    exact findEntry_eq_ok_iff hitems
  · obtain ⟨outputs, hruns, -, htext⟩ := runs_of_filter hdata hc hkeyed hitems hfilter
    have hi := findIdx?_of_endsAt hends hruns
    exact ⟨outputs, hruns, htext, hi, head_keptEntries c.entries hi⟩

/-- Runs that say their command and answer it. -/
def answering : Nested := fun command => do
  Action.say (.output command)
  return command

def answers : String := "[\"no\",\"on\",\"true\"]"

def answerItems : List Value := [.text "no", .text "on", .text "true"]

def itemTemplate : String := "\x7b\x7bitem\x7d\x7d"

def answerSearch : Invocation := ⟨[("list", answers)], itemTemplate, ""⟩

/-- A machine that has said one text more. -/
def saying (m : Machine) (message : String) : Machine :=
  { m with effects := m.effects ++ [.output message] }

theorem parse?_answers : Json.parse? answers = some (.list answerItems) := by cbv

theorem answering_apply (m : Machine) (command : String) :
    answering command m = (.ok command, saying m command) :=
  rfl

theorem endsAt_answers (m : Machine) : EndsAt answering itemTemplate
    (Collection.entries (.sequence answerItems)) m 1 (saying (saying m "no") "on") := by
  have hbodies : bodies "\x7b\x7bitem\x7d\x7d" (Collection.entries (.sequence answerItems)) =
      ["no", "on", "true"] := by decide +kernel
  have hno : saysYes "no" = false := by decide
  have hon : saysYes "on" = true := by decide
  refine ⟨["no", "on"], ?_, ?_⟩
  · rw [bodies_take, itemTemplate, hbodies]
    exact .step (answering_apply m "no") (.step (answering_apply _ "on") (.done _))
  · rw [List.findIdx?_cons, hno, if_neg Bool.false_ne_true, List.findIdx?_cons, hon]
    rfl

/-- A machine at rest. -/
def resting : Machine := .start .empty .empty 64

theorem find_of_filter_answers :
    Json.parse? answers = some (.list answerItems) ∧
      find answering answerSearch resting = (.ok "on", saying (saying resting "no") "on") ∧
      ∀ text after, filter answering answerSearch resting = (.ok text, after) →
        ∃ outputs, Runs answering
            (bodies itemTemplate (Collection.entries (.sequence answerItems))) resting outputs none
            after ∧
          text = (refill (.sequence answerItems)
            (keptEntries (Collection.entries (.sequence answerItems)) outputs)).json ∧
          outputs.findIdx? saysYes = some 1 ∧
          (keptEntries (Collection.entries (.sequence answerItems)) outputs).head? =
            (Collection.entries (.sequence answerItems))[1]? := by
  obtain ⟨-, hfind, hfilter⟩ := @find_of_filter answering answerSearch resting _ _ _
    parse?_answers rfl (iterated_literal Store.empty parse?_answers rfl none none)
  exact ⟨parse?_answers, (hfind _ _).mpr (.inl ⟨1, _, rfl, endsAt_answers _, rfl⟩),
    hfilter 1 _ (endsAt_answers _)⟩

end PipeScript.Proofs.Loop.ShortCircuit
