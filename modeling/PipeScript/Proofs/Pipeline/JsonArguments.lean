import PipeScript.Proofs.Pipeline.Decomposition

/-! # JSON text as an argument

The JSON text of a list or a dictionary needs no quotes: as an argument it ends where its brackets
end, whatever the strings in it hold and whatever follows (`isLiteral_json`).  So it can be put in
front of the other arguments of a command.  The command is then cut into the same groups behind the
new one and the same tail (`fit_cons`), its call has one more argument (`gives_cons`), and nothing
else of it changes (`call_withJson`). -/

namespace PipeScript.Proofs.Pipeline.JsonArguments

open PipeScript.Pipeline PipeScript.Text
open PipeScript.Proofs.Text.Strip PipeScript.Proofs.Json.Spelling
open PipeScript.Proofs.Pipeline.Rendering PipeScript.Proofs.Pipeline.Literals
open PipeScript.Proofs.Pipeline.Grammar PipeScript.Proofs.Pipeline.Decomposition

/-! ### JSON text as a literal -/

section Json

variable {v : Value} (hcontainer : v.isContainer = true)
include hcontainer

/-- The JSON text of a container is a literal that denotes itself, whatever follows it. -/
theorem isLiteral_json (rest : List Char) :
    IsLiteral v.json.toList rest ∧ denoted v.json.toList = v.json.toList := by
  obtain ⟨literal, hliteral, heq, hdenoted⟩ :=
    readLiteral?_eq_some_iff.mp (readLiteral?_json hcontainer rest)
  obtain rfl : v.json.toList = literal := List.append_cancel_right heq
  exact ⟨hliteral, hdenoted.symm⟩

/-- What ends in it ends in a bracket. -/
theorem last_append_json (front : List Char) :
    ∀ c ∈ (front ++ v.json.toList).getLast?, isBlank c = false := by
  obtain ⟨opening, cs, closing, hbracket, -, hform⟩ := exists_bracketed hcontainer 0
  intro c hc
  rw [Value.json, Json.render, String.toList_ofList, hform, ← List.append_assoc,
    List.getLast?_concat] at hc
  obtain rfl : closing = c := Option.some.inj hc
  cases hbracket <;> decide

end Json

/-! ### One more argument -/

/-- A new key in front of all pairs comes first. -/
theorem gathers_cons {pairs : List (String × String)} {args : Arguments} (h : Gathers pairs args)
    {key : String} (hnew : args.get? key = none) (text : String) :
    Gathers ((key, text) :: pairs) ((key, text) :: args) := by
  have hlookup : pairs.reverse.lookup key = none := (h.texts key).symm.trans hnew
  refine ⟨?_, fun other => ?_⟩
  · have hkeys : (pairs.map (·.1)).filter (fun other => !other == key) = pairs.map (·.1) := by
      refine List.filter_eq_self.mpr fun other hother => ?_
      obtain ⟨pair, hpair, rfl⟩ := List.mem_map.mp hother
      have hne := List.lookup_eq_none_iff.mp hlookup pair (List.mem_reverse.mpr hpair)
      rw [bne_iff_ne] at hne
      simpa using Ne.symm hne
    rw [List.map_cons, List.map_cons, List.eraseDups_cons, hkeys, h.keys]
  · have hother := h.texts other
    unfold Arguments.get? at hother ⊢
    rw [lookup_cons, hother, List.reverse_cons, List.lookup_append, lookup_cons, List.lookup_nil]
    split_ifs with hkey
    · rw [hkey, hlookup]
      rfl
    · rw [Option.or_none]

section Cons

variable {p : Parts} {g : Group}

/-- The parts with one more group in front of the others. -/
def consGroup (g : Group) (p : Parts) : Parts := { p with groups := g :: p.groups }

theorem fit_cons (h : p.Fit) (hg : g.Fits (sources p.groups ++ p.tail)) (hgap : g.gap ≠ []) :
    (consGroup g p).Fit := by
  refine ⟨h.name_ne, h.name_solid, fun c hc => ?_, hg, h.groups⟩
  obtain ⟨d, gap, hcons⟩ := List.exists_cons_of_ne_nil hgap
  have hmem : d ∈ g.gap := by
    rw [hcons]
    exact List.mem_cons_self
  obtain rfl : d = c := by
    simpa [consGroup, sources_cons, Group.source_append, hcons] using hc
  exact hg.gap d hmem

theorem gives_cons {c : Call} (h : p.Gives c) (hnew : c.arguments.get? g.argument.1 = none) :
    (consGroup g p).Gives { c with
      arguments := g.argument :: c.arguments, raw := String.ofList (consGroup g p).source } :=
  ⟨h.name, gathers_cons h.arguments hnew g.argument.2, h.value, rfl⟩

/-- **A group in front is one more argument**, and the call stays as it is otherwise. -/
theorem call_consGroup {short long : String} {c : Call} (hfit : p.Fit)
    (hshort : stripChars short.toList = p.source) (hcall : call short = .ok c)
    (hg : g.Fits (sources p.groups ++ p.tail)) (hgap : g.gap ≠ [])
    (hnew : c.arguments.get? g.argument.1 = none)
    (hlong : stripChars long.toList = (consGroup g p).source) :
    call long = .ok { c with arguments := g.argument :: c.arguments, raw := strip long } := by
  obtain ⟨p', hfit', hshort', hopens, hgives⟩ := call_eq_ok_iff.mp hcall
  obtain rfl : p = p' := hfit.unique hfit' (hshort.symm.trans hshort')
  rw [call_of_gives (fit_cons hfit hg hgap) hlong hopens (gives_cons hgives hnew), strip, hlong]

end Cons

/-! ### Commands with JSON text in front -/

/-- A command with a text as its first argument. -/
def withArgument (name key text rest : String) : String :=
  "/" ++ name ++ " " ++ key ++ "=" ++ text ++ " " ++ rest

section Command

variable {name : List Char} (hne : name ≠ [])
  (hsolid : ∀ c ∈ name, isBlank c = false ∧ isGap c = false)
include hne hsolid

/-- A command starts with its slash and ends in no blank before what follows. -/
theorem stripChars_command {front : List Char} (hlast : ∀ c ∈ front.getLast?, isBlank c = false)
    (behind : List Char) :
    stripChars ('/' :: (name ++ front) ++ behind) =
      '/' :: (name ++ front) ++ behind.rdropWhile isBlank := by
  refine stripChars_append ⟨?_, fun c hc => ?_⟩ (List.cons_ne_nil _ _) behind
  · exact fun c hc => (Option.some.inj hc : '/' = c) ▸ by decide
  · rw [List.getLast?_cons_of_ne_nil (by simp [hne]), List.getLast?_append] at hc
    cases hfront : front.getLast? with
    | some d =>
      rw [hfront] at hc
      exact hlast c (hfront.trans hc)
    | none =>
      rw [hfront] at hc
      exact (hsolid c (List.mem_of_getLast? hc)).1

/-- The parts of a command whose name is followed by a blank and a rest. -/
theorem exists_parts_behind (rest : List Char) :
    ∃ p : Parts, p.Fit ∧ p.name = name ∧
      sources p.groups ++ p.tail = (' ' :: rest).rdropWhile isBlank := by
  obtain ⟨groups, tail, heq, hgroups, -⟩ :=
    readArguments_spec (Nat.lt_succ_self ((' ' :: rest).rdropWhile isBlank).length)
  refine ⟨⟨name, groups, tail⟩, ⟨hne, fun c hc => (hsolid c hc).2, fun c hc => ?_, hgroups⟩, rfl,
    heq.symm⟩
  rw [← heq] at hc
  obtain ⟨more, hmore⟩ := List.rdropWhile_prefix isBlank (l := ' ' :: rest)
  have hhead : (' ' :: rest).head? = some c := by
    rw [← hmore, List.head?_append, Option.mem_def.mp hc]
    rfl
  obtain rfl : ' ' = c := Option.some.inj hhead
  decide

end Command

/-- **JSON text is an argument as it stands.**  Put in front of what a command has, it ends where its
brackets end: the command keeps its name, its value and all its arguments, and has that one more. -/
theorem call_withJson {name key rest : String} {v : Value} {c : Call} (hname : name ≠ "")
    (hsolid : ∀ x ∈ name.toList, isBlank x = false ∧ isGap x = false) (hkey : IsKey key.toList)
    (hcontainer : v.isContainer = true) (hcall : call ("/" ++ name ++ " " ++ rest) = .ok c)
    (hnew : c.arguments.get? key = none) :
    call (withArgument name key v.json rest) = .ok { c with
      arguments := (key, v.json) :: c.arguments
      raw := strip (withArgument name key v.json rest) } := by
  have hne : name.toList ≠ [] := by simpa using hname
  obtain ⟨p, hfit, hpname, hbehind⟩ := exists_parts_behind hne hsolid rest.toList
  have hshort : stripChars ("/" ++ name ++ " " ++ rest).toList = p.source := by
    have hnothing : ∀ x ∈ ([] : List Char).getLast?, isBlank x = false := by simp
    have hstrip := stripChars_command hne hsolid hnothing (' ' :: rest.toList)
    rw [Parts.source, hpname, hbehind]
    simpa using hstrip
  -- the same parts, with a group for the new argument
  set g : Group := ⟨[' '], key.toList, v.json.toList⟩ with hg
  obtain ⟨hliteral, hdenoted⟩ := isLiteral_json hcontainer (sources p.groups ++ p.tail)
  have hargument : g.argument = (key, v.json) := by
    rw [Group.argument, hdenoted, String.ofList_toList, String.ofList_toList]
  have hfits : g.Fits (sources p.groups ++ p.tail) :=
    ⟨List.forall_mem_singleton.mpr (by decide), hkey, hliteral⟩
  have hlong : stripChars (withArgument name key v.json rest).toList = (consGroup g p).source := by
    have hlast := last_append_json hcontainer (' ' :: (key.toList ++ ['=']))
    have hstrip := stripChars_command hne hsolid hlast (' ' :: rest.toList)
    rw [Parts.source, consGroup, sources_cons, hbehind, hpname]
    simpa [hg, Group.source, withArgument] using hstrip
  have hcons := call_consGroup hfit hshort hcall hfits (List.cons_ne_nil _ _)
    (by rw [hargument]; exact hnew) hlong
  rwa [hargument] at hcons

/-- Text that looks like the end of a literal in every way: brackets, quotes, backslashes and an
equals sign in the strings of nested lists and dictionaries, and numbers among them. -/
def tricky : Value :=
  .list [.text "]\"\\", .int (-3),
    .dict [(.text "\x7d a=[", .list [.number (.float (.ofInt 7)), .text "\\"])]]

theorem call_withJson_tricky :
    call (withArgument "n" "a" tricky.json "b=[1] c=\"x\" a tail") = .ok
      ⟨"n", [("a", tricky.json), ("b", "[1]"), ("c", "x")], "a tail",
        strip (withArgument "n" "a" tricky.json "b=[1] c=\"x\" a tail")⟩ := by
  have hcall : call ("/" ++ "n" ++ " " ++ "b=[1] c=\"x\" a tail") =
      .ok ⟨"n", [("b", "[1]"), ("c", "x")], "a tail", "/n b=[1] c=\"x\" a tail"⟩ := by decide
  have hsolid : ∀ x ∈ "n".toList, isBlank x = false ∧ isGap x = false :=
    name_solid_of_all (by decide)
  have hkey : IsKey "a".toList := ⟨'a', [], rfl, by decide, List.forall_mem_nil _⟩
  exact call_withJson (by decide) hsolid hkey rfl hcall rfl

end PipeScript.Proofs.Pipeline.JsonArguments
