import PipeScript.Proofs.Pipeline.Grammar
import Mathlib.Data.List.Induction
import Mathlib.Data.List.Nodup

/-! # The parts of a call

A segment with a slash and a name is that slash, the name, groups and a tail, and nothing of it is
lost: put together the parts are the segment again (`Parts`), and the segment tells them
(`Parts.Fit.unique`).  Its call is read off them (`Parts.Gives`): the pairs of the groups are
gathered under their keys (`Gathers`), and the tail without the blanks around it is the value.

A segment makes no call exactly when it does not start with a slash, has no name, or has a value
that starts like an argument with a quote or an opening bracket (`Refused`, `call_grammar`). -/

namespace PipeScript.Proofs.Pipeline.Decomposition

open PipeScript.Pipeline PipeScript.Text
open PipeScript.Proofs.Pipeline.Rendering PipeScript.Proofs.Pipeline.Grammar

/-! ### Gathering arguments -/

/-- The arguments that pairs make: every key in the place of its first pair, with the text of its
last. -/
structure Gathers (pairs : List (String × String)) (args : Arguments) : Prop where
  keys : args.map (·.1) = (pairs.map (·.1)).eraseDups
  texts : ∀ key, args.get? key = pairs.reverse.lookup key

theorem keys_insert (name text : String) (args : Arguments) :
    (args.insert name text).map (·.1) =
      if name ∈ args.map (·.1) then args.map (·.1) else args.map (·.1) ++ [name] := by
  induction args with
  | nil => rfl
  | cons a args ih =>
    obtain ⟨key, old⟩ := a
    rw [Arguments.insert]
    by_cases hkey : key = name
    · simp [hkey]
    · have hname : name ≠ key := Ne.symm hkey
      rw [if_neg hkey, List.map_cons, ih]
      by_cases hmem : name ∈ args.map (·.1)
      · simp [hname, hmem]
      · simp [hname, hmem]

theorem lookup_cons (key name text : String) (pairs : List (String × String)) :
    ((name, text) :: pairs).lookup key = if key = name then some text else pairs.lookup key := by
  rw [List.lookup_cons]
  by_cases hkey : key = name
  · simp [hkey]
  · rw [beq_false_of_ne hkey, if_neg hkey]

theorem lookup_of_notMem {key : String} {pairs : List (String × String)}
    (h : key ∉ pairs.map (·.1)) : pairs.lookup key = none := by
  rw [List.lookup_eq_none_iff]
  intro pair hpair
  rw [bne_iff_ne]
  rintro rfl
  exact h (List.mem_map_of_mem hpair)

theorem get?_insert (name text key : String) (args : Arguments) :
    (args.insert name text).get? key = if key = name then some text else args.get? key := by
  unfold Arguments.get?
  induction args with
  | nil => rw [Arguments.insert, lookup_cons]
  | cons a args ih =>
    obtain ⟨first, old⟩ := a
    rw [Arguments.insert]
    by_cases hfirst : first = name
    · rw [if_pos hfirst, lookup_cons, lookup_cons, hfirst]
      split_ifs <;> rfl
    · rw [if_neg hfirst, lookup_cons, lookup_cons, ih]
      by_cases hkey : key = first
      · rw [if_pos hkey, if_neg (hkey ▸ hfirst), if_pos hkey]
      · rw [if_neg hkey, if_neg hkey]

theorem eraseDups_concat (keys : List String) (key : String) :
    (keys ++ [key]).eraseDups = if key ∈ keys then keys.eraseDups else keys.eraseDups ++ [key] := by
  rw [List.eraseDups_append]
  by_cases h : key ∈ keys
  · simp [List.removeAll, h]
  · simp [List.removeAll, h, List.eraseDups_cons]

theorem nodup_eraseDups (keys : List String) : keys.eraseDups.Nodup := by
  induction keys using List.reverseRecOn with
  | nil => simp
  | append_singleton keys key ih =>
    rw [eraseDups_concat]
    split_ifs with h
    · exact ih
    · have hnew : key ∉ keys.eraseDups := fun hmem => h (List.mem_eraseDups.mp hmem)
      rw [← List.concat_eq_append]
      exact ih.concat hnew

theorem ofPairs_concat (pairs : List (String × String)) (pair : String × String) :
    Arguments.ofPairs (pairs ++ [pair]) = (Arguments.ofPairs pairs).insert pair.1 pair.2 := by
  rw [Arguments.ofPairs, List.foldl_concat]
  rfl

theorem gathers_ofPairs (pairs : List (String × String)) :
    Gathers pairs (Arguments.ofPairs pairs) := by
  induction pairs using List.reverseRecOn with
  | nil => exact ⟨rfl, fun key => rfl⟩
  | append_singleton pairs pair ih =>
    obtain ⟨name, text⟩ := pair
    rw [ofPairs_concat]
    refine ⟨?_, fun key => ?_⟩
    · rw [keys_insert, ih.keys, List.map_append, List.map_singleton, eraseDups_concat]
      simp only [List.mem_eraseDups]
    · rw [get?_insert, ih.texts, List.reverse_concat, lookup_cons]

/-- Arguments are told by their keys and what is found under each. -/
theorem eq_of_get? {args args' : Arguments} (hnodup : (args.map (·.1)).Nodup)
    (hkeys : args.map (·.1) = args'.map (·.1)) (hget : ∀ key, args.get? key = args'.get? key) :
    args = args' := by
  unfold Arguments.get? at hget
  induction args generalizing args' with
  | nil => exact (List.map_eq_nil_iff.mp hkeys.symm).symm
  | cons a args ih =>
    obtain ⟨key, text⟩ := a
    obtain ⟨⟨key', text'⟩, rest, rfl, hkey, hrest⟩ := List.map_eq_cons_iff.mp hkeys.symm
    obtain rfl : key' = key := hkey
    obtain ⟨hnew, hnodup⟩ := List.nodup_cons.mp hnodup
    have htext : text = text' := by
      have hhere := hget key'
      rw [lookup_cons, lookup_cons, if_pos rfl, if_pos rfl] at hhere
      exact Option.some.inj hhere
    have hlater : ∀ key, args.lookup key = rest.lookup key := by
      intro key
      by_cases hkey : key = key'
      · rw [hkey, lookup_of_notMem hnew, lookup_of_notMem (hrest ▸ hnew)]
      · have hthere := hget key
        rw [lookup_cons, lookup_cons, if_neg hkey, if_neg hkey] at hthere
        exact hthere
    rw [htext, ih hnodup hrest.symm hlater]

theorem gathers_iff {pairs : List (String × String)} {args : Arguments} :
    Gathers pairs args ↔ args = Arguments.ofPairs pairs := by
  have hof := gathers_ofPairs pairs
  constructor
  · intro h
    refine eq_of_get? ?_ (h.keys.trans hof.keys.symm) fun key => ?_
    · rw [h.keys]
      exact nodup_eraseDups _
    · rw [h.texts, hof.texts]
  · rintro rfl
    exact hof

/-! ### Values that open a literal -/

/-- A text that starts like an argument whose literal begins with `opener`. -/
def OpensLiteral (opener : Char) (value : List Char) : Prop :=
  ∃ key rest, IsKey key ∧ opener ∈ openers ∧ value = key ++ '=' :: opener :: rest

theorem unclosedOpener?_eq_some_iff {value : List Char} {opener : Char} :
    unclosedOpener? value = some opener ↔ OpensLiteral opener value := by
  have hopener : ∀ c, (decide (c = '"') || (closer? c).isSome) = true ↔ c ∈ openers := by
    intro c
    rw [← not_iff_not, notMem_openers_iff]
    simp
  constructor
  · intro h
    unfold unclosedOpener? at h
    split at h
    · next key c rest hread =>
      split_ifs at h with hc
      cases h
      obtain ⟨hkey, rfl⟩ := startsWithKey_of_readKey? hread
      exact ⟨key, rest, hkey, (hopener opener).mp hc, rfl⟩
    · cases h
  · rintro ⟨key, rest, hkey, hmem, rfl⟩
    rw [unclosedOpener?, readKey?_append hkey]
    exact if_pos ((hopener opener).mpr hmem)

/-! ### Parts -/

/-- The parts of a segment behind its slash. -/
@[ext]
structure Parts where
  name : List Char
  groups : List Group
  tail : List Char

namespace Parts

variable {p p' : Parts}

/-- The segment that has these parts. -/
def source (p : Parts) : List Char := '/' :: (p.name ++ (sources p.groups ++ p.tail))

/-- The value in the tail. -/
def value (p : Parts) : List Char := stripChars p.tail

/-- The parts are cut where a segment is cut: the name ends at the first gap, and there are as many
groups as there can be. -/
structure Fit (p : Parts) : Prop where
  name_ne : p.name ≠ []
  name_solid : ∀ c ∈ p.name, isGap c = false
  name_end : ∀ c ∈ (sources p.groups ++ p.tail).head?, isGap c = true
  groups : FitAll p.groups p.tail

/-- The call that is read off the parts. -/
structure Gives (p : Parts) (c : Call) : Prop where
  name : c.name = String.ofList p.name
  arguments : Gathers (p.groups.map Group.argument) c.arguments
  value : c.value = String.ofList p.value
  raw : c.raw = String.ofList p.source

theorem exists_gives (p : Parts) : ∃ c, p.Gives c :=
  ⟨⟨String.ofList p.name, Arguments.ofPairs (p.groups.map Group.argument), String.ofList p.value,
    String.ofList p.source⟩, rfl, gathers_ofPairs _, rfl, rfl⟩

/-- **The parts are told by the segment.** -/
theorem Fit.unique (h : p.Fit) (h' : p'.Fit) (heq : p.source = p'.source) : p = p' := by
  have heq : p.name ++ (sources p.groups ++ p.tail) = p'.name ++ (sources p'.groups ++ p'.tail) :=
    (List.cons.inj heq).2
  obtain ⟨htake, hdrop⟩ := takeWhile_name h.name_solid h.name_end
  obtain ⟨htake', hdrop'⟩ := takeWhile_name h'.name_solid h'.name_end
  have hname : p.name = p'.name := by rw [← htake, heq, htake']
  have hrest : sources p.groups ++ p.tail = sources p'.groups ++ p'.tail := by
    rw [← hdrop, heq, hdrop']
  obtain ⟨hgroups, htail⟩ := h.groups.unique h'.groups hrest
  exact Parts.ext hname hgroups htail

/-- A segment with a slash and a name has parts. -/
theorem exists_fit {name rest : List Char} (hname : name ≠ [])
    (hsolid : ∀ c ∈ name, isGap c = false) (hend : ∀ c ∈ rest.head?, isGap c = true) :
    ∃ p : Parts, p.Fit ∧ '/' :: (name ++ rest) = p.source := by
  obtain ⟨groups, tail, rfl, hgroups, -⟩ := readArguments_spec (Nat.lt_succ_self rest.length)
  exact ⟨⟨name, groups, tail⟩, ⟨hname, hsolid, hend, hgroups⟩, rfl⟩

/-- A segment that starts with a slash has no name or has parts. -/
theorem nameless_or_fit (body : List Char) :
    (∀ c ∈ body.head?, isGap c = true) ∨ ∃ p : Parts, p.Fit ∧ '/' :: body = p.source := by
  have hsplit := List.takeWhile_append_dropWhile (p := (!isGap ·)) (l := body)
  have hend := gap_head_dropWhile body
  by_cases hname : body.takeWhile (!isGap ·) = []
  · rw [hname, List.nil_append] at hsplit
    rw [hsplit] at hend
    exact .inl hend
  · have hfit := exists_fit hname (solid_takeWhile body) hend
    rw [hsplit] at hfit
    exact .inr hfit

end Parts

/-! ### Calls and refusals -/

/-- Why a segment, blanks aside, makes no call. -/
inductive Refused : List Char → Fault → Prop where
  | slash {segment : List Char} (h : segment.head? ≠ some '/') :
      Refused segment (.notACommand (String.ofList segment))
  | nameless {body : List Char} (h : ∀ c ∈ body.head?, isGap c = true) :
      Refused ('/' :: body) (.namelessCommand (String.ofList ('/' :: body)))
  | unclosed {p : Parts} {opener : Char} (h : p.Fit) (hopens : OpensLiteral opener p.value) :
      Refused p.source (.unclosed opener (String.ofList p.source))

/-- Every segment is refused, or has parts from which its call is read off. -/
theorem refused_or_gives (segment : List Char) :
    (∃ fault, Refused segment fault) ∨ ∃ p c, Parts.Fit p ∧ segment = p.source ∧
      (∀ opener, ¬ OpensLiteral opener p.value) ∧ p.Gives c := by
  by_cases hslash : segment.head? = some '/'
  · obtain ⟨body, rfl⟩ := List.head?_eq_some_iff.mp hslash
    rcases Parts.nameless_or_fit body with hname | ⟨p, hfit, heq⟩
    · exact .inl ⟨_, .nameless hname⟩
    · by_cases hopens : ∃ opener, OpensLiteral opener p.value
      · obtain ⟨opener, hopens⟩ := hopens
        rw [heq]
        exact .inl ⟨_, .unclosed hfit hopens⟩
      · obtain ⟨c, hc⟩ := p.exists_gives
        exact .inr ⟨p, c, hfit, heq, not_exists.mp hopens, hc⟩
  · exact .inl ⟨_, .slash hslash⟩

section Reading

variable {segment : String} {p : Parts} (h : p.Fit) (heq : stripChars segment.toList = p.source)
include h heq

/-- A segment is read part by part. -/
theorem call_of_fit :
    call segment =
      match unclosedOpener? p.value with
      | some opener => .error (.unclosed opener (String.ofList p.source))
      | none => .ok ⟨String.ofList p.name, Arguments.ofPairs (p.groups.map Group.argument),
          String.ofList p.value, String.ofList p.source⟩ := by
  obtain ⟨htake, hdrop⟩ := takeWhile_name h.name_solid h.name_end
  set rest := sources p.groups ++ p.tail with hrest
  have harguments : readArguments (rest.length + 1) rest =
      (p.groups.map Group.argument, p.tail) := by
    obtain ⟨groups, tail, hsplit, hgroups, hread⟩ :=
      readArguments_spec (Nat.lt_succ_self rest.length)
    obtain ⟨rfl, rfl⟩ := h.groups.unique hgroups (hrest.symm.trans hsplit)
    exact hread
  have hname : p.name.isEmpty = false := by simpa using h.name_ne
  have hsource : p.source = '/' :: (p.name ++ rest) := rfl
  rw [call, heq, hsource]
  simp only [readCall, htake, hdrop, harguments, hname, Bool.false_eq_true, if_false]
  rfl

theorem call_of_gives {c : Call} (hopens : ∀ opener, ¬ OpensLiteral opener p.value)
    (hc : p.Gives c) : call segment = .ok c := by
  have hclosed : unclosedOpener? p.value = none := by
    rw [Option.eq_none_iff_forall_ne_some]
    exact fun opener hopener => hopens opener (unclosedOpener?_eq_some_iff.mp hopener)
  rw [call_of_fit h heq, hclosed]
  obtain ⟨name, arguments, value, raw⟩ := c
  obtain rfl := hc.name
  obtain rfl := gathers_iff.mp hc.arguments
  obtain rfl := hc.value
  obtain rfl := hc.raw
  rfl

end Reading

theorem call_of_refused {segment : String} {fault : Fault}
    (h : Refused (stripChars segment.toList) fault) : call segment = .error fault := by
  generalize heq : stripChars segment.toList = chars at h
  cases h with
  | slash hslash =>
    unfold call
    dsimp only
    split
    · next body hbody =>
      rw [heq] at hbody
      rw [hbody] at hslash
      exact absurd rfl hslash
    · rw [heq]
  | @nameless body hname =>
    have hempty : body.takeWhile (!isGap ·) = [] :=
      (takeWhile_name (List.forall_mem_nil _) hname).1
    rw [call, heq]
    simp only [readCall, hempty, List.isEmpty_nil, if_true]
  | unclosed hfit hopens => rw [call_of_fit hfit heq, unclosedOpener?_eq_some_iff.mpr hopens]

theorem call_eq_ok_iff {segment : String} {c : Call} :
    call segment = .ok c ↔ ∃ p : Parts, p.Fit ∧ stripChars segment.toList = p.source ∧
      (∀ opener, ¬ OpensLiteral opener p.value) ∧ p.Gives c := by
  constructor
  · intro hok
    rcases refused_or_gives (stripChars segment.toList) with
      ⟨fault, hrefused⟩ | ⟨p, c', hfit, heq, hopens, hc⟩
    · rw [call_of_refused hrefused] at hok
      cases hok
    · rw [call_of_gives hfit heq hopens hc] at hok
      cases hok
      exact ⟨p, hfit, heq, hopens, hc⟩
  · rintro ⟨p, hfit, heq, hopens, hc⟩
    exact call_of_gives hfit heq hopens hc

theorem call_eq_error_iff {segment : String} {fault : Fault} :
    call segment = .error fault ↔ Refused (stripChars segment.toList) fault := by
  constructor
  · intro herror
    rcases refused_or_gives (stripChars segment.toList) with
      ⟨fault', hrefused⟩ | ⟨p, c, hfit, heq, hopens, hc⟩
    · rw [call_of_refused hrefused] at herror
      cases herror
      exact hrefused
    · rw [call_of_gives hfit heq hopens hc] at herror
      cases herror
  · exact call_of_refused

/-- **A segment makes the call that is read off its parts**, which are told by its text, and is
refused exactly when it has no slash, no name, or a value that opens a literal. -/
theorem call_grammar (segment : String) :
    (∀ c, call segment = .ok c ↔ ∃ p : Parts, p.Fit ∧ stripChars segment.toList = p.source ∧
        (∀ opener, ¬ OpensLiteral opener p.value) ∧ p.Gives c) ∧
      (∀ fault, call segment = .error fault ↔ Refused (stripChars segment.toList) fault) ∧
      ∀ p p' : Parts, p.Fit → p'.Fit → stripChars segment.toList = p.source →
        stripChars segment.toList = p'.source → p = p' :=
  ⟨fun _ => call_eq_ok_iff, fun _ => call_eq_error_iff,
    fun _ _ hfit hfit' heq heq' => hfit.unique hfit' (heq.symm.trans heq')⟩

/-- A segment with a key given twice, a bracket inside a string and a quote inside quotes. -/
def repeatedKey : String := " /n a=[\"]\"]b=x\ta=\"\\\"\" v "

theorem call_grammar_repeatedKey :
    ∃ p : Parts, p.Fit ∧ stripChars repeatedKey.toList = p.source ∧
      (∀ opener, ¬ OpensLiteral opener p.value) ∧
      p.Gives ⟨"n", [("a", "\""), ("b", "x")], "v", "/n a=[\"]\"]b=x\ta=\"\\\"\" v"⟩ :=
  ((call_grammar repeatedKey).1 _).mp (by decide)

end PipeScript.Proofs.Pipeline.Decomposition
