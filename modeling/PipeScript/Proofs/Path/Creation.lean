import PipeScript.Proofs.Path.RoundTrip

/-! # Structure from nothing

A write into a null has no part to go on in, so it makes all of its containers: for every token a
list or a dictionary with a single entry, null padding aside (`alone`), each of them the entry of the
one before (`grown`).  What a list is made for is a number, and what a list takes is a natural number
below its capacity: the write gets through exactly if every numeric token is one (`Fits`), and the
first that is none ends it (`Refused`). -/

namespace PipeScript.Proofs.Path.Creation

open PipeScript.Value PipeScript.Path PipeScript.Text PipeScript.Decimal
open PipeScript.Proofs.Number.Digits PipeScript.Proofs.Number.Exact
open PipeScript.Proofs.Number.PlainText PipeScript.Proofs.Number.Rounding
open PipeScript.Proofs.Path.Addressing PipeScript.Proofs.Path.RoundTrip

/-! ### Natural numbers as tokens -/

/-- The natural number that a token counts as, if it counts as one. -/
def natural? (token : Value) : Option ℕ :=
  token.asNumber.whole?.bind fun i => if i < 0 then none else some i.toNat

/-- A token under which a new container takes a part: it has no number, or it counts as a natural
number that a list can hold. -/
def Fits (token : Value) : Prop :=
  isNumeric token = true → ∃ i, natural? token = some i ∧ i < listCapacity

theorem natural?_eq_some_iff {token : Value} {i : ℕ} :
    natural? token = some i ↔ token.asNumber.whole? = some (i : ℤ) := by
  unfold natural?
  rw [Option.bind_eq_some_iff]
  constructor
  · rintro ⟨z, hz, hi⟩
    split_ifs at hi with hneg
    cases hi
    rw [hz, Int.toNat_of_nonneg (not_lt.mp hneg)]
  · intro h
    refine ⟨i, h, ?_⟩
    rw [if_neg (not_lt.mpr (Int.natCast_nonneg i)), Int.toNat_natCast]

theorem natural?_of_neg {n : ℕ} (h : 0 < n) : natural? (.int (-n)) = none :=
  if_pos (Int.neg_neg_of_pos (Int.natCast_pos.mpr h))

theorem writeIndex?_eq {token : Value} (h : token.asNumber.toBinary64?.isSome = true) :
    writeIndex? token = .ok (natural? token) := by
  unfold writeIndex? itemNumber
  rw [if_pos h]
  rfl

theorem writeIndex?_beyond {token : Value} (h : token.asNumber.toBinary64? = none) :
    writeIndex? token = .error .doubleOverflow := by
  unfold writeIndex? itemNumber
  rw [h]
  rfl

/-- **A small natural number names its item for a write.** -/
theorem writeIndex?_of_natural? {token : Value} {i : ℕ} (h : natural? token = some i)
    (hi : i < listCapacity) : writeIndex? token = .ok (some i) := by
  have hlt : i < 2 ^ 53 := lt_trans hi (by decide)
  rw [writeIndex?_eq, h]
  have hwhole := natural?_eq_some_iff.mp h
  rcases hn : token.asNumber with j | x
  · rw [hn] at hwhole
    obtain rfl : j = i := Option.some.inj hwhole
    exact isSome_toBinary64? hlt
  · rfl

/-! ### Digits that are too many -/

/-- The plain digits of a token that counts as a small natural number write a small number. -/
theorem digitsValue_lt_of_natural? {token : Value} {i : ℕ} (h : natural? token = some i)
    (hi : i < listCapacity) {digits : List Char}
    (hdigits : plainDigits? token.asText.toList = some digits) : digitsValue digits < 2 ^ 53 := by
  have hlt : i < 2 ^ 53 := lt_trans hi (by decide)
  have hwhole := natural?_eq_some_iff.mp h
  -- texts and lists count as the number that they read as
  have hread : token.asNumber = Number.ofText token.asText → digitsValue digits < 2 ^ 53 := by
    intro hnumber
    by_contra hlarge
    rw [hnumber, ofText_of_plainDigits? hdigits] at hwhole
    rcases ofChars_large (plainDigits?_spec hdigits).1 (not_lt.mp hlarge) with hinf | ⟨n, hn, -, hint⟩
    · rw [hinf] at hwhole
      cases hwhole
    · rw [hint] at hwhole
      have hni : (n : ℤ) = i := Option.some.inj hwhole
      omega
  rcases token with (_ | b | n | s | m) | items | entries
  · have hnone : plainDigits? "null".toList = none := by decide
    cases hnone.symm.trans hdigits
  · have hnone : plainDigits? (Value.bool b).asText.toList = none := by cases b <;> decide
    cases hnone.symm.trans hdigits
  · rcases n with j | x
    · have hj : j = digitsValue digits := by
        refine whole?_of_intChars ?_
        rwa [Value.asText, Scalar.asText, Number.text, Number.render, String.toList_ofList] at hdigits
      have hji : j = i := Option.some.inj hwhole
      omega
    · rw [digitsValue_of_whole? hwhole (lt_trans hi (by decide)) hdigits]
      exact hlt
  · exact hread rfl
  · cases hwhole
  · exact hread rfl
  · cases hwhole

/-- **A small natural number has few digits**, so it is never refused for its digits. -/
theorem exactIndex?_of_natural? {token : Value} {i : ℕ} (h : natural? token = some i)
    (hi : i < listCapacity) : ∃ found, exactIndex? token = .ok found := by
  unfold exactIndex?
  rcases hdigits : plainDigits? token.asText.toList with _ | digits
  · exact ⟨none, rfl⟩
  · dsimp only
    have hfew : digits.length ≤ integerDigitLimit := by
      refine le_trans ((plainDigits?_spec hdigits).1.length_le (n := 16) ?_ (by decide)) (by decide)
      exact lt_trans (digitsValue_lt_of_natural? h hi hdigits) (by decide)
    rw [if_neg (not_lt.mpr hfew)]
    exact ⟨_, rfl⟩

/-! ### One new container -/

/-- A container whose only entry, null padding aside, is the one under a token. -/
def alone (token part : Value) : Value :=
  if isNumeric token then .list (List.replicate ((natural? token).getD 0) .null ++ [part])
  else .dict [(.text token.asText, part)]

/-- What a write along a path makes out of nothing. -/
def grown : Path → Value → Value
  | [], value => value
  | token :: rest, value => alone token (grown rest value)

theorem emptyFor_numeric {token : Value} (h : isNumeric token = true) :
    emptyFor token = .list [] := by
  unfold emptyFor
  rw [if_pos h]

theorem emptyFor_named {token : Value} (h : isNumeric token = false) : emptyFor token = .dict [] := by
  unfold emptyFor
  rw [h]
  rfl

theorem isContainer_alone (token part : Value) : (alone token part).isContainer = true := by
  unfold alone
  split_ifs
  · rfl
  · rfl

theorem putItem_nil (i : ℕ) (part : Value) : putItem [] i part = List.replicate i .null ++ [part] := by
  unfold putItem
  rw [List.nil_append, List.length_nil, Nat.sub_zero, List.replicate_succ',
    List.set_append_right _ _ (by rw [List.length_replicate]), List.length_replicate, Nat.sub_self]
  rfl

/-- **A new container takes a part under every token that fits**, and holds nothing else. -/
theorem put_emptyFor {token : Value} (h : Fits token) (part : Value) :
    (emptyFor token).put token part = .ok (alone token part) := by
  unfold alone
  cases hnumeric : isNumeric token with
  | true =>
    obtain ⟨i, hi, hlt⟩ := h hnumeric
    have hwrite := writeIndex?_of_natural? hi hlt
    rw [emptyFor_numeric hnumeric, hi, put_list [] hwrite (lt_max_of_lt_right hlt), putItem_nil]
    rfl
  | false =>
    rw [emptyFor_named hnumeric]
    rfl

/-- A new container has no part, and a token that fits is not refused there. -/
theorem exactPart?_emptyFor {token : Value} (h : Fits token) :
    (emptyFor token).exactPart? token = .ok none := by
  cases hnumeric : isNumeric token with
  | true =>
    obtain ⟨i, hi, hlt⟩ := h hnumeric
    obtain ⟨found, hfound⟩ := exactIndex?_of_natural? hi hlt
    rw [emptyFor_numeric hnumeric, exactPart?, hfound]
    cases found <;> rfl
  | false =>
    rw [emptyFor_named hnumeric]
    rfl

/-! ### Tokens that do not fit -/

/-- Why a write into a new list ends at a token; `after` is what follows the token in the path. -/
inductive Refused (token : Value) (after : Path) : Fault → Prop where
  /-- The write would go on under a token with too many digits. -/
  | longDigits {digits : List Char} (hafter : after ≠ []) (hlong : LongDigits token digits) :
      Refused token after (.digitLimit (some digits.length))
  /-- The token is an integer that no double can stand for. -/
  | beyondDoubles (hshort : after ≠ [] → ∀ digits, ¬ LongDigits token digits)
      (hbeyond : token.asNumber.toBinary64? = none) : Refused token after .doubleOverflow
  /-- The token counts as no natural number. -/
  | noIndex (hshort : after ≠ [] → ∀ digits, ¬ LongDigits token digits)
      (hdouble : token.asNumber.toBinary64?.isSome = true) (hnone : natural? token = none) :
      Refused token after (.badListIndex token.asText)
  /-- No list is long enough. -/
  | tooLong {i : ℕ} (hshort : after ≠ [] → ∀ digits, ¬ LongDigits token digits)
      (hdouble : token.asNumber.toBinary64?.isSome = true) (hi : natural? token = some i)
      (hlong : listCapacity ≤ i) : Refused token after (.listTooLong (0x8000000000000000 ≤ i + 1))

/-- A new list takes nothing under a token that does not fit. -/
theorem put_of_not_fits {token : Value} (h : ¬ Fits token) (after : Path)
    (hshort : after ≠ [] → ∀ digits, ¬ LongDigits token digits) :
    ∃ fault, Refused token after fault ∧ ∀ part, (Value.list []).put token part = .error fault := by
  unfold put
  dsimp only
  rcases hdouble : token.asNumber.toBinary64? with _ | x
  · rw [writeIndex?_beyond hdouble]
    exact ⟨_, .beyondDoubles hshort hdouble, fun _ => rfl⟩
  · have hsome : token.asNumber.toBinary64?.isSome = true := by
      rw [hdouble]
      rfl
    rw [writeIndex?_eq hsome]
    rcases hi : natural? token with _ | i
    · exact ⟨_, .noIndex hshort hsome hi, fun _ => rfl⟩
    · have hlong : listCapacity ≤ i := by
        by_contra hlt
        exact h fun _ => ⟨i, hi, not_le.mp hlt⟩
      refine ⟨_, .tooLong hshort hsome hi hlong, fun part => ?_⟩
      dsimp only
      rw [List.length_nil, Nat.zero_max, if_neg (not_lt.mpr hlong), Nat.add_zero]

theorem isNumeric_of_not_fits {token : Value} (h : ¬ Fits token) : isNumeric token = true := by
  by_contra hnumeric
  exact h fun htrue => absurd htrue hnumeric

/-- **A write into a new container ends at a token that does not fit.** -/
theorem setInside_of_not_fits {token : Value} (h : ¬ Fits token) (after : Path) (value : Value) :
    ∃ fault, Refused token after fault ∧
      ((emptyFor token).setInside (token :: after) value).2 = some fault := by
  rw [emptyFor_numeric (isNumeric_of_not_fits h)]
  rcases after with _ | ⟨next, rest⟩
  · obtain ⟨fault, hfault, hput⟩ := put_of_not_fits h [] fun hnil => absurd rfl hnil
    refine ⟨fault, hfault, ?_⟩
    rw [setInside, hput]
  · rw [setInside, exactPart?]
    rcases exactIndex?_cases token with ⟨digits, hlong, herror⟩ | ⟨hshort, found, hfound⟩
    · refine ⟨_, .longDigits (List.cons_ne_nil next rest) hlong, ?_⟩
      rw [herror]
      rfl
    · obtain ⟨fault, hfault, hput⟩ := put_of_not_fits h (next :: rest) fun _ => hshort
      refine ⟨fault, hfault, ?_⟩
      have hnone : (do return (← exactIndex? token).bind fun i => ([] : List Value)[i]?) =
          (.ok none : Except Fault (Option Value)) := by
        rw [hfound]
        cases found <;> rfl
      rw [hnone]
      dsimp only
      rw [putThen, hput]

/-! ### The whole path -/

theorem setInside_singleton {token : Value} (h : Fits token) (value : Value) :
    (emptyFor token).setInside [token] value = (alone token value, none) := by
  rw [setInside, put_emptyFor h]

/-- **One step**: under a token that fits goes what the rest of the path makes. -/
theorem setInside_cons {token : Value} (h : Fits token) (next : Value) (rest : Path)
    (value : Value) :
    (emptyFor token).setInside (token :: next :: rest) value =
      (alone token ((emptyFor next).setInside (next :: rest) value).1,
        ((emptyFor next).setInside (next :: rest) value).2) := by
  rw [setInside, exactPart?_emptyFor h]
  dsimp only
  rw [putThen, put_emptyFor h]
  dsimp only
  rw [putOrKeep_of_put ((put_put (put_emptyFor h _) _).trans (put_emptyFor h _))]

theorem setInside_grown {token : Value} {rest : Path} (h : ∀ t ∈ token :: rest, Fits t)
    (value : Value) :
    (emptyFor token).setInside (token :: rest) value = (grown (token :: rest) value, none) := by
  induction rest generalizing token with
  | nil => exact setInside_singleton (h token (List.mem_cons_self ..)) value
  | cons next rest ih =>
    rw [setInside_cons (h token (List.mem_cons_self ..)),
      ih fun t ht => h t (List.mem_cons_of_mem _ ht)]
    rfl

theorem setInside_refused {token : Value} {rest : Path} (h : ∃ t ∈ token :: rest, ¬ Fits t)
    (value : Value) :
    ∃ before bad after fault, token :: rest = before ++ bad :: after ∧ (∀ t ∈ before, Fits t) ∧
      ¬ Fits bad ∧ Refused bad after fault ∧
      ((emptyFor token).setInside (token :: rest) value).2 = some fault := by
  induction rest generalizing token with
  | nil =>
    obtain ⟨t, ht, hbad⟩ := h
    obtain rfl := List.mem_singleton.mp ht
    obtain ⟨fault, hfault, hset⟩ := setInside_of_not_fits hbad [] value
    exact ⟨[], t, [], fault, rfl, by simp, hbad, hfault, hset⟩
  | cons next rest ih =>
    by_cases hfits : Fits token
    · have hrest : ∃ t ∈ next :: rest, ¬ Fits t := by
        obtain ⟨t, ht, hbad⟩ := h
        exact ⟨t, List.mem_of_ne_of_mem (fun heq => hbad (heq ▸ hfits)) ht, hbad⟩
      obtain ⟨before, bad, after, fault, hpath, hbefore, hbad, hfault, hset⟩ := ih hrest
      refine ⟨token :: before, bad, after, fault, by rw [hpath]; rfl, ?_, hbad, hfault, ?_⟩
      · exact List.forall_mem_cons.mpr ⟨hfits, hbefore⟩
      · rw [setInside_cons hfits]
        exact hset
    · obtain ⟨fault, hfault, hset⟩ := setInside_of_not_fits hfits (next :: rest) value
      exact ⟨[], token, next :: rest, fault, rfl, by simp, hfits, hfault, hset⟩

/-- **What a prefix of the path leads to** is the container that was made for the next token. -/
theorem getAt?_grown {path : Path} (h : ∀ token ∈ path, Fits token) (value : Value) {k : ℕ}
    (hk : k < path.length) :
    (grown path value).getAt? (path.take k) =
      .ok (some (alone path[k] (grown (path.drop (k + 1)) value))) := by
  induction path generalizing k with
  | nil => exact absurd hk (Nat.not_lt_zero k)
  | cons token rest ih =>
    cases k with
    | zero => rfl
    | succ k =>
      have hrest : k < rest.length := Nat.lt_of_succ_lt_succ hk
      have hpart := part?_of_put (put_emptyFor (h token (List.mem_cons_self ..)) (grown rest value))
      have hcontainer : (grown rest value).isContainer = true := by
        obtain ⟨next, tail, rfl⟩ :=
          List.exists_cons_of_length_pos (Nat.zero_lt_of_lt hrest)
        exact isContainer_alone next _
      rw [List.take_succ_cons, grown, getAt?_cons (isContainer_alone token _) hpart,
        decoded_of_isContainer hcontainer, ih (fun t ht => h t (List.mem_cons_of_mem _ ht)) hrest]
      rfl

theorem setAt_of_fits {path : Path} (hpath : path ≠ []) (h : ∀ token ∈ path, Fits token)
    (value : Value) : Value.null.setAt path value = (grown path value, none) := by
  obtain ⟨token, rest, rfl⟩ := List.exists_cons_of_ne_nil hpath
  rw [setAt, setInside_grown h]

theorem setAt_of_refused {path : Path} (h : ∃ token ∈ path, ¬ Fits token) (value : Value) :
    ∃ before bad after fault, path = before ++ bad :: after ∧ (∀ token ∈ before, Fits token) ∧
      ¬ Fits bad ∧ Refused bad after fault ∧
      Value.null.setAt path value = (.null, some fault) := by
  obtain ⟨token, rest, rfl⟩ : ∃ token rest, path = token :: rest :=
    List.exists_cons_of_ne_nil (List.ne_nil_of_mem h.choose_spec.1)
  obtain ⟨before, bad, after, fault, hpath, hbefore, hbad, hfault, hset⟩ :=
    setInside_refused h value
  refine ⟨before, bad, after, fault, hpath, hbefore, hbad, hfault, ?_⟩
  rw [setAt]
  rcases hleft : (emptyFor token).setInside (token :: rest) value with ⟨left, _ | other⟩
  · rw [hleft] at hset
    cases hset
  · rw [hleft] at hset
    rw [Option.some.inj hset]

/-- **Structure from nothing**: a write into a null gets through exactly if every numeric token of
its path counts as a natural number that a list can hold.  Then each prefix of the path leads to a
container with a single entry, null padding aside: a list if the next token is numeric and a
dictionary if it is not, and the next token names the entry.  Otherwise the null stays, and the
first token that does not fit tells the fault. -/
theorem setAt_null {path : Path} (hpath : path ≠ []) (value : Value) :
    ((Value.null.setAt path value).2 = none ↔ ∀ token ∈ path, Fits token) ∧
    ((∀ token ∈ path, Fits token) →
      ∃ created, Value.null.setAt path value = (created, none) ∧
        ∀ k (hk : k < path.length), created.getAt? (path.take k) =
          .ok (some (alone path[k] (grown (path.drop (k + 1)) value)))) ∧
    ((∃ token ∈ path, ¬ Fits token) →
      ∃ before bad after fault, path = before ++ bad :: after ∧ (∀ token ∈ before, Fits token) ∧
        ¬ Fits bad ∧ Refused bad after fault ∧
        Value.null.setAt path value = (.null, some fault)) := by
  refine ⟨⟨fun hthrough => ?_, fun h => ?_⟩, fun h => ?_, fun h => setAt_of_refused h value⟩
  · by_contra hbad
    push Not at hbad
    obtain ⟨_, _, _, _, _, _, _, _, hset⟩ := setAt_of_refused hbad value
    rw [hset] at hthrough
    cases hthrough
  · rw [setAt_of_fits hpath h]
  · exact ⟨_, setAt_of_fits hpath h value, fun k hk => getAt?_grown h value hk⟩

/-- Tokens that are numeric in different ways, around two that are not. -/
def mixedPath : Path := [.text "rows", .text " 0x2 ", .dict [], .list [.bool true], .bool true]

theorem fits_mixedPath : ∀ token ∈ mixedPath, Fits token := by
  have hnone : ∀ token, isNumeric token = false → Fits token := fun token h hnumeric =>
    absurd (hnumeric.symm.trans h) (by decide)
  refine List.forall_mem_cons.mpr ⟨hnone _ rfl, List.forall_mem_cons.mpr ⟨fun _ => ?_,
    List.forall_mem_cons.mpr ⟨hnone _ rfl, List.forall_mem_cons.mpr ⟨hnone _ rfl,
      List.forall_mem_singleton.mpr fun _ => ?_⟩⟩⟩⟩
  · exact ⟨2, rfl, by decide⟩
  · exact ⟨1, rfl, by decide⟩

theorem setAt_null_mixedPath :
    mixedPath ≠ [] ∧ (∀ token ∈ mixedPath, Fits token) ∧
      (Value.null.setAt mixedPath (.int 5)).2 = none :=
  ⟨List.cons_ne_nil _ _, fits_mixedPath,
    (setAt_null (List.cons_ne_nil _ _) (.int 5)).1.mpr fits_mixedPath⟩

/-- An integer below all doubles. -/
def farBelow : Value := .int (-(2 ^ 1024 : ℕ))

/-- **An integer beyond the doubles is refused for its size**, whether it could be an index or not. -/
theorem refused_for_size :
    isNumeric farBelow = true ∧ natural? farBelow = none ∧
      Value.null.setAt [farBelow] (.int 1) = (.null, some .doubleOverflow) ∧
      Fault.doubleOverflow.kind ≠ "IndexPathError" := by
  have hbeyond : farBelow.asNumber.toBinary64? = none :=
    Option.isNone_iff_eq_none.mp (by decide +kernel)
  have hput : (Value.list []).put farBelow (.int 1) = .error .doubleOverflow := by
    unfold put
    dsimp only
    rw [writeIndex?_beyond hbeyond]
  have hnone : ∀ e : ℕ, natural? (.int (-(2 ^ e : ℕ))) = none :=
    fun e => natural?_of_neg (Nat.two_pow_pos e)
  refine ⟨rfl, hnone 1024, ?_, by decide⟩
  rw [setAt, emptyFor_numeric rfl, setInside, hput]

end PipeScript.Proofs.Path.Creation
