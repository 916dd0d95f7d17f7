import PipeScript.Proofs.Decimal.Reading
import PipeScript.Proofs.Json.RoundTrip

/-! # Doubles in JSON

A finite double is written with all its digits, when it is whole and not too great, or as its
shortest decimal (`render_cases`).  The digits are read as an integer, whose text they are; digits
with a point or an exponent are read as the double nearest to the decimal (`readsAs_positional`,
`readsAs_scientific`), which is the double that was written.  So the JSON text of a finite double is
the text of a number that is read from it (`exists_reread`), and it has no other characters than such
texts have (`isNumeral_render`). -/

namespace PipeScript.Proofs.Json.Numerals

open PipeScript.Json PipeScript.Text PipeScript.Decimal
open PipeScript.Proofs.Number.Digits PipeScript.Proofs.Number.Exact
open PipeScript.Proofs.Decimal.Reading PipeScript.Proofs.Json.Scalars
open PipeScript.Proofs.Json.RoundTrip

/-! ### Integers -/

/-- Digits with a minus are the text of an integer that is read from them. -/
theorem exists_reread_digits {n : ℕ} (hn : n ≠ 0) (hlimit : n < tenTo integerDigitLimit)
    (negative : Bool) :
    ∃ m, Reread m ∧ scalarChars (.number m) = minus negative ++ digitChars n := by
  cases negative with
  | true =>
    refine ⟨.int (-n), reread_int ?_, ?_⟩
    · simpa [exceedsDigitLimit] using hlimit
    · rw [scalarChars, Number.intChars, if_pos (by omega), Int.natAbs_neg, Int.natAbs_natCast]
      rfl
  | false =>
    refine ⟨.int n, reread_int ?_, ?_⟩
    · simpa [exceedsDigitLimit] using hlimit
    · rw [scalarChars, Number.intChars, if_neg (by omega), Int.natAbs_natCast]
      rfl

theorem digitChars_zeros {n : ℕ} (hn : n ≠ 0) (k : ℕ) :
    digitChars n ++ List.replicate k '0' = digitChars (n * 10 ^ k) := by
  induction k with
  | zero => simp
  | succ k ih =>
    have hpos : 0 < n * 10 ^ k := Nat.mul_pos (Nat.pos_of_ne_zero hn) (Nat.pow_pos (by decide))
    have hstep : n * 10 ^ (k + 1) = n * 10 ^ k * 10 := by rw [pow_succ, Nat.mul_assoc]
    rw [List.replicate_succ', ← List.append_assoc, ih, hstep,
      digitChars_of_le (n := n * 10 ^ k * 10) (by omega), Nat.mul_div_cancel _ (by decide),
      Nat.mul_mod_left]
    rfl

theorem tenTo_le_limit : tenTo 21 ≤ tenTo integerDigitLimit := by
  have hlimit : 21 ≤ integerDigitLimit := by decide
  generalize integerDigitLimit = limit at hlimit ⊢
  exact Nat.pow_le_pow_right (by decide) hlimit

/-- A number is below the power of ten of the count of its digits. -/
theorem mul_pow_lt {n k limit : ℕ} (h : k + (digitChars n).length ≤ limit) :
    n * 10 ^ k < tenTo limit := by
  have hlt : n < 10 ^ (digitChars n).length := by
    have hvalue := digitsValue_lt fun c (hc : c ∈ digitChars n) => isAsciiDigit_of_mem_digitChars hc
    rwa [digitsValue_digitChars] at hvalue
  calc n * 10 ^ k < 10 ^ (digitChars n).length * 10 ^ k :=
        Nat.mul_lt_mul_of_pos_right hlt (Nat.pow_pos (by decide))
    _ = 10 ^ (k + (digitChars n).length) := by rw [← pow_add, Nat.add_comm]
    _ ≤ tenTo limit := Nat.pow_le_pow_right (by decide) h

/-! ### Decimals -/

/-- The digits of a positive number start with none that is zero. -/
theorem plain_take {n k : ℕ} (hn : n ≠ 0) (hk : k ≠ 0) : Plain ((digitChars n).take k) := by
  have hplain := plain_digitChars n
  obtain ⟨c, tail, hcons, -⟩ := hplain.exists_cons
  obtain ⟨k, rfl⟩ := Nat.exists_eq_succ_of_ne_zero hk
  have hfirst : c ≠ '0' := by
    rintro rfl
    have hlength := hplain.leading (by rw [hcons]; rfl)
    have hvalue := digitsValue_digitChars n
    rw [hcons, List.length_cons] at hlength
    obtain rfl : tail = [] := List.length_eq_zero_iff.mp (by omega)
    rw [hcons] at hvalue
    exact hn hvalue.symm
  refine ⟨?_, fun d hd => hplain.all d (List.mem_of_mem_take hd), fun hhead => ?_⟩
  · rw [hcons]
    exact List.cons_ne_nil _ _
  · rw [hcons] at hhead
    exact absurd (Option.some.inj hhead) hfirst

theorem isAsciiDigit_drop (n k : ℕ) : ∀ c ∈ (digitChars n).drop k, isAsciiDigit c = true :=
  fun _ hc => isAsciiDigit_of_mem_digitChars (List.mem_of_mem_drop hc)

/-- A body is read as a double, whatever follows it. -/
def ReadsAs (body : List Char) (negative : Bool) (x : Binary64) : Prop :=
  ∀ rest, Ends rest →
    readNumber? (minus negative ++ (body ++ rest)) = some (.float x, rest)

section Body

variable {whole fraction : List Char} (hwhole : Plain whole)
  (hfraction : ∀ c ∈ fraction, isAsciiDigit c = true) (negative : Bool)
include hwhole hfraction

theorem readsAs_point (hne : fraction ≠ []) :
    ReadsAs (whole ++ '.' :: fraction) negative
      (.ofDecimal negative (digitsValue (whole ++ fraction)) (-fraction.length)) := by
  intro rest hrest
  have hpoint : ∀ c ∈ ('.' :: (fraction ++ rest)).head?, isAsciiDigit c = false := by
    rintro c ⟨⟩
    decide
  have hbehind := readFraction_digits hne hfraction fun c hc => (hrest c hc).1
  rw [List.append_assoc, List.cons_append,
    readNumber?_parts (readWhole?_plain hwhole hpoint) hbehind (readPower_of_ends hrest),
    if_neg (by simp)]
  unfold Numeral.toBinary64
  simp only [Option.getD_some, Option.getD_none, zero_sub]

theorem readsAs_power {power : List Char} (hpower : Plain power) (negativePower : Bool) :
    ReadsAs (whole ++ (if fraction.isEmpty then [] else '.' :: fraction) ++
        'e' :: powerSign negativePower :: power) negative
      (.ofDecimal negative (digitsValue (whole ++ fraction))
        ((if negativePower then -(digitsValue power : ℤ) else digitsValue power) -
          fraction.length)) := by
  intro rest hrest
  have hhead : ∀ (c : Char) (cs : List Char), isAsciiDigit c = false →
      ∀ d ∈ (c :: cs).head?, isAsciiDigit d = false := by
    rintro c cs hc d ⟨⟩
    exact hc
  have hmark := hhead 'e' (powerSign negativePower :: (power ++ rest)) (by decide)
  have hpoint := hhead '.' (fraction ++ 'e' :: powerSign negativePower :: (power ++ rest))
    (by decide)
  have hbehind := readPower_digits hpower.ne_nil hpower.all (fun c hc => (hrest c hc).1)
    negativePower
  rw [List.append_assoc, List.append_assoc, List.cons_append, List.cons_append]
  by_cases hempty : fraction = []
  · subst hempty
    have hnone : readFraction ('e' :: powerSign negativePower :: (power ++ rest)) =
      (none, 'e' :: powerSign negativePower :: (power ++ rest)) := rfl
    have hread := readNumber?_parts (readWhole?_plain hwhole hmark) hnone hbehind negative
    rwa [if_neg (by simp)] at hread
  · have hsome := readFraction_digits hempty hfraction hmark
    have hread := readNumber?_parts (readWhole?_plain hwhole hpoint) hsome hbehind negative
    rw [if_neg (by simpa using hempty), List.cons_append]
    rwa [if_neg (by simp)] at hread

end Body

section Decimals

variable {d : Decimal} (hd : d.coefficient ≠ 0) (negative : Bool)
include hd

omit negative in
/-- A decimal with a fraction is written with a point among or before its digits. -/
theorem positional_parts (hexp : d.exponent < 0) (wholeTail : List Char) :
    ∃ whole fraction, Plain whole ∧ (∀ c ∈ fraction, isAsciiDigit c = true) ∧ fraction ≠ [] ∧
      d.positional wholeTail = whole ++ '.' :: fraction ∧
      digitsValue (whole ++ fraction) = d.coefficient ∧ -(fraction.length : ℤ) = d.exponent := by
  have hplain := plain_digitChars d.coefficient
  obtain ⟨places, hplaces⟩ : ∃ places : ℕ, d.exponent = -places :=
    ⟨(-d.exponent).toNat, by omega⟩
  unfold Decimal.positional
  dsimp only
  rw [if_neg (not_le.mpr hexp), hplaces, neg_neg, Int.toNat_natCast]
  split_ifs with hamong
  · set front := (digitChars d.coefficient).length - places with hfront
    have hlength : ((digitChars d.coefficient).drop front).length = places := by
      rw [List.length_drop]
      omega
    refine ⟨_, _, plain_take hd (by omega : front ≠ 0), isAsciiDigit_drop d.coefficient front,
      List.length_pos_iff.mp (by omega), rfl, ?_, ?_⟩
    · rw [List.take_append_drop, digitsValue_digitChars]
    · rw [hlength]
  · set zeros := List.replicate (places - (digitChars d.coefficient).length) '0' with hzeros
    have hlength : (zeros ++ digitChars d.coefficient).length = places := by
      rw [hzeros, List.length_append, List.length_replicate]
      omega
    have hvalue : digitsValue (['0'] ++ (zeros ++ digitChars d.coefficient)) = d.coefficient := by
      have hzero : digitsValue ['0'] = 0 := by decide
      rw [digitsValue_append, digitsValue_append, hzeros, digitsValue_zeros,
        digitsValue_digitChars, hzero, zero_mul, zero_mul, zero_add, zero_add]
    have hdigits : ∀ c ∈ zeros ++ digitChars d.coefficient, isAsciiDigit c = true := by
      intro c hc
      rcases List.mem_append.mp hc with hc | hc
      · rw [List.eq_of_mem_replicate hc]
        decide
      · exact hplain.all c hc
    refine ⟨['0'], _, plain_digitChars 0, hdigits, List.length_pos_iff.mp (by omega), rfl, hvalue, ?_⟩
    rw [hlength]

/-- The digits before and after the point are read as the decimal. -/
theorem readsAs_positional (hexp : d.exponent < 0) (wholeTail : List Char) :
    ReadsAs (d.positional wholeTail) negative
      (.ofDecimal negative d.coefficient d.exponent) := by
  obtain ⟨whole, fraction, hwhole, hfraction, hne, hbody, hvalue, hlength⟩ :=
    positional_parts hd hexp wholeTail
  have hread := readsAs_point hwhole hfraction negative hne
  rwa [← hbody, hvalue, hlength] at hread

/-- Digits with an exponent behind them. -/
theorem readsAs_scientific :
    ReadsAs (d.scientific 1) negative (.ofDecimal negative d.coefficient d.exponent) := by
  have hplain := plain_digitChars d.coefficient
  have hpower := plain_digitChars d.leadingExponent.natAbs
  have hpad : 1 - (digitChars d.leadingExponent.natAbs).length = 0 := by
    have hpos := List.length_pos_iff.mpr hpower.ne_nil
    omega
  have hsign : powerSign (decide (d.leadingExponent < 0)) =
      if d.leadingExponent < 0 then '-' else '+' := by
    unfold powerSign
    simp only [decide_eq_true_eq]
  have hvalue : (if decide (d.leadingExponent < 0) = true then
      -((d.leadingExponent.natAbs : ℕ) : ℤ) else d.leadingExponent.natAbs) -
        ((digitChars d.coefficient).drop 1).length = d.exponent := by
    have hlength := List.length_pos_iff.mpr hplain.ne_nil
    rw [List.length_drop]
    simp only [decide_eq_true_eq]
    unfold Decimal.leadingExponent
    split_ifs <;> omega
  have hread := readsAs_power (plain_take hd Nat.one_ne_zero)
    (isAsciiDigit_drop d.coefficient 1) negative hpower (decide (d.leadingExponent < 0))
  rw [List.take_append_drop, digitsValue_digitChars, digitsValue_digitChars, hvalue, hsign] at hread
  unfold Decimal.scientific
  dsimp only
  rwa [hpad, List.replicate_zero, List.nil_append]

end Decimals

/-! ### Doubles -/

section Double

variable {negative : Bool} {mantissa : ℕ} {exponent : ℤ}
  {canonical : Binary64.Canonical mantissa exponent}

/-- A whole double that is not zero is no zero when its fraction is cut off. -/
theorem truncate?_ne_zero (h0 : mantissa ≠ 0)
    (hwhole : (Binary64.finite negative mantissa exponent canonical).isInteger = true) {i : ℤ}
    (hi : (Binary64.finite negative mantissa exponent canonical).truncate? = some i) : i ≠ 0 := by
  have hvalue : (Number.float (.finite negative mantissa exponent canonical)).whole? = some i := by
    rw [Number.whole?, if_pos hwhole, hi]
  obtain ⟨d, hd, hnumerator⟩ := whole?_float_iff.mp hvalue
  rintro rfl
  have hsigned : Binary64.signed negative mantissa ≠ 0 := by
    have habs := natAbs_signed negative mantissa
    omega
  rw [zero_mul] at hnumerator
  unfold Binary64.dyadic? at hd
  dsimp only at hd
  split_ifs at hd
  · cases hd
    exact Int.mul_ne_zero hsigned (mod_cast (Nat.two_pow_pos _).ne') hnumerator
  · cases hd
    exact hsigned hnumerator

/-- The text of a double: its digits behind a sign. -/
theorem render_eq (h0 : mantissa ≠ 0) (layout : NumberLayout) :
    (layout.render (.finite negative mantissa exponent canonical)).toList = minus negative ++
      match (Binary64.finite negative mantissa exponent canonical).truncate? with
      | some whole =>
        if layout.exactWhole &&
            (Binary64.finite negative mantissa exponent canonical).isInteger &&
            whole.natAbs < tenTo 21 then
          digitChars whole.natAbs
        else layout.digits (shortest mantissa exponent)
      | none => layout.digits (shortest mantissa exponent) := by
  have hsign : ∀ cs : List Char, ((if negative then "-" else "") ++ String.ofList cs).toList =
      minus negative ++ cs := by
    intro cs
    rw [String.toList_append, String.toList_ofList]
    cases negative <;> rfl
  unfold NumberLayout.render
  dsimp only
  rw [if_neg h0]
  generalize (if negative then "-" else "") = sign at hsign ⊢
  generalize (Binary64.finite negative mantissa exponent canonical).truncate? = cut
  cases cut with
  | none => exact hsign _
  | some whole =>
    dsimp only
    split_ifs
    · exact hsign _
    · exact hsign _

/-- **The two ways in which a double is written**: with all its digits, or as its shortest
decimal. -/
theorem render_cases (h0 : mantissa ≠ 0) :
    (∃ n, n ≠ 0 ∧ n < tenTo 21 ∧
      (NumberLayout.host.render (.finite negative mantissa exponent canonical)).toList =
        minus negative ++ digitChars n) ∨
      (NumberLayout.host.render (.finite negative mantissa exponent canonical)).toList =
        minus negative ++ NumberLayout.host.digits (shortest mantissa exponent) := by
  rw [render_eq h0]
  split
  · next whole hwhole =>
    split_ifs with hexact
    · rw [Bool.and_eq_true, Bool.and_eq_true, decide_eq_true_eq] at hexact
      have hne := truncate?_ne_zero h0 hexact.1.2 hwhole
      exact .inl ⟨whole.natAbs, Int.natAbs_ne_zero.mpr hne, hexact.2, rfl⟩
    · exact .inr rfl
  · exact .inr rfl

/-- A double whose text is read as itself. -/
theorem exists_reread_readsAs {body : List Char}
    (hbody : ReadsAs body negative (.finite negative mantissa exponent canonical))
    (htext : (NumberLayout.host.render (.finite negative mantissa exponent canonical)).toList =
      minus negative ++ body) :
    ∃ n, Reread n ∧ scalarChars (.number n) = minus negative ++ body := by
  have hchars : scalarChars (.number (.float (.finite negative mantissa exponent canonical))) =
      minus negative ++ body := htext
  refine ⟨_, fun rest hrest => ?_, hchars⟩
  rw [hchars, List.append_assoc]
  exact hbody rest hrest

/-- The text of the shortest decimal is the text of a number that is read from it. -/
theorem exists_reread_shortest (h0 : mantissa ≠ 0)
    (htext : (NumberLayout.host.render (.finite negative mantissa exponent canonical)).toList =
      minus negative ++ NumberLayout.host.digits (shortest mantissa exponent)) :
    ∃ n, Reread n ∧ scalarChars (.number n) =
      minus negative ++ NumberLayout.host.digits (shortest mantissa exponent) := by
  have hd := coefficient_shortest_ne_zero canonical (Nat.pos_of_ne_zero h0)
  have hback := ofDecimal_shortest canonical (Nat.pos_of_ne_zero h0) negative
  generalize shortest mantissa exponent = d at hd hback htext ⊢
  unfold NumberLayout.digits at htext ⊢
  split_ifs at htext ⊢ with hrange
  · rcases lt_or_ge d.exponent 0 with hexp | hexp
    · have hread := readsAs_positional hd negative hexp NumberLayout.host.wholeTail.toList
      rw [hback] at hread
      exact exists_reread_readsAs hread htext
    · obtain ⟨k, hk⟩ := Int.eq_ofNat_of_zero_le hexp
      have hbody : d.positional NumberLayout.host.wholeTail.toList =
          digitChars (d.coefficient * 10 ^ k) := by
        unfold Decimal.positional
        dsimp only
        rw [if_pos hexp, hk, Int.toNat_natCast, digitChars_zeros hd]
        exact List.append_nil _
      rw [hbody]
      have hlength := hrange.2
      unfold Decimal.leadingExponent at hlength
      have hbelow : (NumberLayout.host).positionalBelow = 21 := rfl
      rw [hbelow, hk] at hlength
      refine exists_reread_digits (Nat.mul_ne_zero hd (Nat.pow_pos (by decide)).ne') ?_ negative
      exact lt_of_lt_of_le (mul_pow_lt (by omega)) tenTo_le_limit
  · have hread := readsAs_scientific hd negative
    rw [hback] at hread
    exact exists_reread_readsAs hread htext

end Double

/-- **The JSON text of a finite double** is the text of a number that is read from it. -/
theorem exists_reread {x : Binary64} (h : x.isFinite = true) :
    ∃ n, Reread n ∧ scalarChars (.number n) = scalarChars (.number (.float x)) := by
  have hchars : scalarChars (.number (.float x)) = (NumberLayout.host.render x).toList := by
    rw [scalarChars, if_pos h]
  rw [hchars]
  rcases x with _ | negative | ⟨negative, mantissa, exponent, canonical⟩
  · cases h
  · cases h
  · by_cases h0 : mantissa = 0
    · subst h0
      refine ⟨.int 0, reread_int (by decide +kernel), ?_⟩
      unfold NumberLayout.render
      dsimp only
      rw [if_pos rfl, if_pos (by rfl)]
      rfl
    · rcases render_cases h0 with ⟨n, hn, hlimit, htext⟩ | htext
      · rw [htext]
        exact exists_reread_digits hn (lt_of_lt_of_le hlimit tenTo_le_limit) negative
      · rw [htext]
        exact exists_reread_shortest h0 htext

/-! ### The characters of a double -/

/-- A character that doubles are written with. -/
def isNumeral (c : Char) : Bool :=
  isAsciiDigit c || ['-', '+', '.', 'e'].contains c

theorem isNumeral_digitChars (n : ℕ) : ∀ c ∈ digitChars n, isNumeral c = true := fun c hc => by
  rw [isNumeral, isAsciiDigit_of_mem_digitChars hc, Bool.true_or]

theorem isNumeral_zeros (n : ℕ) : ∀ c ∈ List.replicate n '0', isNumeral c = true := fun c hc => by
  rw [List.eq_of_mem_replicate hc]
  decide

theorem isNumeral_minus (negative : Bool) : ∀ c ∈ minus negative, isNumeral c = true := by
  cases negative with
  | false => exact List.forall_mem_nil _
  | true => exact List.forall_mem_singleton.mpr (by decide)

theorem isNumeral_positional (d : Decimal) : ∀ c ∈ d.positional [], isNumeral c = true := by
  have hdigits := isNumeral_digitChars d.coefficient
  unfold Decimal.positional
  dsimp only
  split_ifs
  · rw [List.append_nil]
    exact List.forall_mem_append.mpr ⟨hdigits, isNumeral_zeros _⟩
  · refine List.forall_mem_append.mpr ⟨fun c hc => hdigits c (List.mem_of_mem_take hc), ?_⟩
    exact List.forall_mem_cons.mpr ⟨by decide, fun c hc => hdigits c (List.mem_of_mem_drop hc)⟩
  · refine List.forall_mem_append.mpr ⟨?_, hdigits⟩
    exact List.forall_mem_cons.mpr ⟨by decide, List.forall_mem_cons.mpr
      ⟨by decide, isNumeral_zeros _⟩⟩

theorem isNumeral_scientific (d : Decimal) (minDigits : ℕ) :
    ∀ c ∈ d.scientific minDigits, isNumeral c = true := by
  have hdigits := isNumeral_digitChars d.coefficient
  have hpower := isNumeral_digitChars d.leadingExponent.natAbs
  unfold Decimal.scientific
  dsimp only
  refine List.forall_mem_append.mpr ⟨List.forall_mem_append.mpr
    ⟨fun c hc => hdigits c (List.mem_of_mem_take hc), ?_⟩, ?_⟩
  · split_ifs
    · exact List.forall_mem_nil _
    · exact List.forall_mem_cons.mpr ⟨by decide, fun c hc => hdigits c (List.mem_of_mem_drop hc)⟩
  · refine List.forall_mem_cons.mpr ⟨by decide, List.forall_mem_cons.mpr ⟨?_, ?_⟩⟩
    · split_ifs <;> decide
    · exact List.forall_mem_append.mpr ⟨isNumeral_zeros _, hpower⟩

/-- **A finite double is written with digits, signs, points and the mark of an exponent.** -/
theorem isNumeral_render {x : Binary64} (h : x.isFinite = true) :
    ∀ c ∈ (NumberLayout.host.render x).toList, isNumeral c = true := by
  rcases x with _ | negative | ⟨negative, mantissa, exponent, canonical⟩
  · cases h
  · cases h
  · by_cases h0 : mantissa = 0
    · unfold NumberLayout.render
      dsimp only
      rw [if_pos h0, if_pos (by rfl)]
      exact List.forall_mem_singleton.mpr (by decide)
    · rcases render_cases h0 with ⟨n, -, -, htext⟩ | htext
      · rw [htext]
        exact List.forall_mem_append.mpr ⟨isNumeral_minus _, isNumeral_digitChars n⟩
      · rw [htext]
        refine List.forall_mem_append.mpr ⟨isNumeral_minus _, ?_⟩
        unfold NumberLayout.digits
        split_ifs
        · exact isNumeral_positional _
        · exact isNumeral_scientific _ _

end PipeScript.Proofs.Json.Numerals
