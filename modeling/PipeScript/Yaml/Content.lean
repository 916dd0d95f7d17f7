import PipeScript.Store.Shared
import PipeScript.Text.Case
import PipeScript.Yaml.Layout
import PipeScript.Yaml.NodeReader

/-!
# What a document denotes

The value of a node by its kind.  A text can be tagged with a kind whose form it has not; then the
document is refused with the reason.  Of several reasons the one that lies in the outermost container
counts, and among those in one container the first.
-/

namespace PipeScript.Yaml

open Text

/-! ### Texts -/

def refuse {α : Type} (fault : DocumentFault) : Except Failure α :=
  .error (.meaningless (.document fault))

/-- The digits of every script as ASCII digits. -/
def plainDigits (cs : List Char) : List Char :=
  cs.map fun c => if isDigit c then Char.ofNat (48 + anyDigitValue c) else c

/-- The letter that announces a base after a leading zero. -/
def baseMark? (base : Nat) : Option Char :=
  [(2, 'b'), (8, 'o'), (16, 'x')].lookup base

/-- Removes the announcement of a base. -/
def withoutBaseMark (base : Nat) (cs : List Char) : List Char :=
  match cs with
  | '0' :: mark :: rest => if baseMark? base == some mark.toLower then rest else cs
  | _ => cs

/-- Reads an integer in a base, with an optional sign, between blanks.  In base ten the number of
digits is limited. -/
def readInteger (base : Nat) (cs : List Char) : Except Failure Int :=
  let (negative, body) := splitSign (plainDigits (stripChars cs))
  let digits := withoutBaseMark base body
  let decimals := (digits.takeWhile isAsciiDigit).length
  if base = 10 && decimals > integerDigitLimit then
    .error (.meaningless (.digitLimit (some decimals)))
  else
    match digits, radixValue? base digits with
    | _ :: _, some n => .ok (if negative then -(n : Int) else n)
    | _, _ => refuse (.notAnInteger base (String.ofList cs))

/-- Reads a text tagged as an integer. -/
def readTaggedInteger (cs : List Char) : Except Failure Int := do
  let cs := cs.filter (· != '_')
  let (negative, body) := splitSign cs
  let magnitude ←
    match body with
    | [] => refuse .emptyNumber
    | '0' :: 'b' :: digits => readInteger 2 digits
    | '0' :: 'x' :: digits => readInteger 16 digits
    | ['0'] => .ok 0
    | '0' :: _ => readInteger 8 body
    | _ =>
      if body.contains ':' then do
        let parts ← (cutAtChar ':' body).mapM (readInteger 10)
        pure (parts.foldl (fun n part => 60 * n + part) 0)
      else readInteger 10 body
  return if negative then -magnitude else magnitude

/-- Reads a double between blanks. -/
def readDouble (cs : List Char) : Except Failure Binary64 :=
  let body := plainDigits (stripChars cs)
  let (negative, word) := splitSign body
  let word := String.ofList (word.map Char.toLower)
  if word = "inf" || word = "infinity" then .ok (.infinite negative)
  else if word = "nan" then .ok .nan
  else
    match Numeral.read? body with
    | some numeral => .ok numeral.toBinary64
    | none => refuse (.notADouble (String.ofList cs))

/-- Adds digits of base sixty, the last one first, each times its weight. -/
def sumSixties : (weight : Int) → (sum : Binary64) → List Binary64 → Except Failure Binary64
  | _, sum, [] => .ok sum
  | weight, sum, digit :: rest =>
    match (Number.int weight).toBinary64? with
    | some w => sumSixties (60 * weight) (sum.add (digit.mul w)) rest
    | none => .error (.meaningless .doubleOverflow)

/-- Reads a text tagged as a double. -/
def readTaggedDouble (cs : List Char) : Except Failure Binary64 := do
  let cs := (lower (String.ofList (cs.filter (· != '_')))).toList
  if cs.isEmpty then refuse .emptyNumber
  else
    let (negative, body) := splitSign cs
    let magnitude ←
      if body = ".inf".toList then .ok (.infinite false)
      else if body = ".nan".toList then .ok .nan
      else if body.contains ':' then do
        let parts ← (cutAtChar ':' body).mapM readDouble
        sumSixties 1 (.zero false) parts.reverse
      else readDouble body
    return if negative then magnitude.neg else magnitude

/-- Reads a text tagged as a boolean. -/
def readTaggedBool (cs : List Char) : Except Failure Bool :=
  let word := lower (String.ofList cs)
  match boolWords.lookup word with
  | some b => .ok b
  | none => refuse (.notABoolean word)

/-- Reads a text tagged as a timestamp. -/
def readTaggedMoment (cs : List Char) : Except Failure Moment :=
  match Timestamp.read? (withoutFinalFeed cs) with
  | none => refuse .notATimestamp
  | some t =>
    match t.moment with
    | .ok moment => .ok moment
    | .error fault => refuse (.calendar fault)

/-- The value of a text of a kind. -/
def scalarOf (kind : Kind) (cs : List Char) : Except Failure Scalar :=
  match kind with
  | .null => .ok .null
  | .bool => (readTaggedBool cs).map .bool
  | .int => (readTaggedInteger cs).map fun i => .number (.int i)
  | .float => (readTaggedDouble cs).map fun x => .number (.float x)
  | .moment => (readTaggedMoment cs).map .moment
  | .text => .ok (.text (String.ofList cs))
  | .list | .dict | .merge | .standIn | .unknown => .error .malformed

/-! ### Containers -/

/-- A result, or a failure with the depth of the container it lies in. -/
abbrev Built (α : Type) := Except (Nat × Failure) α

/-- Combines two results; of two failures the outer one counts, and the first of one depth. -/
def Built.both {α β γ : Type} (f : α → β → γ) : Built α → Built β → Built γ
  | .ok x, .ok y => .ok (f x y)
  | .error e, .ok _ => .error e
  | .ok _, .error e => .error e
  | .error d, .error e => .error (if e.1 < d.1 then e else d)

/-- Kinds whose values have no parts. -/
def Kind.isSimple : Kind → Bool
  | .null | .bool | .int | .float | .moment | .text => true
  | _ => false

namespace Node

/-- The text that stands for a dictionary: that of its first stand-in item. -/
def standIn? : List (Node × Node) → Option (List Char)
  | [] => none
  | (.scalar .standIn _, .scalar _ text) :: _ => some text
  | _ :: rest => standIn? rest

/-- The value of a node that denotes one without parts, in a container of a depth. -/
def scalarAt (depth : Nat) (node : Node) : Built Scalar :=
  let result :=
    match node with
    | .scalar kind text => scalarOf kind text
    | .dict _ kind pairs =>
      match standIn? pairs with
      | some text => if kind.isSimple then scalarOf kind text else .error .malformed
      | none => .error .malformed
    | _ => .error .malformed
  result.mapError fun failure => (depth, failure)

/-- The value of a key; only values without parts can be keys. -/
def keyAt (depth : Nat) (node : Node) : Built Scalar :=
  match node with
  | .scalar .standIn text => .ok (.text (String.ofList text))
  | node => node.scalarAt depth

mutual

/-- The value of a node in a container of a depth. -/
def valueAt (depth : Nat) : Node → Built Shared
  | .scalar kind text =>
    if kind = .list || kind = .dict then .error (depth + 1, .malformed)
    else (scalarAt depth (.scalar kind text)).map fun s => .plain (.scalar s)
  | .list node kind items =>
    if kind = .list then (itemsAt (depth + 1) items).map (.list node)
    else .error (if kind = .dict then depth + 1 else depth, .malformed)
  | .dict node kind pairs =>
    if kind = .dict then
      (pairsAt (depth + 1) pairs).map fun entries => .dict node (Entries.ofPairs entries)
    else if kind = .list then .error (depth + 1, .malformed)
    else (scalarAt depth (.dict node kind pairs)).map fun s => .plain (.scalar s)
  | .unmergeable => .error (depth + 1, .malformed)

def itemsAt (depth : Nat) : List Node → Built (List Shared)
  | [] => .ok []
  | item :: rest => Built.both List.cons (valueAt depth item) (itemsAt depth rest)

def pairsAt (depth : Nat) : List (Node × Node) → Built (List (Scalar × Shared))
  | [] => .ok []
  | (key, item) :: rest =>
    Built.both List.cons (Built.both Prod.mk (keyAt depth key) (valueAt depth item))
      (pairsAt depth rest)

end

end Node

/-- The value of a text that is a document; its containers are numbered below the number given.  This
is one reader of YAML; no document has to be read with it. -/
def read (text : String) : Except Failure (Shared × Nat) := do
  match ← nodeOf (tokens text.toList) with
  | (none, nextNode) => return (.plain .null, nextNode)
  | (some node, nextNode) =>
    match node.valueAt 0 with
    | .ok value => return (value, nextNode)
    | .error (_, failure) => .error failure

end PipeScript.Yaml
