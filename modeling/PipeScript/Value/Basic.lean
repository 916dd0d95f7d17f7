import PipeScript.Number.Basic
import PipeScript.Value.Moment

/-!
# Values

What variables hold and commands exchange: scalars, lists, and dictionaries that keep the order of
their entries.  Keys are scalars; data that commands build has text keys only, and documents may bring
others.
-/

namespace PipeScript

/-- A value without parts. -/
inductive Scalar where
  | null
  | bool (b : Bool)
  | number (n : Number)
  | text (s : String)
  | moment (m : Moment)
  deriving DecidableEq

namespace Scalar

/-- The number that a key counts as. -/
def keyNumber? : Scalar → Option Number
  | .bool b => some (.int (if b then 1 else 0))
  | .number n => some n
  | _ => none

/-- Two keys name the same entry: texts by their characters, numbers and booleans by their numeric
value. -/
def sameKey (a b : Scalar) : Bool :=
  match a.keyNumber?, b.keyNumber? with
  | some m, some n => m.eq n || (m.isNaN && n.isNaN)
  | none, none => a == b
  | _, _ => false

@[simp] theorem sameKey_text (s t : String) : (Scalar.text s).sameKey (.text t) = (s == t) := by
  rw [Bool.eq_iff_iff]
  simp [sameKey, keyNumber?]

end Scalar

/-- A value. -/
inductive Value where
  | scalar (s : Scalar)
  | list (items : List Value)
  | dict (entries : List (Scalar × Value))

namespace Value

/-- The value that stands for the lack of one. -/
@[match_pattern] abbrev null : Value := .scalar .null

@[match_pattern] abbrev bool (b : Bool) : Value := .scalar (.bool b)

@[match_pattern] abbrev number (n : Number) : Value := .scalar (.number n)

@[match_pattern] abbrev int (i : Int) : Value := .scalar (.number (.int i))

@[match_pattern] abbrev text (s : String) : Value := .scalar (.text s)

instance : Inhabited Value := ⟨.null⟩

def isNull : Value → Bool
  | .null => true
  | _ => false

def isContainer : Value → Bool
  | .scalar _ => false
  | _ => true

end Value

/-- Entries of a dictionary, first to last. -/
abbrev Entries (α : Type) := List (Scalar × α)

namespace Entries

variable {α β : Type}

/-- The item under a key. -/
def get? (key : Scalar) : Entries α → Option α
  | [] => none
  | (k, x) :: rest => if k.sameKey key then some x else get? key rest

/-- Puts an item under a key: in the place of the key when it is known, else at the end. -/
def insert (key : Scalar) (item : α) : Entries α → Entries α
  | [] => [(key, item)]
  | (k, x) :: rest => if k.sameKey key then (k, item) :: rest else (k, x) :: insert key item rest

/-- Removes the entry of a key. -/
def erase (key : Scalar) : Entries α → Entries α
  | [] => []
  | (k, x) :: rest => if k.sameKey key then rest else (k, x) :: erase key rest

/-- The entries of a list of pairs; a repeated key keeps its first place and its last item. -/
def ofPairs (pairs : List (Scalar × α)) : Entries α :=
  pairs.foldl (fun entries (k, x) => insert k x entries) []

def mapItems (f : α → β) (entries : Entries α) : Entries β :=
  entries.map fun (k, x) => (k, f x)

end Entries

end PipeScript
