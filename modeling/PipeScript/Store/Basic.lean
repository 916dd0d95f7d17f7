import PipeScript.Store.Shared
import PipeScript.Value.Literal

/-!
# The variable store

Local variables belong to one chat, global ones persist.  Commands store texts; documents may seed a
variable with a list or a dictionary, which stays shared while the variable holds it.  The store keeps
the writes made inside shared values, so that a loop which took its items before such a write finds
them as they are now (`Store.current`).
-/

namespace PipeScript

/-- The local and the global variables. -/
structure Store where
  locals : Entries Shared
  globals : Entries Shared
  /-- The shared values that were written inside, latest first. -/
  revisions : List Shared
  /-- The number of the next container. -/
  nextNode : Nat

namespace Store

def empty : Store := ⟨[], [], [], 0⟩

/-- A store of given variables, each with containers of its own. -/
def ofEntries (locals globals : Entries Value) : Store :=
  let build : StateM Nat (Entries Shared × Entries Shared) := do
    return (← Shared.numberEntries locals, ← Shared.numberEntries globals)
  let ((locals, globals), nextNode) := build.run 0
  ⟨locals, globals, [], nextNode⟩

def hasLocal (store : Store) (name : String) : Bool :=
  (store.locals.get? (.text name)).isSome

def hasGlobal (store : Store) (name : String) : Bool :=
  (store.globals.get? (.text name)).isSome

/-- What a local variable holds; null when there is none. -/
def readLocal (store : Store) (name : String) : Shared :=
  (store.locals.get? (.text name)).getD (.plain .null)

/-- What a global variable holds; null when there is none. -/
def readGlobal (store : Store) (name : String) : Shared :=
  (store.globals.get? (.text name)).getD (.plain .null)

def writeLocal (store : Store) (name text : String) : Store :=
  { store with locals := store.locals.insert (.text name) (.plain (.text text)) }

def writeGlobal (store : Store) (name text : String) : Store :=
  { store with globals := store.globals.insert (.text name) (.plain (.text text)) }

def deleteLocal (store : Store) (name : String) : Store :=
  { store with locals := store.locals.erase (.text name) }

/-- The local variables as values. -/
def localValues (store : Store) : Entries Value :=
  store.locals.mapItems Shared.toValue

/-- The global variables as values. -/
def globalValues (store : Store) : Entries Value :=
  store.globals.mapItems Shared.toValue

/-- Writes a value of any kind under a local name, with containers of its own. -/
def putLocal (store : Store) (name : String) (v : Value) : Store :=
  let (item, nextNode) := (Shared.number v).run store.nextNode
  { store with locals := store.locals.insert (.text name) item, nextNode }

/-- Writes a value of any kind under a global name, with containers of its own. -/
def putGlobal (store : Store) (name : String) (v : Value) : Store :=
  let (item, nextNode) := (Shared.number v).run store.nextNode
  { store with globals := store.globals.insert (.text name) item, nextNode }

/-- The store after a write along a path turned the value of `old` into `new`.  A write into a plain
value is no one else's concern. -/
def revise (store : Store) (old : Shared) (new : Value) (path : Path) : Store :=
  match old with
  | .plain _ => store
  | old =>
    let (tree, nextNode) := (old.revise new path).run store.nextNode
    { locals := store.locals.mapItems tree.adopt
      globals := store.globals.mapItems tree.adopt
      revisions := tree :: store.revisions
      nextNode }

/-- A shared value, taken from the store some time ago, as it is now. -/
def current (store : Store) (item : Shared) : Shared :=
  store.revisions.foldr Shared.adopt item

/-- The store as a literal. -/
def literal (store : Store) : String :=
  "VariableStore(local=" ++ (Value.dict store.localValues).literal ++ ", global_=" ++
    (Value.dict store.globalValues).literal ++ ")"

end Store

end PipeScript
