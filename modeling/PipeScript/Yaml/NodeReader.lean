import PipeScript.Yaml.Node
import PipeScript.Yaml.Token

/-!
# From tokens to nodes

The grammar of documents.  A node is an alias, or has an anchor and a tag in front of a text or a
container; a container ends with its closing token.  What is left out between two marks is the empty
text.  A text holds one document at most.
-/

namespace PipeScript.Yaml

/-- What is known while nodes are read. -/
structure NodeReader where
  tokens : List Token
  /-- The anchors so far; that of an open container has no node yet, so an alias in it is refused. -/
  anchors : List (String × Option Node)
  /-- What the short names of tags stand for. -/
  handles : List (String × String)
  /-- The number of the next container. -/
  nextNode : Nat

abbrev NodeReading := StateT NodeReader (Except Failure)

namespace NodeReading

def fail {α : Type} : NodeReading α := throw .malformed

/-- The next token. -/
def peek : NodeReading Token := do
  match (← get).tokens with
  | [] => fail
  | .broken failure :: _ => throw failure
  | token :: _ => return token

/-- Passes the next token. -/
def pass : NodeReading Unit :=
  modify fun r => { r with tokens := r.tokens.tail }

/-- A number for a container. -/
def number : NodeReading Nat :=
  modifyGet fun r => (r.nextNode, { r with nextNode := r.nextNode + 1 })

/-- Takes a name for the node that follows; every name is used once. -/
def openAnchor (name : Option String) : NodeReading Unit :=
  match name with
  | none => return
  | some name => do
    if ((← get).anchors.lookup name).isSome then fail
    else modify fun r => { r with anchors := (name, none) :: r.anchors }

/-- Gives the name its node. -/
def closeAnchor (name : Option String) (node : Node) : NodeReading Node := do
  match name with
  | none => return node
  | some name =>
    modify fun r => { r with anchors := (name, some node) :: r.anchors }
    return node

/-- The node that an alias names. -/
def aliased (name : String) : NodeReading Node := do
  match (← get).anchors.lookup name with
  | some (some node) => return node
  | _ => fail

/-- The whole tag of a written one. -/
def wholeTag (tag : WrittenTag) : NodeReading String :=
  match tag.handle with
  | none => return tag.suffix
  | some handle => do
    match (← get).handles.lookup handle with
    | some expansion => return expansion ++ tag.suffix
    | none => fail

/-- An anchor, if one comes next. -/
def takeAnchor : NodeReading (Option String) := do
  match ← peek with
  | .anchor name =>
    pass
    return some name
  | _ => return none

/-- A tag, if one comes next. -/
def takeTag : NodeReading (Option WrittenTag) := do
  match ← peek with
  | .tag tag =>
    pass
    return some tag
  | _ => return none

/-- An anchor and a tag in either order. -/
def takeProperties : NodeReading (Option String × Option WrittenTag) := do
  match ← takeAnchor with
  | some name => return (some name, ← takeTag)
  | none =>
    match ← takeTag with
    | some tag => return (← takeAnchor, some tag)
    | none => return (none, none)

/-- The kind of a container: its tag, unless there is none or one that says nothing. -/
def containerKind (tag : Option String) (natural : Kind) : Kind :=
  match tag with
  | none => natural
  | some tag => if tag == "!" then natural else .ofTag tag

/-- The kind of a text. -/
def scalarKind (tag : Option String) (text : List Char) (plain : Bool) : Kind :=
  match tag with
  | none => if plain then .ofPlain text else .text
  | some tag => if tag == "!" then .ofPlain text else .ofTag tag

/-- Where a node is read. -/
inductive Place where
  | flow
  | block
  /-- An item of a dictionary, which may be a list that is not indented. -/
  | item
  deriving DecidableEq

/-- Whether the next token passes a test. -/
def next (p : Token → Bool) : NodeReading Bool := do
  return p (← peek)

def endsBlockEntry : Token → Bool
  | .blockEntry | .blockEnd => true
  | _ => false

def endsBareEntry : Token → Bool
  | .blockEntry | .key | .value | .blockEnd => true
  | _ => false

def endsBlockItem : Token → Bool
  | .key | .value | .blockEnd => true
  | _ => false

def endsListKey : Token → Bool
  | .value | .flowEntry | .flowListEnd => true
  | _ => false

def endsListItem : Token → Bool
  | .flowEntry | .flowListEnd => true
  | _ => false

def endsDictKey : Token → Bool
  | .value | .flowEntry | .flowDictEnd => true
  | _ => false

def endsDictItem : Token → Bool
  | .flowEntry | .flowDictEnd => true
  | _ => false

def endsFlowList : Token → Bool
  | .flowListEnd => true
  | _ => false

def endsFlowDict : Token → Bool
  | .flowDictEnd => true
  | _ => false

/-- Passes the closing bracket, if it comes next. -/
def takeEnd (ends : Token → Bool) : NodeReading Bool := do
  if ← next ends then
    pass
    return true
  else return false

/-- Passes the comma before every item but the first, and tells whether the closing bracket has been
passed. -/
def takeFlowEnd (first : Bool) (ends : Token → Bool) : NodeReading Bool := do
  if ← takeEnd ends then return true
  else if first then return false
  else
    match ← peek with
    | .flowEntry =>
      pass
      takeEnd ends
    | _ => fail

mutual

/-- Reads a node. -/
def readNode (place : Place) : (fuel : Nat) → NodeReading Node
  | 0 => fail
  | fuel + 1 => do
    match ← peek with
    | .alias name =>
      pass
      aliased name
    | _ =>
      let (anchor, written) ← takeProperties
      let tag ← written.mapM wholeTag
      openAnchor anchor
      match ← peek with
      | .blockEntry =>
        if place = .item then
          let node ← number
          let items ← readBareEntries fuel
          closeAnchor anchor (.list node (containerKind tag .list) items)
        else readBare anchor tag
      | .scalar text plain =>
        pass
        closeAnchor anchor (.scalar (scalarKind tag text plain) text)
      | .flowList =>
        pass
        let node ← number
        let items ← readFlowItems true fuel
        closeAnchor anchor (.list node (containerKind tag .list) items)
      | .flowDict =>
        pass
        let node ← number
        let pairs ← readFlowPairs true fuel
        closeAnchor anchor (.ofPairs node (containerKind tag .dict) pairs)
      | .blockList =>
        if place = .flow then readBare anchor tag
        else
          pass
          let node ← number
          let items ← readBlockEntries fuel
          closeAnchor anchor (.list node (containerKind tag .list) items)
      | .blockDict =>
        if place = .flow then readBare anchor tag
        else
          pass
          let node ← number
          let pairs ← readBlockPairs fuel
          closeAnchor anchor (.ofPairs node (containerKind tag .dict) pairs)
      | _ => readBare anchor tag

/-- A node of an anchor or a tag alone. -/
def readBare (anchor tag : Option String) : NodeReading Node :=
  if anchor.isNone && tag.isNone then fail
  else closeAnchor anchor (.scalar (scalarKind tag [] true) [])

/-- Reads a node unless what comes next shows that it was left out. -/
def readUnless (ends : Token → Bool) (place : Place) : (fuel : Nat) → NodeReading Node
  | 0 => fail
  | fuel + 1 => do
    if ← next ends then return .empty else readNode place fuel

/-- Reads the entries of an indented list. -/
def readBlockEntries : (fuel : Nat) → NodeReading (List Node)
  | 0 => fail
  | fuel + 1 => do
    match ← peek with
    | .blockEntry =>
      pass
      let entry ← readUnless endsBlockEntry .block fuel
      return entry :: (← readBlockEntries fuel)
    | .blockEnd =>
      pass
      return []
    | _ => fail

/-- Reads the entries of a list that is not indented. -/
def readBareEntries : (fuel : Nat) → NodeReading (List Node)
  | 0 => fail
  | fuel + 1 => do
    match ← peek with
    | .blockEntry =>
      pass
      let entry ← readUnless endsBareEntry .block fuel
      return entry :: (← readBareEntries fuel)
    | _ => return []

/-- Reads an item behind its mark, or nothing if there is no mark. -/
def readItem (ends : Token → Bool) (place : Place) : (fuel : Nat) → NodeReading Node
  | 0 => fail
  | fuel + 1 => do
    match ← peek with
    | .value =>
      pass
      readUnless ends place fuel
    | _ => return .empty

/-- Reads the pairs of an indented dictionary. -/
def readBlockPairs : (fuel : Nat) → NodeReading (List (Node × Node))
  | 0 => fail
  | fuel + 1 => do
    match ← peek with
    | .key =>
      pass
      let key ← readUnless endsBlockItem .item fuel
      let item ← readItem endsBlockItem .item fuel
      return (key, item) :: (← readBlockPairs fuel)
    | .blockEnd =>
      pass
      return []
    | _ => fail

/-- Reads the items of a list between brackets; a pair among them is a dictionary of its own. -/
def readFlowItems (first : Bool) : (fuel : Nat) → NodeReading (List Node)
  | 0 => fail
  | fuel + 1 => do
    if ← takeFlowEnd first endsFlowList then return []
    match ← peek with
    | .key =>
      pass
      let node ← number
      let key ← readUnless endsListKey .flow fuel
      let item ← readItem endsListItem .flow fuel
      return .ofPairs node .dict [(key, item)] :: (← readFlowItems false fuel)
    | _ =>
      let item ← readNode .flow fuel
      return item :: (← readFlowItems false fuel)

/-- Reads the pairs of a dictionary between braces; a node without a mark is a key. -/
def readFlowPairs (first : Bool) : (fuel : Nat) → NodeReading (List (Node × Node))
  | 0 => fail
  | fuel + 1 => do
    if ← takeFlowEnd first endsFlowDict then return []
    match ← peek with
    | .key =>
      pass
      let key ← readUnless endsDictKey .flow fuel
      let item ← readItem endsDictItem .flow fuel
      return (key, item) :: (← readFlowPairs false fuel)
    | _ =>
      let key ← readNode .flow fuel
      return (key, .empty) :: (← readFlowPairs false fuel)

end

/-! ### Documents -/

/-- The short names of tags that need no directive. -/
def usualHandles : List (String × String) :=
  [("!", "!"), ("!!", knownTags)]

/-- Reads the directives of a document. -/
def readDirectives : (fuel : Nat) → (versioned : Bool) → (handles : List (String × String)) →
    NodeReading (List (String × String))
  | 0, _, _ => fail
  | fuel + 1, versioned, handles => do
    match ← peek with
    | .directive (.version major) =>
      pass
      if versioned || major ≠ 1 then fail else readDirectives fuel true handles
    | .directive (.shorthand handle expansion) =>
      pass
      if (handles.lookup handle).isSome then fail
      else readDirectives fuel versioned ((handle, expansion) :: handles)
    | .directive .reserved =>
      pass
      readDirectives fuel versioned handles
    | _ => return handles

def endsContent : Token → Bool
  | .directive _ | .documentStart | .documentEnd | .streamEnd => true
  | _ => false

def opensExplicitly : Token → Bool
  | .directive _ | .documentStart => true
  | _ => false

/-- Reads one document. -/
def readDocument (fuel : Nat) : NodeReading Node := do
  if ← next opensExplicitly then
    let handles ← readDirectives fuel false []
    modify fun r => { r with handles := handles ++ usualHandles }
    match ← peek with
    | .documentStart =>
      pass
      readUnless endsContent .block fuel
    | _ => fail
  else readNode .block fuel

/-- Passes the marks that end a document. -/
def passDocumentEnds : (fuel : Nat) → NodeReading Unit
  | 0 => fail
  | fuel + 1 => do
    match ← peek with
    | .documentEnd =>
      pass
      passDocumentEnds fuel
    | _ => return

/-- Reads a text of one document, or of none. -/
def readStream (fuel : Nat) : NodeReading (Option Node) := do
  match ← peek with
  | .streamEnd => return none
  | _ =>
    let node ← readDocument fuel
    passDocumentEnds fuel
    match ← peek with
    | .streamEnd => return some node
    | _ => fail

end NodeReading

/-- The node of a text, and the number of the next container. -/
def nodeOf (tokens : List Token) : Except Failure (Option Node × Nat) := do
  let reader : NodeReader := ⟨tokens, [], NodeReading.usualHandles, 0⟩
  let (node, after) ← (NodeReading.readStream (4 * tokens.length + 8)).run reader
  return (node, after.nextNode)

end PipeScript.Yaml
