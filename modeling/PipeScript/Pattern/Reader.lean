import PipeScript.Pattern.Escape

/-!
# Reading patterns

The grammar of patterns: alternatives of sequences of parts, each of which may be repeated.  A
complaint names the position of the token it is about.  Every step takes a token, so the number of
tokens bounds the recursion.
-/

namespace PipeScript

namespace Pattern

open Reading

/-- A part of a sequence; a part in parentheses can always be repeated. -/
structure Part where
  node : Node
  enclosed : Bool

def Part.isAnchor (p : Part) : Bool :=
  match p.enclosed, p.node with
  | false, .anchor _ => true
  | _, _ => false

def Part.isLoop (p : Part) : Bool :=
  match p.enclosed, p.node with
  | false, .loop .. => true
  | _, _ => false

/-- The sequence of parts given last to first. -/
def sequenceOf (parts : List Part) : Node :=
  parts.foldl (fun node part =>
    match node with
    | .empty => part.node
    | node => .seq part.node node) .empty

/-- The alternatives in order. -/
def alternativesOf : List Node → Node
  | [] => .empty
  | [node] => node
  | node :: rest => .alt node (alternativesOf rest)

/-! ### Character sets -/

/-- Reads one end of a range or a single member. -/
def readMember (ascii : Bool) : Token → Reading Member
  | .plain c => return .point c.toNat
  | .escape c => readSetEscape ascii c
  | .dangling => return .point '\\'.toNat

/-- The range between two members, spelled by two tokens. -/
def rangeOf (first last : Token) : Member → Member → Reading Member
  | .point low, .point high =>
    if high < low then complain else return .range low high
  | _, _ => complain
where
  complain : Reading Member :=
    failBack ("bad character range " ++ first.text ++ "-" ++ last.text)
      (first.chars.length + 1 + last.chars.length)

/-- Reads the members of a set that was opened at a position, up to and with its bracket. -/
def readMembers (ascii : Bool) (start : Nat) : (fuel : Nat) → (members : List Member) →
    Reading (List Member)
  | 0, members => return members
  | fuel + 1, members => do
    match ← next? with
    | none => fail "unterminated character set" start
    | some token =>
      if token = .plain ']' && !members.isEmpty then return members
      else
        let member ← readMember ascii token
        if ← accept '-' then
          match ← next? with
          | none => fail "unterminated character set" start
          | some last =>
            if last = .plain ']' then return members ++ [member, .point '-'.toNat]
            else
              let other ← readMember ascii last
              readMembers ascii start fuel (members ++ [← rangeOf token last member other])
        else readMembers ascii start fuel (members ++ [member])

/-- Reads a character set after its opening bracket. -/
def readSet : Reading Node := do
  let start := (← position) - 1
  let mode := (← get).mode
  let negated ← accept '^'
  let members ← readMembers mode.ascii start (← fuel) []
  return .single (.set mode.fold negated members)

/-! ### Repetitions -/

/-- Repetition counts of this size or more are refused. -/
def repeatLimit : Nat := 4294967295

/-- Repetitions without an upper bound of their own. -/
structure Bounds where
  least : Nat
  most : Option Nat

/-- Reads the counts of a repetition after its brace; without them the brace stands for itself and
nothing is taken. -/
def readCounts? : Reading (Option Bounds) := do
  let saved ← get
  if (← peek?) = some (.plain '\x7d') then return none
  else
    let start := saved.position
    let low ← takeWhile Token.isDigit (← fuel)
    let high ← if ← accept ',' then takeWhile Token.isDigit (← fuel) else pure low
    if ← accept '\x7d' then
      let least := digitsValue low
      let most := if high.isEmpty then none else some (digitsValue high)
      if least ≥ repeatLimit || most.any (· ≥ repeatLimit) then
        throw ⟨"the repetition number is too large", none⟩
      else if most.any (· < least) then fail "min repeat greater than max repeat" start
      else return some ⟨least, most⟩
    else
      set saved
      return none

/-- Reads how a repetition chooses among its counts. -/
def readStyle : Reading Style := do
  if ← accept '?' then return .lazy
  else if ← accept '+' then return .possessive
  else return .greedy

/-- Repeats the last part of a sequence; `start` is the position of the repetition. -/
def repeatLast (parts : List Part) (start : Nat) (bounds : Bounds) : Reading (List Part) := do
  match parts with
  | [] => fail "nothing to repeat" start
  | part :: before =>
    if part.isAnchor then fail "nothing to repeat" start
    else if part.isLoop then fail "multiple repeat" start
    else
      let style ← readStyle
      return ⟨.loop style bounds.least bounds.most part.node, false⟩ :: before

/-! ### Groups -/

/-- What opens a parenthesis. -/
inductive Opening where
  | capture (name : Option (List Char))
  | plain
  | modes (mode : Mode)
  | atomic
  | look (behind negated : Bool)
  | condition (index : Nat)
  /-- Nothing to match: a comment, or modes for the whole pattern. -/
  | nothing
  | reference (node : Node)

def isIdentifier (name : List Char) : Bool :=
  match name with
  | [] => false
  | c :: rest => Text.isWord c && !Text.isDigit c && rest.all Text.isWord

def checkGroupName (name : List Char) : Reading Unit := do
  if !isIdentifier name then
    failBack ("bad character in group name " ++ Text.quoted (String.ofList name)) (name.length + 1)

/-- The number of a named group. -/
def groupNamed (name : List Char) : Reading Nat := do
  match (← get).names.lookup (String.ofList name) with
  | some index => return index
  | none =>
    failBack ("unknown group name " ++ Text.quoted (String.ofList name)) (name.length + 1)

/-- Skips a comment up to and with its parenthesis. -/
def skipComment (start : Nat) : (fuel : Nat) → Reading Unit
  | 0 => return
  | fuel + 1 => do
    match ← next? with
    | none => fail "missing ), unterminated comment" start
    | some t => if t = .plain ')' then return else skipComment start fuel

/-- The letters of the modes. -/
def isModeLetter (t : Token) : Bool :=
  match t with
  | .plain c => "iLmsxatu".toList.contains c
  | _ => false

def isLetterToken : Token → Bool
  | .plain c => Text.isAsciiLetter c || (c.toNat ≥ 0x80 && Text.isWord c && !Text.isDigit c)
  | _ => false

/-- Turns a mode on or off. -/
def Mode.set (m : Mode) (letter : Char) (on : Bool) : Mode :=
  if letter = 'i' then { m with ignoreCase := on }
  else if letter = 'm' then { m with multiLine := on }
  else if letter = 's' then { m with dotAll := on }
  else if letter = 'x' then { m with verbose := on }
  else if letter = 'a' then { m with ascii := on }
  else if letter = 'u' then { m with ascii := !on }
  else m

/-- Reads the letters of modes to turn on, the first one given; answers them with the character
that ends them. -/
def readModesOn : (fuel : Nat) → (letter : Char) → (taken : List Char) →
    Reading (List Char × Char)
  | 0, letter, taken => return (taken, letter)
  | fuel + 1, letter, taken => do
    if letter = 'L' then failBack "bad inline flags: cannot use 'L' flag with a str pattern" 0
    else
      let taken := taken ++ [letter]
      if taken.contains 'a' && taken.contains 'u' && (letter = 'a' || letter = 'u') then
        failBack "bad inline flags: flags 'a', 'u' and 'L' are incompatible" 0
      else
        match ← next? with
        | none => failBack "missing -, : or )" 0
        | some (.plain c) =>
          if c = ')' || c = '-' || c = ':' then return (taken, c)
          else if isModeLetter (.plain c) then readModesOn fuel c taken
          else failBack (if isLetterToken (.plain c) then "unknown flag" else "missing -, : or )") 1
        | some t => failBack "missing -, : or )" t.chars.length

/-- Reads the letters of modes to turn off, the first one given, up to the colon. -/
def readModesOff : (fuel : Nat) → (letter : Char) → (taken : List Char) → Reading (List Char)
  | 0, _, taken => return taken
  | fuel + 1, letter, taken => do
    if letter = 'a' || letter = 'u' || letter = 'L' then
      failBack "bad inline flags: cannot turn off flags 'a', 'u' and 'L'" 0
    else
      let taken := taken ++ [letter]
      match ← next? with
      | none => failBack "missing :" 0
      | some (.plain c) =>
        if c = ':' then return taken
        else if isModeLetter (.plain c) then readModesOff fuel c taken
        else failBack (if isLetterToken (.plain c) then "unknown flag" else "missing :") 1
      | some t => failBack "missing :" t.chars.length

/-- The modes after letters are turned on and off. -/
def changedMode (mode : Mode) (on off : List Char) : Mode :=
  off.foldl (fun m c => m.set c false) (on.foldl (fun m c => m.set c true) mode)

/-- Reads modes after `(?`; `first` tells whether modes for the whole pattern may stand here. -/
def readModes (letter : Char) (first : Bool) (start : Nat) : Reading Opening := do
  let (on, ending) ← if letter = '-' then pure ([], '-') else readModesOn (← fuel) letter []
  if ending = ')' then
    modify fun s => { s with
      mode := changedMode s.mode (on.filter (· ≠ 'u')) []
      unicodeAsked := s.unicodeAsked || on.contains 'u' }
    if first then return .nothing
    else fail "global flags not at the start of the expression" start
  else if on.contains 't' then failBack "bad inline flags: cannot turn on global flag" 1
  else
    let off ← if ending = '-' then
        match ← next? with
        | none => failBack "missing flag" 0
        | some (.plain c) =>
          if isModeLetter (.plain c) then readModesOff (← fuel) c []
          else failBack (if isLetterToken (.plain c) then "unknown flag" else "missing flag") 1
        | some t => failBack "missing flag" t.chars.length
      else pure []
    if off.contains 't' then failBack "bad inline flags: cannot turn off global flag" 1
    else if on.any off.contains then failBack "bad inline flags: flag turned on and off" 1
    else return .modes (changedMode (← get).mode on off)

/-- The number in a condition: digits, with blanks and a plus sign let through. -/
def conditionNumber? (name : List Char) : Option Nat :=
  let (negative, digits) := splitSign (Text.stripChars name)
  if digits.isEmpty || !digits.all Text.isDigit then none
  else
    let n := digits.foldl (fun n c => 10 * n + Text.anyDigitValue c) 0
    if negative && n ≠ 0 then none else some n

/-- Reads the group that a condition asks about. -/
def readCondition : Reading Opening := do
  let name ← takeName ')' "group name"
  let index ← if isIdentifier name then groupNamed name
    else
      match conditionNumber? name with
      | none =>
        failBack ("bad character in group name " ++ Text.quoted (String.ofList name))
          (name.length + 1)
      | some 0 => failBack "bad group number" (name.length + 1)
      | some index =>
        modify fun s =>
          if (s.conditions.lookup index).isSome then s
          else { s with conditions := s.conditions ++ [(index, s.position - name.length - 1)] }
        pure index
  checkBehind index
  return .condition index

/-- Reads `(?P`: a named group or a reference to one. -/
def readNamed : Reading Opening := do
  if ← accept '<' then
    let name ← takeName '>' "group name"
    checkGroupName name
    return .capture (some name)
  else if ← accept '=' then
    let name ← takeName ')' "group name"
    checkGroupName name
    let index ← groupNamed name
    let s ← get
    if !s.isClosed index then failBack "cannot refer to an open group" (name.length + 1)
    else
      checkBehind index
      return .reference (.backref s.mode.fold index)
  else
    match ← next? with
    | none => failBack "unexpected end of pattern" 0
    | some t => failBack ("unknown extension ?P" ++ t.text) (t.chars.length + 2)

/-- Reads what opens a parenthesis at a position. -/
def readOpening (first : Bool) (start : Nat) : Reading Opening := do
  if !(← accept '?') then return .capture none
  else
    match ← next? with
    | none => failBack "unexpected end of pattern" 0
    | some (.plain c) =>
      if c = 'P' then readNamed
      else if c = ':' then return .plain
      else if c = '#' then
        skipComment start (← fuel)
        return .nothing
      else if c = '=' then return .look false false
      else if c = '!' then return .look false true
      else if c = '<' then
        match ← next? with
        | none => failBack "unexpected end of pattern" 0
        | some t =>
          if t = .plain '=' then return .look true false
          else if t = .plain '!' then return .look true true
          else failBack ("unknown extension ?<" ++ t.text) (t.chars.length + 2)
      else if c = '(' then readCondition
      else if c = '>' then return .atomic
      else if c = '-' || isModeLetter (.plain c) then readModes c first start
      else failBack ("unknown extension ?" ++ String.singleton c) 2
    | some t => failBack ("unknown extension ?" ++ t.text) (t.chars.length + 1)

/-- Opens a group and answers its number. -/
def openGroup (name : Option (List Char)) : Reading Nat := do
  let s ← get
  let index := s.groups.size
  set { s with groups := s.groups.push none }
  match name with
  | none => return index
  | some chars =>
    let key := String.ofList chars
    match s.names.lookup key with
    | some known =>
      failBack ("redefinition of group name " ++ Text.quoted key ++
        s!" as group {index}; was group {known}") (chars.length + 1)
    | none =>
      modify fun s => { s with names := s.names ++ [(key, index)] }
      return index

/-- Closes a group. -/
def closeGroup (index : Nat) (body : Node) : Reading Unit :=
  modify fun s => { s with groups := s.groups.setIfInBounds index (some (body.width s.groups)) }

/-- Requires the parenthesis that closes the one at a position. -/
def expectClose (start : Nat) : Reading Unit := do
  if !(← accept ')') then fail "missing ), unterminated subpattern" start

/-- Runs a reader with other modes. -/
def withMode {α : Type} (mode : Mode) (reading : Reading α) : Reading α := do
  let saved := (← get).mode
  modify fun s => { s with mode }
  let result ← reading
  modify fun s => { s with mode := saved }
  return result

/-- Runs a reader inside a look behind or ahead. -/
def withinLook {α : Type} (behind : Bool) (reading : Reading α) : Reading α := do
  let saved := (← get).behind
  if behind && saved.isNone then modify fun s => { s with behind := some s.groups.size }
  let result ← reading
  if behind then modify fun s => { s with behind := saved }
  return result

/-- Skips a comment up to the end of its line. -/
def skipLine : (fuel : Nat) → Reading Unit
  | 0 => return
  | fuel + 1 => do
    match ← next? with
    | none => return
    | some t => if t = .plain '\n' then return else skipLine fuel

/-! ### The grammar -/

/-- A part of one character or condition, for a token that opens nothing. -/
def readSimple (token : Token) : Reading Node := do
  let mode := (← get).mode
  match token with
  | .escape c => readEscape c
  | .dangling => return .empty
  | .plain c =>
    if c = '.' then return .single (if mode.dotAll then .any else .notLineFeed)
    else if c = '^' then return .anchor (if mode.multiLine then .lineStart else .textStart)
    else if c = '$' then return .anchor (if mode.multiLine then .lineEnd else .lastLineEnd)
    else if c = '[' then readSet
    else return .single (.set mode.fold false [.point c.toNat])

/-- The repetition that a token asks for, if it asks for one. -/
def readBounds? (c : Char) : Reading (Option Bounds) := do
  if c = '?' then return some ⟨0, some 1⟩
  else if c = '*' then return some ⟨0, none⟩
  else if c = '+' then return some ⟨1, none⟩
  else if c = '\x7b' then readCounts?
  else return none

mutual

/-- Reads alternatives; `top` tells whether they are the whole pattern. -/
def readAlternatives : (fuel : Nat) → (top : Bool) → Reading Node
  | 0, _ => return .empty
  | fuel + 1, top => do
    let first ← readSequence fuel top []
    return alternativesOf (first :: (← readFurther fuel))

/-- Reads the alternatives after the first one. -/
def readFurther : (fuel : Nat) → Reading (List Node)
  | 0 => return []
  | fuel + 1 => do
    if ← accept '|' then
      let node ← readSequence fuel false []
      return node :: (← readFurther fuel)
    else return []

/-- Reads parts up to a bar, a parenthesis or the end; `parts` are those read so far, last to first. -/
def readSequence : (fuel : Nat) → (first : Bool) → (parts : List Part) → Reading Node
  | 0, _, parts => return sequenceOf parts
  | fuel + 1, first, parts => do
    match ← peek? with
    | none => return sequenceOf parts
    | some token =>
      if token = .plain '|' || token = .plain ')' then return sequenceOf parts
      else
        let start ← position
        let _ ← next?
        let verbose := (← get).mode.verbose
        match token with
        | .plain c =>
          if verbose && isAsciiSpace c then readSequence fuel first parts
          else if verbose && c = '#' then
            skipLine (← Reading.fuel)
            readSequence fuel first parts
          else if c = '(' then
            match ← readGroup fuel (first && parts.isEmpty) start with
            | some part => readSequence fuel first (part :: parts)
            | none => readSequence fuel first parts
          else
            match ← readBounds? c with
            | some bounds => readSequence fuel first (← repeatLast parts start bounds)
            | none => readSequence fuel first (⟨← readSimple token, false⟩ :: parts)
        | token => readSequence fuel first (⟨← readSimple token, false⟩ :: parts)

/-- Reads a parenthesis that was opened at a position. -/
def readGroup : (fuel : Nat) → (first : Bool) → (start : Nat) → Reading (Option Part)
  | 0, _, _ => return none
  | fuel + 1, first, start => do
    match ← readOpening first start with
    | .nothing => return none
    | .reference node => return some ⟨node, false⟩
    | .capture name =>
      let index ← openGroup name
      let body ← readAlternatives fuel false
      expectClose start
      closeGroup index body
      return some ⟨.group index body, true⟩
    | .plain =>
      let body ← readAlternatives fuel false
      expectClose start
      return some ⟨body, true⟩
    | .modes mode =>
      let body ← withMode mode (readAlternatives fuel false)
      expectClose start
      return some ⟨body, true⟩
    | .atomic =>
      let body ← readAlternatives fuel false
      expectClose start
      return some ⟨.atomic body, true⟩
    | .look behind negated =>
      let body ← withinLook behind (readAlternatives fuel false)
      expectClose start
      let width := body.width (← get).groups
      return some ⟨.look (if behind then some width else none) negated body, true⟩
    | .condition index =>
      let yes ← readSequence fuel false []
      let no ← if ← accept '|' then
          let no ← readSequence fuel false []
          if (← peek?) = some (.plain '|') then
            failBack "conditional backref with more than two branches" 0
          else pure no
        else pure .empty
      expectClose start
      return some ⟨.ifGroup index yes no, true⟩

end

/-- Reads a whole pattern. -/
def readAll : Reading Pattern := do
  refuseDangling
  let node ← readAlternatives (4 * (← fuel)) true
  let s ← get
  if !s.rest.isEmpty then failBack "unbalanced parenthesis" 0
  else if s.mode.ascii && s.unicodeAsked then
    throw ⟨"ASCII and UNICODE flags are incompatible", none⟩
  else
    match s.conditions.find? fun (index, _) => s.groups.size ≤ index with
    | some (index, position) => fail s!"invalid group reference {index}" position
    | none =>
      match node.widthComplaint? with
      | some problem => throw ⟨problem, none⟩
      | none => return ⟨node, s.groups.size - 1⟩

/-- The pattern that a text denotes, read with modes in force from the start. -/
def read (mode : Mode) (source : String) : Except PatternError Pattern :=
  let start : Reader := ⟨Token.ofChars source.toList, 0, mode, #[none], [], none, [], false⟩
  (readAll.run start).map (·.1)

end Pattern

end PipeScript
