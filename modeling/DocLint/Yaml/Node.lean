/-
The nodes of a YAML text: scalars, sequences and mappings.

`Graph.ofTokens` reads the one document that a text may hold.  The nodes are numbered, and
an alias is the number of the node that it stands for, so that nodes may share parts and
stand within themselves.  The functions take fuel; of two calls in a row one at least takes
a token, and twice their number is enough.
-/
import DocLint.Yaml.Tag
import DocLint.Yaml.Token

namespace DocLint.Yaml

/-- A node; those in it are given by their numbers. -/
inductive Node where
  | scalar (tag : Tag) (codes : List Nat)
  | sequence (tag : Tag) (items : List Nat)
  | mapping (tag : Tag) (entries : List (Nat × Nat))

namespace Node

/-- What stands where nothing is written. -/
def empty : Node := .scalar .null []

def tag : Node → Tag
  | scalar tag _ => tag
  | sequence tag _ => tag
  | mapping tag _ => tag

end Node

/-- The nodes of a document by their numbers. -/
structure Graph where
  nodes : Array Node
  root : Nat

/-! ### Reading tokens -/

/-- What handles of tags are short for unless a text says otherwise. -/
def standardHandles : List (Text × Text) := [(['!'], ['!']), (['!', '!'], Tag.standard)]

/-- The tokens to come, and what has been made of those before. -/
structure Supply where
  tokens : List Token
  /-- The fault behind the last token. -/
  fault : Option Value.Fault
  handles : List (Text × Text) := standardHandles
  nodes : Array Node := #[]
  /-- The numbers of the nodes that have a name. -/
  anchors : List (Text × Nat) := []
  /-- How many collections enclose the next token. -/
  depth : Nat := 0

/-- A step that takes tokens. -/
abbrev Grammar := StateT Supply Reading

namespace Grammar

/-- The next token; behind the last one there may be a fault. -/
def peek : Grammar (Option Token) := do
  let s ← get
  match s.tokens, s.fault with
  | token :: _, _ => return some token
  | [], none => return none
  | [], some fault => throw fault

/-- Goes on behind the next token. -/
def skip : Grammar Unit := modify fun s => { s with tokens := s.tokens.tail }

def isNext (tokens : List Token) : Grammar Bool := return (← peek).any tokens.contains

/-- Takes the next token if it is this one. -/
def accept (token : Token) : Grammar Bool := do
  if ← isNext [token] then
    skip
    return true
  else return false

/-- Takes the next token, which has to be this one. -/
def expect (token : Token) : Grammar Unit := do
  if ← accept token then return () else throw .malformed

/-! ### Making nodes -/

/-- The number of a new node. -/
def add (node : Node) : Grammar Nat :=
  modifyGet fun s => (s.nodes.size, { s with nodes := s.nodes.push node })

/-- Says what the node of a number is. -/
def define (number : Nat) (node : Node) : Grammar Unit :=
  modify fun s => { s with nodes := s.nodes.setIfInBounds number node }

/-- How many collections may stand one within another. -/
def maxDepth : Nat := 488

/-- Reads what is within a collection. -/
def within {α : Type} (members : Grammar α) : Grammar α := do
  if maxDepth ≤ (← get).depth then throw (.tooDeep .node)
  modify fun s => { s with depth := s.depth + 1 }
  let result ← members
  modify fun s => { s with depth := s.depth - 1 }
  return result

/-- A node, or an empty one before certain tokens. -/
def unlessNext (tokens : List Token) (node : Grammar Nat) : Grammar Nat := do
  if ← isNext tokens then add .empty else node

/-- The node behind a token, or an empty one where the token is missing. -/
def after (token : Token) (ends : List Token) (node : Grammar Nat) : Grammar Nat := do
  if ← accept token then unlessNext ends node else add .empty

/-! ### Names and tags -/

/-- The name of the node that follows. -/
def anchor? : Grammar (Option Text) := do
  match ← peek with
  | some (.anchor name) =>
    skip
    return some name
  | _ => return none

/-- The tag of the node that follows, written in full. -/
def tag? : Grammar (Option Text) := do
  match ← peek with
  | some (.tag none name) =>
    skip
    return some name
  | some (.tag (some handle) name) =>
    skip
    match (← get).handles.find? fun h => h.1 == handle with
    | some (_, whole) => return some (whole ++ name)
    | none => throw .malformed
  | _ => return none

/-- The name and the tag of the node that follows, in either order. -/
def properties : Grammar (Option Text × Option Text) := do
  match ← anchor? with
  | some name => return (some name, ← tag?)
  | none =>
    match ← tag? with
    | some tag => return (← anchor?, some tag)
    | none => return (none, none)

/-- Gives a name to the node of a number.  No other node may have it. -/
def giveName (name : Option Text) (number : Nat) : Grammar Unit := do
  match name with
  | none => return ()
  | some name =>
    let s ← get
    if s.anchors.any fun a => a.1 == name then throw .malformed
    else set { s with anchors := (name, number) :: s.anchors }

/-- The node of a name. -/
def named (name : Text) : Grammar Nat := do
  match (← get).anchors.find? fun a => a.1 == name with
  | some (_, number) => return number
  | none => throw .malformed

/-- Does a tag leave open what a node has to be? -/
def isOpen (tag : Option Text) : Bool := tag.all (· == ['!'])

def collectionTag (usual : Tag) (tag : Option Text) : Tag :=
  if isOpen tag then usual else (tag.map Tag.ofName).getD usual

/-- The tag of a scalar.  The form counts if the scalar is plain, or if it has the tag that leaves
all open. -/
def scalarTag (isPlain : Bool) (tag : Option Text) (codes : List Nat) : Tag :=
  match tag with
  | none => if isPlain then .ofForm (Text.ofCodes codes) else .str
  | some name => if isOpen tag then .ofForm (Text.ofCodes codes) else .ofName name

/-! ### Nodes -/

mutual

/-- A node.  Only in a block may a block collection begin, and only in a mapping a sequence of
items that are indented no further. -/
def node (isBlock isMember : Bool) : Nat → Grammar Nat
  | 0 => throw .malformed
  | fuel + 1 => do
    match ← peek with
    | some (.alias name) =>
      skip
      named name
    | _ =>
      let (name, tag) ← properties
      let number ← add .empty
      giveName name number
      define number (← content isBlock isMember tag (name.isSome || tag.isSome) fuel)
      return number

/-- A node behind its name and tag. -/
def content (isBlock isMember : Bool) (tag : Option Text) (mayBeEmpty : Bool) : Nat → Grammar Node
  | 0 => throw .malformed
  | fuel + 1 => do
    let sequence := fun (items : Grammar (List Nat)) =>
      return Node.sequence (collectionTag .seq tag) (← within items)
    let mapping := fun (entries : Grammar (List (Nat × Nat))) =>
      return Node.mapping (collectionTag .map tag) (← within entries)
    let nothing : Grammar Node :=
      if mayBeEmpty then return .scalar (scalarTag (isOpen tag) tag []) [] else throw .malformed
    match ← peek with
    | some .entry => if isMember then sequence (blockItems false fuel) else nothing
    | some (.scalar isPlain codes) =>
      skip
      return .scalar (scalarTag isPlain tag codes) codes
    | some .flowSequenceStart =>
      skip
      sequence (flowItems true fuel)
    | some .flowMappingStart =>
      skip
      mapping (flowEntries true fuel)
    | some .sequenceStart =>
      if isBlock then
        skip
        sequence (blockItems true fuel)
      else nothing
    | some .mappingStart =>
      if isBlock then
        skip
        mapping (blockEntries fuel)
      else nothing
    | _ => nothing

/-- The items of a block sequence, which has an end of its own if it is indented. -/
def blockItems (isIndented : Bool) : Nat → Grammar (List Nat)
  | 0 => throw .malformed
  | fuel + 1 => do
    if ← accept .entry then
      let ends := if isIndented then [.entry, .blockEnd] else [.entry, .key, .value, .blockEnd]
      let item ← unlessNext ends (node true false fuel)
      return item :: (← blockItems isIndented fuel)
    else
      if isIndented then expect .blockEnd
      return []

def blockEntries : Nat → Grammar (List (Nat × Nat))
  | 0 => throw .malformed
  | fuel + 1 => do
    if ← accept .key then
      let ends := [.key, .value, .blockEnd]
      let key ← unlessNext ends (node true true fuel)
      let value ← after .value ends (node true true fuel)
      return (key, value) :: (← blockEntries fuel)
    else
      expect .blockEnd
      return []

/-- The items of a sequence between brackets; one with a key is a mapping of its own. -/
def flowItems (isFirst : Bool) : Nat → Grammar (List Nat)
  | 0 => throw .malformed
  | fuel + 1 => do
    if ← accept .flowSequenceEnd then return []
    unless isFirst do expect .separator
    if ← accept .key then
      let entry ← within do
        let key ← unlessNext [.value, .separator, .flowSequenceEnd] (node false false fuel)
        let value ← after .value [.separator, .flowSequenceEnd] (node false false fuel)
        return (key, value)
      let item ← add (.mapping .map [entry])
      return item :: (← flowItems false fuel)
    else if ← accept .flowSequenceEnd then return []
    else
      let item ← node false false fuel
      return item :: (← flowItems false fuel)

/-- The entries of a mapping between braces; one without a key has no value. -/
def flowEntries (isFirst : Bool) : Nat → Grammar (List (Nat × Nat))
  | 0 => throw .malformed
  | fuel + 1 => do
    if ← accept .flowMappingEnd then return []
    unless isFirst do expect .separator
    if ← accept .key then
      let key ← unlessNext [.value, .separator, .flowMappingEnd] (node false false fuel)
      let value ← after .value [.separator, .flowMappingEnd] (node false false fuel)
      return (key, value) :: (← flowEntries false fuel)
    else if ← accept .flowMappingEnd then return []
    else
      let key ← node false false fuel
      return (key, ← add .empty) :: (← flowEntries false fuel)

end

/-! ### Documents -/

/-- The directives before a document: at most one version, and a known one, and one meaning for
each handle. -/
def directives (mayHaveVersion : Bool) (declared : List (Text × Text)) :
    List Token → Reading (List (Text × Text) × List Token)
  | .directive :: more => directives mayHaveVersion declared more
  | .version major :: more =>
    if mayHaveVersion && major == 1 then directives false declared more else .error .malformed
  | .handle handle whole :: more =>
    if declared.any fun h => h.1 == handle then .error .malformed
    else directives mayHaveVersion ((handle, whole) :: declared) more
  | tokens => .ok (declared, tokens)

def announces : Token → Bool
  | .directive => true
  | .version _ => true
  | .handle _ _ => true
  | .documentStart => true
  | _ => false

/-- The node of a document; one that is announced may be empty. -/
def document (fuel : Nat) : Grammar Nat := do
  match ← peek with
  | none => add .empty
  | some token =>
    if announces token then
      let (declared, tokens) ← directives true [] (← get).tokens
      modify fun s => { s with tokens := tokens, handles := declared ++ s.handles }
      expect .documentStart
      match ← peek with
      | none => add .empty
      | _ => unlessNext [.documentEnd] (node true false fuel)
    else node true false fuel

/-- The document of a text.  There must not be a second one. -/
def wholeText (fuel : Nat) : Grammar Nat := do
  let root ← document fuel
  if (← get).tokens.all (· == .documentEnd) then
    modify fun s => { s with tokens := [] }
    let _ ← peek
    return root
  else throw .malformed

end Grammar

/-- The nodes that tokens make up. -/
def Graph.ofTokens (t : Tokens) : Reading Graph := do
  let supply : Supply := { tokens := t.tokens, fault := t.fault }
  let (root, s) ← (Grammar.wholeText (2 * t.tokens.length + 2)).run supply
  return ⟨s.nodes, root⟩

end DocLint.Yaml
