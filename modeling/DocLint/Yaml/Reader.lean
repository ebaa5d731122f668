/-
The values of the nodes of a YAML text.

Scalars have a value at once.  A collection is begun when it is met and filled later, those
that were begun first being filled first; so a collection may hold itself, and of several
faults the one nearest to the top counts.  Of several entries with one key the last value
counts, in the place of the first; the entries of a merged mapping come before the others.
-/
import DocLint.Value.MemberOrder
import DocLint.Yaml.Meaning
import DocLint.Yaml.Node

namespace DocLint.Yaml

/-! ### Cells -/

/-- What has been made of a node.  The members of a collection are given by the numbers of their
nodes. -/
inductive Cell where
  | leaf (v : Value)
  | list (items : List Nat)
  | map (entries : List (Value × Nat))
  | set (members : List Value)
  | pairs (entries : List (Nat × Nat))
  deriving Inhabited

/-- The entries with the value of a key replaced, or with the key added at the end. -/
def putNumber (key : Value) (number : Nat) : List (Value × Nat) → List (Value × Nat)
  | [] => [(key, number)]
  | (k, n) :: more =>
    if k.sameKey key then (k, number) :: more else (k, n) :: putNumber key number more

/-- The nodes, what has been made of them, and the collections that wait to be filled, the last
one first. -/
structure Build where
  nodes : Array Node
  cells : Array (Option Cell)
  waiting : List Nat := []

/-- A step in making values of nodes. -/
abbrev Builder := StateT Build Reading

namespace Builder

def node (number : Nat) : Builder Node := return ((← get).nodes[number]?).getD .empty

/-- What has been made of a node. -/
def cell? (number : Nat) : Builder (Option Cell) := return ((← get).cells[number]?).join

/-- Says what is made of a node. -/
def make (number : Nat) (cell : Cell) : Builder Unit :=
  modify fun s => { s with cells := s.cells.setIfInBounds number (some cell) }

/-! ### Beginning -/

/-- The code points of a node that has to be a scalar.  A mapping stands for its default value.  It
takes a node at a time, unless a mapping is its own default value. -/
def scalarCodes : Nat → Nat → Builder (List Nat)
  | 0, _ => throw (.tooDeep .node)
  | fuel + 1, number => do
    match ← node number with
    | .scalar _ codes => return codes
    | .sequence _ _ => throw .malformed
    | .mapping _ entries =>
      let defaults ← entries.filterM fun (key, _) => return (← node key).tag == .default
      match defaults with
      | [] => throw .malformed
      | (_, value) :: _ => scalarCodes fuel value

/-- The value of a node that is no collection. -/
def leaf (number : Nat) (tag : Tag) : Builder Value := do
  let codes ← scalarCodes ((← get).nodes.size + 1) number
  match tag, ← node number with
  | .timestamp, .mapping _ _ => throw .momentOfMapping
  | _, _ => (tag.value codes : Reading Value)

/-- The collection that a tag asks for, before it is filled. -/
def emptyCell? : Tag → Option Cell
  | .seq => some (.list [])
  | .map => some (.map [])
  | .omap => some (.pairs [])
  | .pairs => some (.pairs [])
  | .set => some (.set [])
  | _ => none

/-- Begins with a node, unless that has been done. -/
def begin (number : Nat) : Builder Unit := do
  if (← cell? number).isSome then return
  let tag := (← node number).tag
  match emptyCell? tag with
  | some cell =>
    make number cell
    modify fun s => { s with waiting := number :: s.waiting }
  | none => make number (.leaf (← leaf number tag))

/-- The value of a key.  What can change is no key. -/
def key (number : Nat) : Builder Value := do
  begin number
  match ← cell? number with
  | some (.leaf v) => return v
  | _ => throw .malformed

/-! ### Merging -/

/-- The entries of a node that has to be a mapping. -/
def entriesOf (number : Nat) : Builder (List (Nat × Nat)) := do
  match ← node number with
  | .mapping _ entries => return entries
  | _ => throw .malformed

/-- Says what the entries of a mapping are. -/
def setEntries (number : Nat) (entries : List (Nat × Nat)) : Builder Unit :=
  modify fun s => { s with nodes := s.nodes.modify number fun n => .mapping n.tag entries }

/-- Makes the key of a default value a key like others. -/
def ordinaryKey (number : Nat) : Builder Unit :=
  modify fun s => { s with nodes := s.nodes.modify number fun n => match n with
    | .scalar .default codes => .scalar .str codes
    | .sequence .default items => .sequence .str items
    | .mapping .default entries => .mapping .str entries
    | n => n }

/-- The entries that a mapping takes over from others, each given by `merged`; `kept` are those of
its own that have been looked at.  A mapping that is to be merged into itself has been looked at as
a whole when it comes back. -/
def takeOver (merged : Nat → Builder (List (Nat × Nat))) (number : Nat) (kept : List (Nat × Nat)) :
    List (Nat × Nat) → Builder (List (Nat × Nat))
  | [] => return []
  | (key, value) :: more => do
    if (← node key).tag == .merge then
      setEntries number (kept ++ more)
      let taken ← merged value
      if (← entriesOf number) == kept ++ more then
        return taken ++ (← takeOver merged number kept more)
      else return taken
    else
      ordinaryKey key
      takeOver merged number (kept ++ [(key, value)]) more

/-- The entries of a mapping with those that it takes over in front. -/
def flattened (merged : Nat → Builder (List (Nat × Nat))) (number : Nat) :
    Builder (List (Nat × Nat)) := do
  let taken ← takeOver merged number [] (← entriesOf number)
  unless taken.isEmpty do setEntries number (taken ++ (← entriesOf number))
  entriesOf number

/-- The entries of a mapping to be merged, or of a sequence of them, the last one first.  Each step
down takes an entry that merges away, so their number is fuel enough. -/
def merged : Nat → Nat → Builder (List (Nat × Nat))
  | 0, _ => throw (.tooDeep .node)
  | fuel + 1, number => do
    match ← node number with
    | .scalar _ _ => throw .malformed
    | .mapping _ _ => flattened (merged fuel) number
    | .sequence _ items => return (← items.mapM (flattened (merged fuel))).reverse.flatten

/-- The entries of a mapping, all merging done. -/
def allEntries (number : Nat) : Builder (List (Nat × Nat)) := do
  flattened (merged ((← get).nodes.size + 1)) number

/-! ### Filling -/

/-- The values under the keys of a mapping. -/
def mapEntries (number : Nat) : Builder (List (Value × Nat)) := do
  (← allEntries number).foldlM (fun seen (k, v) => do
    let key ← key k
    begin v
    return putNumber key v seen) []

/-- The items of a sequence. -/
def itemsOf (number : Nat) : Builder (List Nat) := do
  match ← node number with
  | .sequence _ items => return items
  | _ => throw .malformed

/-- The one entry of a mapping in a list of pairs. -/
def pairOf (number : Nat) : Builder (Nat × Nat) := do
  match ← entriesOf number with
  | [(key, value)] =>
    begin key
    begin value
    return (key, value)
  | _ => throw .malformed

/-- Fills a collection. -/
def fill (number : Nat) : Builder Unit := do
  match (← node number).tag with
  | .seq =>
    let items ← itemsOf number
    items.forM begin
    make number (.list items)
  | .map => make number (.map (← mapEntries number))
  | .set => make number (.set (Value.inMemberOrder ((← mapEntries number).map (·.1))))
  | _ => make number (.pairs (← (← itemsOf number).mapM pairOf))

/-- Fills the collections that wait, and those that come up meanwhile.  Each round fills one at
least, and no collection waits twice. -/
def fillAll : Nat → Builder Unit
  | 0 => return ()
  | fuel + 1 => do
    let waiting := (← get).waiting.reverse
    modify fun s => { s with waiting := [] }
    unless waiting.isEmpty do
      waiting.forM fill
      fillAll fuel

end Builder

/-! ### Documents -/

/-- The values of a text, by the numbers of their nodes. -/
structure Document where
  cells : Array (Option Cell)
  root : Nat

/-- The values of nodes. -/
def Document.ofGraph (g : Graph) : Reading Document := do
  let build : Build := ⟨g.nodes, Array.replicate g.nodes.size none, []⟩
  let steps : Builder Unit := do
    Builder.begin g.root
    Builder.fillAll (g.nodes.size + 1)
  let (_, s) ← steps.run build
  return ⟨s.cells, g.root⟩

/-- The values of a text. -/
def Document.read (t : Text) : Reading Document := do
  Document.ofGraph (← Graph.ofTokens (.scan t))

namespace Document

/-- What has been made of a node. -/
def cell (d : Document) (number : Nat) : Cell := (d.cells[number]?).join.getD (.leaf .null)

/-- The entries of a map. -/
def entries? (d : Document) (number : Nat) : Option (List (Value × Nat)) :=
  match d.cell number with
  | .map entries => some entries
  | _ => none

/-- Does a node count as no value at all? -/
def isVoid (d : Document) (number : Nat) : Bool :=
  match d.cell number with
  | .leaf v => v.isVoid
  | .list items => items.isEmpty
  | .map entries => entries.isEmpty
  | .set members => members.isEmpty
  | .pairs entries => entries.isEmpty

/-! ### Trees -/

/-- Values that do not depend on what encloses them. -/
abbrev Known := Array (Option Value)

/-- Remembers a value, unless it has a collection in it that encloses it. -/
def remember (number : Nat) (result : Value × Bool) : StateM Known (Value × Bool) := do
  unless result.2 do modify fun known => known.setIfInBounds number (some result.1)
  return result

/-- The value of a node as a tree, within the collections of the numbers `path`, and whether one of
these has come up again.  No number comes twice in the path, so that the number of nodes is fuel
enough. -/
def unfold (d : Document) : Nat → List Nat → Nat → StateM Known (Value × Bool)
  | 0, _, _ => return (.null, true)
  | fuel + 1, path, number => do
    if let some v := ((← get)[number]?).join then return (v, false)
    let inner := unfold d fuel (number :: path)
    let isAgain := path.contains number
    match d.cell number with
    | .leaf v => return (v, false)
    | .set members => return (.set members, false)
    | .list items =>
      if isAgain then return (.enclosing false, true)
      let items ← items.mapM inner
      remember number (.list (items.map (·.1)), items.any (·.2))
    | .map entries =>
      if isAgain then return (.enclosing true, true)
      let entries ← entries.mapM fun (key, n) => return (key, ← inner n)
      remember number (.map (entries.map fun e => (e.1, e.2.1)), entries.any (·.2.2))
    | .pairs entries =>
      if isAgain then return (.enclosing false, true)
      let pairs ← entries.mapM fun (a, b) => return (← inner a, ← inner b)
      remember number (.list (pairs.map fun p => .pair p.1.1 p.2.1),
        pairs.any fun p => p.1.2 || p.2.2)

/-- The value of a node as a tree. -/
def value (d : Document) (number : Nat) : Value :=
  let start : Known := Array.replicate d.cells.size none
  ((d.unfold (d.cells.size + 1) [] number).run start).1.1

end Document

end DocLint.Yaml
