import BinaryQuadratic.SharedDatum
import BinaryQuadratic.Value.MemberOrder
import BinaryQuadratic.Yaml.Node
import BinaryQuadratic.Yaml.ScalarValue

/-!
Values from the nodes of a document. A collection begins as an empty container and waits in a
queue until it is its turn to be filled, so that it can be a part of itself; scalars are read when
they are first met. This order decides which of several faults of a document counts.
-/

namespace BinaryQuadratic.Yaml

/-- The state of building: the nodes, whose fields change when others are merged into them, the
values that are known by node, the containers so far, and the nodes of the containers in the order
in which they are filled. -/
structure Building where
  nodes : Array Node
  values : Array (Option Link)
  cells : Array (Layer Link)
  queue : Array (Nat × Nat)

abbrev Builder := StateT Building (Except Fault)

namespace Builder

def unbuildable : Fault := .document .value

def node (number : Nat) : Builder Node := do
  pure (((← get).nodes[number]?).getD ⟨.unknown, .sequence []⟩)

def setFields (number : Nat) (fields : List (Nat × Nat)) : Builder Unit :=
  modify fun b => { b with
    nodes := b.nodes.modify number fun node => { node with content := .mapping fields } }

def setTag (number : Nat) (tag : Tag) : Builder Unit :=
  modify fun b => { b with nodes := b.nodes.modify number fun node => { node with tag := tag } }

def fields (number : Nat) : Builder (List (Nat × Nat)) := do
  match (← node number).content with
  | .mapping found => pure found
  | _ => throw unbuildable

def items (number : Nat) : Builder (List Nat) := do
  match (← node number).content with
  | .sequence found => pure found
  | _ => throw unbuildable

def defaultField : List (Nat × Nat) → Builder (Option Nat)
  | [] => pure none
  | (key, value) :: rest => do
    if (← node key).tag = .value then pure (some value) else defaultField rest

def scalarText : Nat → Nat → Builder Text
  | 0, _ => throw .nesting
  | depth + 1, number => do
    match (← node number).content with
    | .scalar text => pure text
    | .sequence _ => throw unbuildable
    | .mapping found =>
      match ← defaultField found with
      | some value => scalarText depth value
      | none => throw unbuildable

def scalarValue (number : Nat) (tag : Tag) : Builder Scalar := do
  let text ← scalarText nestingLimit number
  match tag, (← node number).content with
  | .time, .mapping _ => throw .wrongKind
  | _, _ => ScalarValue.construct tag text

def emptyContainer? : Tag → Option (Layer Link)
  | .sequence => some (.list [])
  | .mapping => some (.table [])
  | .set => some (.set [])
  | .orderedMapping => some (.list [])
  | .pairs => some (.list [])
  | _ => none

def addCell (layer : Layer Link) : Builder Nat := do
  let index := (← get).cells.size
  modify fun b => { b with cells := b.cells.push layer }
  pure index

def addContainer (number : Nat) (layer : Layer Link) : Builder Link := do
  let index ← addCell layer
  modify fun b => { b with queue := b.queue.push (number, index) }
  pure (.container index)

def isScalarTag (tag : Tag) : Bool :=
  [.null, .bool, .int, .float, .binary, .time, .text].contains tag

def build (number : Nat) : Builder Link := do
  match ((← get).values[number]?).bind id with
  | some link => pure link
  | none => do
    let tag := (← node number).tag
    let link ← match emptyContainer? tag with
      | some layer => addContainer number layer
      | none =>
        if isScalarTag tag then Link.scalar <$> scalarValue number tag else throw unbuildable
    modify fun b => { b with values := b.values.setIfInBounds number (some link) }
    pure link

/-- Takes the fields that are marked for merging out of a mapping, from an index on, and collects
what they stand for: the fields of a mapping, or of the mappings of a sequence, the first of which
counts most. The mark of a default value is a plain text as a key. -/
def takeMerged (flatten : Nat → Builder Unit) (number : Nat) :
    Nat → Nat → List (Nat × Nat) → Builder (List (Nat × Nat))
  | 0, _, merged => pure merged
  | steps + 1, index, merged => do
    let found ← fields number
    match found[index]? with
    | none => pure merged
    | some (key, value) =>
      match (← node key).tag with
      | .merge => do
        setFields number (found.eraseIdx index)
        let flattened := fun (part : Nat) => do
          let _ ← fields part
          flatten part
          fields part
        let more ← match (← node value).content with
          | .sequence parts => do pure (← parts.mapM flattened).reverse.flatten
          | _ => flattened value
        takeMerged flatten number steps index (merged ++ more)
      | .value => do
        setTag key .text
        takeMerged flatten number steps (index + 1) merged
      | _ => takeMerged flatten number steps (index + 1) merged

def flatten : Nat → Nat → Builder Unit
  | 0, _ => throw .nesting
  | depth + 1, number => do
    let merged ← takeMerged (flatten depth) number (← fields number).length 0 []
    if !merged.isEmpty then setFields number (merged ++ (← fields number))

/-- A key with the node that it comes from, which tells values apart that do not equal
themselves. The word for the value that is no number always stands for the same one. -/
structure Key where
  value : Scalar
  origin : Option Nat

def isNotANumber : Scalar → Bool
  | .float x => x != x
  | _ => false

def Key.same (a b : Key) : Bool :=
  a.value.equals b.value ||
    (isNotANumber a.value && isNotANumber b.value && a.origin = b.origin)

def buildKey (number : Nat) : Builder Key := do
  match ← build number with
  | .container _ => throw unbuildable
  | .scalar s =>
    if isNotANumber s then
      let isWord := ScalarValue.isNotANumberWord (← scalarText nestingLimit number)
      pure ⟨s, if isWord then none else some number⟩
    else pure ⟨s, some number⟩

def insertKeyed (done : List (Key × Link)) (key : Key) (value : Link) : List (Key × Link) :=
  if done.any fun field => field.1.same key then
    done.map fun field => if field.1.same key then (field.1, value) else field
  else done ++ [(key, value)]

def buildFields (number : Nat) : Builder (Fields Link) := do
  flatten nestingLimit number
  let done ← (← fields number).foldlM (fun done (key, value) => do
    let name ← buildKey key
    pure (insertKeyed done name (← build value))) []
  pure (done.map fun (key, value) => (key.value, value))

def buildPair (number : Nat) : Builder Link := do
  match ← fields number with
  | [(key, value)] => do
    let first ← build key
    let second ← build value
    Link.container <$> addCell (.pair first second)
  | _ => throw unbuildable

def content (number : Nat) : Builder (Layer Link) := do
  match (← node number).tag with
  | .mapping => .table <$> buildFields number
  | .set => do pure (.set (MemberOrder.arrange ((← buildFields number).map Prod.fst)))
  | .sequence => do pure (.list (← (← items number).mapM build))
  | _ => do pure (.list (← (← items number).mapM buildPair))

def fillAll : Nat → Nat → Builder Unit
  | 0, _ => pure ()
  | fuel + 1, turn => do
    match (← get).queue[turn]? with
    | none => pure ()
    | some (number, index) => do
      let layer ← content number
      modify fun b => { b with cells := b.cells.setIfInBounds index layer }
      fillAll fuel (turn + 1)

end Builder

def NodeGraph.toDatum (g : NodeGraph) : Except Fault SharedDatum := do
  let start : Building := ⟨g.nodes, .replicate g.nodes.size none, #[], #[]⟩
  let build := do
    let root ← Builder.build g.root
    Builder.fillAll (g.nodes.size + 1) 0
    pure root
  let (root, done) ← (build : Builder Link).run start
  pure ⟨done.cells, root⟩

def load (s : String) : Except Fault SharedDatum := do
  if !s.toList.all isAllowed then throw (.document .character)
  match ← Node.ofTokens? (TokenStream.ofText s) with
  | none => pure ⟨#[], .scalar .null⟩
  | some graph => graph.toDatum

end BinaryQuadratic.Yaml
