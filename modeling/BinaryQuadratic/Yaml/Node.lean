import BinaryQuadratic.Yaml.Tag
import BinaryQuadratic.Yaml.TokenStream

/-!
Nodes of a document, read from its tokens. Nodes are numbered, and collections hold the numbers of
their parts; an alias is the number of the node that its anchor names, which can be a collection
around the alias.
-/

namespace BinaryQuadratic.Yaml

inductive Content where
  | scalar (text : Text)
  | sequence (items : List Nat)
  | mapping (fields : List (Nat × Nat))

structure Node where
  tag : Tag
  content : Content

structure NodeGraph where
  nodes : Array Node
  root : Nat

namespace Node

/-- The deepest nesting of collections in a document. -/
def depthLimit : Nat := 489

structure Reading where
  stream : TokenStream
  handles : List (String × String)
  anchors : List (String × Nat)
  nodes : Array Node

abbrev Reader := StateT Reading (Except Fault)

def unexpected : Fault := .document .grammar

def peek : Reader Token := do
  let r ← get
  match r.stream.tokens with
  | token :: _ => pure token
  | [] => throw r.stream.fault

def advance : Reader Unit :=
  modify fun r => { r with stream := { r.stream with tokens := r.stream.tokens.tail } }

def expect (token : Token) : Reader Unit := do
  if (← peek) = token then advance else throw unexpected

def nextIsOneOf (tokens : List Token) : Reader Bool := do
  pure (tokens.contains (← peek))

structure Properties where
  tag : Option String
  anchor : Option String

def anchor? : Reader (Option String) := do
  match ← peek with
  | .anchor name => do
    advance
    pure (some name)
  | _ => pure none

def tag? : Reader (Option (Option String × String)) := do
  match ← peek with
  | .tag handle suffix => do
    advance
    pure (some (handle, suffix))
  | _ => pure none

def fullTag (handle : Option String) (suffix : String) : Reader String := do
  match handle with
  | none => pure suffix
  | some name =>
    match (← get).handles.find? fun entry => entry.1 = name with
    | some (_, meaning) => pure (meaning ++ suffix)
    | none => throw unexpected

def properties : Reader Properties := do
  let first ← anchor?
  let found ← tag?
  let anchor ← if first.isNone && found.isSome then anchor? else pure first
  match found with
  | some (handle, suffix) => pure ⟨some (← fullTag handle suffix), anchor⟩
  | none => pure ⟨none, anchor⟩

def bareTag : String := "!"

def givenTag (p : Properties) (otherwise : Tag) : Tag :=
  match p.tag with
  | none => otherwise
  | some name => if name = bareTag then otherwise else .ofName name

def scalarTag (p : Properties) (plain : Bool) (text : Text) : Tag :=
  givenTag p (if plain || p.tag.isSome then .ofPlain text else .text)

def checkAnchor (p : Properties) : Reader Unit := do
  match p.anchor with
  | none => pure ()
  | some name =>
    if (← get).anchors.any fun entry => entry.1 = name then throw (.document .reference)

def addNode (p : Properties) (node : Node) : Reader Nat := do
  checkAnchor p
  let number := (← get).nodes.size
  modify fun r => { r with
    nodes := r.nodes.push node
    anchors := (p.anchor.map fun name => (name, number)).toList ++ r.anchors }
  pure number

def addScalar (p : Properties) (plain : Bool) (text : Text) : Reader Nat :=
  addNode p ⟨scalarTag p plain text, .scalar text⟩

def addEmpty : Reader Nat := addScalar ⟨none, none⟩ true .empty

def addCollection (p : Properties) (kind : Tag) (depth : Nat) (parts : Reader Content) :
    Reader Nat := do
  let number ← addNode p ⟨givenTag p kind, .sequence []⟩
  if depth = 0 then throw .nesting
  let content ← parts
  modify fun r => { r with
    nodes := r.nodes.modify number fun node => { node with content := content } }
  pure number

def referenced (name : String) : Reader Nat := do
  match (← get).anchors.find? fun entry => entry.1 = name with
  | some (_, number) => pure number
  | none => throw (.document .reference)

mutual

/-- A node. Outside brackets it can be a block, and as a part of a mapping it can be a sequence
whose entries are not indented. Collections are nested at most so many levels deep. -/
def read : Nat → Nat → Bool → Bool → Reader Nat
  | 0, _, _, _ => throw unexpected
  | fuel + 1, depth, inBlock, inMapping => do
    match ← peek with
    | .reference name => do
      advance
      referenced name
    | _ => do
      let p ← properties
      match ← peek with
      | .scalar text plain => do
        advance
        addScalar p plain text
      | .flowSequenceStart =>
        addCollection p .sequence depth (do
          advance
          .sequence <$> flowItems fuel (depth - 1) true)
      | .flowMappingStart =>
        addCollection p .mapping depth (do
          advance
          .mapping <$> flowFields fuel (depth - 1) true)
      | next => do
        if inMapping && next = .blockEntry then
          addCollection p .sequence depth (.sequence <$> flushItems fuel (depth - 1))
        else if inBlock && next = .blockSequenceStart then
          addCollection p .sequence depth (do
            advance
            .sequence <$> blockItems fuel (depth - 1))
        else if inBlock && next = .blockMappingStart then
          addCollection p .mapping depth (do
            advance
            .mapping <$> blockFields fuel (depth - 1))
        else if p.tag.isSome || p.anchor.isSome then addScalar p true .empty
        else throw unexpected

def readUnless : Nat → Nat → List Token → Bool → Bool → Reader Nat
  | 0, _, _, _, _ => throw unexpected
  | fuel + 1, depth, ends, inBlock, inMapping => do
    if ← nextIsOneOf ends then addEmpty else read fuel depth inBlock inMapping

def valueUnless : Nat → Nat → List Token → Bool → Bool → Reader Nat
  | 0, _, _, _, _ => throw unexpected
  | fuel + 1, depth, ends, inBlock, inMapping => do
    if (← peek) = .value then
      advance
      readUnless fuel depth ends inBlock inMapping
    else addEmpty

def blockItems : Nat → Nat → Reader (List Nat)
  | 0, _ => throw unexpected
  | fuel + 1, depth => do
    if (← peek) = .blockEntry then
      advance
      let item ← readUnless fuel depth [.blockEntry, .blockEnd] true false
      pure (item :: (← blockItems fuel depth))
    else
      expect .blockEnd
      pure []

def flushItems : Nat → Nat → Reader (List Nat)
  | 0, _ => throw unexpected
  | fuel + 1, depth => do
    if (← peek) = .blockEntry then
      advance
      let item ← readUnless fuel depth [.blockEntry, .key, .value, .blockEnd] true false
      pure (item :: (← flushItems fuel depth))
    else pure []

def blockFields : Nat → Nat → Reader (List (Nat × Nat))
  | 0, _ => throw unexpected
  | fuel + 1, depth => do
    if (← peek) = .key then
      advance
      let key ← readUnless fuel depth [.key, .value, .blockEnd] true true
      let value ← valueUnless fuel depth [.key, .value, .blockEnd] true true
      pure ((key, value) :: (← blockFields fuel depth))
    else
      expect .blockEnd
      pure []

def flowItems : Nat → Nat → Bool → Reader (List Nat)
  | 0, _, _ => throw unexpected
  | fuel + 1, depth, first => do
    if (← peek) = .flowSequenceEnd then
      advance
      pure []
    else
      if !first then expect .flowEntry
      match ← peek with
      | .flowSequenceEnd => do
        advance
        pure []
      | .key => do
        advance
        let item ← addCollection ⟨none, none⟩ .mapping depth (do
          let key ← readUnless fuel (depth - 1) [.value, .flowEntry, .flowSequenceEnd] false false
          let value ← valueUnless fuel (depth - 1) [.flowEntry, .flowSequenceEnd] false false
          pure (.mapping [(key, value)]))
        pure (item :: (← flowItems fuel depth false))
      | _ => do
        let item ← read fuel depth false false
        pure (item :: (← flowItems fuel depth false))

def flowFields : Nat → Nat → Bool → Reader (List (Nat × Nat))
  | 0, _, _ => throw unexpected
  | fuel + 1, depth, first => do
    if (← peek) = .flowMappingEnd then
      advance
      pure []
    else
      if !first then expect .flowEntry
      match ← peek with
      | .flowMappingEnd => do
        advance
        pure []
      | .key => do
        advance
        let key ← readUnless fuel depth [.value, .flowEntry, .flowMappingEnd] false false
        let value ← valueUnless fuel depth [.flowEntry, .flowMappingEnd] false false
        pure ((key, value) :: (← flowFields fuel depth false))
      | _ => do
        let key ← read fuel depth false false
        let value ← addEmpty
        pure ((key, value) :: (← flowFields fuel depth false))

end

def directives : Nat → Bool → Reader Unit
  | 0, _ => pure ()
  | fuel + 1, versioned => do
    match ← peek with
    | .directive (.version major) => do
      advance
      if versioned || major ≠ 1 then throw unexpected
      directives fuel true
    | .directive (.handle name meaning) => do
      advance
      let known := (← get).handles
      if known.any fun entry => entry.1 = name then throw unexpected
      modify fun r => { r with handles := (name, meaning) :: known }
      directives fuel versioned
    | .directive .other => do
      advance
      directives fuel versioned
    | _ => pure ()

def defaultHandles : List (String × String) := [("!", "!"), ("!!", Tag.commonPart)]

def skipDocumentEnds : Nat → Reader Unit
  | 0 => pure ()
  | fuel + 1 => do
    if (← peek) = .documentEnd then
      advance
      skipDocumentEnds fuel

def nextDocument (fuel : Nat) : Reader Bool := do
  skipDocumentEnds fuel
  if (← peek) = .streamEnd then pure false
  else
    modify fun r => { r with handles := [] }
    directives fuel false
    modify fun r => { r with handles := r.handles ++ defaultHandles }
    expect .documentStart
    pure true

def isDirective : Token → Bool
  | .directive _ => true
  | _ => false

def documentContent (fuel : Nat) : Reader Nat := do
  let next ← peek
  if isDirective next || [.documentStart, .documentEnd, .streamEnd].contains next then addEmpty
  else read fuel depthLimit true false

def document? (fuel : Nat) : Reader (Option Nat) := do
  let next ← peek
  let root ← if isDirective next || [.documentStart, .streamEnd].contains next then do
      if ← nextDocument fuel then some <$> documentContent fuel else pure none
    else some <$> read fuel depthLimit true false
  if root.isSome then
    if (← peek) = .documentEnd then advance
    if ← nextDocument fuel then throw (.document .reference)
  pure root

/-- Reads the document of a token stream. Every second call takes a token at least, which bounds
their number. -/
def ofTokens? (stream : TokenStream) : Except Fault (Option NodeGraph) := do
  let fuel := 4 * stream.tokens.length + 4
  let (root, reading) ← (document? fuel).run ⟨stream, defaultHandles, [], #[]⟩
  pure (root.map fun number => ⟨reading.nodes, number⟩)

end Node

end BinaryQuadratic.Yaml
