import BinaryQuadratic.Fault
import BinaryQuadratic.PathName

/-!
Trees of files and directories around a working directory.
-/

namespace BinaryQuadratic

inductive FileNode where
  | directory
  | file (text : String)
  deriving DecidableEq

structure FileTree where
  nodes : List (List Text × FileNode)

namespace FileTree

def empty : FileTree := ⟨[]⟩

def isRoot (part : Text) : Bool := part = "/" || part = "//"

/-- The working directory, those above it and the roots, which are always there. -/
def isBase (path : List Text) : Bool :=
  path.all (· = "..") || (path.length = 1 && path.all isRoot)

def node? (t : FileTree) (path : List Text) : Option FileNode :=
  if isBase path then some .directory
  else (t.nodes.find? fun node => node.1 = path).map Prod.snd

def put (t : FileTree) (path : List Text) (node : FileNode) : FileTree :=
  if t.nodes.any fun other => other.1 = path then
    ⟨t.nodes.map fun other => if other.1 = path then (path, node) else other⟩
  else ⟨t.nodes ++ [(path, node)]⟩

def step (path : List Text) (part : Text) : List Text :=
  if part ≠ ".." || path.all (· = "..") then path ++ [part]
  else if isBase path then path
  else path.dropLast

def resolve (path : PathName) : List Text := path.components.foldl step []

def hasNull (path : PathName) : Bool :=
  path.parts.any fun part => part.points.contains (.char '\x00')

/-- The bytes of a code point in a name. Some halves of surrogate pairs stand for single bytes,
and the others have no form in names. -/
def byteCount? : CodePoint → Option Nat
  | .char c => some c.utf8Size
  | .surrogate offset => if 0x480 ≤ offset.val && offset.val < 0x500 then some 1 else none

def isStorable (name : Text) : Bool := name.points.all fun p => (byteCount? p).isSome

def byteSize (name : Text) : Nat :=
  name.points.foldl (fun count p => count + (byteCount? p).getD 0) 0

def nameLimit : Nat := 255

def pathLimit : Nat := 4095

def directoryLimit : Nat := 989

def checkPath (path : PathName) : Except Fault Unit :=
  if !isStorable path.render then .error .notStorable
  else if hasNull path then .error .nullCharacter
  else if pathLimit < byteSize path.render then .error (.file .nameTooLong)
  else .ok ()

def walk (t : FileTree) : List Text → List Text → Except Fault Unit
  | _, [] => .ok ()
  | path, part :: rest =>
    match t.node? path with
    | none => .error (.file .missing)
    | some (.file _) => .error (.file .notADirectory)
    | some .directory =>
      if nameLimit < byteSize part then .error (.file .nameTooLong)
      else t.walk (step path part) rest

/-- Makes a directory and those above it, from the outermost on. Those that are made before a
fault stay. A file in the way is one that exists if it stands at the end or if directories had to
be made before it. -/
def ensureFrom (t : FileTree) (made : Bool) :
    List Text → List Text → FileTree × Except Fault Unit
  | _, [] => (t, .ok ())
  | path, part :: rest =>
    if nameLimit < byteSize part then (t, .error (.file .nameTooLong))
    else
      let next := step path part
      match t.node? next with
      | none => (t.put next .directory).ensureFrom true next rest
      | some .directory => t.ensureFrom made next rest
      | some (.file _) =>
        (t, .error (.file (if made || rest.isEmpty then .exists else .notADirectory)))

def missingCount (t : FileTree) : List Text → List Text → Nat
  | _, [] => 0
  | path, part :: rest =>
    if (t.node? (step path part)).isSome then t.missingCount (step path part) rest
    else rest.length + 1

def ensureDirectory (t : FileTree) (path : PathName) : FileTree × Except Fault Unit :=
  match checkPath path with
  | .error fault => (t, .error fault)
  | .ok _ =>
    if directoryLimit < t.missingCount [] path.components then (t, .error .nesting)
    else t.ensureFrom false [] path.components

def writablePlace (t : FileTree) (path : PathName) : Except Fault (List Text) := do
  checkPath path
  t.walk [] path.components
  match t.node? (resolve path) with
  | some .directory => throw (.file .isADirectory)
  | _ => pure (resolve path)

/-- Writes a file into a directory that is there. A text that cannot be stored leaves an empty
file. -/
def write (t : FileTree) (path : PathName) (text : Text) : FileTree × Except Fault Unit :=
  match t.writablePlace path with
  | .error fault => (t, .error fault)
  | .ok place =>
    if text.isPlain then (t.put place (.file text.render), .ok ())
    else (t.put place (.file ""), .error .notStorable)

def unifyLineEnds : List Char → List Char
  | [] => []
  | '\r' :: '\n' :: rest => '\n' :: unifyLineEnds rest
  | c :: rest => (if c = '\r' then '\n' else c) :: unifyLineEnds rest

def read (t : FileTree) (path : PathName) : Except Fault String := do
  checkPath path
  t.walk [] path.components
  match t.node? (resolve path) with
  | none => throw (.file .missing)
  | some .directory => throw (.file .isADirectory)
  | some (.file text) => pure (String.ofList (unifyLineEnds text.toList))

def pathOf : List Text → PathName
  | [] => ⟨"", []⟩
  | first :: rest => if isRoot first then ⟨first, rest⟩ else ⟨"", first :: rest⟩

def text? : FileNode → Option String
  | .directory => none
  | .file text => some text

def listing (t : FileTree) : List (Text × Option String) :=
  let below := t.nodes.filter fun node =>
    !(node.1.head?.map fun first => isRoot first || first = "..").getD false
  (below.map fun (path, node) => ((pathOf path).render, text? node)).mergeSort
    fun a b => !b.1.less a.1

def newNodes (t before : FileTree) : List (PathName × FileNode) :=
  (t.nodes.filter fun (path, node) => before.node? path ≠ some node).map fun (path, node) =>
    (pathOf path, node)

end FileTree

end BinaryQuadratic
