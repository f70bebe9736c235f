import BinaryQuadratic.Text

/-!
Path names: components between slashes, without empty components and without single dots.
-/

namespace BinaryQuadratic

structure PathName where
  root : Text
  parts : List Text
  deriving DecidableEq, Repr

namespace PathName

def splitSlashes : List CodePoint → List CodePoint → List Text
  | current, [] => [⟨current.reverse⟩]
  | current, p :: rest =>
    if p = .char '/' then ⟨current.reverse⟩ :: splitSlashes [] rest
    else splitSlashes (p :: current) rest

/-- One slash at the start is the root, two are a root of their own, and more are one. -/
def rootOf (t : Text) : Text :=
  match (t.points.takeWhile (· = .char '/')).length with
  | 0 => ""
  | 2 => "//"
  | _ => "/"

def parse (t : Text) : PathName :=
  ⟨rootOf t, (splitSlashes [] t.points).filter fun part => part ≠ "" && part ≠ "."⟩

def join (base path : PathName) : PathName :=
  if path.root = "" then ⟨base.root, base.parts ++ path.parts⟩ else path

def components (p : PathName) : List Text :=
  if p.root = "" then p.parts else p.root :: p.parts

def child (base : PathName) (name : Text) : PathName :=
  { base with parts := base.parts ++ [name] }

def render (p : PathName) : Text :=
  if p.root = "" && p.parts.isEmpty then "." else p.root ++ Text.intercalate "/" p.parts

end PathName

end BinaryQuadratic
