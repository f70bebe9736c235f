import BinaryQuadratic.Datum

/-!
Values whose containers can occur at several places and even inside themselves. The containers are
numbered cells, and whatever holds a container holds its number.
-/

namespace BinaryQuadratic

inductive Link where
  | scalar (value : Scalar)
  | container (index : Nat)

structure SharedDatum where
  cells : Array (Layer Link)
  root : Link

namespace SharedDatum

def emptyTable : SharedDatum := ⟨#[.table []], .container 0⟩

def cell (d : SharedDatum) (index : Nat) : Layer Link := (d.cells[index]?).getD (.list [])

def layer (d : SharedDatum) : Layer SharedDatum :=
  match d.root with
  | .scalar s => .scalar s
  | .container index => (d.cell index).map fun link => ⟨d.cells, link⟩

def identity? (d : SharedDatum) : Option Nat :=
  match d.root with
  | .scalar _ => none
  | .container index => some index

instance : Value SharedDatum := ⟨layer, fun s => ⟨#[], .scalar s⟩, identity?⟩

def table? (d : SharedDatum) (link : Link) : Option (Nat × Fields Link) :=
  match link with
  | .scalar _ => none
  | .container index =>
    match d.cell index with
    | .table fields => some (index, fields)
    | _ => none

def setField (d : SharedDatum) (index : Nat) (key : Text) (value : Link) : SharedDatum :=
  match d.cell index with
  | .table fields =>
    let written := Fields.insert fields (.text key) value
    { d with cells := d.cells.setIfInBounds index (.table written) }
  | _ => d

def addTable (d : SharedDatum) : SharedDatum × Link :=
  ({ d with cells := d.cells.push (.table []) }, .container d.cells.size)

end SharedDatum

end BinaryQuadratic
