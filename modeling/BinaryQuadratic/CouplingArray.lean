import BinaryQuadratic.CouplingArray.Survey
import BinaryQuadratic.Value.Display

/-!
Dense arrays of couplings. A well-formed problem has a square grid with zeros below the diagonal;
arrays of other shapes can be held too, and then reading them fails in its own ways.
-/

namespace BinaryQuadratic

/-- An array by its number of axes. The rows of a grid are equally long. -/
inductive CouplingArray where
  | cell (x : Float)
  | line (xs : List Float)
  | grid (rows : List (List Float))
  | block (shape : List Nat) (cells : List Float)

namespace CouplingArray

def coupling : Datum → Except Fault Float
  | .null => .ok Binary64.notANumber
  | .list _ => .error .sequenceInCell
  | d => Value.toFloat d

def listItems : Datum → List Datum
  | .list items => items
  | _ => []

def leaves : Nat → Datum → List Datum
  | 0, d => [d]
  | axes + 1, d => (listItems d).flatMap (leaves axes)

def ofDatum (d : Datum) : Except Fault CouplingArray := do
  match ← Survey.shapeOf d with
  | [] => .cell <$> coupling d
  | [_] => .line <$> (listItems d).mapM coupling
  | [_, _] => .grid <$> (listItems d).mapM fun row => (listItems row).mapM coupling
  | shape => .block shape <$> (leaves shape.length d).mapM coupling

def columns (rows : List (List Float)) : Nat := (rows.head?.map List.length).getD 0

def shape : CouplingArray → List Nat
  | cell _ => []
  | line xs => [xs.length]
  | grid rows => [rows.length, columns rows]
  | block shape _ => shape

def cells : CouplingArray → List Float
  | cell x => [x]
  | line xs => xs
  | grid rows => rows.flatten
  | block _ xs => xs

def chunks {α : Type} (size : Nat) : Nat → List α → List (List α)
  | 0, _ => []
  | count + 1, xs => xs.take size :: chunks size count (xs.drop size)

def reshape (side : Nat) (xs : List Float) : Except Fault CouplingArray :=
  if xs.length = side * side then .ok (.grid (chunks side side xs))
  else .error (.reshape xs.length side)

section Rows

variable {ν : Type} [Value ν]

/-- The first row, in order, that has the wrong length or a cell below the diagonal that is not
zero decides the violation. -/
def checkRows (side : Nat) : Nat → List (List ν) → Except Fault Unit
  | _, [] => .ok ()
  | r, row :: rest =>
    if row.length ≠ side then .error (.violation (.dataFormat .listNotSquare))
    else if (row.take r).any fun v => !Value.equalsInt v 0 then
      .error (.violation (.dataFormat .lowerTriangleEntryNotZero))
    else checkRows side (r + 1) rest

def cellOutline (v : ν) : Datum := Survey.outline (Survey.axisLimit - 2) v

def ofRows (rows : List (List ν)) : Except Fault CouplingArray := do
  checkRows rows.length 0 rows
  let array ← ofDatum (.list (rows.map fun row => .list (row.map cellOutline)))
  reshape rows.length array.cells

def ofSequences (v : ν) : Except Fault CouplingArray := do
  ofRows (← (← Value.items v).mapM Value.items)

end Rows

inductive CellKind where
  | truth
  | signed
  | unsigned
  | real
  | written
  | mixed
  deriving DecidableEq, Repr

namespace CellKind

def ofDatum : Datum → CellKind
  | .bool _ => truth
  | .int n =>
    if Number.isWord n then signed
    else if 0 ≤ n && n < 0x10000000000000000 then unsigned
    else mixed
  | .float _ => real
  | .text _ => written
  | _ => mixed

/-- The common kind of two kinds. Signed and unsigned words meet in the reals, everything meets
in texts, and what has no common kind stays as it is. -/
def join : CellKind → CellKind → CellKind
  | mixed, _ => mixed
  | _, mixed => mixed
  | written, _ => written
  | _, written => written
  | truth, b => b
  | a, truth => a
  | signed, signed => signed
  | unsigned, unsigned => unsigned
  | _, _ => real

/-- Texts of equal width, which are filled up with null characters, lose those at their end. -/
def dropNulls (t : Text) : Text :=
  ⟨(t.points.reverse.dropWhile (· = .char '\x00')).reverse⟩

def convert (kind : CellKind) (d : Datum) : Except Fault Datum :=
  match kind with
  | truth => .ok d
  | signed => .int <$> Value.toInt d
  | unsigned => .int <$> Value.toInt d
  | real => .float <$> Value.toFloat d
  | written => do pure (.text (dropNulls (← Value.shown d)))
  | mixed => .ok d

end CellKind

def unify (rows : List (List Datum)) : Except Fault (List (List Datum)) :=
  let kind := (rows.flatten.map CellKind.ofDatum).foldl CellKind.join .truth
  rows.mapM fun row => row.mapM kind.convert

def ofUniform (d : Datum) : Except Fault CouplingArray := do
  match ← Survey.shapeOf d with
  | [_, _] => ofRows (← unify ((listItems d).map listItems))
  | _ => .error (.violation (.dataFormat .listNotSquare))

def dimension (h : CouplingArray) : Except Fault Nat :=
  h.shape.head?.elim (.error .noAxis) .ok

def read (h : CouplingArray) (row column : Nat) : Except Fault Float :=
  match h with
  | cell _ => .error (.axisCount 0)
  | line _ => .error (.axisCount 1)
  | grid rows =>
    match rows[row]? with
    | none => .error (.axisBound row 0 rows.length)
    | some cells => (cells[column]?).elim (.error (.axisBound column 1 (columns rows))) .ok
  | block shape _ =>
    if column < shape.getD 1 0 then .error .wrongKind
    else .error (.axisBound column 1 (shape.getD 1 0))

def checkIndex (name : String) (size : Nat) (index : Datum) : Except Fault Unit := do
  if (← Value.toNumber index).inRange size then pure ()
  else throw (.violation (.outOfRange name))

/-- The cell at two indices, both of which must be below the number of rows. An index with a
fraction part selects nothing, and a truth value does not select a single cell. -/
def entry (h : CouplingArray) (row column : Datum) : Except Fault Float := do
  let size ← h.dimension
  checkIndex "row_index" size row
  checkIndex "column_index" size column
  match row, column with
  | .int i, .int j => h.read i.toNat j.toNat
  | .float _, _ => throw .fractionalIndex
  | _, .float _ => throw .fractionalIndex
  | _, _ => throw .wrongKind

def equals (h k : CouplingArray) : Bool :=
  h.shape == k.shape && h.cells == k.cells

def nested : List Nat → List Float → Datum
  | [], xs => (xs.head?.map Datum.float).getD .null
  | n :: shape, xs => .list ((chunks (xs.length / n) n xs).map (nested shape))

def toDatum : CouplingArray → Datum
  | cell x => .float x
  | line xs => .list (xs.map .float)
  | grid rows => .list (rows.map fun row => .list (row.map .float))
  | block shape xs => nested shape xs

def quoted (h : CouplingArray) : Except Fault String := do
  pure ("Hamiltonian(" ++ (← Value.quoted h.toDatum) ++ ")")

end CouplingArray

end BinaryQuadratic
