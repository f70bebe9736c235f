import BinaryQuadratic.Datum
import BinaryQuadratic.Value.Display

/-!
Candidate assignments: the cells of a vector, of which the first is the most significant bit.
Cells are kept as they were supplied and read as integers; `increment` counts upwards in place.
-/

namespace BinaryQuadratic

/-- An assignment by the sequence of its cells. What is no sequence can be held too, and then has
no cells to be read. -/
structure Assignment where
  values : Datum

namespace Assignment

def isBinary (d : Datum) : Bool := Value.equalsInt d 0 || Value.equalsInt d 1

def ofList (cells : List Datum) : Assignment := ⟨.list cells⟩

def ofInts (xs : List Int) : Assignment := ofList (xs.map Datum.int)

def cells (a : Assignment) : Except Fault (List Datum) := Value.items a.values

def ofCells (cells : List Datum) : Except Fault Assignment :=
  if cells.all isBinary then .ok (ofList cells)
  else .error (.violation (.dataFormat .entryNotBinary))

def ofSequence (values : Datum) : Except Fault Assignment := do
  ofCells (← Value.items values)

/-- The number of cells from which on they do not fit into memory. -/
def cellLimit : Int := 0x200000000

def filled (length fill : Datum) : Except Fault Assignment := do
  if !isBinary fill then
    throw (.violation ⟨.invalidOperation, .valueNotBinary, some "fill_value"⟩)
  let count ← Value.toInt length
  if !Number.isWord count then throw .repeatRange
  if cellLimit ≤ count then throw .memory
  pure (ofList (List.replicate count.toNat fill))

def bits (a : Assignment) : Except Fault (List Int) := do
  (← a.cells).mapM Value.round

/-- Adds one with carry: cells are flipped from the right up to the first that becomes 1. The
flag says that no cell did. -/
def flipFromRight : List Int → List Int × Bool
  | [] => ([], true)
  | x :: rest =>
    let (flipped, carry) := flipFromRight rest
    if carry then ((1 - x) :: flipped, decide (1 - x ≠ 1)) else (x :: flipped, false)

def successor (xs : List Int) : List Int × Bool :=
  match flipFromRight xs with
  | ([], _) => ([], true)
  | (x :: rest, carry) => (x :: rest, carry && decide (x = 0))

/-- Counts up by one; the flag says that all ones wrapped around to all zeros. An assignment
without cells wraps around every time. -/
def increment (a : Assignment) : Except Fault (Assignment × Bool) := do
  let xs ← a.bits
  if xs.isEmpty then pure (a, true)
  else
    let (next, wrapped) := successor xs
    pure (ofInts next, wrapped)

def copy (a : Assignment) : Except Fault Assignment := do
  ofCells ((← a.bits).map Datum.int)

def toByte (n : Int) : Except Fault Int :=
  if !Number.isWord n then .error .wordRange
  else if n < -128 || 128 ≤ n then .error (.byteRange n)
  else .ok n

def toBytes (a : Assignment) : Except Fault (List Int) := do
  (← a.bits).mapM toByte

def size (a : Assignment) : Except Fault Nat := List.length <$> a.cells

def equals (a b : Assignment) : Except Fault Bool := do
  let xs ← a.bits
  let ys ← b.bits
  pure (xs = ys)

def render (xs : List Int) : Except Fault String := do
  let parts ← xs.zipIdx.mapM fun (x, i) => do pure (s!"q{i}: " ++ (← integerText x) ++ ", ")
  pure ("[" ++ String.join parts ++ "]")

def quoted (xs : List Int) : Except Fault String := do
  pure ("BinaryVector([" ++ ", ".intercalate (← xs.mapM integerText) ++ "])")

def bitString (xs : List Int) : Except Fault String := do
  pure (String.join (← xs.mapM integerText))

end Assignment

end BinaryQuadratic
