import BinaryQuadratic.Assignment
import BinaryQuadratic.CouplingArray

/-!
The energy of an assignment: the sum of the couplings of its set cells, row by row and from left
to right. Rows of cells that are zero are left out; columns of cells that are zero are not. The
sum is taken in some arithmetic, which is that of binary64 numbers unless another is named.
-/

namespace BinaryQuadratic

/-- The numbers in which couplings are multiplied and added up. -/
structure Arithmetic (α : Type) where
  zero : α
  ofCell : Int → Except Fault α
  ofCoupling : Float → α
  add : α → α → α
  mul : α → α → α

def Arithmetic.binary64 : Arithmetic Float where
  zero := 0.0
  ofCell x := (Number.int x).toFloat
  ofCoupling w := w
  add := (· + ·)
  mul := (· * ·)

namespace CouplingArray

variable {α : Type}

def contribution (arithmetic : Arithmetic α) (x : Int) (w : Float) (y : Int) :
    Except Fault α := do
  let left ← arithmetic.ofCell x
  let right ← arithmetic.ofCell y
  pure (arithmetic.mul (arithmetic.mul left (arithmetic.ofCoupling w)) right)

/-- A row of some length in place of a coupling is repeated by both cells, and has no sum then. -/
def repeatedRow (length : Nat) (x y : Int) : Except Fault α := do
  if !Number.isWord x then throw .repeatRange
  if Assignment.cellLimit ≤ x.toNat * length then throw .memory
  if !Number.isWord y then throw .repeatRange
  if Assignment.cellLimit ≤ x.toNat * length * y.toNat then throw .memory
  throw .wrongKind

def term (arithmetic : Arithmetic α) (h : CouplingArray) (row column : Nat) (x y : Int) :
    Except Fault α :=
  match h with
  | grid rows =>
    match rows[row]?.bind fun cells => cells[column]? with
    | some w => contribution arithmetic x w y
    | none => .error .rowTooShort
  | block shape _ =>
    if column < shape.getD 1 0 then repeatedRow (shape.getD 2 0) x y else .error .rowTooShort
  | _ => .error .wrongKind

def addRow (arithmetic : Arithmetic α) (h : CouplingArray) (xs : List Int) (row : Nat) (x : Int)
    (total : α) : Except Fault α :=
  xs.zipIdx.foldlM (fun sum (y, column) => do
    pure (arithmetic.add sum (← h.term arithmetic row column x y))) total

def energyIn (arithmetic : Arithmetic α) (h : CouplingArray) (xs : List Int) :
    Except Fault α := do
  let size ← h.shape.head?.elim (.error .wrongKind) .ok
  if xs.length ≠ size then throw (.violation (.dataFormat .listNotSquare))
  xs.zipIdx.foldlM (fun total (x, row) =>
    if x = 0 then pure total else h.addRow arithmetic xs row x total) arithmetic.zero

def energyOf (h : CouplingArray) (xs : List Int) : Except Fault Float := h.energyIn .binary64 xs

def energy (h : CouplingArray) (a : Assignment) : Except Fault Float := do
  h.energyOf (← a.bits)

end CouplingArray

end BinaryQuadratic
