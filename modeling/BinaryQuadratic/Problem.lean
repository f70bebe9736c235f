import BinaryQuadratic.CouplingArray

/-!
Sparse problems: coefficients of pairs of variables, with the linear terms on the diagonal. Terms
are listed in the order in which their pairs were first written.
-/

namespace BinaryQuadratic

structure Problem where
  size : Int
  terms : List ((Nat × Nat) × Datum)

namespace Problem

def empty (size : Int) : Problem := ⟨size, []⟩

def ofSize (size : Datum) : Except Fault Problem := empty <$> Value.toInt size

/-- Writes a term; an overwritten term keeps its place. -/
def insertTerm (terms : List ((Nat × Nat) × Datum)) (pair : Nat × Nat) (value : Datum) :
    List ((Nat × Nat) × Datum) :=
  if terms.any fun term => term.1 = pair then
    terms.map fun term => if term.1 = pair then (pair, value) else term
  else terms ++ [(pair, value)]

def variableOf (index : Number) : Except Fault Nat := Int.toNat <$> index.truncate

/-- Sets the coefficient of a pair of variables. Both indices must be in range, and the second
not below the first. -/
def insert (p : Problem) (i j value : Datum) : Except Fault Problem := do
  let first ← Value.toNumber i
  if !first.inRange p.size then throw (.violation (.outOfRange "variable_index"))
  let second ← Value.toNumber j
  if !second.inRange p.size then throw (.violation (.outOfRange "variable_pair_index"))
  if second.less first then throw (.violation (.invalidOperation .pairIndexSmallerThanPrimary))
  pure { p with terms := insertTerm p.terms (← variableOf first, ← variableOf second) value }

def lookup (p : Problem) (pair : Nat × Nat) : Option Datum :=
  (p.terms.find? fun term => term.1 = pair).map Prod.snd

def isScalar : Datum → Bool
  | .scalar _ => true
  | _ => false

/-- The coefficient of a pair. Indices are compared by value, and a pair out of range is simply
absent; lists and tables are no indices. -/
def get? (p : Problem) (i j : Datum) : Except Fault (Option Datum) :=
  if isScalar i && isScalar j then
    let found := p.terms.find? fun ((i', j'), _) => Value.equalsInt i i' && Value.equalsInt j j'
    .ok (found.map Prod.snd)
  else .error .wrongKind

def upperPairs (size : Nat) : List (Nat × Nat) :=
  (List.range size).flatMap fun i => (List.range' i (size - i)).map fun j => (i, j)

def insertCoupling (h : CouplingArray) (p : Problem) (pair : Nat × Nat) :
    Except Fault Problem := do
  let x ← h.read pair.1 pair.2
  if x != 0.0 then
    pure { p with terms := insertTerm p.terms pair (.float x) }
  else pure p

def ofCouplings (h : CouplingArray) : Except Fault Problem :=
  let size := h.shape.head?.getD 0
  (upperPairs size).foldlM (insertCoupling h) (empty size)

def couplingAt (p : Problem) (i j : Nat) : Except Fault Float :=
  if i ≤ j then
    match p.lookup (i, j) with
    | none => .ok 0.0
    | some .null => .ok 0.0
    | some value => CouplingArray.coupling value
  else .ok 0.0

/-- The side from which on the bytes of a square grid are not words any more. -/
def sideLimit : Int := 0x40000000

/-- The side from which on a square grid does not fit into memory. -/
def sideMemory : Int := 0x20000

def checkSide (side : Int) : Except Fault Unit := do
  if !Number.isWord side then throw .axisLength
  if side < 0 then throw .negativeAxis
  if sideLimit ≤ side then throw .arraySize
  if sideMemory ≤ side then throw .arrayMemory

def toCouplings (p : Problem) : Except Fault CouplingArray := do
  checkSide p.size
  let indices := List.range p.size.toNat
  .grid <$> indices.mapM fun i => indices.mapM fun j => p.couplingAt i j

def render (p : Problem) : Except Fault Text := do
  let head := "[qubits: " ++ (← integerText p.size) ++ "] \x7b"
  let parts ← p.terms.mapM fun ((i, j), value) => do
    pure (s!"({i},{j}): " ++ (← Value.shown value) ++ ", ")
  pure (head ++ Text.join parts ++ "\x7d")

end Problem

end BinaryQuadratic
