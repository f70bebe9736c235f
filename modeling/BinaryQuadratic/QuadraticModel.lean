import BinaryQuadratic.Problem

/-!
Problems as quadratic models: linear and quadratic biases by variable and an offset.
-/

namespace BinaryQuadratic

structure QuadraticModel where
  /-- The numbers of the variables by first mention in the terms, then of those without a term. -/
  labels : List Nat
  linear : List (Nat × Float)
  quadratic : List ((Nat × Nat) × Float)
  offset : Float

namespace QuadraticModel

def mention (seen : List Nat) (v : Nat) : List Nat :=
  if seen.contains v then seen else seen ++ [v]

def pairBefore (a b : (Nat × Nat) × Float) : Bool :=
  decide (a.1.1 < b.1.1) || (a.1.1 = b.1.1 && decide (a.1.2 ≤ b.1.2))

/-- Biases and the offset are added to zero, so that there is no negative zero among them. -/
def bias (x : Float) : Float := 0.0 + x

def linearBias (terms : List ((Nat × Nat) × Float)) (v : Nat) : Float :=
  ((terms.find? fun term => term.1 = (v, v)).map fun term => bias term.2).getD 0.0

def ofProblem (p : Problem) (offset : Datum) : Except Fault QuadraticModel := do
  let terms ← p.terms.mapM fun (pair, value) => do pure (pair, ← Value.toFloat value)
  let shift ← Value.toFloat offset
  let all := List.range p.size.toNat
  let mentioned := terms.flatMap fun ((i, j), _) => [i, j]
  pure {
    labels := (mentioned ++ all).foldl mention []
    linear := all.map fun v => (v, linearBias terms v)
    quadratic := ((terms.filter fun ((i, j), _) => i ≠ j).map
      fun (pair, x) => (pair, bias x)).mergeSort pairBefore
    offset := bias shift }

end QuadraticModel

end BinaryQuadratic
