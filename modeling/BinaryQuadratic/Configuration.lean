import BinaryQuadratic.Solver
import BinaryQuadratic.Text.LowerCase

/-!
Problems and solvers from configurations.
-/

namespace BinaryQuadratic.Configuration

variable {ν : Type} [Value ν]

def insertItem (p : Problem) (item : ν) : Except Fault Problem := do
  match ← Value.items item with
  | [i, j, value] =>
    let first ← Value.toInt i
    let second ← Value.toInt j
    p.insert (.int first) (.int second) (.float (← Value.toFloat value))
  | _ => throw (.entryShape (← Value.quoted item))

def itemsOf (part : Option ν) : Except Fault (List ν) :=
  match part.filter Value.isTruthy with
  | some v => Value.items v
  | none => .ok []

/-- The problem of a section: a grid of couplings, or a size and terms. The grid wins over the
other form. -/
def problem (part : ν) : Except Fault Problem := do
  if ← Value.mentions part "hamiltonian" then
    Problem.ofCouplings (← CouplingArray.ofSequences (← Value.get part "hamiltonian"))
  else if ← Value.mentions part "size" then
    let size ← Value.toInt (← Value.get part "size")
    (← itemsOf (← Value.get? part "entries")).foldlM insertItem (.empty size)
  else throw .problemSection

def setting (part : Option ν) (key : Text) : Except Fault (Option ν) :=
  match part with
  | some v => Value.get? v key
  | none => .ok none

def solverKind (part : Option ν) : Except Fault Text := do
  match ← setting part "kind" with
  | some kind => Text.lowerCase <$> Value.shown kind
  | none => pure "simulator"

def integerOrNull (value : Option ν) : Except Fault Datum :=
  match value.filter fun v => !Value.isNull v with
  | some v => .int <$> Value.toInt v
  | none => .ok .null

def solver (part : Option ν) : Except Fault (Solver ν) := do
  let kind ← solverKind part
  if kind = "simulator" then
    pure (.exhaustive (← integerOrNull (← setting part "max_size")))
  else if kind = "dwave" || kind = "dwave_sampler" then
    let name ← setting part "solver_name"
    pure (.hardware (name.getD (Value.ofScalar .null)) Solver.hardwareLimit)
  else throw (.unknownSolver kind)

def requestedLength (cfg : ν) : Except Fault Datum := do
  integerOrNull (← Value.get? cfg "record_length")

end BinaryQuadratic.Configuration
