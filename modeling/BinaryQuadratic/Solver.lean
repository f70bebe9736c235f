import BinaryQuadratic.Energy
import BinaryQuadratic.Problem
import BinaryQuadratic.Ranking
import BinaryQuadratic.Record

/-!
Solvers: the exhaustive one, which goes through all assignments in counting order and ranks the
first of each energy, and a stand-in for quantum hardware, which checks its arguments and samples
nothing.
-/

namespace BinaryQuadratic

/-- A solver with its settings as they were supplied; a missing size limit is null. The name of
the hardware is never looked at. -/
inductive Solver (ν : Type) where
  | base
  | exhaustive (maxSize : Datum)
  | hardware (solverName : ν) (maxSize : Datum)

/-- The largest size of which the number of combinations has digits that can be counted. -/
def combinationLimit : Int := 69175290276410818320

/-- The size from which on the number of combinations does not fit into memory. -/
def combinationMemory : Int := 0x4000000000

def combinations (size : Int) : Except Fault Int := do
  if size < 0 then throw .negativeSize
  if combinationLimit < size then throw .integerSize
  if combinationMemory ≤ size then throw .memory
  pure (Nat.pow 2 size.toNat)

/-- The number of entries of a record: all combinations unless a number is requested, which may
not be negative or exceed them. -/
def Problem.recordLength (p : Problem) (requested : Datum) : Except Fault Int := do
  let most ← combinations p.size
  if Value.isNull requested then pure most
  else
    let length ← Value.toInt requested
    if length < 0 then throw (.violation (.outOfRange "record_length"))
    if most < length then
      throw (.violation (.invalidOperation .recordLengthExceedsCombinations))
    pure length

namespace Enumeration

/-- The assignments from a given one on, in counting order, until the count wraps around. -/
def sweepFrom : Nat → List Int → List (List Int)
  | 0, _ => []
  | fuel + 1, xs =>
    let (next, wrapped) := Assignment.successor xs
    xs :: (if wrapped then [] else sweepFrom fuel next)

def sweep (size : Nat) : List (List Int) :=
  sweepFrom (Nat.pow 2 size) (List.replicate size 0)

/-- Weighs an assignment and keeps a snapshot of it, unless its energy is already found. An energy
that is not a number equals no other. -/
def discover (h : CouplingArray) (found : List (Float × Assignment)) (xs : List Int) :
    Except Fault (List (Float × Assignment)) := do
  let energy ← h.energy (.ofInts xs)
  if found.any fun other => other.1 == energy then pure found
  else pure (found ++ [(energy, ← (Assignment.ofInts xs).copy)])

def search (h : CouplingArray) (candidates : List (List Int)) :
    Except Fault (List (Float × Assignment)) :=
  candidates.foldlM (discover h) []

end Enumeration

namespace Solver

variable {ν : Type}

def fill (r : Record Assignment) : List (Float × Assignment) → Except Fault (Record Assignment)
  | [] => .ok r
  | (energy, a) :: rest =>
    if r.isFull then .ok r
    else do
      let (next, _) ← r.insert ⟨.float energy, a, .int 1⟩
      fill next rest

def enumerate (p : Problem) (length : Int) : Except Fault (Record Assignment) := do
  let couplings ← p.toCouplings
  let candidates := Enumeration.sweep p.size.toNat
  let found ← Enumeration.search couplings candidates
  let ranked := Ranking.rank (fun a b => a.1 < b.1) (fun a => a.1 == a.1) found
  let record ← fill ⟨length, none, []⟩ ranked
  let evaluations ← (Number.int candidates.length).toFloat
  let distinctEnergies ← (Number.int found.length).toFloat
  pure { record with info := some ⟨evaluations, distinctEnergies⟩ }

def exceeds (p : Problem) (limit : Datum) : Except Fault Bool := do
  pure (decide ((← Value.toInt limit) < p.size))

def exceedsOptional (p : Problem) (limit : Datum) : Except Fault Bool :=
  if Value.isNull limit then .ok false else exceeds p limit

def sample (solver : Solver ν) (p : Problem) (requested : Datum) :
    Except Fault (Record Assignment) :=
  match solver with
  | base => .error .leftToVariants
  | exhaustive maxSize => do
    if ← exceedsOptional p maxSize then
      let size ← integerText p.size
      throw (.violation ⟨.unsupported, .problemSizeNotSupported, some size⟩)
    enumerate p (← p.recordLength requested)
  | hardware _ maxSize => do
    let _ ← p.recordLength requested
    if ← exceeds p maxSize then throw (.violation (.unsupported .hardwareSamplingLargerThanFour))
    throw (.violation (.unsupported .minorEmbeddingNotSupported))

def hardwareLimit : Datum := .int 4

def name : Solver ν → String
  | base => "base"
  | exhaustive _ => "simulator"
  | hardware _ _ => "dwave"

def typeName : Solver ν → String
  | base => ""
  | exhaustive _ => "simulator"
  | hardware _ _ => "dwave_sampler"

def className : Solver ν → String
  | base => "Solver"
  | exhaustive _ => "Simulator"
  | hardware _ _ => "DwaveSampler"

def maxSize : Solver ν → Datum
  | base => .null
  | exhaustive limit => limit
  | hardware _ limit => limit

def quoted [Value ν] (s : Solver ν) : Except Fault String :=
  let head := s.className ++ "(name=" ++ Text.quote s.name ++ ", solver_type=<SolverType." ++
    s.typeName.toUpper ++ ": " ++ Text.quote s.typeName ++ ">, "
  match s with
  | base => .ok "Solver()"
  | exhaustive limit => do pure (head ++ "max_size=" ++ (← Value.quoted limit) ++ ")")
  | hardware solverName limit => do
    pure (head ++ "solver_name=" ++ (← Value.quoted solverName) ++ ", max_size=" ++
      (← Value.quoted limit) ++ ")")

def equals : Solver Datum → Solver Datum → Bool
  | exhaustive a, exhaustive b => a.equals b
  | hardware m a, hardware n b => m.equals n && a.equals b
  | _, _ => false

end Solver

end BinaryQuadratic
