import BinaryQuadratic.Assignment

/-!
Records of sampled solutions: a bounded number of entries in the order of their insertion.
-/

namespace BinaryQuadratic

/-- A solution with its energy as it was supplied. A sample is an assignment, or a reference to
one. -/
structure Entry (σ : Type) where
  energy : Datum
  sample : σ
  occurrences : Int

structure RunInfo where
  evaluations : Float
  distinctEnergies : Float

structure Record (σ : Type) where
  capacity : Int
  info : Option RunInfo
  entries : List (Entry σ)

structure Proposal where
  energy : Datum
  sample : Assignment
  occurrences : Datum

namespace Entry

def map {σ τ : Type} (f : σ → τ) (e : Entry σ) : Entry τ := ⟨e.energy, f e.sample, e.occurrences⟩

def propose (e : Entry Assignment) : Proposal := ⟨e.energy, e.sample, .int e.occurrences⟩

end Entry

def Proposal.accept (p : Proposal) : Except Fault (Entry Assignment) := do
  let sample ← p.sample.copy
  let occurrences ← Value.toInt p.occurrences
  pure ⟨p.energy, sample, occurrences⟩

namespace Record

variable {σ τ : Type}

def ofCapacity (capacity : Datum) : Except Fault (Record σ) := do
  pure ⟨← Value.toInt capacity, none, []⟩

def map (f : σ → τ) (r : Record σ) : Record τ := ⟨r.capacity, r.info, r.entries.map (Entry.map f)⟩

def size (r : Record σ) : Nat := r.entries.length

def isFull (r : Record σ) : Bool := decide (r.capacity ≤ r.size)

def isExhausted (r : Record σ) : Bool := decide ((r.size : Int) = r.capacity)

def append (r : Record σ) (e : Entry σ) : Record σ := { r with entries := r.entries ++ [e] }

/-- Inserts one entry. The capacity is checked before the entry. -/
def insert (r : Record Assignment) (p : Proposal) : Except Fault (Record Assignment × Bool) := do
  if r.isFull then throw (.violation (.invalidOperation .recordIsFull))
  let next := r.append (← p.accept)
  pure (next, next.isExhausted)

def appendAll (r : Record Assignment) : List Proposal → Record Assignment × Except Fault Unit
  | [] => (r, .ok ())
  | p :: rest =>
    match p.accept with
    | .ok e => (r.append e).appendAll rest
    | .error fault => (r, .error fault)

/-- Inserts several entries. The capacity is checked for all of them at once; when one of them is
refused afterwards, those before it stay inserted. -/
def insertAll (r : Record Assignment) (ps : List Proposal) :
    Record Assignment × Except Fault Bool :=
  if r.capacity < (r.size : Int) + ps.length then
    (r, .error (.violation (.invalidOperation .recordNotEnoughCapacity)))
  else
    let (next, outcome) := r.appendAll ps
    (next, outcome.map fun _ => next.isExhausted)

end Record

end BinaryQuadratic
