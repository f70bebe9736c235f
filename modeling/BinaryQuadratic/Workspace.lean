import BinaryQuadratic.Record

/-!
A workspace of assignments, records and cursors that refer to each other. Assignments change in
place, so the entries of a record refer to assignments of their own: what enters a record is
copied, and a reference to the copy is had from its entry only.
-/

namespace BinaryQuadratic

structure VectorRef where
  index : Nat
  deriving DecidableEq, Repr

structure RecordRef where
  index : Nat
  deriving DecidableEq, Repr

structure CursorRef where
  index : Nat
  deriving DecidableEq, Repr

/-- A cursor holds the entries that it has still to show. -/
structure Workspace where
  vectors : List Assignment
  records : List (Record VectorRef)
  cursors : List (List (Entry VectorRef))

namespace Workspace

def empty : Workspace := ⟨[], [], []⟩

def vector (w : Workspace) (v : VectorRef) : Assignment := (w.vectors[v.index]?).getD (.ofList [])

/-- The record behind a reference, with references to its samples. -/
def record (w : Workspace) (r : RecordRef) : Record VectorRef :=
  (w.records[r.index]?).getD ⟨0, none, []⟩

/-- The record behind a reference, with its samples as they are now. -/
def view (w : Workspace) (r : RecordRef) : Record Assignment := (w.record r).map w.vector

def addVector (w : Workspace) (a : Assignment) : Workspace × VectorRef :=
  ({ w with vectors := w.vectors ++ [a] }, ⟨w.vectors.length⟩)

def referTo : Nat → List (Entry Assignment) → List (Entry VectorRef)
  | _, [] => []
  | index, e :: rest => e.map (fun _ => ⟨index⟩) :: referTo (index + 1) rest

def adopt (w : Workspace) (entries : List (Entry Assignment)) :
    Workspace × List (Entry VectorRef) :=
  ({ w with vectors := w.vectors ++ entries.map Entry.sample },
    referTo w.vectors.length entries)

def addRecord (w : Workspace) (r : Record Assignment) : Workspace × RecordRef :=
  let (next, entries) := w.adopt r.entries
  ({ next with records := next.records ++ [⟨r.capacity, r.info, entries⟩] },
    ⟨w.records.length⟩)

def extendRecord (w : Workspace) (r : RecordRef) (gained : Record Assignment) : Workspace :=
  let old := w.record r
  let (next, entries) := w.adopt (gained.entries.drop old.size)
  { next with records := next.records.set r.index { old with entries := old.entries ++ entries } }

def increment (w : Workspace) (v : VectorRef) : Except Fault (Workspace × Bool) := do
  let (next, wrapped) ← (w.vector v).increment
  pure ({ w with vectors := w.vectors.set v.index next }, wrapped)

def copyVector (w : Workspace) (v : VectorRef) : Except Fault (Workspace × VectorRef) := do
  pure (w.addVector (← (w.vector v).copy))

def insert (w : Workspace) (r : RecordRef) (energy : Datum) (v : VectorRef)
    (occurrences : Datum) : Except Fault (Workspace × Bool) := do
  let (gained, exhausted) ← (w.view r).insert ⟨energy, w.vector v, occurrences⟩
  pure (w.extendRecord r gained, exhausted)

def insertAll (w : Workspace) (r : RecordRef) (proposals : List (Datum × VectorRef × Datum)) :
    Workspace × Except Fault Bool :=
  let (gained, outcome) := (w.view r).insertAll
    (proposals.map fun (energy, v, occurrences) => ⟨energy, w.vector v, occurrences⟩)
  (w.extendRecord r gained, outcome)

def insertFrom (w : Workspace) (r source : RecordRef) : Workspace × Except Fault Bool :=
  let (gained, outcome) := (w.view r).insertAll ((w.view source).entries.map Entry.propose)
  (w.extendRecord r gained, outcome)

def openCursor (w : Workspace) (r : RecordRef) : Workspace × CursorRef :=
  ({ w with cursors := w.cursors ++ [(w.record r).entries] }, ⟨w.cursors.length⟩)

def advance (w : Workspace) (c : CursorRef) : Workspace × Option (Entry Assignment) :=
  match w.cursors[c.index]? with
  | some (e :: rest) => ({ w with cursors := w.cursors.set c.index rest }, some (e.map w.vector))
  | _ => (w, none)

def entryVector? (w : Workspace) (r : RecordRef) (index : Nat) : Option VectorRef :=
  ((w.record r).entries[index]?).map Entry.sample

end Workspace

end BinaryQuadratic
