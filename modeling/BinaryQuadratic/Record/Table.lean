import BinaryQuadratic.Record

/-!
Records as tables: lines for people, rows of numbers, and comma separated values.
-/

namespace BinaryQuadratic

structure Row where
  energy : Float
  bits : List Int
  occurrences : Int

namespace Entry

def toRow (e : Entry Assignment) : Except Fault Row := do
  let energy ← Value.toFloat e.energy
  let bits ← e.sample.bits
  pure ⟨energy, bits, e.occurrences⟩

def render (e : Entry Assignment) : Except Fault String := do
  let row ← e.toRow
  pure (formatEnergy row.energy ++ "\t" ++ (← Assignment.render row.bits) ++ "\tx" ++
    (← integerText row.occurrences))

def quoted (e : Entry Assignment) : Except Fault String := do
  let energy ← Value.quoted e.energy
  let bits ← e.sample.bits
  pure ("SolutionRecordEntry(energy=" ++ energy ++ ", solution_vector=" ++
    (← Assignment.quoted bits) ++ ", num_occurrences=" ++ (← integerText e.occurrences) ++ ")")

end Entry

namespace Row

def toDatum (row : Row) : Datum :=
  .table [(.text "energy", .float row.energy), (.text "sample", .list (row.bits.map .int)),
    (.text "occurrences", .int row.occurrences)]

def commaSeparated (row : Row) : Except Fault String := do
  pure (Binary64.Layout.commaSeparated.render row.energy ++ "," ++
    (← Assignment.bitString row.bits) ++ "," ++ (← integerText row.occurrences) ++ "\n")

end Row

def RunInfo.toDatum (info : RunInfo) : Datum :=
  .table [(.text "evaluations", .float info.evaluations),
    (.text "distinct_energies", .float info.distinctEnergies)]

namespace Record

def columnNames : List String := ["energy", "sample", "occurrences"]

def toRows (r : Record Assignment) : Except Fault (List Row) := r.entries.mapM Entry.toRow

def commaSeparated (r : Record Assignment) : Except Fault String := do
  let rows ← r.toRows
  let lines ← rows.mapM Row.commaSeparated
  pure (",".intercalate columnNames ++ "\n" ++ String.join lines)

def render (r : Record Assignment) : Except Fault String := do
  let lines ← r.entries.mapM Entry.render
  pure ("   energy\tsample\toccurrences\n" ++
    String.join (lines.zipIdx.map fun (line, k) => s!"({k + 1}) " ++ line ++ "\n"))

def infoDatum {σ : Type} (r : Record σ) : Datum := (r.info.map RunInfo.toDatum).getD (.table [])

end Record

end BinaryQuadratic
