import BinaryQuadratic.Proofs.Json.RearrangedValues
import BinaryQuadratic.Proofs.SampledRecord

/-!
The document of a record. It is written with its fields in ascending order, for every record that
a solver returns.
-/

namespace BinaryQuadratic

open Record.IsSampled Solver

def Record.levelDocument (level : Float × List Int) : Datum :=
  .table [(.text "energy", .float level.1), (.text "occurrences", .int 1),
    (.text "sample", .list (level.2.map .int))]

def Sampling.document (solverName : String) (size capacity : Int) (info : RunInfo)
    (levels : List (Float × List Int)) : Datum :=
  .table [(.text "capacity", .int capacity),
    (.text "entries", .list (levels.map Record.levelDocument)),
    (.text "info", .table [(.text "distinct_energies", .float info.distinctEnergies),
      (.text "evaluations", .float info.evaluations)]),
    (.text "size", .int size), (.text "solver", .text solverName)]

namespace Json

theorem checkScalar_bit {x : Int} (bit : x = 0 ∨ x = 1) : checkScalar (.int x) = .ok (.int x) := by
  rw [checkScalar, Assignment.integerText_bit bit, ok_bind]
  rfl

theorem normalizeWithin_row {levels : Nat} {outer : List Nat} {level : Float × List Int}
    (bits : Assignment.IsBits level.2) : normalizeWithin (levels + 2) outer (rowOf level).toDatum =
      .ok (Record.levelDocument level) := by
  have cells : (level.2.map Datum.int).mapM (normalizeWithin levels outer) =
      .ok (level.2.map Datum.int) := by
    rw [List.mapM_map]
    apply mapM_eq_ok_map
    intro x member
    exact normalizeWithin_scalar (checkScalar_bit (bits x member))
  have keys : (["energy", "occurrences", "sample"] : List Text).Pairwise
      fun s t => s.less t = true := by decide
  apply normalizeWithin_table
      [(("energy" : Text), Datum.float level.1, Datum.float level.1),
        ("occurrences", .int 1, .int 1),
        ("sample", .list (level.2.map .int), .list (level.2.map .int))]
  · exact keys
  · exact .cons _ (.swap ..)
  · simp only [List.forall_mem_cons]
    exact ⟨normalizeWithin_scalar rfl, normalizeWithin_scalar (checkScalar_bit (.inr rfl)),
      normalizeWithin_list cells, nofun⟩

theorem normalizeWithin_info {levels : Nat} {outer : List Nat} (info : RunInfo) :
    normalizeWithin (levels + 1) outer info.toDatum =
      .ok (.table [(.text "distinct_energies", .float info.distinctEnergies),
        (.text "evaluations", .float info.evaluations)]) := by
  have keys : (["distinct_energies", "evaluations"] : List Text).Pairwise
      fun s t => s.less t = true := by decide
  apply normalizeWithin_table
      [(("distinct_energies" : Text), Datum.float info.distinctEnergies,
          Datum.float info.distinctEnergies),
        ("evaluations", .float info.evaluations, .float info.evaluations)]
  · exact keys
  · exact .swap ..
  · simp only [List.forall_mem_cons]
    exact ⟨normalizeWithin_scalar rfl, normalizeWithin_scalar rfl, nofun⟩

end Json

namespace Record.IsSampled

variable {r : Record Assignment} {size : Nat} {levels : List (Float × List Int)} {info : RunInfo}

theorem checkScalar_capacity (sampled : r.IsSampled size levels info) :
    Json.checkScalar (.int r.capacity) = .ok (.int r.capacity) := by
  have bound := two_pow_lt_limit (Nat.le_of_lt sampled.small)
  have least : r.capacity.natAbs ≤ 2 ^ size := by
    zify
    rw [abs_of_nonneg sampled.capacity.1]
    exact sampled.capacity.2
  exact Json.checkScalar_int (by omega)

theorem checkScalar_size (sampled : r.IsSampled size levels info) :
    Json.checkScalar (.int size) = .ok (.int size) := by
  apply Json.checkScalar_int
  rw [Int.natAbs_natCast]
  exact Nat.lt_trans Nat.lt_two_pow_self (two_pow_lt_limit (Nat.le_of_lt sampled.small))

end Record.IsSampled

theorem Sampling.fields_perm {α : Type} (capacity entries info size solver : α) :
    [capacity, entries, info, size, solver].Perm [solver, size, capacity, info, entries] := by
  have moved : ([capacity, info, entries] ++ [size, solver]).Perm
      ([size, solver] ++ [capacity, info, entries]) := List.perm_append_comm
  exact ((List.Perm.swap info entries [size, solver]).cons capacity).trans
    (moved.trans (.swap ..))

theorem Sampling.normalize_toDatum {s : Sampling} {size : Nat} {levels : List (Float × List Int)}
    {info : RunInfo} (sized : s.problem.size = size)
    (sampled : s.record.IsSampled size levels info) :
    ∃ datum, s.toDatum = .ok datum ∧ Json.normalize datum =
      .ok (document s.solverName size s.record.capacity info levels) := by
  have document : s.toDatum = .ok (.table [(.text "solver", .text s.solverName),
      (.text "size", .int size), (.text "capacity", .int s.record.capacity),
      (.text "info", info.toDatum), (.text "entries", .list ((levels.map rowOf).map Row.toDatum))]) := by
    rw [toDatum, sampled.toRows, ok_bind, sized, Record.infoDatum, sampled.informed]
    rfl
  refine ⟨_, document, ?_⟩
  obtain ⟨depth, deep⟩ : ∃ depth, nestingLimit = depth + 4 := ⟨985, rfl⟩
  have rows : ((levels.map rowOf).map Row.toDatum).mapM (Json.normalizeWithin (depth + 2) []) =
      .ok (levels.map Record.levelDocument) := by
    rw [List.mapM_map, List.mapM_map]
    apply mapM_eq_ok_map
    intro level member
    exact Json.normalizeWithin_row (sampled.bits level member).1
  have keys : (["capacity", "entries", "info", "size", "solver"] : List Text).Pairwise
      fun s t => s.less t = true := by decide
  rw [Json.normalize, deep]
  apply Json.normalizeWithin_table
      [(("capacity" : Text), Datum.int s.record.capacity, Datum.int s.record.capacity),
        ("entries", .list ((levels.map rowOf).map Row.toDatum),
          .list (levels.map Record.levelDocument)),
        ("info", info.toDatum, .table [(.text "distinct_energies", .float info.distinctEnergies),
          (.text "evaluations", .float info.evaluations)]),
        ("size", .int size, .int size), ("solver", .text s.solverName, .text s.solverName)]
  · exact keys
  · exact fields_perm ..
  · simp only [List.forall_mem_cons]
    exact ⟨Json.normalizeWithin_scalar sampled.checkScalar_capacity,
      Json.normalizeWithin_list rows, Json.normalizeWithin_info info,
      Json.normalizeWithin_scalar sampled.checkScalar_size,
      Json.normalizeWithin_scalar rfl, List.forall_mem_nil _⟩

end BinaryQuadratic
