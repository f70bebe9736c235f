import BinaryQuadratic.CommandLine
import BinaryQuadratic.Proofs.Binary64.Fields
import BinaryQuadratic.Proofs.SamplingOutcome

/-!
Records that solvers return. Their entries are bits with floats as energies, and all their numbers
are short, so that they can be shown and turned into tables.
-/

namespace BinaryQuadratic

open Assignment Binary64 Enumeration Solver

theorem two_pow_lt_limit {size : Nat} (small : size ≤ 1024) : 2 ^ size < 10 ^ Literal.digitLimit :=
  calc 2 ^ size
      ≤ 10 ^ size := Nat.pow_le_pow_left (by decide) size
    _ < 10 ^ Literal.digitLimit :=
        Nat.pow_lt_pow_right (by decide) (by rw [Literal.digitLimit]; omega)

theorem Binary64.wholePart_lt {x : Float} {negative : Bool} {mantissa : Nat} {exponent : Int}
    (found : parts x = .finite negative mantissa exponent) :
    wholePart mantissa exponent < 10 ^ Literal.digitLimit := by
  obtain ⟨upper, -, most, -⟩ := parts_bounds found
  calc wholePart mantissa exponent
      ≤ mantissa * 2 ^ exponent.toNat := Nat.div_le_self ..
    _ < 2 ^ 53 * 2 ^ exponent.toNat := Nat.mul_lt_mul_of_pos_right upper (Nat.two_pow_pos _)
    _ = 2 ^ (53 + exponent.toNat) := (Nat.pow_add ..).symm
    _ < 10 ^ Literal.digitLimit := two_pow_lt_limit (by omega)

theorem Binary64.applySign_natAbs (negative : Bool) (k : Nat) :
    (applySign negative k).natAbs = k := by
  cases negative with
  | true => simp [applySign]
  | false => simp [applySign]

theorem Solver.combinations_eq_ok {size most : Int} (run : combinations size = .ok most) :
    ∃ count : Nat, size = count ∧ most = 2 ^ count := by
  simp only [combinations, check_eq_ok] at run
  obtain ⟨nonnegative, -, -, run⟩ := run
  obtain ⟨count, rfl⟩ := Int.eq_ofNat_of_zero_le (Int.not_lt.mp nonnegative)
  cases run
  refine ⟨count, rfl, ?_⟩
  rw [Int.toNat_natCast]
  simp

theorem Problem.recordLength_bounds {p : Problem} {requested : Datum} {length : Int}
    (run : p.recordLength requested = .ok length) :
    ∃ size : Nat, p.size = size ∧ 0 ≤ length ∧ length ≤ 2 ^ size := by
  obtain ⟨most, combined, run⟩ := bind_eq_ok.mp run
  obtain ⟨size, sized, rfl⟩ := combinations_eq_ok combined
  refine ⟨size, sized, ?_⟩
  split at run
  · cases run
    exact ⟨by positivity, Int.le_refl _⟩
  · obtain ⟨read, _, run⟩ := bind_eq_ok.mp run
    simp only [check_eq_ok] at run
    obtain ⟨nonnegative, within, run⟩ := run
    cases run
    exact ⟨Int.not_lt.mp nonnegative, Int.not_lt.mp within⟩

structure Record.IsSampled (r : Record Assignment) (size : Nat) (levels : List (Float × List Int))
    (info : RunInfo) : Prop where
  small : size < 1024
  capacity : 0 ≤ r.capacity ∧ r.capacity ≤ 2 ^ size
  entries : r.entries = levels.map entryOf
  bits : ∀ level ∈ levels, IsBits level.2 ∧ level.2.length = size
  informed : r.info = some info
  evaluations : (Number.int (2 ^ size : Nat)).toFloat = .ok info.evaluations
  distinct : ∃ count : Nat, (Number.int count).toFloat = .ok info.distinctEnergies

theorem Solver.enumerate_sampled {p : Problem} {size : Nat} {length : Int}
    {record : Record Assignment} (sized : p.size = size) (nonnegative : 0 ≤ length)
    (within : length ≤ 2 ^ size) (run : enumerate p length = .ok record) :
    ∃ levels info, record.IsSampled size levels info := by
  have small := size_lt_of_enumerate sized run
  obtain ⟨couplings, -, run⟩ := bind_eq_ok.mp run
  obtain ⟨found, searched, run⟩ := bind_eq_ok.mp run
  obtain ⟨filled, filledRun, run⟩ := bind_eq_ok.mp run
  obtain ⟨evaluations, evaluated, run⟩ := bind_eq_ok.mp run
  obtain ⟨distinct, counted, run⟩ := bind_eq_ok.mp run
  cases run
  rw [sized, Int.toNat_natCast] at searched evaluated
  rw [length_sweep] at evaluated
  obtain ⟨levels, rfl, swept⟩ := levels_of_search (fun xs member => (mem_sweep.mp member).1) searched
  rw [rank_snapshots] at filledRun
  have rearranged := Ranking.rank_perm (fun a b : Float × List Int => decide (a.1 < b.1))
    (fun a => a.1 == a.1) levels
  generalize Ranking.rank _ _ levels = ordered at filledRun rearranged
  have bits : ∀ level ∈ ordered, IsBits level.2 ∧ level.2.length = size := by
    intro level member
    exact mem_sweep.mp (swept level (rearranged.subset member))
  rw [fill_eq fun level member => (bits level member).1] at filledRun
  cases filledRun
  refine ⟨ordered.take length.toNat, ⟨evaluations, distinct⟩, small, ⟨nonnegative, within⟩, ?_, ?_,
    rfl, evaluated, _, counted⟩
  · simp [Record.size]
  · intro level member
    exact bits level (List.mem_of_mem_take member)

/-- Whatever solver returns a record, it is one of the exhaustive solver. -/
theorem Solver.sample_sampled {ν : Type} {solver : Solver ν} {p : Problem} {requested : Datum}
    {record : Record Assignment} (run : solver.sample p requested = .ok record) :
    ∃ (size : Nat) (levels : List (Float × List Int)) (info : RunInfo),
      p.size = size ∧ record.IsSampled size levels info := by
  obtain ⟨limit, rfl⟩ := exhaustive_of_sample run
  obtain ⟨length, lengthRun, run⟩ := bind_eq_ok.mp (enumerate_of_sample run)
  obtain ⟨size, sized, nonnegative, within⟩ := Problem.recordLength_bounds lengthRun
  obtain ⟨levels, info, sampled⟩ := enumerate_sampled sized nonnegative within run
  exact ⟨size, levels, info, sized, sampled⟩

theorem Assignment.integerText_bit {x : Int} (bit : x = 0 ∨ x = 1) :
    integerText x = .ok (toString x) := by
  apply integerText_of_short
  have one : 1 < 10 ^ Literal.digitLimit := Nat.one_lt_pow (by decide) (by decide)
  omega

namespace Record.IsSampled

variable {r : Record Assignment} {size : Nat} {levels : List (Float × List Int)} {info : RunInfo}

def rowOf (level : Float × List Int) : Row := ⟨level.1, level.2, 1⟩

theorem toRows (sampled : r.IsSampled size levels info) : r.toRows = .ok (levels.map rowOf) := by
  rw [Record.toRows, sampled.entries, List.mapM_map]
  apply mapM_eq_ok_map
  intro level member
  change (entryOf level).toRow = _
  rw [entryOf, Entry.toRow, bits_ofInts]
  rfl

def lineOf (level : Float × List Int) : String :=
  Layout.commaSeparated.render level.1 ++ "," ++ String.join (level.2.map toString) ++ "," ++
    toString (1 : Int) ++ "\n"

theorem commaSeparated (sampled : r.IsSampled size levels info) : r.commaSeparated =
    .ok (",".intercalate columnNames ++ "\n" ++ String.join (levels.map lineOf)) := by
  have lines : ((levels.map rowOf).mapM Row.commaSeparated) = .ok (levels.map lineOf) := by
    rw [List.mapM_map]
    apply mapM_eq_ok_map
    intro level member
    have text : bitString level.2 = .ok (String.join (level.2.map toString)) := by
      rw [bitString, mapM_eq_ok_map (g := toString), ok_bind]
      · rfl
      · intro x inside
        exact integerText_bit ((sampled.bits level member).1 x inside)
    change (rowOf level).commaSeparated = _
    rw [rowOf, Row.commaSeparated, text, ok_bind, integerText_bit (.inr rfl), ok_bind]
    rfl
  rw [Record.commaSeparated, sampled.toRows, ok_bind, lines, ok_bind]
  rfl

def shownCells (xs : List Int) : String :=
  "[" ++ String.join (xs.zipIdx.map fun bit => s!"q{bit.2}: " ++ toString bit.1 ++ ", ") ++ "]"

def shownLine (level : Float × List Int) : String :=
  formatEnergy level.1 ++ "\t" ++ shownCells level.2 ++ "\tx" ++ toString (1 : Int)

theorem render (sampled : r.IsSampled size levels info) : r.render =
    .ok ("   energy\tsample\toccurrences\n" ++
      String.join ((levels.map shownLine).zipIdx.map fun (line, k) =>
        s!"({k + 1}) " ++ line ++ "\n")) := by
  have lines : r.entries.mapM Entry.render = .ok (levels.map shownLine) := by
    rw [sampled.entries, List.mapM_map]
    apply mapM_eq_ok_map
    intro level member
    have row : (entryOf level).toRow = .ok (rowOf level) := by
      rw [entryOf, Entry.toRow, bits_ofInts]
      rfl
    have cells : Assignment.render level.2 = .ok (shownCells level.2) := by
      rw [Assignment.render,
        mapM_eq_ok_map (g := fun bit => s!"q{bit.2}: " ++ toString bit.1 ++ ", "), ok_bind]
      · rfl
      · rintro ⟨x, i⟩ inside
        have bit := (sampled.bits level member).1 x (List.fst_mem_of_mem_zipIdx inside)
        dsimp only
        rw [integerText_bit bit]
        rfl
    change (entryOf level).render = _
    rw [Entry.render, row, ok_bind, rowOf, cells, ok_bind, integerText_bit (.inr rfl), ok_bind]
    rfl
  rw [Record.render, lines, ok_bind]
  rfl

theorem summary (sampled : r.IsSampled size levels info) :
    ∃ text, CommandLine.summary r = .ok text := by
  obtain ⟨negative, mantissa, exponent, found⟩ := parts_of_toFloat sampled.evaluations
  have whole : (Number.float info.evaluations).truncate =
      .ok (applySign negative (wholePart mantissa exponent)) := by
    rw [Number.truncate, found]
  have short : (applySign negative (wholePart mantissa exponent)).natAbs < 10 ^ Literal.digitLimit := by
    rw [applySign_natAbs]
    exact wholePart_lt found
  rw [CommandLine.summary, sampled.render, ok_bind, sampled.informed, Option.map_some,
    Option.getD_some, whole, ok_bind, integerText_of_short short, ok_bind]
  exact ⟨_, rfl⟩

end Record.IsSampled

end BinaryQuadratic
