import BinaryQuadratic.Proofs.Binary64.Conversion
import BinaryQuadratic.Proofs.BitEnergy
import BinaryQuadratic.Proofs.Spectrum
import BinaryQuadratic.Solver

/-!
The exhaustive solver. Its record is the start of the ranked candidates, and these are the
spectrum of the problem unless some energy is no number.
-/

namespace BinaryQuadratic

open Assignment Binary64 CouplingArray Enumeration

namespace Solver

def entryOf (level : Float × List Int) : Entry Assignment :=
  ⟨.float level.1, .ofInts level.2, 1⟩

theorem accept_level {level : Float × List Int} (bits : IsBits level.2) :
    Proposal.accept ⟨.float level.1, .ofInts level.2, .int 1⟩ = .ok (entryOf level) := by
  rw [Proposal.accept, copy_ofInts bits]
  rfl

theorem fill_eq {levels : List (Float × List Int)} (bits : ∀ level ∈ levels, IsBits level.2)
    (r : Record Assignment) :
    fill r (levels.map snapshot) = .ok { r with
      entries := r.entries ++ (levels.take (r.capacity - r.size).toNat).map entryOf } := by
  induction levels generalizing r with
  | nil => simp [fill]
  | cons level rest ih =>
      obtain ⟨energy, xs⟩ := level
      rw [List.forall_mem_cons] at bits
      rw [List.map_cons, snapshot]
      unfold fill
      by_cases full : r.capacity ≤ r.size
      · have none : (r.capacity - r.size).toNat = 0 := by omega
        rw [if_pos (by simpa [Record.isFull] using full), none]
        simp
      · have notFull : r.isFull = false := by simpa [Record.isFull] using full
        have inserted : r.insert ⟨.float energy, .ofInts xs, .int 1⟩ =
            .ok (r.append (entryOf (energy, xs)),
              (r.append (entryOf (energy, xs))).isExhausted) := by
          simp only [Record.insert, notFull, Bool.false_eq_true, if_false, accept_level bits.1]
          rfl
        have room : (r.capacity - r.size).toNat =
            (r.capacity - (r.append (entryOf (energy, xs))).size).toNat + 1 := by
          simp only [Record.append, Record.size, List.length_append, List.length_singleton]
          simp only [Record.size] at full
          omega
        rw [notFull, if_neg (by decide), inserted, ok_bind]
        simp only [ih bits.2, room, List.take_succ_cons]
        simp [Record.append]

theorem combinations_ok {size : Nat} (small : size < 1024) :
    combinations size = .ok (2 ^ size : Nat) := by
  simp only [combinations]
  rw [if_neg (by omega), if_neg (by rw [combinationLimit]; omega),
    if_neg (by rw [combinationMemory]; omega)]
  rfl

/-- A requested number of entries of at most some number; null requests all of them. -/
def Requests (requested : Datum) (most length : Nat) : Prop :=
  (requested = .null ∧ length = most) ∨ (Value.toInt requested = .ok (length : Int) ∧ length ≤ most)

theorem isNull_of_toInt {d : Datum} {n : Int} (read : Value.toInt d = .ok n) :
    Value.isNull d = false := by
  cases d with
  | scalar s =>
      cases s with
      | null => cases read
      | _ => rfl
  | list items => cases read
  | table fields => cases read

theorem recordLength_ok {p : Problem} {size length : Nat} {requested : Datum}
    (sized : p.size = size) (small : size < 1024)
    (request : Requests requested (2 ^ size) length) :
    p.recordLength requested = .ok (length : Int) := by
  rw [Problem.recordLength, sized, combinations_ok small, ok_bind]
  rcases request with ⟨rfl, rfl⟩ | ⟨read, bound⟩
  · rfl
  · rw [isNull_of_toInt read, if_neg (by decide), read, ok_bind, if_neg (by omega),
      if_neg (by omega)]
    rfl

theorem combinations_nonnegative {size most : Int} (run : combinations size = .ok most) :
    0 ≤ most := by
  simp only [combinations, check_eq_ok] at run
  obtain ⟨-, -, -, run⟩ := run
  cases run
  exact Int.natCast_nonneg _

theorem recordLength_nonnegative {p : Problem} {requested : Datum} {length : Int}
    (run : p.recordLength requested = .ok length) : 0 ≤ length := by
  obtain ⟨most, combined, run⟩ := bind_eq_ok.mp run
  split at run
  · cases run
    exact combinations_nonnegative combined
  · obtain ⟨read, _, run⟩ := bind_eq_ok.mp run
    simp only [check_eq_ok] at run
    obtain ⟨nonnegative, -, run⟩ := run
    cases run
    exact Int.not_lt.mp nonnegative

theorem sample_eq_enumerate {ν : Type} (p : Problem) (requested : Datum) :
    (exhaustive .null : Solver ν).sample p requested =
      p.recordLength requested >>= enumerate p := rfl

theorem exhaustive_of_sample {ν : Type} {solver : Solver ν} {p : Problem} {requested : Datum}
    {record : Record Assignment} (run : solver.sample p requested = .ok record) :
    ∃ limit, solver = .exhaustive limit := by
  cases solver with
  | base => cases run
  | exhaustive limit => exact ⟨limit, rfl⟩
  | hardware name limit =>
      obtain ⟨_, -, run⟩ := bind_eq_ok.mp run
      obtain ⟨exceeded, -, run⟩ := bind_eq_ok.mp run
      cases exceeded with
      | true => cases run
      | false => cases run

theorem enumerate_of_sample {ν : Type} {limit requested : Datum} {p : Problem}
    {record : Record Assignment}
    (run : (exhaustive limit : Solver ν).sample p requested = .ok record) :
    p.recordLength requested >>= enumerate p = .ok record := by
  obtain ⟨exceeded, -, run⟩ := bind_eq_ok.mp run
  cases exceeded with
  | true =>
      obtain ⟨_, -, stopped⟩ := bind_eq_ok.mp run
      cases stopped
  | false => exact run

theorem search_sweep (entry : Nat → Nat → Float) (size : Nat) :
    search (.square size entry) (sweep size) =
      .ok ((firstOfEach (candidatesOf (bitEnergy entry) size)).map snapshot) := by
  apply search_eq
  intro xs member
  obtain ⟨bits, rfl⟩ := mem_sweep.mp member
  exact ⟨bits, energy_bits bits entry⟩

theorem length_ranked_le (energy : List Int → Float) (size : Nat) :
    (ranked (candidatesOf energy size)).length ≤ 2 ^ size := by
  rw [(ranked_perm _).length_eq, ← length_candidatesOf energy size]
  exact length_firstOfEach_le _

theorem fill_ranked (energy : List Int → Float) (size length : Nat) :
    fill ⟨length, none, []⟩ ((ranked (candidatesOf energy size)).map snapshot) =
      .ok ⟨length, none, ((ranked (candidatesOf energy size)).take length).map entryOf⟩ := by
  have bits : ∀ level ∈ ranked (candidatesOf energy size), IsBits level.2 := by
    intro level member
    have candidate := firstOfEach_subset _ ((ranked_perm _).subset member)
    exact (mem_candidatesOf.mp candidate).1
  rw [fill_eq bits]
  simp [Record.size]

theorem enumerate_eq {p : Problem} {property : Float → Prop} {size : Nat} (sized : p.size = size)
    (small : size < 1024) (coefficients : p.HasCoefficients property) (length : Nat) :
    ∃ evaluations distinct,
      (Number.int (2 ^ size : Nat)).toFloat = .ok evaluations ∧
      (Number.int (ranked (candidatesOf (bitEnergy p.weight) size)).length).toFloat =
        .ok distinct ∧
      enumerate p length = .ok ⟨length, some ⟨evaluations, distinct⟩,
        ((ranked (candidatesOf (bitEnergy p.weight) size)).take length).map entryOf⟩ := by
  have couplings : p.toCouplings = .ok (.square size p.weight) :=
    Problem.toCouplings_ok coefficients sized (by rw [Problem.sideMemory]; omega)
  have least := length_ranked_le (bitEnergy p.weight) size
  obtain ⟨evaluations, evaluated⟩ :=
    toFloat_exists (n := (2 ^ size : Nat)) (Nat.le_refl _) small
  obtain ⟨distinct, counted⟩ := toFloat_exists
    (n := (ranked (candidatesOf (bitEnergy p.weight) size)).length) least small
  refine ⟨evaluations, distinct, evaluated, counted, ?_⟩
  rw [(ranked_perm _).length_eq] at counted
  rw [enumerate, couplings, ok_bind, sized, Int.toNat_natCast]
  dsimp only
  rw [search_sweep, ok_bind, rank_snapshots, List.length_map]
  change fill _ ((ranked (candidatesOf (bitEnergy p.weight) size)).map snapshot) >>= _ = _
  rw [fill_ranked, ok_bind, length_sweep, evaluated, ok_bind, counted]
  rfl

theorem size_lt_of_enumerate {p : Problem} {size : Nat} {length : Int}
    {record : Record Assignment} (sized : p.size = size)
    (run : enumerate p length = .ok record) : size < 1024 := by
  obtain ⟨couplings, -, run⟩ := bind_eq_ok.mp run
  obtain ⟨found, -, run⟩ := bind_eq_ok.mp run
  obtain ⟨filled, -, run⟩ := bind_eq_ok.mp run
  obtain ⟨evaluations, evaluated, -⟩ := bind_eq_ok.mp run
  rw [sized, Int.toNat_natCast, length_sweep] at evaluated
  by_contra large
  rw [toFloat_two_pow_large (Nat.le_of_not_lt large)] at evaluated
  cases evaluated

theorem isFinite_weight {p : Problem} (finite : p.HasCoefficients fun x => x.isFinite = true)
    (i j : Nat) : (p.weight i j).isFinite = true := by
  rcases Problem.weight_cases finite i j with zero | holds
  · rw [zero]
    rfl
  · exact holds

theorem isSpectrum_weight {p : Problem} (finite : p.HasCoefficients fun x => x.isFinite = true)
    (size : Nat) : IsSpectrum (.square size p.weight) size
      (ranked (candidatesOf (bitEnergy p.weight) size)) := by
  apply isSpectrum_ranked
  · rintro xs bits rfl
    exact energy_bits bits p.weight
  · intro xs _ _
    exact isNaN_bitEnergy (isFinite_weight finite)

theorem energy_of_toCouplings {p : Problem} {property : Float → Prop} {size : Nat}
    (sized : p.size = size) (small : size < 1024) (coefficients : p.HasCoefficients property)
    {couplings : CouplingArray} (converted : p.toCouplings = .ok couplings) {xs : List Int}
    (bits : IsBits xs) (length : xs.length = size) :
    couplings.energy (.ofInts xs) = .ok (bitEnergy p.weight xs) := by
  rw [Problem.toCouplings_ok coefficients sized (by rw [Problem.sideMemory]; omega)] at converted
  cases converted
  subst length
  exact energy_bits bits p.weight

/-- The record of a problem with finite coefficients is the start of its one spectrum, of the
requested length, with the numbers of combinations and of energies. Its first entry has the least
energy. -/
theorem exhaustive_sample_spectrum {ν : Type} {p : Problem} {size length : Nat}
    {requested : Datum} (sized : p.size = size) (small : size < 1024)
    (finite : p.HasCoefficients fun x => x.isFinite = true)
    (request : Requests requested (2 ^ size) length) :
    ∃ couplings levels evaluations distinct record,
      p.toCouplings = .ok couplings ∧
      IsSpectrum couplings size levels ∧
      (∀ others, IsSpectrum couplings size others → others = levels) ∧
      (exhaustive .null : Solver ν).sample p requested = .ok record ∧
      record.entries = (levels.take length).map entryOf ∧
      record.capacity = length ∧
      record.info = some ⟨evaluations, distinct⟩ ∧
      (Number.int (2 ^ size : Nat)).toFloat = .ok evaluations ∧
      (Number.int levels.length).toFloat = .ok distinct ∧
      record.size = min length levels.length ∧
      (1 ≤ length → ∃ first rest, record.entries = entryOf first :: rest ∧
        ∀ xs, IsBits xs → xs.length = size →
          ∃ energy, couplings.energy (.ofInts xs) = .ok energy ∧ first.1 ≤ energy) := by
  have couplings : p.toCouplings = .ok (.square size p.weight) :=
    Problem.toCouplings_ok finite sized (by rw [Problem.sideMemory]; omega)
  have spectrum := isSpectrum_weight finite size
  obtain ⟨evaluations, distinct, evaluated, counted, enumerated⟩ :=
    enumerate_eq sized small finite length
  refine ⟨_, _, evaluations, distinct, ⟨length, some ⟨evaluations, distinct⟩, _⟩, couplings,
    spectrum, fun _ other => other.unique spectrum, ?_, rfl, rfl, rfl, evaluated, counted, ?_, ?_⟩
  · rw [sample_eq_enumerate, recordLength_ok sized small request, ok_bind, enumerated]
  · simp [Record.size]
  · intro positive
    obtain ⟨first, rest, whole⟩ := List.exists_cons_of_ne_nil spectrum.nonempty
    rw [whole] at spectrum ⊢
    refine ⟨first, (rest.take (length - 1)).map entryOf, ?_, ?_⟩
    · obtain ⟨others, rfl⟩ := Nat.exists_eq_add_of_le' positive
      simp
    · intro xs bits sameLength
      exact spectrum.first_le bits sameLength

theorem exhaustive_sample_spectrum_pair :
    ∃ record, (exhaustive .null : Solver Unit).sample
        ⟨2, [((0, 1), .int 2), ((0, 0), .int (-1))]⟩ (.int 2) = .ok record ∧
      record.capacity = 2 ∧
      record.entries = [entryOf (-1.0, [1, 0]), entryOf (0.0, [0, 0])] := by
  have finite : Problem.HasCoefficients ⟨2, [((0, 1), .int 2), ((0, 0), .int (-1))]⟩
      fun x => x.isFinite = true := by
    simp only [Problem.HasCoefficients, List.forall_mem_cons]
    exact ⟨⟨2.0, rfl, rfl⟩, ⟨-1.0, rfl, rfl⟩, List.forall_mem_nil _⟩
  have request : Requests (.int 2) (2 ^ 2) 2 := .inr ⟨rfl, by decide⟩
  obtain ⟨couplings, levels, _, _, record, converted, -, unique, run, entries, capacity, -⟩ :=
    exhaustive_sample_spectrum rfl (by decide) finite request
  have weighed {xs : List Int} {energy : Float} (bits : IsBits xs) (length : xs.length = 2)
      (value : bitEnergy (Problem.weight ⟨2, [((0, 1), .int 2), ((0, 0), .int (-1))]⟩) xs =
        energy) : couplings.energy (.ofInts xs) = .ok energy :=
    value ▸ energy_of_toCouplings rfl (by decide) finite converted bits length
  have neither : couplings.energy (.ofInts [0, 0]) = .ok 0.0 :=
    weighed (by simp [IsBits]) rfl rfl
  have last : couplings.energy (.ofInts [0, 1]) = .ok 0.0 := weighed (by simp [IsBits]) rfl rfl
  have first : couplings.energy (.ofInts [1, 0]) = .ok (-1.0) :=
    weighed (by simp [IsBits]) rfl rfl
  have both : couplings.energy (.ofInts [1, 1]) = .ok 1.0 :=
    weighed (by simp [IsBits]) rfl (by decide +kernel)
  have spectrum : IsSpectrum couplings 2 [(-1.0, [1, 0]), (0.0, [0, 0]), (1.0, [1, 1])] := by
    refine ⟨?_, ?_, ?_⟩
    · simp only [List.pairwise_cons, List.forall_mem_cons]
      exact ⟨⟨by decide, by decide, List.forall_mem_nil _⟩, ⟨by decide, List.forall_mem_nil _⟩,
        List.forall_mem_nil _, .nil⟩
    · simp only [List.forall_mem_cons]
      exact ⟨⟨by simp [IsBits], rfl, first⟩, ⟨by simp [IsBits], rfl, neither⟩,
        ⟨by simp [IsBits], rfl, both⟩, List.forall_mem_nil _⟩
    · intro xs bits length
      have swept : xs ∈ sweep 2 := mem_sweep.mpr ⟨bits, length⟩
      change xs ∈ [[0, 0], [0, 1], [1, 0], [1, 1]] at swept
      simp only [List.mem_cons, List.not_mem_nil, or_false] at swept
      rcases swept with rfl | rfl | rfl | rfl
      · exact ⟨0.0, neither, (0.0, [0, 0]), by simp, rfl, by decide⟩
      · exact ⟨0.0, last, (0.0, [0, 0]), by simp, rfl, by decide⟩
      · exact ⟨-1.0, first, (-1.0, [1, 0]), by simp, rfl, by decide⟩
      · exact ⟨1.0, both, (1.0, [1, 1]), by simp, rfl, by decide⟩
  rw [← unique _ spectrum] at entries
  exact ⟨record, run, capacity, entries⟩

end Solver

def Record.Ascending {σ : Type} (r : Record σ) : Prop :=
  r.entries.Pairwise fun a b => ∃ x y, a.energy = .float x ∧ b.energy = .float y ∧ x < y

namespace Solver

theorem pairwise_map_entryOf {levels : List (Float × List Int)} :
    ((levels.map entryOf).Pairwise fun a b =>
      ∃ x y, a.energy = .float x ∧ b.energy = .float y ∧ x < y) ↔
      levels.Pairwise fun a b => a.1 < b.1 := by
  rw [List.pairwise_map]
  constructor
  · intro ordered
    apply ordered.imp
    rintro a b ⟨x, y, left, right, order⟩
    cases left
    cases right
    exact order
  · intro ordered
    apply ordered.imp
    intro a b order
    exact ⟨a.1, b.1, rfl, rfl, order⟩

theorem not_ascending_of_isNaN {levels : List (Float × List Int)} {a b : Float × List Int}
    (aMember : a ∈ levels) (bMember : b ∈ levels) (aNumber : a.1.isNaN = false)
    (bUnordered : b.1.isNaN = true) : ¬levels.Pairwise fun a b => a.1 < b.1 := by
  intro ascending
  have differs : a ≠ b := by
    rintro rfl
    rw [aNumber] at bUnordered
    cases bUnordered
  have comparable := comparable_of_ascending ascending aMember bMember differs
  rw [lt_iff, lt_iff, bUnordered] at comparable
  simp at comparable

theorem entries_of_sample {ν : Type} {p : Problem} {property : Float → Prop} {size : Nat}
    (sized : p.size = size) (coefficients : p.HasCoefficients property) {limit requested : Datum}
    {record : Record Assignment}
    (run : (exhaustive limit : Solver ν).sample p requested = .ok record) :
    size < 1024 ∧ ∃ length, record.entries =
      ((ranked (candidatesOf (bitEnergy p.weight) size)).take length).map entryOf := by
  obtain ⟨length, lengthRun, run⟩ := bind_eq_ok.mp (enumerate_of_sample run)
  obtain ⟨count, rfl⟩ := Int.eq_ofNat_of_zero_le (recordLength_nonnegative lengthRun)
  have small := size_lt_of_enumerate sized run
  obtain ⟨_, _, -, -, enumerated⟩ := enumerate_eq sized small coefficients count
  rw [enumerated] at run
  cases run
  exact ⟨small, count, rfl⟩

theorem ascending_of_numbers {ν : Type} {p : Problem} {property : Float → Prop} {size : Nat}
    (sized : p.size = size) (coefficients : p.HasCoefficients property)
    (numbers : size < 1024 → ∀ xs, IsBits xs → xs.length = size →
      (bitEnergy p.weight xs).isNaN = false)
    {limit requested : Datum} {record : Record Assignment}
    (run : (exhaustive limit : Solver ν).sample p requested = .ok record) : record.Ascending := by
  obtain ⟨small, length, entries⟩ := entries_of_sample sized coefficients run
  rw [Record.Ascending, entries, pairwise_map_entryOf]
  apply List.Pairwise.sublist (List.take_sublist length _)
  apply ranked_ascending
  intro candidate member
  obtain ⟨bits, sameLength, same⟩ := mem_candidatesOf.mp member
  rw [← same]
  exact numbers small candidate.2 bits sameLength

theorem sample_all (ν : Type) {p : Problem} {property : Float → Prop} {size : Nat}
    (sized : p.size = size) (small : size < 1024) (coefficients : p.HasCoefficients property) :
    ∃ record, (exhaustive .null : Solver ν).sample p .null = .ok record ∧
      record.entries = (ranked (candidatesOf (bitEnergy p.weight) size)).map entryOf := by
  obtain ⟨_, _, -, -, enumerated⟩ := enumerate_eq sized small coefficients (2 ^ size)
  have request : Requests .null (2 ^ size) (2 ^ size) := .inl ⟨rfl, rfl⟩
  rw [List.take_of_length_le (length_ranked_le _ size)] at enumerated
  rw [sample_eq_enumerate, recordLength_ok sized small request, ok_bind, enumerated]
  exact ⟨_, rfl, rfl⟩

theorem sample_all_not_ascending (ν : Type) {p : Problem} {property : Float → Prop} {size : Nat}
    (sized : p.size = size) (small : size < 1024) (coefficients : p.HasCoefficients property)
    {xs : List Int} (bits : IsBits xs) (length : xs.length = size)
    (unordered : (bitEnergy p.weight xs).isNaN = true) :
    ∃ record, (exhaustive .null : Solver ν).sample p .null = .ok record ∧ ¬record.Ascending := by
  obtain ⟨record, run, entries⟩ := sample_all ν sized small coefficients
  refine ⟨record, run, ?_⟩
  have zeros : (0.0, List.replicate size 0) ∈ candidatesOf (bitEnergy p.weight) size :=
    mem_candidatesOf.mpr ⟨isBits_replicate size, by simp, bitEnergy_zeros p.weight size⟩
  have nowhere : (bitEnergy p.weight xs, xs) ∈ candidatesOf (bitEnergy p.weight) size :=
    mem_candidatesOf.mpr ⟨bits, length, rfl⟩
  have number : (0.0 : Float).isNaN = false := by rfl
  obtain ⟨first, found, same, -⟩ := firstOfEach_covers (pairwise_candidatesOf _ size) zeros number
  rw [Record.Ascending, entries, pairwise_map_entryOf]
  apply not_ascending_of_isNaN
  · exact (ranked_perm _).symm.subset found
  · exact (ranked_perm _).symm.subset (mem_firstOfEach_of_isNaN nowhere unordered)
  · exact ((beq_iff _ _).mp same).1
  · exact unordered

/-- The records of a problem are all in strictly ascending order just where no energy of it fails
to be a number. An infinite coefficient of two different variables makes one fail. -/
theorem exhaustive_ascending_iff {ν : Type} {p : Problem} {size : Nat} (sized : p.size = size)
    (numbers : p.HasCoefficients fun x => x.isNaN = false) :
    ((∀ requested record, (exhaustive .null : Solver ν).sample p requested = .ok record →
        record.Ascending) ↔
      (size < 1024 → ∀ xs, IsBits xs → xs.length = size → ∃ couplings energy,
        p.toCouplings = .ok couplings ∧ couplings.energy (.ofInts xs) = .ok energy ∧
          energy.isNaN = false)) ∧
    (size < 1024 → ∀ i j d x, i < j → j < size → p.lookup (i, j) = some d →
      Value.toFloat d = .ok x → x.isInf = true →
        ∃ record, (exhaustive .null : Solver ν).sample p .null = .ok record ∧
          ¬record.Ascending) := by
  refine ⟨⟨?_, ?_⟩, ?_⟩
  · intro ascending small xs bits length
    have converted := Problem.toCouplings_ok numbers sized
      (show (size : Int) < Problem.sideMemory by rw [Problem.sideMemory]; omega)
    refine ⟨_, _, converted, energy_of_toCouplings sized small numbers converted bits length, ?_⟩
    by_contra unordered
    rw [Bool.not_eq_false] at unordered
    obtain ⟨record, run, outOfOrder⟩ :=
      sample_all_not_ascending ν sized small numbers bits length unordered
    exact outOfOrder (ascending .null record run)
  · intro ordered requested record run
    apply ascending_of_numbers sized numbers _ run
    intro small xs bits length
    obtain ⟨couplings, energy, converted, weighed, number⟩ := ordered small xs bits length
    rw [energy_of_toCouplings sized small numbers converted bits length] at weighed
    cases weighed
    exact number
  · intro small i j d x order bound found read infinite
    have coupled : p.weight i j = x := by
      rw [Problem.weight, Problem.couplingAt_of_lookup (Nat.le_of_lt order) found read]
    apply sample_all_not_ascending ν sized small numbers (isBits_unitBits size i)
      (length_unitBits size i)
    apply isNaN_bitEnergy_unitBits order bound
    rw [coupled]
    exact infinite

theorem exhaustive_ascending_infinite :
    ∃ record, (exhaustive .null : Solver Unit).sample
      ⟨2, [((0, 1), .float (Float.ofBits 0x7FF0000000000000))]⟩ .null = .ok record ∧
      ¬record.Ascending := by
  have numbers : Problem.HasCoefficients
      ⟨2, [((0, 1), .float (Float.ofBits 0x7FF0000000000000))]⟩ fun x => x.isNaN = false := by
    intro term member
    rw [List.mem_singleton.mp member]
    exact ⟨_, rfl, rfl⟩
  exact (exhaustive_ascending_iff rfl numbers).2 (by decide) 0 1 _ _ (by decide)
    (by decide) rfl rfl rfl

end Solver

end BinaryQuadratic
