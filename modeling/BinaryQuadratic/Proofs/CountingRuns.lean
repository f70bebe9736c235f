import BinaryQuadratic.Proofs.Counting

/-!
Counting up again and again. Each call adds one to the number that the bits stand for, and a call
on all ones starts over from zero.
-/

namespace BinaryQuadratic.Assignment

/-- Counts up a number of times. Each call is listed by the assignment that it met and by its flag,
and the assignment that is left stands behind them. -/
def incrementTimes : Nat → Assignment → Except Fault (List (Assignment × Bool) × Assignment)
  | 0, a => .ok ([], a)
  | calls + 1, a => do
    let (next, wrapped) ← a.increment
    let (steps, last) ← incrementTimes calls next
    pure ((a, wrapped) :: steps, last)

def ReadsAs (a : Assignment) (size value : Nat) : Prop :=
  ∃ xs, a.bits = .ok xs ∧ IsBits xs ∧ xs.length = size ∧ rank xs = value

variable {a : Assignment} {size value : Nat}

theorem ReadsAs.lt (reads : a.ReadsAs size value) : value < 2 ^ size := by
  obtain ⟨xs, -, bits, rfl, rfl⟩ := reads
  exact rank_lt bits

theorem ReadsAs.size_eq (reads : a.ReadsAs size value) : a.size = .ok size := by
  obtain ⟨xs, read, -, rfl, -⟩ := reads
  obtain ⟨cells, found, rounded⟩ := bind_eq_ok.mp read
  rw [Assignment.size, found, map_ok, length_of_mapM_eq_ok rounded]

theorem ReadsAs.of_zero (reads : a.ReadsAs size 0) : a.bits = .ok (List.replicate size 0) := by
  obtain ⟨xs, read, bits, rfl, zero⟩ := reads
  rw [read, rank_inj bits (isBits_replicate xs.length) (by simp) (by rw [zero, rank_replicate])]
  simp

theorem filled_zeros {size : Nat} (fits : (size : Int) < cellLimit) :
    filled (.int size) (.int 0) = .ok (ofInts (List.replicate size 0)) := by
  have limit : cellLimit = 0x200000000 := rfl
  have word : Number.isWord size = true := by
    simp only [Number.isWord, Bool.and_eq_true, decide_eq_true_eq]
    omega
  have binary : isBinary (.int 0) = true := rfl
  have count : Value.toInt (Datum.int size) = .ok (size : Int) := rfl
  rw [filled, binary, count, ok_bind, word, if_neg (by decide), if_neg (by decide),
    if_neg (by omega), Int.toNat_natCast, ofInts, List.map_replicate]
  rfl

theorem readsAs_filled {length : Int} (run : filled (.int length) (.int 0) = .ok a) :
    a.ReadsAs length.toNat 0 := by
  have whole : a = ofInts (List.replicate length.toNat 0) := by
    have checked := (check_eq_ok.mp run).2
    cases (check_eq_ok.mp checked).2
    rw [ofInts, List.map_replicate]
  rw [whole]
  exact ⟨_, bits_ofInts _, isBits_replicate _, List.length_replicate, rank_replicate _⟩

theorem increment_eq {xs : List Int} (read : a.bits = .ok xs) (bits : IsBits xs) :
    ∃ next, a.increment = .ok (next, (flipFromRight xs).2) ∧
      next.bits = .ok (flipFromRight xs).1 := by
  rw [increment, read, ok_bind, successor_eq bits]
  cases xs with
  | nil => exact ⟨a, rfl, read⟩
  | cons x rest => exact ⟨_, rfl, bits_ofInts _⟩

theorem mod_of_carry {sum value limit : Nat} {carry : Bool} (sumBelow : sum < limit)
    (below : value < limit) (added : sum + (if carry then limit else 0) = value + 1) :
    sum = (value + 1) % limit ∧ (carry = true ↔ value = limit - 1) := by
  cases carry with
  | false =>
      rw [if_neg Bool.false_ne_true] at added
      rw [Nat.mod_eq_of_lt (by omega)]
      refine ⟨by omega, ?_⟩
      simp only [Bool.false_eq_true, false_iff]
      omega
  | true =>
      rw [if_pos rfl] at added
      have whole : value + 1 = limit := by omega
      rw [whole, Nat.mod_self]
      refine ⟨by omega, ?_⟩
      simp only [true_iff]
      omega

theorem increment_spec (reads : a.ReadsAs size value) :
    ∃ next wrapped, a.increment = .ok (next, wrapped) ∧
      next.ReadsAs size ((value + 1) % 2 ^ size) ∧ (wrapped = true ↔ value = 2 ^ size - 1) := by
  have below := reads.lt
  obtain ⟨xs, read, bits, rfl, rfl⟩ := reads
  obtain ⟨next, run, nextRead⟩ := increment_eq read bits
  obtain ⟨nextBits, sameLength, added⟩ := flipFromRight_spec bits
  have nextBelow := rank_lt nextBits
  rw [sameLength] at nextBelow
  obtain ⟨sum, wraps⟩ := mod_of_carry nextBelow below added
  exact ⟨next, _, run, ⟨_, nextRead, nextBits, sameLength, sum⟩, wraps⟩

theorem div_of_wrap {value limit : Nat} (below : value < limit) (calls : Nat) :
    ((value + 1) % limit + calls) / limit + (if value = limit - 1 then 1 else 0) =
      (value + (calls + 1)) / limit := by
  by_cases last : value = limit - 1
  · have whole : value + 1 = limit := by omega
    have total : value + (calls + 1) = calls + limit := by omega
    rw [if_pos last, whole, Nat.mod_self, Nat.zero_add, total, Nat.add_div_right _ (by omega)]
  · rw [if_neg last, Nat.mod_eq_of_lt (by omega), Nat.add_zero]
    congr 1
    omega

theorem incrementTimes_spec (calls : Nat) (reads : a.ReadsAs size value) :
    ∃ steps last, incrementTimes calls a = .ok (steps, last) ∧
      last.ReadsAs size ((value + calls) % 2 ^ size) ∧ steps.length = calls ∧
      steps.countP (fun step => step.2) = (value + calls) / 2 ^ size ∧
      ∀ t before wrapped, steps[t]? = some (before, wrapped) →
        before.ReadsAs size ((value + t) % 2 ^ size) ∧
          (wrapped = true ↔ (value + t) % 2 ^ size = 2 ^ size - 1) := by
  have below := reads.lt
  induction calls generalizing a value with
  | zero =>
      refine ⟨[], a, rfl, ?_, rfl, ?_, nofun⟩
      · rwa [Nat.add_zero, Nat.mod_eq_of_lt below]
      · rw [Nat.add_zero, Nat.div_eq_of_lt below]
        rfl
  | succ calls ih =>
      obtain ⟨next, wrapped, stepped, nextReads, wraps⟩ := increment_spec reads
      -- The later calls start from one more, modulo the power of two.
      obtain ⟨steps, last, run, lastReads, length, count, each⟩ := ih nextReads nextReads.lt
      refine ⟨(a, wrapped) :: steps, last, ?_, ?_, congrArg Nat.succ length, ?_, ?_⟩
      · rw [incrementTimes, stepped, ok_bind]
        dsimp only
        rw [run]
        rfl
      · rwa [Nat.mod_add_mod, Nat.add_assoc, Nat.add_comm 1] at lastReads
      · rw [List.countP_cons, count, ← div_of_wrap below]
        simp only [wraps]
      · intro t before flag found
        cases t with
        | zero =>
            cases found
            rw [Nat.add_zero, Nat.mod_eq_of_lt below]
            exact ⟨reads, wraps⟩
        | succ t =>
            have later := each t before flag found
            rwa [Nat.mod_add_mod, Nat.add_assoc, Nat.add_comm 1] at later

/-- Counting up counts modulo the power of two that belongs to the length, and the flags tell when
it starts over. From zero it takes exactly all numbers to come back to zero. -/
theorem counting_up :
    (∀ (a : Assignment) (size value calls : Nat), a.ReadsAs size value →
      ∃ steps last, incrementTimes calls a = .ok (steps, last) ∧ last.size = .ok size ∧
        last.ReadsAs size ((value + calls) % 2 ^ size) ∧ steps.length = calls ∧
        steps.countP (fun step => step.2) = (value + calls) / 2 ^ size ∧
        ∀ t before wrapped, steps[t]? = some (before, wrapped) →
          before.ReadsAs size ((value + t) % 2 ^ size) ∧
            (wrapped = true ↔ (value + t) % 2 ^ size = 2 ^ size - 1)) ∧
    ∀ size : Nat, ((size : Int) < cellLimit → ∃ a, filled (.int size) (.int 0) = .ok a) ∧
      ∀ a, filled (.int size) (.int 0) = .ok a →
        ∃ steps last, incrementTimes (2 ^ size) a = .ok (steps, last) ∧ steps.length = 2 ^ size ∧
          (∀ t before wrapped, steps[t]? = some (before, wrapped) →
            before.ReadsAs size t ∧ (wrapped = true ↔ t + 1 = 2 ^ size)) ∧
          last.bits = .ok (List.replicate size 0) := by
  refine ⟨?_, fun size => ⟨fun fits => ⟨_, filled_zeros fits⟩, ?_⟩⟩
  · intro a size value calls reads
    obtain ⟨steps, last, run, lastReads, length, count, each⟩ := incrementTimes_spec calls reads
    exact ⟨steps, last, run, lastReads.size_eq, lastReads, length, count, each⟩
  · intro a run
    have reads := readsAs_filled run
    rw [Int.toNat_natCast] at reads
    obtain ⟨steps, last, run, lastReads, length, -, each⟩ := incrementTimes_spec (2 ^ size) reads
    rw [Nat.zero_add, Nat.mod_self] at lastReads
    refine ⟨steps, last, run, length, ?_, lastReads.of_zero⟩
    intro t before wrapped found
    have bound : t < 2 ^ size := by
      rw [← length]
      exact (List.getElem?_eq_some_iff.mp found).1
    have state := each t before wrapped found
    rw [Nat.zero_add, Nat.mod_eq_of_lt bound] at state
    refine ⟨state.1, state.2.trans ?_⟩
    omega

theorem counting_up_wrapped :
    (∃ steps last, incrementTimes 3 (ofInts [1, 0]) = .ok (steps, last) ∧ last.ReadsAs 2 1 ∧
      steps.countP (fun step => step.2) = 1) ∧
    ∃ a steps last, filled (.int 2) (.int 0) = .ok a ∧ incrementTimes 4 a = .ok (steps, last) ∧
      last.bits = .ok [0, 0] := by
  have reads : (ofInts [1, 0]).ReadsAs 2 2 := ⟨_, bits_ofInts _, by simp [IsBits], rfl, rfl⟩
  obtain ⟨steps, last, run, -, lastReads, -, count, -⟩ := counting_up.1 _ 2 2 3 reads
  obtain ⟨a, zeros⟩ := (counting_up.2 2).1 (by decide)
  obtain ⟨round, back, roundRun, -, -, backRead⟩ := (counting_up.2 2).2 a zeros
  exact ⟨⟨steps, last, run, lastReads, count⟩, a, round, back, zeros, roundRun, backRead⟩

end BinaryQuadratic.Assignment
