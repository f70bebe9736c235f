import BinaryQuadratic.Proofs.Success
import BinaryQuadratic.Solver
import Mathlib

/-!
Counting with assignments. The successor of bits is the next number in base two, and the sweep
meets every list of bits of its length once, in the order of the numbers that they stand for.
-/

namespace BinaryQuadratic

namespace Assignment

def IsBits (xs : List Int) : Prop := ∀ x ∈ xs, x = 0 ∨ x = 1

/-- The number that bits stand for, the first being the most significant. -/
def rank : List Int → Nat
  | [] => 0
  | x :: rest => x.toNat * 2 ^ rest.length + rank rest

theorem bits_ofInts (xs : List Int) : (ofInts xs).bits = .ok xs := by
  change (xs.map Datum.int).mapM Value.round = .ok xs
  rw [List.mapM_map, mapM_eq_ok_map (g := id) (by intro x _; rfl), List.map_id]

theorem isBits_cons {x : Int} {rest : List Int} :
    IsBits (x :: rest) ↔ (x = 0 ∨ x = 1) ∧ IsBits rest := List.forall_mem_cons

theorem copy_ofInts {xs : List Int} (bits : IsBits xs) : (ofInts xs).copy = .ok (ofInts xs) := by
  have binary : (xs.map Datum.int).all isBinary = true := by
    rw [List.all_map]
    apply List.all_eq_true.mpr
    intro x member
    rcases bits x member with zero | one
    · subst x
      rfl
    · subst x
      rfl
  rw [copy, bits_ofInts, ok_bind, ofCells, if_pos binary]
  rfl

theorem isBits_getD {xs : List Int} (bits : IsBits xs) (i : Nat) :
    xs.getD i 0 = 0 ∨ xs.getD i 0 = 1 := by
  by_cases bound : i < xs.length
  · have inside : xs.getD i 0 = xs[i] := by simp [bound]
    rw [inside]
    exact bits xs[i] (List.getElem_mem bound)
  · left
    simp [Nat.le_of_not_lt bound]

theorem isBits_replicate (size : Nat) : IsBits (List.replicate size 0) := by
  intro x member
  exact .inl (List.eq_of_mem_replicate member)

theorem rank_replicate (size : Nat) : rank (List.replicate size 0) = 0 := by
  induction size with
  | zero => rfl
  | succ size ih => simp [List.replicate_succ, rank, ih]

theorem rank_lt {xs : List Int} (bits : IsBits xs) : rank xs < 2 ^ xs.length := by
  induction xs with
  | nil => decide
  | cons x rest ih =>
      rw [isBits_cons] at bits
      have below := ih bits.2
      rcases bits.1 with zero | one
      · subst x
        simp only [rank, List.length_cons, Nat.pow_succ, Int.toNat_zero, Nat.zero_mul]
        omega
      · subst x
        simp only [rank, List.length_cons, Nat.pow_succ, Int.toNat_one, Nat.one_mul]
        omega

theorem rank_inj {xs ys : List Int} (xsBits : IsBits xs) (ysBits : IsBits ys)
    (sameLength : xs.length = ys.length) (sameRank : rank xs = rank ys) : xs = ys := by
  induction xs generalizing ys with
  | nil => exact (List.length_eq_zero_iff.mp sameLength.symm).symm
  | cons x rest ih =>
      cases ys with
      | nil => cases sameLength
      | cons y others =>
          rw [isBits_cons] at xsBits ysBits
          have lengths : rest.length = others.length := Nat.succ.inj sameLength
          have restBelow := rank_lt xsBits.2
          have othersBelow := rank_lt ysBits.2
          simp only [rank, lengths] at sameRank restBelow
          have heads : x = y := by
            rcases xsBits.1 with xZero | xOne <;> rcases ysBits.1 with yZero | yOne <;>
              subst x <;> subst y <;> simp at sameRank <;> omega
          subst heads
          rw [ih xsBits.2 ysBits.2 lengths (by omega)]

theorem flipFromRight_spec {xs : List Int} (bits : IsBits xs) :
    IsBits (flipFromRight xs).1 ∧ (flipFromRight xs).1.length = xs.length ∧
      rank (flipFromRight xs).1 + (if (flipFromRight xs).2 then 2 ^ xs.length else 0) =
        rank xs + 1 := by
  induction xs with
  | nil => exact ⟨bits, rfl, rfl⟩
  | cons x rest ih =>
      rw [isBits_cons] at bits
      obtain ⟨restBits, restLength, restRank⟩ := ih bits.2
      have below := rank_lt restBits
      simp only [flipFromRight]
      by_cases carry : (flipFromRight rest).2 = true
      · simp only [carry, if_true] at restRank ⊢
        refine ⟨isBits_cons.mpr ⟨by omega, restBits⟩, congrArg Nat.succ restLength, ?_⟩
        rcases bits.1 with zero | one
        · subst x
          simp only [rank, restLength, Int.sub_zero, Int.toNat_one, ne_eq, not_true_eq_false,
            decide_false, Bool.false_eq_true, if_false, Int.toNat_zero]
          omega
        · subst x
          simp only [rank, List.length_cons, Nat.pow_succ, Int.sub_self, Int.toNat_zero, ne_eq,
            Int.zero_ne_one, not_false_eq_true, decide_true, if_true, Int.toNat_one]
          omega
      · simp only [carry, Bool.false_eq_true, if_false, Nat.add_zero] at restRank ⊢
        refine ⟨isBits_cons.mpr ⟨bits.1, restBits⟩, congrArg Nat.succ restLength, ?_⟩
        simp only [rank, restLength]
        omega

theorem flipFromRight_carry_head {x : Int} {rest : List Int} (bits : IsBits (x :: rest))
    (carry : (flipFromRight (x :: rest)).2 = true) :
    (flipFromRight (x :: rest)).1.head? = some 0 := by
  rw [isBits_cons] at bits
  simp only [flipFromRight] at carry ⊢
  by_cases inner : (flipFromRight rest).2 = true
  · simp only [inner, if_true, decide_eq_true_eq] at carry ⊢
    simp only [List.head?_cons, Option.some.injEq]
    omega
  · simp only [inner, Bool.false_eq_true, if_false] at carry

theorem successor_eq {xs : List Int} (bits : IsBits xs) : successor xs = flipFromRight xs := by
  cases xs with
  | nil => rfl
  | cons x rest =>
      have head := flipFromRight_carry_head bits
      have size := (flipFromRight_spec bits).2.1
      unfold successor
      rcases flipped : flipFromRight (x :: rest) with ⟨ys, carry⟩
      rw [flipped] at head size
      cases ys with
      | nil => cases size
      | cons y others =>
          simp only [Prod.mk.injEq, true_and]
          cases carry with
          | false => rfl
          | true => simpa using head rfl

end Assignment

namespace Enumeration

open Assignment

theorem sweepFrom_spec (fuel : Nat) {xs : List Int} (bits : IsBits xs)
    (enough : 2 ^ xs.length ≤ rank xs + fuel) :
    (∀ ys ∈ sweepFrom fuel xs, IsBits ys ∧ ys.length = xs.length) ∧
      (sweepFrom fuel xs).map rank = List.range' (rank xs) (2 ^ xs.length - rank xs) := by
  induction fuel generalizing xs with
  | zero =>
      have below := rank_lt bits
      omega
  | succ fuel ih =>
      have below := rank_lt bits
      obtain ⟨nextBits, nextLength, nextRank⟩ := flipFromRight_spec bits
      simp only [sweepFrom, successor_eq bits]
      by_cases wrapped : (flipFromRight xs).2 = true
      · have last : 2 ^ xs.length - rank xs = 1 := by
          simp only [wrapped, if_true] at nextRank
          omega
        simp only [wrapped, if_true, List.mem_singleton, List.map_cons, List.map_nil, last]
        refine ⟨?_, rfl⟩
        rintro ys rfl
        exact ⟨bits, rfl⟩
      · simp only [wrapped, Bool.false_eq_true, if_false, Nat.add_zero] at nextRank ⊢
        have nextBelow := rank_lt nextBits
        rw [nextLength] at nextBelow
        obtain ⟨members, ranks⟩ := ih nextBits (by rw [nextLength]; omega)
        have count : 2 ^ xs.length - rank xs = 2 ^ xs.length - (rank xs + 1) + 1 := by omega
        constructor
        · intro ys member
          rcases List.mem_cons.mp member with rfl | later
          · exact ⟨bits, rfl⟩
          · rw [← nextLength]
            exact members ys later
        · rw [List.map_cons, ranks, nextRank, nextLength, count, List.range'_succ]

theorem sweepFrom_add (fuel more : Nat) {xs : List Int} (bits : IsBits xs)
    (enough : 2 ^ xs.length ≤ rank xs + fuel) : sweepFrom (fuel + more) xs = sweepFrom fuel xs := by
  induction fuel generalizing xs with
  | zero =>
      have below := rank_lt bits
      omega
  | succ fuel ih =>
      obtain ⟨nextBits, nextLength, nextRank⟩ := flipFromRight_spec bits
      rw [Nat.add_right_comm]
      simp only [sweepFrom, successor_eq bits]
      by_cases wrapped : (flipFromRight xs).2 = true
      · simp only [wrapped, if_true]
      · simp only [wrapped, Bool.false_eq_true, if_false, Nat.add_zero] at nextRank ⊢
        rw [ih nextBits (by rw [nextLength]; omega)]

/-- The sweep ends because the count wraps around and not because the fuel is used up: any fuel
that is not smaller gives the same list. -/
theorem sweepFrom_of_enough {size fuel : Nat} (enough : 2 ^ size ≤ fuel) :
    sweepFrom fuel (List.replicate size 0) = sweep size := by
  obtain ⟨more, rfl⟩ := Nat.exists_eq_add_of_le enough
  apply sweepFrom_add (2 ^ size) more (isBits_replicate size)
  rw [List.length_replicate]
  exact Nat.le_add_left _ _

theorem map_rank_sweep (size : Nat) : (sweep size).map rank = List.range (2 ^ size) := by
  have swept := (sweepFrom_spec (Nat.pow 2 size) (isBits_replicate size) (by simp)).2
  rw [rank_replicate, List.length_replicate, Nat.sub_zero, ← List.range_eq_range'] at swept
  exact swept

theorem length_sweep (size : Nat) : (sweep size).length = 2 ^ size := by
  have lengths := congrArg List.length (map_rank_sweep size)
  rwa [List.length_map, List.length_range] at lengths

theorem mem_sweep {size : Nat} {xs : List Int} :
    xs ∈ sweep size ↔ IsBits xs ∧ xs.length = size := by
  have swept := (sweepFrom_spec (Nat.pow 2 size) (isBits_replicate size) (by simp)).1
  rw [List.length_replicate] at swept
  constructor
  · intro member
    exact swept xs member
  · rintro ⟨bits, length⟩
    have below := rank_lt bits
    rw [length] at below
    have ranked : rank xs ∈ (sweep size).map rank := by
      rw [map_rank_sweep]
      exact List.mem_range.mpr below
    obtain ⟨ys, member, same⟩ := List.mem_map.mp ranked
    obtain ⟨ysBits, ysLength⟩ := swept ys member
    rw [← rank_inj ysBits bits (ysLength.trans length.symm) same]
    exact member

theorem pairwise_sweep (size : Nat) : (sweep size).Pairwise fun xs ys => rank xs < rank ys := by
  have ordered : ((sweep size).map rank).Pairwise (· < ·) := by
    rw [map_rank_sweep]
    exact List.pairwise_lt_range
  exact List.pairwise_map.mp ordered

end Enumeration

end BinaryQuadratic
