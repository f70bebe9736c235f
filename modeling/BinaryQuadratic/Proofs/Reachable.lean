import BinaryQuadratic.Problem
import BinaryQuadratic.Proofs.Binary64.ExactValue
import BinaryQuadratic.Proofs.Success

/-!
Problems that can be built, and what holds of all of them: each pair has at most one term, and its
variables are in order and in range. Indices of both kinds of numbers keep their order when their
fractions are dropped.
-/

namespace BinaryQuadratic.Problem

inductive Reachable : Problem → Prop
  | empty (size : Int) : Reachable (empty size)
  | ofCouplings {h : CouplingArray} {p : Problem} : Problem.ofCouplings h = .ok p → Reachable p
  | insert {p q : Problem} {i j value : Datum} :
      Reachable p → p.insert i j value = .ok q → Reachable q

/-- No pair has two terms, and pairs are on or above the diagonal of the problem's size. -/
structure WellFormed (p : Problem) : Prop where
  distinct : (p.terms.map Prod.fst).Nodup
  upper : ∀ term ∈ p.terms, term.1.1 ≤ term.1.2 ∧ (term.1.2 : Int) < p.size

theorem map_fst_insertTerm (terms : List ((Nat × Nat) × Datum)) (pair : Nat × Nat) (value : Datum) :
    (insertTerm terms pair value).map Prod.fst =
      if pair ∈ terms.map Prod.fst then terms.map Prod.fst else terms.map Prod.fst ++ [pair] := by
  have known : (terms.any fun term => decide (term.1 = pair)) = true ↔
      pair ∈ terms.map Prod.fst := by
    simp
  unfold insertTerm
  by_cases member : pair ∈ terms.map Prod.fst
  · rw [if_pos (known.mpr member), if_pos member, List.map_map]
    apply List.map_congr_left
    intro term _
    simp only [Function.comp_apply]
    split
    · rename_i same
      exact same.symm
    · rfl
  · rw [if_neg (fun held => member (known.mp held)), if_neg member, List.map_append]
    rfl

theorem WellFormed.insertTerm {p : Problem} (wellFormed : p.WellFormed) {pair : Nat × Nat}
    (order : pair.1 ≤ pair.2) (bound : (pair.2 : Int) < p.size) (value : Datum) :
    WellFormed { p with terms := Problem.insertTerm p.terms pair value } where
  distinct := by
    rw [map_fst_insertTerm]
    split
    · exact wellFormed.distinct
    · rename_i absent
      apply List.nodup_append.mpr
      refine ⟨wellFormed.distinct, List.pairwise_singleton _ _, ?_⟩
      intro other member last same
      rw [List.mem_singleton.mp same]
      rintro rfl
      exact absent member
  upper := by
    have keys : ∀ other ∈ (Problem.insertTerm p.terms pair value).map Prod.fst,
        other.1 ≤ other.2 ∧ (other.2 : Int) < p.size := by
      have old : ∀ other ∈ p.terms.map Prod.fst,
          other.1 ≤ other.2 ∧ (other.2 : Int) < p.size :=
        List.forall_mem_map.mpr wellFormed.upper
      rw [map_fst_insertTerm]
      split
      · exact old
      · intro other member
        rcases List.mem_append.mp member with earlier | last
        · exact old other earlier
        · rw [List.mem_singleton.mp last]
          exact ⟨order, bound⟩
    exact List.forall_mem_map.mp keys

theorem wellFormed_empty (size : Int) : (empty size).WellFormed where
  distinct := List.nodup_nil
  upper := by
    intro term member
    cases member

theorem mem_upperPairs {size : Nat} {pair : Nat × Nat} :
    pair ∈ upperPairs size ↔ pair.1 ≤ pair.2 ∧ pair.2 < size := by
  obtain ⟨i, j⟩ := pair
  simp only [upperPairs, List.mem_flatMap, List.mem_range, List.mem_map, List.mem_range'_1,
    Prod.mk.injEq]
  constructor
  · rintro ⟨i, bound, j, ⟨lower, upper⟩, rfl, rfl⟩
    omega
  · intro order
    exact ⟨i, by omega, j, by omega, rfl, rfl⟩

theorem wellFormed_ofCouplings {h : CouplingArray} {p : Problem}
    (run : Problem.ofCouplings h = .ok p) : p.WellFormed := by
  have kept : p.WellFormed ∧ p.size = (h.shape.head?.getD 0 : Nat) := by
    refine foldlM_invariant (fun state => state.WellFormed ∧ state.size = _) ?_ ?_ run
    · exact ⟨wellFormed_empty _, rfl⟩
    · rintro pair member state next ⟨wellFormed, size⟩ stepped
      obtain ⟨order, bound⟩ := mem_upperPairs.mp member
      obtain ⟨x, -, stepped⟩ := bind_eq_ok.mp stepped
      split at stepped
      · cases stepped
        exact ⟨wellFormed.insertTerm order (by omega) _, size⟩
      · cases stepped
        exact ⟨wellFormed, size⟩
  exact kept.1

theorem variableOf_order {first second : Number} {size : Int} {i j : Nat}
    (firstWithin : first.inRange size = true) (secondWithin : second.inRange size = true)
    (order : second.less first = false) (firstRun : variableOf first = .ok i)
    (secondRun : variableOf second = .ok j) : i ≤ j ∧ (j : Int) < size := by
  obtain ⟨v, firstValue, firstLower, -⟩ := Number.value_of_inRange firstWithin
  obtain ⟨w, secondValue, secondLower, secondUpper⟩ := Number.value_of_inRange secondWithin
  have values : v ≤ w := by
    by_contra above
    have less := (Number.less_iff secondValue firstValue).mpr (lt_of_not_ge above)
    rw [order] at less
    cases less
  rw [variableOf, Number.truncate_eq_floor firstValue firstLower] at firstRun
  rw [variableOf, Number.truncate_eq_floor secondValue secondLower] at secondRun
  cases firstRun
  cases secondRun
  have floors : ⌊v⌋ ≤ ⌊w⌋ := Int.floor_le_floor values
  have lower : 0 ≤ ⌊w⌋ := Int.floor_nonneg.mpr secondLower
  have upper : ⌊w⌋ < size := Int.floor_lt.mpr secondUpper
  omega

/-- A coefficient is set where both indices are numbers in range and in order. The pair that is
written is theirs without their fractions. -/
theorem insert_eq_ok {p q : Problem} {i j value : Datum} : p.insert i j value = .ok q ↔
    ∃ first second row column,
      (Value.toNumber i = .ok first ∧ first.inRange p.size = true) ∧
      (Value.toNumber j = .ok second ∧ second.inRange p.size = true) ∧
      second.less first = false ∧
      (variableOf first = .ok row ∧ variableOf second = .ok column) ∧
      q = { p with terms := Problem.insertTerm p.terms (row, column) value } := by
  constructor
  · intro run
    obtain ⟨first, firstRead, run⟩ := bind_eq_ok.mp run
    simp only [check_eq_ok] at run
    obtain ⟨firstWithin, run⟩ := run
    obtain ⟨second, secondRead, run⟩ := bind_eq_ok.mp run
    simp only [check_eq_ok] at run
    obtain ⟨secondWithin, order, run⟩ := run
    obtain ⟨row, rowRun, run⟩ := bind_eq_ok.mp run
    obtain ⟨column, columnRun, run⟩ := bind_eq_ok.mp run
    cases run
    exact ⟨first, second, row, column, ⟨firstRead, by simpa using firstWithin⟩,
      ⟨secondRead, by simpa using secondWithin⟩, by simpa using order, ⟨rowRun, columnRun⟩, rfl⟩
  · rintro ⟨first, second, row, column, ⟨firstRead, firstWithin⟩, ⟨secondRead, secondWithin⟩,
      order, ⟨rowRun, columnRun⟩, rfl⟩
    simp only [Problem.insert, firstRead, secondRead, firstWithin, secondWithin, order, rowRun,
      columnRun, ok_bind]
    rfl

theorem WellFormed.insert {p q : Problem} {i j value : Datum} (wellFormed : p.WellFormed)
    (run : p.insert i j value = .ok q) : q.WellFormed := by
  obtain ⟨first, second, row, column, ⟨-, firstWithin⟩, ⟨-, secondWithin⟩, order,
    ⟨rowRun, columnRun⟩, rfl⟩ := insert_eq_ok.mp run
  have pair := variableOf_order firstWithin secondWithin order rowRun columnRun
  exact wellFormed.insertTerm pair.1 pair.2 value

theorem Reachable.wellFormed {p : Problem} (reachable : p.Reachable) : p.WellFormed := by
  induction reachable with
  | empty size => exact wellFormed_empty size
  | ofCouplings run => exact wellFormed_ofCouplings run
  | insert _ run ih => exact ih.insert run

end BinaryQuadratic.Problem
