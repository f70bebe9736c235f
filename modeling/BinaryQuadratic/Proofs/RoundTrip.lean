import BinaryQuadratic.Proofs.CouplingRows
import BinaryQuadratic.Proofs.Reachable

/-!
Square grids that are turned into problems and back. Couplings on and above the diagonal survive
but for the sign of zero, and those below the diagonal are lost.
-/

namespace BinaryQuadratic

open Binary64 CouplingArray

namespace Problem

theorem find_overwritten (terms : List ((Nat × Nat) × Datum)) (pair key : Nat × Nat)
    (value : Datum) :
    ((terms.map fun term => if term.1 = pair then (pair, value) else term).find?
      fun term => term.1 = key).map Prod.snd =
      ((terms.find? fun term => term.1 = key).map Prod.snd).map
        fun old => if key = pair then value else old := by
  induction terms with
  | nil => rfl
  | cons term rest ih =>
      rw [List.map_cons]
      by_cases written : term.1 = pair
      · by_cases sought : key = pair
        · simp [written, sought]
        · have other : pair ≠ key := fun same => sought same.symm
          simpa [written, sought, other] using ih
      · by_cases sought : term.1 = key
        · simp [sought, sought ▸ written]
        · simpa [written, sought] using ih

theorem lookup_insertTerm (size : Int) (terms : List ((Nat × Nat) × Datum)) (pair key : Nat × Nat)
    (value : Datum) : lookup ⟨size, insertTerm terms pair value⟩ key =
      if key = pair then some value else lookup ⟨size, terms⟩ key := by
  unfold insertTerm
  split
  · rename_i known
    rw [lookup, find_overwritten]
    by_cases sought : key = pair
    · obtain ⟨term, member, same⟩ := List.any_eq_true.mp known
      have found : (terms.find? fun term => term.1 = pair).isSome = true :=
        List.find?_isSome.mpr ⟨term, member, same⟩
      obtain ⟨first, foundFirst⟩ := Option.isSome_iff_exists.mp found
      simp [sought, foundFirst]
    · cases found : terms.find? fun term => term.1 = key with
      | none => simp [sought, lookup, found]
      | some term => simp [sought, lookup, found]
  · rename_i new
    rw [lookup, List.find?_append]
    by_cases sought : key = pair
    · have absent : terms.find? (fun term => term.1 = pair) = none := by
        apply List.find?_eq_none.mpr
        intro term member same
        exact new (List.any_eq_true.mpr ⟨term, member, same⟩)
      simp [sought, absent]
    · have other : pair ≠ key := fun same => sought same.symm
      simp [sought, other, lookup]

def addEntry (entry : Nat → Nat → Float) (p : Problem) (pair : Nat × Nat) : Problem :=
  if entry pair.1 pair.2 == 0.0 then p
  else { p with terms := insertTerm p.terms pair (.float (entry pair.1 pair.2)) }

theorem ofCouplings_square (side : Nat) (entry : Nat → Nat → Float) :
    ofCouplings (square side entry) =
      .ok ((upperPairs side).foldl (addEntry entry) (empty side)) := by
  rw [ofCouplings, shape_square]
  apply foldlM_eq_ok_foldl
  intro pair member p
  obtain ⟨order, bound⟩ := mem_upperPairs.mp member
  change pair.2 < side at bound
  rw [insertCoupling, read_square (by omega) bound, ok_bind, addEntry, bne]
  cases entry pair.1 pair.2 == 0.0 with
  | true => rfl
  | false => rfl

theorem size_foldl_addEntry (entry : Nat → Nat → Float) (pairs : List (Nat × Nat)) (p : Problem) :
    (pairs.foldl (addEntry entry) p).size = p.size := by
  apply foldl_invariant (fun state : Problem => state.size = p.size) rfl
  intro pair _ state kept
  unfold addEntry
  split
  · exact kept
  · exact kept

theorem lookup_addEntry (entry : Nat → Nat → Float) (p : Problem) (pair key : Nat × Nat) :
    (addEntry entry p pair).lookup key =
      if key = pair ∧ (entry key.1 key.2 == 0.0) = false then some (.float (entry key.1 key.2))
      else p.lookup key := by
  unfold addEntry
  split
  · rename_i zero
    rw [if_neg]
    rintro ⟨rfl, nonzero⟩
    rw [zero] at nonzero
    cases nonzero
  · rename_i nonzero
    rw [Bool.not_eq_true] at nonzero
    rw [lookup_insertTerm]
    by_cases sought : key = pair
    · rw [if_pos sought, if_pos ⟨sought, sought ▸ nonzero⟩, sought]
    · rw [if_neg sought, if_neg fun both => sought both.1]

theorem lookup_foldl_addEntry (entry : Nat → Nat → Float) (pairs : List (Nat × Nat)) (p : Problem)
    (key : Nat × Nat) : (pairs.foldl (addEntry entry) p).lookup key =
      if key ∈ pairs ∧ (entry key.1 key.2 == 0.0) = false then some (.float (entry key.1 key.2))
      else p.lookup key := by
  induction pairs generalizing p with
  | nil => simp
  | cons pair rest ih =>
      rw [List.foldl_cons, ih, lookup_addEntry]
      by_cases nonzero : (entry key.1 key.2 == 0.0) = false
      · by_cases first : key = pair
        · subst first
          simp [nonzero]
        · simp [nonzero, first]
      · simp [nonzero]

end Problem

/-- A coupling as it comes back: zero below the diagonal, and without the sign of a zero. -/
def CouplingArray.cleared (entry : Nat → Nat → Float) (i j : Nat) : Float :=
  if i ≤ j then if entry i j == 0.0 then 0.0 else entry i j else 0.0

def CouplingArray.roundTrip (h : CouplingArray) : Except Fault CouplingArray :=
  Problem.ofCouplings h >>= Problem.toCouplings

namespace CouplingArray

section Cleared

variable {entry : Nat → Nat → Float} {i j : Nat}

theorem cleared_below (below : j < i) : cleared entry i j = 0.0 := by
  rw [cleared, if_neg (by omega)]

theorem cleared_zero (zero : (entry i j == 0.0) = true) : cleared entry i j = 0.0 := by
  rw [cleared, if_pos zero, ite_self]

theorem cleared_above (order : i ≤ j) (unsigned : entry i j ≠ -0.0) :
    cleared entry i j = entry i j := by
  rw [cleared, if_pos order]
  split
  · rename_i zero
    rcases (beq_zero_iff _).mp zero with positive | negative
    · rw [positive]
    · exact (unsigned negative).elim
  · rfl

end Cleared

theorem couplingAt_addEntries (side : Nat) (entry : Nat → Nat → Float) (i j : Nat) :
    ((Problem.upperPairs side).foldl (Problem.addEntry entry) (.empty side)).couplingAt i j =
      .ok (if j < side then cleared entry i j else 0.0) := by
  have absent : (Problem.empty side).lookup (i, j) = none := rfl
  have stored := Problem.lookup_foldl_addEntry entry (Problem.upperPairs side) (.empty side) (i, j)
  simp only [Problem.mem_upperPairs, absent] at stored
  by_cases order : i ≤ j
  · rw [cleared, if_pos order]
    cases zero : entry i j == 0.0 with
    | true =>
        rw [if_neg (by simp [zero])] at stored
        rw [Problem.couplingAt_of_absent stored, if_pos rfl, ite_self]
    | false =>
        by_cases bound : j < side
        · rw [if_pos ⟨⟨order, bound⟩, zero⟩] at stored
          rw [Problem.couplingAt_of_lookup order stored rfl, if_pos bound, if_neg (by decide)]
        · rw [if_neg fun both => bound both.1.2] at stored
          rw [Problem.couplingAt_of_absent stored, if_neg bound]
  · rw [Problem.couplingAt_below (by omega), cleared, if_neg order, ite_self]

theorem roundTrip_square (side : Nat) (entry : Nat → Nat → Float) :
    (square side entry).roundTrip =
      Problem.checkSide side >>= fun _ => .ok (square side (cleared entry)) := by
  have same : square side (fun i j => if j < side then cleared entry i j else 0.0) =
      square side (cleared entry) := by
    apply square_congr
    intro i _ j bound
    rw [if_pos bound]
  rw [roundTrip, Problem.ofCouplings_square, ok_bind,
    Problem.toCouplings_eq (couplingAt_addEntries side entry), Problem.size_foldl_addEntry]
  change Problem.checkSide side >>= (fun _ => .ok (square side _)) = _
  rw [same]

theorem cleared_cleared (entry : Nat → Nat → Float) : cleared (cleared entry) = cleared entry := by
  funext i j
  unfold cleared
  by_cases order : i ≤ j
  · by_cases zero : (entry i j == 0.0) = true
    · simp [order, zero]
    · simp [order, zero]
  · simp [order]

theorem beq_append {xs ys us vs : List Float} (left : (xs == us) = true)
    (right : (ys == vs) = true) : (xs ++ ys == us ++ vs) = true := by
  induction xs generalizing us with
  | nil =>
      cases us with
      | nil => exact right
      | cons u rest => cases left
  | cons x rest ih =>
      cases us with
      | nil => cases left
      | cons u others =>
          rw [List.cons_beq_cons, Bool.and_eq_true] at left
          rw [List.cons_append, List.cons_append, List.cons_beq_cons, Bool.and_eq_true]
          exact ⟨left.1, ih left.2⟩

theorem beq_flatMap {α : Type} {items : List α} {f g : α → List Float}
    (same : ∀ item ∈ items, (f item == g item) = true) :
    (items.flatMap f == items.flatMap g) = true := by
  induction items with
  | nil => rfl
  | cons item rest ih =>
      rw [List.forall_mem_cons] at same
      rw [List.flatMap_cons, List.flatMap_cons]
      exact beq_append same.1 (ih same.2)

theorem equals_square {side : Nat} {entry other : Nat → Nat → Float}
    (same : ∀ i, i < side → ∀ j, j < side → (entry i j == other i j) = true) :
    (square side entry).equals (square side other) = true := by
  have row (i : Nat) (bound : i < side) :
      ((List.range side).map (entry i) == (List.range side).map (other i)) = true := by
    rw [List.map_eq_flatMap, List.map_eq_flatMap]
    apply beq_flatMap
    intro j member
    rw [List.cons_beq_cons, same i bound j (List.mem_range.mp member)]
    rfl
  rw [equals, shape_square, shape_square, Bool.and_eq_true]
  refine ⟨by simp, ?_⟩
  change (((List.range side).map fun i => (List.range side).map (entry i)).flatten ==
    ((List.range side).map fun i => (List.range side).map (other i)).flatten) = true
  rw [← List.flatMap_def, ← List.flatMap_def]
  apply beq_flatMap
  intro i member
  exact row i (List.mem_range.mp member)

theorem roundTrip_isUpper {h k : CouplingArray} {side : Nat} (upper : h.IsUpper side)
    (run : h.roundTrip = .ok k) : k.equals h = true := by
  obtain ⟨entry, rfl⟩ := eq_square_of_isSquare upper.square
  rw [roundTrip_square] at run
  obtain ⟨_, -, run⟩ := bind_eq_ok.mp run
  cases run
  apply equals_square
  intro i rowBound j columnBound
  have read : (square side entry).read i j = .ok (entry i j) := read_square rowBound columnBound
  by_cases zero : (entry i j == 0.0) = true
  · rw [cleared_zero zero]
    rw [beq_iff] at zero ⊢
    exact ⟨zero.2.1, zero.1, zero.2.2.symm⟩
  · have order : i ≤ j := by
      by_contra below
      exact zero (upper.below i j _ (by omega) read)
    rw [cleared_above order fun signed => zero ((beq_zero_iff _).mpr (.inr signed))]
    exact (beq_self_iff _).mpr (upper.number i j _ read)

theorem roundTrip_cleared {side : Nat} (entry : Nat → Nat → Float)
    (fits : Problem.checkSide side = .ok ()) :
    (square side (cleared entry)).roundTrip = .ok (square side (cleared entry)) := by
  rw [roundTrip_square, fits, ok_bind, cleared_cleared]

inductive FromNumbers : CouplingArray → Prop
  | ofSequences {ν : Type} [Value ν] {v : ν} {rows : List (List ν)} {h : CouplingArray} :
      (Value.items v >>= fun items => items.mapM Value.items) = .ok rows →
      (∀ row ∈ rows, ∀ cell ∈ row, IsNumeric cell) →
      CouplingArray.ofSequences v = .ok h → FromNumbers h
  | ofUniform {d : Datum} {h : CouplingArray} :
      (∀ row ∈ (listItems d).map listItems, ∀ cell ∈ row, IsNumeric cell) →
      CouplingArray.ofUniform d = .ok h → FromNumbers h
  | ofProblem {p : Problem} {h : CouplingArray} :
      p.HasCoefficients (fun x => x.isNaN = false) → p.toCouplings = .ok h → FromNumbers h

theorem FromNumbers.isUpper {h : CouplingArray} (built : FromNumbers h) :
    ∃ side, h.IsUpper side := by
  cases built with
  | ofSequences read numeric run =>
      obtain ⟨items, itemsRead, read⟩ := bind_eq_ok.mp read
      rw [CouplingArray.ofSequences, itemsRead, ok_bind, read, ok_bind] at run
      exact ⟨_, ofRows_isUpper numeric run⟩
  | ofUniform numeric run => exact ofUniform_isUpper numeric run
  | ofProblem numbers run => exact ⟨_, Problem.toCouplings_isUpper numbers run⟩

/-- A square grid comes back from its problem with its couplings on and above the diagonal, the
sign of a zero aside, and with zeros below it. The next round trip changes nothing, and neither
does the first one for grids that are built from numbers. -/
theorem couplings_round_trip :
    (∀ (h : CouplingArray) (side : Nat), h.IsSquare side →
      ((side : Int) < Problem.sideMemory → ∃ k, h.roundTrip = .ok k) ∧
      ∀ k, h.roundTrip = .ok k →
        k.dimension = .ok side ∧
        (∀ i j x, h.read i j = .ok x →
          (j < i → k.read i j = .ok 0.0) ∧
          (i ≤ j → x = -0.0 → k.read i j = .ok 0.0) ∧
          (i ≤ j → x ≠ -0.0 → k.read i j = .ok x)) ∧
        k.roundTrip = .ok k) ∧
    (∀ h, FromNumbers h → (∃ side, h.IsSquare side) ∧
      ∀ k, h.roundTrip = .ok k → k.equals h = true) := by
  constructor
  · intro h side squared
    obtain ⟨entry, rfl⟩ := eq_square_of_isSquare squared
    rw [roundTrip_square]
    constructor
    · intro fits
      rw [Problem.checkSide_ok fits]
      exact ⟨_, rfl⟩
    · intro k run
      obtain ⟨_, fits, run⟩ := bind_eq_ok.mp run
      cases run
      refine ⟨?_, ?_, roundTrip_cleared entry fits⟩
      · rw [dimension, shape_square]
        rfl
      · intro i j x read
        obtain ⟨rowBound, columnBound, rfl⟩ := read_square_iff.mp read
        rw [read_square rowBound columnBound]
        refine ⟨?_, ?_, ?_⟩
        · intro below
          rw [cleared_below below]
        · intro _ signed
          rw [cleared_zero ((beq_zero_iff _).mpr (.inr signed))]
        · intro order unsigned
          rw [cleared_above order unsigned]
  · intro h built
    obtain ⟨side, upper⟩ := built.isUpper
    exact ⟨⟨side, upper.square⟩, fun k run => roundTrip_isUpper upper run⟩

theorem couplings_round_trip_pair :
    ∃ k, (grid [[1.0, -0.0], [5.0, 2.0]]).roundTrip = .ok k ∧ k.read 0 1 = .ok 0.0 ∧
      k.read 1 0 = .ok 0.0 := by
  have squared : (grid [[1.0, -0.0], [5.0, 2.0]]).IsSquare 2 := ⟨_, rfl, rfl, by simp⟩
  obtain ⟨returns, holds⟩ := couplings_round_trip.1 _ 2 squared
  obtain ⟨k, run⟩ := returns (by decide)
  obtain ⟨-, cells, -⟩ := holds k run
  exact ⟨k, run, (cells 0 1 (-0.0) rfl).2.1 (by decide) rfl, (cells 1 0 5.0 rfl).1 (by decide)⟩

end CouplingArray

end BinaryQuadratic
