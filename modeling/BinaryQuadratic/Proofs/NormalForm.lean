import BinaryQuadratic.Proofs.Binary64.SignedZero
import BinaryQuadratic.Proofs.CoefficientHistory
import BinaryQuadratic.Proofs.Exhaustive

/-!
The normal form of a problem: its terms row by row, as binary64 numbers and without those that are
zero. No solver sees the difference, since a zero of either sign changes no sum.
-/

namespace BinaryQuadratic

open Assignment Binary64 CouplingArray Enumeration

namespace CouplingArray

def SameCoupling (x y : Float) : Prop := x = y ∨ (x == 0.0) = true ∧ (y == 0.0) = true

theorem term_of_zero {w : Float} (zero : (w == 0.0) = true) {x : Int} (set : x ≠ 0) (y : Int) :
    (bitValue x * w * bitValue y == 0.0) = true := by
  rw [term_bits set]
  split
  · apply beq_zero_iff_decode.mpr
    apply decode_mul_zero
    rcases (beq_zero_iff w).mp zero with rfl | rfl
    · rfl
    · rfl
  · exact zero

theorem bitEnergy_congr {entry other : Nat → Nat → Float} {xs : List Int}
    (same : ∀ i, i < xs.length → ∀ j, j < xs.length → SameCoupling (entry i j) (other i j)) :
    bitEnergy entry xs = bitEnergy other xs := by
  rw [bitEnergy_eq_foldl, bitEnergy_eq_foldl]
  apply foldl_add_congr (by nofun)
  intro pair member
  obtain ⟨⟨rowBound, columnBound⟩, set⟩ := mem_summedPairs.mp member
  rcases same pair.1 rowBound pair.2 columnBound with equal | ⟨zero, otherZero⟩
  · exact .inl (by rw [equal])
  · exact .inr ⟨term_of_zero zero set _, term_of_zero otherZero set _⟩

end CouplingArray

namespace Problem

def normalize (p : Problem) : Except Fault Problem := p.toCouplings >>= ofCouplings

def RowMajor (first second : Nat × Nat) : Prop :=
  first.1 < second.1 ∨ first.1 = second.1 ∧ first.2 < second.2

theorem pairwise_upperPairs (size : Nat) : (upperPairs size).Pairwise RowMajor := by
  apply List.pairwise_flatMap.mpr
  constructor
  · intro i _
    apply List.pairwise_map.mpr
    apply (List.pairwise_lt_range' (s := i) (n := size - i)).imp
    intro j k order
    exact .inr ⟨rfl, order⟩
  · apply List.pairwise_lt_range.imp
    intro i k order first firstMember second secondMember
    obtain ⟨j, -, rfl⟩ := List.mem_map.mp firstMember
    obtain ⟨l, -, rfl⟩ := List.mem_map.mp secondMember
    exact .inl order

def termOf (entry : Nat → Nat → Float) (pair : Nat × Nat) : Option ((Nat × Nat) × Datum) :=
  if entry pair.1 pair.2 == 0.0 then none else some (pair, .float (entry pair.1 pair.2))

def normalForm (size : Nat) (entry : Nat → Nat → Float) : Problem :=
  ⟨size, (upperPairs size).filterMap (termOf entry)⟩

theorem termOf_eq_some {entry : Nat → Nat → Float} {pair : Nat × Nat}
    {term : (Nat × Nat) × Datum} : termOf entry pair = some term ↔
      (entry pair.1 pair.2 == 0.0) = false ∧ (pair, .float (entry pair.1 pair.2)) = term := by
  unfold termOf
  cases entry pair.1 pair.2 == 0.0 with
  | true => simp
  | false => simp

theorem foldl_addEntry_eq (entry : Nat → Nat → Float) {pairs : List (Nat × Nat)}
    (ordered : pairs.Pairwise RowMajor) (p : Problem)
    (behind : ∀ term ∈ p.terms, ∀ pair ∈ pairs, RowMajor term.1 pair) :
    pairs.foldl (addEntry entry) p =
      { p with terms := p.terms ++ pairs.filterMap (termOf entry) } := by
  induction pairs generalizing p with
  | nil => simp
  | cons pair rest ih =>
      obtain ⟨first, later⟩ := List.pairwise_cons.mp ordered
      rw [List.foldl_cons]
      cases zero : entry pair.1 pair.2 == 0.0 with
      | true =>
          have skipped : addEntry entry p pair = p := by rw [addEntry, if_pos zero]
          rw [skipped, ih later p fun term member next within =>
            behind term member next (List.mem_cons_of_mem _ within)]
          rw [List.filterMap_cons, termOf, if_pos zero]
      | false =>
          have new : ¬(p.terms.any fun term => decide (term.1 = pair)) = true := by
            intro known
            obtain ⟨term, member, same⟩ := List.any_eq_true.mp known
            have order := behind term member pair List.mem_cons_self
            rw [of_decide_eq_true same] at order
            rcases order with less | ⟨-, less⟩
            · exact Nat.lt_irrefl _ less
            · exact Nat.lt_irrefl _ less
          have added : addEntry entry p pair =
              { p with terms := p.terms ++ [(pair, .float (entry pair.1 pair.2))] } := by
            rw [addEntry, zero, if_neg (by decide), insertTerm, if_neg new]
          rw [added, ih later]
          · rw [List.filterMap_cons, termOf, zero]
            simp
          · intro term member next within
            rcases List.mem_append.mp member with old | last
            · exact behind term old next (List.mem_cons_of_mem _ within)
            · rw [List.mem_singleton.mp last]
              exact first next within

theorem addEntries_eq (size : Nat) (entry : Nat → Nat → Float) :
    (upperPairs size).foldl (addEntry entry) (empty size) = normalForm size entry :=
  foldl_addEntry_eq entry (pairwise_upperPairs size) (empty size) fun _ member => nomatch member

theorem normalize_eq {p : Problem} {property : Float → Prop}
    (coefficients : p.HasCoefficients property) :
    p.normalize = checkSide p.size >>= fun _ => .ok (normalForm p.size.toNat p.weight) := by
  rw [normalize, toCouplings_eq (couplingAt_eq_weight coefficients)]
  cases checkSide p.size with
  | error fault => rfl
  | ok _ => rw [ok_bind, ok_bind, ok_bind, ofCouplings_square, addEntries_eq]

theorem pairwise_normalForm (size : Nat) (entry : Nat → Nat → Float) :
    (normalForm size entry).terms.Pairwise fun a b => RowMajor a.1 b.1 := by
  apply List.pairwise_filterMap.mpr
  apply (pairwise_upperPairs size).imp
  intro first second order a aTerm b bTerm
  obtain ⟨-, rfl⟩ := termOf_eq_some.mp aTerm
  obtain ⟨-, rfl⟩ := termOf_eq_some.mp bTerm
  exact order

theorem lookup_normalForm (size : Nat) (entry : Nat → Nat → Float) (i j : Nat) :
    (normalForm size entry).lookup (i, j) =
      if (i ≤ j ∧ j < size) ∧ (entry i j == 0.0) = false then some (.float (entry i j))
      else none := by
  rw [← addEntries_eq, lookup_foldl_addEntry]
  simp only [mem_upperPairs]
  rfl

theorem weight_normalForm (size : Nat) (entry : Nat → Nat → Float) {i j : Nat}
    (bound : j < size) : (normalForm size entry).weight i j = cleared entry i j := by
  rw [weight, ← addEntries_eq, couplingAt_addEntries, if_pos bound]

theorem coefficients_normalForm (size : Nat) (entry : Nat → Nat → Float) :
    (normalForm size entry).HasCoefficients fun _ => True := by
  intro term member
  obtain ⟨pair, -, found⟩ := List.mem_filterMap.mp member
  obtain ⟨-, rfl⟩ := termOf_eq_some.mp found
  exact ⟨_, rfl, trivial⟩

theorem normalForm_cleared (size : Nat) (entry : Nat → Nat → Float) :
    normalForm size (normalForm size entry).weight = normalForm size entry := by
  apply congrArg (Problem.mk size)
  apply List.filterMap_congr
  intro pair member
  obtain ⟨order, bound⟩ := mem_upperPairs.mp member
  rw [termOf, termOf, weight_normalForm size entry bound, cleared, if_pos order]
  split
  · exact if_pos rfl
  · rfl

theorem get?_eq_some {p : Problem} {i j : Int} {d : Datum} :
    p.get? (.int i) (.int j) = .ok (some d) ↔
      (0 ≤ i ∧ 0 ≤ j) ∧ p.lookup (i.toNat, j.toNat) = some d := by
  rw [get?_int, Except.ok.injEq]
  split
  · rename_i nonnegative
    simp [nonnegative]
  · rename_i negative
    simp [negative]

theorem get?_eq_none {p : Problem} {i j : Int} :
    p.get? (.int i) (.int j) = .ok none ↔
      (0 ≤ i ∧ 0 ≤ j → p.lookup (i.toNat, j.toNat) = none) := by
  rw [get?_int, Except.ok.injEq]
  split
  · rename_i nonnegative
    simp [nonnegative]
  · rename_i negative
    simp [negative]

theorem weight_of_lookup {p : Problem} (wellFormed : p.WellFormed) {i j : Nat} {d : Datum}
    {x : Float} (found : p.lookup (i, j) = some d) (read : Value.toFloat d = .ok x) :
    (i ≤ j ∧ (j : Int) < p.size) ∧ p.weight i j = x := by
  have bounds := wellFormed.upper _ (mem_terms_of_lookup found)
  refine ⟨bounds, ?_⟩
  rw [weight, couplingAt_of_lookup bounds.1 found read]

theorem get?_normalForm_of_stored {p : Problem} {size : Nat} (wellFormed : p.WellFormed)
    (sized : p.size = size) {i j : Int} {d : Datum} {x : Float}
    (stored : p.get? (.int i) (.int j) = .ok (some d)) (read : Value.toFloat d = .ok x)
    (nonzero : (x == 0.0) = false) :
    (normalForm size p.weight).get? (.int i) (.int j) = .ok (some (.float x)) := by
  obtain ⟨nonnegative, found⟩ := get?_eq_some.mp stored
  obtain ⟨⟨order, bound⟩, same⟩ := weight_of_lookup wellFormed found read
  rw [sized, Int.ofNat_lt] at bound
  rw [get?_eq_some, lookup_normalForm, same, if_pos ⟨⟨order, bound⟩, nonzero⟩]
  exact ⟨nonnegative, rfl⟩

theorem get?_normalForm_of_zero {p : Problem} {size : Nat} {property : Float → Prop}
    (coefficients : p.HasCoefficients property) {i j : Int}
    (zero : ∀ d x, p.get? (.int i) (.int j) = .ok (some d) → Value.toFloat d = .ok x →
      (x == 0.0) = true) :
    (normalForm size p.weight).get? (.int i) (.int j) = .ok none := by
  rw [get?_eq_none]
  intro nonnegative
  rw [lookup_normalForm, if_neg]
  rintro ⟨⟨order, -⟩, nonzero⟩
  cases found : p.lookup (i.toNat, j.toNat) with
  | none =>
      rw [weight, couplingAt_of_absent found] at nonzero
      cases nonzero
  | some d =>
      obtain ⟨x, read, -⟩ := coefficients _ (mem_terms_of_lookup found)
      rw [weight, couplingAt_of_lookup order found read] at nonzero
      rw [zero d x (get?_eq_some.mpr ⟨nonnegative, found⟩) read] at nonzero
      cases nonzero

theorem get?_normalForm_outside {size : Nat} (entry : Nat → Nat → Float) {i j : Int}
    (outside : ¬(0 ≤ i ∧ i ≤ j ∧ j < size)) :
    (normalForm size entry).get? (.int i) (.int j) = .ok none := by
  rw [get?_eq_none]
  intro nonnegative
  rw [lookup_normalForm, if_neg]
  omega

theorem sameCoupling_normalForm (p : Problem) {size i j : Nat} (bound : j < size) :
    SameCoupling ((normalForm size p.weight).weight i j) (p.weight i j) := by
  rw [weight_normalForm size p.weight bound, cleared]
  split
  · split
    · rename_i zero
      exact .inr ⟨rfl, zero⟩
    · exact .inl rfl
  · rw [weight_below p (by omega)]
    exact .inl rfl

end Problem

namespace Solver

theorem sample_congr (ν : Type) {p q : Problem} {first second : Float → Prop}
    (pCoefficients : p.HasCoefficients first) (qCoefficients : q.HasCoefficients second)
    (sized : q.size = p.size)
    (same : ∀ xs, IsBits xs → xs.length = p.size.toNat →
      bitEnergy q.weight xs = bitEnergy p.weight xs) (requested : Datum) :
    (exhaustive .null : Solver ν).sample q requested =
      (exhaustive .null : Solver ν).sample p requested := by
  have candidates : candidatesOf (bitEnergy q.weight) p.size.toNat =
      candidatesOf (bitEnergy p.weight) p.size.toNat := by
    apply List.map_congr_left
    intro xs member
    obtain ⟨bits, length⟩ := mem_sweep.mp member
    rw [same xs bits length]
  have enumerated : enumerate q = enumerate p := by
    funext length
    rw [enumerate, enumerate, Problem.toCouplings_eq (Problem.couplingAt_eq_weight pCoefficients),
      Problem.toCouplings_eq (Problem.couplingAt_eq_weight qCoefficients), sized]
    cases Problem.checkSide p.size with
    | error fault => rfl
    | ok _ =>
        rw [ok_bind, ok_bind, ok_bind, ok_bind]
        dsimp only
        rw [search_sweep, search_sweep, candidates]
  rw [sample_eq_enumerate, sample_eq_enumerate, enumerated, Problem.recordLength,
    Problem.recordLength, sized]

end Solver

/-- The normal form of a problem has its coefficients that are not zero as binary64 numbers, row by
row, and is its own normal form. The exhaustive solver has the same outcome for both. -/
theorem normalize_keeps_samples {ν : Type} {p : Problem} {size : Nat} (reachable : p.Reachable)
    (sized : p.size = size) (readable : p.HasCoefficients fun _ => True) :
    ((size : Int) < Problem.sideMemory → ∃ q, p.normalize = .ok q) ∧
    ∀ q, p.normalize = .ok q →
      q.size = size ∧
      (∀ (i j : Int) d x, p.get? (.int i) (.int j) = .ok (some d) → Value.toFloat d = .ok x →
        (x == 0.0) = false → q.get? (.int i) (.int j) = .ok (some (.float x))) ∧
      (∀ i j : Int, (∀ d x, p.get? (.int i) (.int j) = .ok (some d) → Value.toFloat d = .ok x →
        (x == 0.0) = true) → q.get? (.int i) (.int j) = .ok none) ∧
      (∀ i j : Int, ¬(0 ≤ i ∧ i ≤ j ∧ j < size) → q.get? (.int i) (.int j) = .ok none) ∧
      (q.terms.Pairwise fun a b => Problem.RowMajor a.1 b.1) ∧ q.keys.Nodup ∧
      q.normalize = .ok q ∧
      ∀ requested, (Solver.exhaustive .null : Solver ν).sample q requested =
        (Solver.exhaustive .null : Solver ν).sample p requested := by
  have wellFormed := reachable.wellFormed
  have whole := Problem.normalize_eq readable
  rw [sized, Int.toNat_natCast] at whole
  constructor
  · intro fits
    rw [whole, Problem.checkSide_ok fits]
    exact ⟨_, rfl⟩
  · intro q run
    rw [whole] at run
    obtain ⟨_, fits, run⟩ := bind_eq_ok.mp run
    cases run
    have coefficients := Problem.coefficients_normalForm size p.weight
    have rows := Problem.pairwise_normalForm size p.weight
    refine ⟨rfl, ?_, ?_, ?_, rows, ?_, ?_, ?_⟩
    · intro i j d x
      exact Problem.get?_normalForm_of_stored wellFormed sized
    · intro i j
      exact Problem.get?_normalForm_of_zero readable
    · intro i j
      exact Problem.get?_normalForm_outside p.weight
    · apply List.pairwise_map.mpr
      apply rows.imp
      intro a b order same
      have equal := Prod.mk.inj same
      simp only [Problem.RowMajor] at order
      omega
    · rw [Problem.normalize_eq coefficients]
      change Problem.checkSide size >>= (fun _ => .ok (Problem.normalForm size _)) = _
      rw [fits, ok_bind, Problem.normalForm_cleared]
    · apply Solver.sample_congr ν readable coefficients sized.symm
      intro xs _ length
      rw [sized, Int.toNat_natCast] at length
      apply bitEnergy_congr
      intro i _ j bound
      exact Problem.sameCoupling_normalForm p (length ▸ bound)

theorem normalize_keeps_samples_signed_zero :
    ∃ q, Problem.normalize ⟨2, [((0, 1), .int 1), ((0, 0), .float (-0.0))]⟩ = .ok q ∧
      q.get? (.int 0) (.int 1) = .ok (some (.float 1.0)) ∧
      q.get? (.int 0) (.int 0) = .ok none ∧
      (Solver.exhaustive .null : Solver Unit).sample q .null =
        (Solver.exhaustive .null : Solver Unit).sample
          ⟨2, [((0, 1), .int 1), ((0, 0), .float (-0.0))]⟩ .null := by
  have first : Problem.Reachable ⟨2, [((0, 1), .int 1)]⟩ :=
    .insert (i := .int 0) (j := .int 1) (.empty 2) rfl
  have second : Problem.insert ⟨2, [((0, 1), .int 1)]⟩ (.int 0) (.int 0) (.float (-0.0)) =
      .ok ⟨2, [((0, 1), .int 1), ((0, 0), .float (-0.0))]⟩ := rfl
  have reachable := first.insert second
  have readable : Problem.HasCoefficients ⟨2, [((0, 1), .int 1), ((0, 0), .float (-0.0))]⟩
      fun _ => True := by
    simp only [Problem.HasCoefficients, List.forall_mem_cons]
    exact ⟨⟨_, toFloat_one, trivial⟩, ⟨_, rfl, trivial⟩, List.forall_mem_nil _⟩
  obtain ⟨returns, holds⟩ := normalize_keeps_samples (ν := Unit) reachable rfl readable
  obtain ⟨q, run⟩ := returns (by decide)
  obtain ⟨-, stored, zero, -, -, -, -, samples⟩ := holds q run
  refine ⟨q, run, stored 0 1 (.int 1) 1.0 rfl toFloat_one rfl, ?_, samples .null⟩
  apply zero
  rintro d x found read
  cases found
  cases read
  rfl

end BinaryQuadratic
