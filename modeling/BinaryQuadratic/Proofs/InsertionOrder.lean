import BinaryQuadratic.Proofs.CoefficientHistory
import BinaryQuadratic.Solver

/-!
Solvers do not see in which order coefficients were set. Couplings are read pair by pair, so the
value that each pair has at the end decides them, and calls for different pairs can be exchanged.
-/

namespace BinaryQuadratic

namespace Problem

structure Attempt where
  first : Datum
  second : Datum
  value : Datum

/-- The pair that an attempt sets in a problem of some size, unless it fails. -/
def Attempt.pair? (size : Int) (a : Attempt) : Option (Nat × Nat) :=
  match (empty size).insert a.first a.second a.value with
  | .ok p => p.terms.head?.map Prod.fst
  | .error _ => none

def attempt (p : Problem) (a : Attempt) : Problem :=
  match p.insert a.first a.second a.value with
  | .ok q => q
  | .error _ => p

def attemptAll (p : Problem) (calls : List Attempt) : Problem := calls.foldl attempt p

def ofAttempts (size : Int) (calls : List Attempt) : Problem := (empty size).attemptAll calls

def coefficient (p : Problem) (i j : Int) : Except Fault Datum :=
  (fun found => found.getD .null) <$> p.get? (.int i) (.int j)

theorem insert_transfer {p q next : Problem} {i j value : Datum} (sized : q.size = p.size)
    (run : p.insert i j value = .ok next) : ∃ pair,
      next = { p with terms := insertTerm p.terms pair value } ∧
      q.insert i j value = .ok { q with terms := insertTerm q.terms pair value } := by
  obtain ⟨first, second, row, column, firstWithin, secondWithin, order, runs, rfl⟩ :=
    insert_eq_ok.mp run
  rw [← sized] at firstWithin secondWithin
  exact ⟨(row, column), rfl, insert_eq_ok.mpr
    ⟨first, second, row, column, firstWithin, secondWithin, order, runs, rfl⟩⟩

theorem attempt_cases (p : Problem) (a : Attempt) :
    (a.pair? p.size = none ∧ p.attempt a = p) ∨ ∃ pair, a.pair? p.size = some pair ∧
      p.attempt a = { p with terms := insertTerm p.terms pair a.value } := by
  cases run : p.insert a.first a.second a.value with
  | ok q =>
      have sized : (empty p.size).size = p.size := rfl
      obtain ⟨pair, rfl, other⟩ := insert_transfer sized run
      exact .inr ⟨pair, by rw [Attempt.pair?, other]; rfl, by rw [attempt, run]⟩
  | error fault =>
      refine .inl ⟨?_, by rw [attempt, run]⟩
      cases other : (empty p.size).insert a.first a.second a.value with
      | ok q =>
          have sized : p.size = (empty p.size).size := rfl
          obtain ⟨pair, -, again⟩ := insert_transfer sized other
          cases run.symm.trans again
      | error fault => rw [Attempt.pair?, other]

theorem size_attempt (p : Problem) (a : Attempt) : (p.attempt a).size = p.size := by
  rcases attempt_cases p a with ⟨-, run⟩ | ⟨pair, -, run⟩
  · rw [run]
  · rw [run]

theorem lookup_attempt (p : Problem) (a : Attempt) (pair : Nat × Nat) :
    (p.attempt a).lookup pair =
      if a.pair? p.size = some pair then some a.value else p.lookup pair := by
  rcases attempt_cases p a with ⟨failed, run⟩ | ⟨other, taken, run⟩
  · rw [run, failed, if_neg nofun]
  · rw [run, lookup_insertTerm, taken]
    simp only [Option.some.injEq, eq_comm]

theorem size_attemptAll (p : Problem) (calls : List Attempt) :
    (p.attemptAll calls).size = p.size :=
  foldl_invariant (fun state : Problem => state.size = p.size) rfl
    fun a _ state kept => (size_attempt state a).trans kept

def attemptsFor (size : Int) (pair : Nat × Nat) (calls : List Attempt) : List Attempt :=
  calls.filter fun a => a.pair? size = some pair

theorem lookup_attemptAll (p : Problem) (calls : List Attempt) (pair : Nat × Nat) :
    (p.attemptAll calls).lookup pair =
      ((attemptsFor p.size pair calls).getLast?.map Attempt.value).or (p.lookup pair) := by
  induction calls generalizing p with
  | nil => rfl
  | cons a rest ih =>
      refine (ih (p.attempt a)).trans ?_
      rw [size_attempt, lookup_attempt, attemptsFor, attemptsFor, List.filter_cons]
      by_cases taken : a.pair? p.size = some pair
      · rw [if_pos taken, if_pos (decide_eq_true taken), List.getLast?_cons]
        cases (rest.filter fun a => a.pair? p.size = some pair).getLast? with
        | none => rfl
        | some last => rfl
      · rw [if_neg taken, if_neg (by simpa using taken)]

theorem couplingAt_eq_coefficient (p : Problem) {i j : Nat} (order : i ≤ j) :
    p.couplingAt i j = p.coefficient i j >>= fun value =>
      match value with
      | .null => .ok 0.0
      | value => CouplingArray.coupling value := by
  rw [couplingAt, if_pos order, coefficient, get?_int,
    if_pos ⟨Int.natCast_nonneg i, Int.natCast_nonneg j⟩, Int.toNat_natCast, Int.toNat_natCast]
  cases p.lookup (i, j) with
  | none => rfl
  | some value =>
      cases value with
      | scalar s => cases s <;> rfl
      | list items => rfl
      | table fields => rfl

theorem coefficient_congr {p q : Problem} (same : ∀ pair, p.lookup pair = q.lookup pair)
    (i j : Int) : p.coefficient i j = q.coefficient i j := by
  rw [coefficient, coefficient, get?_int, get?_int, same]

/-- No solver tells two problems apart: they have the same couplings, and with them the same
energies, samples and faults. -/
structure SolvedAlike (p q : Problem) : Prop where
  couplings : p.toCouplings = q.toCouplings
  energies : ∀ a, (p.toCouplings >>= fun h => h.energy a) = q.toCouplings >>= fun h => h.energy a
  samples : ∀ (solver : Solver Datum) requested, solver.sample p requested =
    solver.sample q requested

theorem toCouplings_congr {p q : Problem} (sized : p.size = q.size)
    (same : ∀ i j : Int, 0 ≤ i → i ≤ j → j < q.size → p.coefficient i j = q.coefficient i j) :
    p.toCouplings = q.toCouplings := by
  rw [toCouplings, toCouplings, sized]
  have rows : ((List.range q.size.toNat).mapM fun i =>
      (List.range q.size.toNat).mapM fun j => p.couplingAt i j) =
      (List.range q.size.toNat).mapM fun i =>
        (List.range q.size.toNat).mapM fun j => q.couplingAt i j := by
    apply mapM_congr
    intro i _
    apply mapM_congr
    intro j member
    have bound := List.mem_range.mp member
    by_cases order : i ≤ j
    · rw [couplingAt_eq_coefficient p order, couplingAt_eq_coefficient q order,
        same i j (Int.natCast_nonneg i) (Int.ofNat_le.mpr order) (by omega)]
    · rw [couplingAt_below (Nat.lt_of_not_le order), couplingAt_below (Nat.lt_of_not_le order)]
  simp only [rows]

theorem SolvedAlike.of_couplings {p q : Problem} (sized : p.size = q.size)
    (same : p.toCouplings = q.toCouplings) : SolvedAlike p q where
  couplings := same
  energies := by
    intro a
    rw [same]
  samples := by
    intro solver requested
    have lengths : p.recordLength requested = q.recordLength requested := by
      rw [recordLength, recordLength, sized]
    have enumerated : Solver.enumerate p = Solver.enumerate q := by
      funext length
      rw [Solver.enumerate, Solver.enumerate, same, sized]
    have compared (limit : Datum) : Solver.exceeds p limit = Solver.exceeds q limit := by
      rw [Solver.exceeds, Solver.exceeds, sized]
    cases solver with
    | base => rfl
    | exhaustive limit =>
        simp only [Solver.sample, Solver.exceedsOptional, compared, lengths, enumerated, sized]
    | hardware name limit => simp only [Solver.sample, compared, lengths]

section Histories

variable {size : Int} {calls others : List Attempt}

theorem size_ofAttempts (size : Int) (calls : List Attempt) : (ofAttempts size calls).size = size :=
  size_attemptAll (empty size) calls

theorem lookup_ofAttempts (size : Int) (calls : List Attempt) (pair : Nat × Nat) :
    (ofAttempts size calls).lookup pair =
      (attemptsFor size pair calls).getLast?.map Attempt.value := by
  refine (lookup_attemptAll (empty size) calls pair).trans ?_
  exact Option.or_none

theorem solvedAlike_of_coefficients (same : ∀ i j : Int, 0 ≤ i → i ≤ j → j < size →
    (ofAttempts size calls).coefficient i j = (ofAttempts size others).coefficient i j) :
    SolvedAlike (ofAttempts size calls) (ofAttempts size others) := by
  have sized : (ofAttempts size calls).size = (ofAttempts size others).size := by
    rw [size_ofAttempts, size_ofAttempts]
  apply SolvedAlike.of_couplings sized
  apply toCouplings_congr sized
  rw [size_ofAttempts]
  exact same

theorem coefficient_of_attemptsFor
    (same : ∀ pair, attemptsFor size pair calls = attemptsFor size pair others) (i j : Int) :
    (ofAttempts size calls).coefficient i j = (ofAttempts size others).coefficient i j := by
  apply coefficient_congr
  intro pair
  rw [lookup_ofAttempts, lookup_ofAttempts, same]

theorem attemptsFor_swap {a b : Attempt}
    (apart : ∀ pair, a.pair? size = some pair → b.pair? size ≠ some pair)
    (earlier later : List Attempt) (pair : Nat × Nat) :
    attemptsFor size pair (earlier ++ a :: b :: later) =
      attemptsFor size pair (earlier ++ b :: a :: later) := by
  rw [attemptsFor, attemptsFor, List.filter_append, List.filter_append]
  congr 1
  by_cases set : a.pair? size = some pair
  · have other := apart pair set
    simp [set, other]
  · simp [List.filter_cons, set]

end Histories

/-- Whatever was tried in which order, problems that have the same coefficients in the end are
solved alike. They have the same coefficients when the attempts for each pair are the same in the
same order, and so attempts that do not set the same pair can be exchanged. -/
theorem insertion_order_unseen (size : Int) :
    (∀ calls others : List Attempt,
      (∀ i j : Int, 0 ≤ i → i ≤ j → j < size →
        (ofAttempts size calls).coefficient i j = (ofAttempts size others).coefficient i j) →
      SolvedAlike (ofAttempts size calls) (ofAttempts size others)) ∧
    (∀ calls others : List Attempt,
      (∀ pair, attemptsFor size pair calls = attemptsFor size pair others) →
      (∀ i j : Int,
        (ofAttempts size calls).coefficient i j = (ofAttempts size others).coefficient i j) ∧
      SolvedAlike (ofAttempts size calls) (ofAttempts size others)) ∧
    ∀ (earlier later : List Attempt) (a b : Attempt),
      (∀ pair, a.pair? size = some pair → b.pair? size ≠ some pair) →
      (∀ i j : Int, (ofAttempts size (earlier ++ a :: b :: later)).coefficient i j =
        (ofAttempts size (earlier ++ b :: a :: later)).coefficient i j) ∧
      SolvedAlike (ofAttempts size (earlier ++ a :: b :: later))
        (ofAttempts size (earlier ++ b :: a :: later)) := by
  refine ⟨fun _ _ => solvedAlike_of_coefficients, ?_, ?_⟩
  · intro calls others same
    have coefficients := coefficient_of_attemptsFor same
    exact ⟨coefficients, solvedAlike_of_coefficients fun i j _ _ _ => coefficients i j⟩
  · intro earlier later a b apart
    have coefficients := coefficient_of_attemptsFor (attemptsFor_swap apart earlier later)
    exact ⟨coefficients, solvedAlike_of_coefficients fun i j _ _ _ => coefficients i j⟩

theorem insertion_order_unseen_overwritten :
    let first : Attempt := ⟨.int 0, .int 1, .int 7⟩
    let last : Attempt := ⟨.int 0, .int 1, .int 5⟩
    let linear : Attempt := ⟨.int 1, .int 1, .int 2⟩
    let failing : Attempt := ⟨.int 5, .int 0, .int 1⟩
    SolvedAlike (ofAttempts 2 [first, linear, last]) (ofAttempts 2 [last, failing, linear]) ∧
      SolvedAlike (ofAttempts 2 [first, linear, last]) (ofAttempts 2 [first, last, linear]) ∧
      SolvedAlike (ofAttempts 2 [first, linear, last]) (ofAttempts 2 [linear, first, last]) := by
  intro first last linear failing
  have firstPair : first.pair? 2 = some (0, 1) := rfl
  have lastPair : last.pair? 2 = some (0, 1) := rfl
  have linearPair : linear.pair? 2 = some (1, 1) := rfl
  obtain ⟨agreeing, rearranged, exchanged⟩ := insertion_order_unseen 2
  refine ⟨?_, ?_, ?_⟩
  · apply agreeing
    intro i j lower order upper
    have bound : i < 2 := Int.lt_of_le_of_lt order upper
    interval_cases i
    · interval_cases j
      · rfl
      · rfl
    · interval_cases j
      rfl
  · refine (rearranged _ _ ?_).2
    intro pair
    by_cases diagonal : (1, 1) = pair
    · simp [attemptsFor, ← diagonal, firstPair, lastPair, linearPair]
    · simp [attemptsFor, List.filter_cons, firstPair, lastPair, linearPair, diagonal]
  · refine (exchanged [] [last] first linear ?_).2
    intro pair set
    rw [firstPair] at set
    cases set
    rw [linearPair]
    decide

end Problem

end BinaryQuadratic
