import BinaryQuadratic.Configuration
import BinaryQuadratic.Proofs.InsertionOrder
import BinaryQuadratic.Proofs.NormalForm

/-!
Problems from the two forms of a section: a grid of couplings, or a size and a list of terms of
which the last one for a pair counts. Both forms of one problem are solved alike, and a section
that has both is read as a grid.
-/

namespace BinaryQuadratic

open CouplingArray

namespace CouplingArray

section Rows

variable {ν : Type} [Value ν] {rows : List (List ν)} {floats : List (List Float)}

def entryOf (floats : List (List Float)) (i j : Nat) : Float := (floats.getD i []).getD j 0.0

structure IsTriangle (rows : List (List ν)) (floats : List (List Float)) : Prop where
  width : ∀ row ∈ rows, row.length = rows.length
  numeric : ∀ row ∈ rows, ∀ v ∈ row, IsNumeric v
  read : (rows.mapM fun row => row.mapM Value.toFloat) = .ok floats
  below : ∀ (i j : Nat) row v, j < i → rows[i]? = some row → row[j]? = some v →
    Value.equalsInt v 0 = true

namespace IsTriangle

theorem height (triangle : IsTriangle rows floats) : floats.length = rows.length :=
  length_of_mapM_eq_ok triangle.read

theorem floatWidth (triangle : IsTriangle rows floats) :
    ∀ row ∈ floats, row.length = floats.length :=
  length_floats triangle.read triangle.width

theorem grid_eq (triangle : IsTriangle rows floats) :
    grid floats = square floats.length (entryOf floats) :=
  grid_eq_square rfl triangle.floatWidth

theorem isNaN_entryOf (triangle : IsTriangle rows floats) {i j : Nat} (rowBound : i < floats.length)
    (columnBound : j < floats.length) : (entryOf floats i j).isNaN = false := by
  have width := triangle.floatWidth floats[i] (List.getElem_mem rowBound)
  have found : floats[i]? = some floats[i] := by simp [rowBound]
  have cell : floats[i][j]? = some (entryOf floats i j) := by
    simp [entryOf, rowBound, width, columnBound]
  obtain ⟨row, rowFound, rowRun⟩ := getElem?_of_mapM_eq_ok triangle.read found
  obtain ⟨v, cellFound, read⟩ := getElem?_of_mapM_eq_ok rowRun cell
  obtain ⟨number, known, ordered⟩ :=
    triangle.numeric row (List.mem_of_getElem? rowFound) v (List.mem_of_getElem? cellFound)
  rw [toFloat_number known] at read
  exact isNaN_toFloat ordered read

theorem ofRows_eq (triangle : IsTriangle rows floats) :
    ofRows rows = .ok (square floats.length (entryOf floats)) := by
  have numbers : ∀ row ∈ rows, ∀ v ∈ row, IsNumber v :=
    fun row rowMember v member => (triangle.numeric row rowMember v member).isNumber
  have checked : checkRows rows.length 0 rows = .ok () := by
    rw [checkRows_eq_ok_iff]
    intro i row found
    refine ⟨triangle.width row (List.mem_of_getElem? found), ?_⟩
    intro j v before cell
    exact triangle.below i j row v (by omega) found cell
  rw [ofRows_of_checkRows numbers checked, triangle.read, map_ok, triangle.grid_eq]

end IsTriangle

end Rows

end CouplingArray

theorem CouplingArray.SameCoupling.beq {x y : Float} (same : SameCoupling x y)
    (number : y.isNaN = false) : (x == y) = true := by
  rcases same with rfl | ⟨zero, otherZero⟩
  · exact (Binary64.beq_self_iff x).mpr number
  · rw [Binary64.beq_iff] at zero otherZero ⊢
    exact ⟨zero.1, otherZero.1, zero.2.2.trans otherZero.2.2.symm⟩

theorem Problem.mem_insertTerm {terms : List ((Nat × Nat) × Datum)} {pair : Nat × Nat}
    {value : Datum} {term : (Nat × Nat) × Datum} (member : term ∈ insertTerm terms pair value) :
    term ∈ terms ∨ term = (pair, value) := by
  unfold insertTerm at member
  split at member
  · obtain ⟨old, oldMember, rfl⟩ := List.mem_map.mp member
    split
    · exact .inr rfl
    · exact .inl oldMember
  · simpa using member

namespace Configuration

variable {ν : Type} [Value ν]

def Denotes (item : ν) (term : (Nat × Nat) × Float) : Prop :=
  ∃ i j v, Value.items item = .ok [i, j, v] ∧ Value.toInt i = .ok (term.1.1 : Int) ∧
    Value.toInt j = .ok (term.1.2 : Int) ∧ Value.toFloat v = .ok term.2

def attemptOf (term : (Nat × Nat) × Float) : Problem.Attempt :=
  ⟨.int term.1.1, .int term.1.2, .float term.2⟩

/-- The coefficient of a pair after some terms: that of the last one for it, or else zero. -/
def lastOf (terms : List ((Nat × Nat) × Float)) (pair : Nat × Nat) : Float :=
  ((terms.filter fun term => term.1 = pair).getLast?.map Prod.snd).getD 0.0

theorem insert_attemptOf {p : Problem} {term : (Nat × Nat) × Float} (order : term.1.1 ≤ term.1.2)
    (bound : (term.1.2 : Int) < p.size) :
    p.insert (attemptOf term).first (attemptOf term).second (attemptOf term).value =
      .ok { p with terms := Problem.insertTerm p.terms term.1 (.float term.2) } := by
  obtain ⟨⟨i, j⟩, x⟩ := term
  change i ≤ j at order
  change (j : Int) < p.size at bound
  have firstWithin : (Number.int i).inRange p.size = true := by
    rw [Number.inRange_iff (.int i)]
    constructor
    · exact_mod_cast Nat.zero_le i
    · exact_mod_cast (by omega : (i : Int) < p.size)
  have secondWithin : (Number.int j).inRange p.size = true := by
    rw [Number.inRange_iff (.int j)]
    constructor
    · exact_mod_cast Nat.zero_le j
    · exact_mod_cast bound
  have ordered : (Number.int j).less (.int i) = false := by
    rw [← Bool.not_eq_true, Number.less_iff (.int j) (.int i), not_lt]
    exact_mod_cast order
  exact Problem.insert_eq_ok.mpr ⟨.int i, .int j, i, j, ⟨rfl, firstWithin⟩, ⟨rfl, secondWithin⟩,
    ordered, ⟨rfl, rfl⟩, rfl⟩

theorem pair?_attemptOf {size : Nat} {term : (Nat × Nat) × Float}
    (inside : term.1.1 ≤ term.1.2 ∧ term.1.2 < size) :
    (attemptOf term).pair? size = some term.1 := by
  have bound : (term.1.2 : Int) < (Problem.empty size).size := Int.ofNat_lt.mpr inside.2
  rw [Problem.Attempt.pair?, insert_attemptOf inside.1 bound]
  rfl

theorem attempt_attemptOf {p : Problem} {term : (Nat × Nat) × Float} (order : term.1.1 ≤ term.1.2)
    (bound : (term.1.2 : Int) < p.size) : p.attempt (attemptOf term) =
      { p with terms := Problem.insertTerm p.terms term.1 (.float term.2) } := by
  rw [Problem.attempt, insert_attemptOf order bound]

theorem insertItem_eq {p : Problem} {item : ν} {term : (Nat × Nat) × Float}
    (denotes : Denotes item term) (order : term.1.1 ≤ term.1.2)
    (bound : (term.1.2 : Int) < p.size) :
    insertItem p item = .ok (p.attempt (attemptOf term)) := by
  obtain ⟨i, j, v, items, first, second, value⟩ := denotes
  rw [attempt_attemptOf order bound, ← insert_attemptOf order bound, insertItem, items, ok_bind]
  simp only [first, second, value, ok_bind]
  rfl

theorem foldlM_insertItem {p : Problem} {items : List ν} {terms : List ((Nat × Nat) × Float)}
    (denoted : List.Forall₂ Denotes items terms)
    (inside : ∀ term ∈ terms, term.1.1 ≤ term.1.2 ∧ (term.1.2 : Int) < p.size) :
    items.foldlM insertItem p = .ok (p.attemptAll (terms.map attemptOf)) := by
  induction denoted generalizing p with
  | nil => rfl
  | @cons item term items terms denotes rest ih =>
      rw [List.forall_mem_cons] at inside
      rw [List.foldlM_cons, insertItem_eq denotes inside.1.1 inside.1.2, ok_bind]
      apply ih
      rw [Problem.size_attempt]
      exact inside.2

theorem attemptsFor_map {size : Nat} {terms : List ((Nat × Nat) × Float)}
    (inside : ∀ term ∈ terms, term.1.1 ≤ term.1.2 ∧ term.1.2 < size) (pair : Nat × Nat) :
    Problem.attemptsFor size pair (terms.map attemptOf) =
      (terms.filter fun term => term.1 = pair).map attemptOf := by
  rw [Problem.attemptsFor, List.filter_map]
  apply congrArg
  apply List.filter_congr
  intro term member
  simp [pair?_attemptOf (inside term member)]

section Terms

variable {size : Nat} {terms : List ((Nat × Nat) × Float)}

def problemOf (size : Nat) (terms : List ((Nat × Nat) × Float)) : Problem :=
  .ofAttempts size (terms.map attemptOf)

theorem lookup_problemOf (inside : ∀ term ∈ terms, term.1.1 ≤ term.1.2 ∧ term.1.2 < size)
    (pair : Nat × Nat) : (problemOf size terms).lookup pair =
      (terms.filter fun term => term.1 = pair).getLast?.map fun term => .float term.2 := by
  rw [problemOf, Problem.lookup_ofAttempts, attemptsFor_map inside, List.getLast?_map,
    Option.map_map]
  rfl

theorem weight_problemOf (inside : ∀ term ∈ terms, term.1.1 ≤ term.1.2 ∧ term.1.2 < size)
    {i j : Nat} (order : i ≤ j) : (problemOf size terms).weight i j = lastOf terms (i, j) := by
  have found := lookup_problemOf inside (i, j)
  rw [Problem.weight, lastOf]
  cases last : (terms.filter fun term => term.1 = (i, j)).getLast? with
  | none =>
      rw [last] at found
      rw [Problem.couplingAt_of_absent found]
      rfl
  | some term =>
      rw [last] at found
      have read : Value.toFloat (Datum.float term.2) = .ok term.2 := rfl
      rw [Problem.couplingAt_of_lookup order found read]
      rfl

theorem coefficients_problemOf (size : Nat) (terms : List ((Nat × Nat) × Float)) :
    (problemOf size terms).HasCoefficients fun _ => True := by
  apply foldl_invariant fun state : Problem => state.HasCoefficients fun _ => True
  · intro term member
    cases member
  · intro attempt member state kept
    obtain ⟨written, -, rfl⟩ := List.mem_map.mp member
    rcases Problem.attempt_cases state (attemptOf written) with ⟨-, run⟩ | ⟨pair, -, run⟩
    · rw [run]
      exact kept
    · rw [run]
      intro term within
      rcases Problem.mem_insertTerm within with old | rfl
      · exact kept term old
      · exact ⟨written.2, rfl, trivial⟩

end Terms

theorem table_of_get? {part : ν} {key : Text} {found : Option ν}
    (held : Value.get? part key = .ok found) :
    ∃ fields, Value.layer part = .table fields ∧ Fields.lookup fields key = found := by
  rw [Value.get?] at held
  split at held
  · rename_i fields layer
    exact ⟨fields, layer, Except.ok.inj held⟩
  · cases held

theorem mentions_of_get? {part : ν} {key : Text} {found : Option ν}
    (held : Value.get? part key = .ok found) :
    Value.mentions part key = .ok found.isSome := by
  obtain ⟨fields, layer, rfl⟩ := table_of_get? held
  simp [Value.mentions, layer]

theorem get_of_get? {part v : ν} {key : Text} (held : Value.get? part key = .ok (some v)) :
    Value.get part key = .ok v := by
  obtain ⟨fields, layer, found⟩ := table_of_get? held
  simp [Value.get, layer, found]

theorem items_of_not_truthy {v : ν} {items : List ν} (absent : Value.isTruthy v = false)
    (read : Value.items v = .ok items) : items = [] := by
  rw [Value.isTruthy] at absent
  rw [Value.items] at read
  cases layer : Value.layer v with
  | list found => simp_all
  | pair first second => simp [layer] at absent
  | set members => simp_all
  | table fields => simp_all
  | scalar s =>
      rw [layer] at absent read
      cases s with
      | text t =>
          have none : t.points = [] := by simpa [Scalar.isTruthy, Text.isEmpty] using absent
          simp only [none, Except.ok.injEq] at read
          exact read.symm
      | bytes bs =>
          have none : bs = [] := by simpa [Scalar.isTruthy] using absent
          simp only [none, Except.ok.injEq] at read
          exact read.symm
      | _ => cases read

theorem itemsOf_some {v : ν} {items : List ν} (read : Value.items v = .ok items) :
    itemsOf (some v) = .ok items := by
  rw [itemsOf, Option.filter_some]
  cases present : Value.isTruthy v with
  | true => exact read
  | false => rw [items_of_not_truthy present read]; rfl

theorem problem_of_rows {part rows : ν} {cells : List (List ν)} {floats : List (List Float)}
    (held : Value.get? part "hamiltonian" = .ok (some rows))
    (read : (Value.items rows >>= fun found => found.mapM Value.items) = .ok cells)
    (triangle : IsTriangle cells floats) :
    problem part = .ok (Problem.normalForm floats.length (entryOf floats)) := by
  obtain ⟨found, itemsRead, cellsRead⟩ := bind_eq_ok.mp read
  have array : CouplingArray.ofSequences rows = .ok (square floats.length (entryOf floats)) := by
    rw [CouplingArray.ofSequences, itemsRead, ok_bind, cellsRead, ok_bind, triangle.ofRows_eq]
  rw [problem, mentions_of_get? held, ok_bind, Option.isSome_some, if_pos rfl, get_of_get? held,
    ok_bind, array, ok_bind, Problem.ofCouplings_square, Problem.addEntries_eq]

theorem problem_of_terms {part count list : ν} {size : Nat} {items : List ν}
    {terms : List ((Nat × Nat) × Float)} (absent : Value.get? part "hamiltonian" = .ok none)
    (sized : Value.get? part "size" = .ok (some count)) (counted : Value.toInt count = .ok size)
    (listed : Value.get? part "entries" = .ok (some list)) (read : Value.items list = .ok items)
    (denoted : List.Forall₂ Denotes items terms)
    (inside : ∀ term ∈ terms, term.1.1 ≤ term.1.2 ∧ term.1.2 < size) :
    problem part = .ok (problemOf size terms) := by
  rw [problem, mentions_of_get? absent, ok_bind, Option.isSome_none, if_neg (by decide),
    mentions_of_get? sized, ok_bind, Option.isSome_some, if_pos rfl, get_of_get? sized, ok_bind,
    counted, ok_bind, listed, ok_bind, itemsOf_some read, ok_bind]
  apply foldlM_insertItem denoted
  intro term member
  exact ⟨(inside term member).1, Int.ofNat_lt.mpr (inside term member).2⟩

section Forms

variable {floats : List (List Float)} {terms : List ((Nat × Nat) × Float)}

theorem sameCoupling_forms
    (inside : ∀ term ∈ terms, term.1.1 ≤ term.1.2 ∧ term.1.2 < floats.length)
    (last : ∀ i j, i ≤ j → j < floats.length →
      SameCoupling (lastOf terms (i, j)) (entryOf floats i j))
    {i j : Nat} (bound : j < floats.length) :
    SameCoupling ((problemOf floats.length terms).weight i j)
      ((Problem.normalForm floats.length (entryOf floats)).weight i j) := by
  rw [Problem.weight_normalForm floats.length (entryOf floats) bound]
  by_cases order : i ≤ j
  · rw [weight_problemOf inside order, cleared, if_pos order]
    rcases last i j order bound with same | ⟨zero, otherZero⟩
    · rw [same]
      split
      · rename_i zero
        exact .inr ⟨zero, rfl⟩
      · exact .inl rfl
    · rw [if_pos otherZero]
      exact .inr ⟨zero, rfl⟩
  · rw [Problem.weight_below _ (by omega), cleared_below (by omega)]
    exact .inl rfl

theorem equals_forms {ν : Type} [Value ν] {cells : List (List ν)} {h k : CouplingArray}
    (triangle : IsTriangle cells floats)
    (inside : ∀ term ∈ terms, term.1.1 ≤ term.1.2 ∧ term.1.2 < floats.length)
    (last : ∀ i j, i ≤ j → j < floats.length →
      SameCoupling (lastOf terms (i, j)) (entryOf floats i j))
    (gridRun : (Problem.normalForm floats.length (entryOf floats)).toCouplings = .ok h)
    (termsRun : (problemOf floats.length terms).toCouplings = .ok k) : k.equals h = true := by
  rw [Problem.toCouplings_eq (Problem.couplingAt_eq_weight
    (Problem.coefficients_normalForm floats.length (entryOf floats)))] at gridRun
  rw [Problem.toCouplings_eq (Problem.couplingAt_eq_weight
    (coefficients_problemOf floats.length terms))] at termsRun
  obtain ⟨_, -, gridRun⟩ := bind_eq_ok.mp gridRun
  obtain ⟨_, -, termsRun⟩ := bind_eq_ok.mp termsRun
  have sized : (problemOf floats.length terms).size = floats.length :=
    Problem.size_ofAttempts _ _
  rw [sized, Int.toNat_natCast] at termsRun
  cases gridRun
  cases termsRun
  apply equals_square
  intro i rowBound j bound
  apply (sameCoupling_forms inside last bound).beq
  rw [Problem.weight_normalForm floats.length (entryOf floats) bound, cleared]
  split
  · split
    · rfl
    · exact triangle.isNaN_entryOf rowBound bound
  · rfl

end Forms

/-- A grid and a list of terms whose last coefficients are its couplings are read as problems with
equal couplings, for which the exhaustive solver has the same outcome. Beside a grid the other
form does not count. -/
theorem forms_solved_alike {ν : Type} [Value ν] {rows count list : ν} {cells : List (List ν)}
    {floats : List (List Float)} {items : List ν} {terms : List ((Nat × Nat) × Float)}
    (cellsRead : (Value.items rows >>= fun found => found.mapM Value.items) = .ok cells)
    (triangle : IsTriangle cells floats) (counted : Value.toInt count = .ok (cells.length : Int))
    (itemsRead : Value.items list = .ok items) (denoted : List.Forall₂ Denotes items terms)
    (inside : ∀ term ∈ terms, term.1.1 ≤ term.1.2 ∧ term.1.2 < cells.length)
    (last : ∀ i j, i ≤ j → j < cells.length →
      SameCoupling (lastOf terms (i, j)) (entryOf floats i j)) :
    ∃ p q,
      (∀ part : ν, Value.get? part "hamiltonian" = .ok (some rows) → problem part = .ok p) ∧
      (∀ part : ν, Value.get? part "hamiltonian" = .ok none →
        Value.get? part "size" = .ok (some count) → Value.get? part "entries" = .ok (some list) →
        problem part = .ok q) ∧
      ((cells.length : Int) < Problem.sideMemory →
        ∃ h k, p.toCouplings = .ok h ∧ q.toCouplings = .ok k) ∧
      (∀ h k, p.toCouplings = .ok h → q.toCouplings = .ok k → k.equals h = true) ∧
      ∀ requested, (Solver.exhaustive .null : Solver ν).sample q requested =
        (Solver.exhaustive .null : Solver ν).sample p requested := by
  rw [← triangle.height] at counted inside last
  have gridCoefficients := Problem.coefficients_normalForm floats.length (entryOf floats)
  have termsCoefficients := coefficients_problemOf floats.length terms
  have sized : (problemOf floats.length terms).size = floats.length :=
    Problem.size_ofAttempts _ _
  refine ⟨.normalForm floats.length (entryOf floats), problemOf floats.length terms, ?_, ?_, ?_,
    ?_, ?_⟩
  · intro part held
    exact problem_of_rows held cellsRead triangle
  · intro part absent sizeHeld listHeld
    exact problem_of_terms absent sizeHeld counted listHeld itemsRead denoted inside
  · intro fits
    rw [← triangle.height] at fits
    exact ⟨_, _, Problem.toCouplings_ok gridCoefficients rfl fits,
      Problem.toCouplings_ok termsCoefficients sized fits⟩
  · intro h k
    exact equals_forms triangle inside last
  · apply Solver.sample_congr ν gridCoefficients termsCoefficients sized
    intro xs _ length
    change xs.length = ((floats.length : Nat) : Int).toNat at length
    rw [Int.toNat_natCast] at length
    apply bitEnergy_congr
    intro i _ j bound
    exact sameCoupling_forms inside last (length ▸ bound)

theorem forms_solved_alike_overwritten :
    let rows : Datum := .list [.list [.int 1, .float 2.0], .list [.bool false, .float (-0.0)]]
    let list : Datum := .list [.list [.int 0, .int 1, .int 5], .list [.int 0, .int 0, .bool true],
      .list [.int 0, .int 1, .int 2]]
    ∃ p q, problem (.table [(.text "hamiltonian", rows)] : Datum) = .ok p ∧
      problem (.table [(.text "size", .int 2), (.text "entries", list)] : Datum) = .ok q ∧
      problem (.table [(.text "size", .int 2), (.text "entries", list),
        (.text "hamiltonian", rows)] : Datum) = .ok p ∧
      (Solver.exhaustive .null : Solver Datum).sample q .null =
        (Solver.exhaustive .null : Solver Datum).sample p .null := by
  intro rows list
  have triangle : IsTriangle [[Datum.int 1, .float 2.0], [.bool false, .float (-0.0)]]
      [[1.0, 2.0], [0.0, -0.0]] := by
    refine ⟨by simp, ?_, rfl, ?_⟩
    · simp only [List.forall_mem_cons]
      exact ⟨⟨⟨.int 1, rfl, nofun⟩, ⟨.float 2.0, rfl, by rintro _ ⟨⟩; rfl⟩, nofun⟩,
        ⟨⟨.int 0, rfl, nofun⟩, ⟨.float (-0.0), rfl, by rintro _ ⟨⟩; rfl⟩, nofun⟩, nofun⟩
    · intro i j row v order found cell
      match i, j, order with
      | 1, 0, _ =>
          cases found
          cases cell
          rfl
      | i + 2, _, _ => cases found
  have denoted : List.Forall₂ Denotes
      [Datum.list [.int 0, .int 1, .int 5], .list [.int 0, .int 0, .bool true],
        .list [.int 0, .int 1, .int 2]]
      [((0, 1), 5.0), ((0, 0), 1.0), ((0, 1), 2.0)] :=
    .cons ⟨_, _, _, rfl, rfl, rfl, rfl⟩ (.cons ⟨_, _, _, rfl, rfl, rfl, rfl⟩
      (.cons ⟨_, _, _, rfl, rfl, rfl, rfl⟩ .nil))
  have last (i j : Nat) (order : i ≤ j) (bound : j < 2) :
      SameCoupling (lastOf [((0, 1), 5.0), ((0, 0), 1.0), ((0, 1), 2.0)] (i, j))
        (entryOf [[1.0, 2.0], [0.0, -0.0]] i j) := by
    interval_cases j
    · interval_cases i
      exact .inl rfl
    · interval_cases i
      · exact .inl rfl
      · exact .inr ⟨rfl, rfl⟩
  have cellsRead : (Value.items rows >>= fun found => found.mapM Value.items) =
      .ok [[Datum.int 1, .float 2.0], [.bool false, .float (-0.0)]] := rfl
  have counted : Value.toInt (Datum.int 2) = .ok ((2 : Nat) : Int) := rfl
  have itemsRead : Value.items list = .ok [Datum.list [.int 0, .int 1, .int 5],
      .list [.int 0, .int 0, .bool true], .list [.int 0, .int 1, .int 2]] := rfl
  obtain ⟨p, q, ofGrid, ofTerms, -, -, samples⟩ :=
    forms_solved_alike cellsRead triangle counted itemsRead denoted (by simp) last
  exact ⟨p, q, ofGrid _ rfl, ofTerms _ rfl rfl rfl, ofGrid _ rfl, samples .null⟩

end Configuration

end BinaryQuadratic
