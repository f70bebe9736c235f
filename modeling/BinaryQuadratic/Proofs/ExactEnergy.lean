import BinaryQuadratic.Proofs.Counting
import BinaryQuadratic.Proofs.Reachable
import BinaryQuadratic.Proofs.SquareGrid
import BinaryQuadratic.QuadraticModel

/-!
Energies without rounding. The terms of a problem, its square grid and its quadratic model are
three forms of one polynomial.
-/

namespace BinaryQuadratic

open Assignment Binary64

def Arithmetic.exact : Arithmetic ℚ where
  zero := 0
  ofCell x := .ok x
  ofCoupling := exactValue
  add := (· + ·)
  mul := (· * ·)

section Sums

variable {κ β : Type} [DecidableEq κ]

theorem sum_at_key {items : List (κ × β)} (distinct : (items.map Prod.fst).Nodup) (key : κ)
    (f : κ × β → ℚ) :
    (items.map fun item => if item.1 = key then f item else 0).sum =
      ((items.find? fun item => item.1 = key).map f).getD 0 := by
  induction items with
  | nil => rfl
  | cons item rest ih =>
      obtain ⟨fresh, restDistinct⟩ := List.nodup_cons.mp distinct
      rw [List.map_cons, List.sum_cons, ih restDistinct]
      by_cases same : item.1 = key
      · have absent : rest.find? (fun item => item.1 = key) = none := by
          apply List.find?_eq_none.mpr
          intro other member
          rw [decide_eq_true_eq]
          rintro rfl
          exact fresh (same ▸ List.mem_map_of_mem member)
        simp [same, absent]
      · simp [same]

theorem sum_exchange (indices : Finset Nat) (items : List β) (f : Nat → β → ℚ) :
    ∑ i ∈ indices, (items.map (f i)).sum = (items.map fun item => ∑ i ∈ indices, f i item).sum := by
  induction items with
  | nil => simp
  | cons item rest ih =>
      simp only [List.map_cons, List.sum_cons, Finset.sum_add_distrib, ih]

theorem sum_pairs {size : Nat} {items : List ((Nat × Nat) × β)}
    (inside : ∀ item ∈ items, item.1.1 < size ∧ item.1.2 < size) (f : (Nat × Nat) × β → ℚ) :
    ∑ i ∈ Finset.range size, ∑ j ∈ Finset.range size,
      (items.map fun item => if item.1 = (i, j) then f item else 0).sum = (items.map f).sum := by
  simp only [sum_exchange]
  apply congrArg List.sum
  apply List.map_congr_left
  rintro ⟨⟨row, column⟩, value⟩ member
  obtain ⟨rowBound, columnBound⟩ := inside _ member
  simp only at rowBound columnBound
  simp [ite_and, rowBound, columnBound]

theorem sum_diagonal {size : Nat} {items : List ((Nat × Nat) × β)}
    (inside : ∀ item ∈ items, item.1.1 < size ∧ item.1.2 < size) (f : (Nat × Nat) × β → ℚ) :
    ∑ v ∈ Finset.range size,
      (items.map fun item => if item.1 = (v, v) then f item else 0).sum =
        (items.map fun item => if item.1.1 = item.1.2 then f item else 0).sum := by
  rw [sum_exchange]
  apply congrArg List.sum
  apply List.map_congr_left
  rintro ⟨⟨row, column⟩, value⟩ member
  obtain ⟨rowBound, -⟩ := inside _ member
  simp only at rowBound
  simp [ite_and, rowBound, eq_comm]

theorem sum_split (items : List ((Nat × Nat) × β)) (f : (Nat × Nat) × β → ℚ) :
    (items.map f).sum = (items.map fun item => if item.1.1 = item.1.2 then f item else 0).sum +
      ((items.filter fun item => item.1.1 ≠ item.1.2).map f).sum := by
  induction items with
  | nil => simp
  | cons item rest ih =>
      by_cases diagonal : item.1.1 = item.1.2
      · simp [diagonal, ih]
        ring
      · simp [diagonal, ih]
        ring

theorem foldl_add_eq_sum (items : List β) (f : β → ℚ) (start : ℚ) :
    items.foldl (fun total item => total + f item) start = start + (items.map f).sum := by
  induction items generalizing start with
  | nil => simp
  | cons item rest ih => rw [List.foldl_cons, ih, List.map_cons, List.sum_cons, add_assoc]

end Sums

namespace CouplingArray

theorem squareSum_exact (size : Nat) (entry : Nat → Nat → Float) (xs : List Int) :
    squareSum .exact (fun x => (x : ℚ)) size entry xs =
      ∑ i ∈ Finset.range size, ∑ j ∈ Finset.range size,
        exactValue (entry i j) * xs.getD i 0 * xs.getD j 0 := by
  have row (total : ℚ) (i : Nat) :
      (if xs.getD i 0 = 0 then total
        else (List.range size).foldl (fun sum j =>
          sum + xs.getD i 0 * exactValue (entry i j) * xs.getD j 0) total) =
      total + ∑ j ∈ Finset.range size, exactValue (entry i j) * xs.getD i 0 * xs.getD j 0 := by
    split
    · rename_i zero
      simp only [zero, Int.cast_zero, mul_zero, zero_mul, Finset.sum_const_zero, add_zero]
    · rw [foldl_add_eq_sum]
      simp only [mul_comm (xs.getD i 0 : ℚ)]
      rfl
  simp only [squareSum, Arithmetic.exact, row]
  rw [foldl_add_eq_sum, zero_add]
  rfl

end CouplingArray

namespace Problem

/-- A coefficient as a binary64 number, zero in place of one that cannot be read. -/
def reading (d : Datum) : Float :=
  match Value.toFloat d with
  | .ok x => x
  | .error _ => 0.0

theorem HasCoefficients.read {p : Problem} {property : Float → Prop}
    (coefficients : p.HasCoefficients property) {term : (Nat × Nat) × Datum}
    (member : term ∈ p.terms) : Value.toFloat term.2 = .ok (reading term.2) := by
  obtain ⟨x, read, -⟩ := coefficients term member
  rw [reading, read]

def exactTerm (xs : List Int) (term : (Nat × Nat) × Float) : ℚ :=
  exactValue term.2 * xs.getD term.1.1 0 * xs.getD term.1.2 0

def readTerms (p : Problem) : List ((Nat × Nat) × Float) :=
  p.terms.map fun term => (term.1, reading term.2)

def exactEnergy (p : Problem) (xs : List Int) : ℚ := (p.readTerms.map (exactTerm xs)).sum

theorem map_fst_readTerms (p : Problem) : p.readTerms.map Prod.fst = p.terms.map Prod.fst := by
  rw [readTerms, List.map_map]
  rfl

theorem WellFormed.inside {p : Problem} {size : Nat} (wellFormed : p.WellFormed)
    (sized : p.size = size) :
    ∀ term ∈ p.readTerms, term.1.1 < size ∧ term.1.2 < size := by
  intro term member
  obtain ⟨stored, storedMember, rfl⟩ := List.mem_map.mp member
  have order := wellFormed.upper stored storedMember
  rw [sized] at order
  change stored.1.1 < size ∧ stored.1.2 < size
  omega

theorem weight_eq_find {p : Problem} {property : Float → Prop}
    (coefficients : p.HasCoefficients property) (wellFormed : p.WellFormed) (i j : Nat) :
    p.weight i j =
      ((p.readTerms.find? fun term => term.1 = (i, j)).map Prod.snd).getD 0.0 := by
  have stored : (p.readTerms.find? fun term => term.1 = (i, j)).map Prod.snd =
      (p.lookup (i, j)).map reading := by
    rw [readTerms, List.find?_map, lookup, Option.map_map, Option.map_map]
    rfl
  rw [stored, weight]
  cases found : p.lookup (i, j) with
  | none => rw [couplingAt_of_absent found]; rfl
  | some d =>
      have member := mem_terms_of_lookup found
      have order := (wellFormed.upper _ member).1
      rw [couplingAt_of_lookup order found (coefficients.read member)]
      rfl

theorem energyIn_exact {p : Problem} {property : Float → Prop} {size : Nat}
    (coefficients : p.HasCoefficients property) (wellFormed : p.WellFormed) (sized : p.size = size)
    {couplings : CouplingArray} (converted : p.toCouplings = .ok couplings) {xs : List Int}
    (length : xs.length = size) : couplings.energyIn .exact xs = .ok (p.exactEnergy xs) := by
  rw [toCouplings_eq (couplingAt_eq_weight coefficients), sized] at converted
  obtain ⟨-, -, converted⟩ := bind_eq_ok.mp converted
  cases converted
  have distinct : (p.readTerms.map Prod.fst).Nodup := by
    rw [map_fst_readTerms]
    exact wellFormed.distinct
  have product (i j : Nat) : exactValue (p.weight i j) * xs.getD i 0 * xs.getD j 0 =
      (p.readTerms.map fun term => if term.1 = (i, j) then exactTerm xs term else 0).sum := by
    rw [sum_at_key distinct, weight_eq_find coefficients wellFormed]
    cases found : p.readTerms.find? fun term => term.1 = (i, j) with
    | none => simp [exactValue_zero]
    | some term =>
        have key : term.1 = (i, j) := by simpa using List.find?_some found
        simp [exactTerm, key]
  rw [Int.toNat_natCast, ← length, CouplingArray.energyIn_square (fun x _ => rfl),
    CouplingArray.squareSum_exact]
  simp only [product]
  rw [sum_pairs (length ▸ wellFormed.inside sized)]
  rfl

end Problem

namespace QuadraticModel

def exactValueAt (m : QuadraticModel) (xs : List Int) : ℚ :=
  exactValue m.offset + (m.linear.map fun (v, x) => exactValue x * xs.getD v 0).sum +
    (m.quadratic.map (Problem.exactTerm xs)).sum

theorem mem_mention {seen : List Nat} {v w : Nat} : w ∈ mention seen v ↔ w ∈ seen ∨ w = v := by
  unfold mention
  split
  · rename_i known
    have member : v ∈ seen := by simpa using known
    constructor
    · exact .inl
    · rintro (old | rfl)
      · exact old
      · exact member
  · simp

theorem nodup_mention {seen : List Nat} (distinct : seen.Nodup) (v : Nat) :
    (mention seen v).Nodup := by
  unfold mention
  split
  · exact distinct
  · rename_i new
    apply List.nodup_append.mpr
    refine ⟨distinct, List.pairwise_singleton _ _, ?_⟩
    intro other member last same
    rw [List.mem_singleton.mp same]
    rintro rfl
    exact new (by simpa using member)

theorem mem_foldl_mention {mentions seen : List Nat} {w : Nat} :
    w ∈ mentions.foldl mention seen ↔ w ∈ seen ∨ w ∈ mentions := by
  induction mentions generalizing seen with
  | nil => simp
  | cons v rest ih => rw [List.foldl_cons, ih, mem_mention, List.mem_cons, or_assoc]

theorem labels_perm {size : Nat} {mentioned : List Nat} (inside : ∀ v ∈ mentioned, v < size) :
    ((mentioned ++ List.range size).foldl mention []).Perm (List.range size) := by
  have distinct : ((mentioned ++ List.range size).foldl mention []).Nodup :=
    foldl_invariant List.Nodup List.nodup_nil fun v _ _ kept => nodup_mention kept v
  apply (List.perm_ext_iff_of_nodup distinct List.nodup_range).mpr
  intro v
  rw [mem_foldl_mention, List.mem_append, List.mem_range]
  constructor
  · rintro (none | mentionedMember | bound)
    · cases none
    · exact inside v mentionedMember
    · exact bound
  · intro bound
    exact .inr (.inr bound)

theorem sum_linear {size : Nat} {terms : List ((Nat × Nat) × Float)}
    (distinct : (terms.map Prod.fst).Nodup)
    (inside : ∀ term ∈ terms, term.1.1 < size ∧ term.1.2 < size) {xs : List Int}
    (bits : IsBits xs) :
    (((List.range size).map fun v => (v, linearBias terms v)).map
      fun (v, x) => exactValue x * xs.getD v 0).sum =
      (terms.map fun term => if term.1.1 = term.1.2 then Problem.exactTerm xs term else 0).sum := by
  have square (v : Nat) : (xs.getD v 0 : ℚ) * xs.getD v 0 = xs.getD v 0 := by
    rcases isBits_getD bits v with zero | one
    · rw [zero, Int.cast_zero, mul_zero]
    · rw [one, Int.cast_one, mul_one]
  have linear (v : Nat) : exactValue (linearBias terms v) * xs.getD v 0 =
      (terms.map fun term => if term.1 = (v, v) then Problem.exactTerm xs term else 0).sum := by
    rw [sum_at_key distinct, linearBias]
    cases found : terms.find? fun term => term.1 = (v, v) with
    | none => simp [exactValue_zero]
    | some term =>
        have key : term.1 = (v, v) := by simpa using List.find?_some found
        simp only [Option.map_some, Option.getD_some, bias, exactValue_zero_add,
          Problem.exactTerm, key]
        rw [mul_assoc, square]
  rw [List.map_map, ← sum_diagonal inside]
  simp only [← linear]
  rfl

theorem sum_quadratic (terms : List ((Nat × Nat) × Float)) (xs : List Int) :
    ((((terms.filter fun term => term.1.1 ≠ term.1.2).map
      fun term => (term.1, bias term.2)).mergeSort pairBefore).map (Problem.exactTerm xs)).sum =
      ((terms.filter fun term => term.1.1 ≠ term.1.2).map (Problem.exactTerm xs)).sum := by
  rw [((List.mergeSort_perm _ _).map _).sum_eq, List.map_map]
  apply congrArg List.sum
  apply List.map_congr_left
  intro term _
  simp only [Function.comp_apply, Problem.exactTerm, bias, exactValue_zero_add]

theorem ofProblem_eq {p : Problem} {property : Float → Prop} {size : Nat} {offset : Datum}
    {shift : Float} (coefficients : p.HasCoefficients property) (sized : p.size = size)
    (read : Value.toFloat offset = .ok shift) :
    ofProblem p offset = .ok {
      labels := ((p.readTerms.flatMap fun term => [term.1.1, term.1.2]) ++
        List.range size).foldl mention []
      linear := (List.range size).map fun v => (v, linearBias p.readTerms v)
      quadratic := ((p.readTerms.filter fun term => term.1.1 ≠ term.1.2).map
        fun term => (term.1, bias term.2)).mergeSort pairBefore
      offset := bias shift } := by
  rw [ofProblem, mapM_eq_ok_map (g := fun term => (term.1, Problem.reading term.2)), ok_bind, read,
    ok_bind, sized]
  · rfl
  · rintro ⟨pair, value⟩ member
    simp only [coefficients.read member]
    rfl

theorem quadratic_perm {p : Problem} (wellFormed : p.WellFormed) :
    ((((p.readTerms.filter fun term => term.1.1 ≠ term.1.2).map
      fun term => (term.1, bias term.2)).mergeSort pairBefore).map Prod.fst).Perm
      ((p.terms.map Prod.fst).filter fun pair => pair.1 < pair.2) := by
  apply ((List.mergeSort_perm _ _).map _).trans
  have strict : (p.readTerms.filter fun term => term.1.1 ≠ term.1.2) =
      p.readTerms.filter fun term => term.1.1 < term.1.2 := by
    apply List.filter_congr
    intro term member
    obtain ⟨stored, storedMember, rfl⟩ := List.mem_map.mp member
    have order := (wellFormed.upper stored storedMember).1
    apply decide_eq_decide.mpr
    change stored.1.1 ≠ stored.1.2 ↔ stored.1.1 < stored.1.2
    omega
  rw [List.map_map, ← Problem.map_fst_readTerms, List.filter_map, strict]
  exact List.Perm.refl _

end QuadraticModel

/-- Without rounding, the terms of a problem, its square grid and its quadratic model have the same
energies. The variables of the model are those of the problem, each once, and its quadratic terms
are those of two different variables. -/
theorem exact_energies_agree {p : Problem} {size : Nat} {offset : Datum} {shift : Float}
    (reachable : p.Reachable) (sized : p.size = size)
    (finite : p.HasCoefficients fun x => x.isFinite = true)
    (read : Value.toFloat offset = .ok shift) :
    ((size : Int) < Problem.sideMemory → ∃ couplings, p.toCouplings = .ok couplings) ∧
    (∀ couplings xs, p.toCouplings = .ok couplings → IsBits xs → xs.length = size →
      couplings.energyIn .exact xs = .ok (p.exactEnergy xs)) ∧
    ∃ model, QuadraticModel.ofProblem p offset = .ok model ∧
      (∀ xs, IsBits xs → xs.length = size →
        model.exactValueAt xs = p.exactEnergy xs + exactValue shift) ∧
      model.labels.Perm (List.range size) ∧ model.labels.Nodup ∧
      (model.quadratic.map Prod.fst).Perm
        ((p.terms.map Prod.fst).filter fun pair => pair.1 < pair.2) := by
  have wellFormed := reachable.wellFormed
  have inside := wellFormed.inside sized
  have distinct : (p.readTerms.map Prod.fst).Nodup := by
    rw [Problem.map_fst_readTerms]
    exact wellFormed.distinct
  have mentioned : ∀ v ∈ p.readTerms.flatMap fun term => [term.1.1, term.1.2], v < size := by
    intro v member
    obtain ⟨term, termMember, either⟩ := List.mem_flatMap.mp member
    have bounds := inside term termMember
    simp only [List.mem_cons, List.not_mem_nil, or_false] at either
    omega
  refine ⟨?_, ?_, _, QuadraticModel.ofProblem_eq finite sized read, ?_, ?_, ?_, ?_⟩
  · intro fits
    exact ⟨_, Problem.toCouplings_ok finite sized fits⟩
  · intro couplings xs converted _ length
    exact Problem.energyIn_exact finite wellFormed sized converted length
  · intro xs bits _
    rw [QuadraticModel.exactValueAt, QuadraticModel.sum_linear distinct inside bits,
      QuadraticModel.sum_quadratic, QuadraticModel.bias, exactValue_zero_add, Problem.exactEnergy,
      sum_split p.readTerms (Problem.exactTerm xs)]
    ring
  · exact QuadraticModel.labels_perm mentioned
  · exact (QuadraticModel.labels_perm mentioned).nodup_iff.mpr List.nodup_range
  · exact QuadraticModel.quadratic_perm wellFormed

theorem exact_energies_agree_pair :
    ∃ couplings model, Problem.toCouplings ⟨2, [((0, 1), .int 2), ((1, 1), .int (-1))]⟩ =
        .ok couplings ∧
      QuadraticModel.ofProblem ⟨2, [((0, 1), .int 2), ((1, 1), .int (-1))]⟩ (.int 1) =
        .ok model ∧
      couplings.energyIn .exact [1, 1] =
        .ok (Problem.exactEnergy ⟨2, [((0, 1), .int 2), ((1, 1), .int (-1))]⟩ [1, 1]) ∧
      model.exactValueAt [1, 1] =
        Problem.exactEnergy ⟨2, [((0, 1), .int 2), ((1, 1), .int (-1))]⟩ [1, 1] +
          exactValue 1.0 ∧
      (model.quadratic.map Prod.fst).Perm [(0, 1)] := by
  have reachable : Problem.Reachable ⟨2, [((0, 1), .int 2), ((1, 1), .int (-1))]⟩ :=
    .insert (i := .int 1) (j := .int 1) (.insert (i := .int 0) (j := .int 1) (.empty 2) rfl) rfl
  have finite : Problem.HasCoefficients ⟨2, [((0, 1), .int 2), ((1, 1), .int (-1))]⟩
      fun x => x.isFinite = true := by
    simp only [Problem.HasCoefficients, List.forall_mem_cons]
    exact ⟨⟨2.0, rfl, rfl⟩, ⟨-1.0, rfl, rfl⟩, List.forall_mem_nil _⟩
  have bits : IsBits [1, 1] := by simp [IsBits]
  obtain ⟨converts, grid, model, built, values, -, -, quadratic⟩ :=
    exact_energies_agree reachable rfl finite (show Value.toFloat (Datum.int 1) = .ok 1.0 by rfl)
  obtain ⟨couplings, converted⟩ := converts (by decide)
  exact ⟨couplings, model, converted, built, grid couplings [1, 1] converted bits rfl,
    values [1, 1] bits rfl, quadratic⟩

end BinaryQuadratic
