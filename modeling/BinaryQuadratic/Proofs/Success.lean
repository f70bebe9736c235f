/-!
Loops that end in a result: a loop succeeds when all of its steps do, and then goes on as one
without faults.
-/

namespace BinaryQuadratic

variable {ε α β γ : Type}

theorem bind_eq_ok {outcome : Except ε α} {next : α → Except ε β} {result : β} :
    (outcome >>= next) = .ok result ↔ ∃ value, outcome = .ok value ∧ next value = .ok result := by
  cases outcome with
  | error fault =>
      constructor
      · intro impossible
        cases impossible
      · rintro ⟨value, impossible, _⟩
        cases impossible
  | ok value =>
      constructor
      · intro run
        exact ⟨value, rfl, run⟩
      · rintro ⟨other, same, run⟩
        cases same
        exact run

theorem bind_eq_error {outcome : Except ε α} {next : α → Except ε β} {fault : ε} :
    (outcome >>= next) = .error fault ↔
      outcome = .error fault ∨ ∃ value, outcome = .ok value ∧ next value = .error fault := by
  cases outcome with
  | error other =>
      constructor
      · intro run
        cases run
        exact .inl rfl
      · rintro (same | ⟨value, impossible, -⟩)
        · cases same
          rfl
        · cases impossible
  | ok value =>
      constructor
      · intro run
        exact .inr ⟨value, rfl, run⟩
      · rintro (impossible | ⟨other, same, run⟩)
        · cases impossible
        · cases same
          exact run

theorem check_eq_ok {condition : Prop} [Decidable condition] {fault : ε}
    {stop : γ → Except ε α} {next : Except ε α} {result : α} :
    (if condition then throw fault >>= stop else next) = .ok result ↔
      ¬condition ∧ next = .ok result := by
  split
  · rename_i holds
    constructor
    · intro impossible
      cases impossible
    · intro passed
      exact (passed.1 holds).elim
  · rename_i fails
    simp [fails]

theorem ok_bind (value : α) (next : α → Except ε β) :
    ((.ok value : Except ε α) >>= next) = next value := rfl

theorem map_ok (f : α → β) (value : α) : f <$> (.ok value : Except ε α) = .ok (f value) := rfl

theorem map_eq_ok {f : α → β} {outcome : Except ε α} {result : β} :
    f <$> outcome = .ok result ↔ ∃ value, outcome = .ok value ∧ f value = result := by
  cases outcome with
  | error fault =>
      constructor
      · intro impossible
        cases impossible
      · rintro ⟨value, impossible, _⟩
        cases impossible
  | ok value =>
      rw [map_ok, Except.ok.injEq]
      constructor
      · intro same
        exact ⟨value, rfl, same⟩
      · rintro ⟨other, equal, same⟩
        cases equal
        exact same

theorem eq_ok_of_isOk {outcome : Except ε α} (succeeded : outcome.isOk = true) :
    ∃ value, outcome = .ok value := by
  cases outcome with
  | error fault => cases succeeded
  | ok value => exact ⟨value, rfl⟩

theorem eq_ok_of_toOption {outcome : Except ε α} {value : α}
    (found : outcome.toOption = some value) : outcome = .ok value := by
  cases outcome with
  | error fault => cases found
  | ok other =>
      cases found
      rfl

theorem mapM_eq_ok_map {f : α → Except ε β} {g : α → β} {items : List α}
    (steps : ∀ item ∈ items, f item = .ok (g item)) : items.mapM f = .ok (items.map g) := by
  induction items with
  | nil => rfl
  | cons item rest ih =>
      rw [List.mapM_cons, steps item List.mem_cons_self, ok_bind,
        ih fun other member => steps other (List.mem_cons_of_mem _ member)]
      rfl

theorem mapM_congr {f g : α → Except ε β} {items : List α}
    (same : ∀ item ∈ items, f item = g item) : items.mapM f = items.mapM g := by
  induction items with
  | nil => rfl
  | cons item rest ih =>
      rw [List.mapM_cons, List.mapM_cons, same item List.mem_cons_self,
        ih fun other member => same other (List.mem_cons_of_mem _ member)]

theorem length_of_mapM_eq_ok {f : α → Except ε β} {items : List α} {results : List β}
    (run : items.mapM f = .ok results) : results.length = items.length := by
  induction items generalizing results with
  | nil =>
      cases run
      rfl
  | cons item rest ih =>
      rw [List.mapM_cons] at run
      obtain ⟨first, _, later⟩ := bind_eq_ok.mp run
      obtain ⟨others, restRun, last⟩ := bind_eq_ok.mp later
      cases last
      rw [List.length_cons, List.length_cons, ih restRun]

theorem getElem?_of_mapM_eq_ok {f : α → Except ε β} {items : List α} {results : List β}
    (run : items.mapM f = .ok results) {i : Nat} {result : β} (found : results[i]? = some result) :
    ∃ item, items[i]? = some item ∧ f item = .ok result := by
  induction items generalizing results i with
  | nil =>
      cases run
      cases found
  | cons item rest ih =>
      rw [List.mapM_cons] at run
      obtain ⟨first, firstRun, later⟩ := bind_eq_ok.mp run
      obtain ⟨others, restRun, last⟩ := bind_eq_ok.mp later
      cases last
      cases i with
      | zero =>
          cases found
          exact ⟨item, rfl, firstRun⟩
      | succ i => exact ih restRun found

theorem mem_of_mapM_eq_ok {f : α → Except ε β} {items : List α} {results : List β}
    (run : items.mapM f = .ok results) {result : β} (member : result ∈ results) :
    ∃ item ∈ items, f item = .ok result := by
  obtain ⟨i, found⟩ := List.mem_iff_getElem?.mp member
  obtain ⟨item, stored, itemRun⟩ := getElem?_of_mapM_eq_ok run found
  exact ⟨item, List.mem_of_getElem? stored, itemRun⟩

theorem ok_of_mapM_eq_ok {f : α → Except ε β} {items : List α} {results : List β}
    (run : items.mapM f = .ok results) {item : α} (member : item ∈ items) :
    ∃ result ∈ results, f item = .ok result := by
  induction items generalizing results with
  | nil => cases member
  | cons first rest ih =>
      rw [List.mapM_cons] at run
      obtain ⟨result, firstRun, run⟩ := bind_eq_ok.mp run
      obtain ⟨others, restRun, run⟩ := bind_eq_ok.mp run
      cases run
      rcases List.mem_cons.mp member with rfl | later
      · exact ⟨result, List.mem_cons_self, firstRun⟩
      · obtain ⟨other, inside, otherRun⟩ := ih restRun later
        exact ⟨other, List.mem_cons_of_mem _ inside, otherRun⟩

theorem split_of_mapM_eq_error {f : α → Except ε β} {items : List α} {fault : ε}
    (run : items.mapM f = .error fault) : ∃ front item back results,
      items = front ++ item :: back ∧ front.mapM f = .ok results ∧ f item = .error fault := by
  induction items with
  | nil => cases run
  | cons item rest ih =>
      rw [List.mapM_cons] at run
      rcases bind_eq_error.mp run with failed | ⟨result, stepped, later⟩
      · exact ⟨[], item, rest, [], rfl, rfl, failed⟩
      · rcases bind_eq_error.mp later with restFailed | ⟨others, -, impossible⟩
        · obtain ⟨front, other, back, results, rfl, frontRun, otherFailed⟩ := ih restFailed
          refine ⟨item :: front, other, back, result :: results, rfl, ?_, otherFailed⟩
          rw [List.mapM_cons, stepped, ok_bind, frontRun]
          rfl
        · cases impossible

theorem mapM_succeeds {f : α → Except ε β} {items : List α}
    (steps : ∀ item ∈ items, ∃ result, f item = .ok result) :
    ∃ results, items.mapM f = .ok results := by
  cases run : items.mapM f with
  | ok results => exact ⟨results, rfl⟩
  | error fault =>
      obtain ⟨front, item, back, -, rfl, -, failed⟩ := split_of_mapM_eq_error run
      obtain ⟨result, stepped⟩ := steps item (by simp)
      rw [failed] at stepped
      cases stepped

theorem result_of_mapM_eq_ok {f : α → Except ε β} {items : List α} {results : List β}
    (run : items.mapM f = .ok results) {i : Nat} {item : α} (found : items[i]? = some item) :
    ∃ result, results[i]? = some result ∧ f item = .ok result := by
  obtain ⟨bound, -⟩ := List.getElem?_eq_some_iff.mp found
  rw [← length_of_mapM_eq_ok run] at bound
  obtain ⟨stored, same, stepped⟩ :=
    getElem?_of_mapM_eq_ok run (List.getElem?_eq_getElem bound)
  cases found.symm.trans same
  exact ⟨results[i], List.getElem?_eq_getElem bound, stepped⟩

theorem foldlM_eq_ok_foldl {f : γ → α → Except ε γ} {g : γ → α → γ} {items : List α}
    (steps : ∀ item ∈ items, ∀ state, f state item = .ok (g state item)) (start : γ) :
    items.foldlM f start = .ok (items.foldl g start) := by
  induction items generalizing start with
  | nil => rfl
  | cons item rest ih =>
      rw [List.foldlM_cons, steps item List.mem_cons_self, ok_bind,
        ih (fun other member => steps other (List.mem_cons_of_mem _ member)), List.foldl_cons]

theorem foldl_invariant (Invariant : γ → Prop) {step : γ → α → γ} {items : List α} {start : γ}
    (initial : Invariant start)
    (keeps : ∀ item ∈ items, ∀ state, Invariant state → Invariant (step state item)) :
    Invariant (items.foldl step start) := by
  induction items generalizing start with
  | nil => exact initial
  | cons item rest ih =>
      exact ih (keeps item List.mem_cons_self start initial)
        fun other member => keeps other (List.mem_cons_of_mem _ member)

/-- Two loops whose steps agree on what the first one keeps have the same end. -/
theorem foldl_congr_invariant (Invariant : γ → Prop) {step other : γ → α → γ} {items : List α}
    {start : γ} (initial : Invariant start)
    (keeps : ∀ item ∈ items, ∀ state, Invariant state → Invariant (step state item))
    (agree : ∀ item ∈ items, ∀ state, Invariant state → step state item = other state item) :
    items.foldl step start = items.foldl other start := by
  induction items generalizing start with
  | nil => rfl
  | cons item rest ih =>
      rw [List.foldl_cons, List.foldl_cons, ← agree item List.mem_cons_self start initial]
      exact ih (keeps item List.mem_cons_self start initial)
        (fun other member => keeps other (List.mem_cons_of_mem _ member))
        fun other member => agree other (List.mem_cons_of_mem _ member)

theorem foldlM_invariant (Invariant : γ → Prop) {step : γ → α → Except ε γ} {items : List α}
    {start result : γ} (initial : Invariant start)
    (keeps : ∀ item ∈ items, ∀ state next,
      Invariant state → step state item = .ok next → Invariant next)
    (run : items.foldlM step start = .ok result) : Invariant result := by
  induction items generalizing start with
  | nil =>
      cases run
      exact initial
  | cons item rest ih =>
      rw [List.foldlM_cons] at run
      obtain ⟨next, stepped, restRun⟩ := bind_eq_ok.mp run
      exact ih (keeps item List.mem_cons_self start next initial stepped)
        (fun other member => keeps other (List.mem_cons_of_mem _ member)) restRun

theorem foldl_attained (Goal : γ → Prop) {step : γ → α → γ} {items : List α} {item : α}
    (keeps : ∀ other ∈ items, ∀ state, Goal state → Goal (step state other))
    (member : item ∈ items) (attains : ∀ state, Goal (step state item)) (start : γ) :
    Goal (items.foldl step start) := by
  obtain ⟨earlier, later, rfl⟩ := List.append_of_mem member
  rw [List.foldl_append, List.foldl_cons]
  apply foldl_invariant Goal (attains _)
  intro other within state holds
  exact keeps other (by simp [within]) state holds

end BinaryQuadratic
