import BinaryQuadratic.Ranking

/-!
Ranking rearranges: each element stands in the result as often as in the list, also where the
order leaves elements unordered and the result depends on which comparisons were made.
-/

namespace BinaryQuadratic.Ranking

variable {α : Type}

theorem length_firstRun_rest (before : α → α → Bool) (least : Nat) (x : α) (xs : List α) :
    (firstRun before least (x :: xs)).2.length ≤ xs.length := by
  have started : (orderedStart before (x :: xs)).2.length ≤ xs.length := by
    cases xs with
    | nil => simp [orderedStart]
    | cons y rest =>
        have falling : 1 ≤ fallingLength before x (y :: rest) := by
          unfold fallingLength
          split <;> omega
        have rising : 1 ≤ risingLength before x (y :: rest) := by
          unfold risingLength
          split <;> omega
        simp only [orderedStart]
        split
        · simp only [List.length_drop, List.length_cons]
          omega
        · simp only [List.length_drop, List.length_cons]
          omega
  simp only [firstRun, List.length_drop]
  omega

section Counts

variable [DecidableEq α]

theorem count_eq_take_add_drop (x : α) (n : Nat) (xs : List α) :
    xs.count x = (xs.take n).count x + (xs.drop n).count x := by
  rw [← List.count_append, List.take_append_drop]

theorem count_mergeForward (before : α → α → Bool) (x : α) (fuel patience : Nat) (pace : Pace)
    (left right done : List α) :
    (mergeForward before fuel patience pace left right done).1.count x =
      done.count x + left.count x + right.count x := by
  fun_induction mergeForward before fuel patience pace left right done <;>
    grind [count_eq_take_add_drop, List.isEmpty_iff]

theorem count_mergeBackward (before : α → α → Bool) (x : α) (fuel patience : Nat) (pace : Pace)
    (left right done : List α) :
    (mergeBackward before fuel patience pace left right done).1.count x =
      done.count x + left.count x + right.count x := by
  fun_induction mergeBackward before fuel patience pace left right done <;>
    grind [count_eq_take_add_drop, List.isEmpty_iff]

theorem count_mergeRest (before : α → α → Bool) (x : α) (patience : Nat) (left right : List α) :
    (mergeRest before patience left right).1.count x = left.count x + right.count x := by
  have reversed : left.count x = left.reverse.count x := List.count_reverse.symm
  unfold mergeRest
  split
  · split
    · simp
    · split
      · rename_i last
        rw [List.isEmpty_iff.mp last]
        simp [List.count_cons]
      · split
        · rw [List.count_append, Nat.add_comm]
        · rw [count_mergeForward]
          simp [List.count_cons]
          omega
  · rw [reversed]
    split
    · rename_i none
      simp [none]
    · rename_i a others whole
      rw [whole]
      split
      · rename_i last
        rw [List.isEmpty_iff.mp last]
        simp [List.count_append, Nat.add_comm]
      · split
        · rw [← whole]
          simp [List.count_append, Nat.add_comm]
        · rw [count_mergeBackward]
          simp [List.count_cons]
          omega

theorem count_mergeRuns (before : α → α → Bool) (x : α) (patience : Nat) (left right : List α) :
    (mergeRuns before patience left right).1.count x = left.count x + right.count x := by
  unfold mergeRuns
  split
  · simp
  · rename_i b others
    simp only
    split
    · simp [List.count_append]
    · rename_i a _
      split
      · simp [List.count_append]
      · simp only [List.count_append, count_mergeRest]
        rw [count_eq_take_add_drop x (countNotAfter before left b 0) left,
          count_eq_take_add_drop x
            (countBefore before (b :: others) a ((b :: others).length - 1)) (b :: others)]
        omega

theorem count_insert (before : α → α → Bool) (x : α) (xs : List α) (y : α) :
    (insert before xs y).count x = xs.count x + [y].count x := by
  have parts := count_eq_take_add_drop x (bisect before xs y xs.length 0 xs.length) xs
  simp only [insert, List.count_append, List.count_cons, List.count_nil]
  omega

theorem count_foldl_insert (before : α → α → Bool) (x : α) (ys xs : List α) :
    (ys.foldl (insert before) xs).count x = xs.count x + ys.count x := by
  induction ys generalizing xs with
  | nil => simp
  | cons y rest ih =>
      rw [List.foldl_cons, ih, count_insert, List.count_cons, List.count_cons, List.count_nil]
      omega

theorem count_orderedStart (before : α → α → Bool) (x : α) (xs : List α) :
    (orderedStart before xs).1.count x + (orderedStart before xs).2.count x = xs.count x := by
  unfold orderedStart
  split
  · rfl
  · simp
  · split
    · rw [List.count_reverse, ← count_eq_take_add_drop]
    · rw [← count_eq_take_add_drop]

theorem count_firstRun (before : α → α → Bool) (x : α) (least : Nat) (xs : List α) :
    (firstRun before least xs).1.count x + (firstRun before least xs).2.count x = xs.count x := by
  simp only [firstRun, count_foldl_insert]
  rw [Nat.add_assoc, ← count_eq_take_add_drop, count_orderedStart]

def content (runs : List (Run α)) : List α := runs.flatMap Run.items

theorem count_content_cons (x : α) (run : Run α) (rest : List (Run α)) :
    (content (run :: rest)).count x = run.items.count x + (content rest).count x := by
  simp [content, List.count_append]

theorem count_settle (before : α → α → Bool) (x : α) (depth fuel : Nat)
    (state : List (Run α) × Nat) :
    (content (settle before depth fuel state).1).count x = (content state.1).count x := by
  fun_induction settle before depth fuel state with
  | case1 fuel top second rest patience deeper items next merged ih =>
      have kept := count_mergeRuns before x patience second.items top.items
      rw [merged] at kept
      simp only [ih, count_content_cons, kept]
      omega
  | case2 => rfl
  | case3 => rfl

theorem count_push (before : α → α → Bool) (x : α) (size : Nat) (state : List (Run α) × Nat)
    (items : List α) : (content (push before size state items).1).count x =
      (content state.1).count x + items.count x := by
  obtain ⟨runs, patience⟩ := state
  unfold push
  split
  · rename_i none
    rw [show runs = [] from none]
    simp [content]
  · simp only
    split
    · rename_i settled
      have kept := congrArg (fun state => (content state.1).count x) settled
      simp only [count_settle] at kept
      rw [kept]
      simp [content]
    · rename_i settled
      have kept := congrArg (fun state => (content state.1).count x) settled
      simp only [count_settle] at kept
      simp only [kept, count_content_cons]
      omega

theorem count_pushRuns (before : α → α → Bool) (x : α) (size fuel : Nat)
    (state : List (Run α) × Nat) (xs : List α) (enough : xs.length ≤ fuel) :
    (content (pushRuns before size fuel state xs).1).count x =
      (content state.1).count x + xs.count x := by
  induction fuel generalizing state xs with
  | zero =>
      have none : xs = [] := List.length_eq_zero_iff.mp (by omega)
      subst xs
      simp [pushRuns]
  | succ fuel ih =>
      cases xs with
      | nil => simp [pushRuns]
      | cons y rest =>
          have shorter := length_firstRun_rest before (leastRun size) y rest
          have kept := count_firstRun before x (leastRun size) (y :: rest)
          rw [List.length_cons] at enough
          rw [pushRuns, ih _ _ (by omega), count_push]
          omega

theorem count_mergeAll (before : α → α → Bool) (x : α) (fuel : Nat) (runs : List (Run α))
    (patience : Nat) : (mergeAll before fuel runs patience).count x = (content runs).count x := by
  fun_induction mergeAll before fuel runs patience with
  | case1 fuel top second third rest patience shorter items next merged ih =>
      have kept := count_mergeRuns before x patience third.items second.items
      rw [merged] at kept
      simp only [ih, count_content_cons, kept]
      omega
  | case2 fuel top second third rest patience longer items next merged ih =>
      have kept := count_mergeRuns before x patience second.items top.items
      rw [merged] at kept
      simp only [ih, count_content_cons, kept]
      omega
  | case3 fuel top second patience =>
      rw [count_mergeRuns, count_content_cons, count_content_cons]
      simp [content, Nat.add_comm]
  | case4 fuel runs patience =>
      exact (List.Perm.flatMap_right _ (List.reverse_perm runs)).count_eq x

theorem count_rankRuns (before : α → α → Bool) (x : α) (xs : List α) :
    (rankRuns before xs).count x = xs.count x := by
  rw [rankRuns, count_mergeAll, count_pushRuns before x _ _ _ _ (Nat.le_refl _)]
  simp [content]

end Counts

/-- Ranking loses nothing and adds nothing, whatever the order does. -/
theorem rank_perm (before : α → α → Bool) (isOrdered : α → Bool) (xs : List α) :
    (rank before isOrdered xs).Perm xs := by
  classical
  unfold rank
  split
  · exact List.mergeSort_perm xs _
  · apply List.perm_iff_count.mpr
    intro x
    exact count_rankRuns before x xs

end BinaryQuadratic.Ranking
