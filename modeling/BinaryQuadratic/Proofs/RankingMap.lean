import BinaryQuadratic.Ranking

/-!
Ranking looks at elements through its order only: elements that are replaced by others which the
order treats alike are ranked alike.
-/

namespace BinaryQuadratic.Ranking

variable {α β : Type}

def Run.replace (g : α → β) (run : Run α) : Run β := ⟨run.items.map g, run.start, run.depth⟩

theorem items_reverse_replace (g : α → β) (runs : List (Run α)) :
    (runs.map (Run.replace g)).reverse.flatMap Run.items =
      (runs.reverse.flatMap Run.items).map g := by
  rw [← List.map_reverse, List.flatMap_map, List.map_flatMap]
  rfl

section Replaced

variable {f : α → β} {first : α → α → Bool} {second : β → β → Bool}
  (alike : ∀ a b, second (f a) (f b) = first a b)

include alike

theorem fallingLength_map (x : α) (xs : List α) :
    fallingLength second (f x) (xs.map f) = fallingLength first x xs := by
  induction xs generalizing x with
  | nil => rfl
  | cons y rest ih => simp [fallingLength, alike, ih]

theorem risingLength_map (x : α) (xs : List α) :
    risingLength second (f x) (xs.map f) = risingLength first x xs := by
  induction xs generalizing x with
  | nil => rfl
  | cons y rest ih => simp [risingLength, alike, ih]

theorem orderedStart_map (xs : List α) :
    orderedStart second (xs.map f) =
      ((orderedStart first xs).1.map f, (orderedStart first xs).2.map f) := by
  cases xs with
  | nil => rfl
  | cons x rest =>
      cases rest with
      | nil => rfl
      | cons y rest =>
          have falling := fallingLength_map alike x (y :: rest)
          have rising := risingLength_map alike x (y :: rest)
          simp only [List.map_cons] at falling rising
          simp only [orderedStart, List.map_cons, falling, rising, alike]
          split <;> simp [List.map_take, List.map_drop]

theorem bisect_map (xs : List α) (x : α) (fuel low high : Nat) :
    bisect second (xs.map f) (f x) fuel low high = bisect first xs x fuel low high := by
  induction fuel generalizing low high with
  | zero => rfl
  | succ fuel ih => simp [bisect, ih, Function.comp_def, alike]

theorem insert_map (xs : List α) (x : α) :
    insert second (xs.map f) (f x) = (insert first xs x).map f := by
  simp [insert, bisect_map alike, List.map_take, List.map_drop]

theorem foldl_insert_map (ys xs : List α) :
    (ys.map f).foldl (insert second) (xs.map f) = (ys.foldl (insert first) xs).map f := by
  induction ys generalizing xs with
  | nil => rfl
  | cons y rest ih => simp only [List.map_cons, List.foldl_cons, insert_map alike, ih]

theorem firstRun_map (least : Nat) (xs : List α) :
    firstRun second least (xs.map f) =
      ((firstRun first least xs).1.map f, (firstRun first least xs).2.map f) := by
  simp [firstRun, orderedStart_map alike, ← List.map_take, ← List.map_drop, foldl_insert_map alike]

theorem countNotAfter_map (xs : List α) (x : α) (start : Nat) :
    countNotAfter second (xs.map f) (f x) start = countNotAfter first xs x start := by
  simp [countNotAfter, alike, Option.any_map]

theorem countBefore_map (xs : List α) (x : α) (start : Nat) :
    countBefore second (xs.map f) (f x) start = countBefore first xs x start := by
  simp [countBefore, alike, Option.any_map]

theorem mergeForward_map (fuel patience : Nat) (pace : Pace) (left right done : List α) :
    mergeForward second fuel patience pace (left.map f) (right.map f) (done.map f) =
      Prod.map (List.map f) id (mergeForward first fuel patience pace left right done) := by
  induction fuel generalizing patience pace left right done with
  | zero => simp [mergeForward]
  | succ fuel ih =>
      cases right with
      | nil => cases pace <;> simp [mergeForward]
      | cons b right =>
          cases pace with
          | single leftWins rightWins =>
              cases left with
              | nil => simp [mergeForward]
              | cons a left =>
                  simp only [mergeForward, List.map_cons, alike, List.isEmpty_map, List.length_map]
                  simp only [← List.map_cons, ih, apply_ite (Prod.map (List.map f) id)]
                  simp
          | stretches =>
              simp only [mergeForward, List.map_cons, countNotAfter_map alike, ← List.map_drop,
                ← List.map_take, ← List.map_reverse, ← List.map_append, List.length_map]
              cases rest : left.drop (countNotAfter first left b 0) with
              | nil => simp
              | cons a others =>
                  simp only [List.map_cons, countBefore_map alike, List.length_map,
                    List.isEmpty_map, List.length_cons]
                  simp only [← List.map_cons, ← List.map_append, ih,
                    apply_ite (Prod.map (List.map f) id)]
                  simp

theorem mergeBackward_map (fuel patience : Nat) (pace : Pace) (left right done : List α) :
    mergeBackward second fuel patience pace (left.map f) (right.map f) (done.map f) =
      Prod.map (List.map f) id (mergeBackward first fuel patience pace left right done) := by
  induction fuel generalizing patience pace left right done with
  | zero => simp [mergeBackward]
  | succ fuel ih =>
      cases right with
      | nil => cases pace <;> simp [mergeBackward]
      | cons b right =>
          cases pace with
          | single leftWins rightWins =>
              cases left with
              | nil => simp [mergeBackward]
              | cons a left =>
                  simp only [mergeBackward, List.map_cons, alike, List.isEmpty_map, List.length_map]
                  simp only [← List.map_cons, ih, apply_ite (Prod.map (List.map f) id)]
                  simp
          | stretches =>
              simp only [mergeBackward, ← List.map_reverse, countNotAfter_map alike, List.map_cons,
                List.length_map]
              simp only [← List.map_drop, ← List.map_take, ← List.map_reverse, ← List.map_append,
                ← List.map_cons]
              cases rest : left.drop (left.length -
                  countNotAfter first left.reverse b (left.length - 1)) with
              | nil => simp
              | cons a others =>
                  simp only [List.map_cons, countBefore_map alike, List.length_map,
                    List.isEmpty_map]
                  simp only [← List.map_cons, ← List.map_append, ih,
                    apply_ite (Prod.map (List.map f) id)]
                  simp

theorem mergeRest_map (patience : Nat) (left right : List α) :
    mergeRest second patience (left.map f) (right.map f) =
      Prod.map (List.map f) id (mergeRest first patience left right) := by
  simp only [mergeRest, List.length_map, ← List.map_reverse]
  split
  · cases right with
    | nil => rfl
    | cons b others =>
        have forward := mergeForward_map alike (left.length + (b :: others).length) patience
          (.single 0 0) left others [b]
        simp only [List.map_cons, List.map_nil, List.isEmpty_map] at forward ⊢
        simp only [forward, apply_ite (Prod.map (List.map f) id)]
        simp
  · cases reversed : left.reverse with
    | nil => simp
    | cons a others =>
        have backward := mergeBackward_map alike (left.length + right.length) patience
          (.single 0 0) others right.reverse [a]
        simp only [List.map_cons, List.map_nil, List.isEmpty_map] at backward ⊢
        simp only [backward, apply_ite (Prod.map (List.map f) id)]
        simp

theorem mergeRuns_map (patience : Nat) (left right : List α) :
    mergeRuns second patience (left.map f) (right.map f) =
      Prod.map (List.map f) id (mergeRuns first patience left right) := by
  cases right with
  | nil => rfl
  | cons b others =>
      simp only [mergeRuns, List.map_cons, countNotAfter_map alike, ← List.map_drop,
        List.getLast?_map]
      cases last : (left.drop (countNotAfter first left b 0)).getLast? with
      | none => simp
      | some a =>
          simp only [Option.map_some, ← List.map_cons, countBefore_map alike, List.length_map,
            ← List.map_take, ← List.map_drop, mergeRest_map alike]
          split <;> simp

theorem settle_map (depth fuel : Nat) (runs : List (Run α)) (patience : Nat) :
    settle second depth fuel (runs.map (Run.replace f), patience) =
      Prod.map (List.map (Run.replace f)) id (settle first depth fuel (runs, patience)) := by
  induction fuel generalizing runs patience with
  | zero => rfl
  | succ fuel ih =>
      rcases runs with _ | ⟨top, _ | ⟨below, rest⟩⟩
      · rfl
      · rfl
      · simp only [settle, List.map_cons, Run.replace, mergeRuns_map alike]
        split
        · exact ih (⟨_, _, _⟩ :: rest) _
        · rfl

theorem push_map (size : Nat) (runs : List (Run α)) (patience : Nat) (items : List α) :
    push second size (runs.map (Run.replace f), patience) (items.map f) =
      Prod.map (List.map (Run.replace f)) id (push first size (runs, patience) items) := by
  cases runs with
  | nil => rfl
  | cons top rest =>
      have settled := settle_map alike
        (boundaryDepth size depthBound (2 * top.start + top.items.length)
          (2 * top.start + top.items.length + top.items.length + items.length))
        (top :: rest).length (top :: rest) patience
      simp only [List.map_cons, List.length_cons] at settled
      simp only [push, List.map_cons, Run.replace, List.length_map, List.length_cons] at settled ⊢
      rw [settled]
      rcases settle first _ _ (top :: rest, patience) with ⟨_ | ⟨below, others⟩, next⟩
      · rfl
      · rfl

theorem pushRuns_map (size fuel : Nat) (runs : List (Run α)) (patience : Nat) (xs : List α) :
    pushRuns second size fuel (runs.map (Run.replace f), patience) (xs.map f) =
      Prod.map (List.map (Run.replace f)) id (pushRuns first size fuel (runs, patience) xs) := by
  induction fuel generalizing runs patience xs with
  | zero => rfl
  | succ fuel ih =>
      cases xs with
      | nil => rfl
      | cons x xs =>
          have cut := firstRun_map alike (leastRun size) (x :: xs)
          rw [List.map_cons] at cut
          simp only [pushRuns, List.map_cons, cut, push_map alike]
          exact ih _ _ _

theorem mergeAll_map (fuel : Nat) (runs : List (Run α)) (patience : Nat) :
    mergeAll second fuel (runs.map (Run.replace f)) patience =
      (mergeAll first fuel runs patience).map f := by
  induction fuel generalizing runs patience with
  | zero =>
      rcases runs with _ | ⟨top, _ | ⟨below, _ | ⟨third, rest⟩⟩⟩
      · rfl
      · exact items_reverse_replace f [top]
      · simp [mergeAll, Run.replace, mergeRuns_map alike]
      · exact items_reverse_replace f (top :: below :: third :: rest)
  | succ fuel ih =>
      rcases runs with _ | ⟨top, _ | ⟨below, _ | ⟨third, rest⟩⟩⟩
      · rfl
      · exact items_reverse_replace f [top]
      · simp [mergeAll, Run.replace, mergeRuns_map alike]
      · simp only [mergeAll, List.map_cons, Run.replace, mergeRuns_map alike, List.length_map]
        split
        · exact ih (top :: ⟨_, _, _⟩ :: rest) _
        · exact ih (⟨_, _, _⟩ :: third :: rest) _

theorem rankRuns_map (xs : List α) : rankRuns second (xs.map f) = (rankRuns first xs).map f := by
  have cut := pushRuns_map alike xs.length xs.length [] firstPatience xs
  simp only [List.map_nil] at cut
  simp only [rankRuns, List.length_map, cut, Prod.map, id_eq, mergeAll_map alike]

theorem rank_map {isOrdered : α → Bool} {isOrdered' : β → Bool}
    (ordered : ∀ a, isOrdered' (f a) = isOrdered a) (xs : List α) :
    rank second isOrdered' (xs.map f) = (rank first isOrdered xs).map f := by
  simp only [rank, List.all_map, Function.comp_def, ordered, rankRuns_map alike]
  split
  · exact (List.map_mergeSort fun a _ b _ => by rw [alike]).symm
  · rfl

end Replaced

end BinaryQuadratic.Ranking
