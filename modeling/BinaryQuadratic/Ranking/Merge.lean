/-!
Merging two neighbouring ordered runs. Elements are taken one by one until one run has won often
enough in a row; then the place of the next element of one run is searched for in the other in
growing steps, and the elements before it are taken together. How often is enough adapts itself
and is carried from one merge to the next.

The order may leave elements unordered; which comparisons are made then shows in the result.
-/

namespace BinaryQuadratic.Ranking

variable {α : Type}

/-- Offsets of growing size while they stay below `most` and the elements there go on. The result
is the last offset at which they did and one at which they did not. -/
def probe (goesOn : Nat → Bool) (most : Nat) : Nat → Nat → Nat → Nat × Nat
  | 0, last, offset => (last, min offset most)
  | fuel + 1, last, offset =>
    if offset < most && goesOn offset then probe goesOn most fuel offset (2 * offset + 1)
    else (last, min offset most)

def boundary (comesFirst : Nat → Bool) : Nat → Nat → Nat → Nat
  | 0, low, _ => low
  | fuel + 1, low, high =>
    if low < high then
      let middle := (low + high) / 2
      if comesFirst middle then boundary comesFirst fuel (middle + 1) high
      else boundary comesFirst fuel low middle
    else low

def gallop (comesFirst : Nat → Bool) (size start : Nat) : Nat :=
  if comesFirst start then
    let (last, offset) := probe (fun k => comesFirst (start + k)) (size - start) size 0 1
    boundary comesFirst size (start + last + 1) (start + offset)
  else
    let (last, offset) := probe (fun k => !comesFirst (start - k)) (start + 1) size 0 1
    boundary comesFirst size (start + 1 - offset) (start - last)

def countNotAfter (before : α → α → Bool) (xs : List α) (x : α) (start : Nat) : Nat :=
  let run := xs.toArray
  gallop (fun i => !(run[i]?.any (before x))) run.size start

def countBefore (before : α → α → Bool) (xs : List α) (x : α) (start : Nat) : Nat :=
  let run := xs.toArray
  gallop (fun i => run[i]?.any fun y => before y x) run.size start

def longStretch : Nat := 7

inductive Pace where
  | single (leftWins rightWins : Nat)
  | stretches

def sooner (patience : Nat) : Nat := if 1 < patience then patience - 1 else patience

/-- Merges from the front. The last element of the left run is known to be the last of all. The
second component is the patience that the next merge starts with. -/
def mergeForward (before : α → α → Bool) :
    Nat → Nat → Pace → List α → List α → List α → List α × Nat
  | fuel + 1, patience, .single leftWins rightWins, a :: left, b :: right, done =>
    if before b a then
      if right.isEmpty then ((b :: done).reverse ++ a :: left, patience)
      else if patience ≤ rightWins + 1 then
        mergeForward before fuel (patience + 1) .stretches (a :: left) right (b :: done)
      else
        mergeForward before fuel patience (.single 0 (rightWins + 1)) (a :: left) right (b :: done)
    else
      if left.length = 1 then ((a :: done).reverse ++ b :: right ++ left, patience)
      else if patience ≤ leftWins + 1 then
        mergeForward before fuel (patience + 1) .stretches left (b :: right) (a :: done)
      else
        mergeForward before fuel patience (.single (leftWins + 1) 0) left (b :: right) (a :: done)
  | fuel + 1, patience, .stretches, left, b :: right, done =>
    let shorter := sooner patience
    let leftCount := countNotAfter before left b 0
    let leftRest := left.drop leftCount
    let taken := (left.take leftCount).reverse ++ done
    if leftCount ≠ 0 && leftRest.length = 1 then
      (taken.reverse ++ b :: right ++ leftRest, shorter)
    else
      match leftRest with
      | [] => (taken.reverse ++ b :: right, shorter)
      | a :: others =>
        if right.isEmpty then ((b :: taken).reverse ++ leftRest, shorter)
        else
          let rightCount := countBefore before right a 0
          let rightRest := right.drop rightCount
          let more := (right.take rightCount).reverse ++ b :: taken
          if rightRest.isEmpty then (more.reverse ++ leftRest, shorter)
          else if others.length = 1 then ((a :: more).reverse ++ rightRest ++ others, shorter)
          else if longStretch ≤ leftCount || longStretch ≤ rightCount then
            mergeForward before fuel shorter .stretches others rightRest (a :: more)
          else
            mergeForward before fuel (shorter + 1) (.single 0 0) others rightRest (a :: more)
  | _, patience, _, left, right, done => (done.reverse ++ left ++ right, patience)

/-- Merges from the back; the runs are given from their last elements on. The first element of the
right run is known to be the first of all. -/
def mergeBackward (before : α → α → Bool) :
    Nat → Nat → Pace → List α → List α → List α → List α × Nat
  | fuel + 1, patience, .single leftWins rightWins, a :: left, b :: right, done =>
    if before b a then
      if left.isEmpty then ((b :: right).reverse ++ a :: done, patience)
      else if patience ≤ leftWins + 1 then
        mergeBackward before fuel (patience + 1) .stretches left (b :: right) (a :: done)
      else
        mergeBackward before fuel patience (.single (leftWins + 1) 0) left (b :: right) (a :: done)
    else
      if right.length = 1 then (right ++ (a :: left).reverse ++ b :: done, patience)
      else if patience ≤ rightWins + 1 then
        mergeBackward before fuel (patience + 1) .stretches (a :: left) right (b :: done)
      else
        mergeBackward before fuel patience (.single 0 (rightWins + 1)) (a :: left) right (b :: done)
  | fuel + 1, patience, .stretches, left, b :: right, done =>
    let shorter := sooner patience
    let leftCount := left.length - countNotAfter before left.reverse b (left.length - 1)
    let leftRest := left.drop leftCount
    let taken := (left.take leftCount).reverse ++ done
    match leftRest with
    | [] => ((b :: right).reverse ++ taken, shorter)
    | a :: others =>
      if right.length = 1 then (right ++ leftRest.reverse ++ b :: taken, shorter)
      else
        let rightCount := right.length - countBefore before right.reverse a (right.length - 1)
        let rightRest := right.drop rightCount
        let more := (right.take rightCount).reverse ++ b :: taken
        if rightCount ≠ 0 && rightRest.length = 1 then
          (rightRest ++ leftRest.reverse ++ more, shorter)
        else if rightRest.isEmpty then (leftRest.reverse ++ more, shorter)
        else if others.isEmpty then (rightRest.reverse ++ a :: more, shorter)
        else if longStretch ≤ leftCount || longStretch ≤ rightCount then
          mergeBackward before fuel shorter .stretches others rightRest (a :: more)
        else
          mergeBackward before fuel (shorter + 1) (.single 0 0) others rightRest (a :: more)
  | _, patience, _, left, right, done => (left.reverse ++ right.reverse ++ done, patience)

/-- Merges what remains of two runs, from the side on which fewer elements have to be moved. The
first element is known to be on the right and the last one on the left. -/
def mergeRest (before : α → α → Bool) (patience : Nat) (left right : List α) : List α × Nat :=
  let fuel := left.length + right.length
  if left.length ≤ right.length then
    match right with
    | [] => (left, patience)
    | b :: others =>
      if others.isEmpty then (b :: left, patience)
      else if left.length = 1 then (right ++ left, patience)
      else mergeForward before fuel patience (.single 0 0) left others [b]
  else
    match left.reverse with
    | [] => (right, patience)
    | a :: others =>
      if others.isEmpty then (right ++ [a], patience)
      else if right.length = 1 then (right ++ left, patience)
      else mergeBackward before fuel patience (.single 0 0) others right.reverse [a]

/-- Merges two neighbouring runs. The start of the left one that precedes the right one and the
end of the right one that the left one precedes stay where they are. -/
def mergeRuns (before : α → α → Bool) (patience : Nat) (left right : List α) : List α × Nat :=
  match right with
  | [] => (left, patience)
  | b :: _ =>
    let kept := countNotAfter before left b 0
    match (left.drop kept).getLast? with
    | none => (left ++ right, patience)
    | some a =>
      let moved := countBefore before right a (right.length - 1)
      if moved = 0 then (left ++ right, patience)
      else
        let (merged, next) := mergeRest before patience (left.drop kept) (right.take moved)
        (left.take kept ++ merged ++ right.drop moved, next)

end BinaryQuadratic.Ranking
