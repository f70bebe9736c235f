import BinaryQuadratic.Ranking.Merge
import BinaryQuadratic.Ranking.OrderedRun

/-!
Ranking by an order that may leave elements unordered. Where all elements are ordered the result
is the stable ascending order. Where some are not, the list is cut into ordered runs, and
neighbouring runs are merged in an order that keeps the merges balanced.
-/

namespace BinaryQuadratic.Ranking

variable {α : Type}

/-- A run of a list by its start, and the depth of the boundary behind it in a balanced tree over
the list. -/
structure Run (α : Type) where
  items : List α
  start : Nat
  depth : Nat

/-- The depth of the boundary between two neighbouring runs: the first binary digit in which the
places of their middles, as fractions of the list, differ. The places are given in half elements. -/
def boundaryDepth (size : Nat) : Nat → Nat → Nat → Nat
  | 0, _, _ => 1
  | fuel + 1, left, right =>
    if size ≤ left then boundaryDepth size fuel (2 * (left - size)) (2 * (right - size)) + 1
    else if size ≤ right then 1
    else boundaryDepth size fuel (2 * left) (2 * right) + 1

def depthBound : Nat := 64

def settle (before : α → α → Bool) (depth : Nat) :
    Nat → List (Run α) × Nat → List (Run α) × Nat
  | fuel + 1, (top :: second :: rest, patience) =>
    if depth < second.depth then
      let (items, next) := mergeRuns before patience second.items top.items
      settle before depth fuel ({ second with items := items } :: rest, next)
    else (top :: second :: rest, patience)
  | _, state => state

def push (before : α → α → Bool) (size : Nat) (state : List (Run α) × Nat) (items : List α) :
    List (Run α) × Nat :=
  match state.1 with
  | [] => ([⟨items, 0, 0⟩], state.2)
  | top :: _ =>
    let middle := 2 * top.start + top.items.length
    let depth := boundaryDepth size depthBound middle (middle + top.items.length + items.length)
    let start := top.start + top.items.length
    match settle before depth state.1.length state with
    | ([], patience) => ([⟨items, start, 0⟩], patience)
    | (top :: rest, patience) =>
      (⟨items, start, 0⟩ :: { top with depth := depth } :: rest, patience)

def mergeAll (before : α → α → Bool) : Nat → List (Run α) → Nat → List α
  | fuel + 1, top :: second :: third :: rest, patience =>
    if third.items.length < top.items.length then
      let (items, next) := mergeRuns before patience third.items second.items
      mergeAll before fuel (top :: { third with items := items } :: rest) next
    else
      let (items, next) := mergeRuns before patience second.items top.items
      mergeAll before fuel ({ second with items := items } :: third :: rest) next
  | _, [top, second], patience => (mergeRuns before patience second.items top.items).1
  | _, runs, _ => runs.reverse.flatMap Run.items

def pushRuns (before : α → α → Bool) (size : Nat) :
    Nat → List (Run α) × Nat → List α → List (Run α) × Nat
  | fuel + 1, state, x :: xs =>
    let (items, rest) := firstRun before (leastRun size) (x :: xs)
    pushRuns before size fuel (push before size state items) rest
  | _, state, _ => state

def firstPatience : Nat := 7

def rankRuns (before : α → α → Bool) (xs : List α) : List α :=
  let (runs, patience) := pushRuns before xs.length xs.length ([], firstPatience) xs
  mergeAll before runs.length runs patience

/-- Ranks a list by an order in which some elements may not even equal themselves. -/
def rank (before : α → α → Bool) (isOrdered : α → Bool) (xs : List α) : List α :=
  if xs.all isOrdered then xs.mergeSort fun a b => !before b a else rankRuns before xs

end BinaryQuadratic.Ranking
