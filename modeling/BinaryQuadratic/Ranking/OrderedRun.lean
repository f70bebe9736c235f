/-!
Ordered runs. The longest ordered start of a list is kept, turned around if it falls, and further
elements are inserted into it by bisection behind those that they do not precede.
-/

namespace BinaryQuadratic.Ranking

variable {α : Type}

def fallingLength (before : α → α → Bool) (x : α) : List α → Nat
  | [] => 1
  | y :: rest => if before y x then fallingLength before y rest + 1 else 1

def risingLength (before : α → α → Bool) (x : α) : List α → Nat
  | [] => 1
  | y :: rest => if before y x then 1 else risingLength before y rest + 1

def orderedStart (before : α → α → Bool) : List α → List α × List α
  | [] => ([], [])
  | [x] => ([x], [])
  | x :: y :: rest =>
    let all := x :: y :: rest
    if before y x then
      let length := fallingLength before x (y :: rest)
      ((all.take length).reverse, all.drop length)
    else
      let length := risingLength before x (y :: rest)
      (all.take length, all.drop length)

def bisect (before : α → α → Bool) (xs : List α) (x : α) : Nat → Nat → Nat → Nat
  | 0, low, _ => low
  | fuel + 1, low, high =>
    if low < high then
      let middle := (low + high) / 2
      if (xs[middle]?.map (before x)).getD false then bisect before xs x fuel low middle
      else bisect before xs x fuel (middle + 1) high
    else low

def insert (before : α → α → Bool) (xs : List α) (x : α) : List α :=
  let place := bisect before xs x xs.length 0 xs.length
  xs.take place ++ x :: xs.drop place

/-- The first run of a list, which is made to have at least the given length, and the elements
behind it. -/
def firstRun (before : α → α → Bool) (least : Nat) (xs : List α) : List α × List α :=
  let (start, rest) := orderedStart before xs
  let missing := least - start.length
  ((rest.take missing).foldl (insert before) start, rest.drop missing)

/-- The length that shorter runs of a list of some size are brought to: the size itself while it
has at most six binary digits, and else the number that its first six digits make, rounded up. -/
def leastRun (size : Nat) : Nat :=
  let unit := Nat.pow 2 (size.log2 - 5)
  (size + unit - 1) / unit

end BinaryQuadratic.Ranking
