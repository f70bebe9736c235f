import BinaryQuadratic.Number.Binary64

/-!
The shortest decimal of a binary64 number: the fewest digits that read back to the same number,
and of those the nearest to it.
-/

namespace BinaryQuadratic.Binary64

structure Decimal where
  digits : Nat
  exponent : Int
  deriving DecidableEq, Repr

def decimalLength (n : Nat) : Nat :=
  if n < 10 then 1 else decimalLength (n / 10) + 1
termination_by n

/-- The position of the leading digit of a positive ratio, counted from the point: 0 for the
units, negative behind the point. -/
def leadingPosition (num den : Nat) : Int :=
  if den ≤ num then decimalLength (num / den) - 1
  else
    let length := decimalLength (den / num)
    if den ≤ num * Nat.pow 10 (length - 1) then 1 - (length : Int) else -(length : Int)

def atPosition (num den : Nat) (position : Int) : Nat × Nat :=
  (num * Nat.pow 10 (-position).toNat, den * Nat.pow 10 position.toNat)

def Decimal.magnitudeBits (d : Decimal) : Nat :=
  Binary64.magnitudeBits (d.digits * Nat.pow 10 d.exponent.toNat) (Nat.pow 10 (-d.exponent).toNat)

/-- The decimals next to a ratio on the grid of `10 ^ position`, the nearer one first; of two
equally near ones the even one is first. -/
def neighbours (num den : Nat) (position : Int) : List Decimal :=
  let (n, d) := atPosition num den position
  let lower : Decimal := ⟨n / d, position⟩
  let upper : Decimal := ⟨n / d + 1, position⟩
  let twice := 2 * (n % d)
  if twice < d || (twice = d && (n / d) % 2 = 0) then [lower, upper] else [upper, lower]

/-- Grids of falling width are tried until a neighbour reads back. Seventeen digits always do. -/
def searchGrids (num den bits : Nat) : Nat → Int → Decimal
  | 0, position => (neighbours num den position).headD ⟨0, 0⟩
  | fuel + 1, position =>
    match (neighbours num den position).find? (fun d => d.magnitudeBits = bits) with
    | some d => d
    | none => searchGrids num den bits fuel (position - 1)

def Decimal.trim (d : Decimal) : Nat → Decimal
  | 0 => d
  | fuel + 1 =>
    if d.digits % 10 = 0 && d.digits ≠ 0 then
      (Decimal.mk (d.digits / 10) (d.exponent + 1)).trim fuel
    else d

def shortest (mantissa : Nat) (exponent : Int) : Decimal :=
  let num := scaleUp mantissa exponent
  let den := scaleUp 1 (-exponent)
  (searchGrids num den (magnitudeBits num den) 16 (leadingPosition num den)).trim 20

end BinaryQuadratic.Binary64
