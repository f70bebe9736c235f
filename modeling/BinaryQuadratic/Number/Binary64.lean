/-!
Binary64 numbers as exact values: taking one apart, the nearest one to a ratio of natural
numbers, the two ways to an integer, and the comparison with integers, which is exact.
-/

namespace BinaryQuadratic.Binary64

/-- A number taken apart. `finite negative mantissa exponent` has the magnitude
`mantissa * 2 ^ exponent`. -/
inductive Parts where
  | notANumber
  | infinite (negative : Bool)
  | finite (negative : Bool) (mantissa : Nat) (exponent : Int)
  deriving DecidableEq, Repr

def leadingBit : Nat := 0x10000000000000

def infinityBits : Nat := 0x7FF0000000000000

def signBit : Nat := 0x8000000000000000

def parts (x : Float) : Parts :=
  let bits := x.toBits.toNat
  let negative := decide (signBit ≤ bits)
  let field : Nat := bits / leadingBit % 2048
  let fraction := bits % leadingBit
  if field = 2047 then
    if fraction = 0 then .infinite negative else .notANumber
  else if field = 0 then .finite negative fraction (-1074)
  else .finite negative (leadingBit + fraction) ((field : Int) - 1075)

def roundHalfEven (num den : Nat) : Nat :=
  let floor := num / den
  let twice := 2 * (num % den)
  if twice < den then floor
  else if den < twice then floor + 1
  else floor + floor % 2

def scaleUp (n : Nat) (e : Int) : Nat := n * Nat.pow 2 e.toNat

/-- The exponent at which a positive ratio has 53 binary digits before the point, or the least
exponent there is. -/
def exponentOf (num den : Nat) : Int :=
  let low : Int := num.log2 - den.log2 - 53
  let fits := scaleUp num (-low) < scaleUp den low * (2 * leadingBit)
  max (if fits then low else low + 1) (-1074)

/-- The bits of the magnitude nearest to `num / den`, ties to even, infinity beyond the largest.
A mantissa that rounds up to `2 ^ 53` carries into the exponent. -/
def magnitudeBits (num den : Nat) : Nat :=
  if num = 0 then 0
  else
    let exponent := exponentOf num den
    let mantissa := roundHalfEven (scaleUp num (-exponent)) (scaleUp den exponent)
    min infinityBits ((exponent + 1074).toNat * leadingBit + mantissa)

def ofBits (negative : Bool) (magnitude : Nat) : Float :=
  Float.ofBits (UInt64.ofNat (if negative then signBit + magnitude else magnitude))

def nearest (negative : Bool) (num den : Nat) : Float :=
  ofBits negative (magnitudeBits num den)

/-- Powers of ten beyond which every mantissa of the given length is infinite or zero. -/
def tenLimit : Int := 400

def ofDecimal (negative : Bool) (mantissa length : Nat) (exponent : Int) : Float :=
  if mantissa = 0 then ofBits negative 0
  else if tenLimit < exponent + length then ofBits negative infinityBits
  else if exponent + length < -tenLimit then ofBits negative 0
  else if 0 ≤ exponent then nearest negative (mantissa * Nat.pow 10 exponent.toNat) 1
  else nearest negative mantissa (Nat.pow 10 (-exponent).toNat)

def ofInt? (n : Int) : Option Float :=
  let bits := magnitudeBits n.natAbs 1
  if bits = infinityBits then none else some (ofBits (decide (n < 0)) bits)

def notANumber : Float := Float.ofBits 0x7FF8000000000000

def applySign (negative : Bool) (n : Nat) : Int :=
  if negative then -(n : Int) else n

def wholePart (mantissa : Nat) (exponent : Int) : Nat :=
  scaleUp mantissa exponent / scaleUp 1 (-exponent)

def isWhole (mantissa : Nat) (exponent : Int) : Bool :=
  scaleUp mantissa exponent % scaleUp 1 (-exponent) = 0

def compareInt? (n : Int) (x : Float) : Option Ordering :=
  match parts x with
  | .notANumber => none
  | .infinite negative => some (if negative then .gt else .lt)
  | .finite negative mantissa exponent =>
    some (compare (n * scaleUp 1 (-exponent)) (applySign negative (scaleUp mantissa exponent)))

end BinaryQuadratic.Binary64
