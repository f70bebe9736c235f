import BinaryQuadratic.Fault
import BinaryQuadratic.Number.Layout
import BinaryQuadratic.Number.Literal

/-!
Numbers of two kinds, integers of any size and binary64 numbers, with one exact order between
them.
-/

namespace BinaryQuadratic

inductive Number where
  | int (n : Int)
  | float (x : Float)

namespace Number

def compare? : Number → Number → Option Ordering
  | int a, int b => some (compare a b)
  | int a, float y => Binary64.compareInt? a y
  | float x, int b => (Binary64.compareInt? b x).map Ordering.swap
  | float x, float y =>
    if x < y then some .lt else if y < x then some .gt else if x == y then some .eq else none

def equals (a b : Number) : Bool := a.compare? b == some .eq

def less (a b : Number) : Bool := a.compare? b == some .lt

def lessOrEqual (a b : Number) : Bool := a.less b || a.equals b

def isZero (a : Number) : Bool := a.equals (int 0)

def isWord (n : Int) : Bool := -0x8000000000000000 ≤ n && n < 0x8000000000000000

def inRange (a : Number) (size : Int) : Bool :=
  (int 0).lessOrEqual a && a.less (int size)

def truncate : Number → Except Fault Int
  | int n => .ok n
  | float x =>
    match Binary64.parts x with
    | .notANumber => .error .integerOfNotANumber
    | .infinite _ => .error .integerOfInfinity
    | .finite negative mantissa exponent =>
      .ok (Binary64.applySign negative (Binary64.wholePart mantissa exponent))

def round : Number → Except Fault Int
  | int n => .ok n
  | float x =>
    match Binary64.parts x with
    | .notANumber => .error .integerOfNotANumber
    | .infinite _ => .error .integerOfInfinity
    | .finite negative mantissa exponent =>
      .ok (Binary64.applySign negative
        (Binary64.roundHalfEven (Binary64.scaleUp mantissa exponent)
          (Binary64.scaleUp 1 (-exponent))))

/-- The nearest binary64 number; an integer beyond the largest one has none. -/
def toFloat : Number → Except Fault Float
  | int n => (Binary64.ofInt? n).elim (.error .floatOfLargeInteger) .ok
  | float x => .ok x

end Number

def integerText (n : Int) : Except Fault String :=
  if n.natAbs < Nat.pow 10 Literal.digitLimit then .ok (toString n) else .error .writtenDigits

/-- The text of an energy: whole numbers are written without a fraction. -/
def formatEnergy (x : Float) : String :=
  match Binary64.parts x with
  | .finite negative mantissa exponent =>
    if Binary64.isWhole mantissa exponent then
      toString (Binary64.applySign negative (Binary64.wholePart mantissa exponent))
    else Binary64.Layout.plain.render x
  | _ => Binary64.Layout.plain.render x

end BinaryQuadratic
