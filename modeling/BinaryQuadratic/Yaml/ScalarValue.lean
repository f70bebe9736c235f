import BinaryQuadratic.Text.Base64
import BinaryQuadratic.Text.LowerCase
import BinaryQuadratic.Yaml.Tag

/-!
The values of scalars of a given kind. A text of a kind that was given by name need not look like
one, and then has the fault of its kind.
-/

namespace BinaryQuadratic.Yaml.ScalarValue

def unbuildable : Fault := .document .value

def colon : CodePoint := .char ':'

def dropBars (t : Text) : List CodePoint := t.points.filter (· ≠ .char '_')

def splitSign (points : List CodePoint) : Except Fault (Bool × List CodePoint) :=
  match points with
  | [] => .error .textTooShort
  | .char '-' :: rest => .ok (true, rest)
  | .char '+' :: rest => .ok (false, rest)
  | _ => .ok (false, points)

def splitColons : List CodePoint → List CodePoint → List (List CodePoint)
  | current, [] => [current.reverse]
  | current, p :: rest =>
    if p = colon then current.reverse :: splitColons [] rest else splitColons (p :: current) rest

def digits (base : Nat) (points : List CodePoint) : Except Fault Int :=
  Scalar.readInt base (Text.quote ⟨points⟩) (Text.chars ⟨points⟩)

def sixtieths (parts : List Int) : Int := parts.foldl (fun n part => 60 * n + part) 0

def unsignedInt (points : List CodePoint) : Except Fault Int :=
  match points with
  | [] => .error .textTooShort
  | [.char '0'] => .ok 0
  | .char '0' :: .char 'b' :: rest => digits 2 rest
  | .char '0' :: .char 'x' :: rest => digits 16 rest
  | .char '0' :: _ => digits 8 points
  | _ =>
    if points.contains colon then sixtieths <$> (splitColons [] points).mapM (digits 10)
    else digits 10 points

def toInt (t : Text) : Except Fault Int := do
  let (negative, unsigned) ← splitSign (dropBars t)
  let n ← unsignedInt unsigned
  pure (if negative then -n else n)

def decimal (points : List CodePoint) : Except Fault Float :=
  Scalar.readFloat (Text.quote ⟨points⟩) (Text.chars ⟨points⟩)

def infinity : Float := Binary64.ofBits false Binary64.infinityBits

def floatSixtieths : Nat → Float → List Float → Except Fault Float
  | _, total, [] => .ok total
  | base, total, part :: rest => do
    let factor ← (Number.int base).toFloat
    floatSixtieths (60 * base) (total + part * factor) rest

def notANumberWord : Text := ".nan"

def unsignedFloat (points : List CodePoint) : Except Fault Float := do
  if points = (".inf" : Text).points then pure infinity
  else if points = notANumberWord.points then pure Binary64.notANumber
  else if points.contains colon then
    floatSixtieths 1 0.0 (← (splitColons [] points).mapM decimal).reverse
  else decimal points

def floatParts (t : Text) : Except Fault (Bool × List CodePoint) :=
  splitSign (Text.lowerCase ⟨dropBars t⟩).points

def toFloat (t : Text) : Except Fault Float := do
  let (negative, unsigned) ← floatParts t
  let x ← unsignedFloat unsigned
  pure (if negative then -x else x)

/-- The text is the word for the value that is no number. Wherever the word stands, it stands for
one and the same value. -/
def isNotANumberWord (t : Text) : Bool :=
  match floatParts t with
  | .ok (_, unsigned) => unsigned = notANumberWord.points
  | .error _ => false

def toBool (t : Text) : Except Fault Bool :=
  let word := Text.lowerCase t
  if Tag.trueWords.any fun other => word = other then .ok true
  else if Tag.falseWords.any fun other => word = other then .ok false
  else .error (.missingKey (Text.quote word))

def toTime (t : Text) : Except Fault Timestamp :=
  match Tag.timestamp? (Tag.dropLineFeed t.chars) with
  | some time => time.check
  | none => .error .noTimestamp

def toBytes (t : Text) : Except Fault (List UInt8) :=
  if t.codes.all (· < 128) then (Base64.decode? t.chars).elim (.error unbuildable) .ok
  else .error unbuildable

def construct (tag : Tag) (t : Text) : Except Fault Scalar :=
  match tag with
  | .null => .ok .null
  | .bool => Scalar.bool <$> toBool t
  | .int => Scalar.int <$> toInt t
  | .float => Scalar.float <$> toFloat t
  | .binary => Scalar.bytes <$> toBytes t
  | .time => Scalar.time <$> toTime t
  | .text => .ok (.text t)
  | _ => .error unbuildable

end BinaryQuadratic.Yaml.ScalarValue
