import BinaryQuadratic.Number
import BinaryQuadratic.Text.Quoted
import BinaryQuadratic.Timestamp

/-!
Scalars: the values that have no parts. Their readings as numbers are here, each with the fault
that it ends in otherwise, and their forms in messages.
-/

namespace BinaryQuadratic

inductive Scalar where
  | null
  | bool (b : Bool)
  | int (n : Int)
  | float (x : Float)
  | text (t : Text)
  | bytes (bytes : List UInt8)
  | time (t : Timestamp)

namespace Scalar

def number? : Scalar → Option Number
  | bool b => some (.int (if b then 1 else 0))
  | int n => some (.int n)
  | float x => some (.float x)
  | _ => none

/-- Equality of keys and values: numbers are equal by value, whatever their kind. -/
def equals : Scalar → Scalar → Bool
  | null, null => true
  | text s, text t => s = t
  | bytes s, bytes t => s = t
  | time s, time t => s.equals t
  | a, b =>
    match a.number?, b.number? with
    | some m, some n => m.equals n
    | _, _ => false

def bytesChars (bytes : List UInt8) : List Char :=
  bytes.map fun b => if b < 128 then Char.ofNat b.toNat else '\uFFFD'

def readInt (base : Nat) (quoted : String) (cs : List Char) : Except Fault Int :=
  match Literal.readInt base cs with
  | .number n => .ok n
  | .malformed => .error (.integerLiteral base quoted)
  | .tooLong digits => .error (.readDigits digits)

def readFloat (quoted : String) (cs : List Char) : Except Fault Float :=
  (Literal.readFloat? cs).elim (.error (.floatLiteral quoted)) .ok

def toNumber (s : Scalar) : Except Fault Number :=
  s.number?.elim (.error .wrongKind) .ok

def toInt : Scalar → Except Fault Int
  | text t => readInt 10 (Text.quote t) t.chars
  | bytes bs => readInt 10 (Text.quoteBytes bs) (bytesChars bs)
  | s => s.toNumber >>= Number.truncate

def toFloat : Scalar → Except Fault Float
  | text t => readFloat (Text.quote t) t.chars
  | bytes bs => readFloat (Text.quoteBytes bs) (bytesChars bs)
  | s => s.toNumber >>= Number.toFloat

def isTruthy : Scalar → Bool
  | null => false
  | text t => !t.isEmpty
  | bytes bs => !bs.isEmpty
  | time _ => true
  | s => (s.number?.map fun n => !n.isZero).getD false

def quoted : Scalar → Except Fault String
  | null => .ok "None"
  | bool b => .ok (if b then "True" else "False")
  | int n => integerText n
  | float x => .ok (Binary64.Layout.plain.render x)
  | text t => .ok (Text.quote t)
  | bytes bs => .ok (Text.quoteBytes bs)
  | time t => .ok t.quoted

def shown : Scalar → Except Fault Text
  | text t => .ok t
  | time t => .ok t.render
  | s => Text.ofString <$> s.quoted

end Scalar

end BinaryQuadratic
