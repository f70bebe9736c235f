import BinaryQuadratic.Number.Binary64
import BinaryQuadratic.Text

/-!
Numbers written by people. Blanks may stand around a number, digits of any script count, and a
single underscore may stand between two digits. Every script with decimal digits has them in one
block of ten consecutive characters, so a block is given by its zero.
-/

namespace BinaryQuadratic

namespace Text

def digitZeros : List Nat := [
  0x30, 0x660, 0x6F0, 0x7C0, 0x966, 0x9E6, 0xA66, 0xAE6, 0xB66, 0xBE6, 0xC66,
  0xCE6, 0xD66, 0xDE6, 0xE50, 0xED0, 0xF20, 0x1040, 0x1090, 0x17E0, 0x1810, 0x1946,
  0x19D0, 0x1A80, 0x1A90, 0x1B50, 0x1BB0, 0x1C40, 0x1C50, 0xA620, 0xA8D0, 0xA900, 0xA9D0,
  0xA9F0, 0xAA50, 0xABF0, 0xFF10, 0x104A0, 0x10D30, 0x11066, 0x110F0, 0x11136, 0x111D0, 0x112F0,
  0x11450, 0x114D0, 0x11650, 0x116C0, 0x11730, 0x118E0, 0x11950, 0x11C50, 0x11D50, 0x11DA0, 0x16A60,
  0x16AC0, 0x16B50, 0x1D7CE, 0x1D7D8, 0x1D7E2, 0x1D7EC, 0x1D7F6, 0x1E140, 0x1E2F0, 0x1E950, 0x1FBF0]

def decimalDigit? (c : Char) : Option Nat :=
  (digitZeros.find? fun first => first ≤ c.toNat && c.toNat < first + 10).map (c.toNat - ·)

def isBlank (c : Char) : Bool :=
  let n := c.toNat
  (9 ≤ n && n ≤ 13) || n = 32 || n = 0x85 || n = 0xA0 || n = 0x1680 ||
    (0x2000 ≤ n && n ≤ 0x200A) || n = 0x2028 || n = 0x2029 || n = 0x202F || n = 0x205F ||
    n = 0x3000

def trimBlanks (cs : List Char) : List Char :=
  ((cs.dropWhile isBlank).reverse.dropWhile isBlank).reverse

end Text

namespace Literal

def plainDigit (c : Char) : Char :=
  match Text.decimalDigit? c with
  | some d => Char.ofNat (48 + d)
  | none => c

def normalize (cs : List Char) : List Char := (Text.trimBlanks cs).map plainDigit

def dropUnderscores : Bool → List Char → Option (List Char)
  | _, [] => some []
  | afterDigit, '_' :: d :: rest =>
    if afterDigit && d.isDigit then (dropUnderscores true rest).map (d :: ·) else none
  | _, c :: rest =>
    if c = '_' then none else (dropUnderscores c.isDigit rest).map (c :: ·)

def natOfDigits (ds : List Char) : Nat :=
  ds.foldl (fun n d => 10 * n + (d.toNat - 48)) 0

def splitSign : List Char → Bool × List Char
  | '-' :: rest => (true, rest)
  | '+' :: rest => (false, rest)
  | cs => (false, cs)

/-- The most digits of base ten between an integer and its text. -/
def digitLimit : Nat := 4300

inductive IntReading where
  | number (n : Int)
  | malformed
  | tooLong (digits : Nat)
  deriving DecidableEq, Repr

def isDigitOf (base : Nat) (c : Char) : Bool := (Text.hexValue? c).any fun d => decide (d < base)

def baseMark? (base : Nat) : Option Char :=
  if base = 2 then some 'b' else if base = 8 then some 'o' else if base = 16 then some 'x' else none

def dropBaseMark (base : Nat) (cs : List Char) : List Char :=
  match cs with
  | '0' :: mark :: rest => if baseMark? base = some mark.toLower then rest else cs
  | _ => cs

def numberOfDigits (base : Nat) (digits : List Char) : Nat :=
  digits.foldl (fun n c => base * n + (Text.hexValue? c).getD 0) 0

/-- Reads an integer: an optional sign and at least one digit. Too many digits are noticed before
whatever follows them. -/
def readInt (base : Nat) (cs : List Char) : IntReading :=
  let (negative, unsigned) := splitSign ((cs.dropWhile Text.isBlank).map plainDigit)
  let body := dropBaseMark base unsigned
  let member := fun c => isDigitOf base c || c = '_'
  match dropUnderscores false (body.takeWhile member) with
  | none => .malformed
  | some digits =>
    if digits.isEmpty then .malformed
    else if base = 10 && digitLimit < digits.length then .tooLong digits.length
    else if (body.dropWhile member).all Text.isBlank then
      .number (Binary64.applySign negative (numberOfDigits base digits))
    else .malformed

def readInt? (cs : List Char) : Option Int :=
  match readInt 10 cs with
  | .number n => some n
  | _ => none

def readExponent? : List Char → Option Int
  | [] => some 0
  | c :: rest =>
    if c = 'e' || c = 'E' then
      let (negative, digits) := splitSign rest
      if digits.isEmpty || !digits.all Char.isDigit then none
      else some (Binary64.applySign negative (natOfDigits digits))
    else none

def readDecimal? (negative : Bool) (cs : List Char) : Option Float := do
  let whole := cs.takeWhile Char.isDigit
  let rest := cs.dropWhile Char.isDigit
  let (fraction, tail) := match rest with
    | '.' :: more => (more.takeWhile Char.isDigit, more.dropWhile Char.isDigit)
    | _ => ([], rest)
  let digits := whole ++ fraction
  if digits.isEmpty then none
  else
    let exponent ← readExponent? tail
    let mantissa := natOfDigits digits
    let significant := (digits.dropWhile (· = '0')).length
    some (Binary64.ofDecimal negative mantissa significant (exponent - fraction.length))

def readFloat? (text : List Char) : Option Float := do
  let cs ← dropUnderscores false (normalize text)
  let (negative, rest) := splitSign cs
  let word := String.ofList (rest.map Char.toLower)
  if word = "inf" || word = "infinity" then some (Binary64.ofBits negative Binary64.infinityBits)
  else if word = "nan" then some Binary64.notANumber
  else readDecimal? negative rest

end Literal

end BinaryQuadratic
