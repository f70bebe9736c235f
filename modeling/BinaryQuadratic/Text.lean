/-!
Texts as sequences of code points. Most texts hold characters only; an escape can also name half of
a surrogate pair, which is kept as it is. Sets of code points are given as ranges in ascending
order. Hexadecimal digits are written in lower case and read in both cases.
-/

namespace BinaryQuadratic

/-- A character, or half of a surrogate pair by its distance from the first of them. -/
inductive CodePoint where
  | char (c : Char)
  | surrogate (offset : Fin 0x800)
  deriving DecidableEq, Repr

namespace CodePoint

def firstSurrogate : Nat := 0xD800

def limit : Nat := 0x110000

def toNat : CodePoint → Nat
  | char c => c.toNat
  | surrogate offset => firstSurrogate + offset

def ofNat (n : Nat) : CodePoint :=
  if low : firstSurrogate ≤ n ∧ n - firstSurrogate < 0x800 then
    surrogate ⟨n - firstSurrogate, low.2⟩
  else char (Char.ofNat n)

def toChar : CodePoint → Char
  | char c => c
  | surrogate _ => '\uFFFD'

end CodePoint

structure Text where
  points : List CodePoint
  deriving DecidableEq, Repr

namespace Text

def empty : Text := ⟨[]⟩

def ofChars (cs : List Char) : Text := ⟨cs.map .char⟩

def ofString (s : String) : Text := ofChars s.toList

instance : Coe String Text := ⟨ofString⟩

instance : Append Text := ⟨fun s t => ⟨s.points ++ t.points⟩⟩

def join (texts : List Text) : Text := ⟨texts.flatMap points⟩

def intercalate (separator : Text) (texts : List Text) : Text :=
  join (texts.intersperse separator)

def chars (t : Text) : List Char := t.points.map CodePoint.toChar

def isPlain (t : Text) : Bool :=
  t.points.all fun p => match p with
    | .char _ => true
    | .surrogate _ => false

def render (t : Text) : String := String.ofList t.chars

def isEmpty (t : Text) : Bool := t.points.isEmpty

def codes (t : Text) : List Nat := t.points.map CodePoint.toNat

def less (s t : Text) : Bool := decide (s.codes < t.codes)

def singleton (p : CodePoint) : Text := ⟨[p]⟩

def occursIn (needle : List CodePoint) : List CodePoint → Bool
  | [] => needle.isEmpty
  | p :: ps => needle.isPrefixOf (p :: ps) || occursIn needle ps

def contains (t needle : Text) : Bool := occursIn needle.points t.points

/-- Bisection for the range that could hold a code point: the ranges below `lo` end before it,
and those from `hi` on start after it. -/
def inRangesFrom (ranges : Array (Nat × Nat)) (n : Nat) : Nat → Nat → Nat → Bool
  | 0, _, _ => false
  | fuel + 1, lo, hi =>
    if lo < hi then
      let middle := (lo + hi) / 2
      match ranges[middle]? with
      | some (first, last) =>
        if n < first then inRangesFrom ranges n fuel lo middle
        else if last < n then inRangesFrom ranges n fuel (middle + 1) hi
        else true
      | none => false
    else false

def inRanges (ranges : Array (Nat × Nat)) (n : Nat) : Bool :=
  inRangesFrom ranges n (ranges.size + 1) 0 ranges.size

def hexDigit (n : Nat) : Char :=
  if n < 10 then Char.ofNat (48 + n) else Char.ofNat (87 + n)

def hexDigits : Nat → Nat → List Char
  | 0, _ => []
  | width + 1, n => hexDigits width (n / 16) ++ [hexDigit (n % 16)]

def hexValue? (c : Char) : Option Nat :=
  if c.isDigit then some (c.toNat - 48)
  else if 'a' ≤ c && c ≤ 'f' then some (c.toNat - 87)
  else if 'A' ≤ c && c ≤ 'F' then some (c.toNat - 55)
  else none

def readDigits? (base : Nat) (digits : List Char) : Option Nat :=
  if digits.isEmpty then none
  else
    digits.foldlM (fun n c =>
      (hexValue? c).bind fun d => if d < base then some (base * n + d) else none) 0

end Text

end BinaryQuadratic
