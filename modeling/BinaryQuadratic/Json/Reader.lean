import BinaryQuadratic.Datum

/-!
Reading JSON text. Besides the standard the words for infinities and for the value that is no
number are accepted, and of fields with one key the last counts.
-/

namespace BinaryQuadratic.Json

def isSpace (c : Char) : Bool := c = ' ' || c = '\t' || c = '\n' || c = '\r'

def skipSpaces (cs : List Char) : List Char := cs.dropWhile isSpace

def hexUnit? (a b c d : Char) : Option Nat := Text.readDigits? 16 [a, b, c, d]

def shortEscape? (c : Char) : Option Char :=
  if c = '\u0022' || c = '\\' || c = '/' then some c
  else if c = 'b' then some '\x08'
  else if c = 'f' then some '\x0c'
  else if c = 'n' then some '\n'
  else if c = 'r' then some '\r'
  else if c = 't' then some '\t'
  else none

def readUnits : List Char → Option (List Nat × List Char)
  | [] => none
  | '\\' :: 'u' :: a :: b :: c :: d :: rest => do
    let unit ← hexUnit? a b c d
    let (units, after) ← readUnits rest
    pure (unit :: units, after)
  | '\\' :: e :: rest => do
    let c ← shortEscape? e
    let (units, after) ← readUnits rest
    pure (c.toNat :: units, after)
  | c :: rest =>
    if c = '\u0022' then some ([], rest)
    else if c = '\\' || c.toNat < 32 then none
    else do
      let (units, after) ← readUnits rest
      pure (c.toNat :: units, after)

def isHighSurrogate (n : Nat) : Bool := 0xD800 ≤ n && n < 0xDC00

def isLowSurrogate (n : Nat) : Bool := 0xDC00 ≤ n && n < 0xE000

/-- Code points from code units; a high and a low surrogate together are one character. -/
def joinUnits : List Nat → List CodePoint
  | [] => []
  | [n] => [.ofNat n]
  | high :: low :: rest =>
    if isHighSurrogate high && isLowSurrogate low then
      .ofNat (0x10000 + (high - 0xD800) * 0x400 + (low - 0xDC00)) :: joinUnits rest
    else .ofNat high :: joinUnits (low :: rest)

def malformed : Fault := .document .structured

def readText (cs : List Char) : Except Fault (Text × List Char) :=
  match readUnits cs with
  | some (units, after) => .ok (⟨joinUnits units⟩, after)
  | none => .error malformed

def readWhole : List Char → Option (List Char × List Char)
  | '0' :: rest => some (['0'], rest)
  | cs =>
    let digits := cs.takeWhile Char.isDigit
    if digits.isEmpty then none else some (digits, cs.dropWhile Char.isDigit)

def readFraction : List Char → List Char × List Char
  | '.' :: rest =>
    let digits := rest.takeWhile Char.isDigit
    if digits.isEmpty then ([], '.' :: rest) else (digits, rest.dropWhile Char.isDigit)
  | cs => ([], cs)

def readExponent (cs : List Char) : Option Int × List Char :=
  match cs with
  | c :: rest =>
    if c = 'e' || c = 'E' then
      let (negative, tail) := Literal.splitSign rest
      let digits := tail.takeWhile Char.isDigit
      if digits.isEmpty then (none, cs)
      else (some (Binary64.applySign negative (Literal.natOfDigits digits)),
        tail.dropWhile Char.isDigit)
    else (none, cs)
  | [] => (none, [])

def readNumber (negative : Bool) (cs : List Char) : Except Fault (Datum × List Char) :=
  match readWhole cs with
  | none => .error malformed
  | some (whole, afterWhole) =>
    let (fraction, afterFraction) := readFraction afterWhole
    let (exponent, rest) := readExponent afterFraction
    let digits := whole ++ fraction
    let mantissa := Literal.natOfDigits digits
    if fraction.isEmpty && exponent.isNone then
      if Literal.digitLimit < digits.length then .error (.readDigits digits.length)
      else .ok (.int (Binary64.applySign negative mantissa), rest)
    else
      let significant := (digits.dropWhile (· = '0')).length
      .ok (.float (Binary64.ofDecimal negative mantissa significant
        (exponent.getD 0 - fraction.length)), rest)

def words : List (List Char × Scalar) :=
  [("null".toList, .null), ("true".toList, .bool true), ("false".toList, .bool false),
    ("NaN".toList, .float Binary64.notANumber),
    ("Infinity".toList, .float (Binary64.ofBits false Binary64.infinityBits)),
    ("-Infinity".toList, .float (Binary64.ofBits true Binary64.infinityBits))]

def readWord (cs : List Char) : Option (Datum × List Char) :=
  (words.find? fun word => word.1.isPrefixOf cs).map fun word =>
    (.scalar word.2, cs.drop word.1.length)

def readScalar (cs : List Char) : Except Fault (Datum × List Char) :=
  match readWord cs with
  | some found => .ok found
  | none =>
    match cs with
    | '\u0022' :: rest => do
      let (t, after) ← readText rest
      pure (.text t, after)
    | '-' :: rest => readNumber true rest
    | _ => readNumber false cs

mutual

/-- A value, whose containers are nested at most so many levels deep. -/
def readValue : Nat → Nat → List Char → Except Fault (Datum × List Char)
  | 0, _, _ => .error malformed
  | _ + 1, 0, '[' :: _ => .error .nesting
  | _ + 1, 0, '\x7b' :: _ => .error .nesting
  | fuel + 1, depth + 1, '[' :: rest =>
    match skipSpaces rest with
    | ']' :: after => .ok (.list [], after)
    | inside => do
      let (items, after) ← readItems fuel depth inside
      pure (.list items, after)
  | fuel + 1, depth + 1, '\x7b' :: rest =>
    match skipSpaces rest with
    | '\x7d' :: after => .ok (.table [], after)
    | inside => do
      let (fields, after) ← readFields fuel depth [] inside
      pure (.table fields, after)
  | _ + 1, _, cs => readScalar cs

def readItems : Nat → Nat → List Char → Except Fault (List Datum × List Char)
  | 0, _, _ => .error malformed
  | fuel + 1, depth, cs => do
    let (item, afterItem) ← readValue fuel depth cs
    match skipSpaces afterItem with
    | ']' :: after => pure ([item], after)
    | ',' :: more => do
      let (items, after) ← readItems fuel depth (skipSpaces more)
      pure (item :: items, after)
    | _ => throw malformed

def readFields : Nat → Nat → Fields Datum → List Char → Except Fault (Fields Datum × List Char)
  | 0, _, _, _ => .error malformed
  | fuel + 1, depth, fields, '\u0022' :: cs => do
    let (key, afterKey) ← readText cs
    match skipSpaces afterKey with
    | ':' :: valueText => do
      let (value, afterValue) ← readValue fuel depth (skipSpaces valueText)
      let extended := Fields.insert fields (.text key) value
      match skipSpaces afterValue with
      | '\x7d' :: after => pure (extended, after)
      | ',' :: more => readFields fuel depth extended (skipSpaces more)
      | _ => throw malformed
    | _ => throw malformed
  | _ + 1, _, _, _ => .error malformed

end

/-- Reads a text that holds one value. Every step of the reader consumes a character, so the
length of the text bounds their number. -/
def parse (s : String) : Except Fault Datum := do
  let cs := s.toList
  let (value, rest) ← readValue (cs.length + 1) nestingLimit (skipSpaces cs)
  if (skipSpaces rest).isEmpty then pure value else throw malformed

end BinaryQuadratic.Json
