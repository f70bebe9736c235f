import BinaryQuadratic.Scalar

/-!
Tags: the kinds of nodes. A node has the kind that it is given by name; the kind of a plain scalar
is read off its text.
-/

namespace BinaryQuadratic.Yaml

inductive Tag where
  | null
  | bool
  | int
  | float
  | binary
  | time
  | text
  | sequence
  | mapping
  | set
  | orderedMapping
  | pairs
  | merge
  | value
  | unknown
  deriving DecidableEq, Repr

namespace Tag

def commonPart : String := "tag:yaml.org,2002:"

def names : List (String × Tag) :=
  [("null", null), ("bool", bool), ("int", int), ("float", float), ("binary", binary),
    ("timestamp", time), ("str", text), ("seq", sequence), ("map", mapping), ("set", set),
    ("omap", orderedMapping), ("pairs", pairs), ("merge", merge), ("value", value)]

def ofName (name : String) : Tag :=
  ((names.find? fun entry => commonPart ++ entry.1 = name).map Prod.snd).getD unknown

def trueWords : List String := ["yes", "true", "on"]

def falseWords : List String := ["no", "false", "off"]

def casings (word : String) : List String := [word, word.toUpper, word.capitalize]

def nullWords : List String := ["", "~"] ++ casings "null"

def isDigitOrBar (c : Char) : Bool := c.isDigit || c = '_'

def digitRun (cs : List Char) : Option (List Char) :=
  match cs with
  | c :: rest => if c.isDigit then some (rest.dropWhile isDigitOrBar) else none
  | [] => none

def dropSign : List Char → List Char
  | '-' :: rest => rest
  | '+' :: rest => rest
  | cs => cs

def isExponent : List Char → Bool
  | [] => true
  | mark :: sign :: digits =>
    (mark = 'e' || mark = 'E') && (sign = '-' || sign = '+') && !digits.isEmpty &&
      digits.all Char.isDigit
  | _ => false

def skipSixtieths : List Char → List Char
  | ':' :: tens :: ones :: rest =>
    if '0' ≤ tens && tens ≤ '5' && ones.isDigit then skipSixtieths rest
    else if tens.isDigit then skipSixtieths (ones :: rest)
    else ':' :: tens :: ones :: rest
  | [':', ones] => if ones.isDigit then [] else [':', ones]
  | cs => cs

def isFloat (cs : List Char) : Bool :=
  let unsigned := dropSign cs
  let word := String.ofList unsigned
  [".inf", ".Inf", ".INF"].contains word || [".nan", ".NaN", ".NAN"].contains (String.ofList cs) ||
    (match cs with
    | '.' :: rest => (digitRun rest).elim false isExponent
    | _ => false) ||
    (match digitRun unsigned with
    | some ('.' :: rest) => isExponent (rest.dropWhile isDigitOrBar)
    | some (':' :: rest) =>
      match skipSixtieths (':' :: rest) with
      | '.' :: fraction => fraction.all isDigitOrBar
      | _ => false
    | _ => false)

def areDigits (member : Char → Bool) (cs : List Char) : Bool :=
  !cs.isEmpty && cs.all fun c => member c || c = '_'

def isInt (cs : List Char) : Bool :=
  match dropSign cs with
  | ['0'] => true
  | '0' :: 'b' :: rest => areDigits (fun c => c = '0' || c = '1') rest
  | '0' :: 'x' :: rest => areDigits (fun c => (Text.hexValue? c).isSome) rest
  | '0' :: rest => areDigits (fun c => '0' ≤ c && c ≤ '7') rest
  | unsigned =>
    match digitRun unsigned with
    | some [] => true
    | some (':' :: rest) => (skipSixtieths (':' :: rest)).isEmpty
    | _ => false

def digits? (least most : Nat) (cs : List Char) : Option (Nat × List Char) :=
  let digits := (cs.take most).takeWhile Char.isDigit
  if digits.length < least then none
  else some (Literal.natOfDigits digits, cs.drop digits.length)

def mark? (c : Char) : List Char → Option (List Char)
  | first :: rest => if first = c then some rest else none
  | [] => none

def microseconds (digits : List Char) : Nat :=
  Literal.natOfDigits ((digits ++ List.replicate 6 '0').take 6)

def isBlankChar (c : Char) : Bool := c = ' ' || c = '\t'

def offset? (cs : List Char) : Option (Option Int) :=
  match cs with
  | [] => some none
  | _ =>
    match cs.dropWhile isBlankChar with
    | ['Z'] => some (some 0)
    | sign :: rest => do
      if sign ≠ '-' && sign ≠ '+' then none
      else
        let (hours, afterHours) ← digits? 1 2 rest
        let (minutes, after) ← match afterHours with
          | ':' :: more => digits? 2 2 more
          | _ => some (0, afterHours)
        if after.isEmpty then
          some (some (Binary64.applySign (sign = '-') (hours * 60 + minutes)))
        else none
    | [] => none

def clockTime? (cs : List Char) : Option ClockTime := do
  let start ← match cs with
    | 'T' :: rest => some rest
    | 't' :: rest => some rest
    | c :: rest => if isBlankChar c then some (rest.dropWhile isBlankChar) else none
    | [] => none
  let (hour, afterHour) ← digits? 1 2 start
  let (minute, afterMinute) ← digits? 2 2 (← mark? ':' afterHour)
  let (second, afterSecond) ← digits? 2 2 (← mark? ':' afterMinute)
  let (fraction, tail) := match afterSecond with
    | '.' :: rest => (rest.takeWhile Char.isDigit, rest.dropWhile Char.isDigit)
    | _ => ([], afterSecond)
  some ⟨hour, minute, second, microseconds fraction, ← offset? tail⟩

def timestamp? (cs : List Char) : Option Timestamp := do
  let (year, afterYear) ← digits? 4 4 cs
  let (month, afterMonth) ← digits? 1 2 (← mark? '-' afterYear)
  let (day, afterDay) ← digits? 1 2 (← mark? '-' afterMonth)
  if afterDay.isEmpty then some ⟨year, month, day, none⟩
  else some ⟨year, month, day, some (← clockTime? afterDay)⟩

/-- A plain scalar is a date alone only if its month and its day have two digits. -/
def isTimestamp (cs : List Char) : Bool :=
  (timestamp? cs).any fun t => t.time.isSome || cs.length = 10

def dropLineFeed (cs : List Char) : List Char :=
  if cs.getLast? = some '\n' then cs.dropLast else cs

def ofLine (cs : List Char) : Tag :=
  let s := String.ofList cs
  if (trueWords ++ falseWords).any fun word => (casings word).contains s then .bool
  else if isFloat cs then .float
  else if isInt cs then .int
  else if s = "<<" then .merge
  else if nullWords.contains s then .null
  else if isTimestamp cs then .time
  else if s = "=" then .value
  else .text

/-- The kind of a plain scalar. A line feed at the end is not looked at, unless it is all. -/
def ofPlain (t : Text) : Tag :=
  if t.chars = ['\n'] then .text else ofLine (dropLineFeed t.chars)

end Tag

end BinaryQuadratic.Yaml
