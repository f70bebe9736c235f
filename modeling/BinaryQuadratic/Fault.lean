import BinaryQuadratic.Number.Literal
import BinaryQuadratic.Violation

/-!
Everything that can go wrong, by cause. The wording of a cause is given once, by `Fault.message`.
-/

namespace BinaryQuadratic

inductive FileFault where
  | missing
  | exists
  | notADirectory
  | isADirectory
  | nameTooLong
  deriving DecidableEq, Repr

inductive DocumentFault where
  | structured
  | character
  | token
  | grammar
  | reference
  | value
  deriving DecidableEq, Repr

inductive Fault where
  | violation (violation : Violation)
  | wrongKind
  | notATable
  | leftToVariants
  | integerOfNotANumber
  | integerOfInfinity
  | floatOfLargeInteger
  /-- A quoted text or quoted bytes that are no integer of a base. -/
  | integerLiteral (base : Nat) (quoted : String)
  | floatLiteral (quoted : String)
  | readDigits (count : Nat)
  | writtenDigits
  | nesting
  | circular
  | byteRange (value : Int)
  | wordRange
  | repeatRange
  | memory
  | integerSize
  | negativeSize
  | negativeAxis
  | axisLength
  | arraySize
  | arrayMemory
  | raggedArray (shape : List Nat)
  | deepArray
  | sequenceInCell
  | reshape (count side : Nat)
  | axisCount (axes : Nat)
  | axisBound (index axis size : Nat)
  | fractionalIndex
  | noAxis
  | rowTooShort
  | missingKey (quoted : String)
  | problemSection
  | entryShape (item : String)
  | unknownSolver (kind : Text)
  | yearRange (year : Nat)
  | monthRange
  | dayRange
  | hourRange
  | minuteRange
  | secondRange
  | offsetRange (span : String)
  | noTimestamp
  | textTooShort
  | characterRange
  | characterWord
  | nullCharacter
  /-- A text that cannot be stored because of a half of a surrogate pair. -/
  | notStorable
  | file (cause : FileFault)
  | document (cause : DocumentFault)
  deriving Repr

namespace Fault

def shapeText : List Nat → String
  | [n] => s!"({n},)"
  | shape => "(" ++ ", ".intercalate (shape.map toString) ++ ")"

def message : Fault → Text
  | violation v => v.message
  | wrongKind => "value of the wrong kind"
  | notATable => "value is not a table"
  | leftToVariants => "operation is left to the variants"
  | integerOfNotANumber => "cannot convert float NaN to integer"
  | integerOfInfinity => "cannot convert float infinity to integer"
  | floatOfLargeInteger => "int too large to convert to float"
  | integerLiteral base quoted =>
    let start := String.ofList (quoted.toList.take 200)
    s!"invalid literal for int() with base {base}: {start}"
  | floatLiteral quoted => "could not convert string to float: " ++ quoted
  | readDigits count =>
    s!"Exceeds the limit ({Literal.digitLimit} digits) for integer string conversion: " ++
      s!"value has {count} digits; use sys.set_int_max_str_digits() to increase the limit"
  | writtenDigits =>
    s!"Exceeds the limit ({Literal.digitLimit} digits) for integer string conversion; " ++
      "use sys.set_int_max_str_digits() to increase the limit"
  | nesting => "values are nested too deeply"
  | circular => "Circular reference detected"
  | byteRange value => s!"Python integer {value} out of bounds for int8"
  | wordRange => "Python int too large to convert to C long"
  | repeatRange => "cannot fit 'int' into an index-sized integer"
  | memory => "out of memory"
  | integerSize => "too many digits in integer"
  | negativeSize => "negative shift count"
  | negativeAxis => "negative dimensions are not allowed"
  | axisLength => "Maximum allowed dimension exceeded"
  | arraySize =>
    "array is too big; `arr.size * arr.dtype.itemsize` is larger than the maximum possible size."
  | arrayMemory => "out of memory for an array"
  | raggedArray shape =>
    "setting an array element with a sequence. The requested array has an inhomogeneous shape " ++
      s!"after {shape.length} dimensions. The detected shape was {shapeText shape} + " ++
      "inhomogeneous part."
  | deepArray =>
    "setting an array element with a sequence. The requested array would exceed the maximum " ++
      "number of dimension of 64."
  | sequenceInCell => "setting an array element with a sequence."
  | reshape count side => s!"cannot reshape array of size {count} into shape ({side},{side})"
  | axisCount axes =>
    s!"too many indices for array: array is {axes}-dimensional, but 2 were indexed"
  | axisBound index axis size =>
    s!"index {index} is out of bounds for axis {axis} with size {size}"
  | fractionalIndex =>
    "only integers, slices (`:`), ellipsis (`...`), numpy.newaxis (`None`) and integer or " ++
      "boolean arrays are valid indices"
  | noAxis => "tuple index out of range"
  | rowTooShort => "list index out of range"
  | missingKey quoted => quoted
  | problemSection => "qubo config needs either 'size' (+ 'entries') or 'hamiltonian'"
  | entryShape item => "qubo entry must be [i, j, value]; got " ++ item
  | unknownSolver kind => "Unknown solver kind: " ++ kind
  | yearRange year => s!"year {year} is out of range"
  | monthRange => "month must be in 1..12"
  | dayRange => "day is out of range for month"
  | hourRange => "hour must be in 0..23"
  | minuteRange => "minute must be in 0..59"
  | secondRange => "second must be in 0..59"
  | noTimestamp => "text that is no timestamp"
  | offsetRange span =>
    "offset must be a timedelta strictly between -timedelta(hours=24) and timedelta(hours=24), " ++
      s!"not {span}."
  | textTooShort => "string index out of range"
  | characterRange => "chr() arg not in range(0x110000)"
  | characterWord => "Python int too large to convert to C int"
  | nullCharacter => "embedded null byte"
  | notStorable => "text that cannot be stored"
  | file cause =>
    match cause with
    | .missing => "no such file or directory"
    | .exists => "file exists"
    | .notADirectory => "not a directory"
    | .isADirectory => "is a directory"
    | .nameTooLong => "file name too long"
  | document cause =>
    match cause with
    | .structured => "malformed document"
    | .character => "unacceptable character"
    | .token => "malformed token"
    | .grammar => "unexpected token"
    | .reference => "unknown or repeated anchor"
    | .value => "value that cannot be built"

end Fault

end BinaryQuadratic
