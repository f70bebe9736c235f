import BinaryQuadratic.Text

/-!
The rules of the library that a caller can break, with their names and messages.
-/

namespace BinaryQuadratic

inductive Rule where
  | indexOutOfRange
  | pairIndexSmallerThanPrimary
  | valueNotBinary
  | entryNotBinary
  | listNotSquare
  | lowerTriangleEntryNotZero
  | recordLengthExceedsCombinations
  | recordIsFull
  | recordNotEnoughCapacity
  | hardwareSamplingLargerThanFour
  | minorEmbeddingNotSupported
  | problemSizeNotSupported
  deriving DecidableEq, Repr, Inhabited

namespace Rule

def all : List Rule :=
  [indexOutOfRange, pairIndexSmallerThanPrimary, valueNotBinary, entryNotBinary, listNotSquare,
    lowerTriangleEntryNotZero, recordLengthExceedsCombinations, recordIsFull,
    recordNotEnoughCapacity, hardwareSamplingLargerThanFour, minorEmbeddingNotSupported,
    problemSizeNotSupported]

def code : Rule → String
  | indexOutOfRange => "index_out_of_range"
  | pairIndexSmallerThanPrimary => "pair_index_smaller_than_primary"
  | valueNotBinary => "value_not_binary"
  | entryNotBinary => "entry_not_binary"
  | listNotSquare => "list_not_square"
  | lowerTriangleEntryNotZero => "lower_triangle_entry_not_zero"
  | recordLengthExceedsCombinations => "record_length_exceeds_combinations"
  | recordIsFull => "record_is_full"
  | recordNotEnoughCapacity => "record_not_enough_capacity"
  | hardwareSamplingLargerThanFour => "dwave_sampling_larger_than_four"
  | minorEmbeddingNotSupported => "minor_embedding_not_supported"
  | problemSizeNotSupported => "problem_size_not_supported"

def name (rule : Rule) : String := rule.code.toUpper

def ofName? (text : Text) : Option Rule := all.find? fun rule => rule.name = text

def message (rule : Rule) (parameter : Text) : Text :=
  match rule with
  | indexOutOfRange => "Parameter " ++ parameter ++ " was out of range."
  | pairIndexSmallerThanPrimary =>
    "Pair variable index must be higher or equal to the index of the primary variable."
  | valueNotBinary => "Value '" ++ parameter ++ "' for this operation must be binary."
  | entryNotBinary => "Entries can be either 0 or 1 (binary)."
  | listNotSquare =>
    "List for Hamiltonian must resemble a square matrix (number of columns = number of rows)."
  | lowerTriangleEntryNotZero => "Entries in the lower triangle of the list must be zero."
  | recordLengthExceedsCombinations =>
    "Requested record length cannot exceed the number of possible combinations."
  | recordIsFull => "Capacity of the record is exhausted."
  | recordNotEnoughCapacity =>
    "Capacity of the record is not large enough to add the supplied number of entries."
  | hardwareSamplingLargerThanFour =>
    "Using the DWave sampler on problem sizes larger than 4 is currently not supported."
  | minorEmbeddingNotSupported => "Creating a minor embedding is not yet implemented."
  | problemSizeNotSupported =>
    "Problem size '" ++ parameter ++ "' exceeds the limit of this solver."

def unlistedMessage : Text := "Attempted to execute an invalid operation."

def describe (rule : Option Rule) (parameter : Text) : Text :=
  rule.elim unlistedMessage fun known => known.message parameter

end Rule

inductive Family where
  | general
  | outOfRange
  | invalidOperation
  | dataFormat
  | unsupported
  deriving DecidableEq, Repr

structure Violation where
  family : Family
  rule : Rule
  parameter : Option String
  deriving DecidableEq, Repr

namespace Violation

def message (v : Violation) : Text := v.rule.message (v.parameter.getD "")

def outOfRange (parameter : String) : Violation :=
  ⟨.outOfRange, .indexOutOfRange, some parameter⟩

def invalidOperation (rule : Rule) : Violation := ⟨.invalidOperation, rule, none⟩

def dataFormat (rule : Rule) : Violation := ⟨.dataFormat, rule, none⟩

def unsupported (rule : Rule) : Violation := ⟨.unsupported, rule, none⟩

end Violation

end BinaryQuadratic
