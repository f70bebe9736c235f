import BinaryQuadratic.Value

/-!
Data: values that are trees. No container of a datum occurs at two places.
-/

namespace BinaryQuadratic

inductive Datum where
  | scalar (value : Scalar)
  | list (items : List Datum)
  | table (fields : List (Scalar × Datum))

namespace Datum

@[match_pattern] abbrev null : Datum := .scalar .null
@[match_pattern] abbrev bool (b : Bool) : Datum := .scalar (.bool b)
@[match_pattern] abbrev int (n : Int) : Datum := .scalar (.int n)
@[match_pattern] abbrev float (x : Float) : Datum := .scalar (.float x)
@[match_pattern] abbrev text (t : Text) : Datum := .scalar (.text t)

instance : Inhabited Datum := ⟨.null⟩

def layer : Datum → Layer Datum
  | scalar s => .scalar s
  | list items => .list items
  | table fields => .table fields

instance : Value Datum := ⟨layer, scalar, fun _ => none⟩

mutual

def equals : Datum → Datum → Bool
  | scalar a, scalar b => a.equals b
  | list xs, list ys => equalLists xs ys
  | table fs, table gs => fs.length = gs.length && fieldsWithin gs fs
  | _, _ => false

def equalLists : List Datum → List Datum → Bool
  | [], [] => true
  | x :: xs, y :: ys => x.equals y && equalLists xs ys
  | _, _ => false

def fieldsWithin (gs : List (Scalar × Datum)) : List (Scalar × Datum) → Bool
  | [] => true
  | (key, value) :: fs =>
    (match gs.find? fun field => field.1.equals key with
    | some (_, other) => value.equals other
    | none => false) && fieldsWithin gs fs

end

end Datum

end BinaryQuadratic
