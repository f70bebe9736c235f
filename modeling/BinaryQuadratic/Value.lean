import BinaryQuadratic.Scalar

/-!
Values of configurations, seen one level at a time: a value is a scalar or a container of further
values. The readings of a value as a number, a sequence or a table are here, each with the fault
that it ends in otherwise.
-/

namespace BinaryQuadratic

abbrev Fields (α : Type) := List (Scalar × α)

namespace Fields

variable {α : Type}

def lookup (fields : Fields α) (key : Text) : Option α :=
  (fields.find? fun field => field.1.equals (.text key)).map Prod.snd

/-- Writes a field; an overwritten field keeps its key and its place. -/
def insert (fields : Fields α) (key : Scalar) (value : α) : Fields α :=
  if fields.any fun field => field.1.equals key then
    fields.map fun field => if field.1.equals key then (field.1, value) else field
  else fields ++ [(key, value)]

end Fields

inductive Layer (ν : Type) where
  | scalar (value : Scalar)
  | list (items : List ν)
  | pair (first second : ν)
  | set (members : List Scalar)
  | table (fields : Fields ν)

namespace Layer

variable {ν μ : Type}

def map (f : ν → μ) : Layer ν → Layer μ
  | scalar s => .scalar s
  | list items => .list (items.map f)
  | pair first second => .pair (f first) (f second)
  | set members => .set members
  | table fields => .table (fields.map fun field => (field.1, f field.2))

def scalar? : Layer ν → Option Scalar
  | scalar s => some s
  | _ => none

end Layer

/-- Types of values that can be looked into. A container that can occur at several places, and
even inside itself, has a number by which it is known. -/
class Value (ν : Type) where
  layer : ν → Layer ν
  ofScalar : Scalar → ν
  identity? : ν → Option Nat

def nestingLimit : Nat := 989

namespace Value

variable {ν : Type} [Value ν]

def scalar? (v : ν) : Option Scalar := (layer v).scalar?

def toScalar (v : ν) : Except Fault Scalar := (scalar? v).elim (.error .wrongKind) .ok

def isNull (v : ν) : Bool :=
  match layer v with
  | .scalar .null => true
  | _ => false

def equalsInt (v : ν) (n : Int) : Bool :=
  (((scalar? v).bind Scalar.number?).map fun m => m.equals (.int n)).getD false

def equalsText (v : ν) (t : Text) : Bool :=
  match layer v with
  | .scalar (.text s) => s = t
  | _ => false

def toNumber (v : ν) : Except Fault Number := toScalar v >>= Scalar.toNumber

def toInt (v : ν) : Except Fault Int := toScalar v >>= Scalar.toInt

def toFloat (v : ν) : Except Fault Float := toScalar v >>= Scalar.toFloat

def round (v : ν) : Except Fault Int := toNumber v >>= Number.round

def isTruthy (v : ν) : Bool :=
  match layer v with
  | .scalar s => s.isTruthy
  | .list items => !items.isEmpty
  | .pair _ _ => true
  | .set members => !members.isEmpty
  | .table fields => !fields.isEmpty

def items (v : ν) : Except Fault (List ν) :=
  match layer v with
  | .list items => .ok items
  | .pair first second => .ok [first, second]
  | .set members => .ok (members.map ofScalar)
  | .table fields => .ok (fields.map fun field => ofScalar field.1)
  | .scalar (.text t) => .ok (t.points.map fun p => ofScalar (.text (.singleton p)))
  | .scalar (.bytes bs) => .ok (bs.map fun b => ofScalar (.int b.toNat))
  | .scalar _ => .error .wrongKind

def get? (v : ν) (key : Text) : Except Fault (Option ν) :=
  match layer v with
  | .table fields => .ok (Fields.lookup fields key)
  | _ => .error .notATable

def get (v : ν) (key : Text) : Except Fault ν :=
  match layer v with
  | .table fields => (Fields.lookup fields key).elim (.error (.missingKey (Text.quote key))) .ok
  | _ => .error .wrongKind

def mentions (v : ν) (key : Text) : Except Fault Bool :=
  match layer v with
  | .table fields => .ok (Fields.lookup fields key).isSome
  | .list items => .ok (items.any fun item => equalsText item key)
  | .pair first second => .ok (equalsText first key || equalsText second key)
  | .set members => .ok (members.any fun member => member.equals (.text key))
  | .scalar (.text t) => .ok (t.contains key)
  | .scalar _ => .error .wrongKind

end Value

end BinaryQuadratic
