import BinaryQuadratic.Datum

/-!
The shape of nested lists. The lists are surveyed depth first: the first way down fixes the
number of axes and the length of each, and every other way may only shorten them. Nesting that
does so is ragged.
-/

namespace BinaryQuadratic

/-- What is known of a shape. Before the first scalar or empty list the survey is not settled,
and `shape` grows with the depth; afterwards only the first `axes` lengths count. -/
structure Survey where
  axes : Nat
  shape : List Nat
  settled : Bool
  ragged : Bool

namespace Survey

def axisLimit : Nat := 64

def start : Survey := ⟨axisLimit, [], false, false⟩

def meetLeaf (s : Survey) (depth : Nat) : Survey :=
  if s.axes = depth then { s with settled := true }
  else { s with axes := depth, settled := true, ragged := s.ragged || s.settled }

def meetList (s : Survey) (depth length : Nat) : Survey × Bool :=
  if s.settled then
    if s.shape[depth]? = some length then (s, true)
    else ({ s with axes := depth, ragged := true }, false)
  else ({ s with shape := s.shape ++ [length] }, true)

mutual

def visit (depth : Nat) : Datum → Survey → Survey
  | .list items, s =>
    if depth = s.axes then { s with settled := true, ragged := true }
    else
      let (met, agrees) := s.meetList depth items.length
      if !agrees then met
      else if items.isEmpty then { met with axes := depth + 1, settled := true }
      else visitItems (depth + 1) items met
  | _, s => s.meetLeaf depth

def visitItems (depth : Nat) : List Datum → Survey → Survey
  | [], s => s
  | item :: rest, s => visitItems depth rest (visit depth item s)

end

/-- The lists of a value down to some depth; a list at that depth is left empty, and a container
that is no sequence has nothing in it. -/
def outline {ν : Type} [Value ν] : Nat → ν → Datum
  | 0, v =>
    match Value.layer v with
    | .scalar s => .scalar s
    | .list _ => .list []
    | .pair _ _ => .list []
    | _ => .table []
  | depth + 1, v =>
    match Value.layer v with
    | .scalar s => .scalar s
    | .list items => .list (items.map (outline depth))
    | .pair first second => .list [outline depth first, outline depth second]
    | _ => .table []

def shapeOf (d : Datum) : Except Fault (List Nat) :=
  let s := visit 0 d start
  if s.ragged then
    .error (if s.axes = axisLimit then .deepArray else .raggedArray (s.shape.take s.axes))
  else .ok (s.shape.take s.axes)

end Survey

end BinaryQuadratic
