import BinaryQuadratic.Value

/-!
Values in messages. Inside containers, and in quoted form, texts stand between quotes; shown by
itself a text is as it is. A container inside itself is shown by its brackets only.
-/

namespace BinaryQuadratic.Value

variable {ν : Type} [Value ν]

def enclosed (opening closing : String) (parts : List String) : String :=
  opening ++ ", ".intercalate parts ++ closing

def ellipsis : Layer ν → String
  | .list _ => "[...]"
  | .pair _ _ => "(...)"
  | .table _ => "\x7b...\x7d"
  | _ => ""

def quotedWithin : Nat → List Nat → ν → Except Fault String
  | 0, _, _ => .error .nesting
  | depth + 1, outer, v =>
    if (identity? v).any outer.contains then .ok (ellipsis (layer v))
    else
      let inner := quotedWithin depth ((identity? v).toList ++ outer)
      match layer v with
      | .scalar s => s.quoted
      | .list items => enclosed "[" "]" <$> items.mapM inner
      | .pair first second => do pure (enclosed "(" ")" [← inner first, ← inner second])
      | .set [] => .ok "set()"
      | .set members => enclosed "\x7b" "\x7d" <$> members.mapM Scalar.quoted
      | .table fields => enclosed "\x7b" "\x7d" <$> fields.mapM fun (key, value) => do
        pure ((← key.quoted) ++ ": " ++ (← inner value))

def quoted (v : ν) : Except Fault String := quotedWithin (nestingLimit + 1) [] v

def shown (v : ν) : Except Fault Text :=
  match layer v with
  | .scalar s => s.shown
  | _ => Text.ofString <$> quoted v

end BinaryQuadratic.Value
