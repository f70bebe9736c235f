import BinaryQuadratic.Datum
import BinaryQuadratic.Ranking

/-!
Writing values as JSON text. A value is first brought into the form that JSON can hold, a datum
whose tables have text keys in ascending order, and that form is then written over indented lines
in ASCII.
-/

namespace BinaryQuadratic.Json

def keyText : Scalar → Except Fault Text
  | .null => .ok "null"
  | .bool b => .ok (if b then "true" else "false")
  | .int n => Text.ofString <$> integerText n
  | .float x => .ok (Binary64.Layout.document.render x)
  | .text t => .ok t
  | .bytes _ => .error .wrongKind
  | .time _ => .error .wrongKind

def isText : Scalar → Bool
  | .text _ => true
  | _ => false

def keyBefore (a b : Scalar) : Bool :=
  match a, b with
  | .text s, .text t => s.less t
  | x, y =>
    match x.number?, y.number? with
    | some m, some n => m.less n
    | _, _ => false

def isOrdered : Scalar → Bool
  | .float x => x == x
  | _ => true

/-- Fields in the order of their keys, which must all be texts or all be numbers. A single key
needs no order. -/
def sortFields {α : Type} (fields : Fields α) : Except Fault (Fields α) :=
  if fields.length ≤ 1 || fields.all (fun field => isText field.1) ||
      fields.all (fun field => field.1.number?.isSome) then
    .ok (Ranking.rank (fun a b => keyBefore a.1 b.1) (fun field => isOrdered field.1) fields)
  else .error .wrongKind

def checkScalar : Scalar → Except Fault Scalar
  | .bytes _ => .error .wrongKind
  | .time _ => .error .wrongKind
  | .int n => do
    let _ ← integerText n
    pure (.int n)
  | s => .ok s

/-- The form of a value that JSON can hold, inside the given containers and with at most so many
containers around each other. The fields of a table are gone through in the order of their
keys. -/
def normalizeWithin {ν : Type} [Value ν] : Nat → List Nat → ν → Except Fault Datum
  | 0, _, v =>
    match Value.layer v with
    | .scalar s => .scalar <$> checkScalar s
    | _ => .error .nesting
  | levels + 1, outer, v =>
    if (Value.identity? v).any outer.contains then .error .circular
    else
      let inner := normalizeWithin levels ((Value.identity? v).toList ++ outer)
      match Value.layer v with
      | .scalar s => .scalar <$> checkScalar s
      | .list items => .list <$> items.mapM inner
      | .pair first second => do pure (.list [← inner first, ← inner second])
      | .set _ => .error .wrongKind
      | .table fields => do
        let sorted ← sortFields fields
        .table <$> sorted.mapM fun (key, value) => do pure (.text (← keyText key), ← inner value)

def normalize {ν : Type} [Value ν] (v : ν) : Except Fault Datum :=
  normalizeWithin nestingLimit [] v

def escapeUnit (n : Nat) : List Char := '\\' :: 'u' :: Text.hexDigits 4 n

/-- One character of a written text. Whatever is not visible ASCII is escaped, characters beyond
the first plane as two surrogates. -/
def escapeChar (c : Char) : List Char :=
  if c = '\u0022' then ['\\', '\u0022']
  else if c = '\\' then ['\\', '\\']
  else if c = '\n' then ['\\', 'n']
  else if c = '\r' then ['\\', 'r']
  else if c = '\t' then ['\\', 't']
  else if c = '\x08' then ['\\', 'b']
  else if c = '\x0c' then ['\\', 'f']
  else if 32 ≤ c.toNat && c.toNat < 127 then [c]
  else if c.toNat < 0x10000 then escapeUnit c.toNat
  else
    let n := c.toNat - 0x10000
    escapeUnit (0xD800 + n / 0x400) ++ escapeUnit (0xDC00 + n % 0x400)

def escapePoint : CodePoint → List Char
  | .char c => escapeChar c
  | .surrogate offset => escapeUnit (CodePoint.firstSurrogate + offset)

def writeText (t : Text) (tail : List Char) : List Char :=
  '\u0022' :: (t.points.flatMap escapePoint ++ '\u0022' :: tail)

def keyOf : Scalar → Text
  | .text t => t
  | _ => .empty

def writeScalar (s : Scalar) (tail : List Char) : List Char :=
  match s with
  | .null => "null".toList ++ tail
  | .bool b => (if b then "true" else "false").toList ++ tail
  | .int n => (toString n).toList ++ tail
  | .float x => (Binary64.Layout.document.render x).toList ++ tail
  | .text t => writeText t tail
  | _ => tail

def lineBreak (depth : Nat) (tail : List Char) : List Char :=
  '\n' :: (List.replicate (2 * depth) ' ' ++ tail)

mutual

def write (depth : Nat) (d : Datum) (tail : List Char) : List Char :=
  match d with
  | .scalar s => writeScalar s tail
  | .list [] => '[' :: ']' :: tail
  | .list (item :: rest) =>
    '[' :: lineBreak (depth + 1) (write (depth + 1) item
      (writeItems (depth + 1) rest (lineBreak depth (']' :: tail))))
  | .table [] => '\x7b' :: '\x7d' :: tail
  | .table ((key, value) :: rest) =>
    '\x7b' :: lineBreak (depth + 1) (writeText (keyOf key) (':' :: ' ' ::
      write (depth + 1) value (writeFields (depth + 1) rest (lineBreak depth ('\x7d' :: tail)))))

def writeItems (depth : Nat) (items : List Datum) (tail : List Char) : List Char :=
  match items with
  | [] => tail
  | item :: rest => ',' :: lineBreak depth (write depth item (writeItems depth rest tail))

def writeFields (depth : Nat) (fields : List (Scalar × Datum)) (tail : List Char) : List Char :=
  match fields with
  | [] => tail
  | (key, value) :: rest =>
    ',' :: lineBreak depth (writeText (keyOf key) (':' :: ' ' ::
      write depth value (writeFields depth rest tail)))

end

def render {ν : Type} [Value ν] (v : ν) : Except Fault String := do
  pure (String.ofList (write 0 (← normalize v) []))

end BinaryQuadratic.Json
