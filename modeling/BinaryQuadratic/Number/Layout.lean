import BinaryQuadratic.Number.Shortest

/-!
Written numbers. The digits are those of the shortest decimal; a layout says where positional
writing ends and how the values that are no numbers are spelled.
-/

namespace BinaryQuadratic.Binary64

/-- How numbers are laid out. The leading digit is written positionally at the positions from
`lowest` on and below `beyond`, and with an exponent elsewhere. -/
structure Layout where
  lowest : Int
  beyond : Int
  notANumber : String
  infinity : String

def Layout.plain : Layout := ⟨-4, 16, "nan", "inf"⟩

def Layout.document : Layout := ⟨-4, 16, "NaN", "Infinity"⟩

def Layout.commaSeparated : Layout := ⟨-4, 16, "", "inf"⟩

def positional (digits : List Char) (whole : Int) : List Char :=
  if whole ≤ 0 then '0' :: '.' :: (List.replicate (-whole).toNat '0' ++ digits)
  else
    let size := whole.toNat
    let front := digits.take size ++ List.replicate (size - digits.length) '0'
    let back := digits.drop size
    front ++ '.' :: (if back.isEmpty then ['0'] else back)

/-- One digit before the point, no point behind a single digit, and an exponent with a sign and
at least two digits. -/
def scientific (digits : List Char) (position : Int) : List Char :=
  let mantissa := match digits with
    | [] => ['0']
    | [d] => [d]
    | d :: rest => d :: '.' :: rest
  let size := (toString position.natAbs).toList
  let padded := if size.length < 2 then '0' :: size else size
  mantissa ++ 'e' :: (if position < 0 then '-' else '+') :: padded

def Layout.magnitude (layout : Layout) (mantissa : Nat) (exponent : Int) : List Char :=
  if mantissa = 0 then ['0', '.', '0']
  else
    let d := shortest mantissa exponent
    let digits := (toString d.digits).toList
    let position := d.exponent + digits.length - 1
    if layout.lowest ≤ position && position < layout.beyond then positional digits (position + 1)
    else scientific digits position

def signed (negative : Bool) (cs : List Char) : List Char :=
  if negative then '-' :: cs else cs

def Layout.render (layout : Layout) (x : Float) : String :=
  match parts x with
  | .notANumber => layout.notANumber
  | .infinite negative => String.ofList (signed negative layout.infinity.toList)
  | .finite negative mantissa exponent =>
    String.ofList (signed negative (layout.magnitude mantissa exponent))

end BinaryQuadratic.Binary64
