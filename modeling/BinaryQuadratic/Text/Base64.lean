import BinaryQuadratic.Text

/-!
Bytes that are written with sixty-four digits. Four digits stand for three bytes; characters that
are no digits are passed over, and padding ends the text once it completes a group.
-/

namespace BinaryQuadratic.Base64

def digit? (c : Char) : Option Nat :=
  if 'A' ≤ c && c ≤ 'Z' then some (c.toNat - 65)
  else if 'a' ≤ c && c ≤ 'z' then some (c.toNat - 71)
  else if '0' ≤ c && c ≤ '9' then some (c.toNat + 4)
  else if c = '+' then some 62
  else if c = '/' then some 63
  else none

/-- A group of digits that is not complete: their number, the bits that are left of the last
one, and the padding directly behind it. -/
structure Group where
  count : Nat
  bits : Nat
  padding : Nat

def Group.empty : Group := ⟨0, 0, 0⟩

def Group.add (g : Group) (digit : Nat) : Option UInt8 × Group :=
  if g.count = 0 then (none, ⟨1, digit, 0⟩)
  else if g.count = 1 then (some (g.bits * 4 + digit / 16).toUInt8, ⟨2, digit % 16, 0⟩)
  else if g.count = 2 then (some (g.bits * 16 + digit / 4).toUInt8, ⟨3, digit % 4, 0⟩)
  else (some (g.bits * 64 + digit).toUInt8, empty)

def decodeFrom (g : Group) : List Char → Option (List UInt8)
  | [] => if g.count = 0 then some [] else none
  | c :: rest =>
    if c = '=' then
      if 2 ≤ g.count then
        if 4 ≤ g.count + g.padding + 1 then some []
        else decodeFrom { g with padding := g.padding + 1 } rest
      else decodeFrom g rest
    else
      match digit? c with
      | none => decodeFrom g rest
      | some digit =>
        let (byte, next) := g.add digit
        (decodeFrom next rest).map (byte.toList ++ ·)

def decode? (cs : List Char) : Option (List UInt8) := decodeFrom .empty cs

end BinaryQuadratic.Base64
