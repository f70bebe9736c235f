import BinaryQuadratic.Number
import BinaryQuadratic.Value

/-!
The order in which the members of a set are met. A set of numbers is laid out in a table whose size
is a power of two: each number goes to the place that its residue names, or to the next free one of
a fixed sequence, and the members are met from the first place on. Other members are met as they
were written. Equal numbers have the same residue modulo a prime, whatever their kind: an integral
binary64 number that of the integer, and a fraction the quotient in the residue field.
-/

namespace BinaryQuadratic

namespace Number

/-- The exponent of the prime: the powers of two repeat themselves after so many. -/
def residueBits : Nat := 61

def residuePrime : Nat := Nat.pow 2 residueBits - 1

def magnitudeResidue (mantissa : Nat) (exponent : Int) : Nat :=
  mantissa * Nat.pow 2 (exponent.emod residueBits).toNat % residuePrime

def infiniteResidue : Nat := 314159

/-- The residue with the sign of the number. The value -1 is left out, and -2 stands for it. -/
def signedResidue (negative : Bool) (residue : Nat) : Int :=
  if negative && residue = 1 then -2 else Binary64.applySign negative residue

def residue? : Number → Option Int
  | int n => some (signedResidue (decide (n < 0)) (magnitudeResidue n.natAbs 0))
  | float x =>
    match Binary64.parts x with
    | .notANumber => none
    | .infinite negative => some (signedResidue negative infiniteResidue)
    | .finite negative mantissa exponent =>
      some (signedResidue negative (magnitudeResidue mantissa exponent))

end Number

namespace MemberOrder

def tableSize (count : Nat) : Nat :=
  if count < 5 then 8 else Nat.pow 2 ((2 * count).log2 + 1)

def stretch (size start : Nat) : List Nat :=
  List.range' start (if start + 9 < size then 10 else 1)

/-- The first free place from one on. What is left of the residue scatters the places that come
next; when nothing is left the sequence runs through the whole table. -/
def freePlace (taken : List Nat) (size : Nat) : Nat → Nat → Nat → Nat
  | 0, start, _ => start
  | fuel + 1, start, scatter =>
    match (stretch size start).find? fun place => !taken.contains place with
    | some place => place
    | none =>
      let left := scatter / 32
      freePlace taken size fuel ((5 * start + 1 + left) % size) left

def wordOf (residue : Int) : Nat := (residue.emod (Nat.pow 2 64)).toNat

def place {α : Type} (size : Nat) (placed : List (Nat × α)) (member : α × Int) :
    List (Nat × α) :=
  let word := wordOf member.2
  (freePlace (placed.map Prod.fst) size (size + 16) (word % size) word, member.1) :: placed

def withResidue? (member : Scalar) : Option (Scalar × Int) := do
  pure (member, ← (← member.number?).residue?)

def arrange (members : List Scalar) : List Scalar :=
  match members.mapM withResidue? with
  | none => members
  | some known =>
    let placed := known.foldl (place (tableSize members.length)) []
    (placed.mergeSort fun a b => a.1 ≤ b.1).map Prod.snd

end MemberOrder

end BinaryQuadratic
