import BinaryQuadratic.Text
import BinaryQuadratic.Text.Printable

/-!
Quoted texts and bytes in messages. A text stands between single quotes, or between double quotes
where it holds a single quote and no double quote; what has no visible form is escaped. Bytes are
written in the same way behind a letter, with escapes for all that is not visible ASCII.
-/

namespace BinaryQuadratic.Text

def quoteMark (codes : List Nat) : Char :=
  if codes.contains 39 && !codes.contains 34 then '\u0022' else '\u0027'

def shortQuote? (mark : Char) (code : Nat) : Option (List Char) :=
  if code = mark.toNat then some ['\\', mark]
  else if code = 92 then some ['\\', '\\']
  else if code = 10 then some ['\\', 'n']
  else if code = 13 then some ['\\', 'r']
  else if code = 9 then some ['\\', 't']
  else none

def numberedQuote (code : Nat) : List Char :=
  if code < 0x100 then '\\' :: 'x' :: hexDigits 2 code
  else if code < 0x10000 then '\\' :: 'u' :: hexDigits 4 code
  else '\\' :: 'U' :: hexDigits 8 code

def quotePoint (mark : Char) (p : CodePoint) : List Char :=
  match shortQuote? mark p.toNat with
  | some escape => escape
  | none => if isPrintable p.toNat then [p.toChar] else numberedQuote p.toNat

def quote (t : Text) : String :=
  let mark := quoteMark t.codes
  String.ofList (mark :: (t.points.flatMap (quotePoint mark) ++ [mark]))

def quoteByte (mark : Char) (byte : UInt8) : List Char :=
  let code := byte.toNat
  match shortQuote? mark code with
  | some escape => escape
  | none => if 32 ≤ code && code < 127 then [Char.ofNat code] else numberedQuote code

def quoteBytes (bytes : List UInt8) : String :=
  let mark := quoteMark (bytes.map UInt8.toNat)
  String.ofList ('b' :: mark :: (bytes.flatMap (quoteByte mark) ++ [mark]))

end BinaryQuadratic.Text
