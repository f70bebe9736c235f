import BinaryQuadratic.Fault

/-!
Positions in a YAML text: what is left of it, and the line and column that have been reached.
-/

namespace BinaryQuadratic.Yaml

/-- No text that is read holds the null character, which stands for the end. -/
def endMark : Char := '\x00'

def isBreak (c : Char) : Bool :=
  c = '\n' || c = '\r' || c = '\u0085' || c = '\u2028' || c = '\u2029'

def isBreakOrEnd (c : Char) : Bool := c = endMark || isBreak c

def isBlank (c : Char) : Bool := c = ' ' || c = '\t'

def isGap (c : Char) : Bool := isBlank c || isBreakOrEnd c

def isSpaceOrEnd (c : Char) : Bool := c = ' ' || isBreakOrEnd c

def isAllowed (c : Char) : Bool :=
  let n := c.toNat
  n = 9 || n = 10 || n = 13 || (0x20 ≤ n && n ≤ 0x7E) || n = 0x85 ||
    (0xA0 ≤ n && n ≤ 0xD7FF) || (0xE000 ≤ n && n ≤ 0xFFFD) || 0x10000 ≤ n

structure Cursor where
  rest : List Char
  index : Nat
  line : Nat
  column : Nat

def malformed : Fault := .document .token

namespace Cursor

def ofText (s : String) : Cursor := ⟨s.toList, 0, 0, 0⟩

def peek (c : Cursor) : Char := c.rest.headD endMark

def peekAt (c : Cursor) (distance : Nat) : Char := c.rest.getD distance endMark

/-- A byte order mark takes no column, and a carriage return before a line feed ends no line. -/
def next (c : Cursor) : Cursor :=
  match c.rest with
  | [] => c
  | first :: rest =>
    if isBreak first && !(first = '\r' && rest.headD endMark = '\n') then
      ⟨rest, c.index + 1, c.line + 1, 0⟩
    else if first = '\uFEFF' then ⟨rest, c.index + 1, c.line, c.column⟩
    else ⟨rest, c.index + 1, c.line, c.column + 1⟩

def skip : Nat → Cursor → Cursor
  | 0, c => c
  | count + 1, c => skip count c.next

def run (c : Cursor) (member : Char → Bool) : List Char := c.rest.takeWhile member

def skipRun (c : Cursor) (member : Char → Bool) : Cursor := c.skip (c.run member).length

/-- The line break at the cursor, and what follows it. Only the line and paragraph separators are
kept as they are. -/
def lineBreak? (c : Cursor) : Option (Char × Cursor) :=
  match c.rest with
  | '\r' :: '\n' :: _ => some ('\n', c.skip 2)
  | first :: _ =>
    if first = '\u2028' || first = '\u2029' then some (first, c.next)
    else if isBreak first then some ('\n', c.next)
    else none
  | [] => none

def atMarker (c : Cursor) (mark : Char) : Bool :=
  c.peek = mark && c.peekAt 1 = mark && c.peekAt 2 = mark && isGap (c.peekAt 3)

def atSeparator (c : Cursor) : Bool := c.atMarker '-' || c.atMarker '.'

def bound (c : Cursor) : Nat := c.rest.length + 1

def skipComment (c : Cursor) : Cursor :=
  if c.peek = '#' then c.skipRun fun x => !isBreakOrEnd x else c

def endLine (c : Cursor) : Except Fault Cursor :=
  let tail := (c.skipRun (· = ' ')).skipComment
  if isBreakOrEnd tail.peek then .ok ((tail.lineBreak?.map Prod.snd).getD tail)
  else .error malformed

end Cursor

def foldBreaks (first : Char) (others : List Char) : List Char :=
  if first ≠ '\n' then first :: others
  else if others.isEmpty then [' ']
  else others

end BinaryQuadratic.Yaml
