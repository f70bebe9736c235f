import BinaryQuadratic.Text
import BinaryQuadratic.Yaml.Cursor

/-!
Quoted scalars. Between single quotes only a doubled quote stands for something else; between
double quotes a backslash begins an escape. Lines are folded in both.
-/

namespace BinaryQuadratic.Yaml

inductive QuoteStyle where
  | single
  | double
  deriving DecidableEq, Repr

def QuoteStyle.mark : QuoteStyle → Char
  | .single => '\u0027'
  | .double => '\u0022'

def isOrdinary (c : Char) : Bool :=
  !(c = '\u0027' || c = '\u0022' || c = '\\' || isGap c)

def quotedBreaks : Nat → Cursor → Except Fault (List Char × Cursor)
  | 0, c => .ok ([], c)
  | fuel + 1, c =>
    if c.atSeparator then .error malformed
    else
      let content := c.skipRun isBlank
      match content.lineBreak? with
      | none => .ok ([], content)
      | some (mark, after) => do
        let (others, stop) ← quotedBreaks fuel after
        pure (mark :: others, stop)

def shortEscapes : List (Char × Char) :=
  [('0', '\x00'), ('a', '\x07'), ('b', '\x08'), ('t', '\t'), ('\t', '\t'), ('n', '\n'),
    ('v', '\x0b'), ('f', '\x0c'), ('r', '\r'), ('e', '\x1b'), (' ', ' '), ('\u0022', '\u0022'),
    ('\\', '\\'), ('/', '/'), ('N', '\u0085'), ('_', '\u00a0'), ('L', '\u2028'), ('P', '\u2029')]

def numberedEscapes : List (Char × Nat) := [('x', 2), ('u', 4), ('U', 8)]

def pointOfCode (n : Nat) : Except Fault CodePoint :=
  if 0x7FFFFFFF < n then .error .characterWord
  else if CodePoint.limit ≤ n then .error .characterRange
  else .ok (.ofNat n)

def points (cs : List Char) : List CodePoint := cs.map .char

def escape (c : Cursor) : Except Fault (List CodePoint × Cursor) :=
  match shortEscapes.find? fun pair => pair.1 = c.peek with
  | some (_, meaning) => .ok ([.char meaning], c.next)
  | none =>
    match numberedEscapes.find? fun pair => pair.1 = c.peek with
    | some (_, width) =>
      let digits := c.next.rest.take width
      if digits.length = width then
        match Text.readDigits? 16 digits with
        | some code => do pure ([← pointOfCode code], c.skip (width + 1))
        | none => .error malformed
      else .error malformed
    | none =>
      match c.lineBreak? with
      | some (_, after) => do
        let (breaks, stop) ← quotedBreaks after.bound after
        pure (points breaks, stop)
      | none => .error malformed

def quotedWord (style : QuoteStyle) : Nat → Cursor → Except Fault (List CodePoint × Cursor)
  | 0, c => .ok ([], c)
  | fuel + 1, c => do
    let ordinary := c.run isOrdinary
    let stop := c.skip ordinary.length
    let mark := stop.peek
    if style = .double && mark = '\\' then
      let (text, after) ← escape stop.next
      let (more, finish) ← quotedWord style fuel after
      pure (points ordinary ++ text ++ more, finish)
    else if style = .single && mark = '\u0027' && stop.peekAt 1 = '\u0027' then
      let (more, finish) ← quotedWord style fuel (stop.skip 2)
      pure (points ordinary ++ .char mark :: more, finish)
    else if isGap mark || mark = style.mark then pure (points ordinary, stop)
    else
      let (more, finish) ← quotedWord style fuel stop.next
      pure (points ordinary ++ .char mark :: more, finish)

def quotedGap (c : Cursor) : Except Fault (List CodePoint × Cursor) :=
  let blanks := c.run isBlank
  let content := c.skip blanks.length
  if content.peek = endMark then .error malformed
  else
    match content.lineBreak? with
    | none => .ok (points blanks, content)
    | some (mark, after) => do
      let (others, stop) ← quotedBreaks after.bound after
      pure (points (foldBreaks mark others), stop)

def quotedWords (style : QuoteStyle) : Nat → Cursor → Except Fault (List CodePoint × Cursor)
  | 0, _ => .error malformed
  | fuel + 1, c => do
    let (word, stop) ← quotedWord style c.bound c
    if stop.peek = style.mark then pure (word, stop.next)
    else
      let (gap, next) ← quotedGap stop
      let (more, finish) ← quotedWords style fuel next
      pure (word ++ gap ++ more, finish)

def quotedScalar (style : QuoteStyle) (c : Cursor) : Except Fault (List CodePoint × Cursor) :=
  quotedWords style c.bound c.next

end BinaryQuadratic.Yaml
