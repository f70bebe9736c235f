import BinaryQuadratic.Yaml.Cursor

/-!
Plain scalars: texts without quotes. They end at a comment, at a colon before a gap and, between
brackets, at the marks of the brackets; further lines belong to them while they are indented.
-/

namespace BinaryQuadratic.Yaml

def isFlowMark (c : Char) : Bool := c = ',' || c = '[' || c = ']' || c = '\x7b' || c = '\x7d'

def plainWord (flow : Bool) : List Char → List Char
  | [] => []
  | c :: rest =>
    let follower := rest.headD endMark
    if isGap c || (c = ':' && (isGap follower || (flow && isFlowMark follower))) ||
        (flow && (isFlowMark c || c = '?')) then []
    else c :: plainWord flow rest

def plainBreaks : Nat → Cursor → Option (List Char) × Cursor
  | 0, c => (some [], c)
  | fuel + 1, c =>
    if c.atSeparator then (none, c)
    else
      let content := c.skipRun (· = ' ')
      match content.lineBreak? with
      | none => (some [], content)
      | some (mark, after) =>
        let (others, stop) := plainBreaks fuel after
        (others.map (mark :: ·), stop)

/-- What stands behind a word: the text that joins the next word to it, empty where the scalar
ends, and whether a line has ended. -/
structure PlainGap where
  joint : List Char
  lineEnded : Bool
  after : Cursor

def plainGap (c : Cursor) : PlainGap :=
  let blanks := c.run (· = ' ')
  let content := c.skip blanks.length
  match content.lineBreak? with
  | none => ⟨blanks, false, content⟩
  | some (mark, after) =>
    match plainBreaks after.bound after with
    | (some others, stop) => ⟨foldBreaks mark others, true, stop⟩
    | (none, stop) => ⟨[], true, stop⟩

structure PlainScalar where
  text : List Char
  lineEnded : Bool
  after : Cursor

/-- The words of a plain scalar from the cursor on, each line of which has at least the given
indentation unless it stands between brackets. -/
def plainWords (flow : Bool) (indentation : Nat) : Nat → Bool → Cursor → PlainScalar
  | 0, lineEnded, c => ⟨[], lineEnded, c⟩
  | fuel + 1, lineEnded, c =>
    let word := if c.peek = '#' then [] else plainWord flow c.rest
    if word.isEmpty then ⟨[], lineEnded, c⟩
    else
      let gap := plainGap (c.skip word.length)
      if gap.joint.isEmpty || gap.after.peek = '#' ||
          (!flow && gap.after.column < indentation) then ⟨word, gap.lineEnded, gap.after⟩
      else
        let more := plainWords flow indentation fuel gap.lineEnded gap.after
        if more.text.isEmpty then ⟨word, more.lineEnded, more.after⟩
        else ⟨word ++ gap.joint ++ more.text, more.lineEnded, more.after⟩

def plainScalar (flow : Bool) (indentation : Nat) (c : Cursor) : PlainScalar :=
  plainWords flow indentation c.bound false c

end BinaryQuadratic.Yaml
