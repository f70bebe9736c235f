import BinaryQuadratic.Yaml.Cursor

/-!
Block scalars: texts that are given by their indentation, with their lines kept or folded.
-/

namespace BinaryQuadratic.Yaml

inductive Chomping where
  | clip
  | strip
  | keep
  deriving DecidableEq, Repr

structure BlockHeader where
  chomping : Chomping
  increment : Option Nat

def chomping? (c : Char) : Option Chomping :=
  if c = '+' then some .keep else if c = '-' then some .strip else none

def incrementMark (c : Cursor) : Except Fault (Option Nat × Cursor) :=
  if c.peek.isDigit then
    if c.peek = '0' then .error malformed else .ok (some (c.peek.toNat - 48), c.next)
  else .ok (none, c)

def blockHeader (c : Cursor) : Except Fault (BlockHeader × Cursor) := do
  let (header, after) ← (match chomping? c.peek with
    | some chomping => do
      let (increment, after) ← incrementMark c.next
      pure (⟨chomping, increment⟩, after)
    | none => do
      let (increment, after) ← incrementMark c
      match increment, chomping? after.peek with
      | some _, some chomping => pure (⟨chomping, increment⟩, after.next)
      | _, _ => pure (⟨.clip, increment⟩, after) : Except Fault (BlockHeader × Cursor))
  if isSpaceOrEnd after.peek then pure (header, ← after.endLine) else throw malformed

def indentTo (column : Nat) (c : Cursor) : Cursor :=
  c.skip (min (c.run (· = ' ')).length (column - c.column))

def blockBreaks (column : Nat) : Nat → Cursor → List Char × Cursor
  | 0, c => ([], c)
  | fuel + 1, c =>
    let content := indentTo column c
    match content.lineBreak? with
    | none => ([], content)
    | some (mark, after) =>
      let (others, stop) := blockBreaks column fuel after
      (mark :: others, stop)

def blockIndentation : Nat → Nat → Cursor → Nat × List Char × Cursor
  | 0, widest, c => (widest, [], c)
  | fuel + 1, widest, c =>
    let content := c.skipRun (· = ' ')
    let reached := max widest content.column
    match content.lineBreak? with
    | none => (reached, [], content)
    | some (mark, after) =>
      let (found, others, stop) := blockIndentation fuel reached after
      (found, mark :: others, stop)

def chomp (chomping : Chomping) (lastBreak : Option Char) (others : List Char) : List Char :=
  match chomping with
  | .strip => []
  | .clip => lastBreak.toList
  | .keep => lastBreak.toList ++ others

/-- The joint of two lines. Folding spares lines that begin with a blank. -/
def blockJoint (folded flush : Bool) (lineBreak : Option Char) (others : List Char) : List Char :=
  if folded && lineBreak = some '\n' && flush then (if others.isEmpty then [' '] else [])
  else lineBreak.toList

def blockLines (folded : Bool) (chomping : Chomping) (column : Nat) :
    Nat → Option Char → List Char → Cursor → List Char × Cursor
  | 0, _, _, c => ([], c)
  | fuel + 1, lastBreak, breaks, c =>
    if c.column = column && c.peek ≠ endMark then
      let line := c.run fun x => !isBreakOrEnd x
      let stop := c.skip line.length
      let (lineBreak, after) := match stop.lineBreak? with
        | some (mark, after) => (some mark, after)
        | none => (none, stop)
      let (others, next) := blockBreaks column after.bound after
      let flush := !isBlank c.peek && !isBlank next.peek
      let joint := if next.column = column && next.peek ≠ endMark then
        blockJoint folded flush lineBreak others else []
      let (more, finish) := blockLines folded chomping column fuel lineBreak others next
      (breaks ++ line ++ joint ++ more, finish)
    else (chomp chomping lastBreak breaks, c)

def blockScalar (folded : Bool) (least : Nat) (c : Cursor) : Except Fault (List Char × Cursor) := do
  let (header, body) ← blockHeader c
  let (column, breaks, start) := match header.increment with
    | some increment =>
      let column := least + increment - 1
      (column, blockBreaks column body.bound body)
    | none =>
      let (widest, found) := blockIndentation body.bound 0 body
      (max least widest, found)
  pure (blockLines folded header.chomping column start.bound none breaks start)

end BinaryQuadratic.Yaml
