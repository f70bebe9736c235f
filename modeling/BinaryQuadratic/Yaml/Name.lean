import BinaryQuadratic.Text
import BinaryQuadratic.Yaml.Cursor
import BinaryQuadratic.Yaml.Token

/-!
Names in YAML: of anchors, of tags and of directives.
-/

namespace BinaryQuadratic.Yaml

def isNameChar (c : Char) : Bool := c.isAlphanum || c = '-' || c = '_'

def name (c : Cursor) : Except Fault (String × Cursor) :=
  let chars := c.run isNameChar
  if chars.isEmpty then .error malformed else .ok (String.ofList chars, c.skip chars.length)

def anchorName (c : Cursor) : Except Fault (String × Cursor) := do
  let (text, after) ← name c
  if isGap after.peek || "?:,]\x7d%@`".toList.contains after.peek then pure (text, after)
  else throw malformed

def isTagChar (c : Char) : Bool := isNameChar c || ";/?:@&=+$,.!~*\u0027()[]".toList.contains c

def escapedBytes : Nat → Cursor → Except Fault (List UInt8 × Cursor)
  | 0, c => .ok ([], c)
  | fuel + 1, c => do
    if c.peek = '%' then
      let digits := c.next.rest.take 2
      match Text.readDigits? 16 digits with
      | some byte =>
        if digits.length = 2 then
          let (bytes, after) ← escapedBytes fuel (c.skip 3)
          pure (byte.toUInt8 :: bytes, after)
        else throw malformed
      | none => throw malformed
    else pure ([], c)

def tagChars : Nat → Cursor → Except Fault (List Char × Cursor)
  | 0, c => .ok ([], c)
  | fuel + 1, c => do
    let chars := c.run isTagChar
    let stop := c.skip chars.length
    if stop.peek = '%' then
      let (bytes, after) ← escapedBytes stop.bound stop
      match String.fromUTF8? ⟨bytes.toArray⟩ with
      | some text =>
        let (more, finish) ← tagChars fuel after
        pure (chars ++ text.toList ++ more, finish)
      | none => throw malformed
    else pure (chars, stop)

def tagText (c : Cursor) : Except Fault (String × Cursor) := do
  let (chars, after) ← tagChars c.bound c
  if chars.isEmpty then throw malformed else pure (String.ofList chars, after)

def tagHandle (c : Cursor) : Except Fault (String × Cursor) := do
  if c.peek ≠ '!' then throw malformed
  if c.peekAt 1 = ' ' then pure ("!", c.next)
  else
    let chars := c.next.run isNameChar
    if c.peekAt (chars.length + 1) = '!' then
      pure (String.ofList ('!' :: chars ++ ['!']), c.skip (chars.length + 2))
    else throw malformed

def tag (c : Cursor) : Except Fault (Token × Cursor) := do
  let (token, after) ← (if c.peekAt 1 = '<' then do
      let (text, after) ← tagText (c.skip 2)
      if after.peek = '>' then pure (.tag none text, after.next) else throw malformed
    else if isGap (c.peekAt 1) then pure (.tag none "!", c.next)
    else do
      let word := c.next.run fun x => !isSpaceOrEnd x
      let (handle, rest) ← if word.contains '!' then tagHandle c else pure ("!", c.next)
      let (text, after) ← tagText rest
      pure (.tag (some handle) text, after) : Except Fault (Token × Cursor))
  if isSpaceOrEnd after.peek then pure (token, after) else throw malformed

def number (c : Cursor) : Except Fault (Nat × Cursor) :=
  let digits := c.run Char.isDigit
  match Literal.readInt 10 digits with
  | .number n => .ok (n.toNat, c.skip digits.length)
  | .malformed => .error malformed
  | .tooLong count => .error (.readDigits count)

def version (c : Cursor) : Except Fault (Directive × Cursor) := do
  let (major, point) ← number c
  if point.peek ≠ '.' then throw malformed
  let (_, after) ← number point.next
  if isSpaceOrEnd after.peek then pure (.version major, after) else throw malformed

def handleMeaning (c : Cursor) : Except Fault (Directive × Cursor) := do
  let (handle, space) ← tagHandle c
  if space.peek ≠ ' ' then throw malformed
  let (meaning, after) ← tagText (space.skipRun (· = ' '))
  if isSpaceOrEnd after.peek then pure (.handle handle meaning, after) else throw malformed

def directive (c : Cursor) : Except Fault (Token × Cursor) := do
  let (text, after) ← name c
  if !isSpaceOrEnd after.peek then throw malformed
  let content := after.skipRun (· = ' ')
  let (found, rest) ← if text = "YAML" then version content
    else if text = "TAG" then handleMeaning content
    else pure (.other, content.skipRun fun x => !isBreakOrEnd x)
  pure (.directive found, ← rest.endLine)

end BinaryQuadratic.Yaml
