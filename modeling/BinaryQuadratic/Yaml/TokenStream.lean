import BinaryQuadratic.Yaml.BlockText
import BinaryQuadratic.Yaml.Name
import BinaryQuadratic.Yaml.PlainText
import BinaryQuadratic.Yaml.QuotedText

/-!
The tokens of a text in order. A scalar can turn out to be a key only when the colon behind it is
met, so each level of nesting keeps the place of the last token that may still be one, and the
tokens that begin a key are put there afterwards.
-/

namespace BinaryQuadratic.Yaml

/-- A place at which a key may begin. A required one must become a key. -/
structure KeyCandidate where
  place : Nat
  required : Bool
  index : Nat
  line : Nat
  column : Nat

def keyLengthLimit : Nat := 1024

/-- What is known between two tokens. Flow levels count the open brackets, and a candidate is
kept with its level. -/
structure Lexer where
  cursor : Cursor
  flowLevel : Nat
  indentation : Option Nat
  outerIndentations : List (Option Nat)
  keyAllowed : Bool
  candidates : List (Nat × KeyCandidate)
  tokens : Array Token
  finished : Bool

structure TokenStream where
  tokens : List Token
  fault : Fault

namespace Lexer

def start (s : String) : Lexer :=
  let cursor := Cursor.ofText s
  ⟨if cursor.peek = '\uFEFF' then cursor.next else cursor, 0, none, [], true, [], #[], false⟩

def inFlow (l : Lexer) : Bool := l.flowLevel ≠ 0

def emit (l : Lexer) (token : Token) (after : Cursor) : Lexer :=
  { l with tokens := l.tokens.push token, cursor := after }

def settled (l : Lexer) : Nat :=
  l.candidates.foldl (fun place candidate => min place candidate.2.place) l.tokens.size

def isStale (l : Lexer) (candidate : KeyCandidate) : Bool :=
  candidate.line ≠ l.cursor.line || keyLengthLimit < l.cursor.index - candidate.index

def dropStale (l : Lexer) : Except Fault Lexer :=
  if l.candidates.any fun candidate => l.isStale candidate.2 && candidate.2.required then
    .error malformed
  else .ok { l with candidates := l.candidates.filter fun candidate => !l.isStale candidate.2 }

def candidate? (l : Lexer) : Option KeyCandidate :=
  (l.candidates.find? fun candidate => candidate.1 = l.flowLevel).map Prod.snd

def dropCandidate (l : Lexer) : Except Fault Lexer :=
  if (l.candidate?.map KeyCandidate.required).getD false then .error malformed
  else .ok { l with candidates := l.candidates.filter fun candidate => candidate.1 ≠ l.flowLevel }

def saveCandidate (l : Lexer) : Except Fault Lexer :=
  if l.keyAllowed then do
    let cleared ← l.dropCandidate
    let required := !l.inFlow && l.indentation = some l.cursor.column
    let candidate : KeyCandidate :=
      ⟨l.tokens.size, required, l.cursor.index, l.cursor.line, l.cursor.column⟩
    pure { cleared with candidates := (l.flowLevel, candidate) :: cleared.candidates }
  else .ok l

def isDeeper (column : Nat) : Option Nat → Bool
  | none => true
  | some present => present < column

def openBlock (l : Lexer) (column place : Nat) (token : Token) : Lexer :=
  if isDeeper column l.indentation then
    { l with
      indentation := some column
      outerIndentations := l.indentation :: l.outerIndentations
      tokens := l.tokens.insertIdxIfInBounds place token }
  else l

def closeBlocks (column : Option Nat) : List (Option Nat) → Lexer → Lexer
  | [], l => l
  | outer :: rest, l =>
    let deeper : Bool := match l.indentation, column with
      | some present, some target => target < present
      | some _, none => true
      | none, _ => false
    if deeper then
      closeBlocks column rest
        { l with
          indentation := outer
          outerIndentations := rest
          tokens := l.tokens.push .blockEnd }
    else l

def closeAll (l : Lexer) : Lexer :=
  if l.inFlow then l else closeBlocks none l.outerIndentations l

def skipGaps : Nat → Lexer → Lexer
  | 0, l => l
  | fuel + 1, l =>
    let stop := (l.cursor.skipRun (· = ' ')).skipComment
    match stop.lineBreak? with
    | some (_, after) =>
      skipGaps fuel { l with cursor := after, keyAllowed := l.keyAllowed || !l.inFlow }
    | none => { l with cursor := stop }

def markDocument (l : Lexer) (read : Cursor → Except Fault (Token × Cursor)) :
    Except Fault Lexer := do
  let cleared ← l.closeAll.dropCandidate
  let (token, after) ← read l.cursor
  pure ({ cleared with keyAllowed := false }.emit token after)

def finish (l : Lexer) : Except Fault Lexer := do
  let cleared ← l.closeAll.dropCandidate
  pure { cleared with
    keyAllowed := false
    candidates := []
    tokens := cleared.tokens.push .streamEnd
    finished := true }

def openFlow (l : Lexer) (token : Token) : Except Fault Lexer := do
  let saved ← l.saveCandidate
  pure ({ saved with flowLevel := l.flowLevel + 1, keyAllowed := true }.emit token l.cursor.next)

def closeFlow (l : Lexer) (token : Token) : Except Fault Lexer := do
  let cleared ← l.dropCandidate
  pure ({ cleared with flowLevel := l.flowLevel - 1, keyAllowed := false }.emit token l.cursor.next)

def separateFlow (l : Lexer) : Except Fault Lexer := do
  let cleared ← l.dropCandidate
  pure ({ cleared with keyAllowed := true }.emit .flowEntry l.cursor.next)

def beginBlock (l : Lexer) (token : Token) : Except Fault Lexer :=
  if l.inFlow then .ok l
  else if l.keyAllowed then .ok (l.openBlock l.cursor.column l.tokens.size token)
  else .error malformed

def beginEntry (l : Lexer) : Except Fault Lexer := do
  let cleared ← (← l.beginBlock .blockSequenceStart).dropCandidate
  pure ({ cleared with keyAllowed := true }.emit .blockEntry l.cursor.next)

def beginKey (l : Lexer) : Except Fault Lexer := do
  let cleared ← (← l.beginBlock .blockMappingStart).dropCandidate
  pure ({ cleared with keyAllowed := !l.inFlow }.emit .key l.cursor.next)

def beginValue (l : Lexer) : Except Fault Lexer :=
  match l.candidate? with
  | some candidate =>
    let keyed := { l with
      candidates := l.candidates.filter fun other => other.1 ≠ l.flowLevel
      tokens := l.tokens.insertIdxIfInBounds candidate.place .key
      keyAllowed := false }
    let opened := if l.inFlow then keyed
      else keyed.openBlock candidate.column candidate.place .blockMappingStart
    .ok (opened.emit .value l.cursor.next)
  | none => do
    let cleared ← (← l.beginBlock .blockMappingStart).dropCandidate
    pure ({ cleared with keyAllowed := !l.inFlow }.emit .value l.cursor.next)

def content (l : Lexer) (read : Cursor → Except Fault (Token × Cursor)) : Except Fault Lexer := do
  let saved ← l.saveCandidate
  let (token, after) ← read l.cursor
  pure ({ saved with keyAllowed := false }.emit token after)

def quoted (style : QuoteStyle) (c : Cursor) : Except Fault (Token × Cursor) := do
  let (text, after) ← quotedScalar style c
  pure (.scalar ⟨text⟩ false, after)

def innerIndentation (l : Lexer) : Nat := (l.indentation.map (· + 1)).getD 0

def plain (l : Lexer) : Except Fault Lexer := do
  let saved ← l.saveCandidate
  let found := plainScalar l.inFlow l.innerIndentation l.cursor
  pure ({ saved with keyAllowed := found.lineEnded }.emit
    (.scalar (.ofChars found.text) true) found.after)

def block (l : Lexer) (folded : Bool) : Except Fault Lexer := do
  let cleared ← l.dropCandidate
  let (text, after) ← blockScalar folded (max 1 l.innerIndentation) l.cursor.next
  pure ({ cleared with keyAllowed := true }.emit (.scalar (.ofChars text) false) after)

def isIndicator (c : Char) : Bool :=
  isFlowMark c || "-?:#&*!|>\u0027\u0022%@`".toList.contains c

def beginsPlain (l : Lexer) : Bool :=
  let c := l.cursor.peek
  (!isGap c && !isIndicator c) ||
    (!isGap (l.cursor.peekAt 1) && (c = '-' || (!l.inFlow && (c = '?' || c = ':'))))

def token (l : Lexer) : Except Fault Lexer :=
  let c := l.cursor
  let first := c.peek
  let detached := l.inFlow || isGap (c.peekAt 1)
  if first = endMark then l.finish
  else if first = '%' && c.column = 0 then l.markDocument fun here => directive here.next
  else if c.column = 0 && c.atMarker '-' then
    l.markDocument fun here => .ok (.documentStart, here.skip 3)
  else if c.column = 0 && c.atMarker '.' then
    l.markDocument fun here => .ok (.documentEnd, here.skip 3)
  else if first = '[' then l.openFlow .flowSequenceStart
  else if first = '\x7b' then l.openFlow .flowMappingStart
  else if first = ']' then l.closeFlow .flowSequenceEnd
  else if first = '\x7d' then l.closeFlow .flowMappingEnd
  else if first = ',' then l.separateFlow
  else if first = '-' && isGap (c.peekAt 1) then l.beginEntry
  else if first = '?' && detached then l.beginKey
  else if first = ':' && detached then l.beginValue
  else if first = '*' then l.content fun here => do
    let (text, after) ← anchorName here.next
    pure (.reference text, after)
  else if first = '&' then l.content fun here => do
    let (text, after) ← anchorName here.next
    pure (.anchor text, after)
  else if first = '!' then l.content tag
  else if first = '|' && !l.inFlow then l.block false
  else if first = '>' && !l.inFlow then l.block true
  else if first = '\u0027' then l.content (quoted .single)
  else if first = '\u0022' then l.content (quoted .double)
  else if l.beginsPlain then l.plain
  else .error malformed

def step (l : Lexer) : Except Fault Lexer := do
  let fresh ← (skipGaps l.cursor.bound l).dropStale
  let closed := if fresh.inFlow then fresh
    else closeBlocks (some fresh.cursor.column) fresh.outerIndentations fresh
  closed.token

/-- Reads tokens to the end of the text or to a fault. Before a fault the tokens count that could
no longer change. -/
def steps : Nat → Nat → Lexer → TokenStream
  | 0, _, l => ⟨l.tokens.toList, malformed⟩
  | fuel + 1, readable, l =>
    match l.dropStale with
    | .error fault => ⟨(l.tokens.take readable).toList, fault⟩
    | .ok fresh =>
      match fresh.step with
      | .error fault => ⟨(fresh.tokens.take fresh.settled).toList, fault⟩
      | .ok next =>
        if next.finished then ⟨next.tokens.toList, .document .grammar⟩
        else steps fuel fresh.settled next

end Lexer

/-- The tokens of a text. Each step but the last consumes a character. -/
def TokenStream.ofText (s : String) : TokenStream :=
  let l := Lexer.start s
  Lexer.steps (l.cursor.bound + 1) 0 l

end BinaryQuadratic.Yaml
