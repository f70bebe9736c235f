import BinaryQuadratic.Number.Literal
import BinaryQuadratic.Text.Quoted

/-!
Options of the command line. An option can be shortened to a beginning that no other option has,
and its argument can stand behind an equals sign or as the next word.
-/

namespace BinaryQuadratic.CommandLine

inductive Flag where
  | help
  | config
  | out
  | recordLength
  | solverKind
  deriving DecidableEq, Repr

namespace Flag

def all : List Flag := [help, config, out, recordLength, solverKind]

def names : Flag → List String
  | help => ["-h", "--help"]
  | config => ["--config"]
  | out => ["--out"]
  | recordLength => ["--record_length"]
  | solverKind => ["--solver_kind"]

def label (flag : Flag) : String := "/".intercalate flag.names

def spellings : List (String × Flag) :=
  all.flatMap fun flag => flag.names.map fun name => (name, flag)

def ofText? (text : Text) : Option Flag :=
  (spellings.find? fun spelling => spelling.1 = text).map Prod.snd

end Flag

structure Options where
  config : Option Text
  out : Option Text
  recordLength : Option Int
  solverKind : Option Text

def Options.empty : Options := ⟨none, none, none, none⟩

inductive Refusal where
  | help
  | usage (message : Text)
  deriving DecidableEq, Repr

/-- What is written together with the name of an option: nothing, a text behind an equals sign,
or further letters. -/
inductive Attachment where
  | none
  | value (text : Text)
  | letters (text : Text)
  deriving DecidableEq, Repr

inductive Word where
  | argument
  | option (flag : Flag) (attachment : Attachment)
  | unknown
  deriving DecidableEq, Repr

def splitEquals (word : Text) : Option (Text × Text) :=
  match word.points.dropWhile (· ≠ .char '=') with
  | _ :: value => some (⟨word.points.takeWhile (· ≠ .char '=')⟩, ⟨value⟩)
  | [] => none

def begins (start : Text) (name : String) : Bool :=
  start.points.isPrefixOf (Text.ofString name).points

/-- The spellings that a word can be short for, with what is attached. The letter behind a single
dash can be followed by further letters. -/
def candidates (word : Text) : List ((String × Flag) × Attachment) :=
  match word.points with
  | .char '-' :: .char '-' :: _ =>
    let (start, attachment) := match splitEquals word with
      | some (name, value) => (name, Attachment.value value)
      | none => (word, Attachment.none)
    (Flag.spellings.filter fun spelling => begins start spelling.1).map
      fun spelling => (spelling, attachment)
  | .char '-' :: letter :: rest =>
    Flag.spellings.filterMap fun spelling =>
      if Text.ofString spelling.1 = ⟨[.char '-', letter]⟩ then some (spelling, .letters ⟨rest⟩)
      else if begins word spelling.1 then some (spelling, .none)
      else none
  | _ => []

/-- A number with a minus sign, and perhaps a line feed behind it, is an argument. -/
def isNegativeNumber (word : List Char) : Bool :=
  let line := if word.getLast? = some '\n' then word.dropLast else word
  match line with
  | '-' :: rest =>
    let whole := rest.takeWhile fun c => (Text.decimalDigit? c).isSome
    match rest.drop whole.length with
    | [] => !whole.isEmpty
    | '.' :: fraction => !fraction.isEmpty && fraction.all fun c => (Text.decimalDigit? c).isSome
    | _ => false
  | _ => false

def shortened (word : Text) : Except Refusal Word :=
  match candidates word with
  | [((_, flag), attachment)] => .ok (.option flag attachment)
  | [] =>
    .ok (if isNegativeNumber word.chars || word.chars.contains ' ' then .argument else .unknown)
  | several =>
    .error (.usage ("ambiguous option: " ++ word ++ " could match " ++
      ", ".intercalate (several.map fun candidate => candidate.1.1)))

def classify (word : Text) : Except Refusal Word :=
  match word.points with
  | .char '-' :: _ :: _ =>
    match Flag.ofText? word, splitEquals word with
    | some flag, _ => .ok (.option flag .none)
    | none, some (start, value) =>
      (Flag.ofText? start).elim (shortened word) fun flag => .ok (.option flag (.value value))
    | none, none => shortened word
  | _ => .ok .argument

def endOfOptions : Text := "--"

def classifyAll : List Text → Except Refusal (List (Text × Word))
  | [] => .ok []
  | word :: rest =>
    if word = endOfOptions then
      .ok ((word, .unknown) :: rest.map fun other => (other, .argument))
    else do
      let role ← classify word
      pure ((word, role) :: (← classifyAll rest))

def argumentError (flag : Flag) (message : String) : Refusal :=
  .usage (s!"argument {flag.label}: " ++ message)

def Options.set (options : Options) (flag : Flag) (text : Text) : Except Refusal Options :=
  match flag with
  | .help => .ok options
  | .config => .ok { options with config := some text }
  | .out => .ok { options with out := some text }
  | .solverKind => .ok { options with solverKind := some text }
  | .recordLength =>
    match Literal.readInt? text.chars with
    | some n => .ok { options with recordLength := some n }
    | none => .error (argumentError flag ("invalid int value: " ++ Text.quote text))

def needless (flag : Flag) (value : Text) : Refusal :=
  argumentError flag ("ignored explicit argument " ++ Text.quote value)

/-- Letters behind the one that asks for help are options themselves. The help is given when all of
them have been looked at or one is unknown; a dash or an equals sign among them is an error. -/
def helpLetters : List CodePoint → Refusal
  | [] => .help
  | .char '-' :: rest => needless .help ⟨.char '-' :: rest⟩
  | .char 'h' :: .char '=' :: value => needless .help ⟨value⟩
  | .char 'h' :: rest => helpLetters rest
  | _ => .help

def helpWith : Attachment → Refusal
  | .none => .help
  | .value text => needless .help text
  | .letters text => helpLetters text.points

def collect (options : Options) (unused : List Text) :
    List (Text × Word) → Except Refusal (Options × List Text)
  | [] => .ok (options, unused)
  | (_, .option .help attachment) :: _ => .error (helpWith attachment)
  | (_, .option flag (.value text)) :: rest => do
    collect (← options.set flag text) unused rest
  | (_, .option flag (.letters text)) :: rest => do
    collect (← options.set flag text) unused rest
  | (_, .option flag .none) :: (text, .argument) :: rest => do
    collect (← options.set flag text) unused rest
  | (_, .option flag .none) :: _ => .error (argumentError flag "expected one argument")
  | (word, _) :: rest => collect options (unused ++ [word]) rest

def Options.parse (arguments : List Text) : Except Refusal Options := do
  let (options, unused) ← collect .empty [] (← classifyAll arguments)
  if options.config.isNone then
    throw (.usage s!"the following arguments are required: {Flag.config.label}")
  if !unused.isEmpty then
    throw (.usage ("unrecognized arguments: " ++ Text.intercalate " " unused))
  pure options

end BinaryQuadratic.CommandLine
