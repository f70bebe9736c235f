import BinaryQuadratic.CommandLine.Options
import BinaryQuadratic.Run
import BinaryQuadratic.Yaml.Construction

/-!
The command line: a configuration is read, changed as the options say and run, and its record is
shown.
-/

namespace BinaryQuadratic.CommandLine

structure Response where
  output : Text
  errors : Text
  outcome : Except Fault Nat

def programName : String := "qubo-embedder"

def usage : String :=
  s!"usage: {programName} [-h] --config CONFIG [--out OUT]\n" ++
    "                     [--record_length RECORD_LENGTH]\n" ++
    "                     [--solver_kind SOLVER_KIND]\n"

def helpText : String :=
  usage ++ "\nExhaustively sample a QUBO problem.\n\noptions:\n" ++
    "  -h, --help            show this help message and exit\n" ++
    "  --config CONFIG       Path to YAML problem config\n" ++
    "  --out OUT             Output directory (default: results/<run_name>)\n" ++
    "  --record_length RECORD_LENGTH\n" ++
    "                        Override record_length\n" ++
    "  --solver_kind SOLVER_KIND\n" ++
    "                        Override solver.kind (simulator, dwave)\n"

def refuse : Refusal → Response
  | .help => ⟨helpText, "", .ok 0⟩
  | .usage message => ⟨"", usage ++ programName ++ ": error: " ++ message ++ "\n", .ok 2⟩

def withSolverKind (cfg : SharedDatum) (kind : Text) : Except Fault SharedDatum :=
  match cfg.table? cfg.root with
  | none => throw .notATable
  | some (index, fields) =>
    let (prepared, part) := match Fields.lookup fields "solver" with
      | some part => (cfg, part)
      | none =>
        let (extended, part) := cfg.addTable
        (extended.setField index "solver" part, part)
    match prepared.table? part with
    | some (inner, _) =>
      pure (prepared.setField inner "kind" (.scalar (.text (Text.lowerCase kind))))
    | none => throw .wrongKind

def withRecordLength (cfg : SharedDatum) (length : Int) : Except Fault SharedDatum :=
  match cfg.table? cfg.root with
  | some (index, _) => pure (cfg.setField index "record_length" (.scalar (.int length)))
  | none => throw .wrongKind

def configuration (options : Options) (text : String) : Except Fault SharedDatum := do
  let found ← Yaml.load text
  let loaded := if Value.isTruthy found then found else .emptyTable
  let chosen ← options.solverKind.elim (pure loaded) (withSolverKind loaded)
  options.recordLength.elim (pure chosen) (withRecordLength chosen)

def pathArgument {ν : Type} [Value ν] (v : ν) : Except Fault PathName :=
  match Value.layer v with
  | .scalar (.text t) => .ok (PathName.parse t)
  | _ => .error .wrongKind

/-- The directory of a run: the given one, or one that has the name of the run. A run without a
name takes one from the time of its start. -/
def outDirectory (options : Options) (cfg : SharedDatum) (stamp : String) :
    Except Fault PathName := do
  let named := (← Value.get? cfg "run_name").filter Value.isTruthy
  match options.out.filter fun path => !path.isEmpty with
  | some path => pure (PathName.parse path)
  | none => do
    let name ← named.elim (pure (PathName.parse ("qubo_" ++ stamp))) pathArgument
    pure ((PathName.parse "results").join name)

structure Plan where
  cfg : SharedDatum
  configPath : PathName
  directory : PathName

def plan? (t : FileTree) (stamp : String) (options : Options) :
    Except Fault (PathName × Option Plan) := do
  let configPath := PathName.parse (options.config.getD "")
  let cfg ← configuration options (← t.read configPath)
  if ← Value.mentions cfg "qubo" then
    pure (configPath, some ⟨cfg, configPath, ← outDirectory options cfg stamp⟩)
  else pure (configPath, none)

def summary (r : Record Assignment) : Except Fault String := do
  let table ← r.render
  let evaluations ← Number.truncate (.float ((r.info.map RunInfo.evaluations).getD 0.0))
  pure (table ++ "[run] evaluations=" ++ (← integerText evaluations) ++ s!" entries={r.size}\n")

/-- Carries out a plan. A broken rule is shown, and any other fault ends the command. -/
def Plan.execute (p : Plan) (t : FileTree) : FileTree × Response :=
  let opening :=
    "[run] config=" ++ p.configPath.render ++ " -> out=" ++ p.directory.render ++ "\n"
  let (after, outcome) := t.run p.cfg p.directory
  match outcome >>= summary with
  | .ok text => (after, ⟨opening ++ text, "", .ok 0⟩)
  | .error (.violation v) =>
    (after, ⟨opening ++ "error: " ++ v.rule.name ++ ": " ++ v.message ++ "\n", "", .ok 1⟩)
  | .error fault => (after, ⟨opening, "", .error fault⟩)

def paths (t : FileTree) (stamp : String) (arguments : List Text) : List PathName :=
  match Options.parse arguments with
  | .error _ => []
  | .ok options =>
    let config := PathName.parse (options.config.getD "")
    match plan? t stamp options with
    | .ok (_, some plan) => config :: Sampling.fileNames.map plan.directory.child
    | _ => [config]

def run (t : FileTree) (stamp : String) (arguments : List Text) : FileTree × Response :=
  match Options.parse arguments with
  | .error refusal => (t, refuse refusal)
  | .ok options =>
    match plan? t stamp options with
    | .error fault => (t, ⟨"", "", .error fault⟩)
    | .ok (path, none) =>
      (t, ⟨"error: config " ++ path.render ++ " has no 'qubo' section\n", "", .ok 2⟩)
    | .ok (_, some plan) => plan.execute t

end BinaryQuadratic.CommandLine
