import BinaryQuadratic.Configuration
import BinaryQuadratic.FileTree
import BinaryQuadratic.Json.Reader
import BinaryQuadratic.Json.Writer
import BinaryQuadratic.Record.Table

/-!
Runs: a configured problem is sampled, and the configuration, the record and its table are
written into a directory. Values are kept in files as JSON text.
-/

namespace BinaryQuadratic

structure Sampling where
  solverName : String
  problem : Problem
  record : Record Assignment

namespace Sampling

def ofConfiguration {ν : Type} [Value ν] (cfg : ν) : Except Fault Sampling := do
  let problem ← Configuration.problem (← Value.get cfg "qubo")
  let solver ← Configuration.solver ((← Value.get? cfg "solver").filter Value.isTruthy)
  let length ← Configuration.requestedLength cfg
  pure ⟨solver.name, problem, ← solver.sample problem length⟩

def toDatum (s : Sampling) : Except Fault Datum := do
  let rows ← s.record.toRows
  pure (.table [(.text "solver", .text s.solverName), (.text "size", .int s.problem.size),
    (.text "capacity", .int s.record.capacity), (.text "info", s.record.infoDatum),
    (.text "entries", .list (rows.map Row.toDatum))])

def fileNames : List Text := ["config.json", "record.json", "record.csv"]

/-- The files of a run by name, each with its text or with what goes wrong in making it: the
configuration, the record and its table. -/
def files {ν : Type} [Value ν] (s : Sampling) (cfg : ν) : List (Text × Except Fault String) :=
  fileNames.zip [Json.render cfg, s.toDatum >>= Json.render, s.record.commaSeparated]

end Sampling

namespace FileTree

/-- Writes a value into a file. The file is not touched before the whole text is made. -/
def save {ν : Type} [Value ν] (t : FileTree) (path : PathName) (v : ν) :
    FileTree × Except Fault Unit :=
  match Json.render v with
  | .error fault => (t, .error fault)
  | .ok text => t.write path text

def load (t : FileTree) (path : PathName) : Except Fault Datum := t.read path >>= Json.parse

def writeAll (t : FileTree) (directory : PathName) :
    List (Text × Except Fault String) → FileTree × Except Fault Unit
  | [] => (t, .ok ())
  | (_, .error fault) :: _ => (t, .error fault)
  | (name, .ok text) :: rest =>
    match t.write (directory.child name) text with
    | (next, .ok _) => next.writeAll directory rest
    | (next, .error fault) => (next, .error fault)

/-- Runs a configuration. The directory is made first, and nothing is written before the sampling
has succeeded. -/
def run {ν : Type} [Value ν] (t : FileTree) (cfg : ν) (directory : PathName) :
    FileTree × Except Fault (Record Assignment) :=
  match t.ensureDirectory directory with
  | (prepared, .error fault) => (prepared, .error fault)
  | (prepared, .ok _) =>
    match Sampling.ofConfiguration cfg with
    | .error fault => (prepared, .error fault)
    | .ok sampling =>
      let (written, outcome) := prepared.writeAll directory (sampling.files cfg)
      (written, outcome.map fun _ => sampling.record)

end FileTree

end BinaryQuadratic
