import BinaryQuadratic.Proofs.AlikeConfigurations
import BinaryQuadratic.Proofs.CommandOutcome

/-!
The options that change a configuration mean what editing the configuration means: the command
without them, run on the edited configuration, does the same. A null solver section is the
exception.
-/

namespace BinaryQuadratic

deriving instance DecidableEq for Scalar, Link, Layer, SharedDatum

inductive Link.Alike (numbers : Nat → Nat → Prop) : Link → Link → Prop
  | scalar (s : Scalar) : Alike numbers (.scalar s) (.scalar s)
  | container {i j : Nat} (number : numbers i j) : Alike numbers (.container i) (.container j)

namespace SharedDatum

structure Renumbered (a b : SharedDatum) (numbers : Nat → Nat → Prop) : Prop where
  root : Link.Alike numbers a.root b.root
  cell {i j : Nat} : numbers i j → Layer.Alike (Link.Alike numbers) (a.cell i) (b.cell j)
  unique {i j k l : Nat} : numbers i k → numbers j l → (i = j ↔ k = l)

def Alike (a b : SharedDatum) : Prop := ∃ numbers, Renumbered a b numbers

theorem Alike.refl (a : SharedDatum) : Alike a a := by
  have links (link : Link) : Link.Alike Eq link link := by
    cases link with
    | scalar s => exact .scalar s
    | container i => exact .container rfl
  refine ⟨Eq, links a.root, ?_, ?_⟩
  · rintro i _ rfl
    exact .refl links (a.cell i)
  · rintro i j _ _ rfl rfl
    rfl

inductive Part (a b : SharedDatum) (numbers : Nat → Nat → Prop) : SharedDatum → SharedDatum → Prop
  | scalar (s : Scalar) (cells others : Array (Layer Link)) :
      Part a b numbers ⟨cells, .scalar s⟩ ⟨others, .scalar s⟩
  | container {i j : Nat} (number : numbers i j) :
      Part a b numbers ⟨a.cells, .container i⟩ ⟨b.cells, .container j⟩

variable {a b : SharedDatum} {numbers : Nat → Nat → Prop}

theorem part_of_link {first second : Link} (alike : Link.Alike numbers first second) :
    Part a b numbers ⟨a.cells, first⟩ ⟨b.cells, second⟩ := by
  cases alike with
  | scalar s => exact .scalar s _ _
  | container number => exact .container number

theorem Renumbered.likeness (renumbered : Renumbered a b numbers) :
    Likeness (Part a b numbers) numbers where
  layer := by
    intro v w same
    cases same with
    | scalar s cells others => exact .scalar s
    | container number => exact (renumbered.cell number).map fun first second => part_of_link
  ofScalar s := .scalar s _ _
  identity := by
    intro v w same
    cases same with
    | scalar s cells others => exact .none
    | container number => exact .some number
  unique := renumbered.unique

theorem Alike.likeness (alike : Alike a b) :
    ∃ (P : SharedDatum → SharedDatum → Prop) (numbers : Nat → Nat → Prop),
      Likeness P numbers ∧ P a b := by
  obtain ⟨numbers, renumbered⟩ := alike
  exact ⟨Part a b numbers, numbers, renumbered.likeness, part_of_link renumbered.root⟩

end SharedDatum

namespace CommandLine

open SharedDatum

/-- The configuration whose solver section has the given kind. The section is edited where it is,
and is empty before that where it is absent or null. -/
def withKind (cfg : SharedDatum) (kind : Text) : SharedDatum :=
  match cfg.table? cfg.root with
  | none => cfg
  | some (root, fields) =>
    match (Fields.lookup fields "solver").bind cfg.table? with
    | some (section_, _) => cfg.setField section_ "kind" (.scalar (.text kind))
    | none =>
      let added := cfg.cells.push (.table [(.text "kind", .scalar (.text kind))])
      SharedDatum.setField ⟨added, cfg.root⟩ root "solver" (.container cfg.cells.size)

def withLength (cfg : SharedDatum) (length : Int) : SharedDatum :=
  match cfg.table? cfg.root with
  | none => cfg
  | some (root, _) => cfg.setField root "record_length" (.scalar (.int length))

def edited (options : Options) (cfg : SharedDatum) : SharedDatum :=
  let chosen := options.solverKind.elim cfg fun kind => withKind cfg (Text.lowerCase kind)
  options.recordLength.elim chosen (withLength chosen)

def Acceptable (cfg : SharedDatum) : Option Link → Prop
  | none => True
  | some link => link = .scalar .null ∨ (cfg.table? link).isSome

/-- Two commands do the same, and show the same behind the lines that name their files. -/
structure SameRun (first second : FileTree × Response) (path other : PathName) : Prop where
  files : first.1 = second.1
  outcome : first.2.outcome = second.2.outcome
  errors : first.2.errors = second.2.errors
  output : (first.2.output = "" ∧ second.2.output = "") ∨ ∃ (directory : PathName) (rest : Text),
    first.2.output = Plan.opening ⟨.emptyTable, path, directory⟩ ++ rest ∧
    second.2.output = Plan.opening ⟨.emptyTable, other, directory⟩ ++ rest

variable {cfg : SharedDatum} {solver : Option Link}

theorem withSolverKind_null (held : cfg.field? "solver" = some (some (.scalar .null)))
    (kind : Text) : withSolverKind cfg kind = .error .wrongKind := by
  obtain ⟨⟨root, fields⟩, table, found⟩ := Option.map_eq_some_iff.mp held
  rw [withSolverKind, table]
  dsimp only at found ⊢
  rw [found]
  rfl

theorem set_pushed {α : Type} (xs : Array α) (old new other : α) {index : Nat}
    (bound : index < xs.size) :
    ((xs.push old).setIfInBounds index other).setIfInBounds xs.size new =
      (xs.push new).setIfInBounds index other := by
  apply Array.ext_getElem?
  intro place
  simp only [Array.getElem?_setIfInBounds, Array.getElem?_push, Array.size_push,
    Array.size_setIfInBounds]
  grind

theorem withSolverKind_eq (held : cfg.field? "solver" = some solver)
    (acceptable : Acceptable cfg solver) (present : solver ≠ some (.scalar .null)) (kind : Text) :
    withSolverKind cfg kind = .ok (withKind cfg (Text.lowerCase kind)) := by
  obtain ⟨⟨root, fields⟩, table, found⟩ := Option.map_eq_some_iff.mp held
  dsimp only at found
  rw [withSolverKind, withKind, table]
  dsimp only
  rw [found]
  cases solver with
  | none =>
      obtain ⟨-, stored⟩ := index_of_table? table
      have bound : root < cfg.cells.size := (Array.getElem?_eq_some_iff.mp stored).1
      have kept (layer : Layer Link) : (cfg.cells.push layer)[root]? = some (.table fields) := by
        rw [Array.getElem?_push_lt bound, ← stored, Array.getElem?_eq_getElem bound]
      have made : (cfg.addTable.1.setField root "solver" cfg.addTable.2).cells[cfg.cells.size]? =
          some (.table []) := by
        rw [setField_of_cell (kept _), Array.getElem?_setIfInBounds_ne (Nat.ne_of_lt bound)]
        exact Array.getElem?_push_size
      have added : (cfg.addTable.1.setField root "solver" cfg.addTable.2).table? cfg.addTable.2 =
          some (cfg.cells.size, []) := table?_of_cell made
      dsimp only [Option.bind_none]
      rw [added]
      dsimp only
      rw [setField_of_cell made, setField_of_cell (kept _), setField_of_cell (kept _)]
      exact congrArg (fun cells => Except.ok (SharedDatum.mk cells cfg.root))
        (set_pushed cfg.cells _ _ _ bound)
  | some link =>
      rcases acceptable with null | table
      · exact (present (congrArg some null)).elim
      · obtain ⟨⟨inner, parts⟩, part⟩ := Option.isSome_iff_exists.mp table
        simp only [Option.bind_some, part]
        rfl

theorem withRecordLength_eq {key : Text} {part : Option Link} (held : cfg.field? key = some part)
    (length : Int) : withRecordLength cfg length = .ok (withLength cfg length) := by
  obtain ⟨⟨root, fields⟩, table, -⟩ := Option.map_eq_some_iff.mp held
  rw [withRecordLength, withLength, table]
  rfl

theorem isTruthy_of_field? {key : Text} {link : Link} (held : cfg.field? key = some (some link)) :
    Value.isTruthy cfg = true := by
  obtain ⟨⟨index, fields⟩, table, found⟩ := Option.map_eq_some_iff.mp held
  rw [Value.isTruthy, layer_of_table? table]
  cases fields with
  | nil => cases found
  | cons field rest => rfl

theorem configuration_null {options : Options} {text : String} {kind : Text} {problem : Link}
    (loaded : Yaml.load text = .ok cfg) (stated : cfg.field? "qubo" = some (some problem))
    (held : cfg.field? "solver" = some (some (.scalar .null)))
    (asked : options.solverKind = some kind) :
    configuration options text = .error .wrongKind := by
  rw [configuration, loaded, ok_bind, if_pos (isTruthy_of_field? stated), asked]
  exact congrArg (· >>= _) (withSolverKind_null held kind)

theorem configuration_edited {options : Options} {text : String} {problem : Link}
    (loaded : Yaml.load text = .ok cfg) (stated : cfg.field? "qubo" = some (some problem))
    (held : cfg.field? "solver" = some solver) (acceptable : Acceptable cfg solver)
    (present : solver = some (.scalar .null) → options.solverKind = none) :
    configuration options text = .ok (edited options cfg) := by
  have chosen : options.solverKind.elim (pure cfg) (withSolverKind cfg) = .ok
      (options.solverKind.elim cfg fun kind => withKind cfg (Text.lowerCase kind)) := by
    cases asked : options.solverKind with
    | none => rfl
    | some kind =>
        refine withSolverKind_eq held acceptable ?_ kind
        intro null
        cases asked.symm.trans (present null)
  rw [configuration, loaded, ok_bind, if_pos (isTruthy_of_field? stated)]
  dsimp only
  rw [chosen, ok_bind, edited]
  cases length : options.recordLength with
  | none => rfl
  | some length =>
      have kept : (options.solverKind.elim cfg fun kind => withKind cfg (Text.lowerCase kind)).field?
          "qubo" = some (some problem) := by
        cases asked : options.solverKind with
        | none => exact stated
        | some kind =>
            rw [asked] at chosen
            exact (field?_withSolverKind (by decide) (by decide) chosen).trans stated
      exact withRecordLength_eq kept _

theorem configuration_plain {options : Options} {text : String}
    (loaded : Yaml.load text = .ok cfg) (present : Value.isTruthy cfg = true)
    (noKind : options.solverKind = none) (noLength : options.recordLength = none) :
    configuration options text = .ok cfg := by
  rw [configuration, loaded, ok_bind, if_pos present, noKind, noLength]
  rfl

theorem outDirectory_alike {a b : SharedDatum} {options plain : Options}
    (alike : Alike a b) (out : plain.out = options.out) (stamp : String) :
    outDirectory options a stamp = outDirectory plain b stamp := by
  obtain ⟨P, numbers, L, same⟩ := alike.likeness
  unfold outDirectory
  rw [out]
  refine (L.get? same "run_name").bind_eq fun name other found => ?_
  have named := L.filterTruthy found
  generalize name.filter Value.isTruthy = first, other.filter Value.isTruthy = second at named ⊢
  cases named with
  | none => rfl
  | some same => simp only [Option.elim_some, L.pathArgument same]

theorem execute_alike {a b : SharedDatum} (alike : Alike a b) (t : FileTree)
    (path other directory : PathName) :
    SameRun (Plan.execute ⟨a, path, directory⟩ t) (Plan.execute ⟨b, other, directory⟩ t) path other := by
  obtain ⟨P, numbers, L, same⟩ := alike.likeness
  have silent (opening : Text) : opening = opening ++ "" :=
    congrArg Text.mk (List.append_nil _).symm
  unfold Plan.execute
  dsimp only
  rw [L.run same]
  rcases (t.run b directory).2 >>= summary with fault | text
  · cases fault with
    | violation v =>
        refine ⟨rfl, rfl, rfl, .inr ⟨directory, "error: " ++ (v.rule.name ++ (": " ++
          (v.message ++ "\n"))), ?_, ?_⟩⟩
        · simp only [Plan.opening, Text.append_assoc]
        · simp only [Plan.opening, Text.append_assoc]
    | _ => exact ⟨rfl, rfl, rfl, .inr ⟨directory, "", silent _, silent _⟩⟩
  · exact ⟨rfl, rfl, rfl, .inr ⟨directory, _, rfl, rfl⟩⟩

/-- A command whose options change its configuration does what the command without them does on the
edited configuration, however that numbers its containers. A null solver section cannot be given a
kind: the command then ends at once, although a run would take such a section for an empty one. -/
theorem options_mean_edits {t : FileTree} {stamp : String} {arguments others : List Text}
    {options : Options} {path : Option Text} {text other : String} {a b : SharedDatum}
    {problem : Link} (flagged : Options.parse arguments = .ok options)
    (plain : Options.parse others = .ok ⟨path, options.out, none, none⟩)
    (read : t.read (PathName.parse (options.config.getD "")) = .ok text)
    (readEdited : t.read (PathName.parse (path.getD "")) = .ok other)
    (loaded : Yaml.load text = .ok a) (loadedEdited : Yaml.load other = .ok b)
    (stated : a.field? "qubo" = some (some problem)) (held : a.field? "solver" = some solver)
    (acceptable : Acceptable a solver) (alike : Alike (edited options a) b) :
    ((solver = some (.scalar .null) → options.solverKind = none) →
      SameRun (run t stamp arguments) (run t stamp others)
        (PathName.parse (options.config.getD "")) (PathName.parse (path.getD ""))) ∧
    (solver = some (.scalar .null) → options.solverKind ≠ none →
      run t stamp arguments = (t, ⟨"", "", .error .wrongKind⟩)) := by
  constructor
  · intro present
    have configured := configuration_edited loaded stated held acceptable present
    have kept : (edited options a).field? "qubo" = some (some problem) :=
      field?_configuration (by decide) (by decide) (by decide) loaded stated configured
    have mentioned : Value.mentions (edited options a) "qubo" = .ok true := by
      rw [Configuration.mentions_of_get? (get?_of_field? kept)]
      rfl
    have truthy := isTruthy_of_field? kept
    obtain ⟨P, numbers, L, same⟩ := alike.likeness
    rw [L.isTruthy same] at truthy
    have otherMentioned := (L.mentions same "qubo").symm.trans mentioned
    have directories : outDirectory options (edited options a) stamp =
        outDirectory ⟨path, options.out, none, none⟩ b stamp := outDirectory_alike alike rfl stamp
    rw [run_configured flagged read configured,
      run_configured plain readEdited (configuration_plain loadedEdited truthy rfl rfl),
      mentioned, otherMentioned, directories]
    dsimp only
    cases outDirectory ⟨path, options.out, none, none⟩ b stamp with
    | error fault => exact ⟨rfl, rfl, rfl, .inl ⟨rfl, rfl⟩⟩
    | ok directory => exact execute_alike alike t _ _ directory
  · intro null asked
    obtain ⟨kind, asked⟩ := Option.ne_none_iff_exists'.mp asked
    rw [run, flagged]
    dsimp only
    rw [plan?, read, ok_bind, configuration_null loaded stated (null ▸ held) asked]
    rfl

theorem options_mean_edits_dwave :
    let t : FileTree := ⟨[(["c.yaml"], .file "qubo: {size: 1}\n"),
      (["d.yaml"], .file "qubo: {size: 1}\nsolver: {kind: dwave}\n")]⟩
    SameRun (run t "" ["--config", "c.yaml", "--out", "a", "--solver_kind", "DWave"])
      (run t "" ["--config", "d.yaml", "--out", "a"])
      (PathName.parse "c.yaml") (PathName.parse "d.yaml") := by
  intro t
  have loaded : Yaml.load "qubo: {size: 1}\n" = .ok ⟨#[.table [(.text "qubo", .container 1)],
      .table [(.text "size", .scalar (.int 1))]], .container 0⟩ := by
    apply eq_ok_of_toOption
    decide +kernel
  have loadedEdited : Yaml.load "qubo: {size: 1}\nsolver: {kind: dwave}\n" =
      .ok ⟨#[.table [(.text "qubo", .container 1), (.text "solver", .container 2)],
        .table [(.text "size", .scalar (.int 1))],
        .table [(.text "kind", .scalar (.text "dwave"))]], .container 0⟩ := by
    apply eq_ok_of_toOption
    decide +kernel
  have absent : SharedDatum.field? ⟨#[.table [(.text "qubo", .container 1)],
      .table [(.text "size", .scalar (.int 1))]], .container 0⟩ "solver" = some none := rfl
  have plain : Options.parse ["--config", "d.yaml", "--out", "a"] =
      .ok ⟨some "d.yaml", some "a", none, none⟩ := rfl
  have flagged : Options.parse ["--config", "c.yaml", "--out", "a", "--solver_kind", "DWave"] =
      .ok ⟨some "c.yaml", some "a", none, some "DWave"⟩ := rfl
  refine (options_mean_edits flagged plain rfl rfl loaded loadedEdited rfl absent trivial
    (.refl _)).1 ?_
  intro null
  cases null

end CommandLine

end BinaryQuadratic
