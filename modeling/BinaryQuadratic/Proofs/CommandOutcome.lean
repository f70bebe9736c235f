import BinaryQuadratic.Proofs.ConfiguredProblem
import BinaryQuadratic.Proofs.RunFiles

/-!
The outcomes of commands. The exit code tells how the run of a command ended, and a command without
a problem touches nothing.
-/

namespace BinaryQuadratic

namespace SharedDatum

def field? (d : SharedDatum) (key : Text) : Option (Option Link) :=
  (d.table? d.root).map fun found => Fields.lookup found.2 key

theorem layer_of_table? {d : SharedDatum} {index : Nat} {fields : Fields Link}
    (found : d.table? d.root = some (index, fields)) :
    Value.layer d = (Layer.table fields).map fun link => ⟨d.cells, link⟩ := by
  obtain ⟨root, stored⟩ := index_of_table? found
  simp [Value.layer, layer, root, cell, stored]

theorem get?_of_field? {d : SharedDatum} {key : Text} {part : Option Link}
    (held : d.field? key = some part) :
    Value.get? d key = .ok (part.map fun link => ⟨d.cells, link⟩) := by
  obtain ⟨⟨index, fields⟩, found, rfl⟩ := Option.map_eq_some_iff.mp held
  rw [get?_eq, found]

theorem field?_of_get? {d : SharedDatum} {key : Text} {part : Option SharedDatum}
    (held : Value.get? d key = .ok part) :
    ∃ link : Option Link, d.field? key = some link ∧ part = link.map fun l => ⟨d.cells, l⟩ := by
  rw [get?_eq] at held
  cases found : d.table? d.root with
  | none =>
      rw [found] at held
      cases held
  | some entry =>
      obtain ⟨index, fields⟩ := entry
      rw [found] at held
      cases held
      exact ⟨Fields.lookup fields key, by rw [field?, found]; rfl, rfl⟩

theorem field?_isSome {d : SharedDatum} {key : Text} {part : Option Link}
    (held : d.field? key = some part) (other : Text) : ∃ second, d.field? other = some second := by
  obtain ⟨found, table, -⟩ := Option.map_eq_some_iff.mp held
  exact ⟨_, by rw [field?, table]; rfl⟩

end SharedDatum

namespace CommandLine

open FileTree SharedDatum

variable {cfg changed : SharedDatum} {key : Text}

theorem field?_setField (d : SharedDatum) {written : Text} (differs : key ≠ written) (index : Nat)
    (value : Link) : (d.setField index written value).field? key = d.field? key := by
  rw [SharedDatum.field?, setField_root]
  exact lookup_setField d differs index value d.root

theorem field?_withSolverKind {kind : Text} (notKind : key ≠ "kind") (notSolver : key ≠ "solver")
    (run : withSolverKind cfg kind = .ok changed) : changed.field? key = cfg.field? key := by
  unfold withSolverKind at run
  cases table : cfg.table? cfg.root with
  | none =>
      rw [table] at run
      cases run
  | some found =>
      obtain ⟨index, fields⟩ := found
      rw [table] at run
      dsimp only at run
      cases solver : Fields.lookup fields "solver" with
      | some part =>
          rw [solver] at run
          dsimp only at run
          split at run
          · cases run
            exact field?_setField cfg notKind _ _
          · cases run
      | none =>
          rw [solver] at run
          dsimp only at run
          split at run
          · cases run
            rw [field?_setField _ notKind, field?_setField _ notSolver]
            change (cfg.addTable.1.table? cfg.root).map _ = _
            rw [table?_addTable table, SharedDatum.field?, table]
          · cases run

theorem field?_withRecordLength {length : Int} (notLength : key ≠ "record_length")
    (run : withRecordLength cfg length = .ok changed) : changed.field? key = cfg.field? key := by
  unfold withRecordLength at run
  split at run
  · cases run
    exact field?_setField cfg notLength _ _
  · cases run

theorem field?_configuration {options : Options} {text : String} {found : SharedDatum}
    {part : Option Link} (notKind : key ≠ "kind") (notSolver : key ≠ "solver")
    (notLength : key ≠ "record_length") (loaded : Yaml.load text = .ok found)
    (held : found.field? key = some part) (configured : configuration options text = .ok cfg) :
    cfg.field? key = some part := by
  rw [configuration, loaded, ok_bind] at configured
  obtain ⟨chosen, kindRun, lengthRun⟩ := bind_eq_ok.mp configured
  have start : (if Value.isTruthy found then found else SharedDatum.emptyTable).field? key =
      some part := by
    split
    · exact held
    · rename_i empty
      obtain ⟨⟨index, fields⟩, table, rfl⟩ := Option.map_eq_some_iff.mp held
      have none : fields = [] := by
        rw [Value.isTruthy, layer_of_table? table] at empty
        simpa [Layer.map] using empty
      rw [none]
      rfl
  have afterKind : chosen.field? key = some part := by
    cases kind : options.solverKind with
    | none =>
        rw [kind] at kindRun
        cases kindRun
        exact start
    | some kind =>
        rw [kind] at kindRun
        rw [field?_withSolverKind notKind notSolver kindRun, start]
  cases length : options.recordLength with
  | none =>
      rw [length] at lengthRun
      cases lengthRun
      exact afterKind
  | some length =>
      rw [length] at lengthRun
      rw [field?_withRecordLength notLength lengthRun, afterKind]

theorem outDirectory_named {options : Options} {out : Text} {name : Option Link} (stamp : String)
    (named : options.out = some out) (given : out.isEmpty = false)
    (held : cfg.field? "run_name" = some name) :
    outDirectory options cfg stamp = .ok (PathName.parse out) := by
  rw [outDirectory, get?_of_field? held, ok_bind, named]
  simp [Option.filter, given]
  rfl

def planOf (options : Options) (cfg : SharedDatum) (out : Text) : Plan :=
  ⟨cfg, PathName.parse (options.config.getD ""), PathName.parse out⟩

section Command

variable {t : FileTree} {stamp : String} {arguments : List Text} {options : Options} {out : Text}
  {text : String} {part : Option Link}

theorem run_configured (parsed : Options.parse arguments = .ok options)
    (read : t.read (PathName.parse (options.config.getD "")) = .ok text)
    (configured : configuration options text = .ok cfg) :
    run t stamp arguments =
      match Value.mentions cfg "qubo", outDirectory options cfg stamp with
      | .error fault, _ => (t, ⟨"", "", .error fault⟩)
      | .ok false, _ => (t, ⟨"error: config " ++ (PathName.parse (options.config.getD "")).render ++
        " has no 'qubo' section\n", "", .ok 2⟩)
      | .ok true, .error fault => (t, ⟨"", "", .error fault⟩)
      | .ok true, .ok directory =>
        Plan.execute ⟨cfg, PathName.parse (options.config.getD ""), directory⟩ t := by
  rw [run, parsed]
  dsimp only
  rw [plan?, read, ok_bind, configured, ok_bind]
  rcases Value.mentions cfg "qubo" with fault | _ | _
  · rfl
  · rfl
  · cases outDirectory options cfg stamp <;> rfl

theorem run_planned (parsed : Options.parse arguments = .ok options)
    (named : options.out = some out) (given : out.isEmpty = false)
    (read : t.read (PathName.parse (options.config.getD "")) = .ok text)
    (configured : configuration options text = .ok cfg) (held : cfg.field? "qubo" = some part) :
    run t stamp arguments =
      if part.isSome then
        (planOf options cfg out).execute t
      else (t, ⟨"error: config " ++ (PathName.parse (options.config.getD "")).render ++
        " has no 'qubo' section\n", "", .ok 2⟩) := by
  obtain ⟨name, nameHeld⟩ := field?_isSome held "run_name"
  have mentioned : Value.mentions cfg "qubo" = .ok part.isSome := by
    rw [Configuration.mentions_of_get? (get?_of_field? held)]
    cases part <;> rfl
  rw [run_configured parsed read configured, mentioned,
    outDirectory_named stamp named given nameHeld]
  cases part <;> rfl

def Plan.opening (p : Plan) : Text :=
  "[run] config=" ++ p.configPath.render ++ " -> out=" ++ p.directory.render ++ "\n"

theorem execute_files (p : Plan) (t : FileTree) :
    (p.execute t).1 = (t.run p.cfg p.directory).1 := by
  rw [Plan.execute]
  dsimp only
  split <;> rfl

theorem execute_returned {p : Plan} {record : Record Assignment}
    (returned : (t.run p.cfg p.directory).2 = .ok record) : (p.execute t).2.outcome = .ok 0 := by
  obtain ⟨s, -, sampled, -, -, rfl⟩ := run_returned returned
  obtain ⟨_, _, _, -, known⟩ := Sampling.isSampled sampled
  obtain ⟨text, shown⟩ := known.summary
  rw [Plan.execute]
  dsimp only
  rw [returned, ok_bind, shown]

theorem execute_violation {p : Plan} {v : Violation}
    (broken : (t.run p.cfg p.directory).2 = .error (.violation v)) : (p.execute t).2 =
      ⟨p.opening ++ "error: " ++ v.rule.name ++ ": " ++ v.message ++ "\n", "", .ok 1⟩ := by
  rw [Plan.execute]
  dsimp only
  rw [broken]
  rfl

theorem execute_fault {p : Plan} {fault : Fault} (other : ∀ v, fault ≠ .violation v)
    (failed : (t.run p.cfg p.directory).2 = .error fault) :
    (p.execute t).2 = ⟨p.opening, "", .error fault⟩ := by
  have stopped : ((t.run p.cfg p.directory).2 >>= summary) = .error fault := by
    rw [failed]
    rfl
  rw [Plan.execute]
  dsimp only
  rw [stopped]
  cases fault with
  | violation v => exact (other v rfl).elim
  | _ => rfl

structure Reports (before : FileTree) (answer : FileTree × Response)
    (ran : FileTree × Except Fault (Record Assignment)) (opening : Text) (stated : Bool) : Prop where
  zero : answer.2.outcome = .ok 0 ↔ stated = true ∧ ∃ record, ran.2 = .ok record
  one : answer.2.outcome = .ok 1 ↔ stated = true ∧ ∃ v, ran.2 = .error (.violation v)
  two : answer.2.outcome = .ok 2 ↔ stated = false
  shown : ∀ v, stated = true → ran.2 = .error (.violation v) → answer.2.output =
    opening ++ "error: " ++ v.rule.name ++ ": " ++ v.message ++ "\n"
  files : answer.1 = if stated then ran.1 else before

theorem reports_run (parsed : Options.parse arguments = .ok options)
    (named : options.out = some out) (given : out.isEmpty = false)
    (read : t.read (PathName.parse (options.config.getD "")) = .ok text)
    (configured : configuration options text = .ok cfg) (held : cfg.field? "qubo" = some part) :
    Reports t (run t stamp arguments) (t.run cfg (PathName.parse out))
      (planOf options cfg out).opening part.isSome := by
  rw [run_planned parsed named given read configured held]
  cases part with
  | none => exact ⟨by simp, by simp, by simp, by simp, rfl⟩
  | some link =>
      have files := execute_files (planOf options cfg out) t
      rw [Option.isSome_some, if_pos rfl]
      rcases outcome : (t.run cfg (PathName.parse out)).2 with fault | record
      · by_cases broken : ∃ v, fault = .violation v
        · obtain ⟨v, rfl⟩ := broken
          have answer := execute_violation (p := planOf options cfg out) outcome
          refine ⟨by simp [answer, outcome], by simp [answer, outcome], by simp [answer], ?_, files⟩
          intro other _ same
          cases outcome.symm.trans same
          rw [answer]
        · have other : ∀ v, fault ≠ .violation v := fun v same => broken ⟨v, same⟩
          have answer := execute_fault (p := planOf options cfg out) other outcome
          refine ⟨by simp [answer, outcome], by simp [answer, outcome, other], by simp [answer], ?_,
            files⟩
          intro v _ same
          cases outcome.symm.trans same
          exact (other v rfl).elim
      · have answer := execute_returned (p := planOf options cfg out) outcome
        refine ⟨by simp [answer, outcome], by simp [answer, outcome], by simp [answer], ?_, files⟩
        intro v _ same
        cases outcome.symm.trans same

end Command

/-- Every run writes all its files or changes none, unless one of them has the name of a directory.
A command that names a directory tells by its exit code whether its run returned, broke a rule of
the library or was not started for want of a problem. -/
theorem files_all_or_none {ν : Type} [Value ν] {t : FileTree} {cfg : ν} {directory : PathName}
    (clear : Clear t directory)
    (unhindered : (".." : Text) ∈ directory.components →
      (t.run cfg directory).2 ≠ .error (.file .isADirectory)) :
    ((∃ s prepared files, (t.run cfg directory).2 = .ok s.record ∧
        Sampling.ofConfiguration cfg = .ok s ∧
        s.files cfg = files.map (fun file => (file.1, .ok file.2)) ∧
        files.map Prod.fst = Sampling.fileNames ∧
        Grown t prepared (stations [] directory.components) ∧
        Holds prepared (t.run cfg directory).1 directory files) ∨
      ∃ fault, (t.run cfg directory).2 = .error fault ∧
        Grown t (t.run cfg directory).1 (stations [] directory.components)) ∧
    ∀ (before : FileTree) stamp arguments options out text found part changed,
      Options.parse arguments = .ok options → options.out = some out → out.isEmpty = false →
      before.read (PathName.parse (options.config.getD "")) = .ok text →
      Yaml.load text = .ok found → Value.get? found "qubo" = .ok part →
      configuration options text = .ok changed →
      Reports before (CommandLine.run before stamp arguments)
        (before.run changed (PathName.parse out)) (planOf options changed out).opening
        part.isSome := by
  refine ⟨run_all_or_none clear unhindered, ?_⟩
  intro before stamp arguments options out text found part changed parsed named given read loaded
    held configured
  obtain ⟨link, stored, rfl⟩ := field?_of_get? held
  have kept := field?_configuration (by decide) (by decide) (by decide) loaded stored configured
  rw [Option.isSome_map]
  exact reports_run parsed named given read configured kept

theorem files_all_or_none_refused :
    let t : FileTree := ⟨[(["c.yaml"], .file "qubo: {size: 1}\nrecord_length: -1\n")]⟩
    ∃ (changed : SharedDatum) (v : Violation),
      (CommandLine.run t "" ["--config", "c.yaml", "--out", "a"]).2.outcome = .ok 1 ∧
      (t.run changed (PathName.parse "a")).2 = .error (.violation v) ∧
      Grown t (t.run changed (PathName.parse "a")).1 (stations [] ["a"]) := by
  intro t
  obtain ⟨changed, configured⟩ : ∃ changed, configuration ⟨some "c.yaml", some "a", none, none⟩
      "qubo: {size: 1}\nrecord_length: -1\n" = .ok changed := by
    apply eq_ok_of_isOk
    decide +kernel
  obtain ⟨part, read⟩ : ∃ part, (Yaml.load "qubo: {size: 1}\nrecord_length: -1\n" >>=
      fun found => Value.get? found "qubo") = .ok part := by
    apply eq_ok_of_isOk
    decide +kernel
  obtain ⟨found, loaded, held⟩ := bind_eq_ok.mp read
  have clear : Clear t (PathName.parse "a") := by
    unfold Clear
    decide
  have unhindered : (".." : Text) ∈ (PathName.parse "a").components →
      (t.run changed (PathName.parse "a")).2 ≠ .error (.file .isADirectory) := by
    intro back
    exact ((by decide : (".." : Text) ∉ (PathName.parse "a").components) back).elim
  obtain ⟨files, reports⟩ := files_all_or_none clear unhindered
  have answer := reports t "" ["--config", "c.yaml", "--out", "a"]
    ⟨some "c.yaml", some "a", none, none⟩ "a" _ found part changed rfl rfl rfl rfl loaded held configured
  have refused : (CommandLine.run t "" ["--config", "c.yaml", "--out", "a"]).2.outcome = .ok 1 := by
    apply eq_ok_of_toOption
    decide +kernel
  obtain ⟨-, v, broken⟩ := answer.one.mp refused
  refine ⟨changed, v, refused, broken, ?_⟩
  rcases files with ⟨_, _, _, returned, -⟩ | ⟨_, -, grown⟩
  · cases broken.symm.trans returned
  · exact grown

end CommandLine

end BinaryQuadratic
