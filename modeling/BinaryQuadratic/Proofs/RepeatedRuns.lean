import BinaryQuadratic.Proofs.RestoredConfigurations
import BinaryQuadratic.Proofs.RunFiles
import BinaryQuadratic.Proofs.TableFields

/-!
What the files of a run are good for. They show the record of the run, and the configuration among
them leads to the same record and to the same files again.
-/

namespace BinaryQuadratic

def Entry.document (e : Entry Assignment) : Datum :=
  .table [(.text "energy", e.energy), (.text "occurrences", .int e.occurrences),
    (.text "sample", e.sample.values)]

theorem Datum.everyTable_and {P Q : Fields Datum → Prop} {d : Datum} :
    (d.EveryTable fun fields => P fields ∧ Q fields) ↔ d.EveryTable P ∧ d.EveryTable Q := by
  constructor
  · intro both
    induction both with
    | scalar s => exact ⟨.scalar s, .scalar s⟩
    | list _ ih =>
        exact ⟨.list fun item member => (ih item member).1,
          .list fun item member => (ih item member).2⟩
    | table held _ ih =>
        exact ⟨.table held.1 fun field member => (ih field member).1,
          .table held.2 fun field member => (ih field member).2⟩
  · rintro ⟨first, second⟩
    induction first with
    | scalar s => exact .scalar s
    | list _ ih =>
        cases second with
        | list each => exact .list fun item member => ih item member (each item member)
    | table held _ ih =>
        cases second with
        | table otherHeld each =>
            exact .table ⟨held, otherHeld⟩ fun field member => ih field member (each field member)

theorem Text.joined_ofString (s : String) : (Text.ofString s).joined = Text.ofString s :=
  joined_of_isPlain (isPlain_ofString s)

namespace Json

theorem readable_levelDocument {levels : Nat} {level : Float × List Int}
    (bits : Assignment.IsBits level.2) : Readable (levels + 2) (Record.levelDocument level) := by
  have keys : ((["energy", "occurrences", "sample"] : List Text).map Text.joined).Nodup := by decide
  apply Readable.table
  · simp [isText]
  · exact keys
  · simp only [List.forall_mem_cons]
    refine ⟨.scalar rfl, .scalar (checkScalar_bit (.inr rfl)), .list ?_, nofun⟩
    rw [List.forall_mem_map]
    exact fun x member => .scalar (checkScalar_bit (bits x member))

theorem reread_levelDocument (levels : Nat) (level : Float × List Int) :
    reread (levels + 2) (Record.levelDocument level) = Record.levelDocument level := by
  simp [Record.levelDocument, reread, Scalar.reread, Text.joined_ofString, Function.comp_def]

theorem readable_document {levels : Nat} {solverName : String} {size capacity : Int}
    {info : RunInfo} {found : List (Float × List Int)}
    (shortSize : checkScalar (.int size) = .ok (.int size))
    (shortCapacity : checkScalar (.int capacity) = .ok (.int capacity))
    (bits : ∀ level ∈ found, Assignment.IsBits level.2) :
    Readable (levels + 4) (Sampling.document solverName size capacity info found) := by
  have keys : ((["capacity", "entries", "info", "size", "solver"] : List Text).map
      Text.joined).Nodup := by decide
  have infoKeys : ((["distinct_energies", "evaluations"] : List Text).map Text.joined).Nodup := by
    decide
  apply Readable.table
  · simp [isText]
  · exact keys
  · simp only [List.forall_mem_cons]
    refine ⟨.scalar shortCapacity, .list ?_, .table ?_ infoKeys ?_, .scalar shortSize, .scalar rfl,
      nofun⟩
    · rw [List.forall_mem_map]
      exact fun level member => readable_levelDocument (bits level member)
    · simp [isText]
    · simp only [List.forall_mem_cons]
      exact ⟨.scalar rfl, .scalar rfl, nofun⟩

theorem reread_document (levels : Nat) (solverName : String) (size capacity : Int) (info : RunInfo)
    (found : List (Float × List Int)) :
    reread (levels + 4) (Sampling.document solverName size capacity info found) =
      Sampling.document solverName size capacity info found := by
  simp [Sampling.document, reread, Scalar.reread, Text.joined_ofString, Function.comp_def,
    reread_levelDocument]

theorem parse_document {r : Record Assignment} {size : Nat} {found : List (Float × List Int)}
    {info : RunInfo} (solverName : String) (sampled : r.IsSampled size found info) :
    '\r' ∉ write 0 (Sampling.document solverName size r.capacity info found) [] ∧
      parse (String.ofList (write 0 (Sampling.document solverName size r.capacity info found) [])) =
        .ok (Sampling.document solverName size r.capacity info found) := by
  obtain ⟨depth, deep⟩ : ∃ depth, nestingLimit = depth + 4 := ⟨985, rfl⟩
  have readable : Readable nestingLimit
      (Sampling.document solverName size r.capacity info found) := by
    rw [deep]
    exact readable_document sampled.checkScalar_size sampled.checkScalar_capacity
      fun level member => (sampled.bits level member).1
  refine ⟨write_unix readable, ?_⟩
  rw [parse_write readable, deep, reread_document]

end Json

namespace FileTree

variable {t after : FileTree} {directory : PathName} {files : List (Text × String)}

theorem read_child {base : PathName} {name : Text} {text : String}
    (passable : Passable t [] base.components) (fits : Fits base name)
    (there : t.node? (resolve (base.child name)) = some (.file text)) (unix : '\r' ∉ text.toList) :
    t.read (base.child name) = .ok text := by
  apply read_of_unix fits.checked _ there unix
  rw [PathName.components_child]
  exact walk_child (node?_nil t) passable fits.short

theorem Holds.passable (holds : Holds t after directory files) {rest : List Text}
    (free : ∀ file ∈ files, t.node? (resolve (directory.child file.1)) ≠ some .directory)
    (passable : Passable t [] rest) : Passable after [] rest := by
  refine ⟨?_, passable.2⟩
  intro place member
  have there := passable.1 place member
  rw [holds.others, there]
  rintro file inside rfl
  exact free file inside there

/-- The files of a run show what it has sampled: the document of the record, and its table with a
line for each entry. -/
structure ShowsSampling (t : FileTree) (directory : PathName) (s : Sampling) : Prop where
  document : ∃ info, s.record.info = some info ∧
    t.load (directory.child "record.json") = .ok (.table [
      (.text "capacity", .int s.record.capacity),
      (.text "entries", .list (s.record.entries.map Entry.document)),
      (.text "info", .table [(.text "distinct_energies", .float info.distinctEnergies),
        (.text "evaluations", .float info.evaluations)]),
      (.text "size", .int s.problem.size), (.text "solver", .text s.solverName)])
  table : ∃ text rows, t.read (directory.child "record.csv") = .ok text ∧
    Record.fieldsOf text = Record.columnNames :: rows ∧
    List.Forall₂ (fun e fields => ∃ energy sample count, fields = [energy, sample, count] ∧
      e.ShownBy energy sample count) s.record.entries rows

section Files

variable {cfg : Datum} {s : Sampling} {config : String}

theorem map_named_inj {others : List (Text × String)}
    (same : files.map (fun file => (file.1, (.ok file.2 : Except Fault String))) =
      others.map fun file => (file.1, .ok file.2)) : files = others := by
  apply List.map_injective_iff.mpr _ same
  rintro ⟨name, text⟩ ⟨other, written⟩ equal
  cases equal
  rfl

theorem read_file (receives : Receives t directory)
    (holds : Holds (t.ensureDirectory directory).1 after directory files)
    (names : files.map Prod.fst = Sampling.fileNames) {name : Text} {text : String}
    (member : (name, text) ∈ files) (unix : '\r' ∉ text.toList) :
    after.read (directory.child name) = .ok text := by
  have named {file : Text × String} (inside : file ∈ files) : file.1 ∈ Sampling.fileNames := by
    rw [← names]
    exact List.mem_map_of_mem inside
  have passable := (ensureDirectory_grown t directory).2 receives.made
  apply read_child _ (fits_fileNames receives.checked name (named member))
    (holds.written _ member) unix
  exact holds.passable (fun file inside => receives.free file.1 (named inside)) passable

theorem run_shows (receives : Receives t directory)
    (sampled : Sampling.ofConfiguration cfg = .ok s) (rendered : Json.render cfg = .ok config) :
    ShowsSampling (t.run cfg directory).1 directory s ∧
      ('\r' ∉ config.toList →
        (t.run cfg directory).1.read (directory.child "config.json") = .ok config) := by
  obtain ⟨size, levels, info, sized, known⟩ := Sampling.isSampled sampled
  obtain ⟨table, rows, written, tableUnix, fields, shown⟩ := known.shownBy_commaSeparated
  obtain ⟨documentUnix, read⟩ := Json.parse_document s.solverName known
  obtain ⟨files, texts, names, -, holds⟩ := run_receives receives sampled rendered
  rw [Sampling.files_sampled cfg sized known, rendered, ← known.commaSeparated, written] at texts
  have whole : files = Sampling.fileNames.zip [config, String.ofList
      (Json.write 0 (Sampling.document s.solverName size s.record.capacity info levels) []),
      table] := by
    exact map_named_inj texts.symm
  have inside : ∀ file ∈ files, '\r' ∉ file.2.toList →
      (t.run cfg directory).1.read (directory.child file.1) = .ok file.2 :=
    fun _ member unix => read_file receives holds names member unix
  simp only [whole, Sampling.fileNames, List.zip_cons_cons, List.zip_nil_left,
    List.forall_mem_cons] at inside
  obtain ⟨configRead, documentRead, tableRead, -⟩ := inside
  refine ⟨⟨⟨info, known.informed, ?_⟩, table, rows, tableRead tableUnix, fields, shown⟩, configRead⟩
  rw [load, documentRead (by rwa [String.toList_ofList]), ok_bind, read, known.entries, sized,
    List.map_map]
  rfl

def SameFiles (t other : FileTree) (directory place : PathName) : Prop :=
  ∀ name ∈ Sampling.fileNames, ∃ text,
    t.node? (resolve (directory.child name)) = some (.file text) ∧
    other.node? (resolve (place.child name)) = some (.file text)

theorem run_again {again : Datum} {other : FileTree} {place : PathName}
    (receives : Receives t directory) (sampled : Sampling.ofConfiguration cfg = .ok s)
    (rendered : Json.render cfg = .ok config) (otherReceives : Receives other place)
    (otherSampled : Sampling.ofConfiguration again = .ok s)
    (otherRendered : Json.render again = .ok config) : (other.run again place).2 = .ok s.record ∧
      SameFiles (t.run cfg directory).1 (other.run again place).1 directory place := by
  obtain ⟨files, texts, names, -, holds⟩ := run_receives receives sampled rendered
  obtain ⟨others, otherTexts, -, returned, otherHolds⟩ :=
    run_receives otherReceives otherSampled otherRendered
  have same : others = files := by
    rw [Sampling.files, otherRendered, ← rendered, ← Sampling.files, texts] at otherTexts
    exact map_named_inj otherTexts.symm
  refine ⟨returned, ?_⟩
  intro name member
  rw [← names] at member
  obtain ⟨file, inside, rfl⟩ := List.mem_map.mp member
  exact ⟨file.2, holds.written file inside, otherHolds.written file (same ▸ inside)⟩

theorem render_of_normal {d : Datum} (normal : Json.normalize cfg = .ok d) :
    Json.render cfg = .ok (String.ofList (Json.write 0 d [])) := by
  rw [Json.render, normal]
  rfl

theorem node?_config (receives : Receives t directory)
    (sampled : Sampling.ofConfiguration cfg = .ok s) (rendered : Json.render cfg = .ok config) :
    (t.run cfg directory).1.node? (resolve (directory.child "config.json")) =
      some (.file config) := by
  obtain ⟨files, texts, -, -, holds⟩ := run_receives receives sampled rendered
  rw [Sampling.files, rendered, Sampling.fileNames, List.zip_cons_cons] at texts
  cases files with
  | nil => cases texts
  | cons file rest =>
      obtain ⟨name, text⟩ := file
      cases (List.cons.inj texts).1
      exact holds.written _ List.mem_cons_self

theorem load_config {d : Datum} (receives : Receives t directory)
    (sampled : Sampling.ofConfiguration cfg = .ok s) (normal : Json.normalize cfg = .ok d)
    (readable : Json.Readable nestingLimit d) : (t.run cfg directory).2 = .ok s.record ∧
      (t.run cfg directory).1.load (directory.child "config.json") =
        .ok (Json.reread nestingLimit d) := by
  have rendered := render_of_normal normal
  obtain ⟨-, configRead⟩ := run_shows receives sampled rendered
  obtain ⟨_, -, -, returned, -⟩ := run_receives receives sampled rendered
  refine ⟨returned, ?_⟩
  rw [load, configRead, ok_bind, Json.parse_write readable]
  rw [String.toList_ofList]
  exact Json.write_unix readable

theorem sampled_of_problem {part : Datum} {p : Problem} (held : Value.get cfg "qubo" = .ok part)
    (solver : Value.get? cfg "solver" = .ok none)
    (length : Value.get? cfg "record_length" = .ok none)
    (read : Configuration.problem part = .ok p) (nonnegative : 0 ≤ p.size) (small : p.size < 1024)
    (coefficients : p.HasCoefficients fun _ => True) :
    ∃ s, Sampling.ofConfiguration cfg = .ok s := by
  have missing : Solver.Supplies .null none := rfl
  obtain ⟨record, sampled⟩ := Solver.sample_of_allowed (ν := Datum) small coefficients missing
    missing (Solver.within_none _) ⟨nonnegative, nofun⟩
  have exhaustive : Configuration.solver (none : Option Datum) = .ok (.exhaustive .null) := rfl
  have unlimited : Configuration.requestedLength cfg = .ok .null := by
    rw [Configuration.requestedLength, length]
    rfl
  rw [Sampling.ofConfiguration, held, ok_bind, read, ok_bind, solver, ok_bind, Option.filter_none,
    exhaustive, ok_bind, unlimited, ok_bind, sampled]
  exact ⟨_, rfl⟩

end Files

section Configurations

def marked (first second : Text) : Datum := .table [(.text "qubo", .table [(.text "size", .int 1)]),
  (.text first, .null), (.text second, .null)]

def mixedTerms : Datum := .table [
  (.text "qubo", .table [(.text "size", .int 2), (.text "entries", .list [
    .list [.bool false, .int 0, .float (-1.5)], .list [.float 0.5, .bool true, .int 1],
    .table [(.text "0", .null), (.text "1", .null), (.text "2", .null)]])]),
  (.text "note", .bool true)]

/-- A configuration with a term whose three members are the keys of a table. -/
def keyedTerm : Datum := .table [(.text "qubo", .table [(.text "size", .int 1),
  (.text "entries", .list [.table [(.text "0", .null), (.text "00", .null),
    (.text "-2", .null)]])])]

def orderedTerm : Datum := .table [(.text "qubo", .table [
  (.text "entries", .list [.table [(.text "-2", .null), (.text "0", .null), (.text "00", .null)]]),
  (.text "size", .int 1)])]

section Marked

variable {first second : Text}

theorem textKeys_marked (distinct : (["qubo", first, second] : List Text).Nodup) :
    (marked first second).EveryTable Json.TextKeys := by
  apply Datum.EveryTable.table
  · refine ⟨by simp [Json.isText], ?_⟩
    rw [← List.pairwise_map]
    exact distinct
  · simp only [List.forall_mem_cons]
    refine ⟨.table ⟨by simp [Json.isText], List.pairwise_singleton _ _⟩ ?_, .scalar _, .scalar _,
      nofun⟩
    simp only [List.forall_mem_singleton]
    exact .scalar _

theorem readable_marked (distinct : (["qubo", first.joined, second.joined] : List Text).Nodup) :
    Json.Readable nestingLimit (marked first second) := by
  obtain ⟨depth, deep⟩ : ∃ depth, nestingLimit = depth + 2 := ⟨987, rfl⟩
  rw [deep]
  refine Json.Readable.table (by simp [Json.isText]) distinct ?_
  simp only [List.forall_mem_cons]
  refine ⟨.table (by simp [Json.isText]) (List.nodup_singleton _) ?_, .scalar rfl, .scalar rfl,
    nofun⟩
  simp only [List.forall_mem_singleton]
  exact .scalar (Json.checkScalar_bit (.inr rfl))

theorem normalize_marked {fields : Fields Datum}
    (ascending : (["qubo", first, second] : List Text).Pairwise fun s t => s.less t = true)
    (perm : List.Perm [(.text "qubo", .table [(.text "size", .int 1)]), (.text first, .null),
      (.text second, .null)] fields) :
    Json.normalize (Datum.table fields) = .ok (marked first second) := by
  obtain ⟨depth, deep⟩ : ∃ depth, nestingLimit = depth + 2 := ⟨987, rfl⟩
  rw [Json.normalize, deep]
  apply Json.normalizeWithin_table [("qubo", _, _), (first, _, _), (second, _, _)] ascending perm
  simp only [List.forall_mem_cons]
  refine ⟨?_, Json.normalizeWithin_scalar rfl, Json.normalizeWithin_scalar rfl,
    List.forall_mem_nil _⟩
  apply Json.normalizeWithin_table [("size", _, _)] (by decide) (.refl _)
  simp only [List.forall_mem_singleton]
  exact Json.normalizeWithin_scalar (Json.checkScalar_bit (.inr rfl))

theorem reread_marked (first second : Text) : Json.reread nestingLimit (marked first second) =
    marked first.joined second.joined := by
  obtain ⟨depth, deep⟩ : ∃ depth, nestingLimit = depth + 2 := ⟨987, rfl⟩
  simp [deep, marked, Json.reread, Scalar.reread, Text.joined_ofString]

end Marked

theorem keyed_keyedTerm : Json.Keyed keyedTerm := by
  have scalar (s : Scalar) : Json.Keyed (.scalar s) := .scalar s
  apply Datum.EveryTable.table (by unfold Json.TextKeys Json.SteadyKeys; decide)
  simp only [List.forall_mem_singleton]
  apply Datum.EveryTable.table (by unfold Json.TextKeys Json.SteadyKeys; decide)
  simp only [List.forall_mem_cons]
  refine ⟨scalar _, .list ?_, nofun⟩
  simp only [List.forall_mem_singleton]
  apply Datum.EveryTable.table (by unfold Json.TextKeys Json.SteadyKeys; decide)
  simp only [List.forall_mem_cons]
  exact ⟨scalar _, scalar _, scalar _, nofun⟩

theorem normalize_keyedTerm : Json.normalize keyedTerm = .ok orderedTerm := by
  obtain ⟨depth, deep⟩ : ∃ depth, nestingLimit = depth + 4 := ⟨985, rfl⟩
  have null : Json.normalizeWithin depth [] Datum.null = .ok .null :=
    Json.normalizeWithin_scalar rfl
  have term : Json.normalizeWithin (depth + 1) []
      (Datum.table [(.text "0", .null), (.text "00", .null), (.text "-2", .null)]) =
        .ok (.table [(.text "-2", .null), (.text "0", .null), (.text "00", .null)]) := by
    apply Json.normalizeWithin_table
      [("-2", .null, .null), ("0", .null, .null), ("00", .null, .null)] (by decide)
    · exact @List.perm_append_comm _ [_] [_, _]
    · simp only [List.forall_mem_cons]
      exact ⟨null, null, null, nofun⟩
  rw [Json.normalize, deep, keyedTerm]
  apply Json.normalizeWithin_table [("qubo", _, _)] (by decide) (.refl _)
  simp only [List.forall_mem_singleton]
  apply Json.normalizeWithin_table [("entries", _, _), ("size", _, _)] (by decide) (.swap _ _ _)
  simp only [List.forall_mem_cons]
  refine ⟨?_, Json.normalizeWithin_scalar (Json.checkScalar_bit (.inr rfl)), nofun⟩
  apply Json.normalizeWithin_list
  rw [List.mapM_cons, List.mapM_nil, term]
  rfl

theorem reread_orderedTerm : Json.reread nestingLimit orderedTerm = orderedTerm := by
  obtain ⟨depth, deep⟩ : ∃ depth, nestingLimit = depth + 4 := ⟨985, rfl⟩
  simp [deep, orderedTerm, Json.reread, Scalar.reread, Text.joined_ofString]

theorem sampled_keyedTerm : ∃ s, Sampling.ofConfiguration keyedTerm = .ok s := by
  obtain ⟨x, read⟩ : ∃ x, Value.toFloat (Datum.text "-2") = .ok x := by
    apply eq_ok_of_isOk
    decide +kernel
  have zero : Value.toInt (Datum.text "0") = .ok 0 := by
    apply eq_ok_of_toOption
    decide +kernel
  have again : Value.toInt (Datum.text "00") = .ok 0 := by
    apply eq_ok_of_toOption
    decide +kernel
  have sized : (Configuration.problemOf 1 [((0, 0), x)]).size = 1 := Problem.size_ofAttempts _ _
  refine sampled_of_problem (p := Configuration.problemOf 1 [((0, 0), x)]) rfl rfl rfl
    (Configuration.problem_of_terms rfl rfl rfl rfl rfl
      (.cons ⟨_, _, _, rfl, zero, again, read⟩ .nil) ?_) ?_ ?_
    (Configuration.coefficients_problemOf _ _)
  · simp
  · omega
  · omega

theorem sampled_mixedTerms : ∃ s, Sampling.ofConfiguration mixedTerms = .ok s := by
  obtain ⟨x, read⟩ : ∃ x, Value.toFloat (Datum.text "2") = .ok x := by
    apply eq_ok_of_isOk
    decide +kernel
  have zero : Value.toInt (Datum.text "0") = .ok 0 := by
    apply eq_ok_of_toOption
    decide +kernel
  have one : Value.toInt (Datum.text "1") = .ok 1 := by
    apply eq_ok_of_toOption
    decide +kernel
  have sized : (Configuration.problemOf 2 [((0, 0), -1.5), ((0, 1), 1.0), ((0, 1), x)]).size = 2 :=
    Problem.size_ofAttempts _ _
  refine sampled_of_problem
    (p := Configuration.problemOf 2 [((0, 0), -1.5), ((0, 1), 1.0), ((0, 1), x)]) rfl rfl rfl
    (Configuration.problem_of_terms rfl rfl rfl rfl rfl
      (.cons ⟨_, _, _, rfl, rfl, rfl, rfl⟩ (.cons ⟨_, _, _, rfl, rfl, rfl, rfl⟩
        (.cons ⟨_, _, _, rfl, zero, one, read⟩ .nil))) ?_) ?_ ?_
    (Configuration.coefficients_problemOf _ _)
  · simp
  · omega
  · omega

theorem document_mixedTerms : Json.Document nestingLimit mixedTerms := by
  obtain ⟨depth, deep⟩ : ∃ depth, nestingLimit = depth + 4 := ⟨985, rfl⟩
  have ten : 10 ≤ 10 ^ Literal.digitLimit := Nat.le_self_pow (by decide) 10
  have short {levels : Nat} {n : Int} (small : n.natAbs < 10) : Json.Document levels (.int n) :=
    .scalar (lt_of_lt_of_le small ten)
  rw [deep]
  apply Json.Document.table (by unfold Json.TextKeys; decide) (by decide)
  simp only [List.forall_mem_cons]
  refine ⟨.table (by unfold Json.TextKeys; decide) (by decide) ?_, .scalar trivial, nofun⟩
  simp only [List.forall_mem_cons]
  refine ⟨short (by decide), .list ?_, nofun⟩
  simp only [List.forall_mem_cons]
  refine ⟨.list ?_, .list ?_, .table (by unfold Json.TextKeys; decide) (by decide) ?_, nofun⟩
  · simp only [List.forall_mem_cons]
    exact ⟨.scalar trivial, short (by decide), .scalar trivial, nofun⟩
  · simp only [List.forall_mem_cons]
    exact ⟨.scalar trivial, .scalar trivial, short (by decide), nofun⟩
  · simp only [List.forall_mem_cons]
    exact ⟨.scalar trivial, .scalar trivial, .scalar trivial, nofun⟩

theorem termsInOrder_mixedTerms {part : Datum} (held : Value.get mixedTerms "qubo" = .ok part) :
    part.TermsInOrder := by
  cases held
  refine ⟨nofun, ?_⟩
  rintro - _ ⟨⟩
  refine ⟨nofun, ?_⟩
  rintro _ ⟨⟩
  simp only [List.forall_mem_cons]
  refine ⟨nofun, nofun, ?_, nofun⟩
  rintro _ ⟨⟩
  unfold Json.Ascending
  decide

theorem receives_empty {name : Text} (receiver : name = "a" ∨ name = "b") :
    Receives empty ⟨"", [name]⟩ := by
  rcases receiver with rfl | rfl
  · exact ⟨eq_ok_of_toOption (by decide), eq_ok_of_toOption (by decide), by decide⟩
  · exact ⟨eq_ok_of_toOption (by decide), eq_ok_of_toOption (by decide), by decide⟩

end Configurations

/-- The files of a run determine it. They show its record, and the configuration among them, when it
is read, is run like the one that was written, if no table in the place of a sequence has its keys
out of order and no two keys change their order when halves of surrogate pairs are joined. -/
theorem files_determine_run {cfg : Datum} {record : Record Assignment}
    (keyed : cfg.EveryTable Json.TextKeys) (returned : (t.run cfg directory).2 = .ok record) :
    ∃ s, Sampling.ofConfiguration cfg = .ok s ∧ s.record = record ∧
      ShowsSampling (t.run cfg directory).1 directory s ∧
      (cfg.EveryTable Json.SteadyKeys →
        (∀ part, Value.get cfg "qubo" = .ok part → part.TermsInOrder) →
        ∃ again, (t.run cfg directory).1.load (directory.child "config.json") = .ok again ∧
          ∀ other place, Receives other place → (other.run again place).2 = .ok record ∧
            SameFiles (t.run cfg directory).1 (other.run again place).1 directory place) := by
  obtain ⟨s, config, sampled, rendered, receives, rfl⟩ := run_returned returned
  obtain ⟨shows, configRead⟩ := run_shows receives sampled rendered
  refine ⟨s, sampled, rfl, shows, ?_⟩
  intro steady ordered
  obtain ⟨unix, again, read, rewritten, restored⟩ :=
    Json.restored_of_render (Datum.everyTable_and.mpr ⟨keyed, steady⟩) rendered
  have resampled := Restores.ofConfiguration ⟨_, restored⟩ (ordered _) sampled
  refine ⟨again, ?_, ?_⟩
  · rw [load, configRead unix, ok_bind, read]
  · intro other place otherReceives
    exact run_again receives sampled rendered otherReceives resampled rewritten

theorem files_determine_run_mixed :
    ∃ s, Sampling.ofConfiguration mixedTerms = .ok s ∧
      ShowsSampling (empty.run mixedTerms ⟨"", ["a"]⟩).1 ⟨"", ["a"]⟩ s ∧
      ∃ again, (empty.run mixedTerms ⟨"", ["a"]⟩).1.load ⟨"", ["a", "config.json"]⟩ = .ok again ∧
        (empty.run again ⟨"", ["b"]⟩).2 = .ok s.record ∧
        SameFiles (empty.run mixedTerms ⟨"", ["a"]⟩).1 (empty.run again ⟨"", ["b"]⟩).1
          ⟨"", ["a"]⟩ ⟨"", ["b"]⟩ := by
  obtain ⟨s, sampled⟩ := sampled_mixedTerms
  obtain ⟨config, rendered⟩ := document_mixedTerms.rendered
  obtain ⟨_, -, -, returned, -⟩ := run_receives (receives_empty (.inl rfl)) sampled rendered
  obtain ⟨texts, steady⟩ := Datum.everyTable_and.mp document_mixedTerms.keyed
  obtain ⟨_, sampledAgain, -, shows, rerun⟩ := files_determine_run texts returned
  cases sampledAgain.symm.trans sampled
  obtain ⟨again, loaded, alike⟩ := rerun steady fun _ => termsInOrder_mixedTerms
  obtain ⟨returnedAgain, same⟩ := alike empty ⟨"", ["b"]⟩ (receives_empty (.inr rfl))
  exact ⟨s, sampled, shows, again, loaded, returnedAgain, same⟩

/-- A table in the place of a term is read back as another term, and keys that are joined may
change their order. -/
theorem not_rerun_reordered :
    (Json.Keyed keyedTerm ∧
      ∃ record again, (empty.run keyedTerm ⟨"", ["a"]⟩).2 = .ok record ∧
        (empty.run keyedTerm ⟨"", ["a"]⟩).1.load ⟨"", ["a", "config.json"]⟩ = .ok again ∧
        ∀ (other : FileTree) place, (other.run again place).2 ≠ .ok record) ∧
    ∃ cfg again : Datum, cfg.EveryTable Json.TextKeys ∧
      (∃ record, (empty.run cfg ⟨"", ["a"]⟩).2 = .ok record) ∧
      (empty.run cfg ⟨"", ["a"]⟩).1.load ⟨"", ["a", "config.json"]⟩ = .ok again ∧
      ∀ (other : FileTree) place, Receives other place →
        ¬SameFiles (empty.run cfg ⟨"", ["a"]⟩).1 (other.run again place).1 ⟨"", ["a"]⟩ place := by
  refine ⟨⟨keyed_keyedTerm, ?_⟩, ?_⟩
  · obtain ⟨s, sampled⟩ := sampled_keyedTerm
    have readable := Json.readable_of_normal keyed_keyedTerm normalize_keyedTerm
    obtain ⟨returned, loaded⟩ :=
      load_config (receives_empty (.inl rfl)) sampled normalize_keyedTerm readable
    rw [reread_orderedTerm] at loaded
    refine ⟨s.record, orderedTerm, returned, loaded, ?_⟩
    intro other place again
    obtain ⟨_, _, sampled, -⟩ := run_returned again
    have refused : (Sampling.ofConfiguration orderedTerm).isOk = false := by decide +kernel
    rw [sampled] at refused
    cases refused
  · have halves : Text.joined ⟨[.surrogate 0x3D, .surrogate 0x600]⟩ = "😀" := by decide +kernel
    have normal : Json.normalize (marked ⟨[.surrogate 0x3D, .surrogate 0x600]⟩ "\uffe1") = _ :=
      normalize_marked (by decide) (.refl _)
    have normalAgain : Json.normalize (marked "😀" "\uffe1") = .ok (marked "\uffe1" "😀") :=
      normalize_marked (by decide +kernel) (.cons _ (.swap _ _ _))
    obtain ⟨s, sampled⟩ : ∃ s, Sampling.ofConfiguration
        (marked ⟨[.surrogate 0x3D, .surrogate 0x600]⟩ "\uffe1") = .ok s :=
      sampled_of_problem rfl rfl rfl rfl (by decide) (by decide) nofun
    obtain ⟨_, sampledAgain⟩ : ∃ s, Sampling.ofConfiguration (marked "😀" "\uffe1") = .ok s :=
      sampled_of_problem rfl rfl rfl rfl (by decide) (by decide) nofun
    obtain ⟨returned, loaded⟩ := load_config (receives_empty (.inl rfl)) sampled normal
      (readable_marked (by decide +kernel))
    rw [reread_marked, halves, Text.joined_ofString] at loaded
    refine ⟨_, _, textKeys_marked (by decide), ⟨_, returned⟩, loaded, ?_⟩
    intro other place receives same
    obtain ⟨text, first, second⟩ := same "config.json" List.mem_cons_self
    have written := node?_config (receives_empty (.inl rfl)) sampled (render_of_normal normal)
    cases written.symm.trans first
    rw [node?_config receives sampledAgain (render_of_normal normalAgain), Option.some.injEq,
      FileNode.file.injEq] at second
    have apart : String.ofList (Json.write 0 (marked "\uffe1" "😀") []) ≠ String.ofList
        (Json.write 0 (marked ⟨[.surrogate 0x3D, .surrogate 0x600]⟩ "\uffe1") []) := by
      decide +kernel
    exact apart second

end FileTree

end BinaryQuadratic
