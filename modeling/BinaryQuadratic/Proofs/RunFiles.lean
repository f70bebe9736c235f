import BinaryQuadratic.Proofs.DirectoryTree
import BinaryQuadratic.Proofs.RecordDocument
import BinaryQuadratic.Proofs.SharedFields

/-!
The files of runs. A run that returns a record has written its three files, and one that does not
has changed no file. The command line shows which of the two it was.
-/

namespace BinaryQuadratic

namespace FileTree

variable {t after : FileTree} {directory : PathName}

structure Fits (directory : PathName) (name : Text) : Prop where
  checked : checkPath (directory.child name) = .ok ()
  short : byteSize name ≤ nameLimit
  forward : name ≠ ".."

theorem fits_fileNames (checked : checkPath (directory.child "config.json") = .ok ()) :
    ∀ name ∈ Sampling.fileNames, Fits directory name := by
  simp only [Sampling.fileNames, List.forall_mem_cons]
  exact ⟨⟨checked, by decide, by decide⟩,
    ⟨checkPath_child (by decide) (by decide) (by decide) checked, by decide, by decide⟩,
    ⟨checkPath_child (by decide) (by decide) (by decide) checked, by decide, by decide⟩, nofun⟩

theorem place_inj {first second : Text} (firstForward : first ≠ "..") (secondForward : second ≠ "..")
    (same : resolve (directory.child first) = resolve (directory.child second)) :
    first = second := by
  rw [resolve_child directory firstForward, resolve_child directory secondForward] at same
  simpa using same

structure Holds (t after : FileTree) (directory : PathName) (files : List (Text × String)) : Prop where
  written : ∀ file ∈ files, after.node? (resolve (directory.child file.1)) = some (.file file.2)
  others : ∀ place, (∀ file ∈ files, place ≠ resolve (directory.child file.1)) →
    after.node? place = t.node? place

theorem holds_cons {name : Text} {text : String} {files : List (Text × String)}
    (fits : ∀ file ∈ (name, text) :: files, Fits directory file.1)
    (distinct : (((name, text) :: files).map Prod.fst).Nodup)
    (free : t.node? (resolve (directory.child name)) ≠ some .directory)
    (rest : Holds (t.put (resolve (directory.child name)) (.file text)) after directory files) :
    Holds t after directory ((name, text) :: files) := by
  rw [List.forall_mem_cons] at fits
  rw [List.map_cons, List.nodup_cons] at distinct
  refine ⟨?_, ?_⟩
  · rw [List.forall_mem_cons]
    refine ⟨?_, rest.written⟩
    rw [rest.others, node?_put_self free]
    intro file member same
    apply distinct.1
    rw [place_inj fits.1.forward (fits.2 file member).forward same]
    exact List.mem_map_of_mem member
  · intro place apart
    rw [List.forall_mem_cons] at apart
    rw [rest.others place apart.2, node?_put, if_neg]
    rintro ⟨here, -⟩
    exact apart.1 here

theorem writeAll_holds {files : List (Text × String)} (passable : Passable t [] directory.components)
    (fits : ∀ file ∈ files, Fits directory file.1) (distinct : (files.map Prod.fst).Nodup)
    (free : ∀ file ∈ files, t.node? (resolve (directory.child file.1)) ≠ some .directory) :
    ∃ after, t.writeAll directory (files.map fun file => (file.1, .ok file.2)) = (after, .ok ()) ∧
      Holds t after directory files := by
  induction files generalizing t with
  | nil => exact ⟨t, rfl, nofun, fun _ _ => rfl⟩
  | cons file rest ih =>
      obtain ⟨name, text⟩ := file
      have first := List.forall_mem_cons.mp fits
      have clear := List.forall_mem_cons.mp free
      obtain ⟨after, run, holds⟩ := ih (t := t.put (resolve (directory.child name)) (.file text))
        (passable.put clear.1) first.2 (List.nodup_cons.mp distinct).2 (by
          intro other member
          rw [node?_put]
          split
          · nofun
          · exact clear.2 other member)
      refine ⟨after, ?_, holds_cons fits distinct clear.1 holds⟩
      rw [List.map_cons, writeAll, write_child passable first.1.checked first.1.short clear.1]
      exact run

theorem writeAll_blocked {files : List (Text × String)}
    (passable : Passable t [] directory.components)
    (fits : ∀ file ∈ files, Fits directory file.1)
    (blocked : ∃ file ∈ files, t.node? (resolve (directory.child file.1)) = some .directory) :
    (t.writeAll directory (files.map fun file => (file.1, .ok file.2))).2 =
      .error (.file .isADirectory) := by
  induction files generalizing t with
  | nil =>
      obtain ⟨file, member, -⟩ := blocked
      cases member
  | cons file rest ih =>
      obtain ⟨name, text⟩ := file
      rw [List.forall_mem_cons] at fits
      rw [List.map_cons, writeAll]
      by_cases here : t.node? (resolve (directory.child name)) = some .directory
      · rw [write_child_directory passable fits.1.checked fits.1.short here]
      · rw [write_child passable fits.1.checked fits.1.short here]
        apply ih (passable.put here) fits.2
        obtain ⟨other, member, there⟩ := blocked
        rcases List.mem_cons.mp member with rfl | later
        · exact (here there).elim
        · exact ⟨other, later, node?_put_directory here there⟩

structure Receives (t : FileTree) (directory : PathName) : Prop where
  made : (t.ensureDirectory directory).2 = .ok ()
  checked : checkPath (directory.child "config.json") = .ok ()
  free : ∀ name ∈ Sampling.fileNames,
    (t.ensureDirectory directory).1.node? (resolve (directory.child name)) ≠ some .directory

end FileTree

namespace Sampling

theorem isSampled {ν : Type} [Value ν] {cfg : ν} {s : Sampling}
    (sampled : ofConfiguration cfg = .ok s) :
    ∃ (size : Nat) (levels : List (Float × List Int)) (info : RunInfo),
      s.problem.size = size ∧ s.record.IsSampled size levels info := by
  obtain ⟨_, -, run⟩ := bind_eq_ok.mp sampled
  obtain ⟨problem, -, run⟩ := bind_eq_ok.mp run
  obtain ⟨_, -, run⟩ := bind_eq_ok.mp run
  obtain ⟨solver, -, run⟩ := bind_eq_ok.mp run
  obtain ⟨length, -, run⟩ := bind_eq_ok.mp run
  obtain ⟨record, returned, run⟩ := bind_eq_ok.mp run
  cases run
  exact Solver.sample_sampled returned

theorem files_sampled {ν : Type} [Value ν] {s : Sampling} {size : Nat}
    {levels : List (Float × List Int)} {info : RunInfo} (cfg : ν) (sized : s.problem.size = size)
    (sampled : s.record.IsSampled size levels info) :
    s.files cfg = fileNames.zip [Json.render cfg,
      .ok (String.ofList (Json.write 0 (document s.solverName size s.record.capacity info levels) [])),
      .ok (",".intercalate Record.columnNames ++ "\n" ++
        String.join (levels.map Record.IsSampled.lineOf))] := by
  obtain ⟨datum, shaped, normal⟩ := normalize_toDatum sized sampled
  have rendered : Json.render datum = .ok
      (String.ofList (Json.write 0 (document s.solverName size s.record.capacity info levels) [])) := by
    rw [Json.render, normal, ok_bind]
    rfl
  rw [files, shaped, ok_bind, rendered, sampled.commaSeparated]

theorem files_ok {ν : Type} [Value ν] {cfg : ν} {s : Sampling} {config : String}
    (sampled : ofConfiguration cfg = .ok s) (rendered : Json.render cfg = .ok config) :
    ∃ files : List (Text × String), s.files cfg = files.map (fun file => (file.1, .ok file.2)) ∧
      files.map Prod.fst = fileNames := by
  obtain ⟨size, levels, info, sized, known⟩ := isSampled sampled
  refine ⟨fileNames.zip [config,
    String.ofList (Json.write 0 (document s.solverName size s.record.capacity info levels) []),
    ",".intercalate Record.columnNames ++ "\n" ++ String.join (levels.map Record.IsSampled.lineOf)],
    ?_, rfl⟩
  rw [files_sampled cfg sized known, rendered]
  rfl

end Sampling

namespace FileTree

variable {ν : Type} [Value ν] {t : FileTree} {cfg : ν} {directory : PathName} {s : Sampling}
  {config : String}

theorem ensureDirectory_eq {outcome : Except Fault Unit}
    (made : (t.ensureDirectory directory).2 = outcome) :
    t.ensureDirectory directory = ((t.ensureDirectory directory).1, outcome) :=
  Prod.ext rfl made

theorem run_unmade {fault : Fault} (made : (t.ensureDirectory directory).2 = .error fault) :
    t.run cfg directory = ((t.ensureDirectory directory).1, .error fault) := by
  rw [run, ensureDirectory_eq made]

theorem run_unsampled {fault : Fault} (made : (t.ensureDirectory directory).2 = .ok ())
    (sampled : Sampling.ofConfiguration cfg = .error fault) :
    t.run cfg directory = ((t.ensureDirectory directory).1, .error fault) := by
  rw [run, ensureDirectory_eq made, sampled]

theorem run_made (made : (t.ensureDirectory directory).2 = .ok ())
    (sampled : Sampling.ofConfiguration cfg = .ok s) : t.run cfg directory =
      (((t.ensureDirectory directory).1.writeAll directory (s.files cfg)).1,
        ((t.ensureDirectory directory).1.writeAll directory (s.files cfg)).2.map
          fun _ => s.record) := by
  rw [run, ensureDirectory_eq made, sampled]

theorem run_receives (receives : Receives t directory)
    (sampled : Sampling.ofConfiguration cfg = .ok s) (rendered : Json.render cfg = .ok config) :
    ∃ files, s.files cfg = files.map (fun file => (file.1, .ok file.2)) ∧
      files.map Prod.fst = Sampling.fileNames ∧ (t.run cfg directory).2 = .ok s.record ∧
      Holds (t.ensureDirectory directory).1 (t.run cfg directory).1 directory files := by
  obtain ⟨files, texts, names⟩ := Sampling.files_ok sampled rendered
  have named {file : Text × String} (member : file ∈ files) : file.1 ∈ Sampling.fileNames := by
    rw [← names]
    exact List.mem_map_of_mem member
  obtain ⟨after, run, holds⟩ := writeAll_holds
    ((ensureDirectory_grown t directory).2 receives.made)
    (fun file member => fits_fileNames receives.checked file.1 (named member))
    (by rw [names]; decide) (fun file member => receives.free file.1 (named member))
  rw [← texts] at run
  refine ⟨files, texts, names, ?_⟩
  rw [run_made receives.made sampled, run]
  exact ⟨rfl, holds⟩

theorem run_blocked (made : (t.ensureDirectory directory).2 = .ok ())
    (sampled : Sampling.ofConfiguration cfg = .ok s) (rendered : Json.render cfg = .ok config)
    (checked : checkPath (directory.child "config.json") = .ok ())
    (blocked : ∃ name ∈ Sampling.fileNames,
      (t.ensureDirectory directory).1.node? (resolve (directory.child name)) = some .directory) :
    (t.run cfg directory).2 = .error (.file .isADirectory) := by
  obtain ⟨files, texts, names⟩ := Sampling.files_ok sampled rendered
  obtain ⟨name, member, there⟩ := blocked
  rw [← names] at member
  obtain ⟨file, inside, rfl⟩ := List.mem_map.mp member
  have fits : ∀ other ∈ files, Fits directory other.1 := by
    intro other otherInside
    apply fits_fileNames checked
    rw [← names]
    exact List.mem_map_of_mem otherInside
  rw [run_made made sampled, texts,
    writeAll_blocked ((ensureDirectory_grown t directory).2 made) fits ⟨file, inside, there⟩]
  rfl

/-- How a run ends: with a fault before it has written anything, with its files written, or with a
directory in the place of one of them. -/
theorem run_cases (t : FileTree) (cfg : ν) (directory : PathName) :
    (∃ fault, (t.run cfg directory).2 = .error fault ∧
      Grown t (t.run cfg directory).1 (stations [] directory.components)) ∨
    (∃ s config, Sampling.ofConfiguration cfg = .ok s ∧ Json.render cfg = .ok config ∧
      Receives t directory) ∨
    (t.run cfg directory).2 = .error (.file .isADirectory) ∧
      ∃ name ∈ Sampling.fileNames,
        (t.ensureDirectory directory).1.node? (resolve (directory.child name)) =
          some .directory := by
  have grown := (ensureDirectory_grown t directory).1
  cases made : (t.ensureDirectory directory).2 with
  | error fault =>
      rw [run_unmade made]
      exact .inl ⟨fault, rfl, grown⟩
  | ok _ =>
      cases sampled : Sampling.ofConfiguration cfg with
      | error fault =>
          rw [run_unsampled made sampled]
          exact .inl ⟨fault, rfl, grown⟩
      | ok s =>
          cases rendered : Json.render cfg with
          | error fault =>
              rw [run_made made sampled, Sampling.files, rendered]
              exact .inl ⟨fault, rfl, grown⟩
          | ok config =>
              rcases write_cases (t.ensureDirectory directory).1 (directory.child "config.json")
                config with ⟨fault, stopped⟩ | ⟨-, checked, -⟩
              · rw [run_made made sampled, Sampling.files, rendered, Sampling.fileNames,
                  List.zip_cons_cons, writeAll, stopped]
                exact .inl ⟨fault, rfl, grown⟩
              · refine .inr ?_
                by_cases blocked : ∃ name ∈ Sampling.fileNames,
                    (t.ensureDirectory directory).1.node? (resolve (directory.child name)) =
                      some .directory
                · exact .inr ⟨run_blocked made sampled rendered checked blocked, blocked⟩
                · refine .inl ⟨s, config, rfl, rfl, made, checked, ?_⟩
                  intro name member there
                  exact blocked ⟨name, member, there⟩

theorem run_returned {record : Record Assignment} (returned : (t.run cfg directory).2 = .ok record) :
    ∃ s config, Sampling.ofConfiguration cfg = .ok s ∧ Json.render cfg = .ok config ∧
      Receives t directory ∧ s.record = record := by
  rcases run_cases t cfg directory with ⟨fault, failed, -⟩ | ⟨s, config, sampled, rendered, receives⟩ |
    ⟨failed, -⟩
  · cases returned.symm.trans failed
  · obtain ⟨_, -, -, outcome, -⟩ := run_receives receives sampled rendered
    cases returned.symm.trans outcome
    exact ⟨s, config, sampled, rendered, receives, rfl⟩
  · cases returned.symm.trans failed

def Clear (t : FileTree) (directory : PathName) : Prop :=
  ∀ name ∈ Sampling.fileNames, t.node? (resolve (directory.child name)) ≠ some .directory

/-- A run whose files do not have the names of directories writes them all or changes no file. -/
theorem run_all_or_none (clear : Clear t directory)
    (unhindered : (".." : Text) ∈ directory.components →
      (t.run cfg directory).2 ≠ .error (.file .isADirectory)) :
    (∃ s prepared files, (t.run cfg directory).2 = .ok s.record ∧
      Sampling.ofConfiguration cfg = .ok s ∧
      s.files cfg = files.map (fun file => (file.1, .ok file.2)) ∧
      files.map Prod.fst = Sampling.fileNames ∧
      Grown t prepared (stations [] directory.components) ∧
      Holds prepared (t.run cfg directory).1 directory files) ∨
    ∃ fault, (t.run cfg directory).2 = .error fault ∧
      Grown t (t.run cfg directory).1 (stations [] directory.components) := by
  have grown := (ensureDirectory_grown t directory).1
  rcases run_cases t cfg directory with failed | ⟨s, config, sampled, rendered, receives⟩ |
    ⟨outcome, name, member, there⟩
  · exact .inr failed
  · obtain ⟨files, texts, names, returned, holds⟩ := run_receives receives sampled rendered
    exact .inl ⟨s, _, files, returned, sampled, texts, names, grown, holds⟩
  · by_cases back : (".." : Text) ∈ directory.components
    · exact (unhindered back outcome).elim
    · rcases grown (resolve (directory.child name)) with same | ⟨-, -, station⟩
      · exact (clear name member (same ▸ there)).elim
      · have forward : ∀ name ∈ Sampling.fileNames, name ≠ (".." : Text) := by decide
        exact (child_not_mem_stations (forward name member) back station).elim

end FileTree

end BinaryQuadratic
