import BinaryQuadratic.CommandLine
import BinaryQuadratic.Proofs.AlikeValues
import BinaryQuadratic.Proofs.RankingMap
import BinaryQuadratic.Proofs.RankingPermutation

/-!
Configurations that are alike have the same runs: the same problem, solver and record, and the same
written form.
-/

namespace BinaryQuadratic

section Sorting

variable {ν μ α : Type} {P : ν → μ → Prop}

theorem exists_pairs {fields : Fields ν} {others : Fields μ}
    (related : List.Forall₂ (fun field other => field.1 = other.1 ∧ P field.2 other.2)
      fields others) : ∃ pairs : Fields (ν × μ), (∀ pair ∈ pairs, P pair.2.1 pair.2.2) ∧
      fields = pairs.map (fun pair => (pair.1, pair.2.1)) ∧
      others = pairs.map fun pair => (pair.1, pair.2.2) := by
  induction related with
  | nil => exact ⟨[], by simp, rfl, rfl⟩
  | @cons field other _ _ head _ ih =>
      obtain ⟨pairs, held, rfl, rfl⟩ := ih
      refine ⟨(field.1, field.2, other.2) :: pairs, ?_, rfl, ?_⟩
      · intro pair member
        rcases List.mem_cons.mp member with rfl | member
        · exact head.2
        · exact held pair member
      · rw [List.map_cons, head.1]

theorem Json.sortFields_map (f : ν → α) (fields : Fields ν) :
    Json.sortFields (fields.map fun field => (field.1, f field.2)) =
      (fun sorted => sorted.map fun field => (field.1, f field.2)) <$> Json.sortFields fields := by
  unfold Json.sortFields
  simp only [List.length_map, List.all_map, Function.comp_def]
  split
  · rw [Ranking.rank_map (fun _ _ => rfl) (fun _ => rfl)]
    rfl
  · rfl

theorem Json.sortFields_alike {fields : Fields ν} {others : Fields μ}
    (related : List.Forall₂ (fun field other => field.1 = other.1 ∧ P field.2 other.2)
      fields others) :
    Agree (List.Forall₂ fun field other => field.1 = other.1 ∧ P field.2 other.2)
      (Json.sortFields fields) (Json.sortFields others) := by
  obtain ⟨pairs, held, rfl, rfl⟩ := exists_pairs related
  rw [Json.sortFields_map, Json.sortFields_map]
  unfold Json.sortFields
  split
  · apply Agree.ok
    rw [List.forall₂_map_left_iff, List.forall₂_map_right_iff, List.forall₂_same]
    intro pair member
    exact ⟨rfl, held pair ((Ranking.rank_perm _ _ pairs).mem_iff.mp member)⟩
  · exact .error _

end Sorting

namespace Likeness

variable {ν μ : Type} [Value ν] [Value μ] {P : ν → μ → Prop} {numbers : Nat → Nat → Prop}
  {v : ν} {w : μ} (L : Likeness P numbers) (same : P v w)

section Parts

variable {part : Option ν} {other : Option μ} (parts : Option.Rel P part other)

include L parts

theorem filterTruthy : Option.Rel P (part.filter Value.isTruthy) (other.filter Value.isTruthy) := by
  cases parts with
  | none => exact .none
  | @some v w same =>
      rw [Option.filter_some, Option.filter_some, L.isTruthy same]
      split
      · exact .some same
      · exact .none

theorem itemsOf :
    Agree (List.Forall₂ P) (Configuration.itemsOf part) (Configuration.itemsOf other) := by
  have present := L.filterTruthy parts
  unfold Configuration.itemsOf
  generalize part.filter Value.isTruthy = first, other.filter Value.isTruthy = second at present ⊢
  cases present with
  | none => exact .ok .nil
  | some same => exact L.items same

theorem setting (key : Text) :
    Agree (Option.Rel P) (Configuration.setting part key) (Configuration.setting other key) := by
  cases parts with
  | none => exact .ok .none
  | some same => exact L.get? same key

theorem solverKind : Configuration.solverKind part = Configuration.solverKind other := by
  refine (L.setting parts "kind").bind_eq fun kind second found => ?_
  cases found with
  | none => rfl
  | some same => exact congrArg (Text.lowerCase <$> ·) (L.shown same)

theorem integerOrNull : Configuration.integerOrNull part = Configuration.integerOrNull other := by
  cases parts with
  | none => rfl
  | @some v w same =>
      simp only [Configuration.integerOrNull, Option.filter_some, L.isNull same]
      cases Value.isNull w with
      | true => rfl
      | false => exact congrArg (Datum.int <$> ·) (L.toInt same)

/-- Solvers built from sections that are alike differ in the name of the hardware at most. -/
theorem solver : Agree (fun (first : Solver ν) (second : Solver μ) => first.name = second.name ∧
      ∀ p requested, first.sample p requested = second.sample p requested)
    (Configuration.solver part) (Configuration.solver other) := by
  unfold Configuration.solver
  rw [L.solverKind parts]
  cases Configuration.solverKind other with
  | error fault => exact .error fault
  | ok kind =>
      rw [ok_bind, ok_bind]
      split
      · refine (L.setting parts "max_size").bind fun first second found => ?_
        rw [L.integerOrNull found]
        cases Configuration.integerOrNull second with
        | error fault => exact .error fault
        | ok limit => exact .ok ⟨rfl, fun _ _ => rfl⟩
      · split
        · exact (L.setting parts "solver_name").bind fun _ _ _ => .ok ⟨rfl, fun _ _ => rfl⟩
        · exact .error _

end Parts

include L same

theorem insertItem (p : Problem) :
    Configuration.insertItem p v = Configuration.insertItem p w := by
  refine (L.items same).bind_eq fun xs ys related => ?_
  have shape : (Value.quoted v >>= fun q => throw (.entryShape q) : Except Fault Problem) =
      Value.quoted w >>= fun q => throw (.entryShape q) := by rw [L.quoted same]
  rcases related with _ | ⟨i, _ | ⟨j, _ | ⟨value, _ | _⟩⟩⟩
  · exact shape
  · exact shape
  · exact shape
  · dsimp only
    rw [L.toInt i, L.toInt j, L.toFloat value]
  · exact shape

theorem problem : Configuration.problem v = Configuration.problem w := by
  unfold Configuration.problem
  rw [L.mentions same, L.mentions same]
  refine bind_congr fun dense => ?_
  split
  · refine (L.get same "hamiltonian").bind_eq fun _ _ grid => ?_
    rw [L.ofSequences grid]
  · refine bind_congr fun sized => ?_
    split
    · refine (L.get same "size").bind_eq fun _ _ size => ?_
      rw [L.toInt size]
      refine bind_congr fun number => ?_
      refine (L.get? same "entries").bind_eq fun _ _ entries => ?_
      refine (L.itemsOf entries).bind_eq fun _ _ items => ?_
      exact foldlM_eq_of_forall₂ items (fun p _ _ item => L.insertItem item p) _
    · rfl

theorem requestedLength :
    Configuration.requestedLength v = Configuration.requestedLength w :=
  (L.get? same "record_length").bind_eq fun _ _ found => L.integerOrNull found

theorem ofConfiguration : Sampling.ofConfiguration v = Sampling.ofConfiguration w := by
  unfold Sampling.ofConfiguration
  refine (L.get same "qubo").bind_eq fun _ _ part => ?_
  rw [L.problem part, L.requestedLength same]
  refine bind_congr fun problem => ?_
  refine (L.get? same "solver").bind_eq fun _ _ found => ?_
  refine (L.solver (L.filterTruthy found)).bind_eq fun first second both => ?_
  simp only [both.1, both.2]

theorem normalizeWithin (levels : Nat) {outer others : List Nat}
    (met : List.Forall₂ numbers outer others) :
    Json.normalizeWithin levels outer v = Json.normalizeWithin levels others w := by
  induction levels generalizing v w outer others with
  | zero =>
      unfold Json.normalizeWithin
      have alike := L.layer same
      generalize Value.layer v = first, Value.layer w = second at alike ⊢
      cases alike <;> rfl
  | succ levels ih =>
      have inner {a : ν} {b : μ} (part : P a b) := ih part (L.met_inside same met)
      unfold Json.normalizeWithin
      rw [L.contains same met]
      have alike := L.layer same
      generalize Value.layer v = first, Value.layer w = second at alike ⊢
      cases alike with
      | scalar s => rfl
      | list related =>
          dsimp only
          rw [mapM_eq_of_forall₂ related fun a b part => inner part]
      | pair first second =>
          dsimp only
          rw [inner first, inner second]
      | set members => rfl
      | table related =>
          dsimp only
          congr 1
          refine (Json.sortFields_alike related).bind_eq fun _ _ sorted => ?_
          rw [mapM_eq_of_forall₂ sorted fun field other both => by rw [both.1, inner both.2]]

theorem render : Json.render v = Json.render w := by
  rw [Json.render, Json.normalize, L.normalizeWithin same _ .nil]
  rfl

theorem run (t : FileTree) (directory : PathName) : t.run v directory = t.run w directory := by
  unfold FileTree.run Sampling.files
  rw [L.ofConfiguration same, L.render same]

theorem pathArgument : CommandLine.pathArgument v = CommandLine.pathArgument w := by
  unfold CommandLine.pathArgument
  have alike := L.layer same
  generalize Value.layer v = first, Value.layer w = second at alike ⊢
  cases alike with
  | scalar s => cases s <;> rfl
  | _ => rfl

end Likeness

end BinaryQuadratic
