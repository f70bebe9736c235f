import BinaryQuadratic.Proofs.AlikeValues
import BinaryQuadratic.Proofs.Json.WrittenTexts

/-!
The forms in which values are written. A normal form has the fields of every table in ascending
order of their keys and is otherwise the value itself.
-/

namespace BinaryQuadratic

inductive Datum.EveryTable (P : Fields Datum → Prop) : Datum → Prop
  | scalar (s : Scalar) : EveryTable P (.scalar s)
  | list {items : List Datum} (each : ∀ item ∈ items, EveryTable P item) :
      EveryTable P (.list items)
  | table {fields : Fields Datum} (held : P fields)
      (each : ∀ field ∈ fields, EveryTable P field.2) : EveryTable P (.table fields)

namespace Json

def TextKeys (fields : Fields Datum) : Prop :=
  (∀ field ∈ fields, isText field.1 = true) ∧
    fields.Pairwise fun a b => keyOf a.1 ≠ keyOf b.1

/-- The keys of a table have the same order when they are joined. -/
def SteadyKeys (fields : Fields Datum) : Prop :=
  ∀ a ∈ fields, ∀ b ∈ fields, (keyOf a.1).less (keyOf b.1) = true →
    (keyOf a.1).joined.less (keyOf b.1).joined = true

abbrev Keyed (d : Datum) : Prop := d.EveryTable fun fields => TextKeys fields ∧ SteadyKeys fields

/-- One level of a datum and of another one that has the same parts, scalars aside, and the fields
of its tables in ascending order. -/
inductive Arranged (change : Scalar → Scalar) (P : Nat → Datum → Datum → Prop) :
    Nat → Datum → Datum → Prop
  | scalar {levels : Nat} {s : Scalar} (checked : checkScalar s = .ok s) :
      Arranged change P levels (.scalar s) (.scalar (change s))
  | list {levels : Nat} {items others : List Datum}
      (related : List.Forall₂ (P levels) items others) :
      Arranged change P (levels + 1) (.list items) (.list others)
  | table {levels : Nat} {fields sorted others : Fields Datum} (perm : sorted.Perm fields)
      (ascending : Ascending sorted)
      (steady : sorted.Pairwise fun a b => (keyOf a.1).joined.less (keyOf b.1).joined = true)
      (related : List.Forall₂ (fun field other => other.1 = change field.1 ∧
        P levels field.2 other.2) sorted others) :
      Arranged change P (levels + 1) (.table fields) (.table others)

variable {levels : Nat} {outer : List Nat} {v d : Datum}

theorem normalizeWithin_scalar {s checked : Scalar} (run : checkScalar s = .ok checked) :
    normalizeWithin levels outer (Datum.scalar s) = .ok (.scalar checked) := by
  cases levels with
  | zero =>
      change Datum.scalar <$> checkScalar s = _
      rw [run, map_ok]
  | succ levels =>
      change Datum.scalar <$> checkScalar s = _
      rw [run, map_ok]

theorem normalizeWithin_list {items results : List Datum}
    (run : items.mapM (normalizeWithin levels outer) = .ok results) :
    normalizeWithin (levels + 1) outer (Datum.list items) = .ok (.list results) := by
  change Datum.list <$> items.mapM (normalizeWithin levels outer) = _
  rw [run, map_ok]

theorem normalizeWithin_fields {fields : Fields Datum} :
    normalizeWithin (levels + 1) outer (Datum.table fields) = (sortFields fields >>= fun sorted =>
      Datum.table <$> sorted.mapM fun field => do
        pure (.text (← keyText field.1), ← normalizeWithin levels outer field.2)) := rfl

theorem normalizeWithin_table {fields : Fields Datum} (sorted : List (Text × Datum × Datum))
    (ascending : (sorted.map Prod.fst).Pairwise fun s t => s.less t = true)
    (perm : (sorted.map fun field => (Scalar.text field.1, field.2.1)).Perm fields)
    (values : ∀ field ∈ sorted, normalizeWithin levels outer field.2.1 = .ok field.2.2) :
    normalizeWithin (levels + 1) outer (Datum.table fields) =
      .ok (.table (sorted.map fun field => (.text field.1, field.2.2))) := by
  have order : Ascending (sorted.map fun field => (Scalar.text field.1, field.2.1)) := by
    refine ⟨?_, ?_⟩
    · intro field member
      obtain ⟨entry, -, rfl⟩ := List.mem_map.mp member
      rfl
    · rw [List.pairwise_map] at ascending ⊢
      exact ascending
  rw [normalizeWithin_fields, sortFields_of_perm order perm, ok_bind, List.mapM_map,
    mapM_eq_ok_map (g := fun field : Text × Datum × Datum => (Scalar.text field.1, field.2.2)),
    map_ok]
  intro field member
  change (normalizeWithin levels outer field.2.1 >>= fun value =>
    .ok (Scalar.text field.1, value)) = _
  rw [values field member, ok_bind]

theorem keyText_of_isText {key : Scalar} (text : isText key = true) :
    keyText key = .ok (keyOf key) := by
  rw [eq_text_of_isText text]
  rfl

theorem checkScalar_same {s checked : Scalar} (run : checkScalar s = .ok checked) :
    checked = s := by
  cases s with
  | int n =>
      obtain ⟨_, -, same⟩ := bind_eq_ok.mp run
      cases same
      rfl
  | bytes bs => cases run
  | time t => cases run
  | _ =>
      cases run
      rfl

theorem arranged_of_normal (keyed : Keyed v) (run : normalizeWithin levels outer v = .ok d) :
    Arranged id (fun inner a b => Keyed a ∧ normalizeWithin inner outer a = .ok b) levels v d := by
  cases keyed with
  | scalar s =>
      obtain ⟨checked, found, same⟩ : ∃ checked, checkScalar s = .ok checked ∧
          .scalar checked = d := by
        cases levels with
        | zero => exact map_eq_ok.mp run
        | succ levels => exact map_eq_ok.mp run
      rw [← same, checkScalar_same found]
      rw [checkScalar_same found] at found
      exact .scalar found
  | @list items each =>
      cases levels with
      | zero => cases run
      | succ levels =>
          obtain ⟨others, itemsRun, same⟩ := map_eq_ok.mp run
          rw [← same]
          exact .list ((List.forall₂_and_left _ _).mpr ⟨each, forall₂_of_mapM_eq_ok itemsRun⟩)
  | @table fields held each =>
      cases levels with
      | zero => cases run
      | succ levels =>
          obtain ⟨sorted, sortedRun, run⟩ := bind_eq_ok.mp run
          obtain ⟨others, fieldsRun, same⟩ := map_eq_ok.mp run
          obtain ⟨found, foundRun, perm, ascending⟩ := sortFields_distinct held.1.1 held.1.2
          cases foundRun.symm.trans sortedRun
          have inside : ∀ field ∈ sorted, isText field.1 = true ∧ Keyed field.2 := by
            intro field member
            exact ⟨ascending.1 field member, each field (perm.subset member)⟩
          have steady : sorted.Pairwise fun a b =>
              (keyOf a.1).joined.less (keyOf b.1).joined = true := by
            apply ascending.2.imp_of_mem
            intro a b aMember bMember before
            exact held.2 a (perm.subset aMember) b (perm.subset bMember) before
          rw [← same]
          apply Arranged.table perm ascending steady
          apply ((List.forall₂_and_left _ _).mpr ⟨inside, forall₂_of_mapM_eq_ok fieldsRun⟩).imp
          rintro ⟨key, value⟩ other ⟨⟨text, keyedValue⟩, fieldRun⟩
          obtain ⟨keyed, keyRun, fieldRun⟩ := bind_eq_ok.mp fieldRun
          obtain ⟨written, valueRun, fieldRun⟩ := bind_eq_ok.mp fieldRun
          cases fieldRun
          cases (keyText_of_isText text).symm.trans keyRun
          exact ⟨(eq_text_of_isText text).symm, keyedValue, valueRun⟩

end Json

end BinaryQuadratic
