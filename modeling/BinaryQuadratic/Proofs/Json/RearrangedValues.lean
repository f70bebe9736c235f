import BinaryQuadratic.Proofs.Json.ReadBack
import BinaryQuadratic.Proofs.SamplingOutcome

/-!
Values up to the order of the fields in their tables. Documents, the values that can be kept as
text, are written alike in all orders, and what is read back differs from them in no other way.
-/

namespace BinaryQuadratic

def Scalar.IsWritable : Scalar → Prop
  | .int n => n.natAbs < 10 ^ Literal.digitLimit
  | .text t => t.isPlain = true
  | .bytes _ => False
  | .time _ => False
  | _ => True

/-- The same values but for the order of the fields in tables, which can be arranged so that such
values stand under the same keys. -/
inductive Datum.Rearranged : Datum → Datum → Prop
  | scalar (s : Scalar) : Rearranged (.scalar s) (.scalar s)
  | list {items others : List Datum} (related : List.Forall₂ Rearranged items others) :
      Rearranged (.list items) (.list others)
  | table {fields arranged others : Fields Datum} (perm : arranged.Perm others)
      (keys : fields.map Prod.fst = arranged.map Prod.fst)
      (related : List.Forall₂ Rearranged (fields.map Prod.snd) (arranged.map Prod.snd)) :
      Rearranged (.table fields) (.table others)

theorem Datum.Rearranged.refl (v : Datum) : v.Rearranged v := by
  cases v with
  | scalar s => exact .scalar s
  | list items => exact .list (List.forall₂_same.mpr fun item _ => refl item)
  | table fields =>
      apply Rearranged.table (.refl fields) rfl
      rw [List.forall₂_map_left_iff, List.forall₂_map_right_iff]
      exact List.forall₂_same.mpr fun field member => refl field.2
termination_by v
decreasing_by
  · decreasing_tactic
  · have inside := List.sizeOf_lt_of_mem member
    obtain ⟨key, value⟩ := field
    simp only [Prod.mk.sizeOf_spec, Datum.table.sizeOf_spec] at inside ⊢
    omega

namespace Json

/-- Values that can be kept as text, with at most so many containers around each other. -/
inductive Document : Nat → Datum → Prop
  | scalar {levels : Nat} {s : Scalar} (writable : s.IsWritable) : Document levels (.scalar s)
  | list {levels : Nat} {items : List Datum} (each : ∀ item ∈ items, Document levels item) :
      Document (levels + 1) (.list items)
  | table {levels : Nat} {fields : Fields Datum} (texts : TextKeys fields)
      (plain : ∀ field ∈ fields, (keyOf field.1).isPlain = true)
      (each : ∀ field ∈ fields, Document levels field.2) : Document (levels + 1) (.table fields)

variable {levels : Nat} {outer : List Nat} {u v w : Datum} {fields others : Fields Datum}

theorem Document.keyed (document : Document levels v) : Keyed v := by
  induction document with
  | scalar writable => exact .scalar _
  | list each ih => exact .list ih
  | table texts plain each ih =>
      refine .table ⟨texts, ?_⟩ ih
      intro a aMember b bMember before
      rwa [Text.joined_of_isPlain (plain a aMember), Text.joined_of_isPlain (plain b bMember)]

theorem checkScalar_int {n : Int} (short : n.natAbs < 10 ^ Literal.digitLimit) :
    checkScalar (.int n) = .ok (.int n) := by
  rw [checkScalar, integerText_of_short short, ok_bind]
  rfl

theorem checkScalar_of_writable {s : Scalar} (writable : s.IsWritable) :
    checkScalar s = .ok s := by
  cases s with
  | int n => exact checkScalar_int writable
  | bytes bs => exact writable.elim
  | time t => exact writable.elim
  | _ => rfl

theorem reread_of_writable {s : Scalar} (writable : s.IsWritable) : s.reread = s := by
  cases s with
  | text t => rw [Scalar.reread, Text.joined_of_isPlain writable]
  | _ => rfl

abbrev FieldsAlike (R : Datum → Datum → Prop) : Fields Datum → Fields Datum → Prop :=
  List.Forall₂ fun a b => a.1 = b.1 ∧ R a.2 b.2

theorem forall₂_fields {R : Datum → Datum → Prop} : FieldsAlike R fields others ↔
    fields.map Prod.fst = others.map Prod.fst ∧
      List.Forall₂ R (fields.map Prod.snd) (others.map Prod.snd) := by
  unfold FieldsAlike
  rw [← List.forall₂_eq_eq_eq, List.forall₂_map_left_iff, List.forall₂_map_right_iff,
    List.forall₂_map_left_iff, List.forall₂_map_right_iff, List.forall₂_iff_zip,
    List.forall₂_iff_zip, List.forall₂_iff_zip]
  constructor
  · rintro ⟨length, both⟩
    exact ⟨⟨length, fun member => (both member).1⟩, length, fun member => (both member).2⟩
  · rintro ⟨⟨length, keys⟩, -, values⟩
    exact ⟨length, fun member => ⟨keys member, values member⟩⟩

theorem sortFields_rearranged {R : Datum → Datum → Prop} {sorted arranged : Fields Datum}
    (ascending : Ascending sorted) (perm : sorted.Perm fields)
    (related : FieldsAlike R fields arranged) (arrangedPerm : arranged.Perm others) :
    ∃ otherSorted, sortFields others = .ok otherSorted ∧ FieldsAlike R sorted otherSorted := by
  obtain ⟨otherSorted, alike, back⟩ := List.perm_comp_forall₂ perm related
  refine ⟨otherSorted, sortFields_of_perm ?_ (back.trans arrangedPerm), alike⟩
  rw [ascending_iff] at ascending ⊢
  rwa [← (forall₂_fields.mp alike).1]

theorem Document.normal (document : Document levels v) :
    ∃ d, normalizeWithin levels outer v = .ok d := by
  induction document with
  | scalar writable => exact ⟨_, normalizeWithin_scalar (checkScalar_of_writable writable)⟩
  | list each ih =>
      obtain ⟨results, run⟩ := mapM_succeeds ih
      exact ⟨_, normalizeWithin_list run⟩
  | @table levels fields texts plain each ih =>
      obtain ⟨sorted, sortedRun, perm, ascending⟩ := sortFields_distinct texts.1 texts.2
      have steps : ∀ field ∈ sorted, ∃ result, (do
          pure (.text (← keyText field.1), ← normalizeWithin levels outer field.2) :
            Except Fault (Scalar × Datum)) = .ok result := by
        intro field member
        obtain ⟨value, run⟩ := ih field (perm.subset member)
        rw [keyText_of_isText (ascending.1 field member), ok_bind, run]
        exact ⟨_, rfl⟩
      obtain ⟨results, run⟩ := mapM_succeeds steps
      rw [normalizeWithin_fields, sortedRun, ok_bind, run]
      exact ⟨_, rfl⟩

theorem Document.normal_rearranged (document : Document levels v) (same : v.Rearranged u) :
    normalizeWithin levels outer u = normalizeWithin levels outer v := by
  induction document generalizing u with
  | scalar writable =>
      cases same
      rfl
  | @list levels items each ih =>
      cases same with
      | @list _ others related =>
          have alike : List.Forall₂ (fun a b => normalizeWithin levels outer a =
              normalizeWithin levels outer b) items others :=
            forall₂_imp_of_mem related fun a member b part => (ih a member part).symm
          have parts := mapM_eq_of_forall₂ alike fun _ _ same => same
          exact congrArg (Datum.list <$> ·) parts.symm
  | @table levels fields texts plain each ih =>
      cases same with
      | @table _ arranged others arrangedPerm keys related =>
          obtain ⟨sorted, sortedRun, perm, ascending⟩ := sortFields_distinct texts.1 texts.2
          obtain ⟨otherSorted, otherRun, alike⟩ := sortFields_rearranged ascending perm
            (forall₂_fields.mpr ⟨keys, related⟩) arrangedPerm
          rw [normalizeWithin_fields, normalizeWithin_fields, sortedRun, otherRun, ok_bind, ok_bind]
          have parts : List.Forall₂ (fun a b => a.1 = b.1 ∧ normalizeWithin levels outer a.2 =
              normalizeWithin levels outer b.2) sorted otherSorted :=
            forall₂_imp_of_mem alike fun a member b both =>
              ⟨both.1, (ih a (perm.subset member) both.2).symm⟩
          apply congrArg (Datum.table <$> ·)
          symm
          apply mapM_eq_of_forall₂ parts
          intro a b both
          rw [both.1, both.2]

theorem Document.rendered (document : Document nestingLimit v) : ∃ text, render v = .ok text := by
  obtain ⟨d, normal⟩ : ∃ d, normalizeWithin nestingLimit [] v = .ok d := document.normal
  rw [render, normalize, normal]
  exact ⟨_, rfl⟩

theorem Document.render_rearranged (document : Document nestingLimit v) (same : v.Rearranged u) :
    render u = render v := by
  rw [render, normalize, document.normal_rearranged same, render, normalize]

theorem Restored.rearranged (restored : Restored levels v w) (document : Document levels v) :
    v.Rearranged w := by
  induction document generalizing w with
  | scalar writable =>
      cases restored.arranged with
      | scalar checked =>
          rw [reread_of_writable writable]
          exact .scalar _
  | @list levels items each ih =>
      cases restored.arranged with
      | list related =>
          exact .list (forall₂_imp_of_mem related fun a member b part => ih a member part)
  | @table levels fields texts plain each ih =>
      cases restored.arranged with
      | @table _ _ sorted others perm ascending steady related =>
          have alike : FieldsAlike Datum.Rearranged sorted others := by
            apply forall₂_imp_of_mem related
            rintro a member b ⟨key, part⟩
            have inside := perm.subset member
            have writable : (Scalar.text (keyOf a.1)).IsWritable := plain a inside
            refine ⟨?_, ih a inside part⟩
            rw [key, eq_text_of_isText (texts.1 a inside), reread_of_writable writable]
          obtain ⟨arranged, back, arrangedPerm⟩ := List.perm_comp_forall₂ perm.symm alike
          obtain ⟨keys, values⟩ := forall₂_fields.mp back
          exact .table arrangedPerm keys values

end Json

end BinaryQuadratic
