import BinaryQuadratic.Json.Writer
import Mathlib

/-!
The order of keys. Texts are ordered like their code points, and the fields of a table with
different texts as keys have just one ascending order.
-/

namespace BinaryQuadratic

namespace CodePoint

theorem ofNat_toNat (p : CodePoint) : ofNat p.toNat = p := by
  cases p with
  | char c =>
      have valid : c.toNat < 0xD800 ∨ 0xDFFF < c.toNat ∧ c.toNat < 0x110000 := c.valid
      rw [ofNat, dif_neg, toNat, Char.ofNat_toNat]
      rw [toNat, firstSurrogate]
      omega
  | surrogate offset =>
      have bound := offset.isLt
      have place : firstSurrogate + offset.val - firstSurrogate = offset.val := by omega
      simp [ofNat, toNat, place]

theorem toNat_inj {p q : CodePoint} (same : p.toNat = q.toNat) : p = q := by
  rw [← ofNat_toNat p, same, ofNat_toNat]

end CodePoint

namespace Text

theorem codes_inj {s t : Text} (same : s.codes = t.codes) : s = t := by
  have points : s.points = t.points :=
    List.map_injective_iff.mpr (fun _ _ => CodePoint.toNat_inj) same
  cases s
  cases t
  rw [Text.mk.injEq]
  exact points

theorem less_iff {s t : Text} : s.less t = true ↔ s.codes < t.codes := decide_eq_true_iff

theorem less_irrefl (s : Text) : s.less s = false := by
  rw [Bool.eq_false_iff, ne_eq, less_iff]
  exact lt_irrefl _

theorem less_asymm {s t : Text} (first : s.less t = true) : t.less s = false := by
  rw [Bool.eq_false_iff, ne_eq, less_iff]
  rw [less_iff] at first
  exact lt_asymm first

theorem less_of_ne {s t : Text} (differs : s ≠ t) (notLess : s.less t = false) :
    t.less s = true := by
  rw [Bool.eq_false_iff, ne_eq, less_iff, not_lt] at notLess
  rw [less_iff]
  exact lt_of_le_of_ne notLess fun same => differs (codes_inj same.symm)

end Text

namespace Json

variable {α : Type}

theorem eq_text_of_isText {key : Scalar} (text : isText key = true) : key = .text (keyOf key) := by
  cases key with
  | text t => rfl
  | _ => cases text

theorem isOrdered_of_isText {key : Scalar} (text : isText key = true) : isOrdered key = true := by
  rw [eq_text_of_isText text]
  rfl

def Ascending (fields : Fields α) : Prop :=
  (∀ field ∈ fields, isText field.1 = true) ∧
    fields.Pairwise fun a b => (keyOf a.1).less (keyOf b.1) = true

theorem ascending_iff {fields : Fields α} : Ascending fields ↔
    (∀ key ∈ fields.map Prod.fst, isText key = true) ∧
      (fields.map Prod.fst).Pairwise fun k l => (keyOf k).less (keyOf l) = true := by
  rw [List.forall_mem_map, List.pairwise_map]
  rfl

theorem rank_eq_mergeSort {fields : Fields α} (texts : ∀ field ∈ fields, isText field.1 = true) :
    Ranking.rank (fun a b => keyBefore a.1 b.1) (fun field => isOrdered field.1) fields =
      fields.mergeSort fun a b => !(keyOf b.1).less (keyOf a.1) := by
  have ordered : fields.all (fun field => isOrdered field.1) = true := by
    rw [List.all_eq_true]
    intro field member
    exact isOrdered_of_isText (texts field member)
  have swapped := List.map_mergeSort (l := fields) (f := id)
    (r := fun a b => !keyBefore b.1 a.1) (s := fun a b => !(keyOf b.1).less (keyOf a.1)) (by
      intro a aMember b bMember
      rw [eq_text_of_isText (texts a aMember), eq_text_of_isText (texts b bMember)]
      rfl)
  rw [List.map_id, List.map_id] at swapped
  rw [Ranking.rank, if_pos ordered]
  exact swapped

theorem sortFields_texts {fields : Fields α} (texts : ∀ field ∈ fields, isText field.1 = true) :
    sortFields fields = .ok (fields.mergeSort fun a b => !(keyOf b.1).less (keyOf a.1)) := by
  have all : fields.all (fun field => isText field.1) = true := List.all_eq_true.mpr texts
  rw [sortFields, all, rank_eq_mergeSort texts, Bool.or_true, Bool.true_or, if_pos rfl]

theorem pairwise_mergeSort_keys (fields : Fields α) :
    (fields.mergeSort fun a b => !(keyOf b.1).less (keyOf a.1)).Pairwise
      fun a b => (keyOf b.1).less (keyOf a.1) = false := by
  apply List.Pairwise.imp fun before => (Bool.not_eq_true' _).mp before
  apply List.pairwise_mergeSort
  · intro a b c first second
    rw [Bool.not_eq_true', Bool.eq_false_iff, ne_eq, Text.less_iff, not_lt] at first second ⊢
    exact le_trans first second
  · intro a b
    rw [Bool.or_eq_true, Bool.not_eq_true', Bool.not_eq_true']
    by_cases before : (keyOf a.1).less (keyOf b.1) = true
    · exact .inl (Text.less_asymm before)
    · exact .inr (Bool.eq_false_iff.mpr before)

theorem sortFields_distinct {fields : Fields α} (texts : ∀ field ∈ fields, isText field.1 = true)
    (distinct : fields.Pairwise fun a b => keyOf a.1 ≠ keyOf b.1) :
    ∃ sorted, sortFields fields = .ok sorted ∧ sorted.Perm fields ∧ Ascending sorted := by
  have perm := List.mergeSort_perm fields fun a b => !(keyOf b.1).less (keyOf a.1)
  refine ⟨_, sortFields_texts texts, perm, ?_, ?_⟩
  · intro field member
    exact texts field (perm.subset member)
  · have apart := perm.symm.pairwise distinct fun differs => differs.symm
    apply ((pairwise_mergeSort_keys fields).and apart).imp
    rintro a b ⟨notBefore, differs⟩
    exact Text.less_of_ne (Ne.symm differs) notBefore

theorem Ascending.unique {fields others : Fields α} (first : Ascending fields)
    (second : Ascending others) (perm : fields.Perm others) : fields = others := by
  apply List.Perm.eq_of_pairwise _ first.2 second.2 perm
  intro a b _ _ before after
  rw [Text.less_asymm before] at after
  cases after

theorem Ascending.distinct {fields : Fields α} (ascending : Ascending fields) :
    fields.Pairwise fun a b => keyOf a.1 ≠ keyOf b.1 := by
  apply ascending.2.imp
  intro a b before same
  rw [same, Text.less_irrefl] at before
  cases before

theorem sortFields_of_perm {fields sorted : Fields α} (ascending : Ascending sorted)
    (perm : sorted.Perm fields) : sortFields fields = .ok sorted := by
  have texts : ∀ field ∈ fields, isText field.1 = true := by
    intro field member
    exact ascending.1 field (perm.symm.subset member)
  obtain ⟨others, run, othersPerm, othersAscending⟩ :=
    sortFields_distinct texts (perm.pairwise ascending.distinct fun differs => differs.symm)
  rw [run, othersAscending.unique ascending (othersPerm.trans perm.symm)]

end Json

end BinaryQuadratic
