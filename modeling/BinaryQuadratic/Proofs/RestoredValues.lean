import BinaryQuadratic.Proofs.Json.ReadBack
import BinaryQuadratic.Proofs.ReadableTexts
import BinaryQuadratic.Proofs.SurveyedCells

/-!
Values that are read back, and what is read from them. Whatever can be read from a value is read
from what comes back in its place, if the tables that are met as sequences have their keys in
ascending order.
-/

namespace BinaryQuadratic

open Json

def Restores (v w : Datum) : Prop := ∃ levels, Restored levels v w

def Datum.InOrder (v : Datum) : Prop := ∀ fields, v = .table fields → Ascending fields

/-- A sequence of sequences has no table in it whose keys are out of order. -/
structure Datum.RowsInOrder (v : Datum) : Prop where
  whole : v.InOrder
  rows : ∀ {items}, Value.items v = .ok items → ∀ item ∈ items, item.InOrder

theorem Text.isPlain_iff_singletons {t : Text} :
    t.isPlain = true ↔ ∀ p ∈ t.points, (singleton p).isPlain = true := by
  simp [isPlain, singleton]

namespace Fields

variable {α : Type} {fields sorted : Fields α}

theorem lookup_eq_some_iff (distinct : fields.Pairwise fun a b => keyOf a.1 ≠ keyOf b.1)
    {key : Text} {value : α} :
    lookup fields key = some value ↔ (Scalar.text key, value) ∈ fields := by
  induction fields with
  | nil => simp [lookup]
  | cons field rest ih =>
      rw [List.pairwise_cons] at distinct
      rw [lookup_cons, List.mem_cons]
      split
      · rename_i here
        have head := Scalar.equals_text.mp here
        constructor
        · intro same
          cases same
          exact .inl (Prod.ext head.symm rfl)
        · rintro (rfl | later)
          · rfl
          · exact (distinct.1 _ later (congrArg keyOf head)).elim
      · rename_i other
        rw [ih distinct.2]
        constructor
        · exact .inr
        · rintro (rfl | later)
          · exact (other (Scalar.equals_text.mpr rfl)).elim
          · exact later

theorem lookup_of_perm (perm : sorted.Perm fields)
    (distinct : sorted.Pairwise fun a b => keyOf a.1 ≠ keyOf b.1) (key : Text) :
    lookup sorted key = lookup fields key := by
  have others := perm.pairwise distinct fun differs => differs.symm
  apply Option.ext
  intro value
  rw [lookup_eq_some_iff distinct, lookup_eq_some_iff others, perm.mem_iff]

end Fields

namespace Restores

variable {v w : Datum}

theorem arranged (same : Restores v w) :
    ∃ levels, Arranged Scalar.reread (fun _ => Restores) levels v w := by
  obtain ⟨levels, restored⟩ := same
  refine ⟨levels, ?_⟩
  cases restored.arranged with
  | scalar checked => exact .scalar checked
  | list related => exact .list (related.imp fun _ _ part => ⟨_, part⟩)
  | table perm ascending steady related =>
      exact .table perm ascending steady (related.imp fun _ _ both => ⟨both.1, _, both.2⟩)

theorem text (t : Text) : Restores (.text t) (.text t.joined) :=
  ⟨0, .scalar _, .text t, normalizeWithin_scalar rfl, rfl⟩

theorem of_isPlain {t : Text} (plain : t.isPlain = true) : Restores (.text t) (.text t) := by
  have same := text t
  rwa [Text.joined_of_isPlain plain] at same

theorem isNull (same : Restores v w) : Value.isNull v = Value.isNull w := by
  obtain ⟨_, form⟩ := same.arranged
  cases form with
  | @scalar _ s _ => cases s <;> rfl
  | list _ => rfl
  | table _ _ _ _ => rfl

theorem isTruthy (same : Restores v w) : Value.isTruthy v = Value.isTruthy w := by
  obtain ⟨_, form⟩ := same.arranged
  cases form with
  | @scalar _ s _ =>
      cases s with
      | text t => exact congrArg not t.isEmpty_joined.symm
      | _ => rfl
  | list related => cases related <;> rfl
  | @table _ fields _ others perm _ _ related =>
      have length : fields.length = others.length := perm.length_eq.symm.trans related.length_eq
      have empty : fields.isEmpty = others.isEmpty := by
        rw [Bool.eq_iff_iff, List.isEmpty_iff_length_eq_zero, List.isEmpty_iff_length_eq_zero,
          length]
      exact congrArg not empty

theorem equalsInt (same : Restores v w) (n : Int) : Value.equalsInt v n = Value.equalsInt w n := by
  obtain ⟨_, form⟩ := same.arranged
  cases form with
  | @scalar _ s _ => cases s <;> rfl
  | list _ => rfl
  | table _ _ _ _ => rfl

theorem reading {α : Type} {f : Scalar → Except Fault α} {a : α} (same : Restores v w)
    (plain : ∀ t, f (.text t) = .ok a → t.isPlain = true)
    (read : (Value.toScalar v >>= f) = .ok a) : (Value.toScalar w >>= f) = .ok a := by
  obtain ⟨_, form⟩ := same.arranged
  cases form with
  | @scalar _ s _ =>
      cases s with
      | text t =>
          rw [Scalar.reread, Text.joined_of_isPlain (plain t read)]
          exact read
      | _ => exact read
  | list _ => cases read
  | table _ _ _ _ => cases read

theorem toInt (same : Restores v w) {n : Int} (read : Value.toInt v = .ok n) :
    Value.toInt w = .ok n :=
  same.reading (fun _ => Scalar.isPlain_of_toInt) read

theorem toFloat (same : Restores v w) {x : Float} (read : Value.toFloat v = .ok x) :
    Value.toFloat w = .ok x :=
  same.reading (fun _ => Scalar.isPlain_of_toFloat) read

theorem lookup {fields sorted others : Fields Datum} (perm : sorted.Perm fields)
    (ascending : Ascending sorted) (related : List.Forall₂ (fun field other =>
      other.1 = field.1.reread ∧ Restores field.2 other.2) sorted others) {key : Text}
    (low : ∀ n ∈ key.units, n < 0xD800) :
    Option.Rel Restores (Fields.lookup fields key) (Fields.lookup others key) := by
  rw [← Fields.lookup_of_perm perm ascending.distinct]
  clear perm
  replace ascending := ascending.1
  induction related with
  | nil => exact .none
  | @cons field other _ _ head _ ih =>
      rw [List.forall_mem_cons] at ascending
      have keys : other.1.equals (.text key) = field.1.equals (.text key) := by
        rw [head.1, eq_text_of_isText ascending.1, Bool.eq_iff_iff, Scalar.equals_text,
          Scalar.equals_text]
        simp [Scalar.reread, Text.joined_eq_iff low]
      rw [Fields.lookup_cons, Fields.lookup_cons, keys]
      split
      · exact .some head.2
      · exact ih ascending.2

theorem get? (same : Restores v w) {key : Text} (low : ∀ n ∈ key.units, n < 0xD800)
    {found : Option Datum} (read : Value.get? v key = .ok found) :
    ∃ other, Value.get? w key = .ok other ∧ Option.Rel Restores found other := by
  obtain ⟨_, form⟩ := same.arranged
  cases form with
  | scalar _ => cases read
  | list _ => cases read
  | table perm ascending _ related =>
      cases read
      exact ⟨_, rfl, lookup perm ascending related low⟩

theorem items (same : Restores v w) (ordered : v.InOrder)
    (whole : ∀ t, v = .text t → t.isPlain = true) {xs : List Datum}
    (read : Value.items v = .ok xs) :
    ∃ ys, Value.items w = .ok ys ∧ List.Forall₂ Restores xs ys := by
  obtain ⟨_, form⟩ := same.arranged
  cases form with
  | @scalar _ s checked =>
      cases s with
      | text t =>
          have plain := whole t rfl
          cases read
          rw [Scalar.reread, Text.joined_of_isPlain plain]
          refine ⟨_, rfl, ?_⟩
          rw [List.forall₂_same]
          intro x member
          obtain ⟨p, inside, rfl⟩ := List.mem_map.mp member
          exact of_isPlain (Text.isPlain_iff_singletons.mp plain p inside)
      | bytes bs => cases checked
      | _ => cases read
  | list related =>
      cases read
      exact ⟨_, rfl, related⟩
  | @table _ fields sorted others perm ascending _ related =>
      cases read
      have order : sorted = fields := ascending.unique (ordered fields rfl) perm
      refine ⟨_, rfl, ?_⟩
      rw [← order, List.forall₂_map_left_iff, List.forall₂_map_right_iff]
      apply ((List.forall₂_and_left _ _).mpr ⟨ascending.1, related⟩).imp
      rintro field other ⟨textKey, sameKey, -⟩
      rw [sameKey, eq_text_of_isText textKey]
      exact text _

section Arrays

open CouplingArray

theorem scalar {s : Scalar} (same : Restores (.scalar s) (.scalar s.reread)) :
    Substitutes (.scalar s) (.scalar s.reread) := by
  apply Substitutes.scalar
  intro z read
  cases s with
  | null => exact read
  | _ => exact toFloat same read

theorem outline (same : Restores v w) (depth : Nat) :
    Substitutes (Survey.outline depth v) (Survey.outline depth w) := by
  induction depth generalizing v w with
  | zero =>
      obtain ⟨_, form⟩ := same.arranged
      cases form with
      | scalar _ => exact same.scalar
      | list _ => exact .refl _
      | table _ _ _ _ => exact .refl _
  | succ depth ih =>
      obtain ⟨_, form⟩ := same.arranged
      cases form with
      | scalar _ => exact same.scalar
      | list related =>
          apply Substitutes.list
          rw [List.forall₂_map_left_iff, List.forall₂_map_right_iff]
          exact related.imp fun _ _ part => ih part
      | table _ _ _ _ => exact .refl _

theorem ofRows {rows others : List (List Datum)}
    (related : List.Forall₂ (List.Forall₂ Restores) rows others) {h : CouplingArray}
    (read : CouplingArray.ofRows rows = .ok h) : CouplingArray.ofRows others = .ok h := by
  have outlines : List.Forall₂ Substitutes
      (rows.map fun row => Datum.list (row.map cellOutline))
      (others.map fun row => Datum.list (row.map cellOutline)) := by
    rw [List.forall₂_map_left_iff, List.forall₂_map_right_iff]
    apply related.imp
    intro row other cells
    apply Substitutes.list
    rw [List.forall₂_map_left_iff, List.forall₂_map_right_iff]
    exact cells.imp fun _ _ part => outline part _
  obtain ⟨_, checked, read⟩ := bind_eq_ok.mp read
  obtain ⟨array, arrayRead, read⟩ := bind_eq_ok.mp read
  rw [CouplingArray.ofRows, ← related.length_eq,
    ← checkRows_of_forall₂ _ (fun _ _ part => part.equalsInt 0) related, checked, ok_bind,
    ofDatum_substitutes outlines arrayRead, ok_bind]
  exact read

theorem isPlain_of_ofRows {rows : List (List Datum)} {h : CouplingArray}
    (read : CouplingArray.ofRows rows = .ok h) {t : Text}
    (member : (t.points.map fun p => Datum.text (.singleton p)) ∈ rows) : t.isPlain = true := by
  obtain ⟨_, -, read⟩ := bind_eq_ok.mp read
  obtain ⟨array, arrayRead, -⟩ := bind_eq_ok.mp read
  have rowsRead : ofDatum (.list ((rows.map (List.map cellOutline)).map .list)) = .ok array := by
    rw [List.map_map]
    exact arrayRead
  have row := List.mem_map_of_mem (f := List.map cellOutline) member
  rw [List.map_map] at row
  have scalars : ∀ cell ∈ t.points.map (cellOutline ∘ fun p => Datum.text (.singleton p)),
      ∃ s, cell = .scalar s := by
    intro cell present
    obtain ⟨p, -, rfl⟩ := List.mem_map.mp present
    exact ⟨_, rfl⟩
  apply Text.isPlain_iff_singletons.mpr
  intro p inside
  obtain ⟨x, cell⟩ := coupling_of_ofDatum rowsRead row scalars _ (List.mem_map_of_mem inside)
  exact Scalar.isPlain_of_toFloat cell

theorem ofSequences (same : Restores v w) (ordered : v.RowsInOrder) {h : CouplingArray}
    (read : CouplingArray.ofSequences v = .ok h) : CouplingArray.ofSequences w = .ok h := by
  obtain ⟨xs, itemsRead, read⟩ := bind_eq_ok.mp read
  obtain ⟨rows, rowsRead, read⟩ := bind_eq_ok.mp read
  have rowText : ∀ t : Text, Datum.text t ∈ xs → t.isPlain = true := by
    intro t member
    obtain ⟨row, inside, rowRead⟩ := ok_of_mapM_eq_ok rowsRead member
    cases rowRead
    exact isPlain_of_ofRows read inside
  have gridText : ∀ t : Text, v = .text t → t.isPlain = true := by
    rintro t rfl
    cases itemsRead
    apply Text.isPlain_iff_singletons.mpr
    intro p inside
    exact rowText (.singleton p) (List.mem_map.mpr ⟨p, inside, rfl⟩)
  obtain ⟨ys, othersRead, related⟩ := same.items ordered.whole gridText itemsRead
  obtain ⟨others, cellsRead, cells⟩ := mapM_ok_forall₂ (S := List.Forall₂ Restores) related
    (fun x member y part row rowRead => part.items (ordered.rows itemsRead x member)
      (fun t text => rowText t (text ▸ member)) rowRead) rowsRead
  rw [CouplingArray.ofSequences, othersRead, ok_bind, cellsRead, ok_bind]
  exact ofRows cells read

end Arrays

end Restores

end BinaryQuadratic
