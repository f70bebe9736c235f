import BinaryQuadratic.Proofs.Success
import BinaryQuadratic.SharedDatum

/-!
Fields of tables after a field is written, in single tables and in data whose tables can occur at
several places.
-/

namespace BinaryQuadratic

theorem Scalar.equals_text {key : Scalar} {t : Text} : key.equals (.text t) = true ↔ key = .text t := by
  cases key <;> simp [equals, number?]

namespace Fields

variable {α β : Type}

theorem lookup_cons (field : Scalar × α) (rest : Fields α) (key : Text) :
    lookup (field :: rest) key =
      if field.1.equals (.text key) then some field.2 else lookup rest key := by
  unfold lookup
  rw [List.find?_cons]
  cases field.1.equals (.text key) <;> rfl

theorem lookup_map (f : α → β) (fields : Fields α) (key : Text) :
    lookup (fields.map fun field => (field.1, f field.2)) key = (lookup fields key).map f := by
  induction fields with
  | nil => rfl
  | cons field rest ih =>
      rw [List.map_cons, lookup_cons, lookup_cons, ih]
      cases field.1.equals (.text key) <;> rfl

theorem lookup_overwritten (fields : Fields α) (key other : Text) (value : α) :
    lookup (fields.map fun field => if field.1.equals (.text key) then (field.1, value) else field)
        other =
      if other = key then (lookup fields other).map fun _ => value else lookup fields other := by
  induction fields with
  | nil => simp [lookup]
  | cons field rest ih =>
      rw [List.map_cons, lookup_cons, lookup_cons, ih]
      by_cases same : other = key
      · subst same
        cases hit : field.1.equals (.text other) <;> simp [hit]
      · cases hit : field.1.equals (.text other) with
        | false => cases written : field.1.equals (.text key) <;> simp [hit, same]
        | true =>
            have apart : field.1.equals (.text key) = false := by
              rw [Scalar.equals_text.mp hit]
              simpa [Scalar.equals] using same
            simp [hit, apart, same]

theorem lookup_append (fields others : Fields α) (key : Text) :
    lookup (fields ++ others) key = (lookup fields key).or (lookup others key) := by
  induction fields with
  | nil => rfl
  | cons field rest ih =>
      rw [List.cons_append, lookup_cons, lookup_cons, ih]
      cases field.1.equals (.text key) <;> rfl

theorem any_eq_isSome_lookup (fields : Fields α) (key : Text) :
    (fields.any fun field => field.1.equals (.text key)) = (lookup fields key).isSome := by
  induction fields with
  | nil => rfl
  | cons field rest ih =>
      rw [List.any_cons, lookup_cons, ih]
      cases field.1.equals (.text key) <;> rfl

theorem lookup_insert (fields : Fields α) (key other : Text) (value : α) :
    lookup (insert fields (.text key) value) other =
      if other = key then some value else lookup fields other := by
  rw [insert, any_eq_isSome_lookup]
  cases found : lookup fields key with
  | some old =>
      rw [Option.isSome_some, if_pos rfl, lookup_overwritten]
      by_cases same : other = key
      · simp [same, found]
      · simp [same]
  | none =>
      rw [Option.isSome_none, if_neg Bool.false_ne_true, lookup_append, lookup_cons]
      by_cases same : other = key
      · subst same
        simp [found, Scalar.equals]
      · simp [Scalar.equals, same, Ne.symm same, lookup]

end Fields

namespace SharedDatum

theorem get?_eq (d : SharedDatum) (key : Text) : Value.get? d key =
    match d.table? d.root with
    | some (_, fields) => .ok ((Fields.lookup fields key).map fun link => ⟨d.cells, link⟩)
    | none => .error .notATable := by
  obtain ⟨cells, root⟩ := d
  cases root with
  | scalar s => rfl
  | container index =>
      simp only [Value.get?, Value.layer, layer, table?]
      cases cell ⟨cells, .container index⟩ index <;> simp [Layer.map, Fields.lookup_map]

theorem index_of_table? {d : SharedDatum} {link : Link} {index : Nat} {fields : Fields Link}
    (found : d.table? link = some (index, fields)) :
    link = .container index ∧ d.cells[index]? = some (.table fields) := by
  cases link with
  | scalar s => cases found
  | container other =>
      unfold table? cell at found
      cases stored : d.cells[other]? with
      | none => simp [stored] at found
      | some layer =>
          cases layer with
          | table others =>
              simp only [stored, Option.getD_some, Option.some.injEq, Prod.mk.injEq] at found
              obtain ⟨rfl, rfl⟩ := found
              exact ⟨rfl, stored⟩
          | _ => simp [stored] at found

theorem table?_of_cell {d : SharedDatum} {index : Nat} {fields : Fields Link}
    (stored : d.cells[index]? = some (.table fields)) :
    d.table? (.container index) = some (index, fields) := by
  simp [table?, cell, stored]

theorem setField_of_cell {d : SharedDatum} {index : Nat} {fields : Fields Link}
    (stored : d.cells[index]? = some (.table fields)) (key : Text) (value : Link) :
    d.setField index key value =
      ⟨d.cells.setIfInBounds index (.table (Fields.insert fields (.text key) value)), d.root⟩ := by
  simp [setField, cell, stored]

theorem lookup_setField (d : SharedDatum) {key other : Text} (differs : other ≠ key) (index : Nat)
    (value link : Link) :
    ((d.setField index key value).table? link).map (fun found => Fields.lookup found.2 other) =
      (d.table? link).map fun found => Fields.lookup found.2 other := by
  cases link with
  | scalar s => rfl
  | container place =>
      unfold setField
      cases written : d.cell index with
      | table fields =>
          dsimp only
          by_cases here : index = place
          · subst here
            by_cases bound : index < d.cells.size
            · have stored : d.cells[index] = .table fields := by
                simpa [cell, bound] using written
              simp [table?, cell, bound, stored, Fields.lookup_insert, differs]
            · rw [Array.setIfInBounds, dif_neg bound]
          · simp [table?, cell, Array.getElem?_setIfInBounds_ne here]
      | _ => rfl

theorem setField_root (d : SharedDatum) (index : Nat) (key : Text) (value : Link) :
    (d.setField index key value).root = d.root := by
  unfold setField
  split <;> rfl

theorem table?_addTable {d : SharedDatum} {link : Link} {index : Nat} {fields : Fields Link}
    (stored : d.table? link = some (index, fields)) :
    d.addTable.1.table? link = some (index, fields) := by
  obtain ⟨rfl, there⟩ := index_of_table? stored
  have bound : index < d.cells.size := (Array.getElem?_eq_some_iff.mp there).1
  apply table?_of_cell
  rw [addTable, Array.getElem?_push_lt bound, ← there, Array.getElem?_eq_getElem bound]

end SharedDatum

end BinaryQuadratic
