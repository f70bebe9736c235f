import BinaryQuadratic.Proofs.AlikeValues

/-!
Arrays and the cells that they are read from. A cell that is no list is read wherever it stands in
an array, and an array is read the same from cells that look alike and can be read alike.
-/

namespace BinaryQuadratic

namespace Survey

theorem axes_meetList (s : Survey) (depth length : Nat) :
    (s.meetList depth length).1.axes =
      if (s.meetList depth length).2 then s.axes else depth := by
  unfold meetList
  split
  · split
    · rfl
    · rfl
  · rfl

theorem axes_meetLeaf (s : Survey) (depth : Nat) : (s.meetLeaf depth).axes = depth := by
  unfold meetLeaf
  split
  · assumption
  · rfl

mutual

theorem axes_visit {depth : Nat} {s : Survey} (inside : depth ≤ s.axes) :
    ∀ d, depth ≤ (visit depth d s).axes ∧ (visit depth d s).axes ≤ s.axes
  | .list items => by
      have met := axes_meetList s depth items.length
      rw [visit]
      split
      · exact ⟨inside, Nat.le_refl _⟩
      · rename_i inner
        dsimp only
        cases agrees : (s.meetList depth items.length).2 with
        | false =>
            rw [agrees, if_neg Bool.false_ne_true] at met
            rw [Bool.not_false, if_pos rfl, met]
            exact ⟨Nat.le_refl _, inside⟩
        | true =>
            rw [agrees, if_pos rfl] at met
            rw [Bool.not_true, if_neg Bool.false_ne_true]
            split
            · exact ⟨Nat.le_succ _, by dsimp only; omega⟩
            · obtain ⟨lower, upper⟩ := axes_visitItems (s := (s.meetList depth items.length).1)
                (by omega : depth + 1 ≤ _) items
              omega
  | .scalar value => by
      rw [visit, axes_meetLeaf]
      · exact ⟨Nat.le_refl _, inside⟩
      · simp
  | .table fields => by
      rw [visit, axes_meetLeaf]
      · exact ⟨Nat.le_refl _, inside⟩
      · simp

theorem axes_visitItems {depth : Nat} {s : Survey} (inside : depth ≤ s.axes) :
    ∀ items, depth ≤ (visitItems depth items s).axes ∧ (visitItems depth items s).axes ≤ s.axes
  | [] => by
      rw [visitItems]
      exact ⟨inside, Nat.le_refl _⟩
  | item :: rest => by
      rw [visitItems]
      obtain ⟨lower, upper⟩ := axes_visit inside item
      obtain ⟨restLower, restUpper⟩ := axes_visitItems lower rest
      exact ⟨restLower, Nat.le_trans restUpper upper⟩

end

theorem axes_visit_row (s : Survey) (leaf : Scalar) (rest : List Datum) :
    (visit 1 (.list (.scalar leaf :: rest)) s).axes ≤ 2 := by
  have met := axes_meetList s 1 (Datum.scalar leaf :: rest).length
  rw [visit]
  split
  · dsimp only
    omega
  · dsimp only
    cases agrees : (s.meetList 1 (Datum.scalar leaf :: rest).length).2 with
    | false =>
        rw [agrees, if_neg Bool.false_ne_true] at met
        rw [Bool.not_false, if_pos rfl, met]
        decide
    | true =>
        have axes : (visit 2 (.scalar leaf) (s.meetList 1 (Datum.scalar leaf :: rest).length).1).axes =
            2 := by
          rw [visit, axes_meetLeaf]
          simp
        rw [Bool.not_true, if_neg Bool.false_ne_true, List.isEmpty_cons, if_neg Bool.false_ne_true,
          visitItems]
        exact axes ▸ (axes_visitItems (Nat.le_of_eq axes.symm) rest).2

theorem axes_visitItems_row {items : List Datum} {s : Survey} (inside : 1 ≤ s.axes) {leaf : Scalar}
    {rest : List Datum} (member : .list (.scalar leaf :: rest) ∈ items) :
    (visitItems 1 items s).axes ≤ 2 := by
  induction items generalizing s with
  | nil => cases member
  | cons item others ih =>
      rw [visitItems]
      obtain ⟨lower, -⟩ := axes_visit inside item
      rcases List.mem_cons.mp member with rfl | later
      · exact Nat.le_trans (axes_visitItems lower others).2 (axes_visit_row s leaf rest)
      · exact ih lower later

theorem length_shapeOf_le {items : List Datum} {leaf : Scalar} {rest : List Datum}
    {shape : List Nat} (member : .list (.scalar leaf :: rest) ∈ items)
    (read : shapeOf (.list items) = .ok shape) : shape.length ≤ 2 := by
  have present : items.isEmpty = false := by
    cases items with
    | nil => cases member
    | cons item others => rfl
  have visited : visit 0 (.list items) start =
      visitItems 1 items ⟨axisLimit, [items.length], false, false⟩ := by
    rw [visit, if_neg (by decide)]
    simp [start, meetList, present]
  have bound := axes_visitItems_row (s := ⟨axisLimit, [items.length], false, false⟩)
    (by decide : 1 ≤ axisLimit) member
  rw [shapeOf, visited] at read
  split at read
  · cases read
  · cases read
    rw [List.length_take]
    omega

end Survey

namespace CouplingArray

theorem coupling_of_ofDatum {rows : List (List Datum)} {row : List Datum} {h : CouplingArray}
    (read : ofDatum (.list (rows.map .list)) = .ok h) (member : row ∈ rows)
    (scalars : ∀ cell ∈ row, ∃ s, cell = .scalar s) : ∀ cell ∈ row, ∃ x, coupling cell = .ok x := by
  intro cell inside
  obtain ⟨shape, shaped, read⟩ := bind_eq_ok.mp read
  have width : shape.length ≤ 2 := by
    cases row with
    | nil => cases inside
    | cons first rest =>
        obtain ⟨leaf, rfl⟩ := scalars first List.mem_cons_self
        exact Survey.length_shapeOf_le (List.mem_map_of_mem member) shaped
  match shape with
  | [] =>
      obtain ⟨_, refused, -⟩ := map_eq_ok.mp read
      cases refused
  | [_] =>
      obtain ⟨floats, rowsRead, -⟩ := map_eq_ok.mp read
      obtain ⟨x, -, refused⟩ := ok_of_mapM_eq_ok rowsRead (List.mem_map_of_mem member)
      cases refused
  | [_, _] =>
      obtain ⟨grid, rowsRead, -⟩ := map_eq_ok.mp read
      obtain ⟨floats, -, cellsRead⟩ := ok_of_mapM_eq_ok rowsRead (List.mem_map_of_mem member)
      obtain ⟨x, -, cellRead⟩ := ok_of_mapM_eq_ok cellsRead inside
      exact ⟨x, cellRead⟩
  | _ :: _ :: _ :: _ =>
      simp only [List.length_cons] at width
      omega

/-- A datum that can stand in an array for another one: it has the same shape, and its leaves are
read wherever those of the other are. -/
structure Substitutes (a b : Datum) : Prop where
  visit : ∀ depth s, Survey.visit depth a s = Survey.visit depth b s
  leaves : ∀ axes, List.Forall₂ (fun x y => ∀ z, coupling x = .ok z → coupling y = .ok z)
    (leaves axes a) (leaves axes b)

theorem Substitutes.refl (d : Datum) : Substitutes d d :=
  ⟨fun _ _ => rfl, fun _ => List.forall₂_same.mpr fun _ _ _ read => read⟩

theorem Substitutes.scalar {s t : Scalar}
    (read : ∀ z, coupling (.scalar s) = .ok z → coupling (.scalar t) = .ok z) :
    Substitutes (.scalar s) (.scalar t) := by
  refine ⟨?_, ?_⟩
  · intro depth survey
    rw [Survey.visit, Survey.visit]
    · simp
    · simp
  · intro axes
    cases axes with
    | zero => exact .cons read .nil
    | succ axes => exact .nil

theorem visitItems_substitutes {xs ys : List Datum} (related : List.Forall₂ Substitutes xs ys)
    (depth : Nat) (s : Survey) :
    Survey.visitItems depth xs s = Survey.visitItems depth ys s := by
  induction related generalizing s with
  | nil => rfl
  | cons head _ ih => rw [Survey.visitItems, Survey.visitItems, head.visit, ih]

theorem leaves_substitutes {xs ys : List Datum} (related : List.Forall₂ Substitutes xs ys)
    (axes : Nat) : List.Forall₂ (fun x y => ∀ z, coupling x = .ok z → coupling y = .ok z)
      (xs.flatMap (leaves axes)) (ys.flatMap (leaves axes)) := by
  induction related with
  | nil => exact .nil
  | cons head _ ih =>
      rw [List.flatMap_cons, List.flatMap_cons]
      exact List.rel_append (head.leaves axes) ih

theorem Substitutes.list {xs ys : List Datum} (related : List.Forall₂ Substitutes xs ys) :
    Substitutes (.list xs) (.list ys) := by
  refine ⟨?_, ?_⟩
  · intro depth s
    have empty : xs.isEmpty = ys.isEmpty := by cases related <;> rfl
    simp only [Survey.visit, related.length_eq, empty, visitItems_substitutes related]
  · intro axes
    cases axes with
    | zero => exact .cons (fun _ refused => by cases refused) .nil
    | succ axes => exact leaves_substitutes related axes

theorem Substitutes.coupling {a b : Datum} (same : Substitutes a b) {z : Float}
    (read : coupling a = .ok z) : coupling b = .ok z := by
  cases same.leaves 0 with
  | cons head _ => exact head z read

theorem Substitutes.items {a b : Datum} (same : Substitutes a b) {floats : List Float}
    (read : (listItems a).mapM CouplingArray.coupling = .ok floats) :
    (listItems b).mapM CouplingArray.coupling = .ok floats := by
  have alone (d : Datum) : CouplingArray.leaves 1 d = listItems d := List.flatMap_singleton' _
  have related := same.leaves 1
  rw [alone, alone] at related
  exact mapM_ok_of_forall₂ related (fun _ _ step => step) read

theorem ofDatum_substitutes {xs ys : List Datum} {h : CouplingArray}
    (related : List.Forall₂ Substitutes xs ys) (read : ofDatum (.list xs) = .ok h) :
    ofDatum (.list ys) = .ok h := by
  have whole := Substitutes.list related
  have shape : Survey.shapeOf (.list ys) = Survey.shapeOf (.list xs) := by
    rw [Survey.shapeOf, Survey.shapeOf, whole.visit]
  obtain ⟨found, shaped, read⟩ := bind_eq_ok.mp read
  rw [ofDatum, shape, shaped, ok_bind]
  match found with
  | [] =>
      obtain ⟨_, refused, -⟩ := map_eq_ok.mp read
      cases refused
  | [_] =>
      obtain ⟨floats, cells, rfl⟩ := map_eq_ok.mp read
      have same := mapM_ok_of_forall₂ related (fun _ _ same _ => same.coupling) cells
      exact map_eq_ok.mpr ⟨floats, same, rfl⟩
  | [_, _] =>
      obtain ⟨grid, rows, rfl⟩ := map_eq_ok.mp read
      have same := mapM_ok_of_forall₂ related (fun _ _ same _ => same.items) rows
      exact map_eq_ok.mpr ⟨grid, same, rfl⟩
  | first :: second :: third :: rest =>
      obtain ⟨floats, cells, rfl⟩ := map_eq_ok.mp read
      have same := mapM_ok_of_forall₂ (whole.leaves _) (fun _ _ step => step) cells
      exact map_eq_ok.mpr ⟨floats, same, rfl⟩

end CouplingArray

end BinaryQuadratic
