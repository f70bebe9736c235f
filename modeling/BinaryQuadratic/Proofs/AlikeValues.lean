import Mathlib.Data.List.Forall2
import BinaryQuadratic.Proofs.SharedFields
import BinaryQuadratic.Run

/-!
Values that are alike: they have the same scalars at the same places, and containers that are one
container in one value are one container in the other. Whatever is read from a configuration is
read alike from any other that is alike.
-/

namespace BinaryQuadratic

section Agreement

variable {α β γ δ : Type} {R : α → β → Prop} {S : γ → δ → Prop}

inductive Agree (R : α → β → Prop) : Except Fault α → Except Fault β → Prop
  | ok {a : α} {b : β} (related : R a b) : Agree R (.ok a) (.ok b)
  | error (fault : Fault) : Agree R (.error fault) (.error fault)

theorem Agree.bind {first : Except Fault α} {second : Except Fault β} {f : α → Except Fault γ}
    {g : β → Except Fault δ} (agree : Agree R first second)
    (step : ∀ a b, R a b → Agree S (f a) (g b)) : Agree S (first >>= f) (second >>= g) := by
  cases agree with
  | ok related => exact step _ _ related
  | error fault => exact .error fault

theorem Agree.bind_eq {first : Except Fault α} {second : Except Fault β} {f : α → Except Fault γ}
    {g : β → Except Fault γ} (agree : Agree R first second) (step : ∀ a b, R a b → f a = g b) :
    first >>= f = second >>= g := by
  cases agree with
  | ok related => exact step _ _ related
  | error fault => rfl

theorem forall₂_imp_of_mem {T : α → β → Prop} {xs : List α} {ys : List β}
    (related : List.Forall₂ R xs ys) (step : ∀ a ∈ xs, ∀ b, R a b → T a b) :
    List.Forall₂ T xs ys :=
  ((List.forall₂_and_left _ _).mpr ⟨step, related⟩).imp fun _ b both => both.1 b both.2

theorem map_eq_of_forall₂ {xs : List α} {ys : List β} {f : α → γ} {g : β → γ}
    (related : List.Forall₂ R xs ys) (same : ∀ a b, R a b → f a = g b) :
    xs.map f = ys.map g := by
  induction related with
  | nil => rfl
  | cons head _ ih => rw [List.map_cons, List.map_cons, same _ _ head, ih]

theorem any_eq_of_forall₂ {xs : List α} {ys : List β} {f : α → Bool} {g : β → Bool}
    (related : List.Forall₂ R xs ys) (same : ∀ a b, R a b → f a = g b) :
    xs.any f = ys.any g := by
  induction related with
  | nil => rfl
  | cons head _ ih => rw [List.any_cons, List.any_cons, same _ _ head, ih]

theorem mapM_eq_of_forall₂ {xs : List α} {ys : List β} {f : α → Except Fault γ}
    {g : β → Except Fault γ} (related : List.Forall₂ R xs ys)
    (same : ∀ a b, R a b → f a = g b) : xs.mapM f = ys.mapM g := by
  induction related with
  | nil => rfl
  | cons head _ ih => rw [List.mapM_cons, List.mapM_cons, same _ _ head, ih]

theorem mapM_agree_of_forall₂ {xs : List α} {ys : List β} {f : α → Except Fault γ}
    {g : β → Except Fault δ} (related : List.Forall₂ R xs ys)
    (agree : ∀ a b, R a b → Agree S (f a) (g b)) :
    Agree (List.Forall₂ S) (xs.mapM f) (ys.mapM g) := by
  induction related with
  | nil => exact .ok .nil
  | cons head _ ih =>
      rw [List.mapM_cons, List.mapM_cons]
      refine (agree _ _ head).bind fun c d first => ih.bind fun cs ds rest => ?_
      exact .ok (.cons first rest)

theorem right_of_forall₂ {P : β → Prop} {xs : List α} {ys : List β}
    (related : List.Forall₂ R xs ys) (holds : ∀ a b, R a b → P b) : ∀ y ∈ ys, P y := by
  induction related with
  | nil => exact nofun
  | cons head _ ih => exact List.forall_mem_cons.mpr ⟨holds _ _ head, ih⟩

theorem forall₂_of_mapM_eq_ok {xs : List α} {ys : List β} {f : α → Except Fault β}
    (run : xs.mapM f = .ok ys) : List.Forall₂ (fun x y => f x = .ok y) xs ys := by
  induction xs generalizing ys with
  | nil =>
      cases run
      exact .nil
  | cons x xs ih =>
      rw [List.mapM_cons] at run
      obtain ⟨first, firstRun, run⟩ := bind_eq_ok.mp run
      obtain ⟨rest, restRun, run⟩ := bind_eq_ok.mp run
      cases run
      exact .cons firstRun (ih restRun)

theorem mapM_ok_of_forall₂ {xs : List α} {ys : List β} {f : α → Except Fault γ}
    {g : β → Except Fault γ} (related : List.Forall₂ R xs ys)
    (step : ∀ a b, R a b → ∀ c, f a = .ok c → g b = .ok c) {zs : List γ}
    (run : xs.mapM f = .ok zs) : ys.mapM g = .ok zs := by
  induction related generalizing zs with
  | nil => exact run
  | cons head _ ih =>
      rw [List.mapM_cons] at run
      obtain ⟨first, firstRun, run⟩ := bind_eq_ok.mp run
      obtain ⟨rest, restRun, run⟩ := bind_eq_ok.mp run
      rw [List.mapM_cons, step _ _ head first firstRun, ok_bind, ih restRun, ok_bind]
      exact run

theorem mapM_ok_forall₂ {xs : List α} {ys : List β} {f : α → Except Fault γ}
    {g : β → Except Fault δ} (related : List.Forall₂ R xs ys)
    (step : ∀ a ∈ xs, ∀ b, R a b → ∀ c, f a = .ok c → ∃ d, g b = .ok d ∧ S c d) {results : List γ}
    (run : xs.mapM f = .ok results) : ∃ others, ys.mapM g = .ok others ∧
      List.Forall₂ S results others := by
  induction related generalizing results with
  | nil =>
      cases run
      exact ⟨[], rfl, .nil⟩
  | cons head _ ih =>
      rw [List.forall_mem_cons] at step
      rw [List.mapM_cons] at run
      obtain ⟨first, firstRun, run⟩ := bind_eq_ok.mp run
      obtain ⟨rest, restRun, run⟩ := bind_eq_ok.mp run
      cases run
      obtain ⟨other, otherRun, here⟩ := step.1 _ head first firstRun
      obtain ⟨others, othersRun, later⟩ := ih step.2 restRun
      refine ⟨other :: others, ?_, .cons here later⟩
      rw [List.mapM_cons, otherRun, ok_bind, othersRun]
      rfl

theorem mapM_forall₂ {xs : List α} {f : α → Except Fault β}
    (steps : ∀ x ∈ xs, ∃ y, f x = .ok y ∧ R x y) :
    ∃ ys, xs.mapM f = .ok ys ∧ List.Forall₂ R xs ys := by
  induction xs with
  | nil => exact ⟨[], rfl, .nil⟩
  | cons x xs ih =>
      rw [List.forall_mem_cons] at steps
      obtain ⟨⟨y, stepped, here⟩, rest⟩ := steps
      obtain ⟨ys, run, later⟩ := ih rest
      refine ⟨y :: ys, ?_, .cons here later⟩
      rw [List.mapM_cons, stepped, ok_bind, run]
      rfl

theorem foldlM_ok_of_forall₂ {xs : List α} {ys : List β} {f : γ → α → Except Fault γ}
    {g : γ → β → Except Fault γ} (related : List.Forall₂ R xs ys)
    (step : ∀ a b, R a b → ∀ c d, f c a = .ok d → g c b = .ok d) {start result : γ}
    (run : xs.foldlM f start = .ok result) : ys.foldlM g start = .ok result := by
  induction related generalizing start with
  | nil => exact run
  | cons head _ ih =>
      rw [List.foldlM_cons] at run
      obtain ⟨next, firstRun, run⟩ := bind_eq_ok.mp run
      rw [List.foldlM_cons, step _ _ head start next firstRun, ok_bind]
      exact ih run

theorem foldlM_eq_of_forall₂ {xs : List α} {ys : List β} {f : γ → α → Except Fault γ}
    {g : γ → β → Except Fault γ} (related : List.Forall₂ R xs ys)
    (same : ∀ c a b, R a b → f c a = g c b) (start : γ) : xs.foldlM f start = ys.foldlM g start := by
  induction related generalizing start with
  | nil => rfl
  | cons head _ ih =>
      rw [List.foldlM_cons, List.foldlM_cons, same _ _ _ head]
      exact congrArg _ (funext ih)

end Agreement

section Layers

variable {ν μ : Type}

inductive Layer.Alike (P : ν → μ → Prop) : Layer ν → Layer μ → Prop
  | scalar (s : Scalar) : Alike P (.scalar s) (.scalar s)
  | list {items : List ν} {others : List μ} (related : List.Forall₂ P items others) :
      Alike P (.list items) (.list others)
  | pair {a b : ν} {c d : μ} (first : P a c) (second : P b d) : Alike P (.pair a b) (.pair c d)
  | set (members : List Scalar) : Alike P (.set members) (.set members)
  | table {fields : Fields ν} {others : Fields μ}
      (related : List.Forall₂ (fun field other => field.1 = other.1 ∧ P field.2 other.2)
        fields others) : Alike P (.table fields) (.table others)

theorem Layer.Alike.refl {P : ν → ν → Prop} (same : ∀ v, P v v) (layer : Layer ν) :
    Layer.Alike P layer layer := by
  cases layer with
  | scalar s => exact .scalar s
  | list items => exact .list (List.forall₂_same.mpr fun v _ => same v)
  | pair first second => exact .pair (same first) (same second)
  | set members => exact .set members
  | table fields => exact .table (List.forall₂_same.mpr fun field _ => ⟨rfl, same field.2⟩)

theorem Layer.Alike.map {ν' μ' : Type} {P : ν → μ → Prop} {Q : ν' → μ' → Prop} {f : ν → ν'}
    {g : μ → μ'} {first : Layer ν} {second : Layer μ} (alike : Layer.Alike P first second)
    (carried : ∀ v w, P v w → Q (f v) (g w)) : Layer.Alike Q (first.map f) (second.map g) := by
  cases alike with
  | scalar s => exact .scalar s
  | list related =>
      apply Layer.Alike.list
      rw [List.forall₂_map_left_iff, List.forall₂_map_right_iff]
      exact related.imp carried
  | pair first second => exact .pair (carried _ _ first) (carried _ _ second)
  | set members => exact .set members
  | table related =>
      apply Layer.Alike.table
      rw [List.forall₂_map_left_iff, List.forall₂_map_right_iff]
      exact related.imp fun field other both => ⟨both.1, carried _ _ both.2⟩

theorem Fields.lookup_alike {P : ν → μ → Prop} {fields : Fields ν} {others : Fields μ}
    (related : List.Forall₂ (fun field other => field.1 = other.1 ∧ P field.2 other.2) fields others)
    (key : Text) : Option.Rel P (lookup fields key) (lookup others key) := by
  induction related with
  | nil => exact .none
  | cons head _ ih =>
      rw [lookup_cons, lookup_cons, head.1]
      split
      · exact .some head.2
      · exact ih

/-- A relation between values of two types under which they are alike. Containers have numbers of
which one belongs to one of the other type. -/
structure Likeness [Value ν] [Value μ] (P : ν → μ → Prop) (numbers : Nat → Nat → Prop) : Prop where
  layer {v : ν} {w : μ} : P v w → Layer.Alike P (Value.layer v) (Value.layer w)
  ofScalar (s : Scalar) : P (Value.ofScalar s) (Value.ofScalar s)
  identity {v : ν} {w : μ} : P v w → Option.Rel numbers (Value.identity? v) (Value.identity? w)
  unique {i j k l : Nat} : numbers i k → numbers j l → (i = j ↔ k = l)

theorem checkRows_of_forall₂ [Value ν] [Value μ] {P : ν → μ → Prop} (side : Nat)
    (zeros : ∀ v w, P v w → Value.equalsInt v 0 = Value.equalsInt w 0) {rows : List (List ν)}
    {others : List (List μ)} (related : List.Forall₂ (List.Forall₂ P) rows others) (r : Nat) :
    CouplingArray.checkRows side r rows = CouplingArray.checkRows side r others := by
  induction related generalizing r with
  | nil => rfl
  | cons head _ ih =>
      have below := any_eq_of_forall₂ (List.forall₂_take r head) fun a b part =>
        congrArg not (zeros a b part)
      rw [CouplingArray.checkRows, CouplingArray.checkRows, head.length_eq, below, ih]

end Layers

namespace Likeness

variable {ν μ : Type} [Value ν] [Value μ] {P : ν → μ → Prop} {numbers : Nat → Nat → Prop}
  {v : ν} {w : μ} (L : Likeness P numbers) (same : P v w)

include L same

theorem scalar? : Value.scalar? v = Value.scalar? w := by
  unfold Value.scalar?
  have alike := L.layer same
  generalize Value.layer v = first, Value.layer w = second at alike ⊢
  cases alike <;> rfl

theorem toScalar : Value.toScalar v = Value.toScalar w := by
  rw [Value.toScalar, Value.toScalar, L.scalar? same]

theorem isNull : Value.isNull v = Value.isNull w := by
  unfold Value.isNull
  have alike := L.layer same
  generalize Value.layer v = first, Value.layer w = second at alike ⊢
  cases alike with
  | scalar s => cases s <;> rfl
  | _ => rfl

theorem equalsInt (n : Int) : Value.equalsInt v n = Value.equalsInt w n := by
  rw [Value.equalsInt, Value.equalsInt, L.scalar? same]

theorem equalsText (t : Text) : Value.equalsText v t = Value.equalsText w t := by
  unfold Value.equalsText
  have alike := L.layer same
  generalize Value.layer v = first, Value.layer w = second at alike ⊢
  cases alike with
  | scalar s => cases s <;> rfl
  | _ => rfl

theorem toInt : Value.toInt v = Value.toInt w := by
  rw [Value.toInt, Value.toInt, L.toScalar same]

theorem toFloat : Value.toFloat v = Value.toFloat w := by
  rw [Value.toFloat, Value.toFloat, L.toScalar same]

theorem isTruthy : Value.isTruthy v = Value.isTruthy w := by
  unfold Value.isTruthy
  have alike := L.layer same
  generalize Value.layer v = first, Value.layer w = second at alike ⊢
  cases alike with
  | list related => cases related <;> rfl
  | table related => cases related <;> rfl
  | _ => rfl

theorem items : Agree (List.Forall₂ P) (Value.items v) (Value.items w) := by
  have scalars {α : Type} (f : α → Scalar) (xs : List α) : List.Forall₂ P
      (xs.map fun x => Value.ofScalar (f x)) (xs.map fun x => Value.ofScalar (f x)) := by
    simp [List.forall₂_map_left_iff, List.forall₂_map_right_iff, List.forall₂_same, L.ofScalar]
  unfold Value.items
  have alike := L.layer same
  generalize Value.layer v = first, Value.layer w = second at alike ⊢
  cases alike with
  | list related => exact .ok related
  | pair first second => exact .ok (.cons first (.cons second .nil))
  | set members => exact .ok (scalars id members)
  | table related =>
      apply Agree.ok
      rw [List.forall₂_map_left_iff, List.forall₂_map_right_iff]
      exact related.imp fun field other both => both.1 ▸ L.ofScalar field.1
  | scalar s =>
      cases s with
      | text t => exact .ok (scalars (fun p => .text (.singleton p)) t.points)
      | bytes bs => exact .ok (scalars (fun b => .int b.toNat) bs)
      | _ => exact .error _

theorem get? (key : Text) : Agree (Option.Rel P) (Value.get? v key) (Value.get? w key) := by
  unfold Value.get?
  have alike := L.layer same
  generalize Value.layer v = first, Value.layer w = second at alike ⊢
  cases alike with
  | table related => exact .ok (Fields.lookup_alike related key)
  | _ => exact .error _

theorem get (key : Text) : Agree P (Value.get v key) (Value.get w key) := by
  unfold Value.get
  have alike := L.layer same
  generalize Value.layer v = first, Value.layer w = second at alike ⊢
  cases alike with
  | @table fields others related =>
      have found := Fields.lookup_alike related key
      dsimp only
      generalize Fields.lookup fields key = one, Fields.lookup others key = other at found ⊢
      cases found with
      | none => exact .error _
      | some related => exact .ok related
  | _ => exact .error _

theorem mentions (key : Text) : Value.mentions v key = Value.mentions w key := by
  unfold Value.mentions
  have alike := L.layer same
  generalize Value.layer v = first, Value.layer w = second at alike ⊢
  cases alike with
  | @table fields others related =>
      have found := Fields.lookup_alike related key
      dsimp only
      generalize Fields.lookup fields key = one, Fields.lookup others key = other at found ⊢
      cases found <;> rfl
  | list related =>
      have any := any_eq_of_forall₂ related fun a b part => L.equalsText part key
      exact congrArg Except.ok any
  | pair first second =>
      dsimp only
      rw [L.equalsText first, L.equalsText second]
  | set members => rfl
  | scalar s => cases s <;> rfl

theorem outline (depth : Nat) : Survey.outline depth v = Survey.outline depth w := by
  induction depth generalizing v w with
  | zero =>
      unfold Survey.outline
      have alike := L.layer same
      generalize Value.layer v = first, Value.layer w = second at alike ⊢
      cases alike <;> rfl
  | succ depth ih =>
      unfold Survey.outline
      have alike := L.layer same
      generalize Value.layer v = first, Value.layer w = second at alike ⊢
      cases alike with
      | list related => exact congrArg Datum.list (map_eq_of_forall₂ related fun a b part => ih part)
      | pair first second =>
          dsimp only
          rw [ih first, ih second]
      | _ => rfl

omit same in
theorem ofRows {rows : List (List ν)} {others : List (List μ)}
    (related : List.Forall₂ (List.Forall₂ P) rows others) :
    CouplingArray.ofRows rows = CouplingArray.ofRows others := by
  have outlines : rows.map (fun row => Datum.list (row.map CouplingArray.cellOutline)) =
      others.map fun row => Datum.list (row.map CouplingArray.cellOutline) :=
    map_eq_of_forall₂ related fun row other cells =>
      congrArg Datum.list (map_eq_of_forall₂ cells fun a b part => L.outline part _)
  rw [CouplingArray.ofRows, CouplingArray.ofRows, related.length_eq,
    checkRows_of_forall₂ _ (fun _ _ part => L.equalsInt part 0) related, outlines]

theorem ofSequences : CouplingArray.ofSequences v = CouplingArray.ofSequences w :=
  (L.items same).bind_eq fun _ _ rows =>
    (mapM_agree_of_forall₂ rows fun _ _ row => L.items row).bind_eq fun _ _ cells =>
      L.ofRows cells

theorem contains {outer others : List Nat} (met : List.Forall₂ numbers outer others) :
    (Value.identity? v).any outer.contains = (Value.identity? w).any others.contains := by
  have related := L.identity same
  generalize Value.identity? v = first, Value.identity? w = second at related ⊢
  cases related with
  | none => rfl
  | @some i k number =>
      rw [Option.any_some, Option.any_some, List.contains_eq_any_beq, List.contains_eq_any_beq]
      apply any_eq_of_forall₂ met
      intro j l other
      rw [Bool.eq_iff_iff, beq_iff_eq, beq_iff_eq, L.unique number other]

theorem met_inside {outer others : List Nat} (met : List.Forall₂ numbers outer others) :
    List.Forall₂ numbers ((Value.identity? v).toList ++ outer)
      ((Value.identity? w).toList ++ others) := by
  have related := L.identity same
  generalize Value.identity? v = first, Value.identity? w = second at related ⊢
  cases related with
  | none => exact met
  | some number => exact .cons number met

theorem quotedWithin (depth : Nat) {outer others : List Nat}
    (met : List.Forall₂ numbers outer others) :
    Value.quotedWithin depth outer v = Value.quotedWithin depth others w := by
  induction depth generalizing v w outer others with
  | zero => rfl
  | succ depth ih =>
      have inner {a : ν} {b : μ} (part : P a b) := ih part (L.met_inside same met)
      unfold Value.quotedWithin
      rw [L.contains same met]
      have alike := L.layer same
      generalize Value.layer v = first, Value.layer w = second at alike ⊢
      cases alike with
      | scalar s => rfl
      | list related =>
          dsimp only
          rw [mapM_eq_of_forall₂ related fun a b part => inner part]
          rfl
      | pair first second =>
          dsimp only
          rw [inner first, inner second]
          rfl
      | set members => cases members <;> rfl
      | table related =>
          dsimp only
          rw [mapM_eq_of_forall₂ related fun field other both => by rw [both.1, inner both.2]]
          rfl

theorem quoted : Value.quoted v = Value.quoted w := L.quotedWithin same _ .nil

theorem shown : Value.shown v = Value.shown w := by
  unfold Value.shown
  rw [L.quoted same]
  have alike := L.layer same
  generalize Value.layer v = first, Value.layer w = second at alike ⊢
  cases alike <;> rfl

end Likeness

end BinaryQuadratic
