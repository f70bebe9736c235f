import BinaryQuadratic.Proofs.ConfiguredProblem
import BinaryQuadratic.Proofs.RestoredValues

/-!
Configurations that are read back. A configuration that has been sampled is sampled alike when its
text is read, if no table that is met as a sequence has its keys out of order.
-/

namespace BinaryQuadratic

open BinaryQuadratic.Configuration

/-- No sequence of a section that is read has a table in it whose keys are out of order. -/
structure Datum.TermsInOrder (part : Datum) : Prop where
  grid : ∀ {rows}, Value.get? part "hamiltonian" = .ok (some rows) → rows.RowsInOrder
  terms : Value.get? part "hamiltonian" = .ok none →
    ∀ {list}, Value.get? part "entries" = .ok (some list) → list.RowsInOrder

namespace Configuration

theorem isPlain_of_three {t : Text} {i j value : Datum}
    (three : Value.items (Datum.text t) = .ok [i, j, value]) {first second : Int} {x : Float}
    (firstRead : Value.toInt i = .ok first) (secondRead : Value.toInt j = .ok second)
    (valueRead : Value.toFloat value = .ok x) : t.isPlain = true := by
  have points := Except.ok.inj three
  obtain ⟨p, q, r, whole⟩ : ∃ p q r, t.points = [p, q, r] := by
    rw [← List.length_eq_three, ← List.length_map, points]
    rfl
  rw [whole] at points
  cases points
  rw [Text.isPlain_iff_singletons, whole]
  simp only [List.forall_mem_cons]
  exact ⟨Scalar.isPlain_of_toInt firstRead, Scalar.isPlain_of_toInt secondRead,
    Scalar.isPlain_of_toFloat valueRead, nofun⟩

theorem insertItem_eq_ok {item : Datum} {p q : Problem} (run : insertItem p item = .ok q) :
    ∃ i j value first second x, Value.items item = .ok [i, j, value] ∧
      Value.toInt i = .ok first ∧ Value.toInt j = .ok second ∧ Value.toFloat value = .ok x ∧
      p.insert (.int first) (.int second) (.float x) = .ok q := by
  obtain ⟨items, read, run⟩ := bind_eq_ok.mp run
  match items with
  | [i, j, value] =>
      obtain ⟨first, firstRead, run⟩ := bind_eq_ok.mp run
      obtain ⟨second, secondRead, run⟩ := bind_eq_ok.mp run
      obtain ⟨x, valueRead, run⟩ := bind_eq_ok.mp run
      exact ⟨i, j, value, first, second, x, read, firstRead, secondRead, valueRead, run⟩
  | [] =>
      obtain ⟨_, -, refused⟩ := bind_eq_ok.mp run
      cases refused
  | [_] =>
      obtain ⟨_, -, refused⟩ := bind_eq_ok.mp run
      cases refused
  | [_, _] =>
      obtain ⟨_, -, refused⟩ := bind_eq_ok.mp run
      cases refused
  | _ :: _ :: _ :: _ :: _ =>
      obtain ⟨_, -, refused⟩ := bind_eq_ok.mp run
      cases refused

theorem table_of_problem {part : Datum} {p : Problem} (read : problem part = .ok p) :
    ∃ fields, part = .table fields := by
  have refused {q : Problem} (without : ∀ key, ∃ fault, Value.get part key = .error fault) :
      problem part ≠ .ok q := by
    intro read
    obtain ⟨dense, -, read⟩ := bind_eq_ok.mp read
    split at read
    · obtain ⟨_, found, -⟩ := bind_eq_ok.mp read
      obtain ⟨fault, failed⟩ := without "hamiltonian"
      cases found.symm.trans failed
    · obtain ⟨sized, -, read⟩ := bind_eq_ok.mp read
      split at read
      · obtain ⟨_, found, -⟩ := bind_eq_ok.mp read
        obtain ⟨fault, failed⟩ := without "size"
        cases found.symm.trans failed
      · cases read
  cases part with
  | scalar s => exact (refused (fun _ => ⟨_, rfl⟩) read).elim
  | list items => exact (refused (fun _ => ⟨_, rfl⟩) read).elim
  | table fields => exact ⟨fields, rfl⟩

end Configuration

namespace Restores

variable {v w : Datum}

theorem insertItem (same : Restores v w) (ordered : v.InOrder) {p q : Problem}
    (run : Configuration.insertItem p v = .ok q) : Configuration.insertItem p w = .ok q := by
  obtain ⟨i, j, value, first, second, x, items, firstRead, secondRead, valueRead, inserted⟩ :=
    insertItem_eq_ok run
  obtain ⟨others, othersRead, related⟩ := same.items ordered
    (fun t text => isPlain_of_three (text ▸ items) firstRead secondRead valueRead) items
  cases related with
  | cons first related =>
      cases related with
      | cons second related =>
          cases related with
          | cons third related =>
              cases related
              rw [Configuration.insertItem, othersRead, ok_bind]
              simp only [first.toInt firstRead, second.toInt secondRead, third.toFloat valueRead,
                ok_bind]
              exact inserted

theorem terms {part other : Option Datum} (same : Option.Rel Restores part other)
    (ordered : ∀ {list}, part = some list → list.RowsInOrder) {items : List Datum} {p q : Problem}
    (read : itemsOf part = .ok items) (run : items.foldlM Configuration.insertItem p = .ok q) :
    ∃ others, itemsOf other = .ok others ∧ others.foldlM Configuration.insertItem p = .ok q := by
  cases same with
  | none => exact ⟨items, read, run⟩
  | @some v w same =>
      cases present : Value.isTruthy v with
      | false =>
          rw [itemsOf, Option.filter_some, present, if_neg Bool.false_ne_true] at read
          rw [itemsOf, Option.filter_some, ← same.isTruthy, present, if_neg Bool.false_ne_true]
          exact ⟨items, read, run⟩
      | true =>
          rw [itemsOf, Option.filter_some, present, if_pos rfl] at read
          rw [itemsOf, Option.filter_some, ← same.isTruthy, present, if_pos rfl]
          have plain : ∀ t : Text, v = .text t → t.isPlain = true := by
            rintro ⟨_ | ⟨point, points⟩⟩ rfl
            · rfl
            · cases read
              obtain ⟨_, first, -⟩ := bind_eq_ok.mp run
              obtain ⟨_, _, _, _, _, _, three, -⟩ := insertItem_eq_ok first
              cases three
          obtain ⟨others, othersRead, related⟩ := same.items (ordered rfl).whole plain read
          refine ⟨others, othersRead, foldlM_ok_of_forall₂ ((List.forall₂_and_left _ _).mpr
            ⟨(ordered rfl).rows read, related⟩) ?_ run⟩
          rintro item other ⟨order, part⟩ p q
          exact part.insertItem order

theorem get (same : Restores v w) {key : Text} (low : ∀ n ∈ key.units, n < 0xD800) {found : Datum}
    (read : Value.get v key = .ok found) : ∃ other, Value.get w key = .ok other ∧
      Restores found other := by
  have held : Value.get? v key = .ok (some found) := by
    cases v with
    | scalar s => cases read
    | list items => cases read
    | table fields =>
        change (Fields.lookup fields key).elim _ _ = _ at read
        change Except.ok (Fields.lookup fields key) = _
        cases present : Fields.lookup fields key with
        | none =>
            rw [present] at read
            cases read
        | some value =>
            rw [present] at read
            cases read
            rfl
  obtain ⟨_, otherRead, related⟩ := same.get? low held
  cases related with
  | some part => exact ⟨_, get_of_get? otherRead, part⟩

theorem problem (same : Restores v w) (ordered : v.TermsInOrder) {p : Problem}
    (read : Configuration.problem v = .ok p) : Configuration.problem w = .ok p := by
  obtain ⟨fields, rfl⟩ := table_of_problem read
  obtain ⟨rows, rowsFound⟩ : ∃ rows, Value.get? (Datum.table fields) "hamiltonian" = .ok rows :=
    ⟨_, rfl⟩
  obtain ⟨size, sizeFound⟩ : ∃ size, Value.get? (Datum.table fields) "size" = .ok size := ⟨_, rfl⟩
  obtain ⟨list, listFound⟩ : ∃ list, Value.get? (Datum.table fields) "entries" = .ok list :=
    ⟨_, rfl⟩
  obtain ⟨others, othersFound, rowsSame⟩ := same.get? (by decide) rowsFound
  obtain ⟨count, countFound, sizeSame⟩ := same.get? (by decide) sizeFound
  obtain ⟨otherList, otherFound, listSame⟩ := same.get? (by decide) listFound
  rw [Configuration.problem, mentions_of_get? rowsFound, ok_bind] at read
  rw [Configuration.problem, mentions_of_get? othersFound, ok_bind]
  cases rowsSame with
  | some grid =>
      rw [Option.isSome_some, if_pos rfl, get_of_get? rowsFound, ok_bind] at read
      rw [Option.isSome_some, if_pos rfl, get_of_get? othersFound, ok_bind]
      obtain ⟨h, gridRead, read⟩ := bind_eq_ok.mp read
      rw [grid.ofSequences (ordered.grid rowsFound) gridRead, ok_bind]
      exact read
  | none =>
      rw [Option.isSome_none, if_neg Bool.false_ne_true, mentions_of_get? sizeFound, ok_bind] at read
      rw [Option.isSome_none, if_neg Bool.false_ne_true, mentions_of_get? countFound, ok_bind]
      cases sizeSame with
      | none => cases read
      | some number =>
          rw [Option.isSome_some, if_pos rfl, get_of_get? sizeFound, ok_bind] at read
          rw [Option.isSome_some, if_pos rfl, get_of_get? countFound, ok_bind]
          obtain ⟨n, numberRead, read⟩ := bind_eq_ok.mp read
          rw [number.toInt numberRead, ok_bind, otherFound, ok_bind]
          rw [listFound, ok_bind] at read
          obtain ⟨items, itemsRead, run⟩ := bind_eq_ok.mp read
          obtain ⟨otherItems, othersRead, otherRun⟩ := terms listSame
            (fun present => ordered.terms rowsFound (present ▸ listFound)) itemsRead run
          rw [othersRead, ok_bind]
          exact otherRun

section Settings

variable {part other : Option Datum} (same : Option.Rel Restores part other)

include same

theorem filterTruthy :
    Option.Rel Restores (part.filter Value.isTruthy) (other.filter Value.isTruthy) := by
  cases same with
  | none => exact .none
  | @some v w same =>
      rw [Option.filter_some, Option.filter_some, same.isTruthy]
      split
      · exact .some same
      · exact .none

theorem setting {key : Text} (low : ∀ n ∈ key.units, n < 0xD800) {found : Option Datum}
    (read : Configuration.setting part key = .ok found) :
    ∃ others, Configuration.setting other key = .ok others ∧ Option.Rel Restores found others := by
  cases same with
  | none =>
      cases read
      exact ⟨none, rfl, .none⟩
  | some same => exact same.get? low read

theorem integerOrNull {d : Datum} (read : Configuration.integerOrNull part = .ok d) :
    Configuration.integerOrNull other = .ok d := by
  cases same with
  | none => exact read
  | @some v w same =>
      rw [Configuration.integerOrNull, Option.filter_some] at read ⊢
      rw [← same.isNull]
      cases null : Value.isNull v with
      | true =>
          rw [null] at read
          exact read
      | false =>
          rw [null] at read
          obtain ⟨n, numberRead, rfl⟩ := map_eq_ok.mp read
          exact map_eq_ok.mpr ⟨n, same.toInt numberRead, rfl⟩

end Settings

theorem scalar_of_shown {kind : Datum} (lowered : Text.lowerCase <$> Value.shown kind =
    .ok "simulator") : ∃ s, kind = .scalar s := by
  obtain ⟨t, shown, lower⟩ := map_eq_ok.mp lowered
  have refused {opening closing : String} {c : Char} {parts : List String}
      (head : opening.toList = [c]) (mark : c = '[' ∨ c = '\x7b')
      (same : Text.ofString (Value.enclosed opening closing parts) = t) : False := by
    obtain ⟨rest, points⟩ : ∃ rest, t.points = .char c :: rest := by
      rw [← same, Value.enclosed, Text.ofString, Text.ofChars, String.toList_append,
        String.toList_append, head]
      exact ⟨_, rfl⟩
    have whole : t = ⟨.char c :: rest⟩ := by rw [← points]
    have first : (Text.lowerCase ⟨.char c :: rest⟩).points.head? = some (.char c) := by
      rcases mark with rfl | rfl
      · exact Text.lowerCase_head (by decide +kernel) (by decide) (by decide)
      · exact Text.lowerCase_head (by decide +kernel) (by decide) (by decide)
    rw [← whole, lower] at first
    rcases mark with rfl | rfl
    · cases first
    · cases first
  cases kind with
  | scalar s => exact ⟨s, rfl⟩
  | list items =>
      obtain ⟨text, quoted, same⟩ := map_eq_ok.mp shown
      obtain ⟨parts, -, rfl⟩ := map_eq_ok.mp quoted
      exact (refused rfl (.inl rfl) same).elim
  | table fields =>
      obtain ⟨text, quoted, same⟩ := map_eq_ok.mp shown
      obtain ⟨parts, -, rfl⟩ := map_eq_ok.mp quoted
      exact (refused rfl (.inr rfl) same).elim

theorem kind (same : Restores v w) (lowered : Text.lowerCase <$> Value.shown v = .ok "simulator") :
    Text.lowerCase <$> Value.shown w = .ok "simulator" := by
  obtain ⟨s, rfl⟩ := scalar_of_shown lowered
  obtain ⟨_, form⟩ := same.arranged
  cases form
  cases s with
  | text t =>
      obtain ⟨_, shown, lower⟩ := map_eq_ok.mp lowered
      cases shown
      have plain : t.isPlain = true := Text.isPlain_of_lowerCase (lower ▸ by decide)
      rw [Scalar.reread, Text.joined_of_isPlain plain]
      exact lowered
  | _ => exact lowered

theorem solver {part other : Option Datum} (same : Option.Rel Restores part other) {limit : Datum}
    (read : Configuration.solver part = .ok (.exhaustive limit)) :
    Configuration.solver other = .ok (.exhaustive limit) := by
  obtain ⟨kind, kindRead, read⟩ := bind_eq_ok.mp read
  split at read
  · rename_i simulator
    subst simulator
    obtain ⟨found, foundRead, read⟩ := bind_eq_ok.mp read
    obtain ⟨checked, limitRead, read⟩ := bind_eq_ok.mp read
    cases read
    obtain ⟨others, othersRead, foundSame⟩ := setting same (by decide) foundRead
    obtain ⟨named, namedRead, kindRead⟩ := bind_eq_ok.mp kindRead
    obtain ⟨otherNamed, otherRead, namedSame⟩ := setting same (by decide) namedRead
    have otherKind : Configuration.solverKind other = .ok "simulator" := by
      rw [Configuration.solverKind, otherRead, ok_bind]
      cases namedSame with
      | none => rfl
      | some part => exact part.kind kindRead
    rw [Configuration.solver, otherKind, ok_bind, if_pos rfl, othersRead, ok_bind,
      integerOrNull foundSame limitRead]
    rfl
  · split at read
    · obtain ⟨name, -, read⟩ := bind_eq_ok.mp read
      cases read
    · cases read

/-- A configuration that has been sampled is sampled alike when it comes back. -/
theorem ofConfiguration (same : Restores v w)
    (ordered : ∀ {part}, Value.get v "qubo" = .ok part → part.TermsInOrder) {s : Sampling}
    (sampled : Sampling.ofConfiguration v = .ok s) : Sampling.ofConfiguration w = .ok s := by
  obtain ⟨part, partRead, run⟩ := bind_eq_ok.mp sampled
  obtain ⟨p, problemRead, run⟩ := bind_eq_ok.mp run
  obtain ⟨settings, settingsRead, run⟩ := bind_eq_ok.mp run
  obtain ⟨solver, solverRead, run⟩ := bind_eq_ok.mp run
  obtain ⟨length, lengthRead, run⟩ := bind_eq_ok.mp run
  obtain ⟨record, returned, run⟩ := bind_eq_ok.mp run
  cases run
  obtain ⟨limit, rfl⟩ := Solver.exhaustive_of_sample returned
  obtain ⟨requested, requestedRead, lengthRead⟩ := bind_eq_ok.mp lengthRead
  obtain ⟨otherPart, otherPartRead, partSame⟩ := same.get (by decide) partRead
  obtain ⟨otherSettings, otherSettingsRead, settingsSame⟩ := same.get? (by decide) settingsRead
  obtain ⟨otherRequested, otherRequestedRead, requestedSame⟩ :=
    same.get? (by decide) requestedRead
  have otherLength : Configuration.requestedLength w = .ok length := by
    rw [Configuration.requestedLength, otherRequestedRead, ok_bind,
      integerOrNull requestedSame lengthRead]
  rw [Sampling.ofConfiguration, otherPartRead, ok_bind,
    partSame.problem (ordered partRead) problemRead, ok_bind, otherSettingsRead, ok_bind,
    Restores.solver (filterTruthy settingsSame) solverRead, ok_bind, otherLength, ok_bind,
    returned, ok_bind]
  rfl

end Restores

end BinaryQuadratic
