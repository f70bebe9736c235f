import BinaryQuadratic.Proofs.RecordInsertion
import BinaryQuadratic.Workspace

/-!
Calls on a workspace. A call lets at most one record gain entries, and the samples of these are
assignments that no reference led to before. All other entries keep their samples, and all other
cursors their places.
-/

namespace BinaryQuadratic

theorem Record.receive_extends (r : Record Assignment) (call : Insertion) :
    ∃ es, (r.receive call).1 = r.extend es ∧
      (es = [] ∨ (r.size : Int) + es.length ≤ r.capacity) ∧ ∀ e ∈ es, e.HasBits := by
  rcases receive_cases r call with ⟨-, run⟩ | ⟨fits, appends⟩
  · exact ⟨[], by rw [run, extend_nil], .inl rfl, nofun⟩
  · obtain ⟨es, next, length, bits⟩ := appends.exists_extend
    refine ⟨es, next, .inr ?_, bits⟩
    unfold Insertion.Exceeds at fits
    omega

def Assignment.incremented (a : Assignment) : Assignment :=
  match a.increment with
  | .ok (next, _) => next
  | .error _ => a

namespace Workspace

inductive Call where
  | create (a : Assignment)
  | copy (v : VectorRef)
  | increment (v : VectorRef)
  | newRecord (capacity : Datum)
  | sample (solver : Solver Datum) (p : Problem) (requested : Datum)
  | insert (r : RecordRef) (energy : Datum) (v : VectorRef) (occurrences : Datum)
  | insertAll (r : RecordRef) (proposals : List (Datum × VectorRef × Datum))
  | insertFrom (r source : RecordRef)
  | entryVector (r : RecordRef) (index : Nat)
  | openCursor (r : RecordRef)
  | advance (c : CursorRef)

def orElse {α : Type} (w : Workspace) (outcome : Except Fault (Workspace × α)) : Workspace :=
  match outcome with
  | .ok (next, _) => next
  | .error _ => w

def withRecord (w : Workspace) (outcome : Except Fault (Record Assignment)) : Workspace :=
  w.orElse (w.addRecord <$> outcome)

def after (w : Workspace) : Call → Workspace
  | .create a => (w.addVector a).1
  | .copy v => w.orElse (w.copyVector v)
  | .increment v => w.orElse (w.increment v)
  | .newRecord capacity => w.withRecord (Record.ofCapacity capacity)
  | .sample solver p requested => w.withRecord (solver.sample p requested)
  | .insert r energy v occurrences => w.orElse (w.insert r energy v occurrences)
  | .insertAll r proposals => (w.insertAll r proposals).1
  | .insertFrom r source => (w.insertFrom r source).1
  | .entryVector _ _ => w
  | .openCursor r => (w.openCursor r).1
  | .advance c => (w.advance c).1

def afterAll (w : Workspace) (calls : List Call) : Workspace := calls.foldl after w

namespace Call

def countsUp : Call → Bool
  | increment _ => true
  | _ => false

def advances (c : CursorRef) : Call → Bool
  | advance d => d = c
  | _ => false

end Call

/-- The entries after a call: those of one record are followed by entries whose samples are the
first of the new assignments. -/
structure Gains (w next : Workspace) (r : RecordRef) (es : List (Entry Assignment)) : Prop where
  room : w.vectors.length + es.length ≤ next.vectors.length
  gained : (next.record r).entries = (w.record r).entries ++ referTo w.vectors.length es
  others : ∀ other, other ≠ r → (next.record other).entries = (w.record other).entries

section References

variable {w next : Workspace}

theorem length_referTo (start : Nat) (es : List (Entry Assignment)) :
    (referTo start es).length = es.length := by
  induction es generalizing start with
  | nil => rfl
  | cons e rest ih => exact congrArg Nat.succ (ih (start + 1))

theorem sample_referTo {start i : Nat} {es : List (Entry Assignment)} {e : Entry VectorRef}
    (found : (referTo start es)[i]? = some e) : e.sample = ⟨start + i⟩ := by
  induction es generalizing start i with
  | nil => cases found
  | cons first rest ih =>
      cases i with
      | zero =>
          cases found
          rfl
      | succ i =>
          rw [ih found, Nat.add_right_comm]
          rfl

theorem entryVector?_eq_some {r : RecordRef} {k : Nat} {v : VectorRef} :
    w.entryVector? r k = some v ↔ ∃ e, (w.record r).entries[k]? = some e ∧ e.sample = v :=
  Option.map_eq_some_iff

theorem record_set (w : Workspace) (r target : RecordRef) (new : Record VectorRef) :
    record { w with records := w.records.set target.index new } r =
      if r = target ∧ target.index < w.records.length then new else w.record r := by
  obtain ⟨i⟩ := r
  obtain ⟨j⟩ := target
  simp only [record, List.getElem?_set, RecordRef.mk.injEq]
  by_cases same : j = i
  · subst same
    by_cases bound : j < w.records.length
    · simp [bound]
    · simp [bound]
  · have other : i ≠ j := fun equal => same equal.symm
    simp [same, other]

theorem gains_nothing (records : next.records = w.records)
    (room : w.vectors.length ≤ next.vectors.length) : Gains w next ⟨0⟩ [] where
  room := room
  gained := by simp [record, records, referTo]
  others := by
    intro other _
    simp [record, records]

theorem drop_extend (w : Workspace) (r : RecordRef) (es : List (Entry Assignment)) :
    ((w.view r).extend es).entries.drop (w.record r).size = es := by
  apply List.drop_left'
  exact List.length_map _

theorem vectors_extendRecord (w : Workspace) (r : RecordRef) (es : List (Entry Assignment)) :
    (w.extendRecord r ((w.view r).extend es)).vectors = w.vectors ++ es.map Entry.sample := by
  rw [extendRecord, drop_extend]
  rfl

theorem gains_extendRecord (w : Workspace) (r : RecordRef) {es : List (Entry Assignment)}
    (present : r.index < w.records.length ∨ es = []) :
    Gains w (w.extendRecord r ((w.view r).extend es)) r es := by
  rw [extendRecord, drop_extend]
  have extended := record_set { w with vectors := w.vectors ++ es.map Entry.sample }
  constructor
  · simp [adopt]
  · refine (congrArg Record.entries (extended r r _)).trans ?_
    rcases present with bound | rfl
    · rw [if_pos ⟨rfl, bound⟩]
    · split
      · rfl
      · exact (List.append_nil _).symm
  · intro other differs
    refine (congrArg Record.entries (extended other r _)).trans ?_
    rw [if_neg fun both => differs both.1]
    rfl

theorem gains_addRecord (w : Workspace) (r : Record Assignment) :
    Gains w (w.addRecord r).1 ⟨w.records.length⟩ r.entries where
  room := by simp [addRecord, adopt]
  gained := by simp [addRecord, adopt, record]
  others := by
    rintro ⟨i⟩ differs
    have other : i ≠ w.records.length := fun same => differs (congrArg RecordRef.mk same)
    by_cases bound : i < w.records.length
    · simp [addRecord, adopt, record, List.getElem?_append_left bound]
    · have behind : w.records.length + 1 ≤ i := by omega
      simp [addRecord, adopt, record, List.getElem?_eq_none, Nat.le_of_not_lt bound, behind]

theorem view_of_absent {r : RecordRef} (absent : ¬ r.index < w.records.length) :
    w.view r = ⟨0, none, []⟩ := by
  rw [view, record, List.getElem?_eq_none (Nat.le_of_not_lt absent)]
  rfl

theorem gains_receive (w : Workspace) (r : RecordRef) (call : Record.Insertion) :
    ∃ es, Gains w (w.extendRecord r ((w.view r).receive call).1) r es ∧
      (w.extendRecord r ((w.view r).receive call).1).vectors =
        w.vectors ++ es.map Entry.sample ∧ ∀ e ∈ es, e.HasBits := by
  obtain ⟨es, next, fits, bits⟩ := (w.view r).receive_extends call
  refine ⟨es, next ▸ gains_extendRecord w r ?_, next ▸ vectors_extendRecord w r es, bits⟩
  by_cases bound : r.index < w.records.length
  · exact .inl bound
  · right
    rcases fits with none | room
    · exact none
    · rw [view_of_absent bound] at room
      apply List.eq_nil_of_length_eq_zero
      simp only [Record.size, List.length_nil] at room
      omega

theorem gains_withRecord (w : Workspace) (outcome : Except Fault (Record Assignment)) :
    ∃ r es, Gains w (w.withRecord outcome) r es := by
  cases outcome with
  | ok record => exact ⟨_, _, gains_addRecord w record⟩
  | error fault => exact ⟨_, _, gains_nothing rfl (Nat.le_refl _)⟩

theorem set_getD {α : Type} (xs : List α) (i : Nat) (other : α) :
    xs.set i ((xs[i]?).getD other) = xs := by
  by_cases bound : i < xs.length
  · simp [bound]
  · exact List.set_eq_of_length_le (Nat.le_of_not_lt bound)

theorem extendRecord_view (w : Workspace) (r : RecordRef) : w.extendRecord r (w.view r) = w := by
  have nothing : (w.view r).entries.drop (w.record r).size = [] := by
    apply List.drop_of_length_le
    exact (List.length_map _).le
  rw [extendRecord, nothing]
  simp only [adopt, referTo, List.map_nil, List.append_nil]
  have kept : w.records.set r.index (w.record r) = w.records := set_getD _ _ _
  rw [kept]

theorem after_insert (w : Workspace) (r : RecordRef) (energy : Datum) (v : VectorRef)
    (occurrences : Datum) : w.after (.insert r energy v occurrences) =
      w.extendRecord r ((w.view r).receive (.one ⟨energy, w.vector v, occurrences⟩)).1 := by
  simp only [after, insert, Record.receive]
  cases (w.view r).insert ⟨energy, w.vector v, occurrences⟩ with
  | ok result => rfl
  | error fault => exact (extendRecord_view w r).symm

theorem after_increment (w : Workspace) (v : VectorRef) : w.after (.increment v) =
    { w with vectors := w.vectors.set v.index (w.vector v).incremented } := by
  simp only [after, increment, Assignment.incremented]
  cases (w.vector v).increment with
  | ok result => rfl
  | error fault =>
      change w = { w with vectors := w.vectors.set v.index (w.vector v) }
      have kept : w.vectors.set v.index (w.vector v) = w.vectors := set_getD _ _ _
      rw [kept]

theorem gains_after (w : Workspace) (call : Call) : ∃ r es, Gains w (w.after call) r es := by
  have unchanged : ∃ r es, Gains w w r es := ⟨_, _, gains_nothing rfl (Nat.le_refl _)⟩
  have received (r : RecordRef) (call : Record.Insertion) :
      ∃ gaining es, Gains w (w.extendRecord r ((w.view r).receive call).1) gaining es := by
    obtain ⟨es, gains, -⟩ := gains_receive w r call
    exact ⟨r, es, gains⟩
  cases call with
  | create a => exact ⟨_, _, gains_nothing rfl (by simp [after, addVector])⟩
  | copy v =>
      simp only [after, copyVector]
      cases (w.vector v).copy with
      | ok a => exact ⟨_, _, gains_nothing rfl (by simp [orElse, addVector])⟩
      | error fault => exact unchanged
  | increment v =>
      rw [after_increment]
      exact ⟨_, _, gains_nothing rfl List.length_set.ge⟩
  | newRecord capacity => exact gains_withRecord w _
  | sample solver p requested => exact gains_withRecord w _
  | insert r energy v occurrences =>
      rw [after_insert]
      exact received r _
  | insertAll r proposals => exact received r (.several _)
  | insertFrom r source => exact received r (.several _)
  | entryVector r index => exact unchanged
  | openCursor r => exact ⟨_, _, gains_nothing rfl (Nat.le_refl _)⟩
  | advance c =>
      simp only [after, advance]
      split
      · exact ⟨_, _, gains_nothing rfl (Nat.le_refl _)⟩
      · exact unchanged

theorem Gains.entries_prefix {r : RecordRef} {es : List (Entry Assignment)}
    (gains : Gains w next r es) (other : RecordRef) :
    (w.record other).entries <+: (next.record other).entries := by
  by_cases same : other = r
  · rw [same, gains.gained]
    exact List.prefix_append _ _
  · rw [gains.others other same]

theorem entryVector?_of_longer {r : RecordRef} {k : Nat} {v : VectorRef}
    (longer : (w.record r).entries <+: (next.record r).entries)
    (found : w.entryVector? r k = some v) : next.entryVector? r k = some v := by
  obtain ⟨e, stored, rfl⟩ := entryVector?_eq_some.mp found
  obtain ⟨es, whole⟩ := longer
  apply entryVector?_eq_some.mpr
  refine ⟨e, ?_, rfl⟩
  rw [← whole, List.getElem?_append_left (List.getElem?_eq_some_iff.mp stored).1, stored]

theorem Gains.entryVector?_cases {r : RecordRef} {es : List (Entry Assignment)}
    (gains : Gains w next r es) {other : RecordRef} {k : Nat} {v : VectorRef}
    (found : next.entryVector? other k = some v) : w.entryVector? other k = some v ∨
      other = r ∧ ∃ i, i < es.length ∧ k = (w.record r).entries.length + i ∧
        v.index = w.vectors.length + i := by
  obtain ⟨e, stored, rfl⟩ := entryVector?_eq_some.mp found
  by_cases same : other = r
  · subst same
    rw [gains.gained] at stored
    by_cases old : k < (w.record other).entries.length
    · rw [List.getElem?_append_left old] at stored
      exact .inl (entryVector?_eq_some.mpr ⟨e, stored, rfl⟩)
    · rw [List.getElem?_append_right (Nat.le_of_not_lt old)] at stored
      have bound := (List.getElem?_eq_some_iff.mp stored).1
      rw [length_referTo] at bound
      refine .inr ⟨rfl, k - (w.record other).entries.length, bound, by omega, ?_⟩
      rw [sample_referTo stored]
  · rw [gains.others other same] at stored
    exact .inl (entryVector?_eq_some.mpr ⟨e, stored, rfl⟩)

end References

/-- The entries of all records have samples of their own. -/
structure Separate (w : Workspace) : Prop where
  bounded : ∀ r k v, w.entryVector? r k = some v → v.index < w.vectors.length
  unshared : ∀ r k other l v, w.entryVector? r k = some v → w.entryVector? other l = some v →
    r = other ∧ k = l

theorem separate_empty : empty.Separate where
  bounded := by
    intro r k v found
    cases found
  unshared := by
    intro r k other l v found
    cases found

theorem Separate.gains {w next : Workspace} {r : RecordRef} {es : List (Entry Assignment)}
    (separate : w.Separate) (gains : Gains w next r es) : next.Separate where
  bounded := by
    intro other k v found
    have room := gains.room
    rcases gains.entryVector?_cases found with old | ⟨-, i, bound, -, place⟩
    · exact lt_of_lt_of_le (separate.bounded other k v old) (by omega)
    · omega
  unshared := by
    intro first k second l v found foundAgain
    rcases gains.entryVector?_cases found with old | ⟨rfl, i, bound, rfl, place⟩
    · have inside := separate.bounded first k v old
      rcases gains.entryVector?_cases foundAgain with oldAgain | ⟨-, j, -, -, placeAgain⟩
      · exact separate.unshared first k second l v old oldAgain
      · omega
    · rcases gains.entryVector?_cases foundAgain with old | ⟨rfl, j, -, rfl, placeAgain⟩
      · have inside := separate.bounded second l v old
        omega
      · exact ⟨rfl, by omega⟩

theorem Separate.after {w : Workspace} (separate : w.Separate) (call : Call) :
    (w.after call).Separate := by
  obtain ⟨r, es, gains⟩ := gains_after w call
  exact separate.gains gains

theorem Separate.afterAll {w : Workspace} (separate : w.Separate) (calls : List Call) :
    (w.afterAll calls).Separate :=
  foldl_invariant Separate separate fun call _ _ holds => holds.after call

theorem entries_prefix_after (w : Workspace) (call : Call) (r : RecordRef) :
    (w.record r).entries <+: ((w.after call).record r).entries := by
  obtain ⟨_, _, gains⟩ := gains_after w call
  exact gains.entries_prefix r

section Vectors

theorem vectors_prefix_withRecord (w : Workspace) (outcome : Except Fault (Record Assignment)) :
    w.vectors <+: (w.withRecord outcome).vectors := by
  cases outcome with
  | ok record => exact List.prefix_append _ _
  | error fault => exact List.prefix_refl _

theorem vectors_prefix_after (w : Workspace) {call : Call} (kept : call.countsUp = false) :
    w.vectors <+: (w.after call).vectors := by
  cases call with
  | create a => exact List.prefix_append _ _
  | copy v =>
      simp only [after, copyVector]
      cases (w.vector v).copy with
      | ok a => exact List.prefix_append _ _
      | error fault => exact List.prefix_refl _
  | increment v => cases kept
  | newRecord capacity => exact vectors_prefix_withRecord w _
  | sample solver p requested => exact vectors_prefix_withRecord w _
  | insert r energy v occurrences =>
      rw [after_insert]
      exact List.prefix_append _ _
  | insertAll r proposals => exact List.prefix_append _ _
  | insertFrom r source => exact List.prefix_append _ _
  | entryVector r index => exact List.prefix_refl _
  | openCursor r => exact List.prefix_refl _
  | advance c =>
      simp only [after, advance]
      split
      · exact List.prefix_refl _
      · exact List.prefix_refl _

theorem vector_of_longer {w next : Workspace} (longer : w.vectors <+: next.vectors)
    {v : VectorRef} (bound : v.index < w.vectors.length) : next.vector v = w.vector v := by
  obtain ⟨as, whole⟩ := longer
  rw [vector, vector, ← whole, List.getElem?_append_left bound]

end Vectors

theorem cursors_advance (w : Workspace) (c : CursorRef) :
    (w.advance c).1.cursors = w.cursors.modify c.index List.tail := by
  apply List.ext_getElem?
  intro i
  simp only [advance, List.getElem?_modify]
  split
  · rename_i e rest found
    by_cases same : c.index = i
    · subst same
      rw [List.getElem?_set_self (List.getElem?_eq_some_iff.mp found).1, found]
      simp
    · simp [same]
  · rename_i nothing
    by_cases same : c.index = i
    · subst same
      cases found : w.cursors[c.index]? with
      | none => rfl
      | some es =>
          cases es with
          | nil => simp
          | cons e rest => exact (nothing e rest found).elim
    · simp [same]

theorem cursors_after (w : Workspace) (call : Call) : (w.after call).cursors =
    match call with
    | .openCursor r => w.cursors ++ [(w.record r).entries]
    | .advance c => w.cursors.modify c.index List.tail
    | _ => w.cursors := by
  have kept (outcome : Except Fault (Record Assignment)) :
      (w.withRecord outcome).cursors = w.cursors := by
    cases outcome <;> rfl
  cases call with
  | copy v =>
      simp only [after, copyVector]
      cases (w.vector v).copy <;> rfl
  | increment v =>
      rw [after_increment]
  | newRecord capacity => exact kept _
  | sample solver p requested => exact kept _
  | insert r energy v occurrences =>
      rw [after_insert]
      rfl
  | advance c => exact cursors_advance w c
  | _ => rfl

end Workspace

end BinaryQuadratic
