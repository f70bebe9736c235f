import BinaryQuadratic.Proofs.CursorSnapshot
import BinaryQuadratic.Proofs.SampleIsolation
import BinaryQuadratic.Proofs.SampledRecord

/-!
Entries inserted one by one. Where several entries fit, inserting them at once is the same as
inserting each of them in turn, whichever of them is refused, and it leaves the same copies.
-/

namespace BinaryQuadratic

open Assignment

namespace Record

/-- Inserts entries one by one up to the first that is refused. What is returned is the flag of the
last insertion, or the given one where there is none. -/
def insertEach (flag : Option Bool) (r : Record Assignment) :
    List Proposal → Record Assignment × Except Fault (Option Bool)
  | [] => (r, .ok flag)
  | p :: rest =>
    match r.insert p with
    | .ok (next, exhausted) => next.insertEach (some exhausted) rest
    | .error fault => (r, .error fault)

variable {r : Record Assignment} {p : Proposal} {ps : List Proposal}

theorem insert_of_room (room : (r.size : Int) < r.capacity) :
    r.insert p = p.accept.map fun e => (r.append e, (r.append e).isExhausted) := by
  have unfilled : r.isFull = false := decide_eq_false (Int.not_le.mpr room)
  rw [insert, unfilled]
  cases p.accept with
  | ok e => rfl
  | error fault => rfl

theorem insert_eq_append {answer : Record Assignment × Bool} (inserted : r.insert p = .ok answer) :
    ∃ e, answer.1 = r.append e ∧ (r.size : Int) < r.capacity := by
  obtain ⟨free, inserted⟩ := check_eq_ok.mp inserted
  obtain ⟨e, -, inserted⟩ := bind_eq_ok.mp inserted
  cases inserted
  rw [isFull, decide_eq_true_eq, Int.not_le] at free
  exact ⟨e, rfl, free⟩

theorem insertEach_eq_appendAll (flag : Option Bool)
    (fits : (r.size : Int) + ps.length ≤ r.capacity) :
    r.insertEach flag ps = ((r.appendAll ps).1, (r.appendAll ps).2.map fun _ =>
      if ps = [] then flag else some (r.appendAll ps).1.isExhausted) := by
  induction ps generalizing r flag with
  | nil => rfl
  | cons p rest ih =>
      rw [List.length_cons] at fits
      rw [insertEach, appendAll, insert_of_room (by omega)]
      cases p.accept with
      | error fault => rfl
      | ok e =>
          have room : ((r.append e).size : Int) + rest.length ≤ (r.append e).capacity := by
            simp only [append, size, List.length_append, List.length_singleton] at fits ⊢
            omega
          change (r.append e).insertEach (some (r.append e).isExhausted) rest = _
          rw [ih _ room, if_neg (List.cons_ne_nil p rest)]
          cases rest with
          | nil => rfl
          | cons q others => rw [if_neg (List.cons_ne_nil q others)]

theorem insertEach_eq_insertAll (fits : (r.size : Int) + ps.length ≤ r.capacity) :
    r.insertEach none ps = ((r.insertAll ps).1, (r.insertAll ps).2.map fun exhausted =>
      if ps = [] then none else some exhausted) := by
  rw [insertEach_eq_appendAll none fits, insertAll, if_neg (Int.not_lt.mpr fits)]
  rcases r.appendAll ps with ⟨next, outcome⟩
  cases outcome with
  | ok _ => rfl
  | error fault => rfl

theorem insertEach_extends (flag : Option Bool) (r : Record Assignment) (ps : List Proposal) :
    ∃ es, (r.insertEach flag ps).1 = r.extend es := by
  induction ps generalizing r flag with
  | nil => exact ⟨[], r.extend_nil.symm⟩
  | cons p rest ih =>
      rw [insertEach]
      cases inserted : r.insert p with
      | error fault => exact ⟨[], r.extend_nil.symm⟩
      | ok answer =>
          obtain ⟨e, next, -⟩ := insert_eq_append inserted
          obtain ⟨es, last⟩ := ih (some answer.2) answer.1
          refine ⟨e :: es, last.trans ?_⟩
          rw [next, append_extend]

theorem insertAll_own (samples : ∀ e ∈ r.entries, e.HasBits)
    (fits : (r.size : Int) + r.size ≤ r.capacity) :
    r.insertAll (r.entries.map Entry.propose) =
      (r.extend r.entries, .ok (r.extend r.entries).isFull) := by
  have bounded : r.Bounded r.capacity := ⟨rfl, by omega, samples⟩
  exact bounded.receive_own fits

end Record

namespace Workspace

def StoresBits (w : Workspace) : Prop :=
  ∀ r k v, w.entryVector? r k = some v → ∃ xs, w.vector v = .ofInts xs ∧ IsBits xs

variable {w next : Workspace}

theorem Gains.entryVector?_old {r : RecordRef} {es : List (Entry Assignment)}
    (gains : Gains w next r es) {k : Nat} (old : k < (w.record r).entries.length) :
    next.entryVector? r k = w.entryVector? r k := by
  rw [entryVector?, entryVector?, gains.gained, List.getElem?_append_left old]

theorem Gains.entryVector?_new {r : RecordRef} {es : List (Entry Assignment)}
    (gains : Gains w next r es) {k : Nat} (new : k < es.length) :
    next.entryVector? r ((w.record r).entries.length + k) = some ⟨w.vectors.length + k⟩ := by
  rw [← length_referTo w.vectors.length es] at new
  have found := List.getElem?_eq_getElem new
  rw [entryVector?, gains.gained, List.getElem?_append_right (Nat.le_add_right _ _),
    Nat.add_sub_cancel_left, found, Option.map_some, sample_referTo found]

theorem vector_added {es : List (Entry Assignment)} {i : Nat} {e : Entry Assignment}
    (vectors : w.vectors ++ es.map Entry.sample <+: next.vectors) (found : es[i]? = some e) :
    next.vector ⟨w.vectors.length + i⟩ = e.sample := by
  obtain ⟨as, whole⟩ := vectors
  have bound : i < (es.map Entry.sample).length := by
    rw [List.length_map]
    exact (List.getElem?_eq_some_iff.mp found).1
  rw [vector, ← whole, List.append_assoc, List.getElem?_append_right (Nat.le_add_right _ _),
    Nat.add_sub_cancel_left, List.getElem?_append_left bound, List.getElem?_map, found]
  rfl

theorem StoresBits.gains {r : RecordRef} {es : List (Entry Assignment)} (stored : w.StoresBits)
    (separate : w.Separate) (gains : Gains w next r es)
    (vectors : w.vectors ++ es.map Entry.sample <+: next.vectors)
    (bits : ∀ e ∈ es, e.HasBits) : next.StoresBits := by
  intro other k v found
  rcases gains.entryVector?_cases found with old | ⟨-, i, bound, -, place⟩
  · rw [vector_of_longer ((List.prefix_append _ _).trans vectors) (separate.bounded other k v old)]
    exact stored other k v old
  · -- A new entry refers to the assignment that was added for it.
    obtain ⟨index⟩ := v
    obtain rfl : index = w.vectors.length + i := place
    rw [vector_added vectors (List.getElem?_eq_getElem bound)]
    exact bits es[i] (List.getElem_mem bound)

theorem storesBits_empty : empty.StoresBits := by
  intro r k v found
  cases found

theorem StoresBits.kept (stored : w.StoresBits) (separate : w.Separate)
    (records : next.records = w.records) (longer : w.vectors <+: next.vectors) :
    next.StoresBits := by
  apply stored.gains separate (gains_nothing records longer.length_le) _ nofun
  rwa [List.map_nil, List.append_nil]

theorem StoresBits.receive (stored : w.StoresBits) (separate : w.Separate) (r : RecordRef)
    (call : Record.Insertion) : (w.extendRecord r ((w.view r).receive call).1).StoresBits := by
  obtain ⟨es, gains, vectors, bits⟩ := gains_receive w r call
  exact stored.gains separate gains (vectors ▸ List.prefix_refl _) bits

theorem StoresBits.withRecord (stored : w.StoresBits) (separate : w.Separate)
    {outcome : Except Fault (Record Assignment)}
    (bits : ∀ record, outcome = .ok record → ∀ e ∈ record.entries, e.HasBits) :
    (w.withRecord outcome).StoresBits := by
  cases outcome with
  | error fault => exact stored
  | ok record =>
      exact stored.gains separate (gains_addRecord w record) (List.prefix_refl _) (bits record rfl)

theorem incremented_bits {xs : List Int} (bits : IsBits xs) :
    ∃ ys, (ofInts xs).incremented = .ofInts ys ∧ IsBits ys := by
  rw [incremented, Assignment.increment, bits_ofInts, ok_bind, successor_eq bits]
  cases xs with
  | nil => exact ⟨[], rfl, List.forall_mem_nil _⟩
  | cons x rest => exact ⟨_, rfl, (flipFromRight_spec bits).1⟩

theorem StoresBits.increment (stored : w.StoresBits) (v : VectorRef) :
    (w.after (.increment v)).StoresBits := by
  intro r k u found
  have before : w.entryVector? r k = some u := by
    rwa [entryVector?, record_increment] at found
  obtain ⟨xs, sample, bits⟩ := stored r k u before
  rw [vector_increment]
  split
  · rw [sample]
    exact incremented_bits bits
  · exact ⟨xs, sample, bits⟩

theorem StoresBits.after (stored : w.StoresBits) (separate : w.Separate) (call : Call) :
    (w.after call).StoresBits := by
  cases call with
  | create a => exact stored.kept separate rfl (List.prefix_append _ _)
  | copy v =>
      simp only [Workspace.after, copyVector]
      cases (w.vector v).copy with
      | ok a => exact stored.kept separate rfl (List.prefix_append _ _)
      | error fault => exact stored
  | increment v => exact stored.increment v
  | newRecord capacity =>
      apply stored.withRecord separate
      intro record created
      obtain ⟨c, -, made⟩ := bind_eq_ok.mp created
      cases made
      exact List.forall_mem_nil _
  | sample solver p requested =>
      apply stored.withRecord separate
      intro record sampled
      obtain ⟨size, levels, info, -, known⟩ := Solver.sample_sampled sampled
      rw [known.entries, List.forall_mem_map]
      intro level member
      exact ⟨level.2, rfl, (known.bits level member).1⟩
  | insert r energy v occurrences =>
      rw [after_insert]
      exact stored.receive separate r _
  | insertAll r proposals => exact stored.receive separate r (.several _)
  | insertFrom r source => exact stored.receive separate r (.several _)
  | entryVector r index => exact stored
  | openCursor r => exact stored.kept separate rfl (List.prefix_refl _)
  | advance c =>
      simp only [Workspace.after, Workspace.advance]
      split
      · exact stored.kept separate rfl (List.prefix_refl _)
      · exact stored

theorem hasBits_view (calls : List Call) (r : RecordRef) :
    ∀ e ∈ ((empty.afterAll calls).view r).entries, e.HasBits := by
  obtain ⟨-, stored⟩ : (empty.afterAll calls).Separate ∧ (empty.afterAll calls).StoresBits :=
    foldl_invariant (fun w : Workspace => w.Separate ∧ w.StoresBits)
      ⟨separate_empty, storesBits_empty⟩
      fun call _ _ holds => ⟨holds.1.after call, holds.2.after holds.1 call⟩
  intro e member
  obtain ⟨entry, inside, rfl⟩ := List.mem_map.mp member
  obtain ⟨k, found⟩ := List.mem_iff_getElem?.mp inside
  exact stored r k entry.sample (entryVector?_eq_some.mpr ⟨entry, found, rfl⟩)

section Copies

def insertEach (flag : Option Bool) (w : Workspace) (r : RecordRef) :
    List (Datum × VectorRef × Datum) → Workspace × Except Fault (Option Bool)
  | [] => (w, .ok flag)
  | (energy, v, occurrences) :: rest =>
    match w.insert r energy v occurrences with
    | .ok (next, exhausted) => next.insertEach (some exhausted) r rest
    | .error fault => (w, .error fault)

theorem extendRecord_extend (w : Workspace) (r : RecordRef) (es : List (Entry Assignment)) :
    w.extendRecord r ((w.view r).extend es) =
      ⟨w.vectors ++ es.map Entry.sample, w.records.set r.index ⟨(w.record r).capacity,
        (w.record r).info, (w.record r).entries ++ referTo w.vectors.length es⟩, w.cursors⟩ := by
  rw [extendRecord, drop_extend]
  rfl

theorem referTo_append (start : Nat) (es fs : List (Entry Assignment)) :
    referTo start (es ++ fs) = referTo start es ++ referTo (start + es.length) fs := by
  induction es generalizing start with
  | nil => rfl
  | cons e rest ih =>
      rw [List.cons_append, referTo, ih, Nat.add_right_comm]
      rfl

theorem map_referTo {start : Nat} {es : List (Entry Assignment)} {f : VectorRef → Assignment}
    (samples : ∀ i e, es[i]? = some e → f ⟨start + i⟩ = e.sample) :
    (referTo start es).map (Entry.map f) = es := by
  induction es generalizing start with
  | nil => rfl
  | cons e rest ih =>
      have first : f ⟨start⟩ = e.sample := samples 0 e rfl
      rw [referTo, List.map_cons, ih]
      · simp only [Entry.map, first]
      · intro i other found
        rw [Nat.add_right_comm]
        exact samples (i + 1) other found

theorem record_extendRecord {r : RecordRef} (bound : r.index < w.records.length)
    (es : List (Entry Assignment)) : (w.extendRecord r ((w.view r).extend es)).record r =
      ⟨(w.record r).capacity, (w.record r).info,
        (w.record r).entries ++ referTo w.vectors.length es⟩ := by
  rw [extendRecord_extend]
  exact (record_set { w with vectors := w.vectors ++ es.map Entry.sample } r r _).trans
    (if_pos ⟨rfl, bound⟩)

theorem Separate.view_extendRecord (separate : w.Separate) {r : RecordRef}
    (bound : r.index < w.records.length) (es : List (Entry Assignment)) :
    (w.extendRecord r ((w.view r).extend es)).view r = (w.view r).extend es := by
  have stored := record_extendRecord bound es
  have vectors : w.vectors ++ es.map Entry.sample <+:
      (w.extendRecord r ((w.view r).extend es)).vectors := by
    rw [vectors_extendRecord]
  generalize w.extendRecord r ((w.view r).extend es) = next at stored vectors ⊢
  have old := (separate.present r).map_longer ((List.prefix_append _ _).trans vectors)
  have new : (referTo w.vectors.length es).map (Entry.map next.vector) = es :=
    map_referTo fun i e found => vector_added vectors found
  rw [view, stored, Record.map, List.map_append, old, new]
  rfl

theorem Separate.extendRecord_extendRecord (separate : w.Separate) {r : RecordRef}
    (bound : r.index < w.records.length) (es fs : List (Entry Assignment)) :
    (w.extendRecord r ((w.view r).extend es)).extendRecord r ((w.view r).extend (es ++ fs)) =
      w.extendRecord r ((w.view r).extend (es ++ fs)) := by
  have shown := separate.view_extendRecord bound es
  have whole : (w.view r).extend (es ++ fs) = ((w.view r).extend es).extend fs := by
    simp [Record.extend]
  have again := extendRecord_extend (w.extendRecord r ((w.view r).extend es)) r fs
  rw [shown, record_extendRecord bound, extendRecord_extend] at again
  rw [extendRecord_extend w r (es ++ fs), extendRecord_extend w r es, whole, again]
  simp [referTo_append, List.append_assoc]

def proposal (w : Workspace) : Datum × VectorRef × Datum → Proposal
  | (energy, v, occurrences) => ⟨energy, w.vector v, occurrences⟩

theorem map_proposal_of_longer (longer : w.vectors <+: next.vectors)
    {ps : List (Datum × VectorRef × Datum)} (present : ∀ p ∈ ps, p.2.1.index < w.vectors.length) :
    ps.map next.proposal = ps.map w.proposal := by
  apply List.map_congr_left
  intro p member
  simp only [proposal, vector_of_longer longer (present p member)]

/-- An entry that a record gains is taken over by the workspace and shown by the record. What is
proposed next is still the same, and what is gained from it can as well be taken over with the
entry. -/
theorem Separate.append_step (separate : w.Separate) {r : RecordRef}
    (bound : r.index < w.records.length) (e : Entry Assignment)
    {ps : List (Datum × VectorRef × Datum)} (present : ∀ p ∈ ps, p.2.1.index < w.vectors.length) :
    ∃ next, next = w.extendRecord r ((w.view r).append e) ∧ next.Separate ∧
      r.index < next.records.length ∧ (∀ p ∈ ps, p.2.1.index < next.vectors.length) ∧
      next.view r = (w.view r).append e ∧ ps.map next.proposal = ps.map w.proposal ∧
      ∀ gained es, gained = ((w.view r).append e).extend es →
        next.extendRecord r gained = w.extendRecord r gained := by
  have grown : (w.extendRecord r ((w.view r).append e)).vectors = w.vectors ++ [e.sample] :=
    vectors_extendRecord w r [e]
  have longer : w.vectors <+: (w.extendRecord r ((w.view r).append e)).vectors := by
    rw [grown]
    exact List.prefix_append _ _
  refine ⟨_, rfl, separate.gains (gains_extendRecord w r (.inl bound)), ?_, ?_,
    separate.view_extendRecord bound [e], map_proposal_of_longer longer present, ?_⟩
  · rw [extendRecord, List.length_set]
    exact bound
  · exact fun p member => lt_of_lt_of_le (present p member) longer.length_le
  · rintro _ es rfl
    rw [Record.append_extend]
    exact separate.extendRecord_extendRecord bound [e] es

theorem bound_of_room {r : RecordRef} (room : ((w.view r).size : Int) < (w.view r).capacity) :
    r.index < w.records.length := by
  by_contra absent
  rw [view_of_absent absent] at room
  exact absurd room (by decide)

theorem Separate.insertEach_eq (separate : w.Separate) (r : RecordRef) (flag : Option Bool)
    {ps : List (Datum × VectorRef × Datum)} (present : ∀ p ∈ ps, p.2.1.index < w.vectors.length) :
    w.insertEach flag r ps =
      (w.extendRecord r ((w.view r).insertEach flag (ps.map w.proposal)).1,
        ((w.view r).insertEach flag (ps.map w.proposal)).2) := by
  induction ps generalizing w flag with
  | nil => exact congrArg (fun kept => (kept, _)) (extendRecord_view w r).symm
  | cons p rest ih =>
      obtain ⟨energy, v, occurrences⟩ := p
      rw [insertEach, insert, List.map_cons, Record.insertEach, proposal]
      cases inserted : (w.view r).insert ⟨energy, w.vector v, occurrences⟩ with
      | error fault => exact congrArg (fun kept => (kept, _)) (extendRecord_view w r).symm
      | ok answer =>
          have presentLater : ∀ p ∈ rest, p.2.1.index < w.vectors.length :=
            fun p member => present p (List.mem_cons_of_mem _ member)
          obtain ⟨e, gained, room⟩ := Record.insert_eq_append inserted
          obtain ⟨next, taken, separateNext, -, presentNext, shown, proposals, twice⟩ :=
            separate.append_step (bound_of_room room) e presentLater
          rw [← gained] at taken shown twice
          obtain ⟨es, last⟩ := Record.insertEach_extends (some answer.2) answer.1
            (rest.map w.proposal)
          have later := ih separateNext (some answer.2) presentNext
          rw [shown, proposals, twice _ es last] at later
          change (w.extendRecord r answer.1).insertEach (some answer.2) r rest = _
          rw [← taken, later]

end Copies

theorem Separate.insertFrom_own (separate : w.Separate) {r : RecordRef}
    (samples : ∀ e ∈ (w.view r).entries, e.HasBits)
    (fits : ((w.view r).size : Int) + (w.view r).size ≤ (w.view r).capacity) :
    ∃ next, w.insertFrom r r = (next, .ok ((w.view r).extend (w.view r).entries).isFull) ∧
      next.view r = (w.view r).extend (w.view r).entries ∧
      ∀ k, k < (w.view r).size → next.entryVector? r k = w.entryVector? r k ∧
        next.entryVector? r ((w.view r).size + k) = some ⟨w.vectors.length + k⟩ := by
  have size : (w.view r).size = (w.record r).entries.length := List.length_map _
  refine ⟨w.extendRecord r ((w.view r).extend (w.view r).entries), ?_, ?_, ?_⟩
  · rw [insertFrom, Record.insertAll_own samples fits]
  · by_cases bound : r.index < w.records.length
    · exact separate.view_extendRecord bound _
    · rw [view_of_absent bound, Record.extend_nil, ← view_of_absent bound, extendRecord_view]
  · intro k old
    have bound : r.index < w.records.length := by
      by_contra absent
      rw [view_of_absent absent] at old
      cases old
    have gains : Gains w _ r (w.view r).entries := gains_extendRecord w r (.inl bound)
    rw [size] at old ⊢
    exact ⟨gains.entryVector?_old old, gains.entryVector?_new (old.trans_eq size.symm)⟩

/-- In every reachable record, inserting entries that fit at once ends as inserting them one by
one does, in the same record and with the same outcome, and it leaves the same workspace. A
record's own entries are followed by a copy of each. -/
theorem insertAll_agrees (calls : List Call) (ref : RecordRef) :
    let w := empty.afterAll calls
    let r := w.view ref
    (∀ ps : List Proposal, (r.size : Int) + ps.length ≤ r.capacity →
      r.insertEach none ps = ((r.insertAll ps).1, (r.insertAll ps).2.map fun exhausted =>
        if ps = [] then none else some exhausted)) ∧
    (∀ ps : List (Datum × VectorRef × Datum), (∀ p ∈ ps, p.2.1.index < w.vectors.length) →
      (r.size : Int) + ps.length ≤ r.capacity →
      w.insertEach none ref ps = ((w.insertAll ref ps).1,
        (w.insertAll ref ps).2.map fun exhausted =>
          if ps = [] then none else some exhausted)) ∧
    ((r.size : Int) + r.size ≤ r.capacity →
      ∃ next, w.insertFrom ref ref = (next, .ok (r.extend r.entries).isFull) ∧
        next.view ref = r.extend r.entries ∧
        ∀ k, k < r.size → next.entryVector? ref k = w.entryVector? ref k ∧
          next.entryVector? ref (r.size + k) = some ⟨w.vectors.length + k⟩) := by
  intro w r
  have separate : w.Separate := separate_empty.afterAll calls
  refine ⟨fun ps fits => Record.insertEach_eq_insertAll fits, ?_,
    separate.insertFrom_own (hasBits_view calls ref)⟩
  intro ps present fits
  have each : r.insertEach none (ps.map w.proposal) = _ :=
    Record.insertEach_eq_insertAll (by rwa [List.length_map])
  rw [separate.insertEach_eq ref none present, each]
  simp only [List.map_eq_nil_iff]
  rfl

theorem insertAll_agrees_torn :
    let w := empty.afterAll [.newRecord (.int 3), .create (.ofInts [1]),
      .insert ⟨0⟩ (.int 1) ⟨0⟩ (.int 1), .create (.ofInts [2])]
    let ps : List (Datum × VectorRef × Datum) := [(.int 2, ⟨0⟩, .int 1), (.int 3, ⟨2⟩, .int 1)]
    (w.insertEach none ⟨0⟩ ps).1 = (w.insertAll ⟨0⟩ ps).1 ∧
      (w.insertEach none ⟨0⟩ ps).2 = .error (.violation (.dataFormat .entryNotBinary)) ∧
      ∃ next, w.insertFrom ⟨0⟩ ⟨0⟩ = (next, .ok false) ∧
        next.entryVector? ⟨0⟩ 0 = some ⟨1⟩ ∧ next.entryVector? ⟨0⟩ 1 = some ⟨3⟩ := by
  intro w ps
  obtain ⟨-, each, own⟩ := insertAll_agrees [.newRecord (.int 3), .create (.ofInts [1]),
    .insert ⟨0⟩ (.int 1) ⟨0⟩ (.int 1), .create (.ofInts [2])] ⟨0⟩
  have same : w.insertEach none ⟨0⟩ ps = _ := each ps (by decide) (by decide)
  obtain ⟨next, run, -, places⟩ := own (by decide)
  obtain ⟨old, new⟩ := places 0 (by decide)
  refine ⟨by rw [same], ?_, next, run, old.trans rfl, new⟩
  rw [same]
  rfl

end Workspace

end BinaryQuadratic
