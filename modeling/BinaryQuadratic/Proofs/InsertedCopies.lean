import BinaryQuadratic.Proofs.SingleInsertions

/-!
Insertions as the copies that they make: an assignment is copied as a caller could copy it, and the
record is given an entry that refers to the copy.
-/

namespace BinaryQuadratic.Workspace

def appendEntry (w : Workspace) (r : RecordRef) (e : Entry VectorRef) : Workspace :=
  { w with records := w.records.set r.index ((w.record r).append e) }

def appendCopy (w : Workspace) (r : RecordRef) :
    Datum × VectorRef × Datum → Except Fault Workspace
  | (energy, v, occurrences) => do
    let (copied, sample) ← w.copyVector v
    let count ← Value.toInt occurrences
    pure (copied.appendEntry r ⟨energy, sample, count⟩)

def appendCopies (w : Workspace) (r : RecordRef) :
    List (Datum × VectorRef × Datum) → Workspace × Except Fault Unit
  | [] => (w, .ok ())
  | p :: rest =>
    match w.appendCopy r p with
    | .ok next => next.appendCopies r rest
    | .error fault => (w, .error fault)

variable {w : Workspace} {r : RecordRef}

theorem appendCopy_eq (w : Workspace) (r : RecordRef) (p : Datum × VectorRef × Datum) :
    w.appendCopy r p = (w.proposal p).accept.map fun e =>
      w.extendRecord r ((w.view r).append e) := by
  obtain ⟨energy, v, occurrences⟩ := p
  rw [appendCopy, copyVector, proposal, Proposal.accept]
  cases (w.vector v).copy with
  | error fault => rfl
  | ok a =>
      cases Value.toInt occurrences with
      | error fault => rfl
      | ok count =>
          have taken := extendRecord_extend w r [⟨energy, a, count⟩]
          exact congrArg Except.ok taken.symm

theorem isFull_view (w : Workspace) (r : RecordRef) : (w.view r).isFull = (w.record r).isFull := by
  rw [view, Record.isFull, Record.isFull, Record.map, Record.size, List.length_map, Record.size]

theorem isExhausted_view (w : Workspace) (r : RecordRef) :
    (w.view r).isExhausted = (w.record r).isExhausted := by
  rw [view, Record.isExhausted, Record.isExhausted, Record.map, Record.size, List.length_map,
    Record.size]

theorem Separate.insert_eq_appendCopy (separate : w.Separate) (r : RecordRef) (energy : Datum)
    (v : VectorRef) (occurrences : Datum) : w.insert r energy v occurrences =
      if (w.record r).isFull then .error (.violation (.invalidOperation .recordIsFull))
      else (w.appendCopy r (energy, v, occurrences)).map fun next =>
        (next, (next.record r).isExhausted) := by
  rw [insert, ← isFull_view]
  by_cases full : (w.view r).isFull = true
  · rw [if_pos full, Record.insert, if_pos full]
    rfl
  · have room : ((w.view r).size : Int) < (w.view r).capacity := by
      rwa [Record.isFull, decide_eq_true_eq, Int.not_le] at full
    rw [if_neg full, Record.insert_of_room room, appendCopy_eq, proposal]
    cases Proposal.accept ⟨energy, w.vector v, occurrences⟩ with
    | error fault => rfl
    | ok e =>
        have flag := isExhausted_view (w.extendRecord r ((w.view r).append e)) r
        have shown : (w.extendRecord r ((w.view r).append e)).view r = (w.view r).append e :=
          separate.view_extendRecord (bound_of_room room) [e]
        rw [shown] at flag
        exact congrArg (fun b => Except.ok (_, b)) flag

theorem Separate.appendCopies_eq (separate : w.Separate) (bound : r.index < w.records.length)
    {ps : List (Datum × VectorRef × Datum)} (present : ∀ p ∈ ps, p.2.1.index < w.vectors.length) :
    w.appendCopies r ps = (w.extendRecord r ((w.view r).appendAll (ps.map w.proposal)).1,
      ((w.view r).appendAll (ps.map w.proposal)).2) := by
  induction ps generalizing w with
  | nil => exact congrArg (fun kept => (kept, _)) (extendRecord_view w r).symm
  | cons p rest ih =>
      rw [appendCopies, appendCopy_eq, List.map_cons, Record.appendAll]
      cases (w.proposal p).accept with
      | error fault => exact congrArg (fun kept => (kept, _)) (extendRecord_view w r).symm
      | ok e =>
          have presentLater : ∀ p ∈ rest, p.2.1.index < w.vectors.length :=
            fun p member => present p (List.mem_cons_of_mem _ member)
          obtain ⟨next, taken, separateNext, boundNext, presentNext, shown, proposals, twice⟩ :=
            separate.append_step bound e presentLater
          obtain ⟨es, last⟩ := Record.appendAll_extends ((w.view r).append e)
            (rest.map w.proposal)
          have later := ih separateNext boundNext presentNext
          rw [shown, proposals, twice _ es last] at later
          change (w.extendRecord r ((w.view r).append e)).appendCopies r rest = _
          rw [← taken, later]

/-- Several insertions append copies, one after the other, once their number is checked. -/
theorem Separate.insertAll_eq_appendCopies (separate : w.Separate) (r : RecordRef)
    {ps : List (Datum × VectorRef × Datum)} (present : ∀ p ∈ ps, p.2.1.index < w.vectors.length) :
    w.insertAll r ps =
      if (w.record r).capacity < ((w.record r).size : Int) + ps.length then
        (w, .error (.violation (.invalidOperation .recordNotEnoughCapacity)))
      else ((w.appendCopies r ps).1, (w.appendCopies r ps).2.map fun _ =>
        ((w.appendCopies r ps).1.record r).isExhausted) := by
  have size : (w.view r).size = (w.record r).size := List.length_map _
  have capacity : (w.view r).capacity = (w.record r).capacity := rfl
  have inserted : w.insertAll r ps = (w.extendRecord r
      ((w.view r).insertAll (ps.map w.proposal)).1,
        ((w.view r).insertAll (ps.map w.proposal)).2) := rfl
  rw [inserted, Record.insertAll, List.length_map, size, capacity]
  split
  · rw [extendRecord_view]
  · rename_i fits
    obtain ⟨es, gained⟩ := Record.appendAll_extends (w.view r) (ps.map w.proposal)
    by_cases bound : r.index < w.records.length
    · have shown := separate.view_extendRecord bound es
      rw [separate.appendCopies_eq bound present, ← isExhausted_view, gained, shown, ← gained]
    · -- An absent record has no capacity, so that nothing is inserted.
      rw [← capacity, ← size, view_of_absent bound] at fits
      cases ps with
      | nil =>
          rw [appendCopies, ← isExhausted_view]
          exact congrArg (fun kept => (kept, _)) (extendRecord_view w r)
      | cons p rest =>
          simp only [Record.size, List.length_cons, List.length_nil] at fits
          omega

theorem insertFrom_eq_insertAll (w : Workspace) (r source : RecordRef) :
    w.insertFrom r source = w.insertAll r ((w.record source).entries.map fun e =>
      (e.energy, e.sample, .int e.occurrences)) := by
  have proposed : (w.view source).entries.map Entry.propose = ((w.record source).entries.map
      fun e => (e.energy, e.sample, .int e.occurrences)).map w.proposal := by
    rw [view, Record.map, List.map_map, List.map_map]
    rfl
  rw [insertFrom, proposed]
  rfl

end BinaryQuadratic.Workspace
