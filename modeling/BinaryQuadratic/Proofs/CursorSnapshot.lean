import BinaryQuadratic.Proofs.WorkspaceCalls

/-!
A cursor shows the entries that its record had when the cursor was opened, one after the other,
and then nothing, whatever happens to records and to other cursors between the steps.
-/

namespace BinaryQuadratic

namespace Workspace

/-- What a cursor answers along calls each time it is advanced. -/
def answers (c : CursorRef) : Workspace → List Call → List (Option (Entry Assignment))
  | _, [] => []
  | w, call :: rest =>
    if call.advances c then (w.advance c).2 :: answers c (w.after call) rest
    else answers c (w.after call) rest

section Remaining

variable {w next : Workspace} {c : CursorRef} {es : List (Entry VectorRef)}

theorem cursor_after (remaining : w.cursors[c.index]? = some es) (call : Call) :
    (w.after call).cursors[c.index]? = some (if call.advances c then es.tail else es) := by
  rw [cursors_after]
  cases call with
  | openCursor r =>
      have bound := (List.getElem?_eq_some_iff.mp remaining).1
      exact (List.getElem?_append_left bound).trans remaining
  | advance d =>
      by_cases same : d = c
      · simp [Call.advances, same, remaining]
      · have other : d.index ≠ c.index := by
          intro equal
          exact same (congrArg CursorRef.mk equal)
        simp [Call.advances, same, other, remaining]
  | _ => exact remaining

theorem cursor_afterAll (calls : List Call) (remaining : w.cursors[c.index]? = some es) :
    (w.afterAll calls).cursors[c.index]? = some (es.drop (calls.countP (Call.advances c))) := by
  induction calls generalizing w es with
  | nil => exact remaining
  | cons call rest ih =>
      refine (ih (cursor_after remaining call)).trans ?_
      by_cases advanced : call.advances c
      · rw [List.countP_cons_of_pos advanced, if_pos advanced, List.drop_tail]
      · rw [List.countP_cons_of_neg advanced, if_neg advanced]

theorem advance_answer (remaining : w.cursors[c.index]? = some es) :
    (w.advance c).2 = es.head?.map (Entry.map w.vector) := by
  rw [advance, remaining]
  cases es with
  | nil => rfl
  | cons e rest => rfl

def Present (w : Workspace) (es : List (Entry VectorRef)) : Prop :=
  ∀ e ∈ es, e.sample.index < w.vectors.length

theorem Separate.present (separate : w.Separate) (r : RecordRef) :
    w.Present (w.record r).entries := by
  intro e member
  obtain ⟨k, stored⟩ := List.mem_iff_getElem?.mp member
  exact separate.bounded r k e.sample (entryVector?_eq_some.mpr ⟨e, stored, rfl⟩)

theorem Present.after (present : w.Present es) {call : Call} (kept : call.countsUp = false) :
    (w.after call).Present es := by
  intro e member
  exact lt_of_lt_of_le (present e member) (vectors_prefix_after w kept).length_le

theorem Present.map_longer (present : w.Present es) (longer : w.vectors <+: next.vectors) :
    es.map (Entry.map next.vector) = es.map (Entry.map w.vector) := by
  apply List.map_congr_left
  intro e member
  simp only [Entry.map, vector_of_longer longer (present e member)]

theorem Present.map_after (present : w.Present es) {call : Call} (kept : call.countsUp = false)
    (k : Nat) : es[k]?.map (Entry.map (w.after call).vector) = es[k]?.map (Entry.map w.vector) := by
  rw [← List.getElem?_map, ← List.getElem?_map, present.map_longer (vectors_prefix_after w kept)]

theorem answers_eq {calls : List Call} (kept : ∀ call ∈ calls, call.countsUp = false)
    (remaining : w.cursors[c.index]? = some es) (present : w.Present es) :
    answers c w calls = (List.range (calls.countP (Call.advances c))).map fun k =>
      es[k]?.map (Entry.map w.vector) := by
  induction calls generalizing w es with
  | nil => rfl
  | cons call rest ih =>
      have keptNow := kept call List.mem_cons_self
      have keptLater : ∀ call ∈ rest, call.countsUp = false :=
        fun later member => kept later (List.mem_cons_of_mem _ member)
      have remainingNext := cursor_after remaining call
      by_cases advanced : call.advances c
      · rw [if_pos advanced] at remainingNext
        have presentTail : w.Present es.tail :=
          fun e member => present e (List.mem_of_mem_tail member)
        have later := ih keptLater remainingNext (presentTail.after keptNow)
        rw [answers, if_pos advanced, List.countP_cons_of_pos advanced, List.range_succ_eq_map,
          List.map_cons, List.map_map, advance_answer remaining, later, List.head?_eq_getElem?]
        congr 1
        apply List.map_congr_left
        intro k _
        rw [presentTail.map_after keptNow k, List.getElem?_tail]
        rfl
      · rw [if_neg advanced] at remainingNext
        have later := ih keptLater remainingNext (present.after keptNow)
        rw [answers, if_neg advanced, List.countP_cons_of_neg advanced, later]
        apply List.map_congr_left
        intro k _
        exact present.map_after keptNow k

end Remaining

/-- Wherever a cursor is opened, and whatever is called then, its next answer is the entry at the
place of its next step among those that the record had at the opening. As long as no assignment
is counted up, its answers are these entries as they were then, in order, and then nothing. -/
theorem cursor_shows_snapshot (before later : List Call) (r : RecordRef) :
    let w := empty.afterAll before
    let opened := (w.openCursor r).1
    let c := (w.openCursor r).2
    let now := opened.afterAll later
    let steps := later.countP (Call.advances c)
    (now.advance c).2 = (w.record r).entries[steps]?.map (Entry.map now.vector) ∧
      ((∀ call ∈ later, call.countsUp = false) →
        answers c opened later = (List.range steps).map fun k => (w.view r).entries[k]?) := by
  intro w opened c now steps
  have remaining : opened.cursors[c.index]? = some (w.record r).entries :=
    List.getElem?_concat_length
  refine ⟨?_, ?_⟩
  · rw [advance_answer (cursor_afterAll later remaining), List.head?_drop]
  · intro kept
    have separate : w.Separate := separate_empty.afterAll before
    have present : opened.Present (w.record r).entries := separate.present r
    rw [answers_eq kept remaining present]
    apply List.map_congr_left
    intro k _
    exact List.getElem?_map.symm

theorem cursor_shows_snapshot_grown :
    let before : List Call :=
      [.create (.ofInts [0, 1]), .newRecord (.int 3), .insert ⟨0⟩ (.int 5) ⟨0⟩ (.int 1)]
    let later : List Call :=
      [.insert ⟨0⟩ (.int 7) ⟨0⟩ (.int 1), .advance ⟨0⟩, .openCursor ⟨0⟩, .insertFrom ⟨0⟩ ⟨0⟩,
        .advance ⟨1⟩, .advance ⟨0⟩, .advance ⟨0⟩]
    (∀ call ∈ later, call.countsUp = false) ∧
      answers ⟨0⟩ ((empty.afterAll before).openCursor ⟨0⟩).1 later =
        [some ⟨.int 5, .ofInts [0, 1], 1⟩, none, none] := by
  intro before later
  have kept : ∀ call ∈ later, call.countsUp = false := by
    decide
  exact ⟨kept, (cursor_shows_snapshot before later ⟨0⟩).2 kept⟩

end Workspace

end BinaryQuadratic
