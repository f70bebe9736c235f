import BinaryQuadratic.Proofs.WorkspaceCalls

/-!
The samples of entries are theirs alone. No two entries share one, and a caller reaches the sample
of an entry only by a reference that he took from this entry. Counting up any other assignment
changes no record.
-/

namespace BinaryQuadratic

def Record.incrementSample (r : Record Assignment) (index : Nat) : Record Assignment :=
  { r with entries := r.entries.modify index (Entry.map Assignment.incremented) }

namespace Workspace

/-- Where a reference to an assignment is from: the assignment was created or copied for a caller,
or it is the sample of an entry. -/
inductive Source where
  | made
  | entry (r : RecordRef) (index : Nat)

structure Opening where
  record : RecordRef
  size : Nat
  advanced : Nat

structure Session where
  workspace : Workspace
  held : List (VectorRef × Source)
  openings : List Opening

def Call.passed (w : Workspace) : Call → List VectorRef
  | copy v => [v]
  | insert _ _ v _ => [v]
  | insertAll _ proposals => proposals.map fun proposal => proposal.2.1
  | insertFrom _ source => (w.record source).entries.map Entry.sample
  | _ => []

namespace Session

def empty : Session := ⟨.empty, [], []⟩

def given (s : Session) : Call → List (VectorRef × Source)
  | .create a => [((s.workspace.addVector a).2, .made)]
  | .copy v =>
    match s.workspace.copyVector v with
    | .ok (_, copy) => [(copy, .made)]
    | .error _ => []
  | .entryVector r index =>
    ((s.workspace.entryVector? r index).map fun v => (v, .entry r index)).toList
  | .advance c =>
    match s.workspace.cursors[c.index]?, s.openings[c.index]? with
    | some (e :: _), some o => [(e.sample, .entry o.record o.advanced)]
    | _, _ => []
  | _ => []

def openingsAfter (s : Session) : Call → List Opening
  | .openCursor r => s.openings ++ [⟨r, (s.workspace.record r).size, 0⟩]
  | .advance c => s.openings.modify c.index fun o => { o with advanced := o.advanced + 1 }
  | _ => s.openings

def perform (s : Session) (call : Call) : Session :=
  ⟨s.workspace.after call, s.given call ++ s.held, s.openingsAfter call⟩

def ofCalls (calls : List Call) : Session := calls.foldl perform empty

end Session

section Invariant

variable {w next : Workspace}

def Source.Fits (w : Workspace) (v : VectorRef) : Source → Prop
  | made => v.index < w.vectors.length ∧ ∀ r k, w.entryVector? r k ≠ some v
  | entry r index => w.entryVector? r index = some v

def Opening.Fits (w : Workspace) (o : Opening) (rest : List (Entry VectorRef)) : Prop :=
  o.size ≤ (w.record o.record).entries.length ∧
    rest = ((w.record o.record).entries.take o.size).drop o.advanced

structure Session.Coherent (s : Session) : Prop where
  separate : s.workspace.Separate
  held : ∀ v source, (v, source) ∈ s.held → source.Fits s.workspace v
  opened : s.openings.length = s.workspace.cursors.length
  cursors : ∀ (i : Nat) (o : Opening) (rest : List (Entry VectorRef)), s.openings[i]? = some o →
    s.workspace.cursors[i]? = some rest → o.Fits s.workspace rest

theorem Source.Fits.after {source : Source} {v : VectorRef} (fits : source.Fits w v)
    (call : Call) : source.Fits (w.after call) v := by
  obtain ⟨target, es, gains⟩ := gains_after w call
  cases source with
  | made =>
      obtain ⟨bound, apart⟩ := fits
      have room := gains.room
      refine ⟨by omega, ?_⟩
      intro r k found
      rcases gains.entryVector?_cases found with old | ⟨-, i, -, -, place⟩
      · exact apart r k old
      · omega
  | entry r index => exact entryVector?_of_longer (gains.entries_prefix r) fits

theorem Opening.Fits.after {o : Opening} {rest : List (Entry VectorRef)} (fits : o.Fits w rest)
    (call : Call) : o.Fits (w.after call) rest := by
  obtain ⟨bound, remaining⟩ := fits
  obtain ⟨gained, whole⟩ := entries_prefix_after w call o.record
  have longer := congrArg List.length whole
  rw [List.length_append] at longer
  refine ⟨by omega, ?_⟩
  rw [← whole, List.take_append_of_le_length bound]
  exact remaining

theorem Opening.Fits.advanced {o : Opening} {rest : List (Entry VectorRef)}
    (fits : o.Fits w rest) : Opening.Fits w { o with advanced := o.advanced + 1 } rest.tail := by
  refine ⟨fits.1, ?_⟩
  rw [fits.2, List.tail_drop]

theorem Opening.Fits.entryVector? {o : Opening} {e : Entry VectorRef}
    {rest : List (Entry VectorRef)} (fits : o.Fits w (e :: rest)) :
    w.entryVector? o.record o.advanced = some e.sample := by
  have first : ((w.record o.record).entries.take o.size)[o.advanced]? = some e := by
    rw [← List.head?_drop, ← fits.2]
    rfl
  apply entryVector?_eq_some.mpr
  refine ⟨e, ?_, rfl⟩
  have bound := (List.getElem?_eq_some_iff.mp first).1
  rw [List.length_take] at bound
  rw [← first, List.getElem?_take_of_lt (by omega)]

namespace Session

variable {s : Session}

theorem fits_new (separate : w.Separate) (a : Assignment) :
    Source.Fits (w.addVector a).1 (w.addVector a).2 .made := by
  constructor
  · simp [addVector]
  · intro r k found
    exact Nat.lt_irrefl _ (separate.bounded r k _ found)

theorem Coherent.given (coherent : s.Coherent) {call : Call} {v : VectorRef} {source : Source}
    (member : (v, source) ∈ s.given call) : source.Fits (s.workspace.after call) v := by
  cases call with
  | create a =>
      cases List.mem_singleton.mp member
      exact fits_new coherent.separate a
  | copy u =>
      simp only [Session.given, copyVector] at member
      simp only [after, copyVector]
      cases copied : (s.workspace.vector u).copy with
      | ok a =>
          rw [copied] at member
          cases List.mem_singleton.mp member
          exact fits_new coherent.separate a
      | error fault =>
          rw [copied] at member
          cases member
  | entryVector r index =>
      simp only [Session.given, Option.mem_toList, Option.map_eq_some_iff] at member
      obtain ⟨u, found, same⟩ := member
      cases same
      exact found
  | advance c =>
      simp only [Session.given] at member
      split at member
      · rename_i e rest o remaining opened
        cases List.mem_singleton.mp member
        have fits : Source.Fits s.workspace e.sample (.entry o.record o.advanced) :=
          (coherent.cursors _ o _ opened remaining).entryVector?
        exact fits.after (.advance c)
      · cases member
  | _ => cases member

theorem Coherent.cursorsAfter (coherent : s.Coherent) (call : Call) :
    (s.perform call).openings.length = (s.workspace.after call).cursors.length ∧
    ∀ (i : Nat) (o : Opening) (rest : List (Entry VectorRef)),
      (s.perform call).openings[i]? = some o → (s.workspace.after call).cursors[i]? = some rest →
        o.Fits (s.workspace.after call) rest := by
  have kept : ∀ (i : Nat) (o : Opening) (rest : List (Entry VectorRef)),
      s.openings[i]? = some o → s.workspace.cursors[i]? = some rest →
        o.Fits (s.workspace.after call) rest :=
    fun i o rest opened remaining => (coherent.cursors i o rest opened remaining).after call
  rw [cursors_after]
  cases call with
  | openCursor r =>
      refine ⟨by simp [perform, openingsAfter, coherent.opened], ?_⟩
      intro i o rest opened remaining
      by_cases old : i < s.workspace.cursors.length
      · rw [perform, openingsAfter,
          List.getElem?_append_left (by rw [coherent.opened]; exact old)] at opened
        rw [List.getElem?_append_left old] at remaining
        exact kept i o rest opened remaining
      · have last : i = s.workspace.cursors.length := by
          have bound := (List.getElem?_eq_some_iff.mp remaining).1
          rw [List.length_append, List.length_singleton] at bound
          omega
        subst last
        simp only [perform, openingsAfter, ← coherent.opened, List.getElem?_concat_length,
          Option.some.injEq] at opened
        simp only [List.getElem?_concat_length, Option.some.injEq] at remaining
        subst opened
        subst remaining
        refine ⟨Nat.le_refl _, ?_⟩
        exact (List.take_length).symm
  | advance c =>
      refine ⟨by simp [perform, openingsAfter, coherent.opened], ?_⟩
      intro i o rest opened remaining
      simp only [perform, openingsAfter, List.getElem?_modify] at opened
      simp only [List.getElem?_modify] at remaining
      by_cases same : c.index = i
      · simp only [same, if_true, Option.map_eq_map, Option.map_eq_some_iff] at opened remaining
        obtain ⟨before, openedBefore, rfl⟩ := opened
        obtain ⟨all, remainingBefore, rfl⟩ := remaining
        exact (kept i before all openedBefore remainingBefore).advanced
      · simp only [same, if_false, Option.map_eq_map, Option.map_id'] at opened remaining
        exact kept i o rest opened remaining
  | _ => exact ⟨coherent.opened, kept⟩

theorem Coherent.perform (coherent : s.Coherent) (call : Call) : (s.perform call).Coherent where
  separate := coherent.separate.after call
  held := by
    intro v source member
    rcases List.mem_append.mp member with new | old
    · exact coherent.given new
    · exact (coherent.held v source old).after call
  opened := (coherent.cursorsAfter call).1
  cursors := (coherent.cursorsAfter call).2

theorem coherent_empty : empty.Coherent where
  separate := separate_empty
  held := by
    intro v source member
    cases member
  opened := rfl
  cursors := by
    intro i o rest opened
    cases opened

theorem coherent_ofCalls (calls : List Call) : (ofCalls calls).Coherent :=
  foldl_invariant Coherent coherent_empty fun call _ _ holds => holds.perform call

end Session

end Invariant

section CountingUp

variable {w : Workspace}

theorem vector_increment (w : Workspace) (v u : VectorRef) :
    (w.after (.increment v)).vector u =
      if u = v ∧ v.index < w.vectors.length then (w.vector u).incremented else w.vector u := by
  obtain ⟨i⟩ := v
  obtain ⟨j⟩ := u
  rw [after_increment]
  simp only [vector, List.getElem?_set, VectorRef.mk.injEq]
  by_cases same : i = j
  · subst same
    by_cases bound : i < w.vectors.length
    · simp [bound]
    · simp [bound]
  · have other : j ≠ i := fun equal => same equal.symm
    simp [same, other]

theorem record_increment (w : Workspace) (v : VectorRef) (r : RecordRef) :
    (w.after (.increment v)).record r = w.record r := by
  rw [after_increment]
  rfl

theorem view_increment_of_apart {v : VectorRef} {r : RecordRef}
    (apart : ∀ k, w.entryVector? r k ≠ some v) :
    (w.after (.increment v)).view r = w.view r := by
  rw [view, view, record_increment, Record.map, Record.map]
  congr 1
  apply List.map_congr_left
  intro e member
  obtain ⟨k, bound, stored⟩ := List.mem_iff_getElem.mp member
  have differs : e.sample ≠ v := by
    intro same
    apply apart k
    exact entryVector?_eq_some.mpr ⟨e, by rw [List.getElem?_eq_getElem bound, stored], same⟩
  rw [Entry.map, Entry.map, vector_increment, if_neg fun both => differs both.1]

theorem Separate.view_increment_self (separate : w.Separate) {v : VectorRef} {r : RecordRef}
    {k : Nat} (found : w.entryVector? r k = some v) :
    (w.after (.increment v)).view r = (w.view r).incrementSample k := by
  have bound := separate.bounded r k v found
  rw [view, view, record_increment, Record.map, Record.map, Record.incrementSample]
  congr 1
  apply List.ext_getElem?
  intro i
  rw [List.getElem?_map, List.getElem?_modify, List.getElem?_map]
  cases stored : (w.record r).entries[i]? with
  | none => rfl
  | some e =>
      simp only [Option.map_some, Option.map_eq_map, Option.some.injEq]
      have here : w.entryVector? r i = some e.sample := entryVector?_eq_some.mpr ⟨e, stored, rfl⟩
      by_cases same : k = i
      · subst same
        have sample : e.sample = v := Option.some.inj (here.symm.trans found)
        simp [Entry.map, vector_increment, sample, bound]
      · have differs : e.sample ≠ v := by
          intro equal
          exact same (separate.unshared r k r i v found (equal ▸ here)).2
        simp [Entry.map, vector_increment, differs, same]

theorem Separate.view_increment (separate : w.Separate) {v : VectorRef} {r : RecordRef} {k : Nat}
    (found : w.entryVector? r k = some v) (other : RecordRef) :
    (w.after (.increment v)).view other =
      if other = r then (w.view r).incrementSample k else w.view other := by
  split
  · rename_i same
    rw [same]
    exact separate.view_increment_self found
  · rename_i differs
    apply view_increment_of_apart
    intro l foundAgain
    exact differs (separate.unshared other l r k v foundAgain found).1

end CountingUp

def KeepsRecords (w : Workspace) (v : VectorRef) : Prop :=
  ∀ r, (w.after (.increment v)).view r = w.view r

def ChangesOnly (w : Workspace) (v : VectorRef) (r : RecordRef) (index : Nat) : Prop :=
  ∀ other, (w.after (.increment v)).view other =
    if other = r then (w.view r).incrementSample index else w.view other

/-- No two entries share a sample, and who holds the sample of an entry took it from this entry.
What callers count up changes the records accordingly. -/
structure Session.Isolated (s : Session) : Prop where
  unshared : ∀ r k other l v, s.workspace.entryVector? r k = some v →
    s.workspace.entryVector? other l = some v → r = other ∧ k = l
  reached : ∀ v source r k, (v, source) ∈ s.held → s.workspace.entryVector? r k = some v →
    source = .entry r k
  made : ∀ v, (v, .made) ∈ s.held → s.workspace.KeepsRecords v
  taken : ∀ v r k, (v, .entry r k) ∈ s.held → s.workspace.ChangesOnly v r k

theorem Session.Coherent.isolated {s : Session} (coherent : s.Coherent) : s.Isolated where
  unshared := coherent.separate.unshared
  reached := by
    intro v source r k member found
    have fits := coherent.held v source member
    cases source with
    | made => exact (fits.2 r k found).elim
    | entry other l =>
        obtain ⟨rfl, rfl⟩ := coherent.separate.unshared other l r k v fits found
        rfl
  made := by
    intro v member r
    exact view_increment_of_apart ((coherent.held v .made member).2 r)
  taken := by
    intro v r k member
    exact coherent.separate.view_increment (coherent.held v (.entry r k) member)

section Passed

variable {w : Workspace}

theorem entryVector?_of_afterAll (calls : List Call) {r : RecordRef} {k : Nat} {v : VectorRef}
    (present : v.index < w.vectors.length)
    (found : (w.afterAll calls).entryVector? r k = some v) : w.entryVector? r k = some v := by
  induction calls generalizing w with
  | nil => exact found
  | cons call rest ih =>
      obtain ⟨target, es, gains⟩ := gains_after w call
      have room := gains.room
      rcases gains.entryVector?_cases (ih (by omega) found) with old | ⟨-, i, -, -, place⟩
      · exact old
      · omega

theorem entryVector?_afterAll (calls : List Call) {r : RecordRef} {k : Nat} {v : VectorRef}
    (found : w.entryVector? r k = some v) : (w.afterAll calls).entryVector? r k = some v := by
  induction calls generalizing w with
  | nil => exact found
  | cons call rest ih => exact ih (entryVector?_of_longer (entries_prefix_after w call r) found)

theorem Session.workspace_append (earlier later : List Call) :
    (ofCalls (earlier ++ later)).workspace = (ofCalls earlier).workspace.afterAll later := by
  rw [ofCalls, List.foldl_append]
  exact (List.foldl_hom Session.workspace fun _ _ => rfl).symm

theorem Session.held_foldl (s : Session) (calls : List Call) :
    s.held ⊆ (calls.foldl perform s).held := by
  induction calls generalizing s with
  | nil => exact List.Subset.refl _
  | cons call rest ih =>
      exact List.Subset.trans (List.subset_append_right _ _) (ih (s.perform call))

theorem Session.held_copy {earlier later : List Call} {v copy : VectorRef} {next : Workspace}
    (copied : (ofCalls earlier).workspace.copyVector v = .ok (next, copy)) :
    (copy, Source.made) ∈ (ofCalls (earlier ++ .copy v :: later)).held := by
  rw [ofCalls, List.foldl_append]
  apply Session.held_foldl ((ofCalls earlier).perform (.copy v)) later
  apply List.mem_append_left
  simp only [given, copied, List.mem_singleton]

end Passed

/-- After any calls the samples of all entries are isolated. What was passed with one of the
calls changes no record when it is counted up, unless it was the sample of an entry already, and
then only this entry. A copy changes no record either. -/
theorem Session.samples_isolated (calls : List Call) : (ofCalls calls).Isolated ∧
    ∀ earlier call later, calls = earlier ++ call :: later →
      (∀ v ∈ call.passed (ofCalls earlier).workspace,
        v.index < (ofCalls earlier).workspace.vectors.length →
          ((∀ r k, (ofCalls earlier).workspace.entryVector? r k ≠ some v) →
            (ofCalls calls).workspace.KeepsRecords v) ∧
          ∀ r k, (ofCalls earlier).workspace.entryVector? r k = some v →
            (ofCalls calls).workspace.ChangesOnly v r k) ∧
      ∀ v next copy, call = .copy v →
        (ofCalls earlier).workspace.copyVector v = .ok (next, copy) →
          (ofCalls calls).workspace.KeepsRecords copy := by
  refine ⟨(coherent_ofCalls calls).isolated, ?_⟩
  rintro earlier call later rfl
  have separate := (coherent_ofCalls (earlier ++ call :: later)).separate
  have whole := workspace_append earlier (call :: later)
  refine ⟨?_, ?_⟩
  · intro v _ present
    refine ⟨?_, ?_⟩
    · intro apart r
      apply view_increment_of_apart
      intro k found
      rw [whole] at found
      exact apart r k (entryVector?_of_afterAll (call :: later) present found)
    · intro r k found
      apply separate.view_increment
      rw [whole]
      exact entryVector?_afterAll (call :: later) found
  · rintro v next copy rfl copied
    exact (coherent_ofCalls _).isolated.made copy (held_copy copied)

def storedTwice : List Call :=
  [.create (.ofInts [0, 1]), .newRecord (.int 1), .insert ⟨0⟩ (.int 5) ⟨0⟩ (.int 1), .copy ⟨0⟩,
    .entryVector ⟨0⟩ 0, .newRecord (.int 1), .insert ⟨1⟩ (.int 5) ⟨1⟩ (.int 1)]

theorem Session.samples_isolated_storedTwice :
    (⟨0⟩, .made) ∈ (ofCalls storedTwice).held ∧
    (ofCalls storedTwice).workspace.KeepsRecords ⟨0⟩ ∧
    (ofCalls storedTwice).workspace.ChangesOnly ⟨1⟩ ⟨0⟩ 0 ∧
    (ofCalls storedTwice).workspace.KeepsRecords ⟨2⟩ := by
  have isolated := samples_isolated storedTwice
  have held : (ofCalls storedTwice).held =
      [(⟨1⟩, .entry ⟨0⟩ 0), (⟨2⟩, .made), (⟨0⟩, .made)] := by
    rfl
  refine ⟨?_, ?_, ?_, ?_⟩
  · simp [held]
  · exact isolated.1.made ⟨0⟩ (by simp [held])
  · have passed := isolated.2 (storedTwice.take 6) (.insert ⟨1⟩ (.int 5) ⟨1⟩ (.int 1)) [] rfl
    have bound : 1 < (ofCalls (storedTwice.take 6)).workspace.vectors.length := by
      decide
    exact (passed.1 ⟨1⟩ (List.mem_singleton_self _) bound).2 ⟨0⟩ 0 rfl
  · have copied := isolated.2 (storedTwice.take 3) (.copy ⟨0⟩) (storedTwice.drop 4) rfl
    exact copied.2 ⟨0⟩ _ ⟨2⟩ rfl rfl

/-- The sample of an entry can be passed to an insertion, and counting it up changes its entry. -/
theorem Session.not_passed_keeps : ¬ ∀ earlier call later v,
    v ∈ call.passed (ofCalls earlier).workspace →
      (ofCalls (earlier ++ call :: later)).workspace.KeepsRecords v := by
  intro claimed
  have kept := claimed (storedTwice.take 6) (.insert ⟨1⟩ (.int 5) ⟨1⟩ (.int 1)) [] ⟨1⟩
    (List.mem_singleton_self _) ⟨0⟩
  have same := congrArg (fun r => r.entries.map fun e => e.sample.bits) kept
  have before : ((ofCalls storedTwice).workspace.view ⟨0⟩).entries.map
      (fun e => e.sample.bits) = [.ok [0, 1]] := by
    rfl
  have now : (((ofCalls storedTwice).workspace.after (.increment ⟨1⟩)).view ⟨0⟩).entries.map
      (fun e => e.sample.bits) = [.ok [1, 0]] := by
    rfl
  have equal := now.symm.trans (same.trans before)
  simp at equal

end Workspace

end BinaryQuadratic
