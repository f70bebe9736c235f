import BinaryQuadratic.Proofs.Exhaustive

/-!
Insertions into a record of bounded capacity. An insertion that exceeds the capacity is refused as
a whole. Any other one appends its entries up to the first that is refused.
-/

namespace BinaryQuadratic

open Assignment

section Violations

theorem Value.toScalar_ne_violation (d : Datum) (v : Violation) :
    Value.toScalar d ≠ .error (.violation v) := by
  unfold Value.toScalar
  cases Value.scalar? d <;> simp

theorem Scalar.toNumber_ne_violation (s : Scalar) (v : Violation) :
    s.toNumber ≠ .error (.violation v) := by
  unfold Scalar.toNumber
  cases s.number? <;> simp

theorem Number.truncate_ne_violation (a : Number) (v : Violation) :
    a.truncate ≠ .error (.violation v) := by
  cases a with
  | int n => simp [Number.truncate]
  | float x =>
      simp only [Number.truncate]
      split <;> simp

theorem Number.round_ne_violation (a : Number) (v : Violation) :
    a.round ≠ .error (.violation v) := by
  cases a with
  | int n => simp [Number.round]
  | float x =>
      simp only [Number.round]
      split <;> simp

theorem Scalar.readInt_ne_violation (base : Nat) (quoted : String) (cs : List Char)
    (v : Violation) : Scalar.readInt base quoted cs ≠ .error (.violation v) := by
  unfold Scalar.readInt
  split <;> simp

theorem Scalar.toInt_ne_violation (s : Scalar) (v : Violation) :
    s.toInt ≠ .error (.violation v) := by
  unfold Scalar.toInt
  split
  · exact Scalar.readInt_ne_violation _ _ _ v
  · exact Scalar.readInt_ne_violation _ _ _ v
  · intro failed
    rcases bind_eq_error.mp failed with unread | ⟨a, -, untruncated⟩
    · exact Scalar.toNumber_ne_violation _ v unread
    · exact Number.truncate_ne_violation a v untruncated

theorem Value.toInt_ne_violation (d : Datum) (v : Violation) :
    Value.toInt d ≠ .error (.violation v) := by
  intro failed
  rcases bind_eq_error.mp failed with unread | ⟨s, -, unconverted⟩
  · exact Value.toScalar_ne_violation d v unread
  · exact Scalar.toInt_ne_violation s v unconverted

theorem Value.round_ne_violation (d : Datum) (v : Violation) :
    Value.round d ≠ .error (.violation v) := by
  intro failed
  rcases bind_eq_error.mp failed with unread | ⟨a, -, unrounded⟩
  · rcases bind_eq_error.mp unread with unscaled | ⟨s, -, unconverted⟩
    · exact Value.toScalar_ne_violation d v unscaled
    · exact Scalar.toNumber_ne_violation s v unconverted
  · exact Number.round_ne_violation a v unrounded

theorem Value.items_ne_violation (d : Datum) (v : Violation) :
    Value.items d ≠ .error (.violation v) := by
  unfold Value.items
  split <;> simp

theorem Assignment.bits_ne_violation (a : Assignment) (v : Violation) :
    a.bits ≠ .error (.violation v) := by
  intro failed
  rcases bind_eq_error.mp failed with unlisted | ⟨cells, -, unrounded⟩
  · exact Value.items_ne_violation a.values v unlisted
  · obtain ⟨_, cell, _, _, -, -, cellFailed⟩ := split_of_mapM_eq_error unrounded
    exact Value.round_ne_violation cell v cellFailed

theorem Proposal.accept_violation {p : Proposal} {v : Violation}
    (refused : p.accept = .error (.violation v)) : v = .dataFormat .entryNotBinary := by
  rcases bind_eq_error.mp refused with uncopied | ⟨sample, -, later⟩
  · rcases bind_eq_error.mp uncopied with unread | ⟨xs, -, unequal⟩
    · exact (Assignment.bits_ne_violation p.sample v unread).elim
    · unfold ofCells at unequal
      split at unequal
      · cases unequal
      · simpa using unequal.symm
  · rcases bind_eq_error.mp later with unread | ⟨occurrences, -, impossible⟩
    · exact (Value.toInt_ne_violation p.occurrences v unread).elim
    · cases impossible

end Violations

def Entry.HasBits (e : Entry Assignment) : Prop :=
  ∃ xs, e.sample = .ofInts xs ∧ IsBits xs

theorem Assignment.isBinary_int {x : Int} : isBinary (.int x) = true ↔ x = 0 ∨ x = 1 := by
  simp [isBinary, Value.equalsInt, Value.scalar?, Value.layer, Datum.layer, Layer.scalar?,
    Scalar.number?, Number.equals, Number.compare?]

theorem Assignment.copy_eq_ok {a b : Assignment} (copied : a.copy = .ok b) :
    ∃ xs, b = .ofInts xs ∧ IsBits xs := by
  obtain ⟨xs, -, checked⟩ := bind_eq_ok.mp copied
  unfold ofCells at checked
  split at checked
  · rename_i binary
    cases checked
    refine ⟨xs, rfl, ?_⟩
    intro x member
    rw [List.all_map] at binary
    exact isBinary_int.mp (List.all_eq_true.mp binary x member)
  · cases checked

theorem Proposal.hasBits_of_accept {p : Proposal} {e : Entry Assignment}
    (accepted : p.accept = .ok e) : e.HasBits := by
  obtain ⟨sample, copied, later⟩ := bind_eq_ok.mp accepted
  obtain ⟨occurrences, -, last⟩ := bind_eq_ok.mp later
  cases last
  exact copy_eq_ok copied

theorem Proposal.hasBits_of_mapM_accept {ps : List Proposal} {es : List (Entry Assignment)}
    (accepted : ps.mapM Proposal.accept = .ok es) : ∀ e ∈ es, e.HasBits := by
  intro e member
  obtain ⟨p, -, entered⟩ := mem_of_mapM_eq_ok accepted member
  exact hasBits_of_accept entered

theorem Entry.accept_propose {e : Entry Assignment} (bits : e.HasBits) :
    e.propose.accept = .ok e := by
  obtain ⟨energy, sample, occurrences⟩ := e
  obtain ⟨xs, rfl, binary⟩ := bits
  rw [Proposal.accept, Entry.propose, Assignment.copy_ofInts binary]
  rfl

namespace Record

inductive Insertion where
  | one (p : Proposal)
  | several (ps : List Proposal)
  | own

namespace Insertion

def proposals (r : Record Assignment) : Insertion → List Proposal
  | one p => [p]
  | several ps => ps
  | own => r.entries.map Entry.propose

def rule : Insertion → Rule
  | one _ => .recordIsFull
  | several _ => .recordNotEnoughCapacity
  | own => .recordNotEnoughCapacity

def Exceeds (call : Insertion) (r : Record Assignment) : Prop :=
  r.capacity < (r.size : Int) + (call.proposals r).length

instance (call : Insertion) (r : Record Assignment) : Decidable (call.Exceeds r) :=
  inferInstanceAs (Decidable (_ < _))

end Insertion

def receive (r : Record Assignment) : Insertion → Record Assignment × Except Fault Bool
  | .one p =>
    match r.insert p with
    | .ok (next, exhausted) => (next, .ok exhausted)
    | .error fault => (r, .error fault)
  | .several ps => r.insertAll ps
  | .own => r.insertAll (r.entries.map Entry.propose)

def receiveAll (r : Record Assignment) (calls : List Insertion) : Record Assignment :=
  calls.foldl (fun state call => (state.receive call).1) r

def extend (r : Record Assignment) (es : List (Entry Assignment)) : Record Assignment :=
  { r with entries := r.entries ++ es }

/-- The outcome of proposals that fit: all of them are appended, or those before the first that
is refused. -/
def Appends (r : Record Assignment) (ps : List Proposal)
    (answer : Record Assignment × Except Fault Bool) : Prop :=
  (∃ es, ps.mapM Proposal.accept = .ok es ∧ answer = (r.extend es, .ok (r.extend es).isFull)) ∨
  ∃ front p back es fault, ps = front ++ p :: back ∧ front.mapM Proposal.accept = .ok es ∧
    p.accept = .error fault ∧ answer = (r.extend es, .error fault)

section Steps

variable {r : Record Assignment}

@[simp] theorem capacity_extend (r : Record Assignment) (es : List (Entry Assignment)) :
    (r.extend es).capacity = r.capacity := rfl

@[simp] theorem extend_nil (r : Record Assignment) : r.extend [] = r := by
  rw [extend, List.append_nil]

@[simp] theorem size_extend (r : Record Assignment) (es : List (Entry Assignment)) :
    (r.extend es).size = r.size + es.length := List.length_append

theorem append_extend (r : Record Assignment) (e : Entry Assignment)
    (es : List (Entry Assignment)) : (r.append e).extend es = r.extend (e :: es) := by
  simp [append, extend]

theorem isExhausted_eq_isFull (bound : (r.size : Int) ≤ r.capacity) :
    r.isExhausted = r.isFull := by
  rw [isExhausted, isFull, decide_eq_decide]
  omega

theorem appendAll_append {front ps : List Proposal} {es : List (Entry Assignment)}
    (accepted : front.mapM Proposal.accept = .ok es) :
    r.appendAll (front ++ ps) = (r.extend es).appendAll ps := by
  induction front generalizing r es with
  | nil =>
      cases accepted
      exact congrArg (fun start => start.appendAll ps) r.extend_nil.symm
  | cons p rest ih =>
      rw [List.mapM_cons] at accepted
      obtain ⟨e, first, later⟩ := bind_eq_ok.mp accepted
      obtain ⟨others, restAccepted, last⟩ := bind_eq_ok.mp later
      cases last
      rw [List.cons_append, appendAll, first, ← append_extend]
      exact ih restAccepted

theorem appendAll_extends (r : Record Assignment) (ps : List Proposal) :
    ∃ es, (r.appendAll ps).1 = r.extend es := by
  induction ps generalizing r with
  | nil => exact ⟨[], r.extend_nil.symm⟩
  | cons p rest ih =>
      rw [appendAll]
      cases p.accept with
      | error fault => exact ⟨[], r.extend_nil.symm⟩
      | ok e =>
          obtain ⟨es, last⟩ := ih (r.append e)
          exact ⟨e :: es, last.trans (append_extend r e es)⟩

theorem insertAll_accepted {ps : List Proposal} {es : List (Entry Assignment)}
    (fits : ¬r.capacity < (r.size : Int) + ps.length)
    (accepted : ps.mapM Proposal.accept = .ok es) :
    r.insertAll ps = (r.extend es, .ok (r.extend es).isFull) := by
  have whole : r.appendAll (ps ++ []) = (r.extend es).appendAll [] := appendAll_append accepted
  rw [List.append_nil] at whole
  have room : ((r.extend es).size : Int) ≤ (r.extend es).capacity := by
    rw [size_extend, capacity_extend, length_of_mapM_eq_ok accepted]
    omega
  rw [insertAll, if_neg fits, whole, ← isExhausted_eq_isFull room]
  rfl

theorem insertAll_cases (r : Record Assignment) (ps : List Proposal) :
    (r.capacity < (r.size : Int) + ps.length ∧ r.insertAll ps =
      (r, .error (.violation (.invalidOperation .recordNotEnoughCapacity)))) ∨
    (¬r.capacity < (r.size : Int) + ps.length ∧ Appends r ps (r.insertAll ps)) := by
  by_cases exceeds : r.capacity < (r.size : Int) + ps.length
  · left
    exact ⟨exceeds, by rw [insertAll, if_pos exceeds]⟩
  · right
    refine ⟨exceeds, ?_⟩
    cases accepted : ps.mapM Proposal.accept with
    | ok es => exact .inl ⟨es, accepted, insertAll_accepted exceeds accepted⟩
    | error fault =>
        right
        obtain ⟨front, p, back, es, rfl, frontAccepted, refused⟩ :=
          split_of_mapM_eq_error accepted
        refine ⟨front, p, back, es, fault, rfl, frontAccepted, refused, ?_⟩
        rw [insertAll, if_neg exceeds, appendAll_append frontAccepted, appendAll, refused]
        rfl

theorem insert_cases (r : Record Assignment) (p : Proposal) :
    (r.capacity < (r.size : Int) + 1 ∧ r.receive (.one p) =
      (r, .error (.violation (.invalidOperation .recordIsFull)))) ∨
    (¬r.capacity < (r.size : Int) + 1 ∧ Appends r [p] (r.receive (.one p))) := by
  by_cases full : r.capacity ≤ r.size
  · left
    have test : r.isFull = true := decide_eq_true full
    refine ⟨Int.lt_add_one_of_le full, ?_⟩
    simp only [receive, insert, test, if_true]
    rfl
  · right
    have test : r.isFull = false := decide_eq_false full
    refine ⟨by omega, ?_⟩
    cases accepted : p.accept with
    | ok e =>
        left
        have room : ((r.extend [e]).size : Int) ≤ r.capacity := by
          rw [size_extend, List.length_singleton]
          omega
        refine ⟨[e], ?_, ?_⟩
        · rw [List.mapM_cons, accepted]
          rfl
        · simp only [receive, insert, test, accepted]
          rw [← isExhausted_eq_isFull room]
          rfl
    | error fault =>
        right
        refine ⟨[], p, [], [], fault, rfl, rfl, accepted, ?_⟩
        simp only [receive, insert, test, accepted, extend_nil]
        rfl

theorem receive_cases (r : Record Assignment) (call : Insertion) :
    (call.Exceeds r ∧ r.receive call = (r, .error (.violation (.invalidOperation call.rule)))) ∨
    (¬call.Exceeds r ∧ Appends r (call.proposals r) (r.receive call)) := by
  cases call with
  | one p => exact insert_cases r p
  | several ps => exact insertAll_cases r ps
  | own => exact insertAll_cases r (r.entries.map Entry.propose)

theorem Appends.exists_extend {ps : List Proposal} {answer : Record Assignment × Except Fault Bool}
    (appends : Appends r ps answer) :
    ∃ es, answer.1 = r.extend es ∧ es.length ≤ ps.length ∧ ∀ e ∈ es, e.HasBits := by
  rcases appends with ⟨es, accepted, rfl⟩ | ⟨front, p, back, es, fault, rfl, accepted, -, rfl⟩
  · exact ⟨es, rfl, (length_of_mapM_eq_ok accepted).le, Proposal.hasBits_of_mapM_accept accepted⟩
  · refine ⟨es, rfl, ?_, Proposal.hasBits_of_mapM_accept accepted⟩
    rw [length_of_mapM_eq_ok accepted, List.length_append]
    exact Nat.le_add_right _ _

theorem Appends.not_invalidOperation {ps : List Proposal}
    {answer : Record Assignment × Except Fault Bool} (appends : Appends r ps answer)
    (rule : Rule) : answer.2 ≠ .error (.violation (.invalidOperation rule)) := by
  rcases appends with ⟨es, -, rfl⟩ | ⟨front, p, back, es, fault, -, -, refused, rfl⟩
  · simp
  · intro same
    cases same
    cases Proposal.accept_violation refused

theorem entries_prefix_receive (r : Record Assignment) (call : Insertion) :
    r.entries <+: (r.receive call).1.entries := by
  rcases receive_cases r call with ⟨-, run⟩ | ⟨-, appends⟩
  · rw [run]
  · obtain ⟨es, next, -⟩ := appends.exists_extend
    rw [next]
    exact List.prefix_append _ _

theorem receive_flag {call : Insertion} {flag : Bool} (answered : (r.receive call).2 = .ok flag) :
    flag = (r.receive call).1.isFull := by
  rcases receive_cases r call with ⟨-, run⟩ | ⟨-, ⟨es, -, run⟩ |
    ⟨front, p, back, es, fault, -, -, -, run⟩⟩
  · rw [run] at answered
    cases answered
  · rw [run] at answered ⊢
    exact (Except.ok.inj answered).symm
  · rw [run] at answered
    cases answered

theorem receive_exceeds_iff (r : Record Assignment) (call : Insertion) :
    (r.receive call).2 = .error (.violation (.invalidOperation call.rule)) ↔ call.Exceeds r := by
  rcases receive_cases r call with ⟨exceeds, run⟩ | ⟨fits, appends⟩
  · rw [run]
    exact iff_of_true rfl exceeds
  · exact iff_of_false (appends.not_invalidOperation call.rule) fits

theorem receive_of_exceeds {call : Insertion} (exceeds : call.Exceeds r) :
    (r.receive call).1 = r := by
  rcases receive_cases r call with ⟨-, run⟩ | ⟨fits, -⟩
  · rw [run]
  · exact (fits exceeds).elim

structure Bounded (c : Int) (r : Record Assignment) : Prop where
  capacity : r.capacity = c
  size : (r.size : Int) ≤ max c 0
  samples : ∀ e ∈ r.entries, e.HasBits

theorem Bounded.receive {c : Int} (bounded : r.Bounded c) (call : Insertion) :
    (r.receive call).1.Bounded c := by
  rcases receive_cases r call with ⟨-, run⟩ | ⟨fits, appends⟩
  · rw [run]
    exact bounded
  · obtain ⟨es, next, length, bits⟩ := appends.exists_extend
    rw [next]
    refine ⟨bounded.capacity, ?_, ?_⟩
    · rw [size_extend, ← bounded.capacity]
      unfold Insertion.Exceeds at fits
      omega
    · intro e member
      rcases List.mem_append.mp member with old | new
      · exact bounded.samples e old
      · exact bits e new

theorem Bounded.receiveAll {c : Int} (bounded : r.Bounded c) (calls : List Insertion) :
    (r.receiveAll calls).Bounded c :=
  foldl_invariant (Bounded c) bounded fun call _ _ holds => holds.receive call

theorem bounded_empty (c : Int) : Bounded c ⟨c, none, []⟩ where
  capacity := rfl
  size := Int.le_max_right c 0
  samples := by
    intro e member
    cases member

theorem Bounded.receive_own {c : Int} (bounded : r.Bounded c) (fits : (r.size : Int) + r.size ≤ c) :
    r.receive .own = (r.extend r.entries, .ok (r.extend r.entries).isFull) := by
  apply insertAll_accepted
  · rw [List.length_map, bounded.capacity]
    exact Int.not_lt.mpr fits
  · have steps : ∀ e ∈ r.entries, e.propose.accept = .ok (id e) := by
      intro e member
      exact Entry.accept_propose (bounded.samples e member)
    rw [List.mapM_map]
    exact (mapM_eq_ok_map steps).trans (congrArg Except.ok (List.map_id _))

/-- What further calls do to a record of a capacity. They only append, they tell whether the
record is full, and the capacity refuses them before their entries are looked at. The record's own
entries are refused for nothing else. -/
structure Guarded (c : Int) (r : Record Assignment) : Prop where
  appends : ∀ call, r.entries <+: (r.receive call).1.entries
  flag : ∀ call flag, (r.receive call).2 = .ok flag → flag = (r.receive call).1.isFull
  full : ∀ p, (r.receive (.one p)).2 = .error (.violation (.invalidOperation .recordIsFull)) ↔
    c ≤ r.size
  shortage : ∀ ps, (r.receive (.several ps)).2 =
    .error (.violation (.invalidOperation .recordNotEnoughCapacity)) ↔
      c < (r.size : Int) + ps.length
  ownShortage : (r.receive .own).2 =
    .error (.violation (.invalidOperation .recordNotEnoughCapacity)) ↔ c < (r.size : Int) + r.size
  ownTaken : (r.size : Int) + r.size ≤ c →
    r.receive .own = (r.extend r.entries, .ok (r.extend r.entries).isFull)
  unchanged : ∀ call, (r.receive call).2 = .error (.violation (.invalidOperation call.rule)) →
    (r.receive call).1 = r

theorem Bounded.guarded {c : Int} (bounded : r.Bounded c) : r.Guarded c where
  appends := entries_prefix_receive r
  flag call flag := receive_flag
  full p := by
    rw [← bounded.capacity, ← Int.lt_add_one_iff]
    exact receive_exceeds_iff r (.one p)
  shortage ps := by
    rw [← bounded.capacity]
    exact receive_exceeds_iff r (.several ps)
  ownShortage := by
    have exceeds := receive_exceeds_iff r .own
    rw [Insertion.Exceeds, Insertion.proposals, List.length_map, bounded.capacity] at exceeds
    exact exceeds
  ownTaken := bounded.receive_own
  unchanged call refused := receive_of_exceeds ((receive_exceeds_iff r call).mp refused)

end Steps

/-- Records under insertions, for every capacity. A negative capacity is none. -/
theorem insertions_bounded {capacity : Datum} {c : Int} (readable : Value.toInt capacity = .ok c) :
    ∃ start, Record.ofCapacity capacity = .ok start ∧ ∀ calls : List Insertion,
      (start.receiveAll calls).Bounded c ∧ (start.receiveAll calls).Guarded c := by
  refine ⟨⟨c, none, []⟩, ?_, ?_⟩
  · rw [ofCapacity, readable]
    rfl
  · intro calls
    have bounded := (bounded_empty c).receiveAll calls
    exact ⟨bounded, bounded.guarded⟩

theorem insertions_bounded_pair :
    Value.toInt (.int 2 : Datum) = .ok 2 ∧
      ∃ start, Record.ofCapacity (.int 2) = .ok start ∧
        ∀ p, ((start.receiveAll [.one ⟨.int 1, .ofInts [1], .int 1⟩, .own]).receive (.one p)).2 =
          .error (.violation (.invalidOperation .recordIsFull)) := by
  have readable : Value.toInt (.int 2 : Datum) = .ok 2 := rfl
  obtain ⟨start, created, bounded⟩ := insertions_bounded readable
  refine ⟨readable, start, created, ?_⟩
  intro p
  rw [((bounded _).2).full p]
  cases created
  decide

theorem front_eq_nil_iff {front back : List Proposal} {p : Proposal} {es : List (Entry Assignment)}
    {fault : Fault} (accepted : front.mapM Proposal.accept = .ok es)
    (refused : p.accept = .error fault) :
    front = [] ↔ ∃ first rest, front ++ p :: back = first :: rest ∧ first.accept = .error fault := by
  cases front with
  | nil => exact iff_of_true rfl ⟨p, back, rfl, refused⟩
  | cons q others =>
      apply iff_of_false (List.cons_ne_nil q others)
      rintro ⟨first, rest, parts, firstRefused⟩
      rw [List.mapM_cons, (List.cons.inj parts).1, firstRefused] at accepted
      cases accepted

/-- A failing call keeps the entries exactly if it exceeds the capacity or its first entry is
refused. Otherwise the entries before the refused one stay. -/
theorem failed_insertion_keeps_iff {r : Record Assignment} {call : Insertion} {fault : Fault}
    (failed : (r.receive call).2 = .error fault) :
    ((r.receive call).1.entries = r.entries ↔ call.Exceeds r ∨
      ∃ p back, call.proposals r = p :: back ∧ p.accept = .error fault) ∧
    (∀ p, call = .one p → (r.receive call).1.entries = r.entries) ∧
    (¬call.Exceeds r → ∃ front p back es, call.proposals r = front ++ p :: back ∧
      front.mapM Proposal.accept = .ok es ∧ p.accept = .error fault ∧
      (r.receive call).1 = r.extend es) := by
  rcases receive_cases r call with ⟨exceeds, run⟩ | ⟨fits, ⟨es, -, run⟩ |
    ⟨front, p, back, es, other, parts, accepted, refused, run⟩⟩
  · rw [run]
    exact ⟨iff_of_true rfl (.inl exceeds), fun _ _ => rfl, fun fits => (fits exceeds).elim⟩
  · rw [run] at failed
    cases failed
  · rw [run] at failed
    cases failed
    have kept : (r.extend es).entries = r.entries ↔ front = [] := by
      rw [← List.length_eq_zero_iff, ← length_of_mapM_eq_ok accepted]
      simp [extend]
    rw [run]
    refine ⟨?_, ?_, fun _ => ⟨front, p, back, es, parts, accepted, refused, rfl⟩⟩
    · rw [kept, parts, or_iff_right fits]
      exact front_eq_nil_iff accepted refused
    · rintro q rfl
      apply kept.mpr
      rcases List.singleton_eq_append_iff.mp parts with ⟨none, -⟩ | ⟨-, impossible⟩
      · exact none
      · cases impossible

theorem failed_insertion_keeps_iff_torn :
    (receive ⟨3, none, []⟩ (.several
      [⟨.int 1, .ofInts [1], .int 1⟩, ⟨.int 2, .ofInts [2], .int 1⟩])).2 =
        .error (.violation (.dataFormat .entryNotBinary)) ∧
      (receive ⟨3, none, []⟩ (.several
        [⟨.int 1, .ofInts [1], .int 1⟩, ⟨.int 2, .ofInts [2], .int 1⟩])).1.entries ≠ [] := by
  refine ⟨rfl, ?_⟩
  intro kept
  rcases (failed_insertion_keeps_iff (r := ⟨3, none, []⟩) rfl).1.mp kept with
    exceeds | ⟨p, back, parts, refused⟩
  · revert exceeds
    decide
  · cases parts
    cases refused

end Record

end BinaryQuadratic
