import BinaryQuadratic.Proofs.RoundTrip

/-!
Histories of calls that set coefficients. Whether a call is refused is decided by its indices, and
a refused call changes nothing. The terms of a problem are those of the calls that were taken: each
pair stands at the place of its first call and has the value of its last.
-/

namespace BinaryQuadratic

namespace Number

/-- A number with a value among the indices below a size. Neither an infinity nor what is not a
number has a value. -/
def Within (a : Number) (size : Int) : Prop := ∃ v, a.HasValue v ∧ 0 ≤ v ∧ v < size

def Below (a b : Number) : Prop := ∃ v w, a.HasValue v ∧ b.HasValue w ∧ v < w

theorem HasValue.unique {a : Number} {v w : ℚ} (first : a.HasValue v) (second : a.HasValue w) :
    v = w := by
  cases first with
  | int n => cases second; rfl
  | float finite => cases second; rfl

theorem inRange_iff_within (a : Number) (size : Int) : a.inRange size = true ↔ a.Within size := by
  constructor
  · exact value_of_inRange
  · rintro ⟨v, value, bounds⟩
    exact (inRange_iff value size).mpr bounds

theorem less_iff_below {a b : Number} {size : Int} (aWithin : a.Within size)
    (bWithin : b.Within size) : a.less b = true ↔ a.Below b := by
  constructor
  · intro order
    obtain ⟨v, aValue, -⟩ := aWithin
    obtain ⟨w, bValue, -⟩ := bWithin
    exact ⟨v, w, aValue, bValue, (less_iff aValue bValue).mp order⟩
  · rintro ⟨v, w, aValue, bValue, order⟩
    exact (less_iff aValue bValue).mpr order

end Number

namespace Problem

structure Index where
  datum : Datum
  number : Number
  reads : Value.toNumber datum = .ok number

namespace Index

def ofInt (n : Int) : Index := ⟨.int n, .int n, rfl⟩

def ofFloat (x : Float) : Index := ⟨.float x, .float x, rfl⟩

end Index

structure Write where
  first : Index
  second : Index
  value : Datum

/-- A call is taken for a pair: its indices are in range and in order, and without their fractions
they are the pair. -/
def Write.Sets (w : Write) (size i j : Int) : Prop :=
  ∃ v u, w.first.number.HasValue v ∧ w.second.number.HasValue u ∧ 0 ≤ v ∧ v ≤ u ∧ u < size ∧
    ⌊v⌋ = i ∧ ⌊u⌋ = j

def write (p : Problem) (w : Write) : Problem × Except Fault Unit :=
  match p.insert w.first.datum w.second.datum w.value with
  | .ok q => (q, .ok ())
  | .error fault => (p, .error fault)

def writeAll (p : Problem) (calls : List Write) : Problem :=
  calls.foldl (fun state w => (state.write w).1) p

def keys (p : Problem) : List (Int × Int) := p.terms.map fun term => (term.1.1, term.1.2)

section Sets

variable {w : Write} {size i j : Int}

theorem Write.Sets.bounds (sets : w.Sets size i j) : 0 ≤ i ∧ i ≤ j ∧ j < size := by
  obtain ⟨v, u, -, -, lower, order, upper, rfl, rfl⟩ := sets
  exact ⟨Int.floor_nonneg.mpr lower, Int.floor_le_floor order, Int.floor_lt.mpr upper⟩

theorem Write.Sets.first (sets : w.Sets size i j) : w.first.number.Within size := by
  obtain ⟨v, u, value, -, lower, order, upper, -⟩ := sets
  exact ⟨v, value, lower, lt_of_le_of_lt order upper⟩

theorem Write.Sets.second (sets : w.Sets size i j) : w.second.number.Within size := by
  obtain ⟨v, u, -, value, lower, order, upper, -⟩ := sets
  exact ⟨u, value, le_trans lower order, upper⟩

theorem Write.Sets.ordered (sets : w.Sets size i j) :
    ¬w.second.number.Below w.first.number := by
  obtain ⟨v, u, value, other, -, order, -⟩ := sets
  rintro ⟨v', u', value', other', above⟩
  rw [other.unique value', value.unique other'] at order
  exact not_lt_of_ge order above

theorem Write.sets_iff : w.Sets size i j ↔
    w.first.number.inRange size = true ∧ w.second.number.inRange size = true ∧
      w.second.number.less w.first.number = false ∧
      w.first.number.truncate = .ok i ∧ w.second.number.truncate = .ok j := by
  constructor
  · intro sets
    refine ⟨(Number.inRange_iff_within _ _).mpr sets.first,
      (Number.inRange_iff_within _ _).mpr sets.second, ?_, ?_⟩
    · rw [← Bool.not_eq_true, Number.less_iff_below sets.second sets.first]
      exact sets.ordered
    · obtain ⟨v, u, value, other, lower, order, -, rfl, rfl⟩ := sets
      exact ⟨Number.truncate_eq_floor value lower,
        Number.truncate_eq_floor other (le_trans lower order)⟩
  · rintro ⟨first, second, order, truncated, truncatedOther⟩
    obtain ⟨v, value, lower, -⟩ := Number.value_of_inRange first
    obtain ⟨u, other, otherLower, upper⟩ := Number.value_of_inRange second
    rw [Number.truncate_eq_floor value lower] at truncated
    rw [Number.truncate_eq_floor other otherLower] at truncatedOther
    rw [← Bool.not_eq_true, Number.less_iff other value] at order
    exact ⟨v, u, value, other, lower, le_of_not_gt order, upper, Except.ok.inj truncated,
      Except.ok.inj truncatedOther⟩

theorem Write.exists_sets (first : w.first.number.Within size)
    (second : w.second.number.Within size) (ordered : ¬w.second.number.Below w.first.number) :
    ∃ i j : Nat, w.Sets size i j := by
  obtain ⟨v, value, lower, -⟩ := first
  obtain ⟨u, other, otherLower, upper⟩ := second
  have order : v ≤ u := by
    by_contra less
    exact ordered ⟨u, v, other, value, lt_of_not_ge less⟩
  refine ⟨⌊v⌋.toNat, ⌊u⌋.toNat, v, u, value, other, lower, order, upper, ?_, ?_⟩
  · exact (Int.toNat_of_nonneg (Int.floor_nonneg.mpr lower)).symm
  · exact (Int.toNat_of_nonneg (Int.floor_nonneg.mpr otherLower)).symm

end Sets

theorem write_of_sets {p : Problem} {w : Write} {i j : Nat} (sets : w.Sets p.size i j) :
    p.write w = ({ p with terms := insertTerm p.terms (i, j) w.value }, .ok ()) := by
  obtain ⟨first, second, order, truncated, otherTruncated⟩ := Write.sets_iff.mp sets
  have row : variableOf w.first.number = .ok i := by
    rw [variableOf, truncated]
    rfl
  have column : variableOf w.second.number = .ok j := by
    rw [variableOf, otherTruncated]
    rfl
  rw [write, insert_eq_ok.mpr ⟨_, _, i, j, ⟨w.first.reads, first⟩, ⟨w.second.reads, second⟩, order,
    ⟨row, column⟩, rfl⟩]

theorem write_cases (p : Problem) (w : Write) :
    (¬w.first.number.Within p.size ∧
      p.write w = (p, .error (.violation (.outOfRange "variable_index")))) ∨
    (w.first.number.Within p.size ∧ ¬w.second.number.Within p.size ∧
      p.write w = (p, .error (.violation (.outOfRange "variable_pair_index")))) ∨
    (w.first.number.Within p.size ∧ w.second.number.Within p.size ∧
      w.second.number.Below w.first.number ∧
      p.write w = (p, .error (.violation (.invalidOperation .pairIndexSmallerThanPrimary)))) ∨
    (∃ i j : Nat, w.Sets p.size i j ∧
      p.write w = ({ p with terms := insertTerm p.terms (i, j) w.value }, .ok ())) := by
  by_cases first : w.first.number.Within p.size
  · have firstTest := (Number.inRange_iff_within _ _).mpr first
    right
    by_cases second : w.second.number.Within p.size
    · have secondTest := (Number.inRange_iff_within _ _).mpr second
      right
      by_cases below : w.second.number.Below w.first.number
      · have order := (Number.less_iff_below second first).mpr below
        left
        refine ⟨first, second, below, ?_⟩
        simp only [write, insert, w.first.reads, w.second.reads, ok_bind, firstTest, secondTest,
          order]
        rfl
      · obtain ⟨i, j, sets⟩ := Write.exists_sets first second below
        exact .inr ⟨i, j, sets, write_of_sets sets⟩
    · have secondTest : w.second.number.inRange p.size = false := by
        rw [← Bool.not_eq_true, Number.inRange_iff_within]
        exact second
      left
      refine ⟨first, second, ?_⟩
      simp only [write, insert, w.first.reads, w.second.reads, ok_bind, firstTest, secondTest]
      rfl
  · have firstTest : w.first.number.inRange p.size = false := by
      rw [← Bool.not_eq_true, Number.inRange_iff_within]
      exact first
    left
    refine ⟨first, ?_⟩
    simp only [write, insert, w.first.reads, ok_bind, firstTest]
    rfl

theorem keeps_or_sets (p : Problem) (w : Write) : (p.write w).1 = p ∨
    ∃ i j : Nat, w.Sets p.size i j ∧
      (p.write w).1 = { p with terms := insertTerm p.terms (i, j) w.value } := by
  rcases write_cases p w with ⟨-, run⟩ | ⟨-, -, run⟩ | ⟨-, -, -, run⟩ | ⟨i, j, sets, run⟩
  · exact .inl (congrArg Prod.fst run)
  · exact .inl (congrArg Prod.fst run)
  · exact .inl (congrArg Prod.fst run)
  · exact .inr ⟨i, j, sets, congrArg Prod.fst run⟩

theorem size_write (p : Problem) (w : Write) : (p.write w).1.size = p.size := by
  rcases keeps_or_sets p w with same | ⟨i, j, -, next⟩
  · rw [same]
  · rw [next]

theorem wellFormed_write {p : Problem} (wellFormed : p.WellFormed) (w : Write) :
    (p.write w).1.WellFormed := by
  rcases keeps_or_sets p w with same | ⟨i, j, sets, next⟩
  · rw [same]
    exact wellFormed
  · rw [next]
    exact wellFormed.insertTerm (Int.ofNat_le.mp sets.bounds.2.1) sets.bounds.2.2 w.value

structure Outcomes (p : Problem) (w : Write) : Prop where
  first : (p.write w).2 = .error (.violation (.outOfRange "variable_index")) ↔
    ¬w.first.number.Within p.size
  second : (p.write w).2 = .error (.violation (.outOfRange "variable_pair_index")) ↔
    w.first.number.Within p.size ∧ ¬w.second.number.Within p.size
  order : (p.write w).2 =
      .error (.violation (.invalidOperation .pairIndexSmallerThanPrimary)) ↔
    w.first.number.Within p.size ∧ w.second.number.Within p.size ∧
      w.second.number.Below w.first.number
  taken : (p.write w).2 = .ok () ↔
    w.first.number.Within p.size ∧ w.second.number.Within p.size ∧
      ¬w.second.number.Below w.first.number
  unchanged : ∀ fault, (p.write w).2 = .error fault → (p.write w).1 = p

theorem outcomes_write (p : Problem) (w : Write) : p.Outcomes w := by
  rcases write_cases p w with
    ⟨first, run⟩ | ⟨first, second, run⟩ | ⟨first, second, below, run⟩ | ⟨i, j, sets, run⟩
  · constructor <;> simp [run, first, Violation.outOfRange, Violation.invalidOperation]
  · constructor <;> simp [run, first, second, Violation.outOfRange, Violation.invalidOperation]
  · constructor <;>
      simp [run, first, second, below, Violation.outOfRange, Violation.invalidOperation]
  · constructor <;> simp [run, sets.first, sets.second, sets.ordered]

theorem get?_int (p : Problem) (a b : Int) : p.get? (.int a) (.int b) =
    .ok (if 0 ≤ a ∧ 0 ≤ b then p.lookup (a.toNat, b.toNat) else none) := by
  have equal (n : Int) (i : Nat) : Value.equalsInt (Datum.int n) i = decide (n = i) := by
    have same := Number.equals_iff (.int n) (.int (i : Int))
    rw [Rat.intCast_inj] at same
    exact Bool.eq_iff_iff.mpr (same.trans (decide_eq_true_iff).symm)
  simp only [get?, isScalar, Bool.and_self, if_true, equal]
  split
  · rename_i nonnegative
    apply congrArg (fun found => Except.ok (Option.map Prod.snd found))
    apply congrArg (fun test => p.terms.find? test)
    funext term
    rw [← Bool.decide_and]
    apply decide_eq_decide.mpr
    obtain ⟨⟨i, j⟩, value⟩ := term
    simp only [Prod.mk.injEq]
    omega
  · rename_i negative
    have none : p.terms.find? (fun term => decide (a = term.1.1) && decide (b = term.1.2)) =
        none := by
      apply List.find?_eq_none.mpr
      intro term _
      simp only [Bool.and_eq_true, decide_eq_true_eq]
      omega
    rw [none]
    rfl

theorem sets_of_taken {p : Problem} {w : Write} (taken : (p.write w).2 = .ok ()) :
    ∃ i j : Int, w.Sets p.size i j := by
  rcases write_cases p w with ⟨-, run⟩ | ⟨-, -, run⟩ | ⟨-, -, -, run⟩ | ⟨i, j, sets, -⟩
  · rw [run] at taken
    cases taken
  · rw [run] at taken
    cases taken
  · rw [run] at taken
    cases taken
  · exact ⟨i, j, sets⟩

/-- What a call that is taken for a pair does. The pair has the value of the call, the others have
what they had, and a new pair goes to the end. -/
structure Effect (p : Problem) (w : Write) (i j : Int) : Prop where
  written : (p.write w).1.get? (.int i) (.int j) = .ok (some w.value)
  others : ∀ a b : Int, (a, b) ≠ (i, j) →
    (p.write w).1.get? (.int a) (.int b) = p.get? (.int a) (.int b)
  place : (p.write w).1.keys = if (i, j) ∈ p.keys then p.keys else p.keys ++ [(i, j)]

theorem mem_keys {p : Problem} {i j : Nat} :
    ((i : Int), (j : Int)) ∈ p.keys ↔ (i, j) ∈ p.terms.map Prod.fst := by
  simp [keys, Prod.ext_iff]

theorem keys_eq_map (p : Problem) : p.keys =
    (p.terms.map Prod.fst).map fun pair => ((pair.1 : Int), (pair.2 : Int)) := by
  rw [keys, List.map_map]
  rfl

theorem effect_write {p : Problem} {w : Write} {i j : Int} (sets : w.Sets p.size i j) :
    p.Effect w i j := by
  obtain ⟨lower, order, -⟩ := sets.bounds
  obtain ⟨row, rfl⟩ := Int.eq_ofNat_of_zero_le lower
  obtain ⟨column, rfl⟩ := Int.eq_ofNat_of_zero_le (le_trans lower order)
  have run := write_of_sets sets
  constructor
  · rw [run, get?_int, if_pos ⟨Int.natCast_nonneg _, Int.natCast_nonneg _⟩]
    simp only [Int.toNat_natCast, lookup_insertTerm, if_true]
  · intro a b differs
    rw [run, get?_int, get?_int]
    split
    · rename_i nonnegative
      rw [lookup_insertTerm, if_neg]
      intro same
      apply differs
      rw [← (Prod.mk.inj same).1, ← (Prod.mk.inj same).2, Int.toNat_of_nonneg nonnegative.1,
        Int.toNat_of_nonneg nonnegative.2]
    · rfl
  · rw [run, keys_eq_map, keys_eq_map, map_fst_insertTerm]
    simp only [← keys_eq_map, mem_keys]
    split
    · exact (keys_eq_map p).symm
    · rw [List.map_append, ← keys_eq_map]
      rfl

theorem keys_prefix_write (p : Problem) (w : Write) : p.keys <+: (p.write w).1.keys := by
  rcases keeps_or_sets p w with same | ⟨i, j, sets, -⟩
  · rw [same]
  · rw [(effect_write sets).place]
    split
    · exact List.prefix_refl _
    · exact List.prefix_append _ _

theorem keep_of_not_sets {p : Problem} {w : Write} {i j : Int} (other : ¬w.Sets p.size i j) :
    (p.write w).1.get? (.int i) (.int j) = p.get? (.int i) (.int j) ∧
      ((i, j) ∈ (p.write w).1.keys → (i, j) ∈ p.keys) := by
  rcases keeps_or_sets p w with same | ⟨row, column, sets, -⟩
  · rw [same]
    exact ⟨rfl, id⟩
  · have effect := effect_write sets
    have differs : (i, j) ≠ ((row : Int), (column : Int)) := by
      rintro ⟨⟩
      exact other sets
    refine ⟨effect.others i j differs, ?_⟩
    rw [effect.place]
    split
    · exact id
    · intro member
      rcases List.mem_append.mp member with old | last
      · exact old
      · exact (differs (List.mem_singleton.mp last)).elim

section Histories

variable (p : Problem) (calls : List Write)

theorem size_writeAll : (p.writeAll calls).size = p.size :=
  foldl_invariant (fun state : Problem => state.size = p.size) rfl
    fun w _ state kept => (size_write state w).trans kept

theorem wellFormed_writeAll (wellFormed : p.WellFormed) : (p.writeAll calls).WellFormed :=
  foldl_invariant WellFormed wellFormed fun w _ _ kept => wellFormed_write kept w

theorem keys_prefix_writeAll : p.keys <+: (p.writeAll calls).keys :=
  foldl_invariant (fun state : Problem => p.keys <+: state.keys) (List.prefix_refl _)
    fun w _ state kept => kept.trans (keys_prefix_write state w)

theorem keep_of_none_sets {i j : Int} (none : ∀ w ∈ calls, ¬w.Sets p.size i j) :
    (p.writeAll calls).get? (.int i) (.int j) = p.get? (.int i) (.int j) ∧
      ((i, j) ∈ (p.writeAll calls).keys → (i, j) ∈ p.keys) := by
  have kept : (p.writeAll calls).size = p.size ∧
      (p.writeAll calls).get? (.int i) (.int j) = p.get? (.int i) (.int j) ∧
      ((i, j) ∈ (p.writeAll calls).keys → (i, j) ∈ p.keys) := by
    apply foldl_invariant (fun state : Problem => state.size = p.size ∧
      state.get? (.int i) (.int j) = p.get? (.int i) (.int j) ∧
      ((i, j) ∈ state.keys → (i, j) ∈ p.keys)) ⟨rfl, rfl, id⟩
    rintro w member state ⟨size, value, absent⟩
    have step := keep_of_not_sets (p := state) (size ▸ none w member)
    exact ⟨(size_write state w).trans size, step.1.trans value, absent ∘ step.2⟩
  exact kept.2

theorem writeAll_split (earlier later : List Write) (w : Write) :
    p.writeAll (earlier ++ w :: later) = ((p.writeAll earlier).write w).1.writeAll later := by
  rw [writeAll, List.foldl_append, List.foldl_cons]
  rfl

end Histories

theorem get?_last {p : Problem} {earlier later : List Write} {w : Write} {i j : Int}
    (sets : w.Sets p.size i j) (last : ∀ u ∈ later, ¬u.Sets p.size i j) :
    (p.writeAll (earlier ++ w :: later)).get? (.int i) (.int j) = .ok (some w.value) := by
  have size := size_writeAll p earlier
  have after := size_write (p.writeAll earlier) w
  rw [size] at after
  rw [writeAll_split, (keep_of_none_sets _ later (after ▸ last)).1]
  exact (effect_write (size ▸ sets)).written

theorem keys_first {p : Problem} {earlier later : List Write} {w : Write} {i j : Int}
    (new : (i, j) ∉ p.keys) (sets : w.Sets p.size i j)
    (first : ∀ u ∈ earlier, ¬u.Sets p.size i j) :
    (p.writeAll (earlier ++ w :: later)).keys[(p.writeAll earlier).terms.length]? =
      some (i, j) := by
  have size := size_writeAll p earlier
  have absent : (i, j) ∉ (p.writeAll earlier).keys :=
    fun member => new ((keep_of_none_sets p earlier first).2 member)
  have place := (effect_write (size ▸ sets : w.Sets (p.writeAll earlier).size i j)).place
  obtain ⟨rest, whole⟩ := keys_prefix_writeAll ((p.writeAll earlier).write w).1 later
  have length : (p.writeAll earlier).terms.length = (p.writeAll earlier).keys.length := by
    simp [keys]
  rw [if_neg absent] at place
  rw [writeAll_split, ← whole, place, length, List.append_assoc]
  simp

/-- Whatever indices the calls of a history have, its terms are on and above the diagonal and of
different pairs. A call is refused for its indices alone, and the terms are those of the calls that
were taken, at the place of the first and with the value of the last of their pair. -/
theorem coefficient_history (size : Int) (calls : List Write) :
    ((empty size).writeAll calls).size = size ∧
    (∀ key ∈ ((empty size).writeAll calls).keys,
      0 ≤ key.1 ∧ key.1 ≤ key.2 ∧ key.2 < size) ∧
    ((empty size).writeAll calls).keys.Nodup ∧
    (∀ w, ((empty size).writeAll calls).Outcomes w) ∧
    (∀ w, (((empty size).writeAll calls).write w).2 = .ok () → ∃ i j : Int, w.Sets size i j ∧
      w.first.number.truncate = .ok i ∧ w.second.number.truncate = .ok j ∧
      ((empty size).writeAll calls).Effect w i j) ∧
    (∀ earlier w later i j, calls = earlier ++ w :: later → w.Sets size i j →
      (∀ u ∈ earlier, ¬u.Sets size i j) →
        ((empty size).writeAll calls).keys[((empty size).writeAll earlier).terms.length]? =
          some (i, j)) ∧
    (∀ earlier w later i j, calls = earlier ++ w :: later → w.Sets size i j →
      (∀ u ∈ later, ¬u.Sets size i j) →
        ((empty size).writeAll calls).get? (.int i) (.int j) = .ok (some w.value)) ∧
    (∀ i j, (∀ w ∈ calls, ¬w.Sets size i j) →
      ((empty size).writeAll calls).get? (.int i) (.int j) = .ok none) := by
  have sized : ((empty size).writeAll calls).size = size := size_writeAll (empty size) calls
  have wellFormed := wellFormed_writeAll (empty size) calls (wellFormed_empty size)
  refine ⟨sized, ?_, ?_, outcomes_write _, ?_, ?_, ?_, ?_⟩
  · intro key member
    obtain ⟨term, stored, rfl⟩ := List.mem_map.mp member
    have bounds := wellFormed.upper term stored
    rw [sized] at bounds
    exact ⟨Int.natCast_nonneg _, Int.ofNat_le.mpr bounds.1, bounds.2⟩
  · rw [keys_eq_map]
    apply wellFormed.distinct.map
    rintro ⟨i, j⟩ ⟨k, l⟩ same
    simpa using same
  · intro w taken
    obtain ⟨i, j, sets⟩ := sets_of_taken taken
    obtain ⟨-, -, -, truncated, truncatedOther⟩ := Write.sets_iff.mp sets
    exact ⟨i, j, sized ▸ sets, truncated, truncatedOther, effect_write sets⟩
  · rintro earlier w later i j rfl sets first
    exact keys_first (by simp [keys, empty]) sets first
  · rintro earlier w later i j rfl sets last
    exact get?_last sets last
  · intro i j none
    rw [(keep_of_none_sets (empty size) calls none).1, get?_int]
    split <;> rfl

theorem coefficient_history_overwritten :
    let half : Index := .ofFloat (.ofBits 0x3FE0000000000000)
    let threeHalves : Index := .ofFloat (.ofBits 0x3FF8000000000000)
    let yes : Index := ⟨.bool true, .int 1, rfl⟩
    let final := (empty 3).writeAll [⟨half, threeHalves, .int 7⟩, ⟨.ofInt 2, .ofInt 1, .int 8⟩,
      ⟨yes, .ofInt 2, .int 9⟩, ⟨.ofInt 0, .ofInt 1, .int 5⟩]
    final.keys[0]? = some (0, 1) ∧ final.get? (.int 0) (.int 1) = .ok (some (.int 5)) := by
  intro half threeHalves yes final
  obtain ⟨-, -, -, -, -, first, last, -⟩ := coefficient_history 3
    [⟨half, threeHalves, .int 7⟩, ⟨.ofInt 2, .ofInt 1, .int 8⟩, ⟨yes, .ofInt 2, .int 9⟩,
      ⟨.ofInt 0, .ofInt 1, .int 5⟩]
  constructor
  · exact first [] _ _ 0 1 rfl (Write.sets_iff.mpr ⟨rfl, rfl, rfl, rfl, rfl⟩) (by simp)
  · exact last [_, _, _] _ [] 0 1 rfl (Write.sets_iff.mpr ⟨rfl, rfl, rfl, rfl, rfl⟩) (by simp)

end Problem

end BinaryQuadratic
