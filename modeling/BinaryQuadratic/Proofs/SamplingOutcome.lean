import BinaryQuadratic.Proofs.Exhaustive

/-!
The outcomes of sampling. A problem whose coefficients can be read is refused for its size, for
its size limit or for the requested number of entries, and for nothing else.
-/

namespace BinaryQuadratic

open Binary64

theorem integerText_of_short {n : Int} (short : n.natAbs < 10 ^ Literal.digitLimit) :
    integerText n = .ok (toString n) := by
  rw [integerText, Nat.pow_eq, if_pos short]

theorem integerText_of_long {n : Int} (long : 10 ^ Literal.digitLimit ≤ n.natAbs) :
    integerText n = .error .writtenDigits := by
  rw [integerText, Nat.pow_eq, if_neg (Nat.not_lt.mpr long)]

namespace Solver

variable {ν : Type} {p : Problem}

def Supplies (d : Datum) : Option Int → Prop
  | none => d = .null
  | some n => Value.toInt d = .ok n

def Within (limit : Option Int) (size : Int) : Prop := ∀ most, limit = some most → size ≤ most

def Allowed (size : Int) (requested : Option Int) : Prop :=
  0 ≤ size ∧ ∀ length, requested = some length → 0 ≤ length ∧ length ≤ 2 ^ size.toNat

inductive LengthRefusal (size : Int) (requested : Option Int) : Fault → Prop
  | noCombinations : size < 0 → LengthRefusal size requested .negativeSize
  | negative (length : Int) : 0 ≤ size → requested = some length → length < 0 →
      LengthRefusal size requested (.violation (.outOfRange "record_length"))
  | excessive (length : Int) : 0 ≤ size → requested = some length → 2 ^ size.toNat < length →
      LengthRefusal size requested
        (.violation (.invalidOperation .recordLengthExceedsCombinations))

/-- Why the exhaustive solver refuses a problem. A size with too many digits for a message has a
fault of its own. -/
inductive Refusal (size : Int) (limit requested : Option Int) : Fault → Prop
  | size : ¬Within limit size → size.natAbs < 10 ^ Literal.digitLimit →
      Refusal size limit requested
        (.violation ⟨.unsupported, .problemSizeNotSupported, some (toString size : String)⟩)
  | digits : ¬Within limit size → 10 ^ Literal.digitLimit ≤ size.natAbs →
      Refusal size limit requested .writtenDigits
  | length {fault : Fault} : Within limit size → LengthRefusal size requested fault →
      Refusal size limit requested fault

theorem combinations_of_negative {size : Int} (negative : size < 0) :
    combinations size = .error .negativeSize := by
  rw [combinations, if_pos negative]
  rfl

theorem combinations_of_nonnegative {size : Int} (small : size < 1024) (nonnegative : 0 ≤ size) :
    combinations size = .ok (2 ^ size.toNat) := by
  obtain ⟨n, rfl⟩ := Int.eq_ofNat_of_zero_le nonnegative
  rw [combinations_ok (by omega), Int.toNat_natCast, Nat.cast_pow]
  rfl

theorem recordLength_of_refusal {requested : Datum} {r : Option Int} {fault : Fault}
    (small : p.size < 1024) (asked : Supplies requested r)
    (refused : LengthRefusal p.size r fault) : p.recordLength requested = .error fault := by
  rw [Problem.recordLength]
  cases refused with
  | noCombinations negative =>
      rw [combinations_of_negative negative]
      rfl
  | negative length nonnegative some below =>
      subst some
      rw [combinations_of_nonnegative small nonnegative, ok_bind, isNull_of_toInt asked,
        if_neg (by decide), asked, ok_bind, if_pos below]
      rfl
  | excessive length nonnegative some above =>
      subst some
      have positive : (0 : Int) ≤ 2 ^ p.size.toNat := by positivity
      rw [combinations_of_nonnegative small nonnegative, ok_bind, isNull_of_toInt asked,
        if_neg (by decide), asked, ok_bind, if_neg (by omega), if_pos above]
      rfl

theorem recordLength_of_allowed {requested : Datum} {r : Option Int} (small : p.size < 1024)
    (asked : Supplies requested r) (allowed : Allowed p.size r) :
    ∃ length : Nat, p.recordLength requested = .ok length := by
  obtain ⟨nonnegative, bounded⟩ := allowed
  rw [Problem.recordLength, combinations_of_nonnegative small nonnegative, ok_bind]
  cases r with
  | none =>
      refine ⟨2 ^ p.size.toNat, ?_⟩
      rw [show requested = .null from asked, Nat.cast_pow]
      rfl
  | some length =>
      obtain ⟨lower, upper⟩ := bounded length rfl
      obtain ⟨n, rfl⟩ := Int.eq_ofNat_of_zero_le lower
      refine ⟨n, ?_⟩
      rw [isNull_of_toInt asked, if_neg (by decide), asked, ok_bind, if_neg (by omega),
        if_neg (by omega)]
      rfl

theorem allowed_or_refused (size : Int) (requested : Option Int) :
    Allowed size requested ∨ ∃ fault, LengthRefusal size requested fault := by
  by_cases negative : size < 0
  · exact .inr ⟨_, .noCombinations negative⟩
  · have nonnegative : 0 ≤ size := Int.not_lt.mp negative
    cases requested with
    | none => exact .inl ⟨nonnegative, by intro length missing; cases missing⟩
    | some length =>
        by_cases below : length < 0
        · exact .inr ⟨_, .negative length nonnegative rfl below⟩
        · by_cases above : 2 ^ size.toNat < length
          · exact .inr ⟨_, .excessive length nonnegative rfl above⟩
          · refine .inl ⟨nonnegative, ?_⟩
            intro other same
            cases same
            exact ⟨Int.not_lt.mp below, Int.not_lt.mp above⟩

theorem exceedsOptional_eq (p : Problem) {limit : Datum} {m : Option Int} (limited : Supplies limit m) :
    ∃ exceeded : Bool, exceedsOptional p limit = .ok exceeded ∧
      (exceeded = false ↔ Within m p.size) := by
  cases m with
  | none =>
      rw [show limit = .null from limited]
      refine ⟨false, rfl, ?_⟩
      simp [Within]
  | some most =>
      refine ⟨decide (most < p.size), ?_, ?_⟩
      · rw [exceedsOptional, isNull_of_toInt limited, if_neg (by decide), exceeds, limited]
        rfl
      · simp [Within]

theorem sample_within {limit requested : Datum} {m : Option Int} (limited : Supplies limit m)
    (within : Within m p.size) : (exhaustive limit : Solver ν).sample p requested =
      p.recordLength requested >>= enumerate p := by
  obtain ⟨exceeded, run, reading⟩ := exceedsOptional_eq p limited
  rw [reading.mpr within] at run
  rw [sample, run]
  rfl

theorem sample_beyond {limit requested : Datum} {m : Option Int} (limited : Supplies limit m)
    (beyond : ¬Within m p.size) : (exhaustive limit : Solver ν).sample p requested =
      integerText p.size >>= fun size =>
        .error (.violation ⟨.unsupported, .problemSizeNotSupported, some size⟩) := by
  obtain ⟨exceeded, run, reading⟩ := exceedsOptional_eq p limited
  rw [← reading, Bool.not_eq_false] at beyond
  rw [sample, run, beyond, ok_bind, if_pos rfl]
  cases integerText p.size with
  | ok size => rfl
  | error fault => rfl

theorem sample_of_refusal {limit requested : Datum} {m r : Option Int} {fault : Fault}
    (small : p.size < 1024) (limited : Supplies limit m) (asked : Supplies requested r)
    (refused : Refusal p.size m r fault) :
    (exhaustive limit : Solver ν).sample p requested = .error fault := by
  cases refused with
  | size beyond short => rw [sample_beyond limited beyond, integerText_of_short short, ok_bind]
  | digits beyond long =>
      rw [sample_beyond limited beyond, integerText_of_long long]
      rfl
  | length within refused =>
      rw [sample_within limited within, recordLength_of_refusal small asked refused]
      rfl

theorem sample_of_allowed {limit requested : Datum} {m r : Option Int} (small : p.size < 1024)
    (numbers : p.HasCoefficients fun _ => True) (limited : Supplies limit m)
    (asked : Supplies requested r) (within : Within m p.size) (allowed : Allowed p.size r) :
    ∃ record, (exhaustive limit : Solver ν).sample p requested = .ok record := by
  obtain ⟨size, sized⟩ := Int.eq_ofNat_of_zero_le allowed.1
  obtain ⟨length, run⟩ := recordLength_of_allowed small asked allowed
  obtain ⟨_, _, -, -, enumerated⟩ := enumerate_eq sized (by omega) numbers length
  rw [sample_within limited within, run, ok_bind, enumerated]
  exact ⟨_, rfl⟩

theorem sample_cases {limit requested : Datum} {m r : Option Int} (small : p.size < 1024)
    (numbers : p.HasCoefficients fun _ => True) (limited : Supplies limit m)
    (asked : Supplies requested r) :
    (Within m p.size ∧ Allowed p.size r ∧
      ∃ record, (exhaustive limit : Solver ν).sample p requested = .ok record) ∨
    ∃ fault, Refusal p.size m r fault ∧
      (exhaustive limit : Solver ν).sample p requested = .error fault := by
  by_cases within : Within m p.size
  · rcases allowed_or_refused p.size r with allowed | ⟨fault, refused⟩
    · exact .inl ⟨within, allowed, sample_of_allowed small numbers limited asked within allowed⟩
    · have refusal := Refusal.length within refused
      exact .inr ⟨fault, refusal, sample_of_refusal small limited asked refusal⟩
  · by_cases short : p.size.natAbs < 10 ^ Literal.digitLimit
    · have refusal : Refusal p.size m r _ := .size within short
      exact .inr ⟨_, refusal, sample_of_refusal small limited asked refusal⟩
    · have refusal : Refusal p.size m r _ := .digits within (Nat.le_of_not_lt short)
      exact .inr ⟨_, refusal, sample_of_refusal small limited asked refusal⟩

theorem sample_error_iff {limit requested : Datum} {m r : Option Int} {fault : Fault}
    (small : p.size < 1024) (numbers : p.HasCoefficients fun _ => True)
    (limited : Supplies limit m) (asked : Supplies requested r) :
    (exhaustive limit : Solver ν).sample p requested = .error fault ↔
      Refusal p.size m r fault := by
  constructor
  · intro run
    rcases sample_cases small numbers limited asked with ⟨-, -, _, returned⟩ | ⟨_, refused, failed⟩
    · cases returned.symm.trans run
    · cases failed.symm.trans run
      exact refused
  · exact sample_of_refusal small limited asked

theorem sample_ok_iff {limit requested : Datum} {m r : Option Int} (small : p.size < 1024)
    (numbers : p.HasCoefficients fun _ => True) (limited : Supplies limit m)
    (asked : Supplies requested r) :
    (∃ record, (exhaustive limit : Solver ν).sample p requested = .ok record) ↔
      Within m p.size ∧ Allowed p.size r := by
  constructor
  · rintro ⟨record, run⟩
    rcases sample_cases small numbers limited asked with ⟨within, allowed, -⟩ | ⟨_, -, failed⟩
    · exact ⟨within, allowed⟩
    · cases failed.symm.trans run
  · rintro ⟨within, allowed⟩
    exact sample_of_allowed small numbers limited asked within allowed

theorem within_none (size : Int) : Within none size := by
  intro most missing
  cases missing

theorem refusal_none {size : Int} {r : Option Int} {fault : Fault} :
    Refusal size none r fault ↔ LengthRefusal size r fault := by
  constructor
  · intro refused
    cases refused with
    | size beyond _ => exact (beyond (within_none size)).elim
    | digits beyond _ => exact (beyond (within_none size)).elim
    | length _ refused => exact refused
  · exact .length (within_none size)

theorem hardware_of_refusal {requested : Datum} {r : Option Int} {fault : Fault} (solverName : ν)
    (small : p.size < 1024) (asked : Supplies requested r)
    (refused : LengthRefusal p.size r fault) :
    (hardware solverName hardwareLimit).sample p requested = .error fault := by
  rw [sample, recordLength_of_refusal small asked refused]
  rfl

theorem hardware_of_allowed {requested : Datum} {r : Option Int} (solverName : ν)
    (small : p.size < 1024) (asked : Supplies requested r) (allowed : Allowed p.size r) :
    (hardware solverName hardwareLimit).sample p requested = .error (.violation (.unsupported
      (if 4 < p.size then .hardwareSamplingLargerThanFour else .minorEmbeddingNotSupported))) := by
  obtain ⟨length, run⟩ := recordLength_of_allowed small asked allowed
  have compared : exceeds p hardwareLimit = .ok (decide (4 < p.size)) := by rfl
  rw [sample, run, ok_bind, compared, ok_bind]
  by_cases large : 4 < p.size
  · rw [decide_eq_true large, if_pos large]
    rfl
  · rw [decide_eq_false large, if_neg large]
    rfl

theorem hardware_error_iff {requested : Datum} {r : Option Int} {fault : Fault} (solverName : ν)
    (small : p.size < 1024) (numbers : p.HasCoefficients fun _ => True)
    (asked : Supplies requested r) :
    (hardware solverName hardwareLimit).sample p requested = .error fault ↔
      (exhaustive .null : Solver ν).sample p requested = .error fault ∨
        (∃ record, (exhaustive .null : Solver ν).sample p requested = .ok record) ∧
          (4 < p.size ∧ fault = .violation (.unsupported .hardwareSamplingLargerThanFour) ∨
            p.size ≤ 4 ∧ fault = .violation (.unsupported .minorEmbeddingNotSupported)) := by
  have missing : Supplies .null none := rfl
  rcases sample_cases small numbers missing asked with
    ⟨-, allowed, returned⟩ | ⟨other, refused, failed⟩
  · have answer := hardware_of_allowed solverName small asked allowed
    constructor
    · intro refusal
      cases answer.symm.trans refusal
      refine .inr ⟨returned, ?_⟩
      by_cases large : 4 < p.size
      · exact .inl ⟨large, by rw [if_pos large]⟩
      · exact .inr ⟨Int.not_lt.mp large, by rw [if_neg large]⟩
    · rintro (failed | ⟨-, ⟨large, rfl⟩ | ⟨small, rfl⟩⟩)
      · obtain ⟨record, run⟩ := returned
        cases run.symm.trans failed
      · rw [if_pos large] at answer
        exact answer
      · rw [if_neg (Int.not_lt.mpr small)] at answer
        exact answer
  · have answer := hardware_of_refusal solverName small asked (refusal_none.mp refused)
    constructor
    · intro refusal
      cases answer.symm.trans refusal
      exact .inl failed
    · rintro (same | ⟨⟨record, returned⟩, -⟩)
      · cases failed.symm.trans same
        exact answer
      · cases failed.symm.trans returned

theorem hardware_ne_ok {requested : Datum} {r : Option Int} (solverName : ν)
    (small : p.size < 1024) (asked : Supplies requested r) (record : Record Assignment) :
    (hardware solverName hardwareLimit).sample p requested ≠ .ok record := by
  intro returned
  rcases allowed_or_refused p.size r with allowed | ⟨fault, refused⟩
  · cases (hardware_of_allowed solverName small asked allowed).symm.trans returned
  · cases (hardware_of_refusal solverName small asked refused).symm.trans returned

/-- An exhaustive solver fails exactly with the faults of a refusal and otherwise returns a
record, the one that it returns without a limit. The hardware never returns one: it fails like the
exhaustive solver without a limit, and where that one returns, for what it does not support. -/
theorem sampling_outcome {limit requested : Datum} {m r : Option Int} (solverName : ν)
    (small : p.size < 1024) (numbers : p.HasCoefficients fun _ => True)
    (limited : Supplies limit m) (asked : Supplies requested r) :
    let run := (exhaustive limit : Solver ν).sample p requested
    let unlimited := (exhaustive .null : Solver ν).sample p requested
    let unsupported := (hardware solverName hardwareLimit).sample p requested
    (∀ fault, run = .error fault ↔ Refusal p.size m r fault) ∧
      ((∃ record, run = .ok record) ↔ Within m p.size ∧ Allowed p.size r) ∧
      (∀ record, run = .ok record → unlimited = .ok record) ∧
      (∀ fault, unlimited = .error fault ↔ LengthRefusal p.size r fault) ∧
      (∀ record, unsupported ≠ .ok record) ∧
      ∀ fault, unsupported = .error fault ↔
        unlimited = .error fault ∨
          (∃ record, unlimited = .ok record) ∧
            (4 < p.size ∧ fault = .violation (.unsupported .hardwareSamplingLargerThanFour) ∨
              p.size ≤ 4 ∧ fault = .violation (.unsupported .minorEmbeddingNotSupported)) := by
  intro run unlimited unsupported
  have missing : Supplies .null none := rfl
  refine ⟨fun fault => sample_error_iff small numbers limited asked,
    sample_ok_iff small numbers limited asked, ?_, ?_, hardware_ne_ok solverName small asked,
    fun fault => hardware_error_iff solverName small numbers asked⟩
  · intro record returned
    have within := ((sample_ok_iff small numbers limited asked).mp ⟨record, returned⟩).1
    rw [← returned]
    exact (sample_within missing (within_none p.size)).trans (sample_within limited within).symm
  · intro fault
    exact (sample_error_iff small numbers missing asked).trans refusal_none

theorem sampling_outcome_pair :
    (exhaustive (.int 2) : Solver Unit).sample ⟨2, [((0, 1), .int 1)]⟩ (.int (-1)) =
        .error (.violation (.outOfRange "record_length")) ∧
      (∃ record, (exhaustive (.int 2) : Solver Unit).sample ⟨2, [((0, 1), .int 1)]⟩ (.int 4) =
        .ok record) ∧
      (hardware () hardwareLimit).sample ⟨2, [((0, 1), .int 1)]⟩ (.int 4) =
        .error (.violation (.unsupported .minorEmbeddingNotSupported)) := by
  have numbers : Problem.HasCoefficients ⟨2, [((0, 1), .int 1)]⟩ fun _ => True := by
    intro term member
    rw [List.mem_singleton.mp member]
    exact ⟨1.0, toFloat_one, trivial⟩
  have limited : Supplies (.int 2) (some 2) := rfl
  have below : Supplies (.int (-1)) (some (-1)) := rfl
  have whole : Supplies (.int 4) (some 4) := rfl
  have within : Within (some 2) 2 := by simp [Within]
  have allowed : Allowed 2 (some 4) := by simp [Allowed]
  obtain ⟨refused, -⟩ := sampling_outcome () (by decide) numbers limited below
  obtain ⟨-, returned, same, -, -, unsupported⟩ :=
    sampling_outcome () (by decide) numbers limited whole
  obtain ⟨record, run⟩ := returned.mpr ⟨within, allowed⟩
  refine ⟨?_, ⟨record, run⟩, ?_⟩
  · exact (refused _).mpr (.length within (.negative (-1) (by decide) rfl (by decide)))
  · exact (unsupported _).mpr (.inr ⟨⟨record, same record run⟩, .inr ⟨by decide, rfl⟩⟩)

/-- A size with more digits than a message can have exceeds a limit without being named. -/
theorem not_size_refusal_iff : ¬ ∀ (p : Problem) (most : Int), p.size < 1024 →
    p.HasCoefficients (fun _ => True) →
      ((∃ text, (exhaustive (.int most) : Solver Unit).sample p .null =
          .error (.violation ⟨.unsupported, .problemSizeNotSupported, text⟩)) ↔
        most < p.size) := by
  intro claimed
  obtain ⟨size, long, negative⟩ : ∃ size : Int,
      10 ^ Literal.digitLimit ≤ size.natAbs ∧ size < 0 := by
    refine ⟨-((10 ^ Literal.digitLimit : Nat) : Int), ?_, ?_⟩
    · rw [Int.natAbs_neg, Int.natAbs_natCast]
    · exact Int.neg_neg_of_pos (Int.natCast_pos.mpr (Nat.pow_pos (by decide)))
  have numbers : (Problem.empty size).HasCoefficients fun _ => True := by
    intro term member
    cases member
  have small : (Problem.empty size).size < 1024 := Int.lt_trans negative (by decide)
  have below : size - 1 < (Problem.empty size).size := Int.sub_one_lt_of_le (Int.le_refl size)
  have limited : Supplies (.int (size - 1)) (some (size - 1)) := rfl
  have beyond : ¬Within (some (size - 1)) (Problem.empty size).size := by
    intro within
    exact Int.not_le.mpr below (within (size - 1) rfl)
  obtain ⟨text, named⟩ := (claimed (.empty size) (size - 1) small numbers).mpr below
  have unnamed : integerText (Problem.empty size).size = .error .writtenDigits :=
    integerText_of_long long
  rw [sample_beyond limited beyond, unnamed] at named
  cases named

end Solver

end BinaryQuadratic
