import Mathlib.Tactic.IntervalCases
import Mathlib.Tactic.Ring
import BinaryQuadratic.Number.Literal

/-!
Numbers as lists of digits. Digits are read one after the other, zeros in front of them do not
count, and those of a natural number are read as that number.
-/

namespace BinaryQuadratic

namespace Literal

variable {digits tail : List Char}

theorem span_digits (all : ∀ c ∈ digits, c.isDigit = true)
    (stop : ∀ c ∈ tail.head?, c.isDigit = false) :
    (digits ++ tail).takeWhile Char.isDigit = digits ∧
      (digits ++ tail).dropWhile Char.isDigit = tail := by
  rw [List.takeWhile_append_of_pos all, List.dropWhile_append_of_pos all]
  cases tail with
  | nil => simp
  | cons c rest =>
      have other := stop c rfl
      simp [other]

theorem natOfDigits_append (front back : List Char) :
    natOfDigits (front ++ back) = natOfDigits front * 10 ^ back.length + natOfDigits back := by
  change Nat.ofDigitChars 10 (front ++ back) 0 = Nat.ofDigitChars 10 front 0 * _ + _
  rw [Nat.ofDigitChars_append, Nat.ofDigitChars_eq_ofDigitChars_zero, mul_comm]
  rfl

theorem natOfDigits_zeros (count : Nat) : natOfDigits (List.replicate count '0') = 0 := by
  induction count with
  | zero => rfl
  | succ count ih =>
      rw [List.replicate_succ', natOfDigits_append, ih, Nat.zero_mul]
      rfl

theorem natOfDigits_zeros_append (count : Nat) (digits : List Char) :
    natOfDigits (List.replicate count '0' ++ digits) = natOfDigits digits := by
  rw [natOfDigits_append, natOfDigits_zeros, Nat.zero_mul, Nat.zero_add]

theorem natOfDigits_toDigits (n : Nat) : natOfDigits (Nat.toDigits 10 n) = n :=
  Nat.ofDigitChars_ten_toDigits

theorem digit_toNat {c : Char} (digit : c.isDigit = true) : 48 ≤ c.toNat ∧ c.toNat ≤ 57 := by
  rw [Char.isDigit, Bool.and_eq_true, decide_eq_true_eq, decide_eq_true_eq] at digit
  exact digit

theorem natOfDigits_lt (all : ∀ c ∈ digits, c.isDigit = true) :
    natOfDigits digits < 10 ^ digits.length := by
  induction digits with
  | nil => decide
  | cons c rest ih =>
      rw [List.forall_mem_cons] at all
      have digit := digit_toNat all.1
      have bound := ih all.2
      have split := natOfDigits_append [c] rest
      have head : natOfDigits [c] = c.toNat - 48 := by simp [natOfDigits]
      rw [List.singleton_append, head] at split
      rw [split, List.length_cons, Nat.pow_succ]
      have most : (c.toNat - 48) * 10 ^ rest.length ≤ 9 * 10 ^ rest.length :=
        Nat.mul_le_mul_right _ (by omega)
      omega

theorem pow_le_natOfDigits {c : Char} {rest : List Char} (digit : c.isDigit = true)
    (nonzero : c ≠ '0') : 10 ^ rest.length ≤ natOfDigits (c :: rest) := by
  have bounds := digit_toNat digit
  have positive : 1 ≤ c.toNat - 48 := by
    refine Nat.pos_of_ne_zero ?_
    intro zero
    apply nonzero
    rw [← Char.toNat_inj]
    change c.toNat = 48
    omega
  have head : natOfDigits [c] = c.toNat - 48 := by simp [natOfDigits]
  rw [← List.singleton_append, natOfDigits_append, head]
  calc 10 ^ rest.length
      = 1 * 10 ^ rest.length := (Nat.one_mul _).symm
    _ ≤ (c.toNat - 48) * 10 ^ rest.length := Nat.mul_le_mul_right _ positive
    _ ≤ _ := Nat.le_add_right ..

theorem natOfDigits_dropWhile (digits : List Char) :
    natOfDigits (digits.dropWhile (· = '0')) = natOfDigits digits := by
  induction digits with
  | nil => rfl
  | cons c rest ih =>
      by_cases zero : c = '0'
      · subst zero
        rw [List.dropWhile_cons_of_pos (by decide), ih]
        exact (natOfDigits_zeros_append 1 rest).symm
      · rw [List.dropWhile_cons_of_neg (by simpa using zero)]

theorem significant_bounds (all : ∀ c ∈ digits, c.isDigit = true)
    (positive : 0 < natOfDigits digits) :
    10 ^ ((digits.dropWhile (· = '0')).length - 1) ≤ natOfDigits digits ∧
      natOfDigits digits < 10 ^ (digits.dropWhile (· = '0')).length := by
  rw [← natOfDigits_dropWhile] at positive ⊢
  have kept : ∀ c ∈ digits.dropWhile (· = '0'), c.isDigit = true := by
    intro c member
    exact all c ((List.dropWhile_sublist _).subset member)
  refine ⟨?_, natOfDigits_lt kept⟩
  cases shape : digits.dropWhile (· = '0') with
  | nil =>
      rw [shape] at positive
      exact positive
  | cons c rest =>
      have present : digits.dropWhile (· = '0') ≠ [] := by simp [shape]
      have nonzero := List.head_dropWhile_not (· = '0') present
      rw [shape] at kept
      simp only [shape, List.head_cons, decide_eq_false_iff_not] at nonzero
      exact pow_le_natOfDigits (kept c List.mem_cons_self) nonzero

structure IsWhole (digits : List Char) : Prop where
  all : ∀ c ∈ digits, c.isDigit = true
  lead : digits = ['0'] ∨ ∃ c rest, digits = c :: rest ∧ c ≠ '0'

theorem isDigit_toDigits (n : Nat) : ∀ c ∈ Nat.toDigits 10 n, c.isDigit = true :=
  fun _ member => Nat.isDigit_of_mem_toDigits (by decide) (by decide) member

theorem not_mem_toDigits {mark : Char} (other : mark.isDigit = false) (n : Nat) :
    mark ∉ Nat.toDigits 10 n := by
  intro member
  rw [isDigit_toDigits n mark member] at other
  cases other

theorem isWhole_toDigits (n : Nat) : IsWhole (Nat.toDigits 10 n) := by
  refine ⟨isDigit_toDigits n, ?_⟩
  induction n using Nat.strongRecOn with
  | ind n ih =>
      by_cases small : n < 10
      · rw [Nat.toDigits_of_lt_base small]
        interval_cases n
        · exact .inl rfl
        all_goals exact .inr ⟨_, _, rfl, by decide⟩
      · rw [Nat.toDigits_of_base_le (by decide) (Nat.le_of_not_lt small)]
        rcases ih (n / 10) (by omega) with zero | ⟨c, rest, shape, nonzero⟩
        · have read := natOfDigits_toDigits (n / 10)
          rw [zero] at read
          change 0 = n / 10 at read
          omega
        · rw [shape]
          exact .inr ⟨c, _, rfl, nonzero⟩

theorem toDigits_lead {n : Nat} (positive : 0 < n) :
    ∃ c rest, Nat.toDigits 10 n = c :: rest ∧ c ≠ '0' := by
  rcases (isWhole_toDigits n).lead with zero | lead
  · have read := natOfDigits_toDigits n
    rw [zero] at read
    change 0 = n at read
    omega
  · exact lead

theorem isDigit_replicate (count : Nat) : ∀ c ∈ List.replicate count '0', c.isDigit = true := by
  intro c member
  rw [List.eq_of_mem_replicate member]
  rfl

theorem isWhole_zero : IsWhole ['0'] := ⟨isDigit_replicate 1, .inl rfl⟩

end Literal

end BinaryQuadratic
