import BinaryQuadratic.Proofs.Binary64.ShortestDecimal
import BinaryQuadratic.Proofs.Binary64.WrittenDigits

/-!
Written numbers without a sign. A point among digits and a power of ten behind them keep their
value, so that what a layout writes for a number is nearest to that number.
-/

namespace BinaryQuadratic

namespace Literal

inductive WritesPower : List Char → Option Int → Prop
  | absent : WritesPower [] none
  | present {digits : List Char} {power : Int} (all : ∀ c ∈ digits, c.isDigit = true)
      (nonempty : digits ≠ []) (read : natOfDigits digits = power.natAbs) :
      WritesPower ('e' :: (if power < 0 then '-' else '+') :: digits) (some power)

/-- A written number without a sign: digits, a point where digits follow it, and a power of ten. -/
structure Numeral where
  whole : List Char
  fraction : List Char
  power : Option Int
  suffix : List Char
  form : IsWhole whole
  all : ∀ c ∈ fraction, c.isDigit = true
  raised : WritesPower suffix power

namespace Numeral

def pointed (fraction : List Char) : List Char := if fraction = [] then [] else '.' :: fraction

def text (n : Numeral) : List Char := n.whole ++ (pointed n.fraction ++ n.suffix)

def digits (n : Numeral) : List Char := n.whole ++ n.fraction

def decimal (n : Numeral) : Binary64.Decimal :=
  ⟨natOfDigits n.digits, n.power.getD 0 - n.fraction.length⟩

def number (n : Numeral) (negative : Bool) : Float :=
  Binary64.ofBits negative n.decimal.magnitudeBits

def ofNat (k : Nat) : Numeral :=
  ⟨Nat.toDigits 10 k, [], none, [], isWhole_toDigits k, nofun, .absent⟩

theorem text_ofNat (k : Nat) : (ofNat k).text = Nat.toDigits 10 k := List.append_nil _

theorem decimal_ofNat (k : Nat) : (ofNat k).decimal = ⟨k, 0⟩ := by
  rw [decimal, digits, ofNat, List.append_nil, natOfDigits_toDigits]
  rfl

theorem isDigit_digits (n : Numeral) : ∀ c ∈ n.digits, c.isDigit = true := by
  rw [digits, List.forall_mem_append]
  exact ⟨n.form.all, n.all⟩

theorem ofDecimal_digits (n : Numeral) (negative : Bool) :
    Binary64.ofDecimal negative (natOfDigits n.digits) (n.digits.dropWhile (· = '0')).length
      (n.power.getD 0 - n.fraction.length) = n.number negative := by
  have upper : natOfDigits n.digits < 10 ^ (n.digits.dropWhile (· = '0')).length := by
    rw [← natOfDigits_dropWhile]
    apply natOfDigits_lt
    intro c member
    exact n.isDigit_digits c ((List.dropWhile_sublist _).subset member)
  exact Binary64.ofDecimal_eq (d := n.decimal) negative
    (fun positive => (significant_bounds n.isDigit_digits positive).1) upper

theorem exists_head (n : Numeral) : ∃ c rest, n.text = c :: rest ∧ c.isDigit = true := by
  have all := n.form.all
  rw [text]
  rcases n.form.lead with zero | ⟨c, rest, shape, -⟩
  · rw [zero]
    exact ⟨'0', _, rfl, rfl⟩
  · rw [shape] at all ⊢
    exact ⟨c, _, rfl, all c List.mem_cons_self⟩

section Stops

variable {tail : List Char}

theorem head_suffix {suffix : List Char} {power : Option Int} (raised : WritesPower suffix power)
    (stop : ∀ c ∈ tail.head?, c.isDigit = false ∧ c ≠ '.') :
    ∀ c ∈ (suffix ++ tail).head?, c.isDigit = false ∧ c ≠ '.' := by
  cases raised with
  | absent => exact stop
  | present all nonempty read =>
      rintro _ ⟨⟩
      decide

theorem head_pointed (fraction : List Char) (stop : ∀ c ∈ tail.head?, c.isDigit = false) :
    ∀ c ∈ (pointed fraction ++ tail).head?, c.isDigit = false := by
  rw [pointed]
  split
  · exact stop
  · rintro _ ⟨⟩
    rfl

end Stops

theorem mem_suffix {suffix : List Char} {power : Option Int} (raised : WritesPower suffix power)
    {c : Char} (member : c ∈ suffix) : c.isDigit = true ∨ c ∈ ['.', 'e', '+', '-'] := by
  cases raised with
  | absent => cases member
  | present all _ _ =>
      rw [List.mem_cons, List.mem_cons] at member
      rcases member with rfl | rfl | digit
      · exact .inr (by decide)
      · split <;> exact .inr (by decide)
      · exact .inl (all c digit)

theorem mem_text {n : Numeral} {c : Char} (member : c ∈ n.text) :
    c.isDigit = true ∨ c ∈ ['.', 'e', '+', '-'] := by
  rw [text, List.mem_append, List.mem_append] at member
  rcases member with whole | fraction | suffix
  · exact .inl (n.form.all c whole)
  · rw [pointed] at fraction
    split at fraction
    · cases fraction
    · rcases List.mem_cons.mp fraction with rfl | behind
      · exact .inr (by decide)
      · exact .inl (n.all c behind)
  · exact mem_suffix n.raised suffix

end Numeral

end Literal

namespace Binary64

open Literal

/-- A text that shows digits with a point at some place, with zeros where there are too few of
them, as a number of the same value. -/
def Splits (digits : List Char) (whole : Int) (text : List Char) : Prop :=
  ∃ front back, text = front ++ '.' :: back ∧ IsWhole front ∧
    (∀ c ∈ back, c.isDigit = true) ∧ back ≠ [] ∧
    (natOfDigits (front ++ back) : ℚ) * 10 ^ (-(back.length : Int)) =
      natOfDigits digits * 10 ^ (whole - digits.length)

section Positional

variable {digits : List Char} {size : Nat}

theorem splits_before (all : ∀ c ∈ digits, c.isDigit = true) (nonempty : digits ≠ []) {whole : Int}
    (behind : whole ≤ 0) : Splits digits whole (positional digits whole) := by
  refine ⟨['0'], List.replicate (-whole).toNat '0' ++ digits, ?_, isWhole_zero, ?_, ?_, ?_⟩
  · rw [positional, if_pos behind, List.singleton_append]
  · rw [List.forall_mem_append]
    exact ⟨isDigit_replicate _, all⟩
  · simp [nonempty]
  · have place : -((List.replicate (-whole).toNat '0' ++ digits).length : Int) =
        whole - digits.length := by
      rw [List.length_append, List.length_replicate]
      omega
    have leading := natOfDigits_zeros_append 1 (List.replicate (-whole).toNat '0' ++ digits)
    rw [place, ← natOfDigits_zeros_append (-whole).toNat digits, ← leading]
    rfl

theorem splits_inside (all : ∀ c ∈ digits, c.isDigit = true)
    (lead : ∃ c rest, digits = c :: rest ∧ c ≠ '0') (inside : size + 1 < digits.length) :
    Splits digits (size + 1 : Nat) (positional digits (size + 1 : Nat)) := by
  obtain ⟨c, rest, shape, nonzero⟩ := lead
  have remains : digits.drop (size + 1) ≠ [] := by
    rw [ne_eq, List.drop_eq_nil_iff]
    omega
  refine ⟨digits.take (size + 1), digits.drop (size + 1), ?_,
    ⟨?_, .inr ⟨c, rest.take size, ?_, nonzero⟩⟩, ?_, remains, ?_⟩
  · have unpadded : size + 1 - digits.length = 0 := by omega
    have behind : ¬((size + 1 : Nat) : Int) ≤ 0 := by omega
    simp only [positional, if_neg behind, Int.toNat_natCast, unpadded]
    simp [remains]
  · intro d member
    exact all d (List.mem_of_mem_take member)
  · rw [shape, List.take_succ_cons]
  · intro d member
    exact all d (List.mem_of_mem_drop member)
  · have place : -((digits.length - (size + 1) : Nat) : Int) =
        (size + 1 : Nat) - digits.length := by omega
    rw [List.take_append_drop, List.length_drop, place]

theorem splits_behind (all : ∀ c ∈ digits, c.isDigit = true)
    (lead : ∃ c rest, digits = c :: rest ∧ c ≠ '0') (outside : digits.length ≤ size + 1) :
    Splits digits (size + 1 : Nat) (positional digits (size + 1 : Nat)) := by
  obtain ⟨c, rest, shape, nonzero⟩ := lead
  refine ⟨digits ++ List.replicate (size + 1 - digits.length) '0', ['0'], ?_,
    ⟨?_, .inr ⟨c, rest ++ List.replicate (size + 1 - digits.length) '0', ?_, nonzero⟩⟩,
    isDigit_replicate 1, by simp, ?_⟩
  · have behind : ¬((size + 1 : Nat) : Int) ≤ 0 := by omega
    simp only [positional, if_neg behind, Int.toNat_natCast]
    rw [List.take_of_length_le outside, List.drop_of_length_le outside]
    rfl
  · rw [List.forall_mem_append]
    exact ⟨all, isDigit_replicate _⟩
  · rw [shape, List.cons_append]
  · have place : ((size + 1 : Nat) : Int) - digits.length = (size + 1 - digits.length : Nat) := by
      omega
    rw [place, zpow_natCast, List.append_assoc, natOfDigits_append digits,
      natOfDigits_zeros_append, List.length_append, List.length_replicate,
      List.length_singleton, Nat.pow_succ]
    push_cast
    rw [zpow_neg, zpow_one]
    simp [natOfDigits]
    ring

theorem positional_split (all : ∀ c ∈ digits, c.isDigit = true)
    (lead : ∃ c rest, digits = c :: rest ∧ c ≠ '0') (whole : Int) :
    Splits digits whole (positional digits whole) := by
  by_cases behind : whole ≤ 0
  · obtain ⟨c, rest, shape, -⟩ := lead
    exact splits_before all (by simp [shape]) behind
  · obtain ⟨size, rfl⟩ : ∃ size : Nat, whole = (size + 1 : Nat) := ⟨(whole - 1).toNat, by omega⟩
    by_cases inside : size + 1 < digits.length
    · exact splits_inside all lead inside
    · exact splits_behind all lead (Nat.le_of_not_lt inside)

end Positional

theorem scientific_split (c : Char) (rest : List Char) (position : Int) :
    ∃ suffix, WritesPower suffix (some position) ∧
      scientific (c :: rest) position = [c] ++ (Numeral.pointed rest ++ suffix) := by
  have digits := isDigit_toDigits position.natAbs
  have read := natOfDigits_toDigits position.natAbs
  refine ⟨'e' :: (if position < 0 then '-' else '+') ::
    (if (Nat.toDigits 10 position.natAbs).length < 2 then
      '0' :: Nat.toDigits 10 position.natAbs else Nat.toDigits 10 position.natAbs),
    .present ?_ ?_ ?_, ?_⟩
  · split
    · rw [List.forall_mem_cons]
      exact ⟨rfl, digits⟩
    · exact digits
  · split
    · simp
    · rename_i long
      rintro none
      rw [none] at long
      exact long (by decide)
  · split
    · exact (natOfDigits_zeros_append 1 _).trans read
    · exact read
  · cases rest with
    | nil => simp [scientific, Numeral.pointed]
    | cons d others => simp [scientific, Numeral.pointed]

theorem Layout.magnitude_numeral {x : Float} {negative : Bool} {mantissa : Nat} {exponent : Int}
    (layout : Layout) (found : parts x = .finite negative mantissa exponent) :
    ∃ n : Numeral, layout.magnitude mantissa exponent = n.text ∧
      (n.fraction ≠ [] ∨ n.power.isSome = true) ∧ n.number negative = x := by
  have whole := ofBits_of_parts found
  rcases Nat.eq_zero_or_pos mantissa with rfl | positive
  · have least : exponent = -1074 := by
      have bounds := parts_bounds found
      omega
    rw [least] at whole
    exact ⟨⟨['0'], ['0'], none, [], isWhole_zero, isDigit_replicate 1, .absent⟩, rfl,
      .inl (by simp), whole⟩
  · have size : (toString (shortest mantissa exponent).digits).toList =
        Nat.toDigits 10 (shortest mantissa exponent).digits := by
      rw [Nat.toString_eq_ofList_toDigits, String.toList_ofList]
    have nearest {n : Numeral} (same : n.decimal.value = (shortest mantissa exponent).value) :
        n.number negative = x := by
      rw [Numeral.number, magnitudeBits_shortest found positive same, whole]
    have lead := toDigits_lead (shortest_positive found positive)
    have all := isDigit_toDigits (shortest mantissa exponent).digits
    have read := natOfDigits_toDigits (shortest mantissa exponent).digits
    rw [Layout.magnitude, if_neg positive.ne']
    dsimp only
    rw [size]
    split
    · obtain ⟨front, back, shape, form, backDigits, nonempty, value⟩ := positional_split all lead
        ((shortest mantissa exponent).exponent +
          (Nat.toDigits 10 (shortest mantissa exponent).digits).length)
      refine ⟨⟨front, back, none, [], form, backDigits, .absent⟩, ?_, .inl nonempty, nearest ?_⟩
      · rw [sub_add_cancel, shape, Numeral.text, Numeral.pointed, if_neg nonempty, List.append_nil]
      · rw [Decimal.value, Decimal.value, Numeral.decimal, Numeral.digits, Option.getD_none,
          zero_sub, value, read, add_sub_cancel_right]
    · obtain ⟨c, rest, shape, nonzero⟩ := lead
      rw [shape] at all read ⊢
      rw [List.forall_mem_cons] at all
      obtain ⟨suffix, raised, written⟩ := scientific_split c rest
        ((shortest mantissa exponent).exponent + (c :: rest).length - 1)
      have form : IsWhole [c] := by
        refine ⟨?_, .inr ⟨c, [], rfl, nonzero⟩⟩
        rw [List.forall_mem_singleton]
        exact all.1
      have place : (shortest mantissa exponent).exponent + (c :: rest).length - 1 - rest.length =
          (shortest mantissa exponent).exponent := by
        rw [List.length_cons]
        omega
      refine ⟨⟨[c], rest, _, suffix, form, all.2, raised⟩, written, .inr rfl, nearest ?_⟩
      rw [Decimal.value, Decimal.value, Numeral.decimal, Numeral.digits, List.singleton_append,
        read, Option.getD_some, place]

theorem not_mem_signed {mark : Char} (minus : mark ≠ '-') (negative : Bool) {cs : List Char}
    (inside : mark ∉ cs) : mark ∉ signed negative cs := by
  cases negative with
  | false => exact inside
  | true =>
      rw [signed, if_pos rfl, List.mem_cons, not_or]
      exact ⟨minus, inside⟩

theorem not_mem_render {mark : Char} (other : mark.isDigit = false) (layout : Layout) (x : Float)
    (strange : mark ∉ ['.', 'e', '+', '-'])
    (words : mark ∉ layout.notANumber.toList ++ layout.infinity.toList) :
    mark ∉ (layout.render x).toList := by
  have minus : mark ≠ '-' := by
    rintro rfl
    exact strange (by decide)
  rw [List.mem_append, not_or] at words
  rw [Layout.render]
  cases found : parts x with
  | notANumber => exact words.1
  | infinite negative =>
      rw [String.toList_ofList]
      exact not_mem_signed minus negative words.2
  | finite negative mantissa exponent =>
      obtain ⟨n, written, -, -⟩ := layout.magnitude_numeral found
      rw [String.toList_ofList, written]
      apply not_mem_signed minus
      intro inside
      rcases Numeral.mem_text inside with digit | sign
      · rw [other] at digit
        cases digit
      · exact strange sign

theorem toList_toString_int (n : Int) :
    (toString n).toList = signed (decide (n < 0)) (Nat.toDigits 10 n.natAbs) := by
  have digits (k : Nat) : (toString k).toList = Nat.toDigits 10 k := by
    rw [Nat.toString_eq_ofList_toDigits, String.toList_ofList]
  cases n with
  | ofNat k => exact digits k
  | negSucc k =>
      change ("-" ++ toString (k + 1)).toList = _
      rw [String.toList_append, digits, decide_eq_true (Int.negSucc_lt_zero k), signed, if_pos rfl]
      rfl

theorem not_mem_toString_int {mark : Char} (other : mark.isDigit = false) (minus : mark ≠ '-')
    (n : Int) : mark ∉ (toString n).toList := by
  rw [toList_toString_int]
  exact not_mem_signed minus _ (not_mem_toDigits other _)

end Binary64

end BinaryQuadratic
