import BinaryQuadratic.Json.Reader
import BinaryQuadratic.Json.Writer
import BinaryQuadratic.Proofs.Binary64.Numerals

/-!
Numbers in JSON text. The digits of an integer, and those of a binary64 number in whatever layout,
are read as the number that they were written for.
-/

namespace BinaryQuadratic

namespace Json

open Binary64 Literal

def Closed (tail : List Char) : Prop := ∀ c ∈ tail.head?, c = ',' ∨ c = '\n'

variable {negative : Bool} {whole fraction tail : List Char}

theorem Closed.stop (closed : Closed tail) :
    ∀ c ∈ tail.head?, c.isDigit = false ∧ c ≠ '.' := by
  intro c head
  rcases closed c head with rfl | rfl
  · decide
  · decide

theorem readWhole_append (form : IsWhole whole) (stop : ∀ c ∈ tail.head?, c.isDigit = false) :
    readWhole (whole ++ tail) = some (whole, tail) := by
  rcases form.lead with rfl | ⟨c, rest, rfl, nonzero⟩
  · rfl
  · obtain ⟨taken, dropped⟩ := span_digits form.all stop
    rw [readWhole, taken, dropped]
    · rfl
    · rintro _ ⟨⟩
      exact nonzero rfl

theorem readFraction_append (all : ∀ c ∈ fraction, c.isDigit = true) (nonempty : fraction ≠ [])
    (stop : ∀ c ∈ tail.head?, c.isDigit = false) :
    readFraction ('.' :: (fraction ++ tail)) = (fraction, tail) := by
  obtain ⟨taken, dropped⟩ := span_digits all stop
  have present : fraction.isEmpty = false := by simpa using nonempty
  rw [readFraction, taken, dropped, if_neg (by simp [present])]

theorem readFraction_none (other : ∀ c ∈ tail.head?, c ≠ '.') : readFraction tail = ([], tail) := by
  cases tail with
  | nil => rfl
  | cons c rest =>
      rw [readFraction]
      rintro _ ⟨⟩
      exact other '.' rfl rfl

theorem readExponent_none (closed : Closed tail) : readExponent tail = (none, tail) := by
  cases tail with
  | nil => rfl
  | cons c rest =>
      rcases closed c rfl with rfl | rfl
      · rfl
      · rfl

theorem readNumber_int (negative : Bool) {n : Nat} (short : n < 10 ^ digitLimit)
    (closed : Closed tail) : readNumber negative (Nat.toDigits 10 n ++ tail) =
      .ok (.int (applySign negative n), tail) := by
  have stop : ∀ c ∈ tail.head?, c.isDigit = false := fun c head => (closed.stop c head).1
  have other : ∀ c ∈ tail.head?, c ≠ '.' := fun c head => (closed.stop c head).2
  have length : ¬digitLimit < (Nat.toDigits 10 n).length := by
    rw [Nat.not_lt, Nat.length_toDigits_le_iff (by decide) (by decide)]
    exact short
  simp only [readNumber, readWhole_append (isWhole_toDigits n) stop, readFraction_none other,
    readExponent_none closed, List.append_nil, List.isEmpty_nil, Option.isNone_none, Bool.and_true,
    if_true, if_neg length, natOfDigits_toDigits]

theorem readFraction_pointed (all : ∀ c ∈ fraction, c.isDigit = true)
    (stop : ∀ c ∈ tail.head?, c.isDigit = false ∧ c ≠ '.') :
    readFraction (Numeral.pointed fraction ++ tail) = (fraction, tail) := by
  rw [Numeral.pointed]
  split
  · rename_i none
    rw [none]
    exact readFraction_none fun c head => (stop c head).2
  · rename_i some
    exact readFraction_append all some fun c head => (stop c head).1

theorem readExponent_suffix {suffix : List Char} {power : Option Int}
    (raised : WritesPower suffix power) (closed : Closed tail) :
    readExponent (suffix ++ tail) = (power, tail) := by
  cases raised with
  | absent => exact readExponent_none closed
  | @present digits power all nonempty read =>
      obtain ⟨taken, dropped⟩ := span_digits all fun c head => (closed.stop c head).1
      have present : digits.isEmpty = false := by simpa using nonempty
      by_cases below : power < 0
      · have sign : -(natOfDigits digits : Int) = power := by omega
        simp [readExponent, splitSign, below, taken, dropped, present, applySign, sign]
      · have sign : (natOfDigits digits : Int) = power := by omega
        simp [readExponent, splitSign, below, taken, dropped, present, applySign, sign]

theorem readNumber_numeral (n : Numeral) (negative : Bool)
    (float : n.fraction ≠ [] ∨ n.power.isSome = true) (closed : Closed tail) :
    readNumber negative (n.text ++ tail) = .ok (.float (n.number negative), tail) := by
  have behind := Numeral.head_suffix n.raised closed.stop
  have stop := Numeral.head_pointed n.fraction fun c head => (behind c head).1
  have notInteger : (n.fraction.isEmpty && n.power.isNone) = false := by
    rcases float with some | some
    · simp [some]
    · simp [Option.isNone_eq_false_iff, some]
  rw [← n.ofDecimal_digits, Numeral.text, List.append_assoc, List.append_assoc]
  simp only [readNumber, readWhole_append n.form stop, readFraction_pointed n.all behind,
    readExponent_suffix n.raised closed, notInteger]
  rfl

theorem readNumber_magnitude {x : Float} {mantissa : Nat} {exponent : Int} (layout : Layout)
    (found : parts x = .finite negative mantissa exponent) (closed : Closed tail) :
    readNumber negative (layout.magnitude mantissa exponent ++ tail) = .ok (.float x, tail) := by
  obtain ⟨n, written, float, number⟩ := layout.magnitude_numeral found
  rw [written, readNumber_numeral n negative float closed, number]

theorem readScalar_signed {cs : List Char} {result : Datum × List Char}
    (read : readNumber negative cs = .ok result) : readScalar (signed negative cs) = .ok result := by
  cases cs with
  | nil => cases read
  | cons c rest =>
      have digit : c.isDigit = true := by
        by_contra other
        have apart : c ≠ '0' := by
          rintro rfl
          exact other rfl
        have none : readWhole (c :: rest) = .none := by
          rw [readWhole]
          · simp [other]
          · rintro _ ⟨⟩
            exact apart rfl
        rw [readNumber, none] at read
        cases read
      have apart (d : Char) (other : d.isDigit = false) : d ≠ c := by
        rintro rfl
        rw [other] at digit
        cases digit
      cases negative with
      | false =>
          have word : readWord (c :: rest) = none := by
            simp [readWord, words, apart]
          rw [signed, if_neg Bool.false_ne_true, readScalar, word]
          · exact read
          · rintro _ ⟨⟩
            exact apart _ rfl rfl
          · rintro _ ⟨⟩
            exact apart _ rfl rfl
      | true =>
          have word : readWord ('-' :: c :: rest) = none := by
            simp [readWord, words, apart]
          rw [signed, if_pos rfl, readScalar, word]
          exact read

theorem readScalar_float (x : Float) (closed : Closed tail) :
    readScalar ((Layout.document.render x).toList ++ tail) = .ok (.float x, tail) := by
  rcases parts_cases x with rfl | ⟨negative, rfl⟩ | ⟨negative, mantissa, exponent, found⟩
  · rfl
  · cases negative with
    | false => rfl
    | true => rfl
  · have read := readScalar_signed (readNumber_magnitude Layout.document found closed)
    rw [Layout.render, found, String.toList_ofList]
    cases negative with
    | false => exact read
    | true => exact read

theorem readScalar_int {n : Int} (short : n.natAbs < 10 ^ digitLimit) (closed : Closed tail) :
    readScalar ((toString n).toList ++ tail) = .ok (.int n, tail) := by
  have read := readScalar_signed
    (readNumber_int (decide (n < 0)) short closed)
  rw [toList_toString_int]
  by_cases below : n < 0
  · have whole : applySign true n.natAbs = n := by
      rw [applySign, if_pos rfl]
      omega
    rw [decide_eq_true below] at read ⊢
    rw [whole] at read
    exact read
  · have whole : applySign false n.natAbs = n := by
      rw [applySign, if_neg Bool.false_ne_true]
      omega
    rw [decide_eq_false below] at read ⊢
    rw [whole] at read
    exact read

end Json

end BinaryQuadratic
