import BinaryQuadratic.Json.Reader
import BinaryQuadratic.Proofs.KeyOrder

/-!
Texts in JSON text. What is written is a text by its code units, so that it is read back with every
two halves of a surrogate pair that stand together in place of the character they encode.
-/

namespace BinaryQuadratic

namespace CodePoint

def units : CodePoint → List Nat
  | char c =>
    if c.toNat < 0x10000 then [c.toNat]
    else [0xD800 + (c.toNat - 0x10000) / 0x400, 0xDC00 + (c.toNat - 0x10000) % 0x400]
  | surrogate offset => [firstSurrogate + offset]

theorem char_valid (c : Char) : c.toNat < 0xD800 ∨ 0xDFFF < c.toNat ∧ c.toNat < 0x110000 := c.valid

theorem units_lt (p : CodePoint) : ∀ n ∈ p.units, n < 0x10000 := by
  cases p with
  | char c =>
      have valid := char_valid c
      rw [units]
      split
      · simpa
      · simp only [List.forall_mem_cons]
        exact ⟨by omega, by omega, nofun⟩
  | surrogate offset =>
      have bound := offset.isLt
      simp only [units, firstSurrogate, List.forall_mem_singleton]
      omega

theorem units_ofNat {n : Nat} (small : n < 0x10000) : (ofNat n).units = [n] := by
  rw [ofNat]
  split
  · rename_i low
    have whole : firstSurrogate + (n - firstSurrogate) = n := by omega
    simp [units, whole]
  · rename_i other
    have valid : n.isValidChar := by
      rw [Nat.isValidChar]
      rw [firstSurrogate] at other
      omega
    rw [units, Char.toNat_ofNat, if_pos valid, if_pos small]

theorem units_pair {high low : Nat} (first : Json.isHighSurrogate high = true)
    (second : Json.isLowSurrogate low = true) :
    (ofNat (0x10000 + (high - 0xD800) * 0x400 + (low - 0xDC00))).units = [high, low] := by
  simp only [Json.isHighSurrogate, Json.isLowSurrogate, Bool.and_eq_true, decide_eq_true_eq]
    at first second
  have valid : (0x10000 + (high - 0xD800) * 0x400 + (low - 0xDC00)).isValidChar := by
    rw [Nat.isValidChar]
    omega
  rw [ofNat, dif_neg, units, Char.toNat_ofNat, if_pos valid, if_neg]
  · simp only [List.cons.injEq, and_true]
    omega
  · omega
  · rw [firstSurrogate]
    omega

end CodePoint

namespace Json

theorem units_joinUnits {units : List Nat} (small : ∀ n ∈ units, n < 0x10000) :
    (joinUnits units).flatMap CodePoint.units = units := by
  fun_induction joinUnits units with
  | case1 => rfl
  | case2 n => simp [CodePoint.units_ofNat (small n List.mem_cons_self)]
  | case3 high low rest pair ih =>
      rw [Bool.and_eq_true] at pair
      simp only [List.forall_mem_cons] at small
      rw [List.flatMap_cons, CodePoint.units_pair pair.1 pair.2, ih small.2.2]
      rfl
  | case4 high low rest apart ih =>
      rw [List.forall_mem_cons] at small
      rw [List.flatMap_cons, CodePoint.units_ofNat small.1, ih small.2]
      rfl

theorem joinUnits_alone {n : Nat} (alone : isHighSurrogate n = false) (units : List Nat) :
    joinUnits (n :: units) = .ofNat n :: joinUnits units := by
  cases units with
  | nil => rfl
  | cons low rest => rw [joinUnits, alone, Bool.false_and, if_neg Bool.false_ne_true]

end Json

namespace Text

def units (t : Text) : List Nat := t.points.flatMap CodePoint.units

/-- A text with the characters that two halves encode in their place. -/
def joined (t : Text) : Text := ⟨Json.joinUnits t.units⟩

theorem units_lt (t : Text) : ∀ n ∈ t.units, n < 0x10000 := by
  intro n member
  obtain ⟨p, -, inside⟩ := List.mem_flatMap.mp member
  exact p.units_lt n inside

theorem units_joined (t : Text) : t.joined.units = t.units := Json.units_joinUnits t.units_lt

theorem isEmpty_units (t : Text) : t.units.isEmpty = t.isEmpty := by
  obtain ⟨points⟩ := t
  cases points with
  | nil => rfl
  | cons p rest =>
      cases p with
      | char c =>
          rw [units, List.flatMap_cons, CodePoint.units]
          split <;> rfl
      | surrogate offset => rfl

theorem isEmpty_joined (t : Text) : t.joined.isEmpty = t.isEmpty := by
  rw [← isEmpty_units, units_joined, isEmpty_units]

theorem joinUnits_chars (cs : List Char) :
    Json.joinUnits ((cs.map CodePoint.char).flatMap CodePoint.units) = cs.map CodePoint.char := by
  induction cs with
  | nil => rfl
  | cons c rest ih =>
      have valid := CodePoint.char_valid c
      have point := CodePoint.ofNat_toNat (.char c)
      rw [CodePoint.toNat] at point
      rw [List.map_cons, List.flatMap_cons, CodePoint.units]
      split
      · have alone : Json.isHighSurrogate c.toNat = false := by
          simp only [Json.isHighSurrogate, Bool.and_eq_false_iff, decide_eq_false_iff_not]
          omega
        rw [List.singleton_append, Json.joinUnits_alone alone, ih, point]
      · have pair : (Json.isHighSurrogate (0xD800 + (c.toNat - 0x10000) / 0x400) &&
            Json.isLowSurrogate (0xDC00 + (c.toNat - 0x10000) % 0x400)) = true := by
          simp only [Json.isHighSurrogate, Json.isLowSurrogate, Bool.and_eq_true, decide_eq_true_eq]
          omega
        have code : 0x10000 + (0xD800 + (c.toNat - 0x10000) / 0x400 - 0xD800) * 0x400 +
            (0xDC00 + (c.toNat - 0x10000) % 0x400 - 0xDC00) = c.toNat := by omega
        rw [List.cons_append, List.singleton_append, Json.joinUnits, if_pos pair, code, ih, point]

theorem isPlain_iff {t : Text} :
    t.isPlain = true ↔ ∀ offset, CodePoint.surrogate offset ∉ t.points := by
  rw [isPlain, List.all_eq_true]
  constructor
  · intro plain offset member
    cases plain _ member
  · intro whole p member
    cases p with
    | char c => rfl
    | surrogate offset => exact (whole offset member).elim

theorem eq_ofChars_of_isPlain {t : Text} (plain : t.isPlain = true) : t = ofChars t.chars := by
  obtain ⟨points⟩ := t
  rw [ofChars, chars, Text.mk.injEq, List.map_map]
  apply (List.map_id points).symm.trans
  apply List.map_congr_left
  intro p member
  cases p with
  | char c => rfl
  | surrogate offset => exact (isPlain_iff.mp plain offset member).elim

theorem joined_of_isPlain {t : Text} (plain : t.isPlain = true) : t.joined = t := by
  rw [eq_ofChars_of_isPlain plain, joined, units, ofChars, joinUnits_chars]

theorem isPlain_of_units {t : Text} (low : ∀ n ∈ t.units, n < 0xD800) : t.isPlain = true := by
  rw [isPlain_iff]
  intro offset member
  have inside : CodePoint.firstSurrogate + offset ∈ t.units :=
    List.mem_flatMap.mpr ⟨_, member, List.mem_singleton_self _⟩
  have bound := low _ inside
  rw [CodePoint.firstSurrogate] at bound
  omega

theorem joined_eq_iff {t key : Text} (low : ∀ n ∈ key.units, n < 0xD800) :
    t.joined = key ↔ t = key := by
  constructor
  · intro same
    have units : t.units = key.units := by rw [← same, units_joined]
    rw [← same, joined_of_isPlain (isPlain_of_units (units ▸ low))]
  · rintro rfl
    exact joined_of_isPlain (isPlain_of_units low)

theorem hexValue?_hexDigit {n : Nat} (small : n < 16) : hexValue? (hexDigit n) = some n := by
  interval_cases n <;> rfl

theorem readDigits?_hexDigits {width n : Nat} (positive : 0 < width) (small : n < 16 ^ width) :
    readDigits? 16 (hexDigits width n) = some n := by
  have present : (hexDigits width n).isEmpty = false := by
    cases width with
    | zero => cases positive
    | succ width => simp [hexDigits]
  rw [readDigits?, present, if_neg Bool.false_ne_true]
  clear positive present
  induction width generalizing n with
  | zero =>
      have zero : n = 0 := by omega
      rw [zero]
      rfl
  | succ width ih =>
      have quotient : n / 16 < 16 ^ width := by omega
      have digit : n % 16 < 16 := Nat.mod_lt _ (by decide)
      rw [hexDigits, List.foldlM_append, ih quotient, Option.bind_eq_bind, Option.bind_some,
        List.foldlM_cons, hexValue?_hexDigit digit, Option.bind_some, if_pos digit,
        Nat.div_add_mod]
      rfl

end Text

namespace Json

variable {rest after : List Char} {units : List Nat}

theorem readUnits_escapeUnit {n : Nat} (small : n < 0x10000)
    (read : readUnits rest = some (units, after)) :
    readUnits (escapeUnit n ++ rest) = some (n :: units, after) := by
  have hex : hexUnit? (Text.hexDigit (n / 16 / 16 / 16 % 16)) (Text.hexDigit (n / 16 / 16 % 16))
      (Text.hexDigit (n / 16 % 16)) (Text.hexDigit (n % 16)) = some n :=
    Text.readDigits?_hexDigits (by decide : 0 < 4) small
  change readUnits ('\\' :: 'u' :: _ :: _ :: _ :: _ :: rest) = _
  rw [readUnits, hex, read]
  rfl

theorem readUnits_escapeChar {c : Char} (small : c.toNat < 0x10000)
    (read : readUnits rest = some (units, after)) :
    readUnits (escapeChar c ++ rest) = some (c.toNat :: units, after) := by
  have short {e : Char} (escape : shortEscape? e = some c) (other : e ≠ 'u') :
      readUnits ('\\' :: e :: rest) = some (c.toNat :: units, after) := by
    rw [readUnits, escape, read]
    · rfl
    · rintro _ _ _ _ _ same _
      exact other same
  unfold escapeChar
  -- the seven characters that are escaped by a letter or by themselves
  iterate 7
    split
    · rename_i same
      exact short (by rw [same]; rfl) (by decide)
  split
  · rename_i noQuote noSlash _ _ _ _ _ visible
    rw [Bool.and_eq_true, decide_eq_true_eq] at visible
    rw [List.singleton_append, readUnits, if_neg noQuote, if_neg, read]
    · rfl
    · simp [noSlash, visible.1]
    · rintro _ _ _ _ _ same _
      exact noSlash same
    · rintro _ _ same _
      exact noSlash same
  · exact readUnits_escapeUnit small read

theorem escapePoint_surrogate {n : Nat} (lower : 0xD800 ≤ n) (upper : n < 0xE000) :
    escapePoint (.ofNat n) = escapeUnit n := by
  have half : CodePoint.firstSurrogate ≤ n ∧ n - CodePoint.firstSurrogate < 0x800 := by
    rw [CodePoint.firstSurrogate]
    omega
  rw [CodePoint.ofNat, dif_pos half, escapePoint, Nat.add_sub_cancel' half.1]

theorem escapePoint_units (p : CodePoint) :
    escapePoint p = p.units.flatMap fun n => escapePoint (.ofNat n) := by
  have point := CodePoint.ofNat_toNat p
  cases p with
  | char c =>
      have valid := CodePoint.char_valid c
      rw [CodePoint.units]
      split
      · rw [List.flatMap_singleton]
        exact congrArg escapePoint point.symm
      · rename_i large
        have visible : ¬(decide (32 ≤ c.toNat) && decide (c.toNat < 127)) = true := by
          simp only [Bool.and_eq_true, decide_eq_true_eq]
          omega
        have apart {d : Char} (low : d.toNat < 0x10000) : c ≠ d := by
          rintro rfl
          exact large low
        rw [List.flatMap_cons, List.flatMap_singleton, escapePoint_surrogate (by omega) (by omega),
          escapePoint_surrogate (by omega) (by omega), escapePoint, escapeChar,
          if_neg (apart (by decide)), if_neg (apart (by decide)), if_neg (apart (by decide)),
          if_neg (apart (by decide)), if_neg (apart (by decide)), if_neg (apart (by decide)),
          if_neg (apart (by decide)), if_neg visible, if_neg large]
  | surrogate offset =>
      rw [CodePoint.units, List.flatMap_singleton]
      exact congrArg escapePoint point.symm

theorem escape_units (t : Text) :
    t.points.flatMap escapePoint = t.units.flatMap fun n => escapePoint (.ofNat n) := by
  rw [Text.units, List.flatMap_assoc]
  exact List.flatMap_congr fun p _ => escapePoint_units p

theorem escape_joined (t : Text) :
    t.joined.points.flatMap escapePoint = t.points.flatMap escapePoint := by
  rw [escape_units, Text.units_joined, ← escape_units]

theorem readUnits_escapePoint {n : Nat} (small : n < 0x10000)
    (read : readUnits rest = some (units, after)) :
    readUnits (escapePoint (.ofNat n) ++ rest) = some (n :: units, after) := by
  by_cases half : 0xD800 ≤ n ∧ n < 0xE000
  · rw [escapePoint_surrogate half.1 half.2]
    exact readUnits_escapeUnit small read
  · have valid : n.isValidChar := by
      rw [Nat.isValidChar]
      omega
    have code : (Char.ofNat n).toNat = n := by rw [Char.toNat_ofNat, if_pos valid]
    rw [CodePoint.ofNat, dif_neg, escapePoint]
    · have result := readUnits_escapeChar (c := Char.ofNat n) (by rwa [code]) read
      rwa [code] at result
    · rw [CodePoint.firstSurrogate]
      omega

theorem readUnits_escapes {rest : List Char} (small : ∀ n ∈ units, n < 0x10000) :
    readUnits (units.flatMap (fun n => escapePoint (.ofNat n)) ++ '\u0022' :: rest) =
      some (units, rest) := by
  induction units with
  | nil => rfl
  | cons n units ih =>
      rw [List.forall_mem_cons] at small
      rw [List.flatMap_cons, List.append_assoc]
      exact readUnits_escapePoint small.1 (ih small.2)

theorem escapeUnit_unix (n : Nat) : '\r' ∉ escapeUnit n := by
  have digit (m : Nat) : '\r' ≠ Text.hexDigit (m % 16) := by
    have small : m % 16 < 16 := Nat.mod_lt _ (by decide)
    generalize m % 16 = d at small ⊢
    interval_cases d <;> decide
  have shape : escapeUnit n = ['\\', 'u', Text.hexDigit (n / 16 / 16 / 16 % 16),
      Text.hexDigit (n / 16 / 16 % 16), Text.hexDigit (n / 16 % 16), Text.hexDigit (n % 16)] := rfl
  simp [shape, digit]

theorem escapePoint_unix (p : CodePoint) : '\r' ∉ escapePoint p := by
  cases p with
  | char d =>
      rw [escapePoint, escapeChar]
      iterate 7
        split
        · decide
      split
      · rename_i turn _ _ _ _
        simpa using Ne.symm turn
      split
      · exact escapeUnit_unix _
      · rw [List.mem_append, not_or]
        exact ⟨escapeUnit_unix _, escapeUnit_unix _⟩
  | surrogate offset => exact escapeUnit_unix _

theorem readText_escapes (t : Text) (tail : List Char) :
    readText (t.points.flatMap escapePoint ++ '\u0022' :: tail) = .ok (t.joined, tail) := by
  rw [readText, escape_units, readUnits_escapes t.units_lt]
  rfl

end Json

end BinaryQuadratic
