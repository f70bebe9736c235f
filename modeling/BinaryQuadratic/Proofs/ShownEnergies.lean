import BinaryQuadratic.Proofs.Binary64.PlainNumerals
import BinaryQuadratic.Proofs.TableFields

/-!
Energies as they are shown. The text of an energy is read as a number equal to it, so that equal
energies and no others have the same text, and a record shows each of its energies on one line.
-/

namespace BinaryQuadratic

open Binary64 Literal

theorem wholePart_zero (exponent : Int) : wholePart 0 exponent = 0 := by
  simp [wholePart, scaleUp_eq]

theorem applySign_zero (negative : Bool) : applySign negative 0 = 0 := by
  cases negative <;> rfl

theorem applySign_neg_iff {k : Nat} (positive : 0 < k) (negative : Bool) :
    decide (applySign negative k < 0) = negative := by
  cases negative with
  | true => simpa [applySign] using positive
  | false => simp [applySign]

/-- The digits of a whole number are nearest to a number equal to it: to itself, unless it is a
negative zero, whose sign is not written. -/
theorem number_wholePart {x : Float} {negative : Bool} {mantissa : Nat} {exponent : Int}
    (found : parts x = .finite negative mantissa exponent)
    (whole : isWhole mantissa exponent = true) :
    ((Numeral.ofNat (wholePart mantissa exponent)).number
      (decide (applySign negative (wholePart mantissa exponent) < 0)) == x) = true := by
  have value := wholePart_eq whole
  rcases Nat.eq_zero_or_pos mantissa with rfl | positive
  · have least : exponent = -1074 := by
      have bounds := parts_bounds found
      omega
    have same := ofBits_of_parts found
    rw [least] at same
    rw [wholePart_zero, applySign_zero, ← same]
    cases negative with
    | false => rfl
    | true => rfl
  · have partPositive : 0 < wholePart mantissa exponent := by
      have product : (0 : ℚ) < mantissa * 2 ^ exponent := by positivity
      rw [← value] at product
      exact_mod_cast product
    have ratio : ((wholePart mantissa exponent : Nat) : ℚ) / (1 : Nat) = mantissa * 2 ^ exponent := by
      rw [Nat.cast_one, div_one, value]
    have decimal : ((wholePart mantissa exponent : Nat) : ℚ) / (1 : Nat) =
        Decimal.value ⟨wholePart mantissa exponent, 0⟩ := by
      simp [Decimal.value]
    have same : (Numeral.ofNat (wholePart mantissa exponent)).number negative = x := by
      rw [Numeral.number, Numeral.decimal_ofNat, Decimal.magnitudeBits_of_value one_pos decimal,
        magnitudeBits_of_value found positive one_pos ratio, ofBits_of_parts found]
    rw [applySign_neg_iff partPositive, same, beq_self_iff]
    exact isNaN_of_isFinite (isFinite_of_parts found)

theorem readFloat?_formatEnergy {x : Float} (number : x.isNaN = false) :
    ∃ y, readFloat? (formatEnergy x).toList = some y ∧ (y == x) = true := by
  have rendered : ∃ y, readFloat? (Layout.plain.render x).toList = some y ∧ (y == x) = true :=
    ⟨x, readFloat?_render x, (beq_self_iff x).mpr number⟩
  rw [formatEnergy]
  split
  · rename_i negative mantissa exponent found
    split
    · rename_i whole
      refine ⟨_, ?_, number_wholePart found whole⟩
      rw [toList_toString_int, applySign_natAbs, ← Numeral.text_ofNat, readFloat?_signed]
    · exact rendered
  · exact rendered

theorem formatEnergy_zero {x : Float} (zero : (x == 0.0) = true) : formatEnergy x = "0" := by
  have whole (exponent : Int) : isWhole 0 exponent = true := by simp [isWhole, scaleUp_eq]
  have shown (negative : Bool) (exponent : Int) (found : parts x = .finite negative 0 exponent) :
      formatEnergy x = "0" := by
    rw [formatEnergy, found]
    dsimp only
    rw [if_pos (whole exponent), wholePart_zero, applySign_zero]
    rfl
  rcases (beq_zero_iff x).mp zero with rfl | rfl
  · exact shown false _ rfl
  · exact shown true _ rfl

theorem formatEnergy_eq_iff {x y : Float} (xNumber : x.isNaN = false) (yNumber : y.isNaN = false) :
    formatEnergy x = formatEnergy y ↔ (x == y) = true := by
  constructor
  · intro same
    obtain ⟨first, firstRead, firstEqual⟩ := readFloat?_formatEnergy xNumber
    obtain ⟨second, secondRead, secondEqual⟩ := readFloat?_formatEnergy yNumber
    rw [same, secondRead] at firstRead
    cases firstRead
    rw [beq_iff] at firstEqual secondEqual ⊢
    exact ⟨xNumber, yNumber, firstEqual.2.2.symm.trans secondEqual.2.2⟩
  · intro same
    rcases eq_or_zeros_of_beq same with rfl | ⟨xZero, yZero⟩
    · rfl
    · rw [formatEnergy_zero xZero, formatEnergy_zero yZero]

theorem not_mem_formatEnergy {mark : Char} (other : mark.isDigit = false)
    (strange : mark ∉ ['.', 'e', '+', '-']) (words : mark ∉ "naninf".toList) (x : Float) :
    mark ∉ (formatEnergy x).toList := by
  have minus : mark ≠ '-' := by
    rintro rfl
    exact strange (by decide)
  have rendered : mark ∉ (Layout.plain.render x).toList := not_mem_render other _ x strange words
  rw [formatEnergy]
  split
  · split
    · exact not_mem_toString_int other minus _
    · exact rendered
  · exact rendered

namespace Record

def shownEnergy (line : List Char) : List Char :=
  (line.dropWhile (· ≠ ' ')).tail.takeWhile (· ≠ '\t')

def shownEnergies (text : String) : List String :=
  (text.toList.splitOn '\n').dropLast.tail.map fun line => String.ofList (shownEnergy line)

theorem shownEnergy_line {number energy rest : List Char} (blankFree : ' ' ∉ number)
    (tabulatorFree : '\t' ∉ energy) :
    shownEnergy (number ++ ' ' :: (energy ++ '\t' :: rest)) = energy := by
  have skipped : ∀ c ∈ number, decide (c ≠ ' ') = true := by
    intro c member
    rw [decide_eq_true_eq]
    rintro rfl
    exact blankFree member
  have kept : ∀ c ∈ energy, decide (c ≠ '\t') = true := by
    intro c member
    rw [decide_eq_true_eq]
    rintro rfl
    exact tabulatorFree member
  rw [shownEnergy, List.dropWhile_append_of_pos skipped, List.dropWhile_cons_of_neg (by simp),
    List.tail_cons, List.takeWhile_append_of_pos kept, List.takeWhile_cons_of_neg (by simp),
    List.append_nil]

namespace IsSampled

variable {r : Record Assignment} {size : Nat} {levels : List (Float × List Int)} {info : RunInfo}

theorem not_mem_shownCells (xs : List Int) : '\n' ∉ (shownCells xs).toList := by
  have digits (n : Int) : '\n' ∉ (toString n).toList := not_mem_toString_int rfl (by decide) n
  have cell (bit : Int × Nat) : '\n' ∉ (s!"q{bit.2}: " ++ toString bit.1 ++ ", ").toList := by
    have index : '\n' ∉ (toString bit.2).toList := digits bit.2
    change '\n' ∉ ("q" ++ toString bit.2 ++ ": " ++ toString bit.1 ++ ", ").toList
    simp only [String.toList_append, List.mem_append, not_or]
    exact ⟨⟨⟨⟨by decide, index⟩, by decide⟩, digits bit.1⟩, by decide⟩
  rw [shownCells, String.toList_append, String.toList_append, String.toList_join, List.flatMap_map,
    List.mem_append, List.mem_append, List.mem_flatMap]
  rintro ((opening | ⟨bit, -, inside⟩) | closing)
  · revert opening
    decide
  · exact cell bit inside
  · revert closing
    decide

theorem toList_shownLine (level : Float × List Int) :
    (shownLine level).toList = (formatEnergy level.1).toList ++
      '\t' :: ((shownCells level.2).toList ++ ['\t', 'x', '1']) := by
  simp only [shownLine, String.toList_append, List.append_assoc]
  rfl

def numberedLine (line : (Float × List Int) × Nat) : List Char :=
  ('(' :: (Nat.toDigits 10 (line.2 + 1) ++ [')'])) ++
    ' ' :: ((formatEnergy line.1.1).toList ++
      '\t' :: ((shownCells line.1.2).toList ++ ['\t', 'x', '1']))

theorem not_mem_number {mark : Char} (other : mark.isDigit = false) (first : mark ≠ '(')
    (last : mark ≠ ')') (k : Nat) : mark ∉ '(' :: (Nat.toDigits 10 k ++ [')']) := by
  simp [first, last, not_mem_toDigits other k]

theorem not_mem_numberedLine (line : (Float × List Int) × Nat) : '\n' ∉ numberedLine line := by
  have number : '\n' ∉ '(' :: (Nat.toDigits 10 (line.2 + 1) ++ [')']) :=
    not_mem_number rfl (by decide) (by decide) _
  have energy : '\n' ∉ (formatEnergy line.1.1).toList :=
    not_mem_formatEnergy rfl (by decide) (by decide) _
  rw [numberedLine, List.mem_append, not_or]
  exact ⟨number, by simp [energy, not_mem_shownCells]⟩

theorem shownEnergy_numberedLine (line : (Float × List Int) × Nat) :
    shownEnergy (numberedLine line) = (formatEnergy line.1.1).toList := by
  apply shownEnergy_line
  · exact not_mem_number rfl (by decide) (by decide) _
  · exact not_mem_formatEnergy rfl (by decide) (by decide) _

theorem toList_line (level : Float × List Int) (k : Nat) :
    (s!"({k + 1}) " ++ shownLine level ++ "\n").toList = numberedLine (level, k) ++ ['\n'] := by
  change ("(" ++ toString (k + 1) ++ ") " ++ shownLine level ++ "\n").toList = _
  have number : (toString (k + 1)).toList = Nat.toDigits 10 (k + 1) := by
    rw [Nat.toString_eq_ofList_toDigits, String.toList_ofList]
  simp only [String.toList_append, number, toList_shownLine, numberedLine, List.append_assoc,
    List.cons_append]
  rfl

theorem toList_render (levels : List (Float × List Int)) :
    ("   energy\tsample\toccurrences\n" ++
      String.join ((levels.map shownLine).zipIdx.map fun (line, k) =>
        s!"({k + 1}) " ++ line ++ "\n")).toList =
      ("   energy\tsample\toccurrences".toList :: levels.zipIdx.map numberedLine).flatMap
        fun line => line ++ ['\n'] := by
  have header : "   energy\tsample\toccurrences\n".toList =
      "   energy\tsample\toccurrences".toList ++ ['\n'] := by decide
  have lines : (levels.zipIdx.flatMap fun line =>
      (s!"({line.2 + 1}) " ++ shownLine line.1 ++ "\n").toList) =
      levels.zipIdx.flatMap fun line => numberedLine line ++ ['\n'] :=
    List.flatMap_congr fun line _ => toList_line line.1 line.2
  rw [String.toList_append, String.toList_join, List.flatMap_map, List.zipIdx_map, List.flatMap_map,
    List.flatMap_cons, List.flatMap_map, header]
  exact congrArg _ lines

theorem shownEnergies_render (sampled : r.IsSampled size levels info) :
    ∃ text, r.render = .ok text ∧
      shownEnergies text = levels.map fun level => formatEnergy level.1 := by
  refine ⟨_, sampled.render, ?_⟩
  rw [shownEnergies, toList_render, splitOn_lines, List.dropLast_concat, List.tail_cons,
    List.map_map]
  · calc _ = levels.zipIdx.map (fun line => formatEnergy line.1.1) := by
          apply List.map_congr_left
          intro line _
          rw [Function.comp_apply, shownEnergy_numberedLine, String.ofList_toList]
      _ = (levels.zipIdx.map Prod.fst).map fun level => formatEnergy level.1 := by
          rw [List.map_map]
          rfl
      _ = levels.map fun level => formatEnergy level.1 := by rw [List.zipIdx_map_fst]
  · rw [List.forall_mem_cons, List.forall_mem_map]
    exact ⟨by decide, fun line _ => not_mem_numberedLine line⟩

example : shownEnergies ("   energy\tsample\toccurrences\n(1) 10\t[q0: 1, ]\tx1\n" ++
    "(2) -0.5\t[q0: 0, ]\tx1\n") = ["10", "-0.5"] := by decide

end IsSampled

end Record

theorem nodup_formatEnergy {levels : List (Float × List Int)}
    (ascending : levels.Pairwise fun a b => a.1 < b.1) :
    (levels.map fun level => formatEnergy level.1).Nodup := by
  rw [List.Nodup, List.pairwise_map]
  apply ascending.imp
  intro a b less same
  rw [lt_iff] at less
  rw [formatEnergy_eq_iff less.1 less.2.1, beq_iff] at same
  omega

theorem toFloat_text (t : Text) :
    Value.toFloat (Datum.text t) = Scalar.readFloat (Text.quote t) t.chars := rfl

open Solver

/-- Energies are told apart by their texts, which are read as the energies again, the infinite ones
included; zeros have no sign. The table of a sampled record shows its energies in their order, and
those of a problem with finite coefficients all have different texts. -/
theorem energies_told_apart :
    (∀ a b : Float, a.isNaN = false → b.isNaN = false →
      (formatEnergy a = formatEnergy b ↔ (a == b) = true)) ∧
    (∀ a : Float, a.isNaN = false →
      ∃ x, Value.toFloat (Datum.text (formatEnergy a)) = .ok x ∧ (x == a) = true) ∧
    formatEnergy (-0.0) = "0" ∧
    ∀ {ν : Type} {limit requested : Datum} {p : Problem} {record : Record Assignment},
      p.HasCoefficients (fun x => x.isFinite = true) →
      (exhaustive limit : Solver ν).sample p requested = .ok record →
        ∃ text, record.render = .ok text ∧
          List.Forall₂ (fun entry shown => ∃ x, entry.energy = .float x ∧ shown = formatEnergy x)
            record.entries (Record.shownEnergies text) ∧
          (Record.shownEnergies text).Nodup := by
  refine ⟨fun a b => formatEnergy_eq_iff, ?_, formatEnergy_zero rfl, ?_⟩
  · intro a number
    obtain ⟨x, read, same⟩ := readFloat?_formatEnergy number
    have chars : (Text.ofString (formatEnergy a)).chars = (formatEnergy a).toList := by
      simp [Text.chars, Text.ofString, Text.ofChars, Function.comp_def, CodePoint.toChar]
    refine ⟨x, ?_, same⟩
    rw [toFloat_text, chars, Scalar.readFloat, read]
    rfl
  · intro ν limit requested p record finite run
    obtain ⟨size, levels, info, sized, sampled⟩ := sample_sampled run
    have ascending := ascending_of_numbers sized finite
      (fun _ _ _ _ => CouplingArray.isNaN_bitEnergy (isFinite_weight finite)) run
    rw [Record.Ascending, sampled.entries, pairwise_map_entryOf] at ascending
    obtain ⟨text, shown, energies⟩ := sampled.shownEnergies_render
    refine ⟨text, shown, ?_, ?_⟩
    · rw [energies, sampled.entries, List.forall₂_map_left_iff, List.forall₂_map_right_iff,
        List.forall₂_same]
      exact fun level _ => ⟨level.1, rfl, rfl⟩
    · rw [energies]
      exact nodup_formatEnergy ascending

theorem energies_told_apart_largest :
    formatEnergy (Float.ofBits 0x3FB999999999999A) ≠
      formatEnergy (Float.ofBits 0x3FB9999999999999) ∧
    (∃ x, Value.toFloat (Datum.text (formatEnergy (Float.ofBits 0xFFF0000000000000))) = .ok x ∧
      (x == Float.ofBits 0xFFF0000000000000) = true) ∧
    ∃ record text, (exhaustive .null : Solver Unit).sample
        ⟨2, [((0, 0), .float (Float.ofBits 0x7FEFFFFFFFFFFFFF)),
          ((1, 1), .float (Float.ofBits 0x7FEFFFFFFFFFFFFF))]⟩ .null = .ok record ∧
      record.render = .ok text ∧ (Record.shownEnergies text).Nodup := by
  have finite : Problem.HasCoefficients
      ⟨2, [((0, 0), .float (Float.ofBits 0x7FEFFFFFFFFFFFFF)),
        ((1, 1), .float (Float.ofBits 0x7FEFFFFFFFFFFFFF))]⟩ fun x => x.isFinite = true := by
    intro term member
    simp only [List.mem_cons, List.not_mem_nil, or_false] at member
    rcases member with rfl | rfl
    · exact ⟨_, rfl, rfl⟩
    · exact ⟨_, rfl, rfl⟩
  obtain ⟨record, run, -⟩ := sample_all Unit rfl (by decide : 2 < 1024) finite
  obtain ⟨text, shown, -, distinct⟩ := energies_told_apart.2.2.2 finite run
  refine ⟨?_, energies_told_apart.2.1 _ rfl, record, text, run, shown, distinct⟩
  rw [ne_eq, energies_told_apart.1 _ _ rfl rfl]
  decide

end BinaryQuadratic
