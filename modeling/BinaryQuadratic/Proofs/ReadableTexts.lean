import BinaryQuadratic.Proofs.Json.WrittenTexts
import BinaryQuadratic.Text.LowerCase
import BinaryQuadratic.Value

/-!
Texts that are read as numbers. They hold no half of a surrogate pair, which is shown as a
character that no written number has.
-/

namespace BinaryQuadratic

section Spans

variable {α : Type} {p : α → Bool} {a : α} {xs : List α}

theorem mem_dropWhile_of_not (member : a ∈ xs) (not : p a = false) : a ∈ xs.dropWhile p := by
  rw [← List.takeWhile_append_dropWhile (p := p) (l := xs), List.mem_append] at member
  rcases member with taken | dropped
  · have held := List.mem_takeWhile_imp taken
    rw [not] at held
    cases held
  · exact dropped

end Spans

namespace Literal

def replacement : Char := '\uFFFD'

variable {cs : List Char}

theorem mem_splitSign (member : replacement ∈ cs) : replacement ∈ (splitSign cs).2 := by
  unfold splitSign
  split
  · simpa [replacement] using member
  · simpa [replacement] using member
  · exact member

theorem mem_plainDigits (member : replacement ∈ cs) : replacement ∈ cs.map plainDigit :=
  List.mem_map.mpr ⟨replacement, member, by decide⟩

theorem mem_dropUnderscores {afterDigit : Bool} {digits : List Char}
    (dropped : dropUnderscores afterDigit cs = some digits) (member : replacement ∈ cs) :
    replacement ∈ digits := by
  fun_induction dropUnderscores afterDigit cs generalizing digits with
  | case1 => cases member
  | case2 afterDigit d rest both ih =>
      obtain ⟨others, run, rfl⟩ := Option.map_eq_some_iff.mp dropped
      simp only [List.mem_cons] at member ⊢
      rcases member with mark | here | later
      · cases mark
      · exact .inl here
      · exact .inr (ih run later)
  | case3 => cases dropped
  | case4 => cases dropped
  | case5 afterDigit c rest _ _ ih =>
      obtain ⟨others, run, rfl⟩ := Option.map_eq_some_iff.mp dropped
      simp only [List.mem_cons] at member ⊢
      rcases member with here | later
      · exact .inl here
      · exact .inr (ih run later)

theorem not_mem_of_readInt {n : Int} (read : readInt 10 cs = .number n) : replacement ∉ cs := by
  intro member
  have inside := mem_splitSign (mem_plainDigits (mem_dropWhile_of_not (p := Text.isBlank) member rfl))
  have unmarked (body : List Char) : dropBaseMark 10 body = body := by
    unfold dropBaseMark
    split
    · rw [if_neg (by simp [baseMark?])]
    · rfl
  unfold readInt at read
  dsimp only at read
  rw [unmarked] at read
  have outside := mem_dropWhile_of_not (p := fun c => isDigitOf 10 c || decide (c = '_')) inside
    (by decide)
  split at read
  · cases read
  · split at read
    · cases read
    · split at read
      · cases read
      · split at read
        · rename_i blank
          have space := List.all_eq_true.mp blank _ outside
          revert space
          decide
        · cases read

theorem not_mem_of_readExponent {n : Int} (read : readExponent? cs = some n) :
    replacement ∉ cs := by
  intro member
  cases cs with
  | nil => cases member
  | cons c rest =>
      rw [readExponent?] at read
      split at read
      · rename_i power
        rcases List.mem_cons.mp member with rfl | later
        · revert power
          decide
        · dsimp only at read
          split at read
          · cases read
          · rename_i digits
            simp only [Bool.or_eq_true, Bool.not_eq_true', not_or, Bool.not_eq_false] at digits
            have digit := List.all_eq_true.mp digits.2 _ (mem_splitSign later)
            revert digit
            decide
      · cases read

theorem not_mem_of_readDecimal {negative : Bool} {x : Float}
    (read : readDecimal? negative cs = some x) : replacement ∉ cs := by
  intro member
  have outside := mem_dropWhile_of_not (p := Char.isDigit) member (by decide)
  have power {digits tail : List Char} {number : Int → Float} (inside : replacement ∈ tail)
      (read : (if digits.isEmpty then none else
        (readExponent? tail).bind fun exponent => some (number exponent)) = some x) : False := by
    split at read
    · cases read
    · obtain ⟨exponent, exponentRead, -⟩ := Option.bind_eq_some_iff.mp read
      exact not_mem_of_readExponent exponentRead inside
  unfold readDecimal? at read
  dsimp only at read
  generalize cs.dropWhile Char.isDigit = rest at read outside
  split at read
  · rename_i more
    rcases List.mem_cons.mp outside with point | later
    · revert point
      decide
    · exact power (mem_dropWhile_of_not later (by decide)) read
  · exact power outside read

theorem not_mem_of_readFloat {x : Float} (read : readFloat? cs = some x) : replacement ∉ cs := by
  intro member
  have trimmed : replacement ∈ Text.trimBlanks cs := by
    rw [Text.trimBlanks, List.mem_reverse]
    apply mem_dropWhile_of_not _ (by decide)
    rw [List.mem_reverse]
    exact mem_dropWhile_of_not member (by decide)
  unfold readFloat? at read
  obtain ⟨digits, dropped, read⟩ := Option.bind_eq_some_iff.mp read
  have inside := mem_splitSign (mem_dropUnderscores dropped (mem_plainDigits trimmed))
  have other {word : String} (spelled : replacement ∉ word.toList) :
      String.ofList ((splitSign digits).2.map Char.toLower) ≠ word := by
    rintro rfl
    apply spelled
    rw [String.toList_ofList]
    exact List.mem_map.mpr ⟨replacement, inside, by decide⟩
  dsimp only at read
  rw [if_neg, if_neg (other (by decide))] at read
  · exact not_mem_of_readDecimal read inside
  · simp only [Bool.or_eq_true, decide_eq_true_eq, not_or]
    exact ⟨other (by decide), other (by decide)⟩

end Literal

namespace Scalar

theorem isPlain_of_not_mem {t : Text} (absent : Literal.replacement ∉ t.chars) :
    t.isPlain = true := by
  rw [Text.isPlain_iff]
  intro offset member
  exact absent (List.mem_map.mpr ⟨_, member, rfl⟩)

theorem isPlain_of_toInt {t : Text} {n : Int} (read : toInt (.text t) = .ok n) :
    t.isPlain = true := by
  rw [toInt, readInt] at read
  split at read
  · rename_i number
    exact isPlain_of_not_mem (Literal.not_mem_of_readInt number)
  · cases read
  · cases read

theorem isPlain_of_toFloat {t : Text} {x : Float} (read : toFloat (.text t) = .ok x) :
    t.isPlain = true := by
  rw [toFloat, readFloat] at read
  cases found : Literal.readFloat? t.chars with
  | none =>
      rw [found] at read
      cases read
  | some y => exact isPlain_of_not_mem (Literal.not_mem_of_readFloat found)

end Scalar

namespace Text

theorem lowerPoint_of_none {before after : List CodePoint} {p : CodePoint}
    (same : lowerCaseOffset? p.toNat = none) (dotless : p ≠ .char '\u0130')
    (other : p ≠ .char '\u03A3') : lowerPoint before p after = [p] := by
  rw [lowerPoint, if_neg dotless, if_neg (by simp [other]), same]

theorem lowerCaseOffset?_surrogate (offset : Fin 0x800) :
    lowerCaseOffset? (CodePoint.firstSurrogate + offset) = none := by
  have apart : lowerCaseRuns.all (fun run => run.2.1 < 0xD800 || 0xE000 ≤ run.1) = true := by
    decide +kernel
  have bound := offset.isLt
  rw [lowerCaseOffset?, Option.map_eq_none_iff, List.find?_eq_none]
  rintro ⟨first, last, step, shift⟩ member
  have outside := List.all_eq_true.mp apart _ member
  simp only [Bool.or_eq_true, decide_eq_true_eq] at outside
  rw [CodePoint.firstSurrogate, Bool.and_eq_true, Bool.and_eq_true, decide_eq_true_eq,
    decide_eq_true_eq]
  rintro ⟨⟨lower, upper⟩, -⟩
  omega

theorem surrogate_mem_lowerFrom {offset : Fin 0x800} {points : List CodePoint}
    (member : .surrogate offset ∈ points) (before : List CodePoint) :
    .surrogate offset ∈ lowerFrom before points := by
  induction points generalizing before with
  | nil => cases member
  | cons p after ih =>
      rw [lowerFrom, List.mem_append]
      rcases List.mem_cons.mp member with rfl | later
      · rw [lowerPoint_of_none (p := .surrogate offset) (lowerCaseOffset?_surrogate offset)
          nofun nofun]
        exact .inl (List.mem_singleton_self _)
      · exact .inr (ih later _)

theorem isPlain_of_lowerCase {t : Text} (plain : t.lowerCase.isPlain = true) :
    t.isPlain = true := by
  rw [isPlain_iff] at plain ⊢
  intro offset member
  exact plain offset (surrogate_mem_lowerFrom member [])

theorem lowerCase_head {p : CodePoint} {rest : List CodePoint}
    (same : lowerCaseOffset? p.toNat = none) (dotless : p ≠ .char '\u0130')
    (other : p ≠ .char '\u03A3') : (lowerCase ⟨p :: rest⟩).points.head? = some p := by
  rw [lowerCase, lowerFrom, lowerPoint_of_none same dotless other]
  rfl

end Text

end BinaryQuadratic
