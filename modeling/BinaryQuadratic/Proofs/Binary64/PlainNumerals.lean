import BinaryQuadratic.Proofs.Binary64.Numerals

/-!
Written numbers in plain text. Whatever number the layout of messages and tables is used for, its
text is read as that number.
-/

namespace BinaryQuadratic

namespace Literal

open Binary64

theorem trimBlanks_eq {cs : List Char} (free : ∀ c ∈ cs, Text.isBlank c = false) :
    Text.trimBlanks cs = cs := by
  have kept {xs : List Char} (free : ∀ c ∈ xs, Text.isBlank c = false) :
      xs.dropWhile Text.isBlank = xs := by
    cases xs with
    | nil => rfl
    | cons c rest => exact List.dropWhile_cons_of_neg (by simp [free c List.mem_cons_self])
  rw [Text.trimBlanks, kept free, kept, List.reverse_reverse]
  intro c member
  exact free c (List.mem_reverse.mp member)

theorem dropUnderscores_eq {cs : List Char} (free : '_' ∉ cs) (afterDigit : Bool) :
    dropUnderscores afterDigit cs = some cs := by
  induction cs generalizing afterDigit with
  | nil => rw [dropUnderscores]
  | cons c rest ih =>
      rw [List.mem_cons, not_or] at free
      rw [dropUnderscores, if_neg (Ne.symm free.1), ih free.2]
      · rfl
      · rintro d others rfl
        exact (free.1 rfl).elim

def IsPlain (c : Char) : Prop := Text.isBlank c = false ∧ plainDigit c = c ∧ c ≠ '_'

theorem isPlain_digit {c : Char} (digit : c.isDigit = true) : IsPlain c := by
  obtain ⟨lower, upper⟩ := digit_toNat digit
  refine ⟨?_, ?_, ?_⟩
  · simp only [Text.isBlank, Bool.or_eq_false_iff, Bool.and_eq_false_iff, decide_eq_false_iff_not]
    omega
  · have first : Text.decimalDigit? c = some (c.toNat - 48) := by
      have inside : (decide (0x30 ≤ c.toNat) && decide (c.toNat < 0x30 + 10)) = true := by
        simp only [Bool.and_eq_true, decide_eq_true_eq]
        omega
      have found := List.find?_cons_of_pos (l := Text.digitZeros.tail)
        (p := fun first => decide (first ≤ c.toNat) && decide (c.toNat < first + 10)) inside
      exact congrArg (Option.map (c.toNat - ·)) found
    have same : 48 + (c.toNat - 48) = c.toNat := by omega
    rw [plainDigit, first]
    dsimp only
    rw [same, Char.ofNat_toNat]
  · rintro rfl
    cases digit

theorem isPlain_numeral {n : Numeral} {c : Char} (member : c ∈ n.text) : IsPlain c := by
  rcases Numeral.mem_text member with digit | sign
  · exact isPlain_digit digit
  · simp only [List.mem_cons, List.not_mem_nil, or_false] at sign
    rcases sign with rfl | rfl | rfl | rfl
    · exact ⟨rfl, rfl, by decide⟩
    · exact ⟨rfl, rfl, by decide⟩
    · exact ⟨rfl, rfl, by decide⟩
    · exact ⟨rfl, rfl, by decide⟩

theorem readText_eq {cs : List Char} (plain : ∀ c ∈ cs, IsPlain c) :
    dropUnderscores false (normalize cs) = some cs := by
  have digits : cs.map plainDigit = cs :=
    (List.map_congr_left fun c member => (plain c member).2.1).trans (List.map_id' cs)
  rw [normalize, trimBlanks_eq fun c member => (plain c member).1, digits]
  exact dropUnderscores_eq (fun member => (plain '_' member).2.2 rfl) false

theorem readExponent?_suffix {suffix : List Char} {power : Option Int}
    (raised : WritesPower suffix power) : readExponent? suffix = some (power.getD 0) := by
  cases raised with
  | absent => rfl
  | @present digits power all nonempty read =>
      have present : digits.isEmpty = false := by simpa using nonempty
      have digitsOnly : digits.all Char.isDigit = true := List.all_eq_true.mpr all
      by_cases below : power < 0
      · have sign : -(natOfDigits digits : Int) = power := by omega
        simp [readExponent?, splitSign, below, present, digitsOnly, applySign, sign]
      · have sign : (natOfDigits digits : Int) = power := by omega
        simp [readExponent?, splitSign, below, present, digitsOnly, applySign, sign]

theorem readDecimal?_text (n : Numeral) (negative : Bool) :
    readDecimal? negative n.text = some (n.number negative) := by
  have behind : ∀ c ∈ (n.suffix ++ []).head?, c.isDigit = false ∧ c ≠ '.' :=
    Numeral.head_suffix n.raised nofun
  have stop := Numeral.head_pointed n.fraction fun c head => (behind c head).1
  rw [List.append_nil] at behind stop
  obtain ⟨taken, dropped⟩ := span_digits n.form.all stop
  have present : n.digits.isEmpty = false := by
    rcases n.form.lead with zero | ⟨c, rest, shape, -⟩
    · simp [Numeral.digits, zero]
    · simp [Numeral.digits, shape]
  have whole : (if n.digits.isEmpty then none else
      (readExponent? n.suffix).bind fun exponent => some (ofDecimal negative (natOfDigits n.digits)
        (n.digits.dropWhile (· = '0')).length (exponent - n.fraction.length))) =
      some (n.number negative) := by
    rw [present, readExponent?_suffix n.raised, if_neg Bool.false_ne_true, Option.bind_some,
      n.ofDecimal_digits]
  unfold readDecimal?
  rw [Numeral.text, taken, dropped]
  obtain ⟨digits, fraction, power, suffix, form, all, raised⟩ := n
  dsimp only [Numeral.digits] at behind whole ⊢
  by_cases none : fraction = []
  · subst none
    rw [Numeral.pointed, if_pos rfl, List.nil_append]
    split
    · exact ((behind '.' rfl).2 rfl).elim
    · exact whole
  · obtain ⟨fractionTaken, fractionDropped⟩ := span_digits all fun c head => (behind c head).1
    rw [Numeral.pointed, if_neg none, List.cons_append]
    split
    · rename_i more same
      cases same
      rw [fractionTaken, fractionDropped]
      exact whole
    · rename_i other
      exact (other _ rfl).elim

theorem readFloat?_signed (n : Numeral) (negative : Bool) :
    readFloat? (signed negative n.text) = some (n.number negative) := by
  obtain ⟨c, rest, shape, digit⟩ := n.exists_head
  have apart (d : Char) (other : d.isDigit = false) : c ≠ d := by
    rintro rfl
    rw [digit] at other
    cases other
  have plain : ∀ d ∈ signed negative n.text, IsPlain d := by
    cases negative with
    | false => exact fun d => isPlain_numeral
    | true =>
        rw [signed, if_pos rfl, List.forall_mem_cons]
        exact ⟨⟨rfl, rfl, by decide⟩, fun d => isPlain_numeral⟩
  have sign : splitSign (signed negative n.text) = (negative, n.text) := by
    cases negative with
    | true => rfl
    | false =>
        rw [signed, if_neg Bool.false_ne_true, shape, splitSign]
        · rintro _ ⟨⟩
          exact apart _ rfl rfl
        · rintro _ ⟨⟩
          exact apart _ rfl rfl
  have lower : c.toLower = c := by
    apply Char.toLower_eq_of_not_isUpper
    intro upper
    have bounds := digit_toNat digit
    rw [Char.isUpper, decide_eq_true_eq] at upper
    have least : 65 ≤ c.toNat := upper.1
    omega
  have noWord (word : String) (d : Char) (head : word.toList.head? = some d)
      (other : d.isDigit = false) :
      String.ofList (n.text.map Char.toLower) ≠ word := by
    rintro rfl
    rw [shape, String.toList_ofList, List.map_cons, List.head?_cons, lower] at head
    exact apart d other (Option.some.inj head)
  unfold readFloat?
  rw [readText_eq plain]
  simp only [Option.bind_eq_bind, Option.bind_some, sign]
  rw [if_neg, if_neg (noWord "nan" 'n' rfl rfl), readDecimal?_text]
  rw [Bool.or_eq_true, decide_eq_true_eq, decide_eq_true_eq, not_or]
  exact ⟨noWord "inf" 'i' rfl rfl, noWord "infinity" 'i' rfl rfl⟩

/-- What is written for a number is read as that number. -/
theorem readFloat?_render (x : Float) :
    readFloat? (Layout.plain.render x).toList = some x := by
  rcases parts_cases x with rfl | ⟨negative, rfl⟩ | ⟨negative, mantissa, exponent, found⟩
  · rfl
  · cases negative with
    | false => rfl
    | true => rfl
  · obtain ⟨n, written, -, number⟩ := Layout.plain.magnitude_numeral found
    rw [Layout.render, found, String.toList_ofList, written, readFloat?_signed, number]

end Literal

end BinaryQuadratic
