import BinaryQuadratic.Proofs.Json.WrittenNumbers
import BinaryQuadratic.Proofs.Json.WrittenTexts
import BinaryQuadratic.Proofs.SharedFields

/-!
JSON text that is read back. A written value is read as that value with its texts joined, whatever
stands behind it.
-/

namespace BinaryQuadratic

def Scalar.reread : Scalar → Scalar
  | .text t => .text t.joined
  | s => s

namespace Json

def reread : Nat → Datum → Datum
  | _, .scalar s => .scalar s.reread
  | levels + 1, .list items => .list (items.map (reread levels))
  | levels + 1, .table fields =>
    .table (fields.map fun field => (field.1.reread, reread levels field.2))
  | 0, d => d

inductive Readable : Nat → Datum → Prop
  | scalar {levels : Nat} {s : Scalar} (checked : checkScalar s = .ok s) :
      Readable levels (.scalar s)
  | list {levels : Nat} {items : List Datum} (each : ∀ item ∈ items, Readable levels item) :
      Readable (levels + 1) (.list items)
  | table {levels : Nat} {fields : Fields Datum}
      (texts : ∀ field ∈ fields, isText field.1 = true)
      (distinct : (fields.map fun field => (keyOf field.1).joined).Nodup)
      (each : ∀ field ∈ fields, Readable levels field.2) : Readable (levels + 1) (.table fields)

variable {levels fuel depth outer : Nat} {tail cs : List Char}

theorem readScalar_write {s : Scalar} (checked : checkScalar s = .ok s) (closed : Closed tail) :
    readScalar (writeScalar s tail) = .ok (.scalar s.reread, tail) := by
  cases s with
  | null => rfl
  | bool b => cases b <;> rfl
  | int n =>
      obtain ⟨text, written, -⟩ := bind_eq_ok.mp checked
      have short : n.natAbs < 10 ^ Literal.digitLimit := by
        rw [integerText] at written
        generalize Literal.digitLimit = limit at written ⊢
        split at written
        · assumption
        · cases written
      exact readScalar_int short closed
  | float x => exact readScalar_float x closed
  | text t =>
      have word (rest : List Char) : readWord ('\u0022' :: rest) = none := by
        simp [readWord, words]
      rw [writeScalar, writeText, readScalar, word]
      dsimp only
      rw [readText_escapes]
      rfl
  | bytes bs => cases checked
  | time t => cases checked

theorem readScalar_start {c : Char} {result : Datum × List Char}
    (read : readScalar (c :: cs) = .ok result) :
    isSpace c = false ∧ c ≠ ']' ∧ c ≠ '[' ∧ c ≠ '\x7b' := by
  have refused {d : Char} (word : readWord (d :: cs) = none) (plain : d ≠ '\u0022' ∧ d ≠ '-')
      (digit : d.isDigit = false) : c ≠ d := by
    rintro rfl
    have whole : readWhole (c :: cs) = none := by
      rw [readWhole]
      · simp [digit]
      · rintro _ ⟨⟩
        cases digit
    rw [readScalar, word, readNumber, whole] at read
    · cases read
    · rintro _ ⟨⟩
      exact plain.1 rfl
    · rintro _ ⟨⟩
      exact plain.2 rfl
  refine ⟨?_, refused ?_ (by decide) rfl, refused ?_ (by decide) rfl, refused ?_ (by decide) rfl⟩
  · rw [Bool.eq_false_iff]
    intro space
    simp only [isSpace, Bool.or_eq_true, decide_eq_true_eq] at space
    rcases space with ((blank | tab) | feed) | turn
    · exact refused (by simp [readWord, words]) (by decide) rfl blank
    · exact refused (by simp [readWord, words]) (by decide) rfl tab
    · exact refused (by simp [readWord, words]) (by decide) rfl feed
    · exact refused (by simp [readWord, words]) (by decide) rfl turn
  all_goals simp [readWord, words]

theorem readValue_other {c : Char} (list : c ≠ '[') (table : c ≠ '\x7b') :
    readValue (fuel + 1) levels (c :: cs) = readScalar (c :: cs) := by
  rw [readValue]
  · intro _ _ same
    exact list (List.cons.inj same).1
  · intro _ _ same
    exact table (List.cons.inj same).1
  · intro _ _ _ same
    exact list (List.cons.inj same).1
  · intro _ _ _ same
    exact table (List.cons.inj same).1

theorem readValue_scalar {result : Datum × List Char} (read : readScalar cs = .ok result) :
    readValue (fuel + 1) levels cs = .ok result := by
  cases cs with
  | nil => cases read
  | cons c rest =>
      obtain ⟨-, -, list, table⟩ := readScalar_start read
      rw [readValue_other list table, read]

theorem readValue_start {c : Char} {result : Datum × List Char}
    (read : readValue fuel levels (c :: cs) = .ok result) : isSpace c = false ∧ c ≠ ']' := by
  cases fuel with
  | zero => cases read
  | succ fuel =>
      by_cases list : c = '['
      · rw [list]
        exact ⟨rfl, by decide⟩
      by_cases table : c = '\x7b'
      · rw [table]
        exact ⟨rfl, by decide⟩
      rw [readValue_other list table] at read
      have start := readScalar_start read
      exact ⟨start.1, start.2.1⟩

theorem skipSpaces_lineBreak (start : ∀ c ∈ cs.head?, isSpace c = false) :
    skipSpaces (lineBreak depth cs) = cs := by
  have blanks : ∀ c ∈ List.replicate (2 * depth) ' ', isSpace c = true := by
    intro c member
    rw [List.eq_of_mem_replicate member]
    rfl
  rw [skipSpaces, lineBreak, List.dropWhile_cons_of_pos rfl, List.dropWhile_append_of_pos blanks]
  cases cs with
  | nil => rfl
  | cons c rest => rw [List.dropWhile_cons_of_neg (by simp [start c rfl])]

def Prepends (f : List Char → List Char) : Prop :=
  ∃ front, '\r' ∉ front ∧ ∀ tail, f tail = front ++ tail

theorem Prepends.id : Prepends fun tail => tail := ⟨[], nofun, fun _ => rfl⟩

theorem Prepends.append {f : List Char → List Char} {front : List Char} (h : Prepends f)
    (unix : '\r' ∉ front) : Prepends fun tail => front ++ f tail := by
  obtain ⟨inner, innerUnix, shape⟩ := h
  refine ⟨front ++ inner, ?_, ?_⟩
  · rw [List.mem_append, not_or]
    exact ⟨unix, innerUnix⟩
  · intro tail
    dsimp only
    rw [shape, List.append_assoc]

theorem Prepends.cons {f : List Char → List Char} {c : Char} (h : Prepends f) (unix : '\r' ≠ c) :
    Prepends fun tail => c :: f tail :=
  h.append (by simpa using unix : '\r' ∉ [c])

theorem Prepends.comp {f g : List Char → List Char} (outer : Prepends f) (inner : Prepends g) :
    Prepends fun tail => f (g tail) := by
  obtain ⟨front, unix, shape⟩ := outer
  simp only [shape]
  exact inner.append unix

theorem Prepends.lineBreak {f : List Char → List Char} (h : Prepends f) (depth : Nat) :
    Prepends fun tail => Json.lineBreak depth (f tail) := by
  have blanks : '\r' ∉ List.replicate (2 * depth) ' ' := by
    intro member
    cases List.eq_of_mem_replicate member
  exact (h.append blanks).cons (by decide)

/-- A written datum is read as another one, whatever stands behind it. -/
structure Reads (levels depth : Nat) (d e : Datum) : Prop where
  prepends : Prepends (write depth d)
  read : ∀ fuel tail, Closed tail → (write depth d tail).length ≤ fuel →
    readValue fuel levels (write depth d tail) = .ok (e, tail)

theorem Reads.start {d e : Datum} (reads : Reads levels depth d e) (closed : Closed tail) :
    ∃ c rest, write depth d tail = c :: rest ∧ isSpace c = false ∧ c ≠ ']' := by
  have read := reads.read _ _ closed (Nat.le_refl _)
  cases text : write depth d tail with
  | nil =>
      rw [text] at read
      cases read
  | cons c rest =>
      rw [text] at read
      exact ⟨c, rest, rfl, readValue_start read⟩

theorem Reads.skip {d e : Datum} (reads : Reads levels depth d e) (closed : Closed tail) :
    skipSpaces (lineBreak outer (write depth d tail)) = write depth d tail := by
  obtain ⟨c, rest, text, visible, -⟩ := reads.start closed
  apply skipSpaces_lineBreak
  rw [text]
  rintro _ ⟨⟩
  exact visible

theorem closed_lineBreak : Closed (lineBreak depth cs) := by
  rintro _ ⟨⟩
  exact .inr rfl

theorem closed_writeItems (items : List Datum) :
    Closed (writeItems depth items (lineBreak outer cs)) := by
  cases items with
  | nil => exact closed_lineBreak
  | cons item rest =>
      rw [writeItems]
      rintro _ ⟨⟩
      exact .inl rfl

theorem length_lineBreak (depth : Nat) (cs : List Char) :
    (lineBreak depth cs).length = 2 * depth + cs.length + 1 := by
  simp [lineBreak]

theorem skipSpaces_of_mark {c : Char} (mark : isSpace c = false) :
    skipSpaces (c :: cs) = c :: cs := by
  rw [skipSpaces, List.dropWhile_cons_of_neg (by simp [mark])]

theorem readItems_write {item other : Datum} {items others : List Datum}
    (head : Reads levels depth item other) (each : List.Forall₂ (Reads levels depth) items others)
    (enough : (write depth item
      (writeItems depth items (lineBreak outer (']' :: tail)))).length < fuel) :
    readItems fuel levels (write depth item
      (writeItems depth items (lineBreak outer (']' :: tail)))) = .ok (other :: others, tail) := by
  induction each generalizing item other fuel with
  | nil =>
      obtain ⟨fuel, rfl⟩ := Nat.exists_eq_add_one.mpr (Nat.zero_lt_of_lt enough)
      have next : skipSpaces (lineBreak outer (']' :: tail)) = ']' :: tail :=
        skipSpaces_lineBreak (by rintro _ ⟨⟩; rfl)
      rw [readItems, head.read fuel _ (closed_writeItems _) (by omega), ok_bind, writeItems]
      dsimp only
      rw [next]
      rfl
  | @cons second otherSecond items others headSecond _ ih =>
      obtain ⟨fuel, rfl⟩ := Nat.exists_eq_add_one.mpr (Nat.zero_lt_of_lt enough)
      obtain ⟨front, -, append⟩ := head.prepends
      have more : (write depth second
          (writeItems depth items (lineBreak outer (']' :: tail)))).length < fuel := by
        rw [append, writeItems, List.length_append, List.length_cons, length_lineBreak] at enough
        omega
      rw [readItems, head.read fuel _ (closed_writeItems _) (by omega), ok_bind, writeItems]
      dsimp only
      rw [skipSpaces_of_mark rfl]
      change readItems fuel levels (skipSpaces _) >>= _ = _
      rw [headSecond.skip (closed_writeItems _), ih headSecond more]
      rfl

theorem closed_writeFields (fields : Fields Datum) :
    Closed (writeFields depth fields (lineBreak outer cs)) := by
  cases fields with
  | nil => exact closed_lineBreak
  | cons field rest =>
      rw [writeFields]
      rintro _ ⟨⟩
      exact .inl rfl

theorem insert_new {fields : Fields Datum} {key : Text}
    (new : Scalar.text key ∉ fields.map Prod.fst) (value : Datum) :
    Fields.insert fields (.text key) value = fields ++ [(.text key, value)] := by
  rw [Fields.insert, if_neg]
  rw [List.any_eq_true]
  rintro ⟨field, member, same⟩
  apply new
  rw [← Scalar.equals_text.mp same]
  exact List.mem_map_of_mem member

def ReadsField (levels depth : Nat) (field other : Scalar × Datum) : Prop :=
  other.1 = .text (keyOf field.1).joined ∧ Reads levels depth field.2 other.2

theorem readFields_step {before : Fields Datum} {field other : Scalar × Datum} {after : List Char}
    (head : ReadsField levels depth field other) (new : other.1 ∉ before.map Prod.fst)
    (closed : Closed after) (enough : (write depth field.2 after).length ≤ fuel) :
    readFields (fuel + 1) levels before
        (writeText (keyOf field.1) (':' :: ' ' :: write depth field.2 after)) =
      match skipSpaces after with
      | '\x7d' :: tail => .ok (before ++ [other], tail)
      | ',' :: more => readFields fuel levels (before ++ [other]) (skipSpaces more)
      | _ => .error malformed := by
  obtain ⟨key, value⟩ := other
  obtain ⟨rfl, reads⟩ := head
  obtain ⟨c, rest, text, visible, -⟩ := reads.start closed
  have blank : skipSpaces (' ' :: write depth field.2 after) = write depth field.2 after := by
    rw [skipSpaces, List.dropWhile_cons_of_pos rfl, ← skipSpaces, text, skipSpaces_of_mark visible]
  rw [writeText, readFields, readText_escapes, ok_bind]
  dsimp only
  rw [skipSpaces_of_mark rfl]
  change readValue fuel levels (skipSpaces _) >>= _ = _
  rw [blank, reads.read fuel _ closed enough, ok_bind, insert_new new]
  rfl

theorem length_writeText (t : Text) (cs : List Char) : cs.length + 2 ≤ (writeText t cs).length := by
  rw [writeText, List.length_cons, List.length_append, List.length_cons]
  omega

theorem new_of_distinct {before others : Fields Datum} {other : Scalar × Datum}
    (distinct : ((before ++ other :: others).map Prod.fst).Nodup) :
    other.1 ∉ before.map Prod.fst := by
  rw [List.map_append, List.nodup_append] at distinct
  intro member
  exact distinct.2.2 _ member _ List.mem_cons_self rfl

theorem readFields_write {before : Fields Datum} {field other : Scalar × Datum}
    {fields others : Fields Datum} (head : ReadsField levels depth field other)
    (each : List.Forall₂ (ReadsField levels depth) fields others)
    (distinct : ((before ++ other :: others).map Prod.fst).Nodup)
    (enough : (writeText (keyOf field.1) (':' :: ' ' :: write depth field.2
      (writeFields depth fields (lineBreak outer ('\x7d' :: tail))))).length < fuel) :
    readFields fuel levels before (writeText (keyOf field.1) (':' :: ' ' :: write depth field.2
      (writeFields depth fields (lineBreak outer ('\x7d' :: tail))))) =
      .ok (before ++ other :: others, tail) := by
  induction each generalizing before field other fuel with
  | nil =>
      obtain ⟨fuel, rfl⟩ := Nat.exists_eq_add_one.mpr (Nat.zero_lt_of_lt enough)
      have next : skipSpaces (lineBreak outer ('\x7d' :: tail)) = '\x7d' :: tail :=
        skipSpaces_lineBreak (by rintro _ ⟨⟩; rfl)
      have new := new_of_distinct distinct
      have value := (length_writeText _ _).trans_lt enough
      simp only [List.length_cons] at value
      rw [readFields_step head new (closed_writeFields _) (by omega), writeFields, next]
      rfl
  | @cons second otherSecond fields others headSecond _ ih =>
      obtain ⟨fuel, rfl⟩ := Nat.exists_eq_add_one.mpr (Nat.zero_lt_of_lt enough)
      obtain ⟨front, -, append⟩ := head.2.prepends
      have new := new_of_distinct distinct
      have value := (length_writeText _ _).trans_lt enough
      simp only [List.length_cons] at value
      have more : (writeText (keyOf second.1) (':' :: ' ' :: write depth second.2
          (writeFields depth fields (lineBreak outer ('\x7d' :: tail))))).length < fuel := by
        rw [append, writeFields, List.length_append, List.length_cons, length_lineBreak] at value
        omega
      have start : skipSpaces (lineBreak depth (writeText (keyOf second.1) (':' :: ' ' ::
          write depth second.2 (writeFields depth fields (lineBreak outer ('\x7d' :: tail)))))) =
          writeText (keyOf second.1) (':' :: ' ' :: write depth second.2
            (writeFields depth fields (lineBreak outer ('\x7d' :: tail)))) :=
        skipSpaces_lineBreak (by rintro _ ⟨⟩; rfl)
      rw [readFields_step head new (closed_writeFields _) (by omega), writeFields,
        skipSpaces_of_mark rfl]
      change readFields fuel levels _ (skipSpaces _) = _
      rw [start, ih headSecond _ more]
      · rw [List.append_assoc, List.singleton_append]
      · rw [List.append_assoc, List.singleton_append]
        exact distinct

theorem prepends_writeText (t : Text) : Prepends (writeText t) := by
  have escapes : '\r' ∉ t.points.flatMap escapePoint := by
    intro member
    obtain ⟨p, -, inside⟩ := List.mem_flatMap.mp member
    exact escapePoint_unix p inside
  exact ((Prepends.id.cons (by decide)).append escapes).cons (by decide)

theorem prepends_writeScalar {s : Scalar} (checked : checkScalar s = .ok s) :
    Prepends (writeScalar s) := by
  cases s with
  | null => exact Prepends.id.append (by decide)
  | bool b => cases b <;> exact Prepends.id.append (by decide)
  | int n => exact Prepends.id.append (Binary64.not_mem_toString_int rfl (by decide) n)
  | float x =>
      exact Prepends.id.append
        (Binary64.not_mem_render rfl Binary64.Layout.document x (by decide) (by decide))
  | text t => exact prepends_writeText t
  | bytes bs => cases checked
  | time t => cases checked

theorem prepends_writeItems {items others : List Datum}
    (each : List.Forall₂ (Reads levels depth) items others) : Prepends (writeItems depth items) := by
  induction each with
  | nil => exact .id
  | cons head _ ih => exact ((head.prepends.comp ih).lineBreak depth).cons (by decide)

theorem prepends_writeFields {fields others : Fields Datum}
    (each : List.Forall₂ (ReadsField levels depth) fields others) :
    Prepends (writeFields depth fields) := by
  induction each with
  | nil => exact .id
  | @cons field other _ _ head _ ih =>
      have value := head.2.prepends.comp ih
      have entry := (value.cons (c := ' ') (by decide)).cons (c := ':') (by decide)
      exact (((prepends_writeText (keyOf field.1)).comp entry).lineBreak depth).cons (by decide)

theorem reads_list {items others : List Datum}
    (each : List.Forall₂ (Reads levels (depth + 1)) items others) :
    Reads (levels + 1) depth (.list items) (.list others) := by
  cases each with
  | nil =>
      refine ⟨(Prepends.id.cons (by decide)).cons (by decide), ?_⟩
      intro fuel tail _ enough
      obtain ⟨fuel, rfl⟩ := Nat.exists_eq_add_one.mpr (Nat.zero_lt_of_lt enough)
      rfl
  | @cons item other items others head each =>
      refine ⟨?_, ?_⟩
      · have closing : Prepends fun tail => lineBreak depth (']' :: tail) :=
          (Prepends.id.cons (by decide)).lineBreak depth
        exact ((head.prepends.comp ((prepends_writeItems each).comp closing)).lineBreak
          (depth + 1)).cons (by decide)
      · intro fuel tail _ enough
        rw [write] at enough ⊢
        obtain ⟨fuel, rfl⟩ := Nat.exists_eq_add_one.mpr (Nat.zero_lt_of_lt enough)
        obtain ⟨c, rest, text, -, open_⟩ := head.start (closed_writeItems items)
        rw [List.length_cons, length_lineBreak] at enough
        rw [readValue, head.skip (closed_writeItems _)]
        split
        · rename_i closing
          rw [text] at closing
          exact (open_ (List.cons.inj closing).1).elim
        · rw [readItems_write head each (by omega)]
          rfl

theorem reads_table {fields others : Fields Datum}
    (each : List.Forall₂ (ReadsField levels (depth + 1)) fields others)
    (distinct : (others.map Prod.fst).Nodup) :
    Reads (levels + 1) depth (.table fields) (.table others) := by
  cases each with
  | nil =>
      refine ⟨(Prepends.id.cons (by decide)).cons (by decide), ?_⟩
      intro fuel tail _ enough
      obtain ⟨fuel, rfl⟩ := Nat.exists_eq_add_one.mpr (Nat.zero_lt_of_lt enough)
      rfl
  | @cons field other fields others head each =>
      refine ⟨?_, ?_⟩
      · have closing : Prepends fun tail => lineBreak depth ('\x7d' :: tail) :=
          (Prepends.id.cons (by decide)).lineBreak depth
        have value := head.2.prepends.comp ((prepends_writeFields each).comp closing)
        have entry := (value.cons (c := ' ') (by decide)).cons (c := ':') (by decide)
        exact (((prepends_writeText _).comp entry).lineBreak (depth + 1)).cons (by decide)
      · intro fuel tail _ enough
        rw [write] at enough ⊢
        obtain ⟨fuel, rfl⟩ := Nat.exists_eq_add_one.mpr (Nat.zero_lt_of_lt enough)
        rw [List.length_cons, length_lineBreak] at enough
        have start (after : List Char) : skipSpaces (lineBreak (depth + 1)
            (writeText (keyOf field.1) after)) = writeText (keyOf field.1) after :=
          skipSpaces_lineBreak (by rintro _ ⟨⟩; rfl)
        rw [readValue, start]
        split
        · rename_i closing
          cases closing
        · rw [readFields_write head each distinct (by omega)]
          rfl

theorem reads_of_readable {d : Datum} (readable : Readable levels d) (depth : Nat) :
    Reads levels depth d (reread levels d) := by
  induction readable generalizing depth with
  | @scalar levels s checked =>
      refine ⟨prepends_writeScalar checked, ?_⟩
      intro fuel tail closed enough
      have read := readScalar_write checked closed
      cases fuel with
      | zero =>
          have none : writeScalar s tail = [] := List.length_eq_zero_iff.mp (Nat.le_zero.mp enough)
          rw [none] at read
          cases read
      | succ fuel =>
          rw [write, readValue_scalar read, reread]
  | @list levels items each ih =>
      rw [reread]
      apply reads_list
      rw [List.forall₂_map_right_iff, List.forall₂_same]
      intro item member
      exact ih item member (depth + 1)
  | @table levels fields texts distinct each ih =>
      rw [reread]
      apply reads_table
      · rw [List.forall₂_map_right_iff, List.forall₂_same]
        intro field member
        refine ⟨?_, ih field member (depth + 1)⟩
        rw [eq_text_of_isText (texts field member)]
        rfl
      · have keys : (fields.map fun field => (field.1.reread, reread levels field.2)).map Prod.fst =
            (fields.map fun field => (keyOf field.1).joined).map Scalar.text := by
          rw [List.map_map, List.map_map]
          apply List.map_congr_left
          intro field member
          rw [Function.comp, eq_text_of_isText (texts field member)]
          rfl
        rw [keys]
        exact distinct.map fun _ _ same => Scalar.text.inj same

theorem parse_write {d : Datum} (readable : Readable nestingLimit d) :
    parse (String.ofList (write 0 d [])) = .ok (reread nestingLimit d) := by
  have closed : Closed [] := by
    rintro _ ⟨⟩
  have reads := reads_of_readable readable 0
  obtain ⟨c, rest, text, visible, -⟩ := reads.start closed
  have read := reads.read _ _ closed (Nat.le_succ _)
  rw [parse, String.toList_ofList]
  rw [text] at read ⊢
  rw [skipSpaces_of_mark visible]
  change readValue (Nat.succ _) nestingLimit _ >>= _ = _
  rw [read]
  rfl

theorem write_unix {d : Datum} (readable : Readable levels d) : '\r' ∉ write depth d [] := by
  obtain ⟨front, unix, shape⟩ := (reads_of_readable readable depth).prepends
  rw [shape, List.append_nil]
  exact unix

end Json

end BinaryQuadratic
