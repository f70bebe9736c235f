import BinaryQuadratic.Proofs.Json.WrittenNumbers
import BinaryQuadratic.Proofs.SampledRecord

/-!
The table of a record, taken apart again. Its lines are cut at the commas, and the cells of a
sample are read from their characters.
-/

namespace BinaryQuadratic

def Assignment.bitOf? (c : Char) : Option Int :=
  if c = '0' then some 0 else if c = '1' then some 1 else none

def Record.fieldsOf (text : String) : List (List String) :=
  (text.toList.splitOn '\n').dropLast.map fun line => (line.splitOn ',').map String.ofList

/-- Fields that show an entry: its energy, its cells one by one, and its count. -/
structure Entry.ShownBy (e : Entry Assignment) (energy sample count : String) : Prop where
  energy : ∃ x, e.energy = .float x ∧ energy = Binary64.Layout.commaSeparated.render x
  sample : ∃ bits, e.sample.bits = .ok bits ∧ sample.toList.mapM Assignment.bitOf? = some bits
  count : Value.toInt (Datum.text count) = .ok e.occurrences

namespace Record

theorem splitOn_lines {lines : List (List Char)} (free : ∀ line ∈ lines, '\n' ∉ line) :
    (lines.flatMap fun line => line ++ ['\n']).splitOn '\n' = lines ++ [[]] := by
  induction lines with
  | nil => rfl
  | cons line rest ih =>
      rw [List.forall_mem_cons] at free
      rw [List.flatMap_cons, List.append_assoc, List.singleton_append,
        List.splitOn_append_cons_self_of_not_mem free.1, ih free.2, List.cons_append]

theorem not_mem_intercalate {mark separator : Char} (other : mark ≠ separator)
    {fields : List (List Char)} (free : ∀ field ∈ fields, mark ∉ field) :
    mark ∉ [separator].intercalate fields := by
  induction fields with
  | nil => simp
  | cons field rest ih =>
      rw [List.forall_mem_cons] at free
      cases rest with
      | nil => simpa using free.1
      | cons next later =>
          rw [List.intercalate_cons_cons]
          simp [free.1, other, ih free.2]

theorem toList_intercalate (row : List String) :
    (",".intercalate row).toList = [','].intercalate (row.map String.toList) := by
  rw [String.toList_intercalate]
  rfl

theorem toList_lines (rows : List (List String)) :
    (String.join (rows.map fun row => ",".intercalate row ++ "\n")).toList =
      (rows.map fun row => [','].intercalate (row.map String.toList)).flatMap
        fun line => line ++ ['\n'] := by
  rw [String.toList_join, List.flatMap_map, List.flatMap_map]
  apply List.flatMap_congr
  intro row _
  rw [String.toList_append, toList_intercalate]
  rfl

section Lines

variable {mark : Char} {rows : List (List String)} (comma : mark ≠ ',')
  (free : ∀ row ∈ rows, ∀ field ∈ row, mark ∉ field.toList)

include comma free

theorem not_mem_line {row : List String} (member : row ∈ rows) :
    mark ∉ [','].intercalate (row.map String.toList) := by
  apply not_mem_intercalate comma
  rw [List.forall_mem_map]
  exact free row member

theorem not_mem_lines (lineFeed : mark ≠ '\n') :
    mark ∉ (String.join (rows.map fun row => ",".intercalate row ++ "\n")).toList := by
  rw [toList_lines, List.flatMap_map, List.mem_flatMap]
  rintro ⟨row, member, inside⟩
  rcases List.mem_append.mp inside with within | last
  · exact not_mem_line comma free member within
  · exact lineFeed (List.mem_singleton.mp last)

end Lines

theorem fieldsOf_join {rows : List (List String)} (nonempty : ∀ row ∈ rows, row ≠ [])
    (commas : ∀ row ∈ rows, ∀ field ∈ row, ',' ∉ field.toList)
    (lineFeeds : ∀ row ∈ rows, ∀ field ∈ row, '\n' ∉ field.toList) :
    fieldsOf (String.join (rows.map fun row => ",".intercalate row ++ "\n")) = rows := by
  rw [fieldsOf, toList_lines, splitOn_lines, List.dropLast_concat, List.map_map]
  · apply (List.map_congr_left _).trans (List.map_id rows)
    intro row member
    have fields : ∀ cs ∈ row.map String.toList, ',' ∉ cs := by
      rw [List.forall_mem_map]
      exact commas row member
    rw [Function.comp, List.splitOn_intercalate ',' fields (by simpa using nonempty row member),
      List.map_map]
    simp [Function.comp_def]
  · rw [List.forall_mem_map]
    exact fun row member => not_mem_line (by decide) lineFeeds member

end Record

namespace Record.IsSampled

variable {r : Record Assignment} {size : Nat} {levels : List (Float × List Int)} {info : RunInfo}

def fieldsOfLevel (level : Float × List Int) : List String :=
  [Binary64.Layout.commaSeparated.render level.1, String.join (level.2.map toString),
    toString (1 : Int)]

theorem lineOf_eq (level : Float × List Int) :
    lineOf level = ",".intercalate (fieldsOfLevel level) ++ "\n" := by
  rw [lineOf, fieldsOfLevel]
  simp [String.intercalate_cons_cons, String.append_assoc]

theorem bitOf?_toString {xs : List Int} (bits : Assignment.IsBits xs) :
    (String.join (xs.map toString)).toList.mapM Assignment.bitOf? = some xs := by
  induction xs with
  | nil => rfl
  | cons x rest ih =>
      rw [Assignment.isBits_cons] at bits
      rw [List.map_cons, String.join_cons, String.toList_append, List.mapM_append, ih bits.2]
      rcases bits.1 with rfl | rfl
      · rfl
      · rfl

theorem shownBy_fieldsOfLevel {level : Float × List Int} (bits : Assignment.IsBits level.2) :
    (Solver.entryOf level).ShownBy (Binary64.Layout.commaSeparated.render level.1)
      (String.join (level.2.map toString)) (toString (1 : Int)) where
  energy := ⟨level.1, rfl, rfl⟩
  sample := ⟨level.2, Assignment.bits_ofInts _, bitOf?_toString bits⟩
  count := rfl

theorem not_mem_fieldsOfLevel {mark : Char} (other : mark.isDigit = false)
    (strange : mark ∉ ['.', 'e', '+', '-']) (words : mark ∉ "inf".toList)
    {level : Float × List Int} {field : String} (inside : field ∈ fieldsOfLevel level) :
    mark ∉ field.toList := by
  have minus : mark ≠ '-' := by
    rintro rfl
    exact strange (by decide)
  rw [fieldsOfLevel, List.mem_cons, List.mem_cons, List.mem_singleton] at inside
  rcases inside with rfl | rfl | rfl
  · exact Binary64.not_mem_render other _ _ strange words
  · rw [String.toList_join, List.flatMap_map, List.mem_flatMap]
    rintro ⟨x, -, within⟩
    exact Binary64.not_mem_toString_int other minus x within
  · exact Binary64.not_mem_toString_int other minus 1

theorem shownBy_commaSeparated (sampled : r.IsSampled size levels info) :
    ∃ text rows, r.commaSeparated = .ok text ∧ '\r' ∉ text.toList ∧
      fieldsOf text = columnNames :: rows ∧
      List.Forall₂ (fun e fields => ∃ energy sample count, fields = [energy, sample, count] ∧
        e.ShownBy energy sample count) r.entries rows := by
  have text : ",".intercalate columnNames ++ "\n" ++ String.join (levels.map lineOf) =
      String.join ((columnNames :: levels.map fieldsOfLevel).map
        fun row => ",".intercalate row ++ "\n") := by
    rw [List.map_cons, String.join_cons, List.map_map,
      List.map_congr_left fun level _ => lineOf_eq level]
    rfl
  have free (mark : Char) (other : mark.isDigit = false) (strange : mark ∉ ['.', 'e', '+', '-'])
      (words : mark ∉ "inf".toList) (names : ∀ name ∈ columnNames, mark ∉ name.toList) :
      ∀ row ∈ columnNames :: levels.map fieldsOfLevel, ∀ field ∈ row, mark ∉ field.toList := by
    rw [List.forall_mem_cons, List.forall_mem_map]
    exact ⟨names, fun level _ field inside => not_mem_fieldsOfLevel other strange words inside⟩
  have commas := free ',' (by decide) (by decide) (by decide) (by decide)
  have lineFeeds := free '\n' (by decide) (by decide) (by decide) (by decide)
  have returns := free '\r' (by decide) (by decide) (by decide) (by decide)
  refine ⟨_, levels.map fieldsOfLevel, sampled.commaSeparated, ?_, ?_, ?_⟩
  · rw [text]
    exact not_mem_lines (by decide) returns (by decide)
  · rw [text, fieldsOf_join]
    · rw [List.forall_mem_cons, List.forall_mem_map]
      exact ⟨by simp [columnNames], fun level _ => by simp [fieldsOfLevel]⟩
    · exact commas
    · exact lineFeeds
  · rw [sampled.entries, List.forall₂_map_left_iff, List.forall₂_map_right_iff, List.forall₂_same]
    intro level member
    exact ⟨_, _, _, rfl, shownBy_fieldsOfLevel (sampled.bits level member).1⟩

end Record.IsSampled

end BinaryQuadratic
