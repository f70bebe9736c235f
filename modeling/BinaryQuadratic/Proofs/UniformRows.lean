import BinaryQuadratic.Proofs.AlikeValues
import BinaryQuadratic.Proofs.Binary64.WholeNumbers
import BinaryQuadratic.Proofs.NumericRows

/-!
Rows of numbers as an array of one common kind. Bringing the cells to their common kind neither
changes the numbers that they are read as nor whether they are zero, so that the array and the
rows have the same grid or the same violation.
-/

namespace BinaryQuadratic.CouplingArray

open Binary64

namespace CellKind

theorem join_comm (a b : CellKind) : a.join b = b.join a := by
  cases a <;> cases b <;> rfl

theorem join_assoc (a b c : CellKind) : (a.join b).join c = a.join (b.join c) := by
  cases a <;> cases b <;> cases c <;> rfl

theorem join_self (a : CellKind) : a.join a = a := by
  cases a <;> rfl

theorem join_foldl {kinds : List CellKind} {kind : CellKind} (member : kind ∈ kinds)
    (start : CellKind) : kind.join (kinds.foldl join start) = kinds.foldl join start := by
  apply foldl_attained fun state => kind.join state = state
  · intro other _ state above
    rw [← join_assoc, above]
  · exact member
  · intro state
    rw [join_comm, join_assoc, join_self]

end CellKind

structure ReadAlike (d e : Datum) : Prop where
  number : IsNumber e
  zero : Value.equalsInt e 0 = Value.equalsInt d 0
  float : Value.toFloat e = Value.toFloat d

theorem readAlike_of_number {d e : Datum} {number : Number}
    (read : Value.toNumber d = .ok number) (again : Value.toNumber e = .ok number) :
    ReadAlike d e where
  number := ⟨number, again⟩
  zero := by rw [equalsInt_number read, equalsInt_number again]
  float := by rw [toFloat_number read, toFloat_number again]

theorem readAlike_float {d : Datum} {number : Number} {x : Float}
    (read : Value.toNumber d = .ok number) (converted : number.toFloat = .ok x) :
    ReadAlike d (.float x) where
  number := ⟨.float x, rfl⟩
  zero := by
    rw [equalsInt_number read, equalsInt_number (v := Datum.float x) rfl]
    cases number with
    | int n => exact equals_zero_of_toFloat converted
    | float y =>
        cases converted
        rfl
  float := by
    rw [toFloat_number read, converted]
    rfl

theorem toInt_number {d : Datum} {number : Number} (read : Value.toNumber d = .ok number) :
    Value.toInt d = number.truncate := by
  obtain ⟨s, layer, known⟩ := scalar_of_toNumber read
  rw [Value.toInt, Value.toScalar, Value.scalar?, layer]
  cases s with
  | bool b => cases known; rfl
  | int n => cases known; rfl
  | float x => cases known; rfl
  | _ => cases known

theorem ofDatum_float {d : Datum} {x : Float} (read : Value.toNumber d = .ok (.float x)) :
    CellKind.ofDatum d = .real := by
  obtain ⟨s, layer, known⟩ := scalar_of_toNumber read
  cases d with
  | scalar other =>
      cases layer
      cases s with
      | float y => rfl
      | _ => cases known
  | list items => cases layer
  | table fields => cases layer

theorem convert_readAlike {kind : CellKind} {d : Datum} (real : IsReal d)
    (above : (CellKind.ofDatum d).join kind = kind) (unwritten : kind ≠ .written) :
    ∃ converted, kind.convert d = .ok converted ∧ ReadAlike d converted := by
  obtain ⟨number, x, read, converted⟩ := real
  have kept : ReadAlike d d := readAlike_of_number read read
  -- Only integers and truth values have a whole kind above theirs.
  have truncated (whole : kind = .signed ∨ kind = .unsigned) :
      ∃ n, Value.toInt d = .ok n ∧ ReadAlike d (.int n) := by
    cases number with
    | int n => exact ⟨n, toInt_number read, readAlike_of_number read rfl⟩
    | float y =>
        rw [ofDatum_float read] at above
        rcases whole with rfl | rfl <;> cases above
  cases kind with
  | truth => exact ⟨d, rfl, kept⟩
  | signed =>
      obtain ⟨n, run, alike⟩ := truncated (.inl rfl)
      exact ⟨.int n, by rw [CellKind.convert, run, map_ok], alike⟩
  | unsigned =>
      obtain ⟨n, run, alike⟩ := truncated (.inr rfl)
      exact ⟨.int n, by rw [CellKind.convert, run, map_ok], alike⟩
  | real =>
      refine ⟨.float x, ?_, readAlike_float read converted⟩
      rw [CellKind.convert, toFloat_number read, converted, map_ok]
  | written => exact (unwritten rfl).elim
  | mixed => exact ⟨d, rfl, kept⟩

section Rows

variable {rows : List (List Datum)}

theorem unify_readAlike (real : ∀ row ∈ rows, ∀ cell ∈ row, IsReal cell) :
    ∃ unified, unify rows = .ok unified ∧ List.Forall₂ (List.Forall₂ ReadAlike) rows unified := by
  have numbers := numbers_of_real real
  apply mapM_forall₂
  intro row rowMember
  apply mapM_forall₂
  intro cell member
  apply convert_readAlike (real row rowMember cell member) _ (commonKind_ne_written numbers)
  apply CellKind.join_foldl
  exact List.mem_map_of_mem (List.mem_flatten.mpr ⟨row, rowMember, member⟩)

theorem ofRows_readAlike {others : List (List Datum)}
    (numbers : ∀ row ∈ rows, ∀ cell ∈ row, IsNumber cell)
    (alike : List.Forall₂ (List.Forall₂ ReadAlike) rows others) : ofRows others = ofRows rows := by
  have otherNumbers : ∀ row ∈ others, ∀ cell ∈ row, IsNumber cell :=
    right_of_forall₂ alike fun _ _ cells => right_of_forall₂ cells fun _ _ both => both.number
  have checks := checkRows_of_forall₂ rows.length (fun _ _ both => both.zero.symm) alike 0
  have floats : (rows.mapM fun row => row.mapM Value.toFloat) =
      others.mapM fun row => row.mapM Value.toFloat :=
    mapM_eq_of_forall₂ alike fun _ _ cells =>
      mapM_eq_of_forall₂ cells fun _ _ both => both.float.symm
  cases checked : checkRows rows.length 0 rows with
  | ok =>
      rw [ofRows_of_checkRows numbers checked, floats]
      rw [checked, alike.length_eq] at checks
      exact ofRows_of_checkRows otherNumbers checks.symm
  | error fault =>
      rw [ofRows, ofRows, ← alike.length_eq, ← checks, checked]
      rfl

theorem cellOutline_number {d : Datum} (number : IsNumber d) : cellOutline d = d := by
  obtain ⟨number, read⟩ := number
  obtain ⟨s, layer, -⟩ := scalar_of_toNumber read
  rw [cellOutline, outline_scalar layer]
  cases d with
  | scalar other =>
      cases layer
      rfl
  | list items => cases layer
  | table fields => cases layer

theorem shapeOf_numbers {width : Nat} (present : rows ≠ [])
    (widths : ∀ row ∈ rows, row.length = width)
    (numbers : ∀ row ∈ rows, ∀ cell ∈ row, IsNumber cell) :
    Survey.shapeOf (.list (rows.map .list)) = .ok [rows.length, width] := by
  have outlined : (rows.map fun row => Datum.list (row.map cellOutline)) = rows.map .list := by
    apply List.map_congr_left
    intro row rowMember
    have kept : row.map cellOutline = row.map id :=
      List.map_congr_left fun cell member => cellOutline_number (numbers row rowMember cell member)
    rw [kept, List.map_id]
  rw [← outlined, shapeOf_outline present widths numbers]

theorem ofSequences_rows (rows : List (List Datum)) :
    ofSequences (Datum.list (rows.map .list)) = ofRows rows := by
  have outer : Value.items (Datum.list (rows.map .list)) = .ok (rows.map .list) := rfl
  have inner : (rows.map Datum.list).mapM Value.items = .ok rows := by
    have each : ∀ row ∈ rows, (Value.items ∘ Datum.list) row = .ok (id row) := fun _ _ => rfl
    rw [List.mapM_map, mapM_eq_ok_map each, List.map_id]
  rw [ofSequences, outer, ok_bind, inner, ok_bind]

theorem ofUniform_rows {width : Nat} (present : rows ≠ [])
    (widths : ∀ row ∈ rows, row.length = width)
    (real : ∀ row ∈ rows, ∀ cell ∈ row, IsReal cell) :
    ofUniform (.list (rows.map .list)) = ofRows rows := by
  have numbers := numbers_of_real real
  have cells : (listItems (.list (rows.map .list))).map listItems = rows := by
    rw [listItems, List.map_map]
    exact List.map_id rows
  obtain ⟨unified, run, alike⟩ := unify_readAlike real
  rw [ofUniform, shapeOf_numbers present widths numbers, ok_bind]
  dsimp only
  rw [cells, run, ok_bind, ofRows_readAlike numbers alike]

/-- From equally long rows of numbers an array of one kind and the rows themselves make the same
grid of these numbers or meet the same one of the two violations. -/
theorem ofUniform_eq_ofSequences {width : Nat} (present : rows ≠ [])
    (widths : ∀ row ∈ rows, row.length = width)
    (real : ∀ row ∈ rows, ∀ cell ∈ row, IsReal cell) :
    ofUniform (.list (rows.map .list)) = ofSequences (Datum.list (rows.map .list)) ∧
    ((∃ floats, (rows.mapM fun row => row.mapM Value.toFloat) = .ok floats ∧
        ofUniform (.list (rows.map .list)) = .ok (.grid floats)) ∨
      ∃ kind, (kind = .listNotSquare ∨ kind = .lowerTriangleEntryNotZero) ∧
        ofUniform (.list (rows.map .list)) = .error (.violation (.dataFormat kind))) := by
  have numbers := numbers_of_real real
  obtain ⟨floats, mapped⟩ := floats_of_real real
  rw [ofUniform_rows present widths real, ofSequences_rows]
  refine ⟨rfl, ?_⟩
  cases run : ofRows rows with
  | ok h =>
      obtain ⟨found, same, rfl, -⟩ := ofRows_grid numbers run
      exact .inl ⟨found, same, rfl⟩
  | error fault =>
      obtain ⟨i, row, -, -, -, rfl⟩ :=
        checkRows_eq_error_iff.mp ((ofRows_error_iff numbers mapped).mp run)
      refine .inr ⟨_, ?_, rfl⟩
      split
      · exact .inl rfl
      · exact .inr rfl

theorem ofUniform_eq_ofSequences_mixed :
    ofUniform (.list [.list [.bool true, .int (2 ^ 63)], .list [.float (-0.0), .int (-1)]]) =
      ofSequences (Datum.list [.list [.bool true, .int (2 ^ 63)],
        .list [.float (-0.0), .int (-1)]]) := by
  have real : ∀ row ∈ [[Datum.bool true, .int (2 ^ 63)], [.float (-0.0), .int (-1)]],
      ∀ cell ∈ row, IsReal cell := by
    simp only [List.forall_mem_cons]
    exact ⟨⟨⟨.int 1, 1.0, rfl, rfl⟩, ⟨.int (2 ^ 63), 9223372036854775808.0, rfl, rfl⟩, nofun⟩,
      ⟨⟨.float (-0.0), -0.0, rfl, rfl⟩, ⟨.int (-1), -1.0, rfl, rfl⟩, nofun⟩, nofun⟩
  have widths : ∀ row ∈ [[Datum.bool true, .int (2 ^ 63)], [.float (-0.0), .int (-1)]],
      row.length = 2 := by simp
  exact (ofUniform_eq_ofSequences (by simp) widths real).1

end Rows

end BinaryQuadratic.CouplingArray
