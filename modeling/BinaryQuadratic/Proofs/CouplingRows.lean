import BinaryQuadratic.Proofs.Binary64.Conversion
import BinaryQuadratic.Proofs.Binary64.ExactValue
import BinaryQuadratic.Proofs.GridShape
import BinaryQuadratic.Proofs.RowChecks
import BinaryQuadratic.Proofs.SquareGrid

/-!
Square grids that are built from numbers. Whether they come from rows, from an array of one kind
or from a problem, they hold numbers, and those below the diagonal are zero.
-/

namespace BinaryQuadratic

open Binary64

namespace CouplingArray

def IsSquare (h : CouplingArray) (side : Nat) : Prop :=
  ∃ rows, h = .grid rows ∧ rows.length = side ∧ ∀ row ∈ rows, row.length = side

structure IsTriangular (h : CouplingArray) (side : Nat) : Prop where
  square : h.IsSquare side
  below : ∀ i j x, j < i → h.read i j = .ok x → (x == 0.0) = true

structure IsUpper (h : CouplingArray) (side : Nat) : Prop where
  square : h.IsSquare side
  number : ∀ i j x, h.read i j = .ok x → x.isNaN = false
  below : ∀ i j x, j < i → h.read i j = .ok x → (x == 0.0) = true

theorem read_grid {rows : List (List Float)} {i j : Nat} {x : Float} :
    (grid rows).read i j = .ok x ↔ ∃ cells, rows[i]? = some cells ∧ cells[j]? = some x := by
  constructor
  · intro run
    unfold read at run
    simp only at run
    split at run
    · cases run
    · rename_i cells row
      cases column : cells[j]? with
      | none =>
          rw [column] at run
          cases run
      | some y =>
          rw [column] at run
          cases run
          exact ⟨cells, row, column⟩
  · rintro ⟨cells, row, column⟩
    simp [read, row, column]

theorem eq_square_of_isSquare {h : CouplingArray} {side : Nat} (squared : h.IsSquare side) :
    ∃ entry, h = square side entry := by
  obtain ⟨rows, rfl, height, width⟩ := squared
  exact ⟨_, grid_eq_square height width⟩

theorem read_square_iff {side : Nat} {entry : Nat → Nat → Float} {i j : Nat} {x : Float} :
    (square side entry).read i j = .ok x ↔ i < side ∧ j < side ∧ entry i j = x := by
  by_cases rowBound : i < side
  · by_cases columnBound : j < side
    · simp [read_square rowBound columnBound, rowBound, columnBound]
    · simp [read, square, rowBound, columnBound]
  · simp [read, square, rowBound]

section Rows

variable {ν : Type} [Value ν]

def IsNumber (v : ν) : Prop := ∃ number, Value.toNumber v = .ok number

/-- A value that is a number of either kind, and not one that is unordered. -/
def IsNumeric (v : ν) : Prop :=
  ∃ number, Value.toNumber v = .ok number ∧ ∀ x, number = .float x → x.isNaN = false

theorem IsNumeric.isNumber {v : ν} (numeric : IsNumeric v) : IsNumber v := by
  obtain ⟨number, read, -⟩ := numeric
  exact ⟨number, read⟩

theorem scalar_of_toNumber {v : ν} {number : Number} (read : Value.toNumber v = .ok number) :
    ∃ s, Value.layer v = .scalar s ∧ s.number? = some number := by
  rw [Value.toNumber, Value.toScalar, Value.scalar?] at read
  cases layer : Value.layer v with
  | scalar s =>
      refine ⟨s, rfl, ?_⟩
      rw [layer] at read
      change s.toNumber = .ok number at read
      rw [Scalar.toNumber] at read
      cases known : s.number? with
      | none =>
          rw [known] at read
          cases read
      | some other =>
          rw [known] at read
          cases read
          rfl
  | _ =>
      rw [layer] at read
      cases read

theorem outline_scalar {v : ν} {s : Scalar} (layer : Value.layer v = .scalar s) (depth : Nat) :
    Survey.outline depth v = .scalar s := by
  cases depth with
  | zero => rw [Survey.outline, layer]
  | succ depth => rw [Survey.outline, layer]

theorem toFloat_number {v : ν} {number : Number} (read : Value.toNumber v = .ok number) :
    Value.toFloat v = number.toFloat := by
  obtain ⟨s, layer, known⟩ := scalar_of_toNumber read
  rw [Value.toFloat, Value.toScalar, Value.scalar?, layer]
  cases s with
  | bool b => cases known; rfl
  | int n => cases known; rfl
  | float x => cases known; rfl
  | _ => cases known

theorem coupling_number {v : ν} {number : Number} (read : Value.toNumber v = .ok number) :
    coupling (cellOutline v) = number.toFloat := by
  obtain ⟨s, layer, known⟩ := scalar_of_toNumber read
  rw [cellOutline, outline_scalar layer]
  cases s with
  | bool b => cases known; rfl
  | int n => cases known; rfl
  | float x => cases known; rfl
  | _ => cases known

theorem equalsInt_number {v : ν} {number : Number} (read : Value.toNumber v = .ok number)
    (n : Int) : Value.equalsInt v n = number.equals (.int n) := by
  obtain ⟨s, layer, known⟩ := scalar_of_toNumber read
  rw [Value.equalsInt, Value.scalar?, layer, Layer.scalar?, Option.bind_some, known]
  rfl

theorem isNaN_toFloat {number : Number} {x : Float}
    (ordered : ∀ y, number = .float y → y.isNaN = false) (run : number.toFloat = .ok x) :
    x.isNaN = false := by
  cases number with
  | int n => exact isNaN_of_toFloat run
  | float y =>
      cases run
      exact ordered x rfl

theorem zero_of_toFloat {v : ν} {x : Float} (number : IsNumber v)
    (zero : Value.equalsInt v 0 = true) (run : Value.toFloat v = .ok x) :
    (x == 0.0) = true := by
  obtain ⟨number, read⟩ := number
  rw [equalsInt_number read] at zero
  rw [toFloat_number read] at run
  cases number with
  | int n =>
      have none : (n : ℚ) = (0 : Int) := (Number.equals_iff (.int n) (.int 0)).mp zero
      rw [Rat.intCast_inj] at none
      subst none
      cases run
      rfl
  | float y =>
      cases run
      cases shape : parts x with
      | notANumber => simp [Number.equals, Number.compare?, compareInt?, shape] at zero
      | infinite negative =>
          cases negative <;> simp [Number.equals, Number.compare?, compareInt?, shape] at zero
      | finite negative mantissa exponent =>
          have finite := isFinite_of_parts shape
          have none := (Number.equals_iff (.float finite) (.int 0)).mp zero
          rw [beq_iff_exactValue finite rfl, none, exactValue_zero, Int.cast_zero]

theorem chunks_flatten {side : Nat} {rows : List (List Float)}
    (width : ∀ row ∈ rows, row.length = side) : chunks side rows.length rows.flatten = rows := by
  induction rows with
  | nil => rfl
  | cons row rest ih =>
      rw [List.forall_mem_cons] at width
      rw [List.length_cons, chunks, List.flatten_cons, List.take_left' width.1,
        List.drop_left' width.1, ih width.2]

theorem length_flatten_rows {side : Nat} {rows : List (List Float)}
    (width : ∀ row ∈ rows, row.length = side) : rows.flatten.length = rows.length * side := by
  induction rows with
  | nil => simp
  | cons row rest ih =>
      rw [List.forall_mem_cons] at width
      rw [List.flatten_cons, List.length_append, width.1, ih width.2, List.length_cons,
        Nat.succ_mul, Nat.add_comm]

theorem outline_rows {rows : List (List ν)} (numbers : ∀ row ∈ rows, ∀ v ∈ row, IsNumber v) :
    (rows.map fun row => Datum.list (row.map cellOutline)) =
      (rows.map fun row => row.map fun v => (Value.scalar? v).getD .null).map
        fun row => .list (row.map Datum.scalar) := by
  rw [List.map_map]
  apply List.map_congr_left
  intro row rowMember
  apply congrArg Datum.list
  rw [List.map_map]
  apply List.map_congr_left
  intro v member
  obtain ⟨number, read⟩ := numbers row rowMember v member
  obtain ⟨s, layer, -⟩ := scalar_of_toNumber read
  simp only [cellOutline, outline_scalar layer, Function.comp_apply, Value.scalar?, layer,
    Layer.scalar?, Option.getD_some]

theorem shapeOf_outline {width : Nat} {rows : List (List ν)} (present : rows ≠ [])
    (widths : ∀ row ∈ rows, row.length = width)
    (numbers : ∀ row ∈ rows, ∀ v ∈ row, IsNumber v) :
    Survey.shapeOf (.list (rows.map fun row => .list (row.map cellOutline))) =
      .ok [rows.length, width] := by
  have outlined : ∀ leaves ∈ rows.map fun row => row.map fun v => (Value.scalar? v).getD .null,
      leaves.length = width := by
    intro leaves member
    obtain ⟨row, rowMember, rfl⟩ := List.mem_map.mp member
    rw [List.length_map, widths row rowMember]
  rw [outline_rows numbers, Survey.shapeOf_rows (by simpa using present) outlined,
    List.length_map]

theorem ofDatum_rows {width : Nat} {rows : List (List ν)} (present : rows ≠ [])
    (widths : ∀ row ∈ rows, row.length = width)
    (numbers : ∀ row ∈ rows, ∀ v ∈ row, IsNumber v) :
    ofDatum (.list (rows.map fun row => .list (row.map cellOutline))) =
      .grid <$> rows.mapM fun row => row.mapM Value.toFloat := by
  have inner (row : List ν) (rowMember : row ∈ rows) :
      (listItems (.list (row.map cellOutline))).mapM coupling = row.mapM Value.toFloat := by
    rw [listItems, List.mapM_map]
    apply mapM_congr
    intro v member
    obtain ⟨number, read⟩ := numbers row rowMember v member
    rw [Function.comp_apply, coupling_number read, toFloat_number read]
  rw [ofDatum, shapeOf_outline present widths numbers, ok_bind]
  change grid <$> (rows.map fun row => Datum.list (row.map cellOutline)).mapM _ = _
  rw [List.mapM_map]
  exact congrArg _ (mapM_congr inner)

theorem reshape_grid {floats : List (List Float)}
    (width : ∀ row ∈ floats, row.length = floats.length) :
    reshape floats.length (grid floats).cells = .ok (.grid floats) := by
  rw [reshape, cells, if_pos (length_flatten_rows width), chunks_flatten width]

theorem length_floats {rows : List (List ν)} {floats : List (List Float)}
    (read : (rows.mapM fun row => row.mapM Value.toFloat) = .ok floats)
    (width : ∀ row ∈ rows, row.length = rows.length) :
    ∀ row ∈ floats, row.length = floats.length := by
  intro row member
  obtain ⟨source, sourceMember, rowRead⟩ := mem_of_mapM_eq_ok read member
  rw [length_of_mapM_eq_ok rowRead, width source sourceMember, length_of_mapM_eq_ok read]

theorem ofRows_of_checkRows {rows : List (List ν)}
    (numbers : ∀ row ∈ rows, ∀ v ∈ row, IsNumber v)
    (checked : checkRows rows.length 0 rows = .ok ()) :
    ofRows rows = .grid <$> rows.mapM fun row => row.mapM Value.toFloat := by
  have width := width_of_checkRows checked
  rw [ofRows, checked, ok_bind]
  by_cases present : rows = []
  · subst present
    rfl
  · rw [ofDatum_rows present width numbers]
    cases read : rows.mapM fun row => row.mapM Value.toFloat with
    | error fault => rfl
    | ok floats =>
        rw [map_ok, ok_bind, ← length_of_mapM_eq_ok read, reshape_grid (length_floats read width)]

theorem ofRows_grid {rows : List (List ν)} {h : CouplingArray}
    (numbers : ∀ row ∈ rows, ∀ v ∈ row, IsNumber v) (run : ofRows rows = .ok h) :
    ∃ floats, (rows.mapM fun row => row.mapM Value.toFloat) = .ok floats ∧ h = .grid floats ∧
      floats.length = rows.length ∧ ∀ row ∈ floats, row.length = rows.length := by
  obtain ⟨_, checked, -⟩ := bind_eq_ok.mp run
  rw [ofRows_of_checkRows numbers checked] at run
  obtain ⟨floats, read, rfl⟩ := map_eq_ok.mp run
  have height := length_of_mapM_eq_ok read
  refine ⟨floats, read, rfl, height, ?_⟩
  rw [← height]
  exact length_floats read (width_of_checkRows checked)

theorem cell_of_read {rows : List (List ν)} {floats : List (List Float)} {i j : Nat} {x : Float}
    (mapped : (rows.mapM fun row => row.mapM Value.toFloat) = .ok floats)
    (read : (CouplingArray.grid floats).read i j = .ok x) :
    ∃ row v, rows[i]? = some row ∧ row[j]? = some v ∧ Value.toFloat v = .ok x := by
  obtain ⟨cells, rowFound, cellFound⟩ := read_grid.mp read
  obtain ⟨row, stored, rowRun⟩ := getElem?_of_mapM_eq_ok mapped rowFound
  obtain ⟨v, cell, cellRun⟩ := getElem?_of_mapM_eq_ok rowRun cellFound
  exact ⟨row, v, stored, cell, cellRun⟩

theorem ofRows_isTriangular {rows : List (List ν)} {h : CouplingArray}
    (numbers : ∀ row ∈ rows, ∀ v ∈ row, IsNumber v) (run : ofRows rows = .ok h) :
    h.IsTriangular rows.length := by
  obtain ⟨_, checked, -⟩ := bind_eq_ok.mp run
  obtain ⟨floats, mapped, rfl, height, floatWidth⟩ := ofRows_grid numbers run
  refine ⟨⟨floats, rfl, height, floatWidth⟩, ?_⟩
  intro i j x order read
  obtain ⟨row, v, stored, cell, cellRun⟩ := cell_of_read mapped read
  have member := numbers row (List.mem_of_getElem? stored) v (List.mem_of_getElem? cell)
  have fits := checkRows_eq_ok_iff.mp checked i row stored
  exact zero_of_toFloat member (fits.zeros j v (by omega) cell) cellRun

theorem ofRows_isUpper {rows : List (List ν)} {h : CouplingArray}
    (numeric : ∀ row ∈ rows, ∀ v ∈ row, IsNumeric v) (run : ofRows rows = .ok h) :
    h.IsUpper rows.length := by
  have numbers : ∀ row ∈ rows, ∀ v ∈ row, IsNumber v :=
    fun row rowMember v member => (numeric row rowMember v member).isNumber
  obtain ⟨square, below⟩ := ofRows_isTriangular numbers run
  obtain ⟨floats, mapped, rfl, -⟩ := ofRows_grid numbers run
  refine ⟨square, ?_, below⟩
  intro i j x read
  obtain ⟨row, v, stored, cell, cellRun⟩ := cell_of_read mapped read
  have member := numeric row (List.mem_of_getElem? stored) v (List.mem_of_getElem? cell)
  obtain ⟨number, read, ordered⟩ := member
  rw [toFloat_number read] at cellRun
  exact isNaN_toFloat ordered cellRun

end Rows

namespace CellKind

theorem ofDatum_number {d : Datum} (number : IsNumber d) : CellKind.ofDatum d ≠ written := by
  obtain ⟨number, read⟩ := number
  obtain ⟨s, layer, known⟩ := scalar_of_toNumber read
  cases d with
  | scalar other =>
      cases layer
      cases s with
      | bool b => simp [CellKind.ofDatum]
      | int n =>
          simp only [CellKind.ofDatum]
          split
          · simp
          · split <;> simp
      | float x => simp [CellKind.ofDatum]
      | _ => cases known
  | list items => cases layer
  | table fields => cases layer

theorem join_ne_written {a b : CellKind} (left : a ≠ written) (right : b ≠ written) :
    a.join b ≠ written := by
  cases a <;> cases b <;> simp_all [join]

theorem convert_number {kind : CellKind} {d converted : Datum} (unwritten : kind ≠ written)
    (number : IsNumber d) (run : kind.convert d = .ok converted) : IsNumber converted := by
  cases kind with
  | truth =>
      cases run
      exact number
  | signed =>
      obtain ⟨n, -, rfl⟩ := map_eq_ok.mp run
      exact ⟨.int n, rfl⟩
  | unsigned =>
      obtain ⟨n, -, rfl⟩ := map_eq_ok.mp run
      exact ⟨.int n, rfl⟩
  | real =>
      obtain ⟨x, -, rfl⟩ := map_eq_ok.mp run
      exact ⟨.float x, rfl⟩
  | written => exact (unwritten rfl).elim
  | mixed =>
      cases run
      exact number

theorem convert_numeric {kind : CellKind} {d converted : Datum} (unwritten : kind ≠ written)
    (numeric : IsNumeric d) (run : kind.convert d = .ok converted) : IsNumeric converted := by
  have whole (n : Int) : IsNumeric (Datum.int n) := ⟨.int n, rfl, by simp⟩
  cases kind with
  | truth =>
      cases run
      exact numeric
  | signed =>
      obtain ⟨n, -, rfl⟩ := map_eq_ok.mp run
      exact whole n
  | unsigned =>
      obtain ⟨n, -, rfl⟩ := map_eq_ok.mp run
      exact whole n
  | real =>
      obtain ⟨x, read, rfl⟩ := map_eq_ok.mp run
      obtain ⟨number, known, ordered⟩ := numeric
      rw [toFloat_number known] at read
      refine ⟨.float x, rfl, ?_⟩
      rintro y same
      cases same
      exact isNaN_toFloat ordered read
  | written => exact (unwritten rfl).elim
  | mixed =>
      cases run
      exact numeric

end CellKind

theorem commonKind_ne_written {rows : List (List Datum)}
    (numbers : ∀ row ∈ rows, ∀ d ∈ row, IsNumber d) :
    (rows.flatten.map CellKind.ofDatum).foldl CellKind.join .truth ≠ .written := by
  apply foldl_invariant (fun kind => kind ≠ CellKind.written)
  · simp
  · intro kind member state kept
    obtain ⟨d, cell, rfl⟩ := List.mem_map.mp member
    obtain ⟨row, rowMember, within⟩ := List.mem_flatten.mp cell
    exact CellKind.join_ne_written kept (CellKind.ofDatum_number (numbers row rowMember d within))

theorem unify_keeps {P : Datum → Prop} {rows unified : List (List Datum)}
    (number : ∀ d, P d → IsNumber d)
    (keeps : ∀ kind d converted, kind ≠ CellKind.written → P d →
      CellKind.convert kind d = .ok converted → P converted)
    (held : ∀ row ∈ rows, ∀ d ∈ row, P d) (run : unify rows = .ok unified) :
    ∀ row ∈ unified, ∀ d ∈ row, P d := by
  have unwritten := commonKind_ne_written fun row rowMember d member =>
    number d (held row rowMember d member)
  intro row member d cell
  obtain ⟨stored, storedMember, rowRun⟩ := mem_of_mapM_eq_ok run member
  obtain ⟨source, sourceMember, cellRun⟩ := mem_of_mapM_eq_ok rowRun cell
  exact keeps _ source d unwritten (held stored storedMember source sourceMember) cellRun

theorem ofUniform_eq_ok {d : Datum} {h : CouplingArray} (run : ofUniform d = .ok h) :
    ∃ unified, unify ((listItems d).map listItems) = .ok unified ∧ ofRows unified = .ok h := by
  obtain ⟨shape, -, run⟩ := bind_eq_ok.mp run
  split at run
  · exact bind_eq_ok.mp run
  · cases run

theorem ofUniform_isUpper {d : Datum} {h : CouplingArray}
    (numeric : ∀ row ∈ (listItems d).map listItems, ∀ cell ∈ row, IsNumeric cell)
    (run : ofUniform d = .ok h) : ∃ side, h.IsUpper side := by
  obtain ⟨unified, unifyRun, run⟩ := ofUniform_eq_ok run
  have kept := unify_keeps (fun _ => IsNumeric.isNumber)
    (fun _ _ _ => CellKind.convert_numeric) numeric unifyRun
  exact ⟨_, ofRows_isUpper kept run⟩

theorem ofUniform_isTriangular {d : Datum} {h : CouplingArray}
    (numbers : ∀ row ∈ (listItems d).map listItems, ∀ cell ∈ row, IsNumber cell)
    (run : ofUniform d = .ok h) : h.IsTriangular (listItems d).length := by
  obtain ⟨unified, unifyRun, run⟩ := ofUniform_eq_ok run
  have kept := unify_keeps (fun _ => id) (fun _ _ _ => CellKind.convert_number) numbers unifyRun
  have height := length_of_mapM_eq_ok unifyRun
  rw [List.length_map] at height
  rw [← height]
  exact ofRows_isTriangular kept run

end CouplingArray

theorem Problem.toCouplings_isTriangular {p : Problem} {h : CouplingArray}
    (run : p.toCouplings = .ok h) : h.IsTriangular p.size.toNat := by
  obtain ⟨_, -, run⟩ := bind_eq_ok.mp run
  obtain ⟨floats, mapped, rfl⟩ := map_eq_ok.mp run
  have height := length_of_mapM_eq_ok mapped
  rw [List.length_range] at height
  refine ⟨⟨floats, rfl, height, ?_⟩, ?_⟩
  · intro row member
    obtain ⟨i, -, rowRun⟩ := mem_of_mapM_eq_ok mapped member
    rw [length_of_mapM_eq_ok rowRun, List.length_range]
  · intro i j x order read
    obtain ⟨row, rowFound, cellFound⟩ := CouplingArray.read_grid.mp read
    obtain ⟨r, inside, rowRun⟩ := getElem?_of_mapM_eq_ok mapped rowFound
    obtain ⟨c, within, cellRun⟩ := getElem?_of_mapM_eq_ok rowRun cellFound
    obtain ⟨_, rfl⟩ := List.getElem?_eq_some_iff.mp inside
    obtain ⟨_, rfl⟩ := List.getElem?_eq_some_iff.mp within
    rw [List.getElem_range, List.getElem_range, couplingAt_below order] at cellRun
    cases cellRun
    rfl

theorem Problem.toCouplings_isUpper {p : Problem} {h : CouplingArray}
    (numbers : p.HasCoefficients fun x => x.isNaN = false) (run : p.toCouplings = .ok h) :
    h.IsUpper p.size.toNat := by
  obtain ⟨square, below⟩ := toCouplings_isTriangular run
  rw [toCouplings_eq (couplingAt_eq_weight numbers)] at run
  obtain ⟨_, -, run⟩ := bind_eq_ok.mp run
  cases run
  refine ⟨square, ?_, below⟩
  intro i j x read
  obtain ⟨-, -, rfl⟩ := CouplingArray.read_square_iff.mp read
  rcases weight_cases numbers i j with zero | number
  · rw [zero]
    rfl
  · exact number

end BinaryQuadratic
