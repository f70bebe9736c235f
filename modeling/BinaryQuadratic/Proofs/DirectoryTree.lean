import BinaryQuadratic.FileTree
import BinaryQuadratic.Proofs.Success

/-!
What is done to a tree of files. Making a directory adds directories on the way to it and nothing
else, and writing a file changes the node at its place, if that can be reached.
-/

namespace BinaryQuadratic

namespace Text

theorem isPlain_ofString (s : String) : (Text.ofString s).isPlain = true := by
  simp [isPlain, Text.ofString, ofChars]

theorem render_ofString (s : String) : (Text.ofString s).render = s := by
  have kept : CodePoint.toChar ∘ CodePoint.char = id := rfl
  simp [render, chars, Text.ofString, ofChars, kept]

theorem append_assoc (s t u : Text) : s ++ t ++ u = s ++ (t ++ u) := by
  change (⟨_⟩ : Text) = ⟨_⟩
  rw [Text.mk.injEq]
  exact List.append_assoc ..

theorem intercalate_last (separator : Text) (texts : List Text) :
    ∃ front : Text, ∀ last, intercalate separator (texts ++ [last]) = front ++ last := by
  induction texts with
  | nil =>
      refine ⟨empty, ?_⟩
      intro last
      rw [List.nil_append, intercalate, join, List.intersperse_singleton,
        List.flatMap_singleton]
      rfl
  | cons first rest ih =>
      obtain ⟨front, ends⟩ := ih
      refine ⟨first ++ separator ++ front, ?_⟩
      intro last
      have step : intercalate separator (first :: rest ++ [last]) =
          first ++ (separator ++ intercalate separator (rest ++ [last])) := by
        cases rest with
        | nil => rfl
        | cons second others => rfl
      rw [step, ends, append_assoc, append_assoc]

end Text

namespace PathName

theorem components_child (base : PathName) (name : Text) :
    (base.child name).components = base.components ++ [name] := by
  by_cases relative : base.root = ""
  · simp [components, child, relative]
  · simp [components, child, relative]

theorem render_child (base : PathName) :
    ∃ front : Text, ∀ name, (base.child name).render = front ++ name := by
  obtain ⟨front, ends⟩ := Text.intercalate_last "/" base.parts
  refine ⟨base.root ++ front, ?_⟩
  intro name
  rw [render, if_neg (by simp [child]), child, ends, Text.append_assoc]

end PathName

namespace FileTree

variable {t after : FileTree} {path place : List Text}

theorem node?_of_isBase (base : isBase path = true) : t.node? path = some .directory := by
  rw [node?, if_pos base]

theorem node?_nil (t : FileTree) : t.node? [] = some .directory := node?_of_isBase rfl

theorem find?_put {nodes : List (List Text × FileNode)} {path place : List Text} {node : FileNode} :
    (nodes.map fun other => if other.1 = path then (path, node) else other).find?
        (fun other => decide (other.1 = place)) =
      (nodes.find? fun other => decide (other.1 = place)).map
        fun other => if other.1 = path then (path, node) else other := by
  have keys : (fun other : List Text × FileNode => decide (other.1 = place)) ∘
      (fun other => if other.1 = path then (path, node) else other) =
        fun other => decide (other.1 = place) := by
    funext other
    by_cases here : other.1 = path
    · simp [here]
    · simp [here]
  rw [List.find?_map, keys]

theorem node?_put (t : FileTree) (path place : List Text) (node : FileNode) :
    (t.put path node).node? place =
      if place = path ∧ isBase path = false then some node else t.node? place := by
  by_cases base : isBase place = true
  · rw [node?_of_isBase base, node?_of_isBase base, if_neg]
    rintro ⟨rfl, other⟩
    rw [base] at other
    cases other
  · by_cases same : place = path
    · subst same
      rw [if_pos ⟨rfl, Bool.eq_false_iff.mpr base⟩, node?, if_neg base, put]
      cases found : t.nodes.find? fun other => decide (other.1 = place) with
      | none =>
          have absent : (t.nodes.any fun other => decide (other.1 = place)) = false := by
            rw [List.find?_eq_none] at found
            simpa using found
          rw [absent, if_neg Bool.false_ne_true, List.find?_append, found]
          simp
      | some other =>
          have here : other.1 = place := by simpa using List.find?_some found
          have present : (t.nodes.any fun other => decide (other.1 = place)) = true :=
            List.any_eq_true.mpr ⟨other, List.mem_of_find?_eq_some found, decide_eq_true here⟩
          rw [present, if_pos rfl, find?_put, found]
          simp [here]
    · rw [if_neg (fun both => same both.1), node?, node?, if_neg base, if_neg base, put]
      split
      · rw [find?_put]
        cases found : t.nodes.find? fun other => decide (other.1 = place) with
        | none => rfl
        | some other =>
            have here : other.1 = place := by simpa using List.find?_some found
            simp [here, same]
      · simp [List.find?_append, Ne.symm same]

theorem node?_put_self {node : FileNode} (free : t.node? place ≠ some .directory) :
    (t.put place node).node? place = some node := by
  have inner : isBase place = false := by
    rw [Bool.eq_false_iff]
    exact fun base => free (node?_of_isBase base)
  rw [node?_put, if_pos ⟨rfl, inner⟩]

theorem node?_put_directory {node : FileNode} (free : t.node? place ≠ some .directory)
    (there : t.node? path = some .directory) :
    (t.put place node).node? path = some .directory := by
  rw [node?_put, if_neg, there]
  rintro ⟨rfl, -⟩
  exact free there

def stations : List Text → List Text → List (List Text)
  | _, [] => []
  | path, part :: rest => step path part :: stations (step path part) rest

def Grown (t after : FileTree) (places : List (List Text)) : Prop :=
  ∀ place, after.node? place = t.node? place ∨
    t.node? place = none ∧ after.node? place = some .directory ∧ place ∈ places

theorem Grown.refl (t : FileTree) (places : List (List Text)) : Grown t t places :=
  fun _ => .inl rfl

theorem Grown.directory {places : List (List Text)} (grown : Grown t after places)
    (found : t.node? place = some .directory) : after.node? place = some .directory := by
  rcases grown place with same | ⟨missing, -, -⟩
  · rw [same, found]
  · rw [found] at missing
    cases missing

theorem Grown.later {places : List (List Text)} {first : List Text} {next : FileTree}
    (grown : Grown next after places)
    (put : ∀ place, next.node? place = t.node? place ∨
      t.node? place = none ∧ next.node? place = some .directory ∧ place = first) :
    Grown t after (first :: places) := by
  intro place
  rcases put place with kept | ⟨missing, made, rfl⟩
  · rcases grown place with same | ⟨missing, made, member⟩
    · exact .inl (same.trans kept)
    · exact .inr ⟨kept ▸ missing, made, List.mem_cons_of_mem _ member⟩
  · exact .inr ⟨missing, grown.directory made, List.mem_cons_self⟩

/-- All directories on a way are there, and none of its components is too long for a name. -/
def Passable (t : FileTree) (path rest : List Text) : Prop :=
  (∀ place ∈ stations path rest, t.node? place = some .directory) ∧
    ∀ part ∈ rest, byteSize part ≤ nameLimit

theorem ensureFrom_grown (t : FileTree) (made : Bool) (path rest : List Text) :
    Grown t (t.ensureFrom made path rest).1 (stations path rest) ∧
      ((t.ensureFrom made path rest).2 = .ok () →
        Passable (t.ensureFrom made path rest).1 path rest) := by
  induction rest generalizing t made path with
  | nil => exact ⟨.refl t _, fun _ => ⟨nofun, nofun⟩⟩
  | cons part rest ih =>
      unfold ensureFrom
      by_cases long : nameLimit < byteSize part
      · rw [if_pos long]
        exact ⟨.refl t _, nofun⟩
      · have extend {next : FileTree} {flag : Bool}
            (put : ∀ place, next.node? place = t.node? place ∨
              t.node? place = none ∧ next.node? place = some .directory ∧ place = step path part)
            (there : next.node? (step path part) = some .directory) :
            Grown t (next.ensureFrom flag (step path part) rest).1 (stations path (part :: rest)) ∧
              ((next.ensureFrom flag (step path part) rest).2 = .ok () →
                Passable (next.ensureFrom flag (step path part) rest).1 path (part :: rest)) := by
          obtain ⟨grown, passable⟩ := ih next flag (step path part)
          refine ⟨grown.later put, ?_⟩
          intro run
          obtain ⟨directories, short⟩ := passable run
          refine ⟨?_, ?_⟩
          · rw [stations, List.forall_mem_cons]
            exact ⟨grown.directory there, directories⟩
          · rw [List.forall_mem_cons]
            exact ⟨Nat.le_of_not_lt long, short⟩
        rw [if_neg long]
        dsimp only
        split
        · rename_i missing
          have free : t.node? (step path part) ≠ some .directory := by
            rw [missing]
            nofun
          apply extend
          · intro place
            rw [node?_put]
            split
            · rename_i here
              exact .inr ⟨here.1 ▸ missing, rfl, here.1⟩
            · exact .inl rfl
          · exact node?_put_self free
        · rename_i there
          exact extend (fun _ => .inl rfl) there
        · exact ⟨.refl t _, nofun⟩

theorem ensureDirectory_grown (t : FileTree) (path : PathName) :
    Grown t (t.ensureDirectory path).1 (stations [] path.components) ∧
      ((t.ensureDirectory path).2 = .ok () →
        Passable (t.ensureDirectory path).1 [] path.components) := by
  unfold ensureDirectory
  split
  · exact ⟨.refl t _, nofun⟩
  · split
    · exact ⟨.refl t _, nofun⟩
    · exact ensureFrom_grown t false [] path.components

theorem walk_child {rest : List Text} {name : Text} (start : t.node? path = some .directory)
    (passable : Passable t path rest) (short : byteSize name ≤ nameLimit) :
    t.walk path (rest ++ [name]) = .ok () := by
  induction rest generalizing path with
  | nil =>
      rw [List.nil_append, walk, start]
      dsimp only
      rw [if_neg (Nat.not_lt.mpr short), walk]
  | cons part rest ih =>
      obtain ⟨directories, names⟩ := passable
      rw [stations, List.forall_mem_cons] at directories
      rw [List.forall_mem_cons] at names
      rw [List.cons_append, walk, start]
      dsimp only
      rw [if_neg (Nat.not_lt.mpr names.1)]
      exact ih directories.1 ⟨directories.2, names.2⟩

theorem Passable.put {rest : List Text} {node : FileNode} (passable : Passable t path rest)
    (free : t.node? place ≠ some .directory) : Passable (t.put place node) path rest := by
  refine ⟨?_, passable.2⟩
  intro station member
  exact node?_put_directory free (passable.1 station member)

theorem step_forward {part : Text} (forward : part ≠ "..") : step path part = path ++ [part] := by
  rw [step, if_pos (by simp [forward])]

theorem resolve_child (base : PathName) {name : Text} (forward : name ≠ "..") :
    resolve (base.child name) = resolve base ++ [name] := by
  rw [resolve, PathName.components_child, List.foldl_append, List.foldl_cons, List.foldl_nil,
    ← resolve, step_forward forward]

theorem length_foldl_step {rest : List Text} (forward : (".." : Text) ∉ rest) :
    (rest.foldl step path).length = path.length + rest.length := by
  induction rest generalizing path with
  | nil => rfl
  | cons part rest ih =>
      rw [List.mem_cons, not_or] at forward
      rw [List.foldl_cons, ih forward.2, step_forward (Ne.symm forward.1), List.length_append,
        List.length_singleton, List.length_cons]
      omega

theorem length_stations_le {rest : List Text} (forward : (".." : Text) ∉ rest)
    (member : place ∈ stations path rest) : place.length ≤ path.length + rest.length := by
  induction rest generalizing path with
  | nil => cases member
  | cons part rest ih =>
      rw [List.mem_cons, not_or] at forward
      have next : (step path part).length = path.length + 1 := by
        rw [step_forward (Ne.symm forward.1), List.length_append, List.length_singleton]
      rw [List.length_cons]
      rcases List.mem_cons.mp member with rfl | later
      · omega
      · have bound := ih forward.2 later
        omega

theorem child_not_mem_stations {base : PathName} {name : Text} (forward : name ≠ "..")
    (straight : (".." : Text) ∉ base.components) :
    resolve (base.child name) ∉ stations [] base.components := by
  intro member
  have bound := length_stations_le straight member
  rw [resolve_child base forward, List.length_append, resolve, length_foldl_step straight,
    List.length_singleton] at bound
  omega

theorem byteSize_append (s t : Text) : byteSize (s ++ t) = byteSize s + byteSize t := by
  have shift (points : List CodePoint) (count : Nat) :
      points.foldl (fun count p => count + (byteCount? p).getD 0) count =
        count + points.foldl (fun count p => count + (byteCount? p).getD 0) 0 := by
    induction points generalizing count with
    | nil => rfl
    | cons p rest ih =>
        rw [List.foldl_cons, List.foldl_cons, ih, ih (0 + _)]
        omega
  change (s.points ++ t.points).foldl _ 0 = _
  rw [List.foldl_append, shift]
  rfl

theorem isStorable_append (s t : Text) : isStorable (s ++ t) = (isStorable s && isStorable t) := by
  change (s.points ++ t.points).all _ = _
  rw [List.all_append]
  rfl

theorem checkPath_eq_ok {path : PathName} : checkPath path = .ok () ↔
    isStorable path.render = true ∧ hasNull path = false ∧ byteSize path.render ≤ pathLimit := by
  unfold checkPath
  cases isStorable path.render with
  | false => simp
  | true =>
      cases hasNull path with
      | true => simp
      | false =>
          by_cases long : pathLimit < byteSize path.render
          · simp [long]
          · simp [long, Nat.le_of_not_lt long]

theorem checkPath_child {base : PathName} {first second : Text} (storable : isStorable second = true)
    (visible : second.points.contains (.char '\x00') = false)
    (shorter : byteSize second ≤ byteSize first)
    (checked : checkPath (base.child first) = .ok ()) :
    checkPath (base.child second) = .ok () := by
  obtain ⟨front, ends⟩ := base.render_child
  have nulls (name : Text) : hasNull (base.child name) =
      (base.parts.any (fun part => part.points.contains (.char '\x00')) ||
        name.points.contains (.char '\x00')) := by
    simp [hasNull, PathName.child]
  rw [checkPath_eq_ok, ends, isStorable_append, byteSize_append, nulls, Bool.and_eq_true,
    Bool.or_eq_false_iff] at checked ⊢
  obtain ⟨⟨stored, -⟩, ⟨free, -⟩, bound⟩ := checked
  exact ⟨⟨stored, storable⟩, ⟨free, visible⟩, by omega⟩

theorem writablePlace_eq_ok {path : PathName} : t.writablePlace path = .ok place ↔
    checkPath path = .ok () ∧ t.walk [] path.components = .ok () ∧
      t.node? (resolve path) ≠ some .directory ∧ place = resolve path := by
  constructor
  · intro found
    obtain ⟨_, checked, found⟩ := bind_eq_ok.mp found
    obtain ⟨_, passed, found⟩ := bind_eq_ok.mp found
    split at found
    · cases found
    · rename_i free
      cases found
      exact ⟨checked, passed, free, rfl⟩
  · rintro ⟨checked, passed, free, rfl⟩
    rw [writablePlace, checked, ok_bind, passed, ok_bind]
    split
    · rename_i there
      exact (free there).elim
    · rfl

theorem write_of_place {path : PathName} (found : t.writablePlace path = .ok place)
    (text : String) : t.write path text = (t.put place (.file text), .ok ()) := by
  rw [write, found]
  dsimp only
  rw [if_pos (Text.isPlain_ofString text), Text.render_ofString]

theorem write_cases (t : FileTree) (path : PathName) (text : String) :
    (∃ fault, t.write path text = (t, .error fault)) ∨
      t.write path text = (t.put (resolve path) (.file text), .ok ()) ∧ checkPath path = .ok () ∧
        t.node? (resolve path) ≠ some .directory := by
  cases found : t.writablePlace path with
  | error fault =>
      rw [write, found]
      exact .inl ⟨fault, rfl⟩
  | ok place =>
      obtain ⟨checked, -, free, rfl⟩ := writablePlace_eq_ok.mp found
      exact .inr ⟨write_of_place found text, checked, free⟩

theorem walk_put {path rest : List Text} {node : FileNode}
    (free : t.node? place ≠ some .directory) (passed : t.walk path rest = .ok ()) :
    (t.put place node).walk path rest = .ok () := by
  induction rest generalizing path with
  | nil => rfl
  | cons part rest ih =>
      rw [walk] at passed ⊢
      split at passed
      · cases passed
      · cases passed
      · rename_i there
        rw [node?_put_directory free there]
        dsimp only
        split at passed
        · cases passed
        · rename_i short
          rw [if_neg short]
          exact ih passed

theorem unifyLineEnds_of_unix {cs : List Char} (unix : '\r' ∉ cs) : unifyLineEnds cs = cs := by
  induction cs with
  | nil => rfl
  | cons c rest ih =>
      rw [List.mem_cons, not_or] at unix
      have other : c ≠ '\r' := fun same => unix.1 same.symm
      rw [unifyLineEnds, if_neg other, ih unix.2]
      rintro _ same
      exact (other same).elim

theorem read_of_unix {path : PathName} {text : String} (checked : checkPath path = .ok ())
    (passed : t.walk [] path.components = .ok ())
    (there : t.node? (resolve path) = some (.file text)) (unix : '\r' ∉ text.toList) :
    t.read path = .ok text := by
  rw [read, checked, ok_bind, passed, ok_bind, there]
  dsimp only
  rw [unifyLineEnds_of_unix unix, String.ofList_toList]
  rfl

/-- A text with line feeds alone is read as it was written. -/
theorem read_put {path : PathName} {text : String} (found : t.writablePlace path = .ok place)
    (unix : '\r' ∉ text.toList) : (t.put place (.file text)).read path = .ok text := by
  obtain ⟨checked, passed, free, rfl⟩ := writablePlace_eq_ok.mp found
  exact read_of_unix checked (walk_put free passed) (node?_put_self free) unix

theorem write_child {base : PathName} {name : Text} (passable : Passable t [] base.components)
    (checked : checkPath (base.child name) = .ok ()) (short : byteSize name ≤ nameLimit)
    (free : t.node? (resolve (base.child name)) ≠ some .directory) (text : String) :
    t.write (base.child name) text =
      (t.put (resolve (base.child name)) (.file text), .ok ()) := by
  apply write_of_place (writablePlace_eq_ok.mpr ⟨checked, ?_, free, rfl⟩)
  rw [PathName.components_child]
  exact walk_child (node?_nil t) passable short

theorem write_child_directory {base : PathName} {name : Text}
    (passable : Passable t [] base.components) (checked : checkPath (base.child name) = .ok ())
    (short : byteSize name ≤ nameLimit)
    (there : t.node? (resolve (base.child name)) = some .directory) (text : String) :
    t.write (base.child name) text = (t, .error (.file .isADirectory)) := by
  have found : t.writablePlace (base.child name) = .error (.file .isADirectory) := by
    rw [writablePlace, checked, ok_bind, PathName.components_child,
      walk_child (node?_nil t) passable short, ok_bind, there]
    rfl
  rw [write, found]

end FileTree

end BinaryQuadratic
