import BinaryQuadratic.Proofs.DirectoryTree
import BinaryQuadratic.Proofs.Json.RearrangedValues

/-!
Documents that are saved to files and loaded again.
-/

namespace BinaryQuadratic

namespace FileTree

variable {t : FileTree} {path : PathName} {place : List Text} {u v : Datum} {text : String}

theorem save_of_render (rendered : Json.render v = .ok text) :
    t.save path v = t.write path text := by
  rw [save, rendered]

theorem save_of_place (rendered : Json.render v = .ok text)
    (found : t.writablePlace path = .ok place) :
    t.save path v = (t.put place (.file text), .ok ()) := by
  rw [save_of_render rendered, write_of_place found]

theorem save_rearranged (document : Json.Document nestingLimit v) (same : v.Rearranged u)
    (t : FileTree) (path : PathName) : t.save path u = t.save path v := by
  rw [save, document.render_rearranged same, save]

theorem load_put (document : Json.Document nestingLimit v) (rendered : Json.render v = .ok text)
    (found : t.writablePlace path = .ok place) :
    (t.put place (.file text)).read path = .ok text ∧
      ∃ w, (t.put place (.file text)).load path = .ok w ∧ v.Rearranged w := by
  obtain ⟨unix, w, parsed, -, restored⟩ := Json.restored_of_render document.keyed rendered
  have read := read_put found unix
  refine ⟨read, w, ?_, restored.rearranged document⟩
  rw [load, read, ok_bind, parsed]

/-- A document is saved as one text, whatever the order of its fields, unless its file cannot be
written. It is loaded as it was saved but for that order, and what is loaded is saved as that text
again. -/
theorem documents_saved {v : Datum} (document : Json.Document nestingLimit v) : ∃ text,
    Json.render v = .ok text ∧
    (∀ u, v.Rearranged u → Json.render u = .ok text ∧
      ∀ (t : FileTree) path, t.save path u = t.save path v) ∧
    ∀ (t : FileTree) path,
      (∃ fault, t.writablePlace path = .error fault ∧ t.save path v = (t, .error fault)) ∨
      ∃ after w, t.save path v = (after, .ok ()) ∧ after.read path = .ok text ∧
        after.load path = .ok w ∧ v.Rearranged w ∧
        ∀ (other : FileTree) place, other.save place w = other.save place v := by
  obtain ⟨text, rendered⟩ := document.rendered
  refine ⟨text, rendered, ?_, ?_⟩
  · intro u same
    exact ⟨(document.render_rearranged same).trans rendered, save_rearranged document same⟩
  · intro t path
    cases found : t.writablePlace path with
    | error fault =>
        refine .inl ⟨fault, rfl, ?_⟩
        rw [save_of_render rendered, write, found]
    | ok place =>
        obtain ⟨read, w, loaded, same⟩ := load_put document rendered found
        exact .inr ⟨_, w, save_of_place rendered found, read, loaded, same,
          save_rearranged document same⟩

def assortment : Datum := .table [
  (.text "values", .list [.int 1, .float 1, .bool true, .float (0 / 0), .float (-1 / 0), .null]),
  (.text "names", .table [(.text "é", .text "😀\n"), (.text "", .list [])])]

def orderedAssortment : Datum := .table [
  (.text "names", .table [(.text "", .list []), (.text "é", .text "😀\n")]),
  (.text "values", .list [.int 1, .float 1, .bool true, .float (0 / 0), .float (-1 / 0), .null])]

theorem document_assortment : Json.Document nestingLimit assortment := by
  obtain ⟨depth, deep⟩ : ∃ depth, nestingLimit = depth + 3 := ⟨986, rfl⟩
  have values : Json.Document (depth + 2) (.list [.int 1, .float 1, .bool true, .float (0 / 0),
      .float (-1 / 0), .null]) := by
    apply Json.Document.list
    simp only [List.forall_mem_cons]
    refine ⟨.scalar ?_, .scalar trivial, .scalar trivial, .scalar trivial, .scalar trivial,
      .scalar trivial, nofun⟩
    exact Nat.one_lt_pow (by decide) (by decide)
  have names : Json.Document (depth + 2)
      (.table [(.text "é", .text "😀\n"), (.text "", .list [])]) := by
    apply Json.Document.table (by unfold Json.TextKeys; decide) (by decide)
    simp only [List.forall_mem_cons]
    exact ⟨.scalar (Text.isPlain_ofString _), .list nofun, nofun⟩
  rw [deep, assortment]
  apply Json.Document.table (by unfold Json.TextKeys; decide) (by decide)
  simp only [List.forall_mem_cons]
  exact ⟨values, names, nofun⟩

theorem rearranged_assortment : assortment.Rearranged orderedAssortment := by
  refine .table (.swap _ _ _) ?_ (.cons (.refl _) (.cons (.table (.swap _ _ _) ?_ ?_) .nil))
  · rfl
  · rfl
  · exact .cons (.refl _) (.cons (.refl _) .nil)

theorem documents_saved_assortment :
    Json.Document nestingLimit assortment ∧ assortment.Rearranged orderedAssortment ∧
      empty.save ⟨"", ["a"]⟩ orderedAssortment = empty.save ⟨"", ["a"]⟩ assortment ∧
      ∃ after w, empty.save ⟨"", ["a"]⟩ assortment = (after, .ok ()) ∧
        after.load ⟨"", ["a"]⟩ = .ok w ∧ assortment.Rearranged w ∧
        after.save ⟨"", ["a"]⟩ w = after.save ⟨"", ["a"]⟩ assortment := by
  obtain ⟨text, -, orders, places⟩ := documents_saved document_assortment
  refine ⟨document_assortment, rearranged_assortment, (orders _ rearranged_assortment).2 _ _, ?_⟩
  have found : empty.writablePlace ⟨"", ["a"]⟩ = .ok ["a"] := eq_ok_of_toOption (by decide)
  rcases places empty ⟨"", ["a"]⟩ with ⟨fault, refused, -⟩ | ⟨after, w, saved, -, loaded, rest⟩
  · rw [found] at refused
    cases refused
  · exact ⟨after, w, saved, loaded, rest.1, rest.2 _ _⟩

end FileTree

end BinaryQuadratic
