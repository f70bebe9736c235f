import BinaryQuadratic.Proofs.Json.NormalForms
import BinaryQuadratic.Proofs.Json.WrittenValues

/-!
Values written and read back. What comes back has the fields of its tables in ascending order and
its texts joined, and it is written as the same text again.
-/

namespace BinaryQuadratic

namespace Json

variable {levels depth : Nat} {outer : List Nat} {v w d : Datum}

theorem nodup_of_pairwise_less {texts : List Text}
    (ascending : texts.Pairwise fun s t => s.less t = true) : texts.Nodup := by
  apply ascending.imp
  rintro s t before rfl
  rw [Text.less_irrefl] at before
  cases before

theorem readable_of_normal (keyed : Keyed v) (run : normalizeWithin levels outer v = .ok d) :
    Readable levels d := by
  induction levels generalizing v d with
  | zero =>
      cases arranged_of_normal keyed run with
      | scalar checked => exact .scalar checked
  | succ levels ih =>
      cases arranged_of_normal keyed run with
      | scalar checked => exact .scalar checked
      | list related => exact .list (right_of_forall₂ related fun a b both => ih both.1 both.2)
      | @table _ fields sorted others perm ascending steady related =>
          have keys : others.map Prod.fst = sorted.map Prod.fst :=
            (map_eq_of_forall₂ related fun _ _ both => both.1.symm).symm
          have joined : others.map (fun other => (keyOf other.1).joined) =
              sorted.map fun field => (keyOf field.1).joined := by
            have mapped := congrArg (List.map fun key => (keyOf key).joined) keys
            rwa [List.map_map, List.map_map] at mapped
          apply Readable.table
          · intro other member
            have inside : other.1 ∈ others.map Prod.fst := List.mem_map_of_mem member
            rw [keys, List.mem_map] at inside
            obtain ⟨field, fieldMember, same⟩ := inside
            rw [← same]
            exact ascending.1 field fieldMember
          · rw [joined]
            apply nodup_of_pairwise_less
            rw [List.pairwise_map]
            exact steady
          · exact right_of_forall₂ related fun a b both => ih both.2.1 both.2.2

def Restored (levels : Nat) (v w : Datum) : Prop :=
  Keyed v ∧ ∃ d, normalizeWithin levels [] v = .ok d ∧ w = reread levels d

theorem Restored.arranged (restored : Restored levels v w) :
    Arranged Scalar.reread Restored levels v w := by
  obtain ⟨keyed, d, run, rfl⟩ := restored
  cases arranged_of_normal keyed run with
  | @scalar levels s checked =>
      cases levels <;> exact .scalar checked
  | list related =>
      rw [reread]
      apply Arranged.list
      rw [List.forall₂_map_right_iff]
      exact related.imp fun a b both => ⟨both.1, b, both.2, rfl⟩
  | table perm ascending steady related =>
      rw [reread]
      apply Arranged.table perm ascending steady
      rw [List.forall₂_map_right_iff]
      refine related.imp fun field other both => ⟨?_, both.2.1, other.2, both.2.2, rfl⟩
      rw [both.1]
      rfl

theorem checkScalar_reread {s : Scalar} (checked : checkScalar s = .ok s) :
    checkScalar s.reread = .ok s.reread := by
  cases s with
  | text t => rfl
  | _ => exact checked

theorem ascending_reread {sorted others : Fields Datum} (ascending : Ascending sorted)
    (steady : sorted.Pairwise fun a b => (keyOf a.1).joined.less (keyOf b.1).joined = true)
    (keys : others.map Prod.fst = sorted.map fun field => field.1.reread) : Ascending others := by
  have texts : ∀ field ∈ sorted, field.1.reread = .text (keyOf field.1).joined := by
    intro field member
    rw [eq_text_of_isText (ascending.1 field member)]
    rfl
  rw [ascending_iff, keys, List.forall_mem_map, List.pairwise_map]
  refine ⟨?_, ?_⟩
  · intro field member
    rw [texts field member]
    rfl
  · apply steady.imp_of_mem
    intro a b aMember bMember before
    rw [texts a aMember, texts b bMember]
    exact before

theorem Restored.normal (restored : Restored levels v w) :
    normalizeWithin levels outer w = .ok w := by
  induction levels generalizing v w with
  | zero =>
      cases restored.arranged with
      | scalar checked => exact normalizeWithin_scalar (checkScalar_reread checked)
  | succ levels ih =>
      cases restored.arranged with
      | scalar checked => exact normalizeWithin_scalar (checkScalar_reread checked)
      | list related =>
          have same := mapM_eq_ok_map (f := normalizeWithin levels outer) (g := id)
            (right_of_forall₂ related fun a b part => ih part)
          rw [List.map_id] at same
          exact normalizeWithin_list same
      | @table _ fields sorted others perm ascending steady related =>
          have order := ascending_reread ascending steady
            (map_eq_of_forall₂ related fun _ _ both => both.1.symm).symm
          have values : ∀ other ∈ others, normalizeWithin levels outer other.2 = .ok other.2 :=
            right_of_forall₂ related fun _ _ both => ih both.2
          rw [normalizeWithin_fields, sortFields_of_perm order (.refl _), ok_bind,
            mapM_eq_ok_map (g := id), List.map_id, map_ok]
          rintro ⟨key, value⟩ member
          have text := order.1 _ member
          dsimp only at text ⊢
          rw [keyText_of_isText text, ok_bind, values _ member, ok_bind, ← eq_text_of_isText text]
          rfl

theorem writeText_reread {key : Scalar} (text : isText key = true) (tail : List Char) :
    writeText (keyOf key.reread) tail = writeText (keyOf key) tail := by
  rw [eq_text_of_isText text]
  change writeText (keyOf key).joined tail = writeText (keyOf key) tail
  rw [writeText, escape_joined, writeText]

theorem writeItems_reread {items : List Datum} (same : ∀ item ∈ items, ∀ tail,
    write depth (reread levels item) tail = write depth item tail) (tail : List Char) :
    writeItems depth (items.map (reread levels)) tail = writeItems depth items tail := by
  induction items with
  | nil => rfl
  | cons item rest ih =>
      rw [List.forall_mem_cons] at same
      rw [List.map_cons, writeItems, writeItems, same.1, ih same.2]

theorem writeFields_reread {fields : Fields Datum} (texts : ∀ field ∈ fields, isText field.1 = true)
    (same : ∀ field ∈ fields, ∀ tail,
      write depth (reread levels field.2) tail = write depth field.2 tail) (tail : List Char) :
    writeFields depth (fields.map fun field => (field.1.reread, reread levels field.2)) tail =
      writeFields depth fields tail := by
  induction fields with
  | nil => rfl
  | cons field rest ih =>
      rw [List.forall_mem_cons] at texts same
      rw [List.map_cons, writeFields, writeFields, same.1, ih texts.2 same.2,
        writeText_reread texts.1]

theorem write_reread (readable : Readable levels d) (tail : List Char) :
    write depth (reread levels d) tail = write depth d tail := by
  induction readable generalizing depth tail with
  | @scalar levels s checked =>
      rw [reread]
      cases s with
      | text t => exact writeText_reread (rfl : isText (.text t) = true) tail
      | _ => rfl
  | @list levels items each ih =>
      rw [reread]
      cases items with
      | nil => rfl
      | cons item rest =>
          rw [List.forall_mem_cons] at ih
          rw [List.map_cons, write, write, ih.1,
            writeItems_reread fun item member tail => ih.2 item member tail]
  | @table levels fields texts distinct each ih =>
      rw [reread]
      cases fields with
      | nil => rfl
      | cons field rest =>
          rw [List.forall_mem_cons] at texts ih
          rw [List.map_cons, write, write, ih.1, writeText_reread texts.1,
            writeFields_reread texts.2 fun field member tail => ih.2 field member tail]

/-- A value whose text can be made is read back from that text, and what is read back is written
as the same text. -/
theorem restored_of_render {text : String} (keyed : Keyed v) (rendered : render v = .ok text) :
    '\r' ∉ text.toList ∧ ∃ w, parse text = .ok w ∧ render w = .ok text ∧
      Restored nestingLimit v w := by
  obtain ⟨d, normal, same⟩ := bind_eq_ok.mp rendered
  cases same
  have readable := readable_of_normal keyed normal
  have restored : Restored nestingLimit v (reread nestingLimit d) := ⟨keyed, d, normal, rfl⟩
  refine ⟨?_, _, parse_write readable, ?_, restored⟩
  · rw [String.toList_ofList]
    exact write_unix readable
  · rw [render, normalize, restored.normal, ok_bind, write_reread readable]
    rfl

end Json

end BinaryQuadratic
