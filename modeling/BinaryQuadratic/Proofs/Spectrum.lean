import BinaryQuadratic.Proofs.Binary64.Order
import BinaryQuadratic.Proofs.Counting
import BinaryQuadratic.Proofs.RankingMap
import BinaryQuadratic.Proofs.RankingPermutation
import BinaryQuadratic.Proofs.Success

/-!
The spectrum of a grid: its energies in ascending order, each with the bits of least value that
have it. The first candidates of each energy, once ranked, are the spectrum wherever all energies
are numbers.
-/

namespace BinaryQuadratic.Enumeration

open Assignment Binary64

/-- The energies of the bits of some length on a grid, each once and in ascending order, with the
bits of least value that have them. -/
structure IsSpectrum (h : CouplingArray) (size : Nat) (levels : List (Float × List Int)) :
    Prop where
  ascending : levels.Pairwise fun a b => a.1 < b.1
  attained : ∀ level ∈ levels,
    IsBits level.2 ∧ level.2.length = size ∧ h.energy (.ofInts level.2) = .ok level.1
  covering : ∀ xs, IsBits xs → xs.length = size → ∃ energy, h.energy (.ofInts xs) = .ok energy ∧
    ∃ level ∈ levels, (level.1 == energy) = true ∧ rank level.2 ≤ rank xs

theorem IsSpectrum.first_le {h : CouplingArray} {size : Nat} {first : Float × List Int}
    {rest : List (Float × List Int)} (spectrum : IsSpectrum h size (first :: rest))
    {xs : List Int} (bits : IsBits xs) (length : xs.length = size) :
    ∃ energy, h.energy (.ofInts xs) = .ok energy ∧ first.1 ≤ energy := by
  obtain ⟨energy, weighed, level, member, same, -⟩ := spectrum.covering xs bits length
  refine ⟨energy, weighed, ?_⟩
  rw [le_iff_lt_or_beq]
  rcases List.mem_cons.mp member with rfl | later
  · exact .inr same
  · left
    have order := (List.pairwise_cons.mp spectrum.ascending).1 level later
    rw [lt_iff] at order
    rw [beq_iff] at same
    exact (lt_iff _ _).mpr ⟨order.1, same.2.1, by omega⟩

theorem IsSpectrum.nonempty {h : CouplingArray} {size : Nat} {levels : List (Float × List Int)}
    (spectrum : IsSpectrum h size levels) : levels ≠ [] := by
  obtain ⟨_, _, level, member, _⟩ :=
    spectrum.covering (List.replicate size 0) (isBits_replicate size) (by simp)
  exact List.ne_nil_of_mem member

theorem comparable_of_ascending {levels : List (Float × List Int)}
    (ascending : levels.Pairwise fun a b => a.1 < b.1) {a b : Float × List Int}
    (aMember : a ∈ levels) (bMember : b ∈ levels) (differs : a ≠ b) :
    a.1 < b.1 ∨ b.1 < a.1 := by
  have symmetric : levels.Pairwise fun a b => a.1 < b.1 ∨ b.1 < a.1 :=
    ascending.imp fun order => .inl order
  have : Std.Symm fun a b : Float × List Int => a.1 < b.1 ∨ b.1 < a.1 := ⟨fun _ _ => Or.symm⟩
  exact symmetric.forall aMember bMember differs

theorem IsSpectrum.eq_of_beq {h : CouplingArray} {size : Nat} {levels : List (Float × List Int)}
    (spectrum : IsSpectrum h size levels) {a b : Float × List Int} (aMember : a ∈ levels)
    (bMember : b ∈ levels) (same : (a.1 == b.1) = true) : a = b := by
  by_contra differs
  rw [beq_iff] at same
  rcases comparable_of_ascending spectrum.ascending aMember bMember differs with less | less
  · rw [lt_iff] at less
    omega
  · rw [lt_iff] at less
    omega

theorem IsSpectrum.subset {h : CouplingArray} {size : Nat}
    {levels others : List (Float × List Int)} (spectrum : IsSpectrum h size levels)
    (other : IsSpectrum h size others) : levels ⊆ others := by
  intro level member
  obtain ⟨bits, length, weighed⟩ := spectrum.attained level member
  obtain ⟨energy, sameWeight, twin, twinMember, twinEqual, twinRank⟩ :=
    other.covering level.2 bits length
  rw [weighed] at sameWeight
  cases sameWeight
  obtain ⟨twinBits, twinLength, twinWeighed⟩ := other.attained twin twinMember
  obtain ⟨energy, sameWeight, third, thirdMember, thirdEqual, thirdRank⟩ :=
    spectrum.covering twin.2 twinBits twinLength
  rw [twinWeighed] at sameWeight
  cases sameWeight
  -- Going there and back ends at the same level, so that neither step made the bits smaller.
  have back : third = level := by
    apply spectrum.eq_of_beq thirdMember member
    rw [beq_iff] at twinEqual thirdEqual ⊢
    exact ⟨thirdEqual.1, twinEqual.2.1, thirdEqual.2.2.trans twinEqual.2.2⟩
  subst back
  have sameBits : twin.2 = third.2 :=
    rank_inj twinBits bits (twinLength.trans length.symm) (Nat.le_antisymm twinRank thirdRank)
  rw [sameBits, weighed] at twinWeighed
  have sameEnergy : third.1 = twin.1 := Except.ok.inj twinWeighed
  rwa [Prod.ext sameEnergy sameBits.symm]

theorem IsSpectrum.unique {h : CouplingArray} {size : Nat}
    {levels others : List (Float × List Int)} (spectrum : IsSpectrum h size levels)
    (other : IsSpectrum h size others) : levels = others := by
  have distinct {ls : List (Float × List Int)} (ascending : ls.Pairwise fun a b => a.1 < b.1) :
      ls.Nodup := by
    apply ascending.imp
    rintro a b less rfl
    rw [lt_iff] at less
    omega
  have rearranged : levels.Perm others := by
    apply (List.perm_ext_iff_of_nodup (distinct spectrum.ascending)
      (distinct other.ascending)).mpr
    intro level
    exact ⟨fun member => spectrum.subset other member, fun member => other.subset spectrum member⟩
  apply rearranged.eq_of_pairwise _ spectrum.ascending other.ascending
  intro a b _ _ less greater
  rw [lt_iff] at less greater
  omega

def keep (found : List (Float × List Int)) (candidate : Float × List Int) :
    List (Float × List Int) :=
  if found.any fun other => other.1 == candidate.1 then found else found ++ [candidate]

def firstOfEach (candidates : List (Float × List Int)) : List (Float × List Int) :=
  candidates.foldl keep []

theorem keep_cases (found : List (Float × List Int)) (candidate : Float × List Int) :
    (keep found candidate = found ∧ ∃ other ∈ found, (other.1 == candidate.1) = true) ∨
      (keep found candidate = found ++ [candidate] ∧
        ∀ other ∈ found, (other.1 == candidate.1) = false) := by
  unfold keep
  split
  · rename_i known
    exact .inl ⟨rfl, List.any_eq_true.mp known⟩
  · rename_i new
    right
    refine ⟨rfl, ?_⟩
    intro other member
    apply Bool.eq_false_iff.mpr
    intro same
    exact new (List.any_eq_true.mpr ⟨other, member, same⟩)

theorem subset_keep (found : List (Float × List Int)) (candidate : Float × List Int) :
    found ⊆ keep found candidate := by
  rcases keep_cases found candidate with ⟨known, _⟩ | ⟨new, _⟩
  · rw [known]
    exact List.Subset.refl found
  · rw [new]
    exact List.subset_append_left found [candidate]

theorem subset_foldl_keep (found candidates : List (Float × List Int)) :
    found ⊆ candidates.foldl keep found := by
  induction candidates generalizing found with
  | nil => exact List.Subset.refl found
  | cons candidate rest ih =>
      exact List.Subset.trans (subset_keep found candidate) (ih (keep found candidate))

theorem firstOfEach_subset (candidates : List (Float × List Int)) :
    firstOfEach candidates ⊆ candidates := by
  apply foldl_invariant (fun found => found ⊆ candidates)
  · exact List.nil_subset candidates
  · intro candidate member found within
    rcases keep_cases found candidate with ⟨known, _⟩ | ⟨new, _⟩
    · rw [known]
      exact within
    · rw [new]
      exact List.append_subset.mpr ⟨within, by simpa using member⟩

theorem pairwise_firstOfEach (candidates : List (Float × List Int)) :
    (firstOfEach candidates).Pairwise fun a b => (a.1 == b.1) = false := by
  apply foldl_invariant
    (fun found : List (Float × List Int) =>
      found.Pairwise fun a b => (a.1 == b.1) = false)
  · exact List.Pairwise.nil
  · intro candidate _ found distinct
    rcases keep_cases found candidate with ⟨known, _⟩ | ⟨new, differs⟩
    · rw [known]
      exact distinct
    · rw [new]
      apply List.pairwise_append.mpr
      refine ⟨distinct, List.pairwise_singleton _ _, ?_⟩
      intro other member last same
      rw [List.mem_singleton.mp same]
      exact differs other member

theorem length_firstOfEach_le (candidates : List (Float × List Int)) :
    (firstOfEach candidates).length ≤ candidates.length := by
  have grows (found : List (Float × List Int)) :
      (candidates.foldl keep found).length ≤ found.length + candidates.length := by
    induction candidates generalizing found with
    | nil => simp
    | cons candidate rest ih =>
        have step : (keep found candidate).length ≤ found.length + 1 := by
          rcases keep_cases found candidate with ⟨known, _⟩ | ⟨new, _⟩
          · rw [known]
            omega
          · simp [new]
        have whole := ih (keep found candidate)
        simp only [List.foldl_cons, List.length_cons]
        omega
  have whole := grows []
  rwa [List.length_nil, Nat.zero_add] at whole

theorem foldl_keep_covers {earlier : Float × List Int → Float × List Int → Prop}
    {found candidates : List (Float × List Int)} (ordered : candidates.Pairwise earlier)
    (behind : ∀ other ∈ found, ∀ candidate ∈ candidates, earlier other candidate)
    {candidate : Float × List Int} (member : candidate ∈ candidates)
    (number : candidate.1.isNaN = false) :
    ∃ first ∈ candidates.foldl keep found,
      (first.1 == candidate.1) = true ∧ (first = candidate ∨ earlier first candidate) := by
  induction candidates generalizing found with
  | nil => cases member
  | cons head rest ih =>
      obtain ⟨headFirst, restOrdered⟩ := List.pairwise_cons.mp ordered
      rw [List.foldl_cons]
      rcases List.mem_cons.mp member with rfl | later
      · rcases keep_cases found candidate with ⟨known, other, within, same⟩ | ⟨new, _⟩
        · refine ⟨other, subset_foldl_keep _ _ ?_, same, .inr ?_⟩
          · rw [known]
            exact within
          · exact behind other within candidate List.mem_cons_self
        · refine ⟨candidate, subset_foldl_keep _ _ ?_, ?_, .inl rfl⟩
          · rw [new]
            simp
          · exact (beq_self_iff _).mpr number
      · apply ih restOrdered _ later
        intro other within next nextMember
        rcases keep_cases found head with ⟨known, _⟩ | ⟨new, _⟩
        · rw [known] at within
          exact behind other within next (List.mem_cons_of_mem _ nextMember)
        · rw [new] at within
          rcases List.mem_append.mp within with old | last
          · exact behind other old next (List.mem_cons_of_mem _ nextMember)
          · rw [List.mem_singleton.mp last]
            exact headFirst next nextMember

theorem firstOfEach_covers {earlier : Float × List Int → Float × List Int → Prop}
    {candidates : List (Float × List Int)} (ordered : candidates.Pairwise earlier)
    {candidate : Float × List Int} (member : candidate ∈ candidates)
    (number : candidate.1.isNaN = false) :
    ∃ first ∈ firstOfEach candidates,
      (first.1 == candidate.1) = true ∧ (first = candidate ∨ earlier first candidate) :=
  foldl_keep_covers ordered (fun _ none => (List.not_mem_nil none).elim) member number

theorem mem_firstOfEach_of_isNaN {candidates : List (Float × List Int)}
    {candidate : Float × List Int} (member : candidate ∈ candidates)
    (unordered : candidate.1.isNaN = true) : candidate ∈ firstOfEach candidates := by
  apply foldl_attained (fun found => candidate ∈ found)
  · intro other _ found within
    exact subset_keep found other within
  · exact member
  · intro found
    rcases keep_cases found candidate with ⟨_, other, _, same⟩ | ⟨new, _⟩
    · rw [beq_iff, unordered] at same
      cases same.2.1
    · simp [new]

def ranked (candidates : List (Float × List Int)) : List (Float × List Int) :=
  Ranking.rank (fun a b => a.1 < b.1) (fun a => a.1 == a.1) (firstOfEach candidates)

theorem ranked_perm (candidates : List (Float × List Int)) :
    (ranked candidates).Perm (firstOfEach candidates) :=
  Ranking.rank_perm _ _ _

def snapshot (level : Float × List Int) : Float × Assignment := (level.1, .ofInts level.2)

/-- The snapshot of bits is never refused. -/
theorem discover_snapshots (h : CouplingArray) (levels : List (Float × List Int)) {xs : List Int}
    (bits : IsBits xs) : discover h (levels.map snapshot) xs =
      (h.energy (.ofInts xs)).map fun energy => (keep levels (energy, xs)).map snapshot := by
  rw [discover]
  cases h.energy (.ofInts xs) with
  | error fault => rfl
  | ok energy =>
      have same : ((levels.map snapshot).any fun other => other.1 == energy) =
          levels.any fun other => other.1 == energy := List.any_map
      rw [ok_bind, copy_ofInts bits, ok_bind, same]
      dsimp only [Except.map, keep]
      by_cases known : (levels.any fun other => other.1 == energy) = true
      · rw [if_pos known, if_pos known]
        rfl
      · rw [if_neg known, if_neg known, List.map_append]
        rfl

theorem search_eq {h : CouplingArray} {energy : List Int → Float} {candidates : List (List Int)}
    (weighed : ∀ xs ∈ candidates, IsBits xs ∧ h.energy (.ofInts xs) = .ok (energy xs)) :
    search h candidates =
      .ok ((firstOfEach (candidates.map fun xs => (energy xs, xs))).map snapshot) := by
  have onward (levels : List (Float × List Int)) :
      candidates.foldlM (discover h) (levels.map snapshot) =
        .ok (((candidates.map fun xs => (energy xs, xs)).foldl keep levels).map snapshot) := by
    induction candidates generalizing levels with
    | nil => rfl
    | cons xs rest ih =>
        rw [List.forall_mem_cons] at weighed
        rw [List.foldlM_cons, discover_snapshots h levels weighed.1.1, weighed.1.2]
        exact ih weighed.2 (keep levels (energy xs, xs))
  exact onward []

theorem levels_of_search {h : CouplingArray} {candidates : List (List Int)}
    {found : List (Float × Assignment)} (bits : ∀ xs ∈ candidates, IsBits xs)
    (run : search h candidates = .ok found) :
    ∃ levels : List (Float × List Int), levels.map snapshot = found ∧
      ∀ level ∈ levels, level.2 ∈ candidates := by
  apply foldlM_invariant (fun found => ∃ levels : List (Float × List Int),
    levels.map snapshot = found ∧ ∀ level ∈ levels, level.2 ∈ candidates) _ _ run
  · exact ⟨[], rfl, nofun⟩
  · rintro xs member _ next ⟨levels, rfl, within⟩ step
    rw [discover_snapshots h levels (bits xs member)] at step
    obtain ⟨energy, -, rfl⟩ := map_eq_ok.mp step
    refine ⟨_, rfl, ?_⟩
    rcases keep_cases levels (energy, xs) with ⟨known, _⟩ | ⟨new, _⟩
    · rw [known]
      exact within
    · rw [new]
      intro level inside
      rcases List.mem_append.mp inside with old | last
      · exact within level old
      · rw [List.mem_singleton.mp last]
        exact member

theorem rank_snapshots (levels : List (Float × List Int)) :
    Ranking.rank (fun a b => a.1 < b.1) (fun a => a.1 == a.1) (levels.map snapshot) =
      (Ranking.rank (fun a b => a.1 < b.1) (fun a => a.1 == a.1) levels).map snapshot :=
  Ranking.rank_map (fun _ _ => rfl) (fun _ => rfl) levels

theorem units_ne_of_beq {x y : Float} (xNumber : x.isNaN = false) (yNumber : y.isNaN = false)
    (differs : (x == y) = false) : units x ≠ units y := by
  intro same
  have equal := (beq_iff x y).mpr ⟨xNumber, yNumber, same⟩
  rw [equal] at differs
  cases differs

theorem ranked_eq_mergeSort {candidates : List (Float × List Int)}
    (numbers : ∀ level ∈ firstOfEach candidates, level.1.isNaN = false) :
    ranked candidates =
      (firstOfEach candidates).mergeSort fun a b => decide (units a.1 ≤ units b.1) := by
  have allOrdered : (firstOfEach candidates).all (fun level => level.1 == level.1) = true := by
    apply List.all_eq_true.mpr
    intro level member
    exact (beq_self_iff _).mpr (numbers level member)
  have swapped := List.map_mergeSort (l := firstOfEach candidates) (f := id)
    (r := fun a b => !decide (b.1 < a.1)) (s := fun a b => decide (units a.1 ≤ units b.1)) (by
      intro a aMember b bMember
      rw [← decide_not]
      apply decide_eq_decide.mpr
      rw [lt_iff, numbers a aMember, numbers b bMember]
      simp only [true_and, Int.not_lt, id_eq])
  rw [List.map_id, List.map_id] at swapped
  rw [ranked, Ranking.rank, if_pos allOrdered]
  exact swapped

theorem ranked_units_le {candidates : List (Float × List Int)}
    (numbers : ∀ level ∈ firstOfEach candidates, level.1.isNaN = false) :
    (ranked candidates).Pairwise fun a b => units a.1 ≤ units b.1 := by
  rw [ranked_eq_mergeSort numbers]
  apply List.Pairwise.imp of_decide_eq_true
  apply List.pairwise_mergeSort
  · intro a b c
    simp only [decide_eq_true_eq]
    omega
  · intro a b
    simp only [Bool.or_eq_true, decide_eq_true_eq]
    omega

theorem ranked_units_ne {candidates : List (Float × List Int)}
    (numbers : ∀ level ∈ firstOfEach candidates, level.1.isNaN = false) :
    (ranked candidates).Pairwise fun a b => units a.1 ≠ units b.1 := by
  have distinct : (firstOfEach candidates).Pairwise fun a b => units a.1 ≠ units b.1 := by
    apply (pairwise_firstOfEach candidates).imp_of_mem
    intro a b aMember bMember differs
    exact units_ne_of_beq (numbers a aMember) (numbers b bMember) differs
  exact (ranked_perm candidates).symm.pairwise distinct fun differs => differs.symm

theorem ranked_ascending {candidates : List (Float × List Int)}
    (numbers : ∀ candidate ∈ candidates, candidate.1.isNaN = false) :
    (ranked candidates).Pairwise fun a b => a.1 < b.1 := by
  have foundNumbers : ∀ level ∈ firstOfEach candidates, level.1.isNaN = false :=
    fun level member => numbers level (firstOfEach_subset candidates member)
  apply ((ranked_units_le foundNumbers).and (ranked_units_ne foundNumbers)).imp_of_mem
  intro a b aMember bMember order
  have aFound := (ranked_perm candidates).subset aMember
  have bFound := (ranked_perm candidates).subset bMember
  exact (lt_iff _ _).mpr ⟨foundNumbers a aFound, foundNumbers b bFound, by omega⟩

def candidatesOf (energy : List Int → Float) (size : Nat) : List (Float × List Int) :=
  (sweep size).map fun xs => (energy xs, xs)

theorem mem_candidatesOf {energy : List Int → Float} {size : Nat} {candidate : Float × List Int} :
    candidate ∈ candidatesOf energy size ↔
      IsBits candidate.2 ∧ candidate.2.length = size ∧ energy candidate.2 = candidate.1 := by
  constructor
  · intro member
    obtain ⟨xs, swept, rfl⟩ := List.mem_map.mp member
    have bits := mem_sweep.mp swept
    exact ⟨bits.1, bits.2, rfl⟩
  · rintro ⟨bits, length, same⟩
    refine List.mem_map.mpr ⟨candidate.2, mem_sweep.mpr ⟨bits, length⟩, ?_⟩
    rw [same]

theorem length_candidatesOf (energy : List Int → Float) (size : Nat) :
    (candidatesOf energy size).length = 2 ^ size := by
  rw [candidatesOf, List.length_map, length_sweep]

theorem pairwise_candidatesOf (energy : List Int → Float) (size : Nat) :
    (candidatesOf energy size).Pairwise fun a b => rank a.2 < rank b.2 :=
  List.pairwise_map.mpr (pairwise_sweep size)

theorem isSpectrum_ranked {h : CouplingArray} {size : Nat} {energy : List Int → Float}
    (weighed : ∀ xs, IsBits xs → xs.length = size → h.energy (.ofInts xs) = .ok (energy xs))
    (numbers : ∀ xs, IsBits xs → xs.length = size → (energy xs).isNaN = false) :
    IsSpectrum h size (ranked (candidatesOf energy size)) where
  ascending := by
    apply ranked_ascending
    intro candidate member
    obtain ⟨bits, length, same⟩ := mem_candidatesOf.mp member
    rw [← same]
    exact numbers candidate.2 bits length
  attained := by
    intro level member
    have found := firstOfEach_subset _ ((ranked_perm _).subset member)
    obtain ⟨bits, length, same⟩ := mem_candidatesOf.mp found
    refine ⟨bits, length, ?_⟩
    rw [weighed level.2 bits length, same]
  covering := by
    intro xs bits length
    have member : (energy xs, xs) ∈ candidatesOf energy size :=
      mem_candidatesOf.mpr ⟨bits, length, rfl⟩
    obtain ⟨level, found, same, order⟩ :=
      firstOfEach_covers (pairwise_candidatesOf energy size) member (numbers xs bits length)
    refine ⟨energy xs, weighed xs bits length, level, ?_, same, ?_⟩
    · exact (ranked_perm _).symm.subset found
    · rcases order with rfl | earlier
      · exact Nat.le_refl _
      · exact Nat.le_of_lt earlier

end BinaryQuadratic.Enumeration
