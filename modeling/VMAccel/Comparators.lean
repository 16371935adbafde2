import VMAccel.AllocIntCounter
import VMAccel.AllocRangeFit
import VMAccel.DescLookup

/-!
# The comparators of the free sets

`IntCmp`, `AllocRangeCmp` and `VMAccelDescCmp` are irreflexive, and incomparability is transitive
for each of them, on all objects. Asymmetry and transitivity fail as soon as two objects have
different parents, since both are then below each other. For descriptors they fail within one
parent as well, where either capacity is less than the other in some component.
-/

namespace VMAccel

open StepSystem VMAccelAllocator SearchTree

instance : IsPreorder VMAccelDesc fun c d => c.capacity.le d.capacity = true where
  refl d := d.capacity.le_refl
  trans _ _ _ hcd hde := by
    rw [VMAccelWorkloadDesc.le_iff] at hcd hde ⊢
    exact ⟨BitVec.le_trans hcd.1 hde.1, BitVec.le_trans hcd.2.1 hde.2.1,
      BitVec.le_trans hcd.2.2 hde.2.2⟩

theorem VMAccelDesc.comparesBy (S : Set (VMAccelObject VMAccelDesc)) :
    ComparesBy cmp (fun c d => c.capacity.le d.capacity = true) S := by
  intro a _ b _
  refine ne_or_iff_not_withinParent ?_
  rw [VMAccelWorkloadDesc.lt_eq_not_le, Bool.not_eq_true', Bool.not_eq_true]

/-- Each comparator is irreflexive and its incomparability transitive on any set of objects. It is
asymmetric and transitive as well, and so a strict weak order, exactly on the sets of objects of
one parent; the capacities of descriptors must also be ordered in all three components at once. -/
theorem comparators_strictWeak_iff (ints : Set (VMAccelObject AllocInt))
    (ranges : Set (VMAccelObject AllocRange)) (hstored : ∀ o ∈ ranges, o.obj.cmpRange = false)
    (descs : Set (VMAccelObject VMAccelDesc)) :
    ((Equivalence fun a b : ints => Incomparable AllocInt.cmp a b) ∧
        (Equivalence fun a b : ranges => Incomparable AllocRange.cmp a b) ∧
        Equivalence fun a b : descs => Incomparable VMAccelDesc.cmp a b) ∧
      (IsStrictWeakOrder ints (fun a b => AllocInt.cmp a b = true) ↔ OneParent ints) ∧
      (IsStrictWeakOrder ranges (fun a b => AllocRange.cmp a b = true) ↔ OneParent ranges) ∧
      (IsStrictWeakOrder descs (fun a b => VMAccelDesc.cmp a b = true) ↔ OneParent descs ∧
        ∀ a ∈ descs, ∀ b ∈ descs, a.obj.capacity.le b.obj.capacity = true ∨
          b.obj.capacity.le a.obj.capacity = true) := by
  have hints := AllocInt.comparesBy ints
  have hranges := AllocRange.comparesBy hstored
  have hdescs := VMAccelDesc.comparesBy descs
  exact ⟨⟨equivalence_incomparable hints, equivalence_incomparable hranges,
    equivalence_incomparable hdescs⟩, hints.isStrictWeakOrder_iff_oneParent,
    hranges.isStrictWeakOrder_iff_oneParent, hdescs.isStrictWeakOrder_iff⟩

theorem flopsDesc_le_iff {m n : BitVec 32} :
    (flopsDesc m).capacity.le (flopsDesc n).capacity = true ↔ m ≤ n := by
  rw [VMAccelWorkloadDesc.le_iff]
  exact ⟨fun h => h.2.1, fun h => ⟨BitVec.le_refl _, h, BitVec.le_refl _⟩⟩

/-- The objects of one parent, with descriptors that differ in their compute capacity only. -/
theorem strictWeak_of_parent_three :
    IsStrictWeakOrder {o : VMAccelObject AllocInt | o.parentId = 3}
        (fun a b => AllocInt.cmp a b = true) ∧
      IsStrictWeakOrder {o : VMAccelObject AllocRange | o.parentId = 3 ∧ o.obj.cmpRange = false}
        (fun a b => AllocRange.cmp a b = true) ∧
      IsStrictWeakOrder {o : VMAccelObject VMAccelDesc | o.parentId = 3 ∧ ∃ n, o.obj = flopsDesc n}
        (fun a b => VMAccelDesc.cmp a b = true) := by
  obtain ⟨-, hints, hranges, hdescs⟩ := comparators_strictWeak_iff {o | o.parentId = 3}
    {o | o.parentId = 3 ∧ o.obj.cmpRange = false} (fun o ho => ho.2)
    {o | o.parentId = 3 ∧ ∃ n, o.obj = flopsDesc n}
  refine ⟨hints.mpr fun a ha b hb => ha.trans hb.symm,
    hranges.mpr fun a ha b hb => ha.1.trans hb.1.symm,
    hdescs.mpr ⟨fun a ha b hb => ha.1.trans hb.1.symm, ?_⟩⟩
  rintro a ⟨-, m, hm⟩ b ⟨-, n, hn⟩
  rw [hm, hn, flopsDesc_le_iff, flopsDesc_le_iff]
  exact BitVec.le_total m n

/-- A descriptor with a compute capacity for floating-point and for other operations. -/
def opsDesc (megaFlops megaOps : BitVec 32) : VMAccelDesc :=
  { VMAccelDesc.zero with
    capacity := { VMAccelWorkloadDesc.zero with megaFlops := megaFlops, megaOps := megaOps } }

/-- Two objects below each other and not below themselves: integers and ranges of two parents, and
descriptors of one. -/
theorem comparators_not_asymmetric :
    (AllocInt.cmp (.of 0 ⟨4⟩) (.of 1 ⟨4⟩) = true ∧ AllocInt.cmp (.of 1 ⟨4⟩) (.of 0 ⟨4⟩) = true ∧
        AllocInt.cmp (.of 0 ⟨4⟩) (.of 0 ⟨4⟩) = false) ∧
      (AllocRange.cmp (.of 0 ⟨false, 4, 0, 3⟩) (.of 1 ⟨false, 4, 0, 3⟩) = true ∧
        AllocRange.cmp (.of 1 ⟨false, 4, 0, 3⟩) (.of 0 ⟨false, 4, 0, 3⟩) = true ∧
        AllocRange.cmp (.of 0 ⟨false, 4, 0, 3⟩) (.of 0 ⟨false, 4, 0, 3⟩) = false) ∧
      VMAccelDesc.cmp (.of 0 (opsDesc 2 1)) (.of 0 (opsDesc 1 2)) = true ∧
        VMAccelDesc.cmp (.of 0 (opsDesc 1 2)) (.of 0 (opsDesc 2 1)) = true ∧
        VMAccelDesc.cmp (.of 0 (opsDesc 2 1)) (.of 0 (opsDesc 2 1)) = false := by
  decide

section Registrations

variable {size : BitVec 32} {ds : List VMAccelDesc} {s : VMAccelAllocator VMAccelDesc DescTree}

theorem Enrolled.ordered_iff (h : Enrolled size ds s) :
    StrictWeakOrderOn Resource.cmp (DescTree.toList s.freeSet) ↔ ds.length ≤ 1 := by
  have hlist : DescTree.toList s.freeSet = (enrolledObjects ds).reverse := by
    rw [h.freeSet]
    exact inorder_leftSpine _
  rw [hlist]
  constructor
  · intro hord
    by_contra hlen
    have hmem : ∀ i (hi : i < ds.length),
        .of (BitVec.ofNat 32 i) ds[i] ∈ (enrolledObjects ds).reverse := by
      intro i hi
      exact List.mem_reverse.mpr (List.mem_mapIdx.mpr ⟨i, hi, rfl⟩)
    have hpar : (0 : VMAccelId) = 1 :=
      oneParent_of_strictWeakOrderOn hord _ (hmem 0 (by omega)) _ (hmem 1 (by omega))
    exact absurd hpar (by decide)
  · intro hlen
    have hsame : ∀ a ∈ (enrolledObjects ds).reverse, ∀ b ∈ (enrolledObjects ds).reverse, a = b := by
      intro a ha b hb
      obtain ⟨i, hi, rfl⟩ := List.mem_mapIdx.mp (List.mem_reverse.mp ha)
      obtain ⟨j, hj, rfl⟩ := List.mem_mapIdx.mp (List.mem_reverse.mp hb)
      obtain rfl : i = j := by omega
      rfl
    refine strictWeakOrderOn_iff.mpr ((VMAccelDesc.comparesBy _).isStrictWeakOrder_iff.mpr ⟨?_, ?_⟩)
    · intro a ha b hb
      rw [hsame a ha b hb]
    · intro a ha b hb
      rw [hsame a ha b hb]
      exact Or.inl b.obj.capacity.le_refl

/-- After registrations alone, the comparator of the descriptors is one that `std::multiset` can
order the free set by exactly if at most one accelerator was registered. -/
theorem registrations_ordered_iff {num : ℕ}
    (hrun : run (apply false) (new DescTree num) (ds.map .register) = .ok s) :
    StrictWeakOrderOn Resource.cmp (DescTree.toList s.freeSet) ↔
      min (BitVec.ofNat 32 num).toNat ds.length ≤ 1 := by
  rw [((enrolled_new num).run hrun).ordered_iff, List.nil_append, List.length_take]

end Registrations

end VMAccel
