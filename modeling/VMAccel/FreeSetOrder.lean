import VMAccel.Allocator
import VMAccel.SortedMultiset

/-!
# The order of a free set

The comparators of the free sets answer `true` for any two objects of different parents. Within one
parent they fail exactly where the other object is at most as large, for some notion of size. They
are strict weak orders, as `std::multiset` requires, exactly on the sets of objects that have one
parent and are compared by size in one way or the other.
-/

namespace VMAccel

variable {T : Type} {cmp : VMAccelObject T → VMAccelObject T → Bool} {le : T → T → Prop}
  {S : Set (VMAccelObject T)}

def WithinParent (le : T → T → Prop) (a b : VMAccelObject T) : Prop :=
  a.parentId = b.parentId ∧ le a.obj b.obj

instance [IsPreorder T le] : IsPreorder (VMAccelObject T) (WithinParent le) where
  refl a := ⟨rfl, Std.Refl.refl a.obj⟩
  trans _ _ _ hab hbc := ⟨hab.1.trans hbc.1, IsTrans.trans _ _ _ hab.2 hbc.2⟩

def ComparesBy (cmp : VMAccelObject T → VMAccelObject T → Bool) (le : T → T → Prop)
    (S : Set (VMAccelObject T)) : Prop :=
  ∀ a ∈ S, ∀ b ∈ S, (cmp a b = true ↔ ¬ WithinParent le b a)

def OneParent (S : Set (VMAccelObject T)) : Prop := ∀ a ∈ S, ∀ b ∈ S, a.parentId = b.parentId

theorem ne_or_iff_not_withinParent {a b : VMAccelObject T} {lt : Bool}
    (hlt : lt = true ↔ ¬ le b.obj a.obj) :
    (decide (a.parentId ≠ b.parentId) || lt) = true ↔ ¬ WithinParent le b a := by
  rw [Bool.or_eq_true, decide_eq_true_iff, hlt, ← not_and_or, WithinParent, eq_comm]

namespace ComparesBy

variable [IsPreorder T le]

theorem isStrictWeakOrder_iff (h : ComparesBy cmp le S) :
    IsStrictWeakOrder S (fun a b => cmp a b = true) ↔ OneParent S ∧
      ∀ a ∈ S, ∀ b ∈ S, le a.obj b.obj ∨ le b.obj a.obj := by
  rw [isStrictWeakOrder_iff_comparable h]
  constructor
  · intro hcomp
    refine ⟨fun a ha b hb => ?_, fun a ha b hb => (hcomp a ha b hb).imp And.right And.right⟩
    exact (hcomp a ha b hb).elim And.left fun hba => hba.1.symm
  · rintro ⟨hone, hcomp⟩ a ha b hb
    have hpar := hone a ha b hb
    exact (hcomp a ha b hb).imp (⟨hpar, ·⟩) (⟨hpar.symm, ·⟩)

variable [Std.Total le]

theorem isStrictWeakOrder_iff_oneParent (h : ComparesBy cmp le S) :
    IsStrictWeakOrder S (fun a b => cmp a b = true) ↔ OneParent S := by
  rw [h.isStrictWeakOrder_iff, and_iff_left]
  intro a _ b _
  exact Std.Total.total a.obj b.obj

theorem strictWeakOrderOn {l : List (VMAccelObject T)} {p : VMAccelId}
    (h : ComparesBy cmp le {o | o ∈ l}) (hp : ∀ o ∈ l, o.parentId = p) :
    StrictWeakOrderOn cmp l := by
  rw [strictWeakOrderOn_iff, h.isStrictWeakOrder_iff_oneParent]
  intro a ha b hb
  exact (hp a ha).trans (hp b hb).symm

end ComparesBy

theorem oneParent_of_strictWeakOrderOn [Resource T] {l : List (VMAccelObject T)}
    (h : StrictWeakOrderOn Resource.cmp l) : OneParent {o | o ∈ l} := by
  intro a ha b hb
  by_contra hne
  have hba := h.asymm a ha b hb (Resource.cmp_of_parents_ne hne)
  exact hne (Resource.parentId_eq_of_cmp hba).symm

end VMAccel
