import VMAccel.OrderedMultiset
import Mathlib.Order.RelClasses

/-!
# Multisets sorted by their comparator

What `std::multiset` promises in addition where its comparator is a strict weak order on the
elements at hand: an insertion keeps them sorted, and `lower_bound` answers with the first element
that does not compare below the key. Both are asked only of a state that is sorted. The binary
search tree keeps these promises. A comparator that answers by the failure of a preorder is a
strict weak order exactly on the sets in which the preorder compares any two elements.
-/

structure StrictWeakOrderOn {α : Type} (cmp : α → α → Bool) (l : List α) : Prop where
  asymm : ∀ a ∈ l, ∀ b ∈ l, cmp a b = true → cmp b a = false
  negTrans : ∀ a ∈ l, ∀ b ∈ l, ∀ c ∈ l, cmp a b = false → cmp b c = false → cmp a c = false

def SortedBy {α : Type} (cmp : α → α → Bool) (l : List α) : Prop :=
  l.Pairwise fun x y => cmp y x = false

structure SortedMultiset (α : Type) (cmp : α → α → Bool) extends OrderedMultiset α cmp where
  insert_sorted : ∀ {c a}, StrictWeakOrderOn cmp (a :: toList c) → SortedBy cmp (toList c) →
    SortedBy cmp (toList (insert c a))
  lowerBound_first : ∀ {c k}, StrictWeakOrderOn cmp (k :: toList c) → SortedBy cmp (toList c) →
    lowerBound c k = (toList c).findIdx? fun e => !cmp e k

namespace StrictWeakOrderOn

variable {α : Type} {cmp : α → α → Bool} {l l' : List α}

theorem mono (h : StrictWeakOrderOn cmp l) (hsub : ∀ a ∈ l', a ∈ l) : StrictWeakOrderOn cmp l' where
  asymm a ha b hb := h.asymm a (hsub a ha) b (hsub b hb)
  negTrans a ha b hb c hc := h.negTrans a (hsub a ha) b (hsub b hb) c (hsub c hc)

end StrictWeakOrderOn

section Comparator

variable {α : Type} {cmp : α → α → Bool}

theorem IsStrictWeakOrder.neg_trans {r : α → α → Prop} [IsStrictWeakOrder α r] {a b c : α}
    (hab : ¬ r a b) (hbc : ¬ r b c) : ¬ r a c := by
  intro hac
  -- `b` is below `a`, above `c`, or incomparable with both
  by_cases hba : r b a
  · exact hbc (IsTrans.trans b a c hba hac)
  by_cases hcb : r c b
  · exact hab (IsTrans.trans a c b hac hcb)
  exact (IsStrictWeakOrder.incomp_trans a b c ⟨hab, hba⟩ ⟨hbc, hcb⟩).1 hac

theorem strictWeakOrderOn_iff {l : List α} :
    StrictWeakOrderOn cmp l ↔ IsStrictWeakOrder {a | a ∈ l} fun a b => cmp a b = true := by
  constructor
  · intro h
    have hasymm : Std.Asymm fun a b : {a | a ∈ l} => cmp a b = true := by
      refine ⟨fun a b hab => ?_⟩
      rw [Bool.not_eq_true]
      exact h.asymm a a.2 b b.2 hab
    have hconn : IsOrderConnected {a | a ∈ l} fun a b => cmp a b = true := by
      refine ⟨fun a b c hac => ?_⟩
      by_contra hne
      rw [not_or, Bool.not_eq_true, Bool.not_eq_true] at hne
      exact absurd (h.negTrans a a.2 b b.2 c c.2 hne.1 hne.2) (by simp [hac])
    exact isStrictWeakOrder_of_isOrderConnected
  · intro h
    refine ⟨fun a ha b hb => ?_, fun a ha b hb c hc => ?_⟩
    · rw [← Bool.not_eq_true]
      exact asymm (r := fun a b : {a | a ∈ l} => cmp a b = true) (a := ⟨a, ha⟩) (b := ⟨b, hb⟩)
    · rw [← Bool.not_eq_true, ← Bool.not_eq_true, ← Bool.not_eq_true]
      exact IsStrictWeakOrder.neg_trans (r := fun a b : {a | a ∈ l} => cmp a b = true)
        (a := ⟨a, ha⟩) (b := ⟨b, hb⟩) (c := ⟨c, hc⟩)

variable {le : α → α → Prop} [IsPreorder α le] {S : Set α}

/-- Neither element compares below the other. -/
def Incomparable (cmp : α → α → Bool) (a b : α) : Prop := cmp a b = false ∧ cmp b a = false

/-- A comparator that holds where a preorder fails is irreflexive, and incomparable elements are
those that the preorder has below each other. -/
theorem equivalence_incomparable (hcmp : ∀ a ∈ S, ∀ b ∈ S, (cmp a b = true ↔ ¬ le b a)) :
    Equivalence fun a b : S => Incomparable cmp a b := by
  have hle : ∀ a b : S, cmp a b = false ↔ le b a := by
    intro a b
    rw [← Bool.not_eq_true, hcmp a a.2 b b.2, not_not]
  refine ⟨fun a => ?_, fun h => ⟨h.2, h.1⟩, fun {a b c} hab hbc => ?_⟩
  · have hself := (hle a a).mpr (Std.Refl.refl a.1)
    exact ⟨hself, hself⟩
  · rw [Incomparable, hle, hle] at hab hbc ⊢
    exact ⟨IsTrans.trans _ _ _ hbc.1 hab.1, IsTrans.trans _ _ _ hab.2 hbc.2⟩

/-- Such a comparator is negatively transitive as well. What it can lack is asymmetry: two elements
that the preorder does not compare are below each other. -/
theorem isStrictWeakOrder_iff_comparable (hcmp : ∀ a ∈ S, ∀ b ∈ S, (cmp a b = true ↔ ¬ le b a)) :
    IsStrictWeakOrder S (fun a b => cmp a b = true) ↔ ∀ a ∈ S, ∀ b ∈ S, le a b ∨ le b a := by
  constructor
  · intro h a ha b hb
    by_contra hne
    obtain ⟨hab, hba⟩ := not_or.mp hne
    have hlt := (hcmp a ha b hb).mpr hba
    have hgt := (hcmp b hb a ha).mpr hab
    exact asymm (r := fun a b : S => cmp a b = true) (a := ⟨a, ha⟩) (b := ⟨b, hb⟩) hlt hgt
  · intro h
    have hasymm : Std.Asymm fun a b : S => cmp a b = true := by
      refine ⟨fun a b hab hba => ?_⟩
      rcases h a a.2 b b.2 with hle | hle
      · exact (hcmp b b.2 a a.2).mp hba hle
      · exact (hcmp a a.2 b b.2).mp hab hle
    have hconn : IsOrderConnected S fun a b : S => cmp a b = true := by
      refine ⟨fun a b c hac => ?_⟩
      rw [hcmp a a.2 b b.2, hcmp b b.2 c c.2, ← not_and_or]
      rintro ⟨hba, hcb⟩
      exact (hcmp a a.2 c c.2).mp hac (IsTrans.trans _ _ _ hcb hba)
    exact isStrictWeakOrder_of_isOrderConnected

end Comparator

namespace SortedMultiset

variable {α : Type} {cmp : α → α → Bool} (M : SortedMultiset α cmp) {c : M.Carrier} {k : α}

theorem erase_sorted (h : SortedBy cmp (M.toList c)) (i : ℕ) :
    SortedBy cmp (M.toList (M.erase c i)) := by
  rw [M.toList_erase]
  exact h.sublist (List.eraseIdx_sublist _ i)

theorem eraseIf_sorted (h : SortedBy cmp (M.toList c)) (p : α → Bool) :
    SortedBy cmp (M.toList (M.eraseIf p c)) := by
  rw [OrderedMultiset.eraseIf, M.toList_eraseIfFrom p _ 0 c (by omega)]
  exact h.sublist List.filter_sublist

theorem cmp_of_lowerBound_eq_none (hcmp : StrictWeakOrderOn cmp (k :: M.toList c))
    (h : SortedBy cmp (M.toList c)) (hnone : M.lowerBound c k = none) :
    ∀ e ∈ M.toList c, cmp e k = true := by
  rw [M.lowerBound_first hcmp h, List.findIdx?_eq_none_iff] at hnone
  intro e he
  simpa using hnone e he

theorem lowerBound_least (hcmp : StrictWeakOrderOn cmp (k :: M.toList c))
    (h : SortedBy cmp (M.toList c)) {i : ℕ} (hi : M.lowerBound c k = some i) {e : α}
    (he : (M.toList c)[i]? = some e) :
    ∀ x ∈ M.toList c, cmp x k = false → cmp x e = false := by
  rw [M.lowerBound_first hcmp h, List.findIdx?_eq_some_iff_getElem] at hi
  obtain ⟨hlt, -, hbefore⟩ := hi
  obtain ⟨-, rfl⟩ := List.getElem?_eq_some_iff.mp he
  intro x hx hxk
  obtain ⟨j, hj, rfl⟩ := List.mem_iff_getElem.mp hx
  rcases Nat.lt_trichotomy j i with hji | rfl | hij
  · exact absurd (hbefore j hji) (by simp [hxk])
  · cases hself : cmp (M.toList c)[j] (M.toList c)[j] with
    | false => rfl
    | true =>
      have hmem := List.mem_cons_of_mem k hx
      exact absurd (hcmp.asymm _ hmem _ hmem hself) (by simp [hself])
  · exact List.pairwise_iff_getElem.mp h i j hlt hj hij

end SortedMultiset

namespace SearchTree

open BinaryTree

variable {α : Type} {cmp : α → α → Bool}

theorem mem_inorder_insert {v x : α} {t : BinaryTree α} :
    x ∈ inorder (insert cmp v t) ↔ x = v ∨ x ∈ inorder t := by
  rw [(inorder_insert v t).mem_iff, List.mem_cons]

/-- The induction is on the tree; at a node the new element is compared with the root and through
it with the side it does not enter. -/
theorem insert_sorted {v : α} {t : BinaryTree α} (hcmp : StrictWeakOrderOn cmp (v :: inorder t))
    (h : SortedBy cmp (inorder t)) : SortedBy cmp (inorder (insert cmp v t)) := by
  induction t with
  | nil => exact List.pairwise_singleton _ v
  | node x l r ihl ihr =>
    obtain ⟨hl, hxr, hlr⟩ := List.pairwise_append.mp h
    obtain ⟨hx, hr⟩ := List.pairwise_cons.mp hxr
    have hv : v ∈ v :: inorder (node x l r) := List.mem_cons_self
    have hmem : ∀ {y}, y ∈ inorder l ∨ y = x ∨ y ∈ inorder r → y ∈ v :: inorder (node x l r) := by
      intro y hy
      rw [inorder, List.mem_cons, List.mem_append, List.mem_cons]
      exact Or.inr hy
    have hxm := hmem (Or.inr (Or.inl rfl))
    rw [insert]
    split_ifs with hvx
    · have hxv := hcmp.asymm v hv x hxm hvx
      refine List.pairwise_append.mpr ⟨ihl (hcmp.mono ?_) hl, hxr, fun y hy z hz => ?_⟩
      · intro y hy
        exact (List.mem_cons.mp hy).elim (fun h => h ▸ hv) fun h => hmem (Or.inl h)
      · rcases mem_inorder_insert.mp hy with rfl | hy
        · rcases List.mem_cons.mp hz with rfl | hz
          · exact hxv
          · exact hcmp.negTrans z (hmem (Or.inr (Or.inr hz))) x hxm y hv (hx z hz) hxv
        · exact hlr y hy z hz
    · have hvx' : cmp v x = false := by simpa using hvx
      refine List.pairwise_append.mpr ⟨hl, List.pairwise_cons.mpr ⟨fun z hz => ?_,
        ihr (hcmp.mono ?_) hr⟩, fun y hy z hz => ?_⟩
      · rcases mem_inorder_insert.mp hz with rfl | hz
        · exact hvx'
        · exact hx z hz
      · intro y hy
        exact (List.mem_cons.mp hy).elim (fun h => h ▸ hv) fun h => hmem (Or.inr (Or.inr h))
      · rcases List.mem_cons.mp hz with rfl | hz
        · exact hlr y hy z List.mem_cons_self
        · rcases mem_inorder_insert.mp hz with rfl | hz
          · exact hcmp.negTrans z hv x hxm y (hmem (Or.inl hy)) hvx'
              (hlr y hy x List.mem_cons_self)
          · exact hlr y hy z (List.mem_cons_of_mem x hz)

/-- On a list that a test splits into a part where it holds and a part behind it where it does not,
the descent finds where the second part begins. -/
theorem descend_eq_findIdx {goRight : α → Bool} {t : BinaryTree α}
    (h : (inorder t).Pairwise fun x y => goRight y = true → goRight x = true) :
    descend goRight t = (inorder t).findIdx? fun e => !goRight e := by
  induction t with
  | nil => rfl
  | node x l r ihl ihr =>
    obtain ⟨hl, hxr, hlr⟩ := List.pairwise_append.mp h
    obtain ⟨hx, hr⟩ := List.pairwise_cons.mp hxr
    rw [descend, inorder, List.findIdx?_append, List.findIdx?_cons, ihl hl, ihr hr]
    by_cases hgo : goRight x = true
    · have hnone : (inorder l).findIdx? (fun e => !goRight e) = none := by
        rw [List.findIdx?_eq_none_iff]
        intro y hy
        simp [hlr y hy x List.mem_cons_self hgo]
      rw [if_pos hgo, hnone]
      simp [hgo, Function.comp_def, Nat.add_comm, Nat.add_assoc]
    · cases hfind : (inorder l).findIdx? fun e => !goRight e with
      | none => simp [hgo]
      | some i => simp [hgo]

theorem splits_of_sorted {l : List α} {k : α} (hcmp : StrictWeakOrderOn cmp (k :: l))
    (h : SortedBy cmp l) : l.Pairwise fun x y => cmp y k = true → cmp x k = true := by
  refine h.imp_of_mem fun {x y} hx hy hyx hyk => ?_
  by_contra hxk
  have := hcmp.negTrans y (List.mem_cons_of_mem k hy) x (List.mem_cons_of_mem k hx) k
    List.mem_cons_self hyx (by simpa using hxk)
  simp [this] at hyk

variable (cmp)

def sortedMultiset : SortedMultiset α cmp where
  toOrderedMultiset := multiset cmp
  insert_sorted hcmp h := insert_sorted hcmp h
  lowerBound_first hcmp h := descend_eq_findIdx (splits_of_sorted hcmp h)

end SearchTree
