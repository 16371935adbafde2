import Mathlib.Data.Multiset.Filter
import Mathlib.Data.Tree.Basic

/-!
# Multisets searched through a comparator

The part of the interface of `std::multiset` that says what its operations do whatever the
comparator is. Iterators are positions in iteration order. An insertion adds exactly the given
element, an erasure removes exactly the element at the position, and a search answers with no
element or with one that satisfies its own test. Nothing is assumed about the comparator, so
nothing is promised about elements that a search does not return.

The second half is one implementation: a binary search tree in which `insert` goes left exactly
when the new element compares below the node and the searches descend by the comparator alone.
-/

structure OrderedMultiset (α : Type) (cmp : α → α → Bool) where
  Carrier : Type
  toList : Carrier → List α
  empty : Carrier
  insert : Carrier → α → Carrier
  erase : Carrier → ℕ → Carrier
  lowerBound : Carrier → α → Option ℕ
  upperBound : Carrier → α → Option ℕ
  toList_empty : toList empty = []
  insert_perm : ∀ c a, (toList (insert c a)).Perm (a :: toList c)
  toList_erase : ∀ c i, toList (erase c i) = (toList c).eraseIdx i
  lowerBound_sound : ∀ {c k i}, lowerBound c k = some i →
    ∃ e, (toList c)[i]? = some e ∧ cmp e k = false
  upperBound_sound : ∀ {c k i}, upperBound c k = some i →
    ∃ e, (toList c)[i]? = some e ∧ cmp k e = true

namespace OrderedMultiset

variable {α : Type} {cmp : α → α → Bool} (M : OrderedMultiset α cmp)

def bag (c : M.Carrier) : Multiset α := M.toList c

theorem mem_bag {c : M.Carrier} {a : α} : a ∈ M.bag c ↔ a ∈ M.toList c := Multiset.mem_coe

@[simp] theorem bag_empty : M.bag M.empty = 0 := by
  rw [bag, M.toList_empty]
  rfl

@[simp] theorem bag_insert (c : M.Carrier) (a : α) : M.bag (M.insert c a) = a ::ₘ M.bag c :=
  Multiset.coe_eq_coe.mpr (M.insert_perm c a)

theorem mem_bag_of_getElem {c : M.Carrier} {i : ℕ} {e : α} (h : (M.toList c)[i]? = some e) :
    e ∈ M.bag c := M.mem_bag.mpr (List.mem_of_getElem? h)

theorem bag_eq_cons_erase {c : M.Carrier} {i : ℕ} {e : α} (h : (M.toList c)[i]? = some e) :
    M.bag c = e ::ₘ M.bag (M.erase c i) := by
  obtain ⟨hi, rfl⟩ := List.getElem?_eq_some_iff.mp h
  rw [bag, bag, M.toList_erase, Multiset.cons_coe, Multiset.coe_eq_coe]
  exact (List.getElem_cons_eraseIdx_perm hi).symm

/-- The loop that erases while it iterates: `n` rounds from position `i` on. -/
def eraseIfFrom (p : α → Bool) : ℕ → ℕ → M.Carrier → M.Carrier
  | 0, _, c => c
  | n + 1, i, c =>
    match (M.toList c)[i]? with
    | none => c
    | some e => if p e then eraseIfFrom p n i (M.erase c i) else eraseIfFrom p n (i + 1) c

def eraseIf (p : α → Bool) (c : M.Carrier) : M.Carrier :=
  M.eraseIfFrom p (M.toList c).length 0 c

theorem toList_eraseIfFrom (p : α → Bool) (n i : ℕ) (c : M.Carrier)
    (hn : (M.toList c).length ≤ i + n) :
    M.toList (M.eraseIfFrom p n i c) =
      (M.toList c).take i ++ ((M.toList c).drop i).filter fun e => !p e := by
  induction n generalizing i c with
  | zero =>
    rw [Nat.add_zero] at hn
    rw [eraseIfFrom, List.take_of_length_le hn, List.drop_eq_nil_of_le hn]
    simp
  | succ n ih =>
    rw [eraseIfFrom]
    cases he : (M.toList c)[i]? with
    | none =>
      have hi : (M.toList c).length ≤ i := List.getElem?_eq_none_iff.mp he
      rw [List.take_of_length_le hi, List.drop_eq_nil_of_le hi]
      simp
    | some e =>
      obtain ⟨hi, rfl⟩ := List.getElem?_eq_some_iff.mp he
      have hdrop := List.drop_eq_getElem_cons hi
      by_cases hp : p (M.toList c)[i] = true
      · have htake : ((M.toList c).take i).length = i := by simp [hi.le]
        have hlen : (M.toList (M.erase c i)).length ≤ i + n := by
          rw [M.toList_erase, List.length_eraseIdx_of_lt hi]
          omega
        simp only [hp, if_true]
        rw [ih i _ hlen, M.toList_erase, List.eraseIdx_eq_take_drop_succ,
          List.take_left' htake, List.drop_left' htake, hdrop,
          List.filter_cons_of_neg (by simp [hp])]
      · simp only [hp]
        rw [if_neg Bool.false_ne_true, ih (i + 1) c (by omega), hdrop,
          List.filter_cons_of_pos (by simp [hp]), List.take_succ_eq_append_getElem hi,
          List.append_assoc]
        rfl

theorem bag_eraseIf (p : α → Bool) (c : M.Carrier) :
    M.bag (M.eraseIf p c) = (M.bag c).filter fun e => p e = false := by
  rw [bag, eraseIf, M.toList_eraseIfFrom p _ 0 c (by omega), bag, Multiset.filter_coe]
  simp

end OrderedMultiset

namespace SearchTree

open BinaryTree

variable {α : Type} (cmp : α → α → Bool)

def inorder : BinaryTree α → List α
  | nil => []
  | node x l r => inorder l ++ x :: inorder r

def insert (v : α) : BinaryTree α → BinaryTree α
  | nil => node v nil nil
  | node x l r => if cmp v x then node x (insert v l) r else node x l (insert v r)

/-- The descent of `lower_bound` and `upper_bound`: right where `goRight` holds, and otherwise
left with the node as the candidate. The answer is a position of the inorder traversal. -/
def descend (goRight : α → Bool) : BinaryTree α → Option ℕ
  | nil => none
  | node x l r =>
    if goRight x then (descend goRight r).map ((inorder l).length + 1 + ·)
    else some ((descend goRight l).getD (inorder l).length)

def popMin : BinaryTree α → Option (α × BinaryTree α)
  | nil => none
  | node x l r =>
    match popMin l with
    | none => some (x, r)
    | some (m, l') => some (m, node x l' r)

def join (l r : BinaryTree α) : BinaryTree α :=
  match popMin r with
  | none => l
  | some (m, r') => node m l r'

def erase : BinaryTree α → ℕ → BinaryTree α
  | nil, _ => nil
  | node x l r, i =>
    if i < (inorder l).length then node x (erase l i) r
    else if i = (inorder l).length then join l r
    else node x l (erase r (i - (inorder l).length - 1))

variable {cmp}

theorem inorder_insert (v : α) (t : BinaryTree α) :
    (inorder (insert cmp v t)).Perm (v :: inorder t) := by
  induction t with
  | nil => exact List.Perm.refl _
  | node x l r ihl ihr =>
    rw [insert]
    split_ifs
    · exact ihl.append_right _
    · exact ((ihr.cons x).append_left _).trans
        (((List.Perm.swap v x _).append_left _).trans List.perm_middle)

theorem popMin_eq_none {t : BinaryTree α} (h : popMin t = none) : inorder t = [] := by
  cases t with
  | nil => rfl
  | node x l r =>
    rw [popMin] at h
    split at h <;> cases h

theorem popMin_eq_some {t t' : BinaryTree α} {m : α} (h : popMin t = some (m, t')) :
    inorder t = m :: inorder t' := by
  induction t generalizing m t' with
  | nil => cases h
  | node x l r ihl ihr =>
    rw [popMin] at h
    split at h
    · next hl =>
      cases h
      rw [inorder, popMin_eq_none hl]
      rfl
    · next m' l' hl =>
      cases h
      rw [inorder, ihl hl]
      rfl

theorem inorder_join (l r : BinaryTree α) : inorder (join l r) = inorder l ++ inorder r := by
  unfold join
  split
  · next h => rw [popMin_eq_none h, List.append_nil]
  · next m r' h => rw [inorder, popMin_eq_some h]

theorem inorder_erase (t : BinaryTree α) (i : ℕ) :
    inorder (erase t i) = (inorder t).eraseIdx i := by
  induction t generalizing i with
  | nil => rfl
  | node x l r ihl ihr =>
    rw [erase]
    split_ifs with hlt heq
    · rw [inorder, ihl, inorder, List.eraseIdx_append_of_lt_length hlt]
    · rw [inorder_join, inorder, List.eraseIdx_append_of_length_le (by omega), heq, Nat.sub_self,
        List.eraseIdx_cons_zero]
    · rw [inorder, ihr, inorder, List.eraseIdx_append_of_length_le (by omega)]
      obtain ⟨j, hj⟩ : ∃ j, i - (inorder l).length = j + 1 := ⟨i - (inorder l).length - 1, by omega⟩
      rw [hj, List.eraseIdx_cons_succ, Nat.add_sub_cancel]

theorem descend_sound {goRight : α → Bool} {t : BinaryTree α} {i : ℕ}
    (h : descend goRight t = some i) : ∃ e, (inorder t)[i]? = some e ∧ goRight e = false := by
  induction t generalizing i with
  | nil => cases h
  | node x l r ihl ihr =>
    rw [descend] at h
    split_ifs at h with hx
    · obtain ⟨j, hj, rfl⟩ := Option.map_eq_some_iff.mp h
      obtain ⟨e, he, hf⟩ := ihr hj
      refine ⟨e, ?_, hf⟩
      rw [inorder, List.getElem?_append_right (by omega),
        show (inorder l).length + 1 + j - (inorder l).length = j + 1 by omega,
        List.getElem?_cons_succ, he]
    · cases hl : descend goRight l with
      | none =>
        rw [hl] at h
        cases h
        refine ⟨x, ?_, by simpa using hx⟩
        simp [inorder]
      | some j =>
        rw [hl] at h
        cases h
        obtain ⟨e, he, hf⟩ := ihl hl
        obtain ⟨hlt, -⟩ := List.getElem?_eq_some_iff.mp he
        exact ⟨e, by rw [inorder, Option.getD_some, List.getElem?_append_left hlt, he], hf⟩

def leftSpine : List α → BinaryTree α
  | [] => nil
  | x :: l => node x (leftSpine l) nil

theorem inorder_leftSpine (l : List α) : inorder (leftSpine l) = l.reverse := by
  induction l with
  | nil => rfl
  | cons x l ih => simp [leftSpine, inorder, ih]

theorem getElem_inorder_leftSpine (x : α) (l : List α) :
    (inorder (leftSpine (x :: l)))[l.length]? = some x := by
  rw [inorder_leftSpine, List.reverse_cons, List.getElem?_append_right (by simp)]
  simp

theorem insert_leftSpine {v : α} {l : List α} (h : ∀ x ∈ l, cmp v x = true) :
    insert cmp v (leftSpine l) = leftSpine (l ++ [v]) := by
  induction l with
  | nil => rfl
  | cons x l ih =>
    rw [leftSpine, insert, if_pos (h x List.mem_cons_self),
      ih fun y hy => h y (List.mem_cons_of_mem x hy)]
    rfl

theorem descend_leftSpine_of_right (goRight : α → Bool) {x : α} (h : goRight x = true)
    (l : List α) : descend goRight (leftSpine (x :: l)) = none := by
  rw [leftSpine, descend, if_pos h]
  rfl

theorem descend_leftSpine_of_left (goRight : α → Bool) {x : α} (h : goRight x = false)
    {l : List α} (hl : ∀ y ∈ l, goRight y = true) :
    descend goRight (leftSpine (x :: l)) = some l.length := by
  have hrest : descend goRight (leftSpine l) = none := by
    cases l with
    | nil => rfl
    | cons y l => exact descend_leftSpine_of_right goRight (hl y List.mem_cons_self) l
  rw [leftSpine, descend, if_neg (by simp [h]), hrest, inorder_leftSpine, List.length_reverse]
  rfl

variable (cmp)

/-- The binary search tree as a multiset: `lower_bound(k)` goes right at `x` exactly when
`cmp x k`, `upper_bound(k)` exactly when not `cmp k x`. -/
def multiset : OrderedMultiset α cmp where
  Carrier := BinaryTree α
  toList := inorder
  empty := nil
  insert t v := insert cmp v t
  erase := erase
  lowerBound t k := descend (fun x => cmp x k) t
  upperBound t k := descend (fun x => !cmp k x) t
  toList_empty := rfl
  insert_perm t v := inorder_insert v t
  toList_erase := inorder_erase
  lowerBound_sound := descend_sound
  upperBound_sound h := by simpa using descend_sound h

end SearchTree
