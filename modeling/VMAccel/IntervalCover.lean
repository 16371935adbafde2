import Mathlib.Data.Multiset.Filter
import Mathlib.Data.Multiset.Pairwise

/-!
# Tilings of an interval

A multiset of things that occupy closed intervals of natural numbers tiles `[a, b]` when none of
the intervals is empty and every point is covered once inside `[a, b]` and not at all outside.
Coverage is a count, so cutting one interval in two and joining two neighbours preserve it by
arithmetic; disjointness and the union are read off at the end.
-/

namespace IntervalCover

variable {α : Type*} (lo hi : α → ℕ)

def cover (l : Multiset α) (x : ℕ) : ℕ := l.countP fun r => lo r ≤ x ∧ x ≤ hi r

theorem cover_cons (r : α) (l : Multiset α) (x : ℕ) :
    cover lo hi (r ::ₘ l) x = cover lo hi l x + if lo r ≤ x ∧ x ≤ hi r then 1 else 0 :=
  Multiset.countP_cons _ r l

structure Tiles (l : Multiset α) (a b : ℕ) : Prop where
  nonempty : ∀ r ∈ l, lo r ≤ hi r
  cover_eq : ∀ x, cover lo hi l x = if a ≤ x ∧ x ≤ b then 1 else 0

variable {lo hi} {l : Multiset α} {a b : ℕ}

theorem tiles_singleton {r : α} (h : lo r ≤ hi r) : Tiles lo hi {r} (lo r) (hi r) where
  nonempty t ht := by rwa [Multiset.mem_singleton.mp ht]
  cover_eq x := by
    rw [← Multiset.cons_zero, cover_cons]
    exact Nat.zero_add _

theorem Tiles.split {e d r : α} (h : Tiles lo hi (e ::ₘ l) a b) (hd : lo d = lo e)
    (hcut : lo r = hi d + 1) (hr : hi r = hi e) (hdne : lo d ≤ hi d) (hrne : lo r ≤ hi r) :
    Tiles lo hi (d ::ₘ r ::ₘ l) a b where
  nonempty t ht := by
    rw [Multiset.mem_cons, Multiset.mem_cons] at ht
    rcases ht with rfl | rfl | ht
    · exact hdne
    · exact hrne
    · exact h.nonempty t (Multiset.mem_cons_of_mem ht)
  cover_eq x := by
    rw [← h.cover_eq x, cover_cons, cover_cons, cover_cons, hd, hcut, hr]
    split_ifs <;> omega

theorem Tiles.merge {e d r : α} (h : Tiles lo hi (d ::ₘ r ::ₘ l) a b) (hcut : lo r = hi d + 1)
    (hlo : lo e = lo d) (hhi : hi e = hi r) : Tiles lo hi (e ::ₘ l) a b where
  nonempty t ht := by
    have hd := h.nonempty d (Multiset.mem_cons_self d _)
    have hr := h.nonempty r (Multiset.mem_cons_of_mem (Multiset.mem_cons_self r _))
    rw [Multiset.mem_cons] at ht
    rcases ht with rfl | ht
    · omega
    · exact h.nonempty t (Multiset.mem_cons_of_mem (Multiset.mem_cons_of_mem ht))
  cover_eq x := by
    have hd := h.nonempty d (Multiset.mem_cons_self d _)
    have hr := h.nonempty r (Multiset.mem_cons_of_mem (Multiset.mem_cons_self r _))
    rw [← h.cover_eq x, cover_cons, cover_cons, cover_cons, hcut, hlo, hhi]
    split_ifs <;> omega

theorem Tiles.replace {e d : α} (h : Tiles lo hi (e ::ₘ l) a b) (hlo : lo d = lo e)
    (hhi : hi d = hi e) : Tiles lo hi (d ::ₘ l) a b where
  nonempty t ht := by
    rw [Multiset.mem_cons] at ht
    rcases ht with rfl | ht
    · have := h.nonempty e (Multiset.mem_cons_self e _)
      omega
    · exact h.nonempty t (Multiset.mem_cons_of_mem ht)
  cover_eq x := by rw [← h.cover_eq x, cover_cons, cover_cons, hlo, hhi]

theorem cover_pos_iff {x : ℕ} : 0 < cover lo hi l x ↔ ∃ r ∈ l, lo r ≤ x ∧ x ≤ hi r :=
  Multiset.countP_pos

theorem Tiles.mem_iff (h : Tiles lo hi l a b) (x : ℕ) :
    (∃ r ∈ l, lo r ≤ x ∧ x ≤ hi r) ↔ a ≤ x ∧ x ≤ b := by
  rw [← cover_pos_iff, h.cover_eq]
  split_ifs with hx
  · exact iff_of_true Nat.one_pos hx
  · exact iff_of_false (Nat.lt_irrefl 0) hx

theorem Tiles.bounds (h : Tiles lo hi l a b) {r : α} (hr : r ∈ l) : a ≤ lo r ∧ hi r ≤ b :=
  have hne := h.nonempty r hr
  ⟨((h.mem_iff (lo r)).mp ⟨r, hr, le_rfl, hne⟩).1, ((h.mem_iff (hi r)).mp ⟨r, hr, hne, le_rfl⟩).2⟩

theorem Tiles.cover_le_one (h : Tiles lo hi l a b) (x : ℕ) : cover lo hi l x ≤ 1 := by
  rw [h.cover_eq]
  split_ifs <;> omega

theorem disjoint_of_cover {r t : α} (hone : ∀ x, cover lo hi (r ::ₘ l) x ≤ 1) (hr : lo r ≤ hi r)
    (ht : t ∈ l) (ht' : lo t ≤ hi t) : hi r < lo t ∨ hi t < lo r := by
  by_contra hcon
  have hx := hone (max (lo r) (lo t))
  have hpos : 0 < cover lo hi l (max (lo r) (lo t)) :=
    cover_pos_iff.mpr ⟨t, ht, by omega, by omega⟩
  rw [cover_cons, if_pos ⟨by omega, by omega⟩] at hx
  omega

theorem Tiles.disjoint {r t : α} (h : Tiles lo hi (r ::ₘ l) a b) (ht : t ∈ l) :
    hi r < lo t ∨ hi t < lo r :=
  disjoint_of_cover h.cover_le_one (h.nonempty r (Multiset.mem_cons_self r l)) ht
    (h.nonempty t (Multiset.mem_cons_of_mem ht))

theorem Tiles.pairwise (h : Tiles lo hi l a b) :
    l.Pairwise fun r t => hi r < lo t ∨ hi t < lo r := by
  have hone := h.cover_le_one
  have hne := h.nonempty
  clear h
  induction l using Quotient.inductionOn with
  | h L =>
    refine ⟨L, rfl, ?_⟩
    induction L with
    | nil => exact List.Pairwise.nil
    | cons r L ih =>
      have hcons : ∀ x, cover lo hi (r ::ₘ (L : Multiset α)) x ≤ 1 := hone
      refine List.Pairwise.cons (fun t ht => ?_) (ih (fun x => ?_) fun t ht =>
        hne t (List.mem_cons_of_mem r ht))
      · exact disjoint_of_cover hcons (hne r List.mem_cons_self) (Multiset.mem_coe.mpr ht)
          (hne t (List.mem_cons_of_mem r ht))
      · have hx := hcons x
        rw [cover_cons] at hx
        exact le_trans (Nat.le_add_right _ _) hx

variable (lo hi) in
def Apart (l : Multiset α) : Prop := ∀ r ∈ l, ∀ t ∈ l, lo t ≠ hi r + 1

theorem Tiles.eq_singleton (h : Tiles lo hi l a b) (hab : a ≤ b) (hapart : Apart lo hi l) :
    ∃ r, l = {r} ∧ lo r = a ∧ hi r = b := by
  obtain ⟨r, hr, hra, har⟩ := (h.mem_iff a).mpr ⟨le_rfl, hab⟩
  obtain ⟨rest, rfl⟩ := Multiset.exists_cons_of_mem hr
  have hbounds := h.bounds hr
  have hhi : hi r = b := by
    -- The point behind `r` would belong to an interval that begins there.
    by_contra hne
    obtain ⟨t, ht, hlo, hhi⟩ := (h.mem_iff (hi r + 1)).mpr ⟨by omega, by omega⟩
    rcases Multiset.mem_cons.mp ht with rfl | hrest
    · omega
    · have hdisj := h.disjoint hrest
      exact hapart r hr t ht (by omega)
  have hempty : rest = 0 := by
    refine Multiset.eq_zero_of_forall_notMem fun t ht => ?_
    have hdisj := h.disjoint ht
    have hmem : t ∈ r ::ₘ rest := Multiset.mem_cons_of_mem ht
    have ht' := h.bounds hmem
    have hne := h.nonempty t hmem
    omega
  refine ⟨r, ?_, by omega, hhi⟩
  rw [hempty]
  rfl

end IntervalCover
