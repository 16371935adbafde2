import VMAccel.AllocatorLedger
import VMAccel.AllocRange
import VMAccel.IntervalCover

/-!
# Free and live ranges tile what was registered

For each parent, the free and the live ranges together tile the registered range. Putting a range
back keeps the tiling as long as the element that `upper_bound` returns is not a neighbour that
belongs to another parent: then the merge that would set a wrong end is never reached.
-/

namespace VMAccel

open StepSystem VMAccelAllocator IntervalCover

structure AllocRange.WellFormed (r : AllocRange) : Prop where
  cmpRange : r.cmpRange = false
  begin_le : r.begin.toNat ≤ r.last.toNat
  size_eq : r.size.toNat = r.last.toNat - r.begin.toNat + 1

abbrev RangeObject := VMAccelObject AllocRange

def RangeObject.lo (o : RangeObject) : ℕ := o.obj.begin.toNat

def RangeObject.hi (o : RangeObject) : ℕ := o.obj.last.toNat

open RangeObject

def ofParent (l : Multiset RangeObject) (p : VMAccelId) : Multiset RangeObject :=
  l.filter fun o => o.parentId = p

theorem ofParent_cons_self (o : RangeObject) (l : Multiset RangeObject) :
    ofParent (o ::ₘ l) o.parentId = o ::ₘ ofParent l o.parentId :=
  Multiset.filter_cons_of_pos (p := fun x : RangeObject => x.parentId = o.parentId) l rfl

theorem ofParent_cons_of_ne {o : RangeObject} {p : VMAccelId} (h : o.parentId ≠ p)
    (l : Multiset RangeObject) : ofParent (o ::ₘ l) p = ofParent l p :=
  Multiset.filter_cons_of_neg (p := fun x : RangeObject => x.parentId = p) l h

theorem mem_ofParent {o : RangeObject} {l : Multiset RangeObject} {p : VMAccelId} :
    o ∈ ofParent l p ↔ o ∈ l ∧ o.parentId = p := Multiset.mem_filter

structure TilesParent (objs : Multiset RangeObject) (p : VMAccelId) (a : AllocRange) : Prop where
  registered : a.WellFormed
  objects : ∀ o ∈ objs, o.parentId = p → o.obj.WellFormed
  tiles : Tiles lo hi (ofParent objs p) a.begin.toNat a.last.toNat

variable {objs : Multiset RangeObject} {p : VMAccelId} {a : AllocRange} {o e : RangeObject}

theorem TilesParent.bounds (h : TilesParent objs p a) (ho : o ∈ objs) (hp : o.parentId = p) :
    a.begin.toNat ≤ o.lo ∧ o.hi ≤ a.last.toNat := h.tiles.bounds (mem_ofParent.mpr ⟨ho, hp⟩)

theorem TilesParent.congr {objs' : Multiset RangeObject} (h : TilesParent objs p a)
    (heq : ofParent objs' p = ofParent objs p) : TilesParent objs' p a where
  registered := h.registered
  objects o ho hp := by
    have hmem : o ∈ ofParent objs p := heq ▸ mem_ofParent.mpr ⟨ho, hp⟩
    exact h.objects o (mem_ofParent.mp hmem).1 hp
  tiles := heq ▸ h.tiles

/-- A registered range cannot span the whole address space, so neighbours inside it are
neighbours as natural numbers. -/
theorem TilesParent.toNat_succ (h : TilesParent objs p a) {x y : BitVec 64} (hxy : x = y + 1)
    (hx : a.begin.toNat ≤ x.toNat) (hy : y.toNat ≤ a.last.toNat) :
    x.toNat = y.toNat + 1 := by
  have hsize := h.registered.size_eq
  have hle := h.registered.begin_le
  have hlt := a.size.isLt
  have hylt := y.isLt
  rw [hxy, BitVec.toNat_add] at hx ⊢
  change a.begin.toNat ≤ (y.toNat + 1) % 2 ^ 64 at hx
  change (y.toNat + 1) % 2 ^ 64 = y.toNat + 1
  omega

theorem TilesParent.merge (h : TilesParent (o ::ₘ e ::ₘ objs) o.parentId a)
    (hpar : e.parentId = o.parentId) (hcut : e.lo = o.hi + 1) :
    TilesParent (.of o.parentId ⟨e.obj.cmpRange,
      e.obj.size + (o.obj.last - o.obj.begin + 1), o.obj.begin, e.obj.last⟩ ::ₘ objs)
        o.parentId a := by
  have ho := h.objects o (Multiset.mem_cons_self o _) rfl
  have hmem : e ∈ o ::ₘ e ::ₘ objs := Multiset.mem_cons_of_mem (Multiset.mem_cons_self e _)
  have he := h.objects e hmem hpar
  have hbo := h.bounds (Multiset.mem_cons_self o _) rfl
  have hbe := h.bounds hmem hpar
  have htiles := h.tiles
  rw [ofParent_cons_self, ← hpar, ofParent_cons_self, hpar] at htiles
  refine ⟨h.registered, fun x hx hxp => ?_, ?_⟩
  · rcases Multiset.mem_cons.mp hx with rfl | hx
    · have hreg := h.registered.size_eq
      have hregle := h.registered.begin_le
      have hlt := a.size.isLt
      have h1 := ho.begin_le
      have h2 := he.begin_le
      have h3 := he.size_eq
      simp only [lo, hi] at hcut hbo hbe
      refine ⟨he.cmpRange, by simp only [VMAccelObject.of]; omega, ?_⟩
      simp only [VMAccelObject.of]
      rw [BitVec.toNat_add, BitVec.toNat_add, BitVec.toNat_sub_of_le (BitVec.le_def.mpr h1)]
      change (e.obj.size.toNat + (o.obj.last.toNat - o.obj.begin.toNat + 1) % 2 ^ 64) % 2 ^ 64 = _
      omega
    · exact h.objects x (Multiset.mem_cons_of_mem (Multiset.mem_cons_of_mem hx)) hxp
  · have hfilter := ofParent_cons_self (.of o.parentId ⟨e.obj.cmpRange,
      e.obj.size + (o.obj.last - o.obj.begin + 1), o.obj.begin, e.obj.last⟩) objs
    simp only [VMAccelObject.of] at hfilter ⊢
    rw [hfilter]
    exact htiles.merge hcut rfl rfl

section PutBack

variable {M : OrderedMultiset RangeObject Resource.cmp} {pool pool' : M.Carrier} {i : ℕ}

/-- What `upper_bound` returns for `o` is not a neighbour of `o` that belongs to another
parent. -/
def NoForeignNeighbour (M : OrderedMultiset RangeObject Resource.cmp) (pool : M.Carrier)
    (o : RangeObject) : Prop :=
  ∀ i e, M.upperBound pool (AllocRange.key o) = some i → (M.toList pool)[i]? = some e →
    e.parentId ≠ o.parentId → e.obj.begin ≠ o.obj.last + 1 ∧ e.obj.last + 1 ≠ o.obj.begin

/-- The element a search returned, where it is not a foreign neighbour, has the parent of `o` and
does not lie before it. -/
theorem parentId_of_merged (hm : AllocRange.Merged pool pool' o e i)
    (hf : NoForeignNeighbour M pool o)
    (hfound : M.lowerBound pool (AllocRange.key o) = some i ∨
      M.upperBound pool (AllocRange.key o) = some i) :
    e.parentId = o.parentId ∧
      (o.lo ≤ e.lo ∧ o.hi ≤ e.hi ∨ o.lo < e.lo ∨ o.hi < e.hi) := by
  have hget : (M.toList pool)[i]? = some e := hm.elim (fun h => h.2.1) fun h => h.2.1
  rcases hfound with hi | hi
  · obtain ⟨x, hx, hcmp⟩ := M.lowerBound_sound hi
    obtain rfl : x = e := Option.some.inj (hx.symm.trans hget)
    obtain ⟨hpar, hpos⟩ := AllocRange.cmp_key_eq_false.mp hcmp
    exact ⟨hpar, Or.inl hpos⟩
  · obtain ⟨x, hx, hcmp⟩ := M.upperBound_sound hi
    obtain rfl : x = e := Option.some.inj (hx.symm.trans hget)
    have hpar : x.parentId = o.parentId := by
      by_contra hne
      obtain ⟨h1, h2⟩ := hf i x hi hx hne
      exact hm.elim (fun h => h1 h.1) fun h => h2 h.1
    exact ⟨hpar, Or.inr ((AllocRange.key_cmp_eq_true.mp hcmp).resolve_left fun h => h hpar.symm)⟩

theorem TilesParent.absorbs {X : Multiset RangeObject}
    (h : TilesParent (o ::ₘ (M.bag pool + X)) o.parentId a)
    (hm : AllocRange.Merged pool pool' o e i) (hf : NoForeignNeighbour M pool o)
    (hfound : M.lowerBound pool (AllocRange.key o) = some i ∨
      M.upperBound pool (AllocRange.key o) = some i) :
    e.parentId = o.parentId ∧ e.lo = o.hi + 1 ∧ AllocRange.Absorbs pool pool' o e i
      ⟨e.obj.cmpRange, e.obj.size + (o.obj.last - o.obj.begin + 1), o.obj.begin,
        e.obj.last⟩ := by
  obtain ⟨hpar, hpos⟩ := parentId_of_merged hm hf hfound
  have hget : (M.toList pool)[i]? = some e := hm.elim (fun h => h.2.1) fun h => h.2.1
  have hmem : e ∈ o ::ₘ (M.bag pool + X) := Multiset.mem_cons_of_mem
    (Multiset.mem_add.mpr (Or.inl (M.mem_bag_of_getElem hget)))
  have hbo := h.bounds (Multiset.mem_cons_self o _) rfl
  have hbe := h.bounds hmem hpar
  have ho := (h.objects o (Multiset.mem_cons_self o _) rfl).begin_le
  have he := (h.objects e hmem hpar).begin_le
  rcases hm with ⟨hcut, habs⟩ | ⟨hcut, -⟩
  · exact ⟨hpar, h.toNat_succ hcut hbe.1 hbo.2, habs⟩
  · have hnat := h.toNat_succ hcut.symm hbo.1 hbe.2
    simp only [lo, hi] at hpos
    omega

theorem TilesParent.freeObj {X : Multiset RangeObject}
    (h : TilesParent (o ::ₘ (M.bag pool + X)) o.parentId a) (hf : NoForeignNeighbour M pool o) :
    TilesParent (M.bag (Resource.freeObj M pool o).2 + X) o.parentId a := by
  change TilesParent (M.bag (AllocRange.freeObj M pool o).2 + X) o.parentId a
  rcases AllocRange.freeObj_cases pool o with ⟨pool', heq, e, i, hm, hfound⟩ | heq
  · obtain ⟨hpar, hcut, habs⟩ := h.absorbs hm hf hfound
    obtain ⟨hpool, hpool'⟩ := habs.bag_eq
    rw [hpool, Multiset.cons_add] at h
    rw [heq, hpool', Multiset.cons_add]
    exact h.merge hpar hcut
  · rw [heq, M.bag_insert, Multiset.cons_add]
    exact h

theorem ofParent_freeObj {X : Multiset RangeObject}
    (h : TilesParent (o ::ₘ (M.bag pool + X)) o.parentId a) (hf : NoForeignNeighbour M pool o)
    {q : VMAccelId} (hq : o.parentId ≠ q) :
    ofParent (M.bag (Resource.freeObj M pool o).2) q = ofParent (M.bag pool) q := by
  change ofParent (M.bag (AllocRange.freeObj M pool o).2) q = _
  rcases AllocRange.freeObj_cases pool o with ⟨pool', heq, e, i, hm, hfound⟩ | heq
  · obtain ⟨hpar, -, habs⟩ := h.absorbs hm hf hfound
    obtain ⟨hpool, hpool'⟩ := habs.bag_eq
    have hnew := ofParent_cons_of_ne (o := .of o.parentId ⟨e.obj.cmpRange,
      e.obj.size + (o.obj.last - o.obj.begin + 1), o.obj.begin, e.obj.last⟩) hq
      (M.bag (M.erase pool i))
    rw [heq, hpool', hpool, hnew, ofParent_cons_of_ne (hpar ▸ hq)]
  · rw [heq, M.bag_insert, ofParent_cons_of_ne hq]

end PutBack

end VMAccel
