import VMAccel.AllocatorDrops
import VMAccel.DescCapacity
import VMAccel.DescLookup
import Mathlib.Algebra.BigOperators.Group.Multiset.Basic

/-!
# Deferred free and the conservation of descriptors

In the three components that `Reserve` compares, a reservation splits a free descriptor exactly, and
`FreeObj` adds exactly as long as the sum fits. What a search finds, what it leaves in the free set
and in the queue, and what it drops therefore add up to what was there before. So each registered
descriptor is the sum of its free, its queued and its live parts throughout a run, in either build,
exactly when nothing that `Alloc` drops holds any of a compared component.
-/

namespace VMAccel

open StepSystem IdentifierDB VMAccelAllocator

def Dim.Compared : Dim → Prop
  | .megaFlops | .megaOps | .localMemSizeKB => True
  | _ => False

instance : DecidablePred Dim.Compared
  | .megaFlops | .megaOps | .localMemSizeKB => .isTrue trivial
  | .llcSizeKB | .llcBandwidthMBSec | .localMemBandwidthMBSec | .nonLocalMemSizeKB
  | .nonLocalMemBandwidthMBSec | .interconnectBandwidthMBSec => .isFalse id

theorem le_iff_compared {v w : VMAccelWorkloadDesc} :
    v.le w = true ↔ ∀ dim : Dim, dim.Compared → v.comp dim ≤ w.comp dim := by
  rw [VMAccelWorkloadDesc.le_iff]
  constructor
  · rintro ⟨hmem, hflops, hops⟩ dim hdim
    cases dim with
    | megaFlops => exact hflops
    | megaOps => exact hops
    | localMemSizeKB => exact hmem
    | _ => exact absurd hdim id
  · exact fun h => ⟨h .localMemSizeKB trivial, h .megaFlops trivial, h .megaOps trivial⟩

section Totals

variable {l : Multiset (VMAccelObject VMAccelDesc)} {q : VMAccelId} {dim : Dim}

theorem total_add (l l' : Multiset (VMAccelObject VMAccelDesc)) (q : VMAccelId) (dim : Dim) :
    total (l + l') q dim = total l q dim + total l' q dim := by
  rw [total, Multiset.filter_add, Multiset.map_add, Multiset.sum_add]
  rfl

theorem total_cons (o : VMAccelObject VMAccelDesc) (l : Multiset (VMAccelObject VMAccelDesc))
    (q : VMAccelId) (dim : Dim) : total (o ::ₘ l) q dim = total {o} q dim + total l q dim := by
  rw [← Multiset.singleton_add, total_add]

theorem total_singleton (o : VMAccelObject VMAccelDesc) (q : VMAccelId) (dim : Dim) :
    total {o} q dim = if o.parentId = q then (o.obj.capacity.comp dim).toNat else 0 := by
  rw [total, Multiset.filter_singleton]
  split_ifs with h
  · exact Multiset.sum_singleton _
  · rfl

theorem total_of (p : VMAccelId) (d : VMAccelDesc) (q : VMAccelId) (dim : Dim) :
    total {.of p d} q dim = if p = q then (d.capacity.comp dim).toNat else 0 :=
  total_singleton (.of p d) q dim

end Totals

variable {M : OrderedMultiset (VMAccelObject VMAccelDesc) Resource.cmp}

theorem total_freeObj (pool : M.Carrier) (o : VMAccelObject VMAccelDesc) (dim : Dim)
    (hfit : total (M.bag pool) o.parentId dim + (o.obj.capacity.comp dim).toNat < 2 ^ 32)
    (q : VMAccelId) : total (M.bag (Resource.freeObj M pool o).2) q dim =
      total {o} q dim + total (M.bag pool) q dim := by
  rw [total_singleton]
  split_ifs with hq
  · subst hq
    rw [total_freeObj_self pool o dim hfit, add_comm]
  · rw [total_freeObj_of_ne hq, zero_add]

theorem total_freeObj_head {pool : M.Carrier} {o : VMAccelObject VMAccelDesc}
    {rest : List (VMAccelObject VMAccelDesc)} {dim : Dim}
    (hfit : total (M.bag pool) o.parentId dim + total (o :: rest) o.parentId dim < 2 ^ 32)
    (q : VMAccelId) : total (M.bag (Resource.freeObj M pool o).2) q dim =
      total {o} q dim + total (M.bag pool) q dim := by
  have hcons : total (o :: rest) o.parentId dim =
      total {o} o.parentId dim + total rest o.parentId dim := total_cons o rest o.parentId dim
  rw [hcons, total_singleton, if_pos rfl] at hfit
  exact total_freeObj pool o dim (by omega) q

theorem total_putBack (pool : M.Carrier) (p : VMAccelId) (r : VMAccelDesc) (dim : Dim)
    (hfit : total (M.bag pool) p dim + (r.capacity.comp dim).toNat < 2 ^ 32) (q : VMAccelId) :
    total (M.bag (putBack pool p r)) q dim + total (spill p r) q dim =
      total {.of p r} q dim + total (M.bag pool) q dim := by
  unfold putBack spill
  split_ifs
  · exact add_comm _ _
  · exact total_freeObj pool (.of p r) dim hfit q

theorem total_reserve {o : VMAccelObject VMAccelDesc} {a d r : VMAccelDesc} {dim : Dim}
    (hdim : dim.Compared) (h : VMAccelDesc.reserve o.obj a = some (d, r)) (q : VMAccelId) :
    total {o} q dim = total {.of o.parentId d} q dim + total {.of o.parentId r} q dim ∧
      (r.capacity.comp dim).toNat ≤ (o.obj.capacity.comp dim).toNat := by
  obtain ⟨hlt, hd, hr⟩ := VMAccelDesc.reserve_eq_some h
  rw [VMAccelWorkloadDesc.lt_eq_not_le, Bool.not_eq_false'] at hlt
  have hle := le_iff_compared.mp hlt dim hdim
  have hsub : (r.capacity.comp dim).toNat =
      (o.obj.capacity.comp dim).toNat - (a.capacity.comp dim).toNat := by
    rw [hr, VMAccelWorkloadDesc.comp_sub, BitVec.toNat_sub_of_le hle]
  have hle' : (a.capacity.comp dim).toNat ≤ (o.obj.capacity.comp dim).toNat := hle
  rw [total_singleton, total_of, total_of, hd]
  refine ⟨?_, by omega⟩
  split_ifs
  · omega
  · rfl

theorem total_tryReserve {pool pool' : M.Carrier} {p : VMAccelId} {a : VMAccelDesc}
    {d : VMAccelObject VMAccelDesc} {dim : Dim} (hdim : dim.Compared)
    (hfit : total (M.bag pool) p dim < 2 ^ 32)
    (htr : tryReserve pool (.of p a) = some (d, pool')) (q : VMAccelId) :
    total (M.bag pool) q dim = total (M.bag pool') q dim + total {d} q dim +
      total (spillReserve pool (.of p a)) q dim := by
  obtain ⟨i, e, div, r, hl, hres, rfl, rfl⟩ := tryReserve_eq_some htr
  obtain ⟨hi, hcmp⟩ := lookup_eq_some hl
  obtain rfl : e.parentId = p := Resource.parentId_eq_of_cmp hcmp
  obtain ⟨hsplit, hle⟩ := total_reserve hdim hres q
  have hbag := M.bag_eq_cons_erase hi
  have hself := total_cons_self e (M.bag (M.erase pool i)) dim
  rw [← hbag] at hself
  have hback := total_putBack (M.erase pool i) e.parentId r dim (by omega) q
  rw [spillReserve_of_reserve hl hres, hbag, total_cons]
  change _ = total (M.bag (putBack _ e.parentId r)) q dim + _ + total (spill e.parentId r) q dim
  omega

def AddsUp (pool : M.Carrier) (queue : List (VMAccelObject VMAccelDesc))
    (r : Option (VMAccelObject VMAccelDesc) × M.Carrier × List (VMAccelObject VMAccelDesc))
    (dropped : List (VMAccelObject VMAccelDesc)) (q : VMAccelId) (dim : Dim) : Prop :=
  total (M.bag pool) q dim + total queue q dim =
    total (M.bag r.2.1) q dim + total r.2.2 q dim + total r.1.toList q dim + total dropped q dim

theorem addsUp_findFreed_of_le {pool : M.Carrier} {a : VMAccelDesc} {dim : Dim}
    (hdim : dim.Compared) {o : VMAccelObject VMAccelDesc} {rest : List (VMAccelObject VMAccelDesc)}
    (hle : Resource.le a o.obj = true)
    (hfit : total (M.bag pool) o.parentId dim + total (o :: rest) o.parentId dim < 2 ^ 32)
    (q : VMAccelId) : AddsUp pool (o :: rest) (findFreed (.of o.parentId a) pool (o :: rest))
      (dropsFreed (.of o.parentId a) pool (o :: rest)) q dim := by
  have hcons : ∀ x, total (o :: rest) x dim = total {o} x dim + total rest x dim :=
    fun x => total_cons o rest x dim
  have hself : total {o} o.parentId dim = (o.obj.capacity.comp dim).toNat := by
    rw [total_singleton, if_pos rfl]
  have hsum := hcons o.parentId
  rw [AddsUp, findFreed_of_le (.of o.parentId a) (a := o) rfl hle,
    dropsFreed_of_le (.of o.parentId a) (a := o) rfl hle, hcons]
  cases hres : Resource.reserve o.obj (VMAccelObject.of o.parentId a).obj with
  | none =>
    change _ = total (M.bag pool) q dim + total rest q dim + 0 + total {o} q dim
    omega
  | some dr =>
    obtain ⟨hsplit, hrle⟩ := total_reserve hdim hres q
    have hback := total_putBack pool o.parentId dr.2 dim (by omega) q
    change _ = total (M.bag (putBack pool o.parentId dr.2)) q dim + total rest q dim +
      total {.of o.parentId dr.1} q dim + total (spill o.parentId dr.2) q dim
    omega

theorem addsUp_findFreed {pool : M.Carrier} {p : VMAccelId} {a : VMAccelDesc} {dim : Dim}
    (hdim : dim.Compared) {queue : List (VMAccelObject VMAccelDesc)}
    (hfit : total (M.bag pool) p dim + total queue p dim < 2 ^ 32) (q : VMAccelId) :
    AddsUp pool queue (findFreed (.of p a) pool queue) (dropsFreed (.of p a) pool queue) q dim := by
  induction queue generalizing pool with
  | nil => rfl
  | cons o rest ih =>
    have hcons : ∀ x, total (o :: rest) x dim = total {o} x dim + total rest x dim :=
      fun x => total_cons o rest x dim
    by_cases hop : o.parentId = p
    · subst hop
      by_cases hle : Resource.le a o.obj = true
      · exact addsUp_findFreed_of_le hdim hle hfit q
      · have hsum := hcons o.parentId
        have hfree := total_freeObj_head hfit
        have hfree' := hfree o.parentId
        rw [AddsUp, findFreed_of_not_le (.of o.parentId a) (a := o) rfl hle,
          dropsFreed_of_not_le (.of o.parentId a) (a := o) rfl hle, hcons]
        cases htr : tryReserve (Resource.freeObj M pool o).2 (.of o.parentId a) with
        | none =>
          have hrest := @ih (Resource.freeObj M pool o).2 (by omega)
          rw [AddsUp, hfree q] at hrest
          rw [Option.isSome_none, if_neg Bool.false_ne_true]
          change _ = total (M.bag (findFreed _ _ rest).2.1) q dim +
            total (findFreed _ _ rest).2.2 q dim + total (findFreed _ _ rest).1.toList q dim + _
          omega
        | some dp =>
          have hres := total_tryReserve hdim (by omega) htr q
          rw [hfree q] at hres
          rw [Option.isSome_some, if_pos rfl]
          change _ = total (M.bag dp.2) q dim + total rest q dim + total {dp.1} q dim + _
          omega
    · have hskip : total (o :: rest) p dim = total rest p dim := by
        rw [hcons, total_singleton, if_neg hop, zero_add]
      have hrest := @ih pool (by omega)
      have hdrop : total (o :: dropsFreed (.of p a) pool rest) q dim =
          total {o} q dim + total (dropsFreed (.of p a) pool rest) q dim :=
        total_cons o (dropsFreed (.of p a) pool rest : List _) q dim
      rw [AddsUp] at hrest
      rw [AddsUp, findFreed_of_ne _ hop, dropsFreed_of_ne _ hop, hcons, hdrop]
      omega

theorem addsUp_findFree {s : VMAccelAllocator VMAccelDesc M} {p : VMAccelId} {a : VMAccelDesc}
    {dim : Dim} (hdim : dim.Compared)
    (hfit : total (M.bag s.freeSet) p dim + total s.freed p dim < 2 ^ 32) (q : VMAccelId) :
    AddsUp s.freeSet s.freed (s.findFree (.of p a)) (s.drops (.of p a)) q dim := by
  cases hl : lookup s.freeSet (.of p a) with
  | none =>
    rw [findFree_of_lookup_none hl, drops, hl, Option.isSome_none, if_neg Bool.false_ne_true]
    exact addsUp_findFreed hdim hfit q
  | some x =>
    rw [AddsUp, findFree_of_lookup hl, drops, hl, Option.isSome_some, if_pos rfl]
    cases htr : tryReserve s.freeSet (.of p a) with
    | none =>
      rw [spillReserve_of_none htr]
      rfl
    | some dp =>
      have hres := total_tryReserve hdim (by omega) htr q
      change _ = total (M.bag dp.2) q dim + total s.freed q dim + total {dp.1} q dim + _
      omega

theorem total_coalesceFrom (pool : M.Carrier) {queue : List (VMAccelObject VMAccelDesc)} {dim : Dim}
    (hfit : ∀ p, total (M.bag pool) p dim + total queue p dim < 2 ^ 32) (q : VMAccelId) :
    total (M.bag (coalesceFrom pool queue)) q dim =
      total (M.bag pool) q dim + total queue q dim := by
  induction queue generalizing pool with
  | nil => rfl
  | cons o rest ih =>
    have hcons : ∀ x, total (o :: rest) x dim = total {o} x dim + total rest x dim :=
      fun x => total_cons o rest x dim
    have hfree := total_freeObj_head (hfit o.parentId)
    have hrest : ∀ p, total (M.bag (Resource.freeObj M pool o).2) p dim + total rest p dim <
        2 ^ 32 := by
      intro p
      have h1 := hfit p
      have h2 := hcons p
      rw [hfree p]
      omega
    rw [coalesceFrom, ih _ hrest, hfree q, hcons q]
    omega

section Spare

variable {s : VMAccelAllocator VMAccelDesc M} {dim : Dim}

def spare (s : VMAccelAllocator VMAccelDesc M) (q : VMAccelId) (dim : Dim) : ℕ :=
  total (M.bag s.freeSet) q dim + total s.freed q dim

theorem spare_enroll {k : ℕ} {a : VMAccelDesc}
    (hidle : total (M.bag s.freeSet) (BitVec.ofNat 32 k) dim = 0) (q : VMAccelId) :
    spare (s.enroll k a) q dim = total {.of (BitVec.ofNat 32 k) a} q dim + spare s q dim := by
  have hfree := total_freeObj s.freeSet (.of (BitVec.ofNat 32 k) a) dim (by
      change total (M.bag s.freeSet) (BitVec.ofNat 32 k) dim + _ < _
      rw [hidle, zero_add]
      exact BitVec.isLt _) q
  change total (M.bag (Resource.freeObj M s.freeSet _).2) q dim + total s.freed q dim = _
  rw [hfree, add_assoc]
  rfl

theorem spare_withdraw (hfit : ∀ p, spare s p dim < 2 ^ 32) (id : VMAccelId) (ids : IdentifierDB)
    (q : VMAccelId) : spare (s.coalesceFreed.withdraw id ids) q dim =
      if q = id then 0 else spare s q dim := by
  change total (M.bag (M.eraseIf _ (coalesceFrom s.freeSet s.freed))) q dim + 0 = _
  rw [M.bag_eraseIf, add_zero]
  split_ifs with hq
  · refine total_eq_zero (fun o ho => ?_) dim
    rw [hq]
    exact of_decide_eq_false (Multiset.mem_filter.mp ho).2
  · rw [total_filter_ne hq, total_coalesceFrom s.freeSet hfit]
    rfl

theorem spare_reclaim (deferFree : Bool) {k : ℕ} {o : VMAccelObject VMAccelDesc}
    (hfit : ∀ p, spare s p dim + total {o} p dim < 2 ^ 32) (q : VMAccelId) :
    spare ((s.reclaim k o).restock (s.stockFreed deferFree o).1 (s.stockFreed deferFree o).2) q
      dim = spare s q dim + total {o} q dim := by
  have hqueue : ∀ x, total (s.freed ++ [o]) x dim = total s.freed x dim + total {o} x dim :=
    fun x => total_add s.freed {o} x dim
  cases deferFree with
  | true =>
    change total (M.bag s.freeSet) q dim + total (s.freed ++ [o]) q dim = _
    rw [hqueue, ← add_assoc]
    rfl
  | false =>
    have hfit' : ∀ p, total (M.bag s.freeSet) p dim + total (s.freed ++ [o]) p dim < 2 ^ 32 := by
      intro p
      rw [hqueue, ← add_assoc]
      exact hfit p
    have hcoal := total_coalesceFrom s.freeSet hfit' q
    change total (M.bag (coalesceFrom s.freeSet (s.freed ++ [o]))) q dim + 0 = _
    rw [hcoal, hqueue, add_zero, ← add_assoc]
    rfl

theorem spare_search {p : VMAccelId} {a : VMAccelDesc} {t : VMAccelAllocator VMAccelDesc M}
    (hdim : dim.Compared) (hfit : spare s p dim < 2 ^ 32)
    (ht : (t.freeSet, t.freed) = (s.findFree (.of p a)).2) (q : VMAccelId) :
    spare s q dim = spare t q dim + total (s.findFree (.of p a)).1.toList q dim +
      total (s.drops (.of p a)) q dim := by
  have hsplit := addsUp_findFree (a := a) hdim hfit q
  rw [AddsUp, ← ht] at hsplit
  exact hsplit

end Spare

/-- Each compared component of a registered descriptor is the sum of that component over its free,
its queued and its live parts. -/
def Conserved (s : VMAccelAllocator VMAccelDesc M) : Prop :=
  ∀ p a, s.registeredIds.Active p → s.registered[p.toNat]? = some a →
    ∀ dim : Dim, dim.Compared → (a.capacity.comp dim).toNat =
      total (M.bag s.freeSet) p dim + total s.freed p dim + total s.live p dim

/-- Nothing that `Alloc` drops holds any of a compared component. -/
def LosesNothing (s : VMAccelAllocator VMAccelDesc M) : Call VMAccelDesc → Prop
  | .alloc p a => s.externalIds.free ≠ 0 → ∀ o ∈ s.drops (.of p a), ∀ dim : Dim, dim.Compared →
      o.obj.capacity.comp dim = 0
  | _ => True

instance (s : VMAccelAllocator VMAccelDesc M) :
    (c : Call VMAccelDesc) → Decidable (LosesNothing s c)
  | .alloc p a => inferInstanceAs (Decidable (_ → ∀ o ∈ s.drops (.of p a), ∀ dim : Dim,
      dim.Compared → o.obj.capacity.comp dim = 0))
  | .register _ | .unregister _ | .free _ => .isTrue trivial

section Conserved

variable {s : VMAccelAllocator VMAccelDesc M} {dim : Dim}

theorem totals_of_not_active (hco : s.Coherent) {p : VMAccelId} (hp : ¬ s.registeredIds.Active p)
    (dim : Dim) : total (M.bag s.freeSet) p dim = 0 ∧ total s.freed p dim = 0 ∧
      total s.live p dim = 0 := by
  refine ⟨total_eq_zero (fun o ho => ?_) dim, total_eq_zero (fun o ho => ?_) dim,
    total_eq_zero (fun o ho => ?_) dim⟩ <;> rintro rfl
  · exact hp (hco.base.pool_parent o ho)
  · exact hp (hco.freed_parent o ho)
  · exact hp (hco.base.live_parent o ho)

theorem Conserved.fits (hco : s.Coherent) (h : Conserved s) (hdim : dim.Compared) (p : VMAccelId) :
    spare s p dim + total s.live p dim < 2 ^ 32 := by
  by_cases hp : s.registeredIds.Active p
  · have hlt : p.toNat < s.registeredIds.size.toNat := hp.1
    have hget := List.getElem?_eq_getElem (hlt.trans_le hco.base.length_registered)
    exact (h p _ hp hget dim hdim).symm.trans_lt (BitVec.isLt _)
  · obtain ⟨hpool, hfreed, hlive⟩ := totals_of_not_active hco hp dim
    rw [spare]
    omega

theorem Conserved.spare_lt (hco : s.Coherent) (h : Conserved s) (hdim : dim.Compared)
    (p : VMAccelId) : spare s p dim < 2 ^ 32 := by
  have := h.fits hco hdim p
  omega

theorem Conserved.fits_live (hco : s.Coherent) (h : Conserved s) (hdim : dim.Compared)
    {o : VMAccelObject VMAccelDesc} (ho : o ∈ s.live) (p : VMAccelId) :
    spare s p dim + total {o} p dim < 2 ^ 32 := by
  have hfit := h.fits hco hdim p
  obtain ⟨rest, hrest⟩ := Multiset.exists_cons_of_mem ho
  rw [hrest, total_cons] at hfit
  omega

theorem conserved_new (num : ℕ) : Conserved (new M num) :=
  fun _ _ hp => absurd ((bit_alloc _ _).symm.trans hp.2) Bool.false_ne_true

theorem not_active_of_bit {k : ℕ} (hlt : k < s.registeredIds.size.toNat)
    (hbit : s.registeredIds.bit k = false) : ¬ s.registeredIds.Active (BitVec.ofNat 32 k) := by
  intro hact
  have := hact.2
  rw [toNat_ofNat_of_lt_size hlt, hbit] at this
  cases this

theorem Conserved.enroll (hco : s.Coherent) (h : Conserved s) {k : ℕ}
    (hk : k / 32 < s.registeredIds.bits.length) (hlt : k < s.registeredIds.size.toNat)
    (hbit : s.registeredIds.bit k = false) (a : VMAccelDesc) : Conserved (s.enroll k a) := by
  have hnat := toNat_ofNat_of_lt_size hlt
  have hlen : k < s.registered.length := hlt.trans_le hco.base.length_registered
  intro p b hp hb dim hdim
  obtain ⟨hpool, hfreed, hlive⟩ :=
    totals_of_not_active hco (not_active_of_bit hlt hbit) dim
  change (s.registered.set k a)[p.toNat]? = some b at hb
  change _ = spare (s.enroll k a) p dim + total s.live p dim
  rw [spare_enroll hpool, total_of]
  by_cases hpk : p.toNat = k
  · obtain rfl : p = BitVec.ofNat 32 k := BitVec.eq_of_toNat_eq (hpk.trans hnat.symm)
    rw [hpk, List.getElem?_set_self hlen] at hb
    cases hb
    rw [if_pos rfl, spare, hpool, hfreed, hlive]
    rfl
  · rw [List.getElem?_set_ne (Ne.symm hpk)] at hb
    rw [if_neg fun heq => hpk (by rw [← heq, hnat]), zero_add]
    exact h p b (((active_take hk hlt p).mp hp).resolve_right hpk) hb dim hdim

theorem Conserved.withdraw (hco : s.Coherent) (h : Conserved s) {id : VMAccelId}
    {ids : IdentifierDB} (hids : s.registeredIds.releaseId id = .ok ids)
    (hlive : ∀ o ∈ s.live, o.parentId ≠ id) : Conserved (s.coalesceFreed.withdraw id ids) := by
  obtain ⟨-, hiff⟩ := hco.coalesceFreed.withdraw rfl hids hlive
  intro p b hp hb dim hdim
  obtain ⟨hact, hne⟩ := (hiff p).mp hp
  change _ = spare (s.coalesceFreed.withdraw id ids) p dim + total s.live p dim
  rw [spare_withdraw (h.spare_lt hco hdim), if_neg hne]
  exact h p b hact hb dim hdim

theorem Conserved.reclaim (hco : s.Coherent) (h : Conserved s) (deferFree : Bool) {id : VMAccelId}
    (hact : s.externalIds.Active id) :
    Conserved ((s.reclaim id.toNat (s.objectAt id.toNat)).restock
      (s.stockFreed deferFree (s.objectAt id.toNat)).1
      (s.stockFreed deferFree (s.objectAt id.toNat)).2) := by
  have hlive := live_reclaim hact.1 hact.2 (s.objectAt id.toNat)
  have hmem : s.objectAt id.toNat ∈ s.live := by
    rw [hlive]
    exact Multiset.mem_cons_self _ _
  intro p b hp hb dim hdim
  have hsum : _ = spare s p dim + total s.live p dim := h p b hp hb dim hdim
  rw [hlive, total_cons, ← add_assoc,
    ← spare_reclaim deferFree (h.fits_live hco hdim hmem) p] at hsum
  exact hsum

theorem Conserved.search (hco : s.Coherent) (h : Conserved s) (p : VMAccelId) (a : VMAccelDesc)
    {t : VMAccelAllocator VMAccelDesc M} (hids : t.registeredIds = s.registeredIds)
    (hreg : t.registered = s.registered)
    (hstock : (t.freeSet, t.freed) = (s.findFree (.of p a)).2)
    (hlive : t.live = (s.findFree (.of p a)).1.toList + s.live) :
    Conserved t ↔
      ∀ o ∈ s.drops (.of p a), ∀ dim : Dim, dim.Compared → o.obj.capacity.comp dim = 0 := by
  have hstep : ∀ q b (dim : Dim), s.registeredIds.Active q → s.registered[q.toNat]? = some b →
      dim.Compared → ((b.capacity.comp dim).toNat = spare t q dim + total t.live q dim ↔
        total (s.drops (.of p a)) q dim = 0) := by
    intro q b dim hq hb hdim
    have hsplit := spare_search hdim (h.spare_lt hco hdim p) hstock q
    have hsum : _ = spare s q dim + total s.live q dim := h q b hq hb dim hdim
    rw [hlive, total_add]
    omega
  constructor
  · intro ht o ho dim hdim
    have hact := drops_parents (s := s) hco.base.pool_parent hco.freed_parent o ho
    have hlt : o.parentId.toNat < s.registeredIds.size.toNat := hact.1
    have hget := List.getElem?_eq_getElem (hlt.trans_le hco.base.length_registered)
    have hzero := (hstep _ _ dim hact hget hdim).mp
      (ht _ _ (hids.symm ▸ hact) (hreg.symm ▸ hget) dim hdim)
    have hle := comp_le_total (Multiset.mem_coe.mpr ho) dim
    rw [hzero] at hle
    exact BitVec.eq_of_toNat_eq (Nat.le_zero.mp hle)
  · intro hdrop q b hq hb dim hdim
    refine (hstep q b dim (hids ▸ hq) (hreg ▸ hb) hdim).mpr ?_
    refine Multiset.sum_eq_zero fun x hx => ?_
    obtain ⟨o, ho, rfl⟩ := Multiset.mem_map.mp hx
    rw [hdrop o (Multiset.mem_coe.mp (Multiset.mem_filter.mp ho).1) dim hdim]
    rfl

theorem Conserved.missed_iff (hco : s.Coherent) (h : Conserved s) {p : VMAccelId} {a : VMAccelDesc}
    {pool : M.Carrier} {queue : List (VMAccelObject VMAccelDesc)}
    (hfind : s.findFree (.of p a) = (none, pool, queue)) :
    Conserved ((s.refuse .resourceUnavailable).restock pool queue) ↔
      ∀ o ∈ s.drops (.of p a), ∀ dim : Dim, dim.Compared → o.obj.capacity.comp dim = 0 := by
  refine h.search hco p a rfl rfl ?_ ?_
  · rw [hfind]
    rfl
  · rw [hfind]
    exact (zero_add _).symm

theorem Conserved.granted_iff (hco : s.Coherent) (h : Conserved s) {p : VMAccelId}
    {a : VMAccelDesc} {k : ℕ} {d : VMAccelObject VMAccelDesc} {pool : M.Carrier}
    {queue : List (VMAccelObject VMAccelDesc)} (hk : k / 32 < s.externalIds.bits.length)
    (hlt : k < s.externalIds.size.toNat) (hbit : s.externalIds.bit k = false)
    (hfind : s.findFree (.of p a) = (some d, pool, queue)) :
    Conserved ((s.grant k d pool).restock pool queue) ↔
      ∀ o ∈ s.drops (.of p a), ∀ dim : Dim, dim.Compared → o.obj.capacity.comp dim = 0 := by
  refine h.search hco p a rfl rfl ?_ ?_
  · rw [hfind]
    rfl
  · rw [hfind]
    exact live_grant hk hlt hco.base.length_allocated hbit d pool

theorem Conserved.alloc_iff (hco : s.Coherent) (h : Conserved s) (deferFree : Bool) (p : VMAccelId)
    (a : VMAccelDesc) :
    (∀ s', s.apply deferFree (.alloc p a) = .ok s' → Conserved s') ↔
      LosesNothing s (.alloc p a) := by
  constructor
  · intro hall hfree o ho
    -- Something is dropped only where something is registered, so `Alloc` returns.
    have hact := drops_parents (s := s) hco.base.pool_parent hco.freed_parent o ho
    obtain ⟨r, hr⟩ := hco.returns_alloc (addressable_of_index (bit_lt_length hact.2)) p a
    have hcons : Conserved r.2 := hall r.2 (bind_snd_eq_ok.mpr ⟨r, hr, rfl⟩)
    rcases hco.alloc_ok hr with ⟨hzero, -⟩ | ⟨-, ⟨pool, queue, hfind, rfl⟩ |
      ⟨k, d, pool, queue, hk, hff, hfind, rfl⟩⟩
    · exact absurd hzero hfree
    · exact (h.missed_iff hco hfind).mp hcons o ho
    · have hlt := hff.lt_size hco.base.externalIds hfree
      exact (h.granted_iff hco hk hlt hff.1 hfind).mp hcons o ho
  · intro hlose s' hs
    cases apply_effect hco hs with
    | unchanged => exact h
    | refused => exact h
    | missed hfree hfind => exact (h.missed_iff hco hfind).mpr (hlose hfree)
    | granted hfree hk hff hfind =>
      exact (h.granted_iff hco hk (hff.lt_size hco.base.externalIds hfree) hff.1 hfind).mpr
        (hlose hfree)

theorem Conserved.apply_iff (hco : s.Coherent) (h : Conserved s) (deferFree : Bool)
    (c : Call VMAccelDesc) :
    (∀ s', s.apply deferFree c = .ok s' → Conserved s') ↔ LosesNothing s c := by
  cases c with
  | alloc p a => exact h.alloc_iff hco deferFree p a
  | register a =>
    refine iff_of_true (fun s' hs => ?_) trivial
    cases apply_effect hco hs with
    | unchanged => exact h
    | enrolled a hfree hk hff =>
      exact h.enroll hco hk (hff.lt_size hco.base.registeredIds hfree) hff.1 a
  | unregister id =>
    refine iff_of_true (fun s' hs => ?_) trivial
    cases apply_effect hco hs with
    | unchanged => exact h
    | withdrawn hids hlive => exact h.withdraw hco hids hlive
  | free id =>
    refine iff_of_true (fun s' hs => ?_) trivial
    cases apply_effect hco hs with
    | unchanged => exact h
    | freed hact => exact h.reclaim hco deferFree hact

end Conserved

end VMAccel
