import VMAccel.AllocatorLedger
import VMAccel.Desc
import Mathlib.Algebra.Order.BigOperators.Group.Multiset

/-!
# Capacity accounting of accelerator descriptors

`Reserve` subtracts all nine components of a request but admits it on three of them. When every
request that is admitted is also covered in the other six, free and live capacity of a parent
together never exceed what was registered for it, in any component, and no subtraction wraps.
-/

namespace VMAccel

open StepSystem VMAccelAllocator

def total (l : Multiset (VMAccelObject VMAccelDesc)) (p : VMAccelId) (dim : Dim) : ℕ :=
  ((l.filter fun o => o.parentId = p).map fun o => (o.obj.capacity.comp dim).toNat).sum

theorem total_cons_self (o : VMAccelObject VMAccelDesc)
    (l : Multiset (VMAccelObject VMAccelDesc)) (dim : Dim) :
    total (o ::ₘ l) o.parentId dim = (o.obj.capacity.comp dim).toNat + total l o.parentId dim := by
  simp [total]

theorem total_cons_of_ne {o : VMAccelObject VMAccelDesc} {p : VMAccelId} (h : o.parentId ≠ p)
    (l : Multiset (VMAccelObject VMAccelDesc)) (dim : Dim) :
    total (o ::ₘ l) p dim = total l p dim := by
  simp [total, h]

theorem total_eq_zero {l : Multiset (VMAccelObject VMAccelDesc)} {p : VMAccelId}
    (h : ∀ o ∈ l, o.parentId ≠ p) (dim : Dim) : total l p dim = 0 := by
  rw [total, Multiset.filter_eq_nil.mpr h]
  rfl

theorem comp_le_total {l : Multiset (VMAccelObject VMAccelDesc)} {o : VMAccelObject VMAccelDesc}
    (h : o ∈ l) (dim : Dim) : (o.obj.capacity.comp dim).toNat ≤ total l o.parentId dim := by
  obtain ⟨rest, rfl⟩ := Multiset.exists_cons_of_mem h
  rw [total_cons_self]
  omega

variable {M : OrderedMultiset (VMAccelObject VMAccelDesc) Resource.cmp}

theorem total_freeObj_of_ne {pool : M.Carrier} {o : VMAccelObject VMAccelDesc} {p : VMAccelId}
    (hp : o.parentId ≠ p) (dim : Dim) :
    total (M.bag (Resource.freeObj M pool o).2) p dim = total (M.bag pool) p dim := by
  change total (M.bag (VMAccelDesc.freeObj M pool o).2) p dim = _
  rcases VMAccelDesc.freeObj_cases pool o with ⟨-, heq⟩ | ⟨e, i, hi, hpar, heq⟩
  · rw [heq, M.bag_insert, total_cons_of_ne hp]
  · have hne : (VMAccelObject.of o.parentId (e.obj.addAssign o.obj)).parentId ≠ p := hp
    rw [heq, M.bag_insert, total_cons_of_ne hne, M.bag_eq_cons_erase hi,
      total_cons_of_ne (hpar ▸ hp)]

/-- `FreeObj` adds the object to the free capacity of its parent, as long as the sum fits. -/
theorem total_freeObj_self (pool : M.Carrier) (o : VMAccelObject VMAccelDesc) (dim : Dim)
    (hfit : total (M.bag pool) o.parentId dim + (o.obj.capacity.comp dim).toNat < 2 ^ 32) :
    total (M.bag (Resource.freeObj M pool o).2) o.parentId dim =
      total (M.bag pool) o.parentId dim + (o.obj.capacity.comp dim).toNat := by
  change total (M.bag (VMAccelDesc.freeObj M pool o).2) o.parentId dim = _
  rcases VMAccelDesc.freeObj_cases pool o with ⟨-, heq⟩ | ⟨e, i, hi, hpar, heq⟩
  · rw [heq, M.bag_insert, total_cons_self]
    omega
  · have hsplit : total (M.bag pool) o.parentId dim =
        (e.obj.capacity.comp dim).toNat + total (M.bag (M.erase pool i)) o.parentId dim := by
      rw [M.bag_eq_cons_erase hi, ← hpar, total_cons_self]
    have hsum : ((e.obj.addAssign o.obj).capacity.comp dim).toNat =
        (e.obj.capacity.comp dim).toNat + (o.obj.capacity.comp dim).toNat := by
      rw [VMAccelDesc.addAssign, VMAccelWorkloadDesc.comp_add, BitVec.toNat_add,
        Nat.mod_eq_of_lt (by omega)]
    have hins := total_cons_self (.of o.parentId (e.obj.addAssign o.obj))
      (M.bag (M.erase pool i)) dim
    rw [heq, M.bag_insert]
    simp only [VMAccelObject.of, hsum] at hins ⊢
    omega

/-- The request is covered, in all nine components, by every free descriptor of its parent that
admits it in the three compared ones. -/
def Covered (l : Ledger VMAccelDesc M) : Call VMAccelDesc → Prop
  | .alloc p a => ∀ e ∈ M.bag l.pool, e.parentId = p → e.obj.capacity.lt a.capacity = false →
      ∀ dim, a.capacity.comp dim ≤ e.obj.capacity.comp dim
  | _ => True

instance (l : Ledger VMAccelDesc M) : (c : Call VMAccelDesc) → Decidable (Covered l c)
  | .alloc p a => inferInstanceAs (Decidable (∀ e ∈ M.bag l.pool, e.parentId = p →
      e.obj.capacity.lt a.capacity = false →
        ∀ dim, a.capacity.comp dim ≤ e.obj.capacity.comp dim))
  | .register _ | .unregister _ | .free _ => .isTrue trivial

def Ledger.Solvent (l : Ledger VMAccelDesc M) : Prop :=
  ∀ p a, l.registered p = some a → ∀ dim,
    total (M.bag l.pool) p dim + total l.objects p dim ≤ (a.capacity.comp dim).toNat

theorem VMAccelDesc.reserve_eq_some {e a d r : VMAccelDesc}
    (h : VMAccelDesc.reserve e a = some (d, r)) :
    e.capacity.lt a.capacity = false ∧ d.capacity = a.capacity ∧
      r.capacity = e.capacity - a.capacity := by
  unfold VMAccelDesc.reserve at h
  by_cases hlt : e.capacity.lt a.capacity = true
  · rw [if_pos hlt] at h
    cases h
  · rw [if_neg hlt] at h
    dsimp only at h
    split_ifs at h
    cases h
    exact ⟨by simpa using hlt, rfl, rfl⟩

theorem total_filter_ne {p q : VMAccelId} (hpq : q ≠ p)
    (l : Multiset (VMAccelObject VMAccelDesc)) (dim : Dim) :
    total (l.filter fun o => decide (o.parentId = p) = false) q dim = total l q dim := by
  have hiff : ∀ o ∈ l, (o.parentId = q ∧ decide (o.parentId = p) = false) ↔ o.parentId = q := by
    intro o _
    refine and_iff_left_of_imp fun ho => ?_
    rw [ho, decide_eq_false hpq]
  rw [total, Multiset.filter_filter, Multiset.filter_congr hiff]
  rfl

theorem total_putBack_of_ne {pool : M.Carrier} {p q : VMAccelId} (hpq : p ≠ q) (r : VMAccelDesc)
    (dim : Dim) : total (M.bag (putBack pool p r)) q dim = total (M.bag pool) q dim := by
  unfold putBack
  split_ifs
  · rfl
  · exact total_freeObj_of_ne (o := .of p r) hpq dim

theorem total_putBack_self_le (pool : M.Carrier) (p : VMAccelId) (r : VMAccelDesc) (dim : Dim)
    (hfit : total (M.bag pool) p dim + (r.capacity.comp dim).toNat < 2 ^ 32) :
    total (M.bag (putBack pool p r)) p dim ≤
      total (M.bag pool) p dim + (r.capacity.comp dim).toNat := by
  unfold putBack
  split_ifs
  · omega
  · exact (total_freeObj_self pool (.of p r) dim hfit).le

theorem Ledger.Solvent.granted {l : Ledger VMAccelDesc M} (h : l.Solvent) {p id : VMAccelId}
    {a d r : VMAccelDesc} {i : ℕ} {e : VMAccelObject VMAccelDesc} (hc : Covered l (.alloc p a))
    (hlookup : lookup l.pool (.of p a) = some (i, e))
    (hreserve : Resource.reserve e.obj a = some (d, r)) :
    Ledger.Solvent ⟨l.registered, putBack (M.erase l.pool i) p r, (id, .of p d) ::ₘ l.live⟩ := by
  obtain ⟨hi, hcmp⟩ := lookup_eq_some hlookup
  have hep : e.parentId = p := Resource.parentId_eq_of_cmp hcmp
  obtain ⟨hlt, hd, hr⟩ := VMAccelDesc.reserve_eq_some hreserve
  have hcov := hc e (M.mem_bag_of_getElem hi) hep hlt
  intro q b hb dim
  have hsolv := h q b hb dim
  rw [M.bag_eq_cons_erase hi] at hsolv
  rw [Ledger.objects_of_live rfl]
  change total (M.bag (putBack _ p r)) q dim + total (_ ::ₘ l.objects) q dim ≤ _
  by_cases hpq : p = q
  · subst hpq
    have hle : (a.capacity.comp dim).toNat ≤ (e.obj.capacity.comp dim).toNat := hcov dim
    have hrem : (r.capacity.comp dim).toNat =
        (e.obj.capacity.comp dim).toNat - (a.capacity.comp dim).toNat := by
      rw [hr, VMAccelWorkloadDesc.comp_sub, BitVec.toNat_sub_of_le (hcov dim)]
    have hpool := total_cons_self e (M.bag (M.erase l.pool i)) dim
    have hlive := total_cons_self (.of p d) l.objects dim
    rw [hep] at hpool
    simp only [VMAccelObject.of, hd] at hlive
    have hbound := (b.capacity.comp dim).isLt
    have hback := total_putBack_self_le (M.erase l.pool i) p r dim (by omega)
    simp only [VMAccelObject.of]
    omega
  · have hlive := total_cons_of_ne (o := .of p d) hpq l.objects dim
    rw [total_putBack_of_ne hpq, hlive]
    rwa [total_cons_of_ne (hep.symm ▸ hpq)] at hsolv

theorem Ledger.Solvent.freed {l : Ledger VMAccelDesc M} (h : l.Solvent)
    {id : VMAccelId} {o : VMAccelObject VMAccelDesc}
    {live : Multiset (VMAccelId × VMAccelObject VMAccelDesc)} (hlive : l.live = (id, o) ::ₘ live) :
    Ledger.Solvent ⟨l.registered, (Resource.freeObj M l.pool o).2, live⟩ := by
  intro q b hb dim
  have hsolv := h q b hb dim
  rw [Ledger.objects_of_live hlive] at hsolv
  change total (M.bag (Resource.freeObj M l.pool o).2) q dim + total (live.map _) q dim ≤ _
  by_cases hoq : o.parentId = q
  · subst hoq
    rw [total_cons_self] at hsolv
    have hbound := (b.capacity.comp dim).isLt
    rw [total_freeObj_self l.pool o dim (by omega)]
    omega
  · rw [total_freeObj_of_ne hoq]
    rwa [total_cons_of_ne hoq] at hsolv

theorem Ledger.Solvent.step {l l' : Ledger VMAccelDesc M} {c : Call VMAccelDesc}
    (hcl : l.Closed) (h : l.Solvent) (hc : Covered l c) (hstep : l.Step c l') : l'.Solvent := by
  cases hstep with
  | refused => exact h
  | @registered p a hp =>
    intro q b hb dim
    change Function.update l.registered p (some a) q = some b at hb
    change total (M.bag (Resource.freeObj M l.pool _).2) q dim + total l.objects q dim ≤ _
    by_cases hpq : q = p
    · subst hpq
      rw [Function.update_self] at hb
      cases hb
      have hpool : total (M.bag l.pool) q dim = 0 :=
        total_eq_zero (fun o ho heq => hcl.pool o ho (heq ▸ hp)) dim
      have hlive : total l.objects q dim = 0 :=
        total_eq_zero (fun o ho heq => hcl.objects o ho (heq ▸ hp)) dim
      have hbound := (a.capacity.comp dim).isLt
      have hfree := total_freeObj_self l.pool (.of q a) dim
      simp only [VMAccelObject.of] at hfree ⊢
      rw [hfree (by omega)]
      omega
    · rw [Function.update_of_ne hpq] at hb
      rw [total_freeObj_of_ne (o := .of p a) (Ne.symm hpq)]
      exact h q b hb dim
  | @unregistered p hlive =>
    intro q b hb dim
    change Function.update l.registered p none q = some b at hb
    change total (M.bag (M.eraseIf _ l.pool)) q dim + total l.objects q dim ≤ _
    by_cases hpq : q = p
    · subst hpq
      rw [Function.update_self] at hb
      cases hb
    · rw [Function.update_of_ne hpq] at hb
      rw [M.bag_eraseIf, total_filter_ne hpq]
      exact h q b hb dim
  | granted id hlookup hreserve => exact h.granted hc hlookup hreserve
  | freed hlive => exact h.freed hlive

/-- No over-commit: for every registered parent, the live allocations add up to at most what was
registered, and no free descriptor of the parent is larger than that, in any component. -/
def NoOverCommit (s : VMAccelAllocator VMAccelDesc M) : Prop :=
  ∀ p a, s.registeredIds.Active p → s.registered[p.toNat]? = some a → ∀ dim,
    total s.live p dim ≤ (a.capacity.comp dim).toNat ∧
      ∀ e ∈ M.bag s.freeSet, e.parentId = p → e.obj.capacity.comp dim ≤ a.capacity.comp dim

theorem noOverCommit_of_solvent {s : VMAccelAllocator VMAccelDesc M} (h : s.ledger.Solvent) :
    NoOverCommit s := by
  intro p a hact ha dim
  have hsolv := h p a ((if_pos hact).trans ha) dim
  change total (M.bag s.freeSet) p dim + total s.live p dim ≤ _ at hsolv
  refine ⟨by omega, fun e he hep => ?_⟩
  have hle := comp_le_total he dim
  rw [hep] at hle
  rw [BitVec.le_def]
  omega

/-- Every state reached by calls whose requests are covered is free of over-commit. -/
theorem noOverCommit_of_covered (M : OrderedMultiset (VMAccelObject VMAccelDesc) Resource.cmp)
    (num : ℕ) (cs : List (Call VMAccelDesc)) (s : VMAccelAllocator VMAccelDesc M)
    (hcov : EachInput (apply false) (fun t c => Covered t.ledger c) (new M num) cs)
    (hrun : run (apply false) (new M num) cs = .ok s) : NoOverCommit s := by
  have hinit : (new M num).ledger.Solvent := by
    intro p a hp dim
    rw [ledger_registered_new] at hp
    cases hp
  exact noOverCommit_of_solvent
    (run_ledger hinit (fun _ _ _ hwf h hc => h.step hwf.closed hc) hcov hrun).2

/-- A descriptor of which only the compute and the cache capacity are set. -/
def cacheDesc (megaFlops llcSizeKB : BitVec 32) : VMAccelDesc :=
  { VMAccelDesc.zero with
    capacity := { VMAccelWorkloadDesc.zero with megaFlops := megaFlops, llcSizeKB := llcSizeKB } }

theorem noOverCommit_of_covered_once :
    ∃ s, run (apply false) (new (SearchTree.multiset Resource.cmp) 1)
        [.register (cacheDesc 4 4), .alloc 0 (cacheDesc 1 3)] = .ok s ∧
      total s.live 0 .llcSizeKB = 3 ∧ NoOverCommit s := by
  have hcov : EachInput (apply false) (fun t c => Covered t.ledger c)
      (new (SearchTree.multiset Resource.cmp) 1)
      [.register (cacheDesc 4 4), .alloc 0 (cacheDesc 1 3)] := by decide +kernel
  have hreach : ∃ s, run (apply false) (new (SearchTree.multiset Resource.cmp) 1)
      [.register (cacheDesc 4 4), .alloc 0 (cacheDesc 1 3)] = .ok s ∧
        total s.live 0 .llcSizeKB = 3 := by decide +kernel
  obtain ⟨s, hrun, htotal⟩ := hreach
  exact ⟨s, hrun, htotal, noOverCommit_of_covered _ 1 _ s hcov hrun⟩

/-- An accelerator without cache grants a request for cache, and its free cache wraps. -/
theorem overCommit_of_cache :
    ∃ s, run (apply false) (new (SearchTree.multiset Resource.cmp) 1)
        [.register (cacheDesc 3 0), .alloc 0 (cacheDesc 1 1)] = .ok s ∧
      s.allocResult.status = .success ∧ total s.live 0 .llcSizeKB = 1 ∧
      (∃ e ∈ (SearchTree.multiset Resource.cmp).toList s.freeSet,
        e.parentId = 0 ∧ e.obj.capacity.llcSizeKB = 0xffffffff) ∧ ¬ NoOverCommit s := by
  have hreach : ∃ s, run (apply false) (new (SearchTree.multiset Resource.cmp) 1)
      [.register (cacheDesc 3 0), .alloc 0 (cacheDesc 1 1)] = .ok s ∧
        s.registeredIds.Active 0 ∧ s.registered[0]? = some (cacheDesc 3 0) ∧
        s.allocResult.status = .success ∧ total s.live 0 .llcSizeKB = 1 ∧
        ∃ e ∈ (SearchTree.multiset Resource.cmp).toList s.freeSet,
          e.parentId = 0 ∧ e.obj.capacity.llcSizeKB = 0xffffffff := by decide +kernel
  obtain ⟨s, hrun, hact, hreg, hstatus, htotal, hfree⟩ := hreach
  refine ⟨s, hrun, hstatus, htotal, hfree, fun h => ?_⟩
  have hle := (h 0 (cacheDesc 3 0) hact hreg .llcSizeKB).1
  rw [htotal] at hle
  exact absurd hle (by decide)

end VMAccel
