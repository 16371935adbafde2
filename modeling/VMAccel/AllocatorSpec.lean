import VMAccel.Allocator
import VMAccel.IdentifierDBBalance

/-!
# What the calls of the allocator do

The immediate-free build. Each call is shown to be a refusal, which leaves everything but the
static result alone, or one of four pure updates: `enroll`, `withdraw`, `grant` and `reclaim`.
`live` lists the objects behind the active external identifiers.
-/

namespace VMAccel.VMAccelAllocator

open StepSystem IdentifierDB

variable {T : Type} [Resource T] {M : OrderedMultiset (VMAccelObject T) Resource.cmp}

def objectAt (s : VMAccelAllocator T M) (i : ℕ) : VMAccelObject T :=
  s.allocated[i]?.getD (.of invalidId Resource.default)

def entries (s : VMAccelAllocator T M) : Multiset (VMAccelId × VMAccelObject T) :=
  s.externalIds.activeIds.val.map fun i => (BitVec.ofNat 32 i, s.objectAt i)

def live (s : VMAccelAllocator T M) : Multiset (VMAccelObject T) := s.entries.map Prod.snd

def childCount (l : Multiset (VMAccelObject T)) (p : VMAccelId) : ℕ :=
  l.countP fun o => o.parentId = p

omit [Resource T] in
theorem childCount_cons_self (o : VMAccelObject T) (l : Multiset (VMAccelObject T)) :
    childCount (o ::ₘ l) o.parentId = childCount l o.parentId + 1 :=
  Multiset.countP_cons_of_pos (p := fun x : VMAccelObject T => x.parentId = o.parentId) l rfl

omit [Resource T] in
theorem childCount_cons_of_ne {o : VMAccelObject T} {p : VMAccelId} (h : o.parentId ≠ p)
    (l : Multiset (VMAccelObject T)) : childCount (o ::ₘ l) p = childCount l p :=
  Multiset.countP_cons_of_neg (p := fun x : VMAccelObject T => x.parentId = p) l h

omit [Resource T] in
theorem childCount_eq_zero {l : Multiset (VMAccelObject T)} {p : VMAccelId} :
    childCount l p = 0 ↔ ∀ o ∈ l, o.parentId ≠ p := Multiset.countP_eq_zero

/-- The effect of a successful `Register` that gets the identifier `k`. -/
def enroll (s : VMAccelAllocator T M) (k : ℕ) (a : T) : VMAccelAllocator T M :=
  { s with
    capacity := s.capacity.modify k fun c => Resource.addAssign c a
    registered := s.registered.set k a
    refCount := s.refCount.set k 0
    freeSet := (Resource.freeObj M s.freeSet (.of (BitVec.ofNat 32 k) a)).2
    registeredIds := s.registeredIds.take k }

/-- The effect of a successful `Unregister`. -/
def withdraw (s : VMAccelAllocator T M) (id : VMAccelId) (ids : IdentifierDB) :
    VMAccelAllocator T M :=
  { s with
    registeredIds := ids
    freeSet := M.eraseIf (fun e => decide (e.parentId = id)) s.freeSet }

/-- The effect of a successful `Alloc` that gets the external identifier `k`. -/
def grant (s : VMAccelAllocator T M) (k : ℕ) (d : VMAccelObject T) (pool : M.Carrier) :
    VMAccelAllocator T M :=
  { s with
    allocated := s.allocated.set k d
    capacity := s.capacity.modify d.parentId.toNat fun c => Resource.subAssign c d.obj
    load := s.load.modify d.parentId.toNat fun c => Resource.addAssign c d.obj
    refCount := s.refCount.modify d.parentId.toNat (· + 1)
    freeSet := pool
    externalIds := s.externalIds.take k
    allocResult := ⟨BitVec.ofNat 32 k, .success⟩ }

def reclaim (s : VMAccelAllocator T M) (k : ℕ) (o : VMAccelObject T) : VMAccelAllocator T M :=
  { s with
    capacity := s.capacity.modify o.parentId.toNat fun c => Resource.addAssign c o.obj
    load := s.load.modify o.parentId.toNat fun c => Resource.subAssign c o.obj
    refCount := s.refCount.modify o.parentId.toNat (· - 1)
    allocated := s.allocated.set k (.of invalidId Resource.default)
    freeSet := (Resource.freeObj M s.freeSet o).2
    externalIds := s.externalIds.give k }

/-- The effect of a refused `Alloc`. -/
def refuse (s : VMAccelAllocator T M) (status : StatusCode) : VMAccelAllocator T M :=
  { s with allocResult := { s.allocResult with status := status } }

structure WellFormed (s : VMAccelAllocator T M) : Prop where
  registeredIds : s.registeredIds.Balanced
  externalIds : s.externalIds.Balanced
  freed : s.freed = []
  length_registered : s.registeredIds.size.toNat ≤ s.registered.length
  length_capacity : s.registeredIds.size.toNat ≤ s.capacity.length
  length_load : s.registeredIds.size.toNat ≤ s.load.length
  length_refCount : s.registeredIds.size.toNat ≤ s.refCount.length
  length_allocated : s.externalIds.size.toNat ≤ s.allocated.length
  refCount : ∀ p, s.registeredIds.Active p → s.refCount[p.toNat]? =
    some (BitVec.ofNat 32 (childCount s.live p))
  live_parent : ∀ o ∈ s.live, s.registeredIds.Active o.parentId
  pool_parent : ∀ o ∈ M.bag s.freeSet, s.registeredIds.Active o.parentId

theorem entries_new (num : ℕ) : (new M num).entries = 0 := by
  rw [entries, show (new M num).externalIds = .alloc _ from rfl, activeIds_alloc]
  rfl

theorem wellFormed_new (num : ℕ) : (new M num).WellFormed where
  registeredIds := balanced_alloc _
  externalIds := balanced_alloc _
  freed := rfl
  length_registered := by simpa [new, IdentifierDB.alloc] using Nat.mod_le _ _
  length_capacity := by simpa [new, IdentifierDB.alloc] using Nat.mod_le _ _
  length_load := by simpa [new, IdentifierDB.alloc] using Nat.mod_le _ _
  length_refCount := by simpa [new, IdentifierDB.alloc] using Nat.mod_le _ _
  length_allocated := by simpa [new, IdentifierDB.alloc] using Nat.mod_le _ _
  refCount p hp := absurd ((bit_alloc _ _).symm.trans hp.2) Bool.false_ne_true
  live_parent o ho := by simp [live, entries_new] at ho
  pool_parent o ho := by simp [new] at ho

theorem objectAt_grant {s : VMAccelAllocator T M} {k : ℕ} (hk : k < s.allocated.length)
    (d : VMAccelObject T) (pool : M.Carrier) : (s.grant k d pool).objectAt k = d := by
  change ((s.allocated.set k d)[k]?).getD _ = d
  rw [List.getElem?_set_self hk, Option.getD_some]

theorem entries_grant {s : VMAccelAllocator T M} {k : ℕ}
    (hk : k / 32 < s.externalIds.bits.length) (hlt : k < s.externalIds.size.toNat)
    (hlen : s.externalIds.size.toNat ≤ s.allocated.length) (hbit : s.externalIds.bit k = false)
    (d : VMAccelObject T) (pool : M.Carrier) :
    (s.grant k d pool).entries = (BitVec.ofNat 32 k, d) ::ₘ s.entries := by
  have hnot : k ∉ s.externalIds.activeIds := fun h => by simp [(mem_activeIds.mp h).2] at hbit
  have hobj := objectAt_grant (hlt.trans_le hlen) d pool
  have hrest : ∀ i ∈ s.externalIds.activeIds.val,
      (BitVec.ofNat 32 i, (s.grant k d pool).objectAt i) = (BitVec.ofNat 32 i, s.objectAt i) := by
    intro i hi
    have hne : k ≠ i := fun h => hnot (h ▸ hi)
    change (_, ((s.allocated.set k d)[i]?).getD _) = _
    rw [List.getElem?_set_ne hne]
    rfl
  rw [entries, show (s.grant k d pool).externalIds = s.externalIds.take k from rfl,
    activeIds_take hk hlt, Finset.insert_val_of_notMem hnot, Multiset.map_cons, hobj,
    Multiset.map_congr rfl hrest]
  rfl

theorem entries_reclaim {s : VMAccelAllocator T M} {k : ℕ}
    (hlt : k < s.externalIds.size.toNat) (hbit : s.externalIds.bit k = true)
    (o : VMAccelObject T) :
    s.entries = (BitVec.ofNat 32 k, s.objectAt k) ::ₘ (s.reclaim k o).entries := by
  have hmem : k ∈ s.externalIds.activeIds := mem_activeIds.mpr ⟨hlt, hbit⟩
  have hrest : ∀ i ∈ (s.externalIds.activeIds.erase k).val,
      (BitVec.ofNat 32 i, s.objectAt i) = (BitVec.ofNat 32 i, (s.reclaim k o).objectAt i) := by
    intro i hi
    have hne : k ≠ i := (Finset.ne_of_mem_erase (Finset.mem_val.mp hi)).symm
    change _ = (_, ((s.allocated.set k _)[i]?).getD _)
    rw [List.getElem?_set_ne hne]
    rfl
  have hsplit : s.externalIds.activeIds.val = k ::ₘ (s.externalIds.activeIds.erase k).val := by
    rw [← Finset.insert_val_of_notMem (Finset.notMem_erase k _), Finset.insert_erase hmem]
  rw [entries, hsplit, Multiset.map_cons, Multiset.map_congr rfl hrest]
  rw [entries, show (s.reclaim k o).externalIds = s.externalIds.give k from rfl,
    activeIds_give (bit_lt_length hbit)]

theorem live_grant {s : VMAccelAllocator T M} {k : ℕ} (hk : k / 32 < s.externalIds.bits.length)
    (hlt : k < s.externalIds.size.toNat) (hlen : s.externalIds.size.toNat ≤ s.allocated.length)
    (hbit : s.externalIds.bit k = false) (d : VMAccelObject T) (pool : M.Carrier) :
    (s.grant k d pool).live = d ::ₘ s.live := by
  rw [live, entries_grant hk hlt hlen hbit, Multiset.map_cons]
  rfl

theorem live_reclaim {s : VMAccelAllocator T M} {k : ℕ} (hlt : k < s.externalIds.size.toNat)
    (hbit : s.externalIds.bit k = true) (o : VMAccelObject T) :
    s.live = s.objectAt k ::ₘ (s.reclaim k o).live := by
  rw [live, entries_reclaim hlt hbit o, Multiset.map_cons]
  rfl

def Counted (s : VMAccelAllocator T M) (p : VMAccelId) : Prop :=
  s.refCount[p.toNat]? = some (BitVec.ofNat 32 (childCount s.live p))

theorem Counted.enroll {s : VMAccelAllocator T M} {k : ℕ} {p : VMAccelId}
    (hk : k < s.refCount.length) (hidle : ∀ o ∈ s.live, o.parentId.toNat ≠ k) {a : T}
    (h : p.toNat ≠ k → s.Counted p) : (s.enroll k a).Counted p := by
  change (s.refCount.set k 0)[p.toNat]? = some (BitVec.ofNat 32 (childCount s.live p))
  by_cases hpk : p.toNat = k
  · have hzero : childCount s.live p = 0 :=
      childCount_eq_zero.mpr fun o ho hop => hidle o ho (hop ▸ hpk)
    rw [hzero, hpk, List.getElem?_set_self hk]
    rfl
  · rw [List.getElem?_set_ne (Ne.symm hpk), h hpk]

theorem Counted.grant {s : VMAccelAllocator T M} {k : ℕ} {p : VMAccelId}
    (hk : k / 32 < s.externalIds.bits.length) (hlt : k < s.externalIds.size.toNat)
    (hlen : s.externalIds.size.toNat ≤ s.allocated.length) (hbit : s.externalIds.bit k = false)
    {d : VMAccelObject T} {pool : M.Carrier} (h : s.Counted p) : (s.grant k d pool).Counted p := by
  rw [Counted, live_grant hk hlt hlen hbit]
  change (s.refCount.modify d.parentId.toNat (· + 1))[p.toNat]? = _
  obtain rfl | hpd := eq_or_ne d.parentId p
  · rw [childCount_cons_self, List.getElem?_modify_eq, h, BitVec.ofNat_add]
    rfl
  · have hne : d.parentId.toNat ≠ p.toNat := fun he => hpd (BitVec.eq_of_toNat_eq he)
    rw [childCount_cons_of_ne hpd, List.getElem?_modify_ne _ _ hne, h]

theorem Counted.reclaim {s : VMAccelAllocator T M} {k : ℕ} {p : VMAccelId}
    (hlt : k < s.externalIds.size.toNat) (hbit : s.externalIds.bit k = true) (h : s.Counted p) :
    (s.reclaim k (s.objectAt k)).Counted p := by
  rw [Counted, live_reclaim hlt hbit (s.objectAt k)] at h
  change (s.refCount.modify (s.objectAt k).parentId.toNat (· - 1))[p.toNat]? = _
  obtain rfl | hpd := eq_or_ne (s.objectAt k).parentId p
  · rw [childCount_cons_self] at h
    rw [List.getElem?_modify_eq, h, BitVec.ofNat_add]
    exact congrArg some (BitVec.add_sub_cancel _ _)
  · have hne : (s.objectAt k).parentId.toNat ≠ p.toNat := fun he => hpd (BitVec.eq_of_toNat_eq he)
    rw [childCount_cons_of_ne hpd] at h
    rw [List.getElem?_modify_ne _ _ hne, h]

theorem WellFormed.refuse {s : VMAccelAllocator T M} (h : s.WellFormed) (status : StatusCode) :
    (s.refuse status).WellFormed := ⟨h.registeredIds, h.externalIds, h.freed, h.length_registered,
  h.length_capacity, h.length_load, h.length_refCount, h.length_allocated, h.refCount,
  h.live_parent, h.pool_parent⟩

theorem WellFormed.idle {s : VMAccelAllocator T M} (h : s.WellFormed) {k : ℕ}
    (hbit : s.registeredIds.bit k = false) : ∀ o ∈ s.live, o.parentId.toNat ≠ k := by
  intro o ho hok
  have hact := (h.live_parent o ho).2
  rw [hok, hbit] at hact
  cases hact

theorem WellFormed.enroll {s : VMAccelAllocator T M} (h : s.WellFormed) {k : ℕ}
    (hk : k / 32 < s.registeredIds.bits.length) (hbit : s.registeredIds.bit k = false)
    (hlt : k < s.registeredIds.size.toNat) (hfree : s.registeredIds.free ≠ 0) (a : T) :
    (s.enroll k a).WellFormed where
  registeredIds := h.registeredIds.take hk hbit hlt hfree
  externalIds := h.externalIds
  freed := h.freed
  length_registered := by simpa [VMAccelAllocator.enroll] using h.length_registered
  length_capacity := by simpa [VMAccelAllocator.enroll] using h.length_capacity
  length_load := h.length_load
  length_refCount := by simpa [VMAccelAllocator.enroll] using h.length_refCount
  length_allocated := h.length_allocated
  refCount p hp := by
    refine Counted.enroll (hlt.trans_le h.length_refCount) (h.idle hbit) fun hpk => ?_
    exact h.refCount p (((active_take hk hlt p).mp hp).resolve_right hpk)
  live_parent o ho := (active_take hk hlt _).mpr (Or.inl (h.live_parent o ho))
  pool_parent o ho := by
    refine (active_take hk hlt _).mpr ?_
    rcases Resource.parentId_of_mem_freeObj M s.freeSet _ o ho with heq | ⟨y, hy, heq⟩
    · right
      rw [heq]
      exact Nat.mod_eq_of_lt (hlt.trans s.registeredIds.size.isLt)
    · exact Or.inl (heq ▸ h.pool_parent y hy)

theorem WellFormed.withdraw {s : VMAccelAllocator T M} (h : s.WellFormed) {id : VMAccelId}
    {ids : IdentifierDB} (hids : s.registeredIds.releaseId id = .ok ids)
    (hlive : ∀ o ∈ s.live, o.parentId ≠ id) :
    (s.withdraw id ids).WellFormed ∧
      ∀ p, ids.Active p ↔ s.registeredIds.Active p ∧ p ≠ id := by
  have hspec : ids.Balanced ∧ ids.size = s.registeredIds.size ∧
      ∀ p, ids.Active p ↔ s.registeredIds.Active p ∧ p ≠ id := by
    rcases releaseId_ok hids with ⟨hle, rfl⟩ | ⟨hact, rfl⟩
    · refine ⟨h.registeredIds, rfl, fun p => ⟨fun hp => ⟨hp, ?_⟩, And.left⟩⟩
      rintro rfl
      exact BitVec.not_lt.mpr hle hp.1
    · refine ⟨h.registeredIds.give hact.2, rfl, fun p => ?_⟩
      refine (active_give (bit_lt_length hact.2) p).trans (and_congr_right fun _ => not_congr ?_)
      exact BitVec.toNat_inj
  obtain ⟨hbal, hsize, hiff⟩ := hspec
  refine ⟨?_, hiff⟩
  exact {
    registeredIds := hbal
    externalIds := h.externalIds
    freed := h.freed
    length_registered := hsize ▸ h.length_registered
    length_capacity := hsize ▸ h.length_capacity
    length_load := hsize ▸ h.length_load
    length_refCount := hsize ▸ h.length_refCount
    length_allocated := h.length_allocated
    refCount := fun p hp => h.refCount p ((hiff p).mp hp).1
    live_parent := fun o ho => (hiff _).mpr ⟨h.live_parent o ho, hlive o ho⟩
    pool_parent := fun o ho => by
      change o ∈ M.bag (M.eraseIf _ s.freeSet) at ho
      rw [M.bag_eraseIf, Multiset.mem_filter] at ho
      exact (hiff _).mpr ⟨h.pool_parent o ho.1, of_decide_eq_false ho.2⟩ }

theorem WellFormed.grant {s : VMAccelAllocator T M} (h : s.WellFormed) {k : ℕ}
    (hk : k / 32 < s.externalIds.bits.length) (hbit : s.externalIds.bit k = false)
    (hlt : k < s.externalIds.size.toNat) (hfree : s.externalIds.free ≠ 0)
    {d : VMAccelObject T} {pool : M.Carrier} (hd : s.registeredIds.Active d.parentId)
    (hpool : ∀ o ∈ M.bag pool, s.registeredIds.Active o.parentId) :
    (s.grant k d pool).WellFormed where
  registeredIds := h.registeredIds
  externalIds := h.externalIds.take hk hbit hlt hfree
  freed := h.freed
  length_registered := h.length_registered
  length_capacity := by simpa [VMAccelAllocator.grant] using h.length_capacity
  length_load := by simpa [VMAccelAllocator.grant] using h.length_load
  length_refCount := by simpa [VMAccelAllocator.grant] using h.length_refCount
  length_allocated := by simpa [VMAccelAllocator.grant] using h.length_allocated
  refCount p hp := Counted.grant hk hlt h.length_allocated hbit (h.refCount p hp)
  live_parent o ho := by
    rw [live_grant hk hlt h.length_allocated hbit, Multiset.mem_cons] at ho
    rcases ho with rfl | ho
    · exact hd
    · exact h.live_parent o ho
  pool_parent := hpool

theorem WellFormed.reclaim {s : VMAccelAllocator T M} (h : s.WellFormed) {k : ℕ}
    (hlt : k < s.externalIds.size.toNat) (hbit : s.externalIds.bit k = true) :
    (s.reclaim k (s.objectAt k)).WellFormed where
  registeredIds := h.registeredIds
  externalIds := h.externalIds.give hbit
  freed := h.freed
  length_registered := h.length_registered
  length_capacity := by simpa [VMAccelAllocator.reclaim] using h.length_capacity
  length_load := by simpa [VMAccelAllocator.reclaim] using h.length_load
  length_refCount := by simpa [VMAccelAllocator.reclaim] using h.length_refCount
  length_allocated := by simpa [VMAccelAllocator.reclaim] using h.length_allocated
  refCount p hp := Counted.reclaim hlt hbit (h.refCount p hp)
  live_parent o ho := by
    refine h.live_parent o ?_
    rw [live_reclaim hlt hbit (s.objectAt k)]
    exact Multiset.mem_cons_of_mem ho
  pool_parent o ho := by
    rcases Resource.parentId_of_mem_freeObj M s.freeSet _ o ho with heq | ⟨y, hy, heq⟩
    · rw [heq]
      refine h.live_parent _ ?_
      rw [live_reclaim hlt hbit (s.objectAt k)]
      exact Multiset.mem_cons_self _ _
    · exact heq ▸ h.pool_parent y hy

end VMAccel.VMAccelAllocator
