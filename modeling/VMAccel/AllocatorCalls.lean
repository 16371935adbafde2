import VMAccel.AllocatorSpec

/-!
# The calls of the allocator as updates

Each call that returns is a refusal or one of the updates, and each of the updates happens exactly
under the condition named here. The lemmas that speak of `unqueued` are for both builds, with any
queue of freed objects; those for a well-formed state are for the immediate-free build.
-/

namespace VMAccel.VMAccelAllocator

open StepSystem IdentifierDB

variable {T : Type} [Resource T] {M : OrderedMultiset (VMAccelObject T) Resource.cmp}

def restock (s : VMAccelAllocator T M) (pool : M.Carrier) (queue : List (VMAccelObject T)) :
    VMAccelAllocator T M := { s with freeSet := pool, freed := queue }

def unqueued (s : VMAccelAllocator T M) : VMAccelAllocator T M := s.restock s.freeSet []

theorem restock_self {s : VMAccelAllocator T M} {queue : List (VMAccelObject T)}
    (h : s.freed = queue) : s.restock s.freeSet queue = s := by
  cases s
  cases h
  rfl

theorem WellFormed.unqueued {s : VMAccelAllocator T M} (h : s.WellFormed) :
    s.unqueued.WellFormed := by
  rwa [VMAccelAllocator.unqueued, restock_self h.freed]

theorem lookup_eq_some {pool : M.Carrier} {req e : VMAccelObject T} {i : ℕ}
    (h : lookup pool req = some (i, e)) :
    (M.toList pool)[i]? = some e ∧ Resource.cmp e req = false := by
  unfold lookup at h
  split at h
  · cases h
  · next j hj =>
    obtain ⟨e', he', heq⟩ := Option.map_eq_some_iff.mp h
    cases heq
    obtain ⟨x, hx, hcmp⟩ := M.lowerBound_sound hj
    obtain rfl : x = e := Option.some.inj (hx.symm.trans he')
    exact ⟨hx, hcmp⟩

theorem lookup_of_none {pool : M.Carrier} {req : VMAccelObject T}
    (h : M.lowerBound pool req = none) : lookup pool req = none := by
  unfold lookup
  rw [h]

theorem lookup_of_some {pool : M.Carrier} {req e : VMAccelObject T} {i : ℕ}
    (h : M.lowerBound pool req = some i) (he : (M.toList pool)[i]? = some e) :
    lookup pool req = some (i, e) := by
  unfold lookup
  rw [h]
  dsimp only
  rw [he]
  rfl

theorem tryReserve_eq_some {pool pool' : M.Carrier} {p : VMAccelId} {a : T}
    {d : VMAccelObject T} (h : tryReserve pool (.of p a) = some (d, pool')) :
    ∃ i e div r, lookup pool (.of p a) = some (i, e) ∧ Resource.reserve e.obj a = some (div, r) ∧
      d = .of p div ∧ pool' = putBack (M.erase pool i) p r := by
  obtain ⟨⟨i, e⟩, hl, hr⟩ := Option.bind_eq_some_iff.mp h
  unfold reserveAt at hr
  split at hr
  · cases hr
  · next div r hres =>
    cases hr
    exact ⟨i, e, div, r, hl, hres, rfl, rfl⟩

theorem putBack_of_isEmpty {r : T} (h : Resource.isEmpty r = true) (pool : M.Carrier)
    (p : VMAccelId) : putBack pool p r = pool := if_pos h

theorem putBack_of_not_isEmpty {r : T} (h : Resource.isEmpty r ≠ true) (pool : M.Carrier)
    (p : VMAccelId) : putBack pool p r = (Resource.freeObj M pool (.of p r)).2 := if_neg h

theorem parentId_of_mem_putBack {pool : M.Carrier} {p : VMAccelId} {r : T}
    {x : VMAccelObject T} (hx : x ∈ M.bag (putBack pool p r)) :
    x.parentId = p ∨ ∃ y ∈ M.bag pool, y.parentId = x.parentId := by
  unfold putBack at hx
  split_ifs at hx
  · exact Or.inr ⟨x, hx, rfl⟩
  · exact Resource.parentId_of_mem_freeObj M pool _ x hx

/-- A reservation from the free set is for the parent of an element of the set, and brings no new
parent into it. -/
theorem tryReserve_parents {P : VMAccelId → Prop} {pool pool' : M.Carrier} {p : VMAccelId} {a : T}
    {d : VMAccelObject T} (hpool : ∀ o ∈ M.bag pool, P o.parentId)
    (htr : tryReserve pool (.of p a) = some (d, pool')) :
    d.parentId = p ∧ P p ∧ ∀ o ∈ M.bag pool', P o.parentId := by
  obtain ⟨i, e, div, r, hl, -, rfl, rfl⟩ := tryReserve_eq_some htr
  obtain ⟨hi, hcmp⟩ := lookup_eq_some hl
  have hp : P p := by
    have := hpool e (M.mem_bag_of_getElem hi)
    rwa [Resource.parentId_eq_of_cmp hcmp] at this
  refine ⟨rfl, hp, fun o ho => ?_⟩
  rcases parentId_of_mem_putBack ho with heq | ⟨y, hy, heq⟩
  · exact heq ▸ hp
  · rw [← heq]
    refine hpool y ?_
    rw [M.bag_eq_cons_erase hi]
    exact Multiset.mem_cons_of_mem hy

theorem WellFormed.tryReserve_active {s : VMAccelAllocator T M} (h : s.WellFormed)
    {p : VMAccelId} {a : T} {d : VMAccelObject T} {pool : M.Carrier}
    (htr : tryReserve s.freeSet (.of p a) = some (d, pool)) :
    d.parentId = p ∧ s.registeredIds.Active p ∧
      ∀ o ∈ M.bag pool, s.registeredIds.Active o.parentId :=
  tryReserve_parents h.pool_parent htr

theorem findFree_of_freed_nil {s : VMAccelAllocator T M} (h : s.freed = [])
    (req : VMAccelObject T) : s.findFree req =
      match tryReserve s.freeSet req with
      | some (d, pool) => (some d, pool, [])
      | none => (none, s.freeSet, []) := by
  unfold findFree tryReserve
  cases hl : lookup s.freeSet req with
  | none => simp [h, findFreed]
  | some p => cases hres : reserveAt s.freeSet p.1 p.2 req <;> simp [h, hres]

theorem toNat_ofNat_of_lt_size {db : IdentifierDB} {k : ℕ} (hk : k < db.size.toNat) :
    (BitVec.ofNat 32 k).toNat = k := Nat.mod_eq_of_lt (hk.trans db.size.isLt)

theorem alloc_of_missing {s : VMAccelAllocator T M} {k : ℕ}
    (hid : s.externalIds.allocId = .ok (some (BitVec.ofNat 32 k), s.externalIds.take k))
    (hk : k / 32 < s.externalIds.bits.length) (hbit : s.externalIds.bit k = false)
    (hlt : k < s.externalIds.size.toNat) {p : VMAccelId} {a : T} {pool : M.Carrier}
    {queue : List (VMAccelObject T)} (hfind : s.findFree (.of p a) = (none, pool, queue)) :
    s.alloc p a = .ok ((⟨s.allocResult.id, .resourceUnavailable⟩, none),
      (s.refuse .resourceUnavailable).restock pool queue) := by
  have hact : (s.externalIds.take k).Active (BitVec.ofNat 32 k) :=
    (active_take hk hlt _).mpr (Or.inr (toNat_ofNat_of_lt_size hlt))
  have hrel : (s.externalIds.take k).releaseId (BitVec.ofNat 32 k) = .ok s.externalIds := by
    have := releaseId_of_active hact
    rw [toNat_ofNat_of_lt_size hlt] at this
    exact this.trans (congrArg Except.ok (give_take hk hbit))
  simp only [alloc, hid, ok_bind, hfind, hrel]
  rfl

theorem alloc_of_found {s : VMAccelAllocator T M} (h : s.unqueued.WellFormed) {k : ℕ}
    (hid : s.externalIds.allocId = .ok (some (BitVec.ofNat 32 k), s.externalIds.take k))
    (hlt : k < s.externalIds.size.toNat) {p : VMAccelId} {a : T} {d : VMAccelObject T}
    {pool : M.Carrier} {queue : List (VMAccelObject T)}
    (hfind : s.findFree (.of p a) = (some d, pool, queue))
    (hact : s.registeredIds.Active d.parentId) :
    s.alloc p a = .ok ((⟨BitVec.ofNat 32 k, .success⟩, some d.obj),
      (s.grant k d pool).restock pool queue) := by
  have hp : d.parentId.toNat < s.registeredIds.size.toNat := hact.1
  have hcap : _ ≤ s.capacity.length := h.length_capacity
  have hload : _ ≤ s.load.length := h.length_load
  have href : _ ≤ s.refCount.length := h.length_refCount
  have halloc : _ ≤ s.allocated.length := h.length_allocated
  simp only [alloc, hid, ok_bind, hfind]
  rw [toNat_ofNat_of_lt_size hlt, writeAt_ok.mpr ⟨hlt.trans_le halloc, rfl⟩, ok_bind,
    modifyAt_ok.mpr ⟨hp.trans_le hcap, rfl⟩, ok_bind, modifyAt_ok.mpr ⟨hp.trans_le hload, rfl⟩,
    ok_bind, modifyAt_ok.mpr ⟨hp.trans_le href, rfl⟩, ok_bind]
  rfl

theorem alloc_of_none {s : VMAccelAllocator T M} (h : s.WellFormed) {k : ℕ}
    (hid : s.externalIds.allocId = .ok (some (BitVec.ofNat 32 k), s.externalIds.take k))
    (hk : k / 32 < s.externalIds.bits.length) (hbit : s.externalIds.bit k = false)
    (hlt : k < s.externalIds.size.toNat) {p : VMAccelId} {a : T}
    (htr : tryReserve s.freeSet (.of p a) = none) :
    s.alloc p a = .ok ((⟨s.allocResult.id, .resourceUnavailable⟩, none),
      s.refuse .resourceUnavailable) := by
  have hfind : s.findFree (.of p a) = (none, s.freeSet, []) := by
    rw [findFree_of_freed_nil h.freed, htr]
  rw [alloc_of_missing hid hk hbit hlt hfind]
  exact congrArg (fun t => Except.ok (_, t)) (restock_self (s := s.refuse _) h.freed)

theorem alloc_of_some {s : VMAccelAllocator T M} (h : s.WellFormed) {k : ℕ}
    (hid : s.externalIds.allocId = .ok (some (BitVec.ofNat 32 k), s.externalIds.take k))
    (hlt : k < s.externalIds.size.toNat) {p : VMAccelId} {a : T} {d : VMAccelObject T}
    {pool : M.Carrier} (htr : tryReserve s.freeSet (.of p a) = some (d, pool)) :
    s.alloc p a = .ok ((⟨BitVec.ofNat 32 k, .success⟩, some d.obj), s.grant k d pool) := by
  obtain ⟨hdp, hact, -⟩ := h.tryReserve_active htr
  have hfind : s.findFree (.of p a) = (some d, pool, []) := by
    rw [findFree_of_freed_nil h.freed, htr]
  rw [alloc_of_found h.unqueued hid hlt hfind (hdp.symm ▸ hact)]
  exact congrArg (fun t => Except.ok (_, t)) (restock_self (s := s.grant k d pool) h.freed)

theorem alloc_ok {s : VMAccelAllocator T M} (h : s.WellFormed) {p : VMAccelId} {a : T}
    {r : (VMAccelAllocateStatus × Option T) × VMAccelAllocator T M} (hr : s.alloc p a = .ok r) :
    (s.externalIds.free = 0 ∧ r = ((⟨s.allocResult.id, .fail⟩, none), s.refuse .fail)) ∨
      (s.externalIds.free ≠ 0 ∧ tryReserve s.freeSet (.of p a) = none ∧
        r = ((⟨s.allocResult.id, .resourceUnavailable⟩, none), s.refuse .resourceUnavailable)) ∨
      ∃ k d pool, s.externalIds.free ≠ 0 ∧ k / 32 < s.externalIds.bits.length ∧
        s.externalIds.FirstFree k ∧ tryReserve s.freeSet (.of p a) = some (d, pool) ∧
        r = ((⟨BitVec.ofNat 32 k, .success⟩, some d.obj), s.grant k d pool) := by
  obtain ⟨ids, hids, hrest⟩ := bind_eq_ok.mp hr
  rcases allocId_ok hids with ⟨hfree, rfl⟩ | ⟨hfree, k, hk, hff, rfl⟩
  · exact Or.inl ⟨hfree, (Except.ok.inj hrest).symm⟩
  · right
    have hlt := hff.lt_size h.externalIds hfree
    cases htr : tryReserve s.freeSet (.of p a) with
    | none =>
      rw [alloc_of_none h hids hk hff.1 hlt htr] at hr
      exact Or.inl ⟨hfree, rfl, (Except.ok.inj hr).symm⟩
    | some q =>
      rw [alloc_of_some h hids hlt htr] at hr
      exact Or.inr ⟨k, q.1, q.2, hfree, hk, hff, rfl, (Except.ok.inj hr).symm⟩

theorem register_of_allocId {s : VMAccelAllocator T M} (h : s.unqueued.WellFormed) {k : ℕ}
    (hid : s.registeredIds.allocId = .ok (some (BitVec.ofNat 32 k), s.registeredIds.take k))
    (hlt : k < s.registeredIds.size.toNat) (a : T) :
    s.register a = .ok (⟨BitVec.ofNat 32 k, .success⟩, s.enroll k a) := by
  have hcap : _ ≤ s.capacity.length := h.length_capacity
  have hreg : _ ≤ s.registered.length := h.length_registered
  have href : _ ≤ s.refCount.length := h.length_refCount
  simp only [register, hid, ok_bind]
  rw [toNat_ofNat_of_lt_size hlt, modifyAt_ok.mpr ⟨hlt.trans_le hcap, rfl⟩, ok_bind,
    writeAt_ok.mpr ⟨hlt.trans_le hreg, rfl⟩, ok_bind, writeAt_ok.mpr ⟨hlt.trans_le href, rfl⟩,
    ok_bind, if_pos (Resource.freeObj_fst M s.freeSet _)]
  rfl

theorem register_ok {s : VMAccelAllocator T M} (h : s.unqueued.WellFormed) {a : T}
    {r : VMAccelAllocateStatus × VMAccelAllocator T M} (hr : s.register a = .ok r) :
    (s.registeredIds.free = 0 ∧ r = (⟨0, .fail⟩, s)) ∨
      ∃ k, s.registeredIds.free ≠ 0 ∧ k / 32 < s.registeredIds.bits.length ∧
        s.registeredIds.FirstFree k ∧ r = (⟨BitVec.ofNat 32 k, .success⟩, s.enroll k a) := by
  obtain ⟨ids, hids, hrest⟩ := bind_eq_ok.mp hr
  rcases allocId_ok hids with ⟨hfree, rfl⟩ | ⟨hfree, k, hk, hff, rfl⟩
  · exact Or.inl ⟨hfree, (Except.ok.inj hrest).symm⟩
  · rw [register_of_allocId h hids (hff.lt_size h.registeredIds hfree)] at hr
    exact Or.inr ⟨k, hfree, hk, hff, (Except.ok.inj hr).symm⟩

theorem childCount_live_lt (s : VMAccelAllocator T M) (p : VMAccelId) :
    childCount s.live p < 2 ^ 32 := by
  have hsub : s.externalIds.activeIds ⊆ Finset.range s.externalIds.size.toNat :=
    Finset.filter_subset _ _
  calc childCount s.live p ≤ s.live.card := Multiset.countP_le_card _ _
    _ = s.externalIds.activeIds.card := (Multiset.card_map _ _).trans (Multiset.card_map _ _)
    _ ≤ s.externalIds.size.toNat := by simpa using Finset.card_le_card hsub
    _ < 2 ^ 32 := s.externalIds.size.isLt

theorem coalesceFreed_of_nil {s : VMAccelAllocator T M} (h : s.freed = []) :
    s.coalesceFreed = s := by
  cases s
  cases h
  rfl

/-- `Unregister` succeeds only when no live object has the identifier as its parent. -/
theorem unregister_coalesces {s : VMAccelAllocator T M} (h : s.unqueued.WellFormed)
    {id : VMAccelId} {r : StatusCode × VMAccelAllocator T M} (hr : s.unregister id = .ok r) :
    (s.refCount[id.toNat]? ≠ some 0 ∧ r = (.fail, s)) ∨
      ∃ ids, s.registeredIds.releaseId id = .ok ids ∧ (∀ o ∈ s.live, o.parentId ≠ id) ∧
        r = (.success, s.coalesceFreed.withdraw id ids) := by
  obtain ⟨n, hn, hrest⟩ := bind_eq_ok.mp hr
  by_cases hne : n ≠ 0
  · rw [if_pos hne] at hrest
    refine Or.inl ⟨?_, (Except.ok.inj hrest).symm⟩
    rw [readAt_ok.mp hn]
    exact fun heq => hne (Option.some.inj heq)
  · rw [if_neg hne] at hrest
    obtain ⟨ids, hids, hrest⟩ := bind_eq_ok.mp hrest
    refine Or.inr ⟨ids, hids, ?_, (Except.ok.inj hrest).symm⟩
    by_cases hact : s.registeredIds.Active id
    · have hcount : some n = some (BitVec.ofNat 32 (childCount s.live id)) :=
        (readAt_ok.mp hn).symm.trans (h.refCount id hact)
      have hzero : BitVec.ofNat 32 (childCount s.live id) = 0 :=
        (Option.some.inj hcount).symm.trans (not_not.mp hne)
      have hmod : childCount s.live id % 2 ^ 32 = 0 := congrArg BitVec.toNat hzero
      rw [Nat.mod_eq_of_lt (s.childCount_live_lt id)] at hmod
      exact childCount_eq_zero.mp hmod
    · exact fun o ho heq => hact (heq ▸ h.live_parent o ho)

theorem unregister_ok {s : VMAccelAllocator T M} (h : s.WellFormed) {id : VMAccelId}
    {r : StatusCode × VMAccelAllocator T M} (hr : s.unregister id = .ok r) :
    r = (.fail, s) ∨ ∃ ids, s.registeredIds.releaseId id = .ok ids ∧
      (∀ o ∈ s.live, o.parentId ≠ id) ∧ r = (.success, s.withdraw id ids) := by
  rcases unregister_coalesces h.unqueued hr with ⟨-, hfail⟩ | hwithdrawn
  · exact Or.inl hfail
  · rw [coalesceFreed_of_nil h.freed] at hwithdrawn
    exact Or.inr hwithdrawn

def stockFreed (deferFree : Bool) (s : VMAccelAllocator T M) (o : VMAccelObject T) :
    M.Carrier × List (VMAccelObject T) :=
  if deferFree then (s.freeSet, s.freed ++ [o]) else (coalesceFrom s.freeSet (s.freed ++ [o]), [])

theorem free_stocks {s : VMAccelAllocator T M} (h : s.unqueued.WellFormed) (deferFree : Bool)
    {id : VMAccelId} (hact : s.externalIds.Active id) :
    s.free deferFree id = .ok (.success, (s.reclaim id.toNat (s.objectAt id.toNat)).restock
      (s.stockFreed deferFree (s.objectAt id.toNat)).1
      (s.stockFreed deferFree (s.objectAt id.toNat)).2) := by
  have hlt : id.toNat < s.externalIds.size.toNat := hact.1
  have hlen : _ ≤ s.allocated.length := h.length_allocated
  have hobj : readAt s.allocated id.toNat = .ok (s.objectAt id.toNat) := by
    rw [readAt_ok, objectAt, List.getElem?_eq_getElem (hlt.trans_le hlen)]
    rfl
  have hmem : s.objectAt id.toNat ∈ s.live := by
    rw [live_reclaim hlt hact.2 (s.objectAt id.toNat)]
    exact Multiset.mem_cons_self _ _
  have hp : (s.objectAt id.toNat).parentId.toNat < s.registeredIds.size.toNat :=
    (h.live_parent _ hmem).1
  have hcap : _ ≤ s.capacity.length := h.length_capacity
  have hload : _ ≤ s.load.length := h.length_load
  have href : _ ≤ s.refCount.length := h.length_refCount
  cases deferFree <;>
  · simp only [free, activeId_eq_ok_true.mpr hact, ok_bind, hobj, coalesceFreed, if_true,
      Bool.false_eq_true, if_false]
    rw [modifyAt_ok.mpr ⟨hp.trans_le hcap, rfl⟩, ok_bind, modifyAt_ok.mpr ⟨hp.trans_le hload, rfl⟩,
      ok_bind, modifyAt_ok.mpr ⟨hp.trans_le href, rfl⟩, ok_bind,
      writeAt_ok.mpr ⟨hlt.trans_le hlen, rfl⟩, ok_bind, releaseId_of_active hact, ok_bind]
    rfl

theorem free_active {deferFree : Bool} {s : VMAccelAllocator T M} {id : VMAccelId}
    {r : StatusCode × VMAccelAllocator T M} (hr : s.free deferFree id = .ok r) :
    s.externalIds.Active id := by
  obtain ⟨active, hactive, hrest⟩ := bind_eq_ok.mp hr
  cases active with
  | false => cases hrest
  | true => exact activeId_eq_ok_true.mp hactive

theorem free_of_active {s : VMAccelAllocator T M} (h : s.WellFormed) {id : VMAccelId}
    (hact : s.externalIds.Active id) :
    s.free false id = .ok (.success, s.reclaim id.toNat (s.objectAt id.toNat)) := by
  have hstock : s.stockFreed false (s.objectAt id.toNat) =
      ((Resource.freeObj M s.freeSet (s.objectAt id.toNat)).2, []) := by
    rw [stockFreed, h.freed]
    rfl
  rw [free_stocks h.unqueued false hact, hstock]
  exact congrArg (fun t => Except.ok (_, t)) (restock_self (s := s.reclaim _ _) h.freed)

theorem free_ok {s : VMAccelAllocator T M} (h : s.WellFormed) {id : VMAccelId}
    {r : StatusCode × VMAccelAllocator T M} (hr : s.free false id = .ok r) :
    s.externalIds.Active id ∧ r = (.success, s.reclaim id.toNat (s.objectAt id.toNat)) := by
  have hact := free_active hr
  rw [free_of_active h hact] at hr
  exact ⟨hact, (Except.ok.inj hr).symm⟩

end VMAccel.VMAccelAllocator
