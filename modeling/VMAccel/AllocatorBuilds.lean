import VMAccel.AllocatorCalls

/-!
# Both builds of the allocator

With `DEFER_FREE`, `Free` only queues the object, `Alloc` drains the queue when `lower_bound` finds
nothing, and `Unregister` drains it before it erases. `Effect` lists what a call that returns can do
to the tables in either build, and `Coherent` is the invariant of both: the tables without the queue
are well formed, what is queued belongs to registered resources, and the reference count of every
identifier, registered or not, is the number of its live objects.
-/

namespace VMAccel.VMAccelAllocator

open StepSystem IdentifierDB

variable {T : Type} [Resource T] {M : OrderedMultiset (VMAccelObject T) Resource.cmp}

structure Parented (P : VMAccelId → Prop) (p : VMAccelId)
    (r : Option (VMAccelObject T) × M.Carrier × List (VMAccelObject T)) : Prop where
  found : ∀ d, r.1 = some d → d.parentId = p ∧ P p
  pool : ∀ o ∈ M.bag r.2.1, P o.parentId
  queue : ∀ o ∈ r.2.2, P o.parentId

theorem freeObj_parents {P : VMAccelId → Prop} {pool : M.Carrier} {a : VMAccelObject T}
    (hpool : ∀ o ∈ M.bag pool, P o.parentId) (ha : P a.parentId) :
    ∀ o ∈ M.bag (Resource.freeObj M pool a).2, P o.parentId := by
  intro o ho
  rcases Resource.parentId_of_mem_freeObj M pool a o ho with heq | ⟨y, hy, heq⟩
  · exact heq ▸ ha
  · exact heq ▸ hpool y hy

theorem putBack_parents {P : VMAccelId → Prop} {pool : M.Carrier} {p : VMAccelId} {r : T}
    (hpool : ∀ o ∈ M.bag pool, P o.parentId) (hp : P p) :
    ∀ o ∈ M.bag (putBack pool p r), P o.parentId := by
  intro o ho
  rcases parentId_of_mem_putBack ho with heq | ⟨y, hy, heq⟩
  · exact heq ▸ hp
  · exact heq ▸ hpool y hy

theorem coalesceFrom_parents {P : VMAccelId → Prop} {pool : M.Carrier}
    {queue : List (VMAccelObject T)} (hpool : ∀ o ∈ M.bag pool, P o.parentId)
    (hqueue : ∀ o ∈ queue, P o.parentId) :
    ∀ o ∈ M.bag (coalesceFrom pool queue), P o.parentId := by
  induction queue generalizing pool with
  | nil => exact hpool
  | cons a rest ih =>
    exact ih (freeObj_parents hpool (hqueue a List.mem_cons_self))
      fun o ho => hqueue o (List.mem_cons_of_mem a ho)

theorem findFreed_parented {P : VMAccelId → Prop} {p : VMAccelId} {a : T} {pool : M.Carrier}
    {queue : List (VMAccelObject T)} (hpool : ∀ o ∈ M.bag pool, P o.parentId)
    (hqueue : ∀ o ∈ queue, P o.parentId) : Parented P p (findFreed (.of p a) pool queue) := by
  induction queue generalizing pool with
  | nil => exact ⟨fun d hd => (Option.some_ne_none d hd.symm).elim, hpool, hqueue⟩
  | cons o rest ih =>
    have hrest : ∀ o ∈ rest, P o.parentId := fun x hx => hqueue x (List.mem_cons_of_mem o hx)
    have ho : P o.parentId := hqueue o List.mem_cons_self
    by_cases hop : o.parentId = p
    · have hp : P p := hop ▸ ho
      by_cases hle : Resource.le a o.obj = true
      · rw [findFreed_of_le _ hop hle]
        cases Resource.reserve o.obj (VMAccelObject.of p a).obj with
        | none => exact ⟨fun d hd => (Option.some_ne_none d hd.symm).elim, hpool, hrest⟩
        | some q => exact ⟨fun d hd => ⟨by rw [← Option.some.inj hd]; rfl, hp⟩,
            putBack_parents hpool hp, hrest⟩
      · rw [findFreed_of_not_le _ hop hle]
        have hpool' := freeObj_parents hpool ho
        cases htr : tryReserve (Resource.freeObj M pool o).2 (.of p a) with
        | none => exact ih hpool' hrest
        | some q =>
          obtain ⟨hdp, -, hq⟩ := tryReserve_parents hpool' htr
          exact ⟨fun d hd => ⟨Option.some.inj hd ▸ hdp, hp⟩, hq, hrest⟩
    · rw [findFreed_of_ne _ hop]
      exact ih hpool hrest

theorem findFree_of_lookup {s : VMAccelAllocator T M} {req : VMAccelObject T}
    {q : ℕ × VMAccelObject T} (h : lookup s.freeSet req = some q) :
    s.findFree req =
      match tryReserve s.freeSet req with
      | some (d, pool) => (some d, pool, s.freed)
      | none => (none, s.freeSet, s.freed) := by
  rw [findFree, tryReserve, h]
  rfl

theorem findFree_of_lookup_none {s : VMAccelAllocator T M} {req : VMAccelObject T}
    (h : lookup s.freeSet req = none) : s.findFree req = findFreed req s.freeSet s.freed := by
  rw [findFree, h]

theorem findFree_parented {s : VMAccelAllocator T M} {P : VMAccelId → Prop} (p : VMAccelId) (a : T)
    (hpool : ∀ o ∈ M.bag s.freeSet, P o.parentId) (hqueue : ∀ o ∈ s.freed, P o.parentId) :
    Parented P p (s.findFree (.of p a)) := by
  cases hl : lookup s.freeSet (.of p a) with
  | none =>
    rw [findFree_of_lookup_none hl]
    exact findFreed_parented hpool hqueue
  | some q =>
    rw [findFree_of_lookup hl]
    cases htr : tryReserve s.freeSet (.of p a) with
    | none => exact ⟨fun d hd => (Option.some_ne_none d hd.symm).elim, hpool, hqueue⟩
    | some r =>
      obtain ⟨hdp, hp, hq⟩ := tryReserve_parents hpool htr
      exact ⟨fun d hd => ⟨Option.some.inj hd ▸ hdp, hp⟩, hq, hqueue⟩

theorem findFreed_reserves {p : VMAccelId} {a : T} {d : VMAccelObject T} {pool pool' : M.Carrier}
    {queue queue' : List (VMAccelObject T)}
    (h : findFreed (.of p a) pool queue = (some d, pool', queue')) :
    ∃ e r, Resource.reserve e a = some (d.obj, r) := by
  induction queue generalizing pool with
  | nil => cases h
  | cons o rest ih =>
    by_cases hop : o.parentId = p
    · by_cases hle : Resource.le a o.obj = true
      · rw [findFreed_of_le _ hop hle] at h
        cases hres : Resource.reserve o.obj (VMAccelObject.of p a).obj with
        | none => simp [hres] at h
        | some q =>
          simp only [hres, Prod.mk.injEq, Option.some.injEq] at h
          exact ⟨o.obj, q.2, h.1 ▸ hres⟩
      · rw [findFreed_of_not_le _ hop hle] at h
        cases htr : tryReserve (Resource.freeObj M pool o).2 (.of p a) with
        | none =>
          rw [htr] at h
          exact ih h
        | some q =>
          obtain ⟨i, e, div, r, -, hres, hd, -⟩ := tryReserve_eq_some htr
          simp only [htr, Prod.mk.injEq, Option.some.injEq] at h
          refine ⟨e.obj, r, ?_⟩
          rw [← h.1, hd]
          exact hres
    · rw [findFreed_of_ne _ hop] at h
      exact ih h

theorem findFree_reserves {s : VMAccelAllocator T M} {p : VMAccelId} {a : T} {d : VMAccelObject T}
    {pool : M.Carrier} {queue : List (VMAccelObject T)}
    (h : s.findFree (.of p a) = (some d, pool, queue)) :
    ∃ e r, Resource.reserve e a = some (d.obj, r) := by
  cases hl : lookup s.freeSet (.of p a) with
  | none =>
    rw [findFree_of_lookup_none hl] at h
    exact findFreed_reserves h
  | some q =>
    rw [findFree_of_lookup hl] at h
    cases htr : tryReserve s.freeSet (.of p a) with
    | none => simp [htr] at h
    | some r =>
      obtain ⟨i, e, div, rem, -, hres, hd, -⟩ := tryReserve_eq_some htr
      simp only [htr, Prod.mk.injEq, Option.some.injEq] at h
      refine ⟨e.obj, rem, ?_⟩
      rw [← h.1, hd]
      exact hres

structure Coherent (s : VMAccelAllocator T M) : Prop where
  base : s.unqueued.WellFormed
  freed_parent : ∀ o ∈ s.freed, s.registeredIds.Active o.parentId
  counted : ∀ p : VMAccelId, p.toNat < s.refCount.length → s.Counted p
  size_eq : s.externalIds.size = s.registeredIds.size

theorem Coherent.parented {s : VMAccelAllocator T M} (h : s.Coherent) (p : VMAccelId) (a : T) :
    Parented s.registeredIds.Active p (s.findFree (.of p a)) :=
  findFree_parented p a h.base.pool_parent h.freed_parent

inductive Effect (deferFree : Bool) (s : VMAccelAllocator T M) :
    Call T → VMAccelAllocator T M → Prop
  | unchanged (c : Call T) : Effect deferFree s c s
  | enrolled (a : T) {k : ℕ} (hfree : s.registeredIds.free ≠ 0)
    (hk : k / 32 < s.registeredIds.bits.length) (hff : s.registeredIds.FirstFree k) :
    Effect deferFree s (.register a) (s.enroll k a)
  | withdrawn {id : VMAccelId} {ids : IdentifierDB}
    (hids : s.registeredIds.releaseId id = .ok ids) (hlive : ∀ o ∈ s.live, o.parentId ≠ id) :
    Effect deferFree s (.unregister id) (s.coalesceFreed.withdraw id ids)
  | refused (p : VMAccelId) (a : T) (status : StatusCode) :
    Effect deferFree s (.alloc p a) (s.refuse status)
  | missed {p : VMAccelId} {a : T} {pool : M.Carrier} {queue : List (VMAccelObject T)}
    (hfree : s.externalIds.free ≠ 0) (hfind : s.findFree (.of p a) = (none, pool, queue)) :
    Effect deferFree s (.alloc p a) ((s.refuse .resourceUnavailable).restock pool queue)
  | granted {p : VMAccelId} {a : T} {k : ℕ} {d : VMAccelObject T} {pool : M.Carrier}
    {queue : List (VMAccelObject T)} (hfree : s.externalIds.free ≠ 0)
    (hk : k / 32 < s.externalIds.bits.length) (hff : s.externalIds.FirstFree k)
    (hfind : s.findFree (.of p a) = (some d, pool, queue)) :
    Effect deferFree s (.alloc p a) ((s.grant k d pool).restock pool queue)
  | freed {id : VMAccelId} (hact : s.externalIds.Active id) :
    Effect deferFree s (.free id) ((s.reclaim id.toNat (s.objectAt id.toNat)).restock
      (s.stockFreed deferFree (s.objectAt id.toNat)).1
      (s.stockFreed deferFree (s.objectAt id.toNat)).2)

theorem Coherent.alloc_ok {s : VMAccelAllocator T M} (h : s.Coherent) {p : VMAccelId} {a : T}
    {r : (VMAccelAllocateStatus × Option T) × VMAccelAllocator T M} (hr : s.alloc p a = .ok r) :
    (s.externalIds.free = 0 ∧ r = ((⟨s.allocResult.id, .fail⟩, none), s.refuse .fail)) ∨
      s.externalIds.free ≠ 0 ∧ ((∃ pool queue, s.findFree (.of p a) = (none, pool, queue) ∧
          r = ((⟨s.allocResult.id, .resourceUnavailable⟩, none),
            (s.refuse .resourceUnavailable).restock pool queue)) ∨
        ∃ k d pool queue, k / 32 < s.externalIds.bits.length ∧ s.externalIds.FirstFree k ∧
          s.findFree (.of p a) = (some d, pool, queue) ∧
          r = ((⟨BitVec.ofNat 32 k, .success⟩, some d.obj),
            (s.grant k d pool).restock pool queue)) := by
  obtain ⟨ids, hids, hrest⟩ := bind_eq_ok.mp hr
  rcases allocId_ok hids with ⟨hfree, rfl⟩ | ⟨hfree, k, hk, hff, rfl⟩
  · exact Or.inl ⟨hfree, (Except.ok.inj hrest).symm⟩
  · refine Or.inr ⟨hfree, ?_⟩
    have hlt := hff.lt_size h.base.externalIds hfree
    have hpar := h.parented p a
    rcases hfind : s.findFree (.of p a) with ⟨_ | d, pool, queue⟩
    · rw [alloc_of_missing hids hk hff.1 hlt hfind] at hr
      exact Or.inl ⟨pool, queue, rfl, (Except.ok.inj hr).symm⟩
    · obtain ⟨hdp, hact⟩ := hpar.found d (by rw [hfind])
      rw [alloc_of_found h.base hids hlt hfind (hdp.symm ▸ hact)] at hr
      exact Or.inr ⟨k, d, pool, queue, hk, hff, rfl, (Except.ok.inj hr).symm⟩

theorem Coherent.returns_alloc {s : VMAccelAllocator T M} (h : s.Coherent)
    (haddr : s.registeredIds.Addressable) (p : VMAccelId) (a : T) : Returns (s.alloc p a) := by
  by_cases hfree : s.externalIds.free = 0
  · have hid : s.externalIds.allocId = .ok (none, s.externalIds) := if_pos hfree
    exact ⟨((⟨s.allocResult.id, .fail⟩, none), s.refuse .fail), by rw [alloc, hid]; rfl⟩
  · have haddr' : s.externalIds.Addressable := by
      rw [Addressable, h.size_eq]
      exact haddr
    obtain ⟨k, hlt, hk, hff, hid⟩ := allocId_of_balanced h.base.externalIds haddr' hfree
    rcases hfind : s.findFree (.of p a) with ⟨_ | d, pool, queue⟩
    · exact ⟨_, alloc_of_missing (s := s) hid hk hff.1 hlt hfind⟩
    · obtain ⟨hdp, hact⟩ := (h.parented p a).found d (by rw [hfind])
      exact ⟨_, alloc_of_found (s := s) h.base hid hlt hfind (hdp.symm ▸ hact)⟩

theorem apply_effect {deferFree : Bool} {s s' : VMAccelAllocator T M} {c : Call T}
    (h : s.Coherent) (hr : s.apply deferFree c = .ok s') : Effect deferFree s c s' := by
  cases c with
  | register a =>
    obtain ⟨r, hcall, rfl⟩ := bind_snd_eq_ok.mp hr
    rcases register_ok h.base hcall with ⟨-, rfl⟩ | ⟨k, hfree, hk, hff, rfl⟩
    · exact .unchanged _
    · exact .enrolled a hfree hk hff
  | unregister id =>
    obtain ⟨r, hcall, rfl⟩ := bind_snd_eq_ok.mp hr
    rcases unregister_coalesces h.base hcall with ⟨-, rfl⟩ | ⟨ids, hids, hlive, rfl⟩
    · exact .unchanged _
    · exact .withdrawn hids hlive
  | alloc p a =>
    obtain ⟨r, hcall, rfl⟩ := bind_snd_eq_ok.mp hr
    rcases h.alloc_ok hcall with ⟨-, rfl⟩ | ⟨hfree, ⟨pool, queue, hfind, rfl⟩ |
      ⟨k, d, pool, queue, hk, hff, hfind, rfl⟩⟩
    · exact .refused p a _
    · exact .missed hfree hfind
    · exact .granted hfree hk hff hfind
  | free id =>
    obtain ⟨r, hcall, rfl⟩ := bind_snd_eq_ok.mp hr
    have hact := free_active hcall
    rw [free_stocks h.base deferFree hact] at hcall
    rw [← Except.ok.inj hcall]
    exact .freed hact

theorem coherent_new (num : ℕ) : (new M num).Coherent where
  base := (wellFormed_new num).unqueued
  freed_parent o ho := absurd ho List.not_mem_nil
  counted p hp := by
    have hlive : (new M num).live = 0 := by rw [live, entries_new]; rfl
    rw [Counted, hlive]
    rw [show (new M num).refCount = List.replicate num 0 from rfl, List.length_replicate] at hp
    rw [show (new M num).refCount = List.replicate num 0 from rfl, List.getElem?_replicate,
      if_pos hp]
    rfl
  size_eq := rfl

theorem Coherent.restock {s : VMAccelAllocator T M} (h : s.Coherent) {pool : M.Carrier}
    {queue : List (VMAccelObject T)}
    (hpool : ∀ o ∈ M.bag pool, s.registeredIds.Active o.parentId)
    (hqueue : ∀ o ∈ queue, s.registeredIds.Active o.parentId) : (s.restock pool queue).Coherent :=
  ⟨⟨h.base.registeredIds, h.base.externalIds, rfl, h.base.length_registered,
    h.base.length_capacity, h.base.length_load, h.base.length_refCount, h.base.length_allocated,
    h.base.refCount, h.base.live_parent, hpool⟩, hqueue, h.counted, h.size_eq⟩

theorem Coherent.refuse {s : VMAccelAllocator T M} (h : s.Coherent) (status : StatusCode) :
    (s.refuse status).Coherent := ⟨h.base.refuse status, h.freed_parent, h.counted, h.size_eq⟩

theorem Coherent.enroll {s : VMAccelAllocator T M} (h : s.Coherent) {k : ℕ}
    (hk : k / 32 < s.registeredIds.bits.length) (hbit : s.registeredIds.bit k = false)
    (hlt : k < s.registeredIds.size.toNat) (hfree : s.registeredIds.free ≠ 0) (a : T) :
    (s.enroll k a).Coherent where
  base := h.base.enroll hk hbit hlt hfree a
  freed_parent o ho := (active_take hk hlt _).mpr (Or.inl (h.freed_parent o ho))
  counted p hp := by
    rw [VMAccelAllocator.enroll, List.length_set] at hp
    exact Counted.enroll (s := s) (hlt.trans_le h.base.length_refCount) (h.base.idle hbit)
      fun _ => h.counted p hp
  size_eq := h.size_eq

theorem Coherent.coalesceFreed {s : VMAccelAllocator T M} (h : s.Coherent) :
    s.coalesceFreed.Coherent :=
  h.restock (coalesceFrom_parents h.base.pool_parent h.freed_parent)
    fun _ ho => absurd ho List.not_mem_nil

theorem Coherent.withdraw {s : VMAccelAllocator T M} (h : s.Coherent) (hnil : s.freed = [])
    {id : VMAccelId} {ids : IdentifierDB} (hids : s.registeredIds.releaseId id = .ok ids)
    (hlive : ∀ o ∈ s.live, o.parentId ≠ id) :
    (s.withdraw id ids).Coherent ∧ ∀ p, ids.Active p ↔ s.registeredIds.Active p ∧ p ≠ id := by
  obtain ⟨hwf, hiff⟩ := h.base.withdraw hids hlive
  refine ⟨⟨hwf, fun o ho => ?_, h.counted, h.size_eq.trans ?_⟩, hiff⟩
  · change o ∈ s.freed at ho
    rw [hnil] at ho
    exact absurd ho List.not_mem_nil
  · rcases releaseId_ok hids with ⟨-, rfl⟩ | ⟨-, rfl⟩ <;> rfl

theorem Coherent.grant {s : VMAccelAllocator T M} (h : s.Coherent) {k : ℕ}
    (hk : k / 32 < s.externalIds.bits.length) (hbit : s.externalIds.bit k = false)
    (hlt : k < s.externalIds.size.toNat) (hfree : s.externalIds.free ≠ 0)
    {d : VMAccelObject T} {pool : M.Carrier} (hd : s.registeredIds.Active d.parentId)
    (hpool : ∀ o ∈ M.bag pool, s.registeredIds.Active o.parentId) :
    (s.grant k d pool).Coherent where
  base := h.base.grant hk hbit hlt hfree hd hpool
  freed_parent := h.freed_parent
  counted p hp := by
    rw [VMAccelAllocator.grant, List.length_modify] at hp
    exact Counted.grant hk hlt h.base.length_allocated hbit (h.counted p hp)
  size_eq := h.size_eq

theorem Coherent.reclaim {s : VMAccelAllocator T M} (h : s.Coherent) {k : ℕ}
    (hlt : k < s.externalIds.size.toNat) (hbit : s.externalIds.bit k = true) :
    (s.reclaim k (s.objectAt k)).Coherent where
  base := h.base.reclaim hlt hbit
  freed_parent := h.freed_parent
  counted p hp := by
    rw [VMAccelAllocator.reclaim, List.length_modify] at hp
    exact Counted.reclaim hlt hbit (h.counted p hp)
  size_eq := h.size_eq

theorem Coherent.objectAt_parent {s : VMAccelAllocator T M} (h : s.Coherent) {id : VMAccelId}
    (hact : s.externalIds.Active id) :
    s.registeredIds.Active (s.objectAt id.toNat).parentId := by
  refine h.base.live_parent _ ?_
  change _ ∈ s.live
  rw [live_reclaim hact.1 hact.2 (s.objectAt id.toNat)]
  exact Multiset.mem_cons_self _ _

theorem Coherent.stockFreed {s : VMAccelAllocator T M} (h : s.Coherent) (deferFree : Bool)
    {o : VMAccelObject T} (ho : s.registeredIds.Active o.parentId) :
    (∀ x ∈ M.bag (s.stockFreed deferFree o).1, s.registeredIds.Active x.parentId) ∧
      ∀ x ∈ (s.stockFreed deferFree o).2, s.registeredIds.Active x.parentId := by
  have hqueue : ∀ x ∈ s.freed ++ [o], s.registeredIds.Active x.parentId := by
    intro x hx
    rcases List.mem_append.mp hx with hx | hx
    · exact h.freed_parent x hx
    · exact List.mem_singleton.mp hx ▸ ho
  cases deferFree with
  | true => exact ⟨h.base.pool_parent, hqueue⟩
  | false =>
    exact ⟨coalesceFrom_parents h.base.pool_parent hqueue, fun _ hx => absurd hx List.not_mem_nil⟩

theorem Coherent.effect {deferFree : Bool} {s s' : VMAccelAllocator T M} {c : Call T}
    (h : s.Coherent) (he : Effect deferFree s c s') : s'.Coherent := by
  cases he with
  | unchanged => exact h
  | enrolled a hfree hk hff =>
    exact h.enroll hk hff.1 (hff.lt_size h.base.registeredIds hfree) hfree a
  | withdrawn hids hlive => exact (h.coalesceFreed.withdraw rfl hids hlive).1
  | refused p a status => exact h.refuse status
  | @missed p a pool queue hfree hfind =>
    have hpar := h.parented p a
    rw [hfind] at hpar
    exact (h.refuse _).restock hpar.pool hpar.queue
  | @granted p a k d pool queue hfree hk hff hfind =>
    have hpar := h.parented p a
    rw [hfind] at hpar
    obtain ⟨hdp, hact⟩ := hpar.found d rfl
    have hlt := hff.lt_size h.base.externalIds hfree
    exact (h.grant hk hff.1 hlt hfree (hdp.symm ▸ hact) hpar.pool).restock hpar.pool hpar.queue
  | @freed id hact =>
    obtain ⟨hpool, hqueue⟩ := h.stockFreed deferFree (h.objectAt_parent hact)
    exact (h.reclaim hact.1 hact.2).restock hpool hqueue

theorem coherent_of_run {deferFree : Bool} {num : ℕ} {cs : List (Call T)}
    {s : VMAccelAllocator T M} (hrun : run (apply deferFree) (new M num) cs = .ok s) :
    s.Coherent :=
  run_invariant (C := fun _ _ => True) (fun _ _ _ h _ hr => h.effect (apply_effect h hr))
    (coherent_new num) (eachInput_true _ _) hrun

end VMAccel.VMAccelAllocator
