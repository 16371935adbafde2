import VMAccel.AllocatorUndo

/-!
# Where a reservation comes from

`Alloc` cuts a reservation out of a free object of the same parent, and `FreeObj` merges objects of
one parent. A property of objects that both hand down, and that every registered resource has, is
one of all objects at all times, in either build. For descriptors it is that only the capacity
changes: address, type, architecture and limits of an object are those of its accelerator.
-/

namespace VMAccel

open StepSystem IdentifierDB

namespace VMAccelAllocator

section Objects

variable {T : Type} [Resource T] {M : OrderedMultiset (VMAccelObject T) Resource.cmp}

/-- The two parts of a reservation have the property when the whole has it, and a free set keeps it
under `FreeObj`. -/
structure HandedDown (M : OrderedMultiset (VMAccelObject T) Resource.cmp)
    (Q : VMAccelObject T → Prop) : Prop where
  reserve : ∀ {e : VMAccelObject T} {a d r : T}, Q e → Resource.reserve e.obj a = some (d, r) →
    Q (.of e.parentId d) ∧ Q (.of e.parentId r)
  freeObj : ∀ {pool : M.Carrier} {a : VMAccelObject T}, (∀ o ∈ M.bag pool, Q o) → Q a →
    ∀ o ∈ M.bag (Resource.freeObj M pool a).2, Q o

structure Found (Q : VMAccelObject T → Prop)
    (r : Option (VMAccelObject T) × M.Carrier × List (VMAccelObject T)) : Prop where
  found : ∀ d, r.1 = some d → Q d
  pool : ∀ o ∈ M.bag r.2.1, Q o
  queue : ∀ o ∈ r.2.2, Q o

namespace HandedDown

variable {Q : VMAccelObject T → Prop} (hQ : HandedDown M Q)
include hQ

theorem putBack {pool : M.Carrier} {p : VMAccelId} {r : T} (hpool : ∀ o ∈ M.bag pool, Q o)
    (hr : Q (.of p r)) : ∀ o ∈ M.bag (putBack pool p r), Q o := by
  unfold VMAccelAllocator.putBack
  split_ifs
  · exact hpool
  · exact hQ.freeObj hpool hr

theorem coalesceFrom {pool : M.Carrier} {queue : List (VMAccelObject T)}
    (hpool : ∀ o ∈ M.bag pool, Q o) (hqueue : ∀ o ∈ queue, Q o) :
    ∀ o ∈ M.bag (coalesceFrom pool queue), Q o := by
  induction queue generalizing pool with
  | nil => exact hpool
  | cons a rest ih =>
    exact ih (hQ.freeObj hpool (hqueue a List.mem_cons_self))
      fun o ho => hqueue o (List.mem_cons_of_mem a ho)

theorem tryReserve {pool pool' : M.Carrier} {p : VMAccelId} {a : T} {d : VMAccelObject T}
    (hpool : ∀ o ∈ M.bag pool, Q o) (htr : tryReserve pool (.of p a) = some (d, pool')) :
    Q d ∧ ∀ o ∈ M.bag pool', Q o := by
  obtain ⟨i, e, div, r, hl, hres, rfl, rfl⟩ := tryReserve_eq_some htr
  obtain ⟨hi, hcmp⟩ := lookup_eq_some hl
  have hpar : e.parentId = p := Resource.parentId_eq_of_cmp hcmp
  obtain ⟨hdiv, hr⟩ := hQ.reserve (hpool e (M.mem_bag_of_getElem hi)) hres
  rw [hpar] at hdiv hr
  refine ⟨hdiv, hQ.putBack (fun o ho => hpool o ?_) hr⟩
  rw [M.bag_eq_cons_erase hi]
  exact Multiset.mem_cons_of_mem ho

theorem findFreed {p : VMAccelId} {a : T} {pool : M.Carrier} {queue : List (VMAccelObject T)}
    (hpool : ∀ o ∈ M.bag pool, Q o) (hqueue : ∀ o ∈ queue, Q o) :
    Found Q (findFreed (.of p a) pool queue) := by
  induction queue generalizing pool with
  | nil => exact ⟨fun d hd => (Option.some_ne_none d hd.symm).elim, hpool, hqueue⟩
  | cons o rest ih =>
    have hrest : ∀ o ∈ rest, Q o := fun x hx => hqueue x (List.mem_cons_of_mem o hx)
    have ho : Q o := hqueue o List.mem_cons_self
    by_cases hop : o.parentId = p
    · by_cases hle : Resource.le a o.obj = true
      · rw [findFreed_of_le _ hop hle]
        cases hres : Resource.reserve o.obj (VMAccelObject.of p a).obj with
        | none => exact ⟨fun d hd => (Option.some_ne_none d hd.symm).elim, hpool, hrest⟩
        | some q =>
          obtain ⟨hdiv, hr⟩ := hQ.reserve ho hres
          rw [hop] at hdiv hr
          exact ⟨fun d hd => Option.some.inj hd ▸ hdiv, hQ.putBack hpool hr, hrest⟩
      · rw [findFreed_of_not_le _ hop hle]
        have hpool' := hQ.freeObj hpool ho
        cases htr : VMAccelAllocator.tryReserve (Resource.freeObj M pool o).2 (.of p a) with
        | none => exact ih hpool' hrest
        | some q =>
          obtain ⟨hd, hq⟩ := hQ.tryReserve hpool' htr
          exact ⟨fun d heq => Option.some.inj heq ▸ hd, hq, hrest⟩
    · rw [findFreed_of_ne _ hop]
      exact ih hpool hrest

theorem findFree {s : VMAccelAllocator T M} (p : VMAccelId) (a : T)
    (hpool : ∀ o ∈ M.bag s.freeSet, Q o) (hqueue : ∀ o ∈ s.freed, Q o) :
    Found Q (s.findFree (.of p a)) := by
  cases hl : lookup s.freeSet (.of p a) with
  | none =>
    rw [findFree_of_lookup_none hl]
    exact hQ.findFreed hpool hqueue
  | some q =>
    rw [findFree_of_lookup hl]
    cases htr : VMAccelAllocator.tryReserve s.freeSet (.of p a) with
    | none => exact ⟨fun d hd => (Option.some_ne_none d hd.symm).elim, hpool, hqueue⟩
    | some r =>
      obtain ⟨hd, hq⟩ := hQ.tryReserve hpool htr
      exact ⟨fun d heq => Option.some.inj heq ▸ hd, hq, hqueue⟩

end HandedDown

/-- All objects of the allocator: the granted ones, the free ones and the queued ones. -/
def Holds (s : VMAccelAllocator T M) (o : VMAccelObject T) : Prop :=
  o ∈ s.live ∨ o ∈ M.bag s.freeSet ∨ o ∈ s.freed

theorem objectAt_mem_live {s : VMAccelAllocator T M} {id : VMAccelId}
    (hact : s.externalIds.Active id) : s.objectAt id.toNat ∈ s.live := by
  rw [live_reclaim hact.1 hact.2 (s.objectAt id.toNat)]
  exact Multiset.mem_cons_self _ _

theorem Coherent.active_of_holds {s : VMAccelAllocator T M} (h : s.Coherent)
    {o : VMAccelObject T} (ho : s.Holds o) : s.registeredIds.Active o.parentId := by
  rcases ho with ho | ho | ho
  · exact h.base.live_parent o ho
  · exact h.base.pool_parent o ho
  · exact h.freed_parent o ho

theorem not_holds_new (num : ℕ) (o : VMAccelObject T) : ¬ (new M num).Holds o := by
  rintro (ho | ho | ho)
  · rw [live, entries_new] at ho
    exact absurd ho (Multiset.notMem_zero o)
  · rw [show M.bag (new M num).freeSet = 0 from M.bag_empty] at ho
    exact absurd ho (Multiset.notMem_zero o)
  · cases ho

/-- A property of objects that depends on the registered resources: it is handed down, a resource
has it when it is registered, and later registrations of other resources do not take it away. -/
structure Descends (M : OrderedMultiset (VMAccelObject T) Resource.cmp)
    (Q : List T → VMAccelObject T → Prop) : Prop where
  handedDown : ∀ registered, HandedDown M (Q registered)
  self : ∀ {registered : List T} {p : VMAccelId} {a : T}, registered[p.toNat]? = some a →
    Q registered (.of p a)
  other : ∀ {registered : List T} {k : ℕ} {a : T} {o : VMAccelObject T}, o.parentId.toNat ≠ k →
    Q registered o → Q (registered.set k a) o

namespace Descends

variable {Q : List T → VMAccelObject T → Prop} (hQ : Descends M Q) {s : VMAccelAllocator T M}
  (h : ∀ o, s.Holds o → Q s.registered o)
include hQ h

theorem enroll (hs : s.Coherent) {k : ℕ} (hfree : s.registeredIds.free ≠ 0)
    (hff : s.registeredIds.FirstFree k) (a : T) :
    ∀ o, (s.enroll k a).Holds o → Q (s.enroll k a).registered o := by
  have hlt : k < s.registeredIds.size.toNat := hff.lt_size hs.base.registeredIds hfree
  have hold : ∀ o, s.Holds o → Q (s.registered.set k a) o := by
    intro o ho
    refine hQ.other (fun heq => ?_) (h o ho)
    have hbit := (hs.active_of_holds ho).2
    rw [heq, hff.1] at hbit
    cases hbit
  have hnew : Q (s.registered.set k a) (.of (BitVec.ofNat 32 k) a) := by
    refine hQ.self ?_
    rw [toNat_ofNat_of_lt_size hlt]
    exact List.getElem?_set_self (hlt.trans_le hs.base.length_registered)
  rintro o (ho | ho | ho)
  · exact hold o (Or.inl ho)
  · exact (hQ.handedDown _).freeObj (fun x hx => hold x (Or.inr (Or.inl hx))) hnew o ho
  · exact hold o (Or.inr (Or.inr ho))

theorem withdraw {id : VMAccelId} {ids : IdentifierDB} :
    ∀ o, (s.coalesceFreed.withdraw id ids).Holds o → Q s.registered o := by
  rintro o (ho | ho | ho)
  · exact h o (Or.inl ho)
  · change o ∈ M.bag (M.eraseIf _ (VMAccelAllocator.coalesceFrom s.freeSet s.freed)) at ho
    rw [M.bag_eraseIf] at ho
    exact (hQ.handedDown _).coalesceFrom (fun x hx => h x (Or.inr (Or.inl hx)))
      (fun x hx => h x (Or.inr (Or.inr hx))) o (Multiset.mem_of_mem_filter ho)
  · cases ho

theorem found (p : VMAccelId) (a : T) : Found (Q s.registered) (s.findFree (.of p a)) :=
  (hQ.handedDown _).findFree p a (fun x hx => h x (Or.inr (Or.inl hx)))
    fun x hx => h x (Or.inr (Or.inr hx))

theorem stockFreed (deferFree : Bool) {o : VMAccelObject T} (ho : s.Holds o) :
    (∀ x ∈ M.bag (s.stockFreed deferFree o).1, Q s.registered x) ∧
      ∀ x ∈ (s.stockFreed deferFree o).2, Q s.registered x := by
  have hpool : ∀ x ∈ M.bag s.freeSet, Q s.registered x := fun x hx => h x (Or.inr (Or.inl hx))
  have hqueue : ∀ x ∈ s.freed ++ [o], Q s.registered x := by
    intro x hx
    rcases List.mem_append.mp hx with hx | hx
    · exact h x (Or.inr (Or.inr hx))
    · exact List.mem_singleton.mp hx ▸ h o ho
  cases deferFree with
  | true => exact ⟨hpool, hqueue⟩
  | false =>
    exact ⟨(hQ.handedDown _).coalesceFrom hpool hqueue, fun _ hx => absurd hx List.not_mem_nil⟩

theorem effect (hs : s.Coherent) {deferFree : Bool} {s' : VMAccelAllocator T M} {c : Call T}
    (he : Effect deferFree s c s') : ∀ o, s'.Holds o → Q s'.registered o := by
  cases he with
  | unchanged => exact h
  | enrolled a hfree hk hff => exact hQ.enroll h hs hfree hff a
  | withdrawn hids hlive => exact hQ.withdraw h
  | refused p a status => exact h
  | @missed p a pool queue hfree hfind =>
    have hfound := hQ.found h p a
    rw [hfind] at hfound
    rintro o (ho | ho | ho)
    · exact h o (Or.inl ho)
    · exact hfound.pool o ho
    · exact hfound.queue o ho
  | @granted p a k d pool queue hfree hk hff hfind =>
    have hfound := hQ.found h p a
    rw [hfind] at hfound
    have hlt := hff.lt_size hs.base.externalIds hfree
    rintro o (ho | ho | ho)
    · change o ∈ (s.grant k d pool).live at ho
      rw [live_grant hk hlt hs.base.length_allocated hff.1, Multiset.mem_cons] at ho
      rcases ho with rfl | ho
      · exact hfound.found _ rfl
      · exact h o (Or.inl ho)
    · exact hfound.pool o ho
    · exact hfound.queue o ho
  | @freed id hact =>
    have hobj := objectAt_mem_live hact
    obtain ⟨hpool, hqueue⟩ := hQ.stockFreed h deferFree (Or.inl hobj)
    rintro o (ho | ho | ho)
    · refine h o (Or.inl ?_)
      rw [live_reclaim hact.1 hact.2 (s.objectAt id.toNat)]
      exact Multiset.mem_cons_of_mem ho
    · exact hpool o ho
    · exact hqueue o ho

end Descends

theorem Descends.run {Q : List T → VMAccelObject T → Prop} (hQ : Descends M Q) {deferFree : Bool}
    {num : ℕ} {cs : List (Call T)} {s : VMAccelAllocator T M}
    (hrun : run (apply deferFree) (new M num) cs = .ok s) :
    s.Coherent ∧ ∀ o, s.Holds o → Q s.registered o := by
  refine run_invariant (C := fun _ _ => True)
    (I := fun s : VMAccelAllocator T M => s.Coherent ∧ ∀ o, s.Holds o → Q s.registered o) ?_
    ⟨coherent_new num, fun o ho => absurd ho (not_holds_new num o)⟩ (eachInput_true _ _) hrun
  rintro s c s' ⟨hs, h⟩ - hr
  have he := apply_effect hs hr
  exact ⟨hs.effect he, hQ.effect h hs he⟩

end Objects

end VMAccelAllocator

namespace VMAccelDesc

variable {M : OrderedMultiset (VMAccelObject VMAccelDesc) Resource.cmp}

/-- The object is the registered descriptor of its parent with a capacity of its own. -/
def Inherits (registered : List VMAccelDesc) (o : VMAccelObject VMAccelDesc) : Prop :=
  ∃ a capacity, registered[o.parentId.toNat]? = some a ∧ o.obj = { a with capacity }

theorem handedDown_inherits (registered : List VMAccelDesc) :
    VMAccelAllocator.HandedDown M (Inherits registered) where
  reserve := by
    rintro ⟨p, fence, obj⟩ req d r ⟨a, capacity, ha, rfl⟩ hres
    obtain ⟨rfl, rfl⟩ := reserve_parts hres
    exact ⟨⟨a, req.capacity, ha, rfl⟩, ⟨a, capacity - req.capacity, ha, rfl⟩⟩
  freeObj := by
    intro pool b hpool hb o ho
    rcases freeObj_merges pool b with ⟨-, heq⟩ | ⟨e, i, hi, hpar, heq⟩
    · rw [heq, M.bag_insert, Multiset.mem_cons] at ho
      rcases ho with rfl | ho
      · exact hb
      · exact hpool o ho
    · rw [heq] at ho
      rcases mem_bag_replace hi ho with rfl | ho
      · obtain ⟨a, capacity, ha, he⟩ := hpool e (M.mem_bag_of_getElem hi)
        refine ⟨a, capacity + b.obj.capacity, hpar ▸ ha, ?_⟩
        change e.obj.addAssign b.obj = _
        rw [he, addAssign]
      · exact hpool o ho

theorem descends_inherits : VMAccelAllocator.Descends M Inherits where
  handedDown := handedDown_inherits
  self ha := ⟨_, _, ha, rfl⟩
  other := by
    rintro registered k b o hne ⟨a, capacity, ha, ho⟩
    exact ⟨a, capacity, by rw [List.getElem?_set_ne hne.symm, ha], ho⟩

/-- After any calls of either build, every object, granted, free or queued, belongs to an
accelerator that is registered, and is its descriptor but for the capacity. -/
theorem objects_inherit (deferFree : Bool)
    (M : OrderedMultiset (VMAccelObject VMAccelDesc) Resource.cmp) (num : ℕ)
    {cs : List (VMAccelAllocator.Call VMAccelDesc)} {s : VMAccelAllocator VMAccelDesc M}
    (hrun : run (VMAccelAllocator.apply deferFree) (.new M num) cs = .ok s)
    {o : VMAccelObject VMAccelDesc} (ho : s.Holds o) :
    s.registeredIds.Active o.parentId ∧ Inherits s.registered o := by
  obtain ⟨hs, h⟩ := descends_inherits.run hrun
  exact ⟨hs.active_of_holds ho, h o ho⟩

/-- A reservation is freed and waits in the queue. -/
theorem objects_inherit_queued :
    ∃ s : VMAccelAllocator VMAccelDesc (SearchTree.multiset Resource.cmp),
      run (VMAccelAllocator.apply true) (.new _ 4)
        [.register (flopsDesc 4), .alloc 0 (flopsDesc 3), .free 0] = .ok s ∧
      s.registeredIds.Active 0 ∧ Inherits s.registered (.of 0 (flopsDesc 3)) := by
  have hrun : ∃ s : VMAccelAllocator VMAccelDesc (SearchTree.multiset Resource.cmp),
      run (VMAccelAllocator.apply true) (.new _ 4)
        [.register (flopsDesc 4), .alloc 0 (flopsDesc 3), .free 0] = .ok s ∧
      s.freed = [.of 0 (flopsDesc 3)] := by decide +kernel
  obtain ⟨s, hs, hfreed⟩ := hrun
  have ho : s.Holds (.of 0 (flopsDesc 3)) := Or.inr (Or.inr (hfreed ▸ List.mem_singleton_self _))
  exact ⟨s, hs, objects_inherit true _ 4 hs ho⟩

end VMAccelDesc

end VMAccel
