import VMAccel.AllocatorBuilds
import VMAccel.AllocInt
import VMAccel.Desc

/-!
# Reference counts and the identifiers of the allocator

The reference count of an identifier is the number of external identifiers whose object has it as
its parent, so `Unregister` of a registered resource fails exactly while allocations from it are
live, and what it withdraws stays out of reach until `Register` hands the identifier out again.
Nothing of this is asked about an identifier that is not in use: `Unregister` indexes the reference
counts first and then trusts the assertions of `IdentifierDB_ReleaseId`, and `Free` is one
assertion.
-/

namespace VMAccel.VMAccelAllocator

open StepSystem IdentifierDB

variable {T : Type} [Resource T] {M : OrderedMultiset (VMAccelObject T) Resource.cmp}

def children (s : VMAccelAllocator T M) (p : VMAccelId) : Finset ℕ :=
  s.externalIds.activeIds.filter fun e => (s.objectAt e).parentId = p

theorem childCount_live (s : VMAccelAllocator T M) (p : VMAccelId) :
    childCount s.live p = (s.children p).card := by
  rw [childCount, live, entries, Multiset.map_map, Multiset.countP_map, children, Finset.card_def,
    Finset.filter_val]
  rfl

theorem parentId_of_mem_children {s : VMAccelAllocator T M} {p : VMAccelId} {e : ℕ}
    (he : e ∈ s.children p) : ∃ o ∈ s.live, o.parentId = p := by
  obtain ⟨hact, hp⟩ := Finset.mem_filter.mp he
  obtain ⟨hlt, hbit⟩ := mem_activeIds.mp hact
  refine ⟨s.objectAt e, ?_, hp⟩
  rw [live_reclaim hlt hbit (s.objectAt e)]
  exact Multiset.mem_cons_self _ _

theorem Coherent.children_eq_empty {s : VMAccelAllocator T M} (h : s.Coherent) {p : VMAccelId}
    (hp : ¬ s.registeredIds.Active p) : s.children p = ∅ := by
  by_contra hne
  obtain ⟨e, he⟩ := Finset.nonempty_iff_ne_empty.mpr hne
  obtain ⟨o, ho, rfl⟩ := parentId_of_mem_children he
  exact hp (h.base.live_parent o ho)

theorem Coherent.refCount_toNat {s : VMAccelAllocator T M} (h : s.Coherent) {p : VMAccelId}
    {c : BitVec 32} (hc : s.refCount[p.toNat]? = some c) : c.toNat = (s.children p).card := by
  obtain ⟨hlt, -⟩ := List.getElem?_eq_some_iff.mp hc
  have hcount : c = BitVec.ofNat 32 (childCount s.live p) :=
    Option.some.inj (hc.symm.trans (h.counted p hlt))
  rw [hcount, BitVec.toNat_ofNat, Nat.mod_eq_of_lt (s.childCount_live_lt p), childCount_live]

theorem Coherent.refCount_eq_zero {s : VMAccelAllocator T M} (h : s.Coherent) {p : VMAccelId}
    {c : BitVec 32} (hc : s.refCount[p.toNat]? = some c) : c = 0 ↔ s.children p = ∅ := by
  rw [← Finset.card_eq_zero, ← h.refCount_toNat hc]
  exact ⟨fun h0 => congrArg BitVec.toNat h0, fun h0 => BitVec.eq_of_toNat_eq h0⟩

/-- `Unregister` of a registered resource returns, and is decided by its live allocations. -/
theorem Coherent.unregister_of_active {s : VMAccelAllocator T M} (h : s.Coherent) {p : VMAccelId}
    (hp : s.registeredIds.Active p) :
    s.unregister p = if s.children p = ∅
      then .ok (.success, s.coalesceFreed.withdraw p (s.registeredIds.give p.toNat))
      else .ok (.fail, s) := by
  have hlt : p.toNat < s.refCount.length :=
    Nat.lt_of_lt_of_le (BitVec.lt_def.mp hp.1) h.base.length_refCount
  have hc := List.getElem?_eq_getElem hlt
  have hzero := h.refCount_eq_zero hc
  have hrel : s.coalesceFreed.registeredIds.releaseId p = .ok (s.registeredIds.give p.toNat) :=
    releaseId_of_active hp
  simp only [unregister, readAt_ok.mpr hc, ok_bind]
  by_cases hempty : s.children p = ∅
  · rw [if_neg (not_not.mpr (hzero.mpr hempty)), hrel, if_pos hempty]
    rfl
  · rw [if_pos fun h0 => hempty (hzero.mp h0), if_neg hempty]
    rfl

/-- `Register` hands out `p`. -/
def HandsOut (p : VMAccelId) (s : VMAccelAllocator T M) : Call T → Prop
  | .register a => ∃ t, s.register a = .ok (⟨p, .success⟩, t)
  | _ => False

/-- A resource that is not registered is reachable by no call. -/
def Unreachable (s : VMAccelAllocator T M) (p : VMAccelId) : Prop :=
  (∀ e ∈ M.bag s.freeSet, e.parentId ≠ p) ∧ s.children p = ∅ ∧
    ∀ a, ∃ r, s.alloc p a = .ok r ∧ r.1.1.status ≠ .success

theorem Coherent.unreachable {s : VMAccelAllocator T M} (h : s.Coherent)
    (haddr : s.registeredIds.Addressable) {p : VMAccelId} (hp : ¬ s.registeredIds.Active p) :
    s.Unreachable p := by
  refine ⟨fun e he hep => hp (hep ▸ h.base.pool_parent e he), h.children_eq_empty hp, fun a => ?_⟩
  obtain ⟨r, hr⟩ := h.returns_alloc haddr p a
  refine ⟨r, hr, ?_⟩
  rcases h.alloc_ok hr with ⟨-, rfl⟩ | ⟨-, ⟨pool, queue, -, rfl⟩ | ⟨k, d, pool, queue, -, -, hfind,
    -⟩⟩
  · exact StatusCode.noConfusion
  · exact StatusCode.noConfusion
  · exact absurd ((h.parented p a).found d (by rw [hfind])).2 hp

theorem Effect.size_registeredIds {deferFree : Bool} {s s' : VMAccelAllocator T M} {c : Call T}
    (he : Effect deferFree s c s') : s'.registeredIds.size = s.registeredIds.size := by
  cases he with
  | withdrawn hids => rcases releaseId_ok hids with ⟨-, rfl⟩ | ⟨-, rfl⟩ <;> rfl
  | _ => rfl

theorem Coherent.not_active {deferFree : Bool} {s s' : VMAccelAllocator T M} {c : Call T}
    {p : VMAccelId} (h : s.Coherent) (hp : ¬ s.registeredIds.Active p) (hc : ¬ HandsOut p s c)
    (hr : s.apply deferFree c = .ok s') : ¬ s'.registeredIds.Active p := by
  have heff := apply_effect h hr
  cases heff with
  | @enrolled a k hfree hk hff =>
    have hlt := hff.lt_size h.base.registeredIds hfree
    obtain ⟨r, hcall, hs⟩ := bind_eq_ok.mp hr
    intro hact
    rcases (active_take hk hlt p).mp hact with hact | hpk
    · exact hp hact
    · rcases register_ok h.base hcall with ⟨h0, -⟩ | ⟨j, -, -, hj, rfl⟩
      · exact hfree h0
      · obtain rfl : j = k := Nat.le_antisymm (hj.le hff.1) (hff.le hj.1)
        have hid : BitVec.ofNat 32 j = p :=
          BitVec.eq_of_toNat_eq ((toNat_ofNat_of_lt_size hlt).trans hpk.symm)
        exact hc ⟨_, hid ▸ hcall⟩
  | withdrawn hids hlive =>
    exact fun hact => hp (((h.coalesceFreed.withdraw rfl hids hlive).2 p).mp hact).1
  | unchanged => exact hp
  | refused => exact hp
  | missed => exact hp
  | granted => exact hp
  | freed => exact hp

/-- Reference counting guards unregistration, in every state either build can reach. -/
theorem unregister_guarded (deferFree : Bool) (M : OrderedMultiset (VMAccelObject T) Resource.cmp)
    (num : ℕ) (cs : List (Call T)) (s : VMAccelAllocator T M)
    (hrun : run (apply deferFree) (new M num) cs = .ok s) :
    (∀ (p : VMAccelId) (c : BitVec 32), s.refCount[p.toNat]? = some c →
      c.toNat = (s.children p).card) ∧
    ∀ p, s.registeredIds.Active p → ∃ status t, s.unregister p = .ok (status, t) ∧
      (status = .fail ∨ status = .success) ∧ (status = .fail ↔ (s.children p).Nonempty) ∧
      (status = .success → ∀ cs' u,
        EachInput (apply deferFree) (fun v c => ¬ HandsOut p v c) t cs' →
        run (apply deferFree) t cs' = .ok u → u.Unreachable p) := by
  have h := coherent_of_run hrun
  refine ⟨fun p c => h.refCount_toNat, fun p hp => ?_⟩
  have hunreg := h.unregister_of_active hp
  by_cases hempty : s.children p = ∅
  · rw [if_pos hempty] at hunreg
    refine ⟨_, _, hunreg, Or.inr rfl, iff_of_false StatusCode.noConfusion
      (Finset.not_nonempty_iff_eq_empty.mpr hempty), fun _ cs' u hcs' hrun' => ?_⟩
    have heff : Effect deferFree s (.unregister p)
        (s.coalesceFreed.withdraw p (s.registeredIds.give p.toNat)) :=
      apply_effect h (c := .unregister p) (by rw [apply, hunreg]; rfl)
    have haddr := addressable_of_index (bit_lt_length hp.2)
    -- From here on `p` is not active, and the databases keep their size.
    obtain ⟨hcoh, hsize, hnot⟩ := run_invariant
      (I := fun v : VMAccelAllocator T M => v.Coherent ∧
        v.registeredIds.size = s.registeredIds.size ∧ ¬ v.registeredIds.Active p)
      (fun v c v' hv hc hr => ⟨hv.1.effect (apply_effect hv.1 hr),
        (apply_effect hv.1 hr).size_registeredIds.trans hv.2.1, hv.1.not_active hv.2.2 hc hr⟩)
      ⟨h.effect heff, heff.size_registeredIds, fun hact =>
        (((active_give (bit_lt_length hp.2) p).mp hact).2 rfl)⟩ hcs' hrun'
    exact hcoh.unreachable (by rw [Addressable, hsize]; exact haddr) hnot
  · rw [if_neg hempty] at hunreg
    exact ⟨_, _, hunreg, Or.inl rfl, iff_of_true rfl (Finset.nonempty_iff_ne_empty.mpr hempty),
      StatusCode.noConfusion⟩

theorem unregister_guarded_demo :
    ∃ s, run (apply false) (new (SearchTree.multiset (Resource.cmp (T := AllocInt))) 2)
        [.register ⟨5⟩, .alloc 0 ⟨2⟩] = .ok s ∧ (s.children 0).card = 1 ∧
      ∃ t, s.unregister 0 = .ok (.fail, t) := by
  have hreach : ∃ s, run (apply false) (new (SearchTree.multiset (Resource.cmp (T := AllocInt))) 2)
      [.register ⟨5⟩, .alloc 0 ⟨2⟩] = .ok s ∧ s.registeredIds.Active 0 ∧
        (s.children 0).card = 1 := by decide +kernel
  obtain ⟨s, hrun, hact, hcard⟩ := hreach
  obtain ⟨status, t, ht, -, hfail, -⟩ := (unregister_guarded false _ 2 _ s hrun).2 0 hact
  have hne : (s.children 0).Nonempty := Finset.card_pos.mp (by omega)
  exact ⟨s, hrun, hcard, t, hfail.mpr hne ▸ ht⟩

structure SameTables (s t : VMAccelAllocator T M) : Prop where
  freeSet : t.freeSet = s.freeSet
  capacity : t.capacity = s.capacity
  load : t.load = s.load
  refCount : t.refCount = s.refCount
  registeredIds : t.registeredIds = s.registeredIds
  externalIds : t.externalIds = s.externalIds

/-- The call returns, and if its identifier is not in use, it reports an error and leaves the
tables alone. -/
def Survives (s : VMAccelAllocator T M) (inUse : Prop)
    (call : Except Fault (StatusCode × VMAccelAllocator T M)) : Prop :=
  ∃ status t, call = .ok (status, t) ∧ (¬ inUse → status ≠ .success ∧ s.SameTables t)

/-- In every state either build can reach, `Unregister` survives exactly the registered
identifiers and `Free` exactly the allocated ones. -/
theorem survives_iff_in_use (deferFree : Bool)
    (M : OrderedMultiset (VMAccelObject T) Resource.cmp) (num : ℕ) (cs : List (Call T))
    (s : VMAccelAllocator T M) (hrun : run (apply deferFree) (new M num) cs = .ok s)
    (id : VMAccelId) :
    (s.Survives (s.registeredIds.Active id) (s.unregister id) ↔ s.registeredIds.Active id) ∧
      (s.Survives (s.externalIds.Active id) (s.free deferFree id) ↔ s.externalIds.Active id) := by
  have h := coherent_of_run hrun
  refine ⟨⟨?_, fun hact => ?_⟩, ?_, fun hact => ?_⟩
  · rintro ⟨status, t, hcall, herr⟩
    by_contra hact
    rcases unregister_coalesces h.base hcall with ⟨hne, -⟩ | ⟨ids, -, -, heq⟩
    · obtain ⟨c, hc, -⟩ := bind_eq_ok.mp hcall
      have hzero := (h.refCount_eq_zero (readAt_ok.mp hc)).mpr (h.children_eq_empty hact)
      exact hne (hzero ▸ readAt_ok.mp hc)
    · exact (herr hact).1 (congrArg Prod.fst heq)
  · have hunreg := h.unregister_of_active hact
    by_cases hempty : s.children id = ∅
    · rw [if_pos hempty] at hunreg
      exact ⟨_, _, hunreg, absurd hact⟩
    · rw [if_neg hempty] at hunreg
      exact ⟨_, _, hunreg, absurd hact⟩
  · rintro ⟨status, t, hcall, -⟩
    exact free_active hcall
  · exact ⟨_, _, free_stocks h.base deferFree hact, absurd hact⟩

theorem survives_iff_in_use_demo :
    ∃ s, run (apply false) (new (SearchTree.multiset (Resource.cmp (T := VMAccelDesc))) 1)
        [.register .zero] = .ok s ∧
      s.Survives (s.registeredIds.Active 0) (s.unregister 0) ∧
      ¬ s.Survives (s.externalIds.Active 0) (s.free false 0) := by
  have hreach : ∃ s,
      run (apply false) (new (SearchTree.multiset (Resource.cmp (T := VMAccelDesc))) 1)
        [.register .zero] = .ok s ∧ s.registeredIds.Active 0 ∧ ¬ s.externalIds.Active 0 := by
    decide +kernel
  obtain ⟨s, hrun, hreg, hext⟩ := hreach
  obtain ⟨hunreg, hfree⟩ := survives_iff_in_use false _ 1 _ s hrun 0
  exact ⟨s, hrun, hunreg.mpr hreg, fun hs => hext (hfree.mp hs)⟩

/-- A new manager of one slot: an identifier beyond the vector, one that was never registered, and
one that was never allocated. -/
theorem unused_ids_fault :
    let s := new (SearchTree.multiset (Resource.cmp (T := VMAccelDesc))) 1
    (¬ s.registeredIds.Active 5 ∧ s.unregister 5 = .error .outOfBounds) ∧
      (¬ s.registeredIds.Active 0 ∧ s.unregister 0 = .error .assertion) ∧
      ¬ s.externalIds.Active 0 ∧ s.free false 0 = .error .assertion :=
  ⟨⟨by decide, rfl⟩, ⟨by decide, rfl⟩, by decide, rfl⟩

end VMAccel.VMAccelAllocator
