import VMAccel.AllocatorBuilds
import VMAccel.AllocInt
import VMAccel.AllocRange
import VMAccel.Desc
import Mathlib.Algebra.BigOperators.Group.Multiset.Basic
import Mathlib.Data.BitVec

/-!
# The books of the allocator

`capacity` and `load` are kept by compound assignments of the resource. For ranges and descriptors
these act on the amount, `load` is the sum of the live allocations, and the two vectors add up to
what is registered as long as `Register` finds the entry of the identifier it got at zero: the
entry is never reset, so it still holds what the identifier was registered with before. For
integers the assignments have no effect, and the books are right only while nothing but zero is
registered or granted. All sums are those of the machine integers.
-/

namespace VMAccel.VMAccelAllocator

open StepSystem IdentifierDB

variable {T : Type} [Resource T] {M : OrderedMultiset (VMAccelObject T) Resource.cmp}
  {A : Type} [AddCommGroup A] {amount : T → A}

def entryAt (l : List T) (p : VMAccelId) : T := l[p.toNat]?.getD Resource.zero

section Entries

variable {l : List T} {q : VMAccelId} {i : ℕ}

theorem entryAt_modify (hq : q.toNat = i) (hi : i < l.length) (f : T → T) (p : VMAccelId) :
    entryAt (l.modify i f) p = if q = p then f (entryAt l p) else entryAt l p := by
  unfold entryAt
  split_ifs with hp
  · rw [← hp, hq, List.getElem?_modify_eq, List.getElem?_eq_getElem hi]
    rfl
  · rw [List.getElem?_modify_ne _ _ fun h => hp (BitVec.eq_of_toNat_eq (hq.trans h))]

theorem entryAt_set (hq : q.toNat = i) (hi : i < l.length) (a : T) (p : VMAccelId) :
    entryAt (l.set i a) p = if q = p then a else entryAt l p := by
  unfold entryAt
  split_ifs with hp
  · rw [← hp, hq, List.getElem?_set_self hi]
    rfl
  · rw [List.getElem?_set_ne fun h => hp (BitVec.eq_of_toNat_eq (hq.trans h))]

end Entries

def amountFrom (amount : T → A) (l : Multiset (VMAccelObject T)) (p : VMAccelId) : A :=
  ((l.filter fun o => o.parentId = p).map fun o => amount o.obj).sum

omit [Resource T] in
theorem amountFrom_cons (o : VMAccelObject T) (l : Multiset (VMAccelObject T)) (p : VMAccelId) :
    amountFrom amount (o ::ₘ l) p =
      (if o.parentId = p then amount o.obj else 0) + amountFrom amount l p := by
  unfold amountFrom
  split_ifs with hp
  · rw [Multiset.filter_cons_of_pos l (p := fun o : VMAccelObject T => o.parentId = p) hp,
      Multiset.map_cons, Multiset.sum_cons]
  · rw [Multiset.filter_cons_of_neg l (p := fun o : VMAccelObject T => o.parentId = p) hp, zero_add]

omit [Resource T] in
theorem amountFrom_eq_zero {l : Multiset (VMAccelObject T)} {p : VMAccelId}
    (h : ∀ o ∈ l, o.parentId = p → amount o.obj = 0) : amountFrom amount l p = 0 := by
  refine Multiset.sum_eq_zero fun x hx => ?_
  obtain ⟨o, ho, rfl⟩ := Multiset.mem_map.mp hx
  obtain ⟨hmem, hp⟩ := Multiset.mem_filter.mp ho
  exact h o hmem hp

/-- For every registered resource, `capacity` and `load` add up to what was registered, and `load`
is what the live allocations hold. -/
def Accounted (amount : T → A) (s : VMAccelAllocator T M) : Prop :=
  ∀ p, s.registeredIds.Active p →
    amount (entryAt s.capacity p) + amount (entryAt s.load p) = amount (entryAt s.registered p) ∧
      amount (entryAt s.load p) = amountFrom amount s.live p

/-- Every call of the run that returns leaves the books right. -/
def KeepsAccounts (amount : T → A) (deferFree : Bool) (s : VMAccelAllocator T M)
    (cs : List (Call T)) : Prop :=
  EachInput (apply deferFree) (fun t c => ∀ t', t.apply deferFree c = .ok t' → Accounted amount t')
    s cs

/-- The identifier that `Register` hands out has nothing in its `capacity` entry. -/
def RegistersBlank (amount : T → A) (s : VMAccelAllocator T M) : Call T → Prop
  | .register a => ∀ id t, s.register a = .ok (⟨id, .success⟩, t) →
      amount (entryAt s.capacity id) = 0
  | _ => True

structure Additive (amount : T → A) : Prop where
  zero : amount Resource.zero = 0
  add : ∀ a b, amount (Resource.addAssign a b) = amount a + amount b
  sub : ∀ a b, amount (Resource.subAssign a b) = amount a - amount b

structure Settled (amount : T → A) (s : VMAccelAllocator T M) : Prop where
  load : ∀ p : VMAccelId, p.toNat < s.registeredIds.size.toNat →
    amount (entryAt s.load p) = amountFrom amount s.live p
  sum : ∀ p, s.registeredIds.Active p →
    amount (entryAt s.capacity p) + amount (entryAt s.load p) = amount (entryAt s.registered p)

theorem Settled.accounted {s : VMAccelAllocator T M} (h : s.Settled amount) :
    Accounted amount s := fun p hp => ⟨h.sum p hp, h.load p hp.1⟩

theorem Additive.settled_new (hadd : Additive amount) (num : ℕ) :
    (new M num).Settled amount where
  load p _ := by
    have hlive : (new M num).live = 0 := by rw [live, entries_new]; rfl
    rw [hlive, show (new M num).load = List.replicate num Resource.zero from rfl, entryAt,
      List.getElem?_replicate]
    split_ifs <;> exact hadd.zero
  sum p hp := absurd ((bit_alloc _ _).symm.trans hp.2) Bool.false_ne_true

section Updates

variable {s : VMAccelAllocator T M} {k : ℕ}

theorem Additive.settled_enroll (hadd : Additive amount) (hco : s.Coherent) (h : s.Settled amount)
    (hk : k / 32 < s.registeredIds.bits.length) (hlt : k < s.registeredIds.size.toNat)
    (hbit : s.registeredIds.bit k = false) (a : T) :
    (Accounted amount (s.enroll k a) → amount (entryAt s.capacity (BitVec.ofNat 32 k)) = 0) ∧
      (amount (entryAt s.capacity (BitVec.ofNat 32 k)) = 0 → (s.enroll k a).Settled amount) := by
  have hnat := toNat_ofNat_of_lt_size hlt
  have hcap := entryAt_modify (l := s.capacity) hnat (hlt.trans_le hco.base.length_capacity)
    fun c => Resource.addAssign c a
  have hreg := entryAt_set (l := s.registered) hnat (hlt.trans_le hco.base.length_registered) a
  have hidle : amount (entryAt s.load (BitVec.ofNat 32 k)) = 0 := by
    rw [h.load _ (by rwa [hnat])]
    refine amountFrom_eq_zero fun o ho hop => absurd ?_ (hco.base.idle hbit o ho)
    rw [hop, hnat]
  have hactive : (s.enroll k a).registeredIds.Active (BitVec.ofNat 32 k) :=
    (active_take hk hlt _).mpr (Or.inr hnat)
  refine ⟨fun hacc => ?_, fun hzero => ⟨h.load, fun p hp => ?_⟩⟩
  · have hsum := (hacc _ hactive).1
    change amount (entryAt (s.capacity.modify k _) _) + amount (entryAt s.load _) =
      amount (entryAt (s.registered.set k a) _) at hsum
    rw [hcap, hreg, if_pos rfl, if_pos rfl, hadd.add, hidle, add_zero] at hsum
    exact left_eq_add.mp ((add_comm _ _).trans hsum).symm
  · change amount (entryAt (s.capacity.modify k _) p) + amount (entryAt s.load p) =
      amount (entryAt (s.registered.set k a) p)
    rw [hcap, hreg]
    split_ifs with hpk
    · rw [← hpk, hadd.add, hzero, hidle, zero_add, add_zero]
    · refine h.sum p (((active_take hk hlt p).mp hp).resolve_right fun he => hpk ?_)
      exact BitVec.eq_of_toNat_eq (hnat.trans he.symm)

theorem Additive.settled_grant (hadd : Additive amount) (hco : s.Coherent) (h : s.Settled amount)
    (hk : k / 32 < s.externalIds.bits.length) (hlt : k < s.externalIds.size.toNat)
    (hbit : s.externalIds.bit k = false) {d : VMAccelObject T} (pool : M.Carrier)
    (hd : s.registeredIds.Active d.parentId) : (s.grant k d pool).Settled amount := by
  have hp : d.parentId.toNat < s.registeredIds.size.toNat := hd.1
  have hcap := entryAt_modify (l := s.capacity) rfl (hp.trans_le hco.base.length_capacity)
    fun c => Resource.subAssign c d.obj
  have hload := entryAt_modify (l := s.load) rfl (hp.trans_le hco.base.length_load)
    fun c => Resource.addAssign c d.obj
  refine ⟨fun q hq => ?_, fun q hq => ?_⟩
  · rw [live_grant hk hlt hco.base.length_allocated hbit, amountFrom_cons]
    change amount (entryAt (s.load.modify _ _) q) = _
    rw [hload]
    split_ifs
    · rw [hadd.add, h.load q hq, add_comm]
    · rw [h.load q hq, zero_add]
  · change amount (entryAt (s.capacity.modify _ _) q) + amount (entryAt (s.load.modify _ _) q) =
      amount (entryAt s.registered q)
    rw [hcap, hload, ← h.sum q hq]
    split_ifs
    · rw [hadd.add, hadd.sub, add_comm_sub, add_sub_cancel_right]
    · rfl

theorem Additive.settled_reclaim (hadd : Additive amount) (hco : s.Coherent)
    (h : s.Settled amount) (hlt : k < s.externalIds.size.toNat)
    (hbit : s.externalIds.bit k = true) : (s.reclaim k (s.objectAt k)).Settled amount := by
  have hlive := live_reclaim hlt hbit (s.objectAt k)
  have hp : (s.objectAt k).parentId.toNat < s.registeredIds.size.toNat := by
    refine (hco.base.live_parent (s.objectAt k) ?_).1
    change _ ∈ s.live
    rw [hlive]
    exact Multiset.mem_cons_self _ _
  have hcap := entryAt_modify (l := s.capacity) rfl (hp.trans_le hco.base.length_capacity)
    fun c => Resource.addAssign c (s.objectAt k).obj
  have hload := entryAt_modify (l := s.load) rfl (hp.trans_le hco.base.length_load)
    fun c => Resource.subAssign c (s.objectAt k).obj
  refine ⟨fun q hq => ?_, fun q hq => ?_⟩
  · have hbefore := h.load q hq
    rw [hlive, amountFrom_cons] at hbefore
    change amount (entryAt (s.load.modify _ _) q) = _
    rw [hload]
    split_ifs at hbefore ⊢ with hpq
    · rw [hadd.sub, hbefore, add_sub_cancel_left]
    · rw [hbefore, zero_add]
  · change amount (entryAt (s.capacity.modify _ _) q) + amount (entryAt (s.load.modify _ _) q) =
      amount (entryAt s.registered q)
    rw [hcap, hload, ← h.sum q hq]
    split_ifs
    · rw [hadd.add, hadd.sub, add_add_sub_cancel]
    · rfl

end Updates

theorem Additive.settled_effect (hadd : Additive amount) {deferFree : Bool}
    {s s' : VMAccelAllocator T M} {c : Call T} (hco : s.Coherent) (h : s.Settled amount)
    (he : Effect deferFree s c s') (hc : ∀ a, c ≠ .register a) : s'.Settled amount := by
  cases he with
  | unchanged => exact h
  | enrolled a => exact absurd rfl (hc a)
  | @withdrawn id ids hids hlive =>
    obtain ⟨-, hiff⟩ := hco.coalesceFreed.withdraw rfl hids hlive
    have hsize : ids.size = s.registeredIds.size := by
      rcases releaseId_ok hids with ⟨-, rfl⟩ | ⟨-, rfl⟩ <;> rfl
    exact ⟨fun p hp => h.load p (hsize ▸ hp), fun p hp => h.sum p ((hiff p).mp hp).1⟩
  | refused => exact ⟨h.load, h.sum⟩
  | missed => exact ⟨h.load, h.sum⟩
  | @granted p a k d pool queue hfree hk hff hfind =>
    obtain ⟨hdp, hact⟩ := (hco.parented p a).found d (by rw [hfind])
    have hgrant := hadd.settled_grant hco h hk (hff.lt_size hco.base.externalIds hfree) hff.1 pool
      (hdp.symm ▸ hact)
    exact ⟨hgrant.load, hgrant.sum⟩
  | @freed id hact =>
    have hreclaim := hadd.settled_reclaim hco h hact.1 hact.2
    exact ⟨hreclaim.load, hreclaim.sum⟩

theorem Additive.accounted_iff (hadd : Additive amount) {deferFree : Bool}
    {s : VMAccelAllocator T M} (hco : s.Coherent) (h : s.Settled amount) (c : Call T) :
    ((∀ s', s.apply deferFree c = .ok s' → Accounted amount s') ↔ RegistersBlank amount s c) ∧
      (RegistersBlank amount s c → ∀ s', s.apply deferFree c = .ok s' → s'.Settled amount) := by
  by_cases hreg : ∃ a, c = .register a
  · obtain ⟨a, rfl⟩ := hreg
    have hsettled : RegistersBlank amount s (.register a) →
        ∀ s', s.apply deferFree (.register a) = .ok s' → s'.Settled amount := by
      intro hblank s' hs
      obtain ⟨r, hr, rfl⟩ := bind_snd_eq_ok.mp hs
      rcases register_ok hco.base hr with ⟨-, rfl⟩ | ⟨k, hfree, hk, hff, rfl⟩
      · exact h
      · have hlt := hff.lt_size hco.base.registeredIds hfree
        exact (hadd.settled_enroll hco h hk hlt hff.1 a).2 (hblank _ _ hr)
    refine ⟨⟨fun hacc id t hr => ?_, fun hblank s' hs => (hsettled hblank s' hs).accounted⟩,
      hsettled⟩
    rcases register_ok hco.base hr with ⟨-, heq⟩ | ⟨k, hfree, hk, hff, heq⟩
    · cases heq
    · cases heq
      have hlt := hff.lt_size hco.base.registeredIds hfree
      exact (hadd.settled_enroll hco h hk hlt hff.1 a).1 (hacc _ (by rw [apply, hr]; rfl))
  · have hkeep : ∀ s', s.apply deferFree c = .ok s' → s'.Settled amount := fun s' hs =>
      hadd.settled_effect hco h (apply_effect hco hs) fun a ha => hreg ⟨a, ha⟩
    have hblank : RegistersBlank amount s c := by
      cases c with
      | register a => exact absurd ⟨a, rfl⟩ hreg
      | _ => trivial
    exact ⟨iff_of_true (fun s' hs => (hkeep s' hs).accounted) hblank, fun _ => hkeep⟩

theorem Additive.keeps_iff_registersBlank (hadd : Additive amount) (deferFree : Bool) (num : ℕ)
    (cs : List (Call T)) : KeepsAccounts amount deferFree (new M num) cs ↔
      EachInput (apply deferFree) (RegistersBlank amount) (new M num) cs :=
  eachInput_iff (I := fun s : VMAccelAllocator T M => s.Coherent ∧ s.Settled amount)
    (fun _ c h => (hadd.accounted_iff h.1 h.2 c).1)
    (fun _ c s' h hc hs => ⟨h.1.effect (apply_effect h.1 hs),
      (hadd.accounted_iff h.1 h.2 c).2 hc s' hs⟩)
    ⟨coherent_new num, hadd.settled_new num⟩

section Integers

variable {M : OrderedMultiset (VMAccelObject AllocInt) Resource.cmp}
  {s : VMAccelAllocator AllocInt M}

/-- Nothing but zero is registered or granted. -/
def MovesNothing (s : VMAccelAllocator AllocInt M) : Call AllocInt → Prop
  | .register a => ∀ id t, s.register a = .ok (⟨id, .success⟩, t) → a.x = 0
  | .alloc p a => ∀ id d t, s.alloc p a = .ok ((⟨id, .success⟩, d), t) → a.x = 0
  | _ => True

structure Still (s : VMAccelAllocator AllocInt M) : Prop where
  capacity : ∀ p, (entryAt s.capacity p).x = 0
  load : ∀ p, (entryAt s.load p).x = 0
  registered : ∀ p, s.registeredIds.Active p → (entryAt s.registered p).x = 0
  live : ∀ o ∈ s.live, o.obj.x = 0

theorem Still.accounted (h : s.Still) : Accounted AllocInt.x s := by
  intro p hp
  rw [h.capacity, h.load, h.registered p hp, amountFrom_eq_zero fun o ho _ => h.live o ho]
  exact ⟨add_zero 0, rfl⟩

theorem still_new (num : ℕ) : (new M num).Still := by
  have hentry : ∀ p, (entryAt (List.replicate num (Resource.zero (T := AllocInt))) p).x = 0 := by
    intro p
    rw [entryAt, List.getElem?_replicate]
    split_ifs <;> rfl
  refine ⟨hentry, hentry, fun p hp => ?_, fun o ho => ?_⟩
  · exact absurd ((bit_alloc _ _).symm.trans hp.2) Bool.false_ne_true
  · rw [live, entries_new] at ho
    exact absurd ho (Multiset.notMem_zero o)

theorem reserve_x {e a d r : AllocInt} (h : Resource.reserve e a = some (d, r)) : d.x = a.x := by
  change (if e.x.slt a.x then none else some ((⟨a.x⟩, ⟨e.x - a.x⟩) : AllocInt × AllocInt)) = _ at h
  split_ifs at h
  cases h
  rfl

theorem capacity_enroll (k : ℕ) (a : AllocInt) : (s.enroll k a).capacity = s.capacity :=
  List.modify_id k s.capacity

theorem Still.enroll (hco : s.Coherent) (h : s.Still) {k : ℕ}
    (hk : k / 32 < s.registeredIds.bits.length) (hlt : k < s.registeredIds.size.toNat)
    (a : AllocInt) :
    (Accounted AllocInt.x (s.enroll k a) → a.x = 0) ∧ (a.x = 0 → (s.enroll k a).Still) := by
  have hnat := toNat_ofNat_of_lt_size hlt
  have hreg := entryAt_set (l := s.registered) hnat (hlt.trans_le hco.base.length_registered) a
  refine ⟨fun hacc => ?_, fun hzero => ⟨?_, h.load, fun p hp => ?_, h.live⟩⟩
  · have hsum := (hacc _ ((active_take hk hlt _).mpr (Or.inr hnat))).1
    rw [capacity_enroll, h.capacity] at hsum
    change 0 + (entryAt s.load _).x = (entryAt (s.registered.set k a) _).x at hsum
    rw [h.load, hreg, if_pos rfl] at hsum
    exact hsum.symm
  · rw [capacity_enroll]
    exact h.capacity
  · change (entryAt (s.registered.set k a) p).x = 0
    rw [hreg]
    split_ifs with hpk
    · exact hzero
    · refine h.registered p (((active_take hk hlt p).mp hp).resolve_right fun he => hpk ?_)
      exact BitVec.eq_of_toNat_eq (hnat.trans he.symm)

theorem Still.grant (hco : s.Coherent) (h : s.Still) {k : ℕ}
    (hk : k / 32 < s.externalIds.bits.length) (hlt : k < s.externalIds.size.toNat)
    (hbit : s.externalIds.bit k = false) {d : VMAccelObject AllocInt} (pool : M.Carrier)
    (hd : s.registeredIds.Active d.parentId) :
    (Accounted AllocInt.x (s.grant k d pool) → d.obj.x = 0) ∧
      (d.obj.x = 0 → (s.grant k d pool).Still) := by
  have hcap : (s.grant k d pool).capacity = s.capacity := List.modify_id _ s.capacity
  have hload : (s.grant k d pool).load = s.load := List.modify_id _ s.load
  have hlive := live_grant hk hlt hco.base.length_allocated hbit d pool
  refine ⟨fun hacc => ?_, fun hzero => ⟨hcap ▸ h.capacity, hload ▸ h.load, h.registered, ?_⟩⟩
  · have hsum := (hacc d.parentId hd).2
    rw [hload, h.load, hlive, amountFrom_cons, if_pos rfl,
      amountFrom_eq_zero fun o ho _ => h.live o ho, add_zero] at hsum
    exact hsum.symm
  · intro o ho
    rw [hlive, Multiset.mem_cons] at ho
    rcases ho with rfl | ho
    · exact hzero
    · exact h.live o ho

def Decides (deferFree : Bool) (s : VMAccelAllocator AllocInt M) (c : Call AllocInt) : Prop :=
  (s.MovesNothing c → ∀ s', s.apply deferFree c = .ok s' → s'.Still) ∧
    ((∀ s', s.apply deferFree c = .ok s' → Accounted AllocInt.x s') → s.MovesNothing c)

theorem Still.register {deferFree : Bool} (hco : s.Coherent) (h : s.Still) (a : AllocInt) :
    Decides deferFree s (.register a) := by
  refine ⟨fun hc s' hs => ?_, fun hacc id t hr => ?_⟩
  · obtain ⟨r, hr, rfl⟩ := bind_snd_eq_ok.mp hs
    rcases register_ok hco.base hr with ⟨-, rfl⟩ | ⟨k, hfree, hk, hff, rfl⟩
    · exact h
    · have hlt := hff.lt_size hco.base.registeredIds hfree
      exact (h.enroll hco hk hlt a).2 (hc _ _ hr)
  · rcases register_ok hco.base hr with ⟨-, heq⟩ | ⟨k, hfree, hk, hff, heq⟩
    · cases heq
    · cases heq
      have hlt := hff.lt_size hco.base.registeredIds hfree
      exact (h.enroll hco hk hlt a).1 (hacc _ (by rw [apply, hr]; rfl))

theorem Still.alloc {deferFree : Bool} (hco : s.Coherent) (h : s.Still) (p : VMAccelId)
    (a : AllocInt) : Decides deferFree s (.alloc p a) := by
  have hgrant : ∀ {k d pool queue}, s.externalIds.free ≠ 0 →
      k / 32 < s.externalIds.bits.length → s.externalIds.FirstFree k →
      s.findFree (.of p a) = (some d, pool, queue) → d.obj.x = a.x ∧
        (Accounted AllocInt.x (s.grant k d pool) → d.obj.x = 0) ∧
        (d.obj.x = 0 → (s.grant k d pool).Still) := by
    intro k d pool queue hfree hk hff hfind
    obtain ⟨e, r, hres⟩ := findFree_reserves hfind
    obtain ⟨hdp, hact⟩ := (hco.parented p a).found d (by rw [hfind])
    exact ⟨reserve_x hres, h.grant hco hk (hff.lt_size hco.base.externalIds hfree) hff.1 pool
      (hdp.symm ▸ hact)⟩
  refine ⟨fun hc s' hs => ?_, fun hacc id d t hr => ?_⟩
  · obtain ⟨r, hr, rfl⟩ := bind_snd_eq_ok.mp hs
    rcases hco.alloc_ok hr with ⟨-, rfl⟩ | ⟨hfree, ⟨pool, queue, -, rfl⟩ |
      ⟨k, d, pool, queue, hk, hff, hfind, rfl⟩⟩
    · exact ⟨h.capacity, h.load, h.registered, h.live⟩
    · exact ⟨h.capacity, h.load, h.registered, h.live⟩
    · obtain ⟨hx, -, hstill⟩ := hgrant hfree hk hff hfind
      have hs := hstill (hx.trans (hc _ _ _ hr))
      exact ⟨hs.capacity, hs.load, hs.registered, hs.live⟩
  · have hacc' := hacc t (by rw [apply, hr]; rfl)
    rcases hco.alloc_ok hr with ⟨-, heq⟩ | ⟨hfree, ⟨pool, queue, -, heq⟩ |
      ⟨k, d, pool, queue, hk, hff, hfind, heq⟩⟩
    · cases heq
    · cases heq
    · cases heq
      obtain ⟨hx, hzero, -⟩ := hgrant hfree hk hff hfind
      exact hx.symm.trans (hzero hacc')

theorem Still.unregister {deferFree : Bool} (hco : s.Coherent) (h : s.Still) (id : VMAccelId) :
    Decides deferFree s (.unregister id) := by
  refine ⟨fun _ s' hs => ?_, fun _ => trivial⟩
  cases apply_effect hco hs with
  | unchanged => exact h
  | withdrawn hids hlive =>
    obtain ⟨-, hiff⟩ := hco.coalesceFreed.withdraw rfl hids hlive
    exact ⟨h.capacity, h.load, fun p hp => h.registered p ((hiff p).mp hp).1, h.live⟩

theorem Still.free {deferFree : Bool} (hco : s.Coherent) (h : s.Still) (id : VMAccelId) :
    Decides deferFree s (.free id) := by
  refine ⟨fun _ s' hs => ?_, fun _ => trivial⟩
  cases apply_effect hco hs with
  | unchanged => exact h
  | freed hact =>
    have hmodify : ∀ (l : List AllocInt) (i : ℕ), l.modify i (fun c => c) = l :=
      fun l i => List.modify_id i l
    refine ⟨fun p => ?_, fun p => ?_, h.registered, fun o ho => h.live o ?_⟩
    · change (entryAt (s.capacity.modify _ fun c => c) p).x = 0
      rw [hmodify, h.capacity]
    · change (entryAt (s.load.modify _ fun c => c) p).x = 0
      rw [hmodify, h.load]
    · rw [live_reclaim hact.1 hact.2 (s.objectAt id.toNat)]
      exact Multiset.mem_cons_of_mem ho

theorem Still.decides {deferFree : Bool} (hco : s.Coherent) (h : s.Still) :
    (c : Call AllocInt) → Decides deferFree s c
  | .register a => h.register hco a
  | .unregister id => h.unregister hco id
  | .alloc p a => h.alloc hco p a
  | .free id => h.free hco id

end Integers

theorem additive_size : Additive AllocRange.size := ⟨rfl, fun _ _ => rfl, fun _ _ => rfl⟩

theorem additive_comp : Additive fun d : VMAccelDesc => d.capacity.comp where
  zero := funext fun dim => by cases dim <;> rfl
  add a b := funext fun dim => VMAccelWorkloadDesc.comp_add a.capacity b.capacity dim
  sub a b := funext fun dim => VMAccelWorkloadDesc.comp_sub a.capacity b.capacity dim

/-- When the books of the three allocators are right after every call, in either build. -/
theorem keepsAccounts_iff (deferFree : Bool) (num : ℕ) :
    (∀ (M : OrderedMultiset (VMAccelObject AllocInt) Resource.cmp) cs,
      KeepsAccounts AllocInt.x deferFree (new M num) cs ↔
        EachInput (apply deferFree) MovesNothing (new M num) cs) ∧
    (∀ (M : OrderedMultiset (VMAccelObject AllocRange) Resource.cmp) cs,
      KeepsAccounts AllocRange.size deferFree (new M num) cs ↔
        EachInput (apply deferFree) (RegistersBlank AllocRange.size) (new M num) cs) ∧
    ∀ (M : OrderedMultiset (VMAccelObject VMAccelDesc) Resource.cmp) cs,
      KeepsAccounts (fun d => d.capacity.comp) deferFree (new M num) cs ↔
        EachInput (apply deferFree) (RegistersBlank fun d => d.capacity.comp) (new M num) cs := by
  refine ⟨fun M cs => ?_, fun M => additive_size.keeps_iff_registersBlank deferFree num,
    fun M => additive_comp.keeps_iff_registersBlank deferFree num⟩
  exact eachInput_iff (I := fun s : VMAccelAllocator AllocInt M => s.Coherent ∧ s.Still)
    (fun _ c h => ⟨(h.2.decides h.1 c).2,
      fun hc s' hs => ((h.2.decides h.1 c).1 hc s' hs).accounted⟩)
    (fun _ c s' h hc hs => ⟨h.1.effect (apply_effect h.1 hs), (h.2.decides h.1 c).1 hc s' hs⟩)
    ⟨coherent_new num, still_new num⟩

/-- The capacity of a registered integer stays zero, and a descriptor that is registered again
under its old identifier is counted twice. -/
theorem accounts_diverge :
    (∃ s, run (apply false) (new (SearchTree.multiset (Resource.cmp (T := AllocInt))) 1)
        [.register ⟨5⟩] = .ok s ∧ s.registered = [⟨5⟩] ∧ s.capacity = [⟨0⟩] ∧ s.load = [⟨0⟩] ∧
      ¬ Accounted AllocInt.x s) ∧
    ∃ s, run (apply false) (new (SearchTree.multiset (Resource.cmp (T := VMAccelDesc))) 1)
        [.register { VMAccelDesc.zero with capacity.megaFlops := 4 }, .unregister 0,
          .register { VMAccelDesc.zero with capacity.megaFlops := 4 }] = .ok s ∧
      (entryAt s.capacity 0).capacity.megaFlops = 8 ∧
      (entryAt s.registered 0).capacity.megaFlops = 4 ∧
      ¬ Accounted (fun d => d.capacity.comp) s := by
  have hint : ∃ s, run (apply false) (new (SearchTree.multiset (Resource.cmp (T := AllocInt))) 1)
      [.register ⟨5⟩] = .ok s ∧ s.registeredIds.Active 0 ∧ s.registered = [⟨5⟩] ∧
        s.capacity = [⟨0⟩] ∧ s.load = [⟨0⟩] := by decide +kernel
  have hdesc : ∃ s,
      run (apply false) (new (SearchTree.multiset (Resource.cmp (T := VMAccelDesc))) 1)
      [.register { VMAccelDesc.zero with capacity.megaFlops := 4 }, .unregister 0,
        .register { VMAccelDesc.zero with capacity.megaFlops := 4 }] = .ok s ∧
      s.registeredIds.Active 0 ∧ (entryAt s.capacity 0).capacity.megaFlops = 8 ∧
      (entryAt s.load 0).capacity.megaFlops = 0 ∧
      (entryAt s.registered 0).capacity.megaFlops = 4 := by decide +kernel
  constructor
  · obtain ⟨s, hrun, hact, hreg, hcap, hload⟩ := hint
    refine ⟨s, hrun, hreg, hcap, hload, fun hacc => ?_⟩
    have hsum := (hacc 0 hact).1
    rw [hreg, hcap, hload] at hsum
    exact absurd hsum (by decide)
  · obtain ⟨s, hrun, hact, hcap, hload, hreg⟩ := hdesc
    refine ⟨s, hrun, hcap, hreg, fun hacc => ?_⟩
    have hsum := congrFun (hacc 0 hact).1 .megaFlops
    change (entryAt s.capacity 0).capacity.megaFlops + (entryAt s.load 0).capacity.megaFlops =
      (entryAt s.registered 0).capacity.megaFlops at hsum
    rw [hcap, hload, hreg] at hsum
    exact absurd hsum (by decide)

end VMAccel.VMAccelAllocator
