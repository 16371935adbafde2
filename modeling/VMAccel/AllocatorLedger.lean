import VMAccel.AllocatorCalls

/-!
# The ledger behind the allocator

What the allocator is for, without its tables: a partial map of registered resources, a pool of
free objects and the live objects under their external identifiers, each tagged with its parent.
The vectors, the two identifier databases and the reference counts implement this ledger, and every
call of the immediate-free build that returns is a step of it.
-/

namespace VMAccel

open StepSystem IdentifierDB VMAccelAllocator

variable {T : Type} [Resource T] {M : OrderedMultiset (VMAccelObject T) Resource.cmp}

structure Ledger (T : Type) [Resource T]
    (M : OrderedMultiset (VMAccelObject T) Resource.cmp) where
  registered : VMAccelId → Option T
  pool : M.Carrier
  live : Multiset (VMAccelId × VMAccelObject T)

namespace Ledger

def objects (l : Ledger T M) : Multiset (VMAccelObject T) := l.live.map Prod.snd

theorem objects_of_live {l : Ledger T M} {id : VMAccelId} {o : VMAccelObject T}
    {live : Multiset (VMAccelId × VMAccelObject T)} (h : l.live = (id, o) ::ₘ live) :
    l.objects = o ::ₘ live.map Prod.snd := by
  rw [objects, h, Multiset.map_cons]

structure Closed (l : Ledger T M) : Prop where
  objects : ∀ o ∈ l.objects, l.registered o.parentId ≠ none
  pool : ∀ o ∈ M.bag l.pool, l.registered o.parentId ≠ none

inductive Step (l : Ledger T M) : Call T → Ledger T M → Prop
  | refused (c : Call T) : Step l c l
  | registered {p : VMAccelId} (a : T) (hp : l.registered p = none) :
    Step l (.register a) ⟨Function.update l.registered p (some a),
      (Resource.freeObj M l.pool (.of p a)).2, l.live⟩
  | unregistered {p : VMAccelId} (hlive : ∀ o ∈ l.objects, o.parentId ≠ p) :
    Step l (.unregister p) ⟨Function.update l.registered p none,
      M.eraseIf (fun e => decide (e.parentId = p)) l.pool, l.live⟩
  | granted (id : VMAccelId) {p : VMAccelId} {a d r : T} {i : ℕ} {e : VMAccelObject T}
    (hlookup : lookup l.pool (.of p a) = some (i, e))
    (hreserve : Resource.reserve e.obj a = some (d, r)) :
    Step l (.alloc p a) ⟨l.registered, putBack (M.erase l.pool i) p r, (id, .of p d) ::ₘ l.live⟩
  | freed {id : VMAccelId} {o : VMAccelObject T} {live : Multiset (VMAccelId × VMAccelObject T)}
    (hlive : l.live = (id, o) ::ₘ live) :
    Step l (.free id) ⟨l.registered, (Resource.freeObj M l.pool o).2, live⟩

end Ledger

namespace VMAccelAllocator

/-- The abstraction function. -/
def ledger (s : VMAccelAllocator T M) : Ledger T M where
  registered p := if s.registeredIds.Active p then s.registered[p.toNat]? else none
  pool := s.freeSet
  live := s.entries

theorem ledger_registered_of_not_active {s : VMAccelAllocator T M} {p : VMAccelId}
    (h : ¬ s.registeredIds.Active p) : s.ledger.registered p = none := if_neg h

theorem WellFormed.registered_ne_none {s : VMAccelAllocator T M} (h : s.WellFormed)
    {p : VMAccelId} (hp : s.registeredIds.Active p) : s.ledger.registered p ≠ none := by
  have hlt : p.toNat < s.registeredIds.size.toNat := hp.1
  have hlen := h.length_registered
  change (if s.registeredIds.Active p then _ else _) ≠ none
  rw [if_pos hp, List.getElem?_eq_getElem (by omega)]
  exact Option.some_ne_none _

theorem WellFormed.closed {s : VMAccelAllocator T M} (h : s.WellFormed) : s.ledger.Closed where
  objects o ho := h.registered_ne_none (h.live_parent o ho)
  pool o ho := h.registered_ne_none (h.pool_parent o ho)

theorem WellFormed.ledger_enroll {s : VMAccelAllocator T M} (h : s.WellFormed) {k : ℕ}
    (hk : k / 32 < s.registeredIds.bits.length) (hlt : k < s.registeredIds.size.toNat) (a : T) :
    (s.enroll k a).ledger.registered =
      Function.update s.ledger.registered (BitVec.ofNat 32 k) (some a) := by
  have hnat := toNat_ofNat_of_lt_size hlt
  have hlen := h.length_registered
  funext p
  change (if (s.registeredIds.take k).Active p then (s.registered.set k a)[p.toNat]? else none) = _
  rw [if_congr (active_take hk hlt p) rfl rfl]
  by_cases hp : p = BitVec.ofNat 32 k
  · subst hp
    rw [Function.update_self, hnat, if_pos (Or.inr rfl), List.getElem?_set_self (by omega)]
  · have hne : p.toNat ≠ k := fun he => hp (BitVec.eq_of_toNat_eq (he.trans hnat.symm))
    rw [Function.update_of_ne hp, List.getElem?_set_ne (Ne.symm hne),
      if_congr (or_iff_left hne) rfl rfl]
    rfl

theorem WellFormed.ledger_withdraw {s : VMAccelAllocator T M} {id : VMAccelId}
    {ids : IdentifierDB} (hiff : ∀ p, ids.Active p ↔ s.registeredIds.Active p ∧ p ≠ id) :
    (s.withdraw id ids).ledger.registered = Function.update s.ledger.registered id none := by
  funext p
  change (if ids.Active p then s.registered[p.toNat]? else none) = _
  by_cases hp : p = id
  · subst hp
    rw [Function.update_self, if_neg fun h => ((hiff _).mp h).2 rfl]
  · rw [Function.update_of_ne hp, if_congr ((hiff p).trans (and_iff_left hp)) rfl rfl]
    rfl

theorem apply_refines {s s' : VMAccelAllocator T M} {c : Call T} (h : s.WellFormed)
    (hr : s.apply false c = .ok s') : s'.WellFormed ∧ s.ledger.Step c s'.ledger := by
  cases c with
  | register a =>
    obtain ⟨r, hcall, rfl⟩ := bind_snd_eq_ok.mp hr
    rcases register_ok h.unqueued hcall with ⟨-, rfl⟩ | ⟨k, hfree, hk, hff, rfl⟩
    · exact ⟨h, .refused _⟩
    · have hlt := hff.lt_size h.registeredIds hfree
      have hnone : s.ledger.registered (BitVec.ofNat 32 k) = none := by
        refine ledger_registered_of_not_active fun hact => ?_
        have hbit := hact.2
        rw [toNat_ofNat_of_lt_size hlt, hff.1] at hbit
        cases hbit
      refine ⟨h.enroll hk hff.1 hlt hfree a, ?_⟩
      have hstep := Ledger.Step.registered a hnone
      rwa [← h.ledger_enroll hk hlt a] at hstep
  | unregister id =>
    obtain ⟨r, hcall, rfl⟩ := bind_snd_eq_ok.mp hr
    rcases unregister_ok h hcall with rfl | ⟨ids, hids, hlive, rfl⟩
    · exact ⟨h, .refused _⟩
    · obtain ⟨hwf, hiff⟩ := h.withdraw hids hlive
      refine ⟨hwf, ?_⟩
      have hstep := Ledger.Step.unregistered (l := s.ledger) hlive
      rwa [← WellFormed.ledger_withdraw hiff] at hstep
  | alloc p a =>
    obtain ⟨r, hcall, rfl⟩ := bind_snd_eq_ok.mp hr
    rcases alloc_ok h hcall with ⟨-, rfl⟩ | ⟨-, -, rfl⟩ | ⟨k, d, pool, hfree, hk, hff, htr, rfl⟩
    · exact ⟨h.refuse _, .refused _⟩
    · exact ⟨h.refuse _, .refused _⟩
    · have hlt := hff.lt_size h.externalIds hfree
      obtain ⟨hdp, hact, hpool⟩ := h.tryReserve_active htr
      obtain ⟨i, e, div, rem, hl, hres, rfl, rfl⟩ := tryReserve_eq_some htr
      refine ⟨h.grant hk hff.1 hlt hfree hact hpool, ?_⟩
      have hstep := Ledger.Step.granted (l := s.ledger) (BitVec.ofNat 32 k) hl hres
      rwa [show s.ledger.live = s.entries from rfl,
        ← entries_grant hk hlt h.length_allocated hff.1] at hstep
  | free id =>
    obtain ⟨r, hcall, rfl⟩ := bind_snd_eq_ok.mp hr
    obtain ⟨hact, rfl⟩ := free_ok h hcall
    refine ⟨h.reclaim hact.1 hact.2, .freed (o := s.objectAt id.toNat) ?_⟩
    have hentries := entries_reclaim hact.1 hact.2 (s.objectAt id.toNat)
    rwa [BitVec.ofNat_toNat, BitVec.setWidth_eq] at hentries

theorem run_ledger {I : Ledger T M → Prop} {C : VMAccelAllocator T M → Call T → Prop} {num : ℕ}
    (hinit : I (new M num).ledger)
    (hstep : ∀ s c l', s.WellFormed → I s.ledger → C s c → s.ledger.Step c l' → I l')
    {cs : List (Call T)} {s : VMAccelAllocator T M}
    (hC : EachInput (apply false) C (new M num) cs)
    (hrun : run (apply false) (new M num) cs = .ok s) : s.WellFormed ∧ I s.ledger := by
  refine run_invariant (I := fun s => s.WellFormed ∧ I s.ledger) ?_
    ⟨wellFormed_new num, hinit⟩ hC hrun
  rintro s c s' ⟨hwf, hI⟩ hc hr
  obtain ⟨hwf', hl⟩ := apply_refines hwf hr
  exact ⟨hwf', hstep _ _ _ hwf hI hc hl⟩

theorem wellFormed_of_run {num : ℕ} {cs : List (Call T)} {s : VMAccelAllocator T M}
    (hrun : run (apply false) (new M num) cs = .ok s) : s.WellFormed :=
  (run_ledger (I := fun _ => True) trivial (fun _ _ _ _ _ _ _ => trivial) (eachInput_true _ _)
    hrun).1

theorem not_active_new (num : ℕ) (p : VMAccelId) : ¬ (new M num).registeredIds.Active p :=
  fun h => Bool.false_ne_true ((bit_alloc _ _).symm.trans h.2)

theorem ledger_registered_new (num : ℕ) (p : VMAccelId) :
    (new M num).ledger.registered p = none :=
  ledger_registered_of_not_active (not_active_new num p)

end VMAccelAllocator

end VMAccel
