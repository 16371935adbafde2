import VMAccel.AllocatorCalls
import VMAccel.Manager

/-!
# The identifiers that a context holds

`Sound` relates the phases of the contexts to the identifiers the manager has granted: a context
holds the one its grant or its life rests on, and none after a refusal. It is kept as long as no
context goes on from a refused reply.
-/

namespace VMAccel.Site

open StepSystem IdentifierDB VMAccelAllocator

variable {M : OrderedMultiset (VMAccelObject VMAccelDesc) Resource.cmp}

/-- A context that goes on with its construction has been granted a reservation. -/
def ActsOnGrant (s : Site M) (a : Action) : Prop :=
  ∀ c outcome ret, a = .construct c outcome → s.contexts c = .replied ret → ret.status = .success

def Accounts (holder : VMAccelId → Option ℕ) (c : ℕ) : Phase → Prop
  | .unborn => ∀ id, holder id ≠ some c
  | .replied ret =>
    (ret.status = .success ∧ holder ret.id = some c) ∨
      (ret.status ≠ .success ∧ ret.desc = .zero ∧ ∀ id, holder id ≠ some c)
  | .live accelId => holder accelId = some c
  | .gone => True

theorem Accounts.update {holder : VMAccelId → Option ℕ} {c : ℕ} {phase : Phase}
    (h : Accounts holder c phase) {id : VMAccelId} {v : Option ℕ} (hid : holder id ≠ some c)
    (hv : v ≠ some c) : Accounts (Function.update holder id v) c phase := by
  have hkeep : ∀ i, holder i = some c → Function.update holder id v i = some c := by
    intro i hi
    have hne : i ≠ id := fun he => hid (he ▸ hi)
    rwa [Function.update_of_ne hne]
  have hnone : (∀ i, holder i ≠ some c) → ∀ i, Function.update holder id v i ≠ some c := by
    intro hall i
    by_cases hi : i = id
    · subst hi
      rwa [Function.update_self]
    · rw [Function.update_of_ne hi]
      exact hall i
  cases phase with
  | unborn => exact hnone h
  | replied ret =>
    rcases h with ⟨hs, hheld⟩ | ⟨hs, hzero, hall⟩
    · exact Or.inl ⟨hs, hkeep _ hheld⟩
    · exact Or.inr ⟨hs, hzero, hnone hall⟩
  | live accelId => exact hkeep _ h
  | gone => trivial

structure Sound (s : Site M) : Prop where
  manager : s.manager.WellFormed
  active : ∀ id c, s.holder id = some c → s.manager.externalIds.Active id
  accounts : ∀ c, Accounts s.holder c (s.contexts c)

theorem sound_powerOn : (powerOn M).Sound where
  manager := wellFormed_new _
  active _ _ h := by cases h
  accounts _ _ h := by cases h

theorem clcontextDestroy_cases (accelId : VMAccelId) :
    clcontextDestroy accelId = none ∨ clcontextDestroy accelId = some accelId := by
  unfold clcontextDestroy
  split_ifs
  · exact Or.inr rfl
  · exact Or.inl rfl

theorem clcontextAlloc_cases (ret : VMAccelAllocateReply) (outcome : Outcome) :
    clcontextAlloc ret outcome = (.gone, none) ∨
      clcontextAlloc ret outcome = (.gone, some ret.id) ∨
      clcontextAlloc ret outcome = (.live ret.id, none) := by
  unfold clcontextAlloc
  split
  · exact Or.inr (Or.inl rfl)
  · cases outcome with
    | noClient => exact Or.inl rfl
    | noContext =>
      rcases clcontextDestroy_cases ret.id with hd | hd <;> rw [hd]
      · exact Or.inl rfl
      · exact Or.inr (Or.inl rfl)
    | noQueue =>
      rcases clcontextDestroy_cases ret.id with hd | hd <;> rw [hd]
      · exact Or.inl rfl
      · exact Or.inr (Or.inl rfl)
    | created => exact Or.inr (Or.inr rfl)

/-- A context that is not sitting on a refusal turns on one identifier that it holds: it keeps
quiet about it, gives it back, or lives on it. -/
theorem Sound.clientTurn_cases {s : Site M} (h : s.Sound) {a : Action} (hg : s.ActsOnGrant a)
    {turn : ℕ × Phase × Option VMAccelId} (ht : s.clientTurn a = some turn) :
    ∃ c id, s.holder id = some c ∧
      (turn = (c, .gone, none) ∨ turn = (c, .gone, some id) ∨ turn = (c, .live id, none)) := by
  cases a with
  | register _ => cases ht
  | unregister _ => cases ht
  | alloc _ _ => cases ht
  | construct c outcome =>
    have hacc := h.accounts c
    cases hc : s.contexts c with
    | replied ret =>
      rw [hc] at hacc
      have hheld : s.holder ret.id = some c := by
        rcases hacc with ⟨-, hheld⟩ | ⟨hs, -⟩
        · exact hheld
        · exact absurd (hg c outcome ret rfl hc) hs
      simp only [clientTurn, hc, Option.some.injEq] at ht
      subst ht
      refine ⟨c, ret.id, hheld, ?_⟩
      rcases clcontextAlloc_cases ret outcome with heq | heq | heq <;> simp [heq]
    | unborn => simp [clientTurn, hc] at ht
    | live _ => simp [clientTurn, hc] at ht
    | gone => simp [clientTurn, hc] at ht
  | destroy c =>
    have hacc := h.accounts c
    cases hc : s.contexts c with
    | live accelId =>
      rw [hc] at hacc
      simp only [clientTurn, hc, Option.some.injEq] at ht
      subst ht
      refine ⟨c, accelId, hacc, ?_⟩
      rcases clcontextDestroy_cases accelId with heq | heq <;> simp [heq]
    | unborn => simp [clientTurn, hc] at ht
    | replied _ => simp [clientTurn, hc] at ht
    | gone => simp [clientTurn, hc] at ht

theorem Sound.setPhase {s : Site M} (h : s.Sound) {c : ℕ} {phase : Phase}
    (hc : Accounts s.holder c phase) : (s.setPhase c phase).Sound where
  manager := h.manager
  active := h.active
  accounts c' := by
    change Accounts s.holder c' (Function.update s.contexts c phase c')
    by_cases heq : c' = c
    · subst heq
      rwa [Function.update_self]
    · rw [Function.update_of_ne heq]
      exact h.accounts c'

theorem Sound.release {s : Site M} (h : s.Sound) {c : ℕ} {id : VMAccelId}
    (hgone : s.contexts c = .gone) (hheld : s.holder id = some c) :
    Sound { s with
      manager := s.manager.reclaim id.toNat (s.manager.objectAt id.toNat)
      holder := Function.update s.holder id none } where
  manager := h.manager.reclaim (h.active id c hheld).1 (h.active id c hheld).2
  active id' c' hid' := by
    change Function.update s.holder id none id' = some c' at hid'
    by_cases heq : id' = id
    · rw [heq, Function.update_self] at hid'
      cases hid'
    · rw [Function.update_of_ne heq] at hid'
      have hne : id'.toNat ≠ id.toNat := fun hn => heq (BitVec.eq_of_toNat_eq hn)
      exact (active_give (bit_lt_length (h.active id c hheld).2) id').mpr
        ⟨h.active id' c' hid', hne⟩
  accounts c' := by
    by_cases heq : c' = c
    · subst heq
      change Accounts _ c' (s.contexts c')
      rw [hgone]
      trivial
    · refine (h.accounts c').update ?_ (Option.some_ne_none c').symm
      rw [hheld]
      exact fun hcc => heq (Option.some.inj hcc).symm

theorem Sound.takeTurn {s t : Site M} (h : s.Sound) {a : Action} (hg : s.ActsOnGrant a)
    (hr : s.takeTurn (s.clientTurn a) = .ok t) : t.Sound := by
  cases ht : s.clientTurn a with
  | none =>
    rw [ht] at hr
    cases hr
    exact h
  | some turn =>
    rw [ht] at hr
    obtain ⟨c, id, hheld, rfl | rfl | rfl⟩ := h.clientTurn_cases hg ht
    · cases hr
      exact h.setPhase trivial
    · have hset : (s.setPhase c .gone).Sound := h.setPhase trivial
      have hgone : (s.setPhase c .gone).contexts c = .gone := Function.update_self _ _ _
      have hfree := free_of_active h.manager (h.active id c hheld)
      simp only [Site.takeTurn, managerFree, hfree, ok_bind] at hr
      cases hr
      exact hset.release hgone hheld
    · cases hr
      exact h.setPhase hheld

/-- A successful `Alloc` makes its context the holder of an identifier that nobody held. -/
theorem Sound.lease {s : Site M} (h : s.Sound) {c k : ℕ} {d : VMAccelObject VMAccelDesc}
    {pool : M.Carrier} (hfree : s.manager.externalIds.free ≠ 0)
    (hk : k / 32 < s.manager.externalIds.bits.length) (hff : s.manager.externalIds.FirstFree k)
    {p : VMAccelId} {desc : VMAccelDesc}
    (htr : tryReserve s.manager.freeSet (.of p desc) = some (d, pool)) :
    Sound { manager := s.manager.grant k d pool
            contexts := Function.update s.contexts c
              (.replied ⟨BitVec.ofNat 32 k, .success, d.obj⟩)
            holder := Function.update s.holder (BitVec.ofNat 32 k) (some c) } := by
  have hlt := hff.lt_size h.manager.externalIds hfree
  have hnat := toNat_ofNat_of_lt_size hlt
  have hnobody : s.holder (BitVec.ofNat 32 k) = none := by
    rw [Option.eq_none_iff_forall_ne_some]
    intro c' hc'
    have hbit := (h.active _ _ hc').2
    rw [hnat, hff.1] at hbit
    cases hbit
  obtain ⟨hdp, hact, hpool⟩ := h.manager.tryReserve_active htr
  refine ⟨h.manager.grant hk hff.1 hlt hfree (hdp ▸ hact) hpool, fun id' c' hid' => ?_,
    fun c' => ?_⟩
  · change Function.update s.holder (BitVec.ofNat 32 k) (some c) id' = some c' at hid'
    refine (active_take hk hlt id').mpr ?_
    by_cases heq : id' = BitVec.ofNat 32 k
    · exact Or.inr (heq ▸ hnat)
    · rw [Function.update_of_ne heq] at hid'
      exact Or.inl (h.active id' c' hid')
  · change Accounts (Function.update s.holder _ _) c' (Function.update s.contexts c _ c')
    by_cases heq : c' = c
    · subst heq
      rw [Function.update_self]
      exact Or.inl ⟨rfl, Function.update_self _ _ _⟩
    · rw [Function.update_of_ne heq]
      refine (h.accounts c').update ?_ fun hcc => heq (Option.some.inj hcc).symm
      rw [hnobody]
      exact (Option.some_ne_none c').symm

theorem Sound.refuse {s : Site M} (h : s.Sound) {c : ℕ} (hc : s.contexts c = .unborn)
    {status : StatusCode} (hs : status ≠ .success) (id : VMAccelId) :
    Sound { s with
      manager := s.manager.refuse status
      contexts := Function.update s.contexts c (.replied ⟨id, status, .zero⟩) } := by
  have hnone : ∀ id, s.holder id ≠ some c := by
    have hacc := h.accounts c
    rwa [hc] at hacc
  have hset : (s.setPhase c (.replied ⟨id, status, .zero⟩)).Sound :=
    h.setPhase (Or.inr ⟨hs, rfl, hnone⟩)
  exact ⟨h.manager.refuse status, h.active, hset.accounts⟩

def received (s : Site M) (c : ℕ) (ret : VMAccelAllocateReply)
    (manager : VMAccelAllocator VMAccelDesc M) : Site M where
  manager := manager
  contexts := Function.update s.contexts c (.replied ret)
  holder := if ret.status = .success then Function.update s.holder ret.id (some c) else s.holder

theorem step_alloc_ok {s t : Site M} {c : ℕ} {megaFlops : BitVec 32}
    (hr : s.step (.alloc c megaFlops) = .ok t) :
    t = s ∨ s.contexts c = .unborn ∧ ∃ q, s.manager.alloc 0 (clcontextRequest megaFlops) = .ok q ∧
      t = s.received c ⟨q.1.1.id, q.1.1.status, q.1.2.getD .zero⟩ q.2 := by
  cases hc : s.contexts c with
  | unborn =>
    simp only [step, hc] at hr
    obtain ⟨r, hreply, hr⟩ := bind_eq_ok.mp hr
    obtain ⟨q, hq, hreply⟩ := bind_eq_ok.mp hreply
    cases hreply
    exact Or.inr ⟨rfl, q, hq, (Except.ok.inj hr).symm⟩
  | replied _ =>
    simp only [step, hc] at hr
    exact Or.inl (Except.ok.inj hr).symm
  | live _ =>
    simp only [step, hc] at hr
    exact Or.inl (Except.ok.inj hr).symm
  | gone =>
    simp only [step, hc] at hr
    exact Or.inl (Except.ok.inj hr).symm

theorem Sound.alloc {s t : Site M} (h : s.Sound) {c : ℕ} {megaFlops : BitVec 32}
    (hr : s.step (.alloc c megaFlops) = .ok t) : t.Sound := by
  rcases step_alloc_ok hr with rfl | ⟨hc, q, hq, rfl⟩
  · exact h
  · rcases alloc_ok h.manager hq with
      ⟨-, rfl⟩ | ⟨-, -, rfl⟩ | ⟨k, d, pool, hfree, hk, hff, htr, rfl⟩
    · exact h.refuse hc (by decide) _
    · exact h.refuse hc (by decide) _
    · exact h.lease hfree hk hff htr

theorem Sound.step {s t : Site M} (h : s.Sound) {a : Action} (hg : s.ActsOnGrant a)
    (hr : s.step a = .ok t) : t.Sound := by
  cases a with
  | register desc =>
    obtain ⟨r, hreg, hr⟩ := bind_eq_ok.mp hr
    cases hr
    rcases register_ok h.manager.unqueued hreg with ⟨-, rfl⟩ | ⟨k, hfree, hk, hff, rfl⟩
    · exact h
    · have hlt := hff.lt_size h.manager.registeredIds hfree
      exact ⟨h.manager.enroll hk hff.1 hlt hfree desc, h.active, h.accounts⟩
  | unregister id =>
    obtain ⟨r, hunreg, hr⟩ := bind_eq_ok.mp hr
    cases hr
    rcases unregister_ok h.manager hunreg with rfl | ⟨ids, hids, hlive, rfl⟩
    · exact h
    · exact ⟨(h.manager.withdraw hids hlive).1, h.active, h.accounts⟩
  | alloc c megaFlops => exact h.alloc hr
  | construct c outcome => exact h.takeTurn hg hr
  | destroy c => exact h.takeTurn hg hr

end VMAccel.Site
