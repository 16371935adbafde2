import VMAccel.ManagerSound

/-!
# Who may give a reservation back

A context may send a free request only for an identifier that the manager granted to it and that
was not given back since. The manager answers a refused request with the identifier of its last
grant, and the context does not look at the status, so this holds exactly in the runs in which no
context goes on from a refused reply.
-/

namespace VMAccel.Site

open StepSystem IdentifierDB VMAccelAllocator

variable {M : OrderedMultiset (VMAccelObject VMAccelDesc) Resource.cmp}

/-- The free request that an action sends, if any, names an identifier that its sender holds, and
the manager takes it without a failed assertion. -/
def FreesHeld (s : Site M) (a : Action) : Prop :=
  ∀ c id, s.freeRequest a = some (c, id) →
    s.holder id = some c ∧ ∃ r, s.manager.free false id = .ok r

theorem Sound.freesHeld {s : Site M} (h : s.Sound) {a : Action} (hg : s.ActsOnGrant a) :
    s.FreesHeld a := by
  intro c id hreq
  obtain ⟨turn, ht, hmap⟩ := Option.bind_eq_some_iff.mp hreq
  obtain ⟨c', id', hheld, rfl | rfl | rfl⟩ := h.clientTurn_cases hg ht
  · cases hmap
  · obtain ⟨rfl, rfl⟩ : c' = c ∧ id' = id := by simpa using hmap
    exact ⟨hheld, _, free_of_active h.manager (h.active _ _ hheld)⟩
  · cases hmap

/-- The reply to a refused request has no address, so a context that goes on from it sends a free
request, and it holds nothing. -/
theorem Sound.actsOnGrant {s : Site M} (h : s.Sound) {a : Action} (hf : s.FreesHeld a) :
    s.ActsOnGrant a := by
  rintro c outcome ret rfl hc
  have hacc := h.accounts c
  rw [hc] at hacc
  rcases hacc with ⟨hs, -⟩ | ⟨-, hzero, hnone⟩
  · exact hs
  · have hreq : s.freeRequest (.construct c outcome) = some (c, ret.id) := by
      have hturn : clcontextAlloc ret outcome = (.gone, some ret.id) := by
        unfold clcontextAlloc
        rw [hzero]
        rfl
      simp [freeRequest, clientTurn, hc, hturn]
    exact absurd (hf c ret.id hreq).1 (hnone ret.id)

/-- The manager can grant what an action asks for: it has an identifier left, and the element of
the free set that `Alloc` looks at yields the reservation. -/
def Grantable (s : Site M) (a : Action) : Prop :=
  ∀ c megaFlops, a = .alloc c megaFlops → s.manager.externalIds.free ≠ 0 ∧
    tryReserve s.manager.freeSet (.of 0 (clcontextRequest megaFlops)) ≠ none

def NoneRefused (s : Site M) : Prop :=
  ∀ c ret, s.contexts c = .replied ret → ret.status = .success

theorem NoneRefused.update {s t : Site M} (h : s.NoneRefused) {c : ℕ} {phase : Phase}
    (ht : t.contexts = Function.update s.contexts c phase)
    (hphase : ∀ ret, phase = .replied ret → ret.status = .success) : t.NoneRefused := by
  intro c' ret hret
  rw [ht] at hret
  by_cases heq : c' = c
  · subst heq
    rw [Function.update_self] at hret
    exact hphase ret hret
  · rw [Function.update_of_ne heq] at hret
    exact h c' ret hret

theorem NoneRefused.actsOnGrant {s : Site M} (h : s.NoneRefused) (a : Action) :
    s.ActsOnGrant a := fun c _ ret _ hc => h c ret hc

theorem NoneRefused.takeTurn {s t : Site M} (hs : s.Sound) (h : s.NoneRefused) {a : Action}
    (hr : s.takeTurn (s.clientTurn a) = .ok t) : t.NoneRefused := by
  cases ht : s.clientTurn a with
  | none =>
    rw [ht] at hr
    cases hr
    exact h
  | some turn =>
    rw [ht] at hr
    obtain ⟨c, id, hheld, rfl | rfl | rfl⟩ := hs.clientTurn_cases (h.actsOnGrant a) ht
    · cases hr
      exact h.update rfl fun _ hphase => by cases hphase
    · obtain ⟨u, hu, hr⟩ := bind_eq_ok.mp hr
      obtain ⟨r, -, hu⟩ := bind_eq_ok.mp hu
      cases hu
      cases hr
      exact h.update rfl fun _ hphase => by cases hphase
    · cases hr
      exact h.update rfl fun _ hphase => by cases hphase

theorem NoneRefused.step {s t : Site M} (hs : s.Sound) (h : s.NoneRefused) {a : Action}
    (hg : s.Grantable a) (hr : s.step a = .ok t) : t.NoneRefused := by
  cases a with
  | register desc =>
    obtain ⟨r, hcall, hr⟩ := bind_eq_ok.mp hr
    cases hr
    exact h
  | unregister id =>
    obtain ⟨r, hcall, hr⟩ := bind_eq_ok.mp hr
    cases hr
    exact h
  | alloc c megaFlops =>
    obtain ⟨hids, hfits⟩ := hg c megaFlops rfl
    rcases step_alloc_ok hr with rfl | ⟨-, q, hq, rfl⟩
    · exact h
    · refine h.update rfl ?_
      rintro ret ⟨⟩
      rcases alloc_ok hs.manager hq with ⟨hfree, -⟩ | ⟨-, hnone, -⟩ | ⟨k, d, pool, -, -, -, -, rfl⟩
      · exact absurd hfree hids
      · exact absurd hnone hfits
      · rfl
  | construct c outcome => exact h.takeTurn hs hr
  | destroy c => exact h.takeTurn hs hr

theorem act_on_grant_of_grantable {as : List Action}
    (hg : EachInput Site.step Grantable (powerOn M) as) :
    EachInput Site.step ActsOnGrant (powerOn M) as := by
  refine eachInput_of_invariant (I := fun s : Site M => s.Sound ∧ s.NoneRefused)
    (fun _ a h _ => h.2.actsOnGrant a) ?_ ⟨sound_powerOn, fun _ _ hc => by cases hc⟩ hg
  rintro s a t ⟨hs, h⟩ hga hr
  exact ⟨hs.step (h.actsOnGrant a) hr, h.step hs hga hr⟩

/-- From power-on and for any number of contexts, every free request of a run names an identifier
that its sender holds, and passes the assertion of `Free`, exactly when no context of the run goes
on with its construction from a refused reply. -/
theorem frees_held_iff_act_on_grant
    (M : OrderedMultiset (VMAccelObject VMAccelDesc) Resource.cmp) (as : List Action) :
    EachInput Site.step FreesHeld (powerOn M) as ↔
      EachInput Site.step ActsOnGrant (powerOn M) as :=
  eachInput_iff (fun _ _ h => ⟨h.actsOnGrant, h.freesHeld⟩) (fun _ _ _ h hg hr => h.step hg hr)
    sound_powerOn

/-- An accelerator at 127.0.0.1 with the given compute capacity. -/
def loopbackDesc (megaFlops : BitVec 32) : VMAccelDesc :=
  { clcontextRequest megaFlops with parentAddr := ⟨[127, 0, 0, 1], 0, 0⟩ }

/-- The second context is refused and gives the reservation of the first one back; the first one
then fails the assertion of `Free` when it is destroyed. -/
theorem refused_context_frees_other :
    (∃ s, run Site.step (powerOn (SearchTree.multiset Resource.cmp))
        [.register (loopbackDesc 4), .alloc 0 3, .construct 0 .created, .alloc 1 3] = .ok s ∧
      s.contexts 0 = .live 0 ∧ s.holder 0 = some 0 ∧
      s.contexts 1 = .replied ⟨0, .resourceUnavailable, .zero⟩ ∧
      s.freeRequest (.construct 1 .created) = some (1, 0)) ∧
    run Site.step (powerOn (SearchTree.multiset Resource.cmp))
      [.register (loopbackDesc 4), .alloc 0 3, .construct 0 .created, .alloc 1 3,
        .construct 1 .created, .destroy 0] = .error .assertion := by
  constructor
  · decide +kernel
  · decide +kernel

end VMAccel.Site
