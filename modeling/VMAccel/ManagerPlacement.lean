import VMAccel.AllocatorDescent
import VMAccel.ManagerLeases

/-!
# Where a context is sent

The reply to a context carries the descriptor of the reservation, and with it the address of the
accelerator on which the context opens its queues. The address is one that an accelerator has
registered, and as long as the context exists that accelerator stays registered: the reservation
counts as a reference, and only the context gives it back.
-/

namespace VMAccel.Site

open StepSystem IdentifierDB VMAccelAllocator

variable {M : OrderedMultiset (VMAccelObject VMAccelDesc) Resource.cmp} {s t : Site M}

theorem step_manager {a : Action} (hr : s.step a = .ok t) :
    t.manager = s.manager ∨ ∃ call, s.manager.apply false call = .ok t.manager := by
  have hturn : ∀ turn, s.takeTurn turn = .ok t →
      t.manager = s.manager ∨ ∃ call, s.manager.apply false call = .ok t.manager := by
    rintro (_ | ⟨c, phase, _ | id⟩) hr
    · cases hr
      exact Or.inl rfl
    · cases hr
      exact Or.inl rfl
    · obtain ⟨u, hu, hr⟩ := bind_eq_ok.mp hr
      obtain ⟨r, hfree, hu⟩ := bind_eq_ok.mp hu
      cases hu
      cases hr
      exact Or.inr ⟨.free id, bind_snd_eq_ok.mpr ⟨r, hfree, rfl⟩⟩
  cases a with
  | register desc =>
    obtain ⟨r, hcall, hr⟩ := bind_eq_ok.mp hr
    cases hr
    exact Or.inr ⟨.register desc, bind_snd_eq_ok.mpr ⟨r, hcall, rfl⟩⟩
  | unregister id =>
    obtain ⟨r, hcall, hr⟩ := bind_eq_ok.mp hr
    cases hr
    exact Or.inr ⟨.unregister id, bind_snd_eq_ok.mpr ⟨r, hcall, rfl⟩⟩
  | alloc c megaFlops =>
    rcases step_alloc_ok hr with rfl | ⟨-, q, hq, rfl⟩
    · exact Or.inl rfl
    · exact Or.inr ⟨.alloc 0 (clcontextRequest megaFlops), bind_snd_eq_ok.mpr ⟨q, hq, rfl⟩⟩
  | construct c outcome => exact hturn _ hr
  | destroy c => exact hturn _ hr

structure Placed (s : Site M) : Prop where
  coherent : s.manager.Coherent
  inherits : ∀ o, s.manager.Holds o → VMAccelDesc.Inherits s.manager.registered o

theorem placed_powerOn : (powerOn M).Placed where
  coherent := coherent_new _
  inherits o ho := absurd ho (not_holds_new _ o)

theorem Placed.step {a : Action} (h : s.Placed) (hr : s.step a = .ok t) : t.Placed := by
  rcases step_manager hr with heq | ⟨call, hcall⟩
  · exact ⟨heq ▸ h.coherent, heq ▸ h.inherits⟩
  · have he := apply_effect h.coherent hcall
    exact ⟨h.coherent.effect he, VMAccelDesc.descends_inherits.effect h.inherits h.coherent he⟩

theorem objectAt_reclaim_of_ne {m : VMAccelAllocator VMAccelDesc M} {i k : ℕ} (hne : k ≠ i)
    (o : VMAccelObject VMAccelDesc) : (m.reclaim k o).objectAt i = m.objectAt i := by
  change ((m.allocated.set k _)[i]?).getD _ = _
  rw [List.getElem?_set_ne hne]
  rfl

theorem objectAt_grant_of_ne {m : VMAccelAllocator VMAccelDesc M} {i k : ℕ} (hne : k ≠ i)
    (d : VMAccelObject VMAccelDesc) (pool : M.Carrier) :
    (m.grant k d pool).objectAt i = m.objectAt i := by
  change ((m.allocated.set k _)[i]?).getD _ = _
  rw [List.getElem?_set_ne hne]
  rfl

theorem Sound.objectAt_step (h : s.Sound) {a : Action} (hg : s.ActsOnGrant a)
    (hr : s.step a = .ok t) {id : VMAccelId} {c : ℕ} (hid : s.holder id = some c)
    (hid' : t.holder id = some c) :
    t.manager.objectAt id.toNat = s.manager.objectAt id.toNat := by
  have hturn : s.takeTurn (s.clientTurn a) = .ok t →
      t.manager.objectAt id.toNat = s.manager.objectAt id.toNat := by
    intro hr
    cases ht : s.clientTurn a with
    | none =>
      rw [ht] at hr
      cases hr
      rfl
    | some turn =>
      rw [ht] at hr
      obtain ⟨c', k, hheld, rfl | rfl | rfl⟩ := h.clientTurn_cases hg ht
      · cases hr
        rfl
      · have hfree := free_of_active h.manager (h.active k c' hheld)
        simp only [Site.takeTurn, managerFree, hfree, ok_bind] at hr
        cases hr
        refine objectAt_reclaim_of_ne (fun heq => ?_) _
        rw [BitVec.eq_of_toNat_eq heq] at hid'
        change Function.update s.holder id none id = some c at hid'
        rw [Function.update_self] at hid'
        cases hid'
      · cases hr
        rfl
  cases a with
  | register desc =>
    obtain ⟨r, hcall, hr⟩ := bind_eq_ok.mp hr
    cases hr
    rcases register_ok h.manager.unqueued hcall with ⟨-, rfl⟩ | ⟨k, -, -, -, rfl⟩
    · rfl
    · rfl
  | unregister id =>
    obtain ⟨r, hcall, hr⟩ := bind_eq_ok.mp hr
    cases hr
    rcases unregister_ok h.manager hcall with rfl | ⟨ids, -, -, rfl⟩
    · rfl
    · rfl
  | alloc c' megaFlops =>
    rcases step_alloc_ok hr with rfl | ⟨-, q, hq, rfl⟩
    · rfl
    · rcases alloc_ok h.manager hq with ⟨-, rfl⟩ | ⟨-, -, rfl⟩ | ⟨k, d, pool, -, -, hff, -, rfl⟩
      · rfl
      · rfl
      · refine objectAt_grant_of_ne (fun heq => ?_) d pool
        have hbit := (h.active id c hid).2
        rw [← heq, hff.1] at hbit
        cases hbit
  | construct c' outcome => exact hturn hr
  | destroy c' => exact hturn hr

inductive Moves (s t : Site M) (c : ℕ) : Prop
  | stays (h : t.contexts c = s.contexts c)
  | ends (h : t.contexts c = .gone)
  | lives {ret : VMAccelAllocateReply} (h : s.contexts c = .replied ret)
    (h' : t.contexts c = .live ret.id)
  | asks {ret : VMAccelAllocateReply} (h : s.contexts c = .unborn)
    (h' : t.contexts c = .replied ret)
    (hd : ret.status = .success → (t.manager.objectAt ret.id.toNat).obj = ret.desc)

theorem takeTurn_contexts {c : ℕ} {phase : Phase} {request : Option VMAccelId}
    (hr : s.takeTurn (some (c, phase, request)) = .ok t) :
    t.contexts = Function.update s.contexts c phase := by
  cases request with
  | none =>
    cases hr
    rfl
  | some id =>
    obtain ⟨u, hu, hr⟩ := bind_eq_ok.mp hr
    obtain ⟨r, -, hu⟩ := bind_eq_ok.mp hu
    cases hu
    cases hr
    rfl

theorem moves_of_update {c c' : ℕ} {phase : Phase}
    (ht : t.contexts = Function.update s.contexts c' phase)
    (hself : t.contexts c' = phase → Moves s t c') : Moves s t c := by
  by_cases heq : c = c'
  · subst heq
    exact hself (by rw [ht, Function.update_self])
  · exact .stays (by rw [ht, Function.update_of_ne heq])

theorem Sound.moves (h : s.Sound) {a : Action} (hr : s.step a = .ok t) (c : ℕ) : Moves s t c := by
  cases a with
  | register desc =>
    obtain ⟨r, -, hr⟩ := bind_eq_ok.mp hr
    cases hr
    exact .stays rfl
  | unregister id =>
    obtain ⟨r, -, hr⟩ := bind_eq_ok.mp hr
    cases hr
    exact .stays rfl
  | alloc c' megaFlops =>
    rcases step_alloc_ok hr with rfl | ⟨hc, q, hq, rfl⟩
    · exact .stays rfl
    · refine moves_of_update rfl fun hreply => .asks hc hreply fun hok => ?_
      rcases alloc_ok h.manager hq with
        ⟨-, rfl⟩ | ⟨-, -, rfl⟩ | ⟨k, d, pool, hfree, -, hff, -, rfl⟩
      · cases hok
      · cases hok
      · have hlt := hff.lt_size h.manager.externalIds hfree
        change ((s.manager.grant k d pool).objectAt (BitVec.ofNat 32 k).toNat).obj = d.obj
        rw [toNat_ofNat_of_lt_size hlt, objectAt_grant (hlt.trans_le h.manager.length_allocated)]
  | construct c' outcome =>
    cases hc : s.contexts c' with
    | replied ret =>
      simp only [Site.step, clientTurn, hc] at hr
      rcases clcontextAlloc_cases ret outcome with heq | heq | heq <;> rw [heq] at hr
      · exact moves_of_update (takeTurn_contexts hr) .ends
      · exact moves_of_update (takeTurn_contexts hr) .ends
      · exact moves_of_update (takeTurn_contexts hr) (.lives hc)
    | unborn =>
      simp only [Site.step, clientTurn, hc] at hr
      cases hr
      exact .stays rfl
    | live _ =>
      simp only [Site.step, clientTurn, hc] at hr
      cases hr
      exact .stays rfl
    | gone =>
      simp only [Site.step, clientTurn, hc] at hr
      cases hr
      exact .stays rfl
  | destroy c' =>
    cases hc : s.contexts c' with
    | live accelId =>
      simp only [Site.step, clientTurn, hc] at hr
      exact moves_of_update (takeTurn_contexts hr) .ends
    | unborn =>
      simp only [Site.step, clientTurn, hc] at hr
      cases hr
      exact .stays rfl
    | replied _ =>
      simp only [Site.step, clientTurn, hc] at hr
      cases hr
      exact .stays rfl
    | gone =>
      simp only [Site.step, clientTurn, hc] at hr
      cases hr
      exact .stays rfl

/-- The reservation of a reply is still there, and so is the context that has received it. -/
structure Keeps (s : Site M) (c : ℕ) (ret : VMAccelAllocateReply) : Prop where
  phase : s.contexts c = .replied ret ∨ s.contexts c = .live ret.id
  object : (s.manager.objectAt ret.id.toNat).obj = ret.desc

def Delivered (s : Site M) : Prop :=
  ∀ c ret, s.contexts c = .replied ret → ret.status = .success → s.Keeps c ret

section Keeps

variable {c : ℕ} {ret : VMAccelAllocateReply} (hok : ret.status = .success)
include hok

theorem Sound.holder_of_keeps (h : s.Sound)
    (hphase : s.contexts c = .replied ret ∨ s.contexts c = .live ret.id) :
    s.holder ret.id = some c := by
  have hacc := h.accounts c
  rcases hphase with hc | hc
  · rw [hc] at hacc
    rcases hacc with ⟨-, hheld⟩ | ⟨hne, -⟩
    · exact hheld
    · exact absurd hok hne
  · rw [hc] at hacc
    exact hacc

theorem Keeps.step (h : s.Sound) (hk : s.Keeps c ret) {a : Action} (hg : s.ActsOnGrant a)
    (hr : s.step a = .ok t) : t.contexts c = .gone ∨ t.Keeps c ret := by
  have hobject : t.contexts c = .replied ret ∨ t.contexts c = .live ret.id → t.Keeps c ret := by
    intro hphase
    refine ⟨hphase, ?_⟩
    rw [h.objectAt_step hg hr (h.holder_of_keeps hok hk.phase)
      ((h.step hg hr).holder_of_keeps hok hphase), hk.object]
  cases h.moves hr c with
  | stays heq => exact Or.inr (hobject (heq ▸ hk.phase))
  | ends hgone => exact Or.inl hgone
  | lives hc hlive =>
    rcases hk.phase with hret | hret
    · cases hc.symm.trans hret
      exact Or.inr (hobject (Or.inr hlive))
    · cases hc.symm.trans hret
  | asks hc _ _ =>
    rcases hk.phase with hret | hret <;> cases hc.symm.trans hret

omit hok in
theorem Delivered.step (h : s.Sound) (hd : s.Delivered) {a : Action} (hg : s.ActsOnGrant a)
    (hr : s.step a = .ok t) : t.Delivered := by
  intro c ret hret hok
  cases h.moves hr c with
  | stays heq =>
    rcases (hd c ret (heq ▸ hret) hok).step hok h hg hr with hgone | hkeeps
    · cases hgone.symm.trans hret
    · exact hkeeps
  | ends hgone => cases hgone.symm.trans hret
  | lives _ hlive => cases hlive.symm.trans hret
  | asks _ hreply hdesc =>
    cases hreply.symm.trans hret
    exact ⟨Or.inl hret, hdesc hok⟩

theorem Placed.inherits_of_keeps (hs : s.Sound) (h : s.Placed) (hk : s.Keeps c ret) :
    ∃ p, s.manager.registeredIds.Active p ∧
      VMAccelDesc.Inherits s.manager.registered (.of p ret.desc) := by
  have hact := hs.active _ _ (hs.holder_of_keeps hok hk.phase)
  have hmem : s.manager.Holds (s.manager.objectAt ret.id.toNat) := Or.inl (objectAt_mem_live hact)
  refine ⟨_, h.coherent.active_of_holds hmem, ?_⟩
  obtain ⟨a, capacity, ha, hobj⟩ := h.inherits _ hmem
  exact ⟨a, capacity, ha, hk.object.symm.trans hobj⟩

end Keeps

/-- A context that a grant sent to an address finds there, as long as it exists, an accelerator
that is registered, with the descriptor it was given but for the capacity. -/
theorem accelerator_stays_registered (M : OrderedMultiset (VMAccelObject VMAccelDesc) Resource.cmp)
    {s t : Site M} {as bs : List Action}
    (hg : EachInput Site.step ActsOnGrant (powerOn M) (as ++ bs))
    (hs : run Site.step (powerOn M) as = .ok s) {c : ℕ} {ret : VMAccelAllocateReply}
    (hret : s.contexts c = .replied ret) (hok : ret.status = .success)
    (ht : run Site.step s bs = .ok t) (hc : t.contexts c ≠ .gone) :
    ∃ p, t.manager.registeredIds.Active p ∧
      VMAccelDesc.Inherits t.manager.registered (.of p ret.desc) := by
  obtain ⟨hgs, hgt⟩ := eachInput_append.mp hg
  obtain ⟨hsound, hplaced, hdelivered⟩ : s.Sound ∧ s.Placed ∧ s.Delivered := by
    refine run_invariant (C := ActsOnGrant) (I := fun s => s.Sound ∧ s.Placed ∧ s.Delivered) ?_
      ⟨sound_powerOn, placed_powerOn, fun c ret h => by cases h⟩ hgs hs
    rintro s a s' ⟨h, hp, hd⟩ hga hr
    exact ⟨h.step hga hr, hp.step hr, hd.step h hga hr⟩
  -- from the reply on, the context keeps its reservation until it is gone
  obtain ⟨hsound, hplaced, hgone | hkeeps⟩ :
      t.Sound ∧ t.Placed ∧ (t.contexts c = .gone ∨ t.Keeps c ret) := by
    refine run_invariant (C := ActsOnGrant)
      (I := fun t => t.Sound ∧ t.Placed ∧ (t.contexts c = .gone ∨ t.Keeps c ret)) ?_
      ⟨hsound, hplaced, Or.inr (hdelivered c ret hret hok)⟩ (hgt s hs) ht
    rintro s a s' ⟨h, hp, hgone | hk⟩ hga hr
    · refine ⟨h.step hga hr, hp.step hr, Or.inl ?_⟩
      cases h.moves hr c with
      | stays heq => exact heq.trans hgone
      | ends hgone => exact hgone
      | lives hc _ => cases hc.symm.trans hgone
      | asks hc _ _ => cases hc.symm.trans hgone
    · exact ⟨h.step hga hr, hp.step hr, hk.step hok h hga hr⟩
  · exact absurd hgone hc
  · exact hplaced.inherits_of_keeps hok hsound hkeeps

instance (s : Site M) : (a : Action) → Decidable (s.ActsOnGrant a)
  | .construct c outcome =>
    match hc : s.contexts c with
    | .replied ret =>
      decidable_of_iff (ret.status = .success) ⟨fun h c' _ ret' ha hc' => by
        cases ha
        cases hc.symm.trans hc'
        exact h, fun h => h c outcome ret rfl hc⟩
    | .unborn => isTrue fun _ _ _ ha hc' => by cases ha; cases hc.symm.trans hc'
    | .live _ => isTrue fun _ _ _ ha hc' => by cases ha; cases hc.symm.trans hc'
    | .gone => isTrue fun _ _ _ ha hc' => by cases ha; cases hc.symm.trans hc'
  | .register _ => isTrue fun _ _ _ ha _ => by cases ha
  | .unregister _ => isTrue fun _ _ _ ha _ => by cases ha
  | .alloc _ _ => isTrue fun _ _ _ ha _ => by cases ha
  | .destroy _ => isTrue fun _ _ _ ha _ => by cases ha

/-- A second accelerator comes and the first one cannot go while context 0 exists. -/
theorem accelerator_stays_registered_demo :
    ∃ s t : Site (SearchTree.multiset Resource.cmp),
      run Site.step (powerOn _) [.register (loopbackDesc 4), .alloc 0 3] = .ok s ∧
      run Site.step s [.construct 0 .created, .unregister 0, .register (loopbackDesc 2)] = .ok t ∧
      ∃ p, t.manager.registeredIds.Active p ∧
        VMAccelDesc.Inherits t.manager.registered (.of p (loopbackDesc 3)) := by
  have hs : ∃ s : Site (SearchTree.multiset Resource.cmp),
      run Site.step (powerOn _) [.register (loopbackDesc 4), .alloc 0 3] = .ok s ∧
      s.contexts 0 = .replied ⟨0, .success, loopbackDesc 3⟩ := by decide +kernel
  obtain ⟨s, hs, hret⟩ := hs
  have ht : ∃ t : Site (SearchTree.multiset Resource.cmp),
      run Site.step (powerOn _) ([.register (loopbackDesc 4), .alloc 0 3] ++
        [.construct 0 .created, .unregister 0, .register (loopbackDesc 2)]) = .ok t ∧
      t.contexts 0 = .live 0 := by decide +kernel
  obtain ⟨t, ht, hlive⟩ := ht
  obtain ⟨u, hu, ht⟩ := run_append_ok.mp ht
  cases hs.symm.trans hu
  have hg : EachInput Site.step ActsOnGrant (powerOn (SearchTree.multiset Resource.cmp))
      ([.register (loopbackDesc 4), .alloc 0 3] ++
        [.construct 0 .created, .unregister 0, .register (loopbackDesc 2)]) := by decide +kernel
  exact ⟨s, t, hs, ht, accelerator_stays_registered _ hg hs hret rfl ht (by rw [hlive]; nofun)⟩

end VMAccel.Site
