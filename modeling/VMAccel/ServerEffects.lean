import VMAccel.BackendChanges
import VMAccel.ServerSpec

/-!
# What the requests do to the tables of the server

One lemma for each request that returns: the server is as it was, or one entry of one table has
changed with its identifier. All of them keep the tables and the databases in step.
-/

namespace VMAccel.Server

open StepSystem IdentifierDB

/-- Every table fits its identifier database, and memory shared with a context is of a surface
whose context is one of the table. -/
structure WellFormed (s : Server) : Prop where
  contexts : Indexed maxContexts s.contexts s.contextIds
  queues : Indexed maxQueues s.queues s.queueIds
  kernels : Indexed maxKernels s.kernels s.kernelIds
  surfaces : s.backend.Tables
  svm_cid : ∀ surf ∈ s.backend.surfaces, surf.inst.any (·.svm) = true →
    surf.cid.toNat < maxContexts

theorem wellFormed_powerOn : powerOn.WellFormed where
  contexts := .new (by decide) _
  queues := .new (by decide) _
  kernels := .new (by decide) _
  surfaces := .new (by decide) _
  svm_cid surf hsurf hsvm := by
    rw [(List.mem_replicate.mp hsurf).2] at hsvm
    cases hsvm

variable {s : Server} {cl : Bool} {q : StatusCode × Server}

theorem contextalloc_ok (h : s.WellFormed) {argp : ContextAllocateDesc}
    {platforms : List Platform} (hr : s.contextalloc argp platforms = .ok q) :
    (q.1 ≠ .success ∧ q.2 = s) ∨ (q.1 = .success ∧ argp.clientId.toNat < maxContexts ∧
      ¬ s.contextIds.Active argp.clientId ∧ ∃ v : ℕ × ℕ, q.2 = { s with
        contexts := s.contexts.set argp.clientId.toNat ⟨some (numSubDevices argp), v.1, v.2⟩
        contextIds := s.contextIds.setBit argp.clientId.toNat }) := by
  obtain ⟨active, -, hr⟩ := bind_eq_ok.mp hr
  split_ifs at hr
  · cases hr
    exact Or.inl ⟨StatusCode.noConfusion, rfl⟩
  · obtain ⟨v, -, hr⟩ := bind_eq_ok.mp hr
    cases v with
    | none =>
      cases hr
      exact Or.inl ⟨StatusCode.noConfusion, rfl⟩
    | some v =>
      obtain ⟨p, hp, hr⟩ := bind_eq_ok.mp hr
      cases hr
      obtain ⟨⟨hlt, hact⟩, rfl⟩ := h.contexts.occupy_eq_ok.mp hp
      exact Or.inr ⟨rfl, hlt, hact, v, rfl⟩

theorem contextdestroy_ok (h : s.WellFormed) {cid : VMAccelId}
    (hr : s.contextdestroy cid = .ok q) :
    (¬ s.contextIds.Active cid ∧ q.2 = s) ∨ (s.contextIds.Active cid ∧ q.2 = { s with
      contexts := s.contexts.modify cid.toNat fun ctx => { ctx with context := none }
      contextIds := s.contextIds.give cid.toNat }) := by
  rw [contextdestroy, h.contexts.activeId, ok_bind] at hr
  obtain ⟨contexts, hcontexts, hr⟩ := bind_eq_ok.mp hr
  obtain ⟨ids, hids, hr⟩ := bind_eq_ok.mp hr
  cases hr
  by_cases hact : s.contextIds.Active cid
  · rw [if_pos (decide_eq_true hact)] at hcontexts
    obtain ⟨-, rfl⟩ := modifyAt_ok.mp hcontexts
    rw [releaseId_of_active hact] at hids
    cases hids
    exact Or.inr ⟨hact, rfl⟩
  · rw [if_neg fun h => hact (of_decide_eq_true h)] at hcontexts
    cases hcontexts
    rcases releaseId_ok hids with ⟨-, rfl⟩ | ⟨h', -⟩
    · exact Or.inl ⟨hact, rfl⟩
    · exact absurd h' hact

theorem surfacealloc_ok {argp : SurfaceAllocateDesc} {fresh : ℕ → Byte}
    (hr : s.surfacealloc argp cl fresh = .ok q) : ∃ ctx b, s.contexts[argp.cid.toNat]? = some ctx ∧
      s.backend.surfacealloc argp (decide (2 ≤ ctx.majorVersion)) (cl && ctx.context.isSome) fresh =
        .ok (q.1, b) ∧ q.2 = { s with backend := b } := by
  obtain ⟨ctx, hctx, hr⟩ := bind_eq_ok.mp hr
  obtain ⟨p, hp, hr⟩ := bind_eq_ok.mp hr
  cases hr
  exact ⟨ctx, p.2, readAt_ok.mp hctx, hp, rfl⟩

theorem surfacedestroy_ok {argp : VMCLSurfaceId} (hr : s.surfacedestroy argp = .ok q) :
    s.backend.surfaceIds.Active argp.id ∧ q.2 = { s with
      backend := ⟨s.backend.surfaces.set argp.id.toNat .zero,
        s.backend.surfaceIds.give argp.id.toNat⟩ } := by
  obtain ⟨surf, -, hr⟩ := bind_eq_ok.mp hr
  obtain ⟨p, hp, hr⟩ := bind_eq_ok.mp hr
  obtain ⟨_, -, hr⟩ := bind_eq_ok.mp hr
  cases hr
  obtain ⟨hact, rfl⟩ := Backend.surfacedestroy_eq hp
  exact ⟨hact, rfl⟩

theorem queuealloc_ok (h : s.WellFormed) {argp : QueueAllocateDesc}
    (hr : s.queuealloc argp cl = .ok q) :
    (q.1 ≠ .success ∧ q.2 = s) ∨ (q.1 = .success ∧ argp.client.id.toNat < maxQueues ∧
      ¬ s.queueIds.Active argp.client.id ∧ q.2 = { s with
        queues := s.queues.set argp.client.id.toNat (some argp.client.cid)
        queueIds := s.queueIds.setBit argp.client.id.toNat }) := by
  obtain ⟨ctx, -, hr⟩ := bind_eq_ok.mp hr
  obtain ⟨active, -, hr⟩ := bind_eq_ok.mp hr
  split_ifs at hr
  · cases hr
    exact Or.inl ⟨StatusCode.noConfusion, rfl⟩
  · cases hr
    exact Or.inl ⟨StatusCode.noConfusion, rfl⟩
  · obtain ⟨p, hp, hr⟩ := bind_eq_ok.mp hr
    cases hr
    obtain ⟨⟨hlt, hact⟩, rfl⟩ := h.queues.occupy_eq_ok.mp hp
    exact Or.inr ⟨rfl, hlt, hact, rfl⟩

theorem queuedestroy_ok (h : s.WellFormed) {argp : VMCLQueueId}
    (hr : s.queuedestroy argp = .ok q) : s.queueIds.Active argp.id ∧ q.2 = { s with
      queues := s.queues.set argp.id.toNat none
      queueIds := s.queueIds.give argp.id.toNat } := by
  rw [queuedestroy, h.queues.activeId, ok_bind] at hr
  obtain ⟨_, hact, hr⟩ := bind_eq_ok.mp hr
  have hact := of_decide_eq_true (require_ok.mp hact)
  rw [h.queues.vacate_of_active hact] at hr
  cases hr
  exact ⟨hact, rfl⟩

theorem kernelalloc_ok (h : s.WellFormed) {argp : KernelAllocateDesc}
    (hr : s.kernelalloc argp cl = .ok q) :
    (q.1 ≠ .success ∧ q.2 = s) ∨ (q.1 = .success ∧ argp.client.id.toNat < maxKernels ∧
      ¬ s.kernelIds.Active argp.client.id ∧ q.2 = { s with
        kernels := s.kernels.set argp.client.id.toNat (some argp.client.cid)
        kernelIds := s.kernelIds.setBit argp.client.id.toNat }) := by
  obtain ⟨ctx, -, hr⟩ := bind_eq_ok.mp hr
  obtain ⟨_, -, hr⟩ := bind_eq_ok.mp hr
  obtain ⟨active, -, hr⟩ := bind_eq_ok.mp hr
  by_cases hactive : active = true
  · rw [if_pos hactive] at hr
    cases hr
    exact Or.inl ⟨StatusCode.noConfusion, rfl⟩
  · rw [if_neg hactive] at hr
    obtain ⟨_, -, hr⟩ := bind_eq_ok.mp hr
    split_ifs at hr
    · obtain ⟨p, hp, hr⟩ := bind_eq_ok.mp hr
      cases hr
      obtain ⟨⟨hlt, hact⟩, rfl⟩ := h.kernels.occupy_eq_ok.mp hp
      exact Or.inr ⟨rfl, hlt, hact, rfl⟩
    · cases hr
      exact Or.inl ⟨StatusCode.noConfusion, rfl⟩

theorem kerneldestroy_ok (h : s.WellFormed) {argp : VMCLKernelId}
    (hr : s.kerneldestroy argp = .ok q) :
    (¬ s.kernelIds.Active argp.id ∧ q.2 = s) ∨ (s.kernelIds.Active argp.id ∧ q.2 = { s with
      kernels := s.kernels.set argp.id.toNat none
      kernelIds := s.kernelIds.give argp.id.toNat }) := by
  rw [kerneldestroy, h.kernels.activeId, ok_bind] at hr
  by_cases hact : s.kernelIds.Active argp.id
  · rw [if_neg (not_not.mpr (decide_eq_true hact)), h.kernels.vacate_of_active hact] at hr
    cases hr
    exact Or.inr ⟨hact, rfl⟩
  · rw [if_pos fun h => hact (of_decide_eq_true h)] at hr
    cases hr
    exact Or.inl ⟨hact, rfl⟩

theorem command_ok {ρ : Type} {queue : VMCLQueueId} {op : Bool → Except Fault (ρ × Backend)}
    {r : ρ × Server} (hr : s.command queue cl op = .ok r) :
    ∃ cl' p, op cl' = .ok p ∧ r = (p.1, { s with backend := p.2 }) := by
  obtain ⟨o, -, hr⟩ := bind_eq_ok.mp hr
  obtain ⟨p, hp, hr⟩ := bind_eq_ok.mp hr
  cases hr
  exact ⟨_, p, hp, rfl⟩

theorem dispatch_ok {queue : VMCLQueueId} {kernel : VMCLKernelId} {argp : DispatchOp}
    (hr : s.dispatch queue kernel argp cl = .ok q) :
    ∃ k cl' b, s.backend.dispatch (setArgs k argp) cl' = .ok (q.1, b) ∧
      q.2 = { s with backend := b } := by
  obtain ⟨o, -, hr⟩ := bind_eq_ok.mp hr
  obtain ⟨k, -, hr⟩ := bind_eq_ok.mp hr
  obtain ⟨p, hp, hr⟩ := bind_eq_ok.mp hr
  obtain ⟨_, -, hr⟩ := bind_eq_ok.mp hr
  cases hr
  exact ⟨k, _, p.2, hp, rfl⟩

def Request.targets : Request → List VMAccelId
  | .imageupload _ argp _ => [argp.sid]
  | .surfacemap _ argp _ _ => [argp.sid]
  | .surfaceunmap _ argp _ _ => [argp.sid]
  | .surfacecopy _ argp _ => [argp.dstSid]
  | .imagefill _ argp _ => [argp.sid]
  | .dispatch _ _ argp _ => argp.args.map (·.sid)
  | _ => []

/-- The request creates or destroys an entry of a table. -/
def Request.Allocates : Request → Prop
  | .contextalloc _ _ | .contextdestroy _ | .surfacealloc _ _ _ | .surfacedestroy _
  | .queuealloc _ _ | .queuedestroy _ | .kernelalloc _ _ | .kerneldestroy _ => True
  | _ => False

instance : (r : Request) → Decidable r.Allocates
  | .contextalloc _ _ | .contextdestroy _ | .surfacealloc _ _ _ | .surfacedestroy _
  | .queuealloc _ _ | .queuedestroy _ | .kernelalloc _ _ | .kerneldestroy _ => .isTrue trivial
  | .queueflush _ _ | .imageupload _ _ _ | .imagedownload _ _ _ | .surfacemap _ _ _ _
  | .surfaceunmap _ _ _ _ | .surfacecopy _ _ _ | .imagefill _ _ _ | .dispatch _ _ _ _ =>
    .isFalse id

theorem handle_changesOnly {r : Request} (ha : ¬ r.Allocates) (hr : s.handle r = .ok q) :
    ∃ b, q.2 = { s with backend := b } ∧
      Backend.ChangesOnly s.backend b fun j => ∃ sid ∈ r.targets, sid.toNat = j := by
  have hone : ∀ {b : Backend} {sid : VMAccelId}, Backend.ChangesOnly s.backend b (· = sid.toNat) →
      Backend.ChangesOnly s.backend b fun j => ∃ i ∈ [sid], i.toNat = j := fun hb =>
    hb.mono fun j hj => ⟨_, List.mem_singleton_self _, hj.symm⟩
  cases r with
  | queueflush argp cl =>
    obtain ⟨o, -, hr⟩ := bind_eq_ok.mp hr
    cases hr
    exact ⟨s.backend, rfl, .refl _ _⟩
  | imageupload queue argp cl =>
    obtain ⟨cl', p, hp, rfl⟩ := command_ok hr
    exact ⟨p.2, rfl, hone (Backend.changesOnly_imageupload hp)⟩
  | imagedownload queue argp cl =>
    obtain ⟨r, hdown, hq⟩ := bind_eq_ok.mp hr
    cases hq
    obtain ⟨cl', p, hp, rfl⟩ := command_ok hdown
    exact ⟨p.2, rfl, (Backend.imagedownload_ok hp).1 ▸ .refl _ _⟩
  | surfacemap queue argp noFreePtr cl =>
    obtain ⟨r, hmap, hq⟩ := bind_eq_ok.mp hr
    cases hq
    unfold surfacemap at hmap
    split_ifs at hmap
    · cases hmap
      exact ⟨s.backend, rfl, .refl _ _⟩
    · obtain ⟨cl', p, hp, rfl⟩ := command_ok hmap
      exact ⟨p.2, rfl, hone (Backend.changesOnly_surfacemap hp)⟩
  | surfaceunmap queue argp noFreePtr cl =>
    change s.surfaceunmap queue argp noFreePtr cl = .ok q at hr
    unfold surfaceunmap at hr
    split_ifs at hr
    · cases hr
      exact ⟨s.backend, rfl, .refl _ _⟩
    · obtain ⟨cl', p, hp, rfl⟩ := command_ok hr
      exact ⟨p.2, rfl, hone (Backend.changesOnly_surfaceunmap hp)⟩
  | surfacecopy queue argp cl =>
    obtain ⟨cl', p, hp, rfl⟩ := command_ok hr
    exact ⟨p.2, rfl, hone (Backend.changesOnly_surfacecopy hp)⟩
  | imagefill queue argp cl =>
    obtain ⟨cl', p, hp, rfl⟩ := command_ok hr
    exact ⟨p.2, rfl, hone (Backend.changesOnly_imagefill hp)⟩
  | dispatch queue kernel argp cl =>
    obtain ⟨k, cl', b, hb, hq⟩ := dispatch_ok hr
    refine ⟨b, hq, (Backend.changesOnly_dispatch hb).mono ?_⟩
    rintro j ⟨a, ha, rfl⟩
    obtain ⟨a', ha', rfl⟩ := List.mem_map.mp ha
    exact ⟨a'.sid, List.mem_map_of_mem ha', rfl⟩
  | _ => exact absurd trivial ha

theorem WellFormed.of_changesOnly (h : s.WellFormed) {b : Backend} {P : ℕ → Prop}
    (hb : Backend.ChangesOnly s.backend b P) : WellFormed { s with backend := b } := by
  refine ⟨h.contexts, h.queues, h.kernels, ⟨hb.length.trans h.surfaces.length, ?_, ?_⟩, ?_⟩
  · rw [hb.surfaceIds]
    exact h.surfaces.size
  · rw [hb.surfaceIds]
    exact h.surfaces.addressable
  · intro surf' hsurf' hsvm
    obtain ⟨j, hj, rfl⟩ := List.getElem_of_mem hsurf'
    have hj' : j < s.backend.surfaces.length := hb.length ▸ hj
    obtain ⟨surf'', hget, hcid, -, hkind, -⟩ := hb.kept j _ (List.getElem?_eq_getElem hj')
    obtain rfl := Option.some.inj ((List.getElem?_eq_getElem hj).symm.trans hget)
    rw [hcid]
    refine h.svm_cid _ (List.getElem_mem hj') ?_
    have hany : ∀ l : List VMWOpenCLSurfaceInstance, l.any (·.svm) = (l.map (·.svm)).any id := by
      intro l
      rw [List.any_map]
      rfl
    rw [hany, ← hkind, ← hany]
    exact hsvm

theorem WellFormed.surfacealloc (h : s.WellFormed) {argp : SurfaceAllocateDesc} {fresh : ℕ → Byte}
    (hr : s.surfacealloc argp cl fresh = .ok q) : q.2.WellFormed := by
  obtain ⟨ctx, b, hctx, hb, hq⟩ := surfacealloc_ok hr
  rw [hq]
  rcases Backend.surfacealloc_cases h.surfaces hb with ⟨-, heq⟩ | ⟨-, -, hlt, -, mem, heq⟩
  · obtain rfl : b = s.backend := heq
    exact h
  · obtain rfl : b = _ := heq
    refine ⟨h.contexts, h.queues, h.kernels, ⟨?_, h.surfaces.size, h.surfaces.addressable⟩, ?_⟩
    · rw [List.length_modify, h.surfaces.length]
    · intro surf' hsurf' hsvm
      obtain ⟨j, hj, rfl⟩ := List.getElem_of_mem hsurf'
      rw [List.getElem_modify] at hsvm ⊢
      split_ifs at hsvm ⊢
      · change argp.cid.toNat < maxContexts
        rw [← h.contexts.length]
        exact (List.getElem?_eq_some_iff.mp hctx).1
      · exact h.svm_cid _ (List.getElem_mem _) hsvm

theorem WellFormed.surfacedestroy (h : s.WellFormed) {argp : VMCLSurfaceId}
    (hr : s.surfacedestroy argp = .ok q) : q.2.WellFormed := by
  obtain ⟨-, hq⟩ := surfacedestroy_ok hr
  rw [hq]
  refine ⟨h.contexts, h.queues, h.kernels, h.surfaces.set_give _ _ _, ?_⟩
  intro surf' hsurf' hsvm
  rcases List.mem_or_eq_of_mem_set hsurf' with hmem | rfl
  · exact h.svm_cid _ hmem hsvm
  · cases hsvm

theorem WellFormed.handle (h : s.WellFormed) {r : Request} (hr : s.handle r = .ok q) :
    q.2.WellFormed := by
  cases r with
  | contextalloc argp platforms =>
    rcases contextalloc_ok h hr with ⟨-, heq⟩ | ⟨-, -, -, v, heq⟩
    · rwa [heq]
    · rw [heq]
      exact { h with contexts := h.contexts.set_setBit _ _ _ }
  | contextdestroy cid =>
    rcases contextdestroy_ok h hr with ⟨-, heq⟩ | ⟨-, heq⟩
    · rwa [heq]
    · rw [heq]
      exact { h with
        contexts := ⟨by rw [List.length_modify, h.contexts.length], h.contexts.size,
          h.contexts.addressable⟩ }
  | surfacealloc argp cl fresh => exact h.surfacealloc hr
  | surfacedestroy argp => exact h.surfacedestroy hr
  | queuealloc argp cl =>
    rcases queuealloc_ok h hr with ⟨-, heq⟩ | ⟨-, -, -, heq⟩
    · rwa [heq]
    · rw [heq]
      exact { h with queues := h.queues.set_setBit _ _ _ }
  | queuedestroy argp =>
    rw [(queuedestroy_ok h hr).2]
    exact { h with queues := h.queues.set_give _ _ _ }
  | kernelalloc argp cl =>
    rcases kernelalloc_ok h hr with ⟨-, heq⟩ | ⟨-, -, -, heq⟩
    · rwa [heq]
    · rw [heq]
      exact { h with kernels := h.kernels.set_setBit _ _ _ }
  | kerneldestroy argp =>
    rcases kerneldestroy_ok h hr with ⟨-, heq⟩ | ⟨-, heq⟩
    · rwa [heq]
    · rw [heq]
      exact { h with kernels := h.kernels.set_give _ _ _ }
  | _ =>
    obtain ⟨b, hq, hb⟩ := handle_changesOnly id hr
    rw [hq]
    exact h.of_changesOnly hb

theorem WellFormed.step {s' : Server} (h : s.WellFormed) {r : Request}
    (hr : s.step r = .ok s') : s'.WellFormed := by
  obtain ⟨q, hq, rfl⟩ := bind_snd_eq_ok.mp hr
  exact h.handle hq

end VMAccel.Server
