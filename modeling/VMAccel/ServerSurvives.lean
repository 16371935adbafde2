import VMAccel.ServerContexts
import VMAccel.ServerEffects

/-!
# The requests that the server survives

No layer checks the identifiers of a request. `Valid` is the check that would be needed: on the
identifiers and their tables, request by request. The server survives a sequence of requests,
without an index beyond a table and without a failed assertion, exactly when each one passes it.
-/

namespace VMAccel.Server

open StepSystem IdentifierDB

/-- The check that the server would need before it handles a request. -/
def Valid (s : Server) : Request → Prop
  | .contextalloc argp platforms => s.contextIds.Active argp.clientId ∨
    ((numSubDevices argp ≤ maxSubDevices ∨ ¬ Offered argp platforms) ∧
      (Granted argp platforms → argp.clientId.toNat < maxContexts))
  | .contextdestroy cid => s.contextIds.Active cid ∨ maxContexts ≤ cid.toNat
  | .surfacealloc argp cl _ => ∃ ctx ∈ s.contexts[argp.cid.toNat]?,
    s.backend.surfaceIds.Active argp.sid ∨
      if argp.desc.type = .buffer then
        (Backend.usesSvm argp.desc (decide (2 ≤ ctx.majorVersion)) ∨
          argp.desc.format = .r8Typeless) ∧
          ((cl && ctx.context.isSome) = true → argp.sid.toNat < maxSurfaces)
      else argp.desc.usage = .readwrite
  | .surfacedestroy argp => s.backend.surfaceIds.Active argp.id
  | .queuealloc argp cl => ∃ ctx ∈ s.contexts[argp.client.cid.toNat]?,
    s.queueIds.Active argp.client.id ∨
      (argp.subDevice.toNat < ctx.context.getD 0 ∧ cl = true → argp.client.id.toNat < maxQueues)
  | .queuedestroy argp => s.queueIds.Active argp.id
  | .queueflush argp _ => argp.id.toNat < maxQueues
  | .imageupload queue argp _ => queue.id.toNat < maxQueues ∧
    s.backend.At argp.sid argp.inst fun desc x => argp.generation < x.generation ∨
      (argp.queueCid = argp.imgCid ∧ desc.type = .buffer ∧ ¬ x.svm)
  | .imagedownload queue argp _ => queue.id.toNat < maxQueues ∧
    s.backend.At argp.sid argp.inst fun desc x => x.generation ≠ argp.generation ∨
      (argp.queueCid = argp.imgCid ∧ desc.type = .buffer ∧ ¬ x.svm)
  | .surfacemap queue argp noFreePtr _ => noFreePtr = true ∨ (queue.id.toNat < maxQueues ∧
    s.backend.At argp.sid argp.inst fun desc x =>
      argp.generation < x.generation ∨ desc.type = .buffer)
  | .surfaceunmap queue argp noFreePtr _ => noFreePtr = true ∨ (queue.id.toNat < maxQueues ∧
    s.backend.At argp.sid argp.inst fun _ x => Backend.FitsMapping x argp.bytes)
  | .surfacecopy queue argp _ => queue.id.toNat < maxQueues ∧ argp.dstCid = argp.srcCid ∧
    s.backend.At argp.srcSid 0 fun srcDesc src => s.backend.At argp.dstSid 0 fun dstDesc dst =>
      src.generation ≠ argp.srcGeneration ∨ argp.dstGeneration < dst.generation ∨
        src.svm ∨ dst.svm ∨ (dstDesc.type = .buffer ∧ srcDesc.type = .buffer)
  | .imagefill queue argp _ => queue.id.toNat < maxQueues ∧ s.backend.At argp.sid 0 fun desc x =>
    x.generation ≠ argp.generation ∨ x.svm ∨ desc.type = .buffer
  | .kernelalloc argp cl => ∃ ctx ∈ s.contexts[argp.client.cid.toNat]?,
    argp.subDevice.toNat < maxSubDevices ∧ (s.kernelIds.Active argp.client.id ∨
      (Supported ctx argp.language ∧
        ((cl && ctx.context.isSome) = true → argp.client.id.toNat < maxKernels)))
  | .kerneldestroy _ => True
  | .dispatch queue kernel argp _ => queue.id.toNat < maxQueues ∧ argp.args ≠ [] ∧
    ∃ k ∈ s.kernels[kernel.id.toNat]?, s.backend.ArgsValid (setArgs k argp).args ∧
      (s.backend.ArgsTaken (setArgs k argp).args → argp.dimension ≤ 0x1003)

instance (s : Server) : (r : Request) → Decidable (s.Valid r)
  | .contextalloc _ _ => inferInstanceAs (Decidable (_ ∨ _))
  | .contextdestroy _ => inferInstanceAs (Decidable (_ ∨ _))
  | .surfacealloc _ _ _ => inferInstanceAs (Decidable (∃ _ ∈ (_ : Option _), _))
  | .surfacedestroy _ => inferInstanceAs (Decidable (IdentifierDB.Active _ _))
  | .queuealloc _ _ => inferInstanceAs (Decidable (∃ _ ∈ (_ : Option _), _))
  | .queuedestroy _ => inferInstanceAs (Decidable (IdentifierDB.Active _ _))
  | .queueflush _ _ => inferInstanceAs (Decidable (_ < _))
  | .imageupload _ _ _ => inferInstanceAs (Decidable (_ ∧ _))
  | .imagedownload _ _ _ => inferInstanceAs (Decidable (_ ∧ _))
  | .surfacemap _ _ _ _ => inferInstanceAs (Decidable (_ ∨ _))
  | .surfaceunmap _ _ _ _ => inferInstanceAs (Decidable (_ ∨ _))
  | .surfacecopy _ _ _ => inferInstanceAs (Decidable (_ ∧ _))
  | .imagefill _ _ _ => inferInstanceAs (Decidable (_ ∧ _))
  | .kernelalloc _ _ => inferInstanceAs (Decidable (∃ _ ∈ (_ : Option _), _))
  | .kerneldestroy _ => .isTrue trivial
  | .dispatch _ _ _ _ => inferInstanceAs (Decidable (_ ∧ _ ∧ _))

variable {s : Server} {cl : Bool}

theorem exists_getElem?_iff {α : Type} {n i : ℕ} {entries : List α} (h : entries.length = n) :
    (∃ a, entries[i]? = some a) ↔ i < n := by
  rw [← h, ← Option.isSome_iff_exists]
  simp

theorem returns_command (h : s.WellFormed) {ρ : Type} {queue : VMCLQueueId}
    {op : Bool → Except Fault (ρ × Backend)} {P : Prop} (hop : ∀ cl, Returns (op cl) ↔ P) :
    Returns (s.command queue cl op) ↔ queue.id.toNat < maxQueues ∧ P := by
  rw [command, returns_readAt, ← exists_getElem?_iff h.queues.length, exists_and_right.symm]
  exact exists_congr fun q => and_congr_right fun _ => returns_map.trans (hop _)

theorem returns_contextalloc (h : s.WellFormed) {argp : ContextAllocateDesc}
    {platforms : List Platform} :
    Returns (s.contextalloc argp platforms) ↔ s.Valid (.contextalloc argp platforms) := by
  rw [contextalloc, h.contexts.activeId, ok_bind, Valid]
  by_cases hact : s.contextIds.Active argp.clientId
  · rw [if_pos (decide_eq_true hact)]
    exact iff_of_true (returns_ok _) (Or.inl hact)
  · rw [if_neg fun h => hact (of_decide_eq_true h), or_iff_right hact, ← returns_selectPlatform,
      returns_bind]
    constructor
    · rintro ⟨v, hv, hret⟩
      refine ⟨⟨v, hv⟩, fun hgrant => ?_⟩
      obtain ⟨v, rfl⟩ := Option.isSome_iff_exists.mp ((selectPlatform_ok hv).mpr hgrant)
      obtain ⟨r, hr, -⟩ := returns_bind.mp hret
      exact (h.contexts.occupy_eq_ok.mp hr).1.1
    · rintro ⟨⟨v, hv⟩, hlt⟩
      refine ⟨v, hv, ?_⟩
      cases v with
      | none => exact returns_ok _
      | some v =>
        have hgrant := (selectPlatform_ok hv).mp rfl
        exact returns_bind.mpr ⟨_, h.contexts.occupy_eq_ok.mpr ⟨⟨hlt hgrant, hact⟩, rfl⟩,
          returns_ok _⟩

theorem returns_contextdestroy (h : s.WellFormed) {cid : VMAccelId} :
    Returns (s.contextdestroy cid) ↔ s.Valid (.contextdestroy cid) := by
  rw [contextdestroy, h.contexts.activeId, ok_bind, Valid]
  by_cases hact : s.contextIds.Active cid
  · rw [if_pos (decide_eq_true hact), releaseId_of_active hact]
    refine iff_of_true (returns_bind.mpr ⟨_, modifyAt_ok.mpr ⟨?_, rfl⟩, returns_ok _⟩) (Or.inl hact)
    rw [h.contexts.length]
    exact h.contexts.lt_of_active hact
  · rw [if_neg fun h => hact (of_decide_eq_true h), ok_bind, or_iff_right hact, returns_bind]
    constructor
    · rintro ⟨ids, hids, -⟩
      rcases releaseId_ok hids with ⟨hle, -⟩ | ⟨h', -⟩
      · have hle := BitVec.le_def.mp hle
        rwa [h.contexts.size] at hle
      · exact absurd h' hact
    · intro hle
      refine ⟨_, releaseId_of_size_le (BitVec.le_def.mpr ?_), returns_ok _⟩
      rwa [h.contexts.size]

theorem returns_surfacealloc (h : s.WellFormed) {argp : SurfaceAllocateDesc} {fresh : ℕ → Byte} :
    Returns (s.surfacealloc argp cl fresh) ↔ s.Valid (.surfacealloc argp cl fresh) := by
  rw [surfacealloc, returns_readAt, Valid]
  refine exists_congr fun ctx => and_congr_right fun _ => ?_
  rw [← Backend.returns_surfacealloc h.surfaces fresh]
  exact returns_map

theorem returns_surfacedestroy (h : s.WellFormed) {argp : VMCLSurfaceId} :
    Returns (s.surfacedestroy argp) ↔ s.Valid (.surfacedestroy argp) := by
  rw [surfacedestroy, returns_readAt, Valid, ← Backend.returns_surfacedestroy h.surfaces]
  constructor
  · rintro ⟨surf, -, hret⟩
    obtain ⟨r, hr, -⟩ := returns_bind.mp hret
    exact ⟨r, hr⟩
  · rintro ⟨r, hr⟩
    have hlt := h.surfaces.lt_of_active (Backend.surfacedestroy_eq hr).1
    rw [← h.surfaces.length] at hlt
    refine ⟨_, List.getElem?_eq_getElem hlt, returns_bind.mpr ⟨r, hr, ?_⟩⟩
    refine returns_bind.mpr ⟨(), ?_, returns_ok _⟩
    unfold svmContext
    split_ifs with hsvm
    · -- the context of shared memory is in the table
      have hcid := h.svm_cid _ (List.getElem_mem hlt) hsvm
      rw [← h.contexts.length] at hcid
      rw [readAt_ok.mpr (List.getElem?_eq_getElem hcid)]
      rfl
    · rfl

theorem returns_queuealloc (h : s.WellFormed) {argp : QueueAllocateDesc} :
    Returns (s.queuealloc argp cl) ↔ s.Valid (.queuealloc argp cl) := by
  rw [queuealloc, returns_readAt, Valid]
  refine exists_congr fun ctx => and_congr_right fun _ => ?_
  rw [h.queues.activeId, ok_bind]
  by_cases hact : s.queueIds.Active argp.client.id
  · rw [if_pos (decide_eq_true hact)]
    exact iff_of_true (returns_ok _) (Or.inl hact)
  · rw [if_neg fun h => hact (of_decide_eq_true h), or_iff_right hact]
    split_ifs with hfail
    · refine iff_of_true (returns_ok _) fun hserved => ?_
      rcases hfail with hle | hcl
      · exact absurd hserved.1 (Nat.not_lt.mpr hle)
      · exact absurd hserved.2 hcl
    · rw [not_or, Nat.not_le, not_not] at hfail
      rw [imp_iff_right hfail, returns_bind]
      constructor
      · rintro ⟨r, hr, -⟩
        exact (h.queues.occupy_eq_ok.mp hr).1.1
      · intro hlt
        exact ⟨_, h.queues.occupy_eq_ok.mpr ⟨⟨hlt, hact⟩, rfl⟩, returns_ok _⟩

theorem returns_queuedestroy (h : s.WellFormed) {argp : VMCLQueueId} :
    Returns (s.queuedestroy argp) ↔ s.Valid (.queuedestroy argp) := by
  rw [queuedestroy, h.queues.activeId, ok_bind, returns_require, decide_eq_true_eq, Valid]
  refine and_iff_left_of_imp fun hact => ?_
  exact returns_bind.mpr ⟨_, h.queues.vacate_of_active hact, returns_ok _⟩

theorem returns_deviceId {α : Type} {subDevice : BitVec 32} {f : Unit → Except Fault α} :
    Returns (deviceId subDevice >>= f) ↔ subDevice.toNat < maxSubDevices ∧ Returns (f ()) := by
  unfold deviceId
  by_cases h : subDevice.toNat < maxSubDevices
  · rw [if_pos h, and_iff_right h]
    rfl
  · rw [if_neg h]
    exact iff_of_false (fun ⟨_, hr⟩ => nomatch hr) fun h' => h h'.1

theorem returns_kernelalloc (h : s.WellFormed) {argp : KernelAllocateDesc} :
    Returns (s.kernelalloc argp cl) ↔ s.Valid (.kernelalloc argp cl) := by
  rw [kernelalloc, returns_readAt, Valid]
  refine exists_congr fun ctx => and_congr_right fun _ => ?_
  rw [returns_deviceId, h.kernels.activeId, ok_bind]
  refine and_congr_right fun _ => ?_
  by_cases hact : s.kernelIds.Active argp.client.id
  · rw [if_pos (decide_eq_true hact)]
    exact iff_of_true (returns_ok _) (Or.inl hact)
  · rw [if_neg fun h => hact (of_decide_eq_true h), or_iff_right hact, returns_require]
    refine and_congr_right fun _ => ?_
    by_cases hcl : (cl && ctx.context.isSome) = true
    · rw [if_neg (not_not.mpr hcl), imp_iff_right hcl, returns_bind]
      constructor
      · rintro ⟨r, hr, -⟩
        exact (h.kernels.occupy_eq_ok.mp hr).1.1
      · intro hlt
        exact ⟨_, h.kernels.occupy_eq_ok.mpr ⟨⟨hlt, hact⟩, rfl⟩, returns_ok _⟩
    · rw [if_pos hcl]
      exact iff_of_true (returns_ok _) fun h => absurd h hcl

theorem returns_kerneldestroy (h : s.WellFormed) {argp : VMCLKernelId} :
    Returns (s.kerneldestroy argp) := by
  rw [kerneldestroy, h.kernels.activeId, ok_bind]
  split_ifs with hact
  · have hact := of_decide_eq_true hact
    exact returns_bind.mpr ⟨_, h.kernels.vacate_of_active hact, returns_ok _⟩
  · exact returns_ok _

theorem returns_dispatch (h : s.WellFormed) {queue : VMCLQueueId} {kernel : VMCLKernelId}
    {argp : DispatchOp} :
    Returns (s.dispatch queue kernel argp cl) ↔ s.Valid (.dispatch queue kernel argp cl) := by
  rw [dispatch, returns_readAt, Valid, ← exists_getElem?_iff h.queues.length]
  have hfirst : (∃ a, argp.args[0]? = some a) ↔ argp.args ≠ [] := by
    rw [exists_getElem?_iff rfl, List.length_pos_iff]
  constructor
  · rintro ⟨q, hq, hret⟩
    obtain ⟨k, hk, hret⟩ := returns_readAt.mp hret
    obtain ⟨r, hr, hret⟩ := returns_bind.mp hret
    obtain ⟨a, ha, -⟩ := returns_readAt.mp hret
    exact ⟨⟨q, hq⟩, hfirst.mp ⟨a, ha⟩, k, hk, (Backend.returns_dispatch _).mp ⟨r, hr⟩⟩
  · rintro ⟨⟨q, hq⟩, hne, k, hk, hvalid⟩
    obtain ⟨r, hr⟩ := (Backend.returns_dispatch (setArgs k argp)).mpr hvalid
    obtain ⟨a, ha⟩ := hfirst.mpr hne
    refine ⟨q, hq, returns_readAt.mpr ⟨k, hk, returns_bind.mpr ⟨r, hr, ?_⟩⟩⟩
    exact returns_readAt.mpr ⟨a, ha, returns_ok _⟩

theorem returns_handle (h : s.WellFormed) (r : Request) : Returns (s.handle r) ↔ s.Valid r := by
  cases r with
  | contextalloc argp platforms => exact returns_contextalloc h
  | contextdestroy cid => exact returns_contextdestroy h
  | surfacealloc argp cl fresh => exact returns_surfacealloc h
  | surfacedestroy argp => exact returns_surfacedestroy h
  | queuealloc argp cl => exact returns_queuealloc h
  | queuedestroy argp => exact returns_queuedestroy h
  | queueflush argp cl =>
    refine returns_map.trans ?_
    rw [Valid, ← exists_getElem?_iff h.queues.length]
    simp only [Returns, readAt_ok]
  | imageupload queue argp cl => exact returns_command h fun _ => Backend.returns_imageupload
  | imagedownload queue argp cl =>
    exact returns_map.trans (returns_command h fun _ => Backend.returns_imagedownload)
  | surfacemap queue argp noFreePtr cl =>
    refine returns_map.trans ?_
    rw [surfacemap, Valid]
    cases noFreePtr with
    | true => exact iff_of_true (returns_ok _) (Or.inl rfl)
    | false =>
      rw [or_iff_right Bool.false_ne_true]
      exact returns_command h fun _ => Backend.returns_surfacemap
  | surfaceunmap queue argp noFreePtr cl =>
    rw [handle, surfaceunmap, Valid]
    cases noFreePtr with
    | true => exact iff_of_true (returns_ok _) (Or.inl rfl)
    | false =>
      rw [or_iff_right Bool.false_ne_true]
      exact returns_command h fun _ => Backend.returns_surfaceunmap
  | surfacecopy queue argp cl => exact returns_command h fun _ => Backend.returns_surfacecopy
  | imagefill queue argp cl => exact returns_command h fun _ => Backend.returns_imagefill
  | kernelalloc argp cl => exact returns_kernelalloc h
  | kerneldestroy argp => exact iff_of_true (returns_kerneldestroy h) trivial
  | dispatch queue kernel argp cl => exact returns_dispatch h

def DestroysInactive (s : Server) : Request → Prop
  | .contextdestroy cid => ¬ s.contextIds.Active cid
  | .surfacedestroy argp => ¬ s.backend.surfaceIds.Active argp.id
  | .queuedestroy argp => ¬ s.queueIds.Active argp.id
  | .kerneldestroy argp => ¬ s.kernelIds.Active argp.id
  | _ => False

/-- The request is handled without a fault, and changes nothing when it destroys an identifier
that is not active. -/
def Survives (s : Server) (r : Request) : Prop :=
  ∃ s', s.step r = .ok s' ∧ (s.DestroysInactive r → s' = s)

theorem eq_of_destroysInactive (h : s.WellFormed) {r : Request} {q : StatusCode × Server}
    (hr : s.handle r = .ok q) (hd : s.DestroysInactive r) : q.2 = s := by
  cases r with
  | contextdestroy cid =>
    rcases contextdestroy_ok h hr with ⟨-, heq⟩ | ⟨hact, -⟩
    · exact heq
    · exact absurd hact hd
  | surfacedestroy argp => exact absurd (surfacedestroy_ok hr).1 hd
  | queuedestroy argp => exact absurd (queuedestroy_ok h hr).1 hd
  | kerneldestroy argp =>
    rcases kerneldestroy_ok h hr with ⟨-, heq⟩ | ⟨hact, -⟩
    · exact heq
    · exact absurd hact hd
  | _ => exact hd.elim

/-- The server survives a sequence of requests, and destroying inactive identifiers leaves it
unchanged, exactly when every request passes the check in the state it finds. -/
theorem survives_iff_valid (rs : List Request) :
    EachInput step Survives powerOn rs ↔ EachInput step Valid powerOn rs := by
  refine eachInput_iff (I := WellFormed) (fun s r h => ?_) (fun s r s' h _ hstep => h.step hstep)
    wellFormed_powerOn
  rw [← returns_handle h]
  constructor
  · rintro ⟨s', hstep, -⟩
    obtain ⟨q, hq, -⟩ := bind_eq_ok.mp hstep
    exact ⟨q, hq⟩
  · rintro ⟨q, hq⟩
    exact ⟨q.2, bind_eq_ok.mpr ⟨q, hq, rfl⟩, eq_of_destroysInactive h hq⟩

def contextDemo (clientId numSubDevices : BitVec 32) : Request :=
  .contextalloc ⟨clientId, 0xF, numSubDevices, 0⟩ [platformDemo]

def uploadDemo (sid : VMAccelId) : ImageUploadOp where
  queueCid := 0
  imgCid := 0
  sid := sid
  inst := 0
  generation := 1
  offset := 0
  bytes := []

/-- A destruction of a context that was never created, a second destruction of a queue, an upload
to a surface beyond the table and a context with 33 devices. -/
theorem not_survives_unchecked :
    run step powerOn [.contextdestroy 0] = .error .assertion ∧
      run step powerOn [contextDemo 0 1, .queuealloc ⟨⟨0, 0⟩, 0⟩ true, .queuedestroy ⟨0, 0⟩,
        .queuedestroy ⟨0, 0⟩] = .error .assertion ∧
      run step powerOn [contextDemo 0 1, .queuealloc ⟨⟨0, 0⟩, 0⟩ true,
        .imageupload ⟨0, 0⟩ (uploadDemo 32) true] = .error .outOfBounds ∧
      run step powerOn [contextDemo 0 33] = .error .outOfBounds := by
  refine ⟨rfl, rfl, rfl, rfl⟩

end VMAccel.Server
