import VMAccel.AcceleratorSpec

/-!
# The identifiers that reach the server

An accelerator hands out 48 identifiers to contexts, surfaces and kernels together, and each table
of the server has 32 entries. An object for which there is none left has the invalid identifier, and
sends it all the same. The functions keep the identifiers of objects and requests in range, as long
as `alloc_id` returns one that is.
-/

namespace VMAccel

open StepSystem IdentifierDB

/-- Every context, surface and kernel of the request is an index of the table for its kind. -/
def Server.Request.InRange (r : Server.Request) : Prop :=
  (∀ cid ∈ r.cids, cid.toNat < maxContexts) ∧ (∀ sid ∈ r.sids, sid.toNat < maxSurfaces) ∧
    ∀ kid ∈ r.kids, kid.toNat < maxKernels

open Server

def ClContext.Ranged (c : ClContext) : Prop :=
  c.contextId.toNat < maxContexts ∧ ∀ id, c.residencyDB.Active id → id.toNat < maxSurfaces

def ClKernel.Ranged (kern : ClKernel) : Prop := ∀ v ∈ kern.variants, v.2.toNat < maxKernels

namespace Accelerator

variable {s s' : Accelerator} {wire : Wire} {n k : ℕ}

/-- The objects that are alive have identifiers in the range of their tables, and so have the
requests. -/
structure Ranged (s : Accelerator) : Prop where
  balanced : s.refObjectDB.Balanced
  size : s.refObjectDB.size = maxRefObjects
  context : ∀ c, some c ∈ s.contexts → c.Ranged
  surface : ∀ surf, some surf ∈ s.surfaces → surf.id.toNat < maxSurfaces
  kernel : ∀ kern, some kern ∈ s.kernels → kern.Ranged
  sent : ∀ r ∈ s.sent, r.InRange

def HasFree (s : Accelerator) (bound : ℕ) : Prop := ∃ j < bound, s.refObjectDB.bit j = false

instance (s : Accelerator) (bound : ℕ) : Decidable (s.HasFree bound) :=
  inferInstanceAs (Decidable (∃ _ < _, _))

theorem Ranged.send (h : Ranged s) (rs : List Request) (hrs : ∀ r ∈ rs, r.InRange) :
    Ranged (s.send rs) :=
  { h with sent := fun r hr => (List.mem_append.mp hr).elim (h.sent r) (hrs r) }

theorem Ranged.send_one (h : Ranged s) {r : Request} (hr : r.InRange) : Ranged (s.send [r]) :=
  h.send _ fun _ hmem => List.mem_singleton.mp hmem ▸ hr

theorem Ranged.setContext (h : Ranged s) {c : Option ClContext} (hc : ∀ c' ∈ c, c'.Ranged) :
    Ranged (s.setContext n c) :=
  { h with
    context := fun c' hc' =>
      (List.mem_or_eq_of_mem_set hc').elim (h.context c') fun heq => hc c' heq.symm }

theorem Ranged.addContext (h : Ranged s) {c : Option ClContext} (hc : ∀ c' ∈ c, c'.Ranged) :
    Ranged { s with contexts := s.contexts ++ [c] } :=
  { h with
    context := fun c' hc' => (List.mem_append.mp hc').elim (h.context c')
      fun heq => hc c' (List.mem_singleton.mp heq).symm }

theorem Ranged.setKernel (h : Ranged s) {kern : Option ClKernel} (hk : ∀ k' ∈ kern, k'.Ranged) :
    Ranged { s with kernels := s.kernels.set k kern } :=
  { h with
    kernel := fun k' hk' =>
      (List.mem_or_eq_of_mem_set hk').elim (h.kernel k') fun heq => hk k' heq.symm }

theorem Ranged.setOperation (h : Ranged s) (operations : List (Option (Option ComputeOperation))) :
    Ranged { s with operations } := { h with }

theorem Ranged.context_at (h : Ranged s) {c : ClContext} (hc : s.contexts[n]? = some (some c)) :
    c.Ranged := h.context c (List.mem_of_getElem? hc)

theorem Ranged.surface_at (h : Ranged s) {surf : Surface}
    (hk : s.surfaces[k]? = some (some surf)) : surf.id.toNat < maxSurfaces :=
  h.surface surf (List.mem_of_getElem? hk)

theorem Ranged.kernel_at (h : Ranged s) {kern : ClKernel}
    (hk : s.kernels[k]? = some (some kern)) : kern.Ranged :=
  h.kernel kern (List.mem_of_getElem? hk)

theorem Ranged.allocId (h : Ranged s) {bound : ℕ} (hbound : bound ≤ maxRefObjects.toNat)
    (hfree : s.HasFree bound) {o : Holder} {r : VMAccelId × Accelerator}
    (hr : s.allocId o = .ok r) : r.1.toNat < bound ∧ Ranged r.2 := by
  obtain ⟨q, hq, hid, hs⟩ := allocId_ok hr
  obtain ⟨j, hj, hbit⟩ := hfree
  have hlt : j < s.refObjectDB.size.toNat := h.size ▸ hj.trans_le hbound
  obtain ⟨id, heq, hle, hsize, hbal⟩ := allocId_le h.balanced hlt hbit hq
  rw [heq] at hid
  rw [hid, hs]
  exact ⟨hle.trans_lt hj, { h with balanced := hbal, size := hsize.trans h.size }⟩

theorem inRange_request {queue : VMCLQueueId} {sid : VMAccelId}
    (hcid : queue.cid.toNat < maxContexts) (hsid : sid.toNat < maxSurfaces) (cmd : Command) :
    (cmd.request queue sid).InRange := by
  cases cmd <;> simp [Request.InRange, Command.request, Request.cids, Request.sids, Request.kids,
    hcid, hsid]

theorem Ranged.allocSurface (h : Ranged s) {r : Bool × Accelerator}
    (hr : s.allocSurface wire n k = .ok r) : Ranged r.2 := by
  obtain ⟨c, surf, hc, hsurf, hr⟩ := allocSurface_ok hr
  have hc := h.context_at hc
  have hsurf := h.surface_at hsurf
  have hreq : ∀ cl fresh, Request.InRange
      (.surfacealloc ⟨c.contextId, surf.id, surf.desc⟩ cl fresh) := fun cl fresh => by
    simp [Request.InRange, Request.cids, Request.sids, Request.kids, hc.1, hsurf]
  rcases hr with rfl | ⟨-, cl, fresh, ⟨-, rfl⟩ | ⟨q, hq, rfl⟩⟩
  · exact h
  · exact h.send_one (hreq cl fresh)
  · refine (h.send_one (hreq cl fresh)).setContext ?_
    rintro _ ⟨⟩
    refine ⟨hc.1, fun id hact => ?_⟩
    rcases ((acquireId_active hq).2 id).mp hact with hact | ⟨rfl, -⟩
    · exact hc.2 id hact
    · exact hsurf

theorem Ranged.destroySurface (h : Ranged s) {id : VMAccelId}
    (hr : s.destroySurface n id = .ok s') : Ranged s' := by
  obtain ⟨c, hc, rfl | ⟨hact, rfl⟩⟩ := destroySurface_ok hr
  · exact h
  · have hc := h.context_at hc
    refine (h.send_one ?_).setContext ?_
    · simp [Request.InRange, Request.cids, Request.sids, Request.kids, hc.1, hc.2 id hact]
    · rintro _ ⟨⟩
      exact ⟨hc.1, fun j hj => hc.2 j ((active_give (bit_lt_length hact.2) j).mp hj).1⟩

theorem Ranged.destroySurfaces (h : Ranged s) {ps : List (ℕ × VMAccelId)}
    (hr : s.destroySurfaces ps = .ok s') : Ranged s' :=
  destroySurfaces_rule (fun _ _ _ _ h hr => h.destroySurface hr) h hr

theorem Ranged.destroy (h : Ranged s) (hr : s.destroy n = .ok s') : Ranged s' := by
  obtain ⟨t, c, ht, hc, hs'⟩ := destroy_ok hr
  have ht := h.destroySurfaces ht
  have hc := (ht.context_at hc).1
  have hgone : Ranged (t.setContext n none) := ht.setContext nofun
  rcases hs' with ⟨-, rfl⟩ | ⟨-, rfl⟩
  · exact hgone
  · refine hgone.send _ fun r hmem => ?_
    rcases List.mem_append.mp hmem with hmem | hmem
    · obtain ⟨i, -, rfl⟩ := List.mem_map.mp hmem
      simp [Request.InRange, Request.cids, Request.sids, Request.kids, hc]
    · rw [List.mem_singleton.mp hmem]
      simp [Request.InRange, Request.cids, Request.sids, Request.kids, hc]

theorem Ranged.newContext (h : Ranged s) (hfree : s.HasFree maxContexts) {tracked : Bool}
    {selectionMask numSubDevices numQueues requiredCaps uninitialised : BitVec 32}
    {r : Accelerator × Option (Holder × VMAccelId)}
    (hr : s.newContext wire tracked selectionMask numSubDevices numQueues requiredCaps
      uninitialised = .ok r) : Ranged r.1 := by
  obtain ⟨id, t, u, q, hid, rfl, rfl, hr⟩ := newContext_ok hr
  obtain ⟨hid, ht⟩ : id.toNat < maxContexts ∧ Ranged t := h.allocId (by decide) hfree hid
  have hsent : Ranged (t.send [.contextalloc ⟨id, selectionMask, atLeastOne numSubDevices,
      requiredCaps⟩ wire.platforms]) :=
    ht.send_one (by simp [Request.InRange, Request.cids, Request.sids, Request.kids, hid])
  have hqueues := allocQueues_rule (P := Ranged) wire id
    (fun s argp cl hcid h => h.send_one (by
      simp [Request.InRange, Request.cids, Request.sids, Request.kids, hcid, hid]))
    (queueSlots (atLeastOne numSubDevices) (atLeastOne numQueues)) hsent
  have hnew : ∀ numSubDevices numQueues,
      ∀ c ∈ some (⟨id, numSubDevices, numQueues, .alloc t.refObjectDB.size⟩ : ClContext),
        c.Ranged := by
    rintro _ _ _ ⟨⟩
    exact ⟨hid, fun j hact => absurd (hact.2.symm.trans (bit_alloc _ _)) nofun⟩
  rcases hr with ⟨-, rfl⟩ | ⟨-, qid, v, -, hv, rfl⟩ | ⟨-, -, rfl⟩
  · exact hsent.addContext nofun
  · exact (hqueues.addContext (hnew _ _)).destroy hv
  · have hadd := hqueues.addContext (hnew (atLeastOne numSubDevices) (atLeastOne numQueues))
    unfold track
    split_ifs
    · exact { hadd with }
    · exact hadd

theorem Ranged.newSurface (h : Ranged s) (hfree : s.HasFree maxSurfaces) {tracked : Bool}
    {desc : VMAccelSurfaceDesc} {init : ℕ → Byte} (hr : s.newSurface tracked desc init = .ok s') :
    Ranged s' := by
  obtain ⟨id, t, surf, hid, rfl, rfl⟩ := newSurface_ok hr
  obtain ⟨hid, ht⟩ : surf.id.toNat < maxSurfaces ∧ Ranged t := h.allocId (by decide) hfree hid
  refine { ht with surface := fun surf' hmem => ?_ }
  rcases List.mem_append.mp hmem with hmem | hmem
  · exact h.surface surf' hmem
  · cases List.mem_singleton.mp hmem
    exact hid

theorem Ranged.prepareKernel (h : Ranged s) (hfree : s.HasFree maxKernels) {type : KernelLanguage}
    {func : String} (hr : s.prepareKernel wire k type func = .ok s') : Ranged s' := by
  obtain ⟨kern, c, id, t, u, hkern, hc, hid, rfl, hs'⟩ := prepareKernel_ok hr
  obtain ⟨hid, ht⟩ : id.toNat < maxKernels ∧ Ranged t := h.allocId (by decide) hfree hid
  have hsent : Ranged (t.send [.kernelalloc ⟨⟨c.contextId, id⟩, 0, type⟩
      (wire.cl t.sent.length)]) :=
    ht.send_one (by
      simp [Request.InRange, Request.cids, Request.sids, Request.kids, hid, (h.context_at hc).1])
  rcases hs' with ⟨-, rfl⟩ | rfl
  · exact hsent
  · refine hsent.setKernel ?_
    rintro _ ⟨⟩ v hv
    rcases List.mem_append.mp hv with hv | hv
    · exact h.kernel_at hkern v (List.mem_filter.mp hv).1
    · cases List.mem_singleton.mp hv
      exact hid

theorem lookup_prepareKernel (hlost : wire.lost = []) {type : KernelLanguage} {func : String}
    (hr : s.prepareKernel wire k type func = .ok s') {kern : ClKernel}
    (hk : s'.kernels[k]? = some (some kern)) :
    (kern.variants.lookup (type, func)).isSome := by
  obtain ⟨kern', c, id, t, u, hkern, -, hid, rfl, ⟨hreply, -⟩ | rfl⟩ := prepareKernel_ok hr
  · exact absurd (by simp [replies, hlost]) hreply
  · obtain ⟨q, -, -, ht⟩ := allocId_ok hid
    have hlen : k < t.kernels.length := by
      rw [show t = _ from ht]
      exact (List.getElem?_eq_some_iff.mp hkern).1
    change (t.kernels.set k _)[k]? = _ at hk
    rw [List.getElem?_set_self hlen] at hk
    cases hk
    simp [List.lookup_append]

def VariantReady (s : Accelerator) (o : ℕ) : Prop :=
  ∀ p ∈ s.operations[o]?, ∀ q ∈ p, ∀ op ∈ q, ∀ x ∈ s.kernels[op.kernel]?, ∀ kern ∈ x,
    (kern.variants.lookup (op.kernelType, op.kernelFunc)).isSome

instance (s : Accelerator) (o : ℕ) : Decidable (s.VariantReady o) :=
  inferInstanceAs (Decidable (∀ _ ∈ _, _))

theorem Ranged.getId (h : Ranged s) (hlost : wire.lost = []) {type : KernelLanguage}
    {func : String} {id : VMAccelId}
    (hready : s.HasFree maxKernels ∨ ∀ kern, s.kernels[k]? = some (some kern) →
      (kern.variants.lookup (type, func)).isSome)
    (hr : s.getId wire k type func = .ok (id, s')) : id.toNat < maxKernels ∧ Ranged s' := by
  have hmem : ∀ {kern : ClKernel} {id}, kern.Ranged → kern.variants.lookup (type, func) = some id →
      id.toNat < maxKernels := fun hk hid => by
    obtain ⟨l₁, l₂, hl, -⟩ := List.lookup_eq_some_iff.mp hid
    exact hk _ (hl ▸ List.mem_append_right _ List.mem_cons_self)
  obtain ⟨kern, hkern, ⟨hid, rfl⟩ | ⟨hnone, ht, kern', hkern', rfl⟩⟩ := getId_ok hr
  · exact ⟨hmem (h.kernel_at hkern) hid, h⟩
  · rcases hready with hfree | hready
    · have hrange := h.prepareKernel hfree ht
      obtain ⟨id, hid⟩ := Option.isSome_iff_exists.mp (lookup_prepareKernel hlost ht hkern')
      refine ⟨?_, hrange⟩
      rw [hid]
      exact hmem (hrange.kernel_at hkern') hid
    · have hsome := hready kern hkern
      rw [hnone] at hsome
      cases hsome

theorem Ranged.prepareArgs (h : Ranged s) (hlost : wire.lost = []) {queue : VMCLQueueId}
    (hcid : queue.cid.toNat < maxContexts) {ks : List ℕ} {uploads : List (List Command × Bool)}
    (huploads : ∀ u ∈ uploads, u.2 = true) {r : List KernelArg × Accelerator}
    (hr : prepareArgs wire n queue s ks uploads = .ok r) :
    (∀ a ∈ r.1, a.sid.toNat < maxSurfaces) ∧ Ranged r.2 := by
  induction ks generalizing s uploads r with
  | nil =>
    cases hr
    exact ⟨nofun, h⟩
  | cons k ks ih =>
    obtain ⟨⟨allocated, t⟩, hq, hr⟩ := bind_eq_ok.mp hr
    obtain ⟨surf, hsurf, hr⟩ := bind_eq_ok.mp hr
    obtain ⟨u, hu, hr⟩ := bind_eq_ok.mp hr
    cases hr
    have ht : Ranged t := h.allocSurface hq
    have hsid := ht.surface_at (readObject_ok.mp hsurf)
    have hallocated : allocated = true := by
      obtain ⟨_, _, -, -, heq | ⟨-, _, _, ⟨hreply, -⟩ | ⟨_, -, heq⟩⟩⟩ := allocSurface_ok hq
      · exact (Prod.mk.inj heq).1
      · exact absurd (by simp [replies, hlost]) hreply
      · exact (Prod.mk.inj heq).1
    have hupload : (uploads.headD ([], true)).2 = true := by
      cases uploads with
      | nil => rfl
      | cons u us => exact huploads u List.mem_cons_self
    rw [if_pos hallocated] at hu
    have hsent := ht.send ((uploads.headD ([], true)).1.map (·.request queue surf.id))
      fun r hr => by
        obtain ⟨cmd, -, rfl⟩ := List.mem_map.mp hr
        exact inRange_request hcid hsid cmd
    obtain ⟨hargs, hrange⟩ := ih hsent (fun v hv => huploads v (List.mem_of_mem_tail hv)) hu
    refine ⟨fun a ha => ?_, hrange⟩
    rcases List.mem_cons.mp ha with rfl | ha
    · rw [if_pos ⟨hallocated, hupload⟩]
      exact hsid
    · exact hargs a ha

theorem Ranged.submit (h : Ranged s) {queue : VMCLQueueId} {kid : VMAccelId} {argp : DispatchOp}
    (hcid : queue.cid.toNat < maxContexts) (hkid : kid.toNat < maxKernels)
    (hargs : ∀ a ∈ argp.args, a.sid.toNat < maxSurfaces) (fuel : ℕ) :
    Ranged (submit wire queue kid argp s fuel).2 := by
  have hzero : 0 < maxContexts := by decide
  refine submit_rule wire queue kid argp (fun s cl h => h.send_one ⟨?_, ?_, ?_⟩)
    (fun s cl h => h.send_one ?_) fuel h
  · simp [Request.cids, hcid, hzero]
  · rintro sid hsid
    obtain ⟨a, ha, rfl⟩ := List.mem_map.mp hsid
    exact hargs a ha
  · simp [Request.kids, hkid]
  · simp [Request.InRange, Request.cids, Request.sids, Request.kids, hcid]

theorem Ranged.dispatch (h : Ranged s) (hlost : wire.lost = []) {o : ℕ} {force : Bool}
    {uploads : List (List Command × Bool)} {kernel : List (List Byte) → ℕ → ℕ → Byte}
    (huploads : ∀ u ∈ uploads, u.2 = true) (hready : s.HasFree maxKernels ∨ s.VariantReady o)
    (hr : s.dispatch wire o force uploads kernel = .ok s') : Ranged s' := by
  obtain ⟨op, c, kid, t, hop, hc, hid, hs'⟩ := dispatch_ok hr
  have hcid := (h.context_at hc).1
  obtain ⟨hkid, ht⟩ : kid.toNat < maxKernels ∧ Ranged t :=
    h.getId hlost (hready.imp_right fun hv kern hkern => hv _ hop _ rfl _ rfl _ hkern _ rfl) hid
  rcases hs' with rfl | ⟨queue, args, u, operations, hqueue, hargs, rfl⟩
  · exact ht
  · have hcid : queue.cid.toNat < maxContexts := hqueue ▸ hcid
    obtain ⟨hsids, hu⟩ : (∀ a ∈ args, a.sid.toNat < maxSurfaces) ∧ Ranged u :=
      ht.prepareArgs hlost hcid huploads hargs
    exact (hu.submit hcid hkid hsids retryMaxCount).setOperation _

end Accelerator

end VMAccel
