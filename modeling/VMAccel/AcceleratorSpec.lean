import VMAccel.Accelerator
import VMAccel.IdentifierDBBalance
import VMAccel.ServerContexts

/-!
# The calls on an accelerator, one by one

For each function what it does when it returns, and for each loop the rule that a property is kept
by the loop when it is kept by one round.
-/

namespace VMAccel

open StepSystem IdentifierDB

theorem readObject_ok {α : Type} {objects : List (Option α)} {n : ℕ} {a : α} :
    readObject objects n = .ok a ↔ objects[n]? = some (some a) := by
  unfold readObject
  split
  · rename_i b hb
    rw [hb]
    simp
  · rename_i hne
    exact iff_of_false nofun (hne a)

theorem getElem?_set_none {α : Type} {l : List (Option α)} {i n : ℕ} {a : α}
    (h : (l.set i none)[n]? = some (some a)) : n ≠ i ∧ l[n]? = some (some a) := by
  have hne : n ≠ i := by
    rintro rfl
    rw [List.getElem?_set_self'] at h
    cases hl : l[n]? <;> simp [hl] at h
  exact ⟨hne, by rwa [List.getElem?_set_ne (Ne.symm hne)] at h⟩

namespace Accelerator

variable {s s' : Accelerator} {wire : Wire} {n k : ℕ} {P : Accelerator → Prop}

theorem allocId_ok {o : Holder} {r : VMAccelId × Accelerator} (hr : s.allocId o = .ok r) :
    ∃ q, s.refObjectDB.allocId = .ok q ∧ r.1 = q.1.getD invalidId ∧
      r.2 = { s with refObjectDB := q.2, held := s.obtained o r.1 } := by
  obtain ⟨q, hq, hr⟩ := bind_eq_ok.mp hr
  cases hr
  exact ⟨q, hq, rfl, rfl⟩

theorem allocSurface_ok {r : Bool × Accelerator} (hr : s.allocSurface wire n k = .ok r) :
    ∃ c surf, s.contexts[n]? = some (some c) ∧ s.surfaces[k]? = some (some surf) ∧
      (r = (true, s) ∨ ¬ c.residencyDB.Active surf.id ∧ ∃ cl fresh,
        (¬ s.replies wire ∧ r = (false,
          s.send [.surfacealloc ⟨c.contextId, surf.id, surf.desc⟩ cl fresh])) ∨
        ∃ q, c.residencyDB.acquireId surf.id = .ok q ∧ r = (true,
          (s.send [.surfacealloc ⟨c.contextId, surf.id, surf.desc⟩ cl fresh]).setContext n
            (some { c with residencyDB := q.2 }))) := by
  obtain ⟨c, hc, hr⟩ := bind_eq_ok.mp hr
  obtain ⟨surf, hsurf, hr⟩ := bind_eq_ok.mp hr
  obtain ⟨resident, hresident, hr⟩ := bind_eq_ok.mp hr
  refine ⟨c, surf, readObject_ok.mp hc, readObject_ok.mp hsurf, ?_⟩
  by_cases hres : resident = true
  · rw [if_pos hres] at hr
    cases hr
    exact Or.inl rfl
  · rw [if_neg hres] at hr
    have hact : ¬ c.residencyDB.Active surf.id := fun hact =>
      hres (Except.ok.inj (hresident.symm.trans (activeId_eq_ok_true.mpr hact)))
    obtain ⟨_, -, hr⟩ := bind_eq_ok.mp hr
    refine Or.inr ⟨hact, wire.cl s.sent.length, wire.fresh s.sent.length, ?_⟩
    by_cases hreply : s.replies wire
    · rw [if_neg (not_not.mpr hreply)] at hr
      obtain ⟨q, hq, hr⟩ := bind_eq_ok.mp hr
      cases hr
      exact Or.inr ⟨q, hq, rfl⟩
    · rw [if_pos hreply] at hr
      cases hr
      exact Or.inl ⟨hreply, rfl⟩

theorem destroySurface_ok {id : VMAccelId} (hr : s.destroySurface n id = .ok s') :
    ∃ c, s.contexts[n]? = some (some c) ∧ (s' = s ∨ c.residencyDB.Active id ∧
      s' = (s.send [.surfacedestroy ⟨c.contextId, id⟩]).setContext n
        (some { c with residencyDB := c.residencyDB.give id.toNat })) := by
  obtain ⟨c, hc, hr⟩ := bind_eq_ok.mp hr
  obtain ⟨resident, hresident, hr⟩ := bind_eq_ok.mp hr
  refine ⟨c, readObject_ok.mp hc, ?_⟩
  by_cases hres : resident = true
  · rw [if_neg (not_not.mpr hres)] at hr
    have hact : c.residencyDB.Active id := by rw [← activeId_eq_ok_true, hresident, hres]
    rw [releaseId_of_active hact] at hr
    cases hr
    exact Or.inr ⟨hact, rfl⟩
  · rw [if_pos hres] at hr
    cases hr
    exact Or.inl rfl

theorem destroySurfaces_rule
    (hP : ∀ s s' n id, P s → s.destroySurface n id = .ok s' → P s') {ps : List (ℕ × VMAccelId)}
    (h : P s) (hr : s.destroySurfaces ps = .ok s') : P s' := by
  induction ps generalizing s with
  | nil =>
    cases hr
    exact h
  | cons p ps ih =>
    obtain ⟨t, ht, hr⟩ := bind_eq_ok.mp hr
    exact ih (hP s t p.1 p.2 h ht) hr

theorem allocQueues_rule (wire : Wire) (contextId : VMAccelId)
    (hP : ∀ s argp cl, argp.client.cid = contextId → P s → P (s.send [.queuealloc argp cl]))
    (qs : List (BitVec 32 × VMAccelId)) (h : P s) : P (allocQueues wire contextId s qs).2 := by
  induction qs generalizing s with
  | nil => exact h
  | cons q qs ih =>
    unfold allocQueues
    split_ifs
    · exact ih (hP s _ _ rfl h)
    · exact hP s _ _ rfl h

theorem allocQueues_eq_none {contextId : VMAccelId} {qs : List (BitVec 32 × VMAccelId)} :
    (allocQueues wire contextId s qs).1 = none ↔
      ∀ k < qs.length, s.sent.length + k ∉ wire.lost := by
  induction qs generalizing s with
  | nil => exact iff_of_true rfl fun k hk => absurd hk (Nat.not_lt_zero k)
  | cons q qs ih =>
    rw [allocQueues]
    by_cases hreply : s.replies wire
    · rw [if_pos hreply, ih, List.length_cons, Nat.forall_lt_succ_left]
      simp only [send, List.length_append, List.length_singleton]
      refine Iff.trans (forall₂_congr fun k _ => ?_) (and_iff_right hreply).symm
      rw [Nat.add_assoc, Nat.add_comm 1]
    · rw [if_neg hreply]
      refine iff_of_false (by simp) fun h => hreply ?_
      exact h 0 (Nat.zero_lt_succ _)

theorem prepareArgs_rule {queue : VMCLQueueId}
    (halloc : ∀ s k r, P s → s.allocSurface wire n k = .ok r → P r.2)
    (hsend : ∀ s (k : ℕ) (surf : Surface) cmds, P s → s.surfaces[k]? = some (some surf) →
      P (s.send (List.map (Command.request queue surf.id) cmds)))
    {ks : List ℕ} {uploads : List (List Command × Bool)} {r : List KernelArg × Accelerator}
    (h : P s) (hr : prepareArgs wire n queue s ks uploads = .ok r) : P r.2 := by
  induction ks generalizing s uploads r with
  | nil =>
    cases hr
    exact h
  | cons k ks ih =>
    obtain ⟨q, hq, hr⟩ := bind_eq_ok.mp hr
    obtain ⟨surf, hsurf, hr⟩ := bind_eq_ok.mp hr
    obtain ⟨t, ht, hr⟩ := bind_eq_ok.mp hr
    cases hr
    refine ih (r := t) ?_ ht
    have hP := halloc s k q h hq
    split_ifs
    · exact hsend _ k surf _ hP (readObject_ok.mp hsurf)
    · exact hP

theorem submit_rule (wire : Wire) (queue : VMCLQueueId) (kid : VMAccelId) (argp : DispatchOp)
    (hdispatch : ∀ s cl, P s → P (s.send [.dispatch queue ⟨0, kid⟩ argp cl]))
    (hflush : ∀ s cl, P s → P (s.send [.queueflush queue cl])) (fuel : ℕ) (h : P s) :
    P (submit wire queue kid argp s fuel).2 := by
  induction fuel generalizing s with
  | zero => exact h
  | succ fuel ih =>
    have hsent := hdispatch s (wire.cl s.sent.length) h
    unfold submit
    by_cases hreply : s.replies wire
    · rw [if_neg (not_not.mpr hreply)]
      dsimp only
      split_ifs
      · exact ih (hflush _ _ hsent)
      · exact hflush _ _ hsent
    · rw [if_pos hreply]
      exact ih hsent

theorem newContext_ok {tracked : Bool}
    {selectionMask numSubDevices numQueues requiredCaps uninitialised : BitVec 32}
    {r : Accelerator × Option (Holder × VMAccelId)}
    (hr : s.newContext wire tracked selectionMask numSubDevices numQueues requiredCaps
      uninitialised = .ok r) :
    ∃ id t u q, s.allocId (.context s.contexts.length) = .ok (id, t) ∧
      u = t.send [.contextalloc ⟨id, selectionMask, atLeastOne numSubDevices, requiredCaps⟩
        wire.platforms] ∧
      q = allocQueues wire id u (queueSlots (atLeastOne numSubDevices) (atLeastOne numQueues)) ∧
      ((¬ t.replies wire ∧ r = ({ u with contexts := u.contexts ++ [none] },
          some (.context s.contexts.length, id))) ∨
        (t.replies wire ∧ ∃ qid v, q.1 = some qid ∧
          destroy { q.2 with contexts := q.2.contexts ++ [some ⟨id, uninitialised,
            atLeastOne numQueues, .alloc t.refObjectDB.size⟩] } s.contexts.length = .ok v ∧
          r = (v, some (.context s.contexts.length, qid))) ∨
        (t.replies wire ∧ q.1 = none ∧
          r = (track { q.2 with contexts := q.2.contexts ++ [some ⟨id, atLeastOne numSubDevices,
            atLeastOne numQueues, .alloc t.refObjectDB.size⟩] } tracked id s.contexts.length,
              none))) := by
  obtain ⟨⟨id, t⟩, hid, hr⟩ := bind_eq_ok.mp hr
  refine ⟨id, t, _, _, hid, rfl, rfl, ?_⟩
  dsimp only at hr
  by_cases hreply : t.replies wire
  · rw [if_neg (not_not.mpr hreply)] at hr
    split at hr
    · rename_i qid hqid
      obtain ⟨v, hv, hr⟩ := bind_eq_ok.mp hr
      cases hr
      exact Or.inr (Or.inl ⟨hreply, qid, v, hqid, hv, rfl⟩)
    · rename_i hnone
      cases hr
      exact Or.inr (Or.inr ⟨hreply, hnone, rfl⟩)
  · rw [if_pos hreply] at hr
    cases hr
    exact Or.inl ⟨hreply, rfl⟩

theorem newSurface_ok {tracked : Bool} {desc : VMAccelSurfaceDesc} {init : ℕ → Byte}
    (hr : s.newSurface tracked desc init = .ok s') :
    ∃ id t surf, s.allocId (.surface s.surfaces.length) = .ok (id, t) ∧ surf.id = id ∧
      s' = { t with
        surfaces := s.surfaces ++ [some surf]
        surfaceDatabase := if tracked then mapSet id s.surfaces.length s.surfaceDatabase
          else s.surfaceDatabase } := by
  obtain ⟨⟨surf, db⟩, hnew, hr⟩ := bind_eq_ok.mp hr
  obtain ⟨q, hq, hnew⟩ := bind_eq_ok.mp hnew
  cases hnew
  cases hr
  exact ⟨_, _, _, bind_eq_ok.mpr ⟨q, hq, rfl⟩, rfl, rfl⟩

theorem destroy_ok (hr : s.destroy n = .ok s') :
    ∃ t c, s.destroySurfaces (s.trackedSurfaces.map fun id => (n, id)) = .ok t ∧
      t.contexts[n]? = some (some c) ∧ ((c.contextId = invalidId ∧ s' = t.setContext n none) ∨
        (c.contextId ≠ invalidId ∧
          s' = (t.setContext n none).send ((List.range c.numSubDevices.toNat).map
            (fun i => .queuedestroy ⟨c.contextId, BitVec.ofNat 32 i⟩) ++
              [.contextdestroy c.contextId]))) := by
  obtain ⟨t, ht, hr⟩ := bind_eq_ok.mp hr
  obtain ⟨c, hc, hr⟩ := bind_eq_ok.mp hr
  refine ⟨t, c, ht, readObject_ok.mp hc, ?_⟩
  split_ifs at hr with hid
  · cases hr
    exact Or.inl ⟨hid, rfl⟩
  · cases hr
    exact Or.inr ⟨hid, rfl⟩

theorem prepareKernel_ok {type : KernelLanguage} {func : String}
    (hr : s.prepareKernel wire k type func = .ok s') :
    ∃ kern c id t u, s.kernels[k]? = some (some kern) ∧
      s.contexts[kern.clctx]? = some (some c) ∧ s.allocId (.kernel k) = .ok (id, t) ∧
      u = t.send [.kernelalloc ⟨⟨c.contextId, id⟩, 0, type⟩ (wire.cl t.sent.length)] ∧
      ((¬ t.replies wire ∧ s' = u) ∨ s' = { u with
        kernels := u.kernels.set k (some { kern with
          variants := kern.variants.filter (·.1 ≠ (type, func)) ++ [((type, func), id)] }) }) := by
  obtain ⟨kern, hkern, hr⟩ := bind_eq_ok.mp hr
  obtain ⟨c, hc, hr⟩ := bind_eq_ok.mp hr
  obtain ⟨⟨id, t⟩, hid, hr⟩ := bind_eq_ok.mp hr
  refine ⟨kern, c, id, t, _, readObject_ok.mp hkern, readObject_ok.mp hc, hid, rfl, ?_⟩
  dsimp only at hr
  split_ifs at hr with hreply
  · cases hr
    exact Or.inr rfl
  · cases hr
    exact Or.inl ⟨hreply, rfl⟩

theorem getId_ok {type : KernelLanguage} {func : String} {id : VMAccelId}
    (hr : s.getId wire k type func = .ok (id, s')) :
    ∃ kern, s.kernels[k]? = some (some kern) ∧
      ((kern.variants.lookup (type, func) = some id ∧ s' = s) ∨
        (kern.variants.lookup (type, func) = none ∧ s.prepareKernel wire k type func = .ok s' ∧
          ∃ kern', s'.kernels[k]? = some (some kern') ∧
            id = (kern'.variants.lookup (type, func)).getD invalidId)) := by
  obtain ⟨kern, hkern, hr⟩ := bind_eq_ok.mp hr
  refine ⟨kern, readObject_ok.mp hkern, ?_⟩
  split at hr
  · rename_i id' hid'
    cases hr
    exact Or.inl ⟨hid', rfl⟩
  · rename_i hnone
    obtain ⟨t, ht, hr⟩ := bind_eq_ok.mp hr
    obtain ⟨kern', hkern', hr⟩ := bind_eq_ok.mp hr
    cases hr
    exact Or.inr ⟨hnone, ht, kern', readObject_ok.mp hkern', rfl⟩

theorem dispatch_ok {o : ℕ} {force : Bool} {uploads : List (List Command × Bool)}
    {kernel : List (List Byte) → ℕ → ℕ → Byte}
    (hr : s.dispatch wire o force uploads kernel = .ok s') :
    ∃ op c kid t, s.operations[o]? = some (some (some op)) ∧
      s.contexts[op.clctx]? = some (some c) ∧
      s.getId wire op.kernel op.kernelType op.kernelFunc = .ok (kid, t) ∧
      (s' = t ∨ ∃ queue args u operations, queue.cid = c.contextId ∧
        prepareArgs wire op.clctx queue t op.bindings uploads = .ok (args, u) ∧
        s' = { (submit wire queue kid ⟨args, 1, kernel⟩ u retryMaxCount).2 with operations }) := by
  obtain ⟨prepared, hop, hr⟩ := bind_eq_ok.mp hr
  cases prepared with
  | none => cases hr
  | some op =>
    obtain ⟨c, hc, hr⟩ := bind_eq_ok.mp hr
    obtain ⟨⟨kid, t⟩, hid, hr⟩ := bind_eq_ok.mp hr
    refine ⟨op, c, kid, t, readObject_ok.mp hop, readObject_ok.mp hc, hid, ?_⟩
    dsimp only at hr
    split_ifs at hr
    · cases hr
      exact Or.inl rfl
    · obtain ⟨⟨args, u⟩, hargs, hr⟩ := bind_eq_ok.mp hr
      cases hr
      exact Or.inr ⟨_, args, u, _, rfl, hargs, rfl⟩

theorem deleteContext_ok (hr : s.deleteContext n = .ok s') : s' = s ∨ s.destroy n = .ok s' := by
  unfold deleteContext at hr
  split_ifs at hr
  · cases hr
    exact Or.inl rfl
  · exact Or.inr hr

theorem deleteSurface_ok {r : Accelerator × Option (Holder × VMAccelId)}
    (hr : s.deleteSurface k = .ok r) :
    r = (s, none) ∨ ∃ surf t, s.surfaces[k]? = some (some surf) ∧
      s.destroySurfaces (s.contextDatabase.map fun e => (e.2, surf.id)) = .ok t ∧
      r = ({ t with surfaces := t.surfaces.set k none }, some (.surface k, surf.id)) := by
  unfold deleteSurface at hr
  split_ifs at hr
  · cases hr
    exact Or.inl rfl
  · obtain ⟨surf, hsurf, hr⟩ := bind_eq_ok.mp hr
    obtain ⟨t, ht, hr⟩ := bind_eq_ok.mp hr
    cases hr
    exact Or.inr ⟨surf, t, readObject_ok.mp hsurf, ht, rfl⟩

theorem deleteKernel_ok (hr : s.deleteKernel k = .ok s') :
    s' = s ∨ ∃ kern c, s.kernels[k]? = some (some kern) ∧
      s.contexts[kern.clctx]? = some (some c) ∧
      s' = { s.send (kern.variants.map fun v => .kerneldestroy ⟨c.contextId, v.2⟩) with
        kernels := s.kernels.set k none } := by
  unfold deleteKernel at hr
  split_ifs at hr
  · cases hr
    exact Or.inl rfl
  · obtain ⟨kern, hkern, hr⟩ := bind_eq_ok.mp hr
    obtain ⟨c, hc, hr⟩ := bind_eq_ok.mp hr
    cases hr
    exact Or.inr ⟨kern, c, readObject_ok.mp hkern, readObject_ok.mp hc, rfl⟩

theorem prepareOperation_ok {o : ℕ} {op : ComputeOperation}
    (hr : s.prepareOperation wire o op = .ok s') :
    s' = s ∨ ∃ t operations, s.prepareKernel wire op.kernel op.kernelType op.kernelFunc = .ok t ∧
      s' = { t with operations } := by
  obtain ⟨prepared, -, hr⟩ := bind_eq_ok.mp hr
  split_ifs at hr
  · cases hr
    exact Or.inl rfl
  · obtain ⟨t, ht, hr⟩ := bind_eq_ok.mp hr
    cases hr
    exact Or.inr ⟨t, _, ht, rfl⟩

theorem deleteOperation_ok {o : ℕ} {uploads : List (List Command × Bool)}
    {kernel : List (List Byte) → ℕ → ℕ → Byte}
    (hr : s.deleteOperation wire o uploads kernel = .ok s') :
    ∃ t operations, (t = s ∨ s.dispatch wire o false uploads kernel = .ok t) ∧
      s' = { t with operations } := by
  obtain ⟨prepared, -, hr⟩ := bind_eq_ok.mp hr
  obtain ⟨t, ht, hr⟩ := bind_eq_ok.mp hr
  cases hr
  refine ⟨t, _, ?_, rfl⟩
  split_ifs at ht
  · exact Or.inr ht
  · cases ht
    exact Or.inl rfl

inductive Acts (s : Accelerator) (wire : Wire) :
    Action → Accelerator × Option (Holder × VMAccelId) → Prop
  | newContext {tracked : Bool}
    {selectionMask numSubDevices numQueues requiredCaps uninitialised : BitVec 32}
    {r : Accelerator × Option (Holder × VMAccelId)}
    (hr : s.newContext wire tracked selectionMask numSubDevices numQueues requiredCaps
      uninitialised = .ok r) :
    Acts s wire (.newContext tracked selectionMask numSubDevices numQueues requiredCaps
      uninitialised) r
  | untrackContext {n : ℕ} {c : ClContext} (hc : s.contexts[n]? = some (some c)) :
    Acts s wire (.untrackContext n)
      ({ s with contextDatabase := s.contextDatabase.filter (·.1 ≠ c.contextId) }, none)
  | deleteContext {n : ℕ} {s' : Accelerator} (hr : s.deleteContext n = .ok s') :
    Acts s wire (.deleteContext n) (s', none)
  | newSurface {tracked : Bool} {desc : VMAccelSurfaceDesc} {init : ℕ → Byte} {s' : Accelerator}
    (hr : s.newSurface tracked desc init = .ok s') :
    Acts s wire (.newSurface tracked desc init) (s', none)
  | untrackSurface {k : ℕ} {surf : Surface} (hsurf : s.surfaces[k]? = some (some surf)) :
    Acts s wire (.untrackSurface k)
      ({ s with surfaceDatabase := s.surfaceDatabase.filter (·.1 ≠ surf.id) }, none)
  | deleteSurface {k : ℕ} {r : Accelerator × Option (Holder × VMAccelId)}
    (hr : s.deleteSurface k = .ok r) : Acts s wire (.deleteSurface k) r
  | newKernel {n : ℕ} {c : ClContext} (hc : s.contexts[n]? = some (some c)) :
    Acts s wire (.newKernel n) ({ s with kernels := s.kernels ++ [some ⟨n, []⟩] }, none)
  | prepareKernel {k : ℕ} {type : KernelLanguage} {func : String} {s' : Accelerator}
    (hr : s.prepareKernel wire k type func = .ok s') :
    Acts s wire (.prepareKernel k type func) (s', none)
  | deleteKernel {k : ℕ} {s' : Accelerator} (hr : s.deleteKernel k = .ok s') :
    Acts s wire (.deleteKernel k) (s', none)
  | newOperation : Acts s wire .newOperation ({ s with operations := s.operations ++ [some none] },
    none)
  | prepareOperation {o n : ℕ} {subDevice : BitVec 32} {k : ℕ} {type : KernelLanguage}
    {func : String} {bindings : List ℕ} {s' : Accelerator}
    (hr : s.prepareOperation wire o ⟨n, subDevice, k, type, func, bindings, false⟩ = .ok s') :
    Acts s wire (.prepareOperation o n subDevice k type func bindings) (s', none)
  | dispatch {o : ℕ} {force : Bool} {uploads : List (List Command × Bool)}
    {kernel : List (List Byte) → ℕ → ℕ → Byte} {s' : Accelerator}
    (hr : s.dispatch wire o force uploads kernel = .ok s') :
    Acts s wire (.dispatch o force uploads kernel) (s', none)
  | deleteOperation {o : ℕ} {uploads : List (List Command × Bool)}
    {kernel : List (List Byte) → ℕ → ℕ → Byte} {s' : Accelerator}
    (hr : s.deleteOperation wire o uploads kernel = .ok s') :
    Acts s wire (.deleteOperation o uploads kernel) (s', none)
  | allocSurface {n k : ℕ} {r : Bool × Accelerator} (hr : s.allocSurface wire n k = .ok r) :
    Acts s wire (.allocSurface n k) (r.2, none)
  | destroySurface {n : ℕ} {id : VMAccelId} {s' : Accelerator}
    (hr : s.destroySurface n id = .ok s') : Acts s wire (.destroySurface n id) (s', none)
  | command {n : ℕ} {qid : VMAccelId} {k : ℕ} {cmd : Command} {c : ClContext} {surf : Surface}
    (hc : s.contexts[n]? = some (some c)) (hsurf : s.surfaces[k]? = some (some surf)) :
    Acts s wire (.command n qid k cmd) (s.send [cmd.request ⟨c.contextId, qid⟩ surf.id], none)
  | copySurface {n : ℕ} {qid : VMAccelId} {src dst : ℕ} {argp : SurfaceCopyOp} {cl : Bool}
    {c : ClContext} {srcSurf dstSurf : Surface} (hc : s.contexts[n]? = some (some c))
    (hsrc : s.surfaces[src]? = some (some srcSurf))
    (hdst : s.surfaces[dst]? = some (some dstSurf)) :
    Acts s wire (.copySurface n qid src dst argp cl) (s.send [.surfacecopy ⟨c.contextId, qid⟩
      { argp with
        dstCid := c.contextId, dstSid := dstSurf.id, srcCid := c.contextId, srcSid := srcSurf.id }
      cl], none)
  | flushQueue {n : ℕ} {qid : VMAccelId} {cl : Bool} {c : ClContext}
    (hc : s.contexts[n]? = some (some c)) :
    Acts s wire (.flushQueue n qid cl) (s.send [.queueflush ⟨c.contextId, qid⟩ cl], none)

theorem acts {a : Action} {r : Accelerator × Option (Holder × VMAccelId)}
    (hr : s.act wire a = .ok r) : Acts s wire a r := by
  cases a with
  | newContext => exact .newContext hr
  | deleteSurface k => exact .deleteSurface hr
  | newOperation =>
    cases hr
    exact .newOperation
  | untrackContext n =>
    obtain ⟨c, hc, hr⟩ := bind_eq_ok.mp hr
    cases hr
    exact .untrackContext (readObject_ok.mp hc)
  | untrackSurface k =>
    obtain ⟨surf, hsurf, hr⟩ := bind_eq_ok.mp hr
    cases hr
    exact .untrackSurface (readObject_ok.mp hsurf)
  | newKernel n =>
    obtain ⟨c, hc, hr⟩ := bind_eq_ok.mp hr
    cases hr
    exact .newKernel (readObject_ok.mp hc)
  | command n qid k cmd =>
    obtain ⟨c, hc, hr⟩ := bind_eq_ok.mp hr
    obtain ⟨surf, hsurf, hr⟩ := bind_eq_ok.mp hr
    cases hr
    exact .command (readObject_ok.mp hc) (readObject_ok.mp hsurf)
  | copySurface n qid src dst argp cl =>
    obtain ⟨c, hc, hr⟩ := bind_eq_ok.mp hr
    obtain ⟨srcSurf, hsrc, hr⟩ := bind_eq_ok.mp hr
    obtain ⟨dstSurf, hdst, hr⟩ := bind_eq_ok.mp hr
    cases hr
    exact .copySurface (readObject_ok.mp hc) (readObject_ok.mp hsrc) (readObject_ok.mp hdst)
  | flushQueue n qid cl =>
    obtain ⟨c, hc, hr⟩ := bind_eq_ok.mp hr
    cases hr
    exact .flushQueue (readObject_ok.mp hc)
  | deleteContext n =>
    obtain ⟨t, ht, hr⟩ := bind_eq_ok.mp hr
    cases hr
    exact .deleteContext ht
  | newSurface tracked desc init =>
    obtain ⟨t, ht, hr⟩ := bind_eq_ok.mp hr
    cases hr
    exact .newSurface ht
  | prepareKernel k type func =>
    obtain ⟨t, ht, hr⟩ := bind_eq_ok.mp hr
    cases hr
    exact .prepareKernel ht
  | deleteKernel k =>
    obtain ⟨t, ht, hr⟩ := bind_eq_ok.mp hr
    cases hr
    exact .deleteKernel ht
  | prepareOperation o n subDevice k type func bindings =>
    obtain ⟨t, ht, hr⟩ := bind_eq_ok.mp hr
    cases hr
    exact .prepareOperation ht
  | dispatch o force uploads kernel =>
    obtain ⟨t, ht, hr⟩ := bind_eq_ok.mp hr
    cases hr
    exact .dispatch ht
  | deleteOperation o uploads kernel =>
    obtain ⟨t, ht, hr⟩ := bind_eq_ok.mp hr
    cases hr
    exact .deleteOperation ht
  | allocSurface n k =>
    obtain ⟨t, ht, hr⟩ := bind_eq_ok.mp hr
    cases hr
    exact .allocSurface ht
  | destroySurface n id =>
    obtain ⟨t, ht, hr⟩ := bind_eq_ok.mp hr
    cases hr
    exact .destroySurface ht

theorem sent_track (s : Accelerator) (tracked : Bool) (id : VMAccelId) (n : ℕ) :
    (s.track tracked id n).sent = s.sent := by
  unfold track
  split_ifs <;> rfl

theorem contexts_track (s : Accelerator) (tracked : Bool) (id : VMAccelId) (n : ℕ) :
    (s.track tracked id n).contexts = s.contexts := by
  unfold track
  split_ifs <;> rfl

def wireDemo (lost : List ℕ) : Wire :=
  ⟨lost, fun _ => .success, fun _ => true, fun _ _ => 0, [Server.platformDemo], fun _ => true⟩

/-- `compute::context` with one queue. -/
def contextDemo (lost : List ℕ) : Action × Wire := (.newContext true 0xF 1 1 0 0, wireDemo lost)

def surfaceDemo : Action × Wire :=
  (.newSurface true { VMAccelSurfaceDesc.zero with type := .buffer, format := .r8Typeless }
    fun _ => 0, wireDemo [])

end Accelerator

end VMAccel
