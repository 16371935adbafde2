import VMAccel.AcceleratorServer

/-!
# Surfaces that are resident

Over a reliable transport, and with every allocation of a surface granted by the server, a surface
that a context takes for resident belongs to the context on the server. Then no request to destroy
a surface finds its identifier inactive. Two contexts that bind the same surface break both.
-/

namespace VMAccel

open StepSystem IdentifierDB Server

namespace Accelerator

open Roster

variable {s s' : Accelerator} {σ : Server} {wire : Wire} {n k : ℕ}

theorem Tracked.of_contexts (h : Tracked σ s) (hsent : s'.sent = s.sent)
    (hcontexts : ∀ (m : ℕ) d, s'.contexts[m]? = some (some d) →
      s.contexts[m]? = some (some d) ∨ ∀ id, ¬ d.residencyDB.Active id) : Tracked σ s' := by
  intro hg
  rw [hsent] at hg ⊢
  obtain ⟨hd, hrun⟩ := h hg
  refine ⟨hd, fun τ hτ => ?_⟩
  obtain ⟨hwf, hplaced, hagrees⟩ := hrun τ hτ
  refine ⟨hwf, fun m d id hd hact => ?_, fun m d id hd hact => ?_⟩
  · exact hplaced m d id ((hcontexts m d hd).resolve_right fun hno => hno id hact) hact
  · exact hagrees m d id ((hcontexts m d hd).resolve_right fun hno => hno id hact) hact

theorem Tracked.destroySurfaces (h : Tracked σ s) (hids : Ids s.roster)
    {ps : List (ℕ × VMAccelId)} (hr : s.destroySurfaces ps = .ok s') : Tracked σ s' := by
  refine (destroySurfaces_rule (P := fun t => t.roster = s.roster ∧ Tracked σ t) ?_ ⟨rfl, h⟩ hr).2
  rintro t t' m id ⟨hroster, ht⟩ hr
  exact ⟨roster_destroySurface hroster hr, ht.destroySurface (hroster ▸ hids) hr⟩

theorem Tracked.destroy (h : Tracked σ s) (hids : Ids s.roster) (hr : s.destroy n = .ok s') :
    Tracked σ s' := by
  obtain ⟨t, c, ht, -, hs'⟩ := destroy_ok hr
  have hgone : Tracked σ (t.setContext n none) :=
    (h.destroySurfaces hids ht).of_contexts rfl fun m d hd => Or.inl (getElem?_set_none hd).2
  rcases hs' with ⟨-, rfl⟩ | ⟨-, rfl⟩
  · exact hgone
  · refine hgone.send _ fun r hmem => ?_
    rcases List.mem_append.mp hmem with hmem | hmem
    · obtain ⟨i, -, rfl⟩ := List.mem_map.mp hmem
      trivial
    · rw [List.mem_singleton.mp hmem]
      trivial

theorem Tracked.allocId (h : Tracked σ s) {o : Holder} {id : VMAccelId}
    (hr : s.allocId o = .ok (id, s')) : Tracked σ s' := by
  obtain ⟨q, -, -, hs'⟩ := allocId_ok hr
  rw [show s' = _ from hs']
  exact h

theorem Tracked.newContext (h : Tracked σ s) (hlost : wire.lost = []) {tracked : Bool}
    {selectionMask numSubDevices numQueues requiredCaps uninitialised : BitVec 32}
    {r : Accelerator × Option (Holder × VMAccelId)}
    (hr : s.newContext wire tracked selectionMask numSubDevices numQueues requiredCaps
      uninitialised = .ok r) : Tracked σ r.1 := by
  obtain ⟨id, t, u, q, hid, rfl, rfl, hr⟩ := newContext_ok hr
  rcases hr with ⟨hreply, -⟩ | ⟨-, qid, v, hqid, -⟩ | ⟨-, -, rfl⟩
  · exact absurd (by simp [replies, hlost]) hreply
  · rw [allocQueues_eq_none.mpr (by simp [hlost])] at hqid
    cases hqid
  · have hqueues := allocQueues_rule (P := Tracked σ) wire id
      (fun _ _ _ _ h => h.send_one trivial)
      (queueSlots (atLeastOne numSubDevices) (atLeastOne numQueues))
      ((h.allocId hid).send_one (r := .contextalloc ⟨id, selectionMask, atLeastOne numSubDevices,
        requiredCaps⟩ wire.platforms) trivial)
    refine hqueues.of_contexts (sent_track ..) fun m d hd => ?_
    rw [contexts_track] at hd
    refine (getElem?_snoc hd).imp_right fun heq id hact => ?_
    obtain ⟨-, heq⟩ := heq
    cases heq
    exact absurd (hact.2.symm.trans (bit_alloc _ _)) (Ne.symm Bool.false_ne_true)

theorem Tracked.prepareKernel (h : Tracked σ s) {type : KernelLanguage} {func : String}
    (hr : s.prepareKernel wire k type func = .ok s') : Tracked σ s' := by
  obtain ⟨kern, c, id, t, u, -, -, hid, rfl, hs'⟩ := prepareKernel_ok hr
  have hsent := (h.allocId hid).send_one (r := .kernelalloc ⟨⟨c.contextId, id⟩, 0, type⟩
    (wire.cl t.sent.length)) trivial
  rcases hs' with ⟨-, rfl⟩ | rfl
  · exact hsent
  · exact hsent

theorem quiet_request (queue : VMCLQueueId) (sid : VMAccelId) (cmd : Command) :
    Quiet (cmd.request queue sid) := by
  cases cmd <;> trivial

theorem Tracked.dispatch (h : Tracked σ s) (hlost : wire.lost = []) {o : ℕ} {force : Bool}
    {uploads : List (List Command × Bool)} {kernel : List (List Byte) → ℕ → ℕ → Byte}
    (hr : s.dispatch wire o force uploads kernel = .ok s') : Tracked σ s' := by
  obtain ⟨op, c, kid, t, -, -, hid, hs'⟩ := dispatch_ok hr
  have ht : Tracked σ t := by
    obtain ⟨kern, -, ⟨-, rfl⟩ | ⟨-, ht, -⟩⟩ := getId_ok hid
    · exact h
    · exact h.prepareKernel ht
  rcases hs' with rfl | ⟨queue, args, u, operations, -, hargs, rfl⟩
  · exact ht
  · have hu : Tracked σ u := by
      refine prepareArgs_rule (fun s k r h hr => h.allocSurface hlost hr)
        (fun s k surf cmds h _ => h.send _ fun r hmem => ?_) ht hargs
      obtain ⟨cmd, -, rfl⟩ := List.mem_map.mp hmem
      exact quiet_request _ _ cmd
    have hsubmit := submit_rule (P := Tracked σ) wire queue kid ⟨args, 1, kernel⟩
      (fun _ _ h => h.send_one trivial) (fun _ _ h => h.send_one trivial) retryMaxCount hu
    exact hsubmit

theorem Tracked.act (h : Tracked σ s) (hids : Ids s.roster) (hlost : wire.lost = []) {a : Action}
    {r : Accelerator × Option (Holder × VMAccelId)} (hr : s.act wire a = .ok r) :
    Tracked σ r.1 := by
  cases acts hr with
  | newContext ht => exact h.newContext hlost ht
  | newSurface ht =>
    obtain ⟨id, u, surf, hid, -, rfl⟩ := newSurface_ok ht
    have hobtained := h.allocId hid
    exact hobtained
  | deleteContext ht =>
    rcases deleteContext_ok ht with rfl | ht
    · exact h
    · exact h.destroy hids ht
  | deleteSurface ht =>
    rcases deleteSurface_ok ht with rfl | ⟨surf, u, -, hu, rfl⟩
    · exact h
    · have hgone := h.destroySurfaces hids hu
      exact hgone
  | deleteKernel ht =>
    rcases deleteKernel_ok ht with rfl | ⟨kern, c, -, -, rfl⟩
    · exact h
    · have hsent := h.send (kern.variants.map fun v => .kerneldestroy ⟨c.contextId, v.2⟩)
        fun r hmem => by
          obtain ⟨v, -, rfl⟩ := List.mem_map.mp hmem
          trivial
      exact hsent
  | prepareKernel ht => exact h.prepareKernel ht
  | prepareOperation ht =>
    rcases prepareOperation_ok ht with rfl | ⟨u, operations, hu, rfl⟩
    · exact h
    · have hprepared := h.prepareKernel hu
      exact hprepared
  | dispatch ht => exact h.dispatch hlost ht
  | deleteOperation ht =>
    obtain ⟨u, operations, rfl | hu, rfl⟩ := deleteOperation_ok ht
    · exact h
    · have hdispatched := h.dispatch hlost hu
      exact hdispatched
  | allocSurface ht => exact h.allocSurface hlost ht
  | destroySurface ht => exact h.destroySurface hids ht
  | newOperation | newKernel | untrackContext | untrackSurface => exact h
  | command => exact h.send_one (quiet_request _ _ _)
  | copySurface | flushQueue => exact h.send_one trivial

end Accelerator

namespace World

open Accelerator (Placed Tracked wireDemo contextDemo surfaceDemo requests ids_new ids_step)

variable {w w' : World}

/-- The server grants every surface that the call allocates. -/
def GrantsAll (w : World) (a : Accelerator.Action × Wire) : Prop :=
  EachInput Server.step GrantsSurface w.server (w.accel.requests a)

/-- Every surface that the call destroys is active on the server by then. -/
def DestroysAllActive (w : World) (a : Accelerator.Action × Wire) : Prop :=
  EachInput Server.step DestroysActive w.server (w.accel.requests a)

instance (w : World) (a : Accelerator.Action × Wire) : Decidable (w.GrantsAll a) :=
  inferInstanceAs (Decidable (EachInput _ _ _ _))

structure Resident (w : World) : Prop where
  ids : Roster.Ids w.accel.roster
  wellFormed : w.server.WellFormed
  placed : Placed w.accel.contexts
  agrees : Agrees w.accel.contexts w.server

theorem Resident.tracked (h : Resident w) : Tracked w.server { w.accel with sent := [] } := by
  refine fun _ => ⟨trivial, fun τ hτ => ?_⟩
  cases hτ
  exact ⟨h.wellFormed, h.placed, h.agrees⟩

theorem Resident.destroysAllActive (h : Resident w) {a : Accelerator.Action × Wire}
    (hlost : a.2.lost = []) (hg : w.GrantsAll a) : w.DestroysAllActive a := by
  unfold GrantsAll at hg
  unfold DestroysAllActive
  unfold requests at hg ⊢
  split at hg
  · rename_i r hr
    exact (h.tracked.act h.ids hlost hr hg).1
  · trivial

theorem Resident.step (h : Resident w) {a : Accelerator.Action × Wire} (hlost : a.2.lost = [])
    (hg : w.GrantsAll a) (hr : w.step a = .ok w') : Resident w' := by
  obtain ⟨accel, haccel, hr⟩ := bind_eq_ok.mp hr
  obtain ⟨server, hserver, hr⟩ := bind_eq_ok.mp hr
  cases hr
  have hids : Roster.Ids accel.roster :=
    ids_step h.ids (fun _ hloses => hloses.1 hlost) haccel
  obtain ⟨⟨t, rel⟩, hact, haccel⟩ := bind_eq_ok.mp haccel
  have hsame : accel.sent = t.sent ∧ accel.contexts = t.contexts := by
    cases rel with
    | none =>
      cases haccel
      exact ⟨rfl, rfl⟩
    | some p =>
      obtain ⟨db, -, haccel⟩ := bind_eq_ok.mp haccel
      cases haccel
      exact ⟨rfl, rfl⟩
  unfold GrantsAll requests at hg
  rw [hact] at hg
  rw [hsame.1] at hserver
  obtain ⟨hwf, hplaced, hagrees⟩ := (h.tracked.act h.ids hlost hact hg).2 server hserver
  exact ⟨hids, hwf, hsame.2 ▸ hplaced, hsame.2 ▸ hagrees⟩

theorem resident_start : Resident start where
  ids := ids_new
  wellFormed := wellFormed_powerOn
  placed := nofun
  agrees := nofun

/-- Over a reliable transport, along a run whose allocations are granted, the contexts agree with
the server on the surfaces that are resident, and no destruction finds its surface inactive. -/
theorem residency_agrees {as : List (Accelerator.Action × Wire)}
    (hreliable : ∀ a ∈ as, a.2.lost = []) (hg : EachInput step GrantsAll start as) :
    (∀ w, run step start as = .ok w → Agrees w.accel.contexts w.server) ∧
      EachInput step DestroysAllActive start as := by
  have hstep : ∀ w a w', Resident w → a.2.lost = [] ∧ w.GrantsAll a → step w a = .ok w' →
      Resident w' := fun w a w' h hc hr => h.step hc.1 hc.2 hr
  constructor
  · intro w hrun
    exact (run_invariant hstep resident_start (hg.and_forall hreliable) hrun).agrees
  · exact eachInput_of_invariant (I := Resident)
      (fun w a h hc => h.destroysAllActive hc.1 hc.2) hstep resident_start
      (hg.and_forall hreliable)

def sharedDemo : List (Accelerator.Action × Wire) :=
  [contextDemo [], contextDemo [], surfaceDemo, (.allocSurface 0 0, wireDemo [])]

/-- The second context takes the surface for resident although it belongs to the first one, and
the destruction of the surface is asked for twice. -/
theorem assertion_of_shared_surface :
    ∃ w, run step start (sharedDemo ++ [(.allocSurface 1 0, wireDemo [])]) = .ok w ∧
      (∃ o ∈ w.accel.contexts[1]?, ∃ c ∈ o, c.residencyDB.Active 2 ∧
        ∃ surf ∈ w.server.backend.surfaces[2]?, surf.cid ≠ c.contextId) ∧
      run step w [(.untrackSurface 0, wireDemo []), (.deleteSurface 0, wireDemo [])] =
        .error .assertion := by
  decide +kernel

def residentDemo : List (Accelerator.Action × Wire) :=
  sharedDemo ++ [(.destroySurface 0 2, wireDemo []), (.allocSurface 1 0, wireDemo []),
    (.untrackSurface 0, wireDemo []), (.deleteSurface 0, wireDemo [])]

theorem residency_agrees_demo : EachInput step DestroysAllActive start residentDemo ∧
    ∃ w, run step start residentDemo = .ok w ∧ Agrees w.accel.contexts w.server := by
  obtain ⟨w, hw, -⟩ : ∃ w, run step start residentDemo = .ok w ∧ True := by decide +kernel
  have hreliable : ∀ a ∈ residentDemo, a.2.lost = [] := by decide +kernel
  obtain ⟨hagrees, hactive⟩ := residency_agrees hreliable (by decide +kernel)
  exact ⟨hactive, w, hw, hagrees w hw⟩

end World

end VMAccel
