import VMAccel.AcceleratorSpec

/-!
# The contexts of an accelerator over a run

`clcontext::alloc` sets the identifier of a context and the number of its devices. As long as the
context is there, no other call changes these two fields.
-/

namespace VMAccel

open StepSystem

/-- The contexts of `cs` that are still in `cs'` have kept their identifier and their number of
devices. -/
def Carries (cs cs' : List (Option ClContext)) : Prop :=
  cs.length ≤ cs'.length ∧ ∀ (n : ℕ) (c' : ClContext), n < cs.length → cs'[n]? = some (some c') →
    ∃ c, cs[n]? = some (some c) ∧ c'.contextId = c.contextId ∧ c'.numSubDevices = c.numSubDevices

namespace Carries

variable {cs cs' cs'' : List (Option ClContext)} {n : ℕ}

theorem refl (cs : List (Option ClContext)) : Carries cs cs :=
  ⟨le_rfl, fun _ c _ hc => ⟨c, hc, rfl, rfl⟩⟩

theorem trans (h : Carries cs cs') (h' : Carries cs' cs'') : Carries cs cs'' := by
  refine ⟨h.1.trans h'.1, fun n c'' hn hc'' => ?_⟩
  obtain ⟨c', hc', hid', hnum'⟩ := h'.2 n c'' (hn.trans_le h.1) hc''
  obtain ⟨c, hc, hid, hnum⟩ := h.2 n c' hn hc'
  exact ⟨c, hc, hid'.trans hid, hnum'.trans hnum⟩

theorem set_some {c c' : ClContext} (hc : cs[n]? = some (some c))
    (hid : c'.contextId = c.contextId) (hnum : c'.numSubDevices = c.numSubDevices) :
    Carries cs (cs.set n (some c')) := by
  refine ⟨List.length_set.ge, fun m d hm hd => ?_⟩
  by_cases hnm : n = m
  · subst hnm
    rw [List.getElem?_set_self hm] at hd
    cases hd
    exact ⟨c, hc, hid, hnum⟩
  · rw [List.getElem?_set_ne hnm] at hd
    exact ⟨d, hd, rfl, rfl⟩

theorem set_none (cs : List (Option ClContext)) (n : ℕ) : Carries cs (cs.set n none) :=
  ⟨List.length_set.ge, fun _ d _ hd => ⟨d, (getElem?_set_none hd).2, rfl, rfl⟩⟩

theorem snoc (cs : List (Option ClContext)) (o : Option ClContext) : Carries cs (cs ++ [o]) := by
  refine ⟨by simp, fun m d hm hd => ?_⟩
  rw [List.getElem?_append_left hm] at hd
  exact ⟨d, hd, rfl, rfl⟩

end Carries

namespace Accelerator

variable {s s' : Accelerator} {wire : Wire} {n k : ℕ}

theorem carries_allocSurface {r : Bool × Accelerator} (hr : s.allocSurface wire n k = .ok r) :
    Carries s.contexts r.2.contexts := by
  obtain ⟨c, surf, hc, -, rfl | ⟨-, cl, fresh, ⟨-, rfl⟩ | ⟨q, -, rfl⟩⟩⟩ := allocSurface_ok hr
  · exact .refl _
  · exact .refl _
  · exact .set_some hc rfl rfl

theorem carries_destroySurface {id : VMAccelId} (hr : s.destroySurface n id = .ok s') :
    Carries s.contexts s'.contexts := by
  obtain ⟨c, hc, rfl | ⟨-, rfl⟩⟩ := destroySurface_ok hr
  · exact .refl _
  · exact .set_some hc rfl rfl

theorem carries_destroySurfaces {ps : List (ℕ × VMAccelId)}
    (hr : s.destroySurfaces ps = .ok s') : Carries s.contexts s'.contexts :=
  destroySurfaces_rule (P := fun t => Carries s.contexts t.contexts)
    (fun _ _ _ _ h hr => h.trans (carries_destroySurface hr)) (.refl _) hr

theorem carries_destroy (hr : s.destroy n = .ok s') : Carries s.contexts s'.contexts := by
  obtain ⟨t, c, ht, -, ⟨-, rfl⟩ | ⟨-, rfl⟩⟩ := destroy_ok hr
  · exact (carries_destroySurfaces ht).trans (.set_none _ _)
  · exact (carries_destroySurfaces ht).trans (.set_none _ _)

theorem contexts_allocId {o : Holder} {id : VMAccelId} (hr : s.allocId o = .ok (id, s')) :
    s'.contexts = s.contexts := by
  obtain ⟨q, -, -, hs'⟩ := allocId_ok hr
  rw [show s' = _ from hs']

theorem contexts_prepareKernel {type : KernelLanguage} {func : String}
    (hr : s.prepareKernel wire k type func = .ok s') : s'.contexts = s.contexts := by
  obtain ⟨kern, c, id, t, u, -, -, hid, rfl, hs'⟩ := prepareKernel_ok hr
  have ht := contexts_allocId hid
  rcases hs' with ⟨-, rfl⟩ | rfl
  · exact ht
  · exact ht

theorem contexts_submit (wire : Wire) (s : Accelerator) (queue : VMCLQueueId) (kid : VMAccelId)
    (argp : DispatchOp) (fuel : ℕ) :
    (submit wire queue kid argp s fuel).2.contexts = s.contexts :=
  submit_rule (P := fun t => t.contexts = s.contexts) wire queue kid argp (fun _ _ h => h)
    (fun _ _ h => h) fuel rfl

theorem contexts_allocQueues (contextId : VMAccelId) (qs : List (BitVec 32 × VMAccelId)) :
    (allocQueues wire contextId s qs).2.contexts = s.contexts :=
  allocQueues_rule (P := fun t => t.contexts = s.contexts) wire contextId (fun _ _ _ _ h => h) qs
    rfl

theorem carries_dispatch {o : ℕ} {force : Bool} {uploads : List (List Command × Bool)}
    {kernel : List (List Byte) → ℕ → ℕ → Byte}
    (hr : s.dispatch wire o force uploads kernel = .ok s') : Carries s.contexts s'.contexts := by
  obtain ⟨op, c, kid, t, -, -, hid, hs'⟩ := dispatch_ok hr
  have ht : t.contexts = s.contexts := by
    obtain ⟨kern, -, ⟨-, rfl⟩ | ⟨-, hprep, -⟩⟩ := getId_ok hid
    · rfl
    · exact contexts_prepareKernel hprep
  rw [← ht]
  rcases hs' with rfl | ⟨queue, args, u, operations, -, hargs, rfl⟩
  · exact .refl _
  · have hprepared : Carries t.contexts u.contexts :=
      prepareArgs_rule (P := fun v => Carries t.contexts v.contexts)
        (fun _ _ _ h hr => h.trans (carries_allocSurface hr)) (fun _ _ _ _ h _ => h) (.refl _) hargs
    rw [← contexts_submit wire u queue kid ⟨args, 1, kernel⟩ retryMaxCount] at hprepared
    exact hprepared

theorem carries_newContext {tracked : Bool}
    {selectionMask numSubDevices numQueues requiredCaps uninitialised : BitVec 32}
    {r : Accelerator × Option (Holder × VMAccelId)}
    (hr : s.newContext wire tracked selectionMask numSubDevices numQueues requiredCaps
      uninitialised = .ok r) : Carries s.contexts r.1.contexts := by
  obtain ⟨id, t, u, q, hid, rfl, rfl, hcases⟩ := newContext_ok hr
  have ht := contexts_allocId hid
  rw [← ht]
  have hq : ∀ {rs qs}, (allocQueues wire id (t.send rs) qs).2.contexts = t.contexts :=
    contexts_allocQueues _ _
  rcases hcases with ⟨-, rfl⟩ | ⟨-, qid, v, -, hv, rfl⟩ | ⟨-, -, rfl⟩
  · exact .snoc _ _
  · refine Carries.trans ?_ (carries_destroy hv)
    rw [hq]
    exact .snoc _ _
  · rw [contexts_track, hq]
    exact .snoc _ _

theorem carries_act {a : Action} {r : Accelerator × Option (Holder × VMAccelId)}
    (hr : s.act wire a = .ok r) : Carries s.contexts r.1.contexts := by
  cases acts hr with
  | newContext ht => exact carries_newContext ht
  | deleteContext ht =>
    rcases deleteContext_ok ht with rfl | ht
    · exact .refl _
    · exact carries_destroy ht
  | newSurface ht =>
    obtain ⟨id, t, surf, hid, -, rfl⟩ := newSurface_ok ht
    rw [← contexts_allocId hid]
    exact .refl _
  | deleteSurface ht =>
    rcases deleteSurface_ok ht with rfl | ⟨surf, t, -, ht', rfl⟩
    · exact .refl _
    · have hcarries := carries_destroySurfaces ht'
      exact hcarries
  | prepareKernel ht =>
    rw [contexts_prepareKernel ht]
    exact .refl _
  | deleteKernel ht =>
    rcases deleteKernel_ok ht with rfl | ⟨kern, c, -, -, rfl⟩
    · exact .refl _
    · exact .refl _
  | prepareOperation ht =>
    rcases prepareOperation_ok ht with rfl | ⟨t, operations, ht', rfl⟩
    · exact .refl _
    · rw [← contexts_prepareKernel ht']
      exact .refl _
  | dispatch ht => exact carries_dispatch ht
  | deleteOperation ht =>
    obtain ⟨t, operations, rfl | ht', rfl⟩ := deleteOperation_ok ht
    · exact .refl _
    · have hcarries := carries_dispatch ht'
      exact hcarries
  | allocSurface ht => exact carries_allocSurface ht
  | destroySurface ht => exact carries_destroySurface ht
  | untrackContext | untrackSurface | newKernel | newOperation | command | copySurface
  | flushQueue => exact .refl _

theorem step_ok {a : Action × Wire} (hr : s.step a = .ok s') :
    ∃ r, act { s with sent := [] } a.2 a.1 = .ok r ∧ s'.contexts = r.1.contexts ∧
      s'.sent = r.1.sent := by
  obtain ⟨⟨t, released⟩, ht, hr⟩ := bind_eq_ok.mp hr
  refine ⟨(t, released), ht, ?_⟩
  cases released with
  | none =>
    cases hr
    exact ⟨rfl, rfl⟩
  | some p =>
    obtain ⟨db, -, hr⟩ := bind_eq_ok.mp hr
    cases hr
    exact ⟨rfl, rfl⟩

theorem carries_step {a : Action × Wire} (hr : s.step a = .ok s') :
    Carries s.contexts s'.contexts := by
  obtain ⟨r, hact, hcontexts, -⟩ := step_ok hr
  have hcarries := carries_act hact
  rwa [← hcontexts] at hcarries

theorem carries_run {as : List (Action × Wire)} (hr : run step s as = .ok s') :
    Carries s.contexts s'.contexts :=
  run_invariant (I := fun t => Carries s.contexts t.contexts) (C := fun _ _ => True)
    (fun _ _ _ h _ ht => h.trans (carries_step ht)) (.refl _) (eachInput_true _ _) hr

end Accelerator

end VMAccel
