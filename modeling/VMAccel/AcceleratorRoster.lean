import VMAccel.AcceleratorSpec

/-!
# Who holds which identifier

The part of an accelerator that decides about identifiers: the database, the objects that are alive
with their identifiers, and the trace of the holders. A `Move` is what a call can do to it, and
`act_move` says that every call does one of them.
-/

namespace VMAccel

open StepSystem IdentifierDB

structure Roster where
  refObjectDB : IdentifierDB
  held : List (Holder × VMAccelId)
  contexts : List (Option VMAccelId)
  surfaces : List (Option VMAccelId)
  kernels : List Bool

/-- `alloc_id` returns `id` to the object. -/
def Roster.Obtains (R : Roster) (o : Holder) (id : VMAccelId) (R' : Roster) : Prop :=
  ∃ r, R.refObjectDB.allocId = .ok r ∧ id = r.1.getD invalidId ∧
    R' = { R with
      refObjectDB := r.2
      held := if id = invalidId then R.held else (o, id) :: R.held }

def Wire.losesQueue (wire : Wire) : Prop := wire.lost ≠ [] ∧ 0 ∉ wire.lost

namespace Accelerator

def Action.creates : Action → Prop
  | .newContext _ _ _ _ _ _ | .newSurface _ _ _ => True
  | _ => False

def Action.createsContext : Action → Prop
  | .newContext _ _ _ _ _ _ => True
  | _ => False

end Accelerator

/-- What a call can do to the roster, with the argument of its call to `release_id`. -/
inductive Roster.Move (a : Accelerator.Action × Wire) (R : Roster) :
    Roster → Option (Holder × VMAccelId) → Prop
  | same : Move a R R none
  | kernelId {k : ℕ} {id : VMAccelId} {R' : Roster} (hk : R.kernels[k]? = some true)
    (hobt : R.Obtains (.kernel k) id R') : Move a R R' none
  | context {id : VMAccelId} {R' : Roster} (ha : a.1.creates)
    (hobt : R.Obtains (.context R.contexts.length) id R') :
    Move a R { R' with contexts := R'.contexts ++ [some id] } none
  | contextRefused {id : VMAccelId} {R' : Roster} (ha : a.1.creates)
    (hobt : R.Obtains (.context R.contexts.length) id R') :
    Move a R { R' with contexts := R'.contexts ++ [none] } (some (.context R.contexts.length, id))
  | contextFailed {id q : VMAccelId} {R' : Roster} (ha : a.1.createsContext)
    (hlost : a.2.losesQueue) (hobt : R.Obtains (.context R.contexts.length) id R') :
    Move a R { R' with contexts := R'.contexts ++ [none] } (some (.context R.contexts.length, q))
  | contextGone {n : ℕ} (ha : a.1 = .deleteContext n) :
    Move a R { R with contexts := R.contexts.set n none } none
  | surface {id : VMAccelId} {R' : Roster} (ha : a.1.creates)
    (hobt : R.Obtains (.surface R.surfaces.length) id R') :
    Move a R { R' with surfaces := R'.surfaces ++ [some id] } none
  | surfaceGone {k : ℕ} {id : VMAccelId} (hk : R.surfaces[k]? = some (some id)) :
    Move a R { R with surfaces := R.surfaces.set k none } (some (.surface k, id))
  | kernel : Move a R { R with kernels := R.kernels ++ [true] } none
  | kernelGone {k : ℕ} (ha : a.1 = .deleteKernel k) :
    Move a R { R with kernels := R.kernels.set k false } none

namespace Accelerator

open Roster

variable {s s' : Accelerator} {wire : Wire} {n k : ℕ} {R : Roster}

def roster (s : Accelerator) : Roster where
  refObjectDB := s.refObjectDB
  held := s.held
  contexts := s.contexts.map (Option.map (·.contextId))
  surfaces := s.surfaces.map (Option.map (·.id))
  kernels := s.kernels.map Option.isSome

theorem roster_send (s : Accelerator) (rs : List Server.Request) :
    (s.send rs).roster = s.roster := rfl

theorem map_set_of_getElem? {α β : Type} {f : α → β} {l : List α} {i : ℕ} {a b : α}
    (h : l[i]? = some a) (hf : f b = f a) : (l.set i b).map f = l.map f := by
  obtain ⟨hi, rfl⟩ := List.getElem?_eq_some_iff.mp h
  rw [List.map_set, hf, ← List.map_set, List.set_getElem_self]

theorem roster_setContext {c c' : ClContext} (hc : s.contexts[n]? = some (some c))
    (hid : c'.contextId = c.contextId) : (s.setContext n (some c')).roster = s.roster := by
  have := map_set_of_getElem? (f := Option.map ClContext.contextId) (b := some c') hc
    (congrArg some hid)
  simp only [roster, setContext, this]

theorem roster_setKernel {kern kern' : ClKernel} (hk : s.kernels[k]? = some (some kern)) :
    ({ s with kernels := s.kernels.set k (some kern') } : Accelerator).roster = s.roster := by
  have := map_set_of_getElem? (f := Option.isSome) (b := some kern') hk rfl
  simp only [roster, this]

theorem roster_addContext (s : Accelerator) (c : Option ClContext) :
    ({ s with contexts := s.contexts ++ [c] } : Accelerator).roster =
      { s.roster with contexts := s.roster.contexts ++ [c.map (·.contextId)] } := by
  simp [roster]

theorem obtains_allocId {o : Holder} {r : VMAccelId × Accelerator} (hr : s.allocId o = .ok r) :
    s.roster.Obtains o r.1 r.2.roster := by
  obtain ⟨q, hq, hid, hs⟩ := allocId_ok hr
  rw [hs]
  exact ⟨q, hq, hid, rfl⟩

theorem roster_allocSurface {r : Bool × Accelerator} (h : s.roster = R)
    (hr : s.allocSurface wire n k = .ok r) : r.2.roster = R := by
  obtain ⟨c, surf, hc, -, rfl | ⟨-, cl, fresh, ⟨-, rfl⟩ | ⟨q, -, rfl⟩⟩⟩ := allocSurface_ok hr
  · exact h
  · exact h
  · rw [← h]
    exact roster_setContext (s := s.send _) hc rfl

theorem roster_destroySurface {id : VMAccelId} (h : s.roster = R)
    (hr : s.destroySurface n id = .ok s') : s'.roster = R := by
  obtain ⟨c, hc, rfl | ⟨-, rfl⟩⟩ := destroySurface_ok hr
  · exact h
  · rw [← h]
    exact roster_setContext (s := s.send _) hc rfl

theorem roster_destroySurfaces {ps : List (ℕ × VMAccelId)}
    (hr : s.destroySurfaces ps = .ok s') : s'.roster = s.roster :=
  destroySurfaces_rule (P := fun t => t.roster = s.roster)
    (fun _ _ _ _ h hr => roster_destroySurface h hr) rfl hr

theorem roster_destroy (hr : s.destroy n = .ok s') :
    s'.roster = { s.roster with contexts := s.roster.contexts.set n none } := by
  obtain ⟨t, c, ht, -, hs'⟩ := destroy_ok hr
  have hnone : (t.setContext n none).roster =
      { s.roster with contexts := s.roster.contexts.set n none } := by
    rw [← roster_destroySurfaces ht]
    simp only [roster, setContext, List.map_set]
    rfl
  rcases hs' with ⟨-, rfl⟩ | ⟨-, rfl⟩
  · exact hnone
  · exact hnone

theorem roster_allocQueues (contextId : VMAccelId) (qs : List (BitVec 32 × VMAccelId)) :
    (allocQueues wire contextId s qs).2.roster = s.roster :=
  allocQueues_rule (P := fun t => t.roster = s.roster) wire contextId (fun _ _ _ _ h => h) qs rfl

theorem roster_prepareArgs {queue : VMCLQueueId} {ks : List ℕ}
    {uploads : List (List Command × Bool)} {r : List KernelArg × Accelerator}
    (hr : prepareArgs wire n queue s ks uploads = .ok r) : r.2.roster = s.roster :=
  prepareArgs_rule (P := fun t => t.roster = s.roster) (fun _ _ _ h hr => roster_allocSurface h hr)
    (fun _ _ _ _ h _ => h) rfl hr

theorem roster_submit (queue : VMCLQueueId) (kid : VMAccelId) (argp : DispatchOp) (fuel : ℕ) :
    (submit wire queue kid argp s fuel).2.roster = s.roster :=
  submit_rule (P := fun t => t.roster = s.roster) wire queue kid argp (fun _ _ h => h)
    (fun _ _ h => h) fuel rfl

def KernelObtains (R R' : Roster) : Prop :=
  R' = R ∨ ∃ k id, R.kernels[k]? = some true ∧ R.Obtains (.kernel k) id R'

theorem kernelObtains_prepareKernel {type : KernelLanguage} {func : String}
    (hr : s.prepareKernel wire k type func = .ok s') : KernelObtains s.roster s'.roster := by
  obtain ⟨kern, c, id, t, u, hkern, -, hid, rfl, hs'⟩ := prepareKernel_ok hr
  have hlive : s.roster.kernels[k]? = some true := by
    simp only [roster, List.getElem?_map, hkern]
    rfl
  refine Or.inr ⟨k, id, hlive, ?_⟩
  have hroster := obtains_allocId hid
  obtain ⟨q, -, -, ht⟩ := allocId_ok hid
  have hkern' : t.kernels[k]? = some (some kern) := by rw [← hkern, show t = _ from ht]
  rcases hs' with ⟨-, rfl⟩ | rfl
  · exact hroster
  · exact (roster_setKernel (s := t.send _) hkern').symm ▸ hroster

theorem kernelObtains_dispatch {o : ℕ} {force : Bool} {uploads : List (List Command × Bool)}
    {kernel : List (List Byte) → ℕ → ℕ → Byte}
    (hr : s.dispatch wire o force uploads kernel = .ok s') :
    KernelObtains s.roster s'.roster := by
  obtain ⟨op, c, kid, t, -, -, hid, hs'⟩ := dispatch_ok hr
  have hobt : KernelObtains s.roster t.roster := by
    obtain ⟨kern, -, ⟨-, rfl⟩ | ⟨-, ht, -⟩⟩ := getId_ok hid
    · exact Or.inl rfl
    · exact kernelObtains_prepareKernel ht
  rcases hs' with rfl | ⟨queue, args, u, operations, -, hargs, rfl⟩
  · exact hobt
  · change KernelObtains s.roster (submit _ _ _ _ u _).2.roster
    rw [roster_submit]
    exact (roster_prepareArgs hargs : u.roster = t.roster) ▸ hobt

theorem kernelObtains_prepareOperation {o : ℕ} {op : ComputeOperation}
    (hr : s.prepareOperation wire o op = .ok s') : KernelObtains s.roster s'.roster := by
  rcases prepareOperation_ok hr with rfl | ⟨t, operations, ht, rfl⟩
  · exact Or.inl rfl
  · exact (kernelObtains_prepareKernel ht : KernelObtains s.roster t.roster)

theorem kernelObtains_deleteOperation {o : ℕ} {uploads : List (List Command × Bool)}
    {kernel : List (List Byte) → ℕ → ℕ → Byte}
    (hr : s.deleteOperation wire o uploads kernel = .ok s') :
    KernelObtains s.roster s'.roster := by
  obtain ⟨t, operations, rfl | ht, rfl⟩ := deleteOperation_ok hr
  · exact Or.inl rfl
  · exact (kernelObtains_dispatch ht : KernelObtains s.roster t.roster)

theorem roster_track (tracked : Bool) (id : VMAccelId) :
    (s.track tracked id n).roster = s.roster := by
  unfold track
  split_ifs <;> rfl

theorem move_newContext (hsent : s.sent = []) {tracked : Bool}
    {selectionMask numSubDevices numQueues requiredCaps uninitialised : BitVec 32}
    {r : Accelerator × Option (Holder × VMAccelId)}
    (hr : s.newContext wire tracked selectionMask numSubDevices numQueues requiredCaps
      uninitialised = .ok r) :
    Move (.newContext tracked selectionMask numSubDevices numQueues requiredCaps uninitialised,
      wire) s.roster r.1.roster r.2 := by
  obtain ⟨id, t, u, q, hobt, rfl, rfl, hr⟩ := newContext_ok hr
  obtain ⟨_, -, -, ht⟩ := allocId_ok hobt
  have hlength : s.contexts.length = s.roster.contexts.length := (List.length_map _).symm
  have hlength' : t.roster.contexts.length = s.roster.contexts.length := by
    rw [show t = _ from ht]
    rfl
  have hobt : s.roster.Obtains (.context s.roster.contexts.length) id t.roster :=
    hlength ▸ obtains_allocId hobt
  rcases hr with ⟨-, rfl⟩ | ⟨hreply, qid, v, hqid, hv, rfl⟩ | ⟨-, -, rfl⟩
  · rw [roster_addContext, roster_send, hlength]
    exact .contextRefused trivial hobt
  · have hlost : wire.losesQueue := by
      constructor
      · intro h
        rw [allocQueues_eq_none.mpr (by simp [h])] at hqid
        cases hqid
      · have hsent : t.sent = [] := by rw [← hsent, show t = _ from ht]
        rwa [replies, hsent] at hreply
    rw [roster_destroy hv, roster_addContext, roster_allocQueues, roster_send, hlength,
      ← hlength', Option.map_some, List.set_append_right _ _ le_rfl, Nat.sub_self, hlength']
    have hmove := Move.contextFailed (a := (.newContext tracked selectionMask numSubDevices
      numQueues requiredCaps uninitialised, wire)) (q := qid) trivial hlost hobt
    exact hmove
  · rw [roster_track, roster_addContext, roster_allocQueues, roster_send]
    exact .context trivial hobt

theorem move_newSurface {tracked : Bool} {desc : VMAccelSurfaceDesc} {init : ℕ → Byte}
    (hr : s.newSurface tracked desc init = .ok s') :
    Move (.newSurface tracked desc init, wire) s.roster s'.roster none := by
  obtain ⟨id, t, surf, hid, rfl, rfl⟩ := newSurface_ok hr
  obtain ⟨_, -, -, ht⟩ := allocId_ok hid
  have hobt : s.roster.Obtains (.surface s.roster.surfaces.length) surf.id t.roster := by
    rw [show s.roster.surfaces.length = s.surfaces.length from List.length_map _]
    exact obtains_allocId hid
  have hmove := Move.surface (a := (.newSurface tracked desc init, wire)) trivial hobt
  have hsurfaces : t.roster.surfaces = s.roster.surfaces := by
    rw [show t = _ from ht]
    rfl
  rw [hsurfaces] at hmove
  simpa only [roster, List.map_append, List.map_cons, List.map_nil, Option.map_some] using hmove

theorem move_deleteContext (hr : s.deleteContext n = .ok s') :
    Move (.deleteContext n, wire) s.roster s'.roster none := by
  rcases deleteContext_ok hr with rfl | hr
  · exact .same
  · rw [roster_destroy hr]
    exact .contextGone rfl

theorem move_deleteSurface {r : Accelerator × Option (Holder × VMAccelId)}
    (hr : s.deleteSurface k = .ok r) :
    Move (.deleteSurface k, wire) s.roster r.1.roster r.2 := by
  rcases deleteSurface_ok hr with rfl | ⟨surf, t, hsurf, ht, rfl⟩
  · exact .same
  · have hk : s.roster.surfaces[k]? = some (some surf.id) := by
      simp only [roster, List.getElem?_map, hsurf]
      rfl
    have hmove := Move.surfaceGone (a := (.deleteSurface k, wire)) hk
    rw [← roster_destroySurfaces ht] at hmove ⊢
    simpa only [roster, List.map_set, Option.map_none] using hmove

theorem move_deleteKernel (hr : s.deleteKernel k = .ok s') :
    Move (.deleteKernel k, wire) s.roster s'.roster none := by
  rcases deleteKernel_ok hr with rfl | ⟨kern, c, -, -, rfl⟩
  · exact .same
  · have hmove := Move.kernelGone (a := (.deleteKernel k, wire)) (R := s.roster) rfl
    simpa only [roster, send, List.map_set, Option.isSome_none] using hmove

theorem KernelObtains.move {a : Action × Wire} {R R' : Roster} (h : KernelObtains R R') :
    Move a R R' none := by
  rcases h with rfl | ⟨k, id, hk, hobt⟩
  · exact .same
  · exact .kernelId hk hobt

theorem act_move (hsent : s.sent = []) {a : Action}
    {r : Accelerator × Option (Holder × VMAccelId)} (hr : s.act wire a = .ok r) :
    Move (a, wire) s.roster r.1.roster r.2 := by
  cases acts hr with
  | newContext ht => exact move_newContext hsent ht
  | deleteSurface ht => exact move_deleteSurface ht
  | newSurface ht => exact move_newSurface ht
  | deleteContext ht => exact move_deleteContext ht
  | deleteKernel ht => exact move_deleteKernel ht
  | @newKernel n =>
    have hmove := Move.kernel (a := (.newKernel n, wire)) (R := s.roster)
    simpa only [roster, List.map_append, List.map_cons, List.map_nil, Option.isSome_some]
      using hmove
  | prepareKernel ht => exact (kernelObtains_prepareKernel ht).move
  | prepareOperation ht => exact (kernelObtains_prepareOperation ht).move
  | dispatch ht => exact (kernelObtains_dispatch ht).move
  | deleteOperation ht => exact (kernelObtains_deleteOperation ht).move
  | allocSurface ht =>
    rw [roster_allocSurface rfl ht]
    exact .same
  | destroySurface ht =>
    rw [roster_destroySurface rfl ht]
    exact .same
  | newOperation | untrackContext | untrackSurface | command | copySurface | flushQueue =>
    exact .same

end Accelerator

end VMAccel
