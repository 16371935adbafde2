import VMAccel.AcceleratorIds

/-!
# Identifiers and the lifetime of objects

A context whose constructor fails at a queue releases the identifier of the queue instead of its
own. Without this, objects release what they have obtained. The destructors of contexts and kernels
release no identifier. Without these as well, every active identifier belongs to an object that is
alive.
-/

namespace VMAccel

open StepSystem IdentifierDB

namespace Roster

variable {R R' : Roster} {o : Holder} {id : VMAccelId}

/-- The object is alive and has the identifier. -/
def Live (R : Roster) : Holder × VMAccelId → Prop
  | (.context n, id) => R.contexts[n]? = some (some id)
  | (.surface k, id) => R.surfaces[k]? = some (some id)
  | (.kernel k, _) => R.kernels[k]? = some true

structure Owning (R : Roster) : Prop extends Ids R where
  surface_valid : ∀ k : ℕ, R.surfaces[k]? ≠ some (some invalidId)

structure Accounted (R : Roster) : Prop extends Owning R where
  active_held : ∀ id, R.refObjectDB.Active id → ∃ o, (o, id) ∈ R.held
  held_live : ∀ p ∈ R.held, R.Live p

theorem Accounted.of_grant (h : Accounted R) (hf : R.Free id) (howning : Owning R')
    (hdb : R'.refObjectDB = (R.grant o id).refObjectDB) (hheld : R'.held = (o, id) :: R.held)
    (hnew : R'.Live (o, id)) (hlive : ∀ p, R.Live p → R'.Live p) : Accounted R' := by
  refine ⟨howning, fun j hj => ?_, fun p hp => ?_⟩
  · rw [hdb, hf.active_grant] at hj
    rw [hheld]
    rcases hj with hj | rfl
    · obtain ⟨o', ho'⟩ := h.active_held j hj
      exact ⟨o', List.mem_cons_of_mem _ ho'⟩
    · exact ⟨o, List.mem_cons_self⟩
  · rw [hheld] at hp
    rcases List.mem_cons.mp hp with rfl | hp
    · exact hnew
    · exact hlive p (h.held_live p hp)

theorem getElem?_snoc_of {α : Type} {l : List α} {a b : α} {i : ℕ} (h : l[i]? = some a) :
    (l ++ [b])[i]? = some a := by
  rw [List.getElem?_append_left (List.getElem?_eq_some_iff.mp h).1, h]

theorem Live.addContext (c : Option VMAccelId) {p : Holder × VMAccelId} (h : R.Live p) :
    Live { R with contexts := R.contexts ++ [c] } p := by
  rcases p with ⟨n | k | k, id⟩
  · exact getElem?_snoc_of h
  · exact h
  · exact h

theorem Live.addSurface (c : Option VMAccelId) {p : Holder × VMAccelId} (h : R.Live p) :
    Live { R with surfaces := R.surfaces ++ [c] } p := by
  rcases p with ⟨n | k | k, id⟩
  · exact h
  · exact getElem?_snoc_of h
  · exact h

theorem Live.addKernel {p : Holder × VMAccelId} (h : R.Live p) :
    Live { R with kernels := R.kernels ++ [true] } p := by
  rcases p with ⟨n | k | k, id⟩
  · exact h
  · exact h
  · exact getElem?_snoc_of h

theorem Accounted.dropSurface (h : Accounted R) {k : ℕ} (hk : R.surfaces[k]? = some (some id))
    (hact : R.refObjectDB.Active id)
    (howning : Owning (release { R with surfaces := R.surfaces.set k none } (.surface k) id)) :
    Accounted (release { R with surfaces := R.surfaces.set k none } (.surface k) id) := by
  have hids : Ids { R with surfaces := R.surfaces.set k none } := h.toIds.dropSurface k
  refine ⟨howning, fun j hj => ?_, fun p hp => ?_⟩
  · obtain ⟨hj, hne⟩ := (active_release (R := { R with surfaces := R.surfaces.set k none })
      (o := .surface k) hact j).mp hj
    obtain ⟨o, ho⟩ := h.active_held j hj
    exact ⟨o, hids.mem_release.mpr ⟨fun heq => hne (Prod.mk.inj heq).2, ho⟩⟩
  · obtain ⟨hne, hp⟩ := hids.mem_release.mp hp
    have hlive := h.held_live p hp
    rcases p with ⟨n | m | m, id'⟩
    · exact hlive
    · change (R.surfaces.set k none)[m]? = some (some id')
      have hmk : k ≠ m := by
        rintro rfl
        have heq : some (some id) = some (some id') := hk.symm.trans hlive
        simp only [Option.some.injEq] at heq
        exact hne (by rw [heq])
      rw [List.getElem?_set_ne hmk]
      exact hlive
    · exact hlive

theorem Accounted.dropKernel (h : Accounted R) {k : ℕ} (hk : ∀ p ∈ R.held, p.1 ≠ .kernel k) :
    Accounted { R with kernels := R.kernels.set k false } := by
  refine ⟨⟨{ h.toIds with }, h.surface_valid⟩, h.active_held, fun p hp => ?_⟩
  have hlive := h.held_live p hp
  have hne := hk p hp
  rcases p with ⟨n | m | m, id'⟩
  · exact hlive
  · exact hlive
  · change (R.kernels.set k false)[m]? = some true
    rw [List.getElem?_set_ne fun heq => hne (congrArg Holder.kernel heq.symm)]
    exact hlive

end Roster

namespace Accelerator

open Roster

variable {s s' : Accelerator}

/-- The argument of `release_id` is an identifier that the object has obtained from `alloc_id` and
not yet released. -/
def ReleasesOwn (s : Accelerator) (a : Action × Wire) : Prop :=
  ∀ r, act { s with sent := [] } a.2 a.1 = .ok r → ∀ p ∈ r.2, p ∈ r.1.held

/-- There is an identifier left for every new context and surface, and no context fails at a
queue. -/
def ObtainsIds (s : Accelerator) (a : Action × Wire) : Prop :=
  match a.1 with
  | .newContext _ _ _ _ _ _ => s.refObjectDB.free ≠ 0 ∧ ¬ a.2.losesQueue
  | .newSurface _ _ _ => s.refObjectDB.free ≠ 0
  | _ => True

/-- No context is destroyed, and no kernel that has obtained an identifier. -/
def LeaksNone (s : Accelerator) (a : Action × Wire) : Prop :=
  match a.1 with
  | .deleteContext _ => False
  | .deleteKernel k => ∀ p ∈ s.held, p.1 ≠ .kernel k
  | _ => True

def AllDestroyed (s : Accelerator) : Prop :=
  (∀ o ∈ s.contexts, o.isNone) ∧ (∀ o ∈ s.surfaces, o.isNone) ∧ (∀ o ∈ s.kernels, o.isNone) ∧
    ∀ o ∈ s.operations, o.isNone

instance (s : Accelerator) : Decidable s.AllDestroyed := inferInstanceAs (Decidable (_ ∧ _))

instance (wire : Wire) : Decidable wire.losesQueue := inferInstanceAs (Decidable (_ ∧ _))

instance (s : Accelerator) : (a : Action × Wire) → Decidable (s.ObtainsIds a)
  | (.newContext .., _) => inferInstanceAs (Decidable (_ ∧ _))
  | (.newSurface .., _) => inferInstanceAs (Decidable (_ ≠ _))
  | (.untrackContext _, _) | (.deleteContext _, _) | (.untrackSurface _, _)
  | (.deleteSurface _, _) | (.newKernel _, _) | (.prepareKernel .., _) | (.deleteKernel _, _)
  | (.newOperation, _) | (.prepareOperation .., _) | (.dispatch .., _)
  | (.deleteOperation .., _) | (.allocSurface .., _) | (.destroySurface .., _)
  | (.command .., _) | (.copySurface .., _) | (.flushQueue .., _) =>
    inferInstanceAs (Decidable True)

instance (s : Accelerator) : (a : Action × Wire) → Decidable (s.LeaksNone a)
  | (.deleteContext _, _) => inferInstanceAs (Decidable False)
  | (.deleteKernel _, _) => inferInstanceAs (Decidable (∀ _ ∈ _, _))
  | (.newContext .., _) | (.newSurface .., _) | (.untrackContext _, _) | (.untrackSurface _, _)
  | (.deleteSurface _, _) | (.newKernel _, _) | (.prepareKernel .., _)
  | (.newOperation, _) | (.prepareOperation .., _) | (.dispatch .., _)
  | (.deleteOperation .., _) | (.allocSurface .., _) | (.destroySurface .., _)
  | (.command .., _) | (.copySurface .., _) | (.flushQueue .., _) =>
    inferInstanceAs (Decidable True)

theorem ObtainsIds.free_ne_zero {a : Action × Wire} (h : s.ObtainsIds a) (ha : a.1.creates) :
    s.refObjectDB.free ≠ 0 := by
  rcases a with ⟨a, wire⟩
  cases a with
  | newContext => exact h.1
  | newSurface => exact h
  | _ => exact ha.elim

theorem ObtainsIds.not_losesQueue {a : Action × Wire} (h : s.ObtainsIds a)
    (ha : a.1.createsContext) : ¬ a.2.losesQueue := by
  rcases a with ⟨a, wire⟩
  cases a with
  | newContext => exact h.2
  | _ => exact ha.elim

theorem grant_of_ids (h : Ids s.roster) {R' : Roster} {o : Holder} {id : VMAccelId}
    (hobt : s.roster.Obtains o id R') (hfree : s.refObjectDB.free ≠ 0) :
    s.roster.Free id ∧ R' = s.roster.grant o id := by
  rcases h.obtains hobt with ⟨-, hzero, -⟩ | hgrant
  · exact absurd hzero hfree
  · exact hgrant

theorem releasesOwn_of_owning (h : Owning s.roster) {a : Action × Wire} (ho : s.ObtainsIds a) :
    s.ReleasesOwn a := by
  rintro ⟨t, rel⟩ hact p (hp : rel = some p)
  have hmove : Move a s.roster t.roster rel :=
    act_move (s := { s with sent := [] }) rfl hact
  change p ∈ t.roster.held
  generalize t.roster = T at hmove
  subst hp
  cases hmove with
  | contextRefused ha hobt =>
    obtain ⟨-, rfl⟩ := grant_of_ids h.toIds hobt (ho.free_ne_zero ha)
    exact List.mem_cons_self
  | contextFailed ha hlost hobt => exact absurd hlost (ho.not_losesQueue ha)
  | surfaceGone hsurf =>
    rcases h.surface_held _ _ hsurf with rfl | hheld
    · exact absurd hsurf (h.surface_valid _)
    · exact hheld

theorem owning_step (h : Owning s.roster) {a : Action × Wire} (ho : s.ObtainsIds a)
    (hr : s.step a = .ok s') : Owning s'.roster := by
  have hids : Ids s'.roster := ids_step h.toIds ho.not_losesQueue hr
  obtain ⟨⟨t, rel⟩, hact, hr⟩ := bind_eq_ok.mp hr
  have hmove : Move a s.roster t.roster rel :=
    act_move (s := { s with sent := [] }) rfl hact
  have hsurfaces : s'.roster.surfaces = t.roster.surfaces := by
    cases rel with
    | none =>
      cases hr
      rfl
    | some p =>
      obtain ⟨db, -, hr⟩ := bind_eq_ok.mp hr
      cases hr
      rfl
  refine ⟨hids, fun k hk => ?_⟩
  rw [hsurfaces] at hk
  have hkept : ∀ {R' : Roster} {o : Holder} {id : VMAccelId}, s.roster.Obtains o id R' →
      R'.surfaces = s.roster.surfaces := by
    rintro R' o id ⟨r, -, -, rfl⟩
    rfl
  generalize t.roster = T at hmove hk
  cases hmove with
  | kernelId hkern hobt => exact h.surface_valid k (hkept hobt ▸ hk)
  | context ha hobt => exact h.surface_valid k (hkept hobt ▸ hk)
  | contextRefused ha hobt => exact h.surface_valid k (hkept hobt ▸ hk)
  | contextFailed ha hlost hobt => exact h.surface_valid k (hkept hobt ▸ hk)
  | surface ha hobt =>
    obtain ⟨hf, rfl⟩ := grant_of_ids h.toIds hobt (ho.free_ne_zero ha)
    rcases getElem?_snoc hk with hk | ⟨-, heq⟩
    · exact h.surface_valid k hk
    · exact hf.ne_invalidId (Option.some.inj heq)
  | surfaceGone hsurf => exact h.surface_valid k (getElem?_set_none hk).2
  | _ => exact h.surface_valid k hk

/-- After a call that leaks none, the active identifiers are again those of the objects that are
alive. -/
theorem accounted_step (h : Accounted s.roster) {a : Action × Wire} (ho : s.ObtainsIds a)
    (hl : s.LeaksNone a) (hr : s.step a = .ok s') : Accounted s'.roster := by
  have hown := releasesOwn_of_owning h.toOwning ho
  have howning := owning_step h.toOwning ho hr
  obtain ⟨⟨t, rel⟩, hact, hr⟩ := bind_eq_ok.mp hr
  have hheld : ∀ p, rel = some p → p ∈ t.held := fun p hp => hown (t, rel) hact p hp
  have hmove : Move a s.roster t.roster rel :=
    act_move (s := { s with sent := [] }) rfl hact
  generalize ht : t.roster = T at hmove
  cases hmove with
  | same =>
    cases hr
    rwa [ht]
  | kernelId hkern hobt =>
    cases hr
    rw [ht] at howning ⊢
    rcases h.obtains hobt with ⟨-, -, rfl⟩ | ⟨hf, rfl⟩
    · exact h
    · exact h.of_grant hf howning rfl rfl hkern fun _ h => h
  | context ha hobt =>
    cases hr
    obtain ⟨hf, rfl⟩ := grant_of_ids h.toIds hobt (ho.free_ne_zero ha)
    rw [ht] at howning ⊢
    exact h.of_grant hf howning rfl rfl List.getElem?_concat_length fun _ h => h.addContext _
  | contextRefused ha hobt =>
    obtain ⟨hf, rfl⟩ := grant_of_ids h.toIds hobt (ho.free_ne_zero ha)
    have hids : Ids t.roster := ht ▸ (h.grant hf).addContext nofun
    rw [roster_releaseId hids (hheld _ rfl) hr, ht]
    have hroster := congrArg (fun R => { R with contexts := s.roster.contexts ++ [none] })
      (hf.release_grant (o := .context s.roster.contexts.length))
    refine Eq.mpr (congrArg Accounted hroster) ?_
    exact ⟨⟨h.addContext nofun, h.surface_valid⟩, h.active_held,
      fun p hp => (h.held_live p hp).addContext _⟩
  | contextFailed ha hlost hobt => exact absurd hlost (ho.not_losesQueue ha)
  | contextGone ha =>
    rcases a with ⟨a, wire⟩
    cases ha
    exact hl.elim
  | surface ha hobt =>
    cases hr
    obtain ⟨hf, rfl⟩ := grant_of_ids h.toIds hobt (ho.free_ne_zero ha)
    rw [ht] at howning ⊢
    exact h.of_grant hf howning rfl rfl List.getElem?_concat_length fun _ h => h.addSurface _
  | surfaceGone hsurf =>
    have hids : Ids t.roster := ht ▸ h.toIds.dropSurface _
    have hmem := hheld _ rfl
    rw [roster_releaseId hids hmem hr, ht] at howning ⊢
    change _ ∈ t.roster.held at hmem
    rw [ht] at hmem
    exact h.dropSurface hsurf (h.held_active _ hmem) howning
  | kernel =>
    cases hr
    rw [ht] at howning ⊢
    exact ⟨howning, h.active_held, fun p hp => (h.held_live p hp).addKernel⟩
  | kernelGone ha =>
    cases hr
    rw [ht]
    rcases a with ⟨a, wire⟩
    cases ha
    exact h.dropKernel hl

theorem accounted_new : Accounted new.roster where
  toIds := ids_new
  surface_valid _ hk := nomatch hk
  active_held _ hact := absurd (hact.2.symm.trans (bit_alloc _ _)) nofun
  held_live _ hp := absurd hp List.not_mem_nil

theorem not_active_of_accounted (h : Accounted s.roster) (hd : s.AllDestroyed) (id : VMAccelId) :
    ¬ s.refObjectDB.Active id := by
  intro hact
  obtain ⟨o, ho⟩ := h.active_held id hact
  have hlive := h.held_live _ ho
  have hgone : ∀ {α β : Type} {l : List (Option α)} {f : α → β} {i : ℕ} {b : β},
      (l.map (Option.map f))[i]? = some (some b) → ¬ ∀ o ∈ l, o.isNone := by
    intro α β l f i b hi hl
    rw [List.getElem?_map] at hi
    obtain ⟨o, ho, heq⟩ := Option.map_eq_some_iff.mp hi
    rw [Option.isNone_iff_eq_none.mp (hl o (List.mem_of_getElem? ho))] at heq
    cases heq
  cases o with
  | context n => exact hgone hlive hd.1
  | surface k => exact hgone hlive hd.2.1
  | kernel k =>
    obtain ⟨o, ho, heq⟩ := Option.map_eq_some_iff.mp ((List.getElem?_map ..).symm.trans hlive)
    rw [Option.isNone_iff_eq_none.mp (hd.2.2.1 o (List.mem_of_getElem? ho))] at heq
    cases heq

/-- Along a run whose objects find their identifiers, every argument of `release_id` is an
identifier that its object has obtained and not released. If the run also leaks none, no identifier
is active once all objects are destroyed. -/
theorem ids_released_by_owner {as : List (Action × Wire)}
    (ho : EachInput step ObtainsIds new as) :
    EachInput step ReleasesOwn new as ∧
      (EachInput step LeaksNone new as → ∀ s, run step new as = .ok s → s.AllDestroyed →
        ∀ id, ¬ s.refObjectDB.Active id) := by
  constructor
  · exact eachInput_of_invariant (I := fun s => Owning s.roster)
      (fun s a h ho => releasesOwn_of_owning h ho) (fun s a s' h ho hr => owning_step h ho hr)
      accounted_new.toOwning ho
  · intro hl s hrun hd
    exact not_active_of_accounted (run_invariant (I := fun s => Accounted s.roster)
      (fun s a s' h hc hr => accounted_step h hc.1 hc.2 hr) accounted_new
      (eachInput_and.mpr ⟨ho, hl⟩) hrun) hd

/-- The second context releases the identifier of the first one when the reply to its queue is
lost, and a context that is destroyed keeps its identifier. -/
theorem release_of_other_and_leak :
    (∃ s, run step new [contextDemo []] = .ok s ∧
      ∃ t, act { s with sent := [] } (contextDemo [1]).2 (contextDemo [1]).1 =
        .ok (t, some (.context 1, 0)) ∧ t.held = [(.context 1, 1), (.context 0, 0)]) ∧
    ∃ s, run step new [contextDemo [], (.untrackContext 0, wireDemo []),
      (.deleteContext 0, wireDemo [])] = .ok s ∧ s.AllDestroyed ∧ s.refObjectDB.Active 0 := by
  refine ⟨⟨_, rfl, _, rfl, by decide +kernel⟩, by decide +kernel⟩

def ownedDemo : List (Action × Wire) :=
  [contextDemo [0], (.newSurface true .zero fun _ => 0, wireDemo []),
    (.untrackSurface 0, wireDemo []), (.deleteSurface 0, wireDemo [])]

theorem ids_released_by_owner_demo : EachInput step ReleasesOwn new ownedDemo ∧
    ∃ s, run step new ownedDemo = .ok s ∧ s.AllDestroyed ∧ ¬ s.refObjectDB.Active 0 := by
  obtain ⟨s, hs, hd⟩ : ∃ s, run step new ownedDemo = .ok s ∧ s.AllDestroyed := by decide +kernel
  have ho : EachInput step ObtainsIds new ownedDemo := by decide +kernel
  obtain ⟨hown, hfree⟩ := ids_released_by_owner ho
  exact ⟨hown, s, hs, hd, hfree (by decide +kernel) s hs hd 0⟩

end Accelerator

end VMAccel
