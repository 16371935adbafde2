import VMAccel.AcceleratorRange

/-!
# Runs that stay within the tables of the server

While every new object finds a free identifier below 32, and no argument of a dispatch is left
unset, all identifiers that reach the server are indices of their tables.
-/

namespace VMAccel

open StepSystem IdentifierDB Server

namespace Accelerator

variable {s s' : Accelerator} {wire : Wire}

/-- A new object finds a free identifier in the range of its table, and a dispatch loses no reply
and no upload. -/
def TakesInRange (s : Accelerator) (a : Action × Wire) : Prop :=
  match a.1 with
  | .newContext _ _ _ _ _ _ => s.HasFree maxContexts
  | .newSurface _ _ _ => s.HasFree maxSurfaces
  | .prepareKernel _ _ _ | .prepareOperation _ _ _ _ _ _ _ => s.HasFree maxKernels
  | .dispatch o _ uploads _ | .deleteOperation o uploads _ =>
    (s.HasFree maxKernels ∨ s.VariantReady o) ∧ a.2.lost = [] ∧ ∀ u ∈ uploads, u.2 = true
  | _ => True

instance (s : Accelerator) (a : Action × Wire) : Decidable (s.TakesInRange a) := by
  rcases a with ⟨a, wire⟩
  cases a with
  | dispatch | deleteOperation => exact inferInstanceAs (Decidable (_ ∧ _))
  | newContext | newSurface | prepareKernel | prepareOperation =>
    exact inferInstanceAs (Decidable (HasFree _ _))
  | _ => exact inferInstanceAs (Decidable True)

theorem Ranged.act (h : Ranged s) {a : Action} (ha : s.TakesInRange (a, wire))
    {r : Accelerator × Option (Holder × VMAccelId)} (hr : s.act wire a = .ok r) : Ranged r.1 := by
  cases acts hr with
  | newContext ht => exact h.newContext ha ht
  | newOperation => exact h.setOperation _
  | newSurface ht => exact h.newSurface ha ht
  | deleteContext ht =>
    rcases deleteContext_ok ht with rfl | ht
    · exact h
    · exact h.destroy ht
  | deleteSurface ht =>
    rcases deleteSurface_ok ht with rfl | ⟨surf, u, -, hu, rfl⟩
    · exact h
    · have hgone := h.destroySurfaces hu
      refine { hgone with surface := fun surf hmem => ?_ }
      rcases List.mem_or_eq_of_mem_set hmem with hmem | hmem
      · exact hgone.surface surf hmem
      · cases hmem
  | deleteKernel ht =>
    rcases deleteKernel_ok ht with rfl | ⟨kern, c, hkern, hc, rfl⟩
    · exact h
    · refine (h.send _ fun r hmem => ?_).setKernel fun _ hk => absurd hk (Option.not_mem_none _)
      obtain ⟨v, hv, rfl⟩ := List.mem_map.mp hmem
      simp [Request.InRange, Request.cids, Request.sids, Request.kids, (h.context_at hc).1,
        h.kernel_at hkern v hv]
  | newKernel =>
    refine { h with kernel := fun kern hmem => ?_ }
    rcases List.mem_append.mp hmem with hmem | hmem
    · exact h.kernel kern hmem
    · cases List.mem_singleton.mp hmem
      exact fun v hv => absurd hv List.not_mem_nil
  | prepareKernel ht => exact h.prepareKernel ha ht
  | prepareOperation ht =>
    rcases prepareOperation_ok ht with rfl | ⟨u, operations, hu, rfl⟩
    · exact h
    · exact (h.prepareKernel ha hu).setOperation _
  | dispatch ht => exact h.dispatch ha.2.1 ha.2.2 ha.1 ht
  | deleteOperation ht =>
    obtain ⟨u, operations, rfl | hu, rfl⟩ := deleteOperation_ok ht
    · exact h.setOperation _
    · exact (h.dispatch ha.2.1 ha.2.2 ha.1 hu).setOperation _
  | allocSurface ht => exact h.allocSurface ht
  | destroySurface ht => exact h.destroySurface ht
  | untrackContext | untrackSurface => exact { h with }
  | command hc hsurf =>
    exact h.send_one (inRange_request (h.context_at hc).1 (h.surface_at hsurf) _)
  | copySurface hc hsrc hdst =>
    refine h.send_one ?_
    simp [Request.InRange, Request.cids, Request.sids, Request.kids, (h.context_at hc).1,
      h.surface_at hsrc, h.surface_at hdst]
  | flushQueue hc =>
    refine h.send_one ?_
    simp [Request.InRange, Request.cids, Request.sids, Request.kids, (h.context_at hc).1]

theorem Ranged.start (h : Ranged s) : Ranged { s with sent := [] } :=
  { h with sent := fun _ hmem => absurd hmem List.not_mem_nil }

theorem Ranged.step (h : Ranged s) {a : Action × Wire} (ha : s.TakesInRange a)
    (hr : s.step a = .ok s') : Ranged s' := by
  obtain ⟨⟨t, rel⟩, hact, hr⟩ := bind_eq_ok.mp hr
  have ht : Ranged t := h.start.act ha hact
  cases rel with
  | none =>
    cases hr
    exact ht
  | some p =>
    obtain ⟨db, hdb, hr⟩ := bind_eq_ok.mp hr
    cases hr
    rcases releaseId_ok hdb with ⟨-, rfl⟩ | ⟨hact, rfl⟩
    · exact { ht with }
    · exact { ht with balanced := ht.balanced.give hact.2, size := ht.size }

instance (r : Request) : Decidable r.InRange :=
  @instDecidableAnd _ _ (List.decidableBAll _ _)
    (@instDecidableAnd _ _ (List.decidableBAll _ _) (List.decidableBAll _ _))

end Accelerator

end VMAccel
