import VMAccel.ServerEffects

/-!
# The objects of the server

Contexts, surfaces, queues and kernels are entries of four tables. A request that allocates or
destroys one of them leaves every other one active and unchanged.
-/

namespace VMAccel

open StepSystem IdentifierDB

inductive Object
  | context (id : VMAccelId)
  | surface (id : VMAccelId)
  | queue (id : VMAccelId)
  | kernel (id : VMAccelId)
  deriving DecidableEq

namespace Server

def Active (s : Server) : Object → Prop
  | .context id => s.contextIds.Active id
  | .surface id => s.backend.surfaceIds.Active id
  | .queue id => s.queueIds.Active id
  | .kernel id => s.kernelIds.Active id

instance (s : Server) : (o : Object) → Decidable (s.Active o)
  | .context id => inferInstanceAs (Decidable (s.contextIds.Active id))
  | .surface id => inferInstanceAs (Decidable (s.backend.surfaceIds.Active id))
  | .queue id => inferInstanceAs (Decidable (s.queueIds.Active id))
  | .kernel id => inferInstanceAs (Decidable (s.kernelIds.Active id))

def SameEntry (s s' : Server) : Object → Prop
  | .context id => s'.contexts[id.toNat]? = s.contexts[id.toNat]?
  | .surface id => s'.backend.surfaces[id.toNat]? = s.backend.surfaces[id.toNat]?
  | .queue id => s'.queues[id.toNat]? = s.queues[id.toNat]?
  | .kernel id => s'.kernels[id.toNat]? = s.kernels[id.toNat]?

def Request.destroys : Request → Option Object
  | .contextdestroy cid => some (.context cid)
  | .surfacedestroy argp => some (.surface argp.id)
  | .queuedestroy argp => some (.queue argp.id)
  | .kerneldestroy argp => some (.kernel argp.id)
  | _ => none

def StaysIn (s s' : Server) (o : Object) : Prop := s.Active o → s'.Active o ∧ s.SameEntry s' o

theorem SameEntry.refl (s : Server) (o : Object) : s.SameEntry s o := by
  cases o <;> exact rfl

theorem SameEntry.trans {s t u : Server} {o : Object} (hst : s.SameEntry t o)
    (htu : t.SameEntry u o) : s.SameEntry u o := by
  cases o <;> exact Eq.trans htu hst

theorem StaysIn.refl (s : Server) (o : Object) : s.StaysIn s o := fun h => ⟨h, .refl s o⟩

variable {s : Server} {q : StatusCode × Server} {r : Request}

theorem ne_of_destroys {kind : VMAccelId → Object} {id j : VMAccelId}
    (h : some (kind id) ≠ some (kind j)) : j ≠ id := fun heq => h (heq ▸ rfl)

theorem handle_staysIn (h : s.WellFormed) (ha : r.Allocates) (hr : s.handle r = .ok q) {o : Object}
    (hd : r.destroys ≠ some o) : s.StaysIn q.2 o := by
  cases r with
  | contextalloc argp platforms =>
    rcases contextalloc_ok h hr with ⟨-, heq⟩ | ⟨-, hlt, hact, v, heq⟩
    · exact heq ▸ .refl s o
    · rw [heq]
      cases o with
      | context j => exact stays_occupy h.contexts hlt hact _
      | _ => exact Stays.refl
  | contextdestroy cid =>
    rcases contextdestroy_ok h hr with ⟨-, heq⟩ | ⟨hact, heq⟩
    · exact heq ▸ .refl s o
    · rw [heq]
      cases o with
      | context j =>
        have hne : j ≠ cid := ne_of_destroys hd
        refine stays_give hact hne (List.getElem?_modify_ne _ _ fun heq => ?_)
        exact hne (BitVec.eq_of_toNat_eq heq).symm
      | _ => exact Stays.refl
  | surfacealloc argp cl fresh =>
    obtain ⟨ctx, b, -, hb, heq⟩ := surfacealloc_ok hr
    rw [heq]
    rcases Backend.surfacealloc_cases h.surfaces hb with ⟨-, heq⟩ | ⟨-, -, hlt, hact, mem, heq⟩
    · obtain rfl : b = s.backend := heq
      exact .refl s o
    · obtain rfl : b = _ := heq
      cases o with
      | surface j => exact stays_modify h.surfaces hlt hact _
      | _ => exact Stays.refl
  | surfacedestroy argp =>
    obtain ⟨hact, heq⟩ := surfacedestroy_ok hr
    rw [heq]
    cases o with
    | surface j => exact stays_vacate hact (ne_of_destroys hd) _
    | _ => exact Stays.refl
  | queuealloc argp cl =>
    rcases queuealloc_ok h hr with ⟨-, heq⟩ | ⟨-, hlt, hact, heq⟩
    · exact heq ▸ .refl s o
    · rw [heq]
      cases o with
      | queue j => exact stays_occupy h.queues hlt hact _
      | _ => exact Stays.refl
  | queuedestroy argp =>
    obtain ⟨hact, heq⟩ := queuedestroy_ok h hr
    rw [heq]
    cases o with
    | queue j => exact stays_vacate hact (ne_of_destroys hd) _
    | _ => exact Stays.refl
  | kernelalloc argp cl =>
    rcases kernelalloc_ok h hr with ⟨-, heq⟩ | ⟨-, hlt, hact, heq⟩
    · exact heq ▸ .refl s o
    · rw [heq]
      cases o with
      | kernel j => exact stays_occupy h.kernels hlt hact _
      | _ => exact Stays.refl
  | kerneldestroy argp =>
    rcases kerneldestroy_ok h hr with ⟨-, heq⟩ | ⟨hact, heq⟩
    · exact heq ▸ .refl s o
    · rw [heq]
      cases o with
      | kernel j => exact stays_vacate hact (ne_of_destroys hd) _
      | _ => exact Stays.refl
  | _ => exact absurd ha id

theorem not_active_powerOn (o : Object) : ¬ powerOn.Active o := by
  cases o <;> exact fun h => Bool.false_ne_true ((bit_alloc _ _).symm.trans h.2)

end Server

end VMAccel
