import VMAccel.AcceleratorIds
import VMAccel.ServerEffects

/-!
# An accelerator and its server

The server handles the requests of every call. Each context keeps its own record of the surfaces
that are resident, while the server has one table for all of them. A surface becomes resident with
any reply, so the records agree with the table only as long as the server grants every allocation.
-/

namespace VMAccel

open StepSystem IdentifierDB

namespace Server

variable {s : Server} {cl : Bool} {q : StatusCode × Server}

/-- If the request allocates a surface, its identifier is free, it is a buffer, and its context
exists and has memory for it. -/
def GrantsSurface (s : Server) : Request → Prop
  | .surfacealloc argp cl _ => ¬ s.backend.surfaceIds.Active argp.sid ∧
    argp.desc.type = .buffer ∧ cl = true ∧
    ∃ ctx ∈ s.contexts[argp.cid.toNat]?, ctx.context.isSome = true
  | _ => True

def DestroysActive (s : Server) : Request → Prop
  | .surfacedestroy argp => s.backend.surfaceIds.Active argp.id
  | _ => True

instance (s : Server) (r : Request) : Decidable (s.GrantsSurface r) := by
  unfold GrantsSurface
  split <;> infer_instance

instance (s : Server) (r : Request) : Decidable (s.DestroysActive r) := by
  unfold DestroysActive
  split <;> infer_instance

theorem surfacealloc_of_grantsSurface (h : s.WellFormed) {argp : SurfaceAllocateDesc}
    {fresh : ℕ → Byte} (hg : s.GrantsSurface (.surfacealloc argp cl fresh))
    (hr : s.surfacealloc argp cl fresh = .ok q) : argp.sid.toNat < maxSurfaces ∧
      ∃ f : VMWOpenCLSurface → VMWOpenCLSurface, (∀ surf, (f surf).cid = argp.cid) ∧
        q.2 = { s with backend := ⟨s.backend.surfaces.modify argp.sid.toNat f,
          s.backend.surfaceIds.setBit argp.sid.toNat⟩ } := by
  obtain ⟨hact, htype, rfl, ctx', hctx', hsome⟩ := hg
  obtain ⟨ctx, b, hctx, hb, hq⟩ := surfacealloc_ok hr
  obtain rfl := Option.some.inj (hctx.symm.trans hctx')
  rcases Backend.surfacealloc_cases h.surfaces hb with ⟨hfail, -⟩ | ⟨-, -, hlt, -, mem, heq⟩
  · refine absurd ?_ hfail
    rw [Backend.surfacealloc, h.surfaces.activeId, ok_bind,
      if_neg fun h => hact (of_decide_eq_true h), if_neg (not_not.mpr htype)] at hb
    obtain ⟨_, -, hb⟩ := bind_eq_ok.mp hb
    rw [if_neg (not_not.mpr (by rw [hsome]; rfl))] at hb
    obtain ⟨p, -, hb⟩ := bind_eq_ok.mp hb
    obtain ⟨_, -, hb⟩ := bind_eq_ok.mp hb
    obtain ⟨surfaces, -, hb⟩ := bind_eq_ok.mp hb
    exact (Prod.mk.inj (Except.ok.inj hb)).1.symm
  · obtain rfl : b = _ := heq
    exact ⟨hlt, _, fun _ => rfl, hq⟩

theorem handle_surfaces (h : s.WellFormed) {r : Request} (hr : s.handle r = .ok q)
    (halloc : ∀ argp cl fresh, r ≠ .surfacealloc argp cl fresh)
    (hdestroy : ∀ argp, r ≠ .surfacedestroy argp) :
    q.2.backend.surfaceIds = s.backend.surfaceIds ∧
      ∀ (j : ℕ) surf, s.backend.surfaces[j]? = some surf →
        ∃ surf', q.2.backend.surfaces[j]? = some surf' ∧ surf'.cid = surf.cid := by
  have hsame : ∀ {b : Backend}, b = s.backend → b.surfaceIds = s.backend.surfaceIds ∧
      ∀ (j : ℕ) surf, s.backend.surfaces[j]? = some surf →
        ∃ surf', b.surfaces[j]? = some surf' ∧ surf'.cid = surf.cid := by
    rintro _ rfl
    exact ⟨rfl, fun j surf hj => ⟨surf, hj, rfl⟩⟩
  cases r with
  | contextalloc argp platforms =>
    rcases contextalloc_ok h hr with ⟨-, heq⟩ | ⟨-, -, -, v, heq⟩ <;> exact hsame (by rw [heq])
  | contextdestroy cid =>
    rcases contextdestroy_ok h hr with ⟨-, heq⟩ | ⟨-, heq⟩ <;> exact hsame (by rw [heq])
  | surfacealloc argp cl fresh => exact absurd rfl (halloc argp cl fresh)
  | surfacedestroy argp => exact absurd rfl (hdestroy argp)
  | queuealloc argp cl =>
    rcases queuealloc_ok h hr with ⟨-, heq⟩ | ⟨-, -, -, heq⟩ <;> exact hsame (by rw [heq])
  | queuedestroy argp => exact hsame (by rw [(queuedestroy_ok h hr).2])
  | kernelalloc argp cl =>
    rcases kernelalloc_ok h hr with ⟨-, heq⟩ | ⟨-, -, -, heq⟩ <;> exact hsame (by rw [heq])
  | kerneldestroy argp =>
    rcases kerneldestroy_ok h hr with ⟨-, heq⟩ | ⟨-, heq⟩ <;> exact hsame (by rw [heq])
  | _ =>
    obtain ⟨b, heq, hb⟩ := handle_changesOnly id hr
    rw [heq]
    refine ⟨hb.surfaceIds, fun j surf hj => ?_⟩
    obtain ⟨surf', hj', hcid, -⟩ := hb.kept j surf hj
    exact ⟨surf', hj', hcid⟩

end Server

open Server

/-- Every surface that is resident in a context is active on the server and belongs to the
context there. -/
def Agrees (contexts : List (Option ClContext)) (σ : Server) : Prop :=
  ∀ (n : ℕ) c id, contexts[n]? = some (some c) → c.residencyDB.Active id →
    σ.backend.surfaceIds.Active id ∧
      ∃ surf, σ.backend.surfaces[id.toNat]? = some surf ∧ surf.cid = c.contextId

/-- An accelerator and the server that it is connected to. -/
structure World where
  accel : Accelerator
  server : Server

namespace World

def start : World := ⟨.new, .powerOn⟩

/-- A call, after which the server has handled its requests. -/
def step (w : World) (a : Accelerator.Action × Wire) : Except Fault World := do
  let accel ← w.accel.step a
  let server ← run Server.step w.server accel.sent
  return ⟨accel, server⟩

end World

namespace Accelerator

variable {s s' : Accelerator} {σ : Server} {wire : Wire} {n k : ℕ}

def requests (s : Accelerator) (a : Action × Wire) : List Request :=
  match act { s with sent := [] } a.2 a.1 with
  | .ok r => r.1.sent
  | .error _ => []

def Placed (contexts : List (Option ClContext)) : Prop :=
  ∀ (n : ℕ) c id, contexts[n]? = some (some c) → c.residencyDB.Active id → c.contextId ≠ invalidId

/-- In the middle of a call that has started with the server in state `σ`: if the allocations so
far are granted, the destructions so far find their surfaces and the records agree. -/
def Tracked (σ : Server) (s : Accelerator) : Prop :=
  EachInput Server.step GrantsSurface σ s.sent →
    EachInput Server.step DestroysActive σ s.sent ∧
      ∀ τ, run Server.step σ s.sent = .ok τ →
        τ.WellFormed ∧ Placed s.contexts ∧ Agrees s.contexts τ

theorem Tracked.snoc (h : Tracked σ s) {r : Request} (hsent : s'.sent = s.sent ++ [r])
    (hdestroy : ∀ τ, Agrees s.contexts τ → DestroysActive τ r)
    (hagrees : ∀ τ q, τ.WellFormed → Placed s.contexts → Agrees s.contexts τ → GrantsSurface τ r →
      τ.handle r = .ok q → Placed s'.contexts ∧ Agrees s'.contexts q.2) : Tracked σ s' := by
  intro hg
  rw [hsent] at hg ⊢
  obtain ⟨hg, hgr⟩ := eachInput_append.mp hg
  obtain ⟨hd, hrun⟩ := h hg
  constructor
  · refine eachInput_append.mpr ⟨hd, fun τ hτ => ⟨hdestroy τ (hrun τ hτ).2.2, fun _ _ => trivial⟩⟩
  · intro τ hτ
    obtain ⟨υ, hυ, hτ⟩ := run_append_ok.mp hτ
    obtain ⟨τ', hstep, hτ⟩ := run_cons_ok.mp hτ
    obtain ⟨q, hq, rfl⟩ := bind_snd_eq_ok.mp hstep
    cases hτ
    obtain ⟨hwf, hplaced, hagree⟩ := hrun υ hυ
    exact ⟨hwf.handle hq, hagrees υ q hwf hplaced hagree (hgr υ hυ).1 hq⟩

def Quiet : Request → Prop
  | .surfacealloc _ _ _ | .surfacedestroy _ => False
  | _ => True

theorem agrees_of_quiet {r : Request} (hr : Quiet r) {contexts : List (Option ClContext)}
    {q : StatusCode × Server} (hwf : σ.WellFormed) (h : Agrees contexts σ)
    (hq : σ.handle r = .ok q) : Agrees contexts q.2 := by
  obtain ⟨hids, hcid⟩ := handle_surfaces hwf hq (by rintro _ _ _ rfl; exact hr)
    (by rintro _ rfl; exact hr)
  intro n c id hc hact
  obtain ⟨hactive, surf, hsurf, hown⟩ := h n c id hc hact
  obtain ⟨surf', hsurf', heq⟩ := hcid _ surf hsurf
  exact ⟨hids ▸ hactive, surf', hsurf', heq.trans hown⟩

theorem Tracked.send_one (h : Tracked σ s) {r : Request} (hr : Quiet r) :
    Tracked σ (s.send [r]) := by
  refine h.snoc rfl (fun τ _ => ?_) fun τ q hwf hplaced hagrees _ hq =>
    ⟨hplaced, agrees_of_quiet hr hwf hagrees hq⟩
  cases r with
  | surfacedestroy => exact hr.elim
  | _ => trivial

theorem Tracked.send (h : Tracked σ s) (rs : List Request) (hrs : ∀ r ∈ rs, Quiet r) :
    Tracked σ (s.send rs) := by
  induction rs generalizing s with
  | nil =>
    have heq : s.send [] = s := by simp [Accelerator.send]
    rwa [heq]
  | cons r rs ih =>
    have heq : s.send (r :: rs) = (s.send [r]).send rs := by simp [Accelerator.send]
    rw [heq]
    exact ih (h.send_one (hrs r List.mem_cons_self)) fun q hq => hrs q (List.mem_cons_of_mem _ hq)

theorem getElem?_setContext {c' d : ClContext} {m : ℕ} {contexts : List (Option ClContext)}
    (h : (contexts.set n (some c'))[m]? = some (some d)) :
    (m = n ∧ d = c') ∨ (m ≠ n ∧ contexts[m]? = some (some d)) := by
  rw [List.getElem?_set] at h
  split_ifs at h with heq hlt
  · exact Or.inl ⟨heq.symm, (Option.some.inj (Option.some.inj h)).symm⟩
  · exact Or.inr ⟨Ne.symm heq, h⟩

theorem Tracked.allocSurface (h : Tracked σ s) (hlost : wire.lost = []) {r : Bool × Accelerator}
    (hr : s.allocSurface wire n k = .ok r) : Tracked σ r.2 := by
  obtain ⟨c, surf, hc, -, rfl | ⟨-, cl, fresh, ⟨hreply, -⟩ | ⟨p, hp, rfl⟩⟩⟩ := allocSurface_ok hr
  · exact h
  · exact absurd (by simp [replies, hlost]) hreply
  · refine h.snoc rfl (fun _ _ => trivial) fun τ q hwf hplaced hagrees hg hq => ?_
    obtain ⟨hlt, f, hf, heq⟩ := surfacealloc_of_grantsSurface hwf hg hq
    have hcid : c.contextId ≠ invalidId := by
      obtain ⟨-, -, -, ctx, hctx, -⟩ := hg
      intro heq
      have hlt := (List.getElem?_eq_some_iff.mp hctx).1
      rw [hwf.contexts.length, show c.contextId.toNat = 2 ^ 32 - 1 by rw [heq]; rfl] at hlt
      exact absurd hlt (by decide)
    have hactive := (acquireId_active hp).2
    constructor
    · intro m d id hd hact
      rcases getElem?_setContext hd with ⟨rfl, rfl⟩ | ⟨-, hd⟩
      · exact hcid
      · exact hplaced m d id hd hact
    · intro m d id hd hact
      have hold : ∀ {m : ℕ} {d id}, s.contexts[m]? = some (some d) → d.residencyDB.Active id →
          q.2.backend.surfaceIds.Active id ∧
            ∃ surf, q.2.backend.surfaces[id.toNat]? = some surf ∧ surf.cid = d.contextId := by
        intro m d id hd hact
        obtain ⟨hserver, old, hold, hown⟩ := hagrees m d id hd hact
        have hne : surf.id.toNat ≠ id.toNat := fun heq =>
          hg.1 (BitVec.eq_of_toNat_eq heq ▸ hserver)
        rw [heq]
        exact ⟨(hwf.surfaces.active_setBit hlt id).mpr (Or.inl hserver), old,
          by rwa [List.getElem?_modify_ne _ _ hne], hown⟩
      rcases getElem?_setContext hd with ⟨rfl, rfl⟩ | ⟨-, hd⟩
      · rcases (hactive id).mp hact with hact | ⟨rfl, -⟩
        · have hkept := hold hc hact
          exact hkept
        · rw [heq]
          refine ⟨(hwf.surfaces.active_setBit hlt _).mpr (Or.inr rfl), ?_⟩
          have hlen : surf.id.toNat < τ.backend.surfaces.length := hwf.surfaces.length.symm ▸ hlt
          refine ⟨f τ.backend.surfaces[surf.id.toNat], ?_, hf _⟩
          change (τ.backend.surfaces.modify surf.id.toNat f)[surf.id.toNat]? = _
          rw [List.getElem?_modify_eq, List.getElem?_eq_getElem hlen]
          rfl
      · exact hold hd hact

theorem Tracked.destroySurface (h : Tracked σ s) (hids : Roster.Ids s.roster) {id : VMAccelId}
    (hr : s.destroySurface n id = .ok s') : Tracked σ s' := by
  obtain ⟨c, hc, rfl | ⟨hact, rfl⟩⟩ := destroySurface_ok hr
  · exact h
  · refine h.snoc rfl (fun τ hagrees => (hagrees n c id hc hact).1) ?_
    intro τ q hwf hplaced hagrees _ hq
    obtain ⟨hserver, heq⟩ := surfacedestroy_ok hq
    have hresident : ∀ {m : ℕ} {d j}, (s.contexts.set n (some { c with
        residencyDB := c.residencyDB.give id.toNat }))[m]? = some (some d) →
        d.residencyDB.Active j → ∃ d', s.contexts[m]? = some (some d') ∧
          d'.residencyDB.Active j ∧ d'.contextId = d.contextId ∧ (m = n → j ≠ id) := by
      intro m d j hd hj
      rcases getElem?_setContext hd with ⟨rfl, rfl⟩ | ⟨hne, hd⟩
      · obtain ⟨hj, hne⟩ := (Indexed.active_give hact j).mp hj
        exact ⟨c, hc, hj, rfl, fun _ => hne⟩
      · exact ⟨d, hd, hj, rfl, fun heq => absurd heq hne⟩
    constructor
    · intro m d j hd hj
      obtain ⟨d', hd', hj', heq', -⟩ := hresident hd hj
      exact heq' ▸ hplaced m d' j hd' hj'
    · intro m d j hd hj
      obtain ⟨d', hd', hj', hid', hne⟩ := hresident hd hj
      obtain ⟨hserver', surf, hsurf, hown⟩ := hagrees m d' j hd' hj'
      have hjid : j ≠ id := by
        rintro rfl
        obtain ⟨-, surf', hsurf', hown'⟩ := hagrees n c j hc hact
        obtain rfl := Option.some.inj (hsurf.symm.trans hsurf')
        have hmn := context_eq_of_contextId hids hd' hc (hown.symm.trans hown')
          (hplaced m d' j hd' hj')
        exact hne hmn rfl
      rw [heq]
      refine ⟨(Indexed.active_give hserver j).mpr ⟨hserver', hjid⟩, surf, ?_, hown.trans hid'⟩
      rwa [List.getElem?_set_ne fun heq => hjid (BitVec.eq_of_toNat_eq heq).symm]

end Accelerator

end VMAccel
