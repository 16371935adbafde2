import VMAccel.Accelerator
import VMAccel.ServerContexts
import VMAccel.ServerObjects

/-!
# Isolation of contexts

The tables for queues, surfaces and kernels are indexed by the identifier alone, and no request is
checked for whether the object that it names belongs to the context that it carries. `Confined` is
the missing check. A queue that a context asks for becomes its own exactly when no context has the
identifier, and `clcontext::alloc` asks for the same identifiers every time.
-/

namespace VMAccel

open StepSystem IdentifierDB

def Kept {α : Type} (P : α → Prop) (entries : List α) (ids : IdentifierDB) (entries' : List α)
    (ids' : IdentifierDB) : Prop :=
  ∀ id a, ids.Active id → entries[id.toNat]? = some a → P a →
    ids'.Active id ∧ entries'[id.toNat]? = some a

def Owned {α : Type} (P : α → Prop) (entries : List α) (ids : IdentifierDB) (id : VMAccelId) :
    Prop := ids.Active id → ∃ a ∈ entries[id.toNat]?, P a

instance {α : Type} (P : α → Prop) [DecidablePred P] (entries : List α) (ids : IdentifierDB)
    (id : VMAccelId) : Decidable (Owned P entries ids id) :=
  inferInstanceAs (Decidable (_ → _))

section Tables

variable {α : Type} {P Q : α → Prop} {entries : List α} {ids : IdentifierDB}

theorem Kept.refl : Kept P entries ids entries ids := fun _ _ hact hget _ => ⟨hact, hget⟩

theorem Kept.of_stays {entries' : List α} {ids' : IdentifierDB} (hPQ : ∀ a, P a → ¬ Q a)
    (h : ∀ j, ¬ Owned Q entries ids j → Stays j entries ids entries' ids') :
    Kept P entries ids entries' ids' := by
  intro j a hact hget hP
  have hnot : ¬ Owned Q entries ids j := by
    intro howned
    obtain ⟨b, hb, hQ⟩ := howned hact
    obtain rfl := Option.some.inj (hget.symm.trans hb)
    exact hPQ a hP hQ
  obtain ⟨hact', heq⟩ := h j hnot hact
  exact ⟨hact', heq.trans hget⟩

end Tables

namespace Server

/-- The queues, kernels and surfaces that were allocated by requests of the context stay. -/
structure Keeps (cid : VMAccelId) (s s' : Server) : Prop where
  queues : Kept (· = some cid) s.queues s.queueIds s'.queues s'.queueIds
  kernels : Kept (· = some cid) s.kernels s.kernelIds s'.kernels s'.kernelIds
  surfaces : Kept (·.cid = cid) s.backend.surfaces s.backend.surfaceIds s'.backend.surfaces
    s'.backend.surfaceIds

/-- A request neither changes nor destroys what another context than the ones it carries has. -/
def Isolated (s : Server) (r : Request) : Prop :=
  ∀ s', s.step r = .ok s' → ∀ cid₁ ∈ r.cids, ∀ cid₂, cid₂ ≠ cid₁ → Keeps cid₂ s s'

def ConfinedTo (cid : VMAccelId) (s : Server) : Request → Prop
  | .queuedestroy argp => Owned (· = some cid) s.queues s.queueIds argp.id
  | .kerneldestroy argp => Owned (· = some cid) s.kernels s.kernelIds argp.id
  | .surfacedestroy argp => Owned (·.cid = cid) s.backend.surfaces s.backend.surfaceIds argp.id
  | r => ∀ sid ∈ r.targets, Owned (·.cid = cid) s.backend.surfaces s.backend.surfaceIds sid

def Confined (s : Server) (r : Request) : Prop := ∀ cid ∈ r.cids, s.ConfinedTo cid r

instance (cid : VMAccelId) (s : Server) : (r : Request) → Decidable (s.ConfinedTo cid r)
  | .queuedestroy _ | .kerneldestroy _ | .surfacedestroy _ =>
    inferInstanceAs (Decidable (Owned _ _ _ _))
  | .contextalloc _ _ | .contextdestroy _ | .surfacealloc _ _ _ | .queuealloc _ _ | .queueflush _ _
  | .imageupload _ _ _ | .imagedownload _ _ _ | .surfacemap _ _ _ _ | .surfaceunmap _ _ _ _
  | .surfacecopy _ _ _ | .imagefill _ _ _ | .kernelalloc _ _ | .dispatch _ _ _ _ =>
    List.decidableBAll _ _

instance (s : Server) (r : Request) : Decidable (s.Confined r) := List.decidableBAll _ _

variable {s : Server} {cl : Bool} {q : StatusCode × Server} {cid cid₁ cid₂ : VMAccelId}

def OwnedBy (cid : VMAccelId) (s : Server) : Object → Prop
  | .context _ => True
  | .surface id => Owned (·.cid = cid) s.backend.surfaces s.backend.surfaceIds id
  | .queue id => Owned (· = some cid) s.queues s.queueIds id
  | .kernel id => Owned (· = some cid) s.kernels s.kernelIds id

theorem ConfinedTo.ownedBy {r : Request} {o : Object} (hc : s.ConfinedTo cid r)
    (hd : r.destroys = some o) : s.OwnedBy cid o := by
  cases r with
  | contextdestroy _ =>
    cases hd
    exact trivial
  | surfacedestroy _ | queuedestroy _ | kerneldestroy _ =>
    cases hd
    exact hc
  | _ => cases hd

theorem ConfinedTo.targets {r : Request} (hc : s.ConfinedTo cid r) :
    ∀ sid ∈ r.targets, Owned (·.cid = cid) s.backend.surfaces s.backend.surfaceIds sid := by
  cases r with
  | surfacedestroy _ | queuedestroy _ | kerneldestroy _ =>
    exact fun _ h => absurd h List.not_mem_nil
  | _ => exact hc

theorem handle_keeps (h : s.WellFormed) {r : Request} (hr : s.handle r = .ok q)
    (hc : s.ConfinedTo cid₁ r) (hne : cid₂ ≠ cid₁) : Keeps cid₂ s q.2 := by
  by_cases ha : r.Allocates
  · have hstays : ∀ o, ¬ s.OwnedBy cid₁ o → s.StaysIn q.2 o :=
      fun o ho => handle_staysIn h ha hr fun hd => ho (hc.ownedBy hd)
    have hsome : ∀ o : Option VMAccelId, o = some cid₂ → o ≠ some cid₁ := by
      rintro _ rfl heq
      exact hne (Option.some.inj heq)
    exact ⟨.of_stays hsome fun j => hstays (.queue j), .of_stays hsome fun j => hstays (.kernel j),
      .of_stays (fun _ h₂ h₁ => hne (h₂.symm.trans h₁)) fun j => hstays (.surface j)⟩
  · obtain ⟨b, heq, hb⟩ := handle_changesOnly ha hr
    rw [heq]
    refine ⟨.refl, .refl, fun id surf hact hget hcid => ?_⟩
    obtain ⟨surf', hget', -, -, -, hsame⟩ := hb.kept id.toNat surf hget
    refine ⟨hb.surfaceIds ▸ hact, hsame ?_ ▸ hget'⟩
    rintro ⟨sid, hsid, heq⟩
    obtain rfl := BitVec.eq_of_toNat_eq heq
    obtain ⟨_, hget₁, hcid₁⟩ := hc.targets sid hsid hact
    obtain rfl := Option.some.inj (hget.symm.trans hget₁)
    exact hne (hcid.symm.trans hcid₁)

theorem isolated_of_confined (h : s.WellFormed) {r : Request} (hc : s.Confined r) :
    s.Isolated r := by
  intro s' hstep cid₁ hcid₁ cid₂ hne
  obtain ⟨q, hq, rfl⟩ := bind_snd_eq_ok.mp hstep
  exact handle_keeps h hq (hc cid₁ hcid₁) hne

def OwnsQueue (cid id : VMAccelId) (s : Server) : Prop :=
  s.queueIds.Active id ∧ s.queues[id.toNat]? = some (some cid)

/-- The context has each of the queues that `clcontext::alloc` asks for. -/
def OwnsQueues (cid : VMAccelId) (numSubDevices numQueues : BitVec 32) (s : Server) : Prop :=
  ∀ q ∈ queueSlots (atLeastOne numSubDevices) (atLeastOne numQueues), OwnsQueue cid q.2 s

/-- The request asks for the queue for the context while the identifier is free, on a device that
the context has, and OpenCL creates it. -/
def FindsQueue (cid id : VMAccelId) (s : Server) : Request → Prop
  | .queuealloc argp cl => argp.client.cid = cid ∧ argp.client.id = id ∧ ¬ s.queueIds.Active id ∧
    (∃ ctx ∈ s.contexts[cid.toNat]?, argp.subDevice.toNat < ctx.context.getD 0) ∧ cl = true
  | _ => False

instance (cid id : VMAccelId) (s : Server) (r : Request) : Decidable (s.FindsQueue cid id r) :=
  match r with
  | .queuealloc _ _ => inferInstanceAs (Decidable (_ ∧ _))
  | .contextalloc _ _ | .contextdestroy _ | .surfacealloc _ _ _ | .surfacedestroy _
  | .queuedestroy _ | .queueflush _ _ | .imageupload _ _ _ | .imagedownload _ _ _
  | .surfacemap _ _ _ _ | .surfaceunmap _ _ _ _ | .surfacecopy _ _ _ | .imagefill _ _ _
  | .kernelalloc _ _ | .kerneldestroy _ | .dispatch _ _ _ _ => .isFalse not_false

/-- The request destroys a queue for the context. -/
def Request.DropsQueue (cid : VMAccelId) : Request → Prop
  | .queuedestroy argp => argp.cid = cid
  | _ => False

instance (cid : VMAccelId) (r : Request) : Decidable (r.DropsQueue cid) := by
  unfold Request.DropsQueue
  split <;> infer_instance

theorem queuealloc_success (h : s.WellFormed) {argp : QueueAllocateDesc}
    (hr : s.queuealloc argp cl = .ok q) :
    q.1 = .success ↔ s.FindsQueue argp.client.cid argp.client.id (.queuealloc argp cl) := by
  obtain ⟨ctx, hctx, hr⟩ := bind_eq_ok.mp hr
  have hctx := readAt_ok.mp hctx
  rw [h.queues.activeId, ok_bind] at hr
  by_cases hact : s.queueIds.Active argp.client.id
  · rw [if_pos (decide_eq_true hact)] at hr
    cases hr
    exact iff_of_false StatusCode.noConfusion fun hfinds => hfinds.2.2.1 hact
  · rw [if_neg fun h => hact (of_decide_eq_true h)] at hr
    split_ifs at hr with hfail
    · cases hr
      refine iff_of_false StatusCode.noConfusion ?_
      rintro ⟨-, -, -, ⟨ctx', hctx', hlt⟩, hcl⟩
      obtain rfl := Option.some.inj (hctx.symm.trans hctx')
      rcases hfail with hle | hcl'
      · exact absurd hlt (Nat.not_lt.mpr hle)
      · exact hcl' hcl
    · obtain ⟨p, -, hr⟩ := bind_eq_ok.mp hr
      cases hr
      rw [not_or, Nat.not_le, not_not] at hfail
      exact iff_of_true rfl ⟨rfl, rfl, hact, ⟨ctx, hctx, hfail.1⟩, hfail.2⟩

theorem handle_queues (h : s.WellFormed) {r : Request} (hr : s.handle r = .ok q)
    (halloc : ∀ argp cl, r ≠ .queuealloc argp cl) (hdestroy : ∀ argp, r ≠ .queuedestroy argp) :
    q.2.queues = s.queues ∧ q.2.queueIds = s.queueIds := by
  cases r with
  | contextalloc argp platforms =>
    rcases contextalloc_ok h hr with ⟨-, heq⟩ | ⟨-, -, -, v, heq⟩
    · exact heq ▸ ⟨rfl, rfl⟩
    · exact heq ▸ ⟨rfl, rfl⟩
  | contextdestroy cid =>
    rcases contextdestroy_ok h hr with ⟨-, heq⟩ | ⟨-, heq⟩
    · exact heq ▸ ⟨rfl, rfl⟩
    · exact heq ▸ ⟨rfl, rfl⟩
  | surfacealloc argp cl fresh =>
    obtain ⟨ctx, b, -, -, heq⟩ := surfacealloc_ok hr
    exact heq ▸ ⟨rfl, rfl⟩
  | surfacedestroy argp => exact (surfacedestroy_ok hr).2 ▸ ⟨rfl, rfl⟩
  | queuealloc argp cl => exact absurd rfl (halloc argp cl)
  | queuedestroy argp => exact absurd rfl (hdestroy argp)
  | kernelalloc argp cl =>
    rcases kernelalloc_ok h hr with ⟨-, heq⟩ | ⟨-, -, -, heq⟩
    · exact heq ▸ ⟨rfl, rfl⟩
    · exact heq ▸ ⟨rfl, rfl⟩
  | kerneldestroy argp =>
    rcases kerneldestroy_ok h hr with ⟨-, heq⟩ | ⟨-, heq⟩
    · exact heq ▸ ⟨rfl, rfl⟩
    · exact heq ▸ ⟨rfl, rfl⟩
  | _ =>
    obtain ⟨b, heq, -⟩ := handle_changesOnly id hr
    exact heq ▸ ⟨rfl, rfl⟩

theorem ownsQueue_handle (h : s.WellFormed) {r : Request} (hr : s.handle r = .ok q)
    (hc : s.Confined r) (hd : ¬ r.DropsQueue cid) (id : VMAccelId) :
    OwnsQueue cid id q.2 ↔ OwnsQueue cid id s ∨ s.FindsQueue cid id r := by
  cases r with
  | queuealloc argp cl =>
    have hsuccess := queuealloc_success h hr
    rcases queuealloc_ok h hr with ⟨hfail, heq⟩ | ⟨hok, hlt, hact, heq⟩
    · rw [heq]
      refine (or_iff_left fun hfinds => hfail (hsuccess.mpr ?_)).symm
      have ⟨hcid, hid, _⟩ := hfinds
      subst hcid hid
      exact hfinds
    · have hfinds := hsuccess.mp hok
      rw [heq]
      constructor
      · rintro ⟨hact', hget⟩
        rcases (h.queues.active_setBit hlt id).mp hact' with hold | rfl
        · have hne : argp.client.id.toNat ≠ id.toNat :=
            fun heq => hact (BitVec.eq_of_toNat_eq heq ▸ hold)
          exact Or.inl ⟨hold, by rwa [List.getElem?_set_ne hne] at hget⟩
        · rw [List.getElem?_set_self (h.queues.length.symm ▸ hlt)] at hget
          obtain rfl := Option.some.inj (Option.some.inj hget)
          exact Or.inr hfinds
      · rintro (⟨hid, hget⟩ | ⟨rfl, rfl, -⟩)
        · obtain ⟨hid', hget'⟩ := stays_occupy h.queues hlt hact (some argp.client.cid) hid
          exact ⟨hid', hget'.trans hget⟩
        · refine ⟨(h.queues.active_setBit hlt _).mpr (Or.inr rfl), ?_⟩
          rw [List.getElem?_set_self (h.queues.length.symm ▸ hlt)]
  | queuedestroy argp =>
    have hkeeps : Keeps cid s q.2 :=
      handle_keeps h hr (hc argp.cid List.mem_cons_self) fun heq => hd heq.symm
    obtain ⟨hact, heq⟩ := queuedestroy_ok h hr
    rw [or_iff_left (b := s.FindsQueue cid id (.queuedestroy argp)) False.elim]
    refine ⟨?_, fun hold => hkeeps.queues id _ hold.1 hold.2 rfl⟩
    rw [heq]
    rintro ⟨hact', hget⟩
    obtain ⟨hold, hne⟩ := (Indexed.active_give hact id).mp hact'
    refine ⟨hold, ?_⟩
    rwa [List.getElem?_set_ne fun heq => hne (BitVec.eq_of_toNat_eq heq).symm] at hget
  | _ =>
    obtain ⟨hqueues, hids⟩ := handle_queues h hr (fun _ _ => nofun) (fun _ => nofun)
    rw [OwnsQueue, hqueues, hids]
    exact (or_iff_left False.elim).symm

/-- Along a confined run a context that destroys no queue has a queue exactly when one of its
requests has found it. -/
theorem ownsQueue_run {rs : List Request} (hc : EachInput step Confined powerOn rs)
    (hrun : run step powerOn rs = .ok s) (hd : ∀ r ∈ rs, ¬ r.DropsQueue cid) (id : VMAccelId) :
    OwnsQueue cid id s ↔ SomeInput step (FindsQueue cid id) powerOn rs := by
  have hnone : ¬ OwnsQueue cid id powerOn := fun hown =>
    absurd (hown.1.2.symm.trans (bit_alloc _ _)) Bool.noConfusion
  rw [run_iff_someInput (I := WellFormed) (P := OwnsQueue cid id) (C := FindsQueue cid id) ?_
    wellFormed_powerOn (hc.and_forall hd) hrun, or_iff_right hnone]
  rintro s r s' h ⟨hd, hc⟩ hstep
  obtain ⟨q, hq, rfl⟩ := bind_snd_eq_ok.mp hstep
  exact ⟨h.handle hq, ownsQueue_handle h hq hc hd id⟩

theorem atLeastOne_pos (n : BitVec 32) : 0 < (atLeastOne n).toNat := by
  unfold atLeastOne
  split_ifs with h
  · decide
  · exact Nat.pos_of_ne_zero fun h0 => h (BitVec.eq_of_toNat_eq h0)

theorem zero_mem_queueSlots (numSubDevices numQueues : BitVec 32) :
    (0, 0) ∈ queueSlots (atLeastOne numSubDevices) (atLeastOne numQueues) := by
  refine List.mem_flatMap.mpr ⟨0, List.mem_range.mpr (atLeastOne_pos _), ?_⟩
  exact List.mem_map.mpr ⟨0, List.mem_range.mpr (atLeastOne_pos _), by simp⟩

theorem not_both_ownsQueues (hne : cid₁ ≠ cid₂) (d₁ n₁ d₂ n₂ : BitVec 32) :
    ¬ (OwnsQueues cid₁ d₁ n₁ s ∧ OwnsQueues cid₂ d₂ n₂ s) := by
  rintro ⟨h₁, h₂⟩
  have hget₁ := (h₁ _ (zero_mem_queueSlots d₁ n₁)).2
  have hget₂ := (h₂ _ (zero_mem_queueSlots d₂ n₂)).2
  exact hne (Option.some.inj (Option.some.inj (hget₁.symm.trans hget₂)))

/-- The requests of `clcontext::alloc` when all of them are answered. -/
def clcontextAlloc (clientId selectionMask numSubDevices numQueues requiredCaps : BitVec 32)
    (platforms : List Platform) (cl : Bool) : List Request :=
  .contextalloc ⟨clientId, selectionMask, atLeastOne numSubDevices, requiredCaps⟩ platforms ::
    (queueSlots (atLeastOne numSubDevices) (atLeastOne numQueues)).map fun q =>
      .queuealloc ⟨⟨clientId, q.2⟩, q.1⟩ cl

/-- Along a run whose requests are all confined every context keeps what it has. One that destroys
no queue has those that it asks for in `clcontext::alloc` exactly when its requests have found each
of them, and no two contexts both have theirs. -/
theorem contexts_isolated {rs : List Request} (hc : EachInput step Confined powerOn rs) :
    EachInput step Isolated powerOn rs ∧ ∀ s, run step powerOn rs = .ok s →
      (∀ cid d n, (∀ r ∈ rs, ¬ r.DropsQueue cid) → (OwnsQueues cid d n s ↔
        ∀ q ∈ queueSlots (atLeastOne d) (atLeastOne n),
          SomeInput step (FindsQueue cid q.2) powerOn rs)) ∧
      ∀ cid₁ cid₂ d₁ n₁ d₂ n₂, cid₁ ≠ cid₂ →
        ¬ (OwnsQueues cid₁ d₁ n₁ s ∧ OwnsQueues cid₂ d₂ n₂ s) := by
  constructor
  · exact eachInput_of_invariant (I := WellFormed) (fun _ _ h => isolated_of_confined h)
      (fun _ _ _ h _ hstep => h.step hstep) wellFormed_powerOn hc
  · refine fun s hrun => ⟨fun cid d n hd => ?_, fun cid₁ cid₂ d₁ n₁ d₂ n₂ hne => ?_⟩
    · exact forall₂_congr fun q _ => ownsQueue_run hc hrun hd q.2
    · exact not_both_ownsQueues hne d₁ n₁ d₂ n₂

def allocDemo (clientId numQueues : BitVec 32) : List Request :=
  clcontextAlloc clientId 0xF 1 numQueues 0 [platformDemo] true

def surfaceDemo (cid sid : VMAccelId) : Request :=
  .surfacealloc ⟨cid, sid, { VMAccelSurfaceDesc.zero with
    type := .buffer, format := .r8Typeless, width := 4 }⟩ true fun _ => 0

/-- The second of two contexts gets no queue, and it can destroy a surface of the first. -/
theorem not_isolated_demo : ∃ s, run step powerOn (allocDemo 0 1 ++ allocDemo 1 1 ++
      [surfaceDemo 0 2]) = .ok s ∧ (s.contextIds.Active 0 ∧ s.contextIds.Active 1) ∧
    s.queues.count (some 1) = 0 ∧ s.backend.surfaceIds.Active 2 ∧
    ∃ s', run step s [.surfacedestroy ⟨1, 2⟩] = .ok s' ∧ ¬ s'.backend.surfaceIds.Active 2 := by
  decide +kernel

def confinedDemo : List Request :=
  allocDemo 0 2 ++ allocDemo 1 2 ++ [surfaceDemo 0 2, .surfacedestroy ⟨0, 2⟩]

/-- The first context has both of its queues, and the second one does not. -/
theorem contexts_isolated_demo : EachInput step Isolated powerOn confinedDemo ∧
    ∃ s, run step powerOn confinedDemo = .ok s ∧ s.contextIds.Active 0 ∧ s.contextIds.Active 1 ∧
      OwnsQueues 0 1 2 s ∧ ¬ OwnsQueues 1 1 2 s := by
  have hc : EachInput step Confined powerOn confinedDemo := by decide +kernel
  obtain ⟨s, hs, hact₀, hact₁⟩ : ∃ s, run step powerOn confinedDemo = .ok s ∧
      s.contextIds.Active 0 ∧ s.contextIds.Active 1 := by decide +kernel
  obtain ⟨hisolated, hqueues⟩ := contexts_isolated hc
  obtain ⟨howns, hnot⟩ := hqueues s hs
  have hslots : queueSlots (atLeastOne 1) (atLeastOne 2) = [(0, 0), (0, 1)] := by decide
  have hfinds : SomeInput step (FindsQueue 0 0) powerOn confinedDemo ∧
      SomeInput step (FindsQueue 0 1) powerOn confinedDemo := by decide +kernel
  have hfirst : OwnsQueues 0 1 2 s := by
    rw [howns 0 1 2 (by decide +kernel), hslots, List.forall_mem_cons, List.forall_mem_singleton]
    exact hfinds
  have hsecond : ¬ OwnsQueues 1 1 2 s := fun h => hnot 0 1 1 2 1 2 (by decide) ⟨hfirst, h⟩
  exact ⟨hisolated, s, hs, hact₀, hact₁, hfirst, hsecond⟩

end Server

end VMAccel
