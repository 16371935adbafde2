import VMAccel.ServerContexts
import VMAccel.ServerObjects
import VMAccel.WireBackend
import VMAccel.WireSession

/-!
# The server under arbitrary octets

Whatever messages a server receives, it does what a run of requests to `Server` does, with at most
one request for a message. An object that none of these requests names is left alone: it is active
afterwards exactly when it was, and its table entry is the same, down to the bytes of a surface.
-/

namespace VMAccel

open StepSystem IdentifierDB

theorem Backend.ChangesOnly.getElem?_eq {b b' : Backend} {P : ℕ → Prop} (h : ChangesOnly b b' P)
    {j : ℕ} (hP : ¬ P j) : b'.surfaces[j]? = b.surfaces[j]? := by
  cases hj : b.surfaces[j]? with
  | none => rwa [List.getElem?_eq_none_iff, h.length, ← List.getElem?_eq_none_iff]
  | some surf =>
    obtain ⟨surf', hget, -, -, -, hsame⟩ := h.kept j surf hj
    rw [hget, hsame hP]

namespace Server

/-- The objects that a request can create, destroy or change. -/
def Request.touches : Request → List Object
  | .contextalloc argp _ => [.context argp.clientId]
  | .contextdestroy cid => [.context cid]
  | .surfacealloc argp _ _ => [.surface argp.sid]
  | .surfacedestroy argp => [.surface argp.id]
  | .queuealloc argp _ => [.queue argp.client.id]
  | .queuedestroy argp => [.queue argp.id]
  | .kernelalloc argp _ => [.kernel argp.client.id]
  | .kerneldestroy argp => [.kernel argp.id]
  | r => r.targets.map .surface

/-- The object is active or not as before, with the same table entry. -/
def LeavesAlone (s s' : Server) (o : Object) : Prop :=
  (s'.Active o ↔ s.Active o) ∧ s.SameEntry s' o

theorem LeavesAlone.refl (s : Server) (o : Object) : s.LeavesAlone s o := ⟨Iff.rfl, .refl s o⟩

theorem LeavesAlone.trans {s t u : Server} {o : Object} (hst : s.LeavesAlone t o)
    (htu : t.LeavesAlone u o) : s.LeavesAlone u o :=
  ⟨htu.1.trans hst.1, hst.2.trans htu.2⟩

def SameApart {α : Type} (id : VMAccelId) (entries entries' : List α) (ids ids' : IdentifierDB) :
    Prop :=
  ∀ j ≠ id, (ids'.Active j ↔ ids.Active j) ∧ entries'[j.toNat]? = entries[j.toNat]?

section Tables

variable {α : Type} {n : ℕ} {entries : List α} {ids : IdentifierDB} {id : VMAccelId}

theorem toNat_ne_of_ne {j : VMAccelId} (hne : j ≠ id) : id.toNat ≠ j.toNat := fun heq =>
  hne (BitVec.eq_of_toNat_eq heq).symm

theorem sameApart_setBit_set (h : Indexed n entries ids) (hlt : id.toNat < n) (a : α) :
    SameApart id entries (entries.set id.toNat a) ids (ids.setBit id.toNat) := by
  intro j hne
  rw [h.active_setBit hlt j, or_iff_left hne]
  exact ⟨Iff.rfl, List.getElem?_set_ne (toNat_ne_of_ne hne)⟩

theorem sameApart_setBit_modify (h : Indexed n entries ids) (hlt : id.toNat < n) (f : α → α) :
    SameApart id entries (entries.modify id.toNat f) ids (ids.setBit id.toNat) := by
  intro j hne
  rw [h.active_setBit hlt j, or_iff_left hne]
  exact ⟨Iff.rfl, List.getElem?_modify_ne _ _ (toNat_ne_of_ne hne)⟩

theorem sameApart_give_set (hact : ids.Active id) (a : α) :
    SameApart id entries (entries.set id.toNat a) ids (ids.give id.toNat) := by
  intro j hne
  rw [Indexed.active_give hact j, and_iff_left hne]
  exact ⟨Iff.rfl, List.getElem?_set_ne (toNat_ne_of_ne hne)⟩

theorem sameApart_give_modify (hact : ids.Active id) (f : α → α) :
    SameApart id entries (entries.modify id.toNat f) ids (ids.give id.toNat) := by
  intro j hne
  rw [Indexed.active_give hact j, and_iff_left hne]
  exact ⟨Iff.rfl, List.getElem?_modify_ne _ _ (toNat_ne_of_ne hne)⟩

end Tables

variable {s : Server} {q : StatusCode × Server} {r : Request} {o : Object}

section Updates

variable {id : VMAccelId} {ids : IdentifierDB}

theorem ne_of_not_mem {kind : VMAccelId → Object} {id j : VMAccelId} (h : kind j ∉ [kind id]) :
    j ≠ id := fun heq => h (heq ▸ List.mem_singleton_self _)

theorem leavesAlone_contexts {entries : List VMWOpenCLContext}
    (h : SameApart id s.contexts entries s.contextIds ids) (ho : o ∉ [Object.context id]) :
    s.LeavesAlone { s with contexts := entries, contextIds := ids } o := by
  cases o with
  | context j => exact h j (ne_of_not_mem ho)
  | _ => exact ⟨Iff.rfl, rfl⟩

theorem leavesAlone_surfaces {entries : List VMWOpenCLSurface}
    (h : SameApart id s.backend.surfaces entries s.backend.surfaceIds ids)
    (ho : o ∉ [Object.surface id]) : s.LeavesAlone { s with backend := ⟨entries, ids⟩ } o := by
  cases o with
  | surface j => exact h j (ne_of_not_mem ho)
  | _ => exact ⟨Iff.rfl, rfl⟩

theorem leavesAlone_queues {entries : List (Option VMAccelId)}
    (h : SameApart id s.queues entries s.queueIds ids) (ho : o ∉ [Object.queue id]) :
    s.LeavesAlone { s with queues := entries, queueIds := ids } o := by
  cases o with
  | queue j => exact h j (ne_of_not_mem ho)
  | _ => exact ⟨Iff.rfl, rfl⟩

theorem leavesAlone_kernels {entries : List (Option VMAccelId)}
    (h : SameApart id s.kernels entries s.kernelIds ids) (ho : o ∉ [Object.kernel id]) :
    s.LeavesAlone { s with kernels := entries, kernelIds := ids } o := by
  cases o with
  | kernel j => exact h j (ne_of_not_mem ho)
  | _ => exact ⟨Iff.rfl, rfl⟩

end Updates

theorem handle_leavesAlone (h : s.WellFormed) (hr : s.handle r = .ok q) (ho : o ∉ r.touches) :
    s.LeavesAlone q.2 o := by
  cases r with
  | contextalloc argp platforms =>
    rcases contextalloc_ok h hr with ⟨-, heq⟩ | ⟨-, hlt, -, v, heq⟩
    · exact heq ▸ .refl s o
    · exact heq ▸ leavesAlone_contexts (sameApart_setBit_set h.contexts hlt _) ho
  | contextdestroy cid =>
    rcases contextdestroy_ok h hr with ⟨-, heq⟩ | ⟨hact, heq⟩
    · exact heq ▸ .refl s o
    · exact heq ▸ leavesAlone_contexts (sameApart_give_modify hact _) ho
  | surfacealloc argp cl fresh =>
    obtain ⟨ctx, b, -, hb, heq⟩ := surfacealloc_ok hr
    rw [heq]
    rcases Backend.surfacealloc_cases h.surfaces hb with ⟨-, heq⟩ | ⟨-, -, hlt, -, mem, heq⟩
    · obtain rfl : b = s.backend := heq
      exact .refl s o
    · obtain rfl : b = _ := heq
      exact leavesAlone_surfaces (sameApart_setBit_modify h.surfaces hlt _) ho
  | surfacedestroy argp =>
    obtain ⟨hact, heq⟩ := surfacedestroy_ok hr
    exact heq ▸ leavesAlone_surfaces (sameApart_give_set hact _) ho
  | queuealloc argp cl =>
    rcases queuealloc_ok h hr with ⟨-, heq⟩ | ⟨-, hlt, -, heq⟩
    · exact heq ▸ .refl s o
    · exact heq ▸ leavesAlone_queues (sameApart_setBit_set h.queues hlt _) ho
  | queuedestroy argp =>
    obtain ⟨hact, heq⟩ := queuedestroy_ok h hr
    exact heq ▸ leavesAlone_queues (sameApart_give_set hact _) ho
  | kernelalloc argp cl =>
    rcases kernelalloc_ok h hr with ⟨-, heq⟩ | ⟨-, hlt, -, heq⟩
    · exact heq ▸ .refl s o
    · exact heq ▸ leavesAlone_kernels (sameApart_setBit_set h.kernels hlt _) ho
  | kerneldestroy argp =>
    rcases kerneldestroy_ok h hr with ⟨-, heq⟩ | ⟨hact, heq⟩
    · exact heq ▸ .refl s o
    · exact heq ▸ leavesAlone_kernels (sameApart_give_set hact _) ho
  | _ =>
    obtain ⟨b, heq, hb⟩ := handle_changesOnly id hr
    rw [heq]
    cases o with
    | surface j =>
      refine ⟨iff_of_eq (congrArg (IdentifierDB.Active · j) hb.surfaceIds), hb.getElem?_eq ?_⟩
      rintro ⟨sid, hsid, heq⟩
      exact ho (List.mem_map.mpr ⟨sid, hsid, by rw [BitVec.eq_of_toNat_eq heq]⟩)
    | _ => exact ⟨Iff.rfl, rfl⟩

theorem wellFormed_run {s' : Server} {rs : List Request} (h : s.WellFormed)
    (hrun : run step s rs = .ok s') : s'.WellFormed :=
  run_invariant (C := fun _ _ => True) (fun _ _ _ h _ hstep => h.step hstep) h
    (eachInput_true _ _) hrun

theorem run_leavesAlone {s' : Server} {rs : List Request} (h : s.WellFormed)
    (hrun : run step s rs = .ok s') (ho : ∀ r ∈ rs, o ∉ r.touches) : s.LeavesAlone s' o := by
  induction rs generalizing s with
  | nil =>
    cases hrun
    exact .refl _ o
  | cons r rs ih =>
    obtain ⟨t, ht, hrun⟩ := run_cons_ok.mp hrun
    obtain ⟨q, hq, rfl⟩ := bind_snd_eq_ok.mp ht
    exact (handle_leavesAlone h hq (ho r (List.mem_cons_self ..))).trans
      (ih (h.handle hq) hrun fun r' hr' => ho r' (List.mem_cons_of_mem _ hr'))

end Server

namespace Wire

open Xdr RemoteCall

variable {host : Host} {w w' : World}

theorem vmwopenclOps_ok {p : Proc} {argp : p.Arg} {st : Option p.Status}
    (h : vmwopenclOps host p argp w = .ok (st, w')) :
    ∃ r status, request (host.answers w.requests) p argp = some r ∧
      w.server.handle r = .ok (status, w'.server) ∧ w'.requests = w.requests + 1 := by
  unfold vmwopenclOps at h
  cases hr : request (host.answers w.requests) p argp with
  | none =>
    rw [hr] at h
    cases h
  | some r =>
    rw [hr] at h
    obtain ⟨⟨status, s'⟩, hx, h⟩ := bind_eq_ok.mp h
    split_ifs at h with hover
    cases h
    exact ⟨r, status, rfl, hx, rfl⟩

theorem svc_vmwopenclOps_ok {p : Proc} {argp : p.Arg} {x : Option (ReturnStatus p.Status)}
    (h : svc (vmwopenclOps host) true p argp w = .ok (x, w')) :
    w'.server = w.server ∨ ∃ r, request (host.answers w.requests) p argp = some r ∧
      w.server.step r = .ok w'.server := by
  have hforward : ∀ {x}, forward (vmwopenclOps host) p argp w = .ok (x, w') →
      ∃ r, request (host.answers w.requests) p argp = some r ∧
        w.server.step r = .ok w'.server := by
    intro x hf
    obtain ⟨ret, hret, -⟩ := forward_ok hf
    obtain ⟨r, status, hr, hhandle, -⟩ := vmwopenclOps_ok hret
    exact ⟨r, hr, bind_snd_eq_ok.mpr ⟨_, hhandle, rfl⟩⟩
  cases p with
  | surfacemap =>
    change surfacemap2Svc _ _ _ _ = _ at h
    unfold surfacemap2Svc at h
    rw [if_neg (by simp)] at h
    split_ifs at h with hflag
    · cases h
      exact Or.inl rfl
    · exact Or.inr (hforward h)
  | surfaceunmap =>
    change surfaceunmap2Svc _ _ _ _ = _ at h
    unfold surfaceunmap2Svc at h
    rw [if_neg (by simp)] at h
    split_ifs at h with hflag
    · cases h
      exact Or.inl rfl
    · exact Or.inr (hforward h)
  | _ => exact Or.inr (hforward h)

/-- The server on a message, of which only the effect is kept. -/
def receiveStep (room : Room) (host : Host) (w : World) (m : Message) : Except Fault World := do
  let x ← vmcl1 room (vmwopenclOps host) w m
  return x.2

def Requests (host : Host) (k : LocalCall vmcl) (r : Server.Request) : Prop :=
  ∃ i, request (host.answers i) k.1 k.2 = some r

/-- The request that a message comes to. -/
def Asks (room : Room) (host : Host) (m : Message) (r : Server.Request) : Prop :=
  ∃ k ∈ decoded (routines room) m, Requests host k r

theorem localEffect_ok {k : LocalCall vmcl}
    (h : localEffect (svc (vmwopenclOps host) true) w k = .ok w') :
    ∃ rs, run Server.step w.server rs = .ok w'.server ∧ rs.length ≤ 1 ∧
      ∀ r ∈ rs, Requests host k r := by
  obtain ⟨x, hx, rfl⟩ := bind_snd_eq_ok.mp h
  rcases svc_vmwopenclOps_ok hx with heq | ⟨r, hr, hstep⟩
  · exact ⟨[], by rw [run, heq], Nat.zero_le _, by simp⟩
  · refine ⟨[r], run_cons_ok.mpr ⟨_, hstep, rfl⟩, Nat.le_refl _, ?_⟩
    intro r' hr'
    rw [List.mem_singleton.mp hr']
    exact ⟨w.requests, hr⟩

theorem run_localEffect_ok {ks : List (LocalCall vmcl)}
    (h : run (localEffect (svc (vmwopenclOps host) true)) w ks = .ok w') :
    ∃ rs, run Server.step w.server rs = .ok w'.server ∧ rs.length ≤ ks.length ∧
      ∀ r ∈ rs, ∃ k ∈ ks, Requests host k r := by
  induction ks generalizing w with
  | nil =>
    cases h
    exact ⟨[], rfl, Nat.le_refl _, by simp⟩
  | cons k ks ih =>
    obtain ⟨v, hv, h⟩ := run_cons_ok.mp h
    obtain ⟨rs, hrs, hlen, hasks⟩ := localEffect_ok hv
    obtain ⟨rs', hrs', hlen', hasks'⟩ := ih h
    refine ⟨rs ++ rs', run_append_ok.mpr ⟨_, hrs, hrs'⟩, ?_, ?_⟩
    · rw [List.length_append, List.length_cons]
      omega
    · intro r hr
      rcases List.mem_append.mp hr with hr | hr
      · exact ⟨k, List.mem_cons_self .., hasks r hr⟩
      · obtain ⟨k', hk', hr'⟩ := hasks' r hr
        exact ⟨k', List.mem_cons_of_mem _ hk', hr'⟩

/-- Whatever messages arrive, the server is where some run of requests leaves it, each of which one
of the messages asks for. -/
theorem run_receiveStep_ok {room : Room} {ms : List Message}
    (h : run (receiveStep room host) w ms = .ok w') :
    ∃ rs, run Server.step w.server rs = .ok w'.server ∧ rs.length ≤ ms.length ∧
      ∀ r ∈ rs, ∃ m ∈ ms, Asks room host m r := by
  have hserve : run (receiveStep room host) w ms =
      run (localEffect (svc (vmwopenclOps host) true)) w (ms.filterMap (decoded (routines room))) :=
    run_serveStep (routines room) (svc (vmwopenclOps host) true) w ms
  obtain ⟨rs, hrs, hlen, hasks⟩ := run_localEffect_ok (hserve ▸ h)
  refine ⟨rs, hrs, hlen.trans (List.length_filterMap_le ..), ?_⟩
  intro r hr
  obtain ⟨k, hk, hr⟩ := hasks r hr
  obtain ⟨m, hm, hdec⟩ := List.mem_filterMap.mp hk
  exact ⟨m, hm, k, hdec, hr⟩

/-- Whatever octets arrive at a server, an object that none of the messages names is active
afterwards exactly when it was, with the same table entry. -/
theorem octets_leave_alone (room : Room) (host : Host) {ms : List Message} {w' : World}
    (hw : w.server.WellFormed) (h : run (receiveStep room host) w ms = .ok w') {o : Object}
    (ho : ∀ m ∈ ms, ∀ r, Asks room host m r → o ∉ r.touches) :
    w.server.LeavesAlone w'.server o := by
  obtain ⟨rs, hrs, -, hasks⟩ := run_receiveStep_ok h
  refine Server.run_leavesAlone hw hrs fun r hr => ?_
  obtain ⟨m, hm, hask⟩ := hasks r hr
  exact ho m hm r hask

def contextsDemo : List Server.Request :=
  [.contextalloc ⟨0, 0xF, 1, 0⟩ [Server.platformDemo],
    .contextalloc ⟨1, 0xF, 1, 0⟩ [Server.platformDemo]]

/-- A procedure that there is none of, an argument that is cut short, and the destruction of
context 0. -/
def octetsDemo : List Message := [⟨99, [1]⟩, ⟨1, [0, 0]⟩, ⟨2, [0, 0, 0, 0]⟩]

theorem octets_leave_alone_demo :
    ∃ s, run Server.step .powerOn contextsDemo = .ok s ∧ s.Active (.context 0) ∧
      s.Active (.context 1) ∧
      ∃ w, run (receiveStep .no hostDemo) ⟨s, 0⟩ octetsDemo = .ok w ∧
        ¬ w.server.Active (.context 0) ∧ s.LeavesAlone w.server (.context 1) := by
  have hnames : ∀ m ∈ octetsDemo, ∀ r, Asks .no hostDemo m r → Object.context 1 ∉ r.touches := by
    rintro m hm r ⟨k, hk, i, hr⟩
    simp only [octetsDemo, List.mem_cons, List.not_mem_nil, or_false] at hm
    rcases hm with rfl | rfl | rfl
    · cases hk
    · cases hk
    · cases hk
      cases hr
      decide
  have hrun : ∃ s, run Server.step .powerOn contextsDemo = .ok s ∧ s.Active (.context 0) ∧
      s.Active (.context 1) ∧
      ∃ w, run (receiveStep .no hostDemo) ⟨s, 0⟩ octetsDemo = .ok w ∧
        ¬ w.server.Active (.context 0) := by
    decide +kernel
  obtain ⟨s, hs, h0, h1, w, hw, hgone⟩ := hrun
  have hwell : s.WellFormed := Server.wellFormed_run Server.wellFormed_powerOn hs
  exact ⟨s, hs, h0, h1, w, hw, hgone, octets_leave_alone .no hostDemo hwell hw hnames⟩

end Wire

end VMAccel
