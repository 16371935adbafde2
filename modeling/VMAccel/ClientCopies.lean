import VMAccel.ClientContents

/-!
# Copies and fills before a dispatch

A copy or fill leaves its destination without the mark of consistency, and the next dispatch sends
the backing of every surface that has none. So the kernel reads what was copied or filled only when
the backing happens to hold the same bytes.
-/

namespace VMAccel

open StepSystem

theorem Host.exists_buffer_iff {h : Host} {sid : VMAccelId}
    {P : VMWOpenCLSurfaceInstance → Prop} :
    (∃ desc ∈ h.backend.descs[sid.toNat]?, ∃ x ∈ h.backend.instance? sid.toNat 0,
      desc.type = .buffer ∧ P x) ↔
    ∃ desc x, h.backend.descs[sid.toNat]? = some desc ∧ desc.type = .buffer ∧
      h.backend.instance? sid.toNat 0 = some x ∧ P x := by
  constructor
  · rintro ⟨desc, hdesc, x, hx, htype, hrest⟩
    exact ⟨desc, x, hdesc, htype, hx, hrest⟩
  · rintro ⟨desc, x, hdesc, htype, hx, hrest⟩
    exact ⟨desc, hdesc, x, hx, htype, hrest⟩

instance (h : Host) (sid : VMAccelId) (generation : BitVec 32) (mem : List Byte) :
    Decidable (h.Current sid generation mem) :=
  decidable_of_iff (∃ desc ∈ h.backend.descs[sid.toNat]?, ∃ x ∈ h.backend.instance? sid.toNat 0,
    desc.type = .buffer ∧ x.generation = generation ∧ x.mem = mem) Host.exists_buffer_iff

/-- What the kernel of an operation reads: the arguments are prepared, and the server collects
their contents. -/
def Client.kernelReads (c : Client) (op : Operation) (net : Net) :
    Except Fault (StatusCode × List (List Byte)) := do
  let p ← run (prepareArg net) (c, []) op.bindings.zipIdx
  p.1.host.backend.collectArgs p.2

namespace Shadow

/-- Every request of the call is served, as far as the network decides it. -/
def Call.Reliable : Call → Prop
  | .dispatch _ _ net => net.Reliable
  | .copy _ _ _ _ _ | .fill _ _ _ _ _ | .prepare _ _ => True

def status : Except Fault (Option StatusCode × Client) → Option StatusCode
  | .ok r => r.1
  | .error _ => none

/-- A copy or fill is answered with success, and a dispatch returns. A fill in another format than
`VMACCEL_FORMAT_UINT` makes no request. -/
def Succeeds (s : Shadow) : Call → Prop
  | .copy answer src srcRegion dst dstRegion =>
    status (s.client.copySurface answer src srcRegion dst dstRegion) = some .success
  | .fill answer k region element formatUint =>
    formatUint = true →
      status (s.client.fillSurface answer k region element formatUint) = some .success
  | .prepare _ _ => True
  | .dispatch o force net => (s.client.dispatch o force net).isOk = true

instance (s : Shadow) : (a : Call) → Decidable (s.Succeeds a)
  | .copy _ _ _ _ _ => inferInstanceAs (Decidable (_ = _))
  | .fill _ _ _ _ _ => inferInstanceAs (Decidable (_ → _))
  | .prepare _ _ => .isTrue trivial
  | .dispatch _ _ _ => inferInstanceAs (Decidable (_ = _))

def Dispatches (s : Shadow) (P : Operation → Net → Prop) : Call → Prop
  | .dispatch o force net => ∀ op ∈ s.client.operations[o]?,
    (op.dispatched = true ∧ force = false) ∨ P op net
  | .copy _ _ _ _ _ | .fill _ _ _ _ _ | .prepare _ _ => True

instance (s : Shadow) (P : Operation → Net → Prop) [∀ op net, Decidable (P op net)] :
    (a : Call) → Decidable (s.Dispatches P a)
  | .dispatch _ _ _ => inferInstanceAs (Decidable (∀ _ ∈ (_ : Option _), _))
  | .copy _ _ _ _ _ | .fill _ _ _ _ _ | .prepare _ _ => .isTrue trivial

/-- The kernel reads what the last copy, fill or kernel left in its surfaces. -/
def ReadsLast (s : Shadow) : Call → Prop :=
  s.Dispatches fun op net =>
    s.client.kernelReads op net = .ok (.success, s.contents.reads op.bindings)

instance (s : Shadow) (a : Call) : Decidable (s.ReadsLast a) :=
  inferInstanceAs (Decidable (s.Dispatches _ a))

def Fresh (c : Client) (k : ℕ) : Prop :=
  ∀ surf ∈ c.surfaces[k]?, surf.consistencyDB.Active c.contextId ∨
    c.host.Current surf.id surf.generation surf.backing

instance (c : Client) (k : ℕ) : Decidable (Fresh c k) :=
  inferInstanceAs (Decidable (∀ _ ∈ (_ : Option _), _))

/-- A dispatch binds fresh surfaces only. -/
def BindsFresh (s : Shadow) : Call → Prop :=
  s.Dispatches fun op _ => ∀ k ∈ op.bindings, Fresh s.client k

instance (s : Shadow) (a : Call) : Decidable (s.BindsFresh a) :=
  inferInstanceAs (Decidable (s.Dispatches _ a))

variable {c : Client} {m : Contents} {k : ℕ} {surf : Surface}

theorem InSync.write (hs : InSync ⟨c, m⟩) (hk : c.surfaces[k]? = some surf)
    {x z : VMWOpenCLSurfaceInstance} (hx : c.host.backend.instance? surf.id.toNat 0 = some x)
    (hlen : z.mem.length = x.mem.length) (hgen : z.generation = surf.generation)
    (hmap : z.mapping = x.mapping) (db : IdentifierDB) :
    InSync ⟨{ c with
      host := ⟨c.host.backend.setInstance surf.id.toNat 0 z, c.host.trace⟩
      surfaces := c.surfaces.set k { surf with consistencyDB := db } }, m.set k z.mem⟩ := by
  obtain ⟨mem, -, hwidth, hhas⟩ := hs.has k surf hk
  refine hs.store hk (Host.elsewhere_setInstance hx z _) (Host.has_setInstance hhas hx hgen hmap _)
    ?_ db
  rw [hlen, (hhas.of_instance hx).1, hwidth]

theorem InSync.copySurface (hs : InSync ⟨c, m⟩) {answer : Answer} {src dst : ℕ}
    {srcRegion dstRegion : VMAccelSurfaceRegion} {r : Option StatusCode × Client}
    (hr : c.copySurface answer src srcRegion dst dstRegion = .ok r)
    (hstatus : r.1 = some .success) :
    InSync ⟨r.2, m.copy src srcRegion.coord.x.toNat dst dstRegion.coord.x.toNat
      dstRegion.size.x.toNat⟩ := by
  obtain ⟨srcSurf, hsrc, hr⟩ := bind_eq_ok.mp hr
  obtain ⟨dstSurf, hdst, hr⟩ := bind_eq_ok.mp hr
  obtain ⟨srcResident, -, hr⟩ := bind_eq_ok.mp hr
  obtain ⟨dstResident, -, hr⟩ := bind_eq_ok.mp hr
  rw [readAt_ok] at hsrc hdst
  split_ifs at hr
  · cases hr
    cases hstatus
  · obtain ⟨q, hq, hr⟩ := bind_eq_ok.mp hr
    obtain ⟨c', hc', hr⟩ := bind_eq_ok.mp hr
    cases hr
    obtain ⟨db, rfl⟩ := Client.clearConsistent_ok (c := { c with host := q.2 }) hdst hc'
    obtain ⟨cl, hcopy⟩ := Answer.call_success hq hstatus
    obtain ⟨p, hp, hcopy⟩ := bind_eq_ok.mp hcopy
    obtain ⟨hp₁, hhost⟩ := Prod.mk.inj (Except.ok.inj hcopy)
    obtain ⟨x, y, mem, hx, hy, hmem, hp₂⟩ := Backend.surfacecopy_success hp hp₁
    obtain ⟨srcMem, hsrcMem, -, hsrcHas⟩ := hs.has src srcSurf hsrc
    obtain ⟨dstMem, hdstMem, -, hdstHas⟩ := hs.has dst dstSurf hdst
    obtain ⟨rfl, -⟩ := hsrcHas.of_instance hx
    obtain ⟨rfl, hgen⟩ := hdstHas.of_instance hy
    obtain ⟨bytes, hbytes, hsplice⟩ := Option.bind_eq_some_iff.mp hmem
    have hcontents : m.copy src srcRegion.coord.x.toNat dst dstRegion.coord.x.toNat
        dstRegion.size.x.toNat = m.set dst mem := by
      rw [Contents.copy, hsrcMem, hdstMem]
      change m.put dst ((extract x.mem _ _).bind (splice y.mem _)) = _
      exact congrArg (m.put dst) hmem
    rw [hcontents, ← hhost, hp₂]
    exact hs.write hdst hy (z := { y with mem }) (length_splice hsplice) hgen rfl db

theorem InSync.fillSurface (hs : InSync ⟨c, m⟩) {answer : Answer} {region : VMAccelSurfaceRegion}
    {element : BitVec 32} {formatUint : Bool} {r : Option StatusCode × Client}
    (hr : c.fillSurface answer k region element formatUint = .ok r)
    (hstatus : r.1 = some .success) :
    InSync ⟨r.2, m.fill k region.coord.x.toNat region.size.x.toNat (fillPattern element)⟩ := by
  obtain ⟨surf, hk, hr⟩ := bind_eq_ok.mp hr
  obtain ⟨resident, -, hr⟩ := bind_eq_ok.mp hr
  rw [readAt_ok] at hk
  split_ifs at hr
  · obtain ⟨q, hq, hr⟩ := bind_eq_ok.mp hr
    obtain ⟨c', hc', hr⟩ := bind_eq_ok.mp hr
    cases hr
    obtain ⟨db, rfl⟩ := Client.clearConsistent_ok (c := { c with host := q.2 }) hk hc'
    obtain ⟨cl, hfill⟩ := Answer.call_success hq hstatus
    obtain ⟨p, hp, hfill⟩ := bind_eq_ok.mp hfill
    obtain ⟨hp₁, hhost⟩ := Prod.mk.inj (Except.ok.inj hfill)
    obtain ⟨x, mem, hx, hmem, hp₂⟩ := Backend.imagefill_success hp hp₁
    obtain ⟨oldMem, holdMem, -, hhas⟩ := hs.has k surf hk
    obtain ⟨rfl, -⟩ := hhas.of_instance hx
    have hcontents : m.fill k region.coord.x.toNat region.size.x.toNat (fillPattern element) =
        m.set k mem := by
      rw [Contents.fill, holdMem]
      change m.put k (splice x.mem _ _) = _
      exact congrArg (m.put k) hmem
    rw [hcontents, ← hhost, hp₂]
    exact hs.write hk hx (z := { x with mem, generation := surf.generation })
      (length_splice hmem) rfl rfl db
  · cases hr
    cases hstatus
  · cases hr
    cases hstatus

theorem InSync.dispatch (hs : InSync ⟨c, m⟩) {net : Net} (hn : net.Reliable) {o : ℕ}
    {force : Bool} {r : StatusCode × Client} (hr : c.dispatch o force net = .ok r) :
    ∃ op, c.operations[o]? = some op ∧
      ((op.dispatched = true ∧ force = false ∧ r = (.fail, c)) ∨
        ((op.dispatched = true → force = true) ∧ r.1 = .success ∧
          (∀ k ∈ op.bindings, k < c.surfaces.length) ∧
          c.kernelReads op net =
            .ok (.success, (prepared ⟨c, m⟩ op.bindings).reads op.bindings) ∧
          InSync ⟨r.2, (prepared ⟨c, m⟩ op.bindings).runKernel op.bindings op.kernel⟩)) := by
  obtain ⟨op, hop, hskip | ⟨hforce, p, q, hp, hq, rfl⟩⟩ := Client.dispatch_ok hr
  · exact ⟨op, hop, Or.inl hskip⟩
  · obtain ⟨hs', hargs, -, hlen, hbs⟩ := hs.run_prepareArg hn hp
    rw [List.zipIdx_map_fst] at hs' hargs
    have hks : ∀ k ∈ op.bindings, k < c.surfaces.length := by
      intro k hk
      rw [← List.zipIdx_map_fst 0 op.bindings] at hk
      obtain ⟨b, hb, rfl⟩ := List.mem_map.mp hk
      exact hbs b hb
    have hcollect := hs'.collectArgs (hlen ▸ hks)
    rw [List.nil_append] at hargs
    obtain ⟨⟨status, host⟩, hd, hne⟩ := Client.submit_served hn hq
    obtain ⟨u, hu, hd⟩ := bind_eq_ok.mp hd
    obtain rfl := Backend.dispatch_of_collectArgs ⟨p.2, 1, op.kernel⟩
      (hargs.symm ▸ hcollect) hu
    cases hd
    obtain rfl := hne StatusCode.noConfusion
    refine ⟨op, hop, Or.inr ⟨hforce, rfl, hks, ?_, ?_⟩⟩
    · exact bind_eq_ok.mpr ⟨p, hp, hargs.symm ▸ hcollect⟩
    · rw [hargs]
      exact (hs'.runKernel (hlen ▸ hks) op.kernel _).of_operations _

theorem reads_prepared {s : Shadow} {ks : List ℕ} (hks : ∀ k ∈ ks, k < s.contents.length) :
    (s.prepared ks).reads ks = ks.map s.sends := by
  refine List.map_congr_left fun k hk => ?_
  rw [List.getD_eq_getElem?_getD, prepared, List.getElem?_mapIdx,
    List.getElem?_eq_getElem (hks k hk)]
  simp [hk]

theorem prepared_of_sends {s : Shadow} {ks : List ℕ}
    (hks : ∀ k ∈ ks, s.sends k = s.contents.getD k []) : s.prepared ks = s.contents := by
  refine List.ext_getElem? fun k => ?_
  rw [prepared, List.getElem?_mapIdx]
  cases hk : s.contents[k]? with
  | none => rfl
  | some mem =>
    by_cases hmem : k ∈ ks
    · simp [hmem, hks k hmem, List.getD_eq_getElem?_getD, hk]
    · simp [hmem]

theorem InSync.fresh_iff (hs : InSync ⟨c, m⟩) (hk : k < c.surfaces.length) :
    Fresh c k ↔ sends ⟨c, m⟩ k = m.getD k [] := by
  have hsurf := List.getElem?_eq_getElem hk
  obtain ⟨mem, hmem, -, hhas⟩ := hs.has k _ hsurf
  have hget : m.getD k [] = mem := by
    rw [List.getD_eq_getElem?_getD, hmem]
    rfl
  rw [Fresh, hsurf, sends, hsurf, hget]
  dsimp only
  split_ifs with hact
  · exact iff_of_true (fun _ h => Option.some.inj h ▸ Or.inl hact) rfl
  · constructor
    · intro h
      exact (hhas.unique ((h _ rfl).resolve_left hact)).symm
    · rintro rfl surf' h
      obtain rfl := Option.some.inj h
      exact Or.inr hhas.current

theorem InSync.readsLast_iff {s : Shadow} (hs : InSync s) {a : Call} (hn : a.Reliable)
    (ha : s.Succeeds a) : s.ReadsLast a ↔ s.BindsFresh a := by
  cases a with
  | dispatch o force net =>
    obtain ⟨r, hr⟩ : ∃ r, s.client.dispatch o force net = .ok r := by
      cases hr : s.client.dispatch o force net with
      | ok r => exact ⟨r, rfl⟩
      | error e =>
        rw [Succeeds, hr] at ha
        cases ha
    obtain ⟨op, hop, ⟨hdone, hforce, -⟩ | ⟨hrun, -, hks, hreads, -⟩⟩ :=
      hs.dispatch hn hr
    · refine iff_of_true (fun op' hop' => ?_) (fun op' hop' => ?_)
      · exact Option.some.inj (hop.symm.trans hop') ▸ Or.inl ⟨hdone, hforce⟩
      · exact Option.some.inj (hop.symm.trans hop') ▸ Or.inl ⟨hdone, hforce⟩
    · have hkept : ∀ k ∈ op.bindings, k < s.contents.length := by
        intro k hk
        obtain ⟨mem, hmem, -⟩ := hs.has k _ (List.getElem?_eq_getElem (hks k hk))
        exact (List.getElem?_eq_some_iff.mp hmem).1
      rw [reads_prepared hkept] at hreads
      have hne : ¬ (op.dispatched = true ∧ force = false) := fun h =>
        Bool.false_ne_true (h.2.symm.trans (hrun h.1))
      constructor
      · intro h op' hop'
        obtain rfl := Option.some.inj (hop.symm.trans hop')
        have heq := hreads.symm.trans ((h op hop).resolve_left hne)
        have hsends := List.map_inj_left.mp (Prod.mk.inj (Except.ok.inj heq)).2
        exact Or.inr fun k hk => (hs.fresh_iff (hks k hk)).mpr (hsends k hk)
      · intro h op' hop'
        obtain rfl := Option.some.inj (hop.symm.trans hop')
        have hfresh := (h op hop).resolve_left hne
        have hsends := List.map_inj_left.mpr fun k hk =>
          (hs.fresh_iff (hks k hk)).mp (hfresh k hk)
        refine Or.inr (hreads.trans ?_)
        exact congrArg (fun l => Except.ok (StatusCode.success, l)) hsends
  | copy _ _ _ _ _ => exact Iff.rfl
  | fill _ _ _ _ _ => exact Iff.rfl
  | prepare _ _ => exact Iff.rfl

theorem InSync.step {s s' : Shadow} (hs : InSync s) {a : Call} (hn : a.Reliable)
    (ha : s.Succeeds a) (hf : s.BindsFresh a) (h : s.step a = .ok s') : InSync s' := by
  cases a with
  | copy answer src srcRegion dst dstRegion =>
    obtain ⟨r, hr, h⟩ := bind_eq_ok.mp h
    cases h
    rw [Succeeds, hr] at ha
    change r.1 = some .success at ha
    rw [if_pos ha]
    exact hs.copySurface hr ha
  | fill answer k region element formatUint =>
    obtain ⟨r, hr, h⟩ := bind_eq_ok.mp h
    cases h
    rw [Succeeds, hr] at ha
    cases formatUint with
    | true =>
      have hstatus : r.1 = some .success := ha rfl
      rw [if_pos hstatus]
      exact hs.fillSurface hr hstatus
    | false =>
      obtain ⟨surf, -, hr⟩ := bind_eq_ok.mp hr
      obtain ⟨resident, -, hr⟩ := bind_eq_ok.mp hr
      rw [if_pos Bool.false_ne_true, ite_self] at hr
      cases hr
      exact hs
  | prepare bindings kernel =>
    cases h
    exact hs.of_operations _
  | dispatch o force net =>
    obtain ⟨op, hop, h⟩ := bind_eq_ok.mp h
    obtain ⟨r, hr, h⟩ := bind_eq_ok.mp h
    cases h
    rw [readAt_ok] at hop
    obtain ⟨op', hop', ⟨-, -, rfl⟩ | ⟨hrun, hstatus, hks, -, hs'⟩⟩ := hs.dispatch hn hr
    · exact hs
    · obtain rfl := Option.some.inj (hop.symm.trans hop')
      have hfresh := (hf op hop).resolve_left fun h =>
        Bool.false_ne_true (h.2.symm.trans (hrun h.1))
      rw [prepared_of_sends fun k hk => (hs.fresh_iff (hks k hk)).mp (hfresh k hk)] at hs'
      rw [if_pos hstatus]
      exact hs'

/-- When all requests succeed, the kernels of a run read what the last copy, fill or kernel left,
exactly when every dispatch binds only surfaces that are consistent or whose backing is what the
server has. -/
theorem readsLast_iff_bindsFresh {s : Shadow} (hs : InSync s) {calls : List Call}
    (hn : ∀ a ∈ calls, a.Reliable) (hsucc : EachInput step Succeeds s calls) :
    EachInput step ReadsLast s calls ↔ EachInput step BindsFresh s calls := by
  have hdom := hsucc.and_forall hn
  have hiff : EachInput step (fun s a => (a.Reliable ∧ s.Succeeds a) ∧ s.ReadsLast a) s calls ↔
      EachInput step (fun s a => (a.Reliable ∧ s.Succeeds a) ∧ s.BindsFresh a) s calls :=
    eachInput_iff (I := InSync)
      (fun _ _ hI => and_congr_right fun h => hI.readsLast_iff h.1 h.2)
      (fun _ _ _ hI h hstep => hI.step h.1.1 h.1.2 h.2 hstep) hs
  exact ⟨fun h => (eachInput_and.mp (hiff.mp (eachInput_and.mpr ⟨hdom, h⟩))).2,
    fun h => (eachInput_and.mp (hiff.mpr (eachInput_and.mpr ⟨hdom, h⟩))).2⟩

instance (h : Host) (sid : VMAccelId) (generation : BitVec 32) (mem : List Byte) :
    Decidable (h.Has sid generation mem) :=
  decidable_of_iff (∃ desc ∈ h.backend.descs[sid.toNat]?, ∃ x ∈ h.backend.instance? sid.toNat 0,
    desc.type = .buffer ∧ x.generation = generation ∧ x.mem = mem ∧ x.mapping.refCount = 0)
    Host.exists_buffer_iff

def Synced (s : Shadow) : Prop :=
  (s.client.surfaces.map Surface.id).Nodup ∧ s.contents.length = s.client.surfaces.length ∧
    ∀ p ∈ s.client.surfaces.zip s.contents, s.client.residencyDB.Active p.1.id ∧
      p.2.length = p.1.desc.width.toNat ∧ s.client.host.Has p.1.id p.1.generation p.2

instance (s : Shadow) : Decidable s.Synced := inferInstanceAs (Decidable (_ ∧ _ ∧ _))

theorem inSync_of_synced {s : Shadow} (hw : s.client.host.backend.WellFormed) (h : s.Synced) :
    InSync s := by
  obtain ⟨hnodup, hlen, hzip⟩ := h
  have hpair : ∀ (k : ℕ) (surf : Surface), s.client.surfaces[k]? = some surf →
      ∃ mem, s.contents[k]? = some mem ∧ (surf, mem) ∈ s.client.surfaces.zip s.contents := by
    intro k surf hk
    have hlt : k < s.contents.length := hlen ▸ (List.getElem?_eq_some_iff.mp hk).1
    refine ⟨s.contents[k], List.getElem?_eq_getElem hlt, List.mem_of_getElem? (i := k) ?_⟩
    rw [List.getElem?_zip_eq_some]
    exact ⟨hk, List.getElem?_eq_getElem hlt⟩
  refine ⟨hw, fun i j si sj hi hj heq => ?_, fun k surf hk => ?_, fun k surf hk => ?_⟩
  · have hlt : i < (s.client.surfaces.map Surface.id).length := by
      rw [List.length_map]
      exact (List.getElem?_eq_some_iff.mp hi).1
    refine (List.getElem?_inj hlt hnodup).mp ?_
    rw [List.getElem?_map, List.getElem?_map, hi, hj]
    exact congrArg some heq
  · obtain ⟨mem, -, hmem⟩ := hpair k surf hk
    exact (hzip _ hmem).1
  · obtain ⟨mem, hget, hmem⟩ := hpair k surf hk
    exact ⟨mem, hget, (hzip _ hmem).2⟩

open Client

def demoPair : List Surface :=
  [⟨0, demoDesc, 0, [1, 1], .alloc 48, rfl⟩, ⟨1, demoDesc, 0, [2, 2], .alloc 48, rfl⟩]

theorem construct_demoPair : constructSurfaces (.alloc 48)
    [(demoDesc, fun _ => 1), (demoDesc, fun _ => 2)] = .ok demoPair := rfl

def demoSetup : List Client.Call :=
  [.allocSurface 0 (demoNet true), .uploadSurface 0 false (demoNet true),
    .allocSurface 1 (demoNet true), .uploadSurface 1 false (demoNet true)]

theorem inSync_demoSetup {c : Client} {m : Contents}
    (hrun : run perform (start false 7 false 48 demoPair) demoSetup = .ok c)
    (h : Synced ⟨c, m⟩) : InSync ⟨c, m⟩ := by
  have hacc : EachInput perform Accepted (start false 7 false 48 demoPair) demoSetup := by
    decide +kernel
  have hc : Coherent c := run_invariant (fun _ _ _ hI hC => hI.perform hC)
    (coherent_start construct_demoPair 7 false) hacc hrun
  exact inSync_of_synced hc.wellFormed h

theorem reliable_demoNet : (demoNet true).Reliable :=
  ⟨fun _ => rfl, fun _ => rfl, fun _ => rfl, fun _ => rfl, fun _ => rfl, fun _ => rfl, fun _ => rfl⟩

def demoCopy (k : ℕ) : List Call :=
  [.copy (.served true) 0 demoRegion 1 demoRegion, .prepare [k] fun _ _ _ => 9]

/-- The kernel reads the two bytes of the old backing, not the ones that were copied. -/
theorem copy_undone_by_dispatch :
    ∃ c, run perform (start false 7 false 48 demoPair) demoSetup = .ok c ∧
      InSync ⟨c, [[1, 1], [2, 2]]⟩ ∧ (∀ surf ∈ c.surfaces, surf.consistencyDB.Active c.contextId) ∧
      EachInput step Succeeds ⟨c, [[1, 1], [2, 2]]⟩
        (demoCopy 1 ++ [.dispatch 0 false (demoNet true)]) ∧
      ∃ t, run step ⟨c, [[1, 1], [2, 2]]⟩ (demoCopy 1) = .ok t ∧
        ∃ op ∈ t.client.operations[0]?, t.contents.reads op.bindings = [[1, 1]] ∧
          t.client.kernelReads op (demoNet true) = .ok (.success, [[2, 2]]) := by
  obtain ⟨c, hrun, hsync, hrest⟩ :
      ∃ c, run perform (start false 7 false 48 demoPair) demoSetup = .ok c ∧
        Synced ⟨c, [[1, 1], [2, 2]]⟩ ∧
        (∀ surf ∈ c.surfaces, surf.consistencyDB.Active c.contextId) ∧
        EachInput step Succeeds ⟨c, [[1, 1], [2, 2]]⟩
          (demoCopy 1 ++ [.dispatch 0 false (demoNet true)]) ∧
        ∃ t, run step ⟨c, [[1, 1], [2, 2]]⟩ (demoCopy 1) = .ok t ∧
          ∃ op ∈ t.client.operations[0]?, t.contents.reads op.bindings = [[1, 1]] ∧
            t.client.kernelReads op (demoNet true) = .ok (.success, [[2, 2]]) := by
    decide +kernel
  exact ⟨c, hrun, inSync_demoSetup hrun hsync, hrest⟩

/-- A kernel that reads the source of the copy is not affected. -/
theorem readsLast_demo :
    ∃ c, run perform (start false 7 false 48 demoPair) demoSetup = .ok c ∧
      EachInput step ReadsLast ⟨c, [[1, 1], [2, 2]]⟩
        (demoCopy 0 ++ [.dispatch 0 false (demoNet true)]) := by
  obtain ⟨c, hrun, hsync, hsucc, hfresh⟩ :
      ∃ c, run perform (start false 7 false 48 demoPair) demoSetup = .ok c ∧
        Synced ⟨c, [[1, 1], [2, 2]]⟩ ∧
        EachInput step Succeeds ⟨c, [[1, 1], [2, 2]]⟩
          (demoCopy 0 ++ [.dispatch 0 false (demoNet true)]) ∧
        EachInput step BindsFresh ⟨c, [[1, 1], [2, 2]]⟩
          (demoCopy 0 ++ [.dispatch 0 false (demoNet true)]) := by
    decide +kernel
  refine ⟨c, hrun, (readsLast_iff_bindsFresh (inSync_demoSetup hrun hsync) ?_ hsucc).mpr hfresh⟩
  rintro a (_ | ⟨_, _ | ⟨_, _ | ⟨_, h⟩⟩⟩)
  · trivial
  · trivial
  · exact reliable_demoNet
  · cases h

end Shadow

end VMAccel
