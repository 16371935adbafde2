import VMAccel.ClientAccelerated
import VMAccel.ClientConsistency
import VMAccel.ClientFrame
import VMAccel.ClientTracking

/-!
# The contents that a client has on its server

`InSync` says that every surface of the client is resident and that the server has the content
that `Shadow` keeps for it, in the generation of the client. Copies and fills that succeed keep it.
Preparing the arguments of a dispatch keeps it as well, once the content of a surface that is not
consistent is replaced by its backing.
-/

namespace VMAccel

open StepSystem

namespace Backend

variable {s : Backend} {cl : Bool}

theorem surfacecopy_success {argp : SurfaceCopyOp} {r : StatusCode × Backend}
    (hr : s.surfacecopy argp cl = .ok r) (hstatus : r.1 = .success) :
    ∃ src dst mem, s.instance? argp.srcSid.toNat 0 = some src ∧
      s.instance? argp.dstSid.toNat 0 = some dst ∧
      (extract src.mem argp.srcOffset.toNat argp.size.toNat).bind
        (splice dst.mem argp.dstOffset.toNat) = some mem ∧
      r.2 = s.setInstance argp.dstSid.toNat 0 { dst with mem } := by
  rcases surfacecopy_ok hr with ⟨hne, -⟩ | ⟨src, dst, mem, hsrc, hdst, -, -, hmem, heq⟩
  · exact absurd hstatus hne
  · unfold copyMem at hmem
    split_ifs at hmem
    exact ⟨src, dst, mem, hsrc, hdst, hmem, heq⟩

theorem imagefill_success {argp : ImageFillOp} {r : StatusCode × Backend}
    (hr : s.imagefill argp cl = .ok r) (hstatus : r.1 = .success) :
    ∃ x mem, s.instance? argp.sid.toNat 0 = some x ∧
      splice x.mem argp.offset.toNat ((List.range argp.size.toNat).map fun j =>
        argp.pattern.getD (j % argp.pattern.length) 0) = some mem ∧
      r.2 = s.setInstance argp.sid.toNat 0 { x with mem, generation := argp.generation } := by
  rcases imagefill_ok hr with ⟨hne, -⟩ | ⟨x, mem, hx, -, hmem, heq⟩
  · exact absurd hstatus hne
  · unfold fillMem at hmem
    split_ifs at hmem
    exact ⟨x, mem, hx, hmem, heq⟩

end Backend

namespace Host

def Has (h : Host) (sid : VMAccelId) (generation : BitVec 32) (mem : List Byte) : Prop :=
  ∃ desc x, h.backend.descs[sid.toNat]? = some desc ∧ desc.type = .buffer ∧
    h.backend.instance? sid.toNat 0 = some x ∧ x.generation = generation ∧ x.mem = mem ∧
    x.mapping.refCount = 0

structure Elsewhere (h h' : Host) (sid : VMAccelId) : Prop where
  descs : h'.backend.descs = h.backend.descs
  surfaceIds : h'.backend.surfaceIds = h.backend.surfaceIds
  instance? : ∀ j, j ≠ sid.toNat → h'.backend.instance? j 0 = h.backend.instance? j 0

variable {h h' : Host} {sid : VMAccelId} {generation : BitVec 32} {mem : List Byte} {cl : Bool}

theorem Has.current (hh : h.Has sid generation mem) : h.Current sid generation mem := by
  obtain ⟨desc, x, hdesc, htype, hx, hgen, hmem, -⟩ := hh
  exact ⟨desc, x, hdesc, htype, hx, hgen, hmem⟩

theorem Has.unique {mem' : List Byte} (hh : h.Has sid generation mem)
    (hh' : h.Current sid generation mem') : mem = mem' := hh.current.unique hh'

theorem Has.of_instance {x : VMWOpenCLSurfaceInstance} (hh : h.Has sid generation mem)
    (hx : h.backend.instance? sid.toNat 0 = some x) : x.mem = mem ∧ x.generation = generation := by
  obtain ⟨-, y, -, -, hy, hgen, hmem, -⟩ := hh
  rw [Option.some.inj (hx.symm.trans hy)]
  exact ⟨hmem, hgen⟩

theorem Has.fits (hh : h.Has sid generation mem) (hw : h.backend.WellFormed) :
    h.Fits sid mem.length generation := by
  obtain ⟨desc, x, -, -, hx, hgen, hmem, hclosed⟩ := hh
  have hinst : ∀ y, h.backend.instance? sid.toNat 0 = some y → y = x := fun y hy =>
    Option.some.inj (hy.symm.trans hx)
  refine ⟨hw, fun y hy => ?_, fun _ y _ hy _ => ?_, fun y hy => ?_⟩
  · rw [hinst y hy, hclosed]
  · rw [hinst y hy, hmem]
  · rw [hinst y hy, hgen]
    exact BitVec.le_refl _

theorem has_of_fits {width : ℕ} (hf : h.Fits sid width generation)
    (hcur : h.Current sid generation mem) : h.Has sid generation mem := by
  obtain ⟨desc, x, hdesc, htype, hx, hgen, hmem⟩ := hcur
  exact ⟨desc, x, hdesc, htype, hx, hgen, hmem, hf.closed x hx⟩

theorem Elsewhere.refl (h : Host) (sid : VMAccelId) : Elsewhere h h sid :=
  ⟨rfl, rfl, fun _ _ => rfl⟩

theorem Elsewhere.trans {h₁ h₂ h₃ : Host} (h : Elsewhere h₁ h₂ sid) (h' : Elsewhere h₂ h₃ sid) :
    Elsewhere h₁ h₃ sid where
  descs := h'.descs.trans h.descs
  surfaceIds := h'.surfaceIds.trans h.surfaceIds
  instance? j hj := (h'.instance? j hj).trans (h.instance? j hj)

theorem Elsewhere.wellFormed (he : Elsewhere h h' sid) (hw : h.backend.WellFormed) :
    h'.backend.WellFormed := hw.congr he.descs he.surfaceIds

theorem Elsewhere.has (he : Elsewhere h h' sid) {sid' : VMAccelId} (hne : sid' ≠ sid)
    (hh : h.Has sid' generation mem) : h'.Has sid' generation mem := by
  obtain ⟨desc, x, hdesc, htype, hx, hrest⟩ := hh
  refine ⟨desc, x, by rw [he.descs, hdesc], htype, ?_, hrest⟩
  rw [he.instance? _ fun heq => hne (BitVec.eq_of_toNat_eq heq), hx]

theorem elsewhere_setInstance {x : VMWOpenCLSurfaceInstance}
    (hx : h.backend.instance? sid.toNat 0 = some x) (z : VMWOpenCLSurfaceInstance)
    (trace : List Event) :
    Elsewhere h ⟨h.backend.setInstance sid.toNat 0 z, trace⟩ sid where
  descs := h.backend.descs_setInstance _ _ _
  surfaceIds := rfl
  instance? j hj := by
    change (h.backend.setInstance _ _ _).instance? j 0 = _
    rw [Backend.instance?_setInstance hx, if_neg fun h => hj h.1]

theorem has_setInstance {x z : VMWOpenCLSurfaceInstance} (hh : h.Has sid generation mem)
    (hx : h.backend.instance? sid.toNat 0 = some x) (hgen : z.generation = generation)
    (hmap : z.mapping = x.mapping) (trace : List Event) :
    Has ⟨h.backend.setInstance sid.toNat 0 z, trace⟩ sid generation z.mem := by
  obtain ⟨desc, y, hdesc, htype, hy, -, -, hclosed⟩ := hh
  obtain rfl := Option.some.inj (hx.symm.trans hy)
  refine ⟨desc, z, ?_, htype, ?_, hgen, rfl, hmap ▸ hclosed⟩
  · exact (h.backend.descs_setInstance _ _ _).symm ▸ hdesc
  · change (h.backend.setInstance _ _ _).instance? _ _ = some z
    rw [Backend.instance?_setInstance hx, if_pos ⟨rfl, rfl⟩]

theorem elsewhere_imageupload {argp : ImageUploadOp} {r : StatusCode × Host}
    (hinst : argp.inst = 0) (hr : h.imageupload argp cl = .ok r) :
    Elsewhere h r.2 argp.sid := by
  obtain ⟨q, hq, hr⟩ := bind_eq_ok.mp hr
  cases hr
  obtain ⟨desc, x, -, hx, hcase⟩ := Backend.imageupload_ok hq
  rw [hinst] at hx hcase
  rcases hcase with ⟨-, rfl⟩ | ⟨-, -, -, ⟨-, rfl⟩ | ⟨mem, -, rfl⟩⟩
  · exact .refl h argp.sid
  · exact .refl h argp.sid
  · exact elsewhere_setInstance hx _ _

theorem elsewhere_surfacemap {argp : SurfaceMapOp} {r : (StatusCode × Option HostPtr) × Host}
    (hinst : argp.inst = 0) (hr : h.surfacemap argp cl = .ok r) : Elsewhere h r.2 argp.sid := by
  obtain ⟨q, hq, hr⟩ := bind_eq_ok.mp hr
  cases hr
  obtain ⟨desc, x, -, hx, hcase⟩ := Backend.surfacemap_ok hq
  rw [hinst] at hx hcase
  rcases hcase with ⟨-, rfl⟩ | ⟨-, -, ⟨-, rfl⟩ | ⟨ptr, -, rfl⟩⟩
  · exact .refl h argp.sid
  · exact elsewhere_setInstance hx _ _
  · exact elsewhere_setInstance hx _ _

theorem elsewhere_surfaceunmap {argp : SurfaceUnmapOp} {r : StatusCode × Host}
    (hinst : argp.inst = 0) (hr : h.surfaceunmap argp cl = .ok r) : Elsewhere h r.2 argp.sid := by
  obtain ⟨q, hq, hr⟩ := bind_eq_ok.mp hr
  cases hr
  obtain ⟨-, x, -, -, hx, -, rfl⟩ := Backend.surfaceunmap_ok hq
  rw [hinst] at hx ⊢
  exact elsewhere_setInstance hx _ _

end Host

theorem Answer.call_success {answer : Answer} {h : Host}
    {handler : Host → Bool → Except Fault (StatusCode × Host)} {r : Option StatusCode × Host}
    (hr : answer.call h handler id = .ok r) (hstatus : r.1 = some .success) :
    ∃ cl, handler h cl = .ok (.success, r.2) := by
  rcases Answer.call_ok hr with ⟨-, hrefused⟩ | ⟨cl, q, hq, heq, hreply⟩
  · obtain ⟨status, hne, hs⟩ := hrefused _ hstatus
    exact absurd hs.symm hne
  · refine ⟨cl, ?_⟩
    rw [hq, heq, hreply _ hstatus]

namespace Client

variable {c : Client} {k i : ℕ} {net : Net} {surf : Surface}

theorem allocSurface_of_resident (hk : c.surfaces[k]? = some surf)
    (hres : c.residencyDB.Active surf.id) : c.allocSurface k net i = .ok (true, c) := by
  rw [allocSurface, readAt_ok.mpr hk, ok_bind, IdentifierDB.activeId_eq_ok_true.mpr hres, ok_bind]
  rfl

theorem clearConsistent_ok (hk : c.surfaces[k]? = some surf) {c' : Client}
    (hr : c.clearConsistent k surf = .ok c') :
    ∃ db, c' = { c with surfaces := c.surfaces.set k { surf with consistencyDB := db } } := by
  obtain ⟨consistent, -, hr⟩ := bind_eq_ok.mp hr
  split_ifs at hr
  · obtain ⟨surf', hset, hr⟩ := bind_eq_ok.mp hr
    obtain ⟨db, -, hset⟩ := bind_eq_ok.mp hset
    cases hset
    cases hr
    exact ⟨db, rfl⟩
  · cases hr
    refine ⟨surf.consistencyDB, ?_⟩
    rw [set_getElem?_self hk]

def argOf (c : Client) (k : ℕ) : KernelArg :=
  match c.surfaces[k]? with
  | some surf => ⟨true, surf.id, 0, surf.generation, true⟩
  | none => unsetArg

theorem argOf_eq (hk : c.surfaces[k]? = some surf) :
    c.argOf k = ⟨true, surf.id, 0, surf.generation, true⟩ := by
  rw [argOf, hk]

theorem argOf_set (hk : c.surfaces[k]? = some surf) (db : IdentifierDB) (host : Host) (j : ℕ) :
    argOf { c with
      host := host, surfaces := c.surfaces.set k { surf with consistencyDB := db } } j =
      c.argOf j := by
  have hlt : k < c.surfaces.length := (List.getElem?_eq_some_iff.mp hk).1
  unfold argOf
  by_cases hj : j = k
  · rw [hj, List.getElem?_set_self hlt, hk]
  · rw [List.getElem?_set_ne (Ne.symm hj)]

abbrev Distinct (c : Client) : Prop :=
  ∀ (i j : ℕ) (si sj : Surface), c.surfaces[i]? = some si → c.surfaces[j]? = some sj →
    si.id = sj.id → i = j

variable {m : Contents} {ks : List ℕ}

theorem collectArgs_argOf (h : ∀ k ∈ ks, ∃ surf mem, c.surfaces[k]? = some surf ∧
      m[k]? = some mem ∧ c.host.Current surf.id surf.generation mem) :
    c.host.backend.collectArgs (ks.map c.argOf) = .ok (.success, m.reads ks) := by
  induction ks with
  | nil => rfl
  | cons k ks ih =>
    obtain ⟨⟨surf, mem, hsurf, hmem, desc, x, hdesc, -, hx, hgen, hxmem⟩, hrest⟩ :=
      List.forall_mem_cons.mp h
    have hloc : c.host.backend.locate surf.id 0 = .ok (desc, x) :=
      Backend.locate_ok.mpr ⟨hdesc, hx⟩
    rw [List.map_cons, argOf_eq hsurf, Backend.collectArgs]
    rw [require_ok (u := ()).mpr rfl, ok_bind, hloc, ok_bind]
    dsimp only
    rw [if_neg (not_not.mpr hgen), if_neg (not_not.mpr rfl), ih hrest, ok_bind]
    have hread : m.getD k [] = x.mem := by
      rw [List.getD_eq_getElem?_getD, hmem, hxmem]
      rfl
    rw [← hread]
    rfl

/-- Among the arguments for surfaces, the first one for surface `k` is where `k` is first bound. -/
theorem findIdx?_argOf (hc : c.Distinct) (hks : ∀ k ∈ ks, k < c.surfaces.length)
    (hk : c.surfaces[k]? = some surf) :
    (ks.map c.argOf).findIdx? (fun a => a.sid.toNat = surf.id.toNat ∧ a.inst.toNat = 0) =
      ks.findIdx? (· = k) := by
  have hmatch : ∀ j ∈ ks, (c.argOf j).sid.toNat = surf.id.toNat ∧ (c.argOf j).inst.toNat = 0 ↔
      j = k := by
    intro j hj
    have hsurf := List.getElem?_eq_getElem (hks j hj)
    rw [argOf_eq hsurf]
    constructor
    · rintro ⟨hid, -⟩
      exact hc j k _ _ hsurf hk (BitVec.eq_of_toNat_eq hid)
    · rintro rfl
      rw [Option.some.inj (hsurf.symm.trans hk)]
      exact ⟨rfl, rfl⟩
  induction ks with
  | nil => rfl
  | cons j ks ih =>
    obtain ⟨hj, hrest⟩ := List.forall_mem_cons.mp hmatch
    rw [List.map_cons, List.findIdx?_cons, List.findIdx?_cons,
      ih (List.forall_mem_cons.mp hks).2 hrest, decide_eq_decide.mpr hj]

theorem getElem?_runKernel (hc : c.Distinct) (hks : ∀ k ∈ ks, k < c.surfaces.length)
    (hk : c.surfaces[k]? = some surf) {x : VMWOpenCLSurfaceInstance} (hmem : m[k]? = some x.mem)
    (kernel : List (List Byte) → ℕ → ℕ → Byte) :
    (m.runKernel ks kernel)[k]? =
      some (Backend.runOn ⟨ks.map c.argOf, 1, kernel⟩ (m.reads ks) surf.id.toNat 0 x).mem := by
  rw [Contents.runKernel, List.getElem?_mapIdx, hmem, Backend.runOn, findIdx?_argOf hc hks hk]
  cases ks.findIdx? (· = k) <;> rfl

end Client

namespace Shadow

/-- The server has the contents that are kept for the surfaces of the client. -/
structure InSync (s : Shadow) : Prop where
  wellFormed : s.client.host.backend.WellFormed
  distinct : ∀ (i j : ℕ) (si sj : Surface), s.client.surfaces[i]? = some si →
    s.client.surfaces[j]? = some sj → si.id = sj.id → i = j
  resident : ∀ (k : ℕ) (surf : Surface), s.client.surfaces[k]? = some surf →
    s.client.residencyDB.Active surf.id
  has : ∀ (k : ℕ) (surf : Surface), s.client.surfaces[k]? = some surf →
    ∃ mem, s.contents[k]? = some mem ∧ mem.length = surf.desc.width.toNat ∧
      s.client.host.Has surf.id surf.generation mem

def sends (s : Shadow) (k : ℕ) : List Byte :=
  match s.client.surfaces[k]? with
  | some surf =>
    if surf.consistencyDB.Active s.client.contextId then s.contents.getD k [] else surf.backing
  | none => []

variable {c : Client} {m : Contents} {k : ℕ} {surf : Surface}

theorem InSync.of_operations (hs : InSync ⟨c, m⟩) (ops : List Operation) :
    InSync ⟨{ c with operations := ops }, m⟩ :=
  ⟨hs.wellFormed, hs.distinct, hs.resident, hs.has⟩

/-- New content for surface `k` on the server, and new marks of consistency for it. -/
theorem InSync.store (hs : InSync ⟨c, m⟩) (hk : c.surfaces[k]? = some surf) {host : Host}
    (he : Host.Elsewhere c.host host surf.id) {mem : List Byte}
    (hhas : host.Has surf.id surf.generation mem) (hlen : mem.length = surf.desc.width.toNat)
    (db : IdentifierDB) :
    InSync ⟨{ c with
      host := host, surfaces := c.surfaces.set k { surf with consistencyDB := db } },
      m.set k mem⟩ := by
  have hlt : k < c.surfaces.length := (List.getElem?_eq_some_iff.mp hk).1
  have hget : ∀ (j : ℕ) (sj : Surface),
      (c.surfaces.set k { surf with consistencyDB := db })[j]? = some sj →
      ∃ sj' : Surface, c.surfaces[j]? = some sj' ∧ sj.id = sj'.id ∧ sj.generation = sj'.generation ∧
        sj.desc = sj'.desc := by
    intro j sj hj
    by_cases hjk : j = k
    · rw [hjk, List.getElem?_set_self hlt] at hj
      cases hj
      exact ⟨surf, hjk ▸ hk, rfl, rfl, rfl⟩
    · rw [List.getElem?_set_ne (Ne.symm hjk)] at hj
      exact ⟨sj, hj, rfl, rfl, rfl⟩
  refine ⟨he.wellFormed hs.wellFormed, fun i j si sj hi hj heq => ?_, fun j sj hj => ?_,
    fun j sj hj => ?_⟩
  · obtain ⟨si', hi', hidi, -⟩ := hget i si hi
    obtain ⟨sj', hj', hidj, -⟩ := hget j sj hj
    exact hs.distinct i j si' sj' hi' hj' (hidi.symm.trans (heq.trans hidj))
  · obtain ⟨sj', hj', hid, -⟩ := hget j sj hj
    rw [hid]
    exact hs.resident j sj' hj'
  · obtain ⟨sj', hj', hid, hgen, hdesc⟩ := hget j sj hj
    rw [hid, hgen, hdesc]
    obtain ⟨memj, hmemj, hlenj, hhasj⟩ := hs.has j sj' hj'
    by_cases hjk : j = k
    · obtain rfl := Option.some.inj (hk.symm.trans (hjk ▸ hj'))
      refine ⟨mem, ?_, hlen, hhas⟩
      rw [hjk] at hmemj ⊢
      exact List.getElem?_set_self (List.getElem?_eq_some_iff.mp hmemj).1
    · refine ⟨memj, by rw [List.getElem?_set_ne (Ne.symm hjk), hmemj], hlenj, ?_⟩
      exact he.has (fun heq => hjk (hs.distinct j k sj' surf hj' hk heq)) hhasj

def prepared (s : Shadow) (ks : List ℕ) : Contents :=
  s.contents.mapIdx fun k mem => if k ∈ ks then s.sends k else mem

theorem prepared_nil (s : Shadow) : s.prepared [] = s.contents := by
  refine List.ext_getElem? fun j => ?_
  rw [prepared, List.getElem?_mapIdx]
  cases s.contents[j]? with
  | none => rfl
  | some mem => simp

theorem prepared_cons {s s' : Shadow} (hsends : ∀ j, s'.sends j = s.sends j)
    (hcontents : s'.contents = s.contents.set k (s.sends k)) (ks : List ℕ) :
    s.prepared (k :: ks) = s'.prepared ks := by
  refine List.ext_getElem? fun j => ?_
  rw [prepared, prepared, List.getElem?_mapIdx, List.getElem?_mapIdx, hcontents]
  simp only [hsends, List.mem_cons]
  by_cases hj : j = k
  · subst hj
    rw [List.getElem?_set_self']
    cases s.contents[j]? <;> simp
  · rw [List.getElem?_set_ne (Ne.symm hj)]
    simp [hj]

/-- Sending surface `k` does not change what the other surfaces have to send. -/
theorem sends_store (hk : c.surfaces[k]? = some surf) (hm : k < m.length) (host : Host)
    {db : IdentifierDB}
    (hdb : db.Active c.contextId ∨ sends ⟨c, m⟩ k = surf.backing) (j : ℕ) :
    sends ⟨{ c with
      host := host, surfaces := c.surfaces.set k { surf with consistencyDB := db } },
      m.set k (sends ⟨c, m⟩ k)⟩ j = sends ⟨c, m⟩ j := by
  have hlt : k < c.surfaces.length := (List.getElem?_eq_some_iff.mp hk).1
  by_cases hj : j = k
  · subst hj
    generalize hv : sends ⟨c, m⟩ j = v at hdb
    rw [sends, List.getElem?_set_self hlt]
    dsimp only
    rw [List.getD_eq_getElem?_getD, List.getElem?_set_self hm]
    split_ifs with hact
    · rfl
    · exact (hdb.resolve_left hact).symm
  · generalize sends ⟨c, m⟩ k = v
    simp only [sends, List.getD_eq_getElem?_getD, List.getElem?_set_ne (Ne.symm hj)]

variable {net : Net}

theorem elsewhere_uploadSurface (hk : c.surfaces[k]? = some surf) {force : Bool} {i : ℕ}
    {r : Bool × Client} (hr : c.uploadSurface k force net i = .ok r) :
    Host.Elsewhere c.host r.2.host surf.id := by
  obtain ⟨surf', hk', ⟨-, -, rfl⟩ | ⟨-, ⟨-, hr⟩ | ⟨-, hr⟩⟩⟩ := Client.uploadSurface_ok hr
  · exact .refl c.host surf.id
  · obtain rfl := Option.some.inj (hk.symm.trans hk')
    obtain ⟨p, hp, hr⟩ := bind_eq_ok.mp hr
    have hmap : Host.Elsewhere c.host p.2 surf.id :=
      Answer.call_invariant (P := fun h => Host.Elsewhere c.host h surf.id) hp (.refl _ _)
        fun _ _ hq => Host.elsewhere_surfacemap rfl hq
    split at hr
    · obtain ⟨q, hq, hr⟩ := bind_eq_ok.mp hr
      have hunmap : Host.Elsewhere c.host q.2 surf.id :=
        Answer.call_invariant (P := fun h => Host.Elsewhere c.host h surf.id) hq hmap
          fun _ _ hu => hmap.trans (Host.elsewhere_surfaceunmap rfl hu)
      dsimp only at hr
      split at hr
      · cases hr
        exact hunmap
      · obtain ⟨c', hc', hr⟩ := bind_eq_ok.mp hr
        obtain ⟨surf', -, hc'⟩ := bind_eq_ok.mp hc'
        cases hc'
        cases hr
        exact hunmap
    · cases hr
      exact hmap
  · obtain rfl := Option.some.inj (hk.symm.trans hk')
    obtain ⟨q, hq, hr⟩ := Client.uploadImage_ok hr
    have hup : Host.Elsewhere c.host q.2 surf.id :=
      Answer.call_invariant (P := fun h => Host.Elsewhere c.host h surf.id) hq (.refl _ _)
        fun _ _ hp => Host.elsewhere_imageupload rfl hp
    rcases hr with ⟨-, rfl⟩ | ⟨-, surf', -, -, rfl⟩
    · exact hup
    · exact hup

theorem InSync.prepareArg (hs : InSync ⟨c, m⟩) (hn : net.Reliable) {args : List KernelArg}
    {b : ℕ × ℕ} {p : Client × List KernelArg} (hr : Client.prepareArg net (c, args) b = .ok p) :
    ∃ surf host db, c.surfaces[b.1]? = some surf ∧
      p = ({ c with
        host := host, surfaces := c.surfaces.set b.1 { surf with consistencyDB := db } },
        args ++ [c.argOf b.1]) ∧
      InSync ⟨p.1, m.set b.1 (sends ⟨c, m⟩ b.1)⟩ ∧
      ∀ j, sends ⟨p.1, m.set b.1 (sends ⟨c, m⟩ b.1)⟩ j = sends ⟨c, m⟩ j := by
  obtain ⟨q, halloc, hr⟩ := bind_eq_ok.mp hr
  obtain ⟨surf, hk, -⟩ := Client.allocSurface_ok halloc
  obtain ⟨mem, hmem, hlen, hhas⟩ := hs.has b.1 surf hk
  have hlt : b.1 < m.length := (List.getElem?_eq_some_iff.mp hmem).1
  rw [Client.allocSurface_of_resident hk (hs.resident b.1 surf hk)] at halloc
  cases halloc
  obtain ⟨q, hup, hr⟩ := bind_eq_ok.mp hr
  have he := elsewhere_uploadSurface hk hup
  have hfits := hlen ▸ hhas.fits hs.wellFormed
  -- either way the surface is on the server, and its marks are all that changes on the client
  obtain ⟨host, db, rfl, hdb, hhas'⟩ : ∃ host db,
      q = (true, { c with
        host := host, surfaces := c.surfaces.set b.1 { surf with consistencyDB := db } }) ∧
      (db.Active c.contextId ∨ sends ⟨c, m⟩ b.1 = surf.backing) ∧
      host.Has surf.id surf.generation (sends ⟨c, m⟩ b.1) := by
    rcases Client.sent_uploadSurface hk hfits hn hup with ⟨hact, -, rfl⟩ | ⟨hforce, hsent⟩
    · refine ⟨c.host, surf.consistencyDB, ?_, Or.inl hact, ?_⟩
      · rw [Client.set_getElem?_self hk]
      · rw [sends, hk]
        dsimp only
        rw [if_pos hact, List.getD_eq_getElem?_getD, hmem]
        exact hhas
    · obtain ⟨host, surf', hset, rfl, hfits', hcur, -⟩ := hsent
      obtain ⟨db, rfl, -, -⟩ := Surface.setConsistency_true hset
      have hsends : sends ⟨c, m⟩ b.1 = surf.backing := by
        rw [sends, hk]
        exact if_neg fun hact => Bool.false_ne_true (hforce hact)
      exact ⟨host, db, rfl, Or.inr hsends, hsends ▸ Host.has_of_fits hfits' hcur⟩
  obtain ⟨surf', hsurf', hr⟩ := bind_eq_ok.mp hr
  cases hr
  have harg := Client.argOf_eq (readAt_ok.mp hsurf')
  rw [Client.argOf_set hk] at harg
  refine ⟨surf, host, db, hk, by rw [hn.argSet, harg], ?_, fun j => sends_store hk hlt host hdb j⟩
  refine hs.store hk he hhas' ?_ db
  rw [sends, hk]
  dsimp only
  split_ifs
  · rw [List.getD_eq_getElem?_getD, hmem]
    exact hlen
  · exact surf.length_backing

theorem InSync.run_prepareArg (hs : InSync ⟨c, m⟩) (hn : net.Reliable) {bs : List (ℕ × ℕ)}
    {args : List KernelArg} {p : Client × List KernelArg}
    (hr : run (Client.prepareArg net) (c, args) bs = .ok p) :
    InSync ⟨p.1, prepared ⟨c, m⟩ (bs.map Prod.fst)⟩ ∧
      p.2 = args ++ (bs.map Prod.fst).map p.1.argOf ∧
      (∀ j, p.1.argOf j = c.argOf j) ∧ p.1.surfaces.length = c.surfaces.length ∧
      ∀ b ∈ bs, b.1 < c.surfaces.length := by
  induction bs generalizing c m args with
  | nil =>
    cases hr
    refine ⟨?_, (List.append_nil _).symm, fun _ => rfl, rfl,
      fun _ hb => absurd hb List.not_mem_nil⟩
    exact (prepared_nil ⟨c, m⟩).symm ▸ hs
  | cons b bs ih =>
    obtain ⟨p₁, hb, hr⟩ := run_cons_ok.mp hr
    obtain ⟨surf, host, db, hk, rfl, hs₁, hsends⟩ := hs.prepareArg hn hb
    obtain ⟨hs₂, hargs, harg, hlen, hbs⟩ := ih hs₁ hr
    have hlen₁ : (c.surfaces.set b.1 { surf with consistencyDB := db }).length =
        c.surfaces.length := List.length_set
    have harg' : ∀ j, p.1.argOf j = c.argOf j := fun j =>
      (harg j).trans (Client.argOf_set hk db host j)
    refine ⟨?_, ?_, harg', hlen.trans hlen₁, ?_⟩
    · rw [List.map_cons, prepared_cons hsends rfl]
      exact hs₂
    · rw [hargs, List.append_assoc, ← harg' b.1]
      rfl
    · refine List.forall_mem_cons.mpr ⟨(List.getElem?_eq_some_iff.mp hk).1, fun b' hb' => ?_⟩
      exact hlen₁ ▸ hbs b' hb'

theorem InSync.collectArgs (hs : InSync ⟨c, m⟩) {ks : List ℕ}
    (hks : ∀ k ∈ ks, k < c.surfaces.length) :
    c.host.backend.collectArgs (ks.map c.argOf) = .ok (.success, m.reads ks) := by
  refine Client.collectArgs_argOf fun k hk => ?_
  have hsurf := List.getElem?_eq_getElem (hks k hk)
  obtain ⟨mem, hmem, -, hhas⟩ := hs.has k _ hsurf
  exact ⟨_, mem, hsurf, hmem, hhas.current⟩

theorem InSync.runKernel (hs : InSync ⟨c, m⟩) {ks : List ℕ}
    (hks : ∀ k ∈ ks, k < c.surfaces.length) (kernel : List (List Byte) → ℕ → ℕ → Byte)
    (trace : List Event) :
    InSync ⟨{ c with host := ⟨c.host.backend.runKernel ⟨ks.map c.argOf, 1, kernel⟩ (m.reads ks),
      trace⟩ }, m.runKernel ks kernel⟩ := by
  refine ⟨hs.wellFormed.congr (Backend.descs_runKernel _ _) rfl, hs.distinct, hs.resident,
    fun k surf hk => ?_⟩
  obtain ⟨mem, hmem, hlen, desc, x, hdesc, htype, hx, hgen, rfl, hclosed⟩ := hs.has k surf hk
  have hrun := Client.getElem?_runKernel hs.distinct hks hk hmem kernel
  refine ⟨_, hrun, ?_, desc, _, ?_, htype, ?_, ?_, rfl, ?_⟩
  · rw [Backend.length_runOn_mem]
    exact hlen
  · exact (Backend.descs_runKernel _ _).symm ▸ hdesc
  · change (c.host.backend.runKernel _ _).instance? _ _ = _
    rw [Backend.instance?_runKernel, hx]
    rfl
  · exact (Backend.runOn_generation _ _ _ _ x).trans hgen
  · rw [Backend.runOn_mapping]
    exact hclosed

end Shadow

end VMAccel
