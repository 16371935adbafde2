import VMAccel.HostSpec
import VMAccel.IdentifierDBBalance

/-!
# Requests that are all served

When every request reaches the server and every OpenCL command succeeds, the requests of one
context on one surface have a definite effect. `Fits` is the state of the surface on the server
between requests, `Current` adds that it has reached the generation of the client with a given
content.
-/

namespace VMAccel

open StepSystem

theorem splice_full {mem bytes : List Byte} (h : bytes.length = mem.length) :
    splice mem 0 bytes = some bytes := by
  simp [splice, h]

theorem extract_full {mem : List Byte} {size : ℕ} (h : mem.length = size) :
    extract mem 0 size = some mem := by
  simp [extract, ← h]

namespace Host

/-- No mapping is open, a buffer has the width of the surface, and the generation on the server is
not ahead. -/
structure Fits (h : Host) (sid : VMAccelId) (width : ℕ) (generation : BitVec 32) : Prop where
  wellFormed : h.backend.WellFormed
  closed : ∀ x, h.backend.instance? sid.toNat 0 = some x → x.mapping.refCount = 0
  length_mem : ∀ desc x, h.backend.descs[sid.toNat]? = some desc →
    h.backend.instance? sid.toNat 0 = some x → desc.type = .buffer → x.mem.length = width
  generation_le : ∀ x, h.backend.instance? sid.toNat 0 = some x → x.generation ≤ generation

def Current (h : Host) (sid : VMAccelId) (generation : BitVec 32) (mem : List Byte) : Prop :=
  ∃ desc x, h.backend.descs[sid.toNat]? = some desc ∧ desc.type = .buffer ∧
    h.backend.instance? sid.toNat 0 = some x ∧ x.generation = generation ∧ x.mem = mem

variable {h : Host} {sid : VMAccelId} {width : ℕ} {generation : BitVec 32} {mem : List Byte}

theorem Current.length_mem (hcur : h.Current sid generation mem)
    (hf : h.Fits sid width generation) : mem.length = width := by
  obtain ⟨desc, x, hdesc, htype, hx, -, rfl⟩ := hcur
  exact hf.length_mem desc x hdesc hx htype

theorem Current.unique {mem' : List Byte} (hcur : h.Current sid generation mem)
    (hcur' : h.Current sid generation mem') : mem = mem' := by
  obtain ⟨-, x, -, -, hx, -, rfl⟩ := hcur
  obtain ⟨-, y, -, -, hy, -, rfl⟩ := hcur'
  rw [Option.some.inj (hx.symm.trans hy)]

theorem fits_powerOn (sid : VMAccelId) (width : ℕ) (generation : BitVec 32) :
    powerOn.Fits sid width generation := by
  have hinst : ∀ x, powerOn.backend.instance? sid.toNat 0 = some x →
      x = ⟨[], false, 0, ⟨none, 0⟩⟩ := by
    intro x hx
    obtain ⟨surf, hsurf, hx⟩ := Option.bind_eq_some_iff.mp hx
    change (List.replicate maxSurfaces VMWOpenCLSurface.zero)[sid.toNat]? = some surf at hsurf
    rw [List.getElem?_replicate] at hsurf
    split_ifs at hsurf
    cases hsurf
    exact (Option.some.inj hx).symm
  refine ⟨Backend.wellFormed_powerOn, fun x hx => ?_, fun desc x hdesc _ htype => ?_,
    fun x hx => ?_⟩
  · rw [hinst x hx]
  · have hact := Backend.wellFormed_powerOn.active_of_buffer sid desc hdesc htype
    exact absurd ((IdentifierDB.bit_alloc _ _).symm.trans hact.2) Bool.false_ne_true
  · rw [hinst x hx]
    exact BitVec.le_def.mpr (Nat.zero_le _)

theorem Fits.mono (hf : h.Fits sid width generation) {generation' : BitVec 32}
    (hle : generation ≤ generation') (trace : List Event) :
    Fits ⟨h.backend, trace⟩ sid width generation' :=
  ⟨hf.wellFormed, hf.closed, hf.length_mem, fun x hx => BitVec.le_trans (hf.generation_le x hx) hle⟩

theorem fits_setInstance (hw : h.backend.WellFormed) {x z : VMWOpenCLSurfaceInstance}
    (hx : h.backend.instance? sid.toNat 0 = some x) (hclosed : z.mapping.refCount = 0)
    (hlen : z.mem.length = width) (hgen : z.generation = generation) (trace : List Event) :
    Fits ⟨h.backend.setInstance sid.toNat 0 z, trace⟩ sid width generation := by
  have hinst : ∀ y, (h.backend.setInstance sid.toNat 0 z).instance? sid.toNat 0 = some y →
      y = z := by
    intro y hy
    rw [Backend.instance?_setInstance hx, if_pos ⟨rfl, rfl⟩] at hy
    exact (Option.some.inj hy).symm
  refine ⟨hw.setInstance _ _ _, fun y hy => ?_, fun _ y _ hy _ => ?_, fun y hy => ?_⟩
  · rw [hinst y hy, hclosed]
  · rw [hinst y hy, hlen]
  · rw [hinst y hy, hgen]
    exact BitVec.le_refl _

theorem current_setInstance {desc : VMAccelSurfaceDesc} {x z : VMWOpenCLSurfaceInstance}
    (hdesc : h.backend.descs[sid.toNat]? = some desc) (htype : desc.type = .buffer)
    (hx : h.backend.instance? sid.toNat 0 = some x) (hgen : z.generation = generation)
    (trace : List Event) :
    Current ⟨h.backend.setInstance sid.toNat 0 z, trace⟩ sid generation z.mem := by
  refine ⟨desc, z, ?_, htype, ?_, hgen, rfl⟩
  · change (h.backend.setInstance _ _ _).descs[sid.toNat]? = some desc
    rw [Backend.descs_setInstance, hdesc]
  · change (h.backend.setInstance _ _ _).instance? _ _ = some z
    rw [Backend.instance?_setInstance hx, if_pos ⟨rfl, rfl⟩]

theorem Fits.surfacealloc (hf : h.Fits sid width generation) {argp : SurfaceAllocateDesc}
    (hsid : argp.sid = sid) (hwidth : argp.desc.width.toNat = width) {svmCapable cl : Bool}
    {fresh : ℕ → Byte} {r : StatusCode × Host}
    (hr : h.surfacealloc argp svmCapable cl fresh = .ok r) :
    r.2.Fits sid width generation ∧
      (∀ mem, h.Current sid generation mem → r.2.Current sid generation mem) ∧
      r.2.trace = h.trace := by
  subst hsid hwidth
  obtain ⟨q, hq, hr⟩ := bind_eq_ok.mp hr
  cases hr
  have hw : q.2.WellFormed := hf.wellFormed.surfacealloc hq
  rcases Backend.surfacealloc_ok hq with ⟨-, heq⟩ | ⟨-, hinactive, -, -, hinst⟩
  · rw [heq]
    exact ⟨hf, fun _ h => h, rfl⟩
  · have hnew : ∀ y, q.2.instance? argp.sid.toNat 0 = some y →
        ∃ x, h.backend.instance? argp.sid.toNat 0 = some x ∧ y.generation = x.generation ∧
          y.mapping.refCount = 0 ∧ y.mem.length = argp.desc.width.toNat := by
      intro y hy
      rw [hinst, if_pos rfl] at hy
      obtain ⟨x, hx, rfl⟩ := Option.map_eq_some_iff.mp hy
      exact ⟨x, hx, rfl, rfl, by simp [Backend.newInstance]⟩
    refine ⟨⟨hw, fun y hy => ?_, fun _ y _ hy _ => ?_, fun y hy => ?_⟩, fun mem hcur => ?_, rfl⟩
    · exact (hnew y hy).choose_spec.2.2.1
    · exact (hnew y hy).choose_spec.2.2.2
    · obtain ⟨x, hx, hgen, -⟩ := hnew y hy
      rw [hgen]
      exact hf.generation_le x hx
    · obtain ⟨desc, -, hdesc, htype, -⟩ := hcur
      exact absurd (hf.wellFormed.active_of_buffer _ desc hdesc htype) hinactive

theorem Fits.imageupload {argp : ImageUploadOp} (hf : h.Fits argp.sid width argp.generation)
    (hinst : argp.inst = 0) (hoff : argp.offset = 0) (hlen : argp.bytes.length = width)
    {r : StatusCode × Host} (hr : h.imageupload argp true = .ok r) :
    r.2.Fits argp.sid width argp.generation ∧
      r.2.Current argp.sid argp.generation argp.bytes ∧
      r.2.trace = .stored argp.sid argp.bytes :: h.trace := by
  obtain ⟨q, hq, hr⟩ := bind_eq_ok.mp hr
  cases hr
  obtain ⟨desc, x, hdesc, hx, hcase⟩ := Backend.imageupload_ok hq
  rw [hinst] at hx hcase
  change h.backend.instance? argp.sid.toNat 0 = some x at hx
  rcases hcase with ⟨hlt, -⟩ | ⟨-, htype, -, hmem⟩
  · exact absurd hlt (BitVec.not_lt.mpr (hf.generation_le x hx))
  · have hwrite : Backend.writeMem argp x true = some argp.bytes := by
      unfold Backend.writeMem
      rw [hoff, if_pos rfl]
      exact splice_full (hlen.trans (hf.length_mem desc x hdesc hx htype).symm)
    rw [hwrite] at hmem
    rcases hmem with ⟨hnone, -⟩ | ⟨mem, hsome, rfl⟩
    · cases hnone
    · cases hsome
      refine ⟨fits_setInstance hf.wellFormed hx ?_ hlen rfl _, ?_, rfl⟩
      · exact hf.closed x hx
      · exact current_setInstance hdesc htype hx rfl _

theorem Fits.surfacemap {argp : SurfaceMapOp}
    (hf : h.Fits argp.sid argp.size.toNat argp.generation) (hinst : argp.inst = 0)
    (hoff : argp.offset = 0) {r : (StatusCode × Option HostPtr) × Host}
    (hr : h.surfacemap argp true = .ok r) :
    ∃ desc x ptr, h.backend.descs[argp.sid.toNat]? = some desc ∧ desc.type = .buffer ∧
      h.backend.instance? argp.sid.toNat 0 = some x ∧
      ((x.svm = true ∧ ptr = .svm) ∨ (x.svm = false ∧ ptr = .mapped 0 x.mem)) ∧
      r = ((.success, some ptr),
        ⟨h.backend.setInstance argp.sid.toNat 0 { x with mapping := ⟨some ptr, 1⟩ }, h.trace⟩) := by
  obtain ⟨q, hq, hr⟩ := bind_eq_ok.mp hr
  cases hr
  obtain ⟨desc, x, hdesc, hx, hcase⟩ := Backend.surfacemap_ok hq
  rw [hinst] at hx hcase
  change h.backend.instance? argp.sid.toNat 0 = some x at hx
  rcases hcase with ⟨hlt, -⟩ | ⟨-, htype, hptr⟩
  · exact absurd hlt (BitVec.not_lt.mpr (hf.generation_le x hx))
  · have hextract : extract x.mem argp.offset.toNat argp.size.toNat = some x.mem := by
      rw [hoff]
      exact extract_full (hf.length_mem desc x hdesc hx htype)
    rw [Backend.mapPtr, hf.closed x hx, if_pos rfl, hextract] at hptr
    refine ⟨desc, x, ?_⟩
    cases hsvm : x.svm with
    | true =>
      rw [hsvm] at hptr
      rcases hptr with ⟨hnone, -⟩ | ⟨ptr, hsome, rfl⟩
      · simp at hnone
      · obtain rfl : some .svm = ptr := by simpa using hsome
        exact ⟨.svm, hdesc, htype, hx, Or.inl ⟨rfl, rfl⟩, rfl⟩
    | false =>
      rw [hsvm] at hptr
      rcases hptr with ⟨hnone, -⟩ | ⟨ptr, hsome, rfl⟩
      · simp at hnone
      · obtain rfl : some (.mapped 0 x.mem) = ptr := by simpa [hoff] using hsome
        exact ⟨.mapped 0 x.mem, hdesc, htype, hx, Or.inr ⟨rfl, rfl⟩, rfl⟩

theorem unmapped_whole {desc : VMAccelSurfaceDesc} {x y : VMWOpenCLSurfaceInstance} {ptr : HostPtr}
    {bytes : List Byte}
    (hptr : (x.svm = true ∧ ptr = .svm) ∨ (x.svm = false ∧ ptr = .mapped 0 x.mem))
    (hlen : bytes.length = x.mem.length) (htype : desc.type = .buffer)
    (hy : Backend.copyIn { x with mapping := ⟨some ptr, 1⟩ } bytes = .ok y)
    (generation : BitVec 32) :
    Backend.unmapped desc y generation true =
      (.success, ⟨bytes, x.svm, generation, ⟨none, 0⟩⟩) := by
  rcases hptr with ⟨hsvm, rfl⟩ | ⟨hsvm, rfl⟩
  · simp only [Backend.copyIn, splice_full hlen] at hy
    cases hy
    simp [Backend.unmapped, hsvm]
  · simp only [Backend.copyIn, splice_full hlen] at hy
    cases hy
    simp [Backend.unmapped, Backend.unmapMem, hsvm, htype, splice_full hlen]

theorem Fits.map_unmap {argm : SurfaceMapOp} {argu : SurfaceUnmapOp}
    (hf : h.Fits argm.sid argm.size.toNat argm.generation) (hinst : argm.inst = 0)
    (hoff : argm.offset = 0) (hsid : argu.sid = argm.sid) (hinst' : argu.inst = 0)
    (hgen : argu.generation = argm.generation) (hlen : argu.bytes.length = argm.size.toNat)
    {r : (StatusCode × Option HostPtr) × Host} (hr : h.surfacemap argm true = .ok r)
    {q : StatusCode × Host} (hq : r.2.surfaceunmap argu true = .ok q) :
    q.2.Fits argm.sid argm.size.toNat argm.generation ∧
      q.2.Current argm.sid argm.generation argu.bytes ∧
      q.2.trace = .stored argm.sid argu.bytes :: h.trace := by
  obtain ⟨desc, x, ptr, hdesc, htype, hx, hptr, rfl⟩ := hf.surfacemap hinst hoff hr
  obtain ⟨p, hp, hq⟩ := bind_eq_ok.mp hq
  cases hq
  obtain ⟨desc', x', y, hdesc', hx', hy, rfl⟩ := Backend.surfaceunmap_ok hp
  rw [hsid, Backend.descs_setInstance, hdesc] at hdesc'
  rw [hsid, hinst', Backend.instance?_setInstance hx, if_pos ⟨rfl, rfl⟩] at hx'
  cases hdesc'
  cases hx'
  have hwidth : x.mem.length = argm.size.toNat := hf.length_mem desc x hdesc hx htype
  have hx₁ : (h.backend.setInstance argm.sid.toNat 0 { x with mapping := ⟨some ptr, 1⟩ }).instance?
      argm.sid.toNat 0 = some { x with mapping := ⟨some ptr, 1⟩ } := by
    rw [Backend.instance?_setInstance hx, if_pos ⟨rfl, rfl⟩]
  have hdesc₁ : (h.backend.setInstance argm.sid.toNat 0
      { x with mapping := ⟨some ptr, 1⟩ }).descs[argm.sid.toNat]? = some desc := by
    rw [Backend.descs_setInstance, hdesc]
  rw [unmapped_whole hptr (hlen.trans hwidth.symm) htype hy, hsid, hinst', hgen]
  exact ⟨fits_setInstance (h := ⟨_, h.trace⟩) (hf.wellFormed.setInstance _ _ _) hx₁ rfl hlen rfl _,
    current_setInstance (h := ⟨_, h.trace⟩) hdesc₁ htype hx₁ rfl _, rfl⟩

theorem Fits.deref {argp : SurfaceMapOp} (hf : h.Fits argp.sid argp.size.toNat argp.generation)
    (hinst : argp.inst = 0) (hoff : argp.offset = 0)
    {r : (StatusCode × Option HostPtr) × Host} (hr : h.surfacemap argp true = .ok r)
    {bytes : List Byte} (hbytes : r.2.deref argp.sid argp.size.toNat r.1.2 = .ok bytes) :
    bytes.length = argp.size.toNat ∧
      ∀ mem, h.Current argp.sid argp.generation mem → bytes = mem := by
  obtain ⟨desc, x, ptr, hdesc, htype, hx, hptr, rfl⟩ := hf.surfacemap hinst hoff hr
  have hwidth : x.mem.length = argp.size.toNat := hf.length_mem desc x hdesc hx htype
  obtain ⟨p, hp, hbytes⟩ := bind_eq_ok.mp hbytes
  have hp₂ := (Backend.locate_ok.mp hp).2
  change (h.backend.setInstance _ _ _).instance? argp.sid.toNat 0 = some p.2 at hp₂
  rw [Backend.instance?_setInstance hx, if_pos ⟨rfl, rfl⟩] at hp₂
  have hmem : bytes = x.mem := by
    rcases hptr with ⟨-, rfl⟩ | ⟨-, rfl⟩
    · simp only [← Option.some.inj hp₂, extract_full hwidth] at hbytes
      cases hbytes
      rfl
    · simp only [extract_full hwidth] at hbytes
      cases hbytes
      rfl
  refine ⟨hmem ▸ hwidth, fun mem hcur => ?_⟩
  obtain ⟨-, y, -, -, hy, -, rfl⟩ := hcur
  rw [hmem, Option.some.inj (hx.symm.trans hy)]

theorem Fits.imagedownload {argp : ImageDownloadOp}
    (hf : h.Fits argp.sid argp.size.toNat argp.generation) (hinst : argp.inst = 0)
    (hoff : argp.offset = 0) {r : (StatusCode × List Byte) × Host}
    (hr : h.imagedownload argp true = .ok r) :
    r.2 = h ∧ (r.1.1 = .success → r.1.2.length = argp.size.toNat ∧
      h.Current argp.sid argp.generation r.1.2) := by
  obtain ⟨q, hq, hr⟩ := bind_eq_ok.mp hr
  cases hr
  obtain ⟨heq, hsuccess⟩ := Backend.imagedownload_ok hq
  refine ⟨by rw [heq], fun hstatus => ?_⟩
  obtain ⟨desc, x, hdesc, hx, htype, hgen, hread⟩ := hsuccess hstatus
  rw [hinst] at hx
  have hwidth : x.mem.length = argp.size.toNat := hf.length_mem desc x hdesc hx htype
  rw [Backend.readMem, hoff, if_pos rfl] at hread
  have hmem : x.mem = q.1.2 := Option.some.inj ((extract_full hwidth).symm.trans hread)
  exact ⟨hmem ▸ hwidth, desc, x, hdesc, htype, hx, hgen, hmem⟩

theorem Fits.dispatch (hf : h.Fits sid width generation) {argp : DispatchOp} {cl : Bool}
    {r : StatusCode × Host} (hr : h.dispatch argp cl = .ok r) :
    r.2.Fits sid width generation := by
  obtain ⟨q, hq, hr⟩ := bind_eq_ok.mp hr
  cases hr
  rcases Backend.dispatch_ok hq with ⟨hstatus, heq⟩ | ⟨contents, -, rfl⟩
  · unfold record
    rw [heq]
    exact ⟨hf.wellFormed, hf.closed, hf.length_mem, hf.generation_le⟩
  · have hrun : ∀ y, (h.backend.runKernel argp contents).instance? sid.toNat 0 = some y →
        ∃ x, h.backend.instance? sid.toNat 0 = some x ∧
          y = Backend.runOn argp contents sid.toNat 0 x := by
      intro y hy
      rw [Backend.instance?_runKernel] at hy
      obtain ⟨x, hx, rfl⟩ := Option.map_eq_some_iff.mp hy
      exact ⟨x, hx, rfl⟩
    refine ⟨hf.wellFormed.dispatch hq, fun y hy => ?_, fun desc y hdesc hy htype => ?_,
      fun y hy => ?_⟩
    · obtain ⟨x, hx, rfl⟩ := hrun y hy
      rw [Backend.runOn_mapping]
      exact hf.closed x hx
    · obtain ⟨x, hx, rfl⟩ := hrun y hy
      change (h.backend.runKernel argp contents).descs[sid.toNat]? = some desc at hdesc
      rw [Backend.descs_runKernel] at hdesc
      rw [Backend.length_runOn_mem]
      exact hf.length_mem desc x hdesc hx htype
    · obtain ⟨x, hx, rfl⟩ := hrun y hy
      rw [Backend.runOn_generation]
      exact hf.generation_le x hx

theorem Current.dispatch_other (hcur : h.Current sid generation mem) {argp : DispatchOp}
    (hsid : sid ∉ argp.args.map KernelArg.sid) {cl : Bool} {r : StatusCode × Host}
    (hr : h.dispatch argp cl = .ok r) : r.2.Current sid generation mem := by
  obtain ⟨desc, x, hdesc, htype, hx, hgen, hmem⟩ := hcur
  obtain ⟨q, hq, hr⟩ := bind_eq_ok.mp hr
  cases hr
  rcases Backend.dispatch_ok hq with ⟨-, heq⟩ | ⟨contents, -, rfl⟩
  · unfold record
    rw [heq]
    exact ⟨desc, x, hdesc, htype, hx, hgen, hmem⟩
  · refine ⟨desc, x, ?_, htype, ?_, hgen, hmem⟩
    · change (h.backend.runKernel _ _).descs[sid.toNat]? = some desc
      rw [Backend.descs_runKernel, hdesc]
    · change (h.backend.runKernel _ _).instance? _ _ = _
      rw [Backend.instance?_runKernel, hx, Option.map_some, runOn_of_not_mem hsid]

theorem dispatch_replicate {argp : DispatchOp} {n : ℕ}
    (hargs : argp.args = List.replicate n ⟨true, sid, 0, generation, true⟩)
    (hcur : 0 < n → h.Current sid generation mem) {r : StatusCode × Host}
    (hr : h.dispatch argp true = .ok r) :
    r.1 = .success ∧ r.2.trace = .ran (List.replicate n sid) :: h.trace ∧
      (0 < n → r.2.Current sid generation
        ((List.range mem.length).map (argp.kernel (List.replicate n mem) 0))) := by
  obtain ⟨q, hq, hr⟩ := bind_eq_ok.mp hr
  cases hr
  have hcollect : h.backend.collectArgs argp.args = .ok (.success, List.replicate n mem) := by
    rw [hargs]
    rcases Nat.eq_zero_or_pos n with rfl | hpos
    · rfl
    · obtain ⟨desc, x, hdesc, -, hx, hgen, rfl⟩ := hcur hpos
      exact Backend.collectArgs_replicate hdesc hx rfl hgen rfl n
  obtain rfl := Backend.dispatch_of_collectArgs _ hcollect hq
  refine ⟨rfl, ?_, fun hpos => ?_⟩
  · change Event.ran (List.map KernelArg.sid argp.args) :: h.trace = _
    rw [hargs, List.map_replicate]
  · obtain ⟨desc, x, hdesc, htype, hx, rfl, rfl⟩ := hcur hpos
    refine ⟨desc, Backend.runOn argp (List.replicate n x.mem) sid.toNat 0 x, ?_, htype, ?_,
      Backend.runOn_generation _ _ _ _ x, ?_⟩
    · change (h.backend.runKernel _ _).descs[sid.toNat]? = some desc
      rw [Backend.descs_runKernel, hdesc]
    · change (h.backend.runKernel _ _).instance? _ _ = _
      rw [Backend.instance?_runKernel, hx]
      rfl
    · -- the first argument is already the surface
      obtain ⟨m, rfl⟩ := Nat.exists_eq_succ_of_ne_zero hpos.ne'
      simp [Backend.runOn, hargs, List.replicate_succ, List.findIdx?_cons]

end Host

end VMAccel
