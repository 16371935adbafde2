import VMAccel.Backend
import VMAccel.IdentifierDBSpec

/-!
# What the surface requests of the backend do

One lemma for each request on surfaces that returns: it leaves the backend as it was, or it
replaces one surface instance under the conditions named here. `descs` and `instance?` are the
views of the surface table through which all of them are stated.
-/

namespace VMAccel.Backend

open StepSystem IdentifierDB

def instance? (s : Backend) (sid inst : ℕ) : Option VMWOpenCLSurfaceInstance :=
  (s.surfaces[sid]?).bind fun surf => surf.inst[inst]?

def descs (s : Backend) : List VMAccelSurfaceDesc := s.surfaces.map VMWOpenCLSurface.desc

theorem locate_ok {s : Backend} {sid : VMAccelId} {inst : BitVec 32}
    {p : VMAccelSurfaceDesc × VMWOpenCLSurfaceInstance} :
    s.locate sid inst = .ok p ↔
      s.descs[sid.toNat]? = some p.1 ∧ s.instance? sid.toNat inst.toNat = some p.2 := by
  rw [locate, bind_eq_ok, descs, List.getElem?_map, instance?]
  simp only [readAt_ok]
  constructor
  · rintro ⟨surf, hsurf, h⟩
    obtain ⟨x, hx, h⟩ := bind_eq_ok.mp h
    cases h
    rw [hsurf]
    exact ⟨rfl, readAt_ok.mp hx⟩
  · rintro ⟨hdesc, hx⟩
    obtain ⟨surf, hsurf, hx⟩ := Option.bind_eq_some_iff.mp hx
    rw [hsurf] at hdesc
    refine ⟨surf, hsurf, bind_eq_ok.mpr ⟨p.2, readAt_ok.mpr hx, ?_⟩⟩
    rw [Option.some.inj hdesc]
    rfl

theorem descs_setInstance (s : Backend) (sid inst : ℕ) (x : VMWOpenCLSurfaceInstance) :
    (s.setInstance sid inst x).descs = s.descs := by
  refine List.ext_getElem? fun k => ?_
  rw [descs, setInstance, descs, List.getElem?_map, List.getElem?_map, List.getElem?_modify]
  cases s.surfaces[k]? with
  | none => rfl
  | some surf =>
    by_cases hk : sid = k
    · simp [hk]
    · simp [hk]

theorem instance?_setInstance {s : Backend} {sid inst : ℕ} {x y : VMWOpenCLSurfaceInstance}
    (h : s.instance? sid inst = some y) (sid' inst' : ℕ) :
    (s.setInstance sid inst x).instance? sid' inst' =
      if sid' = sid ∧ inst' = inst then some x else s.instance? sid' inst' := by
  obtain ⟨surf, hsurf, hinst⟩ := Option.bind_eq_some_iff.mp h
  change ((s.surfaces.modify sid _)[sid']?).bind _ = _
  by_cases hsid : sid' = sid
  · subst hsid
    rw [List.getElem?_modify_eq, hsurf]
    by_cases hi : inst' = inst
    · subst hi
      rw [if_pos ⟨rfl, rfl⟩]
      exact List.getElem?_set_self (List.getElem?_eq_some_iff.mp hinst).1
    · rw [if_neg fun h => hi h.2, instance?, hsurf]
      exact List.getElem?_set_ne (Ne.symm hi)
  · rw [List.getElem?_modify_ne _ _ (Ne.symm hsid), if_neg fun h => hsid h.1]
    rfl

variable {s : Backend} {cl : Bool}

theorem surfacealloc_ok {argp : SurfaceAllocateDesc} {svmCapable : Bool} {fresh : ℕ → Byte}
    {r : StatusCode × Backend} (hr : s.surfacealloc argp svmCapable cl fresh = .ok r) :
    (r.1 ≠ .success ∧ r.2 = s) ∨ (r.1 = .success ∧ ¬ s.surfaceIds.Active argp.sid ∧
      r.2.descs = s.descs.set argp.sid.toNat argp.desc ∧
      (∀ id, r.2.surfaceIds.Active id ↔ s.surfaceIds.Active id ∨ id = argp.sid) ∧
      ∀ sid inst, r.2.instance? sid inst = (s.instance? sid inst).map
        (if sid = argp.sid.toNat then newInstance (usesSvm argp.desc svmCapable)
          ((List.range argp.desc.width.toNat).map fresh) else id)) := by
  obtain ⟨active, hact, hr⟩ := bind_eq_ok.mp hr
  split_ifs at hr with ha htype hcl
  · cases hr
    exact Or.inl ⟨StatusCode.noConfusion, rfl⟩
  · obtain ⟨-, -, hr⟩ := bind_eq_ok.mp hr
    cases hr
    exact Or.inl ⟨StatusCode.noConfusion, rfl⟩
  · obtain ⟨-, -, hr⟩ := bind_eq_ok.mp hr
    obtain ⟨q, hq, hr⟩ := bind_eq_ok.mp hr
    obtain ⟨_, htrue, hr⟩ := bind_eq_ok.mp hr
    obtain ⟨surfaces, hsurf, hr⟩ := bind_eq_ok.mp hr
    cases hr
    obtain ⟨-, rfl⟩ := modifyAt_ok.mp hsurf
    have hid : argp.sid < s.surfaceIds.size ∧ s.surfaceIds.bit argp.sid.toNat = false := by
      rcases acquireId_ok hq with ⟨-, rfl⟩ | ⟨hlt, hbit, -, rfl⟩
      · exact absurd (require_ok.mp htrue) Bool.false_ne_true
      · exact ⟨hlt, hbit⟩
    refine Or.inr ⟨rfl, fun h => Bool.false_ne_true (hid.2.symm.trans h.2), ?_, fun id => ?_, ?_⟩
    · refine List.ext_getElem? fun k => ?_
      rw [descs, descs, List.getElem?_map, List.getElem?_modify, List.getElem?_set,
        List.getElem?_map]
      by_cases hk : argp.sid.toNat = k
      · subst hk
        cases hs : s.surfaces[argp.sid.toNat]? with
        | none => simp [List.getElem?_eq_none_iff.mp hs]
        | some surf => simp [(List.getElem?_eq_some_iff.mp hs).1, allocated]
      · cases s.surfaces[k]? <;> simp [hk]
    · rw [(acquireId_active hq).2]
      simp [hid.1]
    · intro sid inst
      rw [instance?, instance?, List.getElem?_modify]
      cases s.surfaces[sid]? with
      | none => rfl
      | some surf =>
        by_cases hsid : argp.sid.toNat = sid
        · simp [hsid, allocated]
        · simp [hsid, Ne.symm hsid]
  · obtain ⟨-, -, hr⟩ := bind_eq_ok.mp hr
    cases hr
    exact Or.inl ⟨StatusCode.noConfusion, rfl⟩

theorem surfaces_of_surfacedestroy {sid : VMAccelId} {r : StatusCode × Backend}
    (hr : s.surfacedestroy sid = .ok r) :
    sid.toNat < s.surfaces.length ∧ r.2.surfaces = s.surfaces.set sid.toNat .zero := by
  obtain ⟨active, -, hr⟩ := bind_eq_ok.mp hr
  obtain ⟨-, -, hr⟩ := bind_eq_ok.mp hr
  obtain ⟨surfaces, hsurf, hr⟩ := bind_eq_ok.mp hr
  obtain ⟨ids, -, hr⟩ := bind_eq_ok.mp hr
  cases hr
  exact writeAt_ok.mp hsurf

theorem surfacedestroy_ok {sid : VMAccelId} {r : StatusCode × Backend}
    (hr : s.surfacedestroy sid = .ok r) {sid' : ℕ} (hne : sid.toNat ≠ sid') (inst : ℕ) :
    r.2.instance? sid' inst = s.instance? sid' inst := by
  rw [instance?, instance?, (surfaces_of_surfacedestroy hr).2, List.getElem?_set_ne hne]

theorem imageupload_ok {argp : ImageUploadOp} {r : StatusCode × Backend}
    (hr : s.imageupload argp cl = .ok r) :
    ∃ desc x, s.descs[argp.sid.toNat]? = some desc ∧
      s.instance? argp.sid.toNat argp.inst.toNat = some x ∧
      ((argp.generation < x.generation ∧ r = (.semanticError, s)) ∨
        (x.generation ≤ argp.generation ∧ desc.type = .buffer ∧ ¬ x.svm ∧
          ((writeMem argp x cl = none ∧ r = (.fail, s)) ∨
            ∃ mem, writeMem argp x cl = some mem ∧
              r = (.success, s.setInstance argp.sid.toNat argp.inst.toNat
                { x with mem, generation := argp.generation })))) := by
  obtain ⟨⟨desc, x⟩, hloc, hr⟩ := bind_eq_ok.mp hr
  refine ⟨desc, x, (locate_ok.mp hloc).1, (locate_ok.mp hloc).2, ?_⟩
  dsimp only at hr
  split_ifs at hr with hgen
  · cases hr
    exact Or.inl ⟨hgen, rfl⟩
  · obtain ⟨-, -, hr⟩ := bind_eq_ok.mp hr
    obtain ⟨_, hbuf, hr⟩ := bind_eq_ok.mp hr
    obtain ⟨htype, hsvm⟩ := require_ok.mp hbuf
    refine Or.inr ⟨BitVec.not_lt.mp hgen, htype, hsvm, ?_⟩
    split at hr
    · next mem hmem =>
      cases hr
      exact Or.inr ⟨mem, hmem, rfl⟩
    · next hmem =>
      cases hr
      exact Or.inl ⟨hmem, rfl⟩

theorem imagedownload_ok {argp : ImageDownloadOp} {r : (StatusCode × List Byte) × Backend}
    (hr : s.imagedownload argp cl = .ok r) :
    r.2 = s ∧ (r.1.1 = .success → ∃ desc x, s.descs[argp.sid.toNat]? = some desc ∧
      s.instance? argp.sid.toNat argp.inst.toNat = some x ∧ desc.type = .buffer ∧
      x.generation = argp.generation ∧ readMem argp x cl = some r.1.2) := by
  obtain ⟨⟨desc, x⟩, hloc, hr⟩ := bind_eq_ok.mp hr
  dsimp only at hr
  split_ifs at hr with hgen hlt
  · cases hr
    exact ⟨rfl, nofun⟩
  · cases hr
    exact ⟨rfl, nofun⟩
  · obtain ⟨-, -, hr⟩ := bind_eq_ok.mp hr
    obtain ⟨_, hbuf, hr⟩ := bind_eq_ok.mp hr
    split at hr
    · next bytes hbytes =>
      cases hr
      exact ⟨rfl, fun _ => ⟨desc, x, (locate_ok.mp hloc).1, (locate_ok.mp hloc).2,
        (require_ok.mp hbuf).1, not_not.mp hgen, hbytes⟩⟩
    · cases hr
      exact ⟨rfl, nofun⟩

theorem surfacemap_ok {argp : SurfaceMapOp} {r : (StatusCode × Option HostPtr) × Backend}
    (hr : s.surfacemap argp cl = .ok r) :
    ∃ desc x, s.descs[argp.sid.toNat]? = some desc ∧
      s.instance? argp.sid.toNat argp.inst.toNat = some x ∧
      ((argp.generation < x.generation ∧ r = ((.semanticError, none), s)) ∨
        (x.generation ≤ argp.generation ∧ desc.type = .buffer ∧
          ((mapPtr argp x cl = none ∧ r = ((.fail, none),
              s.setInstance argp.sid.toNat argp.inst.toNat
                { x with mapping := { x.mapping with refCount := x.mapping.refCount + 1 } })) ∨
            ∃ ptr, mapPtr argp x cl = some ptr ∧ r = ((.success, ptr),
              s.setInstance argp.sid.toNat argp.inst.toNat
                { x with mapping := ⟨ptr, x.mapping.refCount + 1⟩ })))) := by
  obtain ⟨⟨desc, x⟩, hloc, hr⟩ := bind_eq_ok.mp hr
  refine ⟨desc, x, (locate_ok.mp hloc).1, (locate_ok.mp hloc).2, ?_⟩
  dsimp only at hr
  split_ifs at hr with hgen
  · cases hr
    exact Or.inl ⟨hgen, rfl⟩
  · obtain ⟨_, hbuf, hr⟩ := bind_eq_ok.mp hr
    refine Or.inr ⟨BitVec.not_lt.mp hgen, require_ok.mp hbuf, ?_⟩
    split at hr
    · next ptr hptr =>
      cases hr
      exact Or.inr ⟨ptr, hptr, rfl⟩
    · next hptr =>
      cases hr
      exact Or.inl ⟨hptr, rfl⟩

/-- The `memcpy` changes the bytes that the pointer points at, and nothing else. -/
theorem copyIn_ok {x y : VMWOpenCLSurfaceInstance} {bytes : List Byte}
    (h : copyIn x bytes = .ok y) :
    ∃ mem ptr, y = { x with mem, mapping := { x.mapping with ptr } } ∧
      ptr.map HostPtr.region = x.mapping.ptr.map HostPtr.region := by
  unfold copyIn at h
  split at h
  · split_ifs at h
    cases h
    exact ⟨x.mem, x.mapping.ptr, rfl, rfl⟩
  · split at h
    · next mem _ =>
      cases h
      exact ⟨mem, x.mapping.ptr, rfl, rfl⟩
    · cases h
  · next offset old hptr =>
    split at h
    · next new hnew =>
      cases h
      refine ⟨x.mem, some (.mapped offset new), rfl, ?_⟩
      rw [hptr]
      exact congrArg some (congrArg (Region.mapped offset) (length_splice hnew))
    · cases h

theorem copyIn_generation {x y : VMWOpenCLSurfaceInstance} {bytes : List Byte}
    (h : copyIn x bytes = .ok y) : y.generation = x.generation := by
  obtain ⟨mem, ptr, rfl, -⟩ := copyIn_ok h
  rfl

def released (m : VMWOpenCLMapping) : VMWOpenCLMapping :=
  if m.refCount = 1 then ⟨none, 0⟩ else ⟨m.ptr, m.refCount - 1⟩

/-- The reference is given back whatever OpenCL answers. The generation is stored whatever the
stored one is, unless OpenCL refuses. -/
theorem unmapped_cases (desc : VMAccelSurfaceDesc) (y : VMWOpenCLSurfaceInstance)
    (generation : BitVec 32) :
    (∃ mem, unmapped desc y generation cl =
      (.success, { y with mem, generation, mapping := released y.mapping })) ∨
    unmapped desc y generation cl = (.fail, { y with mapping := released y.mapping }) := by
  have hlast : y.mapping.refCount - 1 = 0 ↔ y.mapping.refCount = 1 := by
    constructor <;> intro h <;> bv_omega
  unfold unmapped released
  simp only [hlast]
  split_ifs
  · cases unmapMem y cl with
    | some mem => exact Or.inl ⟨mem, rfl⟩
    | none => exact Or.inr rfl
  · exact Or.inl ⟨y.mem, rfl⟩
  · exact Or.inl ⟨y.mem, rfl⟩

theorem unmapped_generation (desc : VMAccelSurfaceDesc) (y : VMWOpenCLSurfaceInstance)
    (generation : BitVec 32) :
    ((unmapped desc y generation cl).1 = .success ∧
      (unmapped desc y generation cl).2.generation = generation) ∨
    ((unmapped desc y generation cl).1 = .fail ∧
      (unmapped desc y generation cl).2.generation = y.generation) := by
  rcases unmapped_cases desc y generation with ⟨mem, h⟩ | h
  · rw [h]
    exact Or.inl ⟨rfl, rfl⟩
  · rw [h]
    exact Or.inr ⟨rfl, rfl⟩

theorem surfaceunmap_ok {argp : SurfaceUnmapOp} {r : StatusCode × Backend}
    (hr : s.surfaceunmap argp cl = .ok r) :
    ∃ desc x y, s.descs[argp.sid.toNat]? = some desc ∧
      s.instance? argp.sid.toNat argp.inst.toNat = some x ∧ copyIn x argp.bytes = .ok y ∧
      r = ((unmapped desc y argp.generation cl).1, s.setInstance argp.sid.toNat argp.inst.toNat
        (unmapped desc y argp.generation cl).2) := by
  obtain ⟨⟨desc, x⟩, hloc, hr⟩ := bind_eq_ok.mp hr
  obtain ⟨y, hy, hr⟩ := bind_eq_ok.mp hr
  cases hr
  exact ⟨desc, x, y, (locate_ok.mp hloc).1, (locate_ok.mp hloc).2, hy, rfl⟩

theorem surfacecopy_ok {argp : SurfaceCopyOp} {r : StatusCode × Backend}
    (hr : s.surfacecopy argp cl = .ok r) :
    (r.1 ≠ .success ∧ r.2 = s) ∨ ∃ src dst mem, s.instance? argp.srcSid.toNat 0 = some src ∧
      s.instance? argp.dstSid.toNat 0 = some dst ∧ src.generation ≤ argp.srcGeneration ∧
      dst.generation ≤ argp.dstGeneration ∧ copyMem argp src dst cl = some mem ∧
      r.2 = s.setInstance argp.dstSid.toNat 0 { dst with mem } := by
  obtain ⟨-, -, hr⟩ := bind_eq_ok.mp hr
  obtain ⟨⟨srcDesc, src⟩, hsrc, hr⟩ := bind_eq_ok.mp hr
  obtain ⟨⟨dstDesc, dst⟩, hdst, hr⟩ := bind_eq_ok.mp hr
  dsimp only at hr
  split_ifs at hr with hlt hgen hsvm
  · cases hr
    exact Or.inl ⟨StatusCode.noConfusion, rfl⟩
  · cases hr
    exact Or.inl ⟨StatusCode.noConfusion, rfl⟩
  · cases hr
    exact Or.inl ⟨StatusCode.noConfusion, rfl⟩
  · obtain ⟨-, -, hr⟩ := bind_eq_ok.mp hr
    split at hr
    · next mem hmem =>
      cases hr
      rw [not_or, BitVec.not_lt, BitVec.not_lt] at hgen
      exact Or.inr ⟨src, dst, mem, (locate_ok.mp hsrc).2, (locate_ok.mp hdst).2, hgen.1, hgen.2,
        hmem, rfl⟩
    · cases hr
      exact Or.inl ⟨StatusCode.noConfusion, rfl⟩

theorem imagefill_ok {argp : ImageFillOp} {r : StatusCode × Backend}
    (hr : s.imagefill argp cl = .ok r) :
    (r.1 ≠ .success ∧ r.2 = s) ∨ ∃ x mem, s.instance? argp.sid.toNat 0 = some x ∧
      x.generation ≤ argp.generation ∧ fillMem argp x cl = some mem ∧
      r.2 = s.setInstance argp.sid.toNat 0 { x with mem, generation := argp.generation } := by
  obtain ⟨⟨desc, x⟩, hloc, hr⟩ := bind_eq_ok.mp hr
  dsimp only at hr
  split_ifs at hr with hlt hgen hsvm
  · cases hr
    exact Or.inl ⟨StatusCode.noConfusion, rfl⟩
  · cases hr
    exact Or.inl ⟨StatusCode.noConfusion, rfl⟩
  · cases hr
    exact Or.inl ⟨StatusCode.noConfusion, rfl⟩
  · obtain ⟨-, -, hr⟩ := bind_eq_ok.mp hr
    split at hr
    · next mem hmem =>
      cases hr
      exact Or.inr ⟨x, mem, (locate_ok.mp hloc).2, BitVec.not_lt.mp hgen, hmem, rfl⟩
    · cases hr
      exact Or.inl ⟨StatusCode.noConfusion, rfl⟩

end VMAccel.Backend
