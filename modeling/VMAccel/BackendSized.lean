import VMAccel.BackendRefCounts
import VMAccel.IdentifierDBBalance

/-!
# The size of a surface and of its mappings

`Sized` is what all requests of the backend keep: a buffer has the bytes that its descriptor says,
and a mapping lies inside of it. The pointer of a mapping is read as a region of the surface.
-/

namespace VMAccel

namespace Region

/-- Where a region begins in the surface. -/
def start : Region → ℕ
  | .svm => 0
  | .mapped offset _ => offset

/-- The size of a region, in a surface of `width` bytes. -/
def length (width : ℕ) : Region → ℕ
  | .svm => width
  | .mapped _ length => length

end Region

theorem extract_eq_some {mem bytes : List Byte} {offset size : ℕ}
    (h : extract mem offset size = some bytes) :
    offset + size ≤ mem.length ∧ bytes.length = size := by
  unfold extract at h
  split_ifs at h with hfit
  cases h
  refine ⟨hfit, ?_⟩
  rw [List.length_take, List.length_drop]
  omega

namespace VMWOpenCLSurfaceInstance

/-- Where the pointer of the mapping points. -/
def region (x : VMWOpenCLSurfaceInstance) : Option Region := x.mapping.ptr.map HostPtr.region

/-- The number of bytes behind the pointer of the mapping. -/
def room (x : VMWOpenCLSurfaceInstance) : ℕ := (x.region.map (Region.length x.mem.length)).getD 0

end VMWOpenCLSurfaceInstance

namespace Backend

open StepSystem VMWOpenCLSurfaceInstance

variable {s s' : Backend} {cl : Bool} {sid inst : ℕ} {desc : VMAccelSurfaceDesc}
  {x z : VMWOpenCLSurfaceInstance}

/-- A buffer has the bytes that its descriptor says. Only a buffer is mapped, and only inside of
these bytes. -/
structure Fitted (desc : VMAccelSurfaceDesc) (x : VMWOpenCLSurfaceInstance) : Prop where
  length_mem : desc.type = .buffer → x.mem.length = desc.width.toNat
  inside : ∀ region, x.region = some region → desc.type = .buffer ∧
    region.start + region.length desc.width.toNat ≤ desc.width.toNat

theorem Fitted.of_region (h : Fitted desc x) (hmem : z.mem.length = x.mem.length)
    (hregion : z.region = none ∨ z.region = x.region) : Fitted desc z where
  length_mem htype := hmem.trans (h.length_mem htype)
  inside region hz := by
    rcases hregion with heq | heq
    · rw [heq] at hz
      cases hz
    · exact h.inside region (heq ▸ hz)

structure Sized (s : Backend) : Prop where
  wellFormed : s.WellFormed
  fitted : ∀ sid inst desc x, s.descs[sid]? = some desc → s.instance? sid inst = some x →
    Fitted desc x

theorem fitted_zero {k : ℕ} (hx : VMWOpenCLSurface.zero.inst[k]? = some x) : Fitted .zero x where
  length_mem htype := by cases htype
  inside region hregion := by
    rw [VMWOpenCLSurfaceInstance.region, mapping_of_zero hx] at hregion
    cases hregion

theorem sized_powerOn : powerOn.Sized where
  wellFormed := wellFormed_powerOn
  fitted sid inst desc x hdesc hx := by
    obtain ⟨surf, hsurf, hx⟩ := Option.bind_eq_some_iff.mp hx
    rw [descs, List.getElem?_map, hsurf] at hdesc
    cases hdesc
    obtain rfl : surf = .zero := List.eq_of_mem_replicate (List.mem_of_getElem? hsurf)
    exact fitted_zero hx

theorem Sized.setInstance (h : s.Sized) (hdesc : s.descs[sid]? = some desc)
    (hx : s.instance? sid inst = some x) (hz : Fitted desc z) :
    (s.setInstance sid inst z).Sized where
  wellFormed := h.wellFormed.setInstance sid inst z
  fitted j k desc' y hdesc' hy := by
    rw [descs_setInstance] at hdesc'
    rw [instance?_setInstance hx] at hy
    split_ifs at hy with hjk
    · cases hy
      rw [hjk.1, hdesc] at hdesc'
      cases hdesc'
      exact hz
    · exact h.fitted j k desc' y hdesc' hy

theorem exists_desc (hx : s.instance? sid inst = some x) : ∃ desc, s.descs[sid]? = some desc := by
  obtain ⟨surf, hsurf, -⟩ := Option.bind_eq_some_iff.mp hx
  refine ⟨surf.desc, ?_⟩
  rw [descs, List.getElem?_map, hsurf]
  rfl

theorem Sized.setMem (h : s.Sized) (hx : s.instance? sid inst = some x)
    (hmem : z.mem.length = x.mem.length) (hmapping : z.mapping = x.mapping) :
    (s.setInstance sid inst z).Sized := by
  obtain ⟨desc, hdesc⟩ := exists_desc hx
  refine h.setInstance hdesc hx ((h.fitted sid inst _ x hdesc hx).of_region hmem (Or.inr ?_))
  rw [region, region, hmapping]

theorem Sized.surfacealloc (h : s.Sized) {argp : SurfaceAllocateDesc} {svmCapable : Bool}
    {fresh : ℕ → Byte} {r : StatusCode × Backend}
    (hr : s.surfacealloc argp svmCapable cl fresh = .ok r) : r.2.Sized := by
  refine ⟨h.wellFormed.surfacealloc hr, fun sid inst desc z hdesc hz => ?_⟩
  rcases surfacealloc_ok hr with ⟨-, heq⟩ | ⟨-, hact, hdescs, -, hinst⟩
  · rw [heq] at hdesc hz
    exact h.fitted sid inst desc z hdesc hz
  · rw [hinst] at hz
    obtain ⟨x, hx, rfl⟩ := Option.map_eq_some_iff.mp hz
    rw [hdescs, List.getElem?_set] at hdesc
    by_cases hsid : sid = argp.sid.toNat
    · subst hsid
      obtain ⟨old, hold⟩ := exists_desc hx
      rw [if_pos rfl, if_pos (List.getElem?_eq_some_iff.mp hold).1] at hdesc
      cases hdesc
      -- the entry was no buffer before, so that its pointer is null
      refine ⟨fun _ => by rw [if_pos rfl]; simp [newInstance], fun region hregion => ?_⟩
      rw [if_pos rfl] at hregion
      obtain ⟨htype, -⟩ := (h.fitted _ inst _ x hold hx).inside region hregion
      exact absurd (h.wellFormed.active_of_buffer argp.sid _ hold htype) hact
    · rw [if_neg (Ne.symm hsid)] at hdesc
      rw [if_neg hsid]
      exact h.fitted sid inst desc x hdesc hx

theorem Sized.surfacedestroy (h : s.Sized) {sid : VMAccelId} {r : StatusCode × Backend}
    (hr : s.surfacedestroy sid = .ok r) : r.2.Sized := by
  obtain ⟨active, hactive, hr⟩ := bind_eq_ok.mp hr
  obtain ⟨_, htrue, hr⟩ := bind_eq_ok.mp hr
  obtain ⟨surfaces, hsurf, hr⟩ := bind_eq_ok.mp hr
  obtain ⟨ids, hids, hr⟩ := bind_eq_ok.mp hr
  cases hr
  obtain ⟨hlt, rfl⟩ := writeAt_ok.mp hsurf
  have hact : s.surfaceIds.Active sid := by
    rw [← IdentifierDB.activeId_eq_ok_true, hactive, require_ok.mp htrue]
  obtain rfl : s.surfaceIds.give sid.toNat = ids :=
    Except.ok.inj ((IdentifierDB.releaseId_of_active hact).symm.trans hids)
  have hdescs : descs ⟨s.surfaces.set sid.toNat .zero, s.surfaceIds.give sid.toNat⟩ =
      s.descs.set sid.toNat .zero := List.map_set
  refine ⟨⟨?_, fun j desc hdesc htype => ?_⟩, fun j k desc z hdesc hz => ?_⟩
  · rw [hdescs, List.length_set, h.wellFormed.length_descs]
  · rw [hdescs, List.getElem?_set] at hdesc
    split_ifs at hdesc with hj
    · cases hdesc
      cases htype
    · refine (IdentifierDB.active_give (IdentifierDB.bit_lt_length hact.2) j).mpr
        ⟨h.wellFormed.active_of_buffer j desc hdesc htype, Ne.symm hj⟩
  · rw [hdescs, List.getElem?_set] at hdesc
    rw [instance?, List.getElem?_set] at hz
    split_ifs at hdesc hz with hj hk
    · cases hdesc
      exact fitted_zero hz
    · exact h.fitted j k desc z hdesc hz

def opening (argp : SurfaceMapOp) (x : VMWOpenCLSurfaceInstance) : Option Region :=
  if x.mapping.refCount = 0 then
    some (if x.svm then .svm else .mapped argp.offset.toNat argp.size.toNat)
  else x.region

theorem mapPtr_region {argp : SurfaceMapOp} {ptr : Option HostPtr}
    (h : mapPtr argp x cl = some ptr) : ptr.map HostPtr.region = opening argp x ∧
      (x.mapping.refCount = 0 → x.svm = false →
        argp.offset.toNat + argp.size.toNat ≤ x.mem.length) := by
  have hfirst : x.mapping.refCount + 1 = 1 ↔ x.mapping.refCount = 0 := by
    constructor <;> intro h <;> bv_omega
  unfold mapPtr at h
  rw [opening]
  split_ifs at h with hcount hsvm hfinish hcl
  · cases h
    rw [if_pos (hfirst.mp hcount), if_pos hsvm]
    exact ⟨rfl, fun _ h => absurd hsvm (Bool.not_eq_true _ ▸ h)⟩
  · obtain ⟨bytes, hbytes, rfl⟩ := Option.map_eq_some_iff.mp h
    obtain ⟨hfit, hlength⟩ := extract_eq_some hbytes
    rw [if_pos (hfirst.mp hcount), if_neg hsvm]
    exact ⟨by rw [← hlength]; rfl, fun _ _ => hfit⟩
  · cases h
    have hcount := mt hfirst.mpr hcount
    rw [if_neg hcount]
    exact ⟨rfl, fun h => absurd h hcount⟩

theorem Fitted.mapped (h : Fitted desc x) (htype : desc.type = .buffer) {argp : SurfaceMapOp}
    {ptr : Option HostPtr} (hptr : mapPtr argp x cl = some ptr) (refCount : BitVec 32) :
    Fitted desc { x with mapping := ⟨ptr, refCount⟩ } where
  length_mem := h.length_mem
  inside region hregion := by
    obtain ⟨hopen, hfit⟩ := mapPtr_region hptr
    rw [VMWOpenCLSurfaceInstance.region, hopen, opening] at hregion
    split_ifs at hregion with hcount hsvm
    · cases hregion
      exact ⟨htype, (Nat.zero_add _).le⟩
    · cases hregion
      have hfit := hfit hcount (Bool.eq_false_iff.mpr hsvm)
      rw [h.length_mem htype] at hfit
      exact ⟨htype, hfit⟩
    · exact h.inside region hregion

theorem Sized.surfacemap (h : s.Sized) {argp : SurfaceMapOp}
    {r : (StatusCode × Option HostPtr) × Backend} (hr : s.surfacemap argp cl = .ok r) :
    r.2.Sized := by
  obtain ⟨desc, x, hdesc, hx, ⟨-, rfl⟩ | ⟨-, htype, ⟨-, rfl⟩ | ⟨ptr, hptr, rfl⟩⟩⟩ :=
    surfacemap_ok hr
  · exact h
  · exact h.setInstance hdesc hx ((h.fitted _ _ _ _ hdesc hx).of_region rfl (Or.inr rfl))
  · exact h.setInstance hdesc hx ((h.fitted _ _ _ _ hdesc hx).mapped htype hptr _)

theorem length_copyIn {bytes : List Byte} (h : copyIn x bytes = .ok z) :
    z.mem.length = x.mem.length := by
  unfold copyIn at h
  split at h
  · split_ifs at h
    cases h
    rfl
  · split at h
    · next hmem =>
      cases h
      exact length_splice hmem
    · cases h
  · split at h
    · cases h
      rfl
    · cases h

theorem length_unmapMem {mem : List Byte} (h : unmapMem x cl = some mem) :
    mem.length = x.mem.length := by
  unfold unmapMem at h
  split at h
  · split_ifs at h
    exact length_splice h
  · cases h

theorem length_unmapped (desc : VMAccelSurfaceDesc) (x : VMWOpenCLSurfaceInstance)
    (generation : BitVec 32) (cl : Bool) :
    (unmapped desc x generation cl).2.mem.length = x.mem.length := by
  unfold unmapped
  dsimp only
  split_ifs
  · split
    · next hmem => exact length_unmapMem hmem
    · rfl
  · rfl
  · rfl

theorem Sized.surfaceunmap (h : s.Sized) {argp : SurfaceUnmapOp} {r : StatusCode × Backend}
    (hr : s.surfaceunmap argp cl = .ok r) : r.2.Sized := by
  obtain ⟨desc, x, y, hdesc, hx, hy, rfl⟩ := surfaceunmap_ok hr
  obtain ⟨mem, ptr, heq, hregion⟩ := copyIn_ok hy
  have hmapping : (unmapped desc y argp.generation cl).2.mapping = released y.mapping := by
    rcases unmapped_cases desc y argp.generation with ⟨mem', h⟩ | h <;> rw [h]
  refine h.setInstance hdesc hx ((h.fitted _ _ _ _ hdesc hx).of_region
    ((length_unmapped desc y _ cl).trans (length_copyIn hy)) ?_)
  rw [region, hmapping, released]
  split_ifs
  · exact Or.inl rfl
  · rw [heq]
    exact Or.inr hregion

theorem length_copyMem {argp : SurfaceCopyOp} {mem : List Byte}
    (h : copyMem argp x z cl = some mem) : mem.length = z.mem.length := by
  unfold copyMem at h
  split_ifs at h
  obtain ⟨bytes, -, hmem⟩ := Option.bind_eq_some_iff.mp h
  exact length_splice hmem

theorem Sized.step (h : s.Sized) {i : Request} (hs : s.step i = .ok s') : s'.Sized := by
  cases i with
  | surfacealloc argp svmCapable cl fresh =>
    obtain ⟨r, hr, rfl⟩ := bind_snd_eq_ok.mp hs
    exact h.surfacealloc hr
  | surfacedestroy sid =>
    obtain ⟨r, hr, rfl⟩ := bind_snd_eq_ok.mp hs
    exact h.surfacedestroy hr
  | imageupload argp cl =>
    obtain ⟨r, hr, rfl⟩ := bind_snd_eq_ok.mp hs
    obtain ⟨desc, x, -, hx, ⟨-, rfl⟩ | ⟨-, -, -, ⟨-, rfl⟩ | ⟨mem, hmem, rfl⟩⟩⟩ := imageupload_ok hr
    · exact h
    · exact h
    · refine h.setMem hx ?_ rfl
      unfold writeMem at hmem
      split_ifs at hmem
      exact length_splice hmem
  | imagedownload argp cl =>
    obtain ⟨r, hr, rfl⟩ := bind_snd_eq_ok.mp hs
    rwa [(imagedownload_ok hr).1]
  | surfacemap argp cl =>
    obtain ⟨r, hr, rfl⟩ := bind_snd_eq_ok.mp hs
    exact h.surfacemap hr
  | surfaceunmap argp cl =>
    obtain ⟨r, hr, rfl⟩ := bind_snd_eq_ok.mp hs
    exact h.surfaceunmap hr
  | surfacecopy argp cl =>
    obtain ⟨r, hr, rfl⟩ := bind_snd_eq_ok.mp hs
    rcases surfacecopy_ok hr with ⟨-, heq⟩ | ⟨src, dst, mem, -, hdst, -, -, hmem, heq⟩
    · rwa [heq]
    · rw [heq]
      exact h.setMem hdst (length_copyMem hmem) rfl
  | imagefill argp cl =>
    obtain ⟨r, hr, rfl⟩ := bind_snd_eq_ok.mp hs
    rcases imagefill_ok hr with ⟨-, heq⟩ | ⟨x, mem, hx, -, hmem, heq⟩
    · rwa [heq]
    · rw [heq]
      refine h.setMem hx ?_ rfl
      unfold fillMem at hmem
      split_ifs at hmem
      exact length_splice hmem
  | dispatch argp cl =>
    obtain ⟨r, hr, rfl⟩ := bind_snd_eq_ok.mp hs
    refine ⟨h.wellFormed.dispatch hr, fun sid inst desc z hdesc hz => ?_⟩
    rcases dispatch_ok hr with ⟨-, heq⟩ | ⟨contents, -, rfl⟩
    · rw [heq] at hdesc hz
      exact h.fitted sid inst desc z hdesc hz
    · rw [descs_runKernel] at hdesc
      rw [instance?_runKernel] at hz
      obtain ⟨x, hx, rfl⟩ := Option.map_eq_some_iff.mp hz
      refine (h.fitted sid inst desc x hdesc hx).of_region (length_runOn_mem ..) (Or.inr ?_)
      rw [region, region, runOn_mapping]

end Backend

end VMAccel
