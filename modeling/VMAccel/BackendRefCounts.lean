import VMAccel.BackendChanges

/-!
# Reference counts of mappings

What each request does to the mapping of an instance. `Remaps` and `Recounts` say that the mapping,
or its count, is replaced at one instance only.
-/

namespace VMAccel.Backend

open StepSystem

variable {s s' : Backend} {cl : Bool}

def mapping? (s : Backend) (sid inst : ℕ) : Option VMWOpenCLMapping :=
  (s.instance? sid inst).map VMWOpenCLSurfaceInstance.mapping

def refCount? (s : Backend) (sid inst : ℕ) : Option (BitVec 32) :=
  (s.mapping? sid inst).map VMWOpenCLMapping.refCount

def Remaps (s s' : Backend) (sid inst : ℕ) (m : VMWOpenCLMapping) : Prop :=
  ∀ j k, s'.mapping? j k = if j = sid ∧ k = inst then some m else s.mapping? j k

theorem remaps_setInstance {sid inst : ℕ} {x : VMWOpenCLSurfaceInstance}
    (hx : s.instance? sid inst = some x) (z : VMWOpenCLSurfaceInstance) :
    Remaps s (s.setInstance sid inst z) sid inst z.mapping := by
  intro j k
  rw [mapping?, instance?_setInstance hx]
  split_ifs
  · rfl
  · rfl

theorem mapping?_setInstance {sid inst : ℕ} {x z : VMWOpenCLSurfaceInstance}
    (hx : s.instance? sid inst = some x) (hz : z.mapping = x.mapping) (j k : ℕ) :
    (s.setInstance sid inst z).mapping? j k = s.mapping? j k := by
  rw [remaps_setInstance hx z]
  split_ifs with h
  · rw [mapping?, h.1, h.2, hx, hz]
    rfl
  · rfl

theorem mapPtr_cases (argp : SurfaceMapOp) (x : VMWOpenCLSurfaceInstance) (cl : Bool) :
    (x.mapping.refCount = 0 ∧ ∀ ptr, mapPtr argp x cl = some ptr → ptr ≠ none) ∨
      (x.mapping.refCount ≠ 0 ∧ mapPtr argp x cl = some x.mapping.ptr) := by
  unfold mapPtr
  by_cases h0 : x.mapping.refCount = 0
  · refine Or.inl ⟨h0, fun ptr hptr => ?_⟩
    rw [if_pos (by rw [h0]; rfl)] at hptr
    split_ifs at hptr
    · cases hptr
      exact Option.some_ne_none _
    · obtain ⟨bytes, -, rfl⟩ := Option.map_eq_some_iff.mp hptr
      exact Option.some_ne_none _
  · exact Or.inr ⟨h0, if_neg fun h => h0 (by bv_omega)⟩

/-- A map is stale and changes nothing, or OpenCL refuses it, or it succeeds. OpenCL is asked only
when the count was 0. -/
theorem surfacemap_mapping {argp : SurfaceMapOp} {r : (StatusCode × Option HostPtr) × Backend}
    (hr : s.surfacemap argp cl = .ok r) :
    ∃ m, s.mapping? argp.sid.toNat argp.inst.toNat = some m ∧
      (r = ((.semanticError, none), s) ∨
        (r.1 = (.fail, none) ∧ m.refCount = 0 ∧
          Remaps s r.2 argp.sid.toNat argp.inst.toNat ⟨m.ptr, m.refCount + 1⟩) ∨
        ∃ ptr, r.1 = (.success, ptr) ∧ (m.refCount = 0 → ptr ≠ none) ∧
          (m.refCount ≠ 0 → ptr = m.ptr) ∧
          Remaps s r.2 argp.sid.toNat argp.inst.toNat ⟨ptr, m.refCount + 1⟩) := by
  obtain ⟨desc, x, -, hx, hcases⟩ := surfacemap_ok hr
  refine ⟨x.mapping, by rw [mapping?, hx]; rfl, ?_⟩
  rcases hcases with ⟨-, rfl⟩ | ⟨-, -, ⟨hptr, rfl⟩ | ⟨ptr, hptr, rfl⟩⟩
  · exact Or.inl rfl
  · rcases mapPtr_cases argp x cl with ⟨h0, -⟩ | ⟨-, hsome⟩
    · exact Or.inr (Or.inl ⟨rfl, h0, remaps_setInstance hx _⟩)
    · exact absurd (hptr.symm.trans hsome) (Option.some_ne_none _).symm
  · refine Or.inr (Or.inr ⟨ptr, rfl, fun h0 => ?_, fun h0 => ?_, remaps_setInstance hx _⟩)
    · rcases mapPtr_cases argp x cl with ⟨-, hne⟩ | ⟨hne, -⟩
      · exact hne ptr hptr
      · exact absurd h0 hne
    · rcases mapPtr_cases argp x cl with ⟨heq, -⟩ | ⟨-, hsome⟩
      · exact absurd heq h0
      · exact Option.some.inj (hptr.symm.trans hsome)

theorem surfaceunmap_mapping {argp : SurfaceUnmapOp} {r : StatusCode × Backend}
    (hr : s.surfaceunmap argp cl = .ok r) :
    ∃ m m', s.mapping? argp.sid.toNat argp.inst.toNat = some m ∧
      m'.refCount = m.refCount - 1 ∧
      (m.refCount ≠ 1 → m'.ptr.map HostPtr.region = m.ptr.map HostPtr.region) ∧
      Remaps s r.2 argp.sid.toNat argp.inst.toNat m' := by
  obtain ⟨desc, x, y, -, hx, hy, rfl⟩ := surfaceunmap_ok hr
  obtain ⟨mem, ptr, rfl, hptr⟩ := copyIn_ok hy
  have hmapping : (unmapped desc { x with mem, mapping := { x.mapping with ptr } }
      argp.generation cl).2.mapping = released { x.mapping with ptr } := by
    rcases unmapped_cases desc { x with mem, mapping := { x.mapping with ptr } } argp.generation
      with ⟨mem', h⟩ | h <;> rw [h]
  refine ⟨x.mapping, _, by rw [mapping?, hx]; rfl, ?_, fun hne => ?_, remaps_setInstance hx _⟩
  · rw [hmapping, released]
    split_ifs with h
    · rw [show x.mapping.refCount = 1 from h]
      rfl
    · rfl
  · rw [hmapping, released, if_neg hne]
    exact hptr

def Request.LeavesMappings : Request → Prop
  | .surfacealloc .. => False
  | .surfacedestroy _ => False
  | .surfacemap .. => False
  | .surfaceunmap .. => False
  | _ => True

theorem mapping?_of_leavesMappings {i : Request} (hi : i.LeavesMappings) (h : s.step i = .ok s')
    (j k : ℕ) : s'.mapping? j k = s.mapping? j k := by
  cases i with
  | surfacealloc argp svmCapable cl fresh => exact hi.elim
  | surfacedestroy sid => exact hi.elim
  | surfacemap argp cl => exact hi.elim
  | surfaceunmap argp cl => exact hi.elim
  | imageupload argp cl =>
    obtain ⟨q, hq, h⟩ := bind_eq_ok.mp h
    cases h
    obtain ⟨-, x, -, hx, ⟨-, rfl⟩ | ⟨-, -, -, ⟨-, rfl⟩ | ⟨mem, -, rfl⟩⟩⟩ := imageupload_ok hq
    · rfl
    · rfl
    · refine mapping?_setInstance hx ?_ j k
      rfl
  | imagedownload argp cl =>
    obtain ⟨q, hq, h⟩ := bind_eq_ok.mp h
    cases h
    rw [(imagedownload_ok hq).1]
  | surfacecopy argp cl =>
    obtain ⟨q, hq, h⟩ := bind_eq_ok.mp h
    cases h
    rcases surfacecopy_ok hq with ⟨-, heq⟩ | ⟨src, dst, mem, -, hdst, -, -, -, heq⟩
    · rw [heq]
    · rw [heq]
      refine mapping?_setInstance hdst ?_ j k
      rfl
  | imagefill argp cl =>
    obtain ⟨q, hq, h⟩ := bind_eq_ok.mp h
    cases h
    rcases imagefill_ok hq with ⟨-, heq⟩ | ⟨x, mem, hx, -, -, heq⟩
    · rw [heq]
    · rw [heq]
      refine mapping?_setInstance hx ?_ j k
      rfl
  | dispatch argp cl =>
    obtain ⟨q, hq, h⟩ := bind_eq_ok.mp h
    cases h
    rcases dispatch_ok hq with ⟨-, heq⟩ | ⟨contents, -, rfl⟩
    · rw [heq]
    · rw [mapping?, instance?_runKernel, Option.map_map, mapping?]
      congr 1
      exact funext fun x => runOn_mapping argp contents j k x

theorem surfacealloc_mapping {argp : SurfaceAllocateDesc} {svmCapable : Bool} {fresh : ℕ → Byte}
    {r : StatusCode × Backend} (hr : s.surfacealloc argp svmCapable cl fresh = .ok r) {j k : ℕ}
    {m : VMWOpenCLMapping} (hm : r.2.mapping? j k = some m) :
    if r.1 = .success ∧ j = argp.sid.toNat then m.refCount = 0 else s.mapping? j k = some m := by
  rcases surfacealloc_ok hr with ⟨hne, heq⟩ | ⟨hok, -, -, -, hinst⟩
  · rwa [if_neg fun h => hne h.1, ← heq]
  · rw [mapping?, hinst] at hm
    split_ifs with h
    · rw [if_pos h.2] at hm
      obtain ⟨y, hy, rfl⟩ := Option.map_eq_some_iff.mp hm
      obtain ⟨x, -, rfl⟩ := Option.map_eq_some_iff.mp hy
      rfl
    · rw [if_neg fun hj => h ⟨hok, hj⟩, Option.map_id_apply] at hm
      exact hm

theorem mapping_of_zero {k : ℕ} {x : VMWOpenCLSurfaceInstance}
    (hx : VMWOpenCLSurface.zero.inst[k]? = some x) : x.mapping = ⟨none, 0⟩ := by
  rw [List.eq_of_mem_replicate (List.mem_of_getElem? hx)]

theorem surfacedestroy_mapping {sid : VMAccelId} {r : StatusCode × Backend}
    (hr : s.surfacedestroy sid = .ok r) {j k : ℕ} {m : VMWOpenCLMapping}
    (hm : r.2.mapping? j k = some m) :
    if j = sid.toNat then m.refCount = 0 else s.mapping? j k = some m := by
  split_ifs with h
  · subst h
    obtain ⟨hlt, hsurf⟩ := surfaces_of_surfacedestroy hr
    obtain ⟨x, hx, rfl⟩ := Option.map_eq_some_iff.mp hm
    rw [instance?, hsurf, List.getElem?_set_self hlt] at hx
    rw [mapping_of_zero hx]
  · rwa [mapping?, surfacedestroy_ok hr (Ne.symm h)] at hm

variable {s'' : Backend} {sid inst : ℕ} {n n' : BitVec 32}

def Recounts (s s' : Backend) (sid inst : ℕ) (n : BitVec 32) : Prop :=
  ∀ j k, s'.refCount? j k = if j = sid ∧ k = inst then some n else s.refCount? j k

theorem Recounts.refl (h : s.refCount? sid inst = some n) : Recounts s s sid inst n := by
  intro j k
  split_ifs with hjk
  · rw [hjk.1, hjk.2, h]
  · rfl

theorem Recounts.trans (h : Recounts s s' sid inst n) (h' : Recounts s' s'' sid inst n') :
    Recounts s s'' sid inst n' := by
  intro j k
  rw [h' j k]
  split_ifs with hjk
  · rfl
  · rw [h j k, if_neg hjk]

theorem Recounts.self (h : Recounts s s' sid inst n) : s'.refCount? sid inst = some n :=
  (h sid inst).trans (if_pos ⟨rfl, rfl⟩)

theorem Recounts.kept_iff (h : Recounts s s' sid inst n') (hn : s.refCount? sid inst = some n) :
    (∀ j k, s'.refCount? j k = s.refCount? j k) ↔ n' = n := by
  constructor
  · intro hkept
    exact Option.some.inj (h.self.symm.trans ((hkept sid inst).trans hn))
  · rintro rfl j k
    rw [h j k]
    split_ifs with hjk
    · rw [hjk.1, hjk.2, hn]
    · rfl

theorem Remaps.recounts {m : VMWOpenCLMapping} (h : Remaps s s' sid inst m) :
    Recounts s s' sid inst m.refCount := by
  intro j k
  rw [refCount?, h j k]
  split_ifs
  · rfl
  · rfl

theorem surfacemap_recounts {argp : SurfaceMapOp} {r : (StatusCode × Option HostPtr) × Backend}
    (hr : s.surfacemap argp cl = .ok r) :
    ∃ n, s.refCount? argp.sid.toNat argp.inst.toNat = some n ∧
      ((r.1.1 = .semanticError ∧ Recounts s r.2 argp.sid.toNat argp.inst.toNat n) ∨
        (Recounts s r.2 argp.sid.toNat argp.inst.toNat (n + 1) ∧
          (r.1.1 = .fail ∧ n = 0 ∨ r.1.1 = .success))) := by
  obtain ⟨m, hm, hcases⟩ := surfacemap_mapping hr
  have hn : s.refCount? argp.sid.toNat argp.inst.toNat = some m.refCount := by
    rw [refCount?, hm]
    rfl
  refine ⟨m.refCount, hn, ?_⟩
  rcases hcases with rfl | ⟨heq, h0, hs⟩ | ⟨ptr, heq, -, -, hs⟩
  · exact Or.inl ⟨rfl, .refl hn⟩
  · exact Or.inr ⟨hs.recounts, Or.inl ⟨congrArg Prod.fst heq, h0⟩⟩
  · exact Or.inr ⟨hs.recounts, Or.inr (congrArg Prod.fst heq)⟩

theorem surfaceunmap_recounts {argp : SurfaceUnmapOp} {r : StatusCode × Backend}
    (hr : s.surfaceunmap argp cl = .ok r)
    (hn : s.refCount? argp.sid.toNat argp.inst.toNat = some n) :
    Recounts s r.2 argp.sid.toNat argp.inst.toNat (n - 1) := by
  obtain ⟨m, m', hm, hcount, -, hs⟩ := surfaceunmap_mapping hr
  rw [refCount?, hm] at hn
  rw [← Option.some.inj hn, ← hcount]
  exact hs.recounts

end VMAccel.Backend
