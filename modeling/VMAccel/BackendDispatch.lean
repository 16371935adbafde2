import VMAccel.BackendSpec

/-!
# Dispatch, and the surface table

A dispatch runs its kernel only when every argument carries the stored generation, and a kernel
changes the contents of its arguments and nothing else. `WellFormed` is what the requests keep of
the surface table.
-/

namespace VMAccel.Backend

open StepSystem

variable {s : Backend} {cl : Bool}

theorem collectArgs_success {args : List KernelArg} {contents : List (List Byte)}
    (hr : s.collectArgs args = .ok (.success, contents)) :
    ∀ a ∈ args, ∃ x, s.instance? a.sid.toNat a.inst.toNat = some x ∧
      x.generation = a.generation := by
  induction args generalizing contents with
  | nil => exact fun _ ha => absurd ha List.not_mem_nil
  | cons b args ih =>
    obtain ⟨-, -, hr⟩ := bind_eq_ok.mp hr
    obtain ⟨⟨desc, x⟩, hloc, hr⟩ := bind_eq_ok.mp hr
    dsimp only at hr
    split_ifs at hr with hgen hlt hset
    · cases hr
    · cases hr
    · obtain ⟨⟨status, rest⟩, hq, hr⟩ := bind_eq_ok.mp hr
      cases hr
      intro a ha
      rcases List.mem_cons.mp ha with rfl | ha
      · exact ⟨x, (locate_ok.mp hloc).2, not_not.mp hgen⟩
      · exact ih hq a ha
    · cases hr

theorem collectArgs_replicate {a : KernelArg} {desc : VMAccelSurfaceDesc}
    {x : VMWOpenCLSurfaceInstance} (hdesc : s.descs[a.sid.toNat]? = some desc)
    (hx : s.instance? a.sid.toNat a.inst.toNat = some x) (hsurf : a.isSurface = true)
    (hgen : x.generation = a.generation) (hset : a.set = true) (n : ℕ) :
    s.collectArgs (List.replicate n a) = .ok (.success, List.replicate n x.mem) := by
  have hloc : s.locate a.sid a.inst = .ok (desc, x) := locate_ok.mpr ⟨hdesc, hx⟩
  have hreq : require (a.isSurface = true) = .ok () := require_ok.mpr hsurf
  induction n with
  | zero => rfl
  | succ n ih =>
    rw [List.replicate_succ, collectArgs, hreq, ok_bind, hloc, ok_bind]
    dsimp only
    rw [if_neg (not_not.mpr hgen), if_neg (not_not.mpr hset), ih]
    rfl

theorem collectArgs_success_iff {args : List KernelArg} :
    (∃ contents, s.collectArgs args = .ok (.success, contents)) ↔
      ∀ a ∈ args, a.isSurface = true ∧ a.set = true ∧
        ∃ p, s.locate a.sid a.inst = .ok p ∧ p.2.generation = a.generation := by
  induction args with
  | nil => exact iff_of_true ⟨[], rfl⟩ fun _ ha => absurd ha List.not_mem_nil
  | cons a args ih =>
    rw [List.forall_mem_cons, ← ih]
    constructor
    · rintro ⟨contents, hr⟩
      obtain ⟨_, hsurf, hr⟩ := bind_eq_ok.mp hr
      obtain ⟨p, hloc, hr⟩ := bind_eq_ok.mp hr
      dsimp only at hr
      split_ifs at hr with hgen hlt hset
      · cases hr
      · cases hr
      · obtain ⟨⟨status, rest⟩, hrest, hr⟩ := bind_eq_ok.mp hr
        cases hr
        exact ⟨⟨require_ok.mp hsurf, hset, p, hloc, not_not.mp hgen⟩, rest, hrest⟩
      · cases hr
    · rintro ⟨⟨hsurf, hset, p, hloc, hgen⟩, rest, hrest⟩
      refine ⟨p.2.mem :: rest, bind_eq_ok.mpr ⟨(), require_ok.mpr hsurf, ?_⟩⟩
      rw [hloc, ok_bind]
      dsimp only
      rw [if_neg (not_not.mpr hgen), if_neg (not_not.mpr hset), hrest]
      rfl

theorem dispatch_ok {argp : DispatchOp} {r : StatusCode × Backend}
    (hr : s.dispatch argp cl = .ok r) :
    (r.1 ≠ .success ∧ r.2 = s) ∨ ∃ contents, s.collectArgs argp.args = .ok (.success, contents) ∧
      r = (.success, s.runKernel argp contents) := by
  obtain ⟨⟨status, contents⟩, hargs, hr⟩ := bind_eq_ok.mp hr
  dsimp only at hr
  split_ifs at hr with hstatus hcl
  · cases hr
    exact Or.inl ⟨hstatus, rfl⟩
  · obtain ⟨-, -, hr⟩ := bind_eq_ok.mp hr
    obtain rfl := not_not.mp hstatus
    cases hr
    exact Or.inr ⟨contents, hargs, rfl⟩
  · obtain ⟨-, -, hr⟩ := bind_eq_ok.mp hr
    cases hr
    exact Or.inl ⟨StatusCode.noConfusion, rfl⟩

theorem dispatch_of_collectArgs (argp : DispatchOp) {contents : List (List Byte)}
    (hargs : s.collectArgs argp.args = .ok (.success, contents)) {r : StatusCode × Backend}
    (hr : s.dispatch argp true = .ok r) : r = (.success, s.runKernel argp contents) := by
  rw [dispatch, hargs, ok_bind, if_neg (not_not.mpr rfl)] at hr
  obtain ⟨-, -, hr⟩ := bind_eq_ok.mp hr
  cases hr
  rfl

theorem instance?_runKernel (argp : DispatchOp) (contents : List (List Byte)) (sid inst : ℕ) :
    (s.runKernel argp contents).instance? sid inst =
      (s.instance? sid inst).map (runOn argp contents sid inst) := by
  simp only [instance?, runKernel, List.getElem?_mapIdx]
  cases s.surfaces[sid]? with
  | none => rfl
  | some surf => simp [List.getElem?_mapIdx]

theorem runOn_generation (argp : DispatchOp) (contents : List (List Byte)) (sid inst : ℕ)
    (x : VMWOpenCLSurfaceInstance) :
    (runOn argp contents sid inst x).generation = x.generation := by
  unfold runOn
  split <;> rfl

theorem runOn_mapping (argp : DispatchOp) (contents : List (List Byte)) (sid inst : ℕ)
    (x : VMWOpenCLSurfaceInstance) : (runOn argp contents sid inst x).mapping = x.mapping := by
  unfold runOn
  split <;> rfl

theorem length_runOn_mem (argp : DispatchOp) (contents : List (List Byte)) (sid inst : ℕ)
    (x : VMWOpenCLSurfaceInstance) :
    (runOn argp contents sid inst x).mem.length = x.mem.length := by
  unfold runOn
  split
  · simp
  · rfl

theorem descs_runKernel (argp : DispatchOp) (contents : List (List Byte)) :
    (s.runKernel argp contents).descs = s.descs := by
  refine List.ext_getElem? fun k => ?_
  simp only [descs, runKernel, List.getElem?_map, List.getElem?_mapIdx]
  cases s.surfaces[k]? <;> rfl

theorem locate_runKernel {sid : VMAccelId} {inst : BitVec 32}
    {p : VMAccelSurfaceDesc × VMWOpenCLSurfaceInstance} (h : s.locate sid inst = .ok p)
    (argp : DispatchOp) (contents : List (List Byte)) :
    (s.runKernel argp contents).locate sid inst =
      .ok (p.1, runOn argp contents sid.toNat inst.toNat p.2) := by
  obtain ⟨hdesc, hx⟩ := locate_ok.mp h
  rw [locate_ok, descs_runKernel, instance?_runKernel, hx]
  exact ⟨hdesc, rfl⟩

theorem collectArgs_runKernel {args : List KernelArg}
    (h : ∃ contents, s.collectArgs args = .ok (.success, contents)) (argp : DispatchOp)
    (contents : List (List Byte)) :
    ∃ contents', (s.runKernel argp contents).collectArgs args = .ok (.success, contents') := by
  rw [collectArgs_success_iff] at h ⊢
  intro a ha
  obtain ⟨hsurf, hset, p, hloc, hgen⟩ := h a ha
  exact ⟨hsurf, hset, _, locate_runKernel hloc argp contents,
    (runOn_generation argp contents _ _ p.2).trans hgen⟩

/-- The table has its size, and every buffer in it is live. -/
structure WellFormed (s : Backend) : Prop where
  length_descs : s.descs.length = maxSurfaces
  active_of_buffer : ∀ (sid : VMAccelId) (desc : VMAccelSurfaceDesc),
    s.descs[sid.toNat]? = some desc → desc.type = .buffer → s.surfaceIds.Active sid

theorem wellFormed_powerOn : powerOn.WellFormed where
  length_descs := by simp [descs, powerOn]
  active_of_buffer sid desc hdesc htype := by
    simp only [descs, powerOn, List.getElem?_map, List.getElem?_replicate] at hdesc
    split_ifs at hdesc
    · cases hdesc
      cases htype
    · cases hdesc

namespace WellFormed

theorem congr {s' : Backend} (h : s.WellFormed) (hdescs : s'.descs = s.descs)
    (hids : s'.surfaceIds = s.surfaceIds) : s'.WellFormed where
  length_descs := hdescs ▸ h.length_descs
  active_of_buffer := by
    rw [hdescs, hids]
    exact h.active_of_buffer

theorem setInstance (h : s.WellFormed) (sid inst : ℕ) (x : VMWOpenCLSurfaceInstance) :
    (s.setInstance sid inst x).WellFormed := h.congr (s.descs_setInstance sid inst x) rfl

theorem lt_of_instance (h : s.WellFormed) {sid inst : ℕ} {x : VMWOpenCLSurfaceInstance}
    (hx : s.instance? sid inst = some x) : sid < maxSurfaces := by
  obtain ⟨surf, hsurf, -⟩ := Option.bind_eq_some_iff.mp hx
  rw [← h.length_descs, descs, List.length_map]
  exact (List.getElem?_eq_some_iff.mp hsurf).1

theorem surfacealloc (h : s.WellFormed) {argp : SurfaceAllocateDesc} {svmCapable : Bool}
    {fresh : ℕ → Byte} {r : StatusCode × Backend}
    (hr : s.surfacealloc argp svmCapable cl fresh = .ok r) : r.2.WellFormed := by
  rcases surfacealloc_ok hr with ⟨-, heq⟩ | ⟨-, -, hdescs, hids, -⟩
  · rwa [heq]
  · refine ⟨by rw [hdescs, List.length_set, h.length_descs], fun sid desc hdesc htype => ?_⟩
    rw [hids]
    by_cases hsid : sid = argp.sid
    · exact Or.inr hsid
    · rw [hdescs, List.getElem?_set_ne fun heq => hsid (BitVec.eq_of_toNat_eq heq.symm)] at hdesc
      exact Or.inl (h.active_of_buffer sid desc hdesc htype)

theorem imageupload (h : s.WellFormed) {argp : ImageUploadOp} {r : StatusCode × Backend}
    (hr : s.imageupload argp cl = .ok r) : r.2.WellFormed := by
  obtain ⟨-, x, -, -, ⟨-, rfl⟩ | ⟨-, -, -, ⟨-, rfl⟩ | ⟨mem, -, rfl⟩⟩⟩ := imageupload_ok hr
  · exact h
  · exact h
  · exact h.setInstance _ _ _

theorem dispatch (h : s.WellFormed) {argp : DispatchOp} {r : StatusCode × Backend}
    (hr : s.dispatch argp cl = .ok r) : r.2.WellFormed := by
  rcases dispatch_ok hr with ⟨-, heq⟩ | ⟨contents, -, rfl⟩
  · rwa [heq]
  · exact h.congr (descs_runKernel argp contents) rfl

end WellFormed

end VMAccel.Backend
