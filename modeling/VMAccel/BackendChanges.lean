import VMAccel.BackendDispatch

/-!
# Which surfaces a request changes

`ChangesOnly` says which surfaces a request may change, and what it never changes of them. One
lemma for each request of the backend that neither creates nor destroys a surface.
-/

namespace VMAccel.Backend

variable {s : Backend} {cl : Bool}

/-- The request keeps the identifiers, and of every surface the context, the descriptor and the
kind of memory. Only surfaces in `P` change at all. -/
structure ChangesOnly (s s' : Backend) (P : ℕ → Prop) : Prop where
  surfaceIds : s'.surfaceIds = s.surfaceIds
  length : s'.surfaces.length = s.surfaces.length
  kept : ∀ j surf, s.surfaces[j]? = some surf → ∃ surf', s'.surfaces[j]? = some surf' ∧
    surf'.cid = surf.cid ∧ surf'.desc = surf.desc ∧ surf'.inst.map (·.svm) = surf.inst.map (·.svm) ∧
    (¬ P j → surf' = surf)

theorem ChangesOnly.refl (s : Backend) (P : ℕ → Prop) : ChangesOnly s s P :=
  ⟨rfl, rfl, fun _ surf h => ⟨surf, h, rfl, rfl, rfl, fun _ => rfl⟩⟩

theorem ChangesOnly.mono {s' : Backend} {P Q : ℕ → Prop} (h : ChangesOnly s s' P)
    (hPQ : ∀ j, P j → Q j) : ChangesOnly s s' Q := by
  refine ⟨h.surfaceIds, h.length, fun j surf hj => ?_⟩
  obtain ⟨surf', hj', hcid, hdesc, hsvm, heq⟩ := h.kept j surf hj
  exact ⟨surf', hj', hcid, hdesc, hsvm, fun hQ => heq fun hP => hQ (hPQ j hP)⟩

theorem changesOnly_setInstance {i k : ℕ} {x z : VMWOpenCLSurfaceInstance}
    (hx : s.instance? i k = some x) (hsvm : z.svm = x.svm) :
    ChangesOnly s (s.setInstance i k z) (· = i) := by
  refine ⟨rfl, by simp [setInstance], fun j surf hj => ?_⟩
  change ∃ surf', (s.surfaces.modify i _)[j]? = some surf' ∧ _
  by_cases hji : j = i
  · subst hji
    rw [instance?, hj] at hx
    change surf.inst[k]? = some x at hx
    refine ⟨{ surf with inst := surf.inst.set k z }, ?_, rfl, rfl, ?_, fun h => absurd rfl h⟩
    · rw [List.getElem?_modify_eq, hj]
      rfl
    · refine List.ext_getElem? fun l => ?_
      rw [List.getElem?_map, List.getElem?_map, List.getElem?_set]
      split_ifs with hl hlt
      · subst hl
        rw [hx]
        exact congrArg some hsvm
      · subst hl
        exact absurd (List.getElem?_eq_some_iff.mp hx).1 hlt
      · rfl
  · refine ⟨surf, ?_, rfl, rfl, rfl, fun _ => rfl⟩
    rw [List.getElem?_modify_ne _ _ (Ne.symm hji), hj]

theorem changesOnly_runKernel (argp : DispatchOp) (contents : List (List Byte)) :
    ChangesOnly s (s.runKernel argp contents) fun j => ∃ a ∈ argp.args, a.sid.toNat = j := by
  have hsvm : ∀ j k x, (runOn argp contents j k x).svm = x.svm := by
    intro j k x
    unfold runOn
    split <;> rfl
  refine ⟨rfl, by simp [runKernel], fun j surf hj => ?_⟩
  refine ⟨{ surf with inst := surf.inst.mapIdx (runOn argp contents j) }, ?_, rfl, rfl, ?_,
    fun hP => ?_⟩
  · change (s.surfaces.mapIdx _)[j]? = _
    rw [List.getElem?_mapIdx, hj]
    rfl
  · refine List.ext_getElem? fun k => ?_
    rw [List.getElem?_map, List.getElem?_map, List.getElem?_mapIdx]
    cases surf.inst[k]? with
    | none => rfl
    | some x => exact congrArg some (hsvm j k x)
  · have hrun : ∀ k x, runOn argp contents j k x = x := by
      intro k x
      unfold runOn
      split
      · next i hi =>
        obtain ⟨hlt, hmatch, -⟩ := List.findIdx?_eq_some_iff_getElem.mp hi
        exact absurd ⟨_, List.getElem_mem hlt, (of_decide_eq_true hmatch).1⟩ hP
      · rfl
    have hinst : surf.inst.mapIdx (runOn argp contents j) = surf.inst := by
      refine List.ext_getElem? fun k => ?_
      rw [List.getElem?_mapIdx]
      cases surf.inst[k]? with
      | none => rfl
      | some x => exact congrArg some (hrun k x)
    rw [hinst]

theorem changesOnly_imageupload {argp : ImageUploadOp} {r : StatusCode × Backend}
    (hr : s.imageupload argp cl = .ok r) : ChangesOnly s r.2 (· = argp.sid.toNat) := by
  obtain ⟨desc, x, -, hx, ⟨-, rfl⟩ | ⟨-, -, -, ⟨-, rfl⟩ | ⟨mem, -, rfl⟩⟩⟩ := imageupload_ok hr
  · exact .refl s _
  · exact .refl s _
  · exact changesOnly_setInstance hx rfl

theorem changesOnly_surfacemap {argp : SurfaceMapOp}
    {r : (StatusCode × Option HostPtr) × Backend} (hr : s.surfacemap argp cl = .ok r) :
    ChangesOnly s r.2 (· = argp.sid.toNat) := by
  obtain ⟨desc, x, -, hx, ⟨-, rfl⟩ | ⟨-, -, ⟨-, rfl⟩ | ⟨ptr, -, rfl⟩⟩⟩ := surfacemap_ok hr
  · exact .refl s _
  · exact changesOnly_setInstance hx rfl
  · exact changesOnly_setInstance hx rfl

theorem copyIn_svm {x y : VMWOpenCLSurfaceInstance} {bytes : List Byte}
    (h : copyIn x bytes = .ok y) : y.svm = x.svm := by
  obtain ⟨mem, ptr, rfl, -⟩ := copyIn_ok h
  rfl

theorem unmapped_svm (desc : VMAccelSurfaceDesc) (y : VMWOpenCLSurfaceInstance)
    (generation : BitVec 32) : (unmapped desc y generation cl).2.svm = y.svm := by
  rcases unmapped_cases desc y generation with ⟨mem, h⟩ | h <;> rw [h]

theorem changesOnly_surfaceunmap {argp : SurfaceUnmapOp} {r : StatusCode × Backend}
    (hr : s.surfaceunmap argp cl = .ok r) : ChangesOnly s r.2 (· = argp.sid.toNat) := by
  obtain ⟨desc, x, y, -, hx, hy, rfl⟩ := surfaceunmap_ok hr
  exact changesOnly_setInstance hx ((unmapped_svm _ _ _).trans (copyIn_svm hy))

theorem changesOnly_surfacecopy {argp : SurfaceCopyOp} {r : StatusCode × Backend}
    (hr : s.surfacecopy argp cl = .ok r) : ChangesOnly s r.2 (· = argp.dstSid.toNat) := by
  rcases surfacecopy_ok hr with ⟨-, heq⟩ | ⟨src, dst, mem, -, hdst, -, -, -, heq⟩
  · rw [heq]
    exact .refl s _
  · rw [heq]
    exact changesOnly_setInstance hdst rfl

theorem changesOnly_imagefill {argp : ImageFillOp} {r : StatusCode × Backend}
    (hr : s.imagefill argp cl = .ok r) : ChangesOnly s r.2 (· = argp.sid.toNat) := by
  rcases imagefill_ok hr with ⟨-, heq⟩ | ⟨x, mem, hx, -, -, heq⟩
  · rw [heq]
    exact .refl s _
  · rw [heq]
    exact changesOnly_setInstance hx rfl

theorem changesOnly_dispatch {argp : DispatchOp} {r : StatusCode × Backend}
    (hr : s.dispatch argp cl = .ok r) :
    ChangesOnly s r.2 fun j => ∃ a ∈ argp.args, a.sid.toNat = j := by
  rcases dispatch_ok hr with ⟨-, heq⟩ | ⟨contents, -, rfl⟩
  · rw [heq]
    exact .refl s _
  · exact changesOnly_runKernel argp contents

end VMAccel.Backend
