import VMAccel.BackendDispatch

/-!
# Generations of the backend only grow

Every request but the unmap compares the generation it carries with the stored one. As long as no
unmap arrives with a smaller generation than the stored one, no request lowers a generation, and
none that carries a smaller generation than the stored one changes the surface.
-/

namespace VMAccel.Backend

open StepSystem

def Request.carried : Request → List (ℕ × ℕ × BitVec 32)
  | .surfacealloc _ _ _ _ => []
  | .surfacedestroy _ => []
  | .imageupload argp _ => [(argp.sid.toNat, argp.inst.toNat, argp.generation)]
  | .imagedownload argp _ => [(argp.sid.toNat, argp.inst.toNat, argp.generation)]
  | .surfacemap argp _ => [(argp.sid.toNat, argp.inst.toNat, argp.generation)]
  | .surfaceunmap argp _ => [(argp.sid.toNat, argp.inst.toNat, argp.generation)]
  | .surfacecopy argp _ =>
    [(argp.srcSid.toNat, 0, argp.srcGeneration), (argp.dstSid.toNat, 0, argp.dstGeneration)]
  | .imagefill argp _ => [(argp.sid.toNat, 0, argp.generation)]
  | .dispatch argp _ => argp.args.map fun a => (a.sid.toNat, a.inst.toNat, a.generation)

def Request.Destroys (r : Request) (sid : ℕ) : Prop :=
  match r with
  | .surfacedestroy id => id.toNat = sid
  | _ => False

/-- The request lowers no generation of a surface that it does not destroy, and where it carries a
smaller generation than the stored one it changes neither the generation nor the content. -/
def Keeps (s : Backend) (r : Request) : Prop :=
  ∀ s', s.step r = .ok s' → ∀ sid inst x, s.instance? sid inst = some x → ¬ r.Destroys sid →
    ∃ x', s'.instance? sid inst = some x' ∧ x.generation ≤ x'.generation ∧
      ∀ gen, (sid, inst, gen) ∈ r.carried → gen < x.generation →
        x'.generation = x.generation ∧ x'.mem = x.mem

/-- An unmap carries at least the stored generation. -/
def UnmapCurrent (s : Backend) : Request → Prop
  | .surfaceunmap argp _ => ∀ x ∈ s.instance? argp.sid.toNat argp.inst.toNat,
    x.generation ≤ argp.generation
  | _ => True

instance (s : Backend) : (r : Request) → Decidable (s.UnmapCurrent r)
  | .surfaceunmap _ _ => inferInstanceAs (Decidable (∀ _ ∈ (_ : Option _), _))
  | .surfacealloc _ _ _ _ | .surfacedestroy _ | .imageupload _ _ | .imagedownload _ _
  | .surfacemap _ _ | .surfacecopy _ _ | .imagefill _ _ | .dispatch _ _ => .isTrue trivial

def Current (s : Backend) (r : Request) : Prop :=
  ∀ sid inst gen x, (sid, inst, gen) ∈ r.carried → s.instance? sid inst = some x →
    x.generation ≤ gen

def Raises (s s' : Backend) (sid : ℕ) : Prop :=
  ∀ inst x, s.instance? sid inst = some x →
    ∃ x', s'.instance? sid inst = some x' ∧ x.generation ≤ x'.generation

variable {s s' : Backend} {r : Request} {cl : Bool}

theorem raises_setInstance {sid inst : ℕ} {x y : VMWOpenCLSurfaceInstance}
    (h : s.instance? sid inst = some y) (hxy : y.generation ≤ x.generation) (sid' : ℕ) :
    Raises s (s.setInstance sid inst x) sid' := by
  intro inst' z hz
  rw [instance?_setInstance h]
  split_ifs with heq
  · obtain ⟨rfl, rfl⟩ := heq
    obtain rfl := Option.some.inj (h.symm.trans hz)
    exact ⟨x, rfl, hxy⟩
  · exact ⟨z, hz, BitVec.le_refl _⟩

theorem raises_of_map {sid : ℕ} {f : ℕ → VMWOpenCLSurfaceInstance → VMWOpenCLSurfaceInstance}
    (h : ∀ inst, s'.instance? sid inst = (s.instance? sid inst).map (f inst))
    (hf : ∀ inst x, (f inst x).generation = x.generation) : Raises s s' sid := by
  intro inst x hx
  refine ⟨f inst x, by rw [h, hx]; rfl, ?_⟩
  rw [hf]
  exact BitVec.le_refl _

theorem current_of_singleton {sid inst : ℕ} {gen : BitVec 32} {x : VMWOpenCLSurfaceInstance}
    (hr : r.carried = [(sid, inst, gen)]) (hx : s.instance? sid inst = some x)
    (hgen : x.generation ≤ gen) : s.Current r := by
  intro sid' inst' gen' y hmem hy
  rw [hr, List.mem_singleton] at hmem
  cases hmem
  obtain rfl := Option.some.inj (hx.symm.trans hy)
  exact hgen

theorem surfacealloc_raises {argp : SurfaceAllocateDesc} {svmCapable : Bool} {fresh : ℕ → Byte}
    {q : StatusCode × Backend} (h : s.surfacealloc argp svmCapable cl fresh = .ok q) (sid : ℕ) :
    Raises s q.2 sid := by
  rcases surfacealloc_ok h with ⟨-, heq⟩ | ⟨-, -, -, -, hinst⟩
  · rw [heq]
    exact fun _ x hx => ⟨x, hx, BitVec.le_refl _⟩
  · refine raises_of_map (hinst sid) fun _ x => ?_
    split_ifs <;> rfl

theorem current_surfacecopy {argp : SurfaceCopyOp} {src dst : VMWOpenCLSurfaceInstance}
    (hsrc : s.instance? argp.srcSid.toNat 0 = some src)
    (hdst : s.instance? argp.dstSid.toNat 0 = some dst)
    (hsg : src.generation ≤ argp.srcGeneration) (hdg : dst.generation ≤ argp.dstGeneration) :
    s.Current (.surfacecopy argp cl) := by
  intro sid inst gen x hmem hx
  rcases List.mem_cons.mp hmem with heq | hmem
  · cases heq
    obtain rfl := Option.some.inj (hsrc.symm.trans hx)
    exact hsg
  · cases List.mem_singleton.mp hmem
    obtain rfl := Option.some.inj (hdst.symm.trans hx)
    exact hdg

theorem current_dispatch {argp : DispatchOp} {contents : List (List Byte)}
    (h : s.collectArgs argp.args = .ok (.success, contents)) :
    s.Current (.dispatch argp cl) := by
  intro sid inst gen x hmem hx
  obtain ⟨a, ha, heq⟩ := List.mem_map.mp hmem
  cases heq
  obtain ⟨y, hy, hgen⟩ := collectArgs_success h a ha
  obtain rfl := Option.some.inj (hy.symm.trans hx)
  rw [hgen]
  exact BitVec.le_refl _

/-- A request leaves the backend as it is, or carries no smaller generation than the stored ones
and lowers none. -/
theorem step_raises (h : s.step r = .ok s') (hc : s.UnmapCurrent r) :
    s' = s ∨ (s.Current r ∧ ∀ sid, ¬ r.Destroys sid → Raises s s' sid) := by
  cases r with
  | surfacealloc argp svmCapable cl fresh =>
    obtain ⟨q, hq, rfl⟩ := bind_snd_eq_ok.mp h
    exact Or.inr ⟨fun _ _ _ _ hmem => absurd hmem List.not_mem_nil,
      fun sid _ => surfacealloc_raises hq sid⟩
  | surfacedestroy id =>
    obtain ⟨q, hq, rfl⟩ := bind_snd_eq_ok.mp h
    refine Or.inr ⟨fun _ _ _ _ hmem => absurd hmem List.not_mem_nil, fun sid hsid inst x hx => ?_⟩
    exact ⟨x, by rw [surfacedestroy_ok hq hsid, hx], BitVec.le_refl _⟩
  | imageupload argp cl =>
    obtain ⟨q, hq, rfl⟩ := bind_snd_eq_ok.mp h
    obtain ⟨-, x, -, hx, ⟨-, rfl⟩ | ⟨hgen, -, -, ⟨-, rfl⟩ | ⟨mem, -, rfl⟩⟩⟩ := imageupload_ok hq
    · exact Or.inl rfl
    · exact Or.inl rfl
    · exact Or.inr ⟨current_of_singleton rfl hx hgen, fun sid _ => raises_setInstance hx hgen sid⟩
  | imagedownload argp cl =>
    obtain ⟨q, hq, rfl⟩ := bind_snd_eq_ok.mp h
    exact Or.inl (imagedownload_ok hq).1
  | surfacemap argp cl =>
    obtain ⟨q, hq, rfl⟩ := bind_snd_eq_ok.mp h
    obtain ⟨-, x, -, hx, ⟨-, rfl⟩ | ⟨hgen, -, hq⟩⟩ := surfacemap_ok hq
    · exact Or.inl rfl
    · refine Or.inr ⟨current_of_singleton rfl hx hgen, fun sid _ => ?_⟩
      rcases hq with ⟨-, rfl⟩ | ⟨ptr, -, rfl⟩
      · refine raises_setInstance hx ?_ sid
        exact BitVec.le_refl _
      · refine raises_setInstance hx ?_ sid
        exact BitVec.le_refl _
  | surfaceunmap argp cl =>
    obtain ⟨q, hq, rfl⟩ := bind_snd_eq_ok.mp h
    obtain ⟨desc, x, y, -, hx, hy, rfl⟩ := surfaceunmap_ok hq
    have hgen : x.generation ≤ argp.generation := hc x hx
    refine Or.inr ⟨current_of_singleton rfl hx hgen, fun sid _ => raises_setInstance hx ?_ sid⟩
    rcases unmapped_generation desc y argp.generation with ⟨-, hz⟩ | ⟨-, hz⟩
    · rw [hz]
      exact hgen
    · rw [hz, copyIn_generation hy]
      exact BitVec.le_refl _
  | surfacecopy argp cl =>
    obtain ⟨q, hq, rfl⟩ := bind_snd_eq_ok.mp h
    rcases surfacecopy_ok hq with ⟨-, heq⟩ | ⟨src, dst, mem, hsrc, hdst, hsg, hdg, -, heq⟩
    · exact Or.inl heq
    · refine Or.inr ⟨current_surfacecopy hsrc hdst hsg hdg, fun sid _ => ?_⟩
      rw [heq]
      refine raises_setInstance hdst ?_ sid
      exact BitVec.le_refl _
  | imagefill argp cl =>
    obtain ⟨q, hq, rfl⟩ := bind_snd_eq_ok.mp h
    rcases imagefill_ok hq with ⟨-, heq⟩ | ⟨x, mem, hx, hgen, -, heq⟩
    · exact Or.inl heq
    · refine Or.inr ⟨current_of_singleton rfl hx hgen, fun sid _ => ?_⟩
      rw [heq]
      exact raises_setInstance hx hgen sid
  | dispatch argp cl =>
    obtain ⟨q, hq, rfl⟩ := bind_snd_eq_ok.mp h
    rcases dispatch_ok hq with ⟨-, heq⟩ | ⟨contents, hargs, rfl⟩
    · exact Or.inl heq
    · refine Or.inr ⟨current_dispatch hargs, fun sid _ => ?_⟩
      exact raises_of_map (instance?_runKernel argp contents sid)
        fun inst => runOn_generation argp contents sid inst

theorem keeps_of_unmapCurrent (hc : s.UnmapCurrent r) : s.Keeps r := by
  intro s' h sid inst x hx hsid
  rcases step_raises h hc with rfl | ⟨hcur, hraise⟩
  · exact ⟨x, hx, BitVec.le_refl _, fun _ _ _ => ⟨rfl, rfl⟩⟩
  · obtain ⟨x', hx', hle⟩ := hraise sid hsid inst x hx
    refine ⟨x', hx', hle, fun gen hmem hlt => ?_⟩
    exact absurd hlt (BitVec.not_lt.mpr (hcur sid inst gen x hmem hx))

theorem stale_unmap_lowers {argp : SurfaceUnmapOp} {t : Backend} {x : VMWOpenCLSurfaceInstance}
    (hr : s.surfaceunmap argp cl = .ok (.success, t))
    (hx : s.instance? argp.sid.toNat argp.inst.toNat = some x)
    (hgen : argp.generation < x.generation) : ¬ s.Keeps (.surfaceunmap argp cl) := by
  intro hk
  obtain ⟨x', hx', hle, -⟩ := hk t (bind_eq_ok.mpr ⟨_, hr, rfl⟩) _ _ x hx id
  obtain ⟨desc, x₀, y, -, hx₀, -, heq⟩ := surfaceunmap_ok hr
  obtain ⟨hstatus, rfl⟩ := Prod.mk.inj heq
  rw [instance?_setInstance hx₀, if_pos ⟨rfl, rfl⟩] at hx'
  obtain rfl := Option.some.inj hx'
  rcases unmapped_generation desc y argp.generation with ⟨-, hz⟩ | ⟨hfail, -⟩
  · exact absurd hgen (BitVec.not_lt.mpr (hz ▸ hle))
  · exact StatusCode.noConfusion (hstatus.trans hfail)

/-- While no unmap is stale, every request keeps what the backend holds, and the generation at the
end of a run is at least the one at its start, for every surface that lives throughout. -/
theorem generations_never_go_back (s : Backend) (rs : List Request)
    (h : EachInput step UnmapCurrent s rs) :
    EachInput step Keeps s rs ∧
      ∀ t sid inst x, run step s rs = .ok t → s.instance? sid inst = some x →
        (∀ r ∈ rs, ¬ r.Destroys sid) →
        ∃ y, t.instance? sid inst = some y ∧ x.generation ≤ y.generation := by
  constructor
  · exact eachInput_of_invariant (fun _ _ (_ : True) hc => keeps_of_unmapCurrent hc)
      (fun _ _ _ _ _ _ => trivial) trivial h
  · intro t sid inst x hrun hx hlive
    induction rs generalizing s x with
    | nil =>
      cases hrun
      exact ⟨x, hx, BitVec.le_refl _⟩
    | cons r rs ih =>
      obtain ⟨s', hs, hrun⟩ := run_cons_ok.mp hrun
      obtain ⟨x', hx', hle, -⟩ := keeps_of_unmapCurrent h.1 s' hs sid inst x hx
        (hlive r List.mem_cons_self)
      obtain ⟨y, hy, hle'⟩ := ih s' (h.2 s' hs) x' hrun hx' fun r hr =>
        hlive r (List.mem_cons_of_mem _ hr)
      exact ⟨y, hy, BitVec.le_trans hle hle'⟩

def demoDesc : VMAccelSurfaceDesc :=
  ⟨.buffer, 2, 1, 1, .r8Typeless, .accelerator, .readwrite⟩

/-- Allocate surface 3, map it with generation 1, upload to it with generation 5, and take back
the mapping with generation `gen`. -/
def mapAcrossUpload (gen : BitVec 32) : List Request :=
  [.surfacealloc ⟨0, 3, demoDesc⟩ false true fun _ => 0,
    .surfacemap ⟨3, 0, 1, 0, 2, false⟩ true,
    .imageupload ⟨0, 0, 3, 0, 5, 0, [7, 8]⟩ true,
    .surfaceunmap ⟨3, 0, gen, [1, 2]⟩ true]

/-- The stale unmap takes the generation back from 5 to 1 and the content with it. -/
theorem stale_unmap_overwrites :
    (∃ s, run step powerOn ((mapAcrossUpload 1).take 3) = .ok s ∧
      s.instance? 3 0 = some ⟨[7, 8], false, 5, ⟨some (.mapped 0 [0, 0]), 1⟩⟩) ∧
    (∃ t, run step powerOn (mapAcrossUpload 1) = .ok t ∧
      t.instance? 3 0 = some ⟨[1, 2], false, 1, ⟨none, 0⟩⟩) := by
  decide +kernel

theorem generations_never_go_back_demo :
    EachInput step UnmapCurrent powerOn (mapAcrossUpload 5) ∧
      EachInput step Keeps powerOn (mapAcrossUpload 5) := by
  have h : EachInput step UnmapCurrent powerOn (mapAcrossUpload 5) := by decide +kernel
  exact ⟨h, (generations_never_go_back powerOn _ h).1⟩

end VMAccel.Backend
