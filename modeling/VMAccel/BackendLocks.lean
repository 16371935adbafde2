import VMAccel.BackendMappings
import VMAccel.EventLog
import VMAccel.HoldCounts

/-!
# The mutexes of the surfaces

Every surface and every instance of it has a recursive mutex. The functions below are those of
`Backend` with the operations on these mutexes, which each of them performs by hand on every path.
A function that stops at an assertion does not return and releases nothing.
-/

namespace VMAccel

open StepSystem EventLog HoldCounts

inductive Mutex
  | surface (sid : ℕ)
  | inst (sid inst : ℕ)
  deriving DecidableEq

namespace Backend

abbrev Locking (α : Type) := Logged (Op Mutex) Fault α

def lock (m : Mutex) : Locking Unit := .tell (.lock m)

def unlock (m : Mutex) : Locking Unit := .tell (.unlock m)

def outOfSync (stored generation : BitVec 32) : StatusCode :=
  if generation < stored then .semanticError else .resourceUnavailable

theorem outOfSync_ne_success {stored generation : BitVec 32} :
    outOfSync stored generation ≠ .success := by
  unfold outOfSync
  split_ifs
  · exact StatusCode.noConfusion
  · exact StatusCode.noConfusion

def Refuses (s : Backend) (argp : ImageDownloadOp) : Prop :=
  (s.instance? argp.sid.toNat argp.inst.toNat).map (·.generation) ≠ some argp.generation

instance (s : Backend) (argp : ImageDownloadOp) : Decidable (s.Refuses argp) :=
  inferInstanceAs (Decidable (¬ _))

namespace Locking

/-- `vmwopencl_imageupload_1`. -/
def imageupload (s : Backend) (argp : ImageUploadOp) (cl : Bool) :
    Locking (StatusCode × Backend) := do
  let p ← .lift (s.locate argp.sid argp.inst)
  lock (.surface argp.sid.toNat)
  lock (.inst argp.sid.toNat argp.inst.toNat)
  if argp.generation < p.2.generation then do
    unlock (.inst argp.sid.toNat argp.inst.toNat)
    unlock (.surface argp.sid.toNat)
    return (.semanticError, s)
  else do
    let r ← .lift (s.imageupload argp cl)
    unlock (.inst argp.sid.toNat argp.inst.toNat)
    unlock (.surface argp.sid.toNat)
    return r

/-- `vmwopencl_imagedownload_1`. The path that reads does not unlock the instance. -/
def imagedownload (s : Backend) (argp : ImageDownloadOp) (cl : Bool) :
    Locking ((StatusCode × List Byte) × Backend) := do
  let p ← .lift (s.locate argp.sid argp.inst)
  lock (.surface argp.sid.toNat)
  lock (.inst argp.sid.toNat argp.inst.toNat)
  if p.2.generation ≠ argp.generation then do
    unlock (.inst argp.sid.toNat argp.inst.toNat)
    unlock (.surface argp.sid.toNat)
    return ((outOfSync p.2.generation argp.generation, []), s)
  else do
    let r ← .lift (s.imagedownload argp cl)
    unlock (.surface argp.sid.toNat)
    return r

/-- `vmwopencl_surfacemap_1`. -/
def surfacemap (s : Backend) (argp : SurfaceMapOp) (cl : Bool) :
    Locking ((StatusCode × Option HostPtr) × Backend) := do
  let p ← .lift (s.locate argp.sid argp.inst)
  lock (.surface argp.sid.toNat)
  lock (.inst argp.sid.toNat argp.inst.toNat)
  if argp.generation < p.2.generation then do
    unlock (.inst argp.sid.toNat argp.inst.toNat)
    unlock (.surface argp.sid.toNat)
    return ((.semanticError, none), s)
  else do
    let r ← .lift (s.surfacemap argp cl)
    unlock (.inst argp.sid.toNat argp.inst.toNat)
    unlock (.surface argp.sid.toNat)
    return r

/-- `vmwopencl_surfaceunmap_1`. The instance is unlocked without having been locked. -/
def surfaceunmap (s : Backend) (argp : SurfaceUnmapOp) (cl : Bool) :
    Locking (StatusCode × Backend) := do
  let _ ← .lift (s.locate argp.sid argp.inst)
  lock (.surface argp.sid.toNat)
  let r ← .lift (s.surfaceunmap argp cl)
  unlock (.inst argp.sid.toNat argp.inst.toNat)
  unlock (.surface argp.sid.toNat)
  return r

/-- `vmwopencl_surfacecopy_1`. -/
def surfacecopy (s : Backend) (argp : SurfaceCopyOp) (cl : Bool) :
    Locking (StatusCode × Backend) := do
  .lift (require (argp.dstCid = argp.srcCid))
  let src ← .lift (s.locate argp.srcSid 0)
  let dst ← .lift (s.locate argp.dstSid 0)
  lock (.surface argp.srcSid.toNat)
  lock (.surface argp.dstSid.toNat)
  lock (.inst argp.srcSid.toNat 0)
  lock (.inst argp.dstSid.toNat 0)
  if src.2.generation < argp.srcGeneration then do
    unlock (.inst argp.dstSid.toNat 0)
    unlock (.inst argp.srcSid.toNat 0)
    unlock (.surface argp.dstSid.toNat)
    unlock (.surface argp.srcSid.toNat)
    return (.resourceUnavailable, s)
  else if argp.srcGeneration < src.2.generation ∨ argp.dstGeneration < dst.2.generation then do
    unlock (.inst argp.dstSid.toNat 0)
    unlock (.inst argp.srcSid.toNat 0)
    unlock (.surface argp.dstSid.toNat)
    unlock (.surface argp.srcSid.toNat)
    return (.semanticError, s)
  else do
    let r ← .lift (s.surfacecopy argp cl)
    unlock (.inst argp.dstSid.toNat 0)
    unlock (.inst argp.srcSid.toNat 0)
    unlock (.surface argp.dstSid.toNat)
    unlock (.surface argp.srcSid.toNat)
    return r

/-- `vmwopencl_imagefill_1`. -/
def imagefill (s : Backend) (argp : ImageFillOp) (cl : Bool) : Locking (StatusCode × Backend) := do
  let p ← .lift (s.locate argp.sid 0)
  lock (.surface argp.sid.toNat)
  lock (.inst argp.sid.toNat 0)
  if p.2.generation < argp.generation then do
    unlock (.inst argp.sid.toNat 0)
    unlock (.surface argp.sid.toNat)
    return (.resourceUnavailable, s)
  else if argp.generation < p.2.generation then do
    unlock (.inst argp.sid.toNat 0)
    unlock (.surface argp.sid.toNat)
    return (.semanticError, s)
  else do
    let r ← .lift (s.imagefill argp cl)
    unlock (.inst argp.sid.toNat 0)
    unlock (.surface argp.sid.toNat)
    return r

open Logged

variable {s : Backend} {cl : Bool}

def path (sid : VMAccelId) (inst : BitVec 32) : List Mutex :=
  [.surface sid.toNat, .inst sid.toNat inst.toNat]

theorem performs_release {ρ : Type} (sid inst : ℕ) (r : ρ) :
    (do
      unlock (.inst sid inst)
      unlock (.surface sid)
      return r : Locking ρ).Performs [.unlock (.inst sid inst), .unlock (.surface sid)] (.ok r) :=
  performs_tell_bind (performs_tell_bind (performs_pure r))

theorem performs_imageupload (argp : ImageUploadOp) : (imageupload s argp cl).Performs
    (mirror (path argp.sid argp.inst)) (s.imageupload argp cl) := by
  refine performs_lift_bind (fun e he => ?_) fun p hp => ?_
  · rw [Backend.imageupload, he]
    rfl
  · refine performs_tell_bind (performs_tell_bind ?_)
    split_ifs with hgen
    · have hstale : s.imageupload argp cl = .ok (.semanticError, s) := by
        rw [Backend.imageupload, hp, ok_bind]
        exact if_pos hgen
      rw [hstale]
      exact performs_release _ _ _
    · exact performs_lift_bind_self fun r _ => performs_release _ _ r

theorem performs_surfacemap (argp : SurfaceMapOp) : (surfacemap s argp cl).Performs
    (mirror (path argp.sid argp.inst)) (s.surfacemap argp cl) := by
  refine performs_lift_bind (fun e he => ?_) fun p hp => ?_
  · rw [Backend.surfacemap, he]
    rfl
  · refine performs_tell_bind (performs_tell_bind ?_)
    split_ifs with hgen
    · have hstale : s.surfacemap argp cl = .ok ((.semanticError, none), s) := by
        rw [Backend.surfacemap, hp, ok_bind]
        exact if_pos hgen
      rw [hstale]
      exact performs_release _ _ _
    · exact performs_lift_bind_self fun r _ => performs_release _ _ r

theorem performs_imagefill (argp : ImageFillOp) : (imagefill s argp cl).Performs
    (mirror (path argp.sid 0)) (s.imagefill argp cl) := by
  refine performs_lift_bind (fun e he => ?_) fun p hp => ?_
  · rw [Backend.imagefill, he]
    rfl
  · refine performs_tell_bind (performs_tell_bind ?_)
    split_ifs with hold hgen
    · have hrefused : s.imagefill argp cl = .ok (.resourceUnavailable, s) := by
        rw [Backend.imagefill, hp, ok_bind]
        exact if_pos hold
      rw [hrefused]
      exact performs_release _ _ _
    · have hstale : s.imagefill argp cl = .ok (.semanticError, s) := by
        rw [Backend.imagefill, hp, ok_bind]
        exact (if_neg hold).trans (if_pos hgen)
      rw [hstale]
      exact performs_release _ _ _
    · exact performs_lift_bind_self fun r _ => performs_release _ _ r

theorem performs_surfacecopy (argp : SurfaceCopyOp) : (surfacecopy s argp cl).Performs
    (mirror [.surface argp.srcSid.toNat, .surface argp.dstSid.toNat, .inst argp.srcSid.toNat 0,
      .inst argp.dstSid.toNat 0]) (s.surfacecopy argp cl) := by
  refine performs_lift_bind (fun e he => ?_) fun u hu => ?_
  · rw [Backend.surfacecopy, he]
    rfl
  refine performs_lift_bind (fun e he => ?_) fun src hsrc => ?_
  · rw [Backend.surfacecopy, hu, ok_bind, he]
    rfl
  refine performs_lift_bind (fun e he => ?_) fun dst hdst => ?_
  · rw [Backend.surfacecopy, hu, ok_bind, hsrc, ok_bind, he]
    rfl
  refine performs_tell_bind (performs_tell_bind (performs_tell_bind (performs_tell_bind ?_)))
  have hends : ∀ r : StatusCode × Backend, (do
      unlock (.inst argp.dstSid.toNat 0)
      unlock (.inst argp.srcSid.toNat 0)
      unlock (.surface argp.dstSid.toNat)
      unlock (.surface argp.srcSid.toNat)
      return r : Locking _).Performs [.unlock (.inst argp.dstSid.toNat 0),
        .unlock (.inst argp.srcSid.toNat 0), .unlock (.surface argp.dstSid.toNat),
        .unlock (.surface argp.srcSid.toNat)] (.ok r) := fun r =>
    performs_tell_bind (performs_tell_bind (performs_tell_bind (performs_tell_bind
      (performs_pure r))))
  split_ifs with hold hgen
  · have hrefused : s.surfacecopy argp cl = .ok (.resourceUnavailable, s) := by
      rw [Backend.surfacecopy, hu, ok_bind, hsrc, ok_bind, hdst]
      exact if_pos hold
    rw [hrefused]
    exact hends _
  · have hstale : s.surfacecopy argp cl = .ok (.semanticError, s) := by
      rw [Backend.surfacecopy, hu, ok_bind, hsrc, ok_bind, hdst]
      exact (if_neg hold).trans (if_pos hgen)
    rw [hstale]
    exact hends _
  · exact performs_lift_bind_self fun r _ => hends r

theorem imagedownload_of_ne {argp : ImageDownloadOp}
    {p : VMAccelSurfaceDesc × VMWOpenCLSurfaceInstance} (hp : s.locate argp.sid argp.inst = .ok p)
    (hne : p.2.generation ≠ argp.generation) :
    s.imagedownload argp cl = .ok ((outOfSync p.2.generation argp.generation, []), s) := by
  rw [Backend.imagedownload, hp, outOfSync]
  split_ifs with hlt
  · exact (if_pos hne).trans (if_pos hlt)
  · exact (if_pos hne).trans (if_neg hlt)

theorem performs_imagedownload (argp : ImageDownloadOp) : (imagedownload s argp cl).Performs
    (if s.Refuses argp then mirror (path argp.sid argp.inst)
      else (path argp.sid argp.inst).map .lock ++ [.unlock (.surface argp.sid.toNat)])
    (s.imagedownload argp cl) := by
  refine performs_lift_bind (fun e he => ?_) fun p hp => ?_
  · rw [Backend.imagedownload, he]
    rfl
  · have hrefuses : s.Refuses argp ↔ p.2.generation ≠ argp.generation := by
      rw [Refuses, (locate_ok.mp hp).2]
      exact not_congr Option.some_inj
    by_cases hne : p.2.generation ≠ argp.generation
    · rw [imagedownload_of_ne hp hne, if_pos (hrefuses.mpr hne), if_pos hne]
      exact performs_tell_bind (performs_tell_bind (performs_release _ _ _))
    · rw [if_neg (mt hrefuses.mp hne), if_neg hne]
      exact performs_tell_bind (performs_tell_bind (performs_lift_bind_self fun r _ =>
        performs_tell_bind (performs_pure r)))

theorem performs_surfaceunmap (argp : SurfaceUnmapOp) : (surfaceunmap s argp cl).Performs
    [.lock (.surface argp.sid.toNat), .unlock (.inst argp.sid.toNat argp.inst.toNat),
      .unlock (.surface argp.sid.toNat)] (s.surfaceunmap argp cl) := by
  refine performs_lift_bind (fun e he => ?_) fun p _ => ?_
  · rw [Backend.surfaceunmap, he]
    rfl
  · exact performs_tell_bind (performs_lift_bind_self fun r _ => performs_release _ _ r)

end Locking

/-- The requests whose functions lock the mutexes of one or two surfaces and unlock them again. -/
inductive Guarded
  | imageupload (argp : ImageUploadOp) (cl : Bool)
  | imagedownload (argp : ImageDownloadOp) (cl : Bool)
  | surfacemap (argp : SurfaceMapOp) (cl : Bool)
  | surfaceunmap (argp : SurfaceUnmapOp) (cl : Bool)
  | surfacecopy (argp : SurfaceCopyOp) (cl : Bool)
  | imagefill (argp : ImageFillOp) (cl : Bool)

namespace Guarded

def request : Guarded → Request
  | .imageupload argp cl => .imageupload argp cl
  | .imagedownload argp cl => .imagedownload argp cl
  | .surfacemap argp cl => .surfacemap argp cl
  | .surfaceunmap argp cl => .surfaceunmap argp cl
  | .surfacecopy argp cl => .surfacecopy argp cl
  | .imagefill argp cl => .imagefill argp cl

def run (s : Backend) : Guarded → Locking Backend
  | .imageupload argp cl => do
    let r ← Locking.imageupload s argp cl
    return r.2
  | .imagedownload argp cl => do
    let r ← Locking.imagedownload s argp cl
    return r.2
  | .surfacemap argp cl => do
    let r ← Locking.surfacemap s argp cl
    return r.2
  | .surfaceunmap argp cl => do
    let r ← Locking.surfaceunmap s argp cl
    return r.2
  | .surfacecopy argp cl => do
    let r ← Locking.surfacecopy s argp cl
    return r.2
  | .imagefill argp cl => do
    let r ← Locking.imagefill s argp cl
    return r.2

/-- The operations on mutexes that the request performs when it returns. -/
def ops (s : Backend) : Guarded → List (Op Mutex)
  | .imageupload argp _ => mirror (Locking.path argp.sid argp.inst)
  | .imagedownload argp _ =>
    if s.Refuses argp then mirror (Locking.path argp.sid argp.inst)
    else (Locking.path argp.sid argp.inst).map .lock ++ [.unlock (.surface argp.sid.toNat)]
  | .surfacemap argp _ => mirror (Locking.path argp.sid argp.inst)
  | .surfaceunmap argp _ => [.lock (.surface argp.sid.toNat),
      .unlock (.inst argp.sid.toNat argp.inst.toNat), .unlock (.surface argp.sid.toNat)]
  | .surfacecopy argp _ => mirror [.surface argp.srcSid.toNat, .surface argp.dstSid.toNat,
      .inst argp.srcSid.toNat 0, .inst argp.dstSid.toNat 0]
  | .imagefill argp _ => mirror (Locking.path argp.sid 0)

theorem performs_run (s : Backend) (g : Guarded) :
    (g.run s).Performs (g.ops s) (s.step g.request) := by
  cases g with
  | imageupload argp cl => exact (Locking.performs_imageupload argp).map _
  | imagedownload argp cl => exact (Locking.performs_imagedownload argp).map _
  | surfacemap argp cl => exact (Locking.performs_surfacemap argp).map _
  | surfaceunmap argp cl => exact (Locking.performs_surfaceunmap argp).map _
  | surfacecopy argp cl => exact (Locking.performs_surfacecopy argp).map _
  | imagefill argp cl => exact (Locking.performs_imagefill argp).map _

/-- The request is no unmap, and no download that is not refused. -/
def GivesBack (s : Backend) : Guarded → Prop
  | .imagedownload argp _ => s.Refuses argp
  | .surfaceunmap _ _ => False
  | _ => True

theorem replay_ops_iff (s : Backend) (g : Guarded) (h : Mutex → ℕ) :
    replay h (g.ops s) = some h ↔ g.GivesBack s := by
  cases g with
  | imagedownload argp cl =>
    rw [ops, GivesBack]
    split_ifs with hrefuses
    · exact iff_of_true (balanced_mirror _ h) hrefuses
    · refine iff_of_false (fun hr => ?_) hrefuses
      -- the mutex of the instance is taken and not released
      have hcount := count_of_replay hr (.inst argp.sid.toNat argp.inst.toNat)
      simp [Locking.path] at hcount
  | surfaceunmap argp cl =>
    refine iff_of_false (fun hr => ?_) id
    -- and here it is released and was not taken
    have hcount := count_of_replay hr (.inst argp.sid.toNat argp.inst.toNat)
    simp [ops] at hcount
  | _ => exact iff_of_true (balanced_mirror _ h) trivial

end Guarded

/-- For every request, state of the surfaces and answer of OpenCL, and whatever the hold counts are:
if the function returns, it leaves all hold counts as they were and unlocks no mutex that is not
held, exactly if it is no unmap and no download that passes the check of the generation. -/
theorem locks_given_back_iff (s : Backend) (g : Guarded) (h : Mutex → ℕ) :
    (∀ s', (g.run s).result = .ok s' → replay h (g.run s).log = some h) ↔
      ∀ s', (g.run s).result = .ok s' → g.GivesBack s := by
  obtain ⟨hresult, hlog⟩ := g.performs_run s
  refine forall_congr' fun s' => forall_congr' fun hs => ?_
  rw [hlog s' (hresult ▸ hs), Guarded.replay_ops_iff]

def holdCount (ops : List (Op Mutex)) (m : Mutex) : Option ℕ :=
  (replay (fun _ => 0) ops).map fun h => h m

/-- A download that succeeds leaves the mutex of its instance held. An unmap unlocks this mutex
while it is not held. -/
theorem download_holds_lock :
    (do
      let s ← StepSystem.run Backend.step .powerOn [demoAlloc]
      let g : Guarded := .imagedownload ⟨1, 1, 3, 0, 0, 0, 4⟩ true
      let _ ← (g.run s).result
      return holdCount (g.run s).log (.inst 3 0)) = .ok (some 1) ∧
    (do
      let s ← StepSystem.run Backend.step .powerOn [demoAlloc, .surfacemap demoMap true]
      let g : Guarded := .surfaceunmap ⟨3, 0, 1, [1, 2, 3, 4]⟩ true
      let _ ← (g.run s).result
      return holdCount (g.run s).log (.inst 3 0)) = .ok none := by
  decide +kernel

end Backend

end VMAccel
