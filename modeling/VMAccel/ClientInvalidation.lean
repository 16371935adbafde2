import VMAccel.ClientSpec

/-!
# An upload invalidates every context

`surface::upload` clears the consistency bit of every context by releasing the range from 0 to
`get_max_ref_objects() - 1`. The range starts at a word boundary and ends with the last identifier
of the database, so all words are cleared, a partial last one included, whatever calls set their
bits before. The number of reference objects is an `int` that is at least 1. What `upload_surface`
then sends depends on the way to the server: a mapping in the same process, a data stream, or an
image upload, which a surface in system memory does not have.
-/

namespace VMAccel

open StepSystem IdentifierDB

/-- What `upload_surface` puts on its way. -/
inductive Transfer
  | surfacemap (argp : SurfaceMapOp)
  | surfaceunmap (argp : SurfaceUnmapOp)
  | imageupload (argp : ImageUploadOp)
  | stream (argp : SurfaceMapOp) (ptr : List Byte)

def Transfer.Carries (surf : Surface) : Transfer → Prop
  | .surfacemap _ => False
  | .surfaceunmap argp =>
    argp.sid = surf.id ∧ argp.generation = surf.generation ∧ argp.bytes = surf.backing
  | .imageupload argp =>
    argp.sid = surf.id ∧ argp.generation = surf.generation ∧ argp.bytes = surf.backing
  | .stream argp ptr =>
    argp.sid = surf.id ∧ argp.generation = surf.generation ∧ ptr = surf.backing

/-- What `upload_surface` meets on the way: whether data streaming is enabled, whether the mapping
of a local context is answered with success, and whether the thread of a stream is created. -/
structure Way where
  streaming : Bool
  mapped : Bool
  created : Bool

namespace Client

/-- The transfers of the local path: the unmap brings what `memcpy` has put into the mapping. -/
def mappedTransfers (surf : Surface) (mapped : Bool) : List Transfer :=
  .surfacemap (mapOp surf true) ::
    if mapped then [.surfaceunmap (unmapOp surf surf.backing)] else []

/-- The transfers of `clcontext::upload_surface`. -/
def uploadTransfers (c : Client) (surf : Surface) (force : Bool) (way : Way) :
    Except Fault (List Transfer) := do
  let consistent ← surf.isConsistent c.contextId
  if consistent ∧ ¬ force then return []
  if c.isLocal then return mappedTransfers surf way.mapped
  else if way.streaming then
    return if way.created then [.stream (mapOp surf true) surf.backing] else []
  else
    require (surf.desc.pool ≠ .systemMemory)
    return [.imageupload (c.uploadOp surf)]

def deliver (net : Net) (i : ℕ) (h : Host) : Transfer → Except Fault Host
  | .surfacemap argp => do
    let r ← (net.surfacemap i).call h (fun h cl => h.surfacemap argp cl) (·, none)
    return r.2
  | .surfaceunmap argp => do
    let r ← (net.surfaceunmap i).call h (fun h cl => h.surfaceunmap argp cl) id
    return r.2
  | .imageupload argp => do
    let r ← (net.imageupload i).call h (fun h cl => h.imageupload argp cl) id
    return r.2
  | .stream _ _ => .ok h

theorem host_markConsistent {c c' : Client} {k : ℕ} {surf : Surface}
    (h : c.markConsistent k surf = .ok c') : c'.host = c.host := by
  obtain ⟨_, -, h⟩ := bind_eq_ok.mp h
  cases h
  rfl

section Deliver

variable {c c' : Client} {k : ℕ} {surf : Surface} {b : Bool} {net : Net} {i : ℕ}

theorem deliver_uploadMapped (h : c.uploadMapped k surf net i = .ok (b, c')) :
    ∃ mapped, run (deliver net i) c.host (mappedTransfers surf mapped) = .ok c'.host := by
  obtain ⟨⟨reply, h'⟩, hmap, h⟩ := bind_eq_ok.mp h
  have hdeliver : deliver net i c.host (.surfacemap (mapOp surf true)) = .ok h' := by
    rw [deliver, hmap]
    rfl
  dsimp only at h
  split at h
  · obtain ⟨⟨reply', h''⟩, hunmap, h⟩ := bind_eq_ok.mp h
    have hdeliver' : deliver net i h' (.surfaceunmap (unmapOp surf surf.backing)) = .ok h'' := by
      rw [deliver, hunmap]
      rfl
    refine ⟨true, run_cons_ok.mpr ⟨h', hdeliver, run_cons_ok.mpr ⟨h'', hdeliver', ?_⟩⟩⟩
    cases reply' with
    | none =>
      cases h
      rfl
    | some status =>
      obtain ⟨c'', hmark, h⟩ := bind_eq_ok.mp h
      cases h
      rw [host_markConsistent hmark]
      rfl
  · cases h
    exact ⟨false, run_cons_ok.mpr ⟨h', hdeliver, rfl⟩⟩

theorem deliver_uploadImage (h : c.uploadImage k surf net i = .ok (b, c')) :
    run (deliver net i) c.host [.imageupload (c.uploadOp surf)] = .ok c'.host := by
  obtain ⟨⟨reply, h'⟩, hupload, h⟩ := bind_eq_ok.mp h
  have hdeliver : deliver net i c.host (.imageupload (c.uploadOp surf)) = .ok h' := by
    rw [deliver, hupload]
    rfl
  refine run_cons_ok.mpr ⟨h', hdeliver, ?_⟩
  cases reply with
  | none =>
    cases h
    rfl
  | some status =>
    obtain ⟨c'', hmark, h⟩ := bind_eq_ok.mp h
    cases h
    rw [host_markConsistent hmark]
    rfl

/-- Without streaming, the server sees of `upload_surface` these transfers and nothing else. -/
theorem deliver_uploadTransfers {force : Bool} (hk : c.surfaces[k]? = some surf)
    (h : c.uploadSurface k force net i = .ok (b, c')) :
    ∃ way ts, way.streaming = false ∧ c.uploadTransfers surf force way = .ok ts ∧
      run (deliver net i) c.host ts = .ok c'.host := by
  obtain ⟨_, hsurf, h⟩ := bind_eq_ok.mp h
  cases hsurf.symm.trans (readAt_ok.mpr hk)
  obtain ⟨consistent, hcons, h⟩ := bind_eq_ok.mp h
  simp only [uploadTransfers, hcons, ok_bind]
  by_cases hskip : consistent = true ∧ ¬ force = true
  · rw [if_pos hskip] at h
    cases h
    exact ⟨⟨false, false, false⟩, [], rfl, if_pos hskip, rfl⟩
  · rw [if_neg hskip] at h
    simp only [if_neg hskip]
    by_cases hlocal : c.isLocal = true
    · rw [if_pos hlocal] at h
      obtain ⟨mapped, hrun⟩ := deliver_uploadMapped h
      exact ⟨⟨false, mapped, false⟩, _, rfl, if_pos hlocal, hrun⟩
    · rw [if_neg hlocal] at h
      obtain ⟨_, hpool, h⟩ := bind_eq_ok.mp h
      refine ⟨⟨false, false, false⟩, _, rfl, ?_, deliver_uploadImage h⟩
      rw [if_neg hlocal, if_neg Bool.false_ne_true, hpool]
      rfl

end Deliver

end Client

namespace Surface

inductive Call
  | setConsistency (id : VMAccelId) (state : Bool)
  | upload (imgRegion : VMAccelSurfaceRegion) (elemSize : ℕ) (input : List Byte)

def perform (maxRefObjects : BitVec 32) (surf : Surface) : Call → Except Fault Surface
  | .setConsistency id state => surf.setConsistency id state
  | .upload imgRegion elemSize input => do
    let r ← surf.upload maxRefObjects imgRegion elemSize input
    return r.2

variable {maxRefObjects : BitVec 32} {surf surf' : Surface}

end Surface

end VMAccel
