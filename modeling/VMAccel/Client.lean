import VMAccel.ClientSurface

/-!
# The context of a client

The methods of `clcontext` and `compute::operation` in `vmaccel_compute.hpp` that move the content
of surfaces between the application and the server. With `isLocal` there is no RPC client and the
backend runs in the same process; otherwise data streaming is off. Each call runs to its end before
the next one starts.
-/

namespace VMAccel

open StepSystem

/-- `RETRY_MAX_COUNT`. -/
def retryMaxCount : ℕ := 100

/-- `compute::operation` once it is prepared. The bindings are indices of surfaces. -/
structure Operation where
  bindings : List ℕ
  kernel : List (List Byte) → ℕ → ℕ → Byte
  kernelArgs : List KernelArg
  dispatched : Bool
  quiesced : Bool

/-- `svmCapable` tells whether the context on the server is one of OpenCL 2.0 or later. -/
structure Client where
  isLocal : Bool
  contextId : VMAccelId
  svmCapable : Bool
  maxRefObjects : BitVec 32
  residencyDB : IdentifierDB
  surfaces : List Surface
  operations : List Operation
  host : Host

namespace Client

/-- `clcontext::alloc_surface`, as the request number `i` of its call. -/
def allocSurface (c : Client) (k : ℕ) (net : Net) (i : ℕ) : Except Fault (Bool × Client) := do
  let surf ← readAt c.surfaces k
  let resident ← c.residencyDB.activeId surf.id
  if resident then return (true, c)
  require (surf.desc.format = .r8Typeless)
  let r ← (net.surfacealloc i).call c.host
    (fun h cl => h.surfacealloc ⟨c.contextId, surf.id, surf.desc⟩ c.svmCapable cl (net.fresh i)) id
  match r.1 with
  | none => return (false, { c with host := r.2 })
  | some _ =>
    let q ← c.residencyDB.acquireId surf.id
    return (true, { c with host := r.2, residencyDB := q.2 })

def uploadOp (c : Client) (surf : Surface) : ImageUploadOp where
  queueCid := c.contextId
  imgCid := c.contextId
  sid := surf.id
  inst := 0
  generation := surf.generation
  offset := 0
  bytes := surf.backing

def downloadOp (c : Client) (surf : Surface) : ImageDownloadOp where
  queueCid := c.contextId
  imgCid := c.contextId
  sid := surf.id
  inst := 0
  generation := surf.generation
  offset := 0
  size := surf.desc.width

def mapOp (surf : Surface) (async : Bool) : SurfaceMapOp where
  sid := surf.id
  inst := 0
  generation := surf.generation
  offset := 0
  size := surf.desc.width
  async := async

def unmapOp (surf : Surface) (bytes : List Byte) : SurfaceUnmapOp where
  sid := surf.id
  inst := 0
  generation := surf.generation
  bytes := bytes

def markConsistent (c : Client) (k : ℕ) (surf : Surface) : Except Fault Client := do
  let surf ← surf.setConsistency c.contextId true
  return { c with surfaces := c.surfaces.set k surf }

/-- The image upload of `upload_surface`. Any reply marks the surface consistent. -/
def uploadImage (c : Client) (k : ℕ) (surf : Surface) (net : Net) (i : ℕ) :
    Except Fault (Bool × Client) := do
  let r ← (net.imageupload i).call c.host (fun h cl => h.imageupload (c.uploadOp surf) cl) id
  let c := { c with host := r.2 }
  match r.1 with
  | none => return (true, c)
  | some _ =>
    let c ← c.markConsistent k surf
    return (true, c)

/-- The local path of `upload_surface` through a mapping. The unmap copies the bytes of the backing
once more to where `memcpy` has put them, so it carries them here. -/
def uploadMapped (c : Client) (k : ℕ) (surf : Surface) (net : Net) (i : ℕ) :
    Except Fault (Bool × Client) := do
  let r ← (net.surfacemap i).call c.host (fun h cl => h.surfacemap (mapOp surf true) cl) (·, none)
  match r.1 with
  | some (.success, _) =>
    let q ← (net.surfaceunmap i).call r.2
      (fun h cl => h.surfaceunmap (unmapOp surf surf.backing) cl) id
    let c := { c with host := q.2 }
    match q.1 with
    | none => return (false, c)
    | some _ =>
      let c ← c.markConsistent k surf
      return (true, c)
  | _ => return (true, { c with host := r.2 })

/-- `clcontext::upload_surface`. A surface in system memory has no upload path over RPC. -/
def uploadSurface (c : Client) (k : ℕ) (force : Bool) (net : Net) (i : ℕ) :
    Except Fault (Bool × Client) := do
  let surf ← readAt c.surfaces k
  let consistent ← surf.isConsistent c.contextId
  if consistent ∧ ¬ force then return (true, c)
  if c.isLocal then c.uploadMapped k surf net i
  else
    require (surf.desc.pool ≠ .systemMemory)
    c.uploadImage k surf net i

/-- The map and unmap of `download_surface`. -/
def downloadMapped (c : Client) (k : ℕ) (surf : Surface) (net : Net) (i : ℕ) :
    Except Fault (Bool × Client) := do
  require (surf.desc.format = .r8Typeless)
  let r ← (net.surfacemap i).call c.host (fun h cl => h.surfacemap (mapOp surf false) cl) (·, none)
  match r.1 with
  | some (.success, ptr) =>
    let bytes ← r.2.deref surf.id surf.desc.width.toNat ptr
    let c := { c with surfaces := c.surfaces.set k (surf.memcpyIn bytes) }
    let q ← (net.surfaceunmap i).call r.2 (fun h cl => h.surfaceunmap (unmapOp surf bytes) cl) id
    return (q.1.isSome, { c with host := q.2 })
  | _ => return (true, { c with host := r.2 })

/-- The image download of `download_surface`. Locally the bytes are read straight into the backing;
over RPC the reply is dropped. -/
def downloadImage (c : Client) (k : ℕ) (surf : Surface) (net : Net) (i : ℕ) :
    Except Fault (Bool × Client) := do
  let r ← (net.imagedownload i).call c.host (fun h cl => h.imagedownload (c.downloadOp surf) cl)
    (·, [])
  let c := { c with host := r.2 }
  match c.isLocal, r.1 with
  | true, some (.success, bytes) =>
    return (true, { c with surfaces := c.surfaces.set k (surf.memcpyIn bytes) })
  | _, _ => return (true, c)

/-- `clcontext::download_surface`. -/
def downloadSurface (c : Client) (k : ℕ) (force imgDownload : Bool) (net : Net) (i : ℕ) :
    Except Fault (Bool × Client) := do
  let surf ← readAt c.surfaces k
  if ¬ imgDownload ∧ (surf.desc.usage ≠ .readonly ∨ force) then c.downloadMapped k surf net i
  else if imgDownload then c.downloadImage k surf net i
  else return (true, c)

def unsetArg : KernelArg := ⟨false, invalidId, 0, 0, false⟩

/-- `prepareComputeSurfaceArgs` for argument `i`, bound to surface `k`. -/
def prepareArg (net : Net) (p : Client × List KernelArg) (b : ℕ × ℕ) :
    Except Fault (Client × List KernelArg) := do
  let (k, i) := b
  let r ← p.1.allocSurface k net i
  if ¬ r.1 then return (r.2, p.2 ++ [unsetArg])
  let q ← r.2.uploadSurface k false net i
  if ¬ q.1 then return (q.2, p.2 ++ [unsetArg])
  let surf ← readAt q.2.surfaces k
  return (q.2, p.2 ++ [⟨true, surf.id, 0, surf.generation, net.argSet i⟩])

/-- The tries of `operation::dispatch`, with `n` left from number `t` on. -/
def submit (argp : DispatchOp) (net : Net) : Client → ℕ → ℕ → Except Fault (StatusCode × Client)
  | c, 0, _ => .ok (.resourceUnavailable, c)
  | c, n + 1, t => do
    let r ← (net.dispatch t).call c.host (fun h cl => h.dispatch argp cl) id
    let c := { c with host := r.2 }
    match r.1 with
    | none | some .resourceUnavailable => submit argp net c n (t + 1)
    | some status => return (status, c)

/-- `operation::dispatch`. -/
def dispatch (c : Client) (o : ℕ) (force : Bool) (net : Net) :
    Except Fault (StatusCode × Client) := do
  let op ← readAt c.operations o
  if op.dispatched ∧ ¬ force then return (.fail, c)
  let p ← run (prepareArg net) (c, []) op.bindings.zipIdx
  let r ← submit ⟨p.2, 1, op.kernel⟩ net p.1 retryMaxCount 0
  let dispatched := op.dispatched || decide (r.1 = .success)
  return (r.1,
    { r.2 with operations := r.2.operations.set o { op with kernelArgs := p.2, dispatched } })

/-- `quiesceComputeSurfaceArgs`; `ENABLE_IMAGE_DOWNLOAD` is 0. -/
def quiesceArg (net : Net) (c : Client) (b : (ℕ × KernelArg) × ℕ) : Except Fault Client := do
  let ((k, arg), i) := b
  if arg.sid = invalidId then return c
  let r ← c.downloadSurface k false false net i
  return r.2

/-- `operation::quiesce`. -/
def quiesce (c : Client) (o : ℕ) (net : Net) : Except Fault (StatusCode × Client) := do
  let op ← readAt c.operations o
  if op.quiesced then return (.success, c)
  if ¬ op.dispatched then return (.fail, c)
  let c ← run (quiesceArg net) c (op.bindings.zip op.kernelArgs).zipIdx
  return (.success, { c with operations := c.operations.set o { op with quiesced := true } })

/-- `surface::upload` on the surface `k`, which is traced when it stores the bytes. -/
def upload (c : Client) (k : ℕ) (imgRegion : VMAccelSurfaceRegion) (elemSize : ℕ)
    (input : List Byte) : Except Fault (StatusCode × Client) := do
  let surf ← readAt c.surfaces k
  let r ← surf.upload c.maxRefObjects imgRegion elemSize input
  let trace := if r.1 = .success then .updated surf.id r.2.backing :: c.host.trace
    else c.host.trace
  return (r.1, { c with surfaces := c.surfaces.set k r.2, host := { c.host with trace } })

/-- `operation::prepare` of a new operation. -/
def prepare (c : Client) (bindings : List ℕ) (kernel : List (List Byte) → ℕ → ℕ → Byte) : Client :=
  { c with operations := c.operations ++ [⟨bindings, kernel, [], false, false⟩] }

/-- The calls that send content to the server. -/
inductive Call
  | upload (k : ℕ) (imgRegion : VMAccelSurfaceRegion) (elemSize : ℕ) (input : List Byte)
  | allocSurface (k : ℕ) (net : Net)
  | uploadSurface (k : ℕ) (force : Bool) (net : Net)
  | prepare (bindings : List ℕ) (kernel : List (List Byte) → ℕ → ℕ → Byte)
  | dispatch (o : ℕ) (force : Bool) (net : Net)

def perform (c : Client) : Call → Except Fault Client
  | .upload k imgRegion elemSize input => do
    let r ← c.upload k imgRegion elemSize input
    return r.2
  | .allocSurface k net => do
    let r ← c.allocSurface k net 0
    return r.2
  | .uploadSurface k force net => do
    let r ← c.uploadSurface k force net 0
    return r.2
  | .prepare bindings kernel => .ok (c.prepare bindings kernel)
  | .dispatch o force net => do
    let r ← c.dispatch o force net
    return r.2

/-- All calls, with those that take content back from the server. -/
inductive Action
  | call (a : Call)
  | downloadSurface (k : ℕ) (force imgDownload : Bool) (net : Net)
  | quiesce (o : ℕ) (net : Net)

def step (c : Client) : Action → Except Fault Client
  | .call a => c.perform a
  | .downloadSurface k force imgDownload net => do
    let r ← c.downloadSurface k force imgDownload net 0
    return r.2
  | .quiesce o net => do
    let r ← c.quiesce o net
    return r.2

/-- The surfaces of a client, constructed one after the other. -/
def constructSurfaces (refObjectDB : IdentifierDB) :
    List (VMAccelSurfaceDesc × (ℕ → Byte)) → Except Fault (List Surface)
  | [] => .ok []
  | d :: ds => do
    let r ← Surface.construct refObjectDB d.1 d.2
    let surfs ← constructSurfaces r.2 ds
    return r.1 :: surfs

/-- A new context of an accelerator with these surfaces, on a server that has just been started. -/
def start (isLocal : Bool) (contextId : VMAccelId) (svmCapable : Bool) (maxRefObjects : BitVec 32)
    (surfaces : List Surface) : Client where
  isLocal := isLocal
  contextId := contextId
  svmCapable := svmCapable
  maxRefObjects := maxRefObjects
  residencyDB := .alloc maxRefObjects
  surfaces := surfaces
  operations := []
  host := .powerOn

end Client

end VMAccel
