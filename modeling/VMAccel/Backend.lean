import VMAccel.IdentifierDB
import VMAccel.Surface

/-!
# The OpenCL backend

The surface requests of `vmwopencl_ops.c`. A surface instance holds bytes, either in an OpenCL
buffer or in shared virtual memory, and the generation of the last update. OpenCL commands take
effect atomically and in the order they are enqueued; whether a command succeeds is part of the
input, except that one that leaves its buffer never does. Each request runs as one step, so the
mutexes do not appear. Contexts and queues are only handed on to OpenCL and are left out.
-/

namespace VMAccel

structure Backend where
  surfaces : List VMWOpenCLSurface
  surfaceIds : IdentifierDB

namespace Backend

/-- `vmwopencl_poweron`. -/
def powerOn : Backend where
  surfaces := List.replicate maxSurfaces .zero
  surfaceIds := .alloc (BitVec.ofNat 32 maxSurfaces)

def setInstance (s : Backend) (sid inst : ℕ) (x : VMWOpenCLSurfaceInstance) : Backend :=
  { s with
    surfaces := s.surfaces.modify sid fun surf => { surf with inst := surf.inst.set inst x } }

/-- The surface and the instance that a request names. -/
def locate (s : Backend) (sid : VMAccelId) (inst : BitVec 32) :
    Except Fault (VMAccelSurfaceDesc × VMWOpenCLSurfaceInstance) := do
  let surf ← readAt s.surfaces sid.toNat
  let x ← readAt surf.inst inst.toNat
  return (surf.desc, x)

def newInstance (svm : Bool) (mem : List Byte) (x : VMWOpenCLSurfaceInstance) :
    VMWOpenCLSurfaceInstance :=
  { x with mem, svm, mapping := { x.mapping with refCount := 0 } }

def allocated (surf : VMWOpenCLSurface) (cid : VMAccelId) (desc : VMAccelSurfaceDesc) (svm : Bool)
    (mem : List Byte) : VMWOpenCLSurface where
  cid := cid
  desc := desc
  inst := surf.inst.map (newInstance svm mem)

def usesSvm (desc : VMAccelSurfaceDesc) (svmCapable : Bool) : Bool :=
  decide (desc.type = .buffer ∧ desc.pool = .systemMemory) && svmCapable

/-- `vmwopencl_surfacealloc_1`. `svmCapable` says whether the context is one of OpenCL 2.0 or
later, `fresh` is the undefined content of new memory. -/
def surfacealloc (s : Backend) (argp : SurfaceAllocateDesc) (svmCapable cl : Bool)
    (fresh : ℕ → Byte) : Except Fault (StatusCode × Backend) := do
  let active ← s.surfaceIds.activeId argp.sid
  if active then return (.resourceUnavailable, s)
  if argp.desc.type ≠ .buffer then
    require (argp.desc.usage = .readwrite)
    return (.fail, s)
  require (usesSvm argp.desc svmCapable ∨ argp.desc.format = .r8Typeless)
  if ¬ cl then return (.fail, s)
  let r ← s.surfaceIds.acquireId argp.sid
  require r.1
  let mem := (List.range argp.desc.width.toNat).map fresh
  let surfaces ← modifyAt s.surfaces argp.sid.toNat fun surf =>
    allocated surf argp.cid argp.desc (usesSvm argp.desc svmCapable) mem
  return (.success, { surfaces, surfaceIds := r.2 })

/-- `vmwopencl_surfacedestroy_1`. -/
def surfacedestroy (s : Backend) (sid : VMAccelId) : Except Fault (StatusCode × Backend) := do
  let active ← s.surfaceIds.activeId sid
  require active
  let surfaces ← writeAt s.surfaces sid.toNat .zero
  let surfaceIds ← s.surfaceIds.releaseId sid
  return (.success, { surfaces, surfaceIds })

/-- `clEnqueueWriteBuffer`. -/
def writeMem (argp : ImageUploadOp) (x : VMWOpenCLSurfaceInstance) (cl : Bool) :
    Option (List Byte) :=
  if cl then splice x.mem argp.offset.toNat argp.bytes else none

/-- `vmwopencl_imageupload_1`. -/
def imageupload (s : Backend) (argp : ImageUploadOp) (cl : Bool) :
    Except Fault (StatusCode × Backend) := do
  let (desc, x) ← s.locate argp.sid argp.inst
  if argp.generation < x.generation then return (.semanticError, s)
  require (argp.queueCid = argp.imgCid)
  require (desc.type = .buffer ∧ ¬ x.svm)
  match writeMem argp x cl with
  | some mem =>
    return (.success, s.setInstance argp.sid.toNat argp.inst.toNat
      { x with mem, generation := argp.generation })
  | none => return (.fail, s)

/-- `clEnqueueReadBuffer`. -/
def readMem (argp : ImageDownloadOp) (x : VMWOpenCLSurfaceInstance) (cl : Bool) :
    Option (List Byte) :=
  if cl then extract x.mem argp.offset.toNat argp.size.toNat else none

/-- `vmwopencl_imagedownload_1`: the bytes are those that the reply of a download carries that
succeeds. What other replies carry is up to the static variable of the function. -/
def imagedownload (s : Backend) (argp : ImageDownloadOp) (cl : Bool) :
    Except Fault ((StatusCode × List Byte) × Backend) := do
  let (desc, x) ← s.locate argp.sid argp.inst
  if x.generation ≠ argp.generation then
    if argp.generation < x.generation then return ((.semanticError, []), s)
    else return ((.resourceUnavailable, []), s)
  require (argp.queueCid = argp.imgCid)
  require (desc.type = .buffer ∧ ¬ x.svm)
  match readMem argp x cl with
  | some bytes => return ((.success, bytes), s)
  | none => return ((.fail, []), s)

/-- The pointer to map: that of the open mapping, the shared virtual memory after a `clFinish`
unless the mapping is asynchronous, or a new mapping of the buffer. -/
def mapPtr (argp : SurfaceMapOp) (x : VMWOpenCLSurfaceInstance) (cl : Bool) :
    Option (Option HostPtr) :=
  if x.mapping.refCount + 1 = 1 then
    if x.svm then if argp.async || cl then some (some .svm) else none
    else if cl then
      (extract x.mem argp.offset.toNat argp.size.toNat).map fun bytes =>
        some (.mapped argp.offset.toNat bytes)
    else none
  else some x.mapping.ptr

/-- `vmwopencl_surfacemap_1`. The reference count grows even when OpenCL refuses. -/
def surfacemap (s : Backend) (argp : SurfaceMapOp) (cl : Bool) :
    Except Fault ((StatusCode × Option HostPtr) × Backend) := do
  let (desc, x) ← s.locate argp.sid argp.inst
  if argp.generation < x.generation then return ((.semanticError, none), s)
  require (desc.type = .buffer)
  let refCount := x.mapping.refCount + 1
  match mapPtr argp x cl with
  | some ptr =>
    return ((.success, ptr), s.setInstance argp.sid.toNat argp.inst.toNat
      { x with mapping := ⟨ptr, refCount⟩ })
  | none =>
    return ((.fail, none), s.setInstance argp.sid.toNat argp.inst.toNat
      { x with mapping := { x.mapping with refCount } })

/-- The `memcpy` of `surfaceunmap` through the pointer of the mapping. -/
def copyIn (x : VMWOpenCLSurfaceInstance) (bytes : List Byte) :
    Except Fault VMWOpenCLSurfaceInstance :=
  match x.mapping.ptr with
  | none => if bytes = [] then .ok x else .error .outOfBounds
  | some .svm =>
    match splice x.mem 0 bytes with
    | some mem => .ok { x with mem }
    | none => .error .outOfBounds
  | some (.mapped offset old) =>
    match splice old 0 bytes with
    | some new => .ok { x with mapping := { x.mapping with ptr := some (.mapped offset new) } }
    | none => .error .outOfBounds

/-- `clEnqueueUnmapMemObject`: the mapped bytes go back into the buffer. -/
def unmapMem (x : VMWOpenCLSurfaceInstance) (cl : Bool) : Option (List Byte) :=
  match x.mapping.ptr with
  | some (.mapped offset bytes) => if cl then splice x.mem offset bytes else none
  | _ => none

/-- The end of `surfaceunmap`: the last reference takes the mapping back, and unless OpenCL refuses
that the instance gets the generation of the request. -/
def unmapped (desc : VMAccelSurfaceDesc) (y : VMWOpenCLSurfaceInstance) (generation : BitVec 32)
    (cl : Bool) : StatusCode × VMWOpenCLSurfaceInstance :=
  let refCount := y.mapping.refCount - 1
  if refCount = 0 then
    if desc.type = .buffer ∧ ¬ y.svm then
      match unmapMem y cl with
      | some mem => (.success, { y with mem, generation, mapping := ⟨none, 0⟩ })
      | none => (.fail, { y with mapping := ⟨none, 0⟩ })
    else (.success, { y with generation, mapping := ⟨none, 0⟩ })
  else (.success, { y with generation, mapping := { y.mapping with refCount } })

/-- `vmwopencl_surfaceunmap_1`. No generation is compared. -/
def surfaceunmap (s : Backend) (argp : SurfaceUnmapOp) (cl : Bool) :
    Except Fault (StatusCode × Backend) := do
  let (desc, x) ← s.locate argp.sid argp.inst
  let y ← copyIn x argp.bytes
  let r := unmapped desc y argp.generation cl
  return (r.1, s.setInstance argp.sid.toNat argp.inst.toNat r.2)

/-- `clEnqueueCopyBuffer`; a copy within one buffer must not overlap itself. -/
def copyMem (argp : SurfaceCopyOp) (src dst : VMWOpenCLSurfaceInstance) (cl : Bool) :
    Option (List Byte) :=
  if argp.srcSid = argp.dstSid ∧ argp.srcOffset.toNat < argp.dstOffset.toNat + argp.size.toNat ∧
      argp.dstOffset.toNat < argp.srcOffset.toNat + argp.size.toNat then none
  else if cl then
    (extract src.mem argp.srcOffset.toNat argp.size.toNat).bind
      (splice dst.mem argp.dstOffset.toNat)
  else none

/-- `vmwopencl_surfacecopy_1`, always on instance 0. The destination keeps its generation. -/
def surfacecopy (s : Backend) (argp : SurfaceCopyOp) (cl : Bool) :
    Except Fault (StatusCode × Backend) := do
  require (argp.dstCid = argp.srcCid)
  let (srcDesc, src) ← s.locate argp.srcSid 0
  let (dstDesc, dst) ← s.locate argp.dstSid 0
  if src.generation < argp.srcGeneration then return (.resourceUnavailable, s)
  if argp.srcGeneration < src.generation ∨ argp.dstGeneration < dst.generation then
    return (.semanticError, s)
  if src.svm ∨ dst.svm then return (.fail, s)
  require (dstDesc.type = .buffer ∧ srcDesc.type = .buffer)
  match copyMem argp src dst cl with
  | some mem => return (.success, s.setInstance argp.dstSid.toNat 0 { dst with mem })
  | none => return (.fail, s)

/-- `clEnqueueFillBuffer`: offset and size are multiples of the size of the pattern. -/
def fillMem (argp : ImageFillOp) (x : VMWOpenCLSurfaceInstance) (cl : Bool) :
    Option (List Byte) :=
  if cl ∧ argp.pattern.length ∣ argp.offset.toNat ∧ argp.pattern.length ∣ argp.size.toNat then
    splice x.mem argp.offset.toNat ((List.range argp.size.toNat).map fun j =>
      argp.pattern.getD (j % argp.pattern.length) 0)
  else none

/-- `vmwopencl_imagefill_1`, always on instance 0. -/
def imagefill (s : Backend) (argp : ImageFillOp) (cl : Bool) :
    Except Fault (StatusCode × Backend) := do
  let (desc, x) ← s.locate argp.sid 0
  if x.generation < argp.generation then return (.resourceUnavailable, s)
  if argp.generation < x.generation then return (.semanticError, s)
  if x.svm then return (.fail, s)
  require (desc.type = .buffer)
  match fillMem argp x cl with
  | some mem =>
    return (.success, s.setInstance argp.sid.toNat 0 { x with mem, generation := argp.generation })
  | none => return (.fail, s)

/-- The argument loop of `vmwopencl_dispatch_1`: the contents of the arguments, or the status of
the first argument that does not fit. -/
def collectArgs (s : Backend) : List KernelArg → Except Fault (StatusCode × List (List Byte))
  | [] => .ok (.success, [])
  | a :: args => do
    require a.isSurface
    let (_, x) ← s.locate a.sid a.inst
    if x.generation ≠ a.generation then
      if a.generation < x.generation then return (.semanticError, [])
      else return (.resourceUnavailable, [])
    if ¬ a.set then return (.fail, [])
    let r ← collectArgs s args
    return (r.1, x.mem :: r.2)

def runOn (argp : DispatchOp) (contents : List (List Byte)) (sid inst : ℕ)
    (x : VMWOpenCLSurfaceInstance) : VMWOpenCLSurfaceInstance :=
  match argp.args.findIdx? fun a => a.sid.toNat = sid ∧ a.inst.toNat = inst with
  | some k => { x with mem := (List.range x.mem.length).map (argp.kernel contents k) }
  | none => x

def runKernel (s : Backend) (argp : DispatchOp) (contents : List (List Byte)) : Backend :=
  { s with
    surfaces := s.surfaces.mapIdx fun sid surf =>
      { surf with inst := surf.inst.mapIdx (runOn argp contents sid) } }

/-- `vmwopencl_dispatch_1`. The limit of the dimension is the value of the OpenCL constant
`CL_DEVICE_MAX_WORK_ITEM_DIMENSIONS` itself. -/
def dispatch (s : Backend) (argp : DispatchOp) (cl : Bool) :
    Except Fault (StatusCode × Backend) := do
  let r ← s.collectArgs argp.args
  if r.1 ≠ .success then return (r.1, s)
  require (argp.dimension ≤ 0x1003)
  if cl then return (.success, s.runKernel argp r.2) else return (.fail, s)

/-- A request with what OpenCL answers to it. -/
inductive Request
  | surfacealloc (argp : SurfaceAllocateDesc) (svmCapable cl : Bool) (fresh : ℕ → Byte)
  | surfacedestroy (sid : VMAccelId)
  | imageupload (argp : ImageUploadOp) (cl : Bool)
  | imagedownload (argp : ImageDownloadOp) (cl : Bool)
  | surfacemap (argp : SurfaceMapOp) (cl : Bool)
  | surfaceunmap (argp : SurfaceUnmapOp) (cl : Bool)
  | surfacecopy (argp : SurfaceCopyOp) (cl : Bool)
  | imagefill (argp : ImageFillOp) (cl : Bool)
  | dispatch (argp : DispatchOp) (cl : Bool)

def step (s : Backend) : Request → Except Fault Backend
  | .surfacealloc argp svmCapable cl fresh => do
    let r ← s.surfacealloc argp svmCapable cl fresh
    return r.2
  | .surfacedestroy sid => do
    let r ← s.surfacedestroy sid
    return r.2
  | .imageupload argp cl => do
    let r ← s.imageupload argp cl
    return r.2
  | .imagedownload argp cl => do
    let r ← s.imagedownload argp cl
    return r.2
  | .surfacemap argp cl => do
    let r ← s.surfacemap argp cl
    return r.2
  | .surfaceunmap argp cl => do
    let r ← s.surfaceunmap argp cl
    return r.2
  | .surfacecopy argp cl => do
    let r ← s.surfacecopy argp cl
    return r.2
  | .imagefill argp cl => do
    let r ← s.imagefill argp cl
    return r.2
  | .dispatch argp cl => do
    let r ← s.dispatch argp cl
    return r.2

end Backend

end VMAccel
