import VMAccel.Backend

/-!
# The VMCL server

All requests that `vmcl_rpc_server.c` hands on to `vmwopencl_ops.c`, over the tables for contexts,
queues and kernels as well as the surfaces of `Backend`. Each table has its own identifier
database. What OpenCL finds and grants is part of a request; a command on a queue or context that
is `NULL` fails. The queue and the kernel are only told apart by the context that they were created
for. The layer for RPC does nothing but to refuse the flag `VMACCEL_MAP_NO_FREE_PTR_FLAG`.
-/

namespace VMAccel

/-- `VMCL_MAX_CONTEXTS`. -/
def maxContexts : ℕ := 32

/-- `VMCL_MAX_QUEUES`. -/
def maxQueues : ℕ := 32

/-- `VMCL_MAX_KERNELS`. -/
def maxKernels : ℕ := 32

/-- `VMCL_MAX_SUBDEVICES`, the size of `deviceIds`. -/
def maxSubDevices : ℕ := 32

/-- `VMACCEL_SELECT_MAX`. -/
def selectMax : ℕ := 4

inductive KernelLanguage
  | openclC10
  | openclC11
  | openclC12
  | openclC20
  | openclCpp10
  | spirv10
  | spirv11
  | spirv12
  | other
  deriving DecidableEq

/-- `context` is `NULL` or has this many devices. -/
structure VMWOpenCLContext where
  context : Option ℕ
  majorVersion : ℕ
  minorVersion : ℕ
  deriving DecidableEq

def VMWOpenCLContext.zero : VMWOpenCLContext := ⟨none, 0, 0⟩

structure ContextAllocateDesc where
  clientId : VMAccelId
  selectionMask : BitVec 32
  numSubDevices : BitVec 32
  requiredCaps : BitVec 32

structure VMCLSurfaceId where
  cid : VMAccelId
  id : VMAccelId

structure VMCLKernelId where
  cid : VMAccelId
  id : VMAccelId

structure QueueAllocateDesc where
  client : VMCLQueueId
  subDevice : BitVec 32

structure KernelAllocateDesc where
  client : VMCLKernelId
  subDevice : BitVec 32
  language : KernelLanguage

/-- A platform of the host: the version that it states, if any, whether it states a name, and for
each type of device whether there are devices and whether a context can be created for them. -/
structure Platform where
  version : Option (ℕ × ℕ)
  name : Bool
  devices : ℕ → Bool
  createContext : ℕ → Bool

/-- The queues and kernels are given by the context of the request that created them. -/
structure Server where
  contexts : List VMWOpenCLContext
  contextIds : IdentifierDB
  queues : List (Option VMAccelId)
  queueIds : IdentifierDB
  kernels : List (Option VMAccelId)
  kernelIds : IdentifierDB
  backend : Backend

/-- A table entry is taken: `IdentifierDB_AcquireId` is asserted to succeed. -/
def occupy {α : Type} (entries : List α) (ids : IdentifierDB) (id : VMAccelId) (a : α) :
    Except Fault (List α × IdentifierDB) := do
  let r ← ids.acquireId id
  require r.1
  let entries ← writeAt entries id.toNat a
  return (entries, r.2)

def vacate {α : Type} (entries : List α) (ids : IdentifierDB) (id : VMAccelId) (zero : α) :
    Except Fault (List α × IdentifierDB) := do
  let entries ← writeAt entries id.toNat zero
  let ids ← ids.releaseId id
  return (entries, ids)

namespace Server

/-- The tables of `vmwopencl_poweron`. -/
def powerOn : Server where
  contexts := List.replicate maxContexts .zero
  contextIds := .alloc (BitVec.ofNat 32 maxContexts)
  queues := List.replicate maxQueues none
  queueIds := .alloc (BitVec.ofNat 32 maxQueues)
  kernels := List.replicate maxKernels none
  kernelIds := .alloc (BitVec.ofNat 32 maxKernels)
  backend := .powerOn

/-- `MAX(1, argp->numSubDevices)`. -/
def numSubDevices (argp : ContextAllocateDesc) : ℕ := max 1 argp.numSubDevices.toNat

/-- The checks for `VMCL_SPIRV_1_0_CAP` and for `VMCL_SPIRV_1_1_CAP` and `VMCL_SPIRV_1_2_CAP`. -/
def hasCaps (requiredCaps : BitVec 32) (major minor : ℕ) : Prop :=
  ¬ (requiredCaps.getLsbD 2 ∧ (major < 2 ∨ minor < 1)) ∧
    ¬ ((requiredCaps.getLsbD 3 ∨ requiredCaps.getLsbD 4) ∧ (major < 2 ∨ minor < 2))

instance (requiredCaps : BitVec 32) (major minor : ℕ) :
    Decidable (hasCaps requiredCaps major minor) := inferInstanceAs (Decidable (_ ∧ _))

/-- The loop over the types of devices of one platform. It queries the name of each of the
`numSubDevices` entries of `deviceIds`. -/
def selectDevice (argp : ContextAllocateDesc) (p : Platform) : List ℕ → Except Fault Bool
  | [] => .ok false
  | j :: js =>
    if argp.selectionMask.getLsbD j ∧ p.devices j then
      if maxSubDevices < numSubDevices argp then .error .outOfBounds
      else if p.createContext j then .ok true
      else selectDevice argp p js
    else selectDevice argp p js

def selectPlatform (argp : ContextAllocateDesc) : List Platform → Except Fault (Option (ℕ × ℕ))
  | [] => .ok none
  | p :: ps =>
    match p.version with
    | none => selectPlatform argp ps
    | some (major, minor) =>
      if hasCaps argp.requiredCaps major minor ∧ p.name then do
        let found ← selectDevice argp p (List.range selectMax)
        if found then return some (major, minor) else selectPlatform argp ps
      else selectPlatform argp ps

/-- `vmwopencl_contextalloc_1`. -/
def contextalloc (s : Server) (argp : ContextAllocateDesc) (platforms : List Platform) :
    Except Fault (StatusCode × Server) := do
  let active ← s.contextIds.activeId argp.clientId
  if active then return (.resourceUnavailable, s)
  let version ← selectPlatform argp platforms
  match version with
  | none => return (.resourceUnavailable, s)
  | some (major, minor) =>
    let r ← occupy s.contexts s.contextIds argp.clientId ⟨some (numSubDevices argp), major, minor⟩
    return (.success, { s with contexts := r.1, contextIds := r.2 })

/-- `vmwopencl_contextdestroy_1`. The identifier is released whether it is active or not. -/
def contextdestroy (s : Server) (cid : VMAccelId) : Except Fault (StatusCode × Server) := do
  let active ← s.contextIds.activeId cid
  let contexts ← (if active then
    modifyAt s.contexts cid.toNat fun ctx => { ctx with context := none }
    else .ok s.contexts : Except Fault (List VMWOpenCLContext))
  let contextIds ← s.contextIds.releaseId cid
  return (.success, { s with contexts, contextIds })

/-- `vmwopencl_surfacealloc_1`, with the context that it reads first. -/
def surfacealloc (s : Server) (argp : SurfaceAllocateDesc) (cl : Bool) (fresh : ℕ → Byte) :
    Except Fault (StatusCode × Server) := do
  let ctx ← readAt s.contexts argp.cid.toNat
  let r ← s.backend.surfacealloc argp (decide (2 ≤ ctx.majorVersion)) (cl && ctx.context.isSome)
    fresh
  return (r.1, { s with backend := r.2 })

/-- `clSVMFree` is called with the context of the surface. -/
def svmContext (s : Server) (surf : VMWOpenCLSurface) : Except Fault Unit :=
  if surf.inst.any (·.svm) then do
    let _ ← readAt s.contexts surf.cid.toNat
    return ()
  else .ok ()

/-- `vmwopencl_surfacedestroy_1`. -/
def surfacedestroy (s : Server) (argp : VMCLSurfaceId) : Except Fault (StatusCode × Server) := do
  let surf ← readAt s.backend.surfaces argp.id.toNat
  let r ← s.backend.surfacedestroy argp.id
  s.svmContext surf
  return (r.1, { s with backend := r.2 })

/-- `vmwopencl_queuealloc_1`. -/
def queuealloc (s : Server) (argp : QueueAllocateDesc) (cl : Bool) :
    Except Fault (StatusCode × Server) := do
  let ctx ← readAt s.contexts argp.client.cid.toNat
  let active ← s.queueIds.activeId argp.client.id
  if active then return (.resourceUnavailable, s)
  if ctx.context.getD 0 ≤ argp.subDevice.toNat ∨ ¬ cl then return (.fail, s)
  let r ← occupy s.queues s.queueIds argp.client.id (some argp.client.cid)
  return (.success, { s with queues := r.1, queueIds := r.2 })

/-- `vmwopencl_queuedestroy_1`. -/
def queuedestroy (s : Server) (argp : VMCLQueueId) : Except Fault (StatusCode × Server) := do
  let active ← s.queueIds.activeId argp.id
  require active
  let r ← vacate s.queues s.queueIds argp.id none
  return (.success, { s with queues := r.1, queueIds := r.2 })

/-- `vmwopencl_queueflush_1`. -/
def queueflush (s : Server) (argp : VMCLQueueId) (cl : Bool) :
    Except Fault (StatusCode × Server) := do
  let queue ← readAt s.queues argp.id.toNat
  return (if cl && queue.isSome then .success else .fail, s)

def command {ρ : Type} (s : Server) (queue : VMCLQueueId) (cl : Bool)
    (op : Bool → Except Fault (ρ × Backend)) : Except Fault (ρ × Server) := do
  let q ← readAt s.queues queue.id.toNat
  let r ← op (cl && q.isSome)
  return (r.1, { s with backend := r.2 })

def imageupload (s : Server) (queue : VMCLQueueId) (argp : ImageUploadOp) (cl : Bool) :
    Except Fault (StatusCode × Server) :=
  s.command queue cl fun cl => s.backend.imageupload argp cl

def imagedownload (s : Server) (queue : VMCLQueueId) (argp : ImageDownloadOp) (cl : Bool) :
    Except Fault ((StatusCode × List Byte) × Server) :=
  s.command queue cl fun cl => s.backend.imagedownload argp cl

/-- `vmcl_surfacemap_2_svc` over RPC. -/
def surfacemap (s : Server) (queue : VMCLQueueId) (argp : SurfaceMapOp) (noFreePtr cl : Bool) :
    Except Fault ((StatusCode × Option HostPtr) × Server) :=
  if noFreePtr then .ok ((.fail, none), s)
  else s.command queue cl fun cl => s.backend.surfacemap argp cl

/-- `vmcl_surfaceunmap_2_svc` over RPC. -/
def surfaceunmap (s : Server) (queue : VMCLQueueId) (argp : SurfaceUnmapOp) (noFreePtr cl : Bool) :
    Except Fault (StatusCode × Server) :=
  if noFreePtr then .ok (.fail, s)
  else s.command queue cl fun cl => s.backend.surfaceunmap argp cl

def surfacecopy (s : Server) (queue : VMCLQueueId) (argp : SurfaceCopyOp) (cl : Bool) :
    Except Fault (StatusCode × Server) :=
  s.command queue cl fun cl => s.backend.surfacecopy argp cl

def imagefill (s : Server) (queue : VMCLQueueId) (argp : ImageFillOp) (cl : Bool) :
    Except Fault (StatusCode × Server) :=
  s.command queue cl fun cl => s.backend.imagefill argp cl

/-- The languages that `vmwopencl_kernelalloc_1` has a branch for, with headers of OpenCL 2.2. -/
def Supported (ctx : VMWOpenCLContext) (language : KernelLanguage) : Prop :=
  match language with
  | .openclC10 | .openclC11 | .openclC12 => True
  | .openclC20 | .openclCpp10 | .spirv11 | .spirv12 => 2 ≤ ctx.majorVersion ∧ 2 ≤ ctx.minorVersion
  | .spirv10 => 2 ≤ ctx.majorVersion ∧ 1 ≤ ctx.minorVersion
  | .other => False

instance (ctx : VMWOpenCLContext) (language : KernelLanguage) :
    Decidable (Supported ctx language) := by
  unfold Supported
  split <;> infer_instance

/-- `contexts[cid].deviceIds[subDevice]`, of which only the bound matters. -/
def deviceId (subDevice : BitVec 32) : Except Fault Unit :=
  if subDevice.toNat < maxSubDevices then .ok () else .error .outOfBounds

/-- `vmwopencl_kernelalloc_1`; `cl` says whether the program and the kernel can be created. -/
def kernelalloc (s : Server) (argp : KernelAllocateDesc) (cl : Bool) :
    Except Fault (StatusCode × Server) := do
  let ctx ← readAt s.contexts argp.client.cid.toNat
  deviceId argp.subDevice
  let active ← s.kernelIds.activeId argp.client.id
  if active then return (.resourceUnavailable, s)
  require (Supported ctx argp.language)
  if ¬ (cl && ctx.context.isSome) then return (.fail, s)
  let r ← occupy s.kernels s.kernelIds argp.client.id (some argp.client.cid)
  return (.success, { s with kernels := r.1, kernelIds := r.2 })

/-- `vmwopencl_kerneldestroy_1`, the only destruction that leaves an inactive identifier alone. -/
def kerneldestroy (s : Server) (argp : VMCLKernelId) : Except Fault (StatusCode × Server) := do
  let active ← s.kernelIds.activeId argp.id
  if ¬ active then return (.success, s)
  let r ← vacate s.kernels s.kernelIds argp.id none
  return (.success, { s with kernels := r.1, kernelIds := r.2 })

def setArgs (kernel : Option VMAccelId) (argp : DispatchOp) : DispatchOp :=
  { argp with args := argp.args.map fun a => { a with set := a.set && kernel.isSome } }

/-- `vmwopencl_dispatch_1`. The loop that unlocks the arguments starts at the first one even when
there is none, because `args_len - 1` is unsigned. -/
def dispatch (s : Server) (queue : VMCLQueueId) (kernel : VMCLKernelId) (argp : DispatchOp)
    (cl : Bool) : Except Fault (StatusCode × Server) := do
  let q ← readAt s.queues queue.id.toNat
  let k ← readAt s.kernels kernel.id.toNat
  let r ← s.backend.dispatch (setArgs k argp) (cl && q.isSome && k.isSome)
  let _ ← readAt argp.args 0
  return (r.1, { s with backend := r.2 })

/-- A request with what OpenCL answers to it. -/
inductive Request
  | contextalloc (argp : ContextAllocateDesc) (platforms : List Platform)
  | contextdestroy (cid : VMAccelId)
  | surfacealloc (argp : SurfaceAllocateDesc) (cl : Bool) (fresh : ℕ → Byte)
  | surfacedestroy (argp : VMCLSurfaceId)
  | queuealloc (argp : QueueAllocateDesc) (cl : Bool)
  | queuedestroy (argp : VMCLQueueId)
  | queueflush (argp : VMCLQueueId) (cl : Bool)
  | imageupload (queue : VMCLQueueId) (argp : ImageUploadOp) (cl : Bool)
  | imagedownload (queue : VMCLQueueId) (argp : ImageDownloadOp) (cl : Bool)
  | surfacemap (queue : VMCLQueueId) (argp : SurfaceMapOp) (noFreePtr cl : Bool)
  | surfaceunmap (queue : VMCLQueueId) (argp : SurfaceUnmapOp) (noFreePtr cl : Bool)
  | surfacecopy (queue : VMCLQueueId) (argp : SurfaceCopyOp) (cl : Bool)
  | imagefill (queue : VMCLQueueId) (argp : ImageFillOp) (cl : Bool)
  | kernelalloc (argp : KernelAllocateDesc) (cl : Bool)
  | kerneldestroy (argp : VMCLKernelId)
  | dispatch (queue : VMCLQueueId) (kernel : VMCLKernelId) (argp : DispatchOp) (cl : Bool)

def Request.cids : Request → List VMAccelId
  | .contextalloc argp _ => [argp.clientId]
  | .contextdestroy cid => [cid]
  | .surfacealloc argp _ _ => [argp.cid]
  | .surfacedestroy argp => [argp.cid]
  | .queuealloc argp _ => [argp.client.cid]
  | .queuedestroy argp => [argp.cid]
  | .queueflush argp _ => [argp.cid]
  | .imageupload queue argp _ => [queue.cid, argp.queueCid, argp.imgCid]
  | .imagedownload queue argp _ => [queue.cid, argp.queueCid, argp.imgCid]
  | .surfacemap queue _ _ _ => [queue.cid]
  | .surfaceunmap queue _ _ _ => [queue.cid]
  | .surfacecopy queue argp _ => [queue.cid, argp.dstCid, argp.srcCid]
  | .imagefill queue _ _ => [queue.cid]
  | .kernelalloc argp _ => [argp.client.cid]
  | .kerneldestroy argp => [argp.cid]
  | .dispatch queue kernel _ _ => [queue.cid, kernel.cid]

def Request.sids : Request → List VMAccelId
  | .surfacealloc argp _ _ => [argp.sid]
  | .surfacedestroy argp => [argp.id]
  | .imageupload _ argp _ => [argp.sid]
  | .imagedownload _ argp _ => [argp.sid]
  | .surfacemap _ argp _ _ => [argp.sid]
  | .surfaceunmap _ argp _ _ => [argp.sid]
  | .surfacecopy _ argp _ => [argp.dstSid, argp.srcSid]
  | .imagefill _ argp _ => [argp.sid]
  | .dispatch _ _ argp _ => argp.args.map (·.sid)
  | _ => []

def Request.kids : Request → List VMAccelId
  | .kernelalloc argp _ => [argp.client.id]
  | .kerneldestroy argp => [argp.id]
  | .dispatch _ kernel _ _ => [kernel.id]
  | _ => []

/-- The status of the reply, and the server after the request. -/
def handle (s : Server) : Request → Except Fault (StatusCode × Server)
  | .contextalloc argp platforms => s.contextalloc argp platforms
  | .contextdestroy cid => s.contextdestroy cid
  | .surfacealloc argp cl fresh => s.surfacealloc argp cl fresh
  | .surfacedestroy argp => s.surfacedestroy argp
  | .queuealloc argp cl => s.queuealloc argp cl
  | .queuedestroy argp => s.queuedestroy argp
  | .queueflush argp cl => s.queueflush argp cl
  | .imageupload queue argp cl => s.imageupload queue argp cl
  | .imagedownload queue argp cl => do
    let r ← s.imagedownload queue argp cl
    return (r.1.1, r.2)
  | .surfacemap queue argp noFreePtr cl => do
    let r ← s.surfacemap queue argp noFreePtr cl
    return (r.1.1, r.2)
  | .surfaceunmap queue argp noFreePtr cl => s.surfaceunmap queue argp noFreePtr cl
  | .surfacecopy queue argp cl => s.surfacecopy queue argp cl
  | .imagefill queue argp cl => s.imagefill queue argp cl
  | .kernelalloc argp cl => s.kernelalloc argp cl
  | .kerneldestroy argp => s.kerneldestroy argp
  | .dispatch queue kernel argp cl => s.dispatch queue kernel argp cl

def step (s : Server) (r : Request) : Except Fault Server := do
  let p ← s.handle r
  return p.2

end Server

end VMAccel
