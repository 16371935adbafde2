import VMAccel.Client
import VMAccel.Server

/-!
# The objects of an accelerator

`accelerator` of `vmaccel.hpp` hands out identifiers to surfaces, and to the contexts and kernels
of `vmaccel_compute.hpp`. The objects of a kind are numbered in the order of their creation; one
that is gone leaves `none`. A destructor runs only when no reference to its object is left. `sent`
are the requests of the last call; which replies are lost and what OpenCL answers on the server is
part of the input. A request that moves the content of a surface is a call of its own and has any
payload, also those of `operation::quiesce`. `held` traces which identifiers an object has obtained
and not released.
-/

namespace VMAccel

open StepSystem

/-- `VMACCEL_MAX_REF_OBJECTS`. -/
def maxRefObjects : BitVec 32 := 48

structure ClContext where
  contextId : VMAccelId
  numSubDevices : BitVec 32
  numQueues : BitVec 32
  residencyDB : IdentifierDB

/-- `variants` is a map; its order is not modelled. -/
structure ClKernel where
  clctx : ℕ
  variants : List ((KernelLanguage × String) × VMAccelId)

/-- `compute::operation`; the other fields are set when it is prepared. -/
structure ComputeOperation where
  clctx : ℕ
  subDevice : BitVec 32
  kernel : ℕ
  kernelType : KernelLanguage
  kernelFunc : String
  bindings : List ℕ
  dispatched : Bool

inductive Holder
  | context (n : ℕ)
  | surface (k : ℕ)
  | kernel (k : ℕ)
  deriving DecidableEq

structure Accelerator where
  refObjectDB : IdentifierDB
  contexts : List (Option ClContext)
  surfaces : List (Option Surface)
  kernels : List (Option ClKernel)
  operations : List (Option (Option ComputeOperation))
  contextDatabase : List (VMAccelId × ℕ)
  surfaceDatabase : List (VMAccelId × ℕ)
  held : List (Holder × VMAccelId)
  sent : List Server.Request

/-- What the requests of one call meet, by their position in the call: `lost` are those that get no
reply. `argSet` says which surfaces OpenCL takes as an argument. -/
structure Wire where
  lost : List ℕ
  status : ℕ → StatusCode
  cl : ℕ → Bool
  fresh : ℕ → ℕ → Byte
  platforms : List Platform
  argSet : ℕ → Bool

inductive Command
  | imageupload (argp : ImageUploadOp) (cl : Bool)
  | imagedownload (argp : ImageDownloadOp) (cl : Bool)
  | surfacemap (argp : SurfaceMapOp) (noFreePtr cl : Bool)
  | surfaceunmap (argp : SurfaceUnmapOp) (noFreePtr cl : Bool)
  | imagefill (argp : ImageFillOp) (cl : Bool)

/-- The request with the identifiers of the context, the queue and the surface. -/
def Command.request (queue : VMCLQueueId) (sid : VMAccelId) : Command → Server.Request
  | .imageupload argp cl =>
    .imageupload queue { argp with queueCid := queue.cid, imgCid := queue.cid, sid } cl
  | .imagedownload argp cl =>
    .imagedownload queue { argp with queueCid := queue.cid, imgCid := queue.cid, sid } cl
  | .surfacemap argp noFreePtr cl => .surfacemap queue { argp with sid } noFreePtr cl
  | .surfaceunmap argp noFreePtr cl => .surfaceunmap queue { argp with sid } noFreePtr cl
  | .imagefill argp cl => .imagefill queue { argp with sid } cl

def readObject {α : Type} (objects : List (Option α)) (n : ℕ) : Except Fault α :=
  match objects[n]? with
  | some (some a) => .ok a
  | _ => .error .outOfBounds

def mapSet (key : VMAccelId) (n : ℕ) : List (VMAccelId × ℕ) → List (VMAccelId × ℕ)
  | [] => [(key, n)]
  | e :: es =>
    if e.1 = key then (key, n) :: es
    else if key < e.1 then (key, n) :: e :: es
    else e :: mapSet key n es

def atLeastOne (n : BitVec 32) : BitVec 32 := if n = 0 then 1 else n

/-- The device and the identifier of each queue that `clcontext::alloc` asks for. -/
def queueSlots (numSubDevices numQueues : BitVec 32) : List (BitVec 32 × VMAccelId) :=
  (List.range numSubDevices.toNat).flatMap fun i =>
    (List.range numQueues.toNat).map fun j =>
      (BitVec.ofNat 32 i, BitVec.ofNat 32 i * numQueues + BitVec.ofNat 32 j)

namespace Accelerator

/-- The constructor with the default for `accelMaxRefObjects`. -/
def new : Accelerator where
  refObjectDB := .alloc maxRefObjects
  contexts := []
  surfaces := []
  kernels := []
  operations := []
  contextDatabase := []
  surfaceDatabase := []
  held := []
  sent := []

/-- The trace after `alloc_id` has returned `id` to an object. -/
def obtained (s : Accelerator) (o : Holder) (id : VMAccelId) : List (Holder × VMAccelId) :=
  if id = invalidId then s.held else (o, id) :: s.held

def allocId (s : Accelerator) (o : Holder) : Except Fault (VMAccelId × Accelerator) := do
  let r ← s.refObjectDB.allocId
  let id := r.1.getD invalidId
  return (id, { s with refObjectDB := r.2, held := s.obtained o id })

def releaseId (s : Accelerator) (o : Holder) (id : VMAccelId) : Except Fault Accelerator := do
  let db ← s.refObjectDB.releaseId id
  return { s with refObjectDB := db, held := s.held.erase (o, id) }

def send (s : Accelerator) (rs : List Server.Request) : Accelerator :=
  { s with sent := s.sent ++ rs }

def replies (s : Accelerator) (wire : Wire) : Prop := s.sent.length ∉ wire.lost

instance (s : Accelerator) (wire : Wire) : Decidable (s.replies wire) :=
  inferInstanceAs (Decidable (¬ _))

def setContext (s : Accelerator) (n : ℕ) (c : Option ClContext) : Accelerator :=
  { s with contexts := s.contexts.set n c }

def contextReferenced (s : Accelerator) (n : ℕ) : Prop :=
  (∃ e ∈ s.contextDatabase, e.2 = n) ∨ (∃ o ∈ s.kernels, ∃ k ∈ o, k.clctx = n) ∨
    ∃ o ∈ s.operations, ∃ p ∈ o, ∃ op ∈ p, op.clctx = n

def surfaceReferenced (s : Accelerator) (k : ℕ) : Prop :=
  (∃ e ∈ s.surfaceDatabase, e.2 = k) ∨ ∃ o ∈ s.operations, ∃ p ∈ o, ∃ op ∈ p, k ∈ op.bindings

def kernelReferenced (s : Accelerator) (k : ℕ) : Prop :=
  ∃ o ∈ s.operations, ∃ p ∈ o, ∃ op ∈ p, op.kernel = k

instance (s : Accelerator) (n : ℕ) : Decidable (s.contextReferenced n) :=
  inferInstanceAs (Decidable (_ ∨ _))

instance (s : Accelerator) (k : ℕ) : Decidable (s.surfaceReferenced k) :=
  inferInstanceAs (Decidable (_ ∨ _))

instance (s : Accelerator) (k : ℕ) : Decidable (s.kernelReferenced k) :=
  inferInstanceAs (Decidable (∃ _ ∈ _, _))

/-- `clcontext::alloc_surface`. Any reply makes the surface resident. -/
def allocSurface (s : Accelerator) (wire : Wire) (n k : ℕ) :
    Except Fault (Bool × Accelerator) := do
  let c ← readObject s.contexts n
  let surf ← readObject s.surfaces k
  let resident ← c.residencyDB.activeId surf.id
  if resident then return (true, s)
  require (surf.desc.format = .r8Typeless)
  let i := s.sent.length
  let request := .surfacealloc ⟨c.contextId, surf.id, surf.desc⟩ (wire.cl i) (wire.fresh i)
  if ¬ s.replies wire then return (false, s.send [request])
  let r ← c.residencyDB.acquireId surf.id
  return (true, (s.send [request]).setContext n (some { c with residencyDB := r.2 }))

/-- `clcontext::destroy_surface`. -/
def destroySurface (s : Accelerator) (n : ℕ) (id : VMAccelId) : Except Fault Accelerator := do
  let c ← readObject s.contexts n
  let resident ← c.residencyDB.activeId id
  if ¬ resident then return s
  let residencyDB ← c.residencyDB.releaseId id
  return (s.send [.surfacedestroy ⟨c.contextId, id⟩]).setContext n (some { c with residencyDB })

/-- The loops of `surface::destroy` over the contexts and of `clcontext::destroy` over the
surfaces. -/
def destroySurfaces (s : Accelerator) : List (ℕ × VMAccelId) → Except Fault Accelerator
  | [] => .ok s
  | p :: ps => do
    let s ← s.destroySurface p.1 p.2
    destroySurfaces s ps

def trackedSurfaces (s : Accelerator) : List VMAccelId :=
  s.surfaceDatabase.filterMap fun e => (s.surfaces[e.2]?.join).map (·.id)

/-- `clcontext::destroy`, after which the object goes away. It asks for the first queue of each
device only, and releases no identifier. -/
def destroy (s : Accelerator) (n : ℕ) : Except Fault Accelerator := do
  let s ← s.destroySurfaces (s.trackedSurfaces.map fun id => (n, id))
  let c ← readObject s.contexts n
  let s := s.setContext n none
  if c.contextId = invalidId then return s
  return s.send ((List.range c.numSubDevices.toNat).map
    (fun i => .queuedestroy ⟨c.contextId, BitVec.ofNat 32 i⟩) ++ [.contextdestroy c.contextId])

/-- The loop of `clcontext::alloc` over the queues, with the identifier of the queue whose reply is
lost. -/
def allocQueues (wire : Wire) (contextId : VMAccelId) :
    Accelerator → List (BitVec 32 × VMAccelId) → Option VMAccelId × Accelerator
  | s, [] => (none, s)
  | s, q :: qs =>
    let s' := s.send [.queuealloc ⟨⟨contextId, q.2⟩, q.1⟩ (wire.cl s.sent.length)]
    if s.replies wire then allocQueues wire contextId s' qs else (some q.2, s')

/-- `add_context` of `compute::context`, or a `clcontext` without one. -/
def track (s : Accelerator) (tracked : Bool) (id : VMAccelId) (n : ℕ) : Accelerator :=
  if tracked then { s with contextDatabase := mapSet id n s.contextDatabase } else s

/-- The constructor of `clcontext`, with the argument of `release_id` when it fails. After a lost
reply to a queue, `destroy` finds `numSubDevices` uninitialised. -/
def newContext (s : Accelerator) (wire : Wire) (tracked : Bool)
    (selectionMask numSubDevices numQueues requiredCaps uninitialised : BitVec 32) :
    Except Fault (Accelerator × Option (Holder × VMAccelId)) := do
  let n := s.contexts.length
  let numSubDevices := atLeastOne numSubDevices
  let numQueues := atLeastOne numQueues
  let (id, s) ← s.allocId (.context n)
  let s' := s.send [.contextalloc ⟨id, selectionMask, numSubDevices, requiredCaps⟩ wire.platforms]
  if ¬ s.replies wire then
    return ({ s' with contexts := s'.contexts ++ [none] }, some (.context n, id))
  let q := allocQueues wire id s' (queueSlots numSubDevices numQueues)
  let residencyDB := .alloc s.refObjectDB.size
  match q.1 with
  | some qid =>
    let c := ⟨id, uninitialised, numQueues, residencyDB⟩
    let s ← destroy { q.2 with contexts := q.2.contexts ++ [some c] } n
    return (s, some (.context n, qid))
  | none =>
    let c := ⟨id, numSubDevices, numQueues, residencyDB⟩
    return (track { q.2 with contexts := q.2.contexts ++ [some c] } tracked id n, none)

/-- The constructor of `surface`, followed by `add_surface` for an `accelerator_surface`. -/
def newSurface (s : Accelerator) (tracked : Bool) (desc : VMAccelSurfaceDesc) (init : ℕ → Byte) :
    Except Fault Accelerator := do
  let k := s.surfaces.length
  let (surf, refObjectDB) ← Surface.construct s.refObjectDB desc init
  return { s with
    refObjectDB
    held := s.obtained (.surface k) surf.id
    surfaces := s.surfaces ++ [some surf]
    surfaceDatabase :=
      if tracked then mapSet surf.id k s.surfaceDatabase else s.surfaceDatabase }

/-- `clkernel::prepare`. The source for the language is taken to exist. -/
def prepareKernel (s : Accelerator) (wire : Wire) (k : ℕ) (type : KernelLanguage)
    (func : String) : Except Fault Accelerator := do
  let kern ← readObject s.kernels k
  let c ← readObject s.contexts kern.clctx
  let (id, s) ← s.allocId (.kernel k)
  let s' := s.send [.kernelalloc ⟨⟨c.contextId, id⟩, 0, type⟩ (wire.cl s.sent.length)]
  if ¬ s.replies wire then return s'
  let variants := kern.variants.filter (·.1 ≠ (type, func)) ++ [((type, func), id)]
  return { s' with kernels := s'.kernels.set k (some { kern with variants }) }

/-- `clkernel::get_id`. -/
def getId (s : Accelerator) (wire : Wire) (k : ℕ) (type : KernelLanguage) (func : String) :
    Except Fault (VMAccelId × Accelerator) := do
  let kern ← readObject s.kernels k
  match kern.variants.lookup (type, func) with
  | some id => return (id, s)
  | none =>
    let s ← s.prepareKernel wire k type func
    let kern ← readObject s.kernels k
    return ((kern.variants.lookup (type, func)).getD invalidId, s)

/-- `prepareComputeSurfaceArgs` for each binding. `uploads` has for each one what `upload_surface`
sends and returns. -/
def prepareArgs (wire : Wire) (n : ℕ) (queue : VMCLQueueId) :
    Accelerator → List ℕ → List (List Command × Bool) → Except Fault (List KernelArg × Accelerator)
  | s, [], _ => .ok ([], s)
  | s, k :: ks, uploads => do
    let (allocated, s) ← s.allocSurface wire n k
    let surf ← readObject s.surfaces k
    let upload := uploads.headD ([], true)
    let s := if allocated then s.send (upload.1.map (·.request queue surf.id)) else s
    let arg := if allocated ∧ upload.2 then ⟨true, surf.id, 0, surf.generation, wire.argSet k⟩
      else Client.unsetArg
    let r ← prepareArgs wire n queue s ks uploads.tail
    return (arg :: r.1, r.2)

/-- The tries of `operation::dispatch`: whether one has succeeded. A lost reply counts as
`VMACCEL_RESOURCE_UNAVAILABLE`. -/
def submit (wire : Wire) (queue : VMCLQueueId) (kid : VMAccelId) (argp : DispatchOp) :
    Accelerator → ℕ → Bool × Accelerator
  | s, 0 => (false, s)
  | s, fuel + 1 =>
    let i := s.sent.length
    let s' := s.send [.dispatch queue ⟨0, kid⟩ argp (wire.cl i)]
    if ¬ s.replies wire then submit wire queue kid argp s' fuel
    else
      let s' := s'.send [.queueflush queue (wire.cl (i + 1))]
      if wire.status i = .resourceUnavailable then submit wire queue kid argp s' fuel
      else (wire.status i = .success, s')

/-- `operation::dispatch` on an operation that is prepared. -/
def dispatch (s : Accelerator) (wire : Wire) (o : ℕ) (force : Bool)
    (uploads : List (List Command × Bool)) (kernel : List (List Byte) → ℕ → ℕ → Byte) :
    Except Fault Accelerator := do
  let prepared ← readObject s.operations o
  match prepared with
  | none => .error .outOfBounds
  | some op =>
    let c ← readObject s.contexts op.clctx
    let (kid, s) ← s.getId wire op.kernel op.kernelType op.kernelFunc
    if op.dispatched ∧ ¬ force then return s
    let queue := ⟨c.contextId, op.subDevice * c.numQueues⟩
    let (args, s) ← prepareArgs wire op.clctx queue s op.bindings uploads
    let r := submit wire queue kid ⟨args, 1, kernel⟩ s retryMaxCount
    let op := { op with dispatched := op.dispatched || r.1 }
    return { r.2 with operations := r.2.operations.set o (some (some op)) }

/-- What a program does with its objects. -/
inductive Action
  | newContext (tracked : Bool)
    (selectionMask numSubDevices numQueues requiredCaps uninitialised : BitVec 32)
  | untrackContext (n : ℕ)
  | deleteContext (n : ℕ)
  | newSurface (tracked : Bool) (desc : VMAccelSurfaceDesc) (init : ℕ → Byte)
  | untrackSurface (k : ℕ)
  | deleteSurface (k : ℕ)
  | newKernel (n : ℕ)
  | prepareKernel (k : ℕ) (type : KernelLanguage) (func : String)
  | deleteKernel (k : ℕ)
  | newOperation
  | prepareOperation (o n : ℕ) (subDevice : BitVec 32) (k : ℕ) (type : KernelLanguage)
    (func : String) (bindings : List ℕ)
  | dispatch (o : ℕ) (force : Bool) (uploads : List (List Command × Bool))
    (kernel : List (List Byte) → ℕ → ℕ → Byte)
  | deleteOperation (o : ℕ) (uploads : List (List Command × Bool))
    (kernel : List (List Byte) → ℕ → ℕ → Byte)
  | allocSurface (n k : ℕ)
  | destroySurface (n : ℕ) (id : VMAccelId)
  | command (n : ℕ) (qid : VMAccelId) (k : ℕ) (cmd : Command)
  | copySurface (n : ℕ) (qid : VMAccelId) (src dst : ℕ) (argp : SurfaceCopyOp) (cl : Bool)
  | flushQueue (n : ℕ) (qid : VMAccelId) (cl : Bool)

/-- The destructor of `clcontext`. -/
def deleteContext (s : Accelerator) (n : ℕ) : Except Fault Accelerator :=
  if s.contextReferenced n then .ok s else s.destroy n

/-- The destructor of `surface`, with the argument of `release_id`. -/
def deleteSurface (s : Accelerator) (k : ℕ) :
    Except Fault (Accelerator × Option (Holder × VMAccelId)) := do
  if s.surfaceReferenced k then return (s, none)
  let surf ← readObject s.surfaces k
  let s ← s.destroySurfaces (s.contextDatabase.map fun e => (e.2, surf.id))
  return ({ s with surfaces := s.surfaces.set k none }, some (.surface k, surf.id))

/-- The destructor of `clkernel`, which releases no identifier. -/
def deleteKernel (s : Accelerator) (k : ℕ) : Except Fault Accelerator := do
  if s.kernelReferenced k then return s
  let kern ← readObject s.kernels k
  let c ← readObject s.contexts kern.clctx
  let s := s.send (kern.variants.map fun v => .kerneldestroy ⟨c.contextId, v.2⟩)
  return { s with kernels := s.kernels.set k none }

/-- `operation::prepare`. -/
def prepareOperation (s : Accelerator) (wire : Wire) (o : ℕ) (op : ComputeOperation) :
    Except Fault Accelerator := do
  let prepared ← readObject s.operations o
  if prepared.isSome then return s
  let s ← s.prepareKernel wire op.kernel op.kernelType op.kernelFunc
  return { s with operations := s.operations.set o (some (some op)) }

/-- The destructor of `compute::operation`: `finish` dispatches what has not been dispatched. -/
def deleteOperation (s : Accelerator) (wire : Wire) (o : ℕ) (uploads : List (List Command × Bool))
    (kernel : List (List Byte) → ℕ → ℕ → Byte) : Except Fault Accelerator := do
  let prepared ← readObject s.operations o
  let s ← (if prepared.any (¬ ·.dispatched) then s.dispatch wire o false uploads kernel
    else .ok s : Except Fault Accelerator)
  return { s with operations := s.operations.set o none }

/-- One call with the argument of its call to `release_id`, if it makes one. -/
def act (s : Accelerator) (wire : Wire) :
    Action → Except Fault (Accelerator × Option (Holder × VMAccelId))
  | .newContext tracked selectionMask numSubDevices numQueues requiredCaps uninitialised =>
    s.newContext wire tracked selectionMask numSubDevices numQueues requiredCaps uninitialised
  | .untrackContext n => do
    let c ← readObject s.contexts n
    return ({ s with
      contextDatabase := s.contextDatabase.filter (·.1 ≠ c.contextId) }, none)
  | .deleteContext n => do
    let s ← s.deleteContext n
    return (s, none)
  | .newSurface tracked desc init => do
    let s ← s.newSurface tracked desc init
    return (s, none)
  | .untrackSurface k => do
    let surf ← readObject s.surfaces k
    return ({ s with surfaceDatabase := s.surfaceDatabase.filter (·.1 ≠ surf.id) }, none)
  | .deleteSurface k => s.deleteSurface k
  | .newKernel n => do
    let _ ← readObject s.contexts n
    return ({ s with kernels := s.kernels ++ [some ⟨n, []⟩] }, none)
  | .prepareKernel k type func => do
    let s ← s.prepareKernel wire k type func
    return (s, none)
  | .deleteKernel k => do
    let s ← s.deleteKernel k
    return (s, none)
  | .newOperation => .ok ({ s with operations := s.operations ++ [some none] }, none)
  | .prepareOperation o n subDevice k type func bindings => do
    let s ← s.prepareOperation wire o ⟨n, subDevice, k, type, func, bindings, false⟩
    return (s, none)
  | .dispatch o force uploads kernel => do
    let s ← s.dispatch wire o force uploads kernel
    return (s, none)
  | .deleteOperation o uploads kernel => do
    let s ← s.deleteOperation wire o uploads kernel
    return (s, none)
  | .allocSurface n k => do
    let r ← s.allocSurface wire n k
    return (r.2, none)
  | .destroySurface n id => do
    let s ← s.destroySurface n id
    return (s, none)
  | .command n qid k cmd => do
    let c ← readObject s.contexts n
    let surf ← readObject s.surfaces k
    return (s.send [cmd.request ⟨c.contextId, qid⟩ surf.id], none)
  | .copySurface n qid src dst argp cl => do
    let c ← readObject s.contexts n
    let srcSurf ← readObject s.surfaces src
    let dstSurf ← readObject s.surfaces dst
    let argp := { argp with
      dstCid := c.contextId, dstSid := dstSurf.id, srcCid := c.contextId, srcSid := srcSurf.id }
    return (s.send [.surfacecopy ⟨c.contextId, qid⟩ argp cl], none)
  | .flushQueue n qid cl => do
    let c ← readObject s.contexts n
    return (s.send [.queueflush ⟨c.contextId, qid⟩ cl], none)

/-- A call, with the release at its end. The requests that a failed constructor of `clcontext`
sends after the release do not depend on it. -/
def step (s : Accelerator) (a : Action × Wire) : Except Fault Accelerator := do
  let r ← act { s with sent := [] } a.2 a.1
  match r.2 with
  | none => return r.1
  | some (o, id) => r.1.releaseId o id

end Accelerator

end VMAccel
