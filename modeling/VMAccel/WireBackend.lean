import VMAccel.Server
import VMAccel.WireProgram

/-!
# The backend behind the wire

`vmwopenclOps` on the arguments that come over the wire: each one is a request to `Server`, with
what OpenCL answers to it. The server tells the values of a word apart only as far as it compares
them. A message can announce a region that is longer than its data: what an upload then reads from
behind the data is up to the memory there, and a download into a shorter buffer writes behind it.
What a reply carries besides the status makes no difference to the server and is a parameter.
-/

namespace VMAccel.Wire

open RemoteCall StepSystem

structure ClAnswer where
  platforms : List Platform
  cl : Bool
  fresh : ℕ → Byte
  set : ℕ → Bool
  kernel : List (List Byte) → ℕ → ℕ → Byte
  behind : ℕ → Byte

def surfaceType (w : BitVec 32) : SurfaceType :=
  if w = 0 then .svm else if w = 1 then .buffer else if w = 2 then .image1D
  else if w = 3 then .image2D else .image3D

def surfacePool (w : BitVec 32) : SurfacePool :=
  if w = 2 then .systemMemory else if w = 1 then .accelerator else .auto

/-- A word that is none of the three is like `VMACCEL_SURFACE_USAGE_WRITEONLY`: the only comparison
is the one with `VMACCEL_SURFACE_USAGE_READWRITE`. -/
def surfaceUsage (w : BitVec 32) : SurfaceUsage :=
  if w = 0 then .readonly else if w = 2 then .readwrite else .writeonly

/-- `VMACCEL_FORMAT_R8_TYPELESS` is the sixth format. -/
def surfaceFormat (w : BitVec 32) : SurfaceFormat := if w = 5 then .r8Typeless else .other

def kernelLanguage (w : BitVec 32) : KernelLanguage :=
  if w = 4 then .openclC10 else if w = 7 then .openclC11 else if w = 8 then .openclC12
  else if w = 9 then .openclC20 else if w = 10 then .spirv10 else if w = 11 then .openclCpp10
  else if w = 12 then .spirv11 else if w = 13 then .spirv12 else .other

def surfaceDesc (d : VMAccelSurfaceDesc) : VMAccel.VMAccelSurfaceDesc where
  type := surfaceType d.type
  width := d.width
  height := d.height
  depth := d.depth
  format := surfaceFormat d.format
  pool := surfacePool d.pool
  usage := surfaceUsage d.usage

def queueId (q : VMCLQueueId) : VMAccel.VMCLQueueId := ⟨q.cid, q.id⟩

def kernelId (k : VMCLKernelId) : VMAccel.VMCLKernelId := ⟨k.cid, k.id⟩

/-- `size` bytes from the start of the data on. -/
def readFrom (ptr : List Byte) (behind : ℕ → Byte) (size : BitVec 32) : List Byte :=
  (List.range size.toNat).map fun i => (ptr[i]?).getD (behind i)

/-- `argp->op.u` as it lies in memory. -/
def fillPattern (u : VMAccelElementUINT4D) : List Byte :=
  wordBytes u.r ++ wordBytes u.g ++ wordBytes u.b ++ wordBytes u.a

def kernelArg (set : Bool) (a : VMCLKernelArgDesc) : KernelArg where
  isSurface := decide (a.type = 1)
  sid := a.surf.id
  inst := a.surf.inst
  generation := a.surf.generation
  set := set

/-- The request to the server that an argument is. The operations on samplers are not implemented.
-/
def request (c : ClAnswer) : (p : Proc) → p.Arg → Option Server.Request
  | .contextalloc, argp =>
    some (.contextalloc ⟨argp.clientId, argp.selectionMask, argp.numSubDevices, argp.requiredCaps⟩
      c.platforms)
  | .contextdestroy, argp => some (.contextdestroy argp)
  | .surfacealloc, argp =>
    some (.surfacealloc ⟨argp.client.cid, argp.client.accel.id, surfaceDesc argp.desc⟩ c.cl c.fresh)
  | .surfacedestroy, argp => some (.surfacedestroy ⟨argp.cid, argp.accel.id⟩)
  | .queuealloc, argp => some (.queuealloc ⟨queueId argp.client, argp.subDevice⟩ c.cl)
  | .queuedestroy, argp => some (.queuedestroy (queueId argp))
  | .queueflush, argp => some (.queueflush (queueId argp) c.cl)
  | .imageupload, argp =>
    some (.imageupload (queueId argp.queue)
      { queueCid := argp.queue.cid
        imgCid := argp.img.cid
        sid := argp.img.accel.id
        inst := argp.img.accel.inst
        generation := argp.img.accel.generation
        offset := argp.op.imgRegion.coord.x
        bytes := readFrom argp.op.ptr c.behind argp.op.imgRegion.size.x } c.cl)
  | .imagedownload, argp =>
    some (.imagedownload (queueId argp.queue)
      { queueCid := argp.queue.cid
        imgCid := argp.img.cid
        sid := argp.img.accel.id
        inst := argp.img.accel.inst
        generation := argp.img.accel.generation
        offset := argp.op.imgRegion.coord.x
        size := argp.op.imgRegion.size.x } c.cl)
  | .surfacemap, argp =>
    some (.surfacemap (queueId argp.queue)
      { sid := argp.op.surf.id
        inst := argp.op.surf.inst
        generation := argp.op.surf.generation
        offset := argp.op.coord.x
        size := argp.op.size.x
        async := decide (argp.op.mapFlags &&& StreamServer.asyncFlag ≠ 0) } false c.cl)
  | .surfaceunmap, argp =>
    some (.surfaceunmap (queueId argp.queue)
      ⟨argp.op.surf.id, argp.op.surf.inst, argp.op.surf.generation, argp.op.ptr⟩ false c.cl)
  | .surfacecopy, argp =>
    some (.surfacecopy (queueId argp.queue)
      { dstCid := argp.dst.cid
        dstSid := argp.dst.accel.id
        dstGeneration := argp.dst.accel.generation
        srcCid := argp.src.cid
        srcSid := argp.src.accel.id
        srcGeneration := argp.src.accel.generation
        srcOffset := argp.op.srcRegion.coord.x
        dstOffset := argp.op.dstRegion.coord.x
        size := argp.op.dstRegion.size.x } c.cl)
  | .imagefill, argp =>
    some (.imagefill (queueId argp.queue)
      ⟨argp.img.accel.id, argp.img.accel.generation, fillPattern argp.op.u,
        argp.op.dstRegion.coord.x, argp.op.dstRegion.size.x⟩ c.cl)
  | .sampleralloc, _ => none
  | .samplerdestroy, _ => none
  | .kernelalloc, argp =>
    some (.kernelalloc ⟨kernelId argp.client, argp.subDevice, kernelLanguage argp.language⟩ c.cl)
  | .kerneldestroy, argp => some (.kerneldestroy (kernelId argp))
  | .dispatch, argp =>
    some (.dispatch (queueId argp.queue) (kernelId argp.kernel)
      ⟨argp.args.mapIdx fun i a => kernelArg (c.set i) a, argp.dimension, c.kernel⟩ c.cl)

/-- A download that succeeds writes `size.x` bytes to the buffer of the message if it has one. -/
def Overruns : (p : Proc) → p.Arg → StatusCode → Prop
  | .imagedownload, argp, status =>
    status = .success ∧ argp.op.ptr ≠ [] ∧ argp.op.ptr.length < argp.op.imgRegion.size.x.toNat
  | _, _, _ => False

instance : (p : Proc) → (argp : p.Arg) → (status : StatusCode) → Decidable (Overruns p argp status)
  | .imagedownload, _, _ => inferInstanceAs (Decidable (_ ∧ _))
  | .contextalloc, _, _ | .contextdestroy, _, _ | .surfacealloc, _, _ | .surfacedestroy, _, _
  | .queuealloc, _, _ | .queuedestroy, _, _ | .queueflush, _, _ | .imageupload, _, _
  | .surfacemap, _, _ | .surfaceunmap, _, _ | .surfacecopy, _, _ | .imagefill, _, _
  | .sampleralloc, _, _ | .samplerdestroy, _, _ | .kernelalloc, _, _ | .kerneldestroy, _, _
  | .dispatch, _, _ => .isFalse id

def statusCode : StatusCode → BitVec 32
  | .success => 0
  | .fail => 1
  | .semanticError => 2
  | .deviceError => 3
  | .resourceUnavailable => 4
  | .deviceLost => 5
  | .outOfComputeResources => 6
  | .outOfMemory => 7
  | .timeout => 8

/-- A status after `memset` with its code: no nonce, no data. -/
def plainStatus (status : StatusCode) : (p : Proc) → p.Status
  | .contextalloc => ⟨statusCode status, 0⟩
  | .surfacealloc => ⟨statusCode status, ⟨0, 0, 0, 0, 0, 0, 0, 0, 0, 0, 0, 0, 0, 0, 0⟩⟩
  | .queuealloc => ⟨statusCode status⟩
  | .imagedownload => ⟨statusCode status, 0, []⟩
  | .surfacemap => ⟨statusCode status, []⟩
  | .sampleralloc => ⟨statusCode status⟩
  | .kernelalloc => ⟨statusCode status⟩
  | .contextdestroy | .surfacedestroy | .queuedestroy | .queueflush | .imageupload | .surfaceunmap
  | .surfacecopy | .imagefill | .samplerdestroy | .kerneldestroy | .dispatch =>
    ⟨[], statusCode status⟩

/-- The server, and how many requests it has had. -/
structure World where
  server : Server
  requests : ℕ

/-- What OpenCL answers to each request, and what the replies carry. -/
structure Host where
  answers : ℕ → ClAnswer
  reply : ℕ → (p : Proc) → StatusCode → p.Status

/-- `vmwopenclOps`. -/
def vmwopenclOps (host : Host) : VMCLOps World Fault := fun p argp w =>
  match request (host.answers w.requests) p argp with
  | none => .error .assertion
  | some r => do
    let x ← w.server.handle r
    if Overruns p argp x.1 then .error .outOfBounds
    else return (some (host.reply w.requests p x.1), ⟨x.2, w.requests + 1⟩)

/-- A host with one platform, whose OpenCL grants everything. -/
def hostDemo : Host where
  answers _ := ⟨[⟨some (2, 2), true, fun _ => true, fun _ => true⟩], true, fun _ => 0,
    fun _ => true, fun _ _ _ => 0, fun _ => 0⟩
  reply _ p status := plainStatus status p

end VMAccel.Wire
