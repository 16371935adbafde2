import VMAccel.Backend

/-!
# Surfaces of the application and the way to the server

The `surface` class of `vmaccel.hpp`, whose backing holds the content on the side of the
application and whose consistency database has one bit for each context, and the requests that a
context sends. The server may be reached or not, and may refuse; `Host` keeps with the backend the
trace of the events that decide what a surface should hold.
-/

namespace VMAccel

structure Coordinate3D where
  x : BitVec 32
  y : BitVec 32
  z : BitVec 32
  deriving DecidableEq

/-- `VMAccelSurfaceRegion`; the mip level is not read. -/
structure VMAccelSurfaceRegion where
  coord : Coordinate3D
  size : Coordinate3D
  deriving DecidableEq

/-- The `surface` class. The backing is the surface's own `new char[d.width]`. -/
structure Surface where
  id : VMAccelId
  desc : VMAccelSurfaceDesc
  generation : BitVec 32
  backing : List Byte
  consistencyDB : IdentifierDB
  length_backing : backing.length = desc.width.toNat

namespace Surface

/-- The constructor: the identifier is the one of `accelerator::alloc_id`, or the invalid one when
the database is exhausted. -/
def construct (refObjectDB : IdentifierDB) (desc : VMAccelSurfaceDesc) (init : ℕ → Byte) :
    Except Fault (Surface × IdentifierDB) := do
  let r ← refObjectDB.allocId
  return ({
    id := r.1.getD invalidId
    desc := desc
    generation := 0
    backing := (List.range desc.width.toNat).map init
    consistencyDB := .alloc refObjectDB.size
    length_backing := by simp }, r.2)

/-- `memcpy(backing, in, MIN(desc.width, in.size))`. -/
def memcpyIn (surf : Surface) (input : List Byte) : Surface :=
  { surf with
    backing := input.take surf.desc.width.toNat ++ surf.backing.drop input.length
    length_backing := by simp [surf.length_backing]; omega }

def isConsistent (surf : Surface) (id : VMAccelId) : Except Fault Bool :=
  surf.consistencyDB.activeId id

def setConsistency (surf : Surface) (id : VMAccelId) : Bool → Except Fault Surface
  | true => do
    let r ← surf.consistencyDB.acquireId id
    return { surf with consistencyDB := r.2 }
  | false => do
    let db ← surf.consistencyDB.releaseId id
    return { surf with consistencyDB := db }

def setConsistencyRange (surf : Surface) (start stop : VMAccelId) : Bool → Except Fault Surface
  | true => do
    let r ← surf.consistencyDB.acquireIdRange start stop
    return { surf with consistencyDB := r.2 }
  | false => do
    let r ← surf.consistencyDB.releaseIdRange start stop
    return { surf with consistencyDB := r.2 }

/-- The region covers the whole surface, counted in elements of `elemSize` bytes. -/
def Covers (desc : VMAccelSurfaceDesc) (imgRegion : VMAccelSurfaceRegion) (elemSize : ℕ) : Prop :=
  desc.format = .r8Typeless ∧ imgRegion.coord = ⟨0, 0, 0⟩ ∧
    imgRegion.size.x.toNat * elemSize = desc.width.toNat ∧ imgRegion.size.y = desc.height ∧
    imgRegion.size.z = desc.depth

instance (desc : VMAccelSurfaceDesc) (imgRegion : VMAccelSurfaceRegion) (elemSize : ℕ) :
    Decidable (Covers desc imgRegion elemSize) := inferInstanceAs (Decidable (_ ∧ _))

/-- `surface::upload`. -/
def upload (surf : Surface) (maxRefObjects : BitVec 32) (imgRegion : VMAccelSurfaceRegion)
    (elemSize : ℕ) (input : List Byte) : Except Fault (StatusCode × Surface) :=
  if Covers surf.desc imgRegion elemSize then do
    let surf ← (surf.memcpyIn input).setConsistencyRange 0 (maxRefObjects - 1) false
    return (.success, { surf with generation := surf.generation + 1 })
  else .ok (.fail, surf)

end Surface

/-- What decides the content of a surface: `surface::upload` wrote to its backing, the server took
over new content for it, or a kernel ran on surfaces. -/
inductive Event
  | updated (sid : VMAccelId) (bytes : List Byte)
  | stored (sid : VMAccelId) (bytes : List Byte)
  | ran (sids : List VMAccelId)

/-- The backend with the trace of events, the latest first. -/
structure Host where
  backend : Backend
  trace : List Event

namespace Host

def powerOn : Host := ⟨.powerOn, []⟩

def surfacealloc (h : Host) (argp : SurfaceAllocateDesc) (svmCapable cl : Bool)
    (fresh : ℕ → Byte) : Except Fault (StatusCode × Host) := do
  let r ← h.backend.surfacealloc argp svmCapable cl fresh
  return (r.1, { h with backend := r.2 })

def record (h : Host) (r : StatusCode × Backend) (e : Event) : Host where
  backend := r.2
  trace := if r.1 = .success then e :: h.trace else h.trace

def imageupload (h : Host) (argp : ImageUploadOp) (cl : Bool) :
    Except Fault (StatusCode × Host) := do
  let r ← h.backend.imageupload argp cl
  return (r.1, h.record r (.stored argp.sid argp.bytes))

def imagedownload (h : Host) (argp : ImageDownloadOp) (cl : Bool) :
    Except Fault ((StatusCode × List Byte) × Host) := do
  let r ← h.backend.imagedownload argp cl
  return (r.1, { h with backend := r.2 })

def surfacemap (h : Host) (argp : SurfaceMapOp) (cl : Bool) :
    Except Fault ((StatusCode × Option HostPtr) × Host) := do
  let r ← h.backend.surfacemap argp cl
  return (r.1, { h with backend := r.2 })

def surfaceunmap (h : Host) (argp : SurfaceUnmapOp) (cl : Bool) :
    Except Fault (StatusCode × Host) := do
  let r ← h.backend.surfaceunmap argp cl
  return (r.1, h.record r (.stored argp.sid argp.bytes))

def dispatch (h : Host) (argp : DispatchOp) (cl : Bool) : Except Fault (StatusCode × Host) := do
  let r ← h.backend.dispatch argp cl
  return (r.1, h.record r (.ran (argp.args.map KernelArg.sid)))

def deref (h : Host) (sid : VMAccelId) (size : ℕ) (ptr : Option HostPtr) :
    Except Fault (List Byte) := do
  let p ← h.backend.locate sid 0
  let bytes := match ptr with
    | none => []
    | some .svm => p.2.mem
    | some (.mapped _ bytes) => bytes
  match extract bytes 0 size with
  | some bytes => return bytes
  | none => .error .outOfBounds

end Host

/-- What becomes of one request: the client gets no reply, whether the server handles it or not;
the server refuses it with some status; or the server handles it and replies. -/
inductive Answer
  | lost (handled : Option Bool)
  | refused (status : StatusCode) (h : status ≠ .success)
  | served (cl : Bool)

/-- A `vmcl_*_2` call, with `none` for the return value `NULL`. -/
def Answer.call {ρ : Type} (answer : Answer) (h : Host)
    (handler : Host → Bool → Except Fault (ρ × Host)) (refusal : StatusCode → ρ) :
    Except Fault (Option ρ × Host) :=
  match answer with
  | .lost none => .ok (none, h)
  | .lost (some cl) => do
    let r ← handler h cl
    return (none, r.2)
  | .refused status _ => .ok (some (refusal status), h)
  | .served cl => do
    let r ← handler h cl
    return (some r.1, r.2)

/-- The answers to the requests of one call of a context, one for each kernel argument or try, and
what OpenCL decides about the memory and the kernel arguments. -/
structure Net where
  surfacealloc : ℕ → Answer
  fresh : ℕ → ℕ → Byte
  imageupload : ℕ → Answer
  imagedownload : ℕ → Answer
  surfacemap : ℕ → Answer
  surfaceunmap : ℕ → Answer
  dispatch : ℕ → Answer
  argSet : ℕ → Bool

end VMAccel
