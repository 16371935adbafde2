import VMAccel.Basic

/-!
# Surfaces and the requests about them

The records of `vmaccel_rpc.h`, `vmcl_rpc.h` and `vmwopencl_ops.c` that describe surfaces: the
descriptor, the instance that the backend keeps, and the arguments of the requests. Array members
are lists of values; where a request has a pointer and a size, the list has that size.
-/

namespace VMAccel

abbrev Byte := BitVec 8

/-- `VMCL_MAX_SURFACES`. -/
def maxSurfaces : ℕ := 32

/-- `VMACCEL_MAX_SURFACE_INSTANCE`. -/
def maxSurfaceInstance : ℕ := 1

inductive SurfaceType
  | svm
  | buffer
  | image1D
  | image2D
  | image3D
  deriving DecidableEq

inductive SurfacePool
  | auto
  | accelerator
  | systemMemory
  deriving DecidableEq

inductive SurfaceUsage
  | readonly
  | writeonly
  | readwrite
  deriving DecidableEq

/-- The formats are told apart only by whether they are `VMACCEL_FORMAT_R8_TYPELESS`. -/
inductive SurfaceFormat
  | r8Typeless
  | other
  deriving DecidableEq

structure VMAccelSurfaceDesc where
  type : SurfaceType
  width : BitVec 32
  height : BitVec 32
  depth : BitVec 32
  format : SurfaceFormat
  pool : SurfacePool
  usage : SurfaceUsage
  deriving DecidableEq

/-- A descriptor with all bytes zero. -/
def VMAccelSurfaceDesc.zero : VMAccelSurfaceDesc :=
  ⟨.svm, 0, 0, 0, .other, .auto, .readonly⟩

/-- A pointer into surface memory: to the shared virtual memory itself, or to the host copy of a
mapped part of a buffer, with the offset of that part. -/
inductive HostPtr
  | svm
  | mapped (offset : ℕ) (bytes : List Byte)
  deriving DecidableEq

/-- What OpenCL makes for a map: the shared virtual memory, or the mapping of a part of the buffer.
-/
inductive Region
  | svm
  | mapped (offset length : ℕ)
  deriving DecidableEq

/-- Where a pointer points, whatever is stored there. -/
def HostPtr.region : HostPtr → Region
  | .svm => .svm
  | .mapped offset bytes => .mapped offset bytes.length

structure VMWOpenCLMapping where
  ptr : Option HostPtr
  refCount : BitVec 32
  deriving DecidableEq

/-- `mem` is the content of the buffer or of the shared virtual memory, whichever there is. -/
structure VMWOpenCLSurfaceInstance where
  mem : List Byte
  svm : Bool
  generation : BitVec 32
  mapping : VMWOpenCLMapping
  deriving DecidableEq

structure VMWOpenCLSurface where
  cid : VMAccelId
  desc : VMAccelSurfaceDesc
  inst : List VMWOpenCLSurfaceInstance
  deriving DecidableEq

/-- A surface after `memset`. -/
def VMWOpenCLSurface.zero : VMWOpenCLSurface where
  cid := 0
  desc := .zero
  inst := List.replicate maxSurfaceInstance ⟨[], false, 0, ⟨none, 0⟩⟩

/-- The bytes from `offset` on replaced by `bytes`, as long as they fit. -/
def splice (mem : List Byte) (offset : ℕ) (bytes : List Byte) : Option (List Byte) :=
  if offset + bytes.length ≤ mem.length then
    some (mem.take offset ++ bytes ++ mem.drop (offset + bytes.length))
  else none

theorem length_splice {mem bytes mem' : List Byte} {offset : ℕ}
    (h : splice mem offset bytes = some mem') : mem'.length = mem.length := by
  unfold splice at h
  split_ifs at h with hfit
  cases h
  simp
  omega

def extract (mem : List Byte) (offset size : ℕ) : Option (List Byte) :=
  if offset + size ≤ mem.length then some ((mem.drop offset).take size) else none

def wordBytes (w : BitVec 32) : List Byte :=
  [w.extractLsb' 0 8, w.extractLsb' 8 8, w.extractLsb' 16 8, w.extractLsb' 24 8]

structure VMCLQueueId where
  cid : BitVec 32
  id : BitVec 32
  deriving DecidableEq

structure SurfaceAllocateDesc where
  cid : VMAccelId
  sid : VMAccelId
  desc : VMAccelSurfaceDesc

structure ImageUploadOp where
  queueCid : VMAccelId
  imgCid : VMAccelId
  sid : VMAccelId
  inst : BitVec 32
  generation : BitVec 32
  offset : BitVec 32
  bytes : List Byte

structure ImageDownloadOp where
  queueCid : VMAccelId
  imgCid : VMAccelId
  sid : VMAccelId
  inst : BitVec 32
  generation : BitVec 32
  offset : BitVec 32
  size : BitVec 32

/-- The access flags are handed on to OpenCL; of them only `VMACCEL_MAP_ASYNC_FLAG` decides
something here. -/
structure SurfaceMapOp where
  sid : VMAccelId
  inst : BitVec 32
  generation : BitVec 32
  offset : BitVec 32
  size : BitVec 32
  async : Bool

structure SurfaceUnmapOp where
  sid : VMAccelId
  inst : BitVec 32
  generation : BitVec 32
  bytes : List Byte

structure SurfaceCopyOp where
  dstCid : VMAccelId
  dstSid : VMAccelId
  dstGeneration : BitVec 32
  srcCid : VMAccelId
  srcSid : VMAccelId
  srcGeneration : BitVec 32
  srcOffset : BitVec 32
  dstOffset : BitVec 32
  size : BitVec 32

structure ImageFillOp where
  sid : VMAccelId
  generation : BitVec 32
  pattern : List Byte
  offset : BitVec 32
  size : BitVec 32

/-- A kernel argument; `set` says whether OpenCL accepts it. -/
structure KernelArg where
  isSurface : Bool
  sid : VMAccelId
  inst : BitVec 32
  generation : BitVec 32
  set : Bool

/-- `kernel contents k j` is the byte that the kernel leaves at offset `j` of its argument `k`. -/
structure DispatchOp where
  args : List KernelArg
  dimension : BitVec 32
  kernel : List (List Byte) → ℕ → ℕ → Byte

end VMAccel
