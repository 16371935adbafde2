import VMAccel.Desc
import VMAccel.Xdr

/-!
# The messages

The records of `vmaccel_rpc.h` and `vmcl_rpc.h` as they go over the wire, and for each one the
routine of `vmaccel_rpc_xdr.c` or `vmcl_rpc_xdr.c`. An address and a descriptor are those of the
allocator with the subdevice of the address, which its objects do not carry. Flags, types and
enumerations travel as words that no routine checks, floating-point numbers as their bits. `room`
says where the routines find a block of the stream for their runs of words. The sizes that
`xdr_array` divides by are those of the structures on a machine with pointers of 64 bits.
-/

namespace VMAccel.Wire

open Xdr

/-- `VMACCEL_MAX_NONCE_SIZE`. -/
def maxNonceSize : BitVec 32 := 4

/-- `VMACCEL_MAX_LOCATION_SIZE`. -/
def maxLocationSize : BitVec 32 := 4

/-- The limit `~0` of all other counts. -/
def max : BitVec 32 := ~~~0

/-! ## The types that are words -/

def xdrVMAccelStatusCode : Routine (BitVec 32) := uint

def xdrVMAccelResourceType : Routine (BitVec 32) := uint

def xdrVMAccelArchitectureType : Routine (BitVec 32) := uint

def xdrVMAccelSelectionMask : Routine (BitVec 32) := uint

def xdrVMAccelId : Routine (BitVec 32) := uint

def xdrVMAccelCaps : Routine (BitVec 32) := uint

def xdrVMAccelSurfacePool : Routine (BitVec 32) := uint

def xdrVMAccelSurfaceType : Routine (BitVec 32) := uint

def xdrVMAccelSurfaceUsage : Routine (BitVec 32) := uint

def xdrVMAccelSurfaceMapFlags : Routine (BitVec 32) := uint

def xdrVMAccelSurfaceReadConsistency : Routine (BitVec 32) := uint

def xdrVMAccelSurfaceWriteConsistency : Routine (BitVec 32) := uint

def xdrVMAccelFormatCaps : Routine (BitVec 32) := uint

def xdrVMAccelSurfaceBindFlags : Routine (BitVec 32) := uint

def xdrVMAccelSurfaceFormat : Routine (BitVec 32) := uint

def xdrVMAccelSurfaceFormatCaps : Routine (BitVec 32) := uint

def xdrVMAccelHandleType : Routine (BitVec 32) := uint

def xdrVMAccelQueueFlags : Routine (BitVec 32) := uint

def xdrVMCLCaps : Routine (BitVec 32) := uint

def xdrVMCLKernelLanguage : Routine (BitVec 32) := uint

def xdrVMCLContextId : Routine (BitVec 32) := xdrVMAccelId

def xdrVMCLSamplerAddressingMode : Routine (BitVec 32) := uint

def xdrVMCLSamplerFilterMode : Routine (BitVec 32) := uint

def xdrVMCLKernelArgType : Routine (BitVec 32) := uint

/-! ## The records of `vmaccel_rpc.h` -/

structure VMAccelStatus where
  nonce : List Octet
  status : BitVec 32
  deriving DecidableEq

def xdrVMAccelStatus : Routine VMAccelStatus :=
  ((bytes maxNonceSize).seq xdrVMAccelStatusCode).iso
    ⟨fun p => ⟨p.1, p.2⟩, fun d => (d.nonce, d.status), fun _ => rfl, fun _ => rfl⟩

structure VMAccelAddress extends VMAccel.VMAccelAddress where
  subDevice : BitVec 32
  deriving DecidableEq

def xdrVMAccelAddress : Routine VMAccelAddress :=
  ((bytes maxLocationSize).seq <| uint.seq <| xdrVMAccelResourceType.seq uint).iso
    ⟨fun p => ⟨⟨p.1, p.2.1, p.2.2.1⟩, p.2.2.2⟩,
     fun d => (d.addr, d.port, d.resourceType, d.subDevice), fun _ => rfl, fun _ => rfl⟩

structure VMAccelCallback where
  addr : VMAccelAddress
  payload : List Octet
  deriving DecidableEq

def xdrVMAccelCallback : Routine VMAccelCallback :=
  (xdrVMAccelAddress.seq (bytes max)).iso
    ⟨fun p => ⟨p.1, p.2⟩, fun d => (d.addr, d.payload), fun _ => rfl, fun _ => rfl⟩

def xdrVMAccelFormatDesc : Routine VMAccelFormatDesc :=
  (uint.seq xdrVMAccelFormatCaps).iso
    ⟨fun p => ⟨p.1, p.2⟩, fun d => (d.format, d.caps), fun _ => rfl, fun _ => rfl⟩

def xdrVMAccelWorkloadDesc (room : Room) : Routine VMAccelWorkloadDesc :=
  (units room 9).iso
    ⟨fun p => ⟨p.1, p.2.1, p.2.2.1, p.2.2.2.1, p.2.2.2.2.1, p.2.2.2.2.2.1, p.2.2.2.2.2.2.1,
        p.2.2.2.2.2.2.2.1, p.2.2.2.2.2.2.2.2.1⟩,
     fun d => (d.megaFlops, d.megaOps, d.llcSizeKB, d.llcBandwidthMBSec, d.localMemSizeKB,
        d.localMemBandwidthMBSec, d.nonLocalMemSizeKB, d.nonLocalMemBandwidthMBSec,
        d.interconnectBandwidthMBSec, ()), fun _ => rfl, fun _ => rfl⟩

/-- A descriptor with the subdevice of its `parentAddr`. -/
structure VMAccelDesc extends VMAccel.VMAccelDesc where
  subDevice : BitVec 32
  deriving DecidableEq

def xdrVMAccelDesc (room : Room) : Routine VMAccelDesc :=
  (xdrVMAccelId.seq <| xdrVMAccelAddress.seq <| xdrVMAccelResourceType.seq <|
    xdrVMAccelArchitectureType.seq <| xdrVMAccelCaps.seq <|
    (array xdrVMAccelFormatDesc max 8).seq <| (xdrVMAccelWorkloadDesc room).seq (units room 6)).iso
    ⟨fun p => ⟨⟨p.1, p.2.1.toVMAccelAddress, p.2.2.1, p.2.2.2.1, p.2.2.2.2.1, p.2.2.2.2.2.1,
        p.2.2.2.2.2.2.1, p.2.2.2.2.2.2.2.1, p.2.2.2.2.2.2.2.2.1, p.2.2.2.2.2.2.2.2.2.1,
        p.2.2.2.2.2.2.2.2.2.2.1, p.2.2.2.2.2.2.2.2.2.2.2.1, p.2.2.2.2.2.2.2.2.2.2.2.2.1⟩,
        p.2.1.subDevice⟩,
     fun d => (d.parentId, ⟨d.parentAddr, d.subDevice⟩, d.typeMask, d.architecture, d.caps,
        d.formatCaps, d.capacity, d.maxContexts, d.maxQueues, d.maxEvents, d.maxFences,
        d.maxSurfaces, d.maxMappings, ()), fun _ => rfl, fun _ => rfl⟩

structure VMAccelAllocateStatus where
  status : BitVec 32
  id : BitVec 32
  desc : VMAccelDesc
  deriving DecidableEq

def xdrVMAccelAllocateStatus (room : Room) : Routine VMAccelAllocateStatus :=
  (xdrVMAccelStatusCode.seq <| xdrVMAccelId.seq (xdrVMAccelDesc room)).iso
    ⟨fun p => ⟨p.1, p.2.1, p.2.2⟩, fun d => (d.status, d.id, d.desc), fun _ => rfl, fun _ => rfl⟩

structure VMAccelRegisterDesc where
  desc : VMAccelDesc
  typeMask : BitVec 32
  deriving DecidableEq

def xdrVMAccelRegisterDesc (room : Room) : Routine VMAccelRegisterDesc :=
  ((xdrVMAccelDesc room).seq xdrVMAccelResourceType).iso
    ⟨fun p => ⟨p.1, p.2⟩, fun d => (d.desc, d.typeMask), fun _ => rfl, fun _ => rfl⟩

structure VMAccelElementDouble4D where
  x : BitVec 64
  y : BitVec 64
  z : BitVec 64
  w : BitVec 64
  deriving DecidableEq

def xdrVMAccelElementDouble4D : Routine VMAccelElementDouble4D :=
  (double.seq <| double.seq <| double.seq double).iso
    ⟨fun p => ⟨p.1, p.2.1, p.2.2.1, p.2.2.2⟩, fun d => (d.x, d.y, d.z, d.w),
     fun _ => rfl, fun _ => rfl⟩

structure VMAccelElementFloat4D where
  x : BitVec 32
  y : BitVec 32
  z : BitVec 32
  w : BitVec 32
  deriving DecidableEq

def xdrVMAccelElementFloat4D : Routine VMAccelElementFloat4D :=
  (uint.seq <| uint.seq <| uint.seq uint).iso
    ⟨fun p => ⟨p.1, p.2.1, p.2.2.1, p.2.2.2⟩, fun d => (d.x, d.y, d.z, d.w),
     fun _ => rfl, fun _ => rfl⟩

structure VMAccelElementUINT4D where
  r : BitVec 32
  g : BitVec 32
  b : BitVec 32
  a : BitVec 32
  deriving DecidableEq

def xdrVMAccelElementUINT4D (room : Room) : Routine VMAccelElementUINT4D :=
  (units room 4).iso
    ⟨fun p => ⟨p.1, p.2.1, p.2.2.1, p.2.2.2.1⟩, fun d => (d.r, d.g, d.b, d.a, ()),
     fun _ => rfl, fun _ => rfl⟩

structure VMAccelCoordinate2DUINT where
  x : BitVec 32
  y : BitVec 32
  deriving DecidableEq

def xdrVMAccelCoordinate2DUINT : Routine VMAccelCoordinate2DUINT :=
  (uint.seq uint).iso ⟨fun p => ⟨p.1, p.2⟩, fun d => (d.x, d.y), fun _ => rfl, fun _ => rfl⟩

structure VMAccelCoordinate3DUINT where
  x : BitVec 32
  y : BitVec 32
  z : BitVec 32
  deriving DecidableEq

def xdrVMAccelCoordinate3DUINT : Routine VMAccelCoordinate3DUINT :=
  (uint.seq <| uint.seq uint).iso
    ⟨fun p => ⟨p.1, p.2.1, p.2.2⟩, fun d => (d.x, d.y, d.z), fun _ => rfl, fun _ => rfl⟩

structure VMAccelSurfaceDesc where
  parentId : BitVec 32
  type : BitVec 32
  width : BitVec 32
  height : BitVec 32
  depth : BitVec 32
  mipLevels : BitVec 32
  arraySize : BitVec 32
  samples : BitVec 32
  format : BitVec 32
  formatCaps : BitVec 32
  pool : BitVec 32
  usage : BitVec 32
  bindFlags : BitVec 32
  slicePitch : BitVec 32
  rowPitch : BitVec 32
  deriving DecidableEq

def xdrVMAccelSurfaceDesc (room : Room) : Routine VMAccelSurfaceDesc :=
  (xdrVMAccelId.seq <| xdrVMAccelSurfaceType.seq <| (units room 6).seq <|
    xdrVMAccelSurfaceFormat.seq <| xdrVMAccelSurfaceFormatCaps.seq <| xdrVMAccelSurfacePool.seq <|
    xdrVMAccelSurfaceUsage.seq <| xdrVMAccelSurfaceBindFlags.seq <| uint.seq uint).iso
    ⟨fun p => ⟨p.1, p.2.1, p.2.2.1.1, p.2.2.1.2.1, p.2.2.1.2.2.1, p.2.2.1.2.2.2.1,
        p.2.2.1.2.2.2.2.1, p.2.2.1.2.2.2.2.2.1, p.2.2.2.1, p.2.2.2.2.1, p.2.2.2.2.2.1,
        p.2.2.2.2.2.2.1, p.2.2.2.2.2.2.2.1, p.2.2.2.2.2.2.2.2.1, p.2.2.2.2.2.2.2.2.2⟩,
     fun d => (d.parentId, d.type, (d.width, d.height, d.depth, d.mipLevels, d.arraySize, d.samples,
        ()), d.format, d.formatCaps, d.pool, d.usage, d.bindFlags, d.slicePitch, d.rowPitch),
     fun _ => rfl, fun _ => rfl⟩

structure VMAccelSurfaceId where
  type : BitVec 32
  handleType : BitVec 32
  id : BitVec 32
  inst : BitVec 32
  offset : BitVec 32
  generation : BitVec 32
  deriving DecidableEq

def xdrVMAccelSurfaceId : Routine VMAccelSurfaceId :=
  (xdrVMAccelSurfaceType.seq <| xdrVMAccelHandleType.seq <| xdrVMAccelId.seq <| uint.seq <|
    uint.seq uint).iso
    ⟨fun p => ⟨p.1, p.2.1, p.2.2.1, p.2.2.2.1, p.2.2.2.2.1, p.2.2.2.2.2⟩,
     fun d => (d.type, d.handleType, d.id, d.inst, d.offset, d.generation),
     fun _ => rfl, fun _ => rfl⟩

structure VMAccelSurfaceAllocateStatus where
  status : BitVec 32
  surfaceDesc : VMAccelSurfaceDesc
  deriving DecidableEq

def xdrVMAccelSurfaceAllocateStatus (room : Room) : Routine VMAccelSurfaceAllocateStatus :=
  (xdrVMAccelStatusCode.seq (xdrVMAccelSurfaceDesc room)).iso
    ⟨fun p => ⟨p.1, p.2⟩, fun d => (d.status, d.surfaceDesc), fun _ => rfl, fun _ => rfl⟩

structure VMAccelQueueDesc where
  flags : BitVec 32
  size : BitVec 32
  deriving DecidableEq

def xdrVMAccelQueueDesc : Routine VMAccelQueueDesc :=
  (xdrVMAccelQueueFlags.seq uint).iso
    ⟨fun p => ⟨p.1, p.2⟩, fun d => (d.flags, d.size), fun _ => rfl, fun _ => rfl⟩

structure VMAccelQueueStatus where
  status : BitVec 32
  deriving DecidableEq

def xdrVMAccelQueueStatus : Routine VMAccelQueueStatus :=
  xdrVMAccelStatusCode.iso ⟨fun p => ⟨p⟩, fun d => d.status, fun _ => rfl, fun _ => rfl⟩

structure VMAccelSurfaceRegion where
  mipLevel : BitVec 32
  coord : VMAccelCoordinate3DUINT
  size : VMAccelCoordinate3DUINT
  deriving DecidableEq

def xdrVMAccelSurfaceRegion : Routine VMAccelSurfaceRegion :=
  (uint.seq <| xdrVMAccelCoordinate3DUINT.seq xdrVMAccelCoordinate3DUINT).iso
    ⟨fun p => ⟨p.1, p.2.1, p.2.2⟩, fun d => (d.mipLevel, d.coord, d.size),
     fun _ => rfl, fun _ => rfl⟩

structure VMAccelSurfaceCopyOp where
  dstRegion : VMAccelSurfaceRegion
  srcRegion : VMAccelSurfaceRegion
  deriving DecidableEq

def xdrVMAccelSurfaceCopyOp : Routine VMAccelSurfaceCopyOp :=
  (xdrVMAccelSurfaceRegion.seq xdrVMAccelSurfaceRegion).iso
    ⟨fun p => ⟨p.1, p.2⟩, fun d => (d.dstRegion, d.srcRegion), fun _ => rfl, fun _ => rfl⟩

structure VMAccelImageFillOp where
  dstRegion : VMAccelSurfaceRegion
  d : VMAccelElementDouble4D
  f : VMAccelElementFloat4D
  u : VMAccelElementUINT4D
  deriving DecidableEq

def xdrVMAccelImageFillOp (room : Room) : Routine VMAccelImageFillOp :=
  (xdrVMAccelSurfaceRegion.seq <| xdrVMAccelElementDouble4D.seq <|
    xdrVMAccelElementFloat4D.seq (xdrVMAccelElementUINT4D room)).iso
    ⟨fun p => ⟨p.1, p.2.1, p.2.2.1, p.2.2.2⟩, fun d => (d.dstRegion, d.d, d.f, d.u),
     fun _ => rfl, fun _ => rfl⟩

structure VMAccelImageTransferOp where
  imgRegion : VMAccelSurfaceRegion
  ptr : List Octet
  callbacks : List VMAccelCallback
  deriving DecidableEq

def xdrVMAccelImageTransferOp : Routine VMAccelImageTransferOp :=
  (xdrVMAccelSurfaceRegion.seq <| (bytes max).seq (array xdrVMAccelCallback max 48)).iso
    ⟨fun p => ⟨p.1, p.2.1, p.2.2⟩, fun d => (d.imgRegion, d.ptr, d.callbacks),
     fun _ => rfl, fun _ => rfl⟩

structure VMAccelDownloadStatus where
  status : BitVec 32
  fence : BitVec 32
  ptr : List Octet
  deriving DecidableEq

def xdrVMAccelDownloadStatus : Routine VMAccelDownloadStatus :=
  (xdrVMAccelStatusCode.seq <| xdrVMAccelId.seq (bytes max)).iso
    ⟨fun p => ⟨p.1, p.2.1, p.2.2⟩, fun d => (d.status, d.fence, d.ptr), fun _ => rfl, fun _ => rfl⟩

structure VMAccelSurfaceMapOp where
  surf : VMAccelSurfaceId
  coord : VMAccelCoordinate3DUINT
  size : VMAccelCoordinate2DUINT
  mapFlags : BitVec 32
  deriving DecidableEq

def xdrVMAccelSurfaceMapOp : Routine VMAccelSurfaceMapOp :=
  (xdrVMAccelSurfaceId.seq <| xdrVMAccelCoordinate3DUINT.seq <|
    xdrVMAccelCoordinate2DUINT.seq xdrVMAccelSurfaceMapFlags).iso
    ⟨fun p => ⟨p.1, p.2.1, p.2.2.1, p.2.2.2⟩, fun d => (d.surf, d.coord, d.size, d.mapFlags),
     fun _ => rfl, fun _ => rfl⟩

structure VMAccelSurfaceUnmapOp where
  surf : VMAccelSurfaceId
  mapFlags : BitVec 32
  ptr : List Octet
  deriving DecidableEq

def xdrVMAccelSurfaceUnmapOp : Routine VMAccelSurfaceUnmapOp :=
  (xdrVMAccelSurfaceId.seq <| xdrVMAccelSurfaceMapFlags.seq (bytes max)).iso
    ⟨fun p => ⟨p.1, p.2.1, p.2.2⟩, fun d => (d.surf, d.mapFlags, d.ptr), fun _ => rfl, fun _ => rfl⟩

structure VMAccelSurfaceMapStatus where
  status : BitVec 32
  ptr : List Octet
  deriving DecidableEq

def xdrVMAccelSurfaceMapStatus : Routine VMAccelSurfaceMapStatus :=
  (xdrVMAccelStatusCode.seq (bytes max)).iso
    ⟨fun p => ⟨p.1, p.2⟩, fun d => (d.status, d.ptr), fun _ => rfl, fun _ => rfl⟩

/-! ## The records of `vmcl_rpc.h` -/

structure VMCLContextAllocateDesc where
  accelId : BitVec 32
  clientId : BitVec 32
  selectionMask : BitVec 32
  numSubDevices : BitVec 32
  requiredCaps : BitVec 32
  deriving DecidableEq

def xdrVMCLContextAllocateDesc : Routine VMCLContextAllocateDesc :=
  (xdrVMAccelId.seq <| xdrVMCLContextId.seq <| xdrVMAccelSelectionMask.seq <|
    uint.seq xdrVMCLCaps).iso
    ⟨fun p => ⟨p.1, p.2.1, p.2.2.1, p.2.2.2.1, p.2.2.2.2⟩,
     fun d => (d.accelId, d.clientId, d.selectionMask, d.numSubDevices, d.requiredCaps),
     fun _ => rfl, fun _ => rfl⟩

structure VMCLContextAllocateStatus where
  status : BitVec 32
  caps : BitVec 32
  deriving DecidableEq

def xdrVMCLContextAllocateStatus : Routine VMCLContextAllocateStatus :=
  (xdrVMAccelStatusCode.seq xdrVMCLCaps).iso
    ⟨fun p => ⟨p.1, p.2⟩, fun d => (d.status, d.caps), fun _ => rfl, fun _ => rfl⟩

structure VMCLSurfaceId where
  cid : BitVec 32
  accel : VMAccelSurfaceId
  deriving DecidableEq

def xdrVMCLSurfaceId : Routine VMCLSurfaceId :=
  (xdrVMCLContextId.seq xdrVMAccelSurfaceId).iso
    ⟨fun p => ⟨p.1, p.2⟩, fun d => (d.cid, d.accel), fun _ => rfl, fun _ => rfl⟩

structure VMCLSurfaceAllocateDesc where
  client : VMCLSurfaceId
  desc : VMAccelSurfaceDesc
  deriving DecidableEq

def xdrVMCLSurfaceAllocateDesc (room : Room) : Routine VMCLSurfaceAllocateDesc :=
  (xdrVMCLSurfaceId.seq (xdrVMAccelSurfaceDesc room)).iso
    ⟨fun p => ⟨p.1, p.2⟩, fun d => (d.client, d.desc), fun _ => rfl, fun _ => rfl⟩

structure VMCLQueueId where
  cid : BitVec 32
  id : BitVec 32
  deriving DecidableEq

def xdrVMCLQueueId : Routine VMCLQueueId :=
  (xdrVMCLContextId.seq xdrVMAccelId).iso
    ⟨fun p => ⟨p.1, p.2⟩, fun d => (d.cid, d.id), fun _ => rfl, fun _ => rfl⟩

structure VMCLQueueAllocateDesc where
  client : VMCLQueueId
  subDevice : BitVec 32
  desc : VMAccelQueueDesc
  deriving DecidableEq

def xdrVMCLQueueAllocateDesc : Routine VMCLQueueAllocateDesc :=
  (xdrVMCLQueueId.seq <| uint.seq xdrVMAccelQueueDesc).iso
    ⟨fun p => ⟨p.1, p.2.1, p.2.2⟩, fun d => (d.client, d.subDevice, d.desc),
     fun _ => rfl, fun _ => rfl⟩

structure VMCLSurfaceCopyOp where
  queue : VMCLQueueId
  dst : VMCLSurfaceId
  src : VMCLSurfaceId
  op : VMAccelSurfaceCopyOp
  deriving DecidableEq

def xdrVMCLSurfaceCopyOp : Routine VMCLSurfaceCopyOp :=
  (xdrVMCLQueueId.seq <| xdrVMCLSurfaceId.seq <| xdrVMCLSurfaceId.seq xdrVMAccelSurfaceCopyOp).iso
    ⟨fun p => ⟨p.1, p.2.1, p.2.2.1, p.2.2.2⟩, fun d => (d.queue, d.dst, d.src, d.op),
     fun _ => rfl, fun _ => rfl⟩

structure VMCLImageFillOp where
  queue : VMCLQueueId
  img : VMCLSurfaceId
  op : VMAccelImageFillOp
  deriving DecidableEq

def xdrVMCLImageFillOp (room : Room) : Routine VMCLImageFillOp :=
  (xdrVMCLQueueId.seq <| xdrVMCLSurfaceId.seq (xdrVMAccelImageFillOp room)).iso
    ⟨fun p => ⟨p.1, p.2.1, p.2.2⟩, fun d => (d.queue, d.img, d.op), fun _ => rfl, fun _ => rfl⟩

structure VMCLImageUploadOp where
  queue : VMCLQueueId
  img : VMCLSurfaceId
  op : VMAccelImageTransferOp
  mode : BitVec 32
  deriving DecidableEq

def xdrVMCLImageUploadOp : Routine VMCLImageUploadOp :=
  (xdrVMCLQueueId.seq <| xdrVMCLSurfaceId.seq <|
    xdrVMAccelImageTransferOp.seq xdrVMAccelSurfaceWriteConsistency).iso
    ⟨fun p => ⟨p.1, p.2.1, p.2.2.1, p.2.2.2⟩, fun d => (d.queue, d.img, d.op, d.mode),
     fun _ => rfl, fun _ => rfl⟩

structure VMCLImageDownloadOp where
  queue : VMCLQueueId
  img : VMCLSurfaceId
  op : VMAccelImageTransferOp
  mode : BitVec 32
  deriving DecidableEq

def xdrVMCLImageDownloadOp : Routine VMCLImageDownloadOp :=
  (xdrVMCLQueueId.seq <| xdrVMCLSurfaceId.seq <|
    xdrVMAccelImageTransferOp.seq xdrVMAccelSurfaceReadConsistency).iso
    ⟨fun p => ⟨p.1, p.2.1, p.2.2.1, p.2.2.2⟩, fun d => (d.queue, d.img, d.op, d.mode),
     fun _ => rfl, fun _ => rfl⟩

structure VMCLSurfaceMapOp where
  queue : VMCLQueueId
  op : VMAccelSurfaceMapOp
  deriving DecidableEq

def xdrVMCLSurfaceMapOp : Routine VMCLSurfaceMapOp :=
  (xdrVMCLQueueId.seq xdrVMAccelSurfaceMapOp).iso
    ⟨fun p => ⟨p.1, p.2⟩, fun d => (d.queue, d.op), fun _ => rfl, fun _ => rfl⟩

structure VMCLSurfaceUnmapOp where
  queue : VMCLQueueId
  op : VMAccelSurfaceUnmapOp
  deriving DecidableEq

def xdrVMCLSurfaceUnmapOp : Routine VMCLSurfaceUnmapOp :=
  (xdrVMCLQueueId.seq xdrVMAccelSurfaceUnmapOp).iso
    ⟨fun p => ⟨p.1, p.2⟩, fun d => (d.queue, d.op), fun _ => rfl, fun _ => rfl⟩

structure VMCLSamplerId where
  cid : BitVec 32
  id : BitVec 32
  deriving DecidableEq

def xdrVMCLSamplerId : Routine VMCLSamplerId :=
  (xdrVMCLContextId.seq xdrVMAccelId).iso
    ⟨fun p => ⟨p.1, p.2⟩, fun d => (d.cid, d.id), fun _ => rfl, fun _ => rfl⟩

structure VMCLSamplerDesc where
  normalizedCoords : Bool
  addressMode : BitVec 32
  filterMode : BitVec 32
  deriving DecidableEq

def xdrVMCLSamplerDesc : Routine VMCLSamplerDesc :=
  (bool.seq <| xdrVMCLSamplerAddressingMode.seq xdrVMCLSamplerFilterMode).iso
    ⟨fun p => ⟨p.1, p.2.1, p.2.2⟩, fun d => (d.normalizedCoords, d.addressMode, d.filterMode),
     fun _ => rfl, fun _ => rfl⟩

structure VMCLSamplerAllocateDesc where
  client : VMCLSamplerId
  desc : VMCLSamplerDesc
  deriving DecidableEq

def xdrVMCLSamplerAllocateDesc : Routine VMCLSamplerAllocateDesc :=
  (xdrVMCLSamplerId.seq xdrVMCLSamplerDesc).iso
    ⟨fun p => ⟨p.1, p.2⟩, fun d => (d.client, d.desc), fun _ => rfl, fun _ => rfl⟩

structure VMCLSamplerAllocateStatus where
  status : BitVec 32
  deriving DecidableEq

def xdrVMCLSamplerAllocateStatus : Routine VMCLSamplerAllocateStatus :=
  xdrVMAccelStatusCode.iso ⟨fun p => ⟨p⟩, fun d => d.status, fun _ => rfl, fun _ => rfl⟩

structure VMCLKernelId where
  cid : BitVec 32
  id : BitVec 32
  deriving DecidableEq

def xdrVMCLKernelId : Routine VMCLKernelId :=
  (xdrVMCLContextId.seq xdrVMAccelId).iso
    ⟨fun p => ⟨p.1, p.2⟩, fun d => (d.cid, d.id), fun _ => rfl, fun _ => rfl⟩

structure VMCLKernelAllocateDesc where
  client : VMCLKernelId
  subDevice : BitVec 32
  language : BitVec 32
  source : List Octet
  kernelName : List Octet
  deriving DecidableEq

def xdrVMCLKernelAllocateDesc : Routine VMCLKernelAllocateDesc :=
  (xdrVMCLKernelId.seq <| uint.seq <| xdrVMCLKernelLanguage.seq <| (bytes max).seq (bytes max)).iso
    ⟨fun p => ⟨p.1, p.2.1, p.2.2.1, p.2.2.2.1, p.2.2.2.2⟩,
     fun d => (d.client, d.subDevice, d.language, d.source, d.kernelName),
     fun _ => rfl, fun _ => rfl⟩

structure VMCLKernelAllocateStatus where
  status : BitVec 32
  deriving DecidableEq

def xdrVMCLKernelAllocateStatus : Routine VMCLKernelAllocateStatus :=
  xdrVMAccelStatusCode.iso ⟨fun p => ⟨p⟩, fun d => d.status, fun _ => rfl, fun _ => rfl⟩

structure VMCLKernelArgDesc where
  queue : VMCLQueueId
  index : BitVec 32
  type : BitVec 32
  usage : BitVec 32
  surf : VMAccelSurfaceId
  sampler : VMCLSamplerId
  deriving DecidableEq

def xdrVMCLKernelArgDesc : Routine VMCLKernelArgDesc :=
  (xdrVMCLQueueId.seq <| uint.seq <| xdrVMCLKernelArgType.seq <| xdrVMAccelSurfaceUsage.seq <|
    xdrVMAccelSurfaceId.seq xdrVMCLSamplerId).iso
    ⟨fun p => ⟨p.1, p.2.1, p.2.2.1, p.2.2.2.1, p.2.2.2.2.1, p.2.2.2.2.2⟩,
     fun d => (d.queue, d.index, d.type, d.usage, d.surf, d.sampler), fun _ => rfl, fun _ => rfl⟩

structure VMCLDispatchOp where
  queue : VMCLQueueId
  kernel : VMCLKernelId
  dimension : BitVec 32
  globalWorkOffset : List (BitVec 32)
  globalWorkSize : List (BitVec 32)
  localWorkSize : List (BitVec 32)
  args : List VMCLKernelArgDesc
  refs : List VMAccelSurfaceId
  deriving DecidableEq

def xdrVMCLDispatchOp : Routine VMCLDispatchOp :=
  (xdrVMCLQueueId.seq <| xdrVMCLKernelId.seq <| uint.seq <| (array uint max 4).seq <|
    (array uint max 4).seq <| (array uint max 4).seq <|
    (array xdrVMCLKernelArgDesc max 52).seq (array xdrVMAccelSurfaceId max 24)).iso
    ⟨fun p => ⟨p.1, p.2.1, p.2.2.1, p.2.2.2.1, p.2.2.2.2.1, p.2.2.2.2.2.1, p.2.2.2.2.2.2.1,
        p.2.2.2.2.2.2.2⟩,
     fun d => (d.queue, d.kernel, d.dimension, d.globalWorkOffset, d.globalWorkSize,
        d.localWorkSize, d.args, d.refs), fun _ => rfl, fun _ => rfl⟩

/-! ## The replies -/

/-- The reply of every procedure: `errno`, and if it is 0 a pointer to what the procedure returns.
-/
abbrev ReturnStatus (α : Type) := Variant (Option α)

def xdrReturnStatus {α : Type} (r : Routine α) : Routine (ReturnStatus α) := variant (pointer r)

def xdrVMAccelReturnStatus : Routine (ReturnStatus VMAccelStatus) :=
  xdrReturnStatus xdrVMAccelStatus

def xdrVMAccelAllocateReturnStatus (room : Room) : Routine (ReturnStatus VMAccelAllocateStatus) :=
  xdrReturnStatus (xdrVMAccelAllocateStatus room)

def xdrVMAccelQueueReturnStatus : Routine (ReturnStatus VMAccelQueueStatus) :=
  xdrReturnStatus xdrVMAccelQueueStatus

def xdrVMAccelSurfaceAllocateReturnStatus (room : Room) :
    Routine (ReturnStatus VMAccelSurfaceAllocateStatus) :=
  xdrReturnStatus (xdrVMAccelSurfaceAllocateStatus room)

def xdrVMAccelDownloadReturnStatus : Routine (ReturnStatus VMAccelDownloadStatus) :=
  xdrReturnStatus xdrVMAccelDownloadStatus

def xdrVMAccelSurfaceMapReturnStatus : Routine (ReturnStatus VMAccelSurfaceMapStatus) :=
  xdrReturnStatus xdrVMAccelSurfaceMapStatus

def xdrVMCLContextAllocateReturnStatus : Routine (ReturnStatus VMCLContextAllocateStatus) :=
  xdrReturnStatus xdrVMCLContextAllocateStatus

def xdrVMCLSamplerAllocateReturnStatus : Routine (ReturnStatus VMCLSamplerAllocateStatus) :=
  xdrReturnStatus xdrVMCLSamplerAllocateStatus

def xdrVMCLKernelAllocateReturnStatus : Routine (ReturnStatus VMCLKernelAllocateStatus) :=
  xdrReturnStatus xdrVMCLKernelAllocateStatus

end VMAccel.Wire
