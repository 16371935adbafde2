import VMAccel.RemoteCall
import VMAccel.StreamServer
import VMAccel.Wire

/-!
# The program VMCL

The procedures of `vmcl_rpc.h` with their numbers and messages, the dispatcher `vmcl_1`, the
functions `vmcl_*_2_svc` over the operations of a backend and the stubs `vmcl_*_2` of a client. A
client without a handle calls the functions in its own process; they are then told so by a request
that is `NULL`. Which blocks the two ends have for runs of words is up to them.
-/

namespace VMAccel.Wire

open Xdr RemoteCall StepSystem

/-- The procedures of `VMCL_VERSION`. -/
inductive Proc
  | contextalloc
  | contextdestroy
  | surfacealloc
  | surfacedestroy
  | queuealloc
  | queuedestroy
  | queueflush
  | imageupload
  | imagedownload
  | surfacemap
  | surfaceunmap
  | surfacecopy
  | imagefill
  | sampleralloc
  | samplerdestroy
  | kernelalloc
  | kerneldestroy
  | dispatch
  deriving DecidableEq

namespace Proc

/-- `VMCL_CONTEXTALLOC` to `VMCL_DISPATCH`. -/
def number : Proc → BitVec 32
  | contextalloc => 1
  | contextdestroy => 2
  | surfacealloc => 3
  | surfacedestroy => 4
  | queuealloc => 5
  | queuedestroy => 6
  | queueflush => 7
  | imageupload => 8
  | imagedownload => 9
  | surfacemap => 10
  | surfaceunmap => 11
  | surfacecopy => 12
  | imagefill => 13
  | sampleralloc => 14
  | samplerdestroy => 15
  | kernelalloc => 16
  | kerneldestroy => 17
  | dispatch => 18

/-- The cases of the `switch` in `vmcl_1`, in their order. -/
def all : List Proc :=
  [contextalloc, contextdestroy, surfacealloc, surfacedestroy, queuealloc, queuedestroy, queueflush,
    imageupload, imagedownload, surfacemap, surfaceunmap, surfacecopy, imagefill, sampleralloc,
    samplerdestroy, kernelalloc, kerneldestroy, dispatch]

def find (n : BitVec 32) : Option Proc := all.find? fun p => p.number = n

theorem find_number (p : Proc) : find p.number = some p := by
  cases p <;> rfl

theorem number_ne_zero (p : Proc) : p.number ≠ 0 := by
  cases p <;> decide

abbrev Arg : Proc → Type
  | contextalloc => VMCLContextAllocateDesc
  | contextdestroy => BitVec 32
  | surfacealloc => VMCLSurfaceAllocateDesc
  | surfacedestroy => VMCLSurfaceId
  | queuealloc => VMCLQueueAllocateDesc
  | queuedestroy => VMCLQueueId
  | queueflush => VMCLQueueId
  | imageupload => VMCLImageUploadOp
  | imagedownload => VMCLImageDownloadOp
  | surfacemap => VMCLSurfaceMapOp
  | surfaceunmap => VMCLSurfaceUnmapOp
  | surfacecopy => VMCLSurfaceCopyOp
  | imagefill => VMCLImageFillOp
  | sampleralloc => VMCLSamplerAllocateDesc
  | samplerdestroy => VMCLSamplerId
  | kernelalloc => VMCLKernelAllocateDesc
  | kerneldestroy => VMCLKernelId
  | dispatch => VMCLDispatchOp

abbrev Status : Proc → Type
  | contextalloc => VMCLContextAllocateStatus
  | surfacealloc => VMAccelSurfaceAllocateStatus
  | queuealloc => VMAccelQueueStatus
  | imagedownload => VMAccelDownloadStatus
  | surfacemap => VMAccelSurfaceMapStatus
  | sampleralloc => VMCLSamplerAllocateStatus
  | kernelalloc => VMCLKernelAllocateStatus
  | _ => VMAccelStatus

end Proc

/-- `VMCL`. -/
abbrev vmcl : Program where
  Proc := Proc
  number := Proc.number
  find := Proc.find
  find_number := Proc.find_number
  number_ne_zero := Proc.number_ne_zero
  Arg := Proc.Arg
  Res p := ReturnStatus p.Status

/-- `_xdr_argument` in `vmcl_1`. -/
def xdrArgument (room : Room) : (p : Proc) → Routine p.Arg
  | .contextalloc => xdrVMCLContextAllocateDesc
  | .contextdestroy => xdrVMCLContextId
  | .surfacealloc => xdrVMCLSurfaceAllocateDesc room
  | .surfacedestroy => xdrVMCLSurfaceId
  | .queuealloc => xdrVMCLQueueAllocateDesc
  | .queuedestroy => xdrVMCLQueueId
  | .queueflush => xdrVMCLQueueId
  | .imageupload => xdrVMCLImageUploadOp
  | .imagedownload => xdrVMCLImageDownloadOp
  | .surfacemap => xdrVMCLSurfaceMapOp
  | .surfaceunmap => xdrVMCLSurfaceUnmapOp
  | .surfacecopy => xdrVMCLSurfaceCopyOp
  | .imagefill => xdrVMCLImageFillOp room
  | .sampleralloc => xdrVMCLSamplerAllocateDesc
  | .samplerdestroy => xdrVMCLSamplerId
  | .kernelalloc => xdrVMCLKernelAllocateDesc
  | .kerneldestroy => xdrVMCLKernelId
  | .dispatch => xdrVMCLDispatchOp

/-- `_xdr_result` in `vmcl_1`. -/
def xdrResult (room : Room) : (p : Proc) → Routine (ReturnStatus p.Status)
  | .contextalloc => xdrVMCLContextAllocateReturnStatus
  | .contextdestroy => xdrVMAccelReturnStatus
  | .surfacealloc => xdrVMAccelSurfaceAllocateReturnStatus room
  | .surfacedestroy => xdrVMAccelReturnStatus
  | .queuealloc => xdrVMAccelQueueReturnStatus
  | .queuedestroy => xdrVMAccelReturnStatus
  | .queueflush => xdrVMAccelReturnStatus
  | .imageupload => xdrVMAccelReturnStatus
  | .imagedownload => xdrVMAccelDownloadReturnStatus
  | .surfacemap => xdrVMAccelSurfaceMapReturnStatus
  | .surfaceunmap => xdrVMAccelReturnStatus
  | .surfacecopy => xdrVMAccelReturnStatus
  | .imagefill => xdrVMAccelReturnStatus
  | .sampleralloc => xdrVMCLSamplerAllocateReturnStatus
  | .samplerdestroy => xdrVMAccelReturnStatus
  | .kernelalloc => xdrVMCLKernelAllocateReturnStatus
  | .kerneldestroy => xdrVMAccelReturnStatus
  | .dispatch => xdrVMAccelReturnStatus

def routines (room : Room) : Routines vmcl where
  arg := xdrArgument room
  res := xdrResult room

variable {σ ε : Type}

/-- `VMCLOps`. -/
abbrev VMCLOps (σ ε : Type) := (p : Proc) → p.Arg → σ → Except ε (Option p.Status × σ)

/-- The functions `vmcl_*_2_svc` apart from two: the status of the operation in a reply without an
error number. -/
def forward (cl : VMCLOps σ ε) (p : Proc) (argp : p.Arg) (s : σ) :
    Except ε (Option (ReturnStatus p.Status) × σ) := do
  let ret ← cl p argp s
  return (some (.arm ret.1), ret.2)

/-- `VMACCEL_FAIL`. -/
def fail : BitVec 32 := 1

/-- `vmcl_surfacemap_2_svc`. Without a request the pointers are not to be freed. -/
def surfacemap2Svc (cl : VMCLOps σ ε) (rqstp : Bool) (argp : VMCLSurfaceMapOp) (s : σ) :
    Except ε (Option (ReturnStatus VMAccelSurfaceMapStatus) × σ) :=
  if ¬ rqstp then
    forward cl .surfacemap
      { argp with op.mapFlags := argp.op.mapFlags ||| StreamServer.noFreePtrFlag } s
  else if argp.op.mapFlags &&& StreamServer.noFreePtrFlag ≠ 0 then
    .ok (some (.arm (some ⟨fail, []⟩)), s)
  else forward cl .surfacemap argp s

/-- `vmcl_surfaceunmap_2_svc`. -/
def surfaceunmap2Svc (cl : VMCLOps σ ε) (rqstp : Bool) (argp : VMCLSurfaceUnmapOp) (s : σ) :
    Except ε (Option (ReturnStatus VMAccelStatus) × σ) :=
  if ¬ rqstp then
    forward cl .surfaceunmap
      { argp with op.mapFlags := argp.op.mapFlags ||| StreamServer.noFreePtrFlag } s
  else if argp.op.mapFlags &&& StreamServer.noFreePtrFlag ≠ 0 then
    .ok (some (.arm (some ⟨[], fail⟩)), s)
  else forward cl .surfaceunmap argp s

/-- `local` in `vmcl_1`, and what a stub without a handle calls. -/
def svc (cl : VMCLOps σ ε) (rqstp : Bool) : Handlers vmcl σ ε
  | .surfacemap, argp, s => surfacemap2Svc cl rqstp argp s
  | .surfaceunmap, argp, s => surfaceunmap2Svc cl rqstp argp s
  | p, argp, s => forward cl p argp s

/-- `vmcl_1`. -/
def vmcl1 (room : Room) (cl : VMCLOps σ ε) (s : σ) (m : Message) : Except ε (Reply × σ) :=
  serve (routines room) (svc cl true) s m

/-- The stubs `vmcl_*_2` with a handle. -/
def stub (client server : Room) (cl : VMCLOps σ ε) (s : Exchange vmcl σ) (k : Call vmcl) :
    Except ε (Exchange vmcl σ) :=
  remoteStep (routines client) (routines server) (svc cl true) s k

/-- The stubs without a handle. -/
def localStub (cl : VMCLOps σ ε) (s : Exchange vmcl σ) (k : LocalCall vmcl) :
    Except ε (Exchange vmcl σ) :=
  localStep (svc cl false) s k

/-! ## Blocks make no difference -/

theorem xdrVMAccelSurfaceDesc_eq (room room' : Room) :
    xdrVMAccelSurfaceDesc room = xdrVMAccelSurfaceDesc room' := by
  rw [xdrVMAccelSurfaceDesc, xdrVMAccelSurfaceDesc, units_eq, units_eq]

theorem xdrVMAccelElementUINT4D_eq (room room' : Room) :
    xdrVMAccelElementUINT4D room = xdrVMAccelElementUINT4D room' := by
  rw [xdrVMAccelElementUINT4D, xdrVMAccelElementUINT4D, units_eq, units_eq]

theorem xdrArgument_eq (room room' : Room) (p : Proc) :
    xdrArgument room p = xdrArgument room' p := by
  cases p with
  | surfacealloc =>
    change xdrVMCLSurfaceAllocateDesc room = xdrVMCLSurfaceAllocateDesc room'
    rw [xdrVMCLSurfaceAllocateDesc, xdrVMCLSurfaceAllocateDesc, xdrVMAccelSurfaceDesc_eq room room']
  | imagefill =>
    change xdrVMCLImageFillOp room = xdrVMCLImageFillOp room'
    rw [xdrVMCLImageFillOp, xdrVMCLImageFillOp, xdrVMAccelImageFillOp, xdrVMAccelImageFillOp,
      xdrVMAccelElementUINT4D_eq room room']
  | _ => rfl

theorem xdrResult_eq (room room' : Room) (p : Proc) : xdrResult room p = xdrResult room' p := by
  cases p with
  | surfacealloc =>
    change xdrVMAccelSurfaceAllocateReturnStatus room = xdrVMAccelSurfaceAllocateReturnStatus room'
    rw [xdrVMAccelSurfaceAllocateReturnStatus, xdrVMAccelSurfaceAllocateReturnStatus,
      xdrVMAccelSurfaceAllocateStatus, xdrVMAccelSurfaceAllocateStatus,
      xdrVMAccelSurfaceDesc_eq room room']
  | _ => rfl

theorem routines_eq (room room' : Room) : routines room = routines room' := by
  rw [routines, routines, funext (xdrArgument_eq room room'), funext (xdrResult_eq room room')]

end VMAccel.Wire
