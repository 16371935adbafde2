import VMAccel.WireBackend

/-!
# Sessions over the wire

Which messages can be sent at all, and what a session of a client comes to. Only counts are
limited: a nonce and an address have at most four octets, and the number of elements of an array is
limited by their size in memory. A session of stubs with a handle is the session of the stubs
without one, as far as the calls do not ask for the flag that the server keeps for itself; when
messages are lost it is the session of the calls that have arrived.
-/

namespace VMAccel.Wire

open Xdr RemoteCall StepSystem

/-! ## What can be sent -/

def maxElements (size : ℕ) : ℕ := (2 ^ 32 - 1) / size

def maxBytes : ℕ := 2 ^ 32 - 1

theorem arrayLimit_max (size : ℕ) : arrayLimit max size = maxElements size :=
  min_eq_right (Nat.div_le_self ..)

theorem max_toNat : max.toNat = maxBytes := rfl

def VMAccelCallback.Within (c : VMAccelCallback) : Prop :=
  c.addr.addr.length ≤ 4 ∧ c.payload.length ≤ maxBytes

def VMAccelImageTransferOp.Within (op : VMAccelImageTransferOp) : Prop :=
  op.ptr.length ≤ maxBytes ∧ op.callbacks.length ≤ maxElements 48 ∧
    ∀ c ∈ op.callbacks, c.Within

/-- The counts of an argument are within their limits. -/
def ArgWithin : (p : Proc) → p.Arg → Prop
  | .imageupload, argp => argp.op.Within
  | .imagedownload, argp => argp.op.Within
  | .surfaceunmap, argp => argp.op.ptr.length ≤ maxBytes
  | .kernelalloc, argp => argp.source.length ≤ maxBytes ∧ argp.kernelName.length ≤ maxBytes
  | .dispatch, argp =>
    argp.globalWorkOffset.length ≤ maxElements 4 ∧ argp.globalWorkSize.length ≤ maxElements 4 ∧
      argp.localWorkSize.length ≤ maxElements 4 ∧ argp.args.length ≤ maxElements 52 ∧
      argp.refs.length ≤ maxElements 24
  | _, _ => True

def StatusWithin : (p : Proc) → p.Status → Prop
  | .contextalloc, _ | .surfacealloc, _ | .queuealloc, _ | .sampleralloc, _ | .kernelalloc, _ =>
    True
  | .imagedownload, st => st.ptr.length ≤ maxBytes
  | .surfacemap, st => st.ptr.length ≤ maxBytes
  | .contextdestroy, st | .surfacedestroy, st | .queuedestroy, st | .queueflush, st
  | .imageupload, st | .surfaceunmap, st | .surfacecopy, st | .imagefill, st
  | .samplerdestroy, st | .kerneldestroy, st | .dispatch, st => st.nonce.length ≤ 4

@[simp] theorem fits_xdrVMAccelSurfaceId {x : VMAccelSurfaceId} : xdrVMAccelSurfaceId.Fits x := by
  simp [xdrVMAccelSurfaceId, xdrVMAccelSurfaceType, xdrVMAccelHandleType, xdrVMAccelId]

@[simp] theorem fits_xdrVMCLQueueId {x : VMCLQueueId} : xdrVMCLQueueId.Fits x := by
  simp [xdrVMCLQueueId, xdrVMCLContextId, xdrVMAccelId]

@[simp] theorem fits_xdrVMCLSurfaceId {x : VMCLSurfaceId} : xdrVMCLSurfaceId.Fits x := by
  simp [xdrVMCLSurfaceId, xdrVMCLContextId, xdrVMAccelId]

@[simp] theorem fits_xdrVMCLSamplerId {x : VMCLSamplerId} : xdrVMCLSamplerId.Fits x := by
  simp [xdrVMCLSamplerId, xdrVMCLContextId, xdrVMAccelId]

@[simp] theorem fits_xdrVMCLKernelId {x : VMCLKernelId} : xdrVMCLKernelId.Fits x := by
  simp [xdrVMCLKernelId, xdrVMCLContextId, xdrVMAccelId]

@[simp] theorem fits_xdrVMAccelSurfaceDesc {room : Room} {x : VMAccelSurfaceDesc} :
    (xdrVMAccelSurfaceDesc room).Fits x := by
  simp [xdrVMAccelSurfaceDesc, xdrVMAccelId, xdrVMAccelSurfaceType, xdrVMAccelSurfaceFormat,
    xdrVMAccelSurfaceFormatCaps, xdrVMAccelSurfacePool, xdrVMAccelSurfaceUsage,
    xdrVMAccelSurfaceBindFlags]

@[simp] theorem fits_xdrVMAccelSurfaceRegion {x : VMAccelSurfaceRegion} :
    xdrVMAccelSurfaceRegion.Fits x := by
  simp [xdrVMAccelSurfaceRegion, xdrVMAccelCoordinate3DUINT]

@[simp] theorem fits_xdrVMAccelCallback {x : VMAccelCallback} :
    xdrVMAccelCallback.Fits x ↔ x.Within := by
  simp [xdrVMAccelCallback, xdrVMAccelAddress, xdrVMAccelResourceType, VMAccelCallback.Within,
    maxLocationSize, max_toNat]

@[simp] theorem fits_xdrVMAccelImageTransferOp {x : VMAccelImageTransferOp} :
    xdrVMAccelImageTransferOp.Fits x ↔ x.Within := by
  simp [xdrVMAccelImageTransferOp, VMAccelImageTransferOp.Within, arrayLimit_max, max_toNat]

@[simp] theorem fits_xdrVMCLKernelArgDesc {x : VMCLKernelArgDesc} :
    xdrVMCLKernelArgDesc.Fits x := by
  simp [xdrVMCLKernelArgDesc, xdrVMCLKernelArgType, xdrVMAccelSurfaceUsage]

theorem fits_xdrVMCLContextAllocateDesc {x : VMCLContextAllocateDesc} :
    xdrVMCLContextAllocateDesc.Fits x := by
  simp [xdrVMCLContextAllocateDesc, xdrVMAccelId, xdrVMCLContextId, xdrVMAccelSelectionMask,
    xdrVMCLCaps]

theorem fits_xdrVMCLSurfaceAllocateDesc {room : Room} {x : VMCLSurfaceAllocateDesc} :
    (xdrVMCLSurfaceAllocateDesc room).Fits x := by
  simp [xdrVMCLSurfaceAllocateDesc]

theorem fits_xdrVMCLQueueAllocateDesc {x : VMCLQueueAllocateDesc} :
    xdrVMCLQueueAllocateDesc.Fits x := by
  simp [xdrVMCLQueueAllocateDesc, xdrVMAccelQueueDesc, xdrVMAccelQueueFlags]

theorem fits_xdrVMCLSurfaceMapOp {x : VMCLSurfaceMapOp} : xdrVMCLSurfaceMapOp.Fits x := by
  simp [xdrVMCLSurfaceMapOp, xdrVMAccelSurfaceMapOp, xdrVMAccelCoordinate3DUINT,
    xdrVMAccelCoordinate2DUINT, xdrVMAccelSurfaceMapFlags]

theorem fits_xdrVMCLSurfaceCopyOp {x : VMCLSurfaceCopyOp} : xdrVMCLSurfaceCopyOp.Fits x := by
  simp [xdrVMCLSurfaceCopyOp, xdrVMAccelSurfaceCopyOp]

theorem fits_xdrVMCLImageFillOp {room : Room} {x : VMCLImageFillOp} :
    (xdrVMCLImageFillOp room).Fits x := by
  simp [xdrVMCLImageFillOp, xdrVMAccelImageFillOp, xdrVMAccelElementDouble4D,
    xdrVMAccelElementFloat4D, xdrVMAccelElementUINT4D]

theorem fits_xdrVMCLSamplerAllocateDesc {x : VMCLSamplerAllocateDesc} :
    xdrVMCLSamplerAllocateDesc.Fits x := by
  simp [xdrVMCLSamplerAllocateDesc, xdrVMCLSamplerDesc, xdrVMCLSamplerAddressingMode,
    xdrVMCLSamplerFilterMode]

theorem fits_xdrVMCLImageUploadOp {x : VMCLImageUploadOp} :
    xdrVMCLImageUploadOp.Fits x ↔ x.op.Within := by
  simp [xdrVMCLImageUploadOp, xdrVMAccelSurfaceWriteConsistency]

theorem fits_xdrVMCLImageDownloadOp {x : VMCLImageDownloadOp} :
    xdrVMCLImageDownloadOp.Fits x ↔ x.op.Within := by
  simp [xdrVMCLImageDownloadOp, xdrVMAccelSurfaceReadConsistency]

theorem fits_xdrVMCLSurfaceUnmapOp {x : VMCLSurfaceUnmapOp} :
    xdrVMCLSurfaceUnmapOp.Fits x ↔ x.op.ptr.length ≤ maxBytes := by
  simp [xdrVMCLSurfaceUnmapOp, xdrVMAccelSurfaceUnmapOp, xdrVMAccelSurfaceMapFlags, max_toNat]

theorem fits_xdrVMCLKernelAllocateDesc {x : VMCLKernelAllocateDesc} :
    xdrVMCLKernelAllocateDesc.Fits x ↔
      x.source.length ≤ maxBytes ∧ x.kernelName.length ≤ maxBytes := by
  simp [xdrVMCLKernelAllocateDesc, xdrVMCLKernelLanguage, max_toNat]

theorem fits_xdrVMCLDispatchOp {x : VMCLDispatchOp} :
    xdrVMCLDispatchOp.Fits x ↔
      x.globalWorkOffset.length ≤ maxElements 4 ∧ x.globalWorkSize.length ≤ maxElements 4 ∧
        x.localWorkSize.length ≤ maxElements 4 ∧ x.args.length ≤ maxElements 52 ∧
        x.refs.length ≤ maxElements 24 := by
  simp [xdrVMCLDispatchOp, arrayLimit_max]

theorem fits_xdrArgument {room : Room} {p : Proc} {argp : p.Arg} :
    (xdrArgument room p).Fits argp ↔ ArgWithin p argp := by
  cases p with
  | contextalloc => exact iff_of_true fits_xdrVMCLContextAllocateDesc trivial
  | contextdestroy => exact iff_of_true fits_uint trivial
  | surfacealloc => exact iff_of_true fits_xdrVMCLSurfaceAllocateDesc trivial
  | surfacedestroy => exact iff_of_true fits_xdrVMCLSurfaceId trivial
  | queuealloc => exact iff_of_true fits_xdrVMCLQueueAllocateDesc trivial
  | queuedestroy | queueflush => exact iff_of_true fits_xdrVMCLQueueId trivial
  | imageupload => exact fits_xdrVMCLImageUploadOp
  | imagedownload => exact fits_xdrVMCLImageDownloadOp
  | surfacemap => exact iff_of_true fits_xdrVMCLSurfaceMapOp trivial
  | surfaceunmap => exact fits_xdrVMCLSurfaceUnmapOp
  | surfacecopy => exact iff_of_true fits_xdrVMCLSurfaceCopyOp trivial
  | imagefill => exact iff_of_true fits_xdrVMCLImageFillOp trivial
  | sampleralloc => exact iff_of_true fits_xdrVMCLSamplerAllocateDesc trivial
  | samplerdestroy => exact iff_of_true fits_xdrVMCLSamplerId trivial
  | kernelalloc => exact fits_xdrVMCLKernelAllocateDesc
  | kerneldestroy => exact iff_of_true fits_xdrVMCLKernelId trivial
  | dispatch => exact fits_xdrVMCLDispatchOp

theorem fits_xdrReturnStatus {α : Type} {r : Routine α} {a : α} :
    (xdrReturnStatus r).Fits (.arm (some a)) ↔ r.Fits a := by
  simp [xdrReturnStatus]

theorem fits_xdrReturnStatus_null {α : Type} {r : Routine α} :
    (xdrReturnStatus r).Fits (.arm none) := by
  rw [xdrReturnStatus, fits_variant]
  rintro _ ⟨⟩
  exact (fits_pointer r).mpr (by simp)

theorem fits_xdrVMAccelStatus {x : VMAccelStatus} :
    xdrVMAccelStatus.Fits x ↔ x.nonce.length ≤ 4 := by
  simp [xdrVMAccelStatus, xdrVMAccelStatusCode, maxNonceSize]

theorem fits_xdrVMCLContextAllocateStatus {x : VMCLContextAllocateStatus} :
    xdrVMCLContextAllocateStatus.Fits x := by
  simp [xdrVMCLContextAllocateStatus, xdrVMAccelStatusCode, xdrVMCLCaps]

theorem fits_xdrVMAccelSurfaceAllocateStatus {room : Room} {x : VMAccelSurfaceAllocateStatus} :
    (xdrVMAccelSurfaceAllocateStatus room).Fits x := by
  simp [xdrVMAccelSurfaceAllocateStatus, xdrVMAccelStatusCode]

theorem fits_xdrVMAccelQueueStatus {x : VMAccelQueueStatus} : xdrVMAccelQueueStatus.Fits x := by
  simp [xdrVMAccelQueueStatus, xdrVMAccelStatusCode]

theorem fits_xdrVMAccelDownloadStatus {x : VMAccelDownloadStatus} :
    xdrVMAccelDownloadStatus.Fits x ↔ x.ptr.length ≤ maxBytes := by
  simp [xdrVMAccelDownloadStatus, xdrVMAccelStatusCode, xdrVMAccelId, max_toNat]

theorem fits_xdrVMAccelSurfaceMapStatus {x : VMAccelSurfaceMapStatus} :
    xdrVMAccelSurfaceMapStatus.Fits x ↔ x.ptr.length ≤ maxBytes := by
  simp [xdrVMAccelSurfaceMapStatus, xdrVMAccelStatusCode, max_toNat]

theorem fits_xdrVMCLSamplerAllocateStatus {x : VMCLSamplerAllocateStatus} :
    xdrVMCLSamplerAllocateStatus.Fits x := by
  simp [xdrVMCLSamplerAllocateStatus, xdrVMAccelStatusCode]

theorem fits_xdrVMCLKernelAllocateStatus {x : VMCLKernelAllocateStatus} :
    xdrVMCLKernelAllocateStatus.Fits x := by
  simp [xdrVMCLKernelAllocateStatus, xdrVMAccelStatusCode]

theorem fits_xdrResult {room : Room} {p : Proc} {st : p.Status} :
    (xdrResult room p).Fits (.arm (some st)) ↔ StatusWithin p st := by
  cases p with
  | contextalloc =>
    exact iff_of_true (fits_xdrReturnStatus.mpr fits_xdrVMCLContextAllocateStatus) trivial
  | surfacealloc =>
    exact iff_of_true (fits_xdrReturnStatus.mpr fits_xdrVMAccelSurfaceAllocateStatus) trivial
  | queuealloc => exact iff_of_true (fits_xdrReturnStatus.mpr fits_xdrVMAccelQueueStatus) trivial
  | imagedownload => exact fits_xdrReturnStatus.trans fits_xdrVMAccelDownloadStatus
  | surfacemap => exact fits_xdrReturnStatus.trans fits_xdrVMAccelSurfaceMapStatus
  | sampleralloc =>
    exact iff_of_true (fits_xdrReturnStatus.mpr fits_xdrVMCLSamplerAllocateStatus) trivial
  | kernelalloc =>
    exact iff_of_true (fits_xdrReturnStatus.mpr fits_xdrVMCLKernelAllocateStatus) trivial
  | _ => exact fits_xdrReturnStatus.trans fits_xdrVMAccelStatus

/-- Exactly the arguments within the limits can be sent. Whichever blocks the two ends have, the
server reads the argument that was sent and no octet more, and refuses it when it is cut short. -/
theorem argument_on_wire (client server : Room) (p : Proc) (argp : p.Arg) :
    ArgWithin p argp ↔ ∃ bs, (xdrArgument client p).encode argp = some bs ∧
      (∀ rest, (xdrArgument server p).decode (bs ++ rest) = some (argp, rest)) ∧
      ∀ cs cut, bs = cs ++ cut → cut ≠ [] → (xdrArgument server p).decode cs = none := by
  rw [← @fits_xdrArgument server, xdrArgument_eq client server]
  constructor
  · rintro ⟨bs, hbs⟩
    refine ⟨bs, hbs, (xdrArgument server p).decode_encode hbs, ?_⟩
    rintro cs cut rfl hcut
    exact (xdrArgument server p).decode_eq_none_of_cut hbs hcut
  · rintro ⟨bs, hbs, -⟩
    exact ⟨bs, hbs⟩

/-- What a server accepts is within the limits, and sending it again takes as many octets as were
read. -/
theorem accepted_argument (client server : Room) {p : Proc} {argp : p.Arg} {bs rest : List Octet}
    (h : (xdrArgument server p).decode bs = some (argp, rest)) :
    ArgWithin p argp ∧ ∃ cs, (xdrArgument client p).encode argp = some cs ∧
      bs.length = cs.length + rest.length := by
  rw [xdrArgument_eq client server]
  exact ⟨fits_xdrArgument.mp ((xdrArgument server p).fits_of_decode h),
    (xdrArgument server p).encode_decode h⟩

def unmapDemo : VMCLSurfaceUnmapOp := ⟨⟨1, 2⟩, ⟨⟨2, 0, 3, 0, 0, 5⟩, 2, [7, 8, 9]⟩⟩

def unmapOctets : List Octet :=
  [0, 0, 0, 1, 0, 0, 0, 2, 0, 0, 0, 2, 0, 0, 0, 0, 0, 0, 0, 3, 0, 0, 0, 0, 0, 0, 0, 0, 0, 0, 0, 5,
    0, 0, 0, 2, 0, 0, 0, 3, 7, 8, 9, 0]

theorem accepted_argument_surfaceunmap :
    ArgWithin .surfaceunmap unmapDemo ∧
      ∃ cs, (xdrArgument .no .surfaceunmap).encode unmapDemo = some cs ∧
        (unmapOctets ++ [1]).length = cs.length + [(1 : Octet)].length := by
  have h : (xdrArgument .no .surfaceunmap).decode (unmapOctets ++ [1]) = some (unmapDemo, [1]) :=
    rfl
  exact accepted_argument .no .no h

/-! ## Sessions -/

variable {σ ε : Type} {cl : VMCLOps σ ε}

/-- The backend returns only statuses that can be sent. -/
def Replies (cl : VMCLOps σ ε) : Prop :=
  ∀ p argp s st s', cl p argp s = .ok (some st, s') → StatusWithin p st

/-- It makes no difference to the backend whether pointers are to be freed. -/
structure FlagBlind (cl : VMCLOps σ ε) : Prop where
  surfacemap : ∀ (argp : VMCLSurfaceMapOp) s,
    cl .surfacemap { argp with op.mapFlags := argp.op.mapFlags ||| StreamServer.noFreePtrFlag } s =
      cl .surfacemap argp s
  surfaceunmap : ∀ (argp : VMCLSurfaceUnmapOp) s,
    cl .surfaceunmap
      { argp with op.mapFlags := argp.op.mapFlags ||| StreamServer.noFreePtrFlag } s =
        cl .surfaceunmap argp s

/-- The client leaves `VMACCEL_MAP_NO_FREE_PTR_FLAG` to the functions of the service. -/
def LeavesFlag : (p : Proc) → p.Arg → Prop
  | .surfacemap, argp => argp.op.mapFlags &&& StreamServer.noFreePtrFlag = 0
  | .surfaceunmap, argp => argp.op.mapFlags &&& StreamServer.noFreePtrFlag = 0
  | _, _ => True

theorem and_asyncFlag (mapFlags : BitVec 32) :
    (mapFlags ||| StreamServer.noFreePtrFlag) &&& StreamServer.asyncFlag =
      mapFlags &&& StreamServer.asyncFlag := by
  have hdisjoint : StreamServer.noFreePtrFlag &&& StreamServer.asyncFlag = 0#32 := by decide
  rw [BitVec.and_or_distrib_right, hdisjoint, BitVec.or_zero]

/-- `vmwopencl_surfacemap_1` does not look at the flag, and `vmwopencl_surfaceunmap_1` only frees
the data of the message. -/
theorem flagBlind_vmwopenclOps (host : Host) : FlagBlind (vmwopenclOps host) where
  surfacemap argp w := by
    simp only [vmwopenclOps, request, and_asyncFlag]
    rfl
  surfaceunmap argp w := rfl

theorem replies_vmwopenclOps {host : Host}
    (hreply : ∀ i p status, StatusWithin p (host.reply i p status)) :
    Replies (vmwopenclOps host) := by
  intro p argp w st w' h
  unfold vmwopenclOps at h
  cases hr : request (host.answers w.requests) p argp with
  | none =>
    rw [hr] at h
    cases h
  | some r =>
    rw [hr] at h
    obtain ⟨x, -, h⟩ := bind_eq_ok.mp h
    split_ifs at h with hover
    cases h
    exact hreply _ p x.1

theorem statusWithin_plainStatus (status : StatusCode) (p : Proc) :
    StatusWithin p (plainStatus status p) := by
  cases p <;> first
    | exact trivial
    | exact Nat.zero_le _

theorem forward_ok {p : Proc} {argp : p.Arg} {s s' : σ} {x : Option (ReturnStatus p.Status)}
    (h : forward cl p argp s = .ok (x, s')) :
    ∃ ret, cl p argp s = .ok (ret, s') ∧ x = some (.arm ret) := by
  obtain ⟨⟨ret, t⟩, hcl, heq⟩ := bind_eq_ok.mp h
  cases heq
  exact ⟨ret, hcl, rfl⟩

theorem fits_of_forward (hcl : Replies cl) (room : Room) {p : Proc} {argp : p.Arg} {s s' : σ}
    {x : ReturnStatus p.Status} (h : forward cl p argp s = .ok (some x, s')) :
    (xdrResult room p).Fits x := by
  obtain ⟨ret, hret, heq⟩ := forward_ok h
  cases heq
  cases ret with
  | none => cases p <;> exact fits_xdrReturnStatus_null
  | some st => exact fits_xdrResult.mpr (hcl p argp s st s' hret)

theorem fits_of_surfacemap2Svc (hcl : Replies cl) (room : Room) {argp : VMCLSurfaceMapOp} {s s' : σ}
    {x : ReturnStatus VMAccelSurfaceMapStatus}
    (h : surfacemap2Svc cl true argp s = .ok (some x, s')) :
    (xdrResult room .surfacemap).Fits x := by
  unfold surfacemap2Svc at h
  rw [if_neg (by simp)] at h
  split_ifs at h with hflag
  · cases h
    exact fits_xdrReturnStatus.mpr (fits_xdrVMAccelSurfaceMapStatus.mpr (Nat.zero_le _))
  · exact fits_of_forward hcl room h

theorem fits_of_surfaceunmap2Svc (hcl : Replies cl) (room : Room) {argp : VMCLSurfaceUnmapOp}
    {s s' : σ} {x : ReturnStatus VMAccelStatus}
    (h : surfaceunmap2Svc cl true argp s = .ok (some x, s')) :
    (xdrResult room .surfaceunmap).Fits x := by
  unfold surfaceunmap2Svc at h
  rw [if_neg (by simp)] at h
  split_ifs at h with hflag
  · cases h
    exact fits_xdrReturnStatus.mpr (fits_xdrVMAccelStatus.mpr (Nat.zero_le _))
  · exact fits_of_forward hcl room h

theorem fit_svc (hcl : Replies cl) (room : Room) : Fit (routines room) (svc cl true) := by
  intro p argp s x s' h
  cases p with
  | surfacemap => exact fits_of_surfacemap2Svc hcl room h
  | surfaceunmap => exact fits_of_surfaceunmap2Svc hcl room h
  | _ => exact fits_of_forward hcl room h

theorem surfacemap2Svc_eq (hblind : FlagBlind cl) {argp : VMCLSurfaceMapOp}
    (hflag : argp.op.mapFlags &&& StreamServer.noFreePtrFlag = 0) (s : σ) :
    surfacemap2Svc cl true argp s = surfacemap2Svc cl false argp s := by
  unfold surfacemap2Svc
  rw [if_neg (by simp), if_neg (not_not.mpr hflag), if_pos (by simp), forward, forward,
    hblind.surfacemap]

theorem surfaceunmap2Svc_eq (hblind : FlagBlind cl) {argp : VMCLSurfaceUnmapOp}
    (hflag : argp.op.mapFlags &&& StreamServer.noFreePtrFlag = 0) (s : σ) :
    surfaceunmap2Svc cl true argp s = surfaceunmap2Svc cl false argp s := by
  unfold surfaceunmap2Svc
  rw [if_neg (by simp), if_neg (not_not.mpr hflag), if_pos (by simp), forward, forward,
    hblind.surfaceunmap]

theorem svc_eq (hblind : FlagBlind cl) {p : Proc} {argp : p.Arg} (hflag : LeavesFlag p argp)
    (s : σ) : svc cl true p argp s = svc cl false p argp s := by
  cases p with
  | surfacemap => exact surfacemap2Svc_eq hblind hflag s
  | surfaceunmap => exact surfaceunmap2Svc_eq hblind hflag s
  | _ => rfl

theorem stub_eq (client server : Room) (cl : VMCLOps σ ε) :
    stub client server cl = remoteStep (routines server) (routines server) (svc cl true) := by
  funext s k
  rw [stub, routines_eq client server]

/-- A session of stubs with a handle in which nothing is lost is the session of the stubs without
one: the same answers, the same state of the backend and the same faults. -/
theorem run_stub_eq (client server : Room) (hblind : FlagBlind cl) (hcl : Replies cl)
    {ks : List (Call vmcl)}
    (hks : ∀ k ∈ ks, ArgWithin k.proc k.arg ∧ k.delivery = .delivered ∧ LeavesFlag k.proc k.arg)
    (s : Exchange vmcl σ) :
    run (stub client server cl) s ks = run (localStub cl) s (ks.map Call.toLocal) := by
  rw [stub_eq, run_remoteStep_eq (fit_svc hcl server)
    fun k hk => ⟨fits_xdrArgument.mpr (hks k hk).1, (hks k hk).2.1⟩]
  refine run_congr ?_ s
  intro l hl t
  obtain ⟨k, hk, rfl⟩ := List.mem_map.mp hl
  rw [localStub, localStep, localStep]
  congr 1
  exact svc_eq hblind (hks k hk).2.2 t.state

def sessionDemo : List (Call vmcl) :=
  [⟨.contextalloc, ⟨0, 1, 15, 1, 0⟩, .delivered⟩, ⟨.contextdestroy, (1 : BitVec 32), .delivered⟩]

theorem run_stub_eq_demo :
    run (stub .no .no (vmwopenclOps hostDemo)) ⟨⟨.powerOn, 0⟩, []⟩ sessionDemo =
      run (localStub (vmwopenclOps hostDemo)) ⟨⟨.powerOn, 0⟩, []⟩ (sessionDemo.map Call.toLocal) :=
  run_stub_eq .no .no (flagBlind_vmwopenclOps hostDemo)
    (replies_vmwopenclOps fun _ p status => statusWithin_plainStatus status p)
    (by
      intro k hk
      simp only [sessionDemo, List.mem_cons, List.not_mem_nil, or_false] at hk
      rcases hk with rfl | rfl
      · exact ⟨trivial, rfl, trivial⟩
      · exact ⟨trivial, rfl, trivial⟩) _

/-- A session of stubs with a handle, whatever messages are lost: the backend is where the calls
that have arrived leave it, and the answers that the client has are answers of these calls. -/
theorem run_stub_among (client server : Room) (hblind : FlagBlind cl) {ks : List (Call vmcl)}
    (hks : ∀ k ∈ ks, LeavesFlag k.proc k.arg) {s s' : Exchange vmcl σ}
    (h : run (stub client server cl) s ks = .ok s') :
    ∃ t, run (localStub cl) s (ks.filterMap (Call.arrived (routines server))) = .ok t ∧
      s'.Among t := by
  rw [stub_eq] at h
  obtain ⟨t, ht, hst⟩ := run_remoteStep_among ⟨rfl, List.Sublist.refl _⟩ h
  refine ⟨t, ?_, hst⟩
  rw [← ht]
  refine run_congr ?_ s
  intro l hl u
  obtain ⟨k, hk, harrived⟩ := List.mem_filterMap.mp hl
  have hkl : l = k.toLocal := (call_of_arrived (h := svc cl true) (s := u.state) harrived).1
  subst hkl
  rw [localStub, localStep, localStep]
  congr 1
  exact (svc_eq hblind (hks k hk) u.state).symm

def lossDemo : List (Call vmcl) :=
  [⟨.contextalloc, ⟨0, 1, 15, 1, 0⟩, .replyLost⟩, ⟨.contextdestroy, (1 : BitVec 32), .requestLost⟩,
    ⟨.contextdestroy, (1 : BitVec 32), .delivered⟩]

theorem run_stub_among_demo :
    ∃ s t, run (stub .no .no (vmwopenclOps hostDemo)) ⟨⟨.powerOn, 0⟩, []⟩ lossDemo = .ok s ∧
      run (localStub (vmwopenclOps hostDemo)) ⟨⟨.powerOn, 0⟩, []⟩
        (lossDemo.filterMap (Call.arrived (routines .no))) = .ok t ∧ s.Among t := by
  have hflag : ∀ k ∈ lossDemo, LeavesFlag k.proc k.arg := by
    intro k hk
    simp only [lossDemo, List.mem_cons, List.not_mem_nil, or_false] at hk
    rcases hk with rfl | rfl | rfl <;> trivial
  have hrun : ∃ s, run (stub .no .no (vmwopenclOps hostDemo)) ⟨⟨.powerOn, 0⟩, []⟩ lossDemo = .ok s ∧
      True := by decide
  obtain ⟨s, hs, -⟩ := hrun
  obtain ⟨t, ht, hst⟩ := run_stub_among .no .no (flagBlind_vmwopenclOps hostDemo) hflag hs
  exact ⟨s, t, hs, ht, hst⟩

end VMAccel.Wire
