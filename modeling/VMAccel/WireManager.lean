import VMAccel.AllocatorDescent
import VMAccel.DescSurvival
import VMAccel.Manager
import VMAccel.WireSession

/-!
# The accelerator manager on the wire

`vmaccelmgr_1` of `vmaccel_mgr_svc.c` with the functions of `vmaccel_mgr_server.c` over the manager
of `vmaccel_manager.cpp`. The manager is registered for streams and for datagrams, and a message
comes with the buffer of its transport and with the memory that nothing has initialised and that
the request meets. Whatever octets arrive, the manager does what the calls among them do, so it
survives them exactly when each of these is safe. Its results can always be encoded: what they
carry was read from the wire before. They are sent unless a datagram is too small.
-/

namespace VMAccel.Wire

open Xdr RemoteCall StepSystem

inductive ManagerProc
  | register
  | unregister
  | alloc
  | free
  deriving DecidableEq

namespace ManagerProc

/-- `VMACCELMGR_REGISTER` and so on. -/
def number : ManagerProc → BitVec 32
  | register => 1
  | unregister => 2
  | alloc => 3
  | free => 4

/-- The cases of the `switch` in `vmaccelmgr_1`, in their order. -/
def all : List ManagerProc := [register, unregister, alloc, free]

def find (n : BitVec 32) : Option ManagerProc := all.find? fun p => p.number = n

theorem find_number (p : ManagerProc) : find p.number = some p := by
  cases p <;> rfl

theorem number_ne_zero (p : ManagerProc) : p.number ≠ 0 := by
  cases p <;> decide

abbrev Arg : ManagerProc → Type
  | register => VMAccelRegisterDesc
  | unregister => BitVec 32
  | alloc => VMAccelDesc
  | free => BitVec 32

abbrev Status : ManagerProc → Type
  | register => VMAccelAllocateStatus
  | unregister => VMAccelStatus
  | alloc => VMAccelAllocateStatus
  | free => VMAccelStatus

end ManagerProc

/-- `VMACCELMGR`. -/
abbrev vmaccelmgr : Program where
  Proc := ManagerProc
  number := ManagerProc.number
  find := ManagerProc.find
  find_number := ManagerProc.find_number
  number_ne_zero := ManagerProc.number_ne_zero
  Arg := ManagerProc.Arg
  Res p := ReturnStatus p.Status

/-- `_xdr_argument` and `_xdr_result` in `vmaccelmgr_1`. -/
def managerRoutines (room : Room) : Routines vmaccelmgr where
  arg
    | .register => xdrVMAccelRegisterDesc room
    | .unregister => xdrVMAccelId
    | .alloc => xdrVMAccelDesc room
    | .free => xdrVMAccelId
  res
    | .register => xdrVMAccelAllocateReturnStatus room
    | .unregister => xdrVMAccelReturnStatus
    | .alloc => xdrVMAccelAllocateReturnStatus room
    | .free => xdrVMAccelReturnStatus

/-- The memory that a request meets and that nothing has initialised: that of a new node of the free
set, and the subdevice of the entry of `allocated`, which no constructor or copy writes. -/
structure RawMemory where
  node : RawNode
  subDevice : BitVec 32

/-- A message, the room that its transport has for the result if that is limited, and the memory. -/
structure Arrival where
  msg : Message
  buffer : Option ℕ
  raw : RawMemory

variable {M : OrderedMultiset (VMAccelObject VMAccel.VMAccelDesc) Resource.cmp}

/-- The functions `vmaccelmgr_*_1_svc` with the functions of the manager that they call. A granted
descriptor is sent as the entry of `allocated` has it. -/
def managerSvc (raw : RawMemory) :
    Handlers vmaccelmgr (VMAccelAllocator VMAccel.VMAccelDesc M) Fault
  | .register, argp, m => do
    let r ← m.registerIn raw.node argp.desc.toVMAccelDesc
    return (some (.arm (some ⟨statusCode r.1.status, r.1.id, ⟨.zero, 0⟩⟩)), r.2)
  | .unregister, argp, m => do
    let r ← m.unregister argp
    return (some (.arm (some ⟨[], statusCode r.1⟩)), r.2)
  | .alloc, argp, m => do
    let r ← m.inNode raw.node (.alloc argp.parentId argp.toVMAccelDesc)
      (managerAlloc m argp.toVMAccelDesc)
    let subDevice := if r.1.status = .success then raw.subDevice else 0
    return (some (.arm (some ⟨statusCode r.1.status, r.1.id, ⟨r.1.desc, subDevice⟩⟩)), r.2)
  | .free, argp, m => do
    let r ← m.freeIn raw.node argp
    return (some (.arm (some ⟨[], statusCode r.1⟩)), r.2)

/-- `vmaccelmgr_1`. -/
def vmaccelmgr1 (room : Room) (m : VMAccelAllocator VMAccel.VMAccelDesc M) (a : Arrival) :
    Except Fault (Reply × VMAccelAllocator VMAccel.VMAccelDesc M) := do
  let x ← serve (managerRoutines room) (managerSvc a.raw) m a.msg
  return (x.1.over a.buffer, x.2)

/-- The manager on a message, of which only the effect is kept. -/
def managerStep (room : Room) (m : VMAccelAllocator VMAccel.VMAccelDesc M) (a : Arrival) :
    Except Fault (VMAccelAllocator VMAccel.VMAccelDesc M) := do
  let x ← vmaccelmgr1 room m a
  return x.2

def managerCall : LocalCall vmaccelmgr → VMAccelAllocator.Call VMAccel.VMAccelDesc
  | ⟨.register, argp⟩ => .register argp.desc.toVMAccelDesc
  | ⟨.unregister, argp⟩ => .unregister argp
  | ⟨.alloc, argp⟩ => .alloc argp.parentId argp.toVMAccelDesc
  | ⟨.free, argp⟩ => .free argp

/-- The calls among the messages that arrive, with the memory of their nodes. -/
def managerCalls (room : Room) (as : List Arrival) :
    List (VMAccelAllocator.Call VMAccel.VMAccelDesc × RawNode) :=
  as.filterMap fun a =>
    (decoded (managerRoutines room) a.msg).map fun k => (managerCall k, a.raw.node)

/-! ## The calls among the octets -/

theorem localEffect_managerSvc (raw : RawMemory) (m : VMAccelAllocator VMAccel.VMAccelDesc M)
    (k : LocalCall vmaccelmgr) :
    localEffect (managerSvc raw) m k = m.applyIn (managerCall k, raw.node) := by
  obtain ⟨p, argp⟩ := k
  cases p with
  | register =>
    change (m.inNode _ _ _ >>= _) >>= _ = m.inNode _ _ (m.register argp.desc.toVMAccelDesc >>= _)
    rw [VMAccelAllocator.inNode_bind, VMAccelAllocator.inNode_bind]
    cases m.register argp.desc.toVMAccelDesc <;> rfl
  | unregister =>
    change (m.unregister argp >>= _) >>= _ = m.unregister argp >>= _
    cases m.unregister argp <;> rfl
  | alloc =>
    change (m.inNode _ _ _ >>= _) >>= _ =
      m.inNode _ _ (m.alloc argp.parentId argp.toVMAccelDesc >>= _)
    rw [VMAccelAllocator.inNode_bind, VMAccelAllocator.inNode_bind, managerAlloc]
    cases m.alloc argp.parentId argp.toVMAccelDesc <;> rfl
  | free =>
    change (m.inNode _ _ _ >>= _) >>= _ = m.inNode _ _ (m.free false argp >>= _)
    rw [VMAccelAllocator.inNode_bind, VMAccelAllocator.inNode_bind]
    cases m.free false argp <;> rfl

theorem managerStep_eq (room : Room) (m : VMAccelAllocator VMAccel.VMAccelDesc M) (a : Arrival) :
    managerStep room m a = serveStep (managerRoutines room) (managerSvc a.raw) m a.msg := by
  unfold managerStep vmaccelmgr1 serveStep
  cases serve (managerRoutines room) (managerSvc a.raw) m a.msg <;> rfl

theorem run_managerStep (room : Room) (m : VMAccelAllocator VMAccel.VMAccelDesc M)
    (as : List Arrival) :
    run (managerStep room) m as = run VMAccelAllocator.applyIn m (managerCalls room as) := by
  induction as generalizing m with
  | nil => rfl
  | cons a as ih =>
    rw [managerCalls, List.filterMap_cons]
    cases hdec : decoded (managerRoutines room) a.msg with
    | none =>
      rw [run, managerStep_eq, serveStep_of_not_decoded hdec]
      exact ih m
    | some k =>
      rw [run, managerStep_eq, serveStep_of_decoded hdec, localEffect_managerSvc]
      dsimp only [Option.map_some]
      rw [run]
      cases m.applyIn (managerCall k, a.raw.node) with
      | ok m' => exact ih m'
      | error e => rfl

/-- Whatever messages arrive at a new manager, it survives them exactly when every request among
them to unregister or to free names an identifier that is in use when it arrives, and every request
to free finds a clear node if the accelerator has something free. -/
theorem manager_survives_iff (room : Room)
    (M : OrderedMultiset (VMAccelObject VMAccel.VMAccelDesc) Resource.cmp) (as : List Arrival) :
    Returns (run (managerStep room) (.new M maxAccelerators) as) ↔
      EachInput VMAccelAllocator.applyIn VMAccelAllocator.SafeCall (.new M maxAccelerators)
        (managerCalls room as) := by
  rw [run_managerStep]
  exact VMAccelAllocator.returns_run_iff_safeCall (by decide) (managerCalls room as)

/-! ## The replies -/

def Sendable (d : VMAccel.VMAccelDesc) : Prop :=
  d.parentAddr.addr.length ≤ 4 ∧ d.formatCaps.length ≤ maxElements 8

theorem fits_xdrVMAccelDesc {room : Room} {d : VMAccelDesc} :
    (xdrVMAccelDesc room).Fits d ↔ Sendable d.toVMAccelDesc := by
  have hformat : ∀ f, xdrVMAccelFormatDesc.Fits f := by
    intro f
    simp [xdrVMAccelFormatDesc, xdrVMAccelFormatCaps]
  have haddr : xdrVMAccelAddress.Fits ⟨d.parentAddr, d.subDevice⟩ ↔
      d.parentAddr.addr.length ≤ 4 := by
    simp [xdrVMAccelAddress, xdrVMAccelResourceType, maxLocationSize]
  have hload : (xdrVMAccelWorkloadDesc room).Fits d.capacity := by
    simp [xdrVMAccelWorkloadDesc]
  have hmax : (units room 6).Fits
      (d.maxContexts, d.maxQueues, d.maxEvents, d.maxFences, d.maxSurfaces, d.maxMappings, ()) :=
    fits_units
  rw [xdrVMAccelDesc, Routine.fits_iso]
  change Routine.Fits _ (d.parentId, (⟨d.parentAddr, d.subDevice⟩ : VMAccelAddress), d.typeMask,
    d.architecture, d.caps, d.formatCaps, d.capacity, _) ↔ _
  simp [Sendable, xdrVMAccelId, xdrVMAccelResourceType, xdrVMAccelArchitectureType, xdrVMAccelCaps,
    haddr, hload, hformat, hmax, arrayLimit_max]

theorem fits_xdrVMAccelRegisterDesc {room : Room} {d : VMAccelRegisterDesc} :
    (xdrVMAccelRegisterDesc room).Fits d ↔ (xdrVMAccelDesc room).Fits d.desc := by
  simp [xdrVMAccelRegisterDesc, xdrVMAccelResourceType]

theorem fits_xdrVMAccelAllocateStatus {room : Room} {st : VMAccelAllocateStatus} :
    (xdrVMAccelAllocateStatus room).Fits st ↔ (xdrVMAccelDesc room).Fits st.desc := by
  simp [xdrVMAccelAllocateStatus, xdrVMAccelStatusCode, xdrVMAccelId]

theorem sendable_zero : Sendable .zero := ⟨Nat.zero_le _, Nat.zero_le _⟩

structure Presentable (m : VMAccelAllocator VMAccel.VMAccelDesc M) : Prop where
  coherent : m.Coherent
  inherits : ∀ o, m.Holds o → VMAccelDesc.Inherits m.registered o
  registered : ∀ a ∈ m.registered, Sendable a

theorem presentable_new (num : ℕ) : Presentable (.new M num) where
  coherent := VMAccelAllocator.coherent_new num
  inherits o ho := absurd ho (VMAccelAllocator.not_holds_new num o)
  registered a ha := by
    rw [List.eq_of_mem_replicate ha]
    exact sendable_zero

def RegistersSendable : VMAccelAllocator.Call VMAccel.VMAccelDesc → Prop
  | .register a => Sendable a
  | _ => True

theorem registersSendable_managerCalls {room : Room} {as : List Arrival} :
    ∀ c ∈ managerCalls room as, RegistersSendable c.1 := by
  intro c hc
  obtain ⟨a, -, hc⟩ := List.mem_filterMap.mp hc
  obtain ⟨k, hdec, rfl⟩ := Option.map_eq_some_iff.mp hc
  have hfits := fits_of_decoded hdec
  obtain ⟨p, argp⟩ := k
  cases p with
  | register => exact fits_xdrVMAccelDesc.mp (fits_xdrVMAccelRegisterDesc.mp hfits)
  | unregister | alloc | free => trivial

theorem Presentable.apply {m m' : VMAccelAllocator VMAccel.VMAccelDesc M}
    {c : VMAccelAllocator.Call VMAccel.VMAccelDesc} (h : Presentable m) (hc : RegistersSendable c)
    (hr : m.apply false c = .ok m') : Presentable m' := by
  have he := VMAccelAllocator.apply_effect h.coherent hr
  refine ⟨h.coherent.effect he,
    VMAccelDesc.descends_inherits.effect h.inherits h.coherent he, ?_⟩
  cases he with
  | enrolled a hfree hk hff =>
    intro b hb
    rcases List.mem_or_eq_of_mem_set hb with hb | rfl
    · exact h.registered b hb
    · exact hc
  | _ => exact h.registered

theorem Presentable.sendable_of_inherits {m : VMAccelAllocator VMAccel.VMAccelDesc M}
    (h : Presentable m) {o : VMAccelObject VMAccel.VMAccelDesc}
    (ho : VMAccelDesc.Inherits m.registered o) : Sendable o.obj := by
  obtain ⟨a, capacity, ha, hobj⟩ := ho
  rw [hobj]
  exact h.registered a (List.mem_of_getElem? ha)

/-- The descriptor in the answer is zero, or that of a registered accelerator but for its
capacity. -/
theorem Presentable.sendable_managerAlloc {m : VMAccelAllocator VMAccel.VMAccelDesc M}
    (h : Presentable m) {desc : VMAccel.VMAccelDesc}
    {r : VMAccelAllocateReply × VMAccelAllocator VMAccel.VMAccelDesc M}
    (hr : managerAlloc m desc = .ok r) : Sendable r.1.desc := by
  obtain ⟨q, hq, hr⟩ := bind_eq_ok.mp hr
  cases hr
  rcases h.coherent.alloc_ok hq with ⟨-, rfl⟩ | ⟨-, ⟨pool, queue, -, rfl⟩ |
    ⟨k, d, pool, queue, -, -, hfind, rfl⟩⟩
  · exact sendable_zero
  · exact sendable_zero
  · have hfound := VMAccelDesc.descends_inherits.found h.inherits desc.parentId desc
    rw [hfind] at hfound
    exact h.sendable_of_inherits (hfound.found d rfl)

theorem Presentable.fits_managerSvc (room : Room) {raw : RawMemory}
    {m m' : VMAccelAllocator VMAccel.VMAccelDesc M} (h : Presentable m) {p : ManagerProc}
    {argp : p.Arg} {x : Option (ReturnStatus p.Status)}
    (hr : managerSvc raw p argp m = .ok (x, m')) :
    ∃ y, x = some y ∧ ((managerRoutines room).res p).Fits y := by
  have hstatus : ∀ st : VMAccelStatus, st.nonce.length ≤ 4 →
      xdrVMAccelReturnStatus.Fits (.arm (some st)) := fun _ hst =>
    fits_xdrReturnStatus.mpr (fits_xdrVMAccelStatus.mpr hst)
  have halloc : ∀ (status id : BitVec 32) {d : VMAccelDesc}, Sendable d.toVMAccelDesc →
      (xdrVMAccelAllocateReturnStatus room).Fits (.arm (some ⟨status, id, d⟩)) :=
    fun _ _ _ hd => fits_xdrReturnStatus.mpr
      (fits_xdrVMAccelAllocateStatus.mpr (fits_xdrVMAccelDesc.mpr hd))
  cases p with
  | register =>
    obtain ⟨r, -, heq⟩ := bind_eq_ok.mp hr
    cases heq
    exact ⟨_, rfl, halloc _ _ sendable_zero⟩
  | unregister =>
    obtain ⟨r, -, heq⟩ := bind_eq_ok.mp hr
    cases heq
    exact ⟨_, rfl, hstatus _ (Nat.zero_le _)⟩
  | alloc =>
    obtain ⟨r, hcall, heq⟩ := bind_eq_ok.mp hr
    cases heq
    exact ⟨_, rfl, halloc _ _
      (h.sendable_managerAlloc (VMAccelAllocator.inNode_ok.mp hcall).1)⟩
  | free =>
    obtain ⟨r, -, heq⟩ := bind_eq_ok.mp hr
    cases heq
    exact ⟨_, rfl, hstatus _ (Nat.zero_le _)⟩

/-- After any messages, a further message that the manager survives is answered. The answer is a
system error exactly when the result does not fit into the buffer of a datagram. -/
theorem manager_answers (room : Room)
    {M : OrderedMultiset (VMAccelObject VMAccel.VMAccelDesc) Resource.cmp} {as : List Arrival}
    {m m' : VMAccelAllocator VMAccel.VMAccelDesc M}
    (hrun : run (managerStep room) (.new M maxAccelerators) as = .ok m) {a : Arrival}
    {reply : Reply} (hserve : vmaccelmgr1 room m a = .ok (reply, m')) :
    reply ≠ .silent ∧ (reply = .systemErr ↔ ∃ n ∈ a.buffer, ∃ bs,
      serve (managerRoutines room) (managerSvc a.raw) m a.msg = .ok (.accepted bs, m') ∧
        n < bs.length) := by
  have hm : Presentable m := by
    rw [run_managerStep] at hrun
    refine run_invariant (C := fun _ c => RegistersSendable c.1)
      (fun _ _ _ h hc hr => h.apply hc (VMAccelAllocator.applyIn_ok.mp hr).1) (presentable_new _)
      ?_ hrun
    exact eachInput_of_reached fun before c after _ hcs _ =>
      registersSendable_managerCalls c (hcs ▸ List.mem_append_right before List.mem_cons_self)
  obtain ⟨⟨reply', t⟩, hsvc, heq⟩ := bind_eq_ok.mp hserve
  cases heq
  have hne : reply' ≠ .systemErr ∧ reply' ≠ .silent := by
    cases hdec : decoded (managerRoutines room) a.msg with
    | none =>
      obtain ⟨reply'', hreply, hne⟩ := serve_of_not_decoded (h := managerSvc a.raw) (s := m) hdec
      cases hsvc.symm.trans hreply
      exact hne
    | some k =>
      rw [serve_of_decoded hdec] at hsvc
      obtain ⟨⟨x, u⟩, hcall, heq⟩ := map_eq_ok.mp hsvc
      obtain ⟨y, rfl, bs, hbs⟩ := hm.fits_managerSvc room hcall
      cases heq
      dsimp only [replyWith]
      rw [hbs]
      exact ⟨Reply.noConfusion, Reply.noConfusion⟩
  refine ⟨Reply.over_ne_silent hne.2, (Reply.over_eq_systemErr hne.1).trans ?_⟩
  refine exists_congr fun n => and_congr_right fun _ => exists_congr fun bs =>
    and_congr_left fun _ => ?_
  constructor
  · rintro rfl
    exact hsvc
  · intro h
    exact congrArg Prod.fst (Except.ok.inj (hsvc.symm.trans h))

def accelDesc : VMAccelDesc where
  toVMAccelDesc := { VMAccel.VMAccelDesc.zero with
    parentAddr := ⟨[127, 0, 0, 1], 5000, 32⟩
    formatCaps := [⟨1, 3⟩, ⟨2, 3⟩]
    capacity := { VMAccelWorkloadDesc.zero with megaFlops := 8 } }
  subDevice := 1

def accelRequest : VMAccelDesc where
  toVMAccelDesc := { VMAccel.VMAccelDesc.zero with
    capacity := { VMAccelWorkloadDesc.zero with megaFlops := 2 } }
  subDevice := 0

def registerMessage : Message :=
  ⟨1, ((xdrVMAccelRegisterDesc .no).encode ⟨accelDesc, 32⟩).getD []⟩

def allocMessage : Message := ⟨3, ((xdrVMAccelDesc .no).encode accelRequest).getD []⟩

def demoMemory : RawMemory := ⟨clearNode, 7⟩

/-- The request is granted. Its answer goes out over a stream, and in a datagram of 100 octets it
becomes an error. -/
theorem manager_answers_demo :
    ∃ m : VMAccelAllocator VMAccel.VMAccelDesc (SearchTree.multiset Resource.cmp),
      run (managerStep .no) (.new _ maxAccelerators) [⟨registerMessage, none, demoMemory⟩] = .ok m ∧
      (∃ reply m', vmaccelmgr1 .no m ⟨allocMessage, none, demoMemory⟩ = .ok (reply, m') ∧
        m'.externalIds.Active 0 ∧ reply ≠ .silent ∧ reply ≠ .systemErr) ∧
      ∃ m', vmaccelmgr1 .no m ⟨allocMessage, some 100, demoMemory⟩ = .ok (.systemErr, m') := by
  have hrun : ∃ m : VMAccelAllocator VMAccel.VMAccelDesc (SearchTree.multiset Resource.cmp),
      run (managerStep .no) (.new _ maxAccelerators) [⟨registerMessage, none, demoMemory⟩] = .ok m ∧
      (vmaccelmgr1 .no m ⟨allocMessage, none, demoMemory⟩).map
        (fun x => decide (x.2.externalIds.Active 0)) = .ok true ∧
      (vmaccelmgr1 .no m ⟨allocMessage, some 100, demoMemory⟩).map Prod.fst = .ok .systemErr := by
    decide +kernel
  obtain ⟨m, hm, hgranted, hshort⟩ := hrun
  obtain ⟨⟨reply, m'⟩, hserve, hact⟩ := map_eq_ok.mp hgranted
  obtain ⟨⟨_, m''⟩, hserve', rfl⟩ := map_eq_ok.mp hshort
  obtain ⟨hsilent, hsystem⟩ := manager_answers .no hm hserve
  refine ⟨m, hm, ⟨reply, m', hserve, of_decide_eq_true hact, hsilent, fun h => ?_⟩, m'', hserve'⟩
  obtain ⟨n, hn, -⟩ := hsystem.mp h
  cases hn

end VMAccel.Wire
