import VMAccel.Desc

/-!
# Contexts and the accelerator manager

The manager of `vmaccel_manager.cpp` and its clients, the `clcontext` objects of
`vmaccel_compute.hpp`. A context asks the manager for a reservation, looks at the address in the
reply, opens its context and queues on the accelerator it was sent to, and gives the reservation
back when it is destroyed. Requests to the manager are delivered reliably and one at a time, and
the requests of different contexts interleave freely between them. Contexts with a local backend
have no manager and are not part of the system.
-/

namespace VMAccel

open StepSystem

variable {M : OrderedMultiset (VMAccelObject VMAccelDesc) Resource.cmp}

/-- `VMACCEL_MAX_ACCELERATORS`. -/
def maxAccelerators : ℕ := 256

/-- `VMACCEL_MAX_LOCATION_SIZE`. -/
def maxLocationSize : ℕ := 4

/-- `VMAccel_AddressOpaqueAddrToString` for an output buffer of `len` bytes, with the text it
writes there. -/
def addressOpaqueAddrToString (addr : VMAccelAddress) (len : ℕ) : Option String :=
  if len < 4 * addr.addr.length then none
  else if addr.addr.length = 4 then
    some (".".intercalate (addr.addr.map fun b => toString b.toNat))
  else none

/-- The `VMAccelAllocateStatus` that the manager sends back. -/
structure VMAccelAllocateReply where
  id : VMAccelId
  status : StatusCode
  desc : VMAccelDesc
  deriving DecidableEq

/-- `vmaccel_manager_alloc`: a zeroed result takes the descriptor that `Alloc` stores through its
output argument, and then the status and the identifier of the static result of `Alloc`. -/
def managerAlloc (m : VMAccelAllocator VMAccelDesc M) (desc : VMAccelDesc) :
    Except Fault (VMAccelAllocateReply × VMAccelAllocator VMAccelDesc M) := do
  let r ← m.alloc desc.parentId desc
  return (⟨r.1.1.id, r.1.1.status, r.1.2.getD .zero⟩, r.2)

/-- The request of `clcontext::alloc`: all bytes zero but the type mask and the compute need. -/
def clcontextRequest (megaFlops : BitVec 32) : VMAccelDesc :=
  { VMAccelDesc.zero with
    typeMask := 1 <<< 5
    capacity := { VMAccelWorkloadDesc.zero with megaFlops := megaFlops } }

inductive Phase
  | unborn
  | replied (ret : VMAccelAllocateReply)
  | live (accelId : VMAccelId)
  | gone
  deriving DecidableEq

/-- How the Compute Accelerator behaves while a context is constructed: `clnt_create`, then
`vmcl_contextalloc_2`, then one of the `vmcl_queuealloc_2` may return `NULL`. -/
inductive Outcome
  | noClient
  | noContext
  | noQueue
  | created
  deriving DecidableEq

/-- The identifier that `clcontext::destroy` gives back. -/
def clcontextDestroy (accelId : VMAccelId) : Option VMAccelId :=
  if accelId ≠ invalidId then some accelId else none

/-- The part of `clcontext::alloc` after the reply of the manager: the next phase, and the
identifier of the free request it sends, if any. The status in the reply is not looked at. -/
def clcontextAlloc (ret : VMAccelAllocateReply) (outcome : Outcome) :
    Phase × Option VMAccelId :=
  match addressOpaqueAddrToString ret.desc.parentAddr (4 * maxLocationSize) with
  | none => (.gone, some ret.id)
  | some _ =>
    match outcome with
    | .noClient => (.gone, none)
    | .noContext => (.gone, clcontextDestroy ret.id)
    | .noQueue => (.gone, clcontextDestroy ret.id)
    | .created => (.live ret.id, none)

/-- The manager with all contexts. `holder` is a history variable: the context to which an
identifier was granted and that has not given it back. -/
structure Site (M : OrderedMultiset (VMAccelObject VMAccelDesc) Resource.cmp) where
  manager : VMAccelAllocator VMAccelDesc M
  contexts : ℕ → Phase
  holder : VMAccelId → Option ℕ

inductive Action
  | register (desc : VMAccelDesc)
  | unregister (id : VMAccelId)
  | alloc (c : ℕ) (megaFlops : BitVec 32)
  | construct (c : ℕ) (outcome : Outcome)
  | destroy (c : ℕ)

namespace Site

/-- `vmaccel_manager_poweron`, before any context exists. -/
def powerOn (M : OrderedMultiset (VMAccelObject VMAccelDesc) Resource.cmp) : Site M where
  manager := .new M maxAccelerators
  contexts _ := .unborn
  holder _ := none

/-- What the context concerned does on an action of its own, besides asking for a reservation:
its next phase and its free request. -/
def clientTurn (s : Site M) : Action → Option (ℕ × Phase × Option VMAccelId)
  | .construct c outcome =>
    match s.contexts c with
    | .replied ret => some (c, clcontextAlloc ret outcome)
    | _ => none
  | .destroy c =>
    match s.contexts c with
    | .live accelId => some (c, .gone, clcontextDestroy accelId)
    | _ => none
  | _ => none

/-- The free request that an action sends to the manager, and the context that sends it. -/
def freeRequest (s : Site M) (a : Action) : Option (ℕ × VMAccelId) :=
  (s.clientTurn a).bind fun turn => turn.2.2.map fun id => (turn.1, id)

/-- `vmaccel_manager_free`, in the build without `DEFER_FREE`. -/
def managerFree (s : Site M) : Option VMAccelId → Except Fault (Site M)
  | none => return s
  | some id => do
    let r ← s.manager.free false id
    return { s with manager := r.2, holder := Function.update s.holder id none }

def setPhase (s : Site M) (c : ℕ) (phase : Phase) : Site M :=
  { s with contexts := Function.update s.contexts c phase }

def takeTurn (s : Site M) (turn : Option (ℕ × Phase × Option VMAccelId)) :
    Except Fault (Site M) :=
  match turn with
  | none => return s
  | some (c, phase, request) => do
    let t ← s.managerFree request
    return t.setPhase c phase

/-- An action of a context in a phase where it does not apply changes nothing. -/
def step (s : Site M) : Action → Except Fault (Site M)
  | .register desc => do
    let r ← s.manager.register desc
    return { s with manager := r.2 }
  | .unregister id => do
    let r ← s.manager.unregister id
    return { s with manager := r.2 }
  | .alloc c megaFlops =>
    match s.contexts c with
    | .unborn => do
      let r ← managerAlloc s.manager (clcontextRequest megaFlops)
      let holder :=
        if r.1.status = .success then Function.update s.holder r.1.id (some c) else s.holder
      return { manager := r.2, contexts := Function.update s.contexts c (.replied r.1), holder }
    | _ => return s
  | .construct c outcome => s.takeTurn (s.clientTurn (.construct c outcome))
  | .destroy c => s.takeTurn (s.clientTurn (.destroy c))

end Site

end VMAccel
