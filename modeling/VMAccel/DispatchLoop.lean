import VMAccel.BackendLocks
import VMAccel.BackendDispatch

/-!
# The loops of a dispatch

`vmwopencl_dispatch_1` with everything it does on the way: which entries of the request it reads,
which mutexes it locks and unlocks, and whether it enqueues the kernel. `argIndex` is a signed
integer that is compared with the unsigned `args_len`; where a pointer is advanced by it, it counts
as a signed number.
-/

namespace VMAccel

open StepSystem EventLog HoldCounts

inductive WorkArray
  | globalOffset
  | globalSize
  | localSize
  deriving DecidableEq

/-- A dispatch as it is sent; `args_len` has 32 bits. -/
structure VMCLDispatchOp where
  op : DispatchOp
  work : WorkArray → List (BitVec 32)
  length_args : op.args.length < 2 ^ 32

inductive DispatchEvent
  | mutex (op : Op Mutex)
  | readArg (i : ℤ)
  | readWork (array : WorkArray) (i : ℕ)
  | launch (dimension : BitVec 32) (work : WorkArray → List (BitVec 32))

namespace Dispatch

open Logged

abbrev Observed (α : Type) := Logged DispatchEvent Fault α

def lock (m : Mutex) : Observed Unit := tell (.mutex (.lock m))

def unlock (m : Mutex) : Observed Unit := tell (.mutex (.unlock m))

/-- `args_val[argIndex]`. -/
def readArg (argp : VMCLDispatchOp) (i : BitVec 32) : Observed KernelArg := do
  tell (.readArg i.toInt)
  lift (if i.toInt < 0 then .error .outOfBounds else readAt argp.op.args i.toNat)

/-- The loop that locks and sets the arguments, with the number of rounds that are left. The result
is the status and the value of `argIndex` at the end. -/
def setArgs (s : Backend) (argp : VMCLDispatchOp) :
    ℕ → BitVec 32 → Observed (StatusCode × BitVec 32)
  | 0, i => return (.success, i)
  | rounds + 1, i => do
    let a ← readArg argp i
    lift (require a.isSurface)
    let p ← lift (s.locate a.sid a.inst)
    lock (.surface a.sid.toNat)
    lock (.inst a.sid.toNat a.inst.toNat)
    if p.2.generation ≠ a.generation then
      return (Backend.outOfSync p.2.generation a.generation, i)
    else if a.set = false then return (.fail, i)
    else setArgs s argp rounds (i + 1)

def readWork (argp : VMCLDispatchOp) (array : WorkArray) (i : ℕ) : Observed (BitVec 32) := do
  tell (.readWork array i)
  lift (readAt (argp.work array) i)

def push (work : WorkArray → List (BitVec 32)) (offset size localSize : BitVec 32) :
    WorkArray → List (BitVec 32)
  | .globalOffset => work .globalOffset ++ [offset]
  | .globalSize => work .globalSize ++ [size]
  | .localSize => work .localSize ++ [localSize]

def copyWork (argp : VMCLDispatchOp) :
    ℕ → ℕ → (WorkArray → List (BitVec 32)) → Observed (WorkArray → List (BitVec 32))
  | 0, _, work => return work
  | rounds + 1, i, work => do
    let offset ← readWork argp .globalOffset i
    let size ← readWork argp .globalSize i
    let localSize ← readWork argp .localSize i
    copyWork argp rounds (i + 1) (push work offset size localSize)

/-- The part between the two loops over the arguments. The limit of the dimension is the value of
the OpenCL constant `CL_DEVICE_MAX_WORK_ITEM_DIMENSIONS` itself. -/
def enqueue (s : Backend) (argp : VMCLDispatchOp) (cl : Bool) :
    Observed (StatusCode × Backend) := do
  lift (require (argp.op.dimension ≤ 0x1003))
  let work ← copyWork argp argp.op.dimension.toNat 0 fun _ => []
  tell (.launch argp.op.dimension work)
  let contents ← lift (s.collectArgs argp.op.args)
  return if cl then (.success, s.runKernel argp.op contents.2) else (.fail, s)

def unlockArg (argp : VMCLDispatchOp) (i : BitVec 32) : Observed Unit := do
  let a ← readArg argp i
  if a.isSurface then do
    unlock (.inst a.sid.toNat a.inst.toNat)
    unlock (.surface a.sid.toNat)
  else return ()

def unlockArgs (argp : VMCLDispatchOp) : ℕ → Observed Unit
  | 0 => unlockArg argp 0
  | k + 1 => do
    unlockArg argp (BitVec.ofNat 32 (k + 1))
    unlockArgs argp k

/-- `MIN(argIndex, argp->args.args_len - 1)`, which compares unsigned numbers. -/
def cleanupStart (argp : VMCLDispatchOp) (i : BitVec 32) : BitVec 32 :=
  let last := BitVec.ofNat 32 argp.op.args.length - 1
  if i < last then i else last

def cleanup (argp : VMCLDispatchOp) (i : BitVec 32) : Observed Unit :=
  if (cleanupStart argp i).toInt < 0 then return () else unlockArgs argp (cleanupStart argp i).toNat

/-- `vmwopencl_dispatch_1`. -/
def dispatch (s : Backend) (argp : VMCLDispatchOp) (cl : Bool) :
    Observed (StatusCode × Backend) := do
  let r ← setArgs s argp argp.op.args.length 0
  let q ← (if r.1 = .success then enqueue s argp cl else pure (r.1, s))
  cleanup argp r.2
  return q

end Dispatch

end VMAccel
