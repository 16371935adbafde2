import VMAccel.ClientSurface
import VMAccel.EventLog

/-!
# Synchronous compute operations

`compute::execute` of `vmaccel_compute.hpp`. It makes a surface of its own for each argument, with
the number of the argument as its identifier, fills it through a mapping, dispatches the kernel,
and reads the arguments back. Each call of the server is an event of the log, with its exchange: the
status of the reply, and the status with which the server handled the request. A dispatch names no
work arrays here, and the destructors of the kernel and of the context at the end send no request
for a surface.
-/

namespace VMAccel

open StepSystem EventLog

namespace Host

def surfacedestroy (h : Host) (sid : VMAccelId) : Except Fault (StatusCode × Host) := do
  let r ← h.backend.surfacedestroy sid
  return (r.1, { h with backend := r.2 })

end Host

/-- An argument of `execute`, which refers to memory of the application. -/
structure ExecuteArg where
  bytes : List Byte
  usage : SurfaceUsage

namespace ExecuteArg

/-- `get_size`, in the 32 bits of a message. -/
def size (arg : ExecuteArg) : BitVec 32 := BitVec.ofNat 32 arg.bytes.length

def desc (arg : ExecuteArg) : VMAccelSurfaceDesc :=
  { VMAccelSurfaceDesc.zero with
    type := .buffer, width := arg.size, format := .r8Typeless, usage := arg.usage }

end ExecuteArg

/-- A call of the server; those for a surface carry the number of the argument, and those for the
kernel the number of the try. `readmap` and `readunmap` are for reading an argument back. -/
inductive ServerCall
  | surfacealloc (i : ℕ)
  | surfacemap (i : ℕ)
  | surfaceunmap (i : ℕ)
  | kernelalloc (k : ℕ)
  | dispatch
  | queueflush
  | readmap (i : ℕ)
  | readunmap (i : ℕ)
  | surfacedestroy (i : ℕ)
  deriving DecidableEq

/-- What became of a call: the status of the reply, with `none` for `NULL`, and the status with
which the server handled the request, with `none` if it did not. -/
structure ServerExchange where
  reply : Option StatusCode
  effect : Option StatusCode
  deriving DecidableEq

def Answer.effect {ρ : Type} (answer : Answer) (h : Host)
    (handler : Host → Bool → Except Fault (ρ × Host)) (status : ρ → StatusCode) :
    Option StatusCode :=
  match answer with
  | .lost none => none
  | .lost (some cl) => (handler h cl).toOption.map fun r => status r.1
  | .refused _ _ => none
  | .served cl => (handler h cl).toOption.map fun r => status r.1

/-- What `execute` meets: whether it obtains a context and memory, and the answers to its calls.
`prints` tells whether `printf` gets over a size in the place of a string. -/
structure ExecuteNet where
  context : Bool
  malloc : Bool
  contextId : VMAccelId
  svmCapable : Bool
  surfacealloc : ℕ → Answer
  fresh : ℕ → ℕ → Byte
  surfacemap : ℕ → Answer
  prints : Bool
  surfaceunmap : ℕ → Answer
  kernelalloc : ℕ → ServerExchange
  argSet : ℕ → Bool
  dispatch : Answer
  kernel : List (List Byte) → ℕ → ℕ → Byte
  queueflush : Answer
  readmap : ℕ → Answer
  readunmap : ℕ → Answer
  surfacedestroy : ℕ → Answer

namespace Execute

open Logged

abbrev Calling (α : Type) := Logged (ServerCall × ServerExchange) Fault α

def call {ρ : Type} (c : ServerCall) (answer : Answer) (h : Host)
    (handler : Host → Bool → Except Fault (ρ × Host)) (refusal : StatusCode → ρ)
    (status : ρ → StatusCode) : Calling (Option ρ × Host) := do
  let r ← lift (answer.call h handler refusal)
  tell (c, ⟨r.1.map status, answer.effect h handler status⟩)
  return r

/-- `prepareComputeArgs` for one argument, with `none` for `false`. The warning about a failed map
passes the size to `printf` where the format has a string. -/
def prepareArg (net : ExecuteNet) (h : Host) (i : ℕ) (arg : ExecuteArg) :
    Calling (Option KernelArg × Host) := do
  let sid := BitVec.ofNat 32 i
  let r ← call (.surfacealloc i) (net.surfacealloc i) h
    (fun h cl => h.surfacealloc ⟨net.contextId, sid, arg.desc⟩ net.svmCapable cl (net.fresh i))
    id id
  match r.1 with
  | none => return (none, r.2)
  | some _ => do
    let q ← call (.surfacemap i) (net.surfacemap i) r.2
      (fun h cl => h.surfacemap ⟨sid, 0, 0, 0, arg.size, false⟩ cl) (·, none) Prod.fst
    match q.1 with
    | some (.success, ptr) => do
      let _ ← lift (q.2.deref sid arg.size.toNat ptr)
      let u ← call (.surfaceunmap i) (net.surfaceunmap i) q.2
        (fun h cl => h.surfaceunmap ⟨sid, 0, 0, arg.bytes.take arg.size.toNat⟩ cl) id id
      match u.1 with
      | none => return (none, u.2)
      | some _ => return (some ⟨true, sid, 0, 0, net.argSet i⟩, u.2)
    | _ => do
      lift (if net.prints then .ok () else .error .outOfBounds)
      return (none, q.2)

/-- `prepareComputeArgs`, from argument `i` on. -/
def prepareComputeArgs (net : ExecuteNet) :
    Host → ℕ → List ExecuteArg → Calling (Option (List KernelArg) × Host)
  | h, _, [] => return (some [], h)
  | h, i, arg :: args => do
    let r ← prepareArg net h i arg
    match r.1 with
    | none => return (none, r.2)
    | some kernelArg => do
      let q ← prepareComputeArgs net r.2 (i + 1) args
      return (q.1.map (kernelArg :: ·), q.2)

/-- `clkernel::prepare` and `clkernel::get_id`, which tries once more: whether the client has an
identifier for the kernel. -/
def prepareKernel (net : ExecuteNet) : Calling Bool := do
  tell (.kernelalloc 0, net.kernelalloc 0)
  if (net.kernelalloc 0).reply.isSome then return true
  else do
    tell (.kernelalloc 1, net.kernelalloc 1)
    return (net.kernelalloc 1).reply.isSome

/-- The part of `quiesceComputeArgs` that maps an argument and copies it back. -/
def readBack (net : ExecuteNet) (h : Host) (i : ℕ) (arg : ExecuteArg) (kernelArg : KernelArg) :
    Calling (Bool × Option (List Byte) × Host) := do
  let q ← call (.readmap i) (net.readmap i) h
    (fun h cl => h.surfacemap ⟨kernelArg.sid, 0, kernelArg.generation, 0, arg.size, false⟩ cl)
    (·, none) Prod.fst
  match q.1 with
  | some (.success, ptr) => do
    let bytes ← lift (q.2.deref kernelArg.sid arg.size.toNat ptr)
    let u ← call (.readunmap i) (net.readunmap i) q.2
      (fun h cl => h.surfaceunmap ⟨kernelArg.sid, 0, kernelArg.generation, bytes⟩ cl) id id
    return (u.1.isSome, some bytes, u.2)
  | _ => return (true, none, q.2)

/-- `quiesceComputeArgs` for one argument: its result, and the bytes that were copied back. -/
def quiesceArg (net : ExecuteNet) (h : Host) (i : ℕ) (arg : ExecuteArg) (kernelArg : KernelArg) :
    Calling (Bool × Option (List Byte) × Host) :=
  if kernelArg.sid = invalidId then return (true, none, h)
  else do
    let r ← (if arg.usage = .readonly then pure (true, none, h)
      else readBack net h i arg kernelArg)
    if r.1 then do
      let d ← call (.surfacedestroy i) (net.surfacedestroy i) r.2.2
        (fun h _ => h.surfacedestroy kernelArg.sid) id id
      return (d.1.isSome, r.2.1, d.2)
    else return r

/-- `quiesceComputeArgs`, from argument `i` on. -/
def quiesceComputeArgs (net : ExecuteNet) :
    Host → ℕ → List (ExecuteArg × KernelArg) → Calling (List (Option (List Byte)) × Host)
  | h, _, [] => return ([], h)
  | h, i, p :: ps => do
    let r ← quiesceArg net h i p.1 p.2
    if r.1 then do
      let q ← quiesceComputeArgs net r.2.2 (i + 1) ps
      return (r.2.1 :: q.1, q.2)
    else return (r.2.1 :: ps.map fun _ => none, r.2.2)

/-- What `execute` returns and leaves behind: for each argument the bytes that were read back. -/
structure Outcome where
  status : StatusCode
  host : Host
  readBack : List (Option (List Byte))

/-- The part of `execute` after the dispatch. -/
def finish (net : ExecuteNet) (h : Host) (args : List ExecuteArg) (kernelArgs : List KernelArg) :
    Calling Outcome := do
  let f ← call .queueflush net.queueflush h
    (fun h cl => .ok (if cl then .success else .fail, h)) id id
  match f.1 with
  | none => return ⟨.success, f.2, args.map fun _ => none⟩
  | some _ => do
    let q ← quiesceComputeArgs net f.2 0 (args.zip kernelArgs)
    return ⟨.success, q.2, q.1⟩

/-- `execute`. Without a context the destructor of the `context` that was to be assigned follows its
null pointer. A dispatch without an identifier for the kernel makes the server read behind its
table. -/
def execute (net : ExecuteNet) (h : Host) (args : List ExecuteArg) : Calling Outcome := do
  lift (if net.context then .ok () else .error .nullPointer)
  if net.malloc then do
    let p ← prepareComputeArgs net h 0 args
    match p.1 with
    -- the surfaces that were allocated stay
    | none => return ⟨.success, p.2, args.map fun _ => none⟩
    | some kernelArgs => do
      let kid ← prepareKernel net
      let d ← call .dispatch net.dispatch p.2
        (fun h cl => if kid then h.dispatch ⟨kernelArgs, 1, net.kernel⟩ cl
          else .error .outOfBounds) id id
      match d.1 with
      | none => return ⟨.success, d.2, args.map fun _ => none⟩
      | some _ => finish net d.2 args kernelArgs
  else return ⟨.fail, h, args.map fun _ => none⟩

end Execute

end VMAccel
