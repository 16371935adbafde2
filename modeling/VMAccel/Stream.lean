import VMAccel.IdentifierDB

/-!
# Stream slots

The sending side of `vmaccel_stream.c`, for one stream type: the types share nothing but the
sending thread. `vmaccel_stream_send_async` takes a slot from the identifier database of the type
and starts a `StreamTCPClientThread` for it; the thread gives the slot back shortly before it
ends. When no slot is left, the sender joins the thread in slot 0 and acquires that slot by its
number. Every call into the database is one step, and so is every other event that another thread
can observe. What the threads transmit does not matter here.
-/

namespace VMAccel

/-- `VMACCEL_MAX_STREAMS`. -/
def maxStreams : ℕ := 4

/-- Where a client thread stands: it sends or tries to connect, it has given its slot back and
is about to end, it has ended, or it has ended early without giving its slot back, since it could
not read its scheduling parameters. -/
inductive Stage
  | running
  | exiting
  | exited
  | abandoned
  deriving DecidableEq

/-- The thread has not ended. -/
def Stage.live : Stage → Bool
  | .running => true
  | .exiting => true
  | .exited => false
  | .abandoned => false

def Stage.holds : Stage → Bool
  | .running => true
  | .exiting => false
  | .exited => false
  | .abandoned => true

structure StreamThread where
  index : VMAccelId
  stage : Stage
  deriving DecidableEq

/-- Where the sender stands inside `vmaccel_stream_send_async`. -/
inductive Sender
  | idle
  | joining
  | acquiring
  | creating (index : VMAccelId)
  deriving DecidableEq

/-- `g_svrDB` and `g_clntThread` of the type, all threads started so far, numbered in the order of
their creation, and the sender. -/
structure Streams where
  svrDB : IdentifierDB
  clntThread : List (Option ℕ)
  threads : List StreamThread
  sender : Sender

inductive StreamAction
  | send
  | join
  | acquire
  | create
  | release (t : ℕ)
  | abandon (t : ℕ)
  | exit (t : ℕ)

namespace Streams

/-- `vmaccel_stream_poweron`. -/
def powerOn : Streams where
  svrDB := .alloc (BitVec.ofNat 32 maxStreams)
  clntThread := List.replicate maxStreams none
  threads := []
  sender := .idle

def slotThread (s : Streams) (i : ℕ) : Option StreamThread :=
  match s.clntThread[i]? with
  | some (some t) => s.threads[t]?
  | _ => none

def setThread (s : Streams) (t : ℕ) (thread : StreamThread) : Streams :=
  { s with threads := s.threads.set t thread }

def atStage (s : Streams) (t : ℕ) (stage : Stage) : Option VMAccelId :=
  (s.threads[t]?).bind fun th => if th.stage = stage then some th.index else none

def sendAlloc (s : Streams) : Except Fault Streams := do
  let r ← s.svrDB.allocId
  match r.1 with
  | some index => return { s with svrDB := r.2, sender := .creating index }
  | none => return { s with svrDB := r.2, sender := .joining }

def sendAcquire (s : Streams) : Except Fault Streams := do
  let r ← s.svrDB.acquireId 0
  if r.1 then return { s with svrDB := r.2, sender := .creating 0 } else .error .assertion

def sendCreate (s : Streams) (index : VMAccelId) : Except Fault Streams := do
  let clntThread ← writeAt s.clntThread index.toNat (some s.threads.length)
  return { s with clntThread, threads := s.threads ++ [⟨index, .running⟩], sender := .idle }

/-- `pthread_create` and `pthread_join` succeed, and the latter waits until the thread has ended.
An action of a thread or of the sender at another point than the one it belongs to does nothing. -/
def step (s : Streams) : StreamAction → Except Fault Streams
  | .send => if s.sender = .idle then s.sendAlloc else .ok s
  | .join =>
    if s.sender = .joining ∧ ¬ (s.slotThread 0).any fun th => th.stage.live then
      .ok { s with sender := .acquiring }
    else .ok s
  | .acquire => if s.sender = .acquiring then s.sendAcquire else .ok s
  | .create =>
    match s.sender with
    | .creating index => s.sendCreate index
    | _ => .ok s
  | .release t =>
    match s.atStage t .running with
    | some index => do
      let svrDB ← s.svrDB.releaseId index
      return { s.setThread t ⟨index, .exiting⟩ with svrDB }
    | none => .ok s
  | .abandon t =>
    match s.atStage t .running with
    | some index => .ok (s.setThread t ⟨index, .abandoned⟩)
    | none => .ok s
  | .exit t =>
    match s.atStage t .exiting with
    | some index => .ok (s.setThread t ⟨index, .exited⟩)
    | none => .ok s

end Streams

end VMAccel
