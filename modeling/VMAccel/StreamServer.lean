import VMAccel.Backend

/-!
# The receiving end of a data stream

`StreamTCPServerThread` of `vmaccel_stream.c` on one connection: it reads a `VMAccelStreamPacket`,
maps the surface that the packet names, reads the payload to the mapped pointer and unmaps. The
packet is a variable of the thread, so a `recv` that returns a part of a header leaves the other
bytes as they were. What the callbacks do is a parameter; `vmwopencl` are those of the backend.
-/

namespace VMAccel

structure VMAccelSurfaceId where
  type : BitVec 32
  handleType : BitVec 32
  id : BitVec 32
  inst : BitVec 32
  offset : BitVec 32
  generation : BitVec 32
  deriving DecidableEq

/-- `VMCLSurfaceMapOp` as it lies in a packet. -/
structure VMCLSurfaceMapOp where
  queue : VMCLQueueId
  surf : VMAccelSurfaceId
  x : BitVec 32
  y : BitVec 32
  z : BitVec 32
  width : BitVec 32
  height : BitVec 32
  mapFlags : BitVec 32
  deriving DecidableEq

/-- `VMCLSurfaceUnmapOp` without the pointer. -/
structure VMCLSurfaceUnmapOp where
  queue : VMCLQueueId
  surf : VMAccelSurfaceId
  mapFlags : BitVec 32
  deriving DecidableEq

structure VMAccelStreamPacket where
  type : BitVec 32
  len : BitVec 32
  desc : VMCLSurfaceMapOp
  deriving DecidableEq

/-- `sizeof(VMAccelStreamPacket)`: sixteen words. -/
def packetSize : ℕ := 64

def bytesWords : List Byte → List (BitVec 32)
  | b₀ :: b₁ :: b₂ :: b₃ :: bytes => (b₃ ++ b₂ ++ b₁ ++ b₀) :: bytesWords bytes
  | _ => []

namespace VMAccelStreamPacket

def words (p : VMAccelStreamPacket) : List (BitVec 32) :=
  [p.type, p.len, p.desc.queue.cid, p.desc.queue.id, p.desc.surf.type, p.desc.surf.handleType,
    p.desc.surf.id, p.desc.surf.inst, p.desc.surf.offset, p.desc.surf.generation, p.desc.x,
    p.desc.y, p.desc.z, p.desc.width, p.desc.height, p.desc.mapFlags]

def ofWords (w : List (BitVec 32)) : VMAccelStreamPacket where
  type := w.getD 0 0
  len := w.getD 1 0
  desc :=
    { queue := ⟨w.getD 2 0, w.getD 3 0⟩
      surf := ⟨w.getD 4 0, w.getD 5 0, w.getD 6 0, w.getD 7 0, w.getD 8 0, w.getD 9 0⟩
      x := w.getD 10 0
      y := w.getD 11 0
      z := w.getD 12 0
      width := w.getD 13 0
      height := w.getD 14 0
      mapFlags := w.getD 15 0 }

/-- The header as the sender writes it. -/
def bytes (p : VMAccelStreamPacket) : List Byte := p.words.flatMap wordBytes

def ofBytes (b : List Byte) : VMAccelStreamPacket := ofWords (bytesWords b)

end VMAccelStreamPacket

namespace StreamServer

/-- `VMACCEL_STREAM_TYPE_VMCL_UPLOAD`. -/
def vmclUpload : BitVec 32 := 0

/-- `VMACCEL_MAP_NO_FREE_PTR_FLAG`. -/
def noFreePtrFlag : BitVec 32 := 1 <<< 4

/-- `VMACCEL_MAP_ASYNC_FLAG`. -/
def asyncFlag : BitVec 32 := 1 <<< 5

/-- `VMAccelStreamCallbacks`. A mapping answers with its length; an unmap finds at the mapped
pointer the bytes that the thread has stored there. -/
structure Callbacks (σ : Type) where
  surfacemap : VMCLSurfaceMapOp → σ → Except Fault (ℕ × σ)
  surfaceunmap : VMCLSurfaceUnmapOp → List Byte → σ → Except Fault σ

/-- One turn of a loop that receives: whether `g_exitSvrThreads` is set by then, and how many bytes
`recv` finds to return. A size of 0 stands for an error or a connection that was closed. -/
structure Tick where
  exit : Bool
  size : ℕ
  deriving DecidableEq

/-- What is to come on a connection: the turns, and the bytes that were not received yet. -/
structure Conn where
  ticks : List Tick
  rest : List Byte
  deriving DecidableEq

/-- The bytes that `recv` returns out of at most `n`. -/
def recv (rest : List Byte) (t : Tick) (n : ℕ) : List Byte := rest.take (min t.size n)

/-- The loop over the payload, with `rxLen` bytes to go and `got` already stored. The test for
`rxLen - rxSize < 0` compares an unsigned number and is never true. -/
def recvPayload : List Tick → List Byte → ℕ → List Byte → List Byte × Conn
  | ticks, rest, 0, got => (got, ⟨ticks, rest⟩)
  | [], rest, _ + 1, got => (got, ⟨[], rest⟩)
  | t :: ticks, rest, rxLen + 1, got =>
    if t.exit then (got, ⟨ticks, rest⟩)
    else
      let chunk := recv rest t (rxLen + 1)
      if chunk = [] then (got, ⟨ticks, rest⟩)
      else recvPayload ticks (rest.drop chunk.length) (rxLen + 1 - chunk.length) (got ++ chunk)

/-- What is stored when the unmap is called, or `none` when the payload is longer than the
mapping and the connection is left without one. -/
def stored (len mapped : ℕ) (conn : Conn) : Option (List Byte × Conn) :=
  if mapped < len then none else some (recvPayload conn.ticks conn.rest len [])

def unmapOp (desc : VMCLSurfaceMapOp) : VMCLSurfaceUnmapOp where
  queue := desc.queue
  surf := desc.surf
  mapFlags := desc.mapFlags ||| noFreePtrFlag

variable {σ : Type}

/-- One packet after its header: `none` leaves the loop. -/
def handle (cb : Callbacks σ) (p : VMAccelStreamPacket) (conn : Conn) (s : σ) :
    Except Fault (σ × Option Conn) :=
  if p.type = vmclUpload then do
    let m ← cb.surfacemap p.desc s
    match stored p.len.toNat m.1 conn with
    | none => return (m.2, none)
    | some (got, conn) =>
      let s ← cb.surfaceunmap (unmapOp p.desc) got m.2
      return (s, some conn)
  else .ok (s, none)

/-- The loop over the packets of a connection; `p` is the variable for the header. Every turn
receives at least once, so that the number of ticks is enough fuel. -/
def serve (cb : Callbacks σ) : ℕ → Conn → List Byte → σ → Except Fault σ
  | 0, _, _, s => .ok s
  | _ + 1, ⟨[], _⟩, _, s => .ok s
  | fuel + 1, ⟨t :: ticks, rest⟩, p, s =>
    if t.exit then .ok s
    else
      let chunk := recv rest t packetSize
      if chunk = [] then .ok s
      else do
        let p := chunk ++ p.drop chunk.length
        let r ← handle cb (.ofBytes p) ⟨ticks, rest.drop chunk.length⟩ s
        match r.2 with
        | none => return r.1
        | some conn => serve cb fuel conn p r.1

def connection (cb : Callbacks σ) (conn : Conn) (p : List Byte) (s : σ) : Except Fault σ :=
  serve cb conn.ticks.length conn p s

/-- `vmwopencl_surfacemap_1` and `vmwopencl_surfaceunmap_1` as callbacks, with what OpenCL answers
to each. A mapping that fails has length 0. The unmap copies the mapped memory to itself, so that
the bytes the thread has stored there are all that changes. -/
def vmwopencl (clMap clUnmap : Bool) : Callbacks Backend where
  surfacemap desc s := do
    let r ← s.surfacemap ⟨desc.surf.id, desc.surf.inst, desc.surf.generation, desc.x, desc.width,
      desc.mapFlags &&& asyncFlag ≠ 0⟩ clMap
    return (if r.1.1 = .success then desc.width.toNat else 0, r.2)
  surfaceunmap op bytes s := do
    let r ← s.surfaceunmap ⟨op.surf.id, op.surf.inst, op.surf.generation, bytes⟩ clUnmap
    return r.2

end StreamServer

end VMAccel
