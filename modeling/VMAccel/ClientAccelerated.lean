import VMAccel.Client

/-!
# Copies and fills on the server

`copy_surface` and `fill_surface` of `clcontext`, which change the content of a surface on the
server and take the destination's mark of consistency away. `Contents` says what they are for: the
content of each surface after copies, fills and kernels, without transfers. `Shadow` runs a client
beside it.
-/

namespace VMAccel

open StepSystem

namespace Host

def surfacecopy (h : Host) (argp : SurfaceCopyOp) (cl : Bool) :
    Except Fault (StatusCode × Host) := do
  let r ← h.backend.surfacecopy argp cl
  return (r.1, { h with backend := r.2 })

def imagefill (h : Host) (argp : ImageFillOp) (cl : Bool) : Except Fault (StatusCode × Host) := do
  let r ← h.backend.imagefill argp cl
  return (r.1, { h with backend := r.2 })

end Host

/-- The four words of `op.u` that `fill_surface` sends for an element. -/
def fillPattern (element : BitVec 32) : List Byte :=
  wordBytes element ++ wordBytes element ++ wordBytes element ++ wordBytes element

namespace Client

def copyOp (c : Client) (src : Surface) (srcRegion : VMAccelSurfaceRegion) (dst : Surface)
    (dstRegion : VMAccelSurfaceRegion) : SurfaceCopyOp where
  dstCid := c.contextId
  dstSid := dst.id
  dstGeneration := dst.generation
  srcCid := c.contextId
  srcSid := src.id
  srcGeneration := src.generation
  srcOffset := srcRegion.coord.x
  dstOffset := dstRegion.coord.x
  size := dstRegion.size.x

def fillOp (surf : Surface) (region : VMAccelSurfaceRegion) (element : BitVec 32) :
    ImageFillOp where
  sid := surf.id
  generation := surf.generation
  pattern := fillPattern element
  offset := region.coord.x
  size := region.size.x

def clearConsistent (c : Client) (k : ℕ) (surf : Surface) : Except Fault Client := do
  let consistent ← surf.isConsistent c.contextId
  if consistent then
    let surf ← surf.setConsistency c.contextId false
    return { c with surfaces := c.surfaces.set k surf }
  else return c

/-- `clcontext::copy_surface`, with the status that the server replies. -/
def copySurface (c : Client) (answer : Answer) (src : ℕ) (srcRegion : VMAccelSurfaceRegion)
    (dst : ℕ) (dstRegion : VMAccelSurfaceRegion) : Except Fault (Option StatusCode × Client) := do
  let srcSurf ← readAt c.surfaces src
  let dstSurf ← readAt c.surfaces dst
  let srcResident ← c.residencyDB.activeId srcSurf.id
  let dstResident ← c.residencyDB.activeId dstSurf.id
  if ¬ srcResident ∨ ¬ dstResident then return (none, c)
  let r ← answer.call c.host
    (fun h cl => h.surfacecopy (c.copyOp srcSurf srcRegion dstSurf dstRegion) cl) id
  let c ← clearConsistent { c with host := r.2 } dst dstSurf
  return (r.1, c)

/-- `clcontext::fill_surface`; only elements of the format `VMACCEL_FORMAT_UINT` are sent. -/
def fillSurface (c : Client) (answer : Answer) (k : ℕ) (region : VMAccelSurfaceRegion)
    (element : BitVec 32) (formatUint : Bool) : Except Fault (Option StatusCode × Client) := do
  let surf ← readAt c.surfaces k
  let resident ← c.residencyDB.activeId surf.id
  if ¬ resident then return (none, c)
  if ¬ formatUint then return (none, c)
  let r ← answer.call c.host (fun h cl => h.imagefill (fillOp surf region element) cl) id
  let c ← clearConsistent { c with host := r.2 } k surf
  return (r.1, c)

end Client

abbrev Contents := List (List Byte)

namespace Contents

def put (m : Contents) (k : ℕ) (mem : Option (List Byte)) : Contents :=
  match mem with
  | some mem => m.set k mem
  | none => m

def copy (m : Contents) (src srcOffset dst dstOffset size : ℕ) : Contents :=
  m.put dst (do
    let bytes ← extract (← m[src]?) srcOffset size
    splice (← m[dst]?) dstOffset bytes)

def fill (m : Contents) (k offset size : ℕ) (pattern : List Byte) : Contents :=
  m.put k (do
    splice (← m[k]?) offset ((List.range size).map fun j => pattern.getD (j % pattern.length) 0))

/-- What a kernel reads whose arguments are bound to these surfaces. -/
def reads (m : Contents) (bindings : List ℕ) : List (List Byte) :=
  bindings.map fun k => m.getD k []

def runKernel (m : Contents) (bindings : List ℕ)
    (kernel : List (List Byte) → ℕ → ℕ → Byte) : Contents :=
  m.mapIdx fun k mem =>
    match bindings.findIdx? (· = k) with
    | some j => (List.range mem.length).map (kernel (m.reads bindings) j)
    | none => mem

end Contents

/-- A client, and the contents that its surfaces should have on the server. -/
structure Shadow where
  client : Client
  contents : Contents

namespace Shadow

inductive Call
  | copy (answer : Answer) (src : ℕ) (srcRegion : VMAccelSurfaceRegion) (dst : ℕ)
    (dstRegion : VMAccelSurfaceRegion)
  | fill (answer : Answer) (k : ℕ) (region : VMAccelSurfaceRegion) (element : BitVec 32)
    (formatUint : Bool)
  | prepare (bindings : List ℕ) (kernel : List (List Byte) → ℕ → ℕ → Byte)
  | dispatch (o : ℕ) (force : Bool) (net : Net)

/-- The contents change when the server has done what the call asks for. -/
def step (s : Shadow) : Call → Except Fault Shadow
  | .copy answer src srcRegion dst dstRegion => do
    let r ← s.client.copySurface answer src srcRegion dst dstRegion
    let contents := if r.1 = some .success then
      s.contents.copy src srcRegion.coord.x.toNat dst dstRegion.coord.x.toNat
        dstRegion.size.x.toNat else s.contents
    return ⟨r.2, contents⟩
  | .fill answer k region element formatUint => do
    let r ← s.client.fillSurface answer k region element formatUint
    let contents := if r.1 = some .success then
      s.contents.fill k region.coord.x.toNat region.size.x.toNat (fillPattern element)
      else s.contents
    return ⟨r.2, contents⟩
  | .prepare bindings kernel => .ok ⟨s.client.prepare bindings kernel, s.contents⟩
  | .dispatch o force net => do
    let op ← readAt s.client.operations o
    let r ← s.client.dispatch o force net
    let contents := if r.1 = .success then s.contents.runKernel op.bindings op.kernel
      else s.contents
    return ⟨r.2, contents⟩

end Shadow

end VMAccel
