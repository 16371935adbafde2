import VMAccel.Allocator
import Mathlib.Data.Fintype.Sets

/-!
# Accelerator descriptors

`VMAccelWorkloadDesc` and `VMAccelDesc` of `vmaccel_rpc.h` with the operators and the allocator
functions of `vmaccel_types_desc.hpp`. A workload has nine components, of which the comparisons
read three; `comp` addresses a component by its `Dim`. Array members are lists of values. The
records here are what `DeepCopy` and `Move` carry from one object to the next, which is all but the
`subDevice` of an address; the records of the wire add it. `freeObj` says what the free set holds
afterwards, and `freeObjIn` also what `FreeObj` does to the raw memory of a new node.
-/

namespace VMAccel

structure VMAccelWorkloadDesc where
  megaFlops : BitVec 32
  megaOps : BitVec 32
  llcSizeKB : BitVec 32
  llcBandwidthMBSec : BitVec 32
  localMemSizeKB : BitVec 32
  localMemBandwidthMBSec : BitVec 32
  nonLocalMemSizeKB : BitVec 32
  nonLocalMemBandwidthMBSec : BitVec 32
  interconnectBandwidthMBSec : BitVec 32
  deriving DecidableEq

inductive Dim
  | megaFlops
  | megaOps
  | llcSizeKB
  | llcBandwidthMBSec
  | localMemSizeKB
  | localMemBandwidthMBSec
  | nonLocalMemSizeKB
  | nonLocalMemBandwidthMBSec
  | interconnectBandwidthMBSec
  deriving DecidableEq

instance : Fintype Dim :=
  .ofList [.megaFlops, .megaOps, .llcSizeKB, .llcBandwidthMBSec, .localMemSizeKB,
    .localMemBandwidthMBSec, .nonLocalMemSizeKB, .nonLocalMemBandwidthMBSec,
    .interconnectBandwidthMBSec] fun dim => by cases dim <;> decide

namespace VMAccelWorkloadDesc

def comp (w : VMAccelWorkloadDesc) : Dim → BitVec 32
  | .megaFlops => w.megaFlops
  | .megaOps => w.megaOps
  | .llcSizeKB => w.llcSizeKB
  | .llcBandwidthMBSec => w.llcBandwidthMBSec
  | .localMemSizeKB => w.localMemSizeKB
  | .localMemBandwidthMBSec => w.localMemBandwidthMBSec
  | .nonLocalMemSizeKB => w.nonLocalMemSizeKB
  | .nonLocalMemBandwidthMBSec => w.nonLocalMemBandwidthMBSec
  | .interconnectBandwidthMBSec => w.interconnectBandwidthMBSec

def zipWith (f : BitVec 32 → BitVec 32 → BitVec 32) (lhs rhs : VMAccelWorkloadDesc) :
    VMAccelWorkloadDesc where
  megaFlops := f lhs.megaFlops rhs.megaFlops
  megaOps := f lhs.megaOps rhs.megaOps
  llcSizeKB := f lhs.llcSizeKB rhs.llcSizeKB
  llcBandwidthMBSec := f lhs.llcBandwidthMBSec rhs.llcBandwidthMBSec
  localMemSizeKB := f lhs.localMemSizeKB rhs.localMemSizeKB
  localMemBandwidthMBSec := f lhs.localMemBandwidthMBSec rhs.localMemBandwidthMBSec
  nonLocalMemSizeKB := f lhs.nonLocalMemSizeKB rhs.nonLocalMemSizeKB
  nonLocalMemBandwidthMBSec := f lhs.nonLocalMemBandwidthMBSec rhs.nonLocalMemBandwidthMBSec
  interconnectBandwidthMBSec := f lhs.interconnectBandwidthMBSec rhs.interconnectBandwidthMBSec

instance : Add VMAccelWorkloadDesc := ⟨zipWith (· + ·)⟩

instance : Sub VMAccelWorkloadDesc := ⟨zipWith (· - ·)⟩

theorem comp_zipWith (f : BitVec 32 → BitVec 32 → BitVec 32) (v w : VMAccelWorkloadDesc)
    (dim : Dim) : (zipWith f v w).comp dim = f (v.comp dim) (w.comp dim) := by
  cases dim <;> rfl

theorem comp_add (v w : VMAccelWorkloadDesc) (dim : Dim) :
    (v + w).comp dim = v.comp dim + w.comp dim := comp_zipWith _ v w dim

theorem comp_sub (v w : VMAccelWorkloadDesc) (dim : Dim) :
    (v - w).comp dim = v.comp dim - w.comp dim := comp_zipWith _ v w dim

/-- `operator<`: less in at least one of the three compared components. -/
def lt (lhs rhs : VMAccelWorkloadDesc) : Bool :=
  decide (lhs.localMemSizeKB < rhs.localMemSizeKB) || decide (lhs.megaFlops < rhs.megaFlops) ||
    decide (lhs.megaOps < rhs.megaOps)

/-- `operator<=`. -/
def le (lhs rhs : VMAccelWorkloadDesc) : Bool :=
  decide (lhs.localMemSizeKB ≤ rhs.localMemSizeKB) && decide (lhs.megaFlops ≤ rhs.megaFlops) &&
    decide (lhs.megaOps ≤ rhs.megaOps)

theorem le_iff {v w : VMAccelWorkloadDesc} : v.le w = true ↔
    v.localMemSizeKB ≤ w.localMemSizeKB ∧ v.megaFlops ≤ w.megaFlops ∧ v.megaOps ≤ w.megaOps := by
  simp [le, and_assoc]

theorem le_refl (w : VMAccelWorkloadDesc) : w.le w = true :=
  le_iff.mpr ⟨BitVec.le_refl _, BitVec.le_refl _, BitVec.le_refl _⟩

theorem lt_eq_not_le (v w : VMAccelWorkloadDesc) : v.lt w = !w.le v := by
  simp [lt, le, Bool.not_and, ← decide_not]

def zero : VMAccelWorkloadDesc := ⟨0, 0, 0, 0, 0, 0, 0, 0, 0⟩

end VMAccelWorkloadDesc

/-- `VMAccelAddress` without the member `subDevice`, which no object of the allocator is given. -/
structure VMAccelAddress where
  addr : List (BitVec 8)
  port : BitVec 32
  resourceType : BitVec 32
  deriving DecidableEq

structure VMAccelFormatDesc where
  format : BitVec 32
  caps : BitVec 32
  deriving DecidableEq

/-- The pointers in the raw memory of a new node of the free set, before an object is constructed
there. -/
structure RawNode where
  addrVal : BitVec 64
  formatCapsVal : BitVec 64
  deriving DecidableEq

namespace RawNode

/-- Both pointers are `NULL`, which `free` leaves alone. -/
def Clear (node : RawNode) : Prop := node.addrVal = 0 ∧ node.formatCapsVal = 0

instance (node : RawNode) : Decidable node.Clear := inferInstanceAs (Decidable (_ ∧ _))

/-- The move constructor of an object in the node: `Move` frees the pointers that it finds. -/
def move (node : RawNode) : Except Fault Unit :=
  if node.Clear then .ok () else .error .invalidFree

end RawNode

structure VMAccelDesc where
  parentId : VMAccelId
  parentAddr : VMAccelAddress
  typeMask : BitVec 32
  architecture : BitVec 32
  caps : BitVec 32
  formatCaps : List VMAccelFormatDesc
  capacity : VMAccelWorkloadDesc
  maxContexts : BitVec 32
  maxQueues : BitVec 32
  maxEvents : BitVec 32
  maxFences : BitVec 32
  maxSurfaces : BitVec 32
  maxMappings : BitVec 32
  deriving DecidableEq

namespace VMAccelDesc

/-- A descriptor with all bytes zero. -/
def zero : VMAccelDesc where
  parentId := 0
  parentAddr := ⟨[], 0, 0⟩
  typeMask := 0
  architecture := 0
  caps := 0
  formatCaps := []
  capacity := .zero
  maxContexts := 0
  maxQueues := 0
  maxEvents := 0
  maxFences := 0
  maxSurfaces := 0
  maxMappings := 0

def addAssign (lhs rhs : VMAccelDesc) : VMAccelDesc :=
  { lhs with capacity := lhs.capacity + rhs.capacity }

def subAssign (lhs rhs : VMAccelDesc) : VMAccelDesc :=
  { lhs with capacity := lhs.capacity - rhs.capacity }

/-- `IsEmpty`: the 32-bit sum of all nine components is zero. -/
def isEmpty (val : VMAccelDesc) : Bool :=
  val.capacity.megaFlops + val.capacity.megaOps + val.capacity.llcSizeKB +
    val.capacity.llcBandwidthMBSec + val.capacity.localMemSizeKB +
    val.capacity.localMemBandwidthMBSec + val.capacity.nonLocalMemSizeKB +
    val.capacity.nonLocalMemBandwidthMBSec + val.capacity.interconnectBandwidthMBSec == 0

def reserve (a req : VMAccelDesc) : Option (VMAccelDesc × VMAccelDesc) :=
  if a.capacity.lt req.capacity then none
  else
    let d := { a with capacity := req.capacity }
    let r := { a with capacity := a.capacity - d.capacity }
    if r.capacity.lt a.capacity then some (d, r) else none

/-- `VMAccelDescCmp`. -/
def cmp (lhs rhs : VMAccelObject VMAccelDesc) : Bool :=
  decide (lhs.parentId ≠ rhs.parentId) || lhs.obj.capacity.lt rhs.obj.capacity

/-- `FreeObj`: one element per parent, found by a scan of the pool. -/
def freeObj (M : OrderedMultiset (VMAccelObject VMAccelDesc) cmp) (pool : M.Carrier)
    (obj : VMAccelObject VMAccelDesc) : Bool × M.Carrier :=
  match (M.toList pool).zipIdx.find? fun p => p.1.parentId = obj.parentId with
  | none => (true, M.insert pool obj)
  | some (e, i) =>
    (true, M.insert (M.erase pool i) (.of obj.parentId (e.obj.addAssign obj.obj)))

/-- `FreeObj` with the memory of the node that it takes. `emplace` constructs a copy there, which
does not read it, and `insert` of the merged descriptor moves the temporary object there. -/
def freeObjIn (M : OrderedMultiset (VMAccelObject VMAccelDesc) cmp) (node : RawNode)
    (pool : M.Carrier) (obj : VMAccelObject VMAccelDesc) : Except Fault (Bool × M.Carrier) :=
  match (M.toList pool).zipIdx.find? fun p => p.1.parentId = obj.parentId with
  | none => .ok (true, M.insert pool obj)
  | some (e, i) => do
    node.move
    return (true, M.insert (M.erase pool i) (.of obj.parentId (e.obj.addAssign obj.obj)))

variable {M : OrderedMultiset (VMAccelObject VMAccelDesc) cmp}

theorem freeObj_cases (pool : M.Carrier) (o : VMAccelObject VMAccelDesc) :
    ((∀ e ∈ M.bag pool, e.parentId ≠ o.parentId) ∧
      freeObj M pool o = (true, M.insert pool o)) ∨
      ∃ e i, (M.toList pool)[i]? = some e ∧ e.parentId = o.parentId ∧
        freeObj M pool o =
          (true, M.insert (M.erase pool i) (.of o.parentId (e.obj.addAssign o.obj))) := by
  rcases scan_cases pool o.parentId with ⟨hnone, hfind⟩ | ⟨e, i, hi, hpar, hfind⟩
  · exact Or.inl ⟨hnone, by rw [freeObj, hfind]⟩
  · exact Or.inr ⟨e, i, hi, hpar, by rw [freeObj, hfind]⟩

theorem freeObjIn_ok {node : RawNode} {pool : M.Carrier} {o : VMAccelObject VMAccelDesc}
    {r : Bool × M.Carrier} : freeObjIn M node pool o = .ok r ↔
      r = freeObj M pool o ∧ ((∃ e ∈ M.bag pool, e.parentId = o.parentId) → node.Clear) := by
  unfold freeObjIn freeObj
  rcases scan_cases pool o.parentId with ⟨hnone, hfind⟩ | ⟨e, i, hi, hpar, hfind⟩
  · rw [hfind]
    refine ⟨fun h => ⟨(Except.ok.inj h).symm, ?_⟩, fun h => congrArg Except.ok h.1.symm⟩
    rintro ⟨e, he, hpar⟩
    exact absurd hpar (hnone e he)
  · rw [hfind]
    have hmem : ∃ e ∈ M.bag pool, e.parentId = o.parentId := ⟨e, M.mem_bag_of_getElem hi, hpar⟩
    dsimp only
    by_cases hclear : node.Clear
    · rw [RawNode.move, if_pos hclear]
      constructor
      · exact fun h => ⟨(Except.ok.inj h).symm, fun _ => hclear⟩
      · exact fun h => congrArg Except.ok h.1.symm
    · rw [RawNode.move, if_neg hclear]
      exact iff_of_false (fun h => by cases h) fun h => hclear (h.2 hmem)

theorem parentId_of_mem_freeObj (pool : M.Carrier) (o x : VMAccelObject VMAccelDesc)
    (hx : x ∈ M.bag (freeObj M pool o).2) :
    x.parentId = o.parentId ∨ ∃ y ∈ M.bag pool, y.parentId = x.parentId := by
  rcases freeObj_cases pool o with ⟨-, heq⟩ | ⟨e, i, hi, hpar, heq⟩
  · rw [heq] at hx
    exact parentId_of_mem_insert hx
  · rw [heq] at hx
    exact parentId_of_mem_replace hi hx

end VMAccelDesc

instance : Resource VMAccelDesc where
  zero := .zero
  default := { VMAccelDesc.zero with parentId := invalidId }
  le lhs rhs := lhs.capacity.le rhs.capacity
  addAssign := VMAccelDesc.addAssign
  subAssign := VMAccelDesc.subAssign
  isEmpty := VMAccelDesc.isEmpty
  reserve := VMAccelDesc.reserve
  cmp := VMAccelDesc.cmp
  freeObj := VMAccelDesc.freeObj
  parentId_eq_of_cmp {a b} h := by
    by_contra hne
    simp [VMAccelDesc.cmp, hne] at h
  freeObj_fst M pool o := by
    rcases VMAccelDesc.freeObj_cases pool o with ⟨-, heq⟩ | ⟨e, i, -, -, heq⟩ <;> rw [heq]
  parentId_of_mem_freeObj M pool o x hx := VMAccelDesc.parentId_of_mem_freeObj pool o x hx

end VMAccel
