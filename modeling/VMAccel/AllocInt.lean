import VMAccel.Allocator

/-!
# Integers as an allocator resource

`Int` of `vmaccel_types_int.hpp` with its operators and allocator functions; `x` is a signed 32-bit
integer, compared by `slt` and `sle`. The compound assignments take their left operand by value,
so they compute the sum or difference into a copy and leave the entry as it was.
-/

namespace VMAccel

structure AllocInt where
  x : BitVec 32
  deriving DecidableEq

namespace AllocInt

def lt (lhs rhs : AllocInt) : Bool := lhs.x.slt rhs.x

def le (lhs rhs : AllocInt) : Bool := lhs.x.sle rhs.x

def addAssign (lhs _rhs : AllocInt) : AllocInt := lhs

def subAssign (lhs _rhs : AllocInt) : AllocInt := lhs

def isEmpty (val : AllocInt) : Bool := val.x == 0

def reserve (a req : AllocInt) : Option (AllocInt × AllocInt) :=
  if a.x.slt req.x then none else some (⟨req.x⟩, ⟨a.x - req.x⟩)

/-- `IntCmp`. -/
def cmp (lhs rhs : VMAccelObject AllocInt) : Bool :=
  decide (lhs.parentId ≠ rhs.parentId) || lhs.obj.lt rhs.obj

/-- `FreeObj`: one element per parent, found by a scan of the pool. -/
def freeObj (M : OrderedMultiset (VMAccelObject AllocInt) cmp) (pool : M.Carrier)
    (obj : VMAccelObject AllocInt) : Bool × M.Carrier :=
  match (M.toList pool).zipIdx.find? fun p => p.1.parentId = obj.parentId with
  | none => (true, M.insert pool obj)
  | some (e, i) => (true, M.insert (M.erase pool i) (.of obj.parentId ⟨e.obj.x + obj.obj.x⟩))

variable {M : OrderedMultiset (VMAccelObject AllocInt) cmp}

theorem freeObj_cases (pool : M.Carrier) (o : VMAccelObject AllocInt) :
    freeObj M pool o = (true, M.insert pool o) ∨
      ∃ e i, (M.toList pool)[i]? = some e ∧ freeObj M pool o =
        (true, M.insert (M.erase pool i) (.of o.parentId ⟨e.obj.x + o.obj.x⟩)) := by
  rcases scan_cases pool o.parentId with ⟨-, hfind⟩ | ⟨e, i, hi, -, hfind⟩
  · exact Or.inl (by rw [freeObj, hfind])
  · exact Or.inr ⟨e, i, hi, by rw [freeObj, hfind]⟩

theorem parentId_of_mem_freeObj (pool : M.Carrier) (o x : VMAccelObject AllocInt)
    (hx : x ∈ M.bag (freeObj M pool o).2) :
    x.parentId = o.parentId ∨ ∃ y ∈ M.bag pool, y.parentId = x.parentId := by
  rcases freeObj_cases pool o with heq | ⟨e, i, hi, heq⟩
  · rw [heq] at hx
    exact parentId_of_mem_insert hx
  · rw [heq] at hx
    exact parentId_of_mem_replace hi hx

end AllocInt

instance : Resource AllocInt where
  zero := ⟨0⟩
  default := ⟨0⟩
  le := AllocInt.le
  addAssign := AllocInt.addAssign
  subAssign := AllocInt.subAssign
  isEmpty := AllocInt.isEmpty
  reserve := AllocInt.reserve
  cmp := AllocInt.cmp
  freeObj := AllocInt.freeObj
  parentId_eq_of_cmp {a b} h := by
    by_contra hne
    simp [AllocInt.cmp, hne] at h
  freeObj_fst M pool o := by
    rcases AllocInt.freeObj_cases pool o with heq | ⟨e, i, -, heq⟩ <;> rw [heq]
  parentId_of_mem_freeObj M pool o x hx := AllocInt.parentId_of_mem_freeObj pool o x hx

end VMAccel
