import VMAccel.IdentifierDB
import VMAccel.OrderedMultiset

/-!
# The accelerator object allocator

`VMAccelAllocator<T, C>` of `vmaccel_allocator.hpp`. What the template needs from `T` and `C` is
the class `Resource`; the free set is any `OrderedMultiset` for the comparator. Objects are
values here, so the constructors, `DeepCopy`, `Move` and `Destructor` of the source disappear.
`deferFree` is the build option `DEFER_FREE`. `vmaccel_manager_wait_for_fence` always answers
true, so the queue of freed objects is drained without waiting.
-/

namespace VMAccel

structure VMAccelObject (T : Type) where
  parentId : VMAccelId
  fenceId : VMAccelId
  obj : T
  deriving DecidableEq

/-- The constructor `VMAccelObject<T>(id, o)`. -/
def VMAccelObject.of {T : Type} (id : VMAccelId) (o : T) : VMAccelObject T where
  parentId := id
  fenceId := invalidId
  obj := o

section FreeSet

variable {T : Type} {cmp : VMAccelObject T → VMAccelObject T → Bool}
  {M : OrderedMultiset (VMAccelObject T) cmp}

theorem scan_cases (pool : M.Carrier) (p : VMAccelId) :
    ((∀ e ∈ M.bag pool, e.parentId ≠ p) ∧
      (M.toList pool).zipIdx.find? (fun q => q.1.parentId = p) = none) ∨
    ∃ e i, (M.toList pool)[i]? = some e ∧ e.parentId = p ∧
      (M.toList pool).zipIdx.find? (fun q => q.1.parentId = p) = some (e, i) := by
  cases hfind : (M.toList pool).zipIdx.find? fun q => q.1.parentId = p with
  | none =>
    left
    refine ⟨fun e he heq => ?_, rfl⟩
    obtain ⟨i, hi⟩ := List.mem_iff_getElem?.mp (M.mem_bag.mp he)
    have := List.find?_eq_none.mp hfind (e, i) (List.mem_zipIdx_iff_getElem?.mpr hi)
    simp [heq] at this
  | some q =>
    right
    have hmem := List.mem_zipIdx_iff_getElem?.mp (List.mem_of_find?_eq_some hfind)
    have hpar := List.find?_some hfind
    exact ⟨q.1, q.2, hmem, of_decide_eq_true hpar, rfl⟩

theorem mem_bag_replace {pool : M.Carrier} {i : ℕ} {e o x : VMAccelObject T}
    (hi : (M.toList pool)[i]? = some e) (hx : x ∈ M.bag (M.insert (M.erase pool i) o)) :
    x = o ∨ x ∈ M.bag pool := by
  rw [M.bag_insert, Multiset.mem_cons] at hx
  rw [M.bag_eq_cons_erase hi]
  exact hx.imp_right (Multiset.mem_cons_of_mem ·)

theorem parentId_of_mem_insert {pool : M.Carrier} {o x : VMAccelObject T}
    (hx : x ∈ M.bag (M.insert pool o)) :
    x.parentId = o.parentId ∨ ∃ y ∈ M.bag pool, y.parentId = x.parentId := by
  rw [M.bag_insert, Multiset.mem_cons] at hx
  exact hx.imp (congrArg VMAccelObject.parentId) fun hx => ⟨x, hx, rfl⟩

theorem parentId_of_mem_replace {pool : M.Carrier} {i : ℕ} {e x : VMAccelObject T} {p : VMAccelId}
    {v : T} (hi : (M.toList pool)[i]? = some e)
    (hx : x ∈ M.bag (M.insert (M.erase pool i) (.of p v))) :
    x.parentId = p ∨ ∃ y ∈ M.bag pool, y.parentId = x.parentId :=
  (mem_bag_replace hi hx).imp (congrArg VMAccelObject.parentId) fun hx => ⟨x, hx, rfl⟩

end FreeSet

/-- The functions that the template takes from the type of its objects: `zero` is the value of
a resized vector entry, `default` that of `Constructor`, `reserve` returns the reservation and the
remainder, `freeObj` its return value and the new free set. -/
class Resource (T : Type) where
  zero : T
  default : T
  le : T → T → Bool
  addAssign : T → T → T
  subAssign : T → T → T
  isEmpty : T → Bool
  reserve : T → T → Option (T × T)
  cmp : VMAccelObject T → VMAccelObject T → Bool
  freeObj : (M : OrderedMultiset (VMAccelObject T) cmp) → M.Carrier → VMAccelObject T →
    Bool × M.Carrier
  parentId_eq_of_cmp : ∀ {a b}, cmp a b = false → a.parentId = b.parentId
  freeObj_fst : ∀ (M : OrderedMultiset (VMAccelObject T) cmp) (pool : M.Carrier)
    (o : VMAccelObject T), (freeObj M pool o).1 = true
  parentId_of_mem_freeObj : ∀ (M : OrderedMultiset (VMAccelObject T) cmp) (pool : M.Carrier)
    (o : VMAccelObject T), ∀ x ∈ M.bag (freeObj M pool o).2,
      x.parentId = o.parentId ∨ ∃ y ∈ M.bag pool, y.parentId = x.parentId

theorem Resource.cmp_of_parents_ne {T : Type} [Resource T] {a b : VMAccelObject T}
    (h : a.parentId ≠ b.parentId) : Resource.cmp a b = true := by
  by_contra hne
  exact h (Resource.parentId_eq_of_cmp (by simpa using hne))

structure VMAccelAllocateStatus where
  id : VMAccelId
  status : StatusCode
  deriving DecidableEq

/-- The members of the allocator, and the function-static `result` of `Alloc`, whose `id` keeps
the value of the last successful call. -/
structure VMAccelAllocator (T : Type) [Resource T]
    (M : OrderedMultiset (VMAccelObject T) Resource.cmp) where
  registered : List T
  capacity : List T
  load : List T
  refCount : List (BitVec 32)
  freeSet : M.Carrier
  freed : List (VMAccelObject T)
  allocated : List (VMAccelObject T)
  registeredIds : IdentifierDB
  externalIds : IdentifierDB
  allocResult : VMAccelAllocateStatus

namespace VMAccelAllocator

variable {T : Type} [Resource T] {M : OrderedMultiset (VMAccelObject T) Resource.cmp}

/-- The constructor; `size_t num` is cut to 32 bits where the databases are made. -/
def new (M : OrderedMultiset (VMAccelObject T) Resource.cmp) (num : ℕ) :
    VMAccelAllocator T M where
  registered := List.replicate num Resource.zero
  capacity := List.replicate num Resource.zero
  load := List.replicate num Resource.zero
  refCount := List.replicate num 0
  freeSet := M.empty
  freed := []
  allocated := List.replicate num (.of invalidId Resource.default)
  registeredIds := .alloc (BitVec.ofNat 32 num)
  externalIds := .alloc (BitVec.ofNat 32 num)
  allocResult := ⟨0, .success⟩

/-- The rounds of `CoalesceFreed` on a queue with the given content. -/
def coalesceFrom (pool : M.Carrier) : List (VMAccelObject T) → M.Carrier
  | [] => pool
  | a :: rest => coalesceFrom (Resource.freeObj M pool a).2 rest

def coalesceFreed (s : VMAccelAllocator T M) : VMAccelAllocator T M :=
  { s with freeSet := coalesceFrom s.freeSet s.freed, freed := [] }

/-- The element that `free.lower_bound(req)` points at, with its position. -/
def lookup (pool : M.Carrier) (req : VMAccelObject T) : Option (ℕ × VMAccelObject T) :=
  match M.lowerBound pool req with
  | none => none
  | some i => ((M.toList pool)[i]?).map fun e => (i, e)

def putBack (pool : M.Carrier) (parentId : VMAccelId) (r : T) : M.Carrier :=
  if Resource.isEmpty r then pool else (Resource.freeObj M pool (.of parentId r)).2

def reserveAt (pool : M.Carrier) (i : ℕ) (e req : VMAccelObject T) :
    Option (VMAccelObject T × M.Carrier) :=
  match Resource.reserve e.obj req.obj with
  | none => none
  | some (div, r) => some (.of req.parentId div, putBack (M.erase pool i) req.parentId r)

/-- Reserve from the element that `lower_bound` finds. -/
def tryReserve (pool : M.Carrier) (req : VMAccelObject T) : Option (VMAccelObject T × M.Carrier) :=
  (lookup pool req).bind fun p => reserveAt pool p.1 p.2 req

/-- The rounds of `FindFreed`: the object found, the free set and the rest of the queue. An
object of another parent is popped and dropped, and so is one that fits but does not reserve. -/
def findFreed (req : VMAccelObject T) (pool : M.Carrier) :
    List (VMAccelObject T) → Option (VMAccelObject T) × M.Carrier × List (VMAccelObject T)
  | [] => (none, pool, [])
  | a :: rest =>
    if a.parentId ≠ req.parentId then findFreed req pool rest
    else if Resource.le req.obj a.obj then
      match Resource.reserve a.obj req.obj with
      | some (div, r) => (some (.of req.parentId div), putBack pool req.parentId r, rest)
      | none => (none, pool, rest)
    else
      let pool' := (Resource.freeObj M pool a).2
      if (Resource.freeObj M pool a).1 then
        match tryReserve pool' req with
        | some (d, pool'') => (some d, pool'', rest)
        | none => findFreed req pool' rest
      else findFreed req pool' rest

section FindFreed

variable (req : VMAccelObject T) {a : VMAccelObject T} {pool : M.Carrier}
  {rest : List (VMAccelObject T)}

theorem findFreed_of_ne (h : a.parentId ≠ req.parentId) :
    findFreed req pool (a :: rest) = findFreed req pool rest := by
  rw [findFreed, if_pos h]

theorem findFreed_of_le (h : a.parentId = req.parentId) (hle : Resource.le req.obj a.obj = true) :
    findFreed req pool (a :: rest) =
      match Resource.reserve a.obj req.obj with
      | some (div, r) => (some (.of req.parentId div), putBack pool req.parentId r, rest)
      | none => (none, pool, rest) := by
  rw [findFreed, if_neg (not_not.mpr h), if_pos hle]

theorem findFreed_of_not_le (h : a.parentId = req.parentId)
    (hle : Resource.le req.obj a.obj ≠ true) :
    findFreed req pool (a :: rest) =
      match tryReserve (Resource.freeObj M pool a).2 req with
      | some (d, pool') => (some d, pool', rest)
      | none => findFreed req (Resource.freeObj M pool a).2 rest := by
  rw [findFreed, if_neg (not_not.mpr h), if_neg hle, if_pos (Resource.freeObj_fst M pool a)]

end FindFreed

/-- The search of `Alloc`: the freed queue is looked at only when `lower_bound` finds nothing. -/
def findFree (s : VMAccelAllocator T M) (req : VMAccelObject T) :
    Option (VMAccelObject T) × M.Carrier × List (VMAccelObject T) :=
  match lookup s.freeSet req with
  | some (i, e) =>
    match reserveAt s.freeSet i e req with
    | some (d, pool) => (some d, pool, s.freed)
    | none => (none, s.freeSet, s.freed)
  | none => findFreed req s.freeSet s.freed

def register (s : VMAccelAllocator T M) (a : T) :
    Except Fault (VMAccelAllocateStatus × VMAccelAllocator T M) := do
  let ids ← s.registeredIds.allocId
  match ids.1 with
  | none => return (⟨0, .fail⟩, { s with registeredIds := ids.2 })
  | some id =>
    let capacity ← modifyAt s.capacity id.toNat fun c => Resource.addAssign c a
    let registered ← writeAt s.registered id.toNat a
    let refCount ← writeAt s.refCount id.toNat 0
    let res := Resource.freeObj M s.freeSet (.of id a)
    if res.1 then
      return (⟨id, .success⟩, { s with
        capacity, registered, refCount, freeSet := res.2, registeredIds := ids.2 })
    else
      let registeredIds ← ids.2.releaseId id
      return (⟨id, .fail⟩, { s with
        capacity, registered, refCount, freeSet := res.2, registeredIds })

def unregister (s : VMAccelAllocator T M) (id : VMAccelId) :
    Except Fault (StatusCode × VMAccelAllocator T M) := do
  let n ← readAt s.refCount id.toNat
  if n ≠ 0 then return (.fail, s)
  let t := s.coalesceFreed
  let registeredIds ← t.registeredIds.releaseId id
  return (.success, { t with
    registeredIds, freeSet := M.eraseIf (fun e => decide (e.parentId = id)) t.freeSet })

/-- The result is `result` and what is stored in the output argument, if anything. -/
def alloc (s : VMAccelAllocator T M) (parentId : VMAccelId) (a : T) :
    Except Fault ((VMAccelAllocateStatus × Option T) × VMAccelAllocator T M) := do
  let ids ← s.externalIds.allocId
  match ids.1 with
  | none =>
    let result := { s.allocResult with status := .fail }
    return ((result, none), { s with externalIds := ids.2, allocResult := result })
  | some externalId =>
    let found := s.findFree (.of parentId a)
    match found.1 with
    | none =>
      let externalIds ← ids.2.releaseId externalId
      let result := { s.allocResult with status := .resourceUnavailable }
      return ((result, none), { s with
        freeSet := found.2.1, freed := found.2.2, externalIds, allocResult := result })
    | some obj =>
      let registeredId := obj.parentId.toNat
      let allocated ← writeAt s.allocated externalId.toNat obj
      let capacity ← modifyAt s.capacity registeredId fun c => Resource.subAssign c obj.obj
      let load ← modifyAt s.load registeredId fun c => Resource.addAssign c obj.obj
      let refCount ← modifyAt s.refCount registeredId (· + 1)
      let result := ⟨externalId, .success⟩
      return ((result, some obj.obj), { s with
        allocated, capacity, load, refCount, freeSet := found.2.1, freed := found.2.2,
        externalIds := ids.2, allocResult := result })

def free (deferFree : Bool) (s : VMAccelAllocator T M) (id : VMAccelId) :
    Except Fault (StatusCode × VMAccelAllocator T M) := do
  let active ← s.externalIds.activeId id
  if active then
    let obj ← readAt s.allocated id.toNat
    let pushed := { s with freed := s.freed ++ [obj] }
    let t := if deferFree then pushed else pushed.coalesceFreed
    let registeredId := obj.parentId.toNat
    let capacity ← modifyAt t.capacity registeredId fun c => Resource.addAssign c obj.obj
    let load ← modifyAt t.load registeredId fun c => Resource.subAssign c obj.obj
    let refCount ← modifyAt t.refCount registeredId (· - 1)
    let allocated ← writeAt t.allocated id.toNat (.of invalidId Resource.default)
    let externalIds ← t.externalIds.releaseId id
    return (.success, { t with capacity, load, refCount, allocated, externalIds })
  else .error .assertion

/-- The public calls. -/
inductive Call (T : Type)
  | register (a : T)
  | unregister (id : VMAccelId)
  | alloc (parentId : VMAccelId) (a : T)
  | free (id : VMAccelId)

def apply (deferFree : Bool) (s : VMAccelAllocator T M) :
    Call T → Except Fault (VMAccelAllocator T M)
  | .register a => do
    let r ← s.register a
    return r.2
  | .unregister id => do
    let r ← s.unregister id
    return r.2
  | .alloc parentId a => do
    let r ← s.alloc parentId a
    return r.2
  | .free id => do
    let r ← s.free deferFree id
    return r.2

end VMAccelAllocator

end VMAccel
