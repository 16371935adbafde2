import VMAccel.Allocator

/-!
# Address ranges as an allocator resource

`AllocRange` of `vmaccel_types_allocrange.hpp` with its operators and allocator functions. Both
ends are inclusive; `last` is the member `end` of the source. `size_t` has 64 bits.
-/

namespace VMAccel

structure AllocRange where
  cmpRange : Bool
  size : BitVec 64
  begin : BitVec 64
  last : BitVec 64
  deriving DecidableEq

namespace AllocRange

def lt (lhs rhs : AllocRange) : Bool :=
  if lhs.cmpRange || rhs.cmpRange then
    decide (lhs.begin < rhs.begin) || decide (lhs.last < rhs.last)
  else decide (lhs.size < rhs.size)

def le (lhs rhs : AllocRange) : Bool :=
  if lhs.cmpRange || rhs.cmpRange then
    decide (lhs.begin ≤ rhs.begin) && decide (lhs.last ≤ rhs.last)
  else decide (lhs.size ≤ rhs.size)

def addAssign (lhs rhs : AllocRange) : AllocRange := { lhs with size := lhs.size + rhs.size }

def subAssign (lhs rhs : AllocRange) : AllocRange := { lhs with size := lhs.size - rhs.size }

def isEmpty (val : AllocRange) : Bool := val.size == 0

/-- `Reserve`: the reservation is cut from the beginning of `a`. -/
def reserve (a req : AllocRange) : Option (AllocRange × AllocRange) :=
  if a.lt req then none
  else
    let d := { a with size := req.size, last := a.begin + req.size - 1 }
    let r := { a with size := a.size - d.size, begin := d.last + 1 }
    if r.lt a then some (d, r) else none

/-- `AllocRangeCmp`. -/
def cmp (lhs rhs : VMAccelObject AllocRange) : Bool :=
  decide (lhs.parentId ≠ rhs.parentId) || lhs.obj.lt rhs.obj

/-- The key of the two searches of `FreeObj`: the object with `cmpRange` set. -/
def key (o : VMAccelObject AllocRange) : VMAccelObject AllocRange :=
  .of o.parentId { o.obj with cmpRange := true }

/-- The two merges that `FreeObj` tries on the element a search returned. In the second one the
source sets `end` to the beginning of the freed range. -/
def coalesceAt (M : OrderedMultiset (VMAccelObject AllocRange) cmp) (pool : M.Carrier)
    (o : VMAccelObject AllocRange) (i : ℕ) : Option M.Carrier :=
  match (M.toList pool)[i]? with
  | none => none
  | some e =>
    let size := e.obj.size + (o.obj.last - o.obj.begin + 1)
    if e.obj.begin = o.obj.last + 1 then
      some (M.insert (M.erase pool i) (.of o.parentId
        ⟨e.obj.cmpRange, size, o.obj.begin, e.obj.last⟩))
    else if e.obj.last + 1 = o.obj.begin then
      some (M.insert (M.erase pool i) (.of o.parentId
        ⟨e.obj.cmpRange, size, e.obj.begin, o.obj.begin⟩))
    else none

def freeObj (M : OrderedMultiset (VMAccelObject AllocRange) cmp) (pool : M.Carrier)
    (o : VMAccelObject AllocRange) : Bool × M.Carrier :=
  match (M.lowerBound pool (key o)).bind (coalesceAt M pool o) with
  | some pool' => (true, pool')
  | none =>
    match (M.upperBound pool (key o)).bind (coalesceAt M pool o) with
    | some pool' => (true, pool')
    | none => (true, M.insert pool o)

theorem cmp_key_eq_false {e o : VMAccelObject AllocRange} :
    cmp e (key o) = false ↔ e.parentId = o.parentId ∧ o.obj.begin.toNat ≤ e.obj.begin.toNat ∧
      o.obj.last.toNat ≤ e.obj.last.toNat := by
  change (decide (e.parentId ≠ o.parentId) || if e.obj.cmpRange || true then
    decide (e.obj.begin < o.obj.begin) || decide (e.obj.last < o.obj.last) else _) = false ↔ _
  simp [BitVec.le_def]

theorem key_cmp_eq_true {e o : VMAccelObject AllocRange} :
    cmp (key o) e = true ↔ o.parentId ≠ e.parentId ∨ o.obj.begin.toNat < e.obj.begin.toNat ∨
      o.obj.last.toNat < e.obj.last.toNat := by
  change (decide (o.parentId ≠ e.parentId) || if true || e.obj.cmpRange then
    decide (o.obj.begin < e.obj.begin) || decide (o.obj.last < e.obj.last) else _) = true ↔ _
  simp [BitVec.lt_def]

variable {M : OrderedMultiset (VMAccelObject AllocRange) cmp}

def Absorbs (pool pool' : M.Carrier) (o e : VMAccelObject AllocRange) (i : ℕ)
    (m : AllocRange) : Prop :=
  (M.toList pool)[i]? = some e ∧ pool' = M.insert (M.erase pool i) (.of o.parentId m)

def Merged (pool pool' : M.Carrier) (o e : VMAccelObject AllocRange) (i : ℕ) : Prop :=
  (e.obj.begin = o.obj.last + 1 ∧ Absorbs pool pool' o e i
    ⟨e.obj.cmpRange, e.obj.size + (o.obj.last - o.obj.begin + 1), o.obj.begin, e.obj.last⟩) ∨
  (e.obj.last + 1 = o.obj.begin ∧ Absorbs pool pool' o e i
    ⟨e.obj.cmpRange, e.obj.size + (o.obj.last - o.obj.begin + 1), e.obj.begin, o.obj.begin⟩)

theorem coalesceAt_eq_some {pool pool' : M.Carrier} {o : VMAccelObject AllocRange} {i : ℕ}
    (h : coalesceAt M pool o i = some pool') : ∃ e, Merged pool pool' o e i := by
  unfold coalesceAt at h
  split at h
  · cases h
  · next e he =>
    dsimp only at h
    by_cases h1 : e.obj.begin = o.obj.last + 1
    · rw [if_pos h1] at h
      exact ⟨e, Or.inl ⟨h1, he, (Option.some.inj h).symm⟩⟩
    · rw [if_neg h1] at h
      by_cases h2 : e.obj.last + 1 = o.obj.begin
      · rw [if_pos h2] at h
        exact ⟨e, Or.inr ⟨h2, he, (Option.some.inj h).symm⟩⟩
      · rw [if_neg h2] at h
        cases h

/-- `FreeObj` merges with what one of the searches returned, or inserts the object. -/
theorem freeObj_cases (pool : M.Carrier) (o : VMAccelObject AllocRange) :
    (∃ pool', freeObj M pool o = (true, pool') ∧ ∃ e i, Merged pool pool' o e i ∧
      (M.lowerBound pool (key o) = some i ∨ M.upperBound pool (key o) = some i)) ∨
      freeObj M pool o = (true, M.insert pool o) := by
  unfold freeObj
  cases hlow : (M.lowerBound pool (key o)).bind (coalesceAt M pool o) with
  | some pool' =>
    obtain ⟨i, hi, hc⟩ := Option.bind_eq_some_iff.mp hlow
    obtain ⟨e, he⟩ := coalesceAt_eq_some hc
    exact Or.inl ⟨pool', rfl, e, i, he, Or.inl hi⟩
  | none =>
    cases hup : (M.upperBound pool (key o)).bind (coalesceAt M pool o) with
    | some pool' =>
      obtain ⟨i, hi, hc⟩ := Option.bind_eq_some_iff.mp hup
      obtain ⟨e, he⟩ := coalesceAt_eq_some hc
      exact Or.inl ⟨pool', rfl, e, i, he, Or.inr hi⟩
    | none => exact Or.inr rfl

theorem Absorbs.bag_eq {pool pool' : M.Carrier} {o e : VMAccelObject AllocRange} {i : ℕ}
    {m : AllocRange} (h : Absorbs pool pool' o e i m) :
    M.bag pool = e ::ₘ M.bag (M.erase pool i) ∧
      M.bag pool' = .of o.parentId m ::ₘ M.bag (M.erase pool i) :=
  ⟨M.bag_eq_cons_erase h.1, by rw [h.2, M.bag_insert]⟩

theorem parentId_of_mem_freeObj (pool : M.Carrier) (o x : VMAccelObject AllocRange)
    (hx : x ∈ M.bag (freeObj M pool o).2) :
    x.parentId = o.parentId ∨ ∃ y ∈ M.bag pool, y.parentId = x.parentId := by
  rcases freeObj_cases pool o with ⟨pool', heq, e, i, hm, -⟩ | heq
  · obtain ⟨m, hi, rfl⟩ : ∃ m, Absorbs pool pool' o e i m :=
      hm.elim (fun h => ⟨_, h.2⟩) fun h => ⟨_, h.2⟩
    rw [heq] at hx
    exact parentId_of_mem_replace hi hx
  · rw [heq] at hx
    exact parentId_of_mem_insert hx

end AllocRange

instance : Resource AllocRange where
  zero := ⟨false, 0, 0, 0⟩
  default := ⟨false, 0, 0, 0⟩
  le := AllocRange.le
  addAssign := AllocRange.addAssign
  subAssign := AllocRange.subAssign
  isEmpty := AllocRange.isEmpty
  reserve := AllocRange.reserve
  cmp := AllocRange.cmp
  freeObj := AllocRange.freeObj
  parentId_eq_of_cmp {a b} h := by
    by_contra hne
    simp [AllocRange.cmp, hne] at h
  freeObj_fst M pool o := by
    rcases AllocRange.freeObj_cases pool o with ⟨pool', heq, -⟩ | heq <;> rw [heq]
  parentId_of_mem_freeObj M pool o x hx := AllocRange.parentId_of_mem_freeObj pool o x hx

end VMAccel
