import VMAccel.AllocatorBuilds

/-!
# What a search drops and what it overlooks

Two histories of the search of `Alloc` next to `findFree`. `drops` lists the objects that the search
takes out of the free set or the queue and puts nowhere: a queued object of another parent, a queued
object that fits but does not reserve, and a remainder that `IsEmpty` calls empty. `searched` lists
the free sets in which it calls `lower_bound`; the call overlooks something when it returns the end
although some element does not compare below the request.
-/

namespace VMAccel.VMAccelAllocator

variable {T : Type} [Resource T] {M : OrderedMultiset (VMAccelObject T) Resource.cmp}

def spill (p : VMAccelId) (r : T) : List (VMAccelObject T) :=
  if Resource.isEmpty r then [.of p r] else []

def spillReserve (pool : M.Carrier) (req : VMAccelObject T) : List (VMAccelObject T) :=
  match lookup pool req with
  | none => []
  | some (_, e) =>
    match Resource.reserve e.obj req.obj with
    | none => []
    | some (_, r) => spill req.parentId r

def dropsFreed (req : VMAccelObject T) (pool : M.Carrier) :
    List (VMAccelObject T) → List (VMAccelObject T)
  | [] => []
  | a :: rest =>
    if a.parentId ≠ req.parentId then a :: dropsFreed req pool rest
    else if Resource.le req.obj a.obj then
      match Resource.reserve a.obj req.obj with
      | none => [a]
      | some (_, r) => spill req.parentId r
    else
      let pool' := (Resource.freeObj M pool a).2
      if (tryReserve pool' req).isSome then spillReserve pool' req else dropsFreed req pool' rest

def drops (s : VMAccelAllocator T M) (req : VMAccelObject T) : List (VMAccelObject T) :=
  if (lookup s.freeSet req).isSome then spillReserve s.freeSet req
  else dropsFreed req s.freeSet s.freed

def searchedFreed (req : VMAccelObject T) (pool : M.Carrier) :
    List (VMAccelObject T) → List M.Carrier
  | [] => []
  | a :: rest =>
    if a.parentId ≠ req.parentId then searchedFreed req pool rest
    else if Resource.le req.obj a.obj then []
    else
      let pool' := (Resource.freeObj M pool a).2
      pool' :: if (tryReserve pool' req).isSome then [] else searchedFreed req pool' rest

def searched (s : VMAccelAllocator T M) (req : VMAccelObject T) : List M.Carrier :=
  s.freeSet ::
    if (lookup s.freeSet req).isSome then [] else searchedFreed req s.freeSet s.freed

/-- No call of `lower_bound` in the search misses an element. -/
def OverlooksNothing (s : VMAccelAllocator T M) : Call T → Prop
  | .alloc p a => ∀ pool ∈ s.searched (.of p a), lookup pool (.of p a) = none →
      ∀ e ∈ M.toList pool, Resource.cmp e (.of p a) = true
  | _ => True

instance (s : VMAccelAllocator T M) : (c : Call T) → Decidable (s.OverlooksNothing c)
  | .alloc p a =>
    have : DecidablePred fun pool => lookup (M := M) pool (.of p a) = none → ∀ e ∈ M.toList pool,
        Resource.cmp e (.of p a) = true := fun pool =>
      if h : (lookup pool (.of p a)).isSome then
        .isTrue fun hnone => absurd h (by rw [hnone]; exact Bool.false_ne_true)
      else decidable_of_iff (∀ e ∈ M.toList pool, Resource.cmp e (.of p a) = true)
        (imp_iff_right (Option.not_isSome_iff_eq_none.mp h)).symm
    inferInstanceAs (Decidable (∀ pool ∈ _, _ → _))
  | .register _ | .unregister _ | .free _ => .isTrue trivial

section Drops

variable (req : VMAccelObject T) {a : VMAccelObject T} {pool : M.Carrier}
  {rest : List (VMAccelObject T)}

theorem dropsFreed_of_ne (h : a.parentId ≠ req.parentId) :
    dropsFreed req pool (a :: rest) = a :: dropsFreed req pool rest := by
  rw [dropsFreed, if_pos h]

theorem dropsFreed_of_le (h : a.parentId = req.parentId) (hle : Resource.le req.obj a.obj = true) :
    dropsFreed req pool (a :: rest) =
      match Resource.reserve a.obj req.obj with
      | none => [a]
      | some (_, r) => spill req.parentId r := by
  rw [dropsFreed, if_neg (not_not.mpr h), if_pos hle]

theorem dropsFreed_of_not_le (h : a.parentId = req.parentId)
    (hle : Resource.le req.obj a.obj ≠ true) :
    dropsFreed req pool (a :: rest) =
      if (tryReserve (Resource.freeObj M pool a).2 req).isSome
      then spillReserve (Resource.freeObj M pool a).2 req
      else dropsFreed req (Resource.freeObj M pool a).2 rest := by
  rw [dropsFreed, if_neg (not_not.mpr h), if_neg hle]

theorem searchedFreed_of_ne (h : a.parentId ≠ req.parentId) :
    searchedFreed req pool (a :: rest) = searchedFreed req pool rest := by
  rw [searchedFreed, if_pos h]

theorem searchedFreed_of_not_le (h : a.parentId = req.parentId)
    (hle : Resource.le req.obj a.obj ≠ true) :
    searchedFreed req pool (a :: rest) = (Resource.freeObj M pool a).2 ::
      if (tryReserve (Resource.freeObj M pool a).2 req).isSome then []
      else searchedFreed req (Resource.freeObj M pool a).2 rest := by
  rw [searchedFreed, if_neg (not_not.mpr h), if_neg hle]

theorem mem_spill {p : VMAccelId} {r : T} {o : VMAccelObject T} (h : o ∈ spill p r) :
    o.parentId = p := by
  unfold spill at h
  split_ifs at h
  · rw [List.mem_singleton.mp h]
    rfl
  · exact absurd h List.not_mem_nil

variable {req}

theorem spillReserve_of_reserve {i : ℕ} {e : VMAccelObject T} {d r : T}
    (h : lookup pool req = some (i, e)) (hres : Resource.reserve e.obj req.obj = some (d, r)) :
    spillReserve pool req = spill req.parentId r := by
  rw [spillReserve, h]
  dsimp only
  rw [hres]

theorem spillReserve_of_none (h : tryReserve pool req = none) : spillReserve pool req = [] := by
  unfold tryReserve at h
  unfold spillReserve
  cases hl : lookup pool req with
  | none => rfl
  | some q =>
    rw [hl, Option.bind_some, reserveAt] at h
    cases hres : Resource.reserve q.2.obj req.obj with
    | none => simp [hres]
    | some dr => simp [hres] at h

end Drops

section Parents

variable {P : VMAccelId → Prop} {p : VMAccelId} {a : T}

theorem spillReserve_parents {pool : M.Carrier} (hpool : ∀ o ∈ M.bag pool, P o.parentId) :
    ∀ o ∈ spillReserve pool (.of p a), P o.parentId := by
  intro o ho
  unfold spillReserve at ho
  cases hl : lookup pool (.of p a) with
  | none =>
    rw [hl] at ho
    exact absurd ho List.not_mem_nil
  | some q =>
    obtain ⟨hi, hcmp⟩ := lookup_eq_some hl
    rw [hl] at ho
    dsimp only at ho
    split at ho
    · exact absurd ho List.not_mem_nil
    · rw [mem_spill ho, ← Resource.parentId_eq_of_cmp hcmp]
      exact hpool q.2 (M.mem_bag_of_getElem hi)

theorem dropsFreed_parents {pool : M.Carrier} {queue : List (VMAccelObject T)}
    (hpool : ∀ o ∈ M.bag pool, P o.parentId) (hqueue : ∀ o ∈ queue, P o.parentId) :
    ∀ o ∈ dropsFreed (.of p a) pool queue, P o.parentId := by
  induction queue generalizing pool with
  | nil => exact fun o ho => absurd ho List.not_mem_nil
  | cons x rest ih =>
    have hx : P x.parentId := hqueue x List.mem_cons_self
    have hrest : ∀ o ∈ rest, P o.parentId := fun o ho => hqueue o (List.mem_cons_of_mem x ho)
    intro o ho
    by_cases hxp : x.parentId = p
    · by_cases hle : Resource.le a x.obj = true
      · rw [dropsFreed_of_le _ hxp hle] at ho
        split at ho
        · exact List.mem_singleton.mp ho ▸ hx
        · exact mem_spill ho ▸ hxp ▸ hx
      · rw [dropsFreed_of_not_le _ hxp hle] at ho
        split_ifs at ho
        · exact spillReserve_parents (freeObj_parents hpool hx) o ho
        · exact ih (freeObj_parents hpool hx) hrest o ho
    · rw [dropsFreed_of_ne _ hxp, List.mem_cons] at ho
      rcases ho with rfl | ho
      · exact hx
      · exact ih hpool hrest o ho

theorem drops_parents {s : VMAccelAllocator T M} (hpool : ∀ o ∈ M.bag s.freeSet, P o.parentId)
    (hqueue : ∀ o ∈ s.freed, P o.parentId) : ∀ o ∈ s.drops (.of p a), P o.parentId := by
  intro o ho
  unfold drops at ho
  split_ifs at ho
  · exact spillReserve_parents hpool o ho
  · exact dropsFreed_parents hpool hqueue o ho

end Parents

section Closed

variable {P : M.Carrier → Prop} (hfree : ∀ pool o, P pool → P (Resource.freeObj M pool o).2)
  (herase : ∀ pool i, P pool → P (M.erase pool i))

include hfree in
theorem putBack_closed {pool : M.Carrier} (h : P pool) (p : VMAccelId) (r : T) :
    P (putBack pool p r) := by
  unfold putBack
  split_ifs
  · exact h
  · exact hfree pool _ h

include hfree in
theorem coalesceFrom_closed {pool : M.Carrier} (h : P pool) (queue : List (VMAccelObject T)) :
    P (coalesceFrom pool queue) := by
  induction queue generalizing pool with
  | nil => exact h
  | cons o rest ih => exact ih (hfree pool o h)

include hfree herase in
theorem tryReserve_closed {pool pool' : M.Carrier} (h : P pool) {p : VMAccelId} {a : T}
    {d : VMAccelObject T} (htr : tryReserve pool (.of p a) = some (d, pool')) : P pool' := by
  obtain ⟨i, e, div, r, -, -, -, rfl⟩ := tryReserve_eq_some htr
  exact putBack_closed hfree (herase pool i h) p r

include hfree herase in
theorem findFreed_closed {pool : M.Carrier} (h : P pool) (p : VMAccelId) (a : T)
    (queue : List (VMAccelObject T)) : P (findFreed (.of p a) pool queue).2.1 := by
  induction queue generalizing pool with
  | nil => exact h
  | cons o rest ih =>
    by_cases hop : o.parentId = p
    · by_cases hle : Resource.le a o.obj = true
      · rw [findFreed_of_le _ hop hle]
        cases Resource.reserve o.obj (VMAccelObject.of p a).obj with
        | none => exact h
        | some q => exact putBack_closed hfree h p q.2
      · rw [findFreed_of_not_le _ hop hle]
        cases htr : tryReserve (Resource.freeObj M pool o).2 (.of p a) with
        | none => exact ih (hfree pool o h)
        | some q => exact tryReserve_closed hfree herase (hfree pool o h) htr
    · rw [findFreed_of_ne _ hop]
      exact ih h

include hfree herase in
/-- A property of free sets that `FreeObj` and an erasure keep is kept by the search. -/
theorem findFree_closed {s : VMAccelAllocator T M} (h : P s.freeSet) (p : VMAccelId) (a : T) :
    P (s.findFree (.of p a)).2.1 := by
  cases hl : lookup s.freeSet (.of p a) with
  | none =>
    rw [findFree_of_lookup_none hl]
    exact findFreed_closed hfree herase h p a s.freed
  | some q =>
    rw [findFree_of_lookup hl]
    cases htr : tryReserve s.freeSet (.of p a) with
    | none => exact h
    | some r => exact tryReserve_closed hfree herase h htr

end Closed

end VMAccel.VMAccelAllocator
