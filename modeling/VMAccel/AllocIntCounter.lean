import VMAccel.AllocatorUndo
import VMAccel.FreeSetOrder

/-!
# The integer allocator as a counter

With one amount registered, the free set of the integer allocator holds what is left of it as one
element, or nothing when a reservation took all that was left. A counter with so many slots, which
keeps a list of its own of what is out, therefore answers every `Alloc` of a run as the allocator
does. The sums that the functions compute on `int` are listed beside them; those of the compound
assignments start from entries that stay zero, since the operators take their left operand by
value.
-/

namespace VMAccel

open StepSystem IdentifierDB VMAccelAllocator

/-- What the allocator is for: slots, an amount, and the amounts that are out, each under the
identifier that it was handed out with. -/
structure Counter where
  slots : ℕ
  amount : ℤ
  out : Multiset (VMAccelId × ℤ)

namespace Counter

def new (slots : ℕ) (amount : ℤ) : Counter := ⟨slots, amount, 0⟩

def left (c : Counter) : ℤ := c.amount - (c.out.map Prod.snd).sum

def answer (c : Counter) (x : ℤ) : StatusCode :=
  if c.out.card = c.slots then .fail
  else if x ≤ c.left then .success
  else .resourceUnavailable

def alloc (c : Counter) (id : VMAccelId) (x : ℤ) : Counter :=
  if c.answer x = .success then { c with out := (id, x) ::ₘ c.out } else c

def free (c : Counter) (id : VMAccelId) : Counter :=
  { c with out := c.out.filter fun e => e.1 ≠ id }

end Counter

abbrev IntObject := VMAccelObject AllocInt

/-- The operands of the sum that `FreeObj` computes. -/
def mergeOperands (M : OrderedMultiset IntObject Resource.cmp) (pool : M.Carrier)
    (obj : IntObject) : List (BitVec 32 × BitVec 32) :=
  match (M.toList pool).zipIdx.find? fun p => p.1.parentId = obj.parentId with
  | none => []
  | some (e, _) => [(e.obj.x, obj.obj.x)]

def entryOperands (entries : List AllocInt) (id : VMAccelId) (a : AllocInt) :
    List (BitVec 32 × BitVec 32) :=
  entries[id.toNat]?.toList.map fun c => (c.x, a.x)

def additions {M : OrderedMultiset IntObject Resource.cmp} (s : VMAccelAllocator AllocInt M) :
    Call AllocInt → List (BitVec 32 × BitVec 32)
  | .register a =>
    match s.registeredIds.allocId with
    | .ok (some id, _) => entryOperands s.capacity id a ++ mergeOperands M s.freeSet (.of id a)
    | _ => []
  | .unregister _ => []
  | .alloc p a =>
    if s.externalIds.free = 0 then []
    else
      match lookup s.freeSet (.of p a) with
      | none => []
      | some (i, e) =>
        match e.obj.reserve a with
        | none => []
        | some (d, r) =>
          (if r.isEmpty then [] else mergeOperands M (M.erase s.freeSet i) (.of p r)) ++
            entryOperands s.load p d
  | .free id =>
    mergeOperands M s.freeSet (s.objectAt id.toNat) ++
      entryOperands s.capacity (s.objectAt id.toNat).parentId (s.objectAt id.toNat).obj

def NoOverflow {M : OrderedMultiset IntObject Resource.cmp} (s : VMAccelAllocator AllocInt M)
    (c : Call AllocInt) : Prop :=
  ∀ q ∈ additions s c, q.1.saddOverflow q.2 = false

theorem saddOverflow_eq_false {x y : BitVec 32} (hlow : -2 ^ 31 ≤ x.toInt + y.toInt)
    (hhigh : x.toInt + y.toInt < 2 ^ 31) : x.saddOverflow y = false := by
  simp [BitVec.saddOverflow]
  omega

theorem mem_mergeOperands {M : OrderedMultiset IntObject Resource.cmp} {pool : M.Carrier}
    {o : IntObject} {q : BitVec 32 × BitVec 32} (hq : q ∈ mergeOperands M pool o) :
    ∃ e ∈ M.bag pool, e.parentId = o.parentId ∧ q = (e.obj.x, o.obj.x) := by
  unfold mergeOperands at hq
  rcases scan_cases pool o.parentId with ⟨-, hfind⟩ | ⟨e, i, hi, hpar, hfind⟩
  · rw [hfind] at hq
    exact absurd hq List.not_mem_nil
  · rw [hfind] at hq
    exact ⟨e, M.mem_bag_of_getElem hi, hpar, List.mem_singleton.mp hq⟩

theorem AllocInt.isEmpty_iff {a : AllocInt} : Resource.isEmpty a = true ↔ a.x = 0 := by
  change (a.x == 0) = true ↔ _
  exact beq_iff_eq

theorem AllocInt.freeObj_merges {M : OrderedMultiset IntObject Resource.cmp} (pool : M.Carrier)
    (o : IntObject) :
    MergedByParent (fun a b => ⟨a.x + b.x⟩) pool o (Resource.freeObj M pool o).2 := by
  change MergedByParent _ pool o (AllocInt.freeObj M pool o).2
  rcases scan_cases pool o.parentId with ⟨hnone, hfind⟩ | ⟨e, i, hi, hpar, hfind⟩
  · exact Or.inl ⟨hnone, by rw [AllocInt.freeObj, hfind]⟩
  · exact Or.inr ⟨e, i, hi, hpar, by rw [AllocInt.freeObj, hfind]⟩

def amounts (l : Multiset IntObject) : Multiset ℤ := l.map fun o => o.obj.x.toInt

def remaining (R : BitVec 32) (live : Multiset IntObject) : ℤ := R.toInt - (amounts live).sum

theorem remaining_cons (R : BitVec 32) (o : IntObject) (live : Multiset IntObject) :
    remaining R (o ::ₘ live) = remaining R live - o.obj.x.toInt := by
  rw [remaining, remaining, amounts, amounts, Multiset.map_cons, Multiset.sum_cons]
  omega

/-- Free and live objects of the parent `p` when the amount `R` is registered: what is left is one
element, or nothing is left and there may be none. -/
structure Balance (R : BitVec 32) (p : VMAccelId) (pool live : Multiset IntObject) : Prop where
  objects : ∀ o ∈ live, o.parentId = p ∧ 1 ≤ o.obj.x.toInt
  remaining_nonneg : 0 ≤ remaining R live
  element : (pool = 0 ∧ remaining R live = 0) ∨
    ∃ e, pool = {e} ∧ e.parentId = p ∧ e.obj.x.toInt = remaining R live

section Balance

variable {R : BitVec 32} {p : VMAccelId} {live : Multiset IntObject}

theorem Balance.remaining_lt (h : ∀ o ∈ live, o.parentId = p ∧ 1 ≤ o.obj.x.toInt) :
    remaining R live < 2 ^ 31 := by
  have hsum : 0 ≤ (amounts live).sum := by
    refine Multiset.sum_nonneg fun x hx => ?_
    obtain ⟨o, ho, rfl⟩ := Multiset.mem_map.mp hx
    have := (h o ho).2
    omega
  have hR := BitVec.toInt_lt (x := R)
  unfold remaining
  omega

theorem bag_freeObj_of_empty {M : OrderedMultiset IntObject Resource.cmp} {pool : M.Carrier}
    (hpool : M.bag pool = 0) (o : IntObject) :
    M.bag (Resource.freeObj M pool o).2 = {o} := by
  rw [(AllocInt.freeObj_merges pool o).bag_of_absent, hpool]
  · rfl
  · intro e he
    rw [hpool] at he
    exact absurd he (Multiset.notMem_zero e)

variable {M : SortedMultiset IntObject Resource.cmp} {pool : M.Carrier}

theorem cmp_of_parents {x y : IntObject} (hx : x.parentId = p) (hy : y.parentId = p) :
    Resource.cmp x y = decide (x.obj.x.toInt < y.obj.x.toInt) := by
  change (decide (x.parentId ≠ y.parentId) || x.obj.x.slt y.obj.x) = _
  rw [hx, hy, decide_eq_false fun h => h rfl, Bool.false_or]
  rfl

theorem AllocInt.le_iff {v w : AllocInt} : v.le w = true ↔ v.x.toInt ≤ w.x.toInt :=
  BitVec.sle_iff_toInt_le

instance : IsPreorder AllocInt fun v w => v.le w = true where
  refl v := AllocInt.le_iff.mpr (Int.le_refl v.x.toInt)
  trans _ _ _ huv hvw :=
    AllocInt.le_iff.mpr (Int.le_trans (AllocInt.le_iff.mp huv) (AllocInt.le_iff.mp hvw))

instance : Std.Total fun v w : AllocInt => v.le w = true where
  total v w := by
    rw [AllocInt.le_iff, AllocInt.le_iff]
    exact Int.le_total v.x.toInt w.x.toInt

theorem AllocInt.comparesBy (S : Set IntObject) : ComparesBy cmp (fun v w => v.le w = true) S := by
  intro a _ b _
  refine ne_or_iff_not_withinParent ?_
  rw [AllocInt.le_iff, AllocInt.lt, BitVec.slt_iff_toInt_lt, Int.not_le]

theorem lookup_singleton {e : IntObject} (hpool : M.bag pool = {e}) (he : e.parentId = p)
    (x : BitVec 32) :
    lookup pool (.of p ⟨x⟩) = if e.obj.x.toInt < x.toInt then none else some (0, e) := by
  have hlist : M.toList pool = [e] := Multiset.coe_eq_singleton.mp hpool
  have hcmp : StrictWeakOrderOn Resource.cmp (.of p ⟨x⟩ :: M.toList pool) := by
    refine (AllocInt.comparesBy _).strictWeakOrderOn (p := p) fun o ho => ?_
    rw [hlist, List.mem_cons, List.mem_singleton] at ho
    rcases ho with rfl | rfl
    · rfl
    · exact he
  have hsorted : SortedBy Resource.cmp (M.toList pool) := by
    rw [hlist]
    exact List.pairwise_singleton _ e
  have hfirst := M.lowerBound_first hcmp hsorted
  rw [hlist, List.findIdx?_singleton, cmp_of_parents he rfl] at hfirst
  by_cases hlt : e.obj.x.toInt < x.toInt
  · rw [if_pos hlt, lookup_of_none]
    simpa [VMAccelObject.of, hlt] using hfirst
  · rw [if_neg hlt, lookup_of_some (i := 0) (e := e)]
    · simpa [VMAccelObject.of, hlt] using hfirst
    · rw [hlist]
      rfl

theorem lookup_empty (hpool : M.bag pool = 0) (req : IntObject) : lookup pool req = none := by
  refine lookup_of_none (Option.eq_none_iff_forall_ne_some.mpr fun i hi => ?_)
  obtain ⟨e, he, -⟩ := M.lowerBound_sound hi
  have hmem := M.mem_bag_of_getElem he
  rw [hpool] at hmem
  exact Multiset.notMem_zero e hmem

theorem Balance.putBack (h : Balance R p (M.bag pool) live) {e : IntObject}
    (hpool : M.bag pool = {e}) (he : e.obj.x.toInt = remaining R live) {x : BitVec 32}
    (hx : 1 ≤ x.toInt) (hle : x.toInt ≤ e.obj.x.toInt) :
    Balance R p (M.bag (VMAccelAllocator.putBack (M.erase pool 0) p ⟨e.obj.x - x⟩))
      (.of p ⟨x⟩ ::ₘ live) := by
  have hlist : M.toList pool = [e] := Multiset.coe_eq_singleton.mp hpool
  have hempty : M.bag (M.erase pool 0) = 0 := by
    rw [OrderedMultiset.bag, M.toList_erase, hlist]
    rfl
  have hlt := Balance.remaining_lt (R := R) h.objects
  have hsub : (e.obj.x - x).toInt = e.obj.x.toInt - x.toInt := by
    refine BitVec.toInt_sub_of_not_ssubOverflow ?_
    simp [BitVec.ssubOverflow]
    omega
  have hcons := remaining_cons R (.of p ⟨x⟩) live
  change remaining R (.of p ⟨x⟩ ::ₘ live) = remaining R live - x.toInt at hcons
  refine ⟨fun o ho => ?_, by omega, ?_⟩
  · rcases Multiset.mem_cons.mp ho with rfl | ho
    · exact ⟨rfl, hx⟩
    · exact h.objects o ho
  · by_cases hzero : e.obj.x - x = 0
    · left
      rw [putBack_of_isEmpty (AllocInt.isEmpty_iff.mpr hzero)]
      rw [hzero, show (0 : BitVec 32).toInt = 0 from rfl] at hsub
      exact ⟨hempty, by omega⟩
    · right
      rw [putBack_of_not_isEmpty (mt AllocInt.isEmpty_iff.mp hzero), bag_freeObj_of_empty hempty]
      exact ⟨_, rfl, rfl, by rw [hcons, ← he]; exact hsub⟩

theorem Balance.tryReserve (h : Balance R p (M.bag pool) live) {x : BitVec 32}
    (hx : 1 ≤ x.toInt) :
    (remaining R live < x.toInt ∧ tryReserve pool (.of p ⟨x⟩) = none) ∨
      (x.toInt ≤ remaining R live ∧ ∃ pool',
        tryReserve pool (.of p ⟨x⟩) = some (.of p ⟨x⟩, pool') ∧
          Balance R p (M.bag pool') (.of p ⟨x⟩ ::ₘ live)) := by
  rcases h.element with ⟨hpool, hzero⟩ | ⟨e, hpool, hpar, he⟩
  · refine Or.inl ⟨by omega, ?_⟩
    rw [VMAccelAllocator.tryReserve, lookup_empty hpool]
    rfl
  · have hlookup := lookup_singleton hpool hpar x
    by_cases hlt : e.obj.x.toInt < x.toInt
    · refine Or.inl ⟨by omega, ?_⟩
      rw [VMAccelAllocator.tryReserve, hlookup, if_pos hlt]
      rfl
    · refine Or.inr ⟨by omega, VMAccelAllocator.putBack (M.erase pool 0) p ⟨e.obj.x - x⟩, ?_,
        h.putBack hpool he hx (by omega)⟩
      have hres : Resource.reserve e.obj (VMAccelObject.of p ⟨x⟩).obj =
          some (⟨x⟩, (⟨e.obj.x - x⟩ : AllocInt)) :=
        if_neg fun hslt => hlt (BitVec.slt_iff_toInt_lt.mp hslt)
      rw [VMAccelAllocator.tryReserve, hlookup, if_neg hlt, Option.bind_some, reserveAt, hres]
      rfl

theorem Balance.saddOverflow {o e : IntObject} {pool : Multiset IntObject}
    (h : Balance R p pool (o ::ₘ live)) (he : e ∈ pool) :
    e.obj.x.saddOverflow o.obj.x = false := by
  have ho := h.objects o (Multiset.mem_cons_self o live)
  have hlt : remaining R live < 2 ^ 31 :=
    Balance.remaining_lt (p := p) fun x hx => h.objects x (Multiset.mem_cons_of_mem hx)
  have hcons := remaining_cons R o live
  have hnonneg := h.remaining_nonneg
  rcases h.element with ⟨rfl, -⟩ | ⟨e', rfl, -, he'⟩
  · exact absurd he (Multiset.notMem_zero e)
  · obtain rfl := Multiset.mem_singleton.mp he
    exact saddOverflow_eq_false (by omega) (by omega)

theorem Balance.freeObj {o : IntObject} (h : Balance R p (M.bag pool) (o ::ₘ live)) :
    Balance R p (M.bag (Resource.freeObj M.toOrderedMultiset pool o).2) live := by
  have ho := h.objects o (Multiset.mem_cons_self o live)
  have hcons := remaining_cons R o live
  have hnonneg := h.remaining_nonneg
  refine ⟨fun x hx => h.objects x (Multiset.mem_cons_of_mem hx), by omega, Or.inr ?_⟩
  rcases h.element with ⟨hpool, hzero⟩ | ⟨e, hpool, hpar, he⟩
  · rw [bag_freeObj_of_empty hpool]
    exact ⟨o, rfl, ho.1, by omega⟩
  · have hsum := h.saddOverflow (e := e) (hpool ▸ Multiset.mem_singleton_self e)
    rw [(AllocInt.freeObj_merges pool o).bag_of_present (hpool.trans (Multiset.cons_zero e).symm)
      (hpar.trans ho.1.symm) fun x hx => absurd hx (Multiset.notMem_zero x)]
    refine ⟨_, rfl, ho.1, ?_⟩
    change (e.obj.x + o.obj.x).toInt = _
    rw [BitVec.toInt_add_of_not_saddOverflow (by simp [hsum])]
    omega

end Balance

variable {M : SortedMultiset IntObject Resource.cmp}

/-- The calls of a run. -/
inductive CountCall
  | alloc (x : BitVec 32)
  | free (id : VMAccelId)

def CountCall.toCall (p : VMAccelId) : CountCall → Call AllocInt
  | .alloc x => .alloc p ⟨x⟩
  | .free id => .free id

/-- The allocator, and beside it a counter that takes the same calls. -/
structure Tally (M : SortedMultiset IntObject Resource.cmp) where
  allocator : VMAccelAllocator AllocInt M.toOrderedMultiset
  counter : Counter

/-- The counter decides by itself what to grant, and learns only the identifier. -/
def Tally.step (p : VMAccelId) (t : Tally M) : CountCall → Except Fault (Tally M)
  | .alloc x => do
    let r ← t.allocator.alloc p ⟨x⟩
    return ⟨r.2, t.counter.alloc r.1.1.id x.toInt⟩
  | .free id => do
    let r ← t.allocator.free false id
    return ⟨r.2, t.counter.free id⟩

/-- `Alloc` of at least one, and `Free` of what is out. -/
def Tally.Permits (t : Tally M) : CountCall → Prop
  | .alloc x => 1 ≤ x.toInt
  | .free id => id ∈ t.counter.out.map Prod.fst

/-- `Alloc` from `p` answers like the counter and hands out what was asked for under an identifier
that is not out, and the free set has at most one element, which is what is left. -/
structure Tally.CountsDown (p : VMAccelId) (t : Tally M) : Prop where
  answers : ∀ x : BitVec 32, 1 ≤ x.toInt → ∃ r, t.allocator.alloc p ⟨x⟩ = .ok r ∧
    r.1.1.status = t.counter.answer x.toInt ∧
    (r.1.1.status = .success → r.1.2 = some ⟨x⟩ ∧ ∀ e ∈ t.counter.out, e.1 ≠ r.1.1.id)
  card_freeSet : (M.bag t.allocator.freeSet).card ≤ 1
  element : ∀ e ∈ M.bag t.allocator.freeSet, e.obj.x.toInt = t.counter.left

def outAmounts (s : VMAccelAllocator AllocInt M.toOrderedMultiset) : Multiset (VMAccelId × ℤ) :=
  s.entries.map fun e => (e.1, e.2.obj.x.toInt)

structure Counting (num : ℕ) (R : BitVec 32) (p : VMAccelId)
    (s : VMAccelAllocator AllocInt M.toOrderedMultiset) : Prop where
  coherent : s.Coherent
  wellFormed : s.WellFormed
  active : s.registeredIds.Active p
  size : s.externalIds.size = BitVec.ofNat 32 num
  capacity : ∀ c ∈ s.capacity, c.x = 0
  load : ∀ c ∈ s.load, c.x = 0
  balance : Balance R p (M.bag s.freeSet) s.live

section Counting

variable {num : ℕ} {R : BitVec 32} {p : VMAccelId}
  {s : VMAccelAllocator AllocInt M.toOrderedMultiset}

theorem outAmounts_snd (s : VMAccelAllocator AllocInt M.toOrderedMultiset) :
    (outAmounts s).map Prod.snd = amounts s.live := by
  rw [outAmounts, amounts, live, Multiset.map_map, Multiset.map_map]
  rfl

theorem card_outAmounts (s : VMAccelAllocator AllocInt M.toOrderedMultiset) :
    (outAmounts s).card = s.externalIds.activeIds.card :=
  (Multiset.card_map _ _).trans (Multiset.card_map _ _)

theorem active_of_mem_outAmounts {e : VMAccelId × ℤ} (he : e ∈ outAmounts s) :
    s.externalIds.Active e.1 := by
  obtain ⟨q, hq, rfl⟩ := Multiset.mem_map.mp he
  obtain ⟨i, hi, rfl⟩ := Multiset.mem_map.mp hq
  obtain ⟨hlt, hbit⟩ := mem_activeIds.mp hi
  have hnat := toNat_ofNat_of_lt_size hlt
  exact ⟨BitVec.lt_def.mpr (hnat.symm ▸ hlt), hnat.symm ▸ hbit⟩

theorem outAmounts_reclaim {id : VMAccelId} (hact : s.externalIds.Active id) (o : IntObject) :
    outAmounts (s.reclaim id.toNat o) = (outAmounts s).filter fun e => e.1 ≠ id := by
  have hrest : ∀ e ∈ outAmounts (s.reclaim id.toNat o), e.1 ≠ id := by
    rintro e he rfl
    have hgiven := (active_give (bit_lt_length hact.2) e.1).mp (active_of_mem_outAmounts he)
    exact hgiven.2 rfl
  have hsplit : outAmounts s = (id, (s.objectAt id.toNat).obj.x.toInt) ::ₘ
      outAmounts (s.reclaim id.toNat o) := by
    rw [outAmounts, entries_reclaim hact.1 hact.2 o, Multiset.map_cons, BitVec.ofNat_toNat,
      BitVec.setWidth_eq]
    rfl
  have hid : ¬ (id, (s.objectAt id.toNat).obj.x.toInt).1 ≠ id := not_not.mpr rfl
  rw [hsplit, Multiset.filter_cons_of_neg (p := fun e : VMAccelId × ℤ => e.1 ≠ id) _ hid,
    Multiset.filter_eq_self.mpr hrest]

theorem Counting.full_iff (h : Counting num R p s) :
    (outAmounts s).card = num % 2 ^ 32 ↔ s.externalIds.free = 0 := by
  rw [card_outAmounts, h.wellFormed.externalIds.free_eq_zero_iff, h.size, BitVec.toNat_ofNat]

def counterOf (num : ℕ) (R : BitVec 32) (s : VMAccelAllocator AllocInt M.toOrderedMultiset) :
    Counter := ⟨num % 2 ^ 32, R.toInt, outAmounts s⟩

theorem left_counterOf : (counterOf num R s).left = remaining R s.live := by
  rw [Counter.left, remaining, counterOf, outAmounts_snd]

theorem Counting.grant (h : Counting num R p s) {k : ℕ} {x : BitVec 32} {pool : M.Carrier}
    (hk : k / 32 < s.externalIds.bits.length) (hff : s.externalIds.FirstFree k)
    (hlt : k < s.externalIds.size.toNat)
    (hco : (s.grant k (.of p ⟨x⟩) pool).Coherent) (hwf : (s.grant k (.of p ⟨x⟩) pool).WellFormed)
    (hbal : Balance R p (M.bag pool) (.of p ⟨x⟩ ::ₘ s.live)) :
    Counting num R p (s.grant k (.of p ⟨x⟩) pool) ∧
      (∀ e ∈ outAmounts s, e.1 ≠ BitVec.ofNat 32 k) ∧
      outAmounts (s.grant k (.of p ⟨x⟩) pool) =
        (BitVec.ofNat 32 k, x.toInt) ::ₘ outAmounts s := by
  refine ⟨⟨hco, hwf, h.active, h.size, ?_, ?_, ?_⟩, fun e he heq => ?_, ?_⟩
  · rw [show (s.grant k (.of p ⟨x⟩) pool).capacity = s.capacity from List.modify_id _ _]
    exact h.capacity
  · rw [show (s.grant k (.of p ⟨x⟩) pool).load = s.load from List.modify_id _ _]
    exact h.load
  · rw [live_grant hk hlt h.wellFormed.length_allocated hff.1]
    exact hbal
  · have hbit := (active_of_mem_outAmounts he).2
    rw [heq, toNat_ofNat_of_lt_size hlt, hff.1] at hbit
    cases hbit
  · rw [outAmounts, entries_grant hk hlt h.wellFormed.length_allocated hff.1, Multiset.map_cons]
    rfl

/-- `Alloc` returns, and its answer and the amounts that are out afterwards are those of the
counter. -/
theorem Counting.alloc (h : Counting num R p s) {x : BitVec 32} (hx : 1 ≤ x.toInt) :
    ∃ r, s.alloc p ⟨x⟩ = .ok r ∧ Counting num R p r.2 ∧
      r.1.1.status = (counterOf num R s).answer x.toInt ∧
      (r.1.1.status = .success → r.1.2 = some ⟨x⟩ ∧ ∀ e ∈ outAmounts s, e.1 ≠ r.1.1.id) ∧
      counterOf num R r.2 = (counterOf num R s).alloc r.1.1.id x.toInt := by
  obtain ⟨r, hr⟩ := h.coherent.returns_alloc (addressable_of_index (bit_lt_length h.active.2)) p ⟨x⟩
  have happly : s.apply false (.alloc p ⟨x⟩) = .ok r.2 := bind_snd_eq_ok.mpr ⟨r, hr, rfl⟩
  have hco := h.coherent.effect (apply_effect h.coherent happly)
  have hwf := (apply_refines h.wellFormed happly).1
  have hanswer : (counterOf num R s).answer x.toInt = if s.externalIds.free = 0 then .fail
      else if x.toInt ≤ remaining R s.live then .success else .resourceUnavailable := by
    rw [Counter.answer, left_counterOf]
    exact if_congr h.full_iff rfl rfl
  refine ⟨r, hr, ?_⟩
  rw [Counter.alloc, hanswer]
  rcases alloc_ok h.wellFormed hr with ⟨hfree, rfl⟩ | ⟨hfree, htr, rfl⟩ |
    ⟨k, d, pool, hfree, hk, hff, htr, rfl⟩
  · rw [if_pos hfree]
    exact ⟨⟨hco, hwf, h.active, h.size, h.capacity, h.load, h.balance⟩, rfl,
      StatusCode.noConfusion, rfl⟩
  · rw [if_neg hfree]
    rcases h.balance.tryReserve hx with ⟨hlt, -⟩ | ⟨-, pool', hsome, -⟩
    · rw [if_neg (by omega)]
      exact ⟨⟨hco, hwf, h.active, h.size, h.capacity, h.load, h.balance⟩, rfl,
        StatusCode.noConfusion, rfl⟩
    · rw [htr] at hsome
      cases hsome
  · rw [if_neg hfree]
    rcases h.balance.tryReserve hx with ⟨-, hnone⟩ | ⟨hle, pool', hsome, hbal⟩
    · rw [htr] at hnone
      cases hnone
    · rw [htr] at hsome
      cases hsome
      have hlt := hff.lt_size h.wellFormed.externalIds hfree
      obtain ⟨hcount, hnew, hout⟩ := h.grant hk hff hlt hco hwf hbal
      rw [if_pos hle]
      refine ⟨hcount, rfl, fun _ => ⟨rfl, hnew⟩, ?_⟩
      rw [counterOf, hout]
      rfl

/-- `Free` of an active identifier returns and takes its amount from those that are out. -/
theorem Counting.free (h : Counting num R p s) {id : VMAccelId} (hact : s.externalIds.Active id) :
    ∃ r, s.free false id = .ok r ∧ Counting num R p r.2 ∧
      counterOf num R r.2 = (counterOf num R s).free id := by
  have hr := free_of_active h.wellFormed hact
  have happly : s.apply false (.free id) = .ok (s.reclaim id.toNat (s.objectAt id.toNat)) :=
    bind_snd_eq_ok.mpr ⟨_, hr, rfl⟩
  refine ⟨_, hr, ⟨h.coherent.effect (apply_effect h.coherent happly),
    (apply_refines h.wellFormed happly).1, h.active, h.size, ?_, ?_, ?_⟩, ?_⟩
  · rw [show (s.reclaim id.toNat _).capacity = s.capacity from List.modify_id _ _]
    exact h.capacity
  · rw [show (s.reclaim id.toNat _).load = s.load from List.modify_id _ _]
    exact h.load
  · have hbal := h.balance
    rw [live_reclaim hact.1 hact.2 (s.objectAt id.toNat)] at hbal
    exact hbal.freeObj
  · rw [counterOf, outAmounts_reclaim hact]
    rfl

theorem saddOverflow_zero (x : BitVec 32) : BitVec.saddOverflow 0 x = false := by
  have hlow := BitVec.le_toInt (x := x)
  have hhigh := BitVec.toInt_lt (x := x)
  refine saddOverflow_eq_false ?_ ?_ <;> rw [show (0 : BitVec 32).toInt = 0 from rfl] <;> omega

theorem saddOverflow_entry {entries : List AllocInt} (h : ∀ c ∈ entries, c.x = 0) {id : VMAccelId}
    {a : AllocInt} {q : BitVec 32 × BitVec 32} (hq : q ∈ entryOperands entries id a) :
    q.1.saddOverflow q.2 = false := by
  obtain ⟨c, hc, rfl⟩ := List.mem_map.mp hq
  have hmem : c ∈ entries := List.mem_of_getElem? (Option.mem_toList.mp hc)
  rw [h c hmem]
  exact saddOverflow_zero a.x

theorem mem_additions_alloc {a : AllocInt} {q : BitVec 32 × BitVec 32}
    (hq : q ∈ additions s (.alloc p a)) :
    ∃ i e d r, lookup s.freeSet (.of p a) = some (i, e) ∧
      (q ∈ mergeOperands M.toOrderedMultiset (M.erase s.freeSet i) (.of p r) ∨
        q ∈ entryOperands s.load p d) := by
  rw [additions] at hq
  by_cases hfree : s.externalIds.free = 0
  · rw [if_pos hfree] at hq
    exact absurd hq List.not_mem_nil
  · rw [if_neg hfree] at hq
    split at hq
    · exact absurd hq List.not_mem_nil
    · next i e hl =>
      split at hq
      · exact absurd hq List.not_mem_nil
      · next d r hres =>
        refine ⟨i, e, d, r, hl, ?_⟩
        rcases List.mem_append.mp hq with hq | hq
        · split_ifs at hq
          · exact absurd hq List.not_mem_nil
          · exact Or.inl hq
        · exact Or.inr hq

theorem Counting.card_freeSet (h : Counting num R p s) : (M.bag s.freeSet).card ≤ 1 := by
  rcases h.balance.element with ⟨hpool, -⟩ | ⟨e, hpool, -⟩
  · rw [hpool]
    exact Nat.zero_le 1
  · rw [hpool, Multiset.card_singleton]

theorem Counting.element (h : Counting num R p s) {e : IntObject} (he : e ∈ M.bag s.freeSet) :
    e.obj.x.toInt = remaining R s.live := by
  rcases h.balance.element with ⟨hpool, -⟩ | ⟨e', hpool, -, he'⟩
  · rw [hpool] at he
    exact absurd he (Multiset.notMem_zero e)
  · rw [hpool] at he
    rw [Multiset.mem_singleton.mp he]
    exact he'

theorem Counting.noOverflow_alloc (h : Counting num R p s) (a : AllocInt) :
    NoOverflow s (.alloc p a) := by
  intro q hq
  obtain ⟨i, e, d, r, hl, hq | hq⟩ := mem_additions_alloc hq
  · -- The one element is taken out before the remainder goes back.
    obtain ⟨x, hx, -, -⟩ := mem_mergeOperands hq
    have hcard := h.card_freeSet
    rw [M.bag_eq_cons_erase (lookup_eq_some hl).1, Multiset.card_cons] at hcard
    have hzero : M.bag (M.erase s.freeSet i) = 0 := Multiset.card_eq_zero.mp (by omega)
    rw [hzero] at hx
    exact absurd hx (Multiset.notMem_zero x)
  · exact saddOverflow_entry h.load hq

theorem Counting.noOverflow_free (h : Counting num R p s) {id : VMAccelId}
    (hact : s.externalIds.Active id) : NoOverflow s (.free id) := by
  intro q hq
  rcases List.mem_append.mp hq with hq | hq
  · obtain ⟨e, he, -, rfl⟩ := mem_mergeOperands hq
    have hbal := h.balance
    rw [live_reclaim hact.1 hact.2 (s.objectAt id.toNat)] at hbal
    exact hbal.saddOverflow he
  · exact saddOverflow_entry h.capacity hq

theorem entries_zero_new {c : AllocInt} (num : ℕ)
    (hc : c ∈ List.replicate num (Resource.zero : AllocInt)) : c.x = 0 := by
  rw [List.eq_of_mem_replicate hc]
  rfl

theorem counting_registered (hR : 0 ≤ R.toInt)
    (hreg : (new M.toOrderedMultiset num).register ⟨R⟩ = .ok (⟨p, .success⟩, s)) :
    Counting num R p s := by
  have hwf := wellFormed_new (M := M.toOrderedMultiset) num
  have happly : (new M.toOrderedMultiset num).apply false (.register ⟨R⟩) = .ok s :=
    bind_snd_eq_ok.mpr ⟨_, hreg, rfl⟩
  have hco := (coherent_new num).effect (apply_effect (coherent_new num) happly)
  have hwf' := (apply_refines hwf happly).1
  have hlive : (new M.toOrderedMultiset num).live = 0 := by
    rw [live, entries_new]
    rfl
  rcases register_ok hwf.unqueued hreg with ⟨-, heq⟩ | ⟨k, hfree, hk, hff, heq⟩
  · cases heq
  · cases heq
    have hlt := hff.lt_size hwf.registeredIds hfree
    refine ⟨hco, hwf', (active_take hk hlt _).mpr (Or.inr (toNat_ofNat_of_lt_size hlt)), rfl, ?_,
      fun c hc => entries_zero_new num hc, ?_⟩
    · rw [show ((new M.toOrderedMultiset num).enroll k ⟨R⟩).capacity =
        (new M.toOrderedMultiset num).capacity from List.modify_id _ _]
      exact fun c hc => entries_zero_new num hc
    · rw [show ((new M.toOrderedMultiset num).enroll k ⟨R⟩).live = 0 from hlive]
      have hrem : remaining R 0 = R.toInt := Int.sub_zero _
      refine ⟨fun o ho => absurd ho (Multiset.notMem_zero o), by omega, Or.inr
        ⟨.of (BitVec.ofNat 32 k) ⟨R⟩, ?_, rfl, hrem.symm⟩⟩
      exact bag_freeObj_of_empty (M := M.toOrderedMultiset) M.bag_empty _

theorem noOverflow_register (num : ℕ) (a : AllocInt) :
    NoOverflow (new M.toOrderedMultiset num) (.register a) := by
  intro q hq
  rw [additions] at hq
  split at hq
  · rcases List.mem_append.mp hq with hq | hq
    · exact saddOverflow_entry (fun c hc => entries_zero_new num hc) hq
    · obtain ⟨e, he, -⟩ := mem_mergeOperands hq
      rw [show M.bag (new M.toOrderedMultiset num).freeSet = 0 from M.bag_empty] at he
      exact absurd he (Multiset.notMem_zero e)
  · exact absurd hq List.not_mem_nil

structure Tally.InStep (num : ℕ) (R : BitVec 32) (p : VMAccelId) (t : Tally M) : Prop where
  counting : Counting num R p t.allocator
  counter : t.counter = counterOf num R t.allocator

variable {t : Tally M}

theorem Tally.InStep.active (h : t.InStep num R p) {id : VMAccelId}
    (hc : t.Permits (.free id)) : t.allocator.externalIds.Active id := by
  obtain ⟨e, he, rfl⟩ := Multiset.mem_map.mp hc
  rw [h.counter] at he
  exact active_of_mem_outAmounts he

theorem Tally.InStep.step (h : t.InStep num R p) {c : CountCall} (hc : t.Permits c) :
    ∃ t', t.step p c = .ok t' ∧ t'.InStep num R p := by
  cases c with
  | alloc x =>
    obtain ⟨r, hr, hcount, -, -, hcounter⟩ := h.counting.alloc hc
    refine ⟨⟨r.2, t.counter.alloc r.1.1.id x.toInt⟩, ?_, hcount, h.counter ▸ hcounter.symm⟩
    rw [Tally.step, hr]
    rfl
  | free id =>
    obtain ⟨r, hr, hcount, hcounter⟩ := h.counting.free (h.active hc)
    refine ⟨⟨r.2, t.counter.free id⟩, ?_, hcount, h.counter ▸ hcounter.symm⟩
    rw [Tally.step, hr]
    rfl

theorem Tally.InStep.countsDown (h : t.InStep num R p) : t.CountsDown p where
  answers x hx := by
    obtain ⟨r, hr, -, hstatus, hsuccess, -⟩ := h.counting.alloc hx
    rw [h.counter]
    exact ⟨r, hr, hstatus, hsuccess⟩
  card_freeSet := h.counting.card_freeSet
  element e he := by
    rw [h.counter, left_counterOf]
    exact h.counting.element he

theorem Tally.InStep.noOverflow (h : t.InStep num R p) {c : CountCall} (hc : t.Permits c) :
    NoOverflow t.allocator (c.toCall p) := by
  cases c with
  | alloc x => exact h.counting.noOverflow_alloc ⟨x⟩
  | free id => exact h.counting.noOverflow_free (h.active hc)

theorem inStep_registered (hR : 0 ≤ R.toInt)
    (hreg : (new M.toOrderedMultiset num).register ⟨R⟩ = .ok (⟨p, .success⟩, s)) :
    (⟨s, .new (num % 2 ^ 32) R.toInt⟩ : Tally M).InStep num R p := by
  have hcount := counting_registered hR hreg
  refine ⟨hcount, ?_⟩
  have hwf := wellFormed_new (M := M.toOrderedMultiset) num
  rcases register_ok hwf.unqueued hreg with ⟨-, heq⟩ | ⟨k, -, -, -, heq⟩
  · cases heq
  · cases heq
    rw [counterOf, outAmounts, show ((new M.toOrderedMultiset num).enroll k ⟨R⟩).entries = 0 from
      entries_new (M := M.toOrderedMultiset) num]
    rfl

end Counting

/-- With one nonnegative amount registered, every run of `Alloc` from it and `Free` of what is out
returns, the allocator answers in every state on the way like the counter that takes the same
calls, and no sum on `int` overflows. -/
theorem int_allocator_counts (M : SortedMultiset IntObject Resource.cmp) (num : ℕ) (R : BitVec 32)
    (hR : 0 ≤ R.toInt) (p : VMAccelId) (s : VMAccelAllocator AllocInt M.toOrderedMultiset)
    (hreg : (new M.toOrderedMultiset num).register ⟨R⟩ = .ok (⟨p, .success⟩, s))
    (cs : List CountCall)
    (hcs : EachInput (Tally.step p) Tally.Permits ⟨s, .new (num % 2 ^ 32) R.toInt⟩ cs) :
    Always (Tally.step p) (Tally.CountsDown p) ⟨s, .new (num % 2 ^ 32) R.toInt⟩ cs ∧
      NoOverflow (new M.toOrderedMultiset num) (.register ⟨R⟩) ∧
      EachInput (Tally.step p) (fun t c => NoOverflow t.allocator (c.toCall p))
        ⟨s, .new (num % 2 ^ 32) R.toInt⟩ cs := by
  have hinit := inStep_registered hR hreg
  refine ⟨?_, noOverflow_register num ⟨R⟩, ?_⟩
  · exact (always_iff_eachInput (I := Tally.InStep num R p) (C := fun _ _ => True)
      (fun _ h => h.countsDown) (fun _ _ h hc _ => h.step hc) (fun _ _ _ _ _ _ _ => trivial) hinit
      hcs).mpr (eachInput_true _ _)
  · refine eachInput_of_invariant (I := Tally.InStep num R p) (fun _ _ h hc => h.noOverflow hc) ?_
      hinit hcs
    intro t c t' h hc ht
    obtain ⟨u, hu, hinStep⟩ := h.step hc
    obtain rfl := Except.ok.inj (ht.symm.trans hu)
    exact hinStep

instance (t : Tally M) : (c : CountCall) → Decidable (t.Permits c)
  | .alloc x => inferInstanceAs (Decidable (1 ≤ x.toInt))
  | .free id => inferInstanceAs (Decidable (id ∈ t.counter.out.map Prod.fst))

abbrev IntSet := SearchTree.sortedMultiset (Resource.cmp (T := AllocInt))

/-- Two slots and the amount 5, of which 3 and 2 are taken and 3 comes back. -/
theorem int_allocator_counts_demo :
    ∃ s, (new IntSet.toOrderedMultiset 2).register ⟨5⟩ = .ok (⟨0, .success⟩, s) ∧
      Always (Tally.step 0) (Tally.CountsDown 0) (⟨s, .new 2 5⟩ : Tally IntSet)
        [.alloc 3, .alloc 2, .free 0] := by
  refine ⟨(new IntSet.toOrderedMultiset 2).enroll 0 ⟨5⟩, rfl, ?_⟩
  exact (int_allocator_counts IntSet 2 5 (by decide) 0 _ rfl [.alloc 3, .alloc 2, .free 0]
    (by decide +kernel)).1

end VMAccel
