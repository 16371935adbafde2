import VMAccel.AllocatorLedger
import VMAccel.DescLockstep

/-!
# Calls and the memory of tree nodes

An object of the allocator that `FreeObj` merges into an element of the free set goes to a new node
of the tree, and its move constructor frees the pointers that the raw memory of the node happens to
hold. The calls of the immediate-free build are repeated here with that memory as an input. They do
what the calls on values do, unless the memory stops them, and of the calls in a run only `Free`
can be stopped: `Register` and `Alloc` never merge.
-/

namespace VMAccel

open StepSystem IdentifierDB

namespace VMAccelAllocator

variable {M : OrderedMultiset (VMAccelObject VMAccelDesc) Resource.cmp}

/-- The remainder of a reservation that `Alloc` gives to `FreeObj`, and the free set then. -/
def remainderOf (s : VMAccelAllocator VMAccelDesc M) (p : VMAccelId) (a : VMAccelDesc) :
    Option (M.Carrier × VMAccelObject VMAccelDesc) := do
  let (i, e) ← lookup s.freeSet (.of p a)
  let (_, r) ← e.obj.reserve a
  if r.isEmpty then none else some (M.erase s.freeSet i, .of p r)

/-- What a call of the immediate-free build gives to `FreeObj`, and the free set then. The queue of
freed objects is empty between these calls, so `Unregister` gives it nothing. -/
def freesObj (s : VMAccelAllocator VMAccelDesc M) :
    Call VMAccelDesc → Option (M.Carrier × VMAccelObject VMAccelDesc)
  | .register a =>
    match s.registeredIds.allocId with
    | .ok (some id, _) => some (s.freeSet, .of id a)
    | _ => none
  | .unregister _ => none
  | .alloc p a => if s.externalIds.free = 0 then none else s.remainderOf p a
  | .free id => some (s.freeSet, s.objectAt id.toNat)

/-- A call with the memory of the node that `FreeObj` takes. -/
def inNode {α : Type} (node : RawNode) (s : VMAccelAllocator VMAccelDesc M)
    (c : Call VMAccelDesc) (x : Except Fault α) : Except Fault α :=
  match s.freesObj c with
  | none => x
  | some (pool, o) => do
    let _ ← VMAccelDesc.freeObjIn M node pool o
    x

def registerIn (node : RawNode) (s : VMAccelAllocator VMAccelDesc M) (a : VMAccelDesc) :
    Except Fault (VMAccelAllocateStatus × VMAccelAllocator VMAccelDesc M) :=
  s.inNode node (.register a) (s.register a)

def allocIn (node : RawNode) (s : VMAccelAllocator VMAccelDesc M) (p : VMAccelId)
    (a : VMAccelDesc) :
    Except Fault ((VMAccelAllocateStatus × Option VMAccelDesc) × VMAccelAllocator VMAccelDesc M) :=
  s.inNode node (.alloc p a) (s.alloc p a)

def freeIn (node : RawNode) (s : VMAccelAllocator VMAccelDesc M) (id : VMAccelId) :
    Except Fault (StatusCode × VMAccelAllocator VMAccelDesc M) :=
  s.inNode node (.free id) (s.free false id)

/-- A call of the immediate-free build, with the memory of the node that it may take. -/
def applyIn (s : VMAccelAllocator VMAccelDesc M) (c : Call VMAccelDesc × RawNode) :
    Except Fault (VMAccelAllocator VMAccelDesc M) :=
  s.inNode c.2 c.1 (s.apply false c.1)

def Merges (s : VMAccelAllocator VMAccelDesc M) (c : Call VMAccelDesc) : Prop :=
  ∃ q ∈ s.freesObj c, ∃ e ∈ M.bag q.1, e.parentId = q.2.parentId

variable {s : VMAccelAllocator VMAccelDesc M}

theorem inNode_ok {α : Type} {node : RawNode} {c : Call VMAccelDesc} {x : Except Fault α} {r : α} :
    s.inNode node c x = .ok r ↔ x = .ok r ∧ (s.Merges c → node.Clear) := by
  unfold inNode Merges
  cases hq : s.freesObj c with
  | none => simp
  | some q =>
    dsimp only
    rw [bind_eq_ok]
    constructor
    · rintro ⟨y, hy, hx⟩
      refine ⟨hx, ?_⟩
      rintro ⟨q', hq', hmerges⟩
      obtain rfl := Option.some.inj hq'
      exact (VMAccelDesc.freeObjIn_ok.mp hy).2 hmerges
    · rintro ⟨hx, hclear⟩
      exact ⟨_, VMAccelDesc.freeObjIn_ok.mpr ⟨rfl, fun h => hclear ⟨q, rfl, h⟩⟩, hx⟩

theorem inNode_bind {α β : Type} {node : RawNode} {c : Call VMAccelDesc} {x : Except Fault α}
    {f : α → Except Fault β} : s.inNode node c x >>= f = s.inNode node c (x >>= f) := by
  unfold inNode
  cases s.freesObj c with
  | none => rfl
  | some q =>
    dsimp only
    cases VMAccelDesc.freeObjIn M node q.1 q.2 with
    | ok y => rfl
    | error e => rfl

theorem applyIn_ok {c : Call VMAccelDesc × RawNode} {t : VMAccelAllocator VMAccelDesc M} :
    s.applyIn c = .ok t ↔ s.apply false c.1 = .ok t ∧ (s.Merges c.1 → c.2.Clear) := inNode_ok

theorem run_apply_of_applyIn {cs : List (Call VMAccelDesc × RawNode)}
    {t : VMAccelAllocator VMAccelDesc M} (hrun : run applyIn s cs = .ok t) :
    run (apply false) s (cs.map Prod.fst) = .ok t := by
  induction cs generalizing s with
  | nil => exact hrun
  | cons c cs ih =>
    obtain ⟨s', hs, ht⟩ := run_cons_ok.mp hrun
    exact run_cons_ok.mpr ⟨s', (applyIn_ok.mp hs).1, ih ht⟩

theorem not_merges_alloc (hsingle : Single s.freeSet) (p : VMAccelId) (a : VMAccelDesc) :
    ¬ s.Merges (.alloc p a) := by
  rintro ⟨q, hq, e', he', hpar⟩
  have hq : q ∈ s.remainderOf p a := by
    rw [freesObj] at hq
    split_ifs at hq
    · cases hq
    · exact hq
  obtain ⟨⟨i, e⟩, hl, hq⟩ := Option.bind_eq_some_iff.mp hq
  obtain ⟨⟨d, r⟩, -, hq⟩ := Option.bind_eq_some_iff.mp hq
  dsimp only at hq
  split_ifs at hq
  cases hq
  obtain ⟨hi, hcmp⟩ := lookup_eq_some hl
  have hep : e.parentId = p := Resource.parentId_eq_of_cmp hcmp
  exact hsingle.parentId_ne hi e' he' (hpar.trans hep.symm)

/-- The elements of the free set belong to registered resources, and the identifier of a new one is
not among them. -/
theorem not_merges_register (h : s.WellFormed) (a : VMAccelDesc) : ¬ s.Merges (.register a) := by
  rintro ⟨q, hq, e, he, hpar⟩
  rw [freesObj] at hq
  split at hq
  · rename_i id ids hids
    cases hq
    have hact := h.pool_parent e he
    rcases allocId_ok hids with ⟨-, heq⟩ | ⟨hfree, k, -, hff, heq⟩
    · cases heq
    · cases heq
      have hbit := (hpar ▸ hact).2
      rw [show (VMAccelObject.of (BitVec.ofNat 32 k) a).parentId = BitVec.ofNat 32 k from rfl,
        toNat_ofNat_of_lt_size (hff.lt_size h.registeredIds hfree), hff.1] at hbit
      cases hbit
  · cases hq

theorem not_merges_unregister (id : VMAccelId) : ¬ s.Merges (.unregister id) := by
  rintro ⟨q, hq, -⟩
  cases hq

theorem merges_free {id : VMAccelId} : s.Merges (.free id) ↔
    ∃ e ∈ M.bag s.freeSet, e.parentId = (s.objectAt id.toNat).parentId := by
  constructor
  · rintro ⟨q, hq, hmerges⟩
    cases hq
    exact hmerges
  · exact fun h => ⟨_, rfl, h⟩

end VMAccelAllocator

end VMAccel
