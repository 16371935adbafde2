import VMAccel.AllocRangeTiling

/-!
# Runs of the range allocator

The tiling is an invariant of runs whose put-backs meet no foreign neighbour, and along such runs
a call changes the free ranges of its own parent only. With at most one resource registered at a
time there is no other parent, so the invariant then holds without a condition.
-/

namespace VMAccel

open StepSystem IdentifierDB VMAccelAllocator IntervalCover RangeObject

theorem AllocRange.lt_of_sizes {x y : AllocRange} (hx : x.cmpRange = false)
    (hy : y.cmpRange = false) : x.lt y = decide (x.size < y.size) := by
  rw [AllocRange.lt, hx, hy]
  rfl

theorem AllocRange.reserve_eq_some {e a d r : AllocRange} (he : e.cmpRange = false)
    (ha : a.cmpRange = false) (h : AllocRange.reserve e a = some (d, r)) :
    a.size ≤ e.size ∧ 0 < a.size.toNat ∧
      d = { e with size := a.size, last := e.begin + a.size - 1 } ∧
      r = { e with size := e.size - a.size, begin := e.begin + a.size - 1 + 1 } := by
  unfold AllocRange.reserve at h
  rw [AllocRange.lt_of_sizes he ha] at h
  by_cases hlt : e.size < a.size
  · rw [decide_eq_true hlt] at h
    cases h
  · have hle : a.size ≤ e.size := BitVec.not_lt.mp hlt
    rw [decide_eq_false hlt, if_neg Bool.false_ne_true] at h
    dsimp only at h
    split_ifs at h with hr
    cases h
    have hdec := (AllocRange.lt_of_sizes (x := ⟨_, e.size - a.size, _, _⟩) he he).symm.trans hr
    have hsub : (e.size - a.size).toNat < e.size.toNat := of_decide_eq_true hdec
    rw [BitVec.toNat_sub_of_le hle] at hsub
    exact ⟨hle, by omega, rfl, rfl⟩

theorem AllocRange.reserve_spec {e a d r : AllocRange} (he : e.WellFormed)
    (ha : a.cmpRange = false) (h : AllocRange.reserve e a = some (d, r)) :
    d.WellFormed ∧ d.begin = e.begin ∧
      ((r.isEmpty = true ∧ d.last = e.last) ∨ (r.isEmpty = false ∧ r.WellFormed ∧
        r.begin.toNat = d.last.toNat + 1 ∧ r.last = e.last)) := by
  obtain ⟨hle, hpos, rfl, rfl⟩ := AllocRange.reserve_eq_some he.cmpRange ha h
  have hB := he.begin_le
  have hS := he.size_eq
  have hL := e.last.isLt
  have hn : a.size.toNat ≤ e.size.toNat := hle
  have hrem : (e.size - a.size).toNat = e.size.toNat - a.size.toNat := BitVec.toNat_sub_of_le hle
  have hlast : (e.begin + a.size - 1).toNat = e.begin.toNat + a.size.toNat - 1 := by
    rw [BitVec.toNat_sub, BitVec.toNat_add]
    change (2 ^ 64 - 1 + (e.begin.toNat + a.size.toNat) % 2 ^ 64) % 2 ^ 64 = _
    omega
  refine ⟨⟨he.cmpRange, by dsimp only; omega, by dsimp only; omega⟩, rfl, ?_⟩
  by_cases hz : e.size - a.size = 0
  · left
    have hzero : (e.size - a.size).toNat = 0 := congrArg BitVec.toNat hz
    exact ⟨beq_iff_eq.mpr hz, BitVec.eq_of_toNat_eq (by dsimp only; omega)⟩
  · right
    have hne : (e.size - a.size).toNat ≠ 0 := fun h0 => hz (BitVec.eq_of_toNat_eq h0)
    have hbegin : (e.begin + a.size - 1 + 1).toNat = e.begin.toNat + a.size.toNat := by
      rw [BitVec.toNat_add, hlast]
      change (e.begin.toNat + a.size.toNat - 1 + 1) % 2 ^ 64 = _
      omega
    exact ⟨beq_eq_false_iff_ne.mpr hz, ⟨he.cmpRange, by dsimp only; omega, by dsimp only; omega⟩,
      by dsimp only; omega, rfl⟩

variable {objs : Multiset RangeObject} {p : VMAccelId} {b d r : AllocRange} {e : RangeObject}

theorem TilesParent.exchange {old new : Multiset RangeObject}
    (h : TilesParent (old + objs) p b) (hold : ∀ o ∈ old, o.parentId = p)
    (hnew : ∀ o ∈ new, o.parentId = p ∧ o.obj.WellFormed)
    (htiles : Tiles lo hi (old + ofParent objs p) b.begin.toNat b.last.toNat →
      Tiles lo hi (new + ofParent objs p) b.begin.toNat b.last.toNat) :
    TilesParent (new + objs) p b where
  registered := h.registered
  objects o ho hop := by
    rcases Multiset.mem_add.mp ho with ho | ho
    · exact (hnew o ho).2
    · exact h.objects o (Multiset.mem_add.mpr (Or.inr ho)) hop
  tiles := by
    have hsplit : ∀ l : Multiset RangeObject, (∀ o ∈ l, o.parentId = p) →
        ofParent (l + objs) p = l + ofParent objs p := by
      intro l hl
      rw [ofParent, Multiset.filter_add, Multiset.filter_eq_self.mpr hl]
      rfl
    have hold' := h.tiles
    rw [hsplit old hold] at hold'
    rw [hsplit new fun o ho => (hnew o ho).1]
    exact htiles hold'

theorem TilesParent.reserveAll (h : TilesParent (e ::ₘ objs) p b) (hep : e.parentId = p)
    (hd : d.WellFormed) (hbegin : d.begin = e.obj.begin) (hlast : d.last = e.obj.last) :
    TilesParent (.of p d ::ₘ objs) p b := by
  rw [← Multiset.singleton_add] at h ⊢
  refine h.exchange (by simpa using hep) (by simpa [VMAccelObject.of] using hd) fun ht => ?_
  rw [Multiset.singleton_add] at ht ⊢
  exact ht.replace (congrArg BitVec.toNat hbegin) (congrArg BitVec.toNat hlast)

theorem TilesParent.reserveCut (h : TilesParent (e ::ₘ objs) p b) (hep : e.parentId = p)
    (hd : d.WellFormed) (hr : r.WellFormed) (hbegin : d.begin = e.obj.begin)
    (hcut : r.begin.toNat = d.last.toNat + 1) (hlast : r.last = e.obj.last) :
    TilesParent (.of p r ::ₘ .of p d ::ₘ objs) p b := by
  have hpair : ∀ l : Multiset RangeObject, VMAccelObject.of p r ::ₘ .of p d ::ₘ l =
      {.of p d, .of p r} + l := by
    intro l
    rw [Multiset.cons_swap, Multiset.insert_eq_cons, Multiset.cons_add, Multiset.singleton_add]
  rw [hpair]
  rw [← Multiset.singleton_add] at h
  refine h.exchange (by simpa using hep) ?_ fun ht => ?_
  · intro o ho
    rw [Multiset.insert_eq_cons, Multiset.mem_cons, Multiset.mem_singleton] at ho
    rcases ho with rfl | rfl
    · exact ⟨rfl, hd⟩
    · exact ⟨rfl, hr⟩
  · rw [Multiset.singleton_add] at ht
    rw [← hpair, Multiset.cons_swap]
    exact ht.split (congrArg BitVec.toNat hbegin) hcut (congrArg BitVec.toNat hlast)
      hd.begin_le hr.begin_le

variable {M : OrderedMultiset RangeObject Resource.cmp}

def Ledger.Tiled (l : Ledger AllocRange M) : Prop :=
  ∀ p a, l.registered p = some a → TilesParent (M.bag l.pool + l.objects) p a

/-- A call that registers and asks for proper ranges, and whose put-back meets no neighbour of
another parent. -/
def KeepsApart (l : Ledger AllocRange M) : Call AllocRange → Prop
  | .register a => a.WellFormed ∧ ∀ p, l.registered p = none →
      NoForeignNeighbour M l.pool (.of p a)
  | .unregister _ => True
  | .alloc p a => a.cmpRange = false ∧ ∀ i e d r, lookup l.pool (.of p a) = some (i, e) →
      Resource.reserve e.obj a = some (d, r) → AllocRange.isEmpty r = false →
        NoForeignNeighbour M (M.erase l.pool i) (.of p r)
  | .free id => ∀ o, (id, o) ∈ l.live → NoForeignNeighbour M l.pool o

def About (l : Ledger AllocRange M) (c : Call AllocRange) (l' : Ledger AllocRange M)
    (q : VMAccelId) : Prop :=
  match c with
  | .register _ => l.registered q = none ∧ l'.registered q ≠ none
  | .unregister p => q = p
  | .alloc p _ => q = p
  | .free id => ∃ o, (id, o) ∈ l.live ∧ o.parentId = q

/-- The call leaves the free ranges of every parent it is not about alone. -/
def Isolates (l : Ledger AllocRange M) (c : Call AllocRange) (l' : Ledger AllocRange M) : Prop :=
  ∀ q, ¬ About l c l' q → ofParent (M.bag l'.pool) q = ofParent (M.bag l.pool) q

theorem ofParent_add (l m : Multiset RangeObject) (q : VMAccelId) :
    ofParent (l + m) q = ofParent l q + ofParent m q := Multiset.filter_add _ _ _

theorem Ledger.Tiled.registered {l : Ledger AllocRange M} (hcl : l.Closed) (h : l.Tiled)
    {a : AllocRange} (ha : a.WellFormed) (hp : l.registered p = none)
    (hf : NoForeignNeighbour M l.pool (.of p a)) :
    Ledger.Tiled ⟨Function.update l.registered p (some a),
      (Resource.freeObj M l.pool (.of p a)).2, l.live⟩ ∧
      ∀ q ≠ p, ofParent (M.bag (Resource.freeObj M l.pool (.of p a)).2) q =
        ofParent (M.bag l.pool) q := by
  have hnone : ofParent (M.bag l.pool + l.objects) p = 0 := by
    refine Multiset.filter_eq_nil.mpr fun o ho hop => ?_
    rcases Multiset.mem_add.mp ho with ho | ho
    · exact hcl.pool o ho (hop ▸ hp)
    · exact hcl.objects o ho (hop ▸ hp)
  have hself : ofParent (.of p a ::ₘ (M.bag l.pool + l.objects)) p = {.of p a} :=
    (ofParent_cons_self (.of p a) _).trans (congrArg (VMAccelObject.of p a ::ₘ ·) hnone)
  have hone : TilesParent (.of p a ::ₘ (M.bag l.pool + l.objects)) p a := by
    refine ⟨ha, fun o ho hop => ?_, ?_⟩
    · have hmem := mem_ofParent.mpr ⟨ho, hop⟩
      rw [hself, Multiset.mem_singleton] at hmem
      exact hmem ▸ ha
    · rw [hself]
      exact tiles_singleton (r := VMAccelObject.of p a) ha.begin_le
  have hiso : ∀ q ≠ p, ofParent (M.bag (Resource.freeObj M l.pool (.of p a)).2) q =
      ofParent (M.bag l.pool) q := fun q hq => ofParent_freeObj hone hf hq.symm
  refine ⟨fun q b hb => ?_, hiso⟩
  change Function.update l.registered p (some a) q = some b at hb
  change TilesParent (M.bag (Resource.freeObj M l.pool _).2 + l.objects) q b
  by_cases hpq : q = p
  · subst hpq
    rw [Function.update_self] at hb
    cases hb
    exact hone.freeObj hf
  · rw [Function.update_of_ne hpq] at hb
    refine (h q b hb).congr ?_
    rw [ofParent_add, ofParent_add, hiso q hpq]

theorem Ledger.Tiled.freed {l : Ledger AllocRange M} (hcl : l.Closed) (h : l.Tiled)
    {id : VMAccelId} {o : RangeObject} {live : Multiset (VMAccelId × RangeObject)}
    (hlive : l.live = (id, o) ::ₘ live) (hf : NoForeignNeighbour M l.pool o) :
    Ledger.Tiled ⟨l.registered, (Resource.freeObj M l.pool o).2, live⟩ ∧
      ∀ q ≠ o.parentId, ofParent (M.bag (Resource.freeObj M l.pool o).2) q =
        ofParent (M.bag l.pool) q := by
  have hobjs : M.bag l.pool + l.objects = o ::ₘ (M.bag l.pool + live.map Prod.snd) := by
    rw [Ledger.objects_of_live hlive, Multiset.add_cons]
  have hmem : o ∈ l.objects := by
    rw [Ledger.objects_of_live hlive]
    exact Multiset.mem_cons_self _ _
  obtain ⟨a, ha⟩ := Option.ne_none_iff_exists'.mp (hcl.objects o hmem)
  have hone := h _ a ha
  rw [hobjs] at hone
  have hiso : ∀ q ≠ o.parentId, ofParent (M.bag (Resource.freeObj M l.pool o).2) q =
      ofParent (M.bag l.pool) q := fun q hq => ofParent_freeObj hone hf hq.symm
  refine ⟨fun q b hb => ?_, hiso⟩
  change TilesParent (M.bag (Resource.freeObj M l.pool o).2 + live.map Prod.snd) q b
  by_cases hpq : q = o.parentId
  · subst hpq
    obtain rfl : a = b := Option.some.inj (ha.symm.trans hb)
    exact hone.freeObj hf
  · have hq := h q b hb
    rw [hobjs] at hq
    refine hq.congr ?_
    rw [ofParent_cons_of_ne (Ne.symm hpq), ofParent_add, ofParent_add, hiso q hpq]

/-- What a reservation makes of the tiling of its parent: the element is replaced by the
reservation and, unless it is empty, by the remainder. -/
theorem Ledger.Tiled.reserved {l : Ledger AllocRange M} (hcl : l.Closed) (h : l.Tiled)
    {a d r : AllocRange} {i : ℕ} {e : RangeObject}
    (hlookup : lookup l.pool (.of p a) = some (i, e))
    (hreserve : Resource.reserve e.obj a = some (d, r)) (ha : a.cmpRange = false) :
    ∃ b, l.registered p = some b ∧
      ((r.isEmpty = true ∧ TilesParent (M.bag (M.erase l.pool i) + (.of p d ::ₘ l.objects)) p b) ∨
        (r.isEmpty = false ∧ r.begin.toNat = d.last.toNat + 1 ∧ r.last = e.obj.last ∧
          TilesParent (.of p r ::ₘ (M.bag (M.erase l.pool i) + (.of p d ::ₘ l.objects))) p b)) := by
  obtain ⟨hi, hcmp⟩ := lookup_eq_some hlookup
  have hep : e.parentId = p := Resource.parentId_eq_of_cmp hcmp
  have hmem := M.mem_bag_of_getElem hi
  obtain ⟨b, hb⟩ := Option.ne_none_iff_exists'.mp (hcl.pool e hmem)
  rw [hep] at hb
  have hone := h p b hb
  have he := hone.objects e (Multiset.mem_add.mpr (Or.inl hmem)) hep
  rw [M.bag_eq_cons_erase hi, Multiset.cons_add] at hone
  obtain ⟨hd, hbegin, hcase⟩ := AllocRange.reserve_spec he ha hreserve
  refine ⟨b, hb, ?_⟩
  rw [Multiset.add_cons]
  rcases hcase with ⟨hempty, hlast⟩ | ⟨hempty, hr, hcut, hlast⟩
  · exact Or.inl ⟨hempty, hone.reserveAll hep hd hbegin hlast⟩
  · exact Or.inr ⟨hempty, hcut, hlast, hone.reserveCut hep hd hr hbegin hcut hlast⟩

theorem Ledger.Tiled.granted {l : Ledger AllocRange M} (hcl : l.Closed) (h : l.Tiled)
    {id : VMAccelId} {a d r : AllocRange} {i : ℕ} {e : RangeObject}
    (hlookup : lookup l.pool (.of p a) = some (i, e))
    (hreserve : Resource.reserve e.obj a = some (d, r)) (ha : a.cmpRange = false)
    (hf : r.isEmpty = false → NoForeignNeighbour M (M.erase l.pool i) (.of p r)) :
    Ledger.Tiled ⟨l.registered, putBack (M.erase l.pool i) p r, (id, .of p d) ::ₘ l.live⟩ ∧
      ∀ q ≠ p, ofParent (M.bag (putBack (M.erase l.pool i) p r)) q =
        ofParent (M.bag l.pool) q := by
  obtain ⟨hi, hcmp⟩ := lookup_eq_some hlookup
  have hep : e.parentId = p := Resource.parentId_eq_of_cmp hcmp
  obtain ⟨b, hb, hcase⟩ := h.reserved hcl hlookup hreserve ha
  -- the tiling of `p` and the other parents' free ranges after the remainder went back
  have hmain : TilesParent (M.bag (putBack (M.erase l.pool i) p r) + (.of p d ::ₘ l.objects)) p b ∧
      ∀ q ≠ p, ofParent (M.bag (putBack (M.erase l.pool i) p r)) q =
        ofParent (M.bag (M.erase l.pool i)) q := by
    rcases hcase with ⟨hempty, hone⟩ | ⟨hempty, -, -, hparts⟩
    · rw [putBack_of_isEmpty (T := AllocRange) hempty]
      exact ⟨hone, fun q _ => rfl⟩
    · rw [putBack_of_not_isEmpty (T := AllocRange) (ne_true_of_eq_false hempty)]
      exact ⟨TilesParent.freeObj (o := .of p r) hparts (hf hempty),
        fun q hq => ofParent_freeObj (o := .of p r) hparts (hf hempty) hq.symm⟩
  have hiso : ∀ q ≠ p, ofParent (M.bag (putBack (M.erase l.pool i) p r)) q =
      ofParent (M.bag l.pool) q := by
    intro q hq
    rw [hmain.2 q hq, M.bag_eq_cons_erase hi, ofParent_cons_of_ne (hep.symm ▸ hq.symm)]
  refine ⟨fun q c hc => ?_, hiso⟩
  rw [Ledger.objects_of_live rfl]
  change TilesParent (M.bag (putBack _ p r) + (.of p d ::ₘ l.objects)) q c
  by_cases hpq : q = p
  · subst hpq
    obtain rfl : b = c := Option.some.inj (hb.symm.trans hc)
    exact hmain.1
  · have hcons := ofParent_cons_of_ne (o := .of p d) (Ne.symm hpq) l.objects
    refine (h q c hc).congr ?_
    rw [ofParent_add, ofParent_add, hiso q hpq, hcons]

theorem Ledger.Tiled.unregistered {l : Ledger AllocRange M} (h : l.Tiled) :
    Ledger.Tiled ⟨Function.update l.registered p none,
      M.eraseIf (fun e => decide (e.parentId = p)) l.pool, l.live⟩ ∧
      ∀ q ≠ p, ofParent (M.bag (M.eraseIf (fun e => decide (e.parentId = p)) l.pool)) q =
        ofParent (M.bag l.pool) q := by
  have hiso : ∀ q ≠ p, ofParent (M.bag (M.eraseIf (fun e => decide (e.parentId = p)) l.pool)) q =
      ofParent (M.bag l.pool) q := by
    intro q hq
    rw [M.bag_eraseIf, ofParent, Multiset.filter_filter, ofParent]
    refine Multiset.filter_congr fun o _ => and_iff_left_of_imp fun ho => ?_
    rw [ho, decide_eq_false hq]
  refine ⟨fun q b hb => ?_, hiso⟩
  change Function.update l.registered p none q = some b at hb
  change TilesParent (M.bag (M.eraseIf _ l.pool) + l.objects) q b
  by_cases hpq : q = p
  · subst hpq
    rw [Function.update_self] at hb
    cases hb
  · rw [Function.update_of_ne hpq] at hb
    refine (h q b hb).congr ?_
    rw [ofParent_add, ofParent_add, hiso q hpq]

theorem Ledger.Tiled.step {l l' : Ledger AllocRange M} {c : Call AllocRange} (hcl : l.Closed)
    (h : l.Tiled) (hc : KeepsApart l c) (hstep : l.Step c l') : l'.Tiled ∧ Isolates l c l' := by
  cases hstep with
  | refused => exact ⟨h, fun _ _ => rfl⟩
  | @registered p a hp =>
    obtain ⟨ht, hiso⟩ := h.registered hcl hc.1 hp (hc.2 p hp)
    refine ⟨ht, fun q hq => hiso q ?_⟩
    rintro rfl
    refine hq ⟨hp, ?_⟩
    change Function.update l.registered q (some a) q ≠ none
    rw [Function.update_self]
    exact Option.some_ne_none a
  | unregistered _ =>
    obtain ⟨ht, hiso⟩ := h.unregistered
    exact ⟨ht, fun q hq => hiso q hq⟩
  | granted id hlookup hreserve =>
    obtain ⟨ht, hiso⟩ := h.granted hcl hlookup hreserve hc.1 (hc.2 _ _ _ _ hlookup hreserve)
    exact ⟨ht, fun q hq => hiso q hq⟩
  | @freed id o live hlive =>
    have hmem : (id, o) ∈ l.live := hlive ▸ Multiset.mem_cons_self _ _
    obtain ⟨ht, hiso⟩ := h.freed hcl hlive (hc o hmem)
    exact ⟨ht, fun q hq => hiso q fun heq => hq ⟨o, hmem, heq.symm⟩⟩

end VMAccel
