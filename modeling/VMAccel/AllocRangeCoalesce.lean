import VMAccel.AllocRangeFit

/-!
# When freed ranges coalesce

The two searches of `FreeObj` look for an element that does not lie before the freed range, so a
free range that ends just before it is never joined with it, and one that begins just behind it is
joined only if a search happens to return it. `Rejoins` says of a range that goes back that the
first case does not arise and the second one is found. The free ranges stay apart exactly as long
as every `Free` meets it; once nothing is live, free ranges that are apart are one range, the
registered one.
-/

namespace VMAccel

open StepSystem IdentifierDB VMAccelAllocator IntervalCover RangeObject

namespace AllocRange

variable {M : OrderedMultiset RangeObject cmp}

def BeginsBehind (M : OrderedMultiset RangeObject cmp) (pool : M.Carrier) (o : RangeObject)
    (i : ℕ) : Prop :=
  ∃ e ∈ (M.toList pool)[i]?, e.lo = o.hi + 1

/-- One of the two searches of `FreeObj` returns the right neighbour of `o`. -/
def FindsBehind (M : OrderedMultiset RangeObject cmp) (pool : M.Carrier) (o : RangeObject) : Prop :=
  (∃ i ∈ M.lowerBound pool (key o), BeginsBehind M pool o i) ∨
    ∃ i ∈ M.upperBound pool (key o), BeginsBehind M pool o i

def Rejoins (M : OrderedMultiset RangeObject cmp) (pool : M.Carrier) (o : RangeObject) : Prop :=
  (∀ e ∈ M.toList pool, o.lo ≠ e.hi + 1) ∧
    ((∃ e ∈ M.toList pool, e.lo = o.hi + 1) → FindsBehind M pool o)

theorem coalesceAt_of_beginsBehind {pool : M.Carrier} {o : RangeObject} {i : ℕ}
    (h : BeginsBehind M pool o i) : (coalesceAt M pool o i).isSome := by
  obtain ⟨e, he, hlo⟩ := h
  have hnext : e.obj.begin = o.obj.last + 1 := by
    have hlt := e.obj.begin.isLt
    refine BitVec.eq_of_toNat_eq ?_
    rw [BitVec.toNat_add]
    change e.lo = (o.hi + 1) % 2 ^ 64
    rw [← hlo]
    exact (Nat.mod_eq_of_lt hlt).symm
  rw [coalesceAt, Option.mem_def.mp he]
  dsimp only
  rw [if_pos hnext]
  rfl

theorem freeObj_of_findsBehind {pool : M.Carrier} {o : RangeObject} (h : FindsBehind M pool o) :
    ∃ pool', freeObj M pool o = (true, pool') ∧ ∃ e i, Merged pool pool' o e i ∧
      (M.lowerBound pool (key o) = some i ∨ M.upperBound pool (key o) = some i) := by
  unfold freeObj
  cases hlow : (M.lowerBound pool (key o)).bind (coalesceAt M pool o) with
  | some pool' =>
    obtain ⟨i, hi, hc⟩ := Option.bind_eq_some_iff.mp hlow
    obtain ⟨e, he⟩ := coalesceAt_eq_some hc
    exact ⟨pool', rfl, e, i, he, Or.inl hi⟩
  | none =>
    rcases h with ⟨i, hi, hbehind⟩ | ⟨i, hi, hbehind⟩
    · obtain ⟨pool', hc⟩ := Option.isSome_iff_exists.mp (coalesceAt_of_beginsBehind hbehind)
      rw [Option.mem_def.mp hi, Option.bind_some, hc] at hlow
      cases hlow
    · obtain ⟨pool', hc⟩ := Option.isSome_iff_exists.mp (coalesceAt_of_beginsBehind hbehind)
      obtain ⟨e, he⟩ := coalesceAt_eq_some hc
      refine ⟨pool', ?_, e, i, he, Or.inr hi⟩
      rw [Option.mem_def.mp hi, Option.bind_some, hc]

theorem eq_of_ends {x y : AllocRange} (hx : x.WellFormed) (hy : y.WellFormed)
    (hbegin : x.begin = y.begin) (hlast : x.last = y.last) : x = y := by
  have hsize : x.size = y.size := BitVec.eq_of_toNat_eq (by
    rw [hx.size_eq, hy.size_eq, hbegin, hlast])
  have hmark : x.cmpRange = y.cmpRange := hx.cmpRange.trans hy.cmpRange.symm
  cases x
  cases y
  cases hbegin
  cases hlast
  cases hsize
  cases hmark
  rfl

end AllocRange

open AllocRange

section PutBack

variable {M : OrderedMultiset RangeObject Resource.cmp} {pool pool' : M.Carrier}
  {X : Multiset RangeObject} {o e : RangeObject} {a : AllocRange} {i : ℕ}

theorem TilesParent.disjoint {objs : Multiset RangeObject}
    (h : TilesParent (o ::ₘ objs) o.parentId a) {x : RangeObject} (hx : x ∈ objs)
    (hpar : x.parentId = o.parentId) : o.hi < x.lo ∨ x.hi < o.lo := by
  have htiles := h.tiles
  rw [ofParent_cons_self] at htiles
  exact htiles.disjoint (mem_ofParent.mpr ⟨hx, hpar⟩)

theorem noForeignNeighbour_of_parents (hall : ∀ x ∈ M.bag pool, x.parentId = o.parentId) :
    NoForeignNeighbour M pool o :=
  fun _ x _ hx hne => absurd (hall x (M.mem_bag_of_getElem hx)) hne

/-- A join with the right neighbour `e` leaves the ranges apart exactly if there is no left
neighbour. -/
theorem apart_join_iff {rest : Multiset RangeObject} {m : RangeObject} (ho : o.lo ≤ o.hi)
    (he : e.lo ≤ e.hi) (hcut : e.lo = o.hi + 1) (hlo : m.lo = o.lo) (hhi : m.hi = e.hi)
    (hapart : Apart lo hi (e ::ₘ rest)) :
    Apart lo hi (m ::ₘ rest) ↔ ∀ x ∈ e ::ₘ rest, o.lo ≠ x.hi + 1 := by
  constructor
  · intro h x hx
    rcases Multiset.mem_cons.mp hx with rfl | hx
    · omega
    · rw [← hlo]
      exact h x (Multiset.mem_cons_of_mem hx) m (Multiset.mem_cons_self m rest)
  · intro h x hx y hy
    rcases Multiset.mem_cons.mp hx with rfl | hxr <;> rcases Multiset.mem_cons.mp hy with rfl | hyr
    · omega
    · rw [hhi]
      exact hapart e (Multiset.mem_cons_self e rest) y (Multiset.mem_cons_of_mem hyr)
    · rw [hlo]
      exact h x (Multiset.mem_cons_of_mem hxr)
    · exact hapart x (Multiset.mem_cons_of_mem hxr) y (Multiset.mem_cons_of_mem hyr)

theorem apart_insert_iff {objs : Multiset RangeObject} (ho : o.lo ≤ o.hi)
    (hapart : Apart lo hi objs) :
    Apart lo hi (o ::ₘ objs) ↔ ∀ x ∈ objs, o.lo ≠ x.hi + 1 ∧ x.lo ≠ o.hi + 1 := by
  constructor
  · intro h x hx
    have hself := Multiset.mem_cons_self o objs
    exact ⟨h x (Multiset.mem_cons_of_mem hx) o hself, h o hself x (Multiset.mem_cons_of_mem hx)⟩
  · intro h x hx y hy
    rcases Multiset.mem_cons.mp hx with rfl | hxr <;> rcases Multiset.mem_cons.mp hy with rfl | hyr
    · omega
    · exact (h y hyr).2
    · exact (h x hxr).1
    · exact hapart x hxr y hyr

theorem apart_freeObj_iff (h : TilesParent (o ::ₘ (M.bag pool + X)) o.parentId a)
    (hall : ∀ x ∈ M.bag pool, x.parentId = o.parentId) (hapart : Apart lo hi (M.bag pool)) :
    Apart lo hi (M.bag (Resource.freeObj M pool o).2) ↔ Rejoins M pool o := by
  have ho : o.lo ≤ o.hi := (h.objects o (Multiset.mem_cons_self o _) rfl).begin_le
  have hforeign := noForeignNeighbour_of_parents hall
  have hjoin : ∀ {pool'} {e : RangeObject} {i}, Merged pool pool' o e i →
      (M.lowerBound pool (key o) = some i ∨ M.upperBound pool (key o) = some i) →
      FindsBehind M pool o ∧
        (Apart lo hi (M.bag pool') ↔ ∀ x ∈ M.toList pool, o.lo ≠ x.hi + 1) := by
    intro pool' e i hm hfound
    obtain ⟨hpar, hcut, habs⟩ := h.absorbs hm hforeign hfound
    obtain ⟨hpool, hpool'⟩ := habs.bag_eq
    have he : e.lo ≤ e.hi := by
      refine (h.objects e (Multiset.mem_cons_of_mem (Multiset.mem_add.mpr (Or.inl ?_)))
        hpar).begin_le
      rw [hpool]
      exact Multiset.mem_cons_self e _
    have hbehind : BeginsBehind M pool o i := ⟨e, habs.1, hcut⟩
    refine ⟨hfound.imp (fun hi => ⟨i, hi, hbehind⟩) fun hi => ⟨i, hi, hbehind⟩, ?_⟩
    rw [hpool']
    refine (apart_join_iff ho he hcut ?_ ?_ (hpool ▸ hapart)).trans ?_
    · rfl
    · rfl
    · rw [← hpool]
      exact forall₂_congr fun x _ => Iff.rfl
  by_cases hfinds : FindsBehind M pool o
  · obtain ⟨pool', heq, e, i, hm, hfound⟩ := freeObj_of_findsBehind hfinds
    rw [show (Resource.freeObj M pool o).2 = pool' from congrArg Prod.snd heq, (hjoin hm hfound).2]
    exact ⟨fun hleft => ⟨hleft, fun _ => hfinds⟩, And.left⟩
  · rcases freeObj_cases pool o with ⟨pool', -, e, i, hm, hfound⟩ | heq
    · exact absurd (hjoin hm hfound).1 hfinds
    · rw [show (Resource.freeObj M pool o).2 = M.insert pool o from congrArg Prod.snd heq,
        M.bag_insert, apart_insert_iff ho hapart]
      constructor
      · intro h
        refine ⟨fun x hx => (h x (M.mem_bag.mpr hx)).1, ?_⟩
        rintro ⟨x, hx, hlo⟩
        exact absurd hlo (h x (M.mem_bag.mpr hx)).2
      · rintro ⟨hleft, hright⟩ x hx
        exact ⟨hleft x (M.mem_bag.mp hx), fun hlo =>
          hfinds (hright ⟨x, M.mem_bag.mp hx, hlo⟩)⟩

theorem rejoins_remainder {d r : AllocRange} {p : VMAccelId}
    (h : TilesParent (.of p r ::ₘ (M.bag (M.erase pool i) + (.of p d ::ₘ X))) p a)
    (hget : (M.toList pool)[i]? = some e) (hall : ∀ x ∈ M.bag (M.erase pool i), x.parentId = p)
    (hcut : r.begin.toNat = d.last.toNat + 1) (hlast : r.last = e.obj.last)
    (hapart : Apart lo hi (M.bag pool)) : Rejoins M (M.erase pool i) (.of p r) := by
  rw [M.bag_eq_cons_erase hget] at hapart
  refine ⟨fun x hx hlo => ?_, ?_⟩
  · -- Such a range would end where the reservation ends.
    have hx' := M.mem_bag.mpr hx
    rw [Multiset.add_cons, Multiset.cons_swap] at h
    have hmem : x ∈ .of p r ::ₘ (M.bag (M.erase pool i) + X) :=
      Multiset.mem_cons_of_mem (Multiset.mem_add.mpr (Or.inl hx'))
    have hdisj := TilesParent.disjoint (o := .of p d) h hmem (hall x hx')
    have hxle : x.lo ≤ x.hi := (h.objects x (Multiset.mem_cons_of_mem hmem) (hall x hx')).begin_le
    have hdle : d.begin.toNat ≤ d.last.toNat :=
      (h.objects (.of p d) (Multiset.mem_cons_self _ _) rfl).begin_le
    change r.begin.toNat = x.hi + 1 at hlo
    change d.last.toNat < x.lo ∨ x.hi < d.begin.toNat at hdisj
    omega
  · rintro ⟨x, hx, hlo⟩
    refine absurd ?_ (hapart e (Multiset.mem_cons_self e _) x
      (Multiset.mem_cons_of_mem (M.mem_bag.mpr hx)))
    rw [hlo]
    change r.last.toNat + 1 = e.obj.last.toNat + 1
    rw [hlast]

end PutBack

variable {M : OrderedMultiset RangeObject Resource.cmp} {s : VMAccelAllocator AllocRange M}

/-- No two free ranges touch. -/
def Coalesced (s : VMAccelAllocator AllocRange M) : Prop := Apart lo hi (M.bag s.freeSet)

def RejoinsFreed (s : VMAccelAllocator AllocRange M) : Call AllocRange → Prop
  | .free id => Rejoins M s.freeSet (s.objectAt id.toNat)
  | _ => True

structure Ledger.ApartTiling (l : Ledger AllocRange M) : Prop where
  tiled : l.Tiled
  single : l.Single
  apart : Apart lo hi (M.bag l.pool)

theorem Ledger.ApartTiling.parents {l : Ledger AllocRange M} (h : l.ApartTiling) (hcl : l.Closed)
    {p : VMAccelId} (hp : l.registered p ≠ none) : ∀ x ∈ M.bag l.pool, x.parentId = p :=
  fun x hx => h.single _ _ (hcl.pool x hx) hp

theorem Ledger.ApartTiling.apart_step {l' : Ledger AllocRange M} {c : Call AllocRange}
    (hwf : s.WellFormed) (h : s.ledger.ApartTiling) (hc : OneAtATime s c)
    (hfree : ∀ id, c ≠ .free id) (hstep : s.ledger.Step c l') : Apart lo hi (M.bag l'.pool) := by
  have hcl := hwf.closed
  cases hstep with
  | refused => exact h.apart
  | @registered p a hp =>
    have hnone : ∀ x, x ∉ M.bag s.ledger.pool := fun x hx =>
      hcl.pool x hx (registered_eq_none_of_activeIds hc.1 _)
    change Apart lo hi (M.bag (AllocRange.freeObj M s.ledger.pool (.of p a)).2)
    rcases freeObj_cases s.ledger.pool (.of p a) with ⟨pool', -, e, i, hm, -⟩ | heq
    · exact absurd (M.mem_bag_of_getElem (hm.elim (fun h => h.2.1) fun h => h.2.1)) (hnone e)
    · rw [heq, M.bag_insert, apart_insert_iff (o := .of p a) hc.2.begin_le h.apart]
      exact fun x hx => absurd hx (hnone x)
  | unregistered hlive =>
    intro x hx y hy
    rw [M.bag_eraseIf] at hx hy
    exact h.apart x (Multiset.mem_of_mem_filter hx) y (Multiset.mem_of_mem_filter hy)
  | @granted id p a d r i e hlookup hreserve =>
    obtain ⟨hget, -⟩ := lookup_eq_some hlookup
    obtain ⟨b, hb, hcase⟩ := h.tiled.reserved hcl hlookup hreserve hc
    have hpool := M.bag_eq_cons_erase hget
    have hrest : Apart lo hi (M.bag (M.erase s.ledger.pool i)) := fun x hx y hy =>
      h.apart x (hpool ▸ Multiset.mem_cons_of_mem hx) y (hpool ▸ Multiset.mem_cons_of_mem hy)
    have hall : ∀ x ∈ M.bag (M.erase s.ledger.pool i), x.parentId = p := fun x hx =>
      h.parents hcl (by simp [hb]) x (hpool ▸ Multiset.mem_cons_of_mem hx)
    change Apart lo hi (M.bag (putBack _ p r))
    rcases hcase with ⟨hempty, -⟩ | ⟨hempty, hcut, hlast, hparts⟩
    · rwa [putBack_of_isEmpty (T := AllocRange) hempty]
    · rw [putBack_of_not_isEmpty (T := AllocRange) (ne_true_of_eq_false hempty),
        apart_freeObj_iff (o := .of p r) hparts hall hrest]
      exact rejoins_remainder hparts hget hall hcut hlast h.apart
  | freed hlive => exact absurd rfl (hfree _)

/-- `Free` keeps the free ranges apart exactly if what it puts back rejoins them. -/
theorem Ledger.ApartTiling.reclaim_iff (hwf : s.WellFormed) (h : s.ledger.ApartTiling)
    {id : VMAccelId} (hact : s.externalIds.Active id) :
    Coalesced (s.reclaim id.toNat (s.objectAt id.toNat)) ↔ RejoinsFreed s (.free id) := by
  have hcl := hwf.closed
  have hlive := live_reclaim hact.1 hact.2 (s.objectAt id.toNat)
  have hmem : s.objectAt id.toNat ∈ s.ledger.objects := by
    change _ ∈ s.live
    rw [hlive]
    exact Multiset.mem_cons_self _ _
  have hreg := hcl.objects _ hmem
  obtain ⟨a, ha⟩ := Option.ne_none_iff_exists'.mp hreg
  have hone := h.tiled _ a ha
  rw [show s.ledger.objects = s.live from rfl, hlive, Multiset.add_cons] at hone
  exact apart_freeObj_iff hone (h.parents hcl hreg) h.apart

theorem Ledger.ApartTiling.step {l' : Ledger AllocRange M} {c : Call AllocRange}
    (hwf : s.WellFormed) (h : s.ledger.ApartTiling) (hc : OneAtATime s c)
    (hstep : s.ledger.Step c l') (hapart : Apart lo hi (M.bag l'.pool)) : l'.ApartTiling where
  tiled := (h.tiled.step hwf.closed (keepsApart_of_oneAtATime hwf h.single hc) hstep).1
  single := h.single.step (oneRegistered_of_oneAtATime hc) hstep
  apart := hapart

theorem Ledger.ApartTiling.apply_iff {s' : VMAccelAllocator AllocRange M} {c : Call AllocRange}
    (hwf : s.WellFormed) (h : s.ledger.ApartTiling) (hc : OneAtATime s c)
    (hr : s.apply false c = .ok s') : Coalesced s' ↔ RejoinsFreed s c := by
  obtain ⟨-, hstep⟩ := apply_refines hwf hr
  cases c with
  | free id =>
    obtain ⟨r, hcall, rfl⟩ := bind_snd_eq_ok.mp hr
    obtain ⟨hact, rfl⟩ := free_ok hwf hcall
    exact h.reclaim_iff hwf hact
  | register a => exact iff_of_true (h.apart_step hwf hc (by simp) hstep) trivial
  | unregister id => exact iff_of_true (h.apart_step hwf hc (by simp) hstep) trivial
  | alloc p a => exact iff_of_true (h.apart_step hwf hc (by simp) hstep) trivial

theorem apartTiling_new (num : ℕ) : (new M num).ledger.ApartTiling where
  tiled := tiled_new num
  single p _ hp := absurd (ledger_registered_new num p) hp
  apart x hx := by
    rw [show M.bag (new M num).ledger.pool = 0 from M.bag_empty] at hx
    exact absurd hx (Multiset.notMem_zero x)

theorem whole_iff_coalesced (hwf : s.WellFormed) (htiled : s.ledger.Tiled)
    (hsingle : s.ledger.Single) {p : VMAccelId} {a : AllocRange}
    (hreg : s.ledger.registered p = some a) (hlive : s.live = 0) :
    ((M.bag s.freeSet).map fun o => (o.parentId, o.obj)) = {(p, a)} ↔ Coalesced s := by
  have htp := htiled p a hreg
  rw [show s.ledger.objects = 0 from hlive, Multiset.add_zero] at htp
  have hall : ∀ x ∈ M.bag s.freeSet, x.parentId = p := fun x hx =>
    hsingle _ _ (hwf.closed.pool x hx) (by simp [hreg])
  constructor
  · intro hmap x hx y hy
    have hpair : ∀ o ∈ M.bag s.freeSet, o.obj = a := fun o ho => by
      have hmem := Multiset.mem_map_of_mem (fun o => (o.parentId, o.obj)) ho
      rw [hmap, Multiset.mem_singleton] at hmem
      exact congrArg Prod.snd hmem
    have hle := htp.registered.begin_le
    rw [lo, hi, hpair x hx, hpair y hy]
    omega
  · intro hapart
    have htiles := htp.tiles
    change Tiles lo hi (ofParent (M.bag s.freeSet) p) _ _ at htiles
    rw [ofParent, Multiset.filter_eq_self.mpr hall] at htiles
    obtain ⟨o, hbag, hlo, hhi⟩ := htiles.eq_singleton htp.registered.begin_le hapart
    have ho : o ∈ M.bag s.freeSet := hbag ▸ Multiset.mem_singleton_self o
    have hobj : o.obj = a := by
      have hwfo := htp.objects o ho (hall o ho)
      refine AllocRange.eq_of_ends hwfo htp.registered (BitVec.eq_of_toNat_eq hlo)
        (BitVec.eq_of_toNat_eq hhi)
    rw [hbag, Multiset.map_singleton, hall o ho, hobj]

/-- In every run with one range registered at a time, the free ranges stay apart exactly if each
`Free` rejoins what it puts back. -/
theorem always_coalesced_iff {num : ℕ} {cs : List (Call AllocRange)}
    (hone : EachInput (apply false) OneAtATime (new M num) cs)
    (hrun : run (apply false) (new M num) cs = .ok s) :
    Always (apply false) Coalesced (new M num) cs ↔
      EachInput (apply false) RejoinsFreed (new M num) cs := by
  refine always_iff_eachInput (I := fun t => t.WellFormed ∧ t.ledger.ApartTiling)
    (D := fun t c => OneAtATime t c ∧ Returns (t.apply false c)) (fun t h => h.2.apart) ?_ ?_
    ⟨wellFormed_new num, apartTiling_new num⟩ (eachInput_and.mpr ⟨hone, eachInput_returns hrun⟩)
  · rintro t c ⟨hwf, h⟩ ⟨hc, t', ht⟩ hrejoins
    obtain ⟨hwf', hstep⟩ := apply_refines hwf ht
    exact ⟨t', ht, hwf', h.step hwf hc hstep ((h.apply_iff hwf hc ht).mpr hrejoins)⟩
  · rintro t c t' ⟨hwf, h⟩ ⟨hc, -⟩ ht hco
    exact (h.apply_iff hwf hc ht).mp hco

theorem alloc_of_idle {M : SortedMultiset RangeObject Resource.cmp} {num : ℕ}
    {cs : List (Call AllocRange)} {s : VMAccelAllocator AllocRange M.toOrderedMultiset}
    (hrun : run (apply false) (new M.toOrderedMultiset num) cs = .ok s) {p : VMAccelId}
    (hp : s.registeredIds.Active p) (hidle : s.externalIds.activeIds = ∅)
    (hpool : SizeOrdered p s.freeSet) {o : RangeObject} (ho : o ∈ M.bag s.freeSet) {b : AllocRange}
    (hb : b.cmpRange = false) (hpos : 1 ≤ b.size) (hle : b.size ≤ o.obj.size) :
    ∃ r, s.alloc p b = .ok r ∧ r.1.1.status = .success := by
  have hco := coherent_of_run hrun
  obtain ⟨r, hr⟩ := hco.returns_alloc (addressable_of_index (bit_lt_length hp.2)) p b
  have hfit := (hpool.alloc (wellFormed_of_run hrun) hb hpos hr).1
  refine ⟨r, hr, hfit.mpr ⟨⟨p, ?_, fun hact => ?_⟩, o, ho, hle⟩⟩
  · rw [hco.size_eq]
    exact hp.1
  · have hmem : p.toNat ∈ s.externalIds.activeIds := mem_activeIds.mpr hact
    simp [hidle] at hmem

/-- With one well-formed range registered, no two free ranges ever touch exactly if each `Free`
rejoins what it puts back. When all allocations have been freed, the free set is the registered
range exactly if no two free ranges touch, and then a request for the whole size succeeds. -/
theorem freed_ranges_coalesce_iff (M : SortedMultiset RangeObject Resource.cmp) (num : ℕ)
    (cs : List (Call AllocRange)) (s : VMAccelAllocator AllocRange M.toOrderedMultiset)
    (hone : EachInput (apply false) OneAtATime (new M.toOrderedMultiset num) cs)
    (hrun : run (apply false) (new M.toOrderedMultiset num) cs = .ok s) :
    (Always (apply false) Coalesced (new M.toOrderedMultiset num) cs ↔
      EachInput (apply false) RejoinsFreed (new M.toOrderedMultiset num) cs) ∧
    ∀ p a, s.registeredIds.Active p → s.registered[p.toNat]? = some a →
      s.externalIds.activeIds = ∅ →
      (((M.bag s.freeSet).map fun o => (o.parentId, o.obj)) = {(p, a)} ↔ Coalesced s) ∧
      (Coalesced s → ∀ b : AllocRange, b.cmpRange = false → b.size = a.size →
        ∃ r, s.alloc p b = .ok r ∧ r.1.1.status = .success) := by
  refine ⟨always_coalesced_iff hone hrun, fun p a hp ha hidle => ?_⟩
  obtain ⟨hwf, htiled, hsingle⟩ := tiled_of_run hone hrun
  obtain ⟨-, hsorted⟩ := sizeSorted_of_run (eachInput_of_invariant (I := fun _ => True)
    (fun _ _ _ => oneRegistered_of_oneAtATime) (fun _ _ _ _ _ _ => trivial) trivial hone) hrun
  have hreg := ledger_registered_eq_some.mpr ⟨hp, ha⟩
  have hlive : s.live = 0 := by
    rw [live, entries, hidle]
    rfl
  have hwhole := whole_iff_coalesced hwf htiled hsingle hreg hlive
  refine ⟨hwhole, fun hco b hb hsize => ?_⟩
  have hmem : (p, a) ∈ (M.bag s.freeSet).map fun o => (o.parentId, o.obj) := by
    rw [hwhole.mpr hco]
    exact Multiset.mem_singleton_self _
  obtain ⟨o, ho, heq⟩ := Multiset.mem_map.mp hmem
  have hpool := hsorted.pool p (hwf.registered_ne_none hp)
  refine alloc_of_idle hrun hp hidle hpool ho hb ?_ ?_
  · have hwfa := (htiled p a hreg).registered.size_eq
    rw [hsize, BitVec.le_def, hwfa]
    exact Nat.le_add_left 1 _
  · rw [hsize, show o.obj = a from congrArg Prod.snd heq]
    exact BitVec.le_refl _

instance (pool : M.Carrier) (o : RangeObject) (i : ℕ) : Decidable (BeginsBehind M pool o i) :=
  inferInstanceAs (Decidable (∃ _ ∈ _, _))

instance (pool : M.Carrier) (o : RangeObject) : Decidable (Rejoins M pool o) :=
  inferInstanceAs (Decidable (_ ∧ (_ → _ ∨ _)))

instance (s : VMAccelAllocator AllocRange M) : (c : Call AllocRange) → Decidable (RejoinsFreed s c)
  | .free id => inferInstanceAs (Decidable (Rejoins M s.freeSet (s.objectAt id.toNat)))
  | .register _ | .unregister _ | .alloc _ _ => .isTrue trivial

/-- Two allocations, the later one freed first: what is left is the registered range. -/
theorem freed_ranges_coalesce_in_reverse :
    ∃ s, run (apply false) (new RangeSet.toOrderedMultiset 4) [.register (.ofEnds 0 99),
        .alloc 0 (.ofEnds 0 9), .alloc 0 (.ofEnds 0 9), .free 1, .free 0] = .ok s ∧
      Always (apply false) Coalesced (new RangeSet.toOrderedMultiset 4)
        [.register (.ofEnds 0 99), .alloc 0 (.ofEnds 0 9), .alloc 0 (.ofEnds 0 9), .free 1,
          .free 0] ∧
      ((RangeSet.bag s.freeSet).map fun o => (o.parentId, o.obj)) = {(0, .ofEnds 0 99)} ∧
      ∃ r, s.alloc 0 (.ofEnds 0 99) = .ok r ∧ r.1.1.status = .success := by
  have hone : EachInput (apply false) OneAtATime (new RangeSet.toOrderedMultiset 4)
      [.register (.ofEnds 0 99), .alloc 0 (.ofEnds 0 9), .alloc 0 (.ofEnds 0 9), .free 1,
        .free 0] := by decide +kernel
  have hrejoins : EachInput (apply false) RejoinsFreed (new RangeSet.toOrderedMultiset 4)
      [.register (.ofEnds 0 99), .alloc 0 (.ofEnds 0 9), .alloc 0 (.ofEnds 0 9), .free 1,
        .free 0] := by decide +kernel
  have hreach : ∃ s, run (apply false) (new RangeSet.toOrderedMultiset 4)
      [.register (.ofEnds 0 99), .alloc 0 (.ofEnds 0 9), .alloc 0 (.ofEnds 0 9), .free 1,
        .free 0] = .ok s ∧ s.registeredIds.Active 0 ∧
        s.registered[0]? = some (.ofEnds 0 99) ∧ s.externalIds.activeIds = ∅ ∧
        ∀ x ∈ RangeSet.toList s.freeSet, ∀ y ∈ RangeSet.toList s.freeSet, lo y ≠ hi x + 1 := by
    decide +kernel
  obtain ⟨s, hrun, hact, hreg, hidle, hapart⟩ := hreach
  obtain ⟨hiff, hend⟩ := freed_ranges_coalesce_iff RangeSet 4 _ s hone hrun
  obtain ⟨hwhole, halloc⟩ := hend 0 (.ofEnds 0 99) hact hreg hidle
  exact ⟨s, hrun, hiff.mpr hrejoins, hwhole.mpr hapart, halloc hapart (.ofEnds 0 99) rfl rfl⟩

/-- The same allocations, the earlier one freed first: `[0, 9]` lies before what is freed next and
is not looked at. Nothing is live any more, and a request for the whole range is refused. -/
theorem freed_in_order_stays_apart :
    ∃ s, run (apply false) (new RangeSet.toOrderedMultiset 4) [.register (.ofEnds 0 99),
        .alloc 0 (.ofEnds 0 9), .alloc 0 (.ofEnds 0 9), .free 0, .free 1] = .ok s ∧
      s.externalIds.activeIds = ∅ ∧
      RangeSet.toList s.freeSet = [.of 0 (.ofEnds 0 9), .of 0 (.ofEnds 10 99)] ∧
      (s.alloc 0 (.ofEnds 0 99)).map (·.1.1.status) = .ok .resourceUnavailable := by
  decide +kernel

end VMAccel
