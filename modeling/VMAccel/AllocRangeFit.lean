import VMAccel.AllocatorBuilds
import VMAccel.AllocRangeSafety
import VMAccel.FreeSetOrder

/-!
# Best fit of the range allocator

With one range registered at a time all free ranges have the same parent and none of them is marked
for comparison by position, so the comparator is the order of their sizes. The free set is then
sorted by size in every reachable state, although `FreeObj` searches it with a key that compares by
position: whatever such a search returns, the merged range goes back through `insert`. `Alloc`
therefore finds the first, that is the smallest, free range that is large enough.
-/

namespace VMAccel

open StepSystem IdentifierDB VMAccelAllocator RangeObject

def BySize (p : VMAccelId) (o : RangeObject) : Prop := o.parentId = p ∧ o.obj.cmpRange = false

theorem cmp_of_bySize {p : VMAccelId} {x y : RangeObject} (hx : BySize p x) (hy : BySize p y) :
    Resource.cmp x y = decide (x.obj.size < y.obj.size) := by
  change (decide (x.parentId ≠ y.parentId) || x.obj.lt y.obj) = _
  rw [AllocRange.lt_of_sizes hx.2 hy.2, hx.1, hy.1, decide_eq_false (fun h => h rfl),
    Bool.false_or]

instance : IsPreorder AllocRange fun r q => r.size ≤ q.size where
  refl r := BitVec.le_refl r.size
  trans _ _ _ := BitVec.le_trans

instance : Std.Total fun r q : AllocRange => r.size ≤ q.size where
  total r q := BitVec.le_total r.size q.size

theorem AllocRange.comparesBy {S : Set RangeObject} (h : ∀ o ∈ S, o.obj.cmpRange = false) :
    ComparesBy cmp (fun r q => r.size ≤ q.size) S := by
  intro a ha b hb
  refine ne_or_iff_not_withinParent ?_
  rw [AllocRange.lt_of_sizes (h a ha) (h b hb), decide_eq_true_iff, BitVec.not_le]

theorem strictWeakOrderOn_bySize {p : VMAccelId} {l : List RangeObject}
    (h : ∀ x ∈ l, BySize p x) : StrictWeakOrderOn Resource.cmp l :=
  (AllocRange.comparesBy fun o ho => (h o ho).2).strictWeakOrderOn fun o ho => (h o ho).1

variable {M : SortedMultiset RangeObject Resource.cmp} {pool : M.Carrier} {p : VMAccelId}

structure SizeOrdered (p : VMAccelId) (pool : M.Carrier) : Prop where
  bySize : ∀ x ∈ M.bag pool, BySize p x
  sorted : SortedBy Resource.cmp (M.toList pool)

namespace SizeOrdered

theorem insert (h : SizeOrdered p pool) {o : RangeObject} (ho : BySize p o) :
    SizeOrdered p (M.insert pool o) := by
  have hall : ∀ x ∈ o :: M.toList pool, BySize p x := by
    intro x hx
    rcases List.mem_cons.mp hx with rfl | hx
    · exact ho
    · exact h.bySize x (M.mem_bag.mpr hx)
  refine ⟨fun x hx => hall x ?_, M.insert_sorted (strictWeakOrderOn_bySize hall) h.sorted⟩
  rw [M.bag_insert, Multiset.mem_cons] at hx
  exact List.mem_cons.mpr (hx.imp id M.mem_bag.mp)

theorem erase (h : SizeOrdered p pool) {i : ℕ} {e : RangeObject}
    (hi : (M.toList pool)[i]? = some e) : SizeOrdered p (M.erase pool i) := by
  refine ⟨fun x hx => h.bySize x ?_, M.erase_sorted h.sorted i⟩
  rw [M.bag_eq_cons_erase hi]
  exact Multiset.mem_cons_of_mem hx

theorem eraseIf (h : SizeOrdered p pool) (q : RangeObject → Bool) :
    SizeOrdered p (M.eraseIf q pool) := by
  refine ⟨fun x hx => h.bySize x ?_, M.eraseIf_sorted h.sorted q⟩
  rw [M.bag_eraseIf] at hx
  exact Multiset.mem_of_mem_filter hx

/-- `FreeObj` keeps the free set sorted by size, whatever its searches answer. -/
theorem freeObj (h : SizeOrdered p pool) {o : RangeObject} (ho : BySize p o) :
    SizeOrdered p (Resource.freeObj M.toOrderedMultiset pool o).2 := by
  change SizeOrdered p (AllocRange.freeObj M.toOrderedMultiset pool o).2
  rcases AllocRange.freeObj_cases pool o with ⟨pool', heq, e, i, hm, -⟩ | heq
  · -- Both merges keep the parent of the freed range and the mark of the element.
    obtain ⟨m, ⟨hi, rfl⟩, hmark⟩ : ∃ m, AllocRange.Absorbs pool pool' o e i m ∧
        m.cmpRange = e.obj.cmpRange := hm.elim (fun h => ⟨_, h.2, rfl⟩) fun h => ⟨_, h.2, rfl⟩
    rw [heq]
    refine (h.erase hi).insert ⟨ho.1, ?_⟩
    exact hmark.trans (h.bySize e (M.mem_bag_of_getElem hi)).2
  · rw [heq]
    exact h.insert ho

theorem putBack (h : SizeOrdered p pool) {r : AllocRange} (hr : r.cmpRange = false) :
    SizeOrdered p (putBack pool p r) := by
  unfold VMAccelAllocator.putBack
  split_ifs
  · exact h
  · exact h.freeObj ⟨rfl, hr⟩

end SizeOrdered

theorem AllocRange.cmpRange_of_reserve {e a d r : AllocRange}
    (h : AllocRange.reserve e a = some (d, r)) :
    d.cmpRange = e.cmpRange ∧ r.cmpRange = e.cmpRange := by
  unfold AllocRange.reserve at h
  dsimp only at h
  split_ifs at h
  cases h
  exact ⟨rfl, rfl⟩

/-- The invariant: the free set of the one registered range is sorted by size, and no live range is
marked for comparison by position. -/
structure Ledger.SizeSorted (l : Ledger AllocRange M.toOrderedMultiset) : Prop where
  single : l.Single
  pool : ∀ p, l.registered p ≠ none → SizeOrdered p l.pool
  objects : ∀ o ∈ l.objects, o.obj.cmpRange = false

theorem sizeSorted_new (num : ℕ) : (new M.toOrderedMultiset num).ledger.SizeSorted where
  single p _ hp := absurd (ledger_registered_new num p) hp
  pool p hp := absurd (ledger_registered_new num p) hp
  objects o ho := by
    rw [Ledger.objects, show (new M.toOrderedMultiset num).ledger.live = 0 from entries_new num]
      at ho
    exact absurd ho (Multiset.notMem_zero o)

theorem sizeOrdered_of_bag_eq_zero (h : M.bag pool = 0) : SizeOrdered p pool := by
  have hnil : M.toList pool = [] := Multiset.coe_eq_zero _ |>.mp h
  refine ⟨fun x hx => ?_, ?_⟩
  · rw [h] at hx
    exact absurd hx (Multiset.notMem_zero x)
  · rw [hnil]
    exact List.Pairwise.nil

theorem Ledger.SizeSorted.step {s : VMAccelAllocator AllocRange M.toOrderedMultiset}
    {l' : Ledger AllocRange M.toOrderedMultiset} {c : Call AllocRange} (hwf : s.WellFormed)
    (h : s.ledger.SizeSorted) (hc : OneRegistered s c) (hstep : s.ledger.Step c l') :
    l'.SizeSorted := by
  have hcl := hwf.closed
  have hsingle := h.single.step hc hstep
  cases hstep with
  | refused => exact h
  | @registered p a hp =>
    refine ⟨hsingle, fun q hq => ?_, h.objects⟩
    obtain rfl : q = p := hsingle q p hq (by simp)
    have hempty : M.bag s.ledger.pool = 0 := Multiset.eq_zero_of_forall_notMem fun o ho =>
      hcl.pool o ho (registered_eq_none_of_activeIds hc.1 _)
    exact (sizeOrdered_of_bag_eq_zero hempty).freeObj ⟨rfl, hc.2.cmpRange⟩
  | @unregistered p _ =>
    refine ⟨hsingle, fun q hq => (h.pool q fun hnone => hq ?_).eraseIf _, h.objects⟩
    change Function.update s.ledger.registered p none q = none
    by_cases hqp : q = p
    · rw [hqp, Function.update_self]
    · rw [Function.update_of_ne hqp, hnone]
  | @granted id p a d r i e hlookup hreserve =>
    obtain ⟨hi, hcmp⟩ := lookup_eq_some hlookup
    obtain rfl : e.parentId = p := Resource.parentId_eq_of_cmp hcmp
    have hmem := M.mem_bag_of_getElem hi
    have hpool := h.pool _ (hcl.pool e hmem)
    obtain ⟨hd, hr⟩ := AllocRange.cmpRange_of_reserve hreserve
    have he : e.obj.cmpRange = false := (hpool.bySize e hmem).2
    refine ⟨hsingle, fun q hq => ?_, fun o ho => ?_⟩
    · rw [h.single q _ hq (hcl.pool e hmem)]
      exact (hpool.erase hi).putBack (hr.trans he)
    · change o ∈ Multiset.map Prod.snd ((id, .of e.parentId d) ::ₘ s.ledger.live) at ho
      rw [Multiset.map_cons, Multiset.mem_cons] at ho
      rcases ho with rfl | ho
      · exact hd.trans he
      · exact h.objects o ho
  | @freed id o live hlive =>
    have hobjects := objects_of_live hlive
    have hmem : o ∈ s.ledger.objects := by
      rw [hobjects]
      exact Multiset.mem_cons_self _ _
    refine ⟨hsingle, fun q hq => ?_, fun x hx => h.objects x ?_⟩
    · obtain rfl := h.single q _ hq (hcl.objects o hmem)
      exact (h.pool _ hq).freeObj ⟨rfl, h.objects o hmem⟩
    · rw [hobjects]
      exact Multiset.mem_cons_of_mem hx

def BestFit (ranges : Multiset RangeObject) (n : BitVec 64) (e : RangeObject) : Prop :=
  e ∈ ranges ∧ n ≤ e.obj.size ∧ ∀ x ∈ ranges, n ≤ x.obj.size → e.obj.size ≤ x.obj.size

theorem AllocRange.reserve_of_le {e a : AllocRange} (he : e.cmpRange = false)
    (ha : a.cmpRange = false) (hle : a.size ≤ e.size) (hpos : 1 ≤ a.size) :
    (AllocRange.reserve e a).isSome := by
  have hlt : e.lt a = false := by
    rw [AllocRange.lt_of_sizes he ha]
    exact decide_eq_false (BitVec.not_lt.mpr hle)
  have hrem : AllocRange.lt { e with size := e.size - a.size, begin := e.begin + a.size - 1 + 1 } e
      = true := by
    rw [AllocRange.lt_of_sizes (by exact he) he, decide_eq_true_eq, BitVec.lt_def,
      BitVec.toNat_sub_of_le hle]
    have h1 : 1 ≤ a.size.toNat := hpos
    have h2 : a.size.toNat ≤ e.size.toNat := hle
    omega
  simp only [AllocRange.reserve, hlt, Bool.false_eq_true, if_false, hrem, if_true,
    Option.isSome_some]

theorem tryReserve_bestFit (h : SizeOrdered p pool) {a : AllocRange} (ha : a.cmpRange = false)
    (hsize : 1 ≤ a.size) :
    (tryReserve pool (.of p a) = none ∧ ∀ e ∈ M.bag pool, ¬ a.size ≤ e.obj.size) ∨
      ∃ d r pool' e, tryReserve pool (.of p a) = some (.of p d, pool') ∧
        BestFit (M.bag pool) a.size e ∧ AllocRange.reserve e.obj a = some (d, r) := by
  obtain ⟨hpool, hs⟩ := h
  have hkey : BySize p (.of p a) := ⟨rfl, ha⟩
  have hcmp : StrictWeakOrderOn Resource.cmp (.of p a :: M.toList pool) := by
    refine strictWeakOrderOn_bySize (p := p) fun x hx => ?_
    rcases List.mem_cons.mp hx with rfl | hx
    · exact hkey
    · exact hpool x (M.mem_bag.mpr hx)
  -- The test of the search is the comparison of the sizes.
  have hfits : ∀ x ∈ M.bag pool, Resource.cmp x (.of p a) = false ↔ a.size ≤ x.obj.size := by
    intro x hx
    rw [cmp_of_bySize (hpool x hx) hkey, decide_eq_false_iff_not]
    exact BitVec.not_lt
  cases hl : M.lowerBound pool (.of p a) with
  | none =>
    refine Or.inl ⟨by rw [tryReserve, lookup_of_none hl]; rfl, fun e he hle => ?_⟩
    have hbelow := M.cmp_of_lowerBound_eq_none hcmp hs hl e (M.mem_bag.mp he)
    rw [(hfits e he).mpr hle] at hbelow
    cases hbelow
  | some i =>
    obtain ⟨e, hi, he⟩ := M.lowerBound_sound hl
    have hmem := M.mem_bag_of_getElem hi
    have hle := (hfits e hmem).mp he
    obtain ⟨⟨d, r⟩, hres⟩ := Option.isSome_iff_exists.mp
      (AllocRange.reserve_of_le (hpool e hmem).2 ha hle hsize)
    have hresource : Resource.reserve e.obj (VMAccelObject.of p a).obj = some (d, r) := hres
    refine Or.inr ⟨d, r, putBack (M.erase pool i) p r, e, ?_, ⟨hmem, hle, fun x hx hx' => ?_⟩, hres⟩
    · rw [tryReserve, lookup_of_some hl hi, Option.bind_some, reserveAt, hresource]
      rfl
    · have hleast := M.lowerBound_least hcmp hs hl hi x (M.mem_bag.mp hx) ((hfits x hx).mpr hx')
      rw [cmp_of_bySize (hpool x hx) (hpool e hmem), decide_eq_false_iff_not] at hleast
      exact BitVec.not_lt.mp hleast

theorem sizeSorted_of_run {num : ℕ} {cs : List (Call AllocRange)}
    {s : VMAccelAllocator AllocRange M.toOrderedMultiset}
    (hone : EachInput (apply false) OneRegistered (new M.toOrderedMultiset num) cs)
    (hrun : run (apply false) (new M.toOrderedMultiset num) cs = .ok s) :
    s.WellFormed ∧ s.ledger.SizeSorted :=
  run_ledger (sizeSorted_new num) (fun _ _ _ hwf h hc hstep => h.step hwf hc hstep) hone hrun

theorem SizeOrdered.alloc {s : VMAccelAllocator AllocRange M.toOrderedMultiset}
    (hwf : s.WellFormed) (h : SizeOrdered p s.freeSet) {a : AllocRange} (ha : a.cmpRange = false)
    (hsize : 1 ≤ a.size) {r : (VMAccelAllocateStatus × Option AllocRange) ×
      VMAccelAllocator AllocRange M.toOrderedMultiset} (hr : s.alloc p a = .ok r) :
    (r.1.1.status = .success ↔ (∃ id < s.externalIds.size, ¬ s.externalIds.Active id) ∧
      ∃ e ∈ M.bag s.freeSet, a.size ≤ e.obj.size) ∧
    (r.1.1.status = .success → ∃ d e, r.1.2 = some d ∧ BestFit (M.bag s.freeSet) a.size e ∧
      d = { e.obj with size := a.size, last := e.obj.begin + a.size - 1 } ∧
      (e.obj.WellFormed → d.WellFormed)) := by
  have hsearch := tryReserve_bestFit h ha hsize
  rw [← hwf.externalIds.free_ne_zero_iff]
  rcases alloc_ok hwf hr with ⟨hfree, rfl⟩ | ⟨-, htr, rfl⟩ | ⟨k, d, pool, hfree, -, -, htr, rfl⟩
  · exact ⟨iff_of_false StatusCode.noConfusion fun h => h.1 hfree, StatusCode.noConfusion⟩
  · rw [htr] at hsearch
    obtain ⟨-, hnone⟩ | ⟨d, r, pool', e, hsome, -⟩ := hsearch
    · refine ⟨iff_of_false StatusCode.noConfusion ?_, StatusCode.noConfusion⟩
      rintro ⟨-, e, he, hle⟩
      exact hnone e he hle
    · cases hsome
  · rw [htr] at hsearch
    obtain ⟨hnone, -⟩ | ⟨d', r, pool', e, hsome, hbest, hres⟩ := hsearch
    · cases hnone
    · cases hsome
      obtain ⟨-, -, hparts, -⟩ :=
        AllocRange.reserve_eq_some (h.bySize e hbest.1).2 ha hres
      refine ⟨iff_of_true rfl ⟨hfree, e, hbest.1, hbest.2.1⟩, fun _ => ⟨d', e, rfl, hbest, hparts,
        fun he => (AllocRange.reserve_spec he ha hres).1⟩⟩

/-- With one well-formed range registered, `Alloc` by size succeeds exactly when an external
identifier is left and some free range is large enough, and what it returns begins where the
smallest such range begins. The requests before it are arbitrary. -/
theorem alloc_best_fit (M : SortedMultiset RangeObject Resource.cmp) (num : ℕ)
    (cs : List (Call AllocRange)) (s : VMAccelAllocator AllocRange M.toOrderedMultiset)
    (hone : EachInput (apply false) OneRegistered (new M.toOrderedMultiset num) cs)
    (hrun : run (apply false) (new M.toOrderedMultiset num) cs = .ok s) (p : VMAccelId)
    (hp : s.registeredIds.Active p) (a : AllocRange) (ha : a.cmpRange = false)
    (hsize : 1 ≤ a.size) :
    ∃ r, s.alloc p a = .ok r ∧
      (r.1.1.status = .success ↔ (∃ id < s.externalIds.size, ¬ s.externalIds.Active id) ∧
        ∃ e ∈ M.bag s.freeSet, a.size ≤ e.obj.size) ∧
      (r.1.1.status = .success → ∃ d e, r.1.2 = some d ∧ BestFit (M.bag s.freeSet) a.size e ∧
        d = { e.obj with size := a.size, last := e.obj.begin + a.size - 1 } ∧
        (e.obj.WellFormed → d.WellFormed)) := by
  obtain ⟨hwf, h⟩ := sizeSorted_of_run hone hrun
  obtain ⟨r, hr⟩ := (coherent_of_run hrun).returns_alloc
    (addressable_of_index (bit_lt_length hp.2)) p a
  exact ⟨r, hr, (h.pool p (hwf.registered_ne_none hp)).alloc hwf ha hsize hr⟩

instance {M : OrderedMultiset RangeObject Resource.cmp} (s : VMAccelAllocator AllocRange M) :
    (c : Call AllocRange) → Decidable (OneRegistered s c)
  | .register _ => inferInstanceAs (Decidable (_ ∧ _))
  | .alloc _ _ | .unregister _ | .free _ => .isTrue trivial

abbrev RangeSet := SearchTree.sortedMultiset (Resource.cmp (T := AllocRange))

/-- After `[0, 9]` was freed in front of `[35, 99]`, a request for 8 is met from `[0, 9]`. -/
theorem alloc_best_fit_small_hole :
    ∃ s, run (apply false) (new RangeSet.toOrderedMultiset 4) [.register (.ofEnds 0 99),
        .alloc 0 (.ofEnds 0 9), .alloc 0 (.ofEnds 0 24), .free 0] = .ok s ∧
      ∃ r d e, s.alloc 0 (.ofEnds 0 7) = .ok r ∧ r.1.1.status = .success ∧ r.1.2 = some d ∧
        d.begin = e.obj.begin ∧ BestFit (RangeSet.bag s.freeSet) 8 e := by
  have hone : EachInput (apply false) OneRegistered (new RangeSet.toOrderedMultiset 4)
      [.register (.ofEnds 0 99), .alloc 0 (.ofEnds 0 9), .alloc 0 (.ofEnds 0 24), .free 0] := by
    decide +kernel
  have hreach : ∃ s, run (apply false) (new RangeSet.toOrderedMultiset 4)
      [.register (.ofEnds 0 99), .alloc 0 (.ofEnds 0 9), .alloc 0 (.ofEnds 0 24), .free 0] =
        .ok s ∧ s.registeredIds.Active 0 ∧ (3 < s.externalIds.size ∧ ¬ s.externalIds.Active 3) ∧
        ∃ e ∈ RangeSet.toList s.freeSet, 8 ≤ e.obj.size := by decide +kernel
  obtain ⟨s, hrun, hact, hid, e, he, hle⟩ := hreach
  obtain ⟨r, hr, hiff, hfit⟩ := alloc_best_fit RangeSet 4 _ s hone hrun 0 hact (.ofEnds 0 7) rfl
    (by decide)
  have hok : r.1.1.status = .success :=
    hiff.mpr ⟨⟨3, hid.1, hid.2⟩, e, RangeSet.mem_bag.mpr he, hle⟩
  obtain ⟨d, x, hd, hbest, hparts, -⟩ := hfit hok
  exact ⟨s, hrun, r, d, x, hr, hok, hd, by rw [hparts], hbest⟩

end VMAccel
