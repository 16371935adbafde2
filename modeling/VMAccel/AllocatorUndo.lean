import VMAccel.AllocInt
import VMAccel.AllocRangeSafety
import VMAccel.DescNodes

/-!
# Undoing an allocation

`Alloc` takes an external identifier before it searches, and gives it back when the search fails,
so a refusal leaves no trace but its status. A descriptor that `Alloc` granted and `Free` takes
back leaves the tables as they were. The free set is as it was unless `IsEmpty` judges a remainder
empty that is not: the nine components are added in 32 bits, and a remainder whose sum wraps to
zero is dropped with what the accelerator had left. A remainder that was put back is merged with
what `Free` returns, and the node for it has to be clear.
-/

namespace VMAccel

open StepSystem IdentifierDB VMAccelAllocator

section Generic

variable {T : Type} [Resource T] {M : OrderedMultiset (VMAccelObject T) Resource.cmp}

/-- After any run, an `Alloc` that is refused stores nothing for the caller and changes nothing but
the static result. -/
theorem refused_alloc_leaves_state (M : OrderedMultiset (VMAccelObject T) Resource.cmp) (num : ℕ)
    (cs : List (Call T)) (s : VMAccelAllocator T M)
    (hrun : run (apply false) (new M num) cs = .ok s) (p : VMAccelId) (a : T)
    (r : (VMAccelAllocateStatus × Option T) × VMAccelAllocator T M) (hr : s.alloc p a = .ok r)
    (hstatus : r.1.1.status = .fail ∨ r.1.1.status = .resourceUnavailable) :
    r.1.2 = none ∧ r.2 = { s with allocResult := r.1.1 } := by
  rcases alloc_ok (wellFormed_of_run hrun) hr with ⟨-, rfl⟩ | ⟨-, -, rfl⟩ | ⟨k, d, pool, -, -, -, -,
    rfl⟩
  · exact ⟨rfl, rfl⟩
  · exact ⟨rfl, rfl⟩
  · rcases hstatus with h | h <;> cases h

/-- No identifier left, no range large enough, and an integer that does not fit. -/
theorem refused_alloc_leaves_state_demo :
    (∃ s, run (apply false) (new DescTree 1) [.register (flopsDesc 4), .alloc 0 (flopsDesc 1)] =
        .ok s ∧ ∃ r, s.alloc 0 (flopsDesc 1) = .ok r ∧ r.1.1.status = .fail ∧ r.1.2 = none ∧
          r.2 = { s with allocResult := r.1.1 }) ∧
    (∃ s, run (apply false) (new RangeTree 1) [.register (.ofEnds 0 9)] = .ok s ∧
      ∃ r, s.alloc 0 (.ofEnds 0 10) = .ok r ∧ r.1.1.status = .resourceUnavailable ∧ r.1.2 = none ∧
        r.2 = { s with allocResult := r.1.1 }) ∧
    ∃ s, run (apply false) (new (SearchTree.multiset (Resource.cmp (T := AllocInt))) 1)
        [.register ⟨5⟩] = .ok s ∧ ∃ r, s.alloc 0 ⟨6⟩ = .ok r ∧
      r.1.1.status = .resourceUnavailable ∧ r.1.2 = none ∧
        r.2 = { s with allocResult := r.1.1 } := by
  have hdesc : ∃ s, run (apply false) (new DescTree 1)
      [.register (flopsDesc 4), .alloc 0 (flopsDesc 1)] = .ok s ∧
        (s.alloc 0 (flopsDesc 1)).map (·.1.1.status) = .ok .fail := by decide +kernel
  have hrange : ∃ s, run (apply false) (new RangeTree 1) [.register (.ofEnds 0 9)] = .ok s ∧
      (s.alloc 0 (.ofEnds 0 10)).map (·.1.1.status) = .ok .resourceUnavailable := by decide +kernel
  have hint : ∃ s, run (apply false) (new (SearchTree.multiset (Resource.cmp (T := AllocInt))) 1)
      [.register ⟨5⟩] = .ok s ∧
        (s.alloc 0 ⟨6⟩).map (·.1.1.status) = .ok .resourceUnavailable := by decide +kernel
  obtain ⟨s, hs, hs'⟩ := hdesc
  obtain ⟨t, ht, ht'⟩ := hrange
  obtain ⟨u, hu, hu'⟩ := hint
  obtain ⟨r, hr, hrs⟩ := map_eq_ok.mp hs'
  obtain ⟨q, hq, hqs⟩ := map_eq_ok.mp ht'
  obtain ⟨v, hv, hvs⟩ := map_eq_ok.mp hu'
  exact ⟨⟨s, hs, r, hr, hrs, refused_alloc_leaves_state _ _ _ s hs _ _ r hr (Or.inl hrs)⟩,
    ⟨t, ht, q, hq, hqs, refused_alloc_leaves_state _ _ _ t ht _ _ q hq (Or.inr hqs)⟩,
    u, hu, v, hv, hvs, refused_alloc_leaves_state _ _ _ u hu _ _ v hv (Or.inr hvs)⟩

theorem free_grant {s : VMAccelAllocator T M} (h : s.WellFormed) {k : ℕ}
    (hfree : s.externalIds.free ≠ 0) (hk : k / 32 < s.externalIds.bits.length)
    (hff : s.externalIds.FirstFree k) {p : VMAccelId} {a : T} {d : VMAccelObject T}
    {pool : M.Carrier} (htr : tryReserve s.freeSet (.of p a) = some (d, pool)) :
    (s.grant k d pool).free false (BitVec.ofNat 32 k) =
      .ok (.success, (s.grant k d pool).reclaim k d) := by
  have hlt := hff.lt_size h.externalIds hfree
  obtain ⟨hdp, hact, hpool⟩ := h.tryReserve_active htr
  have hwf := h.grant hk hff.1 hlt hfree (hdp.symm ▸ hact) hpool
  have hactive : (s.grant k d pool).externalIds.Active (BitVec.ofNat 32 k) :=
    (active_take hk hlt _).mpr (Or.inr (toNat_ofNat_of_lt_size hlt))
  rw [free_of_active hwf hactive, toNat_ofNat_of_lt_size hlt,
    objectAt_grant (hlt.trans_le h.length_allocated)]

/-- The effect of `FreeObj` where each parent has one element of the free set: the object is merged
into the element of its parent, if there is one. -/
def MergedByParent (add : T → T → T) (pool : M.Carrier) (o : VMAccelObject T)
    (pool' : M.Carrier) : Prop :=
  ((∀ e ∈ M.bag pool, e.parentId ≠ o.parentId) ∧ pool' = M.insert pool o) ∨
    ∃ e i, (M.toList pool)[i]? = some e ∧ e.parentId = o.parentId ∧
      pool' = M.insert (M.erase pool i) (.of o.parentId (add e.obj o.obj))

variable {add : T → T → T} {pool pool' : M.Carrier} {o : VMAccelObject T}

theorem MergedByParent.bag_of_absent (h : MergedByParent add pool o pool')
    (hnone : ∀ e ∈ M.bag pool, e.parentId ≠ o.parentId) : M.bag pool' = o ::ₘ M.bag pool := by
  rcases h with ⟨-, rfl⟩ | ⟨e, i, hi, hpar, -⟩
  · exact M.bag_insert pool o
  · exact absurd hpar (hnone e (M.mem_bag_of_getElem hi))

theorem MergedByParent.bag_of_present (h : MergedByParent add pool o pool')
    {e : VMAccelObject T} {rest : Multiset (VMAccelObject T)} (hbag : M.bag pool = e ::ₘ rest)
    (hpar : e.parentId = o.parentId) (hrest : ∀ x ∈ rest, x.parentId ≠ o.parentId) :
    M.bag pool' = .of o.parentId (add e.obj o.obj) ::ₘ rest := by
  have hmem : e ∈ M.bag pool := hbag ▸ Multiset.mem_cons_self e rest
  rcases h with ⟨hnone, -⟩ | ⟨x, i, hi, hx, rfl⟩
  · exact absurd hpar (hnone e hmem)
  · obtain rfl : x = e := by
      have hx' := M.mem_bag_of_getElem hi
      rw [hbag, Multiset.mem_cons] at hx'
      exact hx'.resolve_right fun hin => hrest x hin hx
    rw [M.bag_eq_cons_erase hi, Multiset.cons_inj_right] at hbag
    rw [M.bag_insert, hbag]

end Generic

namespace VMAccelWorkloadDesc

theorem eq_of_comp {v w : VMAccelWorkloadDesc} (h : ∀ dim, v.comp dim = w.comp dim) : v = w := by
  cases v
  cases w
  congr
  exacts [h .megaFlops, h .megaOps, h .llcSizeKB, h .llcBandwidthMBSec, h .localMemSizeKB,
    h .localMemBandwidthMBSec, h .nonLocalMemSizeKB, h .nonLocalMemBandwidthMBSec,
    h .interconnectBandwidthMBSec]

theorem sub_add_cancel (v w : VMAccelWorkloadDesc) : v - w + w = v := by
  refine eq_of_comp fun dim => ?_
  rw [comp_add, comp_sub, BitVec.sub_add_cancel]

theorem add_sub_cancel (v w : VMAccelWorkloadDesc) : v + w - w = v := by
  refine eq_of_comp fun dim => ?_
  rw [comp_sub, comp_add, BitVec.add_sub_cancel]

end VMAccelWorkloadDesc

namespace VMAccelDesc

theorem addAssign_subAssign (c d : VMAccelDesc) : (c.subAssign d).addAssign d = c := by
  rw [addAssign, subAssign, VMAccelWorkloadDesc.sub_add_cancel]

theorem subAssign_addAssign (c d : VMAccelDesc) : (c.addAssign d).subAssign d = c := by
  rw [addAssign, subAssign, VMAccelWorkloadDesc.add_sub_cancel]

/-- The reservation has the capacity of the request, the remainder what is left, and both have
everything else from the element. -/
theorem reserve_parts {e a d r : VMAccelDesc} (h : e.reserve a = some (d, r)) :
    d = { e with capacity := a.capacity } ∧ r = e.subAssign a := by
  unfold reserve at h
  dsimp only at h
  split_ifs at h
  cases h
  exact ⟨rfl, rfl⟩

variable {M : OrderedMultiset (VMAccelObject VMAccelDesc) Resource.cmp}

theorem freeObj_merges (pool : M.Carrier) (o : VMAccelObject VMAccelDesc) :
    MergedByParent addAssign pool o (Resource.freeObj M pool o).2 := by
  rcases freeObj_cases pool o with ⟨hnone, heq⟩ | ⟨e, i, hi, hpar, heq⟩
  · exact Or.inl ⟨hnone, congrArg Prod.snd heq⟩
  · exact Or.inr ⟨e, i, hi, hpar, congrArg Prod.snd heq⟩

end VMAccelDesc

variable {M : OrderedMultiset (VMAccelObject VMAccelDesc) Resource.cmp}

/-- One free element per parent, and no object has a fence. -/
structure Ledger.Orderly (l : Ledger VMAccelDesc M) : Prop where
  single : VMAccel.Single l.pool
  pool : ∀ o ∈ M.bag l.pool, o.fenceId = invalidId
  objects : ∀ o ∈ l.objects, o.fenceId = invalidId

theorem fenceId_freeObj {pool : M.Carrier} {o : VMAccelObject VMAccelDesc}
    (hpool : ∀ x ∈ M.bag pool, x.fenceId = invalidId) (ho : o.fenceId = invalidId) :
    ∀ x ∈ M.bag (Resource.freeObj M pool o).2, x.fenceId = invalidId := by
  intro x hx
  rcases VMAccelDesc.freeObj_merges pool o with ⟨-, heq⟩ | ⟨e, i, hi, -, heq⟩
  · rw [heq, M.bag_insert, Multiset.mem_cons] at hx
    rcases hx with rfl | hx
    · exact ho
    · exact hpool x hx
  · rw [heq] at hx
    rcases mem_bag_replace hi hx with rfl | hx
    · rfl
    · exact hpool x hx

theorem Ledger.Orderly.step {l l' : Ledger VMAccelDesc M} {c : Call VMAccelDesc} (h : l.Orderly)
    (hstep : l.Step c l') : l'.Orderly := by
  cases hstep with
  | refused => exact h
  | @registered p a hp =>
    exact ⟨single_freeObj _ _ h.single, fenceId_freeObj h.pool rfl, h.objects⟩
  | @unregistered p hlive =>
    refine ⟨fun q => ?_, fun o ho => ?_, h.objects⟩
    · change childCount (M.bag (M.eraseIf _ l.pool)) q ≤ 1
      rw [M.bag_eraseIf]
      exact (Multiset.countP_le_of_le _ (Multiset.filter_le _ _)).trans (h.single q)
    · change o ∈ M.bag (M.eraseIf _ l.pool) at ho
      rw [M.bag_eraseIf] at ho
      exact h.pool o (Multiset.mem_of_mem_filter ho)
  | @granted id p a d r i e hlookup hreserve =>
    obtain ⟨hi, -⟩ := lookup_eq_some hlookup
    have herase : ∀ x ∈ M.bag (M.erase l.pool i), x.fenceId = invalidId := fun x hx =>
      h.pool x (M.bag_eq_cons_erase hi ▸ Multiset.mem_cons_of_mem hx)
    refine ⟨?_, ?_, fun o ho => ?_⟩
    · change VMAccel.Single (putBack _ p r)
      unfold putBack
      split_ifs
      · exact single_erase _ _ h.single
      · exact single_freeObj _ _ (single_erase _ _ h.single)
    · change ∀ o ∈ M.bag (putBack _ p r), _
      unfold putBack
      split_ifs
      · exact herase
      · exact fenceId_freeObj herase rfl
    · rw [Ledger.objects, Multiset.map_cons, Multiset.mem_cons] at ho
      rcases ho with rfl | ho
      · rfl
      · exact h.objects o ho
  | @freed id o live hlive =>
    have hobjects := objects_of_live hlive
    refine ⟨single_freeObj _ _ h.single, fenceId_freeObj h.pool (h.objects o ?_), fun x hx => ?_⟩
    · exact hobjects ▸ Multiset.mem_cons_self _ _
    · exact h.objects x (hobjects ▸ Multiset.mem_cons_of_mem hx)

theorem Ledger.orderly_new (num : ℕ) : (new M num).ledger.Orderly where
  single p := by
    rw [show M.bag (new M num).ledger.pool = 0 from M.bag_empty]
    exact Nat.zero_le 1
  pool o ho := by
    rw [show M.bag (new M num).ledger.pool = 0 from M.bag_empty] at ho
    exact absurd ho (Multiset.notMem_zero o)
  objects o ho := by
    rw [Ledger.objects, show (new M num).ledger.live = 0 from entries_new num] at ho
    exact absurd ho (Multiset.notMem_zero o)

/-- The vectors and the external identifiers are the same. -/
structure SameBooks (s t : VMAccelAllocator VMAccelDesc M) : Prop where
  capacity : t.capacity = s.capacity
  load : t.load = s.load
  refCount : t.refCount = s.refCount
  externalIds : t.externalIds = s.externalIds

theorem modify_modify_cancel {α : Type} {f g : α → α} (h : ∀ x, g (f x) = x) (i : ℕ)
    (l : List α) : (l.modify i f).modify i g = l := by
  rw [List.modify_modify_eq, show g ∘ f = id from funext h, List.modify_id]

theorem sameBooks_reclaim_grant {s : VMAccelAllocator VMAccelDesc M} {k : ℕ}
    (hk : k / 32 < s.externalIds.bits.length) (hbit : s.externalIds.bit k = false)
    (d : VMAccelObject VMAccelDesc) (pool : M.Carrier) :
    SameBooks s ((s.grant k d pool).reclaim k d) where
  capacity := modify_modify_cancel (fun c => VMAccelDesc.addAssign_subAssign c d.obj) _ _
  load := modify_modify_cancel (fun c => VMAccelDesc.subAssign_addAssign c d.obj) _ _
  refCount := modify_modify_cancel (fun n => BitVec.add_sub_cancel n 1) _ _
  externalIds := give_take hk hbit

/-- The remainder of the accelerator `p` after the request `a` is judged empty only if all of its
nine components are zero. -/
def JudgesRemainder (s : VMAccelAllocator VMAccelDesc M) (p : VMAccelId) (a : VMAccelDesc) : Prop :=
  ∀ e ∈ M.bag s.freeSet, e.parentId = p → (e.obj.subAssign a).isEmpty = true →
    ∀ dim, e.obj.capacity.comp dim = a.capacity.comp dim

theorem eq_of_parts {e : VMAccelObject VMAccelDesc} {p : VMAccelId} {d : VMAccelDesc}
    (hp : e.parentId = p) (hfence : e.fenceId = invalidId) (hobj : d = e.obj) : .of p d = e := by
  cases e
  cases hp
  cases hfence
  cases hobj
  rfl

/-- What the free set of `e` and `rest` is after a reservation from `e` and its return. -/
theorem bag_reserved_returned {pool : M.Carrier} {i : ℕ} {e : VMAccelObject VMAccelDesc}
    {a d r : VMAccelDesc} (hsingle : Single pool) (hi : (M.toList pool)[i]? = some e)
    (hfence : e.fenceId = invalidId) (hres : e.obj.reserve a = some (d, r)) :
    M.bag (Resource.freeObj M (putBack (M.erase pool i) e.parentId r) (.of e.parentId d)).2 =
      M.bag pool ↔ ((e.obj.subAssign a).isEmpty = true → e.obj.capacity = a.capacity) := by
  obtain ⟨hd, rfl⟩ := VMAccelDesc.reserve_parts hres
  have hbag := M.bag_eq_cons_erase hi
  have hrest := hsingle.parentId_ne hi
  by_cases hempty : Resource.isEmpty (e.obj.subAssign a) = true
  · rw [putBack_of_isEmpty hempty,
      (VMAccelDesc.freeObj_merges _ (.of e.parentId d)).bag_of_absent hrest, hbag,
      Multiset.cons_inj_left]
    refine ⟨fun heq _ => ?_, fun hcap => eq_of_parts rfl hfence ?_⟩
    · rw [← heq, hd]
      rfl
    · rw [hd, ← hcap hempty]
  · have hput := (VMAccelDesc.freeObj_merges (M.erase pool i)
      (.of e.parentId (e.obj.subAssign a))).bag_of_absent hrest
    rw [putBack_of_not_isEmpty hempty,
      (VMAccelDesc.freeObj_merges _ (.of e.parentId d)).bag_of_present hput rfl hrest, hbag,
      Multiset.cons_inj_left]
    refine iff_of_true (eq_of_parts rfl hfence ?_) fun h => absurd h hempty
    rw [hd]
    exact VMAccelDesc.addAssign_subAssign e.obj a

/-- The accelerator `p` has something left after the request `a`, as `IsEmpty` judges it. -/
def LeavesRemainder (s : VMAccelAllocator VMAccelDesc M) (p : VMAccelId) (a : VMAccelDesc) : Prop :=
  ∃ e ∈ M.bag s.freeSet, e.parentId = p ∧ (e.obj.subAssign a).isEmpty = false

theorem Single.eq_of_parent {pool : M.Carrier} (h : Single pool) {i : ℕ}
    {e x : VMAccelObject VMAccelDesc} (hi : (M.toList pool)[i]? = some e) (hx : x ∈ M.bag pool)
    (hpar : x.parentId = e.parentId) : x = e := by
  rw [M.bag_eq_cons_erase hi, Multiset.mem_cons] at hx
  exact hx.resolve_right fun hin => h.parentId_ne hi x hin hpar

section OneElement

variable {s : VMAccelAllocator VMAccelDesc M} {i : ℕ} {e : VMAccelObject VMAccelDesc}

theorem judgesRemainder_iff (hsingle : Single s.freeSet) (hi : (M.toList s.freeSet)[i]? = some e)
    (a : VMAccelDesc) : JudgesRemainder s e.parentId a ↔
      ((e.obj.subAssign a).isEmpty = true → e.obj.capacity = a.capacity) := by
  constructor
  · intro h hempty
    exact VMAccelWorkloadDesc.eq_of_comp (h e (M.mem_bag_of_getElem hi) rfl hempty)
  · intro h x hx hpar hempty dim
    obtain rfl := hsingle.eq_of_parent hi hx hpar
    rw [h hempty]

theorem leavesRemainder_iff (hsingle : Single s.freeSet) (hi : (M.toList s.freeSet)[i]? = some e)
    (a : VMAccelDesc) :
    LeavesRemainder s e.parentId a ↔ (e.obj.subAssign a).isEmpty = false := by
  constructor
  · rintro ⟨x, hx, hpar, hne⟩
    obtain rfl := hsingle.eq_of_parent hi hx hpar
    exact hne
  · exact fun hne => ⟨e, M.mem_bag_of_getElem hi, rfl, hne⟩

end OneElement

/-- `Free` merges after a reservation exactly when that has left a remainder. -/
theorem merges_putBack_iff {pool : M.Carrier} (hsingle : Single pool) {i : ℕ}
    {e : VMAccelObject VMAccelDesc} (hi : (M.toList pool)[i]? = some e) (r : VMAccelDesc) :
    (∃ x ∈ M.bag (putBack (M.erase pool i) e.parentId r), x.parentId = e.parentId) ↔
      r.isEmpty = false := by
  have hrest := hsingle.parentId_ne hi
  by_cases hempty : Resource.isEmpty r = true
  · rw [putBack_of_isEmpty hempty]
    refine iff_of_false (fun ⟨x, hx, hpar⟩ => hrest x hx hpar) fun h => ?_
    exact Bool.false_ne_true (h.symm.trans hempty)
  · rw [putBack_of_not_isEmpty hempty,
      (VMAccelDesc.freeObj_merges _ (.of e.parentId r)).bag_of_absent hrest]
    exact iff_of_true ⟨_, Multiset.mem_cons_self _ _, rfl⟩ (Bool.not_eq_true _ ▸ hempty)

/-- After any run, `Free` of what `Alloc` granted restores the books if it returns. It returns and
restores the free set as well exactly when the remainder was not judged empty wrongly, and the node
is clear if there was a remainder. -/
theorem free_undoes_alloc_iff (M : OrderedMultiset (VMAccelObject VMAccelDesc) Resource.cmp)
    (num : ℕ) (cs : List (Call VMAccelDesc × RawNode)) (s : VMAccelAllocator VMAccelDesc M)
    (hrun : run applyIn (new M num) cs = .ok s) (p : VMAccelId) (a : VMAccelDesc) (node : RawNode)
    (r : (VMAccelAllocateStatus × Option VMAccelDesc) × VMAccelAllocator VMAccelDesc M)
    (hr : s.allocIn node p a = .ok r) (hgrant : r.1.1.status = .success) (node' : RawNode) :
    (∀ q, r.2.freeIn node' r.1.1.id = .ok q → q.1 = .success ∧ SameBooks s q.2) ∧
      ((∃ t, r.2.freeIn node' r.1.1.id = .ok (.success, t) ∧ SameBooks s t ∧
          M.bag t.freeSet = M.bag s.freeSet) ↔
        JudgesRemainder s p a ∧ (LeavesRemainder s p a → node'.Clear)) := by
  obtain ⟨hwf, horderly⟩ := run_ledger (Ledger.orderly_new num)
    (fun _ _ _ _ h _ hstep => h.step hstep) (eachInput_true _ _) (run_apply_of_applyIn hrun)
  have hsingle : Single s.freeSet := horderly.single
  rcases alloc_ok hwf (inNode_ok.mp hr).1 with ⟨-, rfl⟩ | ⟨-, -, rfl⟩ |
    ⟨k, d, pool, hfree, hk, hff, htr, rfl⟩
  · cases hgrant
  · cases hgrant
  obtain ⟨i, e, div, rem, hl, hres, rfl, rfl⟩ := tryReserve_eq_some htr
  obtain ⟨hi, hcmp⟩ := lookup_eq_some hl
  obtain rfl : e.parentId = p := Resource.parentId_eq_of_cmp hcmp
  have hlt := hff.lt_size hwf.externalIds hfree
  obtain ⟨-, hrem⟩ := VMAccelDesc.reserve_parts hres
  set pool := putBack (M.erase s.freeSet i) e.parentId rem
  have hfreed := free_grant hwf hfree hk hff htr
  have hbooks := sameBooks_reclaim_grant (s := s) hk hff.1 (.of e.parentId div) pool
  have hmerges : (s.grant k (.of e.parentId div) pool).Merges (.free (BitVec.ofNat 32 k)) ↔
      LeavesRemainder s e.parentId a := by
    rw [merges_free, toNat_ofNat_of_lt_size hlt, objectAt_grant (hlt.trans_le hwf.length_allocated),
      leavesRemainder_iff hsingle hi, ← hrem]
    exact merges_putBack_iff hsingle hi rem
  have hbag := bag_reserved_returned hsingle hi (horderly.pool e (M.mem_bag_of_getElem hi)) hres
  rw [judgesRemainder_iff hsingle hi, ← hbag, ← hmerges]
  refine ⟨fun q hq => ?_, ?_⟩
  · obtain rfl := Except.ok.inj ((inNode_ok.mp hq).1.symm.trans hfreed)
    exact ⟨rfl, hbooks⟩
  · constructor
    · rintro ⟨t, ht, -, hsame⟩
      obtain ⟨ht, hclear⟩ := inNode_ok.mp ht
      cases ht.symm.trans hfreed
      exact ⟨hsame, hclear⟩
    · rintro ⟨hsame, hclear⟩
      exact ⟨_, inNode_ok.mpr ⟨hfreed, hclear⟩, hbooks, hsame⟩

/-- The memory of a node that was never used. -/
def clearNode : RawNode := ⟨0, 0⟩

/-- A remainder that is put back and found again in a clear node, and one that is not in another. -/
theorem free_undoes_alloc_demo :
    ∃ s, run applyIn (new DescTree 1) [(.register (cacheDesc 4 4), clearNode)] = .ok s ∧
      ∃ r, s.allocIn clearNode 0 (cacheDesc 1 3) = .ok r ∧
        (∃ t, r.2.freeIn clearNode r.1.1.id = .ok (.success, t) ∧ SameBooks s t ∧
          DescTree.bag t.freeSet = DescTree.bag s.freeSet) ∧
        ¬ ∃ t, r.2.freeIn ⟨0x41, 0⟩ r.1.1.id = .ok (.success, t) ∧ SameBooks s t ∧
          DescTree.bag t.freeSet = DescTree.bag s.freeSet := by
  have hreach : ∃ s, run applyIn (new DescTree 1) [(.register (cacheDesc 4 4), clearNode)] = .ok s ∧
      (s.allocIn clearNode 0 (cacheDesc 1 3)).map (·.1.1.status) = .ok .success ∧
        (∀ e ∈ DescTree.toList s.freeSet, ¬ (e.obj.subAssign (cacheDesc 1 3)).isEmpty = true) ∧
        ∃ e ∈ DescTree.toList s.freeSet, e.parentId = 0 := by
    decide +kernel
  obtain ⟨s, hrun, hstatus, hne, e, he, hpar⟩ := hreach
  obtain ⟨r, hr, hgrant⟩ := map_eq_ok.mp hstatus
  have hiff := fun node => (free_undoes_alloc_iff DescTree 1 _ s hrun 0 _ _ r hr hgrant node).2
  refine ⟨s, hrun, r, hr, (hiff clearNode).mpr ⟨fun x hx _ hempty => ?_, fun _ => by decide⟩,
    fun h => ?_⟩
  · exact absurd hempty (hne x (DescTree.mem_bag.mp hx))
  · have hremains : LeavesRemainder s 0 (cacheDesc 1 3) :=
      ⟨e, DescTree.mem_bag.mpr he, hpar, Bool.not_eq_true _ ▸ hne e he⟩
    exact absurd (((hiff ⟨0x41, 0⟩).mp h).2 hremains) (by decide)

/-- An accelerator with 2³¹ + 1 flops and 2³¹ of cache: after a request for one flop, what is left
adds up to 2³². It is dropped, and one flop is all that comes back. -/
theorem wrapped_remainder_lost :
    ∃ s, run applyIn (new DescTree 1)
        [(.register (cacheDesc 0x80000001 0x80000000), clearNode)] = .ok s ∧
      (∀ e ∈ DescTree.toList s.freeSet, e.obj = cacheDesc 0x80000001 0x80000000) ∧
      ¬ JudgesRemainder s 0 (cacheDesc 1 0) ∧
      ∃ t, run applyIn s [(.alloc 0 (cacheDesc 1 0), clearNode), (.free 0, clearNode)] = .ok t ∧
        DescTree.toList t.freeSet = [.of 0 (cacheDesc 1 0)] := by
  have hreach : ∃ s, run applyIn (new DescTree 1)
      [(.register (cacheDesc 0x80000001 0x80000000), clearNode)] = .ok s ∧
        (∀ e ∈ DescTree.toList s.freeSet, e.obj = cacheDesc 0x80000001 0x80000000) ∧
        .of 0 (cacheDesc 0x80000001 0x80000000) ∈ DescTree.toList s.freeSet ∧
        ∃ t, run applyIn s [(.alloc 0 (cacheDesc 1 0), clearNode), (.free 0, clearNode)] = .ok t ∧
          DescTree.toList t.freeSet = [.of 0 (cacheDesc 1 0)] := by decide +kernel
  obtain ⟨s, hrun, hall, hmem, hend⟩ := hreach
  refine ⟨s, hrun, hall, fun hjudges => ?_, hend⟩
  have hflops := hjudges _ (DescTree.mem_bag.mpr hmem) rfl (by decide) .megaFlops
  exact absurd hflops (by decide)

end VMAccel
