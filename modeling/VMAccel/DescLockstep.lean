import VMAccel.DescDeferred

/-!
# The two builds side by side

A search that overlooks nothing succeeds exactly when the request asks for some of a compared
component and for no more of any than what is spare, in the free set or queued. `FreeObj` keeps one
free element per parent, so the builds differ only in where the spare capacity is. As long as
neither drops nor overlooks anything, the deferred build therefore follows the immediate one call
by call, and grants every request that the other one grants.
-/

namespace VMAccel

open StepSystem IdentifierDB VMAccelAllocator

variable {M : OrderedMultiset (VMAccelObject VMAccelDesc) Resource.cmp}

def Admits (tot : Dim → ℕ) (a : VMAccelDesc) : Prop :=
  (∀ dim : Dim, dim.Compared → (a.capacity.comp dim).toNat ≤ tot dim) ∧
    ∃ dim : Dim, dim.Compared ∧ a.capacity.comp dim ≠ 0

theorem Admits.mono {tot tot' : Dim → ℕ} {a : VMAccelDesc} (h : Admits tot a)
    (hle : ∀ dim : Dim, dim.Compared → tot dim ≤ tot' dim) : Admits tot' a :=
  ⟨fun dim hdim => (h.1 dim hdim).trans (hle dim hdim), h.2⟩

theorem reserve_isSome_iff {e a : VMAccelDesc} :
    (Resource.reserve e a).isSome ↔ Admits (fun dim => (e.capacity.comp dim).toNat) a := by
  change (VMAccelDesc.reserve e a).isSome ↔ _
  constructor
  · intro hsome
    obtain ⟨⟨d, r⟩, hres⟩ := Option.isSome_iff_exists.mp hsome
    have hlt := (VMAccelDesc.reserve_eq_some hres).1
    rw [VMAccelWorkloadDesc.lt_eq_not_le, Bool.not_eq_false'] at hlt
    refine ⟨fun dim hdim => le_iff_compared.mp hlt dim hdim, ?_⟩
    by_contra hzero
    push Not at hzero
    -- A request for nothing leaves a remainder that does not compare below.
    have hle : e.capacity.le (e.capacity - a.capacity) = true := by
      refine le_iff_compared.mpr fun dim hdim => ?_
      simp [VMAccelWorkloadDesc.comp_sub, hzero dim hdim]
    simp [VMAccelDesc.reserve, VMAccelWorkloadDesc.lt_eq_not_le, hle] at hres
  · rintro ⟨hle, dim, hdim, hne⟩
    have hle' : a.capacity.le e.capacity = true := le_iff_compared.mpr hle
    rw [VMAccelDesc.reserve_of_le hle' ?_]
    · rfl
    · cases dim with
      | megaFlops => exact Or.inr (Or.inl hne)
      | megaOps => exact Or.inr (Or.inr hne)
      | localMemSizeKB => exact Or.inl hne
      | _ => exact absurd hdim id

def Single (pool : M.Carrier) : Prop := ∀ p, childCount (M.bag pool) p ≤ 1

theorem single_erase (pool : M.Carrier) (i : ℕ) (h : Single pool) : Single (M.erase pool i) := by
  intro p
  cases hi : (M.toList pool)[i]? with
  | none =>
    have hbag : M.bag (M.erase pool i) = M.bag pool := by
      rw [OrderedMultiset.bag, M.toList_erase,
        List.eraseIdx_of_length_le (List.getElem?_eq_none_iff.mp hi)]
      rfl
    exact hbag ▸ h p
  | some e =>
    refine le_trans ?_ (h p)
    rw [M.bag_eq_cons_erase hi]
    exact Multiset.countP_le_of_le _ (Multiset.le_cons_self _ e)

theorem Single.parentId_ne {pool : M.Carrier} (h : Single pool) {i : ℕ}
    {e : VMAccelObject VMAccelDesc} (hi : (M.toList pool)[i]? = some e) :
    ∀ x ∈ M.bag (M.erase pool i), x.parentId ≠ e.parentId := by
  have hcount := h e.parentId
  rw [M.bag_eq_cons_erase hi, childCount_cons_self] at hcount
  exact childCount_eq_zero.mp (by omega)

theorem single_freeObj (pool : M.Carrier) (o : VMAccelObject VMAccelDesc) (h : Single pool) :
    Single (Resource.freeObj M pool o).2 := by
  intro p
  change childCount (M.bag (VMAccelDesc.freeObj M pool o).2) p ≤ 1
  rcases VMAccelDesc.freeObj_cases pool o with ⟨hnone, heq⟩ | ⟨e, i, hi, hpar, heq⟩
  · rw [heq, M.bag_insert]
    by_cases hop : o.parentId = p
    · subst hop
      rw [childCount_cons_self, childCount_eq_zero.mpr hnone]
    · rw [childCount_cons_of_ne hop]
      exact h p
  · have hp := h p
    rw [M.bag_eq_cons_erase hi] at hp
    rw [heq, M.bag_insert]
    by_cases hop : o.parentId = p
    · subst hop
      rw [← hpar, childCount_cons_self] at hp
      have := childCount_cons_self (.of o.parentId (e.obj.addAssign o.obj))
        (M.bag (M.erase pool i))
      rw [hpar] at hp
      exact this.trans_le hp
    · rw [childCount_cons_of_ne (hpar ▸ hop)] at hp
      have := childCount_cons_of_ne (o := .of o.parentId (e.obj.addAssign o.obj)) hop
        (M.bag (M.erase pool i))
      exact this.trans_le hp

theorem total_of_single {pool : M.Carrier} (h : Single pool) {e : VMAccelObject VMAccelDesc}
    (he : e ∈ M.bag pool) (dim : Dim) :
    total (M.bag pool) e.parentId dim = (e.obj.capacity.comp dim).toNat := by
  obtain ⟨rest, hrest⟩ := Multiset.exists_cons_of_mem he
  have hcount := h e.parentId
  rw [hrest, childCount_cons_self] at hcount
  have hzero : childCount rest e.parentId = 0 := by omega
  rw [hrest, total_cons_self, total_eq_zero (childCount_eq_zero.mp hzero) dim, add_zero]

/-- `lower_bound` finds an element when there is one. -/
def Sees (pool : M.Carrier) (req : VMAccelObject VMAccelDesc) : Prop :=
  lookup pool req = none → ∀ e ∈ M.toList pool, Resource.cmp e req = true

theorem lookup_le {pool : M.Carrier} {p : VMAccelId} {a : VMAccelDesc} {i : ℕ}
    {e : VMAccelObject VMAccelDesc} (h : lookup pool (.of p a) = some (i, e)) :
    e ∈ M.bag pool ∧ e.parentId = p ∧ a.capacity.le e.obj.capacity = true := by
  obtain ⟨hi, hcmp⟩ := lookup_eq_some h
  have hlt : e.obj.capacity.lt a.capacity = false := (Bool.or_eq_false_iff.mp hcmp).2
  rw [VMAccelWorkloadDesc.lt_eq_not_le, Bool.not_eq_false'] at hlt
  exact ⟨M.mem_bag_of_getElem hi, Resource.parentId_eq_of_cmp hcmp, hlt⟩

theorem tryReserve_isSome_iff {pool : M.Carrier} {p : VMAccelId} {a : VMAccelDesc}
    (hsingle : Single pool) (hsees : Sees pool (.of p a)) :
    (tryReserve pool (.of p a)).isSome ↔ Admits (total (M.bag pool) p) a := by
  cases hl : lookup pool (.of p a) with
  | none =>
    rw [tryReserve, hl, Option.bind_none]
    refine iff_of_false Bool.false_ne_true ?_
    rintro ⟨hle, dim, hdim, hne⟩
    have hex : ∃ e ∈ M.bag pool, e.parentId = p := by
      by_contra hnone
      push Not at hnone
      have hzero := hle dim hdim
      rw [total_eq_zero hnone dim] at hzero
      exact hne (BitVec.eq_of_toNat_eq (Nat.le_zero.mp hzero))
    obtain ⟨e, he, rfl⟩ := hex
    have hcmp := hsees hl e (M.mem_bag.mp he)
    have hle' : a.capacity.le e.obj.capacity = true := by
      refine le_iff_compared.mpr fun dim hdim => ?_
      rw [BitVec.le_def, ← total_of_single hsingle he dim]
      exact hle dim hdim
    change (decide (e.parentId ≠ e.parentId) || e.obj.capacity.lt a.capacity) = true at hcmp
    simp [VMAccelWorkloadDesc.lt_eq_not_le, hle'] at hcmp
  | some q =>
    obtain ⟨he, hpar, -⟩ := lookup_le hl
    have htot : total (M.bag pool) p = fun dim => (q.2.obj.capacity.comp dim).toNat :=
      funext fun dim => hpar ▸ total_of_single hsingle he dim
    rw [htot, ← reserve_isSome_iff, tryReserve, hl, Option.bind_some, reserveAt]
    change _ ↔ (Resource.reserve q.2.obj (VMAccelObject.of p a).obj).isSome = true
    cases Resource.reserve q.2.obj (VMAccelObject.of p a).obj <;> exact Iff.rfl

theorem findFreed_isSome_of_le {p : VMAccelId} {a : VMAccelDesc} {pool : M.Carrier}
    {o : VMAccelObject VMAccelDesc} {rest : List (VMAccelObject VMAccelDesc)} (hop : o.parentId = p)
    (hle : Resource.le a o.obj = true) : (findFreed (.of p a) pool (o :: rest)).1.isSome ↔
      Admits (fun dim => total (M.bag pool) p dim + total (o :: rest) p dim) a := by
  have hadm : Admits (fun dim => (o.obj.capacity.comp dim).toNat) a ↔
      Admits (fun dim => total (M.bag pool) p dim + total (o :: rest) p dim) a := by
    refine ⟨fun h => h.mono fun dim _ => ?_, fun h => ⟨?_, h.2⟩⟩
    · have hcons : total (o :: rest) p dim = total {o} p dim + total rest p dim :=
        total_cons o rest p dim
      rw [total_singleton, if_pos hop] at hcons
      omega
    · exact fun dim hdim => le_iff_compared.mp hle dim hdim
  rw [findFreed_of_le (.of p a) hop hle, ← hadm, ← reserve_isSome_iff]
  change _ ↔ (Resource.reserve o.obj (VMAccelObject.of p a).obj).isSome = true
  cases Resource.reserve o.obj (VMAccelObject.of p a).obj <;> exact Iff.rfl

theorem findFreed_isSome_iff {p : VMAccelId} {a : VMAccelDesc} {pool : M.Carrier}
    {queue : List (VMAccelObject VMAccelDesc)} (hsingle : Single pool)
    (hfit : ∀ dim : Dim, dim.Compared → total (M.bag pool) p dim + total queue p dim < 2 ^ 32)
    (hsees : ∀ x ∈ searchedFreed (.of p a) pool queue, Sees x (.of p a))
    (hno : ¬ Admits (total (M.bag pool) p) a) :
    (findFreed (.of p a) pool queue).1.isSome ↔
      Admits (fun dim => total (M.bag pool) p dim + total queue p dim) a := by
  induction queue generalizing pool with
  | nil => exact iff_of_false Bool.false_ne_true hno
  | cons o rest ih =>
    have hcons : ∀ dim, total (o :: rest) p dim = total {o} p dim + total rest p dim :=
      fun dim => total_cons o rest p dim
    by_cases hop : o.parentId = p
    · by_cases hle : Resource.le a o.obj = true
      · exact findFreed_isSome_of_le hop hle
      · have hfree : ∀ dim : Dim, dim.Compared → total (M.bag (Resource.freeObj M pool o).2) p dim =
            total {o} p dim + total (M.bag pool) p dim :=
          fun dim hdim => total_freeObj_head (hop.symm ▸ hfit dim hdim) p
        rw [searchedFreed_of_not_le (.of p a) hop hle] at hsees
        have hsingle' := single_freeObj pool o hsingle
        have htry := tryReserve_isSome_iff hsingle' (hsees _ List.mem_cons_self)
        rw [findFreed_of_not_le (.of p a) hop hle]
        cases htr : tryReserve (Resource.freeObj M pool o).2 (.of p a) with
        | none =>
          rw [htr] at htry
          have hrest := ih hsingle' (fun dim hdim => ?_) (fun x hx => hsees x ?_)
            fun h => Bool.false_ne_true (htry.mpr h)
          · refine hrest.trans
              ⟨fun h => h.mono fun dim hdim => ?_, fun h => h.mono fun dim hdim => ?_⟩
            all_goals
              rw [hcons, hfree dim hdim]
              omega
          · have h1 := hfit dim hdim
            rw [hcons] at h1
            rw [hfree dim hdim]
            omega
          · refine List.mem_cons_of_mem _ ?_
            rwa [htr, Option.isSome_none, if_neg Bool.false_ne_true]
        | some dp =>
          rw [htr] at htry
          refine iff_of_true rfl ((htry.mp rfl).mono fun dim hdim => ?_)
          rw [hcons, hfree dim hdim]
          omega
    · have hskip : ∀ dim, total (o :: rest) p dim = total rest p dim :=
        fun dim => by rw [hcons, total_singleton, if_neg hop, zero_add]
      rw [searchedFreed_of_ne (.of p a) hop] at hsees
      simp only [hskip] at hfit ⊢
      rw [findFreed_of_ne _ hop]
      exact ih hsingle hfit hsees hno

theorem findFree_isSome_iff {s : VMAccelAllocator VMAccelDesc M} {p : VMAccelId} {a : VMAccelDesc}
    (hsingle : Single s.freeSet) (hfit : ∀ dim : Dim, dim.Compared → spare s p dim < 2 ^ 32)
    (hsees : s.OverlooksNothing (.alloc p a)) :
    (s.findFree (.of p a)).1.isSome ↔ Admits (spare s p) a := by
  have htry := tryReserve_isSome_iff hsingle (hsees s.freeSet List.mem_cons_self)
  cases hl : lookup s.freeSet (.of p a) with
  | none =>
    have hnone : tryReserve s.freeSet (.of p a) = none := by rw [tryReserve, hl]; rfl
    rw [hnone] at htry
    rw [findFree_of_lookup_none hl]
    refine findFreed_isSome_iff hsingle hfit (fun x hx => hsees x ?_)
      fun h => Bool.false_ne_true (htry.mpr h)
    rw [searched, hl, Option.isSome_none, if_neg Bool.false_ne_true]
    exact List.mem_cons_of_mem _ hx
  | some q =>
    obtain ⟨he, hpar, hle⟩ := lookup_le hl
    have hadm : Admits (total (M.bag s.freeSet) p) a ↔ Admits (spare s p) a := by
      refine ⟨fun h => h.mono fun dim _ => Nat.le_add_right _ _, fun h => ⟨fun dim hdim => ?_, h.2⟩⟩
      rw [← hpar, total_of_single hsingle he dim]
      exact le_iff_compared.mp hle dim hdim
    rw [← hadm, ← htry, findFree_of_lookup hl]
    cases tryReserve s.freeSet (.of p a) <;> exact Iff.rfl

structure Sound (s : VMAccelAllocator VMAccelDesc M) : Prop where
  coherent : s.Coherent
  conserved : Conserved s
  single : Single s.freeSet

theorem sound_new (num : ℕ) : Sound (new M num) where
  coherent := coherent_new num
  conserved := conserved_new num
  single p := by
    rw [show M.bag (new M num).freeSet = 0 from M.bag_empty]
    exact Nat.zero_le 1

theorem Sound.apply {deferFree : Bool} {s s' : VMAccelAllocator VMAccelDesc M}
    {c : Call VMAccelDesc} (h : Sound s) (hc : LosesNothing s c)
    (hr : s.apply deferFree c = .ok s') : Sound s' := by
  have heff := apply_effect h.coherent hr
  refine ⟨h.coherent.effect heff, (h.conserved.apply_iff h.coherent deferFree c).mpr hc s' hr, ?_⟩
  have hsearch : ∀ p a, Single (s.findFree (.of p a)).2.1 :=
    findFree_closed single_freeObj single_erase h.single
  cases heff with
  | unchanged => exact h.single
  | enrolled => exact single_freeObj _ _ h.single
  | withdrawn =>
    intro p
    change childCount (M.bag (M.eraseIf _ (coalesceFrom s.freeSet s.freed))) p ≤ 1
    rw [M.bag_eraseIf]
    exact (Multiset.countP_le_of_le _ (Multiset.filter_le _ _)).trans
      (coalesceFrom_closed single_freeObj h.single s.freed p)
  | refused => exact h.single
  | @missed p a pool queue hfree hfind =>
    have hpool := hsearch p a
    rw [hfind] at hpool
    exact hpool
  | @granted p a k d pool queue hfree hk hff hfind =>
    have hpool := hsearch p a
    rw [hfind] at hpool
    exact hpool
  | freed =>
    cases deferFree with
    | true => exact h.single
    | false => exact coalesceFrom_closed single_freeObj h.single _

theorem Sound.spare_search {s t : VMAccelAllocator VMAccelDesc M} (h : Sound s) {p : VMAccelId}
    {a : VMAccelDesc} (hlose : LosesNothing s (.alloc p a)) (hfree : s.externalIds.free ≠ 0)
    (ht : (t.freeSet, t.freed) = (s.findFree (.of p a)).2) (q : VMAccelId) {dim : Dim}
    (hdim : dim.Compared) :
    spare s q dim = spare t q dim + total (s.findFree (.of p a)).1.toList q dim := by
  have hsplit := VMAccel.spare_search hdim (h.conserved.spare_lt h.coherent hdim p) ht q
  have hzero : total (s.drops (.of p a)) q dim = 0 := by
    refine Multiset.sum_eq_zero fun x hx => ?_
    obtain ⟨o, ho, rfl⟩ := Multiset.mem_map.mp hx
    rw [hlose hfree o (Multiset.mem_coe.mp (Multiset.mem_filter.mp ho).1) dim hdim]
    rfl
  omega

def Alike (o o' : VMAccelObject VMAccelDesc) : Prop :=
  o'.parentId = o.parentId ∧ o'.obj.capacity = o.obj.capacity

theorem Alike.total_eq {o o' : VMAccelObject VMAccelDesc} (h : Alike o o') (q : VMAccelId)
    (dim : Dim) : total {o'} q dim = total {o} q dim := by
  rw [total_singleton, total_singleton, h.1, h.2]

structure Lockstep (s t : VMAccelAllocator VMAccelDesc M) : Prop where
  registeredIds : t.registeredIds = s.registeredIds
  externalIds : t.externalIds = s.externalIds
  refCount : t.refCount = s.refCount
  objects : ∀ k, Alike (s.objectAt k) (t.objectAt k)
  spare : ∀ q (dim : Dim), dim.Compared → spare t q dim = spare s q dim

theorem objectAt_set {s : VMAccelAllocator VMAccelDesc M} {l : List (VMAccelObject VMAccelDesc)}
    {k : ℕ} {d : VMAccelObject VMAccelDesc} (hs : s.allocated = l.set k d) (hk : k < l.length)
    (j : ℕ) : s.objectAt j = if j = k then d else l[j]?.getD (.of invalidId Resource.default) := by
  rw [objectAt, hs]
  split_ifs with hj
  · rw [hj, List.getElem?_set_self hk]
    rfl
  · rw [List.getElem?_set_ne (Ne.symm hj)]

section Lockstep

variable {s t : VMAccelAllocator VMAccelDesc M} {deferFree : Bool}

theorem Lockstep.objects_set (h : Lockstep s t) {s' t' : VMAccelAllocator VMAccelDesc M} {k : ℕ}
    {d e : VMAccelObject VMAccelDesc} (hs : s'.allocated = s.allocated.set k d)
    (ht : t'.allocated = t.allocated.set k e) (hks : k < s.allocated.length)
    (hkt : k < t.allocated.length) (hd : Alike d e) (j : ℕ) :
    Alike (s'.objectAt j) (t'.objectAt j) := by
  rw [objectAt_set hs hks, objectAt_set ht hkt]
  split_ifs
  · exact hd
  · exact h.objects j

theorem Lockstep.register (h : Lockstep s t) (hs : Sound s) (ht : Sound t) {a : VMAccelDesc}
    {r : VMAccelAllocateStatus × VMAccelAllocator VMAccelDesc M} (hr : s.register a = .ok r) :
    ∃ r', t.register a = .ok r' ∧ Lockstep r.2 r'.2 := by
  obtain ⟨ids, hids, hrest⟩ := bind_eq_ok.mp hr
  rcases allocId_ok hids with ⟨hfree, rfl⟩ | ⟨hfree, k, hk, hff, rfl⟩
  · have hids' : t.registeredIds.allocId = .ok (none, t.registeredIds) :=
      if_pos (h.registeredIds ▸ hfree)
    cases hrest
    exact ⟨(⟨0, .fail⟩, t), by rw [VMAccelAllocator.register, hids']; rfl, h⟩
  · have hlt := hff.lt_size hs.coherent.base.registeredIds hfree
    have hids' : t.registeredIds.allocId =
        .ok (some (BitVec.ofNat 32 k), t.registeredIds.take k) := by rwa [h.registeredIds]
    have hidle := not_active_of_bit hlt hff.1
    rw [register_of_allocId hs.coherent.base hids hlt] at hr
    cases hr
    refine ⟨_, register_of_allocId ht.coherent.base hids' (by rwa [h.registeredIds]) a,
      congrArg (·.take k) h.registeredIds, h.externalIds, congrArg (·.set k 0) h.refCount,
      h.objects, fun q dim hdim => ?_⟩
    rw [spare_enroll (totals_of_not_active hs.coherent hidle dim).1,
      spare_enroll (totals_of_not_active ht.coherent (h.registeredIds.symm ▸ hidle) dim).1,
      h.spare q dim hdim]

theorem Lockstep.unregister (h : Lockstep s t) (hs : Sound s) (ht : Sound t) {id : VMAccelId}
    {r : StatusCode × VMAccelAllocator VMAccelDesc M} (hr : s.unregister id = .ok r) :
    ∃ r', t.unregister id = .ok r' ∧ Lockstep r.2 r'.2 := by
  obtain ⟨n, hn, hrest⟩ := bind_eq_ok.mp hr
  rw [VMAccelAllocator.unregister, h.refCount, hn, ok_bind]
  by_cases hne : n ≠ 0
  · rw [if_pos hne] at hrest ⊢
    cases hrest
    exact ⟨_, rfl, h⟩
  · rw [if_neg hne] at hrest ⊢
    obtain ⟨ids, hids, hrest⟩ := bind_eq_ok.mp hrest
    have hids' : t.coalesceFreed.registeredIds.releaseId id = .ok ids := by
      rw [← hids]
      exact congrArg (·.releaseId id) h.registeredIds
    cases hrest
    refine ⟨(.success, t.coalesceFreed.withdraw id ids), bind_eq_ok.mpr ⟨ids, hids', rfl⟩, rfl,
      h.externalIds, h.refCount, h.objects, fun q dim hdim => ?_⟩
    change VMAccel.spare (s := t.coalesceFreed.withdraw id ids) q dim =
      VMAccel.spare (s := s.coalesceFreed.withdraw id ids) q dim
    rw [spare_withdraw (hs.conserved.spare_lt hs.coherent hdim),
      spare_withdraw (ht.conserved.spare_lt ht.coherent hdim), h.spare q dim hdim]

theorem Lockstep.free (h : Lockstep s t) (deferFree' : Bool) (hs : Sound s) (ht : Sound t)
    {id : VMAccelId} {r : StatusCode × VMAccelAllocator VMAccelDesc M}
    (hr : s.free deferFree id = .ok r) :
    ∃ r', t.free deferFree' id = .ok r' ∧ Lockstep r.2 r'.2 := by
  have hact := free_active hr
  have hact' : t.externalIds.Active id := h.externalIds.symm ▸ hact
  have hobj := h.objects id.toNat
  have hmem : ∀ {u : VMAccelAllocator VMAccelDesc M}, u.externalIds.Active id →
      u.objectAt id.toNat ∈ u.live := by
    intro u hu
    rw [live_reclaim hu.1 hu.2 (u.objectAt id.toNat)]
    exact Multiset.mem_cons_self _ _
  rw [free_stocks hs.coherent.base deferFree hact] at hr
  cases hr
  refine ⟨_, free_stocks ht.coherent.base deferFree' hact', h.registeredIds,
    congrArg (·.give id.toNat) h.externalIds, ?_, ?_, fun q dim hdim => ?_⟩
  · change t.refCount.modify _ _ = s.refCount.modify _ _
    rw [h.refCount, hobj.1]
  · refine h.objects_set (k := id.toNat) (d := .of invalidId Resource.default)
      (e := .of invalidId Resource.default) rfl rfl ?_ ?_ ⟨rfl, rfl⟩
    · exact Nat.lt_of_lt_of_le (BitVec.lt_def.mp hact.1) hs.coherent.base.length_allocated
    · exact Nat.lt_of_lt_of_le (BitVec.lt_def.mp hact'.1) ht.coherent.base.length_allocated
  · rw [spare_reclaim deferFree (hs.conserved.fits_live hs.coherent hdim (hmem hact)),
      spare_reclaim deferFree' (ht.conserved.fits_live ht.coherent hdim (hmem hact')),
      h.spare q dim hdim, hobj.total_eq]

/-- `Alloc` succeeds. -/
def Grants (s : VMAccelAllocator VMAccelDesc M) (p : VMAccelId) (a : VMAccelDesc) : Prop :=
  ∃ r, s.alloc p a = .ok r ∧ r.1.1.status = .success

theorem Lockstep.admits_iff (h : Lockstep s t) {p : VMAccelId} {a : VMAccelDesc} :
    Admits (VMAccel.spare t p) a ↔ Admits (VMAccel.spare s p) a :=
  ⟨fun ha => ha.mono fun dim hdim => (h.spare p dim hdim).le,
    fun ha => ha.mono fun dim hdim => (h.spare p dim hdim).ge⟩

theorem Lockstep.findFree_isSome_iff (h : Lockstep s t) (hs : Sound s) (ht : Sound t)
    {p : VMAccelId} {a : VMAccelDesc} (hsees : s.OverlooksNothing (.alloc p a))
    (htees : t.OverlooksNothing (.alloc p a)) :
    (t.findFree (.of p a)).1.isSome ↔ (s.findFree (.of p a)).1.isSome := by
  rw [VMAccel.findFree_isSome_iff hs.single
      (fun dim hdim => hs.conserved.spare_lt hs.coherent hdim p) hsees,
    VMAccel.findFree_isSome_iff ht.single
      (fun dim hdim => ht.conserved.spare_lt ht.coherent hdim p) htees, h.admits_iff]

theorem overlooksNothing_of_found (hnil : s.freed = []) {p : VMAccelId} {a : VMAccelDesc}
    (hfound : (s.findFree (.of p a)).1.isSome) : s.OverlooksNothing (.alloc p a) := by
  have hl : (lookup s.freeSet (.of p a)).isSome := by
    by_contra hnone
    rw [findFree_of_lookup_none (Option.not_isSome_iff_eq_none.mp hnone), hnil] at hfound
    cases hfound
  intro pool hpool hnone
  rw [searched, if_pos hl, List.mem_singleton] at hpool
  rw [← hpool, hnone] at hl
  cases hl

/-- Neither drops nor overlooks anything. -/
def Faithful (s : VMAccelAllocator VMAccelDesc M) (c : Call VMAccelDesc) : Prop :=
  LosesNothing s c ∧ s.OverlooksNothing c

instance (s : VMAccelAllocator VMAccelDesc M) (c : Call VMAccelDesc) : Decidable (Faithful s c) :=
  inferInstanceAs (Decidable (_ ∧ _))

theorem found_capacity {p : VMAccelId} {a : VMAccelDesc} {d : VMAccelObject VMAccelDesc}
    {pool : M.Carrier} {queue : List (VMAccelObject VMAccelDesc)} (hco : s.Coherent)
    (hfind : s.findFree (.of p a) = (some d, pool, queue)) :
    d.parentId = p ∧ s.registeredIds.Active p ∧ d.obj.capacity = a.capacity := by
  obtain ⟨e, r, hres⟩ := findFree_reserves hfind
  obtain ⟨hdp, hact⟩ := (hco.parented p a).found d (by rw [hfind])
  exact ⟨hdp, hact, (VMAccelDesc.reserve_eq_some hres).2.1⟩

theorem Lockstep.spare_search (h : Lockstep s t) (hs : Sound s) (ht : Sound t) {p : VMAccelId}
    {a : VMAccelDesc} (hsl : LosesNothing s (.alloc p a)) (htl : LosesNothing t (.alloc p a))
    (hfree : s.externalIds.free ≠ 0) {s' t' : VMAccelAllocator VMAccelDesc M}
    (hs' : (s'.freeSet, s'.freed) = (s.findFree (.of p a)).2)
    (ht' : (t'.freeSet, t'.freed) = (t.findFree (.of p a)).2) (q : VMAccelId) {dim : Dim}
    (hdim : dim.Compared) (hfound : total (t.findFree (.of p a)).1.toList q dim =
      total (s.findFree (.of p a)).1.toList q dim) :
    VMAccel.spare t' q dim = VMAccel.spare s' q dim := by
  have hspare := hs.spare_search hsl hfree hs' q hdim
  have hspare' := ht.spare_search htl (by rwa [h.externalIds]) ht' q hdim
  have hsame := h.spare q dim hdim
  rw [hspare', hspare, hfound] at hsame
  exact Nat.add_right_cancel hsame

theorem Lockstep.alloc_missing (h : Lockstep s t) (hs : Sound s) (ht : Sound t) {p : VMAccelId}
    {a : VMAccelDesc} (hsl : LosesNothing s (.alloc p a)) (htl : LosesNothing t (.alloc p a))
    (hfree : s.externalIds.free ≠ 0) {pool pool' : M.Carrier}
    {queue queue' : List (VMAccelObject VMAccelDesc)}
    (hfs : s.findFree (.of p a) = (none, pool, queue))
    (hft : t.findFree (.of p a) = (none, pool', queue')) :
    Lockstep ((s.refuse .resourceUnavailable).restock pool queue)
      ((t.refuse .resourceUnavailable).restock pool' queue') := by
  refine ⟨h.registeredIds, h.externalIds, h.refCount, h.objects, fun q dim hdim => ?_⟩
  refine h.spare_search hs ht hsl htl hfree (by rw [hfs]; rfl) (by rw [hft]; rfl) q hdim ?_
  rw [hfs, hft]

theorem Lockstep.alloc_found (h : Lockstep s t) (hs : Sound s) (ht : Sound t) {p : VMAccelId}
    {a : VMAccelDesc} (hsl : LosesNothing s (.alloc p a)) (htl : LosesNothing t (.alloc p a))
    (hfree : s.externalIds.free ≠ 0) {d d' : VMAccelObject VMAccelDesc} {pool pool' : M.Carrier}
    {queue queue' : List (VMAccelObject VMAccelDesc)}
    (hfs : s.findFree (.of p a) = (some d, pool, queue))
    (hft : t.findFree (.of p a) = (some d', pool', queue')) (halike : Alike d d') {k : ℕ}
    (hlt : k < s.externalIds.size.toNat) :
    Lockstep ((s.grant k d pool).restock pool queue)
      ((t.grant k d' pool').restock pool' queue') := by
  have hlt' : k < t.externalIds.size.toNat := by rwa [h.externalIds]
  refine ⟨h.registeredIds, congrArg (·.take k) h.externalIds, ?_, ?_, fun q dim hdim => ?_⟩
  · change t.refCount.modify _ _ = s.refCount.modify _ _
    rw [h.refCount, halike.1]
  · exact h.objects_set (k := k) rfl rfl (hlt.trans_le hs.coherent.base.length_allocated)
      (hlt'.trans_le ht.coherent.base.length_allocated) halike
  · refine h.spare_search hs ht hsl htl hfree (by rw [hfs]; rfl) (by rw [hft]; rfl) q hdim ?_
    rw [hfs, hft]
    exact halike.total_eq q dim

theorem Lockstep.alloc (h : Lockstep s t) (hs : Sound s) (ht : Sound t) {p : VMAccelId}
    {a : VMAccelDesc} (hsf : Faithful s (.alloc p a)) (htf : Faithful t (.alloc p a))
    {r : (VMAccelAllocateStatus × Option VMAccelDesc) × VMAccelAllocator VMAccelDesc M}
    (hr : s.alloc p a = .ok r) : ∃ r', t.alloc p a = .ok r' ∧ Lockstep r.2 r'.2 := by
  obtain ⟨ids, hids, hrest⟩ := bind_eq_ok.mp hr
  rcases allocId_ok hids with ⟨hfree, rfl⟩ | ⟨hfree, k, hk, hff, rfl⟩
  · have hids' : t.externalIds.allocId = .ok (none, t.externalIds) :=
      if_pos (h.externalIds ▸ hfree)
    cases hrest
    exact ⟨((⟨t.allocResult.id, .fail⟩, none), t.refuse .fail),
      by rw [VMAccelAllocator.alloc, hids']; rfl, h.registeredIds, h.externalIds, h.refCount,
      h.objects, h.spare⟩
  · have hlt := hff.lt_size hs.coherent.base.externalIds hfree
    have hids' : t.externalIds.allocId =
        .ok (some (BitVec.ofNat 32 k), t.externalIds.take k) := by rwa [h.externalIds]
    have hlt' : k < t.externalIds.size.toNat := by rwa [h.externalIds]
    have hiff := h.findFree_isSome_iff hs ht hsf.2 htf.2
    rcases hfs : s.findFree (.of p a) with ⟨_ | d, pool, queue⟩ <;>
      rcases hft : t.findFree (.of p a) with ⟨_ | d', pool', queue'⟩ <;> rw [hfs, hft] at hiff
    · rw [alloc_of_missing hids hk hff.1 hlt hfs] at hr
      cases hr
      have hk' : k / 32 < t.externalIds.bits.length := by rwa [h.externalIds]
      have hbit : t.externalIds.bit k = false := by rw [h.externalIds]; exact hff.1
      exact ⟨_, alloc_of_missing hids' hk' hbit hlt' hft,
        h.alloc_missing hs ht hsf.1 htf.1 hfree hfs hft⟩
    · exact absurd (hiff.mp rfl) Bool.false_ne_true
    · exact absurd (hiff.mpr rfl) Bool.false_ne_true
    · obtain ⟨hdp, hact, hcap⟩ := found_capacity hs.coherent hfs
      obtain ⟨hdp', hact', hcap'⟩ := found_capacity ht.coherent hft
      rw [alloc_of_found hs.coherent.base hids hlt hfs (hdp.symm ▸ hact)] at hr
      cases hr
      exact ⟨_, alloc_of_found ht.coherent.base hids' hlt' hft (hdp'.symm ▸ hact'),
        h.alloc_found hs ht hsf.1 htf.1 hfree hfs hft
          ⟨hdp'.trans hdp.symm, hcap'.trans hcap.symm⟩ hlt⟩

theorem Lockstep.apply (h : Lockstep s t) (deferFree' : Bool) (hs : Sound s) (ht : Sound t)
    {c : Call VMAccelDesc} (hsf : Faithful s c) (htf : Faithful t c)
    {s' : VMAccelAllocator VMAccelDesc M} (hr : s.apply deferFree c = .ok s') :
    ∃ t', t.apply deferFree' c = .ok t' ∧ Lockstep s' t' := by
  cases c with
  | register a =>
    obtain ⟨r, hcall, rfl⟩ := bind_snd_eq_ok.mp hr
    obtain ⟨r', hr', hl⟩ := h.register hs ht hcall
    exact ⟨r'.2, bind_eq_ok.mpr ⟨r', hr', rfl⟩, hl⟩
  | unregister id =>
    obtain ⟨r, hcall, rfl⟩ := bind_snd_eq_ok.mp hr
    obtain ⟨r', hr', hl⟩ := h.unregister hs ht hcall
    exact ⟨r'.2, bind_eq_ok.mpr ⟨r', hr', rfl⟩, hl⟩
  | alloc p a =>
    obtain ⟨r, hcall, rfl⟩ := bind_snd_eq_ok.mp hr
    obtain ⟨r', hr', hl⟩ := h.alloc hs ht hsf htf hcall
    exact ⟨r'.2, bind_eq_ok.mpr ⟨r', hr', rfl⟩, hl⟩
  | free id =>
    obtain ⟨r, hcall, rfl⟩ := bind_snd_eq_ok.mp hr
    obtain ⟨r', hr', hl⟩ := h.free deferFree' hs ht hcall
    exact ⟨r'.2, bind_eq_ok.mpr ⟨r', hr', rfl⟩, hl⟩

theorem Lockstep.grants (h : Lockstep s t) (hs : Sound s) (ht : Sound t) (hnil : s.freed = [])
    {p : VMAccelId} {a : VMAccelDesc} (htees : t.OverlooksNothing (.alloc p a))
    (hgrant : Grants s p a) : Grants t p a := by
  obtain ⟨r, hr, hstatus⟩ := hgrant
  obtain ⟨ids, hids, -⟩ := bind_eq_ok.mp hr
  rcases hs.coherent.alloc_ok hr with ⟨-, rfl⟩ | ⟨hfree, ⟨pool, queue, -, rfl⟩ |
    ⟨k, d, pool, queue, hk, hff, hfs, rfl⟩⟩
  · cases hstatus
  · cases hstatus
  · have hsome : (s.findFree (.of p a)).1.isSome := by rw [hfs]; rfl
    have hsome' :=
      (h.findFree_isSome_iff hs ht (overlooksNothing_of_found hnil hsome) htees).mpr hsome
    rcases allocId_ok hids with ⟨h0, -⟩ | ⟨-, j, hj, hjf, rfl⟩
    · exact absurd h0 hfree
    · have hids' : t.externalIds.allocId =
          .ok (some (BitVec.ofNat 32 j), t.externalIds.take j) := by rwa [h.externalIds]
      have hlt : j < t.externalIds.size.toNat := by
        rw [h.externalIds]
        exact hjf.lt_size hs.coherent.base.externalIds hfree
      rcases hft : t.findFree (.of p a) with ⟨_ | d', pool', queue'⟩
      · rw [hft] at hsome'
        cases hsome'
      · obtain ⟨hdp, hact, -⟩ := found_capacity ht.coherent hft
        exact ⟨_, alloc_of_found ht.coherent.base hids' hlt hft (hdp.symm ▸ hact), rfl⟩

end Lockstep

/-- Deferred free loses nothing exactly when no `Alloc` drops any of a compared component, and
then, with nothing overlooked, grants what the immediate build grants after the same calls. -/
theorem deferred_free_iff (M : OrderedMultiset (VMAccelObject VMAccelDesc) Resource.cmp) (num : ℕ)
    (cs : List (Call VMAccelDesc)) :
    (EachInput (apply true) (fun t c => ∀ t', t.apply true c = .ok t' → Conserved t')
        (new M num) cs ↔ EachInput (apply true) LosesNothing (new M num) cs) ∧
    ∀ s, run (apply false) (new M num) cs = .ok s →
      EachInput (apply false) Faithful (new M num) cs →
      EachInput (apply true) Faithful (new M num) cs →
      ∃ t, run (apply true) (new M num) cs = .ok t ∧
        ∀ p a, t.OverlooksNothing (.alloc p a) → Grants s p a → Grants t p a := by
  constructor
  · exact eachInput_iff (I := Sound) (fun t c h => h.conserved.apply_iff h.coherent true c)
      (fun t c t' h hc hr => h.apply hc hr) (sound_new num)
  · intro s hrun hsf htf
    have hnil := (wellFormed_of_run hrun).freed
    obtain ⟨t, ht, hs, htsound, hl⟩ := run_simulates
      (R := fun s t : VMAccelAllocator VMAccelDesc M => Sound s ∧ Sound t ∧ Lockstep s t)
      (fun s t c s' h hsc htc hr => by
        obtain ⟨t', ht', hl'⟩ := h.2.2.apply true h.1 h.2.1 hsc htc hr
        exact ⟨t', ht', h.1.apply hsc.1 hr, h.2.1.apply htc.1 ht', hl'⟩)
      ⟨sound_new num, sound_new num, rfl, rfl, rfl, fun _ => ⟨rfl, rfl⟩, fun _ _ _ => rfl⟩
      hsf htf hrun
    exact ⟨t, ht, fun p a htees => hl.grants hs htsound hnil htees⟩

/-- A resource that is partly allocated and freed can be allocated whole again. -/
theorem deferred_free_demo :
    EachInput (apply true) (fun t c => ∀ t', t.apply true c = .ok t' → Conserved t')
      (new DescTree 1) [.register (flopsDesc 4), .alloc 0 (flopsDesc 3), .free 0] ∧
    ∃ t, run (apply true) (new DescTree 1)
        [.register (flopsDesc 4), .alloc 0 (flopsDesc 3), .free 0] = .ok t ∧
      Grants t 0 (flopsDesc 4) := by
  have himm : ∃ s, run (apply false) (new DescTree 1)
      [.register (flopsDesc 4), .alloc 0 (flopsDesc 3), .free 0] = .ok s ∧
        (s.alloc 0 (flopsDesc 4)).map (·.1.1.status) = .ok .success := by decide +kernel
  have hdef : ∃ t, run (apply true) (new DescTree 1)
      [.register (flopsDesc 4), .alloc 0 (flopsDesc 3), .free 0] = .ok t ∧
        t.OverlooksNothing (.alloc 0 (flopsDesc 4)) := by decide +kernel
  obtain ⟨s, hs, hstatus⟩ := himm
  obtain ⟨t, ht, htees⟩ := hdef
  obtain ⟨hiff, hsim⟩ := deferred_free_iff DescTree 1
    [.register (flopsDesc 4), .alloc 0 (flopsDesc 3), .free 0]
  obtain ⟨u, hu, hgrants⟩ := hsim s hs (by decide +kernel) (by decide +kernel)
  obtain rfl : u = t := Except.ok.inj (hu.symm.trans ht)
  refine ⟨hiff.mpr (by decide +kernel), u, hu, hgrants 0 (flopsDesc 4) htees ?_⟩
  exact map_eq_ok.mp hstatus

/-- The queued part of one resource is dropped by a refused request to another one, and a whole
resource by a request for nothing, after which only the immediate build can allocate it. -/
theorem deferred_free_drops :
    (∃ t, run (apply true) (new DescTree 2) [.register (flopsDesc 4), .register (flopsDesc 4),
        .alloc 0 (flopsDesc 3), .free 0, .alloc 1 (flopsDesc 5)] = .ok t ∧
      total (DescTree.bag t.freeSet) 0 .megaFlops = 1 ∧ t.freed = [] ∧ t.live = 0 ∧
      ¬ Conserved t) ∧
    ∃ s t, run (apply false) (new DescTree 1) [.register (flopsDesc 4), .alloc 0 (flopsDesc 4),
        .free 0, .alloc 0 (flopsDesc 0)] = .ok s ∧
      run (apply true) (new DescTree 1) [.register (flopsDesc 4), .alloc 0 (flopsDesc 4),
        .free 0, .alloc 0 (flopsDesc 0)] = .ok t ∧
      (s.alloc 0 (flopsDesc 4)).map (·.1.1.status) = .ok .success ∧
      (t.alloc 0 (flopsDesc 4)).map (·.1.1.status) = .ok .resourceUnavailable := by
  have hdrop : ∃ t, run (apply true) (new DescTree 2) [.register (flopsDesc 4),
      .register (flopsDesc 4), .alloc 0 (flopsDesc 3), .free 0, .alloc 1 (flopsDesc 5)] = .ok t ∧
        t.registeredIds.Active 0 ∧ t.registered[0]? = some (flopsDesc 4) ∧
        total (DescTree.bag t.freeSet) 0 .megaFlops = 1 ∧ t.freed = [] ∧ t.live = 0 := by
    decide +kernel
  have himm : ∃ s, run (apply false) (new DescTree 1) [.register (flopsDesc 4),
      .alloc 0 (flopsDesc 4), .free 0, .alloc 0 (flopsDesc 0)] = .ok s ∧
        (s.alloc 0 (flopsDesc 4)).map (·.1.1.status) = .ok .success := by decide +kernel
  have hdef : ∃ t, run (apply true) (new DescTree 1) [.register (flopsDesc 4),
      .alloc 0 (flopsDesc 4), .free 0, .alloc 0 (flopsDesc 0)] = .ok t ∧
        (t.alloc 0 (flopsDesc 4)).map (·.1.1.status) = .ok .resourceUnavailable := by decide +kernel
  obtain ⟨s, hs, hsuccess⟩ := himm
  obtain ⟨t, ht, hrefused⟩ := hdef
  refine ⟨?_, s, t, hs, ht, hsuccess, hrefused⟩
  obtain ⟨u, hu, hact, hreg, hpool, hfreed, hlive⟩ := hdrop
  refine ⟨u, hu, hpool, hfreed, hlive, fun hcons => ?_⟩
  have hsum := hcons 0 (flopsDesc 4) hact hreg .megaFlops trivial
  rw [hpool, hfreed, hlive] at hsum
  exact absurd hsum (by decide)

end VMAccel
