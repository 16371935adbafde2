import VMAccel.AllocatorLedger
import VMAccel.Desc

/-!
# Finding a registered accelerator

With the free set a search tree, descriptors of different parents compare below each other in
both directions. Registrations therefore build a left spine with the first one at the root, and
a lookup for any other parent turns right at the root and finds nothing.
-/

namespace VMAccel

open StepSystem IdentifierDB VMAccelAllocator SearchTree

abbrev DescTree := SearchTree.multiset (Resource.cmp (T := VMAccelDesc))

def enrolledObjects (ds : List VMAccelDesc) : List (VMAccelObject VMAccelDesc) :=
  ds.mapIdx fun i d => .of (BitVec.ofNat 32 i) d

structure Enrolled (size : BitVec 32) (ds : List VMAccelDesc)
    (s : VMAccelAllocator VMAccelDesc DescTree) : Prop where
  wellFormed : s.WellFormed
  size_eq : s.registeredIds.size = size
  externalIds : s.externalIds = .alloc size
  bit : ∀ j, s.registeredIds.bit j = decide (j < ds.length)
  registered : ∀ j < ds.length, s.registered[j]? = ds[j]?
  freeSet : s.freeSet = leftSpine (enrolledObjects ds)
  length_le : ds.length ≤ size.toNat

theorem enrolled_new (num : ℕ) : Enrolled (BitVec.ofNat 32 num) [] (new DescTree num) where
  wellFormed := wellFormed_new num
  size_eq := rfl
  externalIds := rfl
  bit j := bit_alloc _ j
  registered j hj := absurd hj (Nat.not_lt_zero j)
  freeSet := rfl
  length_le := Nat.zero_le _

theorem parentId_enrolledObjects {ds : List VMAccelDesc} {o : VMAccelObject VMAccelDesc}
    (ho : o ∈ enrolledObjects ds) : ∃ j < ds.length, o.parentId = BitVec.ofNat 32 j := by
  obtain ⟨j, hj, rfl⟩ := List.mem_mapIdx.mp ho
  exact ⟨j, hj, rfl⟩

theorem ofNat_ne_of_lt {i j : ℕ} (hi : i < 2 ^ 32) (hj : j < 2 ^ 32) (h : i ≠ j) :
    BitVec.ofNat 32 i ≠ BitVec.ofNat 32 j := by
  intro he
  have := congrArg BitVec.toNat he
  rw [BitVec.toNat_ofNat, BitVec.toNat_ofNat, Nat.mod_eq_of_lt hi, Nat.mod_eq_of_lt hj] at this
  exact h this

variable {size : BitVec 32} {ds : List VMAccelDesc} {s : VMAccelAllocator VMAccelDesc DescTree}

theorem Enrolled.firstFree (h : Enrolled size ds s) {k : ℕ}
    (hk : s.registeredIds.FirstFree k) : k = ds.length := by
  have h1 : ¬ k < ds.length := of_decide_eq_false ((h.bit k).symm.trans hk.1)
  have h2 : ¬ ds.length < k := by
    intro hlt
    have := hk.2 ds.length hlt
    rw [h.bit] at this
    exact lt_irrefl _ (of_decide_eq_true this)
  omega

theorem Enrolled.length_eq_of_full (h : Enrolled size ds s) (hfree : s.registeredIds.free = 0) :
    ds.length = size.toNat := by
  have hsum := h.wellFormed.registeredIds.free_add_popCount
  have hact : s.registeredIds.activeIds = Finset.range ds.length := by
    ext i
    have := h.length_le
    rw [mem_activeIds, Finset.mem_range, h.bit, decide_eq_true_iff, h.size_eq]
    omega
  rw [popCount, ← h.wellFormed.registeredIds.activeIds_eq, hact, Finset.card_range, hfree,
    h.size_eq] at hsum
  exact (Nat.zero_add _).symm.trans hsum

theorem Enrolled.enroll (h : Enrolled size ds s) (hfree : s.registeredIds.free ≠ 0)
    (hk : ds.length / 32 < s.registeredIds.bits.length)
    (hff : s.registeredIds.FirstFree ds.length) (d : VMAccelDesc) :
    Enrolled size (ds ++ [d]) (s.enroll ds.length d) := by
  have hlt := hff.lt_size h.wellFormed.registeredIds hfree
  have hlt' : ds.length < size.toNat := h.size_eq ▸ hlt
  have hbound := size.isLt
  refine ⟨h.wellFormed.enroll hk hff.1 hlt hfree d, h.size_eq, h.externalIds, fun j => ?_,
    fun j hj => ?_, ?_, ?_⟩
  · change (s.registeredIds.take ds.length).bit j = _
    rw [bit_take hk, h.bit, List.length_append, List.length_singleton, ← Bool.decide_or]
    exact decide_eq_decide.mpr (by omega)
  · change (s.registered.set ds.length d)[j]? = _
    rw [List.length_append, List.length_singleton] at hj
    by_cases hjl : j = ds.length
    · have hlen := h.wellFormed.length_registered
      rw [hjl, List.getElem?_set_self (by omega), List.getElem?_append_right le_rfl, Nat.sub_self]
      rfl
    · rw [List.getElem?_set_ne (Ne.symm hjl), List.getElem?_append_left (by omega),
        h.registered j (by omega)]
  · have hnone : ∀ e ∈ enrolledObjects ds, e.parentId ≠ BitVec.ofNat 32 ds.length := by
      intro e he
      obtain ⟨j, hj, hpar⟩ := parentId_enrolledObjects he
      rw [hpar]
      exact ofNat_ne_of_lt (by omega) (by omega) (by omega)
    have hins : insert Resource.cmp (.of (BitVec.ofNat 32 ds.length) d)
        (leftSpine (enrolledObjects ds)) = leftSpine (enrolledObjects (ds ++ [d])) := by
      rw [insert_leftSpine fun e he => Resource.cmp_of_parents_ne (hnone e he).symm,
        enrolledObjects, enrolledObjects, List.mapIdx_concat]
    change (VMAccelDesc.freeObj DescTree s.freeSet (.of (BitVec.ofNat 32 ds.length) d)).2 = _
    rcases VMAccelDesc.freeObj_cases s.freeSet (.of (BitVec.ofNat 32 ds.length) d) with
      ⟨-, heq⟩ | ⟨e, i, hi, hpar, -⟩
    · rw [heq, h.freeSet]
      exact hins
    · have hmem : e ∈ inorder s.freeSet := List.mem_of_getElem? hi
      rw [h.freeSet, inorder_leftSpine, List.mem_reverse] at hmem
      exact absurd hpar (hnone e hmem)
  · rw [List.length_append, List.length_singleton]
    omega

theorem Enrolled.register (h : Enrolled size ds s) {d : VMAccelDesc}
    {r : VMAccelAllocateStatus × VMAccelAllocator VMAccelDesc DescTree}
    (hr : s.register d = .ok r) : Enrolled size ((ds ++ [d]).take size.toNat) r.2 := by
  have hle := h.length_le
  rcases register_ok h.wellFormed.unqueued hr with ⟨hfree, rfl⟩ | ⟨k, hfree, hk, hff, rfl⟩
  · have hfull := h.length_eq_of_full hfree
    rwa [← hfull, List.take_left]
  · obtain rfl := h.firstFree hff
    have hlt := hff.lt_size h.wellFormed.registeredIds hfree
    rw [h.size_eq] at hlt
    rw [List.take_of_length_le (by rw [List.length_append, List.length_singleton]; omega)]
    exact h.enroll hfree hk hff d

theorem Enrolled.run {t : VMAccelAllocator VMAccelDesc DescTree} {added : List VMAccelDesc}
    (h : Enrolled size ds s) (hrun : run (apply false) s (added.map .register) = .ok t) :
    Enrolled size ((ds ++ added).take size.toNat) t := by
  induction added generalizing s ds with
  | nil =>
    cases hrun
    rwa [List.append_nil, List.take_of_length_le h.length_le]
  | cons d added ih =>
    obtain ⟨s', hs, hrest⟩ := run_cons_ok.mp hrun
    obtain ⟨r, hr, rfl⟩ := bind_snd_eq_ok.mp hs
    have hnext := ih (h.register hr) hrest
    have htake : ((ds ++ [d]).take size.toNat ++ added).take size.toNat =
        (ds ++ d :: added).take size.toNat := by
      rw [List.append_cons ds d added]
      by_cases hlen : (ds ++ [d]).length ≤ size.toNat
      · rw [List.take_of_length_le hlen]
      · have hcut : size.toNat ≤ ((ds ++ [d]).take size.toNat).length := by
          rw [List.length_take]
          omega
        rw [List.take_append_of_le_length hcut, List.take_take, min_self]
        exact (List.take_append_of_le_length (le_of_not_ge hlen)).symm
    rwa [htake] at hnext

theorem lt_of_le {v w : VMAccelWorkloadDesc} (h : v.le w = true) : w.lt v = false := by
  rw [VMAccelWorkloadDesc.lt_eq_not_le, h, Bool.not_true]

theorem sub_lt_self {x y : BitVec 32} (hle : y ≤ x) (hy : y ≠ 0) : x - y < x := by
  have hpos : 0 < y.toNat := Nat.pos_of_ne_zero fun h0 => hy (BitVec.eq_of_toNat_eq h0)
  have hle' : y.toNat ≤ x.toNat := hle
  rw [BitVec.lt_def, BitVec.toNat_sub_of_le hle]
  omega

theorem VMAccelDesc.reserve_of_le {d req : VMAccelDesc} (hle : req.capacity.le d.capacity = true)
    (hne : req.capacity.localMemSizeKB ≠ 0 ∨ req.capacity.megaFlops ≠ 0 ∨
      req.capacity.megaOps ≠ 0) :
    VMAccelDesc.reserve d req = some ({ d with capacity := req.capacity },
      { d with capacity := d.capacity - req.capacity }) := by
  have hlt : (d.capacity - req.capacity).lt d.capacity = true := by
    obtain ⟨hmem, hflops, hops⟩ := VMAccelWorkloadDesc.le_iff.mp hle
    simp only [VMAccelWorkloadDesc.lt, Bool.or_eq_true, decide_eq_true_eq]
    rcases hne with h | h | h
    · exact Or.inl (Or.inl (sub_lt_self hmem h))
    · exact Or.inl (Or.inr (sub_lt_self hflops h))
    · exact Or.inr (sub_lt_self hops h)
  simp [VMAccelDesc.reserve, lt_of_le hle, hlt]

theorem enrolledObjects_cons (d : VMAccelDesc) (ds : List VMAccelDesc) :
    enrolledObjects (d :: ds) =
      .of 0 d :: ds.mapIdx fun i d => .of (BitVec.ofNat 32 (i + 1)) d := List.mapIdx_cons

theorem Enrolled.tryReserve_of_ne {d : VMAccelDesc} (h : Enrolled size (d :: ds) s)
    {p : VMAccelId} (hp : p ≠ 0) (req : VMAccelDesc) :
    tryReserve s.freeSet (.of p req) = none := by
  have hright : Resource.cmp (.of 0 d) (.of p req) = true := Resource.cmp_of_parents_ne hp.symm
  have hlookup : lookup s.freeSet (.of p req) = none := by
    apply lookup_of_none
    rw [h.freeSet, enrolledObjects_cons]
    exact descend_leftSpine_of_right (fun x => Resource.cmp x (.of p req)) hright _
  rw [tryReserve, hlookup]
  rfl

theorem Enrolled.tryReserve_first {d req : VMAccelDesc} (h : Enrolled size (d :: ds) s)
    (hle : req.capacity.le d.capacity = true)
    (hne : req.capacity.localMemSizeKB ≠ 0 ∨ req.capacity.megaFlops ≠ 0 ∨
      req.capacity.megaOps ≠ 0) :
    ∃ q, tryReserve s.freeSet (.of 0 req) = some q := by
  have hleft : Resource.cmp (.of 0 d) (.of 0 req) = false := by
    change VMAccelDesc.cmp _ _ = false
    simp [VMAccelDesc.cmp, VMAccelObject.of, lt_of_le hle]
  have hrest : ∀ y ∈ ds.mapIdx fun i d => VMAccelObject.of (BitVec.ofNat 32 (i + 1)) d,
      Resource.cmp y (.of 0 req) = true := by
    intro y hy
    obtain ⟨j, hj, rfl⟩ := List.mem_mapIdx.mp hy
    have hlen := h.length_le
    have hbound := size.isLt
    rw [List.length_cons] at hlen
    exact Resource.cmp_of_parents_ne (ofNat_ne_of_lt (j := 0) (by omega) (by omega) (by omega))
  obtain ⟨i, hlookup⟩ : ∃ i, lookup s.freeSet (.of 0 req) = some (i, .of 0 d) := by
    rw [h.freeSet, enrolledObjects_cons]
    exact ⟨_, lookup_of_some
      (descend_leftSpine_of_left (fun x => Resource.cmp x (.of 0 req)) hleft hrest)
      (getElem_inorder_leftSpine (VMAccelObject.of 0 d) _)⟩
  have hres : Resource.reserve d req = some ({ d with capacity := req.capacity },
      { d with capacity := d.capacity - req.capacity }) := VMAccelDesc.reserve_of_le hle hne
  rw [tryReserve, hlookup, Option.bind_some, reserveAt]
  dsimp only [VMAccelObject.of]
  rw [hres]
  exact ⟨_, rfl⟩

/-- After any registrations, a request that fits the descriptor registered for `p` is granted
exactly when `p` is the first identifier that was registered. -/
theorem alloc_success_iff_first (num : ℕ) (ds : List VMAccelDesc)
    (s : VMAccelAllocator VMAccelDesc DescTree)
    (hrun : run (apply false) (new DescTree num) (ds.map .register) = .ok s)
    (p : VMAccelId) (d req : VMAccelDesc) (hact : s.registeredIds.Active p)
    (hd : s.registered[p.toNat]? = some d) (hle : req.capacity.le d.capacity = true)
    (hne : req.capacity.localMemSizeKB ≠ 0 ∨ req.capacity.megaFlops ≠ 0 ∨
      req.capacity.megaOps ≠ 0) :
    ∃ r, s.alloc p req = .ok r ∧ (r.1.1.status = .success ↔ p = 0) := by
  have h := (enrolled_new num).run hrun
  rw [List.nil_append] at h
  generalize hl : ds.take _ = l at h
  have hp : p.toNat < l.length := of_decide_eq_true ((h.bit _).symm.trans hact.2)
  cases l with
  | nil => exact absurd hp (Nat.not_lt_zero _)
  | cons d₀ l =>
    have hwf := h.wellFormed
    have hsize : s.externalIds.size = s.registeredIds.size := by rw [h.externalIds, h.size_eq]; rfl
    have haddr : s.externalIds.Addressable := by
      have := addressable_of_index (bit_lt_length hact.2)
      unfold Addressable at this ⊢
      rwa [hsize]
    have hfree : s.externalIds.free ≠ 0 := by
      intro h0
      have hpos := h.length_le
      rw [h.externalIds] at h0
      have hzero : BitVec.ofNat 32 num = 0 := h0
      rw [hzero] at hpos
      exact absurd hpos (by simp)
    obtain ⟨k, hlt, hk, hff, hid⟩ := allocId_of_balanced hwf.externalIds haddr hfree
    by_cases hp0 : p = 0
    · subst hp0
      have hdd : d₀ = d := by
        have := h.registered 0 (by simp)
        exact Option.some.inj (this.symm.trans hd)
      subst hdd
      obtain ⟨q, hq⟩ := h.tryReserve_first hle hne
      exact ⟨_, alloc_of_some hwf hid hlt hq, by simp⟩
    · exact ⟨_, alloc_of_none hwf hid hk hff.1 hlt (h.tryReserve_of_ne hp0 req),
        iff_of_false (by simp) hp0⟩

/-- A descriptor of which only the compute capacity is set. -/
def flopsDesc (megaFlops : BitVec 32) : VMAccelDesc :=
  { VMAccelDesc.zero with capacity := { VMAccelWorkloadDesc.zero with megaFlops := megaFlops } }

theorem alloc_success_of_one_registered :
    ∃ s, run (apply false) (new DescTree 2) ([flopsDesc 4].map .register) = .ok s ∧
      ∃ r, s.alloc 0 (flopsDesc 1) = .ok r ∧ r.1.1.status = .success := by
  have hreach : ∃ s, run (apply false) (new DescTree 2) ([flopsDesc 4].map .register) = .ok s ∧
      s.registeredIds.Active 0 ∧ s.registered[0]? = some (flopsDesc 4) := by decide +kernel
  obtain ⟨s, hrun, hact, hreg⟩ := hreach
  obtain ⟨r, hr, hiff⟩ := alloc_success_iff_first 2 [flopsDesc 4] s hrun 0 (flopsDesc 4)
    (flopsDesc 1) hact hreg (by decide) (by decide)
  exact ⟨s, hrun, r, hr, hiff.mpr rfl⟩

/-- Two equal accelerators, an external identifier free: the second one cannot be allocated
from. -/
theorem alloc_unavailable_of_second_registered :
    ∃ s, run (apply false) (new DescTree 2) ([flopsDesc 4, flopsDesc 4].map .register) = .ok s ∧
      s.registeredIds.Active 1 ∧ s.registered[1]? = some (flopsDesc 4) ∧
      s.externalIds.free ≠ 0 ∧
      (s.alloc 1 (flopsDesc 1)).map (fun r => r.1.1.status) = .ok .resourceUnavailable := by
  decide +kernel

end VMAccel
