import VMAccel.IdentifierDBSpec

/-!
# Allocating and releasing identifiers

`IdentifierDB_AllocId` takes the lowest clear bit of the map, not the lowest free identifier:
it relies on the counter to know that a clear bit below `size` is left. `Balanced` is the
invariant that justifies this, the counter and the population of the bit map adding up to
`size` with no bit at or above `size` set. `AllocId` and `ReleaseId` keep it.
-/

namespace VMAccel.IdentifierDB

open PackedBits StepSystem

def FirstFree (db : IdentifierDB) (k : ℕ) : Prop :=
  db.bit k = false ∧ ∀ j < k, db.bit j = true

def popCount (db : IdentifierDB) : ℕ := (PackedBits.bits db.bits).card

structure Balanced (db : IdentifierDB) : Prop where
  free_add_popCount : db.free.toNat + db.popCount = db.size.toNat
  bit_of_size_le : ∀ j, db.size.toNat ≤ j → db.bit j = false

def take (db : IdentifierDB) (k : ℕ) : IdentifierDB := { db.setBit k with free := db.free - 1 }

def give (db : IdentifierDB) (k : ℕ) : IdentifierDB := { db.clearBit k with free := db.free + 1 }

@[simp] theorem size_take (db : IdentifierDB) (k : ℕ) : (db.take k).size = db.size := rfl

@[simp] theorem size_give (db : IdentifierDB) (k : ℕ) : (db.give k).size = db.size := rfl

@[simp] theorem free_take (db : IdentifierDB) (k : ℕ) : (db.take k).free = db.free - 1 := rfl

@[simp] theorem free_give (db : IdentifierDB) (k : ℕ) : (db.give k).free = db.free + 1 := rfl

theorem bit_take {db : IdentifierDB} {k : ℕ} (hk : k / 32 < db.bits.length) (j : ℕ) :
    (db.take k).bit j = (db.bit j || decide (j = k)) := bit_setBit hk j

theorem bit_give {db : IdentifierDB} {k : ℕ} (hk : k / 32 < db.bits.length) (j : ℕ) :
    (db.give k).bit j = (db.bit j && !decide (j = k)) := bit_clearBit hk j

theorem popCount_setBit {db : IdentifierDB} {k : ℕ} (hk : k / 32 < db.bits.length)
    (hbit : db.bit k = false) : (db.setBit k).popCount = db.popCount + 1 := by
  have hins : PackedBits.bits (db.setBit k).bits = insert k (PackedBits.bits db.bits) := by
    ext j
    rw [Finset.mem_insert, mem_bits (by decide), mem_bits (by decide)]
    change (db.setBit k).bit j = true ↔ _ ∨ db.bit j = true
    rw [bit_setBit hk]
    simp [or_comm]
  have hnot : k ∉ PackedBits.bits db.bits := by
    rw [mem_bits (by decide)]
    change ¬ db.bit k = true
    simp [hbit]
  rw [popCount, hins, Finset.card_insert_of_notMem hnot]
  rfl

theorem popCount_clearBit {db : IdentifierDB} {k : ℕ} (hbit : db.bit k = true) :
    (db.clearBit k).popCount + 1 = db.popCount := by
  have hers : PackedBits.bits (db.clearBit k).bits = (PackedBits.bits db.bits).erase k := by
    ext j
    rw [Finset.mem_erase, mem_bits (by decide), mem_bits (by decide)]
    change (db.clearBit k).bit j = true ↔ _ ∧ db.bit j = true
    rw [bit_clearBit (bit_lt_length hbit)]
    simp [and_comm]
  have hmem : k ∈ PackedBits.bits db.bits := (mem_bits (by decide)).mpr hbit
  rw [popCount, hers, Finset.card_erase_add_one hmem]
  rfl

theorem bit_alloc (size : BitVec 32) (j : ℕ) : (alloc size).bit j = false := by
  simp only [bit, alloc, PackedBits.bit, word, List.getElem?_replicate]
  split_ifs <;> simp

theorem balanced_alloc (size : BitVec 32) : (alloc size).Balanced where
  free_add_popCount := by
    rw [popCount, show (alloc size).bits = List.replicate _ 0 from rfl, bits_replicate_zero]
    rfl
  bit_of_size_le j _ := bit_alloc size j

theorem Balanced.lt_size {db : IdentifierDB} (h : db.Balanced) {j : ℕ} (hj : db.bit j = true) :
    j < db.size.toNat := by
  by_contra hle
  simp [h.bit_of_size_le j (by omega)] at hj

/-- The identifiers below `size` for which `IdentifierDB_ActiveId` answers true. -/
def activeIds (db : IdentifierDB) : Finset ℕ :=
  (Finset.range db.size.toNat).filter fun i => db.activeId (BitVec.ofNat 32 i) = .ok true

theorem mem_activeIds {db : IdentifierDB} {i : ℕ} :
    i ∈ db.activeIds ↔ i < db.size.toNat ∧ db.bit i = true := by
  rw [activeIds, Finset.mem_filter, Finset.mem_range, activeId_eq_ok_true]
  refine and_congr_right fun hi => ?_
  have hnat : (BitVec.ofNat 32 i).toNat = i := by
    rw [BitVec.toNat_ofNat, Nat.mod_eq_of_lt (hi.trans db.size.isLt)]
  have hlt : BitVec.ofNat 32 i < db.size := by rwa [BitVec.lt_def, hnat]
  rw [Active, hnat]
  exact and_iff_right hlt

theorem Balanced.activeIds_eq {db : IdentifierDB} (h : db.Balanced) :
    db.activeIds = PackedBits.bits db.bits := by
  ext i
  rw [mem_activeIds, mem_bits (by decide)]
  exact and_iff_right_of_imp fun hi => h.lt_size hi

theorem Balanced.exists_clear {db : IdentifierDB} (h : db.Balanced) (hfree : db.free ≠ 0) :
    ∃ j < db.size.toNat, db.bit j = false := by
  by_contra hne
  push Not at hne
  have hsub : Finset.range db.size.toNat ⊆ PackedBits.bits db.bits := by
    intro j hj
    rw [mem_bits (by decide)]
    exact Bool.eq_true_of_not_eq_false (hne j (Finset.mem_range.mp hj))
  have hcard := Finset.card_le_card hsub
  rw [Finset.card_range] at hcard
  have hpos : 0 < db.free.toNat := Nat.pos_of_ne_zero fun h0 => hfree (BitVec.eq_of_toNat_eq h0)
  have := h.free_add_popCount
  unfold popCount at this
  omega

theorem Balanced.free_ne_zero {db : IdentifierDB} (h : db.Balanced) {j : ℕ}
    (hj : j < db.size.toNat) (hbit : db.bit j = false) : db.free ≠ 0 := by
  intro hfree
  have hsub : PackedBits.bits db.bits ⊆ (Finset.range db.size.toNat).erase j := by
    intro i hi
    have hi : db.bit i = true := (mem_bits (by decide)).mp hi
    refine Finset.mem_erase.mpr ⟨?_, Finset.mem_range.mpr (h.lt_size hi)⟩
    rintro rfl
    simp [hi] at hbit
  have hcard := Finset.card_le_card hsub
  rw [Finset.card_erase_of_mem (Finset.mem_range.mpr hj), Finset.card_range] at hcard
  have := h.free_add_popCount
  rw [hfree] at this
  change 0 + (PackedBits.bits db.bits).card = _ at this
  omega

theorem Balanced.free_eq_zero_iff {db : IdentifierDB} (h : db.Balanced) :
    db.free = 0 ↔ db.activeIds.card = db.size.toNat := by
  have hsum := h.free_add_popCount
  rw [h.activeIds_eq]
  change _ + (PackedBits.bits db.bits).card = _ at hsum
  constructor
  · intro hfree
    rw [hfree] at hsum
    exact (Nat.zero_add _).symm.trans hsum
  · intro hcard
    exact BitVec.eq_of_toNat_eq (by change db.free.toNat = 0; omega)

theorem Balanced.free_ne_zero_iff {db : IdentifierDB} (h : db.Balanced) :
    db.free ≠ 0 ↔ ∃ id < db.size, ¬ db.Active id := by
  constructor
  · intro hfree
    obtain ⟨j, hj, hbit⟩ := h.exists_clear hfree
    have hnat : (BitVec.ofNat 32 j).toNat = j := Nat.mod_eq_of_lt (hj.trans db.size.isLt)
    refine ⟨BitVec.ofNat 32 j, by rwa [BitVec.lt_def, hnat], fun hact => ?_⟩
    rw [Active, hnat, hbit] at hact
    cases hact.2
  · rintro ⟨id, hlt, hnot⟩
    refine h.free_ne_zero hlt ?_
    exact Bool.eq_false_iff.mpr fun hbit => hnot ⟨hlt, hbit⟩

theorem FirstFree.le {db : IdentifierDB} {j k : ℕ} (hk : db.FirstFree k)
    (hj : db.bit j = false) : k ≤ j := by
  by_contra hlt
  simp [hk.2 j (by omega)] at hj

theorem FirstFree.lt_size {db : IdentifierDB} {k : ℕ} (hk : db.FirstFree k) (h : db.Balanced)
    (hfree : db.free ≠ 0) : k < db.size.toNat := by
  obtain ⟨j, hj, hbit⟩ := h.exists_clear hfree
  exact (hk.le hbit).trans_lt hj

theorem Balanced.take {db : IdentifierDB} (h : db.Balanced) {k : ℕ}
    (hk : k / 32 < db.bits.length) (hbit : db.bit k = false) (hlt : k < db.size.toNat)
    (hfree : db.free ≠ 0) : (db.take k).Balanced where
  free_add_popCount := by
    have hpos : 0 < db.free.toNat :=
      Nat.pos_of_ne_zero fun h0 => hfree (BitVec.eq_of_toNat_eq h0)
    have hsub : (db.free - 1).toNat = db.free.toNat - 1 := by
      rw [BitVec.toNat_sub]
      have := db.free.isLt
      change (2 ^ 32 - 1 + db.free.toNat) % 2 ^ 32 = _
      omega
    have hpop : (db.take k).popCount = db.popCount + 1 := popCount_setBit hk hbit
    have := h.free_add_popCount
    rw [free_take, size_take, hsub, hpop]
    omega
  bit_of_size_le j hj := by
    rw [size_take] at hj
    rw [bit_take hk, h.bit_of_size_le j hj]
    simp only [Bool.false_or, decide_eq_false_iff_not]
    omega

theorem Balanced.give {db : IdentifierDB} (h : db.Balanced) {k : ℕ} (hbit : db.bit k = true) :
    (db.give k).Balanced where
  free_add_popCount := by
    have hpop : (db.give k).popCount + 1 = db.popCount := popCount_clearBit hbit
    have hsum := h.free_add_popCount
    have hadd : (db.free + 1).toNat = db.free.toNat + 1 := by
      rw [BitVec.toNat_add]
      have := db.size.isLt
      change (db.free.toNat + 1) % 2 ^ 32 = _
      omega
    rw [free_give, size_give, hadd]
    omega
  bit_of_size_le j hj := by
    rw [size_give] at hj
    rw [bit_give (bit_lt_length hbit), h.bit_of_size_le j hj]
    rfl

theorem activeIds_alloc (size : BitVec 32) : (alloc size).activeIds = ∅ := by
  ext i
  simp [mem_activeIds, bit_alloc]

theorem active_take {db : IdentifierDB} {k : ℕ} (hk : k / 32 < db.bits.length)
    (hlt : k < db.size.toNat) (id : VMAccelId) :
    (db.take k).Active id ↔ db.Active id ∨ id.toNat = k := by
  rw [Active, Active, bit_take hk, size_take, BitVec.lt_def]
  by_cases hid : id.toNat = k
  · simp [hid, hlt]
  · simp [hid]

theorem active_give {db : IdentifierDB} {k : ℕ} (hk : k / 32 < db.bits.length) (id : VMAccelId) :
    (db.give k).Active id ↔ db.Active id ∧ id.toNat ≠ k := by
  rw [Active, Active, bit_give hk, size_give]
  by_cases hid : id.toNat = k
  · simp [hid]
  · simp [hid]

theorem activeIds_take {db : IdentifierDB} {k : ℕ} (hk : k / 32 < db.bits.length)
    (hlt : k < db.size.toNat) : (db.take k).activeIds = insert k db.activeIds := by
  ext i
  rw [Finset.mem_insert, mem_activeIds, mem_activeIds, bit_take hk, size_take]
  by_cases hi : i = k
  · simp [hi, hlt]
  · simp [hi]

theorem activeIds_give {db : IdentifierDB} {k : ℕ} (hk : k / 32 < db.bits.length) :
    (db.give k).activeIds = db.activeIds.erase k := by
  ext i
  rw [Finset.mem_erase, mem_activeIds, mem_activeIds, bit_give hk, size_give]
  by_cases hi : i = k
  · simp [hi]
  · simp [hi]

theorem give_take {db : IdentifierDB} {k : ℕ} (hk : k / 32 < db.bits.length)
    (hbit : db.bit k = false) : (db.take k).give k = db := by
  have hword : word (db.take k).bits (k / 32) =
      word db.bits (k / 32) ||| BitVec.twoPow 32 (k % 32) := by
    change word (db.bits.set (k / 32) _) (k / 32) = _
    rw [word_set hk, if_pos rfl]
  have hclear : (word db.bits (k / 32) ||| BitVec.twoPow 32 (k % 32)) &&&
      ~~~BitVec.twoPow 32 (k % 32) = word db.bits (k / 32) := by
    apply BitVec.eq_of_getLsbD_eq
    intro j hj
    have hkj : j = k % 32 → (word db.bits (k / 32)).getLsbD j = false := fun h => h ▸ hbit
    rw [BitVec.getLsbD_and, BitVec.getLsbD_or, BitVec.getLsbD_not, BitVec.getLsbD_twoPow]
    by_cases h : j = k % 32
    · simp [← h, hkj h]
    · simp [Ne.symm h, hj]
  ext1
  · rfl
  · rfl
  · exact BitVec.sub_add_cancel _ _
  · change ((db.bits.set (k / 32) _).set (k / 32) _) = db.bits
    rw [hword, hclear, List.set_set]
    simp [word, hk]

/-- The word loop of `IdentifierDB_AllocId`: with the words before `i` full, it returns the
lowest clear bit of the whole map, and asserts when there is none. -/
theorem allocIdFrom_spec (db : IdentifierDB) (n i : ℕ) (hn : i + n = db.bits.length)
    (hfull : ∀ j < 32 * i, db.bit j = true) :
    (∃ k < 32 * db.bits.length, db.FirstFree k ∧
        db.allocIdFrom n i = .ok (some (BitVec.ofNat 32 k), db.take k)) ∨
      ((∀ j < 32 * db.bits.length, db.bit j = true) ∧
        db.allocIdFrom n i = .error .assertion) := by
  induction n generalizing i with
  | zero =>
    right
    rw [Nat.add_zero] at hn
    exact ⟨hn ▸ hfull, rfl⟩
  | succ n ih =>
    have hi : i < db.bits.length := by omega
    have hword : ∀ j, j / 32 = i → db.bit j = (word db.bits i).getLsbD (j % 32) := by
      rintro j rfl
      rfl
    rcases bitMaskFindFirstZero_spec (word db.bits i) with ⟨hones, hnone⟩ | ⟨k, hk, hsome, hz⟩
    · have hfull' : ∀ j < 32 * (i + 1), db.bit j = true := by
        intro j hj
        by_cases hji : j < 32 * i
        · exact hfull j hji
        · rw [hword j (by omega), hones, BitVec.getLsbD_allOnes]
          exact decide_eq_true (Nat.mod_lt j (by decide))
      have hstep : db.allocIdFrom (n + 1) i = db.allocIdFrom n (i + 1) := by
        rw [allocIdFrom, readAt_word hi, ok_bind, hnone]
      rw [hstep]
      exact ih (i + 1) (by omega) hfull'
    · left
      have hdiv : (i * 32 + k) / 32 = i := by omega
      have hmod : (i * 32 + k) % 32 = k := by omega
      refine ⟨i * 32 + k, by omega, ⟨?_, fun j hj => ?_⟩, ?_⟩
      · rw [hword _ hdiv, hmod]
        exact hz.1
      · by_cases hji : j < 32 * i
        · exact hfull j hji
        · rw [hword j (by omega)]
          exact hz.2 _ (by omega)
      · rw [allocIdFrom, readAt_word hi, ok_bind, hsome]
        simp only [take, setBit, hdiv, hmod, BitVec.twoPow_eq]
        rfl

theorem allocId_ok {db : IdentifierDB} {r : Option VMAccelId × IdentifierDB}
    (hr : db.allocId = .ok r) :
    (db.free = 0 ∧ r = (none, db)) ∨
      (db.free ≠ 0 ∧ ∃ k, k / 32 < db.bits.length ∧ db.FirstFree k ∧
        r = (some (BitVec.ofNat 32 k), db.take k)) := by
  unfold allocId at hr
  split_ifs at hr with hfree
  · exact Or.inl ⟨hfree, by simpa using hr.symm⟩
  · rw [← db.length_bits] at hr
    rcases db.allocIdFrom_spec db.bits.length 0 (by omega) (by simp) with
      ⟨k, hk, hff, hok⟩ | ⟨-, herr⟩
    · exact Or.inr ⟨hfree, k, by omega, hff, by simpa [hok] using hr.symm⟩
    · rw [herr] at hr
      cases hr

theorem allocId_of_clear {db : IdentifierDB} {j : ℕ} (hj : j / 32 < db.bits.length)
    (hbit : db.bit j = false) (hfree : db.free ≠ 0) :
    ∃ k ≤ j, k / 32 < db.bits.length ∧ db.FirstFree k ∧
      db.allocId = .ok (some (BitVec.ofNat 32 k), db.take k) := by
  unfold allocId
  rw [if_neg hfree, ← db.length_bits]
  rcases db.allocIdFrom_spec db.bits.length 0 (by omega) (by simp) with
    ⟨k, hk, hff, hok⟩ | ⟨hall, -⟩
  · exact ⟨k, hff.le hbit, by omega, hff, hok⟩
  · simp [hall j (by omega)] at hbit

/-- On a balanced database the search succeeds, below `size`, whenever the counter is not zero. -/
theorem allocId_of_balanced {db : IdentifierDB} (h : db.Balanced) (ha : db.Addressable)
    (hfree : db.free ≠ 0) :
    ∃ k < db.size.toNat, k / 32 < db.bits.length ∧ db.FirstFree k ∧
      db.allocId = .ok (some (BitVec.ofNat 32 k), db.take k) := by
  obtain ⟨j, hj, hbit⟩ := h.exists_clear hfree
  obtain ⟨k, hkj, hk, hff, hok⟩ := allocId_of_clear (index_lt_length ha hj) hbit hfree
  exact ⟨k, hkj.trans_lt hj, hk, hff, hok⟩

theorem allocId_le {db : IdentifierDB} (h : db.Balanced) {j : ℕ} (hj : j < db.size.toNat)
    (hbit : db.bit j = false) {r : Option VMAccelId × IdentifierDB} (hr : db.allocId = .ok r) :
    ∃ id, r.1 = some id ∧ id.toNat ≤ j ∧ r.2.size = db.size ∧ r.2.Balanced := by
  have hfree := h.free_ne_zero hj hbit
  rcases allocId_ok hr with ⟨h0, -⟩ | ⟨-, k, hk, hff, rfl⟩
  · exact absurd h0 hfree
  · have hkj : k ≤ j := hff.le hbit
    have hlt : k < db.size.toNat := hkj.trans_lt hj
    refine ⟨_, rfl, ?_, rfl, h.take hk hff.1 hlt hfree⟩
    rwa [BitVec.toNat_ofNat, Nat.mod_eq_of_lt (hlt.trans db.size.isLt)]

end VMAccel.IdentifierDB
