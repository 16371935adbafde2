import VMAccel.IdentifierDB

/-!
# Specifications of the identifier operations

`bit db j` is the bit with number `j`, `Active` is the meaning of `IdentifierDB_ActiveId`.
Each operation gets one statement of what it does to the bits and to the counter. A database
whose size is at most `2^32 - 32` is `Addressable`: only then does the computation of
`numWords` not wrap, and then every identifier below `size` has its word in the bit map.
-/

namespace VMAccel

open PackedBits StepSystem

theorem skipOnes_spec (ones : BitVec 32) (width : ℕ) (m : BitVec 32) (idx : ℕ)
    (hones : ∀ j < 32, ones.getLsbD j = decide (j < width)) (hw : width ≤ 32)
    (hz : ∃ k < 2 * width, m.getLsbD k = false) :
    (∃ k < width, (skipOnes ones width (m, idx)).1.getLsbD k = false) ∧
      ∃ s, (skipOnes ones width (m, idx)).2 = idx + s ∧
        ∀ k, FirstZero (skipOnes ones width (m, idx)).1 k → FirstZero m (s + k) := by
  unfold skipOnes
  split_ifs with h
  · have hlow : ∀ j < width, m.getLsbD j = true := by
      intro j hj
      have hb := congrArg (fun v : BitVec 32 => v.getLsbD j) h
      simpa [hones j (by omega), hj] using hb
    obtain ⟨k, hk, hm⟩ := hz
    have hkw : width ≤ k := by
      by_contra hlt
      simp [hlow k (by omega)] at hm
    refine ⟨⟨k - width, by omega, ?_⟩, width, rfl, fun k' hk' => firstZero_shift hlow hk'⟩
    simp [show width + (k - width) = k by omega, hm]
  · refine ⟨?_, 0, rfl, fun k hk => by simpa using hk⟩
    by_contra hne
    push Not at hne
    apply h
    apply BitVec.eq_of_getLsbD_eq
    intro i hi
    have hmi : i < width → m.getLsbD i = true := by simpa using hne i
    rw [BitVec.getLsbD_and, hones i hi]
    by_cases hiw : i < width
    · simp [hiw, hmi hiw]
    · simp [hiw]

theorem bitMaskFindFirstZero_spec (m : BitVec 32) :
    (m = BitVec.allOnes 32 ∧ bitMaskFindFirstZero m = none) ∨
      ∃ k < 32, bitMaskFindFirstZero m = some k ∧ FirstZero m k := by
  by_cases hm : m = BitVec.allOnes 32
  · refine Or.inl ⟨hm, ?_⟩
    subst hm
    decide
  · right
    obtain ⟨h16, s16, e16, f16⟩ := skipOnes_spec 0xffff 16 m 0 (by decide)
      (by omega) (exists_zero_of_ne_allOnes hm)
    set p16 := skipOnes 0xffff 16 (m, 0) with hp16
    obtain ⟨h8, s8, e8, f8⟩ := skipOnes_spec 0xff 8 p16.1 p16.2 (by decide)
      (by omega) h16
    set p8 := skipOnes 0xff 8 (p16.1, p16.2) with hp8
    obtain ⟨h4, s4, e4, f4⟩ := skipOnes_spec 0xf 4 p8.1 p8.2 (by decide)
      (by omega) h8
    set p4 := skipOnes 0xf 4 (p8.1, p8.2) with hp4
    have hlift : ∀ k, FirstZero p4.1 k → FirstZero m (p4.2 + k) := by
      intro k hk
      have h := f16 _ (f8 _ (f4 k hk))
      rwa [show p4.2 + k = s16 + (s8 + (s4 + k)) by omega]
    have hres : ∃ k, bitMaskFindFirstZero m = some (p4.2 + k) ∧ FirstZero p4.1 k := by
      have hne : m ≠ 0xffffffff := hm
      unfold bitMaskFindFirstZero
      rw [if_pos hne]
      change ∃ k, (if p4.1 &&& BitVec.twoPow 32 0 = 0 then some p4.2
        else if p4.1 &&& BitVec.twoPow 32 1 = 0 then some (p4.2 + 1)
        else if p4.1 &&& BitVec.twoPow 32 2 = 0 then some (p4.2 + 2)
        else if p4.1 &&& BitVec.twoPow 32 3 = 0 then some (p4.2 + 3)
        else none) = some (p4.2 + k) ∧ FirstZero p4.1 k
      simp only [and_twoPow_eq_zero_iff]
      obtain ⟨k, hk, hz⟩ := h4
      split_ifs with b0 b1 b2 b3
      · exact ⟨0, rfl, b0, fun j hj => absurd hj (by omega)⟩
      · refine ⟨1, rfl, b1, fun j hj => ?_⟩
        obtain rfl : j = 0 := by omega
        simpa using b0
      · refine ⟨2, rfl, b2, fun j hj => ?_⟩
        obtain rfl | rfl : j = 0 ∨ j = 1 := by omega
        · simpa using b0
        · simpa using b1
      · refine ⟨3, rfl, b3, fun j hj => ?_⟩
        obtain rfl | rfl | rfl : j = 0 ∨ j = 1 ∨ j = 2 := by omega
        · simpa using b0
        · simpa using b1
        · simpa using b2
      · obtain rfl | rfl | rfl | rfl : k = 0 ∨ k = 1 ∨ k = 2 ∨ k = 3 := by omega
        all_goals contradiction
    obtain ⟨k, hk, hf⟩ := hres
    have hzero : FirstZero m (p4.2 + k) := hlift k hf
    refine ⟨p4.2 + k, ?_, hk, hzero⟩
    obtain ⟨j, hj, hjz⟩ := exists_zero_of_ne_allOnes hm
    by_contra hge
    simp [hzero.2 j (by omega)] at hjz

namespace IdentifierDB

def bit (db : IdentifierDB) (j : ℕ) : Bool := PackedBits.bit db.bits j

/-- The meaning of `IdentifierDB_ActiveId`. -/
def Active (db : IdentifierDB) (id : VMAccelId) : Prop :=
  id < db.size ∧ db.bit id.toNat = true

instance (db : IdentifierDB) (id : VMAccelId) : Decidable (db.Active id) :=
  inferInstanceAs (Decidable (_ ∧ _))

def Addressable (db : IdentifierDB) : Prop := db.size.toNat + 31 < 2 ^ 32

instance (db : IdentifierDB) : Decidable db.Addressable :=
  inferInstanceAs (Decidable (_ < _))

def setBit (db : IdentifierDB) (k : ℕ) : IdentifierDB :=
  db.setWord (k / 32) (word db.bits (k / 32) ||| BitVec.twoPow 32 (k % 32))

def clearBit (db : IdentifierDB) (k : ℕ) : IdentifierDB :=
  db.setWord (k / 32) (word db.bits (k / 32) &&& ~~~BitVec.twoPow 32 (k % 32))

@[simp] theorem size_setBit (db : IdentifierDB) (k : ℕ) : (db.setBit k).size = db.size := rfl

theorem length_bits_eq (db : IdentifierDB) :
    db.bits.length = (db.size.toNat + 31) % 2 ^ 32 / 32 := by
  rw [db.length_bits, db.numWords_eq, BitVec.toNat_udiv, BitVec.toNat_add]
  rfl

theorem length_bits_of_addressable {db : IdentifierDB} (h : db.Addressable) :
    db.bits.length = (db.size.toNat + 31) / 32 := by
  unfold Addressable at h
  rw [db.length_bits_eq, Nat.mod_eq_of_lt h]

/-- Beyond `2^32 - 32` the number of words wraps to zero and there is no bit map. -/
theorem bits_eq_nil_of_not_addressable {db : IdentifierDB} (h : ¬ db.Addressable) :
    db.bits = [] := by
  unfold Addressable at h
  have hlen := db.length_bits_eq
  have := db.size.isLt
  rw [← List.length_eq_zero_iff]
  omega

theorem addressable_of_index {db : IdentifierDB} {i : ℕ} (hi : i < db.bits.length) :
    db.Addressable := by
  by_contra hna
  simp [bits_eq_nil_of_not_addressable hna] at hi

theorem index_lt_length {db : IdentifierDB} (h : db.Addressable) {k : ℕ}
    (hk : k < db.size.toNat) : k / 32 < db.bits.length := by
  rw [length_bits_of_addressable h]
  omega

theorem bit_lt_length {db : IdentifierDB} {k : ℕ} (hk : db.bit k = true) :
    k / 32 < db.bits.length := by
  by_contra hlt
  simp [bit, PackedBits.bit, word_of_length_le (Nat.le_of_not_lt hlt)] at hk

theorem readAt_word {db : IdentifierDB} {i : ℕ} (hi : i < db.bits.length) :
    readAt db.bits i = .ok (word db.bits i) := by
  rw [readAt_ok]
  simp [word, hi]

theorem readAt_bits_ok {db : IdentifierDB} {i : ℕ} {w : BitVec 32}
    (h : readAt db.bits i = .ok w) : i < db.bits.length ∧ w = word db.bits i := by
  have hi : i < db.bits.length := (List.getElem?_eq_some_iff.mp (readAt_ok.mp h)).1
  exact ⟨hi, by simpa [readAt_word hi] using h.symm⟩

theorem idMask_eq (id : VMAccelId) : idMask id = BitVec.twoPow 32 (id.toNat % 32) := by
  rw [BitVec.twoPow_eq]
  rfl

theorem and_idMask_ne_zero (db : IdentifierDB) (id : VMAccelId) :
    word db.bits (id.toNat / 32) &&& idMask id ≠ 0 ↔ db.bit id.toNat = true := by
  rw [idMask_eq, Ne, and_twoPow_eq_zero_iff, Bool.not_eq_false]
  rfl

theorem bit_setBit {db : IdentifierDB} {k : ℕ} (hk : k / 32 < db.bits.length) (j : ℕ) :
    (db.setBit k).bit j = (db.bit j || decide (j = k)) := by
  rw [← decide_and_twoPow (show 0 < 32 by decide) j k]
  exact bit_set_or hk _ j

theorem bit_clearBit {db : IdentifierDB} {k : ℕ} (hk : k / 32 < db.bits.length) (j : ℕ) :
    (db.clearBit k).bit j = (db.bit j && !decide (j = k)) := by
  rw [← decide_and_twoPow (show 0 < 32 by decide) j k]
  exact bit_set_andNot hk _ (by decide) j

theorem activeId_eq_ok_true {db : IdentifierDB} {id : VMAccelId} :
    db.activeId id = .ok true ↔ db.Active id := by
  unfold activeId Active
  by_cases hle : db.size ≤ id
  · simp [hle]
  · rw [if_neg hle]
    by_cases hi : id.toNat / 32 < db.bits.length
    · rw [readAt_word hi, ok_bind, ← and_idMask_ne_zero]
      simp [pure, Except.pure, BitVec.not_le.mp hle]
    · have hb : db.bit id.toNat = false := by
        by_contra hne
        exact hi (bit_lt_length (by simpa using hne))
      have hread : readAt db.bits (id.toNat / 32) = .error .outOfBounds := by
        simp [readAt, List.getElem?_eq_none (Nat.le_of_not_lt hi)]
      simp [hread, hb]

theorem activeId_of_addressable {db : IdentifierDB} (h : db.Addressable) (id : VMAccelId) :
    db.activeId id = .ok (decide (db.Active id)) := by
  unfold activeId Active
  by_cases hle : db.size ≤ id
  · simp [hle, BitVec.not_lt.mpr hle]
  · have hlt : id < db.size := BitVec.not_le.mp hle
    rw [if_neg hle, readAt_word (index_lt_length h hlt), ok_bind]
    simp only [hlt, true_and, ← and_idMask_ne_zero]
    rfl

theorem acquireId_ok {db : IdentifierDB} {id : VMAccelId} {r : Bool × IdentifierDB}
    (hr : db.acquireId id = .ok r) :
    ((db.size ≤ id ∨ db.bit id.toNat = true) ∧ r = (false, db)) ∨
      (id < db.size ∧ db.bit id.toNat = false ∧ id.toNat / 32 < db.bits.length ∧
        r = (true, db.setBit id.toNat)) := by
  unfold acquireId at hr
  split_ifs at hr with hle
  · exact Or.inl ⟨Or.inl hle, by simpa using hr.symm⟩
  · obtain ⟨active, hact, hr⟩ := bind_eq_ok.mp hr
    cases active with
    | true =>
      exact Or.inl ⟨Or.inr (activeId_eq_ok_true.mp hact).2,
        by simpa [pure, Except.pure] using hr.symm⟩
    | false =>
      obtain ⟨w, hw, hr⟩ := bind_eq_ok.mp hr
      obtain ⟨hi, rfl⟩ := readAt_bits_ok hw
      have hlt : id < db.size := BitVec.not_le.mp hle
      have hbit : db.bit id.toNat = false := by
        by_contra hne
        have := activeId_eq_ok_true.mpr ⟨hlt, by simpa using hne⟩
        simp [this] at hact
      refine Or.inr ⟨hlt, hbit, hi, ?_⟩
      rw [idMask_eq] at hr
      simpa [pure, Except.pure, setBit] using hr.symm

theorem acquireId_active {db : IdentifierDB} {id : VMAccelId} {r : Bool × IdentifierDB}
    (hr : db.acquireId id = .ok r) :
    r.2.size = db.size ∧ ∀ j, r.2.Active j ↔ db.Active j ∨ (j = id ∧ id < db.size) := by
  rcases acquireId_ok hr with ⟨h, rfl⟩ | ⟨hlt, -, hi, rfl⟩
  · refine ⟨rfl, fun j => ⟨Or.inl, ?_⟩⟩
    rintro (hj | ⟨rfl, hlt⟩)
    · exact hj
    · exact ⟨hlt, h.resolve_left (BitVec.not_le.mpr hlt)⟩
  · refine ⟨rfl, fun j => ?_⟩
    unfold Active
    rw [size_setBit, bit_setBit hi, Bool.or_eq_true, decide_eq_true_eq, BitVec.toNat_inj]
    constructor
    · rintro ⟨hj, hbit | rfl⟩
      · exact Or.inl ⟨hj, hbit⟩
      · exact Or.inr ⟨rfl, hj⟩
    · rintro (⟨hj, hbit⟩ | ⟨rfl, hj⟩)
      · exact ⟨hj, Or.inl hbit⟩
      · exact ⟨hj, Or.inr rfl⟩

theorem acquireId_of_clear {db : IdentifierDB} (h : db.Addressable) {id : VMAccelId}
    (hlt : id < db.size) (hbit : db.bit id.toNat = false) :
    db.acquireId id = .ok (true, db.setBit id.toNat) := by
  have hact : ¬ db.Active id := fun ha => by simp [ha.2] at hbit
  unfold acquireId
  rw [if_neg (BitVec.not_le.mpr hlt), activeId_of_addressable h, ok_bind,
    readAt_word (index_lt_length h hlt), idMask_eq]
  simp [hact, ok_bind, pure, Except.pure, setBit]

theorem releaseId_of_size_le {db : IdentifierDB} {id : VMAccelId} (h : db.size ≤ id) :
    db.releaseId id = .ok db := if_pos h

theorem releaseId_of_active {db : IdentifierDB} {id : VMAccelId} (h : db.Active id) :
    db.releaseId id = .ok { db.clearBit id.toNat with free := db.free + 1 } := by
  unfold releaseId
  rw [if_neg (BitVec.not_le.mpr h.1), readAt_word (bit_lt_length h.2), ok_bind,
    if_pos ((and_idMask_ne_zero db id).mpr h.2), idMask_eq]
  rfl

/-- Releasing an identifier below `size` that is not active is the double-free assertion. -/
theorem releaseId_ok {db db' : IdentifierDB} {id : VMAccelId} (hr : db.releaseId id = .ok db') :
    (db.size ≤ id ∧ db' = db) ∨
      (db.Active id ∧ db' = { db.clearBit id.toNat with free := db.free + 1 }) := by
  by_cases hle : db.size ≤ id
  · rw [releaseId_of_size_le hle] at hr
    exact Or.inl ⟨hle, by simpa using hr.symm⟩
  · have hlt : id < db.size := BitVec.not_le.mp hle
    by_cases hbit : db.bit id.toNat = true
    · rw [releaseId_of_active ⟨hlt, hbit⟩] at hr
      exact Or.inr ⟨⟨hlt, hbit⟩, by simpa using hr.symm⟩
    · unfold releaseId at hr
      rw [if_neg hle] at hr
      obtain ⟨w, hw, hr⟩ := bind_eq_ok.mp hr
      obtain ⟨hi, rfl⟩ := readAt_bits_ok hw
      rw [if_neg (fun h => hbit ((and_idMask_ne_zero db id).mp h))] at hr
      cases hr

end IdentifierDB

end VMAccel
