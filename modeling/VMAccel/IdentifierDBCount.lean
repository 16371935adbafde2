import VMAccel.IdentifierDBRange

/-!
# The counter of the identifier database

`IdentifierDB_Count` reports `size - free`. It equals the number of active identifiers as long
as the counter follows the bit map, but only `AllocId` and `ReleaseId` update the counter.
`CounterNeutral` describes the calls that do not make the two drift apart, and a run keeps the
count exact precisely when all its calls are of that kind.
-/

namespace VMAccel.IdentifierDB

open PackedBits StepSystem

def CountsActive (db : IdentifierDB) : Prop := db.count.toNat = db.activeIds.card

instance : DecidablePred CountsActive := fun db =>
  inferInstanceAs (Decidable (db.count.toNat = db.activeIds.card))

theorem Balanced.countsActive {db : IdentifierDB} (h : db.Balanced) : db.CountsActive := by
  have hsum := h.free_add_popCount
  have hle : db.free ≤ db.size := by
    rw [BitVec.le_def]
    omega
  rw [CountsActive, count, BitVec.toNat_sub_of_le hle, h.activeIds_eq]
  unfold popCount at hsum
  omega

theorem Balanced.congr {db db' : IdentifierDB} (h : db.Balanced) (hsize : db'.size = db.size)
    (hfree : db'.free = db.free) (hbit : ∀ j, db'.bit j = db.bit j) : db'.Balanced where
  free_add_popCount := by
    have hbits : PackedBits.bits db'.bits = PackedBits.bits db.bits := by
      ext j
      rw [mem_bits (by decide), mem_bits (by decide)]
      exact iff_of_eq (congrArg (· = true) (hbit j))
    rw [popCount, hsize, hfree, hbits]
    exact h.free_add_popCount
  bit_of_size_le j hj := by rw [hbit, h.bit_of_size_le j (hsize ▸ hj)]

/-- Two databases with the same counter but strictly nested bit maps are not both counted
right. -/
theorem CountsActive.not_of_new_bit {db db' : IdentifierDB} (hc : db.CountsActive)
    (hsize : db'.size = db.size) (hfree : db'.free = db.free)
    (hmono : ∀ j, db.bit j = true → db'.bit j = true) {k : ℕ} (hk : k < db.size.toNat)
    (hold : db.bit k = false) (hnew : db'.bit k = true) : ¬ db'.CountsActive := by
  have hlt : db.activeIds.card < db'.activeIds.card := by
    apply Finset.card_lt_card
    rw [Finset.ssubset_iff_of_subset]
    · refine ⟨k, mem_activeIds.mpr ⟨hsize ▸ hk, hnew⟩, fun hmem => ?_⟩
      exact Bool.false_ne_true (hold.symm.trans (mem_activeIds.mp hmem).2)
    · intro i hi
      obtain ⟨h1, h2⟩ := mem_activeIds.mp hi
      exact mem_activeIds.mpr ⟨hsize ▸ h1, hmono i h2⟩
  intro hc'
  have hcount : db'.count = db.count := by rw [count, count, hsize, hfree]
  unfold CountsActive at hc hc'
  rw [hcount] at hc'
  omega

/-- The calls that change a database. -/
inductive Call
  | acquireId (id : VMAccelId)
  | acquireIdRange (start stop : BitVec 32)
  | allocId
  | releaseId (id : VMAccelId)
  | releaseIdRange (start stop : BitVec 32)
  deriving DecidableEq

def apply (db : IdentifierDB) : Call → Except Fault IdentifierDB
  | .acquireId id => do
    let r ← db.acquireId id
    return r.2
  | .acquireIdRange start stop => do
    let r ← db.acquireIdRange start stop
    return r.2
  | .allocId => do
    let r ← db.allocId
    return r.2
  | .releaseId id => db.releaseId id
  | .releaseIdRange start stop => do
    let r ← db.releaseIdRange start stop
    return r.2

/-- Single releases are of active identifiers only. -/
def ReleasesActive (db : IdentifierDB) : Call → Prop
  | .releaseId id => db.Active id
  | _ => True

/-- The calls after which the counter still describes the bit map: an explicit acquisition is
refused or finds nothing to set, a range release finds nothing to clear. -/
def CounterNeutral (db : IdentifierDB) : Call → Prop
  | .acquireId id => db.size ≤ id ∨ db.bit id.toNat = true
  | .acquireIdRange start stop =>
    db.size ≤ start ∨ db.size ≤ stop ∨ rangeWords start stop = [] ∨
      (db.Addressable ∧ (rangeMask start stop = 0 ∨
        word db.bits (start.toNat / 32) &&& rangeMask start stop ≠ 0))
  | .allocId => db.Addressable
  | .releaseId _ => True
  | .releaseIdRange start stop =>
    db.size ≤ start ∨ db.size ≤ stop ∨ rangeWords start stop = [] ∨
      (db.Addressable ∧ ∀ p ∈ rangeWords start stop, word db.bits p.1 &&& p.2 = 0)

instance (db : IdentifierDB) : (c : Call) → Decidable (db.ReleasesActive c)
  | .releaseId id => inferInstanceAs (Decidable (db.Active id))
  | .acquireId _ | .acquireIdRange _ _ | .allocId | .releaseIdRange _ _ => .isTrue trivial

instance (db : IdentifierDB) : (c : Call) → Decidable (db.CounterNeutral c)
  | .acquireId _ => inferInstanceAs (Decidable (_ ∨ _))
  | .acquireIdRange _ _ => inferInstanceAs (Decidable (_ ∨ _ ∨ _ ∨ (_ ∧ (_ ∨ _))))
  | .allocId => inferInstanceAs (Decidable db.Addressable)
  | .releaseId _ => .isTrue trivial
  | .releaseIdRange start stop => inferInstanceAs (Decidable (_ ∨ _ ∨ _ ∨
      (_ ∧ ∀ p ∈ rangeWords start stop, word db.bits p.1 &&& p.2 = 0)))

theorem acquireId_of_neutral {db : IdentifierDB} {id : VMAccelId}
    (h : db.CounterNeutral (.acquireId id)) : db.acquireId id = .ok (false, db) := by
  unfold acquireId
  by_cases hle : db.size ≤ id
  · rw [if_pos hle]
  · have hbit : db.bit id.toNat = true := h.resolve_left hle
    rw [if_neg hle, activeId_eq_ok_true.mpr ⟨BitVec.not_le.mp hle, hbit⟩, ok_bind]
    rfl

theorem acquireIdRange_of_neutral {db : IdentifierDB} {start stop : BitVec 32}
    (h : db.CounterNeutral (.acquireIdRange start stop)) :
    ∃ b, db.acquireIdRange start stop = .ok (b, db) := by
  unfold acquireIdRange
  by_cases hle : db.size ≤ start ∨ db.size ≤ stop
  · exact ⟨false, if_pos hle⟩
  · rw [if_neg hle]
    obtain ⟨hstart, hstop⟩ := not_or.mp hle
    by_cases hne : rangeWords start stop = []
    · rw [hne]
      exact ⟨true, rfl⟩
    · obtain ⟨ha, hmask⟩ := ((h.resolve_left hstart).resolve_left hstop).resolve_left hne
      have hi : start.toNat / 32 < db.bits.length := index_lt_length ha (BitVec.not_le.mp hstart)
      by_cases hz : rangeMask start stop = 0
      · have hlt : stop.toNat < db.size.toNat := BitVec.not_le.mp hstop
        rw [rangeWords_of_mask_zero (by have := db.size.isLt; omega) hz hne, acquireWords,
          readAt_word hi, ok_bind]
        simp [acquireWords, setWord_word hi]
      · obtain ⟨rest, hrest⟩ := rangeWords_eq_cons hne
        rw [hrest, acquireWords, readAt_word hi, ok_bind, if_pos (hmask.resolve_left hz)]
        exact ⟨false, rfl⟩

theorem releaseIdRange_of_neutral {db : IdentifierDB} {start stop : BitVec 32}
    (h : db.CounterNeutral (.releaseIdRange start stop)) (hb : db.Balanced) :
    ∃ r, db.releaseIdRange start stop = .ok r ∧ r.2.Balanced := by
  unfold releaseIdRange
  by_cases hle : db.size ≤ start ∨ db.size ≤ stop
  · exact ⟨_, if_pos hle, hb⟩
  · rw [if_neg hle]
    obtain ⟨hstart, hstop⟩ := not_or.mp hle
    by_cases hne : rangeWords start stop = []
    · rw [hne]
      exact ⟨(true, db), rfl, hb⟩
    · obtain ⟨ha, hclear⟩ := ((h.resolve_left hstart).resolve_left hstop).resolve_left hne
      obtain ⟨db', hdb'⟩ := db.exists_releaseWords
        fun p hp => rangeWords_index_lt ha (BitVec.not_le.mp hstop) hp
      obtain ⟨hsize, hfree, hbit⟩ := releaseWords_ok hdb'
      refine ⟨(true, db'), by rw [hdb']; rfl, hb.congr hsize hfree fun j => ?_⟩
      rw [hbit, Bool.and_eq_left_iff_imp]
      intro hj
      rw [Bool.not_eq_true', Bool.eq_false_iff]
      intro htouch
      obtain ⟨p, hp, hjp, hm⟩ := touches_eq_true.mp htouch
      have hz := congrArg (fun v : BitVec 32 => v.getLsbD (j % 32)) (hclear _ hp)
      rw [BitVec.getLsbD_and, ← hjp, hm] at hz
      change (db.bit j && true) = _ at hz
      simp [hj] at hz

theorem acquireId_neutral_of_counts {db : IdentifierDB} {id : VMAccelId}
    {r : Bool × IdentifierDB} (hb : db.Balanced) (hr : db.acquireId id = .ok r)
    (hc : r.2.CountsActive) : db.CounterNeutral (.acquireId id) := by
  rcases acquireId_ok hr with ⟨h, -⟩ | ⟨hlt, hbit, hi, rfl⟩
  · exact h
  · have hmono : ∀ j, db.bit j = true → (db.setBit id.toNat).bit j = true := by
      intro j hj
      rw [bit_setBit hi, hj, Bool.true_or]
    have hnew : (db.setBit id.toNat).bit id.toNat = true := by
      rw [bit_setBit hi, decide_eq_true rfl, Bool.or_true]
    exact absurd hc (hb.countsActive.not_of_new_bit rfl rfl hmono hlt hbit hnew)

/-- A range acquisition that gets past its first word sets the bit of `start`. -/
theorem acquireIdRange_neutral_of_counts {db : IdentifierDB} {start stop : BitVec 32}
    {r : Bool × IdentifierDB} (hb : db.Balanced) (hr : db.acquireIdRange start stop = .ok r)
    (hc : r.2.CountsActive) : db.CounterNeutral (.acquireIdRange start stop) := by
  unfold acquireIdRange at hr
  by_cases hle : db.size ≤ start ∨ db.size ≤ stop
  · exact or_assoc.mp (Or.inl hle)
  · rw [if_neg hle] at hr
    by_cases hne : rangeWords start stop = []
    · exact Or.inr (Or.inr (Or.inl hne))
    · obtain ⟨rest, hrest⟩ := rangeWords_eq_cons hne
      rw [hrest] at hr
      obtain ⟨hi, -⟩ := acquireWords_cons_ok hr
      refine Or.inr (Or.inr (Or.inr ⟨addressable_of_index hi, ?_⟩))
      by_contra hcon
      obtain ⟨hz, hm⟩ := not_or.mp hcon
      obtain ⟨hold, hnew⟩ := acquireWords_sets_start hr (not_not.mp hm) hz
      obtain ⟨hsize, hfree, hmono⟩ := acquireWords_mono hr
      exact hb.countsActive.not_of_new_bit hsize hfree hmono
        (BitVec.not_le.mp (not_or.mp hle).1) hold hnew hc

theorem releaseIdRange_neutral_of_counts {db : IdentifierDB} {start stop : BitVec 32}
    {r : Bool × IdentifierDB} (hb : db.Balanced) (hr : db.releaseIdRange start stop = .ok r)
    (hc : r.2.CountsActive) : db.CounterNeutral (.releaseIdRange start stop) := by
  unfold releaseIdRange at hr
  by_cases hle : db.size ≤ start ∨ db.size ≤ stop
  · exact or_assoc.mp (Or.inl hle)
  · rw [if_neg hle] at hr
    obtain ⟨db', hdb', hr⟩ := bind_eq_ok.mp hr
    obtain rfl : (true, db') = r := Except.ok.inj hr
    obtain ⟨hsize, hfree, hbit⟩ := releaseWords_ok hdb'
    by_cases hne : rangeWords start stop = []
    · exact Or.inr (Or.inr (Or.inl hne))
    · obtain ⟨rest, hrest⟩ := rangeWords_eq_cons hne
      have hi : start.toNat / 32 < db.bits.length := by
        rw [hrest, releaseWords] at hdb'
        obtain ⟨w, hw, -⟩ := bind_eq_ok.mp hdb'
        exact (readAt_bits_ok hw).1
      refine Or.inr (Or.inr (Or.inr ⟨addressable_of_index hi, fun p hp => ?_⟩))
      apply BitVec.eq_of_getLsbD_eq
      intro j hj
      change _ = (0#32).getLsbD j
      rw [BitVec.getLsbD_zero, BitVec.getLsbD_and]
      by_contra hcon
      obtain ⟨hw, hm⟩ := Bool.and_eq_true_iff.mp (Bool.eq_true_of_not_eq_false hcon)
      have hdiv : (32 * p.1 + j) / 32 = p.1 := by omega
      have hmod : (32 * p.1 + j) % 32 = j := by omega
      have hold : db.bit (32 * p.1 + j) = true := by
        rw [IdentifierDB.bit, PackedBits.bit, hdiv, hmod]
        exact hw
      have hnew : db'.bit (32 * p.1 + j) = false := by
        rw [hbit, hold, Bool.true_and, Bool.not_eq_false', touches_eq_true]
        exact ⟨p, hp, hdiv, by rw [hmod, hm]⟩
      have hmono : ∀ k, db'.bit k = true → db.bit k = true := by
        intro k hk
        rw [hbit] at hk
        exact (Bool.and_eq_true_iff.mp hk).1
      exact CountsActive.not_of_new_bit hc hsize.symm hfree.symm hmono
        (hsize ▸ hb.lt_size hold) hnew hold hb.countsActive

theorem Balanced.addressable_of_allocId {db : IdentifierDB}
    {r : Option VMAccelId × IdentifierDB} (hb : db.Balanced) (hr : db.allocId = .ok r) :
    db.Addressable := by
  rcases allocId_ok hr with ⟨hfree, -⟩ | ⟨-, k, hk, -⟩
  · by_contra hna
    have hsum := hb.free_add_popCount
    have hpop : db.popCount = 0 := by
      rw [popCount, bits_eq_nil_of_not_addressable hna]
      rfl
    unfold Addressable at hna
    rw [hfree, hpop] at hsum
    change 0 + 0 = db.size.toNat at hsum
    omega
  · exact addressable_of_index hk

theorem apply_of_neutral {db : IdentifierDB} {c : Call} (hb : db.Balanced)
    (hact : db.ReleasesActive c) (hn : db.CounterNeutral c) :
    ∃ db', db.apply c = .ok db' ∧ db'.Balanced := by
  cases c with
  | acquireId id =>
    exact ⟨db, by rw [apply, acquireId_of_neutral hn]; rfl, hb⟩
  | acquireIdRange start stop =>
    obtain ⟨b, h⟩ := acquireIdRange_of_neutral hn
    exact ⟨db, by rw [apply, h]; rfl, hb⟩
  | allocId =>
    by_cases hfree : db.free = 0
    · exact ⟨db, by rw [apply, allocId, if_pos hfree]; rfl, hb⟩
    · obtain ⟨k, hlt, hk, hff, h⟩ := allocId_of_balanced hb hn hfree
      exact ⟨db.take k, by rw [apply, h]; rfl, hb.take hk hff.1 hlt hfree⟩
  | releaseId id =>
    exact ⟨db.give id.toNat, releaseId_of_active hact, hb.give hact.2⟩
  | releaseIdRange start stop =>
    obtain ⟨r, h, hr⟩ := releaseIdRange_of_neutral hn hb
    exact ⟨r.2, by rw [apply, h]; rfl, hr⟩

theorem neutral_of_apply {db db' : IdentifierDB} {c : Call} (hb : db.Balanced)
    (h : db.apply c = .ok db') (hc : db'.CountsActive) : db.CounterNeutral c := by
  cases c with
  | acquireId id =>
    obtain ⟨r, hr, rfl⟩ := bind_snd_eq_ok.mp h
    exact acquireId_neutral_of_counts hb hr hc
  | acquireIdRange start stop =>
    obtain ⟨r, hr, rfl⟩ := bind_snd_eq_ok.mp h
    exact acquireIdRange_neutral_of_counts hb hr hc
  | allocId =>
    obtain ⟨r, hr, -⟩ := bind_eq_ok.mp h
    exact hb.addressable_of_allocId hr
  | releaseId id => trivial
  | releaseIdRange start stop =>
    obtain ⟨r, hr, rfl⟩ := bind_snd_eq_ok.mp h
    exact releaseIdRange_neutral_of_counts hb hr hc

/-- `IdentifierDB_Count` is the number of active identifiers throughout a run, and no call of it
faults, exactly when every call is neutral in the state it is made in; the same holds for the
balance of the counter with the population of the bit map. -/
theorem count_exact_iff_neutral (size : BitVec 32) (cs : List Call)
    (hact : EachInput apply ReleasesActive (alloc size) cs) :
    (Always apply CountsActive (alloc size) cs ↔ EachInput apply CounterNeutral (alloc size) cs) ∧
      (Always apply Balanced (alloc size) cs ↔ EachInput apply CounterNeutral (alloc size) cs) :=
  ⟨always_iff_eachInput (fun _ h => h.countsActive) (fun _ _ => apply_of_neutral)
      (fun _ _ _ hb _ => neutral_of_apply hb) (balanced_alloc size) hact,
    always_iff_eachInput (fun _ h => h) (fun _ _ => apply_of_neutral)
      (fun _ _ _ hb _ h hb' => neutral_of_apply hb h hb'.countsActive) (balanced_alloc size) hact⟩

theorem count_exact_two_ids :
    EachInput apply ReleasesActive (alloc 2) [.allocId, .acquireId 0, .releaseId 0] ∧
      Always apply CountsActive (alloc 2) [.allocId, .acquireId 0, .releaseId 0] :=
  have hact : EachInput apply ReleasesActive (alloc 2) [.allocId, .acquireId 0, .releaseId 0] := by
    decide
  ⟨hact, (count_exact_iff_neutral 2 _ hact).1.mpr (by decide)⟩

/-- One identifier, acquired explicitly: it is active, and the count is zero. -/
theorem count_zero_after_acquireId :
    ∃ db, run apply (alloc 1) [.acquireId 0] = .ok db ∧ db.activeId 0 = .ok true ∧
      db.count = 0 ∧ ¬ db.CountsActive := by
  refine ⟨(alloc 1).setBit 0, ?_, ?_, ?_, ?_⟩ <;> decide

end VMAccel.IdentifierDB
