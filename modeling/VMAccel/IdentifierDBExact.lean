import VMAccel.IdentifierDBRange

/-!
# Which identifiers the range operations touch

A clean range acquires and releases exactly its own identifiers, in every database that has a bit
map. The other ranges reach identifiers outside of them: a range of 32 identifiers or more that
starts inside a word masks that word as a whole, and so does an inverted range within one word.
An acquisition that fails has changed nothing exactly when it failed in its first word.
-/

namespace VMAccel.IdentifierDB

open PackedBits StepSystem

theorem and_mask_eq_zero (db : IdentifierDB) (i : ℕ) (mask : BitVec 32) :
    word db.bits i &&& mask = 0 ↔
      ∀ j, j / 32 = i → mask.getLsbD (j % 32) = true → db.bit j = false := by
  constructor
  · rintro hzero j rfl hmask
    have hbit := congrArg (fun v : BitVec 32 => v.getLsbD (j % 32)) hzero
    rw [BitVec.getLsbD_and, hmask, Bool.and_true] at hbit
    exact hbit.trans (BitVec.getLsbD_zero ..)
  · intro h
    apply BitVec.eq_of_getLsbD_eq
    intro b hb
    rw [BitVec.getLsbD_and]
    have hdiv : (32 * i + b) / 32 = i := by omega
    have hmod : (32 * i + b) % 32 = b := by omega
    have hj := h (32 * i + b) hdiv
    rw [IdentifierDB.bit, PackedBits.bit, hdiv, hmod] at hj
    cases hmask : mask.getLsbD b with
    | false => simp
    | true => simp [hj hmask]

/-- One pass over words that are all different: it succeeds exactly when no bit under the masks is
set, and then those bits are. -/
theorem acquireWords_spec (db : IdentifierDB) {l : List (ℕ × BitVec 32)}
    (hi : ∀ p ∈ l, p.1 < db.bits.length) (hl : l.Pairwise fun p q => p.1 ≠ q.1) :
    ∃ r, db.acquireWords l = .ok r ∧ (r.1 = true ↔ ∀ j, touches l j = true → db.bit j = false) ∧
      (r.1 = true → ∀ j, r.2.bit j = (db.bit j || touches l j)) := by
  induction l generalizing db with
  | nil => exact ⟨(true, db), rfl, by simp [touches], by simp [touches]⟩
  | cons p rest ih =>
    obtain ⟨hne, hrest⟩ := List.pairwise_cons.mp hl
    have hp := hi p List.mem_cons_self
    rw [acquireWords, readAt_word hp, ok_bind]
    by_cases hclear : word db.bits p.1 &&& p.2 = 0
    · rw [if_neg (not_not.mpr hclear)]
      have hlen : (db.setWord p.1 (word db.bits p.1 ||| p.2)).bits.length = db.bits.length :=
        List.length_set
      obtain ⟨r, hr, hiff, hbits⟩ := ih (db.setWord p.1 (word db.bits p.1 ||| p.2))
        (fun q hq => hlen ▸ hi q (List.mem_cons_of_mem p hq)) hrest
      -- the words of the other rounds are as they were
      have hsame : ∀ j, touches rest j = true →
          (db.setWord p.1 (word db.bits p.1 ||| p.2)).bit j = db.bit j := by
        intro j hj
        obtain ⟨q, hq, hjq, -⟩ := touches_eq_true.mp hj
        have hjp : j / 32 ≠ p.1 := fun h => hne q hq (h.symm.trans hjq)
        rw [bit_setWord_or hp, decide_eq_false hjp, Bool.false_and, Bool.or_false]
      refine ⟨r, hr, ?_, fun htrue j => ?_⟩
      · rw [hiff]
        constructor
        · intro h j hj
          rw [touches_cons, Bool.or_eq_true, Bool.and_eq_true, decide_eq_true_eq] at hj
          rcases hj with ⟨hjp, hm⟩ | hj
          · exact (and_mask_eq_zero db p.1 p.2).mp hclear j hjp hm
          · exact hsame j hj ▸ h j hj
        · intro h j hj
          rw [hsame j hj]
          exact h j (by rw [touches_cons, hj, Bool.or_true])
      · rw [hbits htrue, bit_setWord_or hp, touches_cons, Bool.or_assoc]
    · rw [if_pos hclear]
      refine ⟨(false, db), rfl, iff_of_false Bool.false_ne_true fun h => hclear ?_,
        fun h => absurd h Bool.false_ne_true⟩
      refine (and_mask_eq_zero db p.1 p.2).mpr fun j hjp hm => h j ?_
      rw [touches_cons, decide_eq_true hjp, hm]
      rfl

/-- `AcquireIdRange` succeeds exactly when no identifier of the range is active, and then activates
those and no other. -/
def AcquiresExactly (db : IdentifierDB) (start stop : BitVec 32) : Prop :=
  ∃ r, db.acquireIdRange start stop = .ok r ∧
    (r.1 = true ↔ ∀ id, start ≤ id → id ≤ stop → ¬ db.Active id) ∧
    (r.1 = true → ∀ id, r.2.Active id ↔ db.Active id ∨ (start ≤ id ∧ id ≤ stop))

def ReleasesExactly (db : IdentifierDB) (start stop : BitVec 32) : Prop :=
  ∃ r, db.releaseIdRange start stop = .ok r ∧
    ∀ id, r.2.Active id ↔ db.Active id ∧ ¬ (start ≤ id ∧ id ≤ stop)

/-- The words of the range are words of the bit map. -/
def Reaches (size start stop : BitVec 32) : Prop :=
  size.toNat + 31 < 2 ^ 32 ∨ stop.toNat / 32 < start.toNat / 32

variable {db : IdentifierDB} {start stop : BitVec 32}

theorem index_of_reaches (h : Reaches db.size start stop) (hstop : stop < db.size)
    {p : ℕ × BitVec 32} (hp : p ∈ rangeWords start stop) : p.1 < db.bits.length := by
  rcases h with ha | hlt
  · exact rangeWords_index_lt ha hstop hp
  · rw [rangeWords_of_lt hlt] at hp
    cases hp

theorem acquireIdRange_of_lt (hstart : start < db.size) (hstop : stop < db.size) :
    db.acquireIdRange start stop = db.acquireWords (rangeWords start stop) :=
  if_neg (not_or.mpr ⟨BitVec.not_le.mpr hstart, BitVec.not_le.mpr hstop⟩)

theorem releaseIdRange_of_lt (hstart : start < db.size) (hstop : stop < db.size) :
    db.releaseIdRange start stop = do
      let db' ← db.releaseWords (rangeWords start stop)
      return (true, db') :=
  if_neg (not_or.mpr ⟨BitVec.not_le.mpr hstart, BitVec.not_le.mpr hstop⟩)

theorem toNat_succ_lt_of_lt (hstop : stop < db.size) : stop.toNat + 1 < 2 ^ 32 := by
  have hlt : stop.toNat < db.size.toNat := hstop
  have := db.size.isLt
  omega

theorem acquiresExactly_of_clean (hstart : start < db.size) (hstop : stop < db.size)
    (hclean : Clean start stop) (hreach : Reaches db.size start stop) :
    db.AcquiresExactly start stop := by
  have htouch := touches_rangeWords (toNat_succ_lt_of_lt hstop) hclean
  obtain ⟨r, hr, hiff, hbits⟩ := db.acquireWords_spec (fun p hp => index_of_reaches hreach hstop hp)
    (pairwise_rangeWords start stop)
  have hlt : ∀ id : VMAccelId, id ≤ stop → id < db.size := fun id h =>
    BitVec.lt_def.mpr (Nat.lt_of_le_of_lt h hstop)
  refine ⟨r, (acquireIdRange_of_lt hstart hstop).trans hr, hiff.trans ⟨fun h id h1 h2 hact => ?_,
    fun h j hj => ?_⟩, fun htrue id => ?_⟩
  · have := h id.toNat ((htouch _).mpr ⟨h1, h2⟩)
    exact Bool.false_ne_true (this.symm.trans hact.2)
  · obtain ⟨h1, h2⟩ := (htouch j).mp hj
    have hj32 : j < 2 ^ 32 := h2.trans_lt stop.isLt
    have hnat : (BitVec.ofNat 32 j).toNat = j := Nat.mod_eq_of_lt hj32
    by_contra hbit
    refine h (BitVec.ofNat 32 j) (BitVec.le_def.mpr (hnat.symm ▸ h1))
      (BitVec.le_def.mpr (hnat.symm ▸ h2)) ⟨hlt _ (BitVec.le_def.mpr (hnat.symm ▸ h2)), ?_⟩
    rw [hnat]
    simpa using hbit
  · rw [Active, Active, (acquireWords_mono hr).1, hbits htrue, Bool.or_eq_true, htouch]
    constructor
    · rintro ⟨hid, hbit | hin⟩
      · exact Or.inl ⟨hid, hbit⟩
      · exact Or.inr hin
    · rintro (⟨hid, hbit⟩ | hin)
      · exact ⟨hid, Or.inl hbit⟩
      · exact ⟨hlt id hin.2, Or.inr hin⟩

theorem releasesExactly_of_clean (hstart : start < db.size) (hstop : stop < db.size)
    (hclean : Clean start stop) (hreach : Reaches db.size start stop) :
    db.ReleasesExactly start stop := by
  have htouch := touches_rangeWords (toNat_succ_lt_of_lt hstop) hclean
  obtain ⟨db', hdb'⟩ := db.exists_releaseWords fun p hp => index_of_reaches hreach hstop hp
  obtain ⟨hsize, -, hbits⟩ := releaseWords_ok hdb'
  refine ⟨(true, db'), ?_, fun id => ?_⟩
  · rw [releaseIdRange_of_lt hstart hstop, hdb']
    rfl
  · rw [Active, Active, hsize, hbits, Bool.and_eq_true, Bool.not_eq_true', Bool.eq_false_iff, Ne,
      htouch, and_assoc]
    exact Iff.rfl

theorem rangeMask_whole (h : 32 ≤ (stop - start + 1).toNat) :
    rangeMask start stop = BitVec.allOnes 32 := by
  have hbits : (if 32 < stop - start + 1 then 32 else stop - start + 1) = 32 := by
    split_ifs with hlt
    · rfl
    · apply BitVec.eq_of_toNat_eq
      exact le_antisymm (BitVec.not_lt.mp hlt) h
  unfold rangeMask
  dsimp only
  rw [if_pos hbits]
  rfl

theorem exists_touched_outside (hstart : start < db.size) (hstop : stop < db.size)
    (hclean : ¬ Clean start stop) :
    ∃ id < db.size, touches (rangeWords start stop) id.toNat = true ∧
      ¬ (start ≤ id ∧ id ≤ stop) := by
  have hs : start.toNat < db.size.toNat := hstart
  have he : stop.toNat < db.size.toNat := hstop
  have hbound := db.size.isLt
  unfold Clean at hclean
  have hlen : 32 ≤ (stop - start + 1).toNat := by
    rw [BitVec.toNat_add, BitVec.toNat_sub]
    change 32 ≤ ((2 ^ 32 - start.toNat + stop.toNat) % 2 ^ 32 + 1) % 2 ^ 32
    omega
  have htouch : ∀ j, j / 32 = start.toNat / 32 → touches (rangeWords start stop) j = true := by
    intro j hj
    rw [rangeWords_of_le (by omega), touches_cons, rangeMask_whole hlen, decide_eq_true hj,
      BitVec.getLsbD_allOnes, decide_eq_true (Nat.mod_lt j (by decide))]
    rfl
  by_cases hle : start.toNat ≤ stop.toNat
  · have hnat : (BitVec.ofNat 32 (start.toNat - 1)).toNat = start.toNat - 1 :=
      Nat.mod_eq_of_lt (by omega)
    refine ⟨BitVec.ofNat 32 (start.toNat - 1), ?_, htouch _ (by omega), fun hin => ?_⟩
    · rw [BitVec.lt_def, hnat]
      omega
    · have := BitVec.le_def.mp hin.1
      omega
  · exact ⟨start, hstart, htouch _ rfl, fun hin => hle hin.2⟩

/-- The range operations touch exactly the range, in every database of the given size, exactly
when the range is clean and its words are words of the bit map. -/
theorem rangeOps_exact_iff (size start stop : BitVec 32) (hstart : start < size)
    (hstop : stop < size) :
    (∀ db : IdentifierDB, db.size = size →
      db.AcquiresExactly start stop ∧ db.ReleasesExactly start stop) ↔
      Clean start stop ∧ Reaches size start stop := by
  constructor
  · intro h
    obtain ⟨r, hr, hiff, hact⟩ := (h (alloc size) rfl).1
    have hstart' : start < (alloc size).size := hstart
    have hstop' : stop < (alloc size).size := hstop
    rw [acquireIdRange_of_lt hstart' hstop'] at hr
    have hreach : Reaches size start stop := by
      by_contra hno
      obtain ⟨hsize, hrounds⟩ := not_or.mp hno
      rw [rangeWords_of_le (Nat.le_of_not_lt hrounds)] at hr
      exact hsize (addressable_of_index (acquireWords_cons_ok hr).1)
    refine ⟨?_, hreach⟩
    by_contra hclean
    obtain ⟨id, hid, htouch, hout⟩ := exists_touched_outside hstart' hstop' hclean
    obtain ⟨r', hr', -, hbits⟩ := (alloc size).acquireWords_spec
      (fun p hp => index_of_reaches hreach hstop' hp)
      (pairwise_rangeWords start stop)
    obtain rfl : r = r' := Except.ok.inj (hr.symm.trans hr')
    have hinactive : ∀ j, ¬ (alloc size).Active j := fun j hj =>
      Bool.false_ne_true ((bit_alloc size _).symm.trans hj.2)
    have htrue : r.1 = true := hiff.mpr fun j _ _ => hinactive j
    have hnew : r.2.Active id := by
      refine ⟨(acquireWords_mono hr).1.symm ▸ hid, ?_⟩
      rw [hbits htrue, htouch, Bool.or_true]
    exact ((hact htrue id).mp hnew).elim (hinactive id) hout
  · rintro ⟨hclean, hreach⟩ db rfl
    exact ⟨acquiresExactly_of_clean hstart hstop hclean hreach,
      releasesExactly_of_clean hstart hstop hclean hreach⟩

theorem rangeOps_exact_demo :
    Clean 4 8 ∧ Clean 32 63 ∧ (alloc 64).AcquiresExactly 4 8 ∧
      (alloc 64).ReleasesExactly 32 63 := by
  refine ⟨by decide, by decide, ?_, ?_⟩
  · exact ((rangeOps_exact_iff 64 4 8 (by decide) (by decide)).mpr
      ⟨by decide, Or.inl (by decide)⟩ (alloc 64) rfl).1
  · exact ((rangeOps_exact_iff 64 32 63 (by decide) (by decide)).mpr
      ⟨by decide, Or.inl (by decide)⟩ (alloc 64) rfl).2

/-- The range from 1 to 32 also takes, and releases, identifier 0; the empty range from 5 to 2
takes the whole word. -/
theorem range_touches_outside :
    (∃ r, (alloc 64).acquireIdRange 1 32 = .ok r ∧ r.1 = true ∧ r.2.Active 0) ∧
      (∃ r, ((alloc 64).setBit 0).releaseIdRange 1 32 = .ok r ∧
        ((alloc 64).setBit 0).Active 0 ∧ ¬ r.2.Active 0) ∧
      ∃ r, (alloc 64).acquireIdRange 5 2 = .ok r ∧ r.1 = true ∧ r.2.Active 0 ∧ r.2.Active 31 := by
  refine ⟨⟨_, rfl, ?_, ?_⟩, ⟨_, rfl, ?_, ?_⟩, ⟨_, rfl, ?_, ?_, ?_⟩⟩ <;> decide

/-- The acquisition is refused at its bounds or in its first word. -/
def ConflictFirst (db : IdentifierDB) (start stop : BitVec 32) : Prop :=
  db.size ≤ start ∨ db.size ≤ stop ∨
    word db.bits (start.toNat / 32) &&& rangeMask start stop ≠ 0

/-- A failed acquisition leaves every identifier as it was exactly when the conflict is in the
first word that it visits. -/
theorem failed_acquire_unchanged_iff (db db' : IdentifierDB) (start stop : BitVec 32)
    (hr : db.acquireIdRange start stop = .ok (false, db')) :
    (∀ id, db'.Active id ↔ db.Active id) ↔ db.ConflictFirst start stop := by
  unfold acquireIdRange at hr
  by_cases hle : db.size ≤ start ∨ db.size ≤ stop
  · rw [if_pos hle] at hr
    cases hr
    exact iff_of_true (fun _ => Iff.rfl) (or_assoc.mp (Or.inl hle))
  · rw [if_neg hle] at hr
    obtain ⟨hstart, hstop⟩ := not_or.mp hle
    have hlt : start < db.size := BitVec.not_le.mp hstart
    have hne : rangeWords start stop ≠ [] := by
      intro hnil
      rw [hnil] at hr
      cases hr
    have hmask : rangeMask start stop ≠ 0 := by
      intro hzero
      rw [rangeWords_of_mask_zero (toNat_succ_lt_of_lt (BitVec.not_le.mp hstop)) hzero hne] at hr
      obtain ⟨-, ⟨hconflict, -⟩ | ⟨-, hdone⟩⟩ := acquireWords_cons_ok hr
      · exact hconflict (by simp)
      · cases hdone
    obtain ⟨rest, hrest⟩ := rangeWords_eq_cons hne
    rw [hrest] at hr
    obtain ⟨-, ⟨hconflict, heq⟩ | ⟨hclear, -⟩⟩ := acquireWords_cons_ok hr
    · cases heq
      exact iff_of_true (fun _ => Iff.rfl) (Or.inr (Or.inr hconflict))
    · obtain ⟨hold, hnew⟩ := acquireWords_sets_start hr hclear hmask
      refine iff_of_false (fun hsame => ?_) ?_
      · have hact : db'.Active start := ⟨(acquireWords_mono hr).1.symm ▸ hlt, hnew⟩
        exact Bool.false_ne_true (hold.symm.trans ((hsame start).mp hact).2)
      · rintro (h | h | h)
        · exact hstart h
        · exact hstop h
        · exact h hclear

theorem failed_acquire_unchanged_demo :
    ((alloc 64).setBit 3).ConflictFirst 2 40 ∧
      ∃ db', ((alloc 64).setBit 3).acquireIdRange 2 40 = .ok (false, db') ∧
        ∀ id, db'.Active id ↔ ((alloc 64).setBit 3).Active id := by
  have hconflict : ((alloc 64).setBit 3).ConflictFirst 2 40 := Or.inr (Or.inr (by decide))
  exact ⟨hconflict, _, rfl, (failed_acquire_unchanged_iff _ _ 2 40 rfl).mpr hconflict⟩

/-- Identifier 40 is active, so the range from 8 to 40 fails, but 8 has become active. -/
theorem failed_acquire_changes :
    ∃ db', ((alloc 64).setBit 40).acquireIdRange 8 40 = .ok (false, db') ∧
      db'.Active 8 ∧ ¬ ((alloc 64).setBit 40).Active 8 :=
  ⟨_, rfl, by decide, by decide⟩

end VMAccel.IdentifierDB
