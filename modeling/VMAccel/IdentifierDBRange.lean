import VMAccel.IdentifierDBBalance

/-!
# The range loops of the identifier database

`AcquireIdRange` and `ReleaseIdRange` walk the same list of words with the same masks. The
statements here say which words that list visits, which bits lie under its masks, and what one
pass over such a list does to the bits; neither pass touches the counter. The masks are those of
the range only when it is `Clean`: a first word that is masked as a whole must be a whole word of
the range, and an inverted range must not reach the loop with a length that wraps.
-/

namespace VMAccel.IdentifierDB

open PackedBits StepSystem

def touches (l : List (ℕ × BitVec 32)) (j : ℕ) : Bool :=
  l.any fun p => decide (j / 32 = p.1) && p.2.getLsbD (j % 32)

theorem touches_cons (p : ℕ × BitVec 32) (l : List (ℕ × BitVec 32)) (j : ℕ) :
    touches (p :: l) j = ((decide (j / 32 = p.1) && p.2.getLsbD (j % 32)) || touches l j) :=
  List.any_cons

theorem touches_eq_true {l : List (ℕ × BitVec 32)} {j : ℕ} :
    touches l j = true ↔ ∃ p ∈ l, j / 32 = p.1 ∧ p.2.getLsbD (j % 32) = true := by
  simp [touches]

/-- The ranges for which the masks are right. -/
def Clean (start stop : BitVec 32) : Prop :=
  (start.toNat ≤ stop.toNat ∧ (start.toNat % 32 = 0 ∨ stop.toNat - start.toNat < 31)) ∨
    start.toNat = stop.toNat + 1 ∨ stop.toNat / 32 < start.toNat / 32

instance (start stop : BitVec 32) : Decidable (Clean start stop) :=
  inferInstanceAs (Decidable (_ ∨ _))

theorem getLsbD_lowMask {n : ℕ} (hn : n < 32) (j : ℕ) :
    (1#32 <<< n - 1).getLsbD j = decide (j < n) := by
  have hpow : 2 ^ n < 2 ^ 32 := Nat.pow_lt_pow_right (by decide) hn
  have hpos : 0 < 2 ^ n := Nat.two_pow_pos n
  have hshift : (1#32 <<< n).toNat = 2 ^ n := by
    rw [BitVec.toNat_shiftLeft, Nat.shiftLeft_eq]
    change 1 * 2 ^ n % 2 ^ 32 = 2 ^ n
    rw [Nat.one_mul, Nat.mod_eq_of_lt hpow]
  have htoNat : (1#32 <<< n - 1).toNat = 2 ^ n - 1 := by
    rw [BitVec.toNat_sub, hshift]
    change (2 ^ 32 - 1 + 2 ^ n) % 2 ^ 32 = _
    omega
  rw [BitVec.getLsbD, htoNat, Nat.testBit_two_pow_sub_one]

/-- The mask contains the bits from `start` on, up to the end of the word or of the range. -/
theorem getLsbD_rangeMask {start stop : BitVec 32} {d : ℕ} (hd : d < (stop - start + 1).toNat)
    (hword : start.toNat % 32 + d < 32) :
    (rangeMask start stop).getLsbD (start.toNat % 32 + d) = true := by
  unfold rangeMask
  dsimp only
  by_cases h32 : (if 32 < stop - start + 1 then 32 else stop - start + 1) = 32
  · rw [if_pos h32, show (0xffffffff : BitVec 32) = BitVec.allOnes 32 from rfl,
      BitVec.getLsbD_allOnes]
    simpa using hword
  · have hle : ¬ 32 < stop - start + 1 := fun hlt => h32 (if_pos hlt)
    rw [if_neg hle] at h32 ⊢
    have hlt : (stop - start + 1).toNat < 32 := by
      have h1 : (stop - start + 1).toNat ≤ 32 := BitVec.not_lt.mp hle
      have h2 : (stop - start + 1).toNat ≠ 32 := fun he => h32 (BitVec.eq_of_toNat_eq he)
      omega
    rw [if_neg h32, BitVec.getLsbD_shiftLeft, Nat.add_sub_cancel_left, getLsbD_lowMask hlt,
      decide_eq_true hd]
    simp [hword]

theorem getLsbD_rangeMask_start {start stop : BitVec 32} (h : stop - start + 1 ≠ 0) :
    (rangeMask start stop).getLsbD (start.toNat % 32) = true := by
  have hpos : 0 < (stop - start + 1).toNat :=
    Nat.pos_of_ne_zero fun h0 => h (BitVec.eq_of_toNat_eq h0)
  exact getLsbD_rangeMask hpos (Nat.mod_lt _ (by decide))

theorem sub_add_one_ne_zero_of_rangeMask {start stop : BitVec 32} (h : rangeMask start stop ≠ 0) :
    stop - start + 1 ≠ 0 := by
  intro hzero
  apply h
  unfold rangeMask
  dsimp only
  rw [hzero]
  simp

theorem rangeWordsFrom_index {n i : ℕ} {start stop : BitVec 32} {p : ℕ × BitVec 32}
    (hp : p ∈ rangeWordsFrom n i start stop) : i ≤ p.1 ∧ p.1 < i + n := by
  induction n generalizing i start with
  | zero => simp [rangeWordsFrom] at hp
  | succ n ih =>
    rcases List.mem_cons.mp hp with rfl | hp
    · exact ⟨le_rfl, by omega⟩
    · obtain ⟨h1, h2⟩ := ih hp
      exact ⟨by omega, by omega⟩

theorem rangeWords_index_lt {db : IdentifierDB} (h : db.Addressable) {start stop : BitVec 32}
    (hstop : stop < db.size) {p : ℕ × BitVec 32} (hp : p ∈ rangeWords start stop) :
    p.1 < db.bits.length := by
  obtain ⟨h1, h2⟩ := rangeWordsFrom_index hp
  have := index_lt_length h hstop
  omega

theorem rangeWords_eq_cons {start stop : BitVec 32} (h : rangeWords start stop ≠ []) :
    ∃ rest, rangeWords start stop = (start.toNat / 32, rangeMask start stop) :: rest := by
  unfold rangeWords at h ⊢
  cases hn : stop.toNat / 32 + 1 - start.toNat / 32 with
  | zero => simp [hn, rangeWordsFrom] at h
  | succ n => exact ⟨_, rfl⟩

theorem rangeWords_of_mask_zero {start stop : BitVec 32} (hstop : stop.toNat + 1 < 2 ^ 32)
    (h : rangeMask start stop = 0) (hne : rangeWords start stop ≠ []) :
    rangeWords start stop = [(start.toNat / 32, 0)] := by
  have hzero : stop - start + 1 = 0 := by
    by_contra hne
    have := getLsbD_rangeMask_start hne
    simp [h] at this
  have hnat : (stop.toNat + 1) % 2 ^ 32 = start.toNat := by
    have := congrArg BitVec.toNat hzero
    rw [BitVec.toNat_add, BitVec.toNat_sub] at this
    change (((2 ^ 32 - start.toNat + stop.toNat) % 2 ^ 32) + 1) % 2 ^ 32 = 0 at this
    have := start.isLt
    have := stop.isLt
    omega
  unfold rangeWords at hne ⊢
  obtain hrounds | hrounds : stop.toNat / 32 + 1 - start.toNat / 32 = 0 ∨
      stop.toNat / 32 + 1 - start.toNat / 32 = 1 := by omega
  · simp [hrounds, rangeWordsFrom] at hne
  · rw [hrounds]
    simp [rangeWordsFrom, h]

theorem setWord_word {db : IdentifierDB} {i : ℕ} (hi : i < db.bits.length) :
    db.setWord i (word db.bits i) = db := by
  have hset : db.bits.set i (word db.bits i) = db.bits := by simp [word, hi]
  cases db
  simp only [setWord, IdentifierDB.mk.injEq, true_and]
  exact hset

theorem bit_setWord_or {db : IdentifierDB} {i : ℕ} (hi : i < db.bits.length) (m : BitVec 32)
    (j : ℕ) : (db.setWord i (word db.bits i ||| m)).bit j =
      (db.bit j || (decide (j / 32 = i) && m.getLsbD (j % 32))) := bit_set_or hi m j

theorem bit_setWord_andNot {db : IdentifierDB} {i : ℕ} (hi : i < db.bits.length) (m : BitVec 32)
    (j : ℕ) : (db.setWord i (word db.bits i &&& ~~~m)).bit j =
      (db.bit j && !(decide (j / 32 = i) && m.getLsbD (j % 32))) :=
  bit_set_andNot hi m (by decide) j

theorem acquireWords_cons_ok {db : IdentifierDB} {i : ℕ} {mask : BitVec 32}
    {rest : List (ℕ × BitVec 32)} {r : Bool × IdentifierDB}
    (hr : db.acquireWords ((i, mask) :: rest) = .ok r) :
    i < db.bits.length ∧ ((word db.bits i &&& mask ≠ 0 ∧ r = (false, db)) ∨
      (word db.bits i &&& mask = 0 ∧
        (db.setWord i (word db.bits i ||| mask)).acquireWords rest = .ok r)) := by
  rw [acquireWords] at hr
  obtain ⟨w, hw, hr⟩ := bind_eq_ok.mp hr
  obtain ⟨hi, rfl⟩ := readAt_bits_ok hw
  refine ⟨hi, ?_⟩
  by_cases hm : word db.bits i &&& mask = 0
  · exact Or.inr ⟨hm, by simpa [hm] using hr⟩
  · rw [if_pos hm] at hr
    exact Or.inl ⟨hm, (Except.ok.inj hr).symm⟩

theorem acquireWords_mono {l : List (ℕ × BitVec 32)} {db : IdentifierDB}
    {r : Bool × IdentifierDB} (hr : db.acquireWords l = .ok r) :
    r.2.size = db.size ∧ r.2.free = db.free ∧ ∀ j, db.bit j = true → r.2.bit j = true := by
  induction l generalizing db with
  | nil =>
    cases hr
    exact ⟨rfl, rfl, fun _ h => h⟩
  | cons p rest ih =>
    obtain ⟨hi, ⟨-, rfl⟩ | ⟨-, hrest⟩⟩ := acquireWords_cons_ok hr
    · exact ⟨rfl, rfl, fun _ h => h⟩
    · obtain ⟨hs, hf, hb⟩ := ih hrest
      refine ⟨hs, hf, fun j hj => hb j ?_⟩
      rw [bit_setWord_or hi, hj, Bool.true_or]

/-- A range acquisition that gets past its first word has set the bit of `start`. -/
theorem acquireWords_sets_start {db : IdentifierDB} {start stop : BitVec 32}
    {rest : List (ℕ × BitVec 32)} {r : Bool × IdentifierDB}
    (hr : db.acquireWords ((start.toNat / 32, rangeMask start stop) :: rest) = .ok r)
    (hclear : word db.bits (start.toNat / 32) &&& rangeMask start stop = 0)
    (hmask : rangeMask start stop ≠ 0) :
    db.bit start.toNat = false ∧ r.2.bit start.toNat = true := by
  have hbit := getLsbD_rangeMask_start (sub_add_one_ne_zero_of_rangeMask hmask)
  constructor
  · have hzero := congrArg (fun v : BitVec 32 => v.getLsbD (start.toNat % 32)) hclear
    rw [BitVec.getLsbD_and, hbit] at hzero
    simpa [IdentifierDB.bit, PackedBits.bit] using hzero
  · obtain ⟨hi, ⟨hconflict, -⟩ | ⟨-, hrest⟩⟩ := acquireWords_cons_ok hr
    · exact absurd hclear hconflict
    · apply (acquireWords_mono hrest).2.2
      rw [bit_setWord_or hi, hbit, decide_eq_true rfl, Bool.true_and, Bool.or_true]

theorem releaseWords_ok {l : List (ℕ × BitVec 32)} {db db' : IdentifierDB}
    (hr : db.releaseWords l = .ok db') :
    db'.size = db.size ∧ db'.free = db.free ∧ ∀ j, db'.bit j = (db.bit j && !touches l j) := by
  induction l generalizing db with
  | nil =>
    cases hr
    simp [touches]
  | cons p rest ih =>
    rw [releaseWords] at hr
    obtain ⟨w, hw, hr⟩ := bind_eq_ok.mp hr
    obtain ⟨hi, rfl⟩ := readAt_bits_ok hw
    obtain ⟨hs, hf, hb⟩ := ih hr
    refine ⟨hs, hf, fun j => ?_⟩
    rw [hb, bit_setWord_andNot hi, touches_cons, Bool.not_or, Bool.and_assoc]

theorem exists_releaseWords (db : IdentifierDB) {l : List (ℕ × BitVec 32)}
    (h : ∀ p ∈ l, p.1 < db.bits.length) : ∃ db', db.releaseWords l = .ok db' := by
  induction l generalizing db with
  | nil => exact ⟨db, rfl⟩
  | cons p rest ih =>
    rw [releaseWords, readAt_word (h p List.mem_cons_self), ok_bind]
    apply ih
    intro q hq
    rw [(db.setWord p.1 _).length_bits]
    exact db.length_bits ▸ h q (List.mem_cons_of_mem p hq)

theorem next_word (start : BitVec 32) :
    start + (32 - start % 32) = BitVec.ofNat 32 (32 * (start.toNat / 32 + 1)) := by
  have hmod : (start % 32).toNat = start.toNat % 32 := BitVec.toNat_umod
  have hsub : (32 - start % 32).toNat = 32 - start.toNat % 32 := by
    rw [BitVec.toNat_sub, hmod]
    change (2 ^ 32 - start.toNat % 32 + 32) % 2 ^ 32 = _
    omega
  apply BitVec.eq_of_toNat_eq
  rw [BitVec.toNat_add, hsub, BitVec.toNat_ofNat]
  congr 1
  omega

theorem toNat_word {w : ℕ} (hw : 32 * w < 2 ^ 32) : (BitVec.ofNat 32 (32 * w)).toNat = 32 * w := by
  rw [BitVec.toNat_ofNat, Nat.mod_eq_of_lt hw]

theorem rangeWordsFrom_aligned {n i : ℕ} (stop : BitVec 32) (hn : 32 * (i + n) ≤ 2 ^ 32) :
    rangeWordsFrom n i (BitVec.ofNat 32 (32 * i)) stop =
      (List.range' i n).map fun w => (w, rangeMask (BitVec.ofNat 32 (32 * w)) stop) := by
  induction n generalizing i with
  | zero => rfl
  | succ n ih =>
    have hnext := next_word (BitVec.ofNat 32 (32 * i))
    rw [toNat_word (by omega), Nat.mul_div_cancel_left i (by decide)] at hnext
    rw [rangeWordsFrom, hnext, ih (by omega)]
    rfl

theorem rangeWords_of_le {start stop : BitVec 32} (h : start.toNat / 32 ≤ stop.toNat / 32) :
    rangeWords start stop = (start.toNat / 32, rangeMask start stop) ::
      (List.range' (start.toNat / 32 + 1) (stop.toNat / 32 - start.toNat / 32)).map fun w =>
        (w, rangeMask (BitVec.ofNat 32 (32 * w)) stop) := by
  have hrounds : stop.toNat / 32 + 1 - start.toNat / 32 =
      stop.toNat / 32 - start.toNat / 32 + 1 := by omega
  have hlt := stop.isLt
  rw [rangeWords, hrounds, rangeWordsFrom, next_word, rangeWordsFrom_aligned stop (by omega)]

theorem rangeWords_of_lt {start stop : BitVec 32} (h : stop.toNat / 32 < start.toNat / 32) :
    rangeWords start stop = [] := by
  rw [rangeWords, Nat.sub_eq_zero_of_le h]
  rfl

theorem pairwise_rangeWords (start stop : BitVec 32) :
    (rangeWords start stop).Pairwise fun p q => p.1 ≠ q.1 := by
  rcases Nat.lt_or_ge (stop.toNat / 32) (start.toNat / 32) with h | h
  · rw [rangeWords_of_lt h]
    exact List.Pairwise.nil
  · rw [rangeWords_of_le h, List.pairwise_cons, List.pairwise_map]
    refine ⟨fun q hq => ?_, List.nodup_range'⟩
    obtain ⟨w, hw, rfl⟩ := List.mem_map.mp hq
    have := List.mem_range'_1.mp hw
    dsimp only
    omega

theorem getLsbD_rangeMask_iff {start stop : BitVec 32} (hstop : stop.toNat + 1 < 2 ^ 32)
    (hle : start.toNat ≤ stop.toNat)
    (hclean : start.toNat % 32 = 0 ∨ stop.toNat - start.toNat < 31) {b : ℕ} (hb : b < 32) :
    (rangeMask start stop).getLsbD b = true ↔
      start.toNat % 32 ≤ b ∧ 32 * (start.toNat / 32) + b ≤ stop.toNat := by
  have hlen : (stop - start + 1).toNat = stop.toNat - start.toNat + 1 := by
    rw [BitVec.toNat_add, BitVec.toNat_sub]
    change ((2 ^ 32 - start.toNat + stop.toNat) % 2 ^ 32 + 1) % 2 ^ 32 = _
    omega
  by_cases hwhole : 32 ≤ stop.toNat - start.toNat + 1
  · have hbit : (rangeMask start stop).getLsbD (start.toNat % 32 + b) = true :=
      getLsbD_rangeMask (by omega) (by omega)
    rw [hclean.resolve_right (by omega), Nat.zero_add] at hbit
    exact iff_of_true hbit ⟨by omega, by omega⟩
  · have hle32 : ¬ 32 < stop - start + 1 := by
      rw [BitVec.lt_def, hlen]
      change ¬ 32 < _
      omega
    have hne32 : stop - start + 1 ≠ 32 := by
      intro h32
      rw [h32] at hlen
      exact hwhole (le_of_eq hlen)
    unfold rangeMask
    dsimp only
    rw [if_neg hle32, if_neg hne32, BitVec.getLsbD_shiftLeft, getLsbD_lowMask (by omega), hlen]
    simp only [Bool.and_eq_true, Bool.not_eq_true', decide_eq_true_eq, decide_eq_false_iff_not]
    omega

theorem touches_rangeWords {start stop : BitVec 32} (hstop : stop.toNat + 1 < 2 ^ 32)
    (h : Clean start stop) (j : ℕ) :
    touches (rangeWords start stop) j = true ↔ start.toNat ≤ j ∧ j ≤ stop.toNat := by
  rcases h with ⟨hle, h⟩ | h
  · have hrest : ∀ w, start.toNat / 32 < w → w ≤ stop.toNat / 32 →
        ((rangeMask (BitVec.ofNat 32 (32 * w)) stop).getLsbD (j % 32) = true ↔
          32 * w + j % 32 ≤ stop.toNat) := by
      intro w _ hw
      have hnat : (BitVec.ofNat 32 (32 * w)).toNat = 32 * w := toNat_word (by omega)
      rw [getLsbD_rangeMask_iff hstop (by omega) (Or.inl (by omega)) (Nat.mod_lt j (by decide)),
        hnat]
      omega
    rw [rangeWords_of_le (Nat.div_le_div_right hle), touches_eq_true]
    simp only [List.mem_cons, List.mem_map, List.mem_range'_1, exists_eq_or_imp,
      exists_exists_and_eq_and]
    rw [getLsbD_rangeMask_iff hstop hle h (Nat.mod_lt j (by decide))]
    constructor
    · rintro (⟨hj, h1, h2⟩ | ⟨w, hw, hj, hbit⟩)
      · omega
      · rw [hrest w (by omega) (by omega)] at hbit
        omega
    · rintro ⟨h1, h2⟩
      by_cases hj : j / 32 = start.toNat / 32
      · exact Or.inl ⟨hj, by omega, by omega⟩
      · refine Or.inr ⟨j / 32, by omega, rfl, (hrest _ (by omega) (by omega)).mpr (by omega)⟩
  · refine iff_of_false ?_ (by omega)
    by_cases hrounds : stop.toNat / 32 < start.toNat / 32
    · simp [rangeWords_of_lt hrounds, touches]
    · -- the one mask of `start = stop + 1` has no bits
      have hzero : stop - start + 1 = 0 := by
        apply BitVec.eq_of_toNat_eq
        rw [BitVec.toNat_add, BitVec.toNat_sub]
        change ((2 ^ 32 - start.toNat + stop.toNat) % 2 ^ 32 + 1) % 2 ^ 32 = 0
        omega
      have hmask : rangeMask start stop = 0 := by
        unfold rangeMask
        rw [hzero]
        simp
      have hone : stop.toNat / 32 - start.toNat / 32 = 0 := by omega
      rw [rangeWords_of_le (by omega), hone, hmask]
      simp [touches]

theorem releaseIdRange_all {db : IdentifierDB} {r : Bool × IdentifierDB}
    (hr : db.releaseIdRange 0 (db.size - 1) = .ok r) :
    r.2.size = db.size ∧ ∀ id, ¬ r.2.Active id := by
  unfold releaseIdRange at hr
  by_cases hzero : db.size = 0
  · rw [hzero, if_pos (Or.inl (BitVec.le_refl _))] at hr
    cases hr
    exact ⟨rfl, fun id hact => absurd (hzero ▸ hact.1) (by simp)⟩
  · have hpos : 0 < db.size.toNat := Nat.pos_of_ne_zero fun h0 => hzero (BitVec.eq_of_toNat_eq h0)
    have hstop : (db.size - 1).toNat = db.size.toNat - 1 := by
      rw [BitVec.toNat_sub]
      change (2 ^ 32 - 1 + db.size.toNat) % 2 ^ 32 = _
      omega
    have hclean : Clean 0 (db.size - 1) := Or.inl ⟨Nat.zero_le _, Or.inl rfl⟩
    have hin : ¬ (db.size ≤ 0 ∨ db.size ≤ db.size - 1) := by
      rw [not_or, BitVec.le_def, BitVec.le_def, hstop]
      exact ⟨Nat.not_le.mpr hpos, by omega⟩
    rw [if_neg hin] at hr
    obtain ⟨db', hdb', hr⟩ := bind_eq_ok.mp hr
    cases hr
    obtain ⟨hsize, -, hbit⟩ := releaseWords_ok hdb'
    refine ⟨hsize, fun id hact => ?_⟩
    have hlt : id.toNat < db.size.toNat := hsize ▸ hact.1
    have htouch : touches (rangeWords 0 (db.size - 1)) id.toNat = true :=
      (touches_rangeWords (by omega) hclean _).mpr ⟨Nat.zero_le _, by omega⟩
    have hset := hact.2
    rw [hbit, htouch] at hset
    simp at hset

end VMAccel.IdentifierDB
