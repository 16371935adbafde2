import VMAccel.IdentifierDBCount
import VMAccel.IdentifierDBExact

/-!
# Word indices of the identifier database

An access at or beyond `numWords` is the fault `outOfBounds`, so the indices of an operation are in
bounds exactly when it does not end with that fault. The bounds are checked against `size`, and the
number of words is computed from it in 32 bits: a size above `2^32 - 32` has identifiers but no
words. The range loops advance 32-bit variables; here they run as the source has them, with a limit
on the number of rounds, and are compared with the walk over `rangeWords`.
-/

namespace VMAccel.IdentifierDB

open PackedBits StepSystem

/-- The word by word printing of `IdentifierDB_Log`, `n` words from word `i` on. -/
def logFrom (db : IdentifierDB) : ℕ → ℕ → Except Fault (List (BitVec 32))
  | 0, _ => .ok []
  | n + 1, i => do
    let w ← readAt db.bits i
    let rest ← logFrom db n (i + 1)
    return w :: rest

def log (db : IdentifierDB) : Except Fault (List (BitVec 32)) := db.logFrom db.numWords.toNat 0

/-- All operations that look at the bit map; `IdentifierDB_Count` and `IdentifierDB_Size` do not. -/
inductive Op
  | call (c : Call)
  | activeId (id : VMAccelId)
  | log
  deriving DecidableEq

def operate (db : IdentifierDB) : Op → Except Fault IdentifierDB
  | .call c => db.apply c
  | .activeId id => do
    let _ ← db.activeId id
    return db
  | .log => do
    let _ ← db.log
    return db

def Op.Indexes (size : BitVec 32) : Op → Prop
  | .call (.acquireId id) => id < size
  | .call (.releaseId id) => id < size
  | .activeId id => id < size
  | .call (.acquireIdRange start stop) =>
    start < size ∧ stop < size ∧ start.toNat / 32 ≤ stop.toNat / 32
  | .call (.releaseIdRange start stop) =>
    start < size ∧ stop < size ∧ start.toNat / 32 ≤ stop.toNat / 32
  | .call .allocId => False
  | .log => False

instance (size : BitVec 32) : (op : Op) → Decidable (op.Indexes size)
  | .call (.acquireId _) | .call (.releaseId _) | .activeId _ => inferInstanceAs (Decidable (_ < _))
  | .call (.acquireIdRange _ _) | .call (.releaseIdRange _ _) =>
    inferInstanceAs (Decidable (_ ∧ _ ∧ _))
  | .call .allocId | .log => .isFalse id

section RangeLoops

/-- One round of the loop of `IdentifierDB_AcquireIdRange`, and whether the loop goes on. -/
def acquireWord (mask : BitVec 32) (i : ℕ) (db : IdentifierDB) :
    Except Fault (Bool × IdentifierDB) := do
  let w ← readAt db.bits i
  if w &&& mask ≠ 0 then return (false, db)
  return (true, db.setWord i (w ||| mask))

/-- One round of the loop of `IdentifierDB_ReleaseIdRange`, which always goes on. -/
def releaseWord (mask : BitVec 32) (i : ℕ) (db : IdentifierDB) :
    Except Fault (Bool × IdentifierDB) := do
  let w ← readAt db.bits i
  return (true, db.setWord i (w &&& ~~~mask))

variable (round : BitVec 32 → ℕ → IdentifierDB → Except Fault (Bool × IdentifierDB))

/-- The `for` loop of the range operations on the 32-bit variables `i` and `start`. It tests its
condition at most `fuel` times; `none` says that this was not enough. -/
def rangeLoop (stop : BitVec 32) :
    ℕ → BitVec 32 → BitVec 32 → IdentifierDB → Option (Except Fault (Bool × IdentifierDB))
  | 0, _, _, _ => none
  | fuel + 1, i, start, db =>
    if i ≤ stop / 32 then
      match round (rangeMask start stop) i.toNat db with
      | .ok (true, db') => rangeLoop stop fuel (i + 1) (start + (32 - start % 32)) db'
      | r => some r
    else some (.ok (true, db))

def rounds : List (ℕ × BitVec 32) → IdentifierDB → Except Fault (Bool × IdentifierDB)
  | [], db => .ok (true, db)
  | (i, mask) :: rest, db =>
    match round mask i db with
    | .ok (true, db') => rounds rest db'
    | r => r

/-- The loop ends after the rounds of `rangeWordsFrom`: `end / 32` is below `2^27`, so `i` does not
wrap before it is passed. -/
theorem rangeLoop_eq_rounds {stop i : BitVec 32} {fuel n : ℕ}
    (hn : stop.toNat / 32 + 1 - i.toNat = n) (hfuel : n < fuel) (start : BitVec 32)
    (db : IdentifierDB) :
    rangeLoop round stop fuel i start db =
      some (rounds round (rangeWordsFrom n i.toNat start stop) db) := by
  have hstop : (stop / 32).toNat = stop.toNat / 32 := BitVec.toNat_udiv
  have hlt := stop.isLt
  induction n generalizing fuel i start db with
  | zero =>
    obtain ⟨fuel, rfl⟩ : ∃ f, fuel = f + 1 := ⟨fuel - 1, by omega⟩
    have hexit : ¬ i ≤ stop / 32 := by
      rw [BitVec.le_def, hstop]
      omega
    rw [rangeLoop, if_neg hexit]
    rfl
  | succ n ih =>
    obtain ⟨fuel, rfl⟩ : ∃ f, fuel = f + 1 := ⟨fuel - 1, by omega⟩
    have hgo : i ≤ stop / 32 := by
      rw [BitVec.le_def, hstop]
      omega
    have hnext : (i + 1).toNat = i.toNat + 1 := by
      rw [BitVec.toNat_add]
      change (i.toNat + 1) % 2 ^ 32 = i.toNat + 1
      omega
    rw [rangeLoop, if_pos hgo, rangeWordsFrom, rounds]
    rcases hround : round (rangeMask start stop) i.toNat db with e | ⟨_ | _, db'⟩
    · rfl
    · rfl
    · dsimp only
      rw [ih (by omega) (by omega), hnext]

theorem rounds_acquireWord (l : List (ℕ × BitVec 32)) (db : IdentifierDB) :
    rounds acquireWord l db = db.acquireWords l := by
  induction l generalizing db with
  | nil => rfl
  | cons p rest ih =>
    rw [rounds, acquireWord, acquireWords]
    cases readAt db.bits p.1 with
    | error e => rfl
    | ok w =>
      simp only [ok_bind]
      by_cases hw : w &&& p.2 = 0
      · rw [if_neg (not_not.mpr hw), if_neg (not_not.mpr hw)]
        exact ih _
      · rw [if_pos hw, if_pos hw]
        rfl

theorem rounds_releaseWord (l : List (ℕ × BitVec 32)) (db : IdentifierDB) :
    rounds releaseWord l db = do
      let db' ← db.releaseWords l
      return (true, db') := by
  induction l generalizing db with
  | nil => rfl
  | cons p rest ih =>
    rw [rounds, releaseWord, releaseWords]
    cases readAt db.bits p.1 with
    | error e => rfl
    | ok w => exact ih _

/-- Both range operations end: their loops test the condition at most `2^27 + 1` times, and what
they compute is the walk over `rangeWords`. -/
theorem rangeLoops_end (db : IdentifierDB) (start stop : BitVec 32) :
    rangeLoop acquireWord stop (2 ^ 27 + 1) (start / 32) start db =
        some (db.acquireWords (rangeWords start stop)) ∧
      rangeLoop releaseWord stop (2 ^ 27 + 1) (start / 32) start db = some (do
        let db' ← db.releaseWords (rangeWords start stop)
        return (true, db')) := by
  have hstart : (start / 32).toNat = start.toNat / 32 := BitVec.toNat_udiv
  have hlt := stop.isLt
  have hfuel : stop.toNat / 32 + 1 - (start / 32).toNat < 2 ^ 27 + 1 := by omega
  have hwords : rangeWordsFrom (stop.toNat / 32 + 1 - (start / 32).toNat) (start / 32).toNat start
      stop = rangeWords start stop := by rw [hstart, rangeWords]
  rw [rangeLoop_eq_rounds _ rfl hfuel, rangeLoop_eq_rounds _ rfl hfuel, hwords, rounds_acquireWord,
    rounds_releaseWord]
  exact ⟨rfl, rfl⟩

end RangeLoops

theorem returns_logFrom (db : IdentifierDB) {n i : ℕ} (h : i + n ≤ db.bits.length) :
    Returns (db.logFrom n i) := by
  induction n generalizing i with
  | zero => exact returns_ok _
  | succ n ih =>
    rw [logFrom, readAt_word (by omega), ok_bind]
    exact returns_map.mpr (ih (by omega))

variable {db : IdentifierDB} {id : VMAccelId} {start stop : BitVec 32}

theorem readAt_of_not_addressable (h : ¬ db.Addressable) (i : ℕ) :
    readAt db.bits i = .error .outOfBounds := by
  rw [bits_eq_nil_of_not_addressable h]
  rfl

/-- A function that checks the identifier against the size first goes wrong exactly when its body
does, on an identifier below the size. -/
theorem checked_outOfBounds {α : Type} {a : α} {body : Except Fault α}
    (hin : db.Addressable → id < db.size → body ≠ .error .outOfBounds)
    (hout : ¬ db.Addressable → id < db.size → body = .error .outOfBounds) :
    (if db.size ≤ id then .ok a else body) = .error .outOfBounds ↔
      ¬ db.Addressable ∧ id < db.size := by
  by_cases hle : db.size ≤ id
  · rw [if_pos hle]
    exact iff_of_false (by simp) fun h => BitVec.not_lt.mpr hle h.2
  · have hlt : id < db.size := BitVec.not_le.mp hle
    rw [if_neg hle]
    exact ⟨fun h => ⟨fun ha => hin ha hlt h, hlt⟩, fun h => hout h.1 hlt⟩

theorem activeId_outOfBounds :
    db.activeId id = .error .outOfBounds ↔ ¬ db.Addressable ∧ id < db.size := by
  refine checked_outOfBounds (fun ha hlt => ?_) fun ha _ => ?_
  · rw [readAt_word (index_lt_length ha hlt)]
    exact (returns_ok _).ne_error _
  · rw [readAt_of_not_addressable ha]
    rfl

theorem acquireId_outOfBounds :
    db.acquireId id = .error .outOfBounds ↔ ¬ db.Addressable ∧ id < db.size := by
  refine checked_outOfBounds (fun ha hlt => ?_) fun ha hlt => ?_
  · rw [activeId_of_addressable ha, ok_bind, readAt_word (index_lt_length ha hlt)]
    split_ifs
    · exact (returns_ok _).ne_error _
    · exact (returns_ok _).ne_error _
  · rw [activeId_outOfBounds.mpr ⟨ha, hlt⟩]
    rfl

theorem releaseId_outOfBounds :
    db.releaseId id = .error .outOfBounds ↔ ¬ db.Addressable ∧ id < db.size := by
  refine checked_outOfBounds (fun ha hlt => ?_) fun ha _ => ?_
  · rw [readAt_word (index_lt_length ha hlt), ok_bind]
    -- a double free is the other fault
    split_ifs
    · exact (returns_ok _).ne_error _
    · decide
  · rw [readAt_of_not_addressable ha]
    rfl

/-- A walk over the words of a range that passes the checks goes wrong exactly when there is a word
to visit and the bit map has none. -/
theorem walk_outOfBounds {α : Type} (walk : List (ℕ × BitVec 32) → Except Fault α)
    (hnil : Returns (walk []))
    (hin : (∀ p ∈ rangeWords start stop, p.1 < db.bits.length) →
      Returns (walk (rangeWords start stop)))
    (hout : ¬ db.Addressable → ∀ p rest, walk (p :: rest) = .error .outOfBounds)
    (hstop : stop < db.size) :
    walk (rangeWords start stop) = .error .outOfBounds ↔
      ¬ db.Addressable ∧ start.toNat / 32 ≤ stop.toNat / 32 := by
  rcases Nat.lt_or_ge (stop.toNat / 32) (start.toNat / 32) with hlt | hle
  · rw [rangeWords_of_lt hlt]
    exact iff_of_false (hnil.ne_error _) fun h => by omega
  · by_cases ha : db.Addressable
    · exact iff_of_false ((hin fun p hp => rangeWords_index_lt ha hstop hp).ne_error _)
        fun h => h.1 ha
    · rw [rangeWords_of_le hle]
      exact iff_of_true (hout ha _ _) ⟨ha, hle⟩

theorem acquireIdRange_outOfBounds :
    db.acquireIdRange start stop = .error .outOfBounds ↔ ¬ db.Addressable ∧ start < db.size ∧
      stop < db.size ∧ start.toNat / 32 ≤ stop.toNat / 32 := by
  by_cases hle : db.size ≤ start ∨ db.size ≤ stop
  · rw [acquireIdRange, if_pos hle]
    refine iff_of_false ((returns_ok _).ne_error _) fun h => ?_
    exact hle.elim (BitVec.not_le.mpr h.2.1) (BitVec.not_le.mpr h.2.2.1)
  · obtain ⟨hstart, hstop⟩ := not_or.mp hle
    rw [BitVec.not_le] at hstart hstop
    rw [acquireIdRange_of_lt hstart hstop, walk_outOfBounds db.acquireWords (returns_ok _)
      (fun hin => ?_) (fun ha p rest => ?_) hstop]
    · exact and_congr_right fun _ => ⟨fun h => ⟨hstart, hstop, h⟩, fun h => h.2.2⟩
    · obtain ⟨r, hr, -⟩ := db.acquireWords_spec hin (pairwise_rangeWords start stop)
      exact ⟨r, hr⟩
    · rw [acquireWords, readAt_of_not_addressable ha]
      rfl

theorem releaseIdRange_outOfBounds :
    db.releaseIdRange start stop = .error .outOfBounds ↔ ¬ db.Addressable ∧ start < db.size ∧
      stop < db.size ∧ start.toNat / 32 ≤ stop.toNat / 32 := by
  by_cases hle : db.size ≤ start ∨ db.size ≤ stop
  · rw [releaseIdRange, if_pos hle]
    refine iff_of_false ((returns_ok _).ne_error _) fun h => ?_
    exact hle.elim (BitVec.not_le.mpr h.2.1) (BitVec.not_le.mpr h.2.2.1)
  · obtain ⟨hstart, hstop⟩ := not_or.mp hle
    rw [BitVec.not_le] at hstart hstop
    rw [releaseIdRange_of_lt hstart hstop]
    refine map_eq_error.trans ?_
    rw [walk_outOfBounds db.releaseWords (returns_ok _) db.exists_releaseWords (fun ha p rest => ?_)
      hstop]
    · exact and_congr_right fun _ => ⟨fun h => ⟨hstart, hstop, h⟩, fun h => h.2.2⟩
    · rw [releaseWords, readAt_of_not_addressable ha]
      rfl

theorem allocId_ne_outOfBounds : db.allocId ≠ .error .outOfBounds := by
  unfold allocId
  split_ifs
  · exact (returns_ok _).ne_error _
  · rw [← db.length_bits]
    rcases db.allocIdFrom_spec db.bits.length 0 (by omega) (by simp) with ⟨k, -, -, hok⟩ | ⟨-, herr⟩
    · exact Returns.ne_error ⟨_, hok⟩ _
    · rw [herr]
      decide

/-- An operation leaves the bit map exactly when the number of words wrapped and the operation
passes the checks against `size`. -/
theorem operate_outOfBounds {op : Op} :
    db.operate op = .error .outOfBounds ↔ ¬ db.Addressable ∧ op.Indexes db.size := by
  cases op with
  | call c =>
    cases c with
    | acquireId id => exact map_eq_error.trans acquireId_outOfBounds
    | acquireIdRange start stop => exact map_eq_error.trans acquireIdRange_outOfBounds
    | allocId =>
      exact iff_of_false (fun h => allocId_ne_outOfBounds (map_eq_error.mp h)) fun h => h.2
    | releaseId id => exact releaseId_outOfBounds
    | releaseIdRange start stop => exact map_eq_error.trans releaseIdRange_outOfBounds
  | activeId id => exact map_eq_error.trans activeId_outOfBounds
  | log =>
    have hlog : Returns db.log := db.returns_logFrom (by rw [db.length_bits, Nat.zero_add])
    exact iff_of_false (fun h => hlog.ne_error _ (map_eq_error.mp h)) fun h => h.2

theorem size_operate {db' : IdentifierDB} {op : Op} (h : db.operate op = .ok db') :
    db'.size = db.size := by
  cases op with
  | call c =>
    cases c with
    | acquireId id =>
      obtain ⟨r, hr, rfl⟩ := bind_snd_eq_ok.mp h
      exact (acquireId_active hr).1
    | acquireIdRange start stop =>
      obtain ⟨r, hr, rfl⟩ := bind_snd_eq_ok.mp h
      unfold acquireIdRange at hr
      split_ifs at hr
      · cases hr
        rfl
      · exact (acquireWords_mono hr).1
    | allocId =>
      obtain ⟨r, hr, rfl⟩ := bind_snd_eq_ok.mp h
      rcases allocId_ok hr with ⟨-, rfl⟩ | ⟨-, k, -, -, rfl⟩ <;> rfl
    | releaseId id =>
      rcases releaseId_ok h with ⟨-, rfl⟩ | ⟨-, rfl⟩ <;> rfl
    | releaseIdRange start stop =>
      obtain ⟨r, hr, rfl⟩ := bind_snd_eq_ok.mp h
      unfold releaseIdRange at hr
      split_ifs at hr
      · cases hr
        rfl
      · obtain ⟨db', hdb', hr⟩ := bind_eq_ok.mp hr
        cases hr
        exact (releaseWords_ok hdb').1
  | activeId id =>
    obtain ⟨_, -, hr⟩ := bind_eq_ok.mp h
    cases hr
    rfl
  | log =>
    obtain ⟨_, -, hr⟩ := bind_eq_ok.mp h
    cases hr
    rfl

/-- In every run on a new database, each operation stays inside the bit map exactly when the number
of words did not wrap or the operation is turned away by the checks against `size`; and the loops
of the range operations always end. -/
theorem indices_in_bounds_iff (size : BitVec 32) (ops : List Op) :
    (EachInput operate (fun db op => db.operate op ≠ .error .outOfBounds) (alloc size) ops ↔
      EachInput operate (fun _ op => size.toNat + 31 < 2 ^ 32 ∨ ¬ op.Indexes size) (alloc size)
        ops) ∧
    ∀ (db : IdentifierDB) (start stop : BitVec 32),
      rangeLoop acquireWord stop (2 ^ 27 + 1) (start / 32) start db =
          some (db.acquireWords (rangeWords start stop)) ∧
        rangeLoop releaseWord stop (2 ^ 27 + 1) (start / 32) start db = some (do
          let db' ← db.releaseWords (rangeWords start stop)
          return (true, db')) := by
  refine ⟨eachInput_iff (I := fun db => db.size = size) (fun db op hsize => ?_)
    (fun db op db' hsize _ h => (size_operate h).trans hsize) rfl, rangeLoops_end⟩
  rw [Ne, operate_outOfBounds, not_and_or, not_not, hsize, Addressable, hsize]

/-- An accelerator made with `-1` reference objects has a database of `2^32 - 1` identifiers, none
of which has a word. -/
theorem activeId_outOfBounds_of_wrapped :
    (alloc 0xffffffff).numWords = 0 ∧
      (alloc 0xffffffff).operate (.activeId 0) = .error .outOfBounds ∧
      (alloc 0xffffffff).operate (.call (.acquireIdRange 0 31)) = .error .outOfBounds := by
  refine ⟨by decide, ?_, ?_⟩ <;> exact operate_outOfBounds.mpr ⟨by decide, by decide⟩

end VMAccel.IdentifierDB
