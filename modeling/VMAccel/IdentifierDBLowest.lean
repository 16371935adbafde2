import Mathlib.Data.Finset.Option
import VMAccel.IdentifierDBBalance

/-!
# The lowest free identifier

`AllocId` and `ReleaseId` as an allocator: next to the database stands the set of the identifiers
that it has handed out and not taken back, kept from the answers of `AllocId` alone. In a database
that has a bit map the active identifiers are always those of the set, `AllocId` answers with the
least identifier outside of it, and fails only when it holds every identifier below `size`.
-/

namespace VMAccel.IdentifierDB

open PackedBits StepSystem

inductive IdCall
  | allocId
  | releaseId (id : VMAccelId)
  deriving DecidableEq

structure Issued where
  db : IdentifierDB
  ids : Finset VMAccelId

namespace Issued

def new (size : BitVec 32) : Issued := ⟨.alloc size, ∅⟩

def step (s : Issued) : IdCall → Except Fault Issued
  | .allocId => do
    let r ← s.db.allocId
    return ⟨r.2, s.ids ∪ r.1.toFinset⟩
  | .releaseId id => do
    let db ← s.db.releaseId id
    return ⟨db, s.ids.erase id⟩

def Releases (size : BitVec 32) (s : Issued) : IdCall → Prop
  | .allocId => True
  | .releaseId id => s.db.Active id ∨ size ≤ id

instance (size : BitVec 32) (s : Issued) : (c : IdCall) → Decidable (s.Releases size c)
  | .allocId => .isTrue trivial
  | .releaseId _ => inferInstanceAs (Decidable (_ ∨ _))

/-- `AllocId` fails exactly when all identifiers below `size` are out, and otherwise hands out the
least one that is not, which becomes active with no other. -/
def AllocatesLowest (size : BitVec 32) (s : Issued) : Prop :=
  (∀ id, s.db.Active id ↔ id ∈ s.ids) ∧ ∃ r, s.db.allocId = .ok r ∧
    (r.1 = none ↔ ∀ id, id ∈ s.ids ↔ id < size) ∧
    (∀ id, r.1 = some id → id ∉ s.ids ∧ id < size ∧ ∀ j, j ∉ s.ids → id ≤ j) ∧
    ∀ j, r.2.Active j ↔ j ∈ s.ids ∨ r.1 = some j

/-- The set and the bit map agree. -/
structure Agrees (size : BitVec 32) (s : Issued) : Prop where
  size_eq : s.db.size = size
  balanced : s.db.Balanced
  active_iff : ∀ id, s.db.Active id ↔ id ∈ s.ids

theorem agrees_new (size : BitVec 32) : (new size).Agrees size where
  size_eq := rfl
  balanced := balanced_alloc size
  active_iff id := iff_of_false (fun h => Bool.false_ne_true ((bit_alloc size _).symm.trans h.2))
    (Finset.notMem_empty id)

variable {size : BitVec 32} {s : Issued}

theorem Agrees.lt_size (h : s.Agrees size) {id : VMAccelId} (hid : id ∈ s.ids) : id < size :=
  h.size_eq ▸ ((h.active_iff id).mpr hid).1

theorem Agrees.bit_eq_false (h : s.Agrees size) {id : VMAccelId} (hid : id ∉ s.ids)
    (hlt : id < size) : s.db.bit id.toNat = false := by
  by_contra hbit
  exact hid ((h.active_iff id).mp ⟨h.size_eq.symm ▸ hlt, Bool.eq_true_of_not_eq_false hbit⟩)

theorem Agrees.allocId (h : s.Agrees size) (ha : s.db.Addressable) :
    ((∀ id, id ∈ s.ids ↔ id < size) ∧ s.db.allocId = .ok (none, s.db)) ∨
      ∃ k, k / 32 < s.db.bits.length ∧ s.db.allocId =
          .ok (some (BitVec.ofNat 32 k), s.db.take k) ∧ (s.db.take k).Balanced ∧
        k < s.db.size.toNat ∧ (BitVec.ofNat 32 k).toNat = k ∧ BitVec.ofNat 32 k ∉ s.ids ∧
        ∀ j, j ∉ s.ids → BitVec.ofNat 32 k ≤ j := by
  by_cases hfree : s.db.free = 0
  · refine Or.inl ⟨fun id => ⟨h.lt_size, fun hlt => ?_⟩, if_pos hfree⟩
    by_contra hid
    exact h.balanced.free_ne_zero (h.size_eq.symm ▸ hlt) (h.bit_eq_false hid hlt) hfree
  · obtain ⟨k, hlt, hk, hff, hok⟩ := allocId_of_balanced h.balanced ha hfree
    have hnat : (BitVec.ofNat 32 k).toNat = k := Nat.mod_eq_of_lt (hlt.trans s.db.size.isLt)
    refine Or.inr ⟨k, hk, hok, h.balanced.take hk hff.1 hlt hfree, hlt, hnat, fun hid => ?_,
      fun j hj => ?_⟩
    · have hbit := ((h.active_iff _).mpr hid).2
      rw [hnat, hff.1] at hbit
      exact Bool.false_ne_true hbit
    · rw [BitVec.le_def, hnat]
      by_cases hjs : j < size
      · exact hff.le (h.bit_eq_false hj hjs)
      · have : size.toNat ≤ j.toNat := BitVec.not_lt.mp hjs
        rw [h.size_eq] at hlt
        omega

theorem Agrees.allocatesLowest (h : s.Agrees size) (ha : s.db.Addressable) :
    s.AllocatesLowest size := by
  refine ⟨h.active_iff, ?_⟩
  rcases h.allocId ha with ⟨hall, hok⟩ | ⟨k, hk, hok, -, hlt, hnat, hnot, hleast⟩
  · refine ⟨_, hok, iff_of_true rfl hall, fun _ hid => (Option.some_ne_none _ hid.symm).elim,
      fun j => ?_⟩
    rw [h.active_iff]
    exact (or_iff_left (Option.some_ne_none j).symm).symm
  · have hsize : BitVec.ofNat 32 k < size := by
      rw [← h.size_eq, BitVec.lt_def, hnat]
      exact hlt
    refine ⟨_, hok, iff_of_false (Option.some_ne_none _) fun hall => hnot ((hall _).mpr hsize),
      fun id hid => ?_, fun j => ?_⟩
    · cases hid
      exact ⟨hnot, hsize, hleast⟩
    · rw [active_take hk hlt, h.active_iff, Option.some_inj]
      refine or_congr_right ⟨fun hj => ?_, fun hj => ?_⟩
      · exact BitVec.eq_of_toNat_eq (hnat.trans hj.symm)
      · rw [← hj, hnat]

theorem Agrees.step (h : s.Agrees size) (ha : s.db.Addressable) {c : IdCall}
    (hc : s.Releases size c) : ∃ s', s.step c = .ok s' ∧ s'.Agrees size := by
  cases c with
  | allocId =>
    rcases h.allocId ha with ⟨-, hok⟩ | ⟨k, hk, hok, hbal, hlt, hnat, -, -⟩
    · refine ⟨⟨s.db, s.ids ∪ ∅⟩, by rw [Issued.step, hok]; rfl, h.size_eq, h.balanced, fun id => ?_⟩
      rw [Finset.union_empty]
      exact h.active_iff id
    · refine ⟨⟨s.db.take k, s.ids ∪ {BitVec.ofNat 32 k}⟩, by rw [Issued.step, hok]; rfl, h.size_eq,
        hbal, fun id => ?_⟩
      rw [active_take hk hlt, h.active_iff, Finset.mem_union, Finset.mem_singleton]
      refine or_congr_right ⟨fun hid => ?_, fun hid => ?_⟩
      · exact BitVec.eq_of_toNat_eq (hid.trans hnat.symm)
      · rw [hid, hnat]
  | releaseId id =>
    by_cases hact : s.db.Active id
    · refine ⟨⟨s.db.give id.toNat, s.ids.erase id⟩, ?_, h.size_eq, h.balanced.give hact.2,
        fun j => ?_⟩
      · rw [Issued.step, releaseId_of_active hact]
        rfl
      · rw [active_give (bit_lt_length hact.2), h.active_iff, Finset.mem_erase, and_comm, Ne,
          BitVec.toNat_inj]
    · have hle : size ≤ id := hc.resolve_left hact
      have hnot : id ∉ s.ids := fun hid => hact ((h.active_iff id).mpr hid)
      refine ⟨⟨s.db, s.ids.erase id⟩, ?_, h.size_eq, h.balanced, fun j => ?_⟩
      · rw [Issued.step, releaseId_of_size_le (h.size_eq.symm ▸ hle)]
        rfl
      · rw [Finset.erase_eq_of_notMem hnot]
        exact h.active_iff j

end Issued

/-- In every run of `AllocId` and of permitted `ReleaseId` calls on a new database of at most
`2^32 - 32` identifiers, no call faults and every `AllocId` is a lowest-free allocation. -/
theorem allocId_lowest_free (size : BitVec 32) (hsize : size.toNat ≤ 2 ^ 32 - 32)
    (cs : List IdCall) (hcs : EachInput Issued.step (Issued.Releases size) (.new size) cs) :
    Always Issued.step (Issued.AllocatesLowest size) (.new size) cs := by
  have haddr : ∀ s : Issued, s.Agrees size → s.db.Addressable := by
    intro s h
    rw [Addressable, h.size_eq]
    omega
  refine (always_iff_eachInput (I := Issued.Agrees size) (C := Issued.Releases size)
    (fun s h => h.allocatesLowest (haddr s h)) (fun s c h hc _ => h.step (haddr s h) hc)
    (fun _ _ _ _ hc _ _ => hc) (Issued.agrees_new size) hcs).mpr hcs

theorem allocId_lowest_free_demo :
    Always Issued.step (Issued.AllocatesLowest 2) (.new 2)
      [.allocId, .allocId, .allocId, .releaseId 0, .releaseId 7, .allocId] :=
  allocId_lowest_free 2 (by decide) _ (by decide)

end VMAccel.IdentifierDB
