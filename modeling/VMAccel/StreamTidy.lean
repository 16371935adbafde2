import VMAccel.IdentifierDBBalance
import VMAccel.Stream

/-!
# The slot database and the threads

`Tidy` relates the bits of the slot database, the table of thread handles and the stages of the
threads. The lemmas below say which moves of the sender and of a thread keep it.
-/

namespace VMAccel.Streams

open IdentifierDB

theorem toNat_slot {k : ℕ} (hk : k < maxStreams) : (BitVec.ofNat 32 k).toNat = k :=
  Nat.mod_eq_of_lt (hk.trans (by decide))

/-- A bit of the database is set for the slot that the sender is about to use and for the slots
whose thread has not given it back. -/
structure Tidy (s : Streams) : Prop where
  size : s.svrDB.size = BitVec.ofNat 32 maxStreams
  length_clntThread : s.clntThread.length = maxStreams
  handle : ∀ i t : ℕ, s.clntThread[i]? = some (some t) →
    ∃ th : StreamThread, s.threads[t]? = some th ∧ th.index.toNat = i
  live : ∀ (t : ℕ) (th : StreamThread), s.threads[t]? = some th → th.stage.live = true →
    s.clntThread[th.index.toNat]? = some (some t)
  taken : ∀ i < maxStreams, s.svrDB.bit i = true ↔
    s.sender = .creating (BitVec.ofNat 32 i) ∨ ∃ th, s.slotThread i = some th ∧ th.stage.holds
  creating : ∀ index, s.sender = .creating index → index.toNat < maxStreams ∧
    ∀ th, s.slotThread index.toNat = some th → th.stage.holds = false
  acquiring : s.sender = .acquiring → ∀ th, s.slotThread 0 = some th → th.stage.live = false

theorem tidy_powerOn : powerOn.Tidy where
  size := rfl
  length_clntThread := rfl
  handle i t h := by
    change (List.replicate maxStreams none)[i]? = _ at h
    rw [List.getElem?_replicate] at h
    split_ifs at h
    cases h
  live t th h := by cases h
  taken i hi := by
    change (IdentifierDB.alloc _).bit i = true ↔ _
    rw [bit_alloc]
    simp [powerOn, slotThread, hi]
  creating _ h := by cases h
  acquiring h := by cases h

theorem Tidy.addressable {s : Streams} (h : s.Tidy) : s.svrDB.Addressable := by
  unfold Addressable
  rw [h.size]
  decide

theorem Tidy.index_lt_bits {s : Streams} (h : s.Tidy) {i : ℕ} (hi : i < maxStreams) :
    i / 32 < s.svrDB.bits.length :=
  index_lt_length h.addressable (by rw [h.size]; exact hi)

theorem slotThread_of_handle {s : Streams} {i t : ℕ} (h : s.clntThread[i]? = some (some t)) :
    s.slotThread i = s.threads[t]? := by
  unfold slotThread
  rw [h]

theorem slotThread_eq_some {s : Streams} {i : ℕ} {th : StreamThread}
    (h : s.slotThread i = some th) :
    ∃ t, s.clntThread[i]? = some (some t) ∧ s.threads[t]? = some th := by
  unfold slotThread at h
  split at h
  · next t ht => exact ⟨t, ht, h⟩
  · cases h

theorem slotThread_congr {s s' : Streams} {i : ℕ} (hi : s'.clntThread[i]? = s.clntThread[i]?)
    (hthreads : ∀ t, s.clntThread[i]? = some (some t) → s'.threads[t]? = s.threads[t]?) :
    s'.slotThread i = s.slotThread i := by
  unfold slotThread
  rw [hi]
  split
  · next t ht => exact hthreads t ht
  · rfl

theorem Tidy.slotThread_of_live {s : Streams} (h : s.Tidy) {t : ℕ} {th : StreamThread}
    (ht : s.threads[t]? = some th) (hlive : th.stage.live = true) :
    s.slotThread th.index.toNat = some th :=
  (slotThread_of_handle (h.live t th ht hlive)).trans ht

theorem Tidy.index_lt {s : Streams} (h : s.Tidy) {t : ℕ} {th : StreamThread}
    (ht : s.threads[t]? = some th) (hlive : th.stage.live = true) :
    th.index.toNat < maxStreams := by
  have hlt := (List.getElem?_eq_some_iff.mp (h.live t th ht hlive)).1
  rwa [h.length_clntThread] at hlt

theorem Tidy.setSender {s : Streams} (h : s.Tidy) {sender : Sender}
    (hold : ∀ index, s.sender ≠ .creating index) (hnew : ∀ index, sender ≠ .creating index)
    (hacq : sender = .acquiring → ∀ th, s.slotThread 0 = some th → th.stage.live = false) :
    Tidy { s with sender := sender } where
  size := h.size
  length_clntThread := h.length_clntThread
  handle := h.handle
  live := h.live
  taken i hi := by
    rw [h.taken i hi]
    exact or_congr_left (iff_of_false (hold _) (hnew _))
  creating index hindex := absurd hindex (hnew index)
  acquiring := hacq

theorem Tidy.claim {s : Streams} (h : s.Tidy) {k : ℕ} (hk : k < maxStreams)
    (hold : ∀ index, s.sender ≠ .creating index) (hbit : s.svrDB.bit k = false)
    {db : IdentifierDB} (hsize : db.size = s.svrDB.size)
    (hdb : ∀ j, db.bit j = (s.svrDB.bit j || decide (j = k))) :
    Tidy { s with svrDB := db, sender := .creating (BitVec.ofNat 32 k) } where
  size := hsize.trans h.size
  length_clntThread := h.length_clntThread
  handle := h.handle
  live := h.live
  taken i hi := by
    have heq : Sender.creating (BitVec.ofNat 32 k) = .creating (BitVec.ofNat 32 i) ↔ i = k := by
      rw [Sender.creating.injEq]
      constructor
      · intro he
        have hnat := congrArg BitVec.toNat he
        rw [toNat_slot hk, toNat_slot hi] at hnat
        exact hnat.symm
      · rintro rfl
        rfl
    change db.bit i = true ↔ Sender.creating (BitVec.ofNat 32 k) = _ ∨ _
    rw [hdb, Bool.or_eq_true, decide_eq_true_eq, h.taken i hi, or_iff_right (hold _), heq]
    exact or_comm
  creating index hindex := by
    obtain rfl := Sender.creating.inj hindex
    rw [toNat_slot hk]
    refine ⟨hk, fun th hth => ?_⟩
    by_contra hholds
    have htaken := (h.taken k hk).mpr (Or.inr ⟨th, hth, by simpa using hholds⟩)
    rw [hbit] at htaken
    cases htaken
  acquiring hacq := by cases hacq

/-- The state after a thread was started in the slot `index`. -/
def started (s : Streams) (index : VMAccelId) : Streams :=
  { s with
    clntThread := s.clntThread.set index.toNat (some s.threads.length)
    threads := s.threads ++ [⟨index, .running⟩]
    sender := .idle }

theorem Tidy.slotThread_started {s : Streams} (h : s.Tidy) {index : VMAccelId}
    (hlt : index.toNat < maxStreams) (i : ℕ) :
    (s.started index).slotThread i =
      if i = index.toNat then some ⟨index, .running⟩ else s.slotThread i := by
  split_ifs with hi
  · have hset : (s.started index).clntThread[i]? = some (some s.threads.length) := by
      change (s.clntThread.set index.toNat _)[i]? = _
      rw [hi, List.getElem?_set_self (by rw [h.length_clntThread]; exact hlt)]
    rw [slotThread_of_handle hset]
    exact List.getElem?_concat_length
  · refine slotThread_congr (List.getElem?_set_ne (Ne.symm hi)) fun t ht => ?_
    obtain ⟨th, hth, -⟩ := h.handle i t ht
    exact List.getElem?_append_left (List.getElem?_eq_some_iff.mp hth).1

theorem Tidy.started {s : Streams} (h : s.Tidy) {index : VMAccelId}
    (hcre : s.sender = .creating index)
    (hended : ∀ th, s.slotThread index.toNat = some th → th.stage ≠ .exiting) :
    (s.started index).Tidy where
  size := h.size
  length_clntThread := by
    change (s.clntThread.set _ _).length = _
    rw [List.length_set, h.length_clntThread]
  handle i t ht := by
    change (s.clntThread.set _ _)[i]? = _ at ht
    change ∃ th : StreamThread, (s.threads ++ [⟨index, .running⟩])[t]? = some th ∧ _
    by_cases hi : index.toNat = i
    · subst hi
      rw [List.getElem?_set_self (by rw [h.length_clntThread]; exact (h.creating _ hcre).1)] at ht
      cases ht
      exact ⟨_, List.getElem?_concat_length, rfl⟩
    · rw [List.getElem?_set_ne hi] at ht
      obtain ⟨th, hth, hthi⟩ := h.handle i t ht
      exact ⟨th, (List.getElem?_append_left (List.getElem?_eq_some_iff.mp hth).1).trans hth, hthi⟩
  live t th ht hlive := by
    change (s.threads ++ [⟨index, .running⟩])[t]? = some th at ht
    change (s.clntThread.set _ _)[th.index.toNat]? = _
    by_cases hlt : t < s.threads.length
    · rw [List.getElem?_append_left hlt] at ht
      have hslot := h.slotThread_of_live ht hlive
      have hne : index.toNat ≠ th.index.toNat := by
        intro he
        rw [← he] at hslot
        have hexit := hended th hslot
        have hfree := (h.creating _ hcre).2 th hslot
        cases hstage : th.stage <;> simp [hstage, Stage.live, Stage.holds] at hlive hexit hfree
      rw [List.getElem?_set_ne hne]
      exact h.live t th ht hlive
    · rw [List.getElem?_append_right (by omega), List.getElem?_singleton] at ht
      split_ifs at ht with hzero
      cases ht
      rw [List.getElem?_set_self (by rw [h.length_clntThread]; exact (h.creating _ hcre).1),
        show t = s.threads.length by omega]
  taken i hi := by
    rw [h.slotThread_started (h.creating _ hcre).1]
    change s.svrDB.bit i = true ↔ _
    rw [h.taken i hi, hcre, Sender.creating.injEq]
    split_ifs with hindex
    · rw [hindex, BitVec.ofNat_toNat, BitVec.setWidth_eq]
      exact iff_of_true (Or.inl rfl) (Or.inr ⟨_, rfl, rfl⟩)
    · refine or_congr_left (iff_of_false (fun he => hindex ?_) fun he => by cases he)
      rw [he, toNat_slot hi]
  creating _ he := by cases he
  acquiring he := by cases he

theorem Tidy.slotThread_setThread {s : Streams} (h : s.Tidy) {t : ℕ} {th : StreamThread}
    (ht : s.threads[t]? = some th) (hlive : th.stage.live = true) (stage : Stage) (i : ℕ) :
    (s.setThread t ⟨th.index, stage⟩).slotThread i =
      if i = th.index.toNat then some ⟨th.index, stage⟩ else s.slotThread i := by
  split_ifs with hi
  · have hhandle := h.live t th ht hlive
    rw [← hi] at hhandle
    rw [slotThread_of_handle (s := s.setThread t _) hhandle]
    exact List.getElem?_set_self (List.getElem?_eq_some_iff.mp ht).1
  · refine slotThread_congr rfl fun t' ht' => List.getElem?_set_ne fun he => hi ?_
    obtain ⟨th', hth', hi'⟩ := h.handle i t' ht'
    subst he
    obtain rfl := Option.some.inj (ht.symm.trans hth')
    exact hi'.symm

theorem Tidy.setThread {s : Streams} (h : s.Tidy) {t : ℕ} {th : StreamThread}
    (ht : s.threads[t]? = some th) (hlive : th.stage.live = true) {stage : Stage}
    {db : IdentifierDB} (hsize : db.size = s.svrDB.size)
    (hother : ∀ j, j ≠ th.index.toNat → db.bit j = s.svrDB.bit j)
    (hown : db.bit th.index.toNat = true ↔ s.sender = .creating th.index ∨ stage.holds = true)
    (hcre : s.sender = .creating th.index → stage.holds = false) :
    Tidy { s.setThread t ⟨th.index, stage⟩ with svrDB := db } where
  size := hsize.trans h.size
  length_clntThread := h.length_clntThread
  handle i t' ht' := by
    change ∃ th' : StreamThread, (s.threads.set t _)[t']? = some th' ∧ _
    obtain ⟨th', hth', hi⟩ := h.handle i t' ht'
    by_cases he : t = t'
    · subst he
      obtain rfl := Option.some.inj (ht.symm.trans hth')
      exact ⟨_, List.getElem?_set_self (List.getElem?_eq_some_iff.mp ht).1, hi⟩
    · exact ⟨th', (List.getElem?_set_ne he).trans hth', hi⟩
  live t' th' ht' hlive' := by
    change (s.threads.set t _)[t']? = some th' at ht'
    by_cases he : t = t'
    · subst he
      rw [List.getElem?_set_self (List.getElem?_eq_some_iff.mp ht).1] at ht'
      cases ht'
      exact h.live t th ht hlive
    · rw [List.getElem?_set_ne he] at ht'
      exact h.live t' th' ht' hlive'
  taken i hi := by
    change db.bit i = true ↔ s.sender = _ ∨ ∃ th', (s.setThread t _).slotThread i = some th' ∧ _
    rw [h.slotThread_setThread ht hlive]
    split_ifs with heq
    · rw [heq, hown, BitVec.ofNat_toNat, BitVec.setWidth_eq]
      exact or_congr_right ⟨fun hs => ⟨_, rfl, hs⟩, by rintro ⟨_, ⟨⟩, hs⟩; exact hs⟩
    · rw [hother i heq]
      exact h.taken i hi
  creating index hindex := by
    refine ⟨(h.creating index hindex).1, fun th' hth' => ?_⟩
    change (s.setThread t _).slotThread _ = _ at hth'
    rw [h.slotThread_setThread ht hlive] at hth'
    split_ifs at hth' with heq
    · cases hth'
      obtain rfl : index = th.index := BitVec.eq_of_toNat_eq heq
      exact hcre hindex
    · exact (h.creating index hindex).2 th' hth'
  acquiring hacq th' hth' := by
    change (s.setThread t _).slotThread _ = _ at hth'
    rw [h.slotThread_setThread ht hlive] at hth'
    split_ifs at hth' with heq
    · have hslot := h.slotThread_of_live ht hlive
      rw [← heq] at hslot
      have hdead := h.acquiring hacq th hslot
      rw [hlive] at hdead
      cases hdead
    · exact h.acquiring hacq th' hth'

theorem Tidy.running {s : Streams} (h : s.Tidy) {t : ℕ} {index : VMAccelId}
    (ht : s.threads[t]? = some ⟨index, .running⟩) :
    s.svrDB.Active index ∧ s.sender ≠ .creating index := by
  have hslot := h.slotThread_of_live ht rfl
  have hlt : index.toNat < maxStreams := h.index_lt ht rfl
  refine ⟨⟨?_, (h.taken _ hlt).mpr (Or.inr ⟨_, hslot, rfl⟩)⟩, fun hcre => ?_⟩
  · rw [h.size]
    exact hlt
  · cases (h.creating index hcre).2 _ hslot

theorem Tidy.release {s : Streams} (h : s.Tidy) {t : ℕ} {index : VMAccelId}
    (ht : s.threads[t]? = some ⟨index, .running⟩) :
    Tidy { s.setThread t ⟨index, .exiting⟩ with svrDB := s.svrDB.give index.toNat } := by
  obtain ⟨hact, hcre⟩ := h.running ht
  have hbit := bit_give (bit_lt_length hact.2)
  refine h.setThread ht rfl rfl (fun j hj => ?_) (iff_of_false ?_ ?_) fun he => absurd he hcre
  · rw [hbit]
    simp [hj]
  · rw [hbit]
    simp
  · simp [hcre, Stage.holds]

theorem Tidy.abandon {s : Streams} (h : s.Tidy) {t : ℕ} {index : VMAccelId}
    (ht : s.threads[t]? = some ⟨index, .running⟩) :
    (s.setThread t ⟨index, .abandoned⟩).Tidy := by
  obtain ⟨hact, hcre⟩ := h.running ht
  exact h.setThread ht rfl rfl (fun _ _ => rfl) (iff_of_true hact.2 (Or.inr rfl))
    fun he => absurd he hcre

theorem Tidy.exit {s : Streams} (h : s.Tidy) {t : ℕ} {index : VMAccelId}
    (ht : s.threads[t]? = some ⟨index, .exiting⟩) :
    (s.setThread t ⟨index, .exited⟩).Tidy := by
  have hslot := h.slotThread_of_live ht rfl
  have hlt : index.toNat < maxStreams := h.index_lt ht rfl
  refine h.setThread ht rfl rfl (fun _ _ => rfl) ?_ fun _ => rfl
  refine (h.taken _ hlt).trans ?_
  rw [BitVec.ofNat_toNat, BitVec.setWidth_eq, hslot]
  simp [Stage.holds]

end VMAccel.Streams
