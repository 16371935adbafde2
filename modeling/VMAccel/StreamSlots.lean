import VMAccel.StreamTidy

/-!
# One running thread per stream slot

The threads that have not ended should sit in different slots below `maxStreams`, and the retry
should find slot 0 free. That holds throughout a run exactly when three things do: a call that
finds every slot taken finds the counter of free slots at zero, the thread joined on the retry had
given its slot back, and the thread that last used a slot has ended when the next one is created
in it.
-/

namespace VMAccel.Streams

open StepSystem IdentifierDB

/-- The thread to be started and all threads that have not ended have slots of their own. -/
structure Safe (s : Streams) : Prop where
  creating : ∀ index, s.sender = .creating index → index.toNat < maxStreams
  index_lt : ∀ (t : ℕ) (th : StreamThread), s.threads[t]? = some th → th.stage.live = true →
    th.index.toNat < maxStreams
  unique : ∀ (t t' : ℕ) (th th' : StreamThread), s.threads[t]? = some th →
    s.threads[t']? = some th' → th.stage.live = true → th'.stage.live = true →
    th.index = th'.index → t = t'

def Orderly (s : Streams) : StreamAction → Prop
  | .send => s.sender = .idle → (∀ i < maxStreams, s.svrDB.bit i = true) → s.svrDB.free = 0
  | .acquire => s.sender = .acquiring → ∀ th, s.slotThread 0 = some th → th.stage ≠ .abandoned
  | .create => ∀ index, s.sender = .creating index →
    ∀ th, s.slotThread index.toNat = some th → th.stage ≠ .exiting
  | _ => True

theorem Tidy.safe {s : Streams} (h : s.Tidy) : s.Safe where
  creating index hindex := (h.creating index hindex).1
  index_lt _ _ := h.index_lt
  unique t t' th th' ht ht' hl hl' heq := by
    have hslot := h.live t th ht hl
    rw [heq, h.live t' th' ht' hl'] at hslot
    exact (Option.some.inj (Option.some.inj hslot)).symm

theorem Tidy.sendAlloc {s : Streams} (h : s.Tidy) (ho : s.Orderly .send)
    (hidle : s.sender = .idle) : ∃ s', s.sendAlloc = .ok s' ∧ s'.Tidy := by
  have hold : ∀ index, s.sender ≠ .creating index := fun index he => by
    rw [hidle] at he
    cases he
  unfold Streams.sendAlloc
  by_cases hfree : s.svrDB.free = 0
  · have halloc : s.svrDB.allocId = .ok (none, s.svrDB) := if_pos hfree
    rw [halloc]
    exact ⟨_, rfl, h.setSender hold (fun _ he => by cases he) fun he => by cases he⟩
  · obtain ⟨j, hj, hbit⟩ : ∃ j < maxStreams, s.svrDB.bit j = false := by
      by_contra hall
      refine hfree (ho hidle fun i hi => ?_)
      by_contra hne
      exact hall ⟨i, hi, by simpa using hne⟩
    obtain ⟨k, hkj, hk, hff, halloc⟩ := allocId_of_clear (h.index_lt_bits hj) hbit hfree
    rw [halloc]
    exact ⟨_, rfl, h.claim (hkj.trans_lt hj) hold hff.1 rfl (bit_take hk)⟩

theorem Tidy.join {s : Streams} (h : s.Tidy) (hjoin : s.sender = .joining)
    (hlive : ¬ (s.slotThread 0).any fun th => th.stage.live) :
    Tidy { s with sender := .acquiring } := by
  refine h.setSender (fun _ he => ?_) (fun _ he => by cases he) fun _ th hth => ?_
  · rw [hjoin] at he
    cases he
  · rw [hth] at hlive
    simpa using hlive

theorem Tidy.sendAcquire {s : Streams} (h : s.Tidy) (ho : s.Orderly .acquire)
    (hacq : s.sender = .acquiring) : ∃ s', s.sendAcquire = .ok s' ∧ s'.Tidy := by
  have hold : ∀ index, s.sender ≠ .creating index := fun index he => by
    rw [hacq] at he
    cases he
  have hpos : 0 < maxStreams := by decide
  have hbit : s.svrDB.bit 0 = false := by
    by_contra hne
    rcases (h.taken 0 hpos).mp (by simpa using hne) with he | ⟨th, hth, hholds⟩
    · exact hold _ he
    · have hended := h.acquiring hacq th hth
      have hgiven := ho hacq th hth
      cases hstage : th.stage <;> simp [hstage, Stage.live, Stage.holds] at hended hgiven hholds
  have hlt : (0 : VMAccelId) < s.svrDB.size := by
    rw [h.size]
    decide
  have hcall : s.svrDB.acquireId 0 = .ok (true, s.svrDB.setBit 0) :=
    acquireId_of_clear h.addressable hlt hbit
  unfold Streams.sendAcquire
  rw [hcall]
  exact ⟨_, rfl, h.claim hpos hold hbit rfl (bit_setBit (h.index_lt_bits hpos))⟩

theorem Tidy.sendCreate {s : Streams} (h : s.Tidy) (ho : s.Orderly .create) {index : VMAccelId}
    (hcre : s.sender = .creating index) : ∃ s', s.sendCreate index = .ok s' ∧ s'.Tidy := by
  have hlt : index.toNat < s.clntThread.length := by
    rw [h.length_clntThread]
    exact (h.creating _ hcre).1
  refine ⟨s.started index, ?_, h.started hcre (ho index hcre)⟩
  unfold Streams.sendCreate
  rw [writeAt_ok.mpr ⟨hlt, rfl⟩]
  rfl

theorem atStage_eq_some {s : Streams} {t : ℕ} {stage : Stage} {index : VMAccelId} :
    s.atStage t stage = some index ↔ s.threads[t]? = some ⟨index, stage⟩ := by
  unfold atStage
  cases s.threads[t]? with
  | none => simp
  | some th =>
    obtain ⟨i, st⟩ := th
    simp [and_comm]

theorem Tidy.step {s : Streams} (h : s.Tidy) {a : StreamAction} (ho : s.Orderly a) :
    ∃ s', s.step a = .ok s' ∧ s'.Tidy := by
  cases a with
  | send =>
    by_cases hs : s.sender = .idle
    · simpa only [Streams.step, if_pos hs] using h.sendAlloc ho hs
    · exact ⟨s, if_neg hs, h⟩
  | join =>
    by_cases hs : s.sender = .joining ∧ ¬ (s.slotThread 0).any fun th => th.stage.live
    · exact ⟨_, if_pos hs, h.join hs.1 hs.2⟩
    · exact ⟨s, if_neg hs, h⟩
  | acquire =>
    by_cases hs : s.sender = .acquiring
    · simpa only [Streams.step, if_pos hs] using h.sendAcquire ho hs
    · exact ⟨s, if_neg hs, h⟩
  | create =>
    cases hs : s.sender with
    | creating index => simpa only [Streams.step, hs] using h.sendCreate ho hs
    | idle => exact ⟨s, by simp only [Streams.step, hs], h⟩
    | joining => exact ⟨s, by simp only [Streams.step, hs], h⟩
    | acquiring => exact ⟨s, by simp only [Streams.step, hs], h⟩
  | release t =>
    cases ht : s.atStage t .running with
    | none => exact ⟨s, by simp only [Streams.step, ht], h⟩
    | some index =>
      have hrun := atStage_eq_some.mp ht
      refine ⟨_, ?_, h.release hrun⟩
      simp only [Streams.step, ht]
      rw [releaseId_of_active (h.running hrun).1]
      rfl
  | abandon t =>
    cases ht : s.atStage t .running with
    | none => exact ⟨s, by simp only [Streams.step, ht], h⟩
    | some index =>
      exact ⟨_, by simp only [Streams.step, ht], h.abandon (atStage_eq_some.mp ht)⟩
  | exit t =>
    cases ht : s.atStage t .exiting with
    | none => exact ⟨s, by simp only [Streams.step, ht], h⟩
    | some index => exact ⟨_, by simp only [Streams.step, ht], h.exit (atStage_eq_some.mp ht)⟩

/-- With every slot taken and a counter that is not zero, the sender gets a slot that does not
exist. -/
theorem Tidy.orderly_send {s s' : Streams} (h : s.Tidy) (hr : s.step .send = .ok s')
    (hsafe : s'.Safe) : s.Orderly .send := by
  intro hs hall
  simp only [Streams.step, if_pos hs] at hr
  obtain ⟨r, halloc, hr⟩ := bind_eq_ok.mp hr
  rcases allocId_ok halloc with ⟨hfree, -⟩ | ⟨-, k, hk, hff, rfl⟩
  · exact hfree
  · cases hr
    have hlt := hsafe.creating _ rfl
    have hlen : s.svrDB.bits.length = 1 := by
      rw [length_bits_of_addressable h.addressable, h.size]
      rfl
    have hnat : (BitVec.ofNat 32 k).toNat = k := Nat.mod_eq_of_lt (by omega)
    rw [hnat] at hlt
    have hbit := hff.1
    rw [hall k hlt] at hbit
    cases hbit

theorem Tidy.orderly_acquire {s s' : Streams} (h : s.Tidy) (hr : s.step .acquire = .ok s') :
    s.Orderly .acquire := by
  intro hs th hth hstage
  simp only [Streams.step, if_pos hs] at hr
  obtain ⟨r, hcall, hr⟩ := bind_eq_ok.mp hr
  rcases acquireId_ok hcall with ⟨-, rfl⟩ | ⟨-, hbit, -⟩
  · cases hr
  · have htaken := (h.taken 0 (by decide)).mpr (Or.inr ⟨th, hth, by rw [hstage]; rfl⟩)
    exact absurd (htaken.symm.trans hbit) (by decide)

theorem Tidy.orderly_create {s s' : Streams} (h : s.Tidy) (hr : s.step .create = .ok s')
    (hsafe : s'.Safe) : s.Orderly .create := by
  intro index hs th hth hstage
  simp only [Streams.step, hs] at hr
  obtain ⟨clntThread, -, hr⟩ := bind_eq_ok.mp hr
  cases hr
  obtain ⟨t, hhandle, ht⟩ := slotThread_eq_some hth
  obtain ⟨th', hth', hindex⟩ := h.handle _ t hhandle
  obtain rfl := Option.some.inj (ht.symm.trans hth')
  have hlt := (List.getElem?_eq_some_iff.mp ht).1
  have heq : t = s.threads.length :=
    hsafe.unique t s.threads.length th ⟨index, .running⟩
      ((List.getElem?_append_left hlt).trans ht) List.getElem?_concat_length
      (by rw [hstage]; rfl) rfl (BitVec.eq_of_toNat_eq hindex)
  omega

theorem Tidy.orderly {s s' : Streams} (h : s.Tidy) {a : StreamAction} (hr : s.step a = .ok s')
    (hsafe : s'.Safe) : s.Orderly a := by
  cases a with
  | send => exact h.orderly_send hr hsafe
  | acquire => exact h.orderly_acquire hr
  | create => exact h.orderly_create hr hsafe
  | join => trivial
  | release _ => trivial
  | abandon _ => trivial
  | exit _ => trivial

/-- A run from power-on keeps every started thread in a slot of its own below `maxStreams`, and
fails no assertion, exactly when each of its steps is orderly. -/
theorem slots_exclusive_iff_orderly (as : List StreamAction) :
    Always Streams.step Safe powerOn as ↔ EachInput Streams.step Orderly powerOn as :=
  always_iff_eachInput (fun _ h => h.safe) (fun _ _ h _ ho => h.step ho)
    (fun _ _ _ h _ hr hsafe => h.orderly hr hsafe) tidy_powerOn (eachInput_true _ _)

/-- Four calls that start a thread each. -/
def fourSends : List StreamAction :=
  [.send, .create, .send, .create, .send, .create, .send, .create]

/-- The first retry leaves the counter of free slots one too high, so that the next call gets the
slot 4 of 4; a thread that ended early fails the assertion of the retry; and a slot that was just
given back is used again while its thread is still there. -/
theorem slots_collide :
    (∃ s, run Streams.step powerOn (fourSends ++
        [.send, .release 0, .exit 0, .join, .acquire, .create, .send]) = .ok s ∧
      s.sender = .creating (BitVec.ofNat 32 maxStreams)) ∧
    run Streams.step powerOn (fourSends ++ [.send, .abandon 0, .join, .acquire]) =
      .error .assertion ∧
    ∃ s, run Streams.step powerOn [.send, .create, .release 0, .send, .create] = .ok s ∧
      s.threads = [⟨0, .exiting⟩, ⟨0, .running⟩] := by
  refine ⟨?_, ?_, ?_⟩
  · decide +kernel
  · decide +kernel
  · decide +kernel

end VMAccel.Streams
