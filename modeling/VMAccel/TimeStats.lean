import VMAccel.DiffTime

/-!
# Time statistics

`DECLARE_TIME_STAT`, `START_TIME_STAT` and `END_TIME_STAT` of `vmaccel_utils.h`, as they are with
`DEBUG_STATISTICS` set. A measurement is a pair of readings of the clock. After any number of
measurements the least and the greatest time are those of the elapsed times that `DiffTime`
returns, which are up to a second longer than the time between the readings.
-/

namespace VMAccel

open StepSystem SignedArith Timespec

/-- The variables of `DECLARE_TIME_STAT`. The least and the greatest time are not initialised. -/
structure TimeStat where
  minTime : Timespec
  maxTime : Timespec
  totalTimeMS : Float32
  numInstances : BitVec 32

abbrev Measurement := Timestamp × Timestamp

namespace TimeStat

/-- `TIME_STAT_TO_MS`. The sum in front of the question mark is the condition as a whole, so the
seconds are not part of the result. -/
def toMS (stat : Timespec) : Float :=
  if Float32.ofInt stat.tvSec.toInt * 1000 + (if stat.tvNsec ≠ 0 then 1 else 0) != 0 then
    Float.ofInt stat.tvNsec.toInt / 1000000
  else 0

def less (lhs rhs : Timespec) : Bool :=
  lhs.tvSec.slt rhs.tvSec || (lhs.tvSec == rhs.tvSec && lhs.tvNsec.slt rhs.tvNsec)

/-- `END_TIME_STAT`, with the readings of the clock. -/
def endTimeStat (s : TimeStat) (start stop : Timespec) : Except Overflow TimeStat := do
  let r ← diffTime start stop
  let total := (s.totalTimeMS.toFloat + toMS r.1).toFloat32
  if s.numInstances = 0 then
    return ⟨r.1, r.1, total, s.numInstances + 1⟩
  else
    return ⟨if less r.1 s.minTime then r.1 else s.minTime,
      if less s.maxTime r.1 then r.1 else s.maxTime, total, s.numInstances + 1⟩

def measure (s : TimeStat) (m : Measurement) : Except Overflow TimeStat :=
  s.endTimeStat m.1.toTimespec m.2.toTimespec

theorem less_iff {a b : Timespec} (ha : a.Normalized) (hb : b.Normalized) :
    less a b = true ↔ a.time < b.time := by
  unfold Normalized nsec at ha hb
  simp only [less, Bool.or_eq_true, Bool.and_eq_true, beq_iff_eq, BitVec.slt_iff_toInt_lt,
    ← BitVec.toInt_inj]
  unfold time sec nsec
  omega

/-- The elapsed time that `DiffTime` returns. -/
def reported (m : Measurement) : ℤ :=
  m.2.time - m.1.time + if Borrows m.1.toTimespec m.2.toTimespec then 1000000000 else 0

structure Summarizes (s : TimeStat) (ms : List Measurement) : Prop where
  numInstances : s.numInstances.toNat = ms.length
  normalized : ms ≠ [] → s.minTime.Normalized ∧ s.maxTime.Normalized
  attained : ms ≠ [] → (∃ m ∈ ms, s.minTime.time = reported m) ∧
    ∃ m ∈ ms, s.maxTime.time = reported m
  bounds : ∀ m ∈ ms, s.minTime.time ≤ reported m ∧ reported m ≤ s.maxTime.time

variable {s s' t : TimeStat} {m : Measurement} {ms seen : List Measurement}

theorem lesser_cases {a b : Timespec} (ha : a.Normalized) (hb : b.Normalized) :
    let c := if less a b then a else b
    (c = a ∨ c = b) ∧ c.time ≤ a.time ∧ c.time ≤ b.time := by
  by_cases h : less a b = true
  · rw [if_pos h]
    exact ⟨Or.inl rfl, le_rfl, ((less_iff ha hb).mp h).le⟩
  · rw [if_neg h]
    exact ⟨Or.inr rfl, not_lt.mp (mt (less_iff ha hb).mpr h), le_rfl⟩

theorem greater_cases {a b : Timespec} (ha : a.Normalized) (hb : b.Normalized) :
    let c := if less b a then a else b
    (c = a ∨ c = b) ∧ a.time ≤ c.time ∧ b.time ≤ c.time := by
  by_cases h : less b a = true
  · rw [if_pos h]
    exact ⟨Or.inl rfl, le_rfl, ((less_iff hb ha).mp h).le⟩
  · rw [if_neg h]
    exact ⟨Or.inr rfl, not_lt.mp (mt (less_iff hb ha).mpr h), le_rfl⟩

theorem measure_ok (h : s.measure m = .ok s') : ∃ d, d.Normalized ∧ d.time = reported m ∧
    s'.numInstances = s.numInstances + 1 ∧
    (s.numInstances = 0 ∧ s'.minTime = d ∧ s'.maxTime = d ∨
      s.numInstances ≠ 0 ∧ s'.minTime = (if less d s.minTime then d else s.minTime) ∧
        s'.maxTime = if less s.maxTime d then d else s.maxTime) := by
  obtain ⟨⟨d, start'⟩, hd, h⟩ := bind_eq_ok.mp h
  have htime : d.time = reported m := by
    have := time_of_diffTime hd
    unfold reported
    omega
  refine ⟨d, (Timestamp.diffTime_normalized hd).1, htime, ?_⟩
  by_cases hnum : s.numInstances = 0
  · rw [if_pos hnum] at h
    cases h
    exact ⟨rfl, Or.inl ⟨hnum, rfl, rfl⟩⟩
  · rw [if_neg hnum] at h
    cases h
    exact ⟨rfl, Or.inr ⟨hnum, rfl, rfl⟩⟩

theorem Summarizes.numInstances_eq_zero (h : s.Summarizes seen) :
    s.numInstances = 0 ↔ seen = [] := by
  rw [← List.length_eq_zero_iff, ← h.numInstances, ← BitVec.toNat_inj]
  rfl

theorem Summarizes.measure (h : s.Summarizes seen) (hlen : seen.length + 1 < 2 ^ 32)
    (hs : s.measure m = .ok s') : s'.Summarizes (seen ++ [m]) := by
  obtain ⟨d, hnorm, htime, hnum, hcase⟩ := measure_ok hs
  have hcount : s'.numInstances.toNat = (seen ++ [m]).length := by
    rw [hnum, BitVec.toNat_add, h.numInstances, List.length_append]
    exact Nat.mod_eq_of_lt hlen
  have hlast : m ∈ seen ++ [m] := by simp
  rcases hcase with ⟨hzero, hmin, hmax⟩ | ⟨hpos, hmin, hmax⟩
  · obtain rfl := h.numInstances_eq_zero.mp hzero
    refine ⟨hcount, fun _ => ?_, fun _ => ?_, fun n hn => ?_⟩
    · rw [hmin, hmax]
      exact ⟨hnorm, hnorm⟩
    · rw [hmin, hmax]
      exact ⟨⟨m, hlast, htime⟩, m, hlast, htime⟩
    · obtain rfl := List.mem_singleton.mp hn
      rw [hmin, hmax, htime]
      exact ⟨le_rfl, le_rfl⟩
  · have hne : seen ≠ [] := mt h.numInstances_eq_zero.mpr hpos
    obtain ⟨hminNorm, hmaxNorm⟩ := h.normalized hne
    obtain ⟨⟨least, hleast, hleastTime⟩, most, hmost, hmostTime⟩ := h.attained hne
    obtain ⟨hminOr, hminNew, hminOld⟩ := lesser_cases hnorm hminNorm
    obtain ⟨hmaxOr, hmaxNew, hmaxOld⟩ := greater_cases hnorm hmaxNorm
    rw [← hmin] at hminOr hminNew hminOld
    rw [← hmax] at hmaxOr hmaxNew hmaxOld
    refine ⟨hcount, fun _ => ⟨?_, ?_⟩, fun _ => ⟨?_, ?_⟩, fun n hn => ?_⟩
    · rcases hminOr with heq | heq <;> rw [heq] <;> assumption
    · rcases hmaxOr with heq | heq <;> rw [heq] <;> assumption
    · rcases hminOr with heq | heq
      · exact ⟨m, hlast, heq ▸ htime⟩
      · exact ⟨least, List.mem_append_left _ hleast, heq ▸ hleastTime⟩
    · rcases hmaxOr with heq | heq
      · exact ⟨m, hlast, heq ▸ htime⟩
      · exact ⟨most, List.mem_append_left _ hmost, heq ▸ hmostTime⟩
    · rcases List.mem_append.mp hn with hn | hn
      · exact ⟨hminOld.trans (h.bounds n hn).1, (h.bounds n hn).2.trans hmaxOld⟩
      · obtain rfl := List.mem_singleton.mp hn
        rw [← htime]
        exact ⟨hminNew, hmaxNew⟩

theorem Summarizes.run (h : s.Summarizes seen) (hlen : seen.length + ms.length < 2 ^ 32)
    (hrun : run TimeStat.measure s ms = .ok t) : t.Summarizes (seen ++ ms) := by
  induction ms generalizing s seen with
  | nil =>
    cases hrun
    rwa [List.append_nil]
  | cons m ms ih =>
    obtain ⟨s', hs, hrest⟩ := run_cons_ok.mp hrun
    rw [List.length_cons] at hlen
    have hlen' : (seen ++ [m]).length + ms.length < 2 ^ 32 := by
      rw [List.length_append, List.length_singleton]
      omega
    have hnext := ih (h.measure (by omega) hs) hlen' hrest
    rwa [List.append_assoc] at hnext

/-- After any run of fewer than `2 ^ 32` measurements on fresh variables, none of the times that
passed exceeds the greatest time, and the least time exceeds none of them by more than a second. -/
theorem elapsed_within_stat (hnum : s.numInstances = 0) (hlen : ms.length < 2 ^ 32)
    (hrun : run TimeStat.measure s ms = .ok t) :
    ∀ m ∈ ms, m.2.time - m.1.time ≤ t.maxTime.time ∧
      t.minTime.time ≤ m.2.time - m.1.time + 1000000000 := by
  have hfresh : s.Summarizes [] :=
    ⟨by rw [hnum]; rfl, absurd rfl, absurd rfl, fun m hm => absurd hm List.not_mem_nil⟩
  have h := hfresh.run (by simpa using hlen) hrun
  intro m hm
  obtain ⟨hmin, hmax⟩ := h.bounds m hm
  unfold reported at hmin hmax
  split_ifs at hmin hmax <;> omega

end TimeStat

end VMAccel
