import VMAccel.SignedArith
import Mathlib.Algebra.Order.Ring.Int

/-!
# Elapsed time

`DiffTime` of `vmaccel_utils.c`. `time_t` and `long` are signed 64-bit integers, the literal
`1000000000` and `numSeconds` are of type `int`. When the nanoseconds of the end are below those of
the start, the difference of the nanoseconds is taken with a borrow, but the second that is
borrowed is not subtracted from `tv_sec`. The elapsed time is then one second too long.
-/

namespace VMAccel

open StepSystem SignedArith

structure Timespec where
  tvSec : BitVec 64
  tvNsec : BitVec 64
  deriving DecidableEq, Repr

namespace Timespec

/-- The result, and `*start` after the call. -/
def diffTime (start stop : Timespec) : Except Overflow (Timespec × Timespec) := do
  let sec ← sub stop.tvSec start.tvSec
  if stop.tvNsec.slt start.tvNsec then
    let rest ← sub 1000000000 start.tvNsec
    let nsec ← add rest stop.tvNsec
    return (⟨sec, nsec⟩, start)
  else
    let gap ← sub stop.tvNsec start.tvNsec
    if BitVec.slt 1000000000 gap then
      -- the quotient is converted to `int`, and multiplied as an `int`
      let numSeconds : BitVec 32 := (gap.sdiv 1000000000).setWidth 32
      let moved ← mul 1000000000 numSeconds
      let startNsec ← add start.tvNsec (moved.signExtend 64)
      let sec' ← add sec (numSeconds.signExtend 64)
      let nsec ← sub stop.tvNsec startNsec
      return (⟨sec', nsec⟩, ⟨start.tvSec, startNsec⟩)
    else
      return (⟨sec, gap⟩, start)

def sec (t : Timespec) : ℤ := t.tvSec.toInt

def nsec (t : Timespec) : ℤ := t.tvNsec.toInt

def time (t : Timespec) : ℤ := t.sec * 1000000000 + t.nsec

def Normalized (t : Timespec) : Prop := 0 ≤ t.nsec ∧ t.nsec < 1000000000

instance (t : Timespec) : Decidable t.Normalized := inferInstanceAs (Decidable (_ ∧ _))

/-- The nanoseconds of the end are below those of the start. -/
def Borrows (start stop : Timespec) : Prop := stop.nsec < start.nsec

instance (start stop : Timespec) : Decidable (Borrows start stop) :=
  inferInstanceAs (Decidable (_ < _))

variable {start stop d start' : Timespec}

theorem returns_sub {a b : BitVec 64} :
    Returns (sub a b) ↔ -2 ^ 63 ≤ a.toInt - b.toInt ∧ a.toInt - b.toInt < 2 ^ 63 :=
  returns_represent (by decide)

theorem returns_add {a b : BitVec 64} :
    Returns (add a b) ↔ -2 ^ 63 ≤ a.toInt + b.toInt ∧ a.toInt + b.toInt < 2 ^ 63 :=
  returns_represent (by decide)

/-- The three ways through the function. In the second one, seconds go from the nanoseconds of the
start to the seconds of the result. -/
theorem diffTime_ok (h : diffTime start stop = .ok (d, start')) :
    (Borrows start stop ∧ d.sec = stop.sec - start.sec ∧
        d.nsec = 1000000000 - start.nsec + stop.nsec ∧ start' = start) ∨
      (1000000000 < stop.nsec - start.nsec ∧ ∃ numSeconds : ℤ,
        d.sec = stop.sec - start.sec + numSeconds ∧ d.nsec = stop.nsec - start'.nsec ∧
        start'.sec = start.sec ∧ start'.nsec = start.nsec + 1000000000 * numSeconds) ∨
      (¬ Borrows start stop ∧ stop.nsec - start.nsec ≤ 1000000000 ∧
        d.sec = stop.sec - start.sec ∧ d.nsec = stop.nsec - start.nsec ∧ start' = start) := by
  obtain ⟨sec, hsec, h⟩ := bind_eq_ok.mp h
  rw [sub_ok] at hsec
  by_cases hlt : stop.tvNsec.slt start.tvNsec = true
  · rw [if_pos hlt] at h
    obtain ⟨rest, hrest, h⟩ := bind_eq_ok.mp h
    obtain ⟨nsec, hnsec, h⟩ := bind_eq_ok.mp h
    rw [sub_ok] at hrest
    rw [add_ok, hrest] at hnsec
    cases h
    exact Or.inl ⟨BitVec.slt_iff_toInt_lt.mp hlt, hsec, hnsec, rfl⟩
  · rw [if_neg hlt] at h
    rw [BitVec.slt_iff_toInt_lt] at hlt
    obtain ⟨gap, hgap, h⟩ := bind_eq_ok.mp h
    rw [sub_ok] at hgap
    by_cases hgt : BitVec.slt 1000000000 gap = true
    · rw [if_pos hgt] at h
      rw [BitVec.slt_iff_toInt_lt, hgap] at hgt
      obtain ⟨moved, hmoved, h⟩ := bind_eq_ok.mp h
      obtain ⟨startNsec, hstart, h⟩ := bind_eq_ok.mp h
      obtain ⟨sec', hsec', h⟩ := bind_eq_ok.mp h
      obtain ⟨nsec, hnsec, h⟩ := bind_eq_ok.mp h
      rw [mul_ok] at hmoved
      rw [add_ok, BitVec.toInt_signExtend_of_le (by decide), hmoved] at hstart
      rw [add_ok, BitVec.toInt_signExtend_of_le (by decide), hsec] at hsec'
      rw [sub_ok] at hnsec
      cases h
      exact Or.inr (Or.inl ⟨hgt, _, hsec', hnsec, rfl, hstart⟩)
    · rw [if_neg hgt] at h
      rw [BitVec.slt_iff_toInt_lt, hgap, Int.not_lt] at hgt
      cases h
      exact Or.inr (Or.inr ⟨hlt, hgt, hsec, hgap, rfl⟩)

theorem time_of_diffTime (h : diffTime start stop = .ok (d, start')) :
    start.time + d.time = stop.time + if Borrows start stop then 1000000000 else 0 := by
  unfold time
  rcases diffTime_ok h with ⟨hb, hsec, hnsec, -⟩ | ⟨hgt, k, hsec, hnsec, -, hstart⟩ |
    ⟨hb, -, hsec, hnsec, -⟩
  · rw [if_pos hb]
    omega
  · have hb : ¬ Borrows start stop := by
      unfold Borrows
      omega
    rw [if_neg hb]
    omega
  · rw [if_neg hb]
    omega

end Timespec

/-- A time as `clock_gettime` returns it. -/
structure Timestamp extends Timespec where
  normalized : toTimespec.Normalized

namespace Timestamp

open Timespec

instance : Preorder Timestamp where
  le t u := t.time ≤ u.time
  le_refl t := Int.le_refl t.time
  le_trans _ _ _ := Int.le_trans

variable {start stop : Timestamp} {d start' : Timespec}

theorem le_iff : start ≤ stop ↔ start.sec < stop.sec ∨
    start.sec = stop.sec ∧ start.nsec ≤ stop.nsec := by
  have hstart := start.normalized
  have hstop := stop.normalized
  unfold Normalized at hstart hstop
  change start.sec * 1000000000 + start.nsec ≤ stop.sec * 1000000000 + stop.nsec ↔ _
  omega

theorem sec_mono (hle : start ≤ stop) : start.sec ≤ stop.sec := by
  rcases le_iff.mp hle with hlt | ⟨heq, -⟩
  · exact hlt.le
  · exact heq.le

theorem diffTime_normalized
    (h : diffTime start.toTimespec stop.toTimespec = .ok (d, start')) :
    d.Normalized ∧ start' = start.toTimespec := by
  have hstart := start.normalized
  have hstop := stop.normalized
  unfold Normalized at hstart hstop ⊢
  rcases diffTime_ok h with ⟨hb, -, hnsec, rfl⟩ | ⟨hgt, -⟩ | ⟨hb, -, -, hnsec, rfl⟩
  · unfold Borrows at hb
    exact ⟨by omega, rfl⟩
  · omega
  · unfold Borrows at hb
    exact ⟨by omega, rfl⟩

/-- `tv_sec` of the result can be represented. -/
def Fits (start stop : Timestamp) : Prop := stop.sec - start.sec < 2 ^ 63

instance (start stop : Timestamp) : Decidable (Fits start stop) :=
  inferInstanceAs (Decidable (_ < _))

theorem returns_diffTime (hle : start ≤ stop) :
    Returns (diffTime start.toTimespec stop.toTimespec) ↔ Fits start stop := by
  have hstart := start.normalized
  have hstop := stop.normalized
  unfold Normalized nsec at hstart hstop
  unfold Fits
  have hbillion : (1000000000 : BitVec 64).toInt = 1000000000 := rfl
  rw [diffTime, returns_bind]
  constructor
  · rintro ⟨s, hs, -⟩
    exact (returns_sub.mp ⟨s, hs⟩).2
  · intro hfits
    have hsec := sec_mono hle
    obtain ⟨s, hs⟩ : Returns (sub stop.tvSec start.tvSec) := by
      unfold sec at hsec
      exact returns_sub.mpr ⟨by omega, hfits⟩
    refine ⟨s, hs, ?_⟩
    by_cases hlt : stop.tvNsec.slt start.tvNsec = true
    · rw [if_pos hlt, returns_bind]
      obtain ⟨rest, hrest⟩ : Returns (sub 1000000000 start.tvNsec) := returns_sub.mpr (by omega)
      refine ⟨rest, hrest, returns_map.mpr (returns_add.mpr ?_)⟩
      rw [sub_ok.mp hrest]
      omega
    · rw [if_neg hlt, returns_bind]
      rw [BitVec.slt_iff_toInt_lt] at hlt
      obtain ⟨gap, hgap⟩ : Returns (sub stop.tvNsec start.tvNsec) := returns_sub.mpr (by omega)
      have hle' : ¬ BitVec.slt 1000000000 gap = true := by
        rw [BitVec.slt_iff_toInt_lt, sub_ok.mp hgap]
        omega
      exact ⟨gap, hgap, by rw [if_neg hle']; exact returns_ok _⟩

/-- `DiffTime` returns a normalized time that leads from the start to the end. -/
def Exact (start stop : Timestamp) : Prop :=
  ∃ d start', diffTime start.toTimespec stop.toTimespec = .ok (d, start') ∧ d.Normalized ∧
    start.time + d.time = stop.time

theorem exact_iff (hle : start ≤ stop) :
    Exact start stop ↔ Fits start stop ∧ ¬ Borrows start.toTimespec stop.toTimespec := by
  rw [← returns_diffTime hle]
  constructor
  · rintro ⟨d, start', hd, -, htime⟩
    refine ⟨⟨_, hd⟩, fun hb => ?_⟩
    have herr := time_of_diffTime hd
    rw [if_pos hb] at herr
    omega
  · rintro ⟨⟨⟨d, start'⟩, hd⟩, hb⟩
    have herr := time_of_diffTime hd
    rw [if_neg hb, add_zero] at herr
    exact ⟨d, start', hd, (diffTime_normalized hd).1, herr⟩

/-- The sum of `DiffTime` over the consecutive timestamps, in nanoseconds. -/
def sumDiffs : Timestamp → List Timestamp → Except Overflow ℤ
  | _, [] => .ok 0
  | t, u :: us => do
    let r ← diffTime t.toTimespec u.toTimespec
    let rest ← sumDiffs u us
    return r.1.time + rest

/-- The number of consecutive timestamps with a borrow. -/
def borrows : Timestamp → List Timestamp → ℕ
  | _, [] => 0
  | t, u :: us => (if Borrows t.toTimespec u.toTimespec then 1 else 0) + borrows u us

variable {t : Timestamp} {ts : List Timestamp}

theorem sumDiffs_ok {x : ℤ} (h : sumDiffs t ts = .ok x) :
    t.time + x = (ts.getLastD t).time + 1000000000 * borrows t ts := by
  induction ts generalizing t x with
  | nil =>
    cases h
    simp [borrows]
  | cons u us ih =>
    obtain ⟨⟨d, start'⟩, hd, h⟩ := bind_eq_ok.mp h
    obtain ⟨rest, hrest, h⟩ := bind_eq_ok.mp h
    cases h
    have herr := time_of_diffTime hd
    have hsum := ih hrest
    rw [List.getLastD_cons, borrows]
    by_cases hb : Borrows t.toTimespec u.toTimespec
    · rw [if_pos hb] at herr ⊢
      push_cast
      omega
    · rw [if_neg hb] at herr ⊢
      push_cast
      omega

theorem le_getLastD (hmono : (t :: ts).IsChain (· ≤ ·)) : t ≤ ts.getLastD t := by
  induction ts generalizing t with
  | nil => exact le_rfl
  | cons u us ih =>
    obtain ⟨htu, hus⟩ := List.isChain_cons_cons.mp hmono
    rw [List.getLastD_cons]
    exact le_trans htu (ih hus)

theorem returns_sumDiffs (hmono : (t :: ts).IsChain (· ≤ ·)) (hfits : Fits t (ts.getLastD t)) :
    Returns (sumDiffs t ts) := by
  induction ts generalizing t with
  | nil => exact returns_ok 0
  | cons u us ih =>
    obtain ⟨htu, hus⟩ := List.isChain_cons_cons.mp hmono
    rw [List.getLastD_cons] at hfits
    have hfirst := sec_mono htu
    have hrest := sec_mono (le_getLastD hus)
    unfold Fits at hfits
    obtain ⟨r, hr⟩ := (returns_diffTime htu).mpr (by unfold Fits; omega)
    rw [sumDiffs, returns_bind]
    exact ⟨r, hr, returns_map.mpr (ih hus (by unfold Fits; omega))⟩

/-- The sum over the consecutive timestamps is `DiffTime` of the first and the last. -/
def SumExact (t : Timestamp) (ts : List Timestamp) : Prop :=
  ∃ d start', diffTime t.toTimespec (ts.getLastD t).toTimespec = .ok (d, start') ∧
    sumDiffs t ts = .ok d.time

theorem sumExact_iff (hmono : (t :: ts).IsChain (· ≤ ·)) :
    SumExact t ts ↔ Fits t (ts.getLastD t) ∧ borrows t ts = borrows t [ts.getLastD t] := by
  have hle := le_getLastD hmono
  have hone : ∀ {d start'}, diffTime t.toTimespec (ts.getLastD t).toTimespec = .ok (d, start') →
      t.time + d.time = (ts.getLastD t).time + 1000000000 * borrows t [ts.getLastD t] := by
    intro d start' hd
    rw [time_of_diffTime hd, borrows, borrows]
    split_ifs <;> rfl
  constructor
  · rintro ⟨d, start', hd, hsum⟩
    have hall := sumDiffs_ok hsum
    rw [hone hd] at hall
    exact ⟨(returns_diffTime hle).mp ⟨_, hd⟩, by omega⟩
  · rintro ⟨hfits, hborrows⟩
    obtain ⟨⟨d, start'⟩, hd⟩ := (returns_diffTime hle).mpr hfits
    obtain ⟨x, hx⟩ := returns_sumDiffs hmono hfits
    have hall := sumDiffs_ok hx
    rw [hborrows, ← hone hd] at hall
    obtain rfl : x = d.time := by omega
    exact ⟨d, start', hd, hx⟩

/-- Elapsed times are exact where no nanoseconds are borrowed. Along a sequence they add up exactly
if as many of the consecutive pairs borrow as the pair of the first and the last does. -/
theorem elapsed_exact_iff (t : Timestamp) (ts : List Timestamp)
    (hmono : (t :: ts).IsChain (· ≤ ·)) :
    (∀ u, t ≤ u → (Exact t u ↔ Fits t u ∧ ¬ Borrows t.toTimespec u.toTimespec)) ∧
      (SumExact t ts ↔
        Fits t (ts.getLastD t) ∧ borrows t ts = borrows t [ts.getLastD t]) :=
  ⟨fun _ htu => exact_iff htu, sumExact_iff hmono⟩

/-- Three times at 5.1, 5.4 and 6.7 seconds. -/
theorem elapsed_exact_of_rising :
    SumExact ⟨⟨5, 100000000⟩, by decide⟩
      [⟨⟨5, 400000000⟩, by decide⟩, ⟨⟨6, 700000000⟩, by decide⟩] :=
  (elapsed_exact_iff _ _ (by decide)).2.mpr (by decide)

/-- From 0.6 to 1.2 seconds the result is 1.6 seconds. Going on to 1.8 seconds, the two differences
add up to 2.2 seconds, and that of the first and the last time is 1.2 seconds. -/
theorem borrowed_second_kept :
    diffTime ⟨0, 600000000⟩ ⟨1, 200000000⟩ = .ok (⟨1, 600000000⟩, ⟨0, 600000000⟩) ∧
      sumDiffs ⟨⟨0, 600000000⟩, by decide⟩
        [⟨⟨1, 200000000⟩, by decide⟩, ⟨⟨1, 800000000⟩, by decide⟩] = .ok 2200000000 ∧
      diffTime ⟨0, 600000000⟩ ⟨1, 800000000⟩ = .ok (⟨1, 200000000⟩, ⟨0, 600000000⟩) := by
  decide

end Timestamp

end VMAccel
