import VMAccel.DispatchSpec

/-!
# The courses of a dispatch

A dispatch takes one of seven courses. `Course` says for each of them when it is taken, what it
reads, locks and launches, and how it ends; the results about a dispatch are read off from it.
-/

namespace VMAccel.Dispatch

open StepSystem EventLog HoldCounts Logged

variable {s : Backend} {argp : VMCLDispatchOp} {cl : Bool} {a : KernelArg}
  {passed rest : List KernelArg}

/-- `argIndex` does not leave its type before the loop over the arguments stops. -/
def Counts (s : Backend) (argp : VMCLDispatchOp) : Prop :=
  argp.op.args.length ≤ 2 ^ 31 ∨ ∃ a ∈ argp.op.args.take (2 ^ 31), ¬ Passes s a

/-- The work arrays have an entry for each dimension. -/
def Covered (argp : VMCLDispatchOp) : Prop :=
  ∀ array, argp.op.dimension.toNat ≤ (argp.work array).length

theorem passes_or_first (s : Backend) (args : List KernelArg) :
    (∀ a ∈ args, Passes s a) ∨ ∃ passed a rest, args = passed ++ a :: rest ∧
      (∀ b ∈ passed, Passes s b) ∧ ¬ Passes s a := by
  cases h : args.find? fun a => ¬ Passes s a with
  | none => exact Or.inl fun a ha => by simpa using List.find?_eq_none.mp h a ha
  | some a =>
    obtain ⟨ha, passed, rest, hargs, hpassed⟩ := List.find?_eq_some_iff_append.mp h
    refine Or.inr ⟨passed, a, rest, hargs, fun b hb => ?_, by simpa using ha⟩
    simpa using hpassed b hb

theorem counts_iff_of_first (hargs : argp.op.args = passed ++ a :: rest)
    (hpassed : ∀ b ∈ passed, Passes s b) (ha : ¬ Passes s a) :
    Counts s argp ↔ passed.length < 2 ^ 31 := by
  have hlen : argp.op.args.length = passed.length + (rest.length + 1) := by simp [hargs]
  constructor
  · rintro (hle | ⟨b, hb, hfails⟩)
    · omega
    · by_contra hge
      rw [hargs, List.take_append_of_le_length (by omega)] at hb
      exact hfails (hpassed b (List.mem_of_mem_take hb))
  · intro hlt
    refine Or.inr ⟨a, ?_, ha⟩
    have hget : argp.op.args[passed.length]? = some a := by simp [hargs]
    exact List.mem_of_getElem? ((List.getElem?_take_of_lt hlt).trans hget)

theorem Counts.length_le (h : Counts s argp) (hall : ∀ a ∈ argp.op.args, Passes s a) :
    argp.op.args.length ≤ 2 ^ 31 := by
  rcases h with hle | ⟨a, ha, hfails⟩
  · exact hle
  · exact absurd (hall a (List.mem_of_mem_take ha)) hfails

def launched (argp : VMCLDispatchOp) : DispatchEvent :=
  .launch argp.op.dimension fun array => (argp.work array).take argp.op.dimension.toNat

def completed (s : Backend) (argp : VMCLDispatchOp) (cl : Bool) (contents : List (List Byte)) :
    StatusCode × Backend :=
  if cl then (.success, s.runKernel argp.op contents) else (.fail, s)

theorem collectArgs_of_passes (hall : ∀ a ∈ argp.op.args, Passes s a) :
    ∃ contents, s.collectArgs argp.op.args = .ok (.success, contents) :=
  Backend.collectArgs_success_iff.mpr fun a ha => passes_iff.mp (hall a ha)

theorem collectArgs_of_first (hpassed : ∀ b ∈ passed, Passes s b) {status : StatusCode}
    (hv : verdict s a = .ok status) (hne : status ≠ .success) (rest : List KernelArg) :
    ∃ contents, s.collectArgs (passed ++ a :: rest) = .ok (status, contents) := by
  induction passed with
  | nil =>
    obtain ⟨hsurf, p, hp, hcases⟩ := verdict_ok_cases hv
    have hreq : require (a.isSurface = true) = .ok () := require_ok.mpr hsurf
    refine ⟨[], ?_⟩
    rw [List.nil_append, Backend.collectArgs, hreq, ok_bind, hp, ok_bind]
    dsimp only
    rcases hcases with ⟨hgen, rfl⟩ | ⟨hgen, hset, rfl⟩ | ⟨-, -, rfl⟩
    · rw [if_pos hgen, Backend.outOfSync]
      split_ifs <;> rfl
    · rw [if_neg (not_not.mpr hgen), if_pos (by rw [hset]; decide)]
      rfl
    · exact absurd rfl hne
  | cons b passed ih =>
    obtain ⟨hsurf, hset, p, hp, hgen⟩ := passes_iff.mp (hpassed b List.mem_cons_self)
    obtain ⟨contents, hrest⟩ := ih fun c hc => hpassed c (List.mem_cons_of_mem b hc)
    have hreq : require (b.isSurface = true) = .ok () := require_ok.mpr hsurf
    refine ⟨p.2.mem :: contents, ?_⟩
    rw [List.cons_append, Backend.collectArgs, hreq, ok_bind, hp, ok_bind]
    dsimp only
    rw [if_neg (not_not.mpr hgen), if_neg (not_not.mpr hset), hrest]
    rfl

theorem enqueue_of_wide (h : ¬ argp.op.dimension ≤ 0x1003) :
    enqueue s argp cl = ⟨[], .error .assertion⟩ := by
  rw [enqueue, require, if_neg h]
  rfl

theorem enqueue_of_short (s : Backend) (cl : Bool) (hdim : argp.op.dimension ≤ 0x1003)
    (h : ¬ Covered argp) :
    ∃ log, ReadsWork log 0 argp.op.dimension.toNat ∧
      (∃ array, .readWork array (argp.work array).length ∈ log) ∧
      enqueue s argp cl = ⟨log, .error .outOfBounds⟩ := by
  have hshort : ∃ array, (argp.work array).length < 0 + argp.op.dimension.toNat := by
    rw [Nat.zero_add]
    simpa [Covered] using h
  obtain ⟨log, hlog, hmem, hcopy⟩ := copyWork_of_short (fun _ => Nat.zero_le _) hshort fun _ => []
  rw [Nat.zero_add] at hlog
  refine ⟨log, hlog, hmem, ?_⟩
  rw [enqueue, require, if_pos hdim, lift_ok_bind, hcopy]
  rfl

theorem enqueue_of_covered (cl : Bool) (hall : ∀ a ∈ argp.op.args, Passes s a)
    (hdim : argp.op.dimension ≤ 0x1003) (h : Covered argp) :
    ∃ log contents, ReadsWork log 0 argp.op.dimension.toNat ∧
      s.collectArgs argp.op.args = .ok (.success, contents) ∧
      enqueue s argp cl = ⟨log ++ [launched argp], .ok (completed s argp cl contents)⟩ := by
  obtain ⟨contents, hcontents⟩ := collectArgs_of_passes hall
  have hlen : ∀ array, 0 + argp.op.dimension.toNat ≤ (argp.work array).length := fun array => by
    rw [Nat.zero_add]
    exact h array
  obtain ⟨log, hlog, hcopy⟩ := copyWork_of_le hlen fun _ => []
  rw [Nat.zero_add] at hlog
  refine ⟨log, contents, hlog, hcontents, ?_⟩
  rw [enqueue, require, if_pos hdim, lift_ok_bind, hcopy, hcontents]
  rfl

inductive Course (s : Backend) (argp : VMCLDispatchOp) (cl : Bool) :
    Observed (StatusCode × Backend) → Prop
  | overrun (hcount : ¬ Counts s argp) (i : ℤ) (hi : i < 0) :
    Course s argp cl
      ⟨lockedAll 0 (argp.op.args.take (2 ^ 31)) ++ [.readArg i], .error .outOfBounds⟩
  | fault (passed rest : List KernelArg) (a : KernelArg) (e : Fault)
    (hargs : argp.op.args = passed ++ a :: rest) (hpassed : ∀ b ∈ passed, Passes s b)
    (hcount : Counts s argp) (hv : verdict s a = .error e) :
    Course s argp cl ⟨lockedAll 0 passed ++ [.readArg passed.length], .error e⟩
  | refusal (passed rest : List KernelArg) (a : KernelArg) (status : StatusCode)
    (hargs : argp.op.args = passed ++ a :: rest) (hpassed : ∀ b ∈ passed, Passes s b)
    (hcount : Counts s argp) (hv : verdict s a = .ok status) (hne : status ≠ .success) :
    Course s argp cl
      ⟨lockedAll 0 (passed ++ [a]) ++ unlockedAll (passed ++ [a]).reverse, .ok (status, s)⟩
  | wide (hall : ∀ a ∈ argp.op.args, Passes s a) (hcount : Counts s argp)
    (hdim : ¬ argp.op.dimension ≤ 0x1003) :
    Course s argp cl ⟨lockedAll 0 argp.op.args, .error .assertion⟩
  | short (hall : ∀ a ∈ argp.op.args, Passes s a) (hcount : Counts s argp)
    (hdim : argp.op.dimension ≤ 0x1003) (hshort : ¬ Covered argp) (log : List DispatchEvent)
    (hlog : ReadsWork log 0 argp.op.dimension.toNat) (array : WorkArray)
    (hread : .readWork array (argp.work array).length ∈ log) :
    Course s argp cl ⟨lockedAll 0 argp.op.args ++ log, .error .outOfBounds⟩
  | noArgs (hnil : argp.op.args = []) (hdim : argp.op.dimension ≤ 0x1003) (hcov : Covered argp)
    (log : List DispatchEvent) (hlog : ReadsWork log 0 argp.op.dimension.toNat) :
    Course s argp cl ⟨log ++ [launched argp, .readArg 0], .error .outOfBounds⟩
  | launch (hne : argp.op.args ≠ []) (hall : ∀ a ∈ argp.op.args, Passes s a)
    (hcount : Counts s argp) (hdim : argp.op.dimension ≤ 0x1003) (hcov : Covered argp)
    (log : List DispatchEvent) (hlog : ReadsWork log 0 argp.op.dimension.toNat)
    (contents : List (List Byte))
    (hcontents : s.collectArgs argp.op.args = .ok (.success, contents)) :
    Course s argp cl
      ⟨lockedAll 0 argp.op.args ++ (log ++ [launched argp]) ++ unlockedAll argp.op.args.reverse,
        .ok (completed s argp cl contents)⟩

theorem dispatch_of_setArgs {log : List DispatchEvent} {status : StatusCode} {i : BitVec 32}
    (h : setArgs s argp argp.op.args.length 0 = ⟨log, .ok (status, i)⟩) :
    dispatch s argp cl =
      (⟨log, .ok ()⟩ >>= fun _ => do
        let q ← (if status = .success then enqueue s argp cl else pure (status, s))
        cleanup argp i
        return q) := by
  rw [dispatch, h]
  rfl

theorem dispatch_of_setArgs_error {log : List DispatchEvent} {e : Fault}
    (h : setArgs s argp argp.op.args.length 0 = ⟨log, .error e⟩) :
    dispatch s argp cl = ⟨log, .error e⟩ := by
  rw [dispatch, h]
  rfl

theorem dispatch_refused (hargs : argp.op.args = passed ++ a :: rest)
    (hpassed : ∀ b ∈ passed, Passes s b) (hlt : passed.length < 2 ^ 31) {status : StatusCode}
    (hv : verdict s a = .ok status) (hne : status ≠ .success) :
    dispatch s argp cl =
      ⟨lockedAll 0 (passed ++ [a]) ++ unlockedAll (passed ++ [a]).reverse, .ok (status, s)⟩ := by
  have hlen : passed.length < argp.op.args.length := by simp [hargs]
  have htake : argp.op.args.take (passed.length + 1) = passed ++ [a] := by
    rw [hargs, List.take_length_add_append]
    rfl
  have hsurf : ∀ b ∈ argp.op.args.take (passed.length + 1), b.isSurface = true := by
    rw [htake]
    intro b hb
    rcases List.mem_append.mp hb with hb | hb
    · exact (passes_iff.mp (hpassed b hb)).1
    · rw [List.mem_singleton.mp hb]
      exact (verdict_ok_cases hv).1
  have hclean := cleanup_of_start (cleanupStart_of_lt hlen) hlt hlen hsurf
  rw [dispatch_of_setArgs (setArgs_refused hargs hpassed hlt hv hne), if_neg hne, hclean, htake]
  exact congrArg (fun l => Logged.mk (lockedAll 0 (passed ++ [a]) ++ l) _) (List.append_nil _)

theorem dispatch_launches (hnil : argp.op.args ≠ []) (hall : ∀ a ∈ argp.op.args, Passes s a)
    (hlen : argp.op.args.length ≤ 2 ^ 31) {log : List DispatchEvent} {q : StatusCode × Backend}
    (h : enqueue s argp cl = ⟨log, .ok q⟩) :
    dispatch s argp cl =
      ⟨lockedAll 0 argp.op.args ++ log ++ unlockedAll argp.op.args.reverse, .ok q⟩ := by
  have hpos : 0 < argp.op.args.length := List.length_pos_iff.mpr hnil
  have htake : argp.op.args.take (argp.op.args.length - 1 + 1) = argp.op.args := by
    rw [Nat.sub_add_cancel hpos, List.take_length]
  have hclean := cleanup_of_start (cleanupStart_length hpos) (by omega) (by omega)
    (by rw [htake]; exact fun b hb => (passes_iff.mp (hall b hb)).1)
  rw [dispatch_of_setArgs (setArgs_passed hall hlen), if_pos rfl, h, hclean, htake,
    List.append_assoc]
  exact congrArg (fun l => Logged.mk (lockedAll 0 argp.op.args ++ (log ++ l)) _)
    (List.append_nil _)

theorem course (s : Backend) (argp : VMCLDispatchOp) (cl : Bool) :
    Course s argp cl (dispatch s argp cl) := by
  by_cases hcount : Counts s argp
  swap
  · obtain ⟨hlen, hpassed⟩ := not_or.mp hcount
    push Not at hlen hpassed
    obtain ⟨i, hi, h⟩ := setArgs_overruns hlen hpassed
    rw [dispatch_of_setArgs_error h]
    exact .overrun hcount i hi
  rcases passes_or_first s argp.op.args with hall | ⟨passed, a, rest, hargs, hpassed, ha⟩
  swap
  · have hlt := (counts_iff_of_first hargs hpassed ha).mp hcount
    cases hv : verdict s a with
    | error e =>
      rw [dispatch_of_setArgs_error (setArgs_faults hargs hpassed hlt hv)]
      exact .fault passed rest a e hargs hpassed hcount hv
    | ok status =>
      have hne : status ≠ .success := fun h => ha (hv.trans (congrArg _ h))
      rw [dispatch_refused hargs hpassed hlt hv hne]
      exact .refusal passed rest a status hargs hpassed hcount hv hne
  have hset := setArgs_passed hall (hcount.length_le hall)
  by_cases hdim : argp.op.dimension ≤ 0x1003
  swap
  · rw [dispatch_of_setArgs hset, if_pos rfl, enqueue_of_wide hdim]
    have h : Course s argp cl _ := .wide hall hcount hdim
    rwa [← List.append_nil (lockedAll 0 argp.op.args)] at h
  by_cases hcov : Covered argp
  swap
  · obtain ⟨log, hlog, ⟨array, hread⟩, h⟩ := enqueue_of_short s cl hdim hcov
    rw [dispatch_of_setArgs hset, if_pos rfl, h]
    exact .short hall hcount hdim hcov log hlog array hread
  obtain ⟨log, contents, hlog, hcontents, h⟩ := enqueue_of_covered cl hall hdim hcov
  by_cases hnil : argp.op.args = []
  · have hcleanup : cleanup argp (BitVec.ofNat 32 argp.op.args.length) =
        ⟨[.readArg 0], .error .outOfBounds⟩ := by
      rw [hnil]
      exact cleanup_nil hnil
    have hcourse : Course s argp cl _ := .noArgs hnil hdim hcov log hlog
    rw [← List.singleton_append, ← List.append_assoc] at hcourse
    rw [dispatch_of_setArgs hset, if_pos rfl, h, hcleanup, hnil]
    exact hcourse
  · rw [dispatch_launches hnil hall (hcount.length_le hall) h]
    exact .launch hnil hall hcount hdim hcov log hlog contents hcontents

end VMAccel.Dispatch
