import VMAccel.DispatchCourse

/-!
# The gate of a dispatch

When a dispatch launches its kernel, what it answers otherwise, and which of the entries it reads
were sent. All of it is read off from the course that a dispatch takes.
-/

namespace VMAccel.Dispatch

open StepSystem EventLog HoldCounts Logged

variable {s : Backend} {argp : VMCLDispatchOp} {cl : Bool} {a : KernelArg}

theorem dispatch_refines {r : StatusCode × Backend} (hr : (dispatch s argp cl).result = .ok r) :
    s.dispatch argp.op cl = .ok r := by
  have hcourse := course s argp cl
  generalize dispatch s argp cl = x at hcourse hr
  cases hcourse with
  | overrun | fault | wide | short | noArgs => cases hr
  | refusal passed rest a status hargs hpassed _ hv hne =>
    cases hr
    obtain ⟨contents, hcollect⟩ := collectArgs_of_first hpassed hv hne rest
    rw [Backend.dispatch, hargs, hcollect, ok_bind, if_pos hne]
    rfl
  | launch _ hall _ hdim _ log _ contents hcontents =>
    cases hr
    have hreq : require (argp.op.dimension ≤ 0x1003) = .ok () := require_ok.mpr hdim
    rw [Backend.dispatch, hcontents, ok_bind, if_neg (not_not.mpr rfl), hreq, ok_bind, completed]
    split_ifs <;> rfl

def outline (surf : VMWOpenCLSurface) : VMWOpenCLSurface :=
  { surf with inst := surf.inst.map fun x => { x with mem := List.replicate x.mem.length 0 } }

structure SameTables (s s' : Backend) : Prop where
  surfaceIds : s'.surfaceIds = s.surfaceIds
  surfaces : s'.surfaces.map outline = s.surfaces.map outline

def OfArgs (n : ℕ) (e : DispatchEvent) : Prop :=
  (∃ i : ℕ, i < n ∧ e = .readArg i) ∨ ∃ op, e = .mutex op

theorem OfArgs.mono {n n' : ℕ} {e : DispatchEvent} (h : OfArgs n e) (hn : n ≤ n') :
    OfArgs n' e := by
  rcases h with ⟨i, hi, he⟩ | h
  · exact Or.inl ⟨i, by omega, he⟩
  · exact Or.inr h

theorem ofArgs_round {k : ℕ} {e : DispatchEvent} {ms : List Mutex} {f : Mutex → Op Mutex}
    (he : e ∈ .readArg k :: ms.map fun m => .mutex (f m)) : OfArgs (k + 1) e := by
  rcases List.mem_cons.mp he with rfl | he
  · exact Or.inl ⟨k, by omega, rfl⟩
  · obtain ⟨m, -, rfl⟩ := List.mem_map.mp he
    exact Or.inr ⟨_, rfl⟩

theorem ofArgs_lockedAll {k : ℕ} {args : List KernelArg} {e : DispatchEvent}
    (he : e ∈ lockedAll k args) : OfArgs (k + args.length) e := by
  induction args generalizing k with
  | nil => exact absurd he List.not_mem_nil
  | cons a args ih =>
    rw [List.length_cons, Nat.add_comm args.length, ← Nat.add_assoc]
    rcases List.mem_append.mp he with he | he
    · exact (ofArgs_round he).mono (by omega)
    · exact ih he

theorem ofArgs_unlockedAll {args : List KernelArg} {e : DispatchEvent}
    (he : e ∈ unlockedAll args) : OfArgs args.length e := by
  induction args with
  | nil => exact absurd he List.not_mem_nil
  | cons a args ih =>
    rcases List.mem_append.mp he with he | he
    · exact ofArgs_round he
    · exact (ih he).mono (Nat.le_succ _)

def Launches (log : List DispatchEvent) : Prop :=
  ∃ dimension work, .launch dimension work ∈ log

def isLaunch : DispatchEvent → Bool
  | .launch _ _ => true
  | _ => false

theorem any_isLaunch {log : List DispatchEvent} : log.any isLaunch = true ↔ Launches log := by
  rw [List.any_eq_true]
  constructor
  · rintro ⟨e, he, hlaunch⟩
    cases e with
    | launch dimension work => exact ⟨dimension, work, he⟩
    | mutex | readArg | readWork => cases hlaunch
  · rintro ⟨dimension, work, hmem⟩
    exact ⟨_, hmem, rfl⟩

instance (log : List DispatchEvent) : Decidable (Launches log) := decidable_of_iff _ any_isLaunch

theorem not_launches {n : ℕ} {log : List DispatchEvent} (h : ∀ e ∈ log, OfArgs n e) :
    ¬ Launches log := by
  rintro ⟨dimension, work, hmem⟩
  obtain ⟨i, -, he⟩ | ⟨op, he⟩ := h _ hmem
  · cases he
  · cases he

theorem not_launches_lockedAll (k : ℕ) (args : List KernelArg) : ¬ Launches (lockedAll k args) :=
  not_launches fun _ he => ofArgs_lockedAll he

theorem not_launches_unlockedAll (args : List KernelArg) : ¬ Launches (unlockedAll args) :=
  not_launches fun _ he => ofArgs_unlockedAll he

theorem ReadsWork.not_launches {log : List DispatchEvent} {i j : ℕ} (h : ReadsWork log i j) :
    ¬ Launches log := by
  rintro ⟨dimension, work, hmem⟩
  obtain ⟨array, l, he, -⟩ := h _ hmem
  cases he

theorem eq_launched {dimension : BitVec 32} {work : WorkArray → List (BitVec 32)}
    (h : .launch dimension work ∈ (dispatch s argp cl).log) :
    .launch dimension work = launched argp := by
  have hlocked : ∀ {k args}, .launch dimension work ∉ lockedAll k args :=
    fun hmem => not_launches_lockedAll _ _ ⟨_, _, hmem⟩
  have hunlocked : ∀ {args}, .launch dimension work ∉ unlockedAll args :=
    fun hmem => not_launches_unlockedAll _ ⟨_, _, hmem⟩
  have hreads : ∀ {log i j}, ReadsWork log i j → .launch dimension work ∉ log :=
    fun hlog hmem => hlog.not_launches ⟨_, _, hmem⟩
  have hcourse := course s argp cl
  generalize dispatch s argp cl = x at hcourse h
  cases hcourse with
  | overrun | fault => simp [hlocked] at h
  | refusal | wide => simp [hlocked, hunlocked] at h
  | short _ _ _ _ log hlog => simp [hlocked, hreads hlog] at h
  | noArgs _ _ _ log hlog => simpa [hreads hlog] using h
  | launch _ _ _ _ _ log hlog => simpa [hlocked, hunlocked, hreads hlog] using h

def demoDispatch (args : List KernelArg) (hargs : args.length < 2 ^ 32) (dimension : BitVec 32)
    (work : List (BitVec 32)) : VMCLDispatchOp :=
  ⟨⟨args, dimension, fun _ _ _ => 0⟩, fun _ => work, hargs⟩

/-- A read of an entry that was sent. -/
def InBounds (argp : VMCLDispatchOp) : DispatchEvent → Prop
  | .readArg i => 0 ≤ i ∧ i < argp.op.args.length
  | .readWork array i => i < (argp.work array).length
  | _ => True

instance (argp : VMCLDispatchOp) : DecidablePred (InBounds argp)
  | .readArg i => inferInstanceAs (Decidable (0 ≤ i ∧ i < argp.op.args.length))
  | .readWork array i => inferInstanceAs (Decidable (i < (argp.work array).length))
  | .mutex _ => .isTrue trivial
  | .launch _ _ => .isTrue trivial

theorem OfArgs.inBounds {n : ℕ} {e : DispatchEvent} (h : OfArgs n e)
    (hn : n ≤ argp.op.args.length) : InBounds argp e := by
  rcases h with ⟨i, hi, rfl⟩ | ⟨op, rfl⟩
  · exact ⟨by omega, by omega⟩
  · trivial

theorem inBounds_lockedAll {args : List KernelArg} (h : args.length ≤ argp.op.args.length) :
    ∀ e ∈ lockedAll 0 args, InBounds argp e :=
  fun _ he => (ofArgs_lockedAll he).inBounds ((Nat.zero_add _).trans_le h)

theorem inBounds_unlockedAll {args : List KernelArg} (h : args.length ≤ argp.op.args.length) :
    ∀ e ∈ unlockedAll args.reverse, InBounds argp e :=
  fun _ he => (ofArgs_unlockedAll he).inBounds (List.length_reverse.trans_le h)

theorem Covered.inBounds (h : Covered argp) {log : List DispatchEvent}
    (hlog : ReadsWork log 0 argp.op.dimension.toNat) : ∀ e ∈ log, InBounds argp e := by
  intro e he
  obtain ⟨array, l, rfl, -, hl⟩ := hlog e he
  exact hl.trans_le (h array)

/-- A dispatch reads only entries that were sent exactly if `argIndex` stays in its type and, when
every argument passes and the dimension is one that the assertion admits, there is an argument and
the work arrays have an entry for each dimension. -/
theorem reads_sent_iff (s : Backend) (argp : VMCLDispatchOp) (cl : Bool) :
    (∀ e ∈ (dispatch s argp cl).log, InBounds argp e) ↔
      Counts s argp ∧ ((∀ a ∈ argp.op.args, Passes s a) → argp.op.dimension ≤ 0x1003 →
        argp.op.args ≠ [] ∧ Covered argp) := by
  have hcourse := course s argp cl
  generalize dispatch s argp cl = x at hcourse
  cases hcourse with
  | overrun hcount i hi =>
    refine iff_of_false (fun h => ?_) fun h => hcount h.1
    exact absurd (h (.readArg i) (by simp)).1 (by omega)
  | fault passed rest a e hargs hpassed hcount hv =>
    have hlen : passed.length < argp.op.args.length := by simp [hargs]
    refine iff_of_true (List.forall_mem_append.mpr ⟨inBounds_lockedAll hlen.le, ?_⟩)
      ⟨hcount, fun hall => ?_⟩
    · exact List.forall_mem_singleton.mpr ⟨by omega, by omega⟩
    · exact absurd (hv.symm.trans (hall a (by simp [hargs]))) (by simp)
  | refusal passed rest a status hargs hpassed hcount hv hstatus =>
    have hlen : (passed ++ [a]).length ≤ argp.op.args.length := by simp [hargs]
    refine iff_of_true (List.forall_mem_append.mpr ⟨inBounds_lockedAll hlen,
      inBounds_unlockedAll hlen⟩) ⟨hcount, fun hall => ?_⟩
    exact absurd (Except.ok.inj (hv.symm.trans (hall a (by simp [hargs])))) hstatus
  | wide hall hcount hdim =>
    exact iff_of_true (inBounds_lockedAll le_rfl) ⟨hcount, fun _ h => absurd h hdim⟩
  | short hall _ hdim hshort log _ array hread =>
    refine iff_of_false (fun h => ?_) fun h => hshort (h.2 hall hdim).2
    exact absurd (h _ (List.mem_append_right _ hread)) (lt_irrefl _)
  | noArgs hnil hdim hcov log hlog =>
    refine iff_of_false (fun h => ?_) fun h => (h.2 (by simp [hnil]) hdim).1 hnil
    have hread := (h (.readArg 0) (by simp)).2
    rw [hnil] at hread
    exact absurd hread (lt_irrefl _)
  | launch hne hall hcount hdim hcov log hlog contents =>
    refine iff_of_true ?_ ⟨hcount, fun _ _ => ⟨hne, hcov⟩⟩
    refine List.forall_mem_append.mpr ⟨List.forall_mem_append.mpr ⟨inBounds_lockedAll le_rfl, ?_⟩,
      inBounds_unlockedAll le_rfl⟩
    exact List.forall_mem_append.mpr ⟨hcov.inBounds hlog, List.forall_mem_singleton.mpr trivial⟩

def demoReads (op : VMCLDispatchOp) : Bool :=
  decide (∀ e ∈ (dispatch .powerOn op true).log, InBounds op e)

/-- Without arguments the last loop reads the first one. With more dimensions than entries, the
entry after the last is read. -/
theorem dispatch_reads_unsent :
    demoReads (demoDispatch [] (by decide) 1 [1]) = false ∧
    demoReads (demoDispatch [⟨true, 0, 0, 0, true⟩] (by decide) 2 [1]) = false := by
  decide +kernel

end VMAccel.Dispatch
