import VMAccel.DispatchLoop

/-!
# What the loops of a dispatch do

The loop over the arguments stops at the first one that does not pass, and the last loop goes back
over those that are locked. `verdict` is what one argument contributes. As long as `argIndex` stays
below `2 ^ 31`, the events and the result of both loops are given by the list of the arguments.
-/

namespace VMAccel.Dispatch

open StepSystem EventLog HoldCounts Logged

variable {s : Backend} {argp : VMCLDispatchOp} {cl : Bool} {a : KernelArg} {k n : ℕ}

def verdict (s : Backend) (a : KernelArg) : Except Fault StatusCode := do
  require a.isSurface
  let p ← s.locate a.sid a.inst
  if p.2.generation ≠ a.generation then return Backend.outOfSync p.2.generation a.generation
  else if a.set = false then return .fail
  else return .success

def Passes (s : Backend) (a : KernelArg) : Prop := verdict s a = .ok .success

instance (s : Backend) (a : KernelArg) : Decidable (Passes s a) :=
  inferInstanceAs (Decidable (_ = _))

theorem verdict_ok_cases {status : StatusCode} (h : verdict s a = .ok status) :
    a.isSurface = true ∧ ∃ p, s.locate a.sid a.inst = .ok p ∧
      ((p.2.generation ≠ a.generation ∧
          status = Backend.outOfSync p.2.generation a.generation) ∨
        (p.2.generation = a.generation ∧ a.set = false ∧ status = .fail) ∨
        (p.2.generation = a.generation ∧ a.set = true ∧ status = .success)) := by
  obtain ⟨_, hsurf, h⟩ := bind_eq_ok.mp h
  obtain ⟨p, hp, h⟩ := bind_eq_ok.mp h
  refine ⟨require_ok.mp hsurf, p, hp, ?_⟩
  split_ifs at h with hgen hset
  · cases h
    exact Or.inl ⟨hgen, rfl⟩
  · cases h
    exact Or.inr (Or.inl ⟨not_not.mp hgen, hset, rfl⟩)
  · cases h
    exact Or.inr (Or.inr ⟨not_not.mp hgen, Bool.eq_true_of_not_eq_false hset, rfl⟩)

theorem passes_iff : Passes s a ↔ a.isSurface = true ∧ a.set = true ∧
    ∃ p, s.locate a.sid a.inst = .ok p ∧ p.2.generation = a.generation := by
  constructor
  · intro h
    obtain ⟨hsurf, p, hp, ⟨hne, heq⟩ | ⟨-, -, heq⟩ | ⟨hgen, hset, -⟩⟩ := verdict_ok_cases h
    · exact absurd heq.symm Backend.outOfSync_ne_success
    · cases heq
    · exact ⟨hsurf, hset, p, hp, hgen⟩
  · rintro ⟨hsurf, hset, p, hp, hgen⟩
    rw [Passes, verdict, require_ok (u := ()).mpr hsurf, ok_bind, hp, ok_bind,
      if_neg (not_not.mpr hgen), if_neg (by rw [hset]; decide)]
    rfl

theorem toInt_ofNat_of_lt (hk : k < 2 ^ 31) : (BitVec.ofNat 32 k).toInt = k := by
  rw [BitVec.toInt_eq_toNat_of_lt (by rw [BitVec.toNat_ofNat]; omega), BitVec.toNat_ofNat]
  omega

theorem readArg_of_lt (hk : k < 2 ^ 31) (ha : argp.op.args[k]? = some a) :
    readArg argp (BitVec.ofNat 32 k) = ⟨[.readArg k], .ok a⟩ := by
  rw [readArg, tell_bind, toInt_ofNat_of_lt hk, if_neg (by omega), BitVec.toNat_ofNat,
    Nat.mod_eq_of_lt (by omega), readAt_ok.mpr ha]
  rfl

theorem readArg_of_ge (argp : VMCLDispatchOp) (hk : 2 ^ 31 ≤ k) (hlt : k < 2 ^ 32) :
    ∃ i : ℤ, i < 0 ∧ readArg argp (BitVec.ofNat 32 k) = ⟨[.readArg i], .error .outOfBounds⟩ := by
  have hneg : (BitVec.ofNat 32 k).toInt < 0 := by
    rw [BitVec.toInt_eq_toNat_cond, BitVec.toNat_ofNat, Nat.mod_eq_of_lt hlt, if_neg (by omega)]
    omega
  refine ⟨_, hneg, ?_⟩
  rw [readArg, tell_bind, if_pos hneg]
  rfl

def locked (k : ℕ) (a : KernelArg) : List DispatchEvent :=
  .readArg k :: (Backend.Locking.path a.sid a.inst).map fun m => .mutex (.lock m)

theorem setArgs_of_error (hk : k < 2 ^ 31) (ha : argp.op.args[k]? = some a) {e : Fault}
    (hv : verdict s a = .error e) :
    setArgs s argp (n + 1) (BitVec.ofNat 32 k) = ⟨[.readArg k], .error e⟩ := by
  rw [setArgs, readArg_of_lt hk ha, bind_of_ok rfl]
  unfold verdict at hv
  cases hsurf : require (a.isSurface = true) with
  | error e' =>
    rw [hsurf] at hv
    cases hv
    rfl
  | ok u =>
    rw [hsurf, ok_bind] at hv
    rw [lift_ok_bind]
    cases hp : s.locate a.sid a.inst with
    | error e' =>
      rw [hp] at hv
      cases hv
      rfl
    | ok p =>
      rw [hp, ok_bind] at hv
      split_ifs at hv
      · cases hv
      · cases hv
      · cases hv

theorem setArgs_of_ok (hk : k < 2 ^ 31) (ha : argp.op.args[k]? = some a) {status : StatusCode}
    (hv : verdict s a = .ok status) :
    setArgs s argp (n + 1) (BitVec.ofNat 32 k) =
      if status = .success then
        ⟨locked k a ++ (setArgs s argp n (BitVec.ofNat 32 (k + 1))).log,
          (setArgs s argp n (BitVec.ofNat 32 (k + 1))).result⟩
      else ⟨locked k a, .ok (status, BitVec.ofNat 32 k)⟩ := by
  obtain ⟨hsurf, p, hp, hcases⟩ := verdict_ok_cases hv
  have hreq : require (a.isSurface = true) = .ok () := require_ok.mpr hsurf
  have hnext : BitVec.ofNat 32 k + 1 = BitVec.ofNat 32 (k + 1) := (BitVec.ofNat_add k 1).symm
  rw [setArgs, readArg_of_lt hk ha, bind_of_ok rfl, hreq, lift_ok_bind, hp, lift_ok_bind, hnext]
  rcases hcases with ⟨hne, rfl⟩ | ⟨hgen, hset, rfl⟩ | ⟨hgen, hset, rfl⟩
  · rw [if_pos hne, if_neg Backend.outOfSync_ne_success]
    rfl
  · rw [if_neg (not_not.mpr hgen), if_pos hset, if_neg (by decide)]
    rfl
  · rw [if_neg (not_not.mpr hgen), if_neg (by rw [hset]; decide), if_pos rfl]
    rfl

def lockedAll : ℕ → List KernelArg → List DispatchEvent
  | _, [] => []
  | k, a :: args => locked k a ++ lockedAll (k + 1) args

theorem lockedAll_append (k : ℕ) (args args' : List KernelArg) :
    lockedAll k (args ++ args') = lockedAll k args ++ lockedAll (k + args.length) args' := by
  induction args generalizing k with
  | nil => rfl
  | cons a args ih =>
    rw [List.cons_append, lockedAll, lockedAll, ih, List.append_assoc, List.length_cons,
      Nat.add_assoc, Nat.add_comm 1]

theorem setArgs_append {passed : List KernelArg} (rest : List KernelArg)
    (hpassed : ∀ a ∈ passed, Passes s a) (hargs : argp.op.args.drop k = passed ++ rest)
    (hk : k + passed.length ≤ 2 ^ 31) :
    setArgs s argp (passed.length + n) (BitVec.ofNat 32 k) =
      ⟨lockedAll k passed ++ (setArgs s argp n (BitVec.ofNat 32 (k + passed.length))).log,
        (setArgs s argp n (BitVec.ofNat 32 (k + passed.length))).result⟩ := by
  induction passed generalizing k with
  | nil =>
    rw [List.length_nil, Nat.zero_add, Nat.add_zero]
    rfl
  | cons a passed ih =>
    rw [List.length_cons] at hk
    have ha : argp.op.args[k]? = some a := by
      rw [← List.head?_drop, hargs]
      rfl
    have hdrop : argp.op.args.drop (k + 1) = passed ++ rest := by
      rw [← List.tail_drop, hargs]
      rfl
    have hround := setArgs_of_ok (n := passed.length + n) (by omega) ha
      (hpassed a List.mem_cons_self)
    rw [if_pos rfl, ih (fun b hb => hpassed b (List.mem_cons_of_mem a hb)) hdrop (by omega)]
      at hround
    rw [List.length_cons, Nat.add_right_comm, hround, lockedAll, List.append_assoc, Nat.add_assoc,
      Nat.add_comm 1]

theorem setArgs_passed (hpassed : ∀ a ∈ argp.op.args, Passes s a)
    (hlen : argp.op.args.length ≤ 2 ^ 31) :
    setArgs s argp argp.op.args.length 0 =
      ⟨lockedAll 0 argp.op.args, .ok (.success, BitVec.ofNat 32 argp.op.args.length)⟩ := by
  have h := setArgs_append (n := 0) (k := 0) [] hpassed
    (by rw [List.drop_zero, List.append_nil]) (by omega)
  rw [Nat.add_zero, Nat.zero_add] at h
  refine h.trans ?_
  rw [setArgs]
  exact congrArg (Logged.mk · _) (List.append_nil _)

section Stops

variable {passed rest : List KernelArg} (hargs : argp.op.args = passed ++ a :: rest)
  (hpassed : ∀ b ∈ passed, Passes s b)

include hargs hpassed

theorem setArgs_stops (hlt : passed.length < 2 ^ 31) :
    setArgs s argp argp.op.args.length 0 =
      ⟨lockedAll 0 passed ++
          (setArgs s argp (rest.length + 1) (BitVec.ofNat 32 passed.length)).log,
        (setArgs s argp (rest.length + 1) (BitVec.ofNat 32 passed.length)).result⟩ := by
  have h := setArgs_append (n := rest.length + 1) (k := 0) (a :: rest) hpassed
    (by rw [List.drop_zero, hargs]) (by omega)
  rw [Nat.zero_add] at h
  rw [hargs, List.length_append]
  exact h

theorem setArgs_refused (hlt : passed.length < 2 ^ 31) {status : StatusCode}
    (hv : verdict s a = .ok status) (hne : status ≠ .success) :
    setArgs s argp argp.op.args.length 0 =
      ⟨lockedAll 0 (passed ++ [a]), .ok (status, BitVec.ofNat 32 passed.length)⟩ := by
  have ha : argp.op.args[passed.length]? = some a := by rw [hargs]; simp
  rw [setArgs_stops hargs hpassed hlt, setArgs_of_ok hlt ha hv, if_neg hne, lockedAll_append,
    Nat.zero_add]
  exact congrArg (fun l => Logged.mk (lockedAll 0 passed ++ l) _) (List.append_nil _).symm

theorem setArgs_faults (hlt : passed.length < 2 ^ 31) {e : Fault}
    (hv : verdict s a = .error e) : setArgs s argp argp.op.args.length 0 =
      ⟨lockedAll 0 passed ++ [.readArg passed.length], .error e⟩ := by
  have ha : argp.op.args[passed.length]? = some a := by rw [hargs]; simp
  rw [setArgs_stops hargs hpassed hlt, setArgs_of_error hlt ha hv]

end Stops

theorem setArgs_overruns (hlen : 2 ^ 31 < argp.op.args.length)
    (hpassed : ∀ a ∈ argp.op.args.take (2 ^ 31), Passes s a) :
    ∃ i : ℤ, i < 0 ∧ setArgs s argp argp.op.args.length 0 =
      ⟨lockedAll 0 (argp.op.args.take (2 ^ 31)) ++ [.readArg i], .error .outOfBounds⟩ := by
  have htake : (argp.op.args.take (2 ^ 31)).length = 2 ^ 31 :=
    List.length_take_of_le hlen.le
  obtain ⟨n, hn⟩ : ∃ n, argp.op.args.length = 2 ^ 31 + (n + 1) :=
    ⟨argp.op.args.length - 2 ^ 31 - 1, by omega⟩
  obtain ⟨i, hneg, hread⟩ := readArg_of_ge argp (k := 2 ^ 31) le_rfl (by omega)
  refine ⟨i, hneg, ?_⟩
  have h := setArgs_append (n := n + 1) (k := 0) (argp.op.args.drop (2 ^ 31)) hpassed
    (by rw [List.drop_zero, List.take_append_drop]) (by omega)
  rw [htake, ← hn, Nat.zero_add, setArgs, hread, bind_of_error rfl] at h
  exact h

def unlocked (k : ℕ) (a : KernelArg) : List DispatchEvent :=
  .readArg k :: (Backend.Locking.path a.sid a.inst).reverse.map fun m => .mutex (.unlock m)

def unlockedAll : List KernelArg → List DispatchEvent
  | [] => []
  | a :: args => unlocked args.length a ++ unlockedAll args

theorem unlockArg_of_lt (hk : k < 2 ^ 31) (ha : argp.op.args[k]? = some a)
    (hsurf : a.isSurface = true) :
    unlockArg argp (BitVec.ofNat 32 k) = ⟨unlocked k a, .ok ()⟩ := by
  rw [unlockArg, readArg_of_lt hk ha, bind_of_ok rfl, if_pos hsurf]
  rfl

theorem unlockArgs_of_lt (hk : k < 2 ^ 31) (hlt : k < argp.op.args.length)
    (hsurf : ∀ a ∈ argp.op.args.take (k + 1), a.isSurface = true) :
    unlockArgs argp k = ⟨unlockedAll (argp.op.args.take (k + 1)).reverse, .ok ()⟩ := by
  induction k with
  | zero =>
    have ha : argp.op.args[0]? = some argp.op.args[0] := List.getElem?_eq_getElem hlt
    rw [List.take_add_one, ha] at hsurf ⊢
    exact unlockArg_of_lt hk ha (hsurf _ (List.mem_append_right _ (List.mem_singleton_self _)))
  | succ k ih =>
    have ha : argp.op.args[k + 1]? = some argp.op.args[k + 1] := List.getElem?_eq_getElem hlt
    rw [List.take_add_one, ha] at hsurf ⊢
    have hone := unlockArg_of_lt hk ha
      (hsurf _ (List.mem_append_right _ (List.mem_singleton_self _)))
    rw [unlockArgs, hone, bind_of_ok rfl,
      ih (by omega) (by omega) fun a h => hsurf a (List.mem_append_left _ h), Option.toList_some,
      List.reverse_append, List.reverse_singleton, List.singleton_append, unlockedAll,
      List.length_reverse, List.length_take_of_le (by omega)]

theorem toNat_last (hpos : 0 < argp.op.args.length) :
    (BitVec.ofNat 32 argp.op.args.length - 1).toNat = argp.op.args.length - 1 := by
  have hlen := argp.length_args
  have hone : (1 : BitVec 32).toNat = 1 := rfl
  rw [BitVec.toNat_sub, BitVec.toNat_ofNat, hone]
  omega

theorem cleanupStart_of_lt (hlt : k < argp.op.args.length) :
    cleanupStart argp (BitVec.ofNat 32 k) = BitVec.ofNat 32 k := by
  have hlen := argp.length_args
  have hlast := toNat_last (Nat.zero_lt_of_lt hlt)
  rw [cleanupStart]
  split_ifs with h
  · rfl
  · refine BitVec.eq_of_toNat_eq ?_
    rw [BitVec.lt_def, hlast, BitVec.toNat_ofNat] at h
    rw [hlast, BitVec.toNat_ofNat]
    omega

theorem cleanupStart_length (hpos : 0 < argp.op.args.length) :
    cleanupStart argp (BitVec.ofNat 32 argp.op.args.length) =
      BitVec.ofNat 32 (argp.op.args.length - 1) := by
  have hlen := argp.length_args
  have hlast := toNat_last hpos
  have h : ¬ BitVec.ofNat 32 argp.op.args.length < BitVec.ofNat 32 argp.op.args.length - 1 := by
    rw [BitVec.lt_def, hlast, BitVec.toNat_ofNat]
    omega
  rw [cleanupStart, if_neg h]
  refine BitVec.eq_of_toNat_eq ?_
  rw [hlast, BitVec.toNat_ofNat]
  omega

theorem cleanup_of_start {i : BitVec 32} (hstart : cleanupStart argp i = BitVec.ofNat 32 k)
    (hk : k < 2 ^ 31) (hlt : k < argp.op.args.length)
    (hsurf : ∀ a ∈ argp.op.args.take (k + 1), a.isSurface = true) :
    cleanup argp i = ⟨unlockedAll (argp.op.args.take (k + 1)).reverse, .ok ()⟩ := by
  have hk' : (BitVec.ofNat 32 k).toNat = k := Nat.mod_eq_of_lt (by omega)
  rw [cleanup, hstart, toInt_ofNat_of_lt hk, if_neg (by omega), hk', unlockArgs_of_lt hk hlt hsurf]

/-- Without arguments, `args_len - 1` is the largest unsigned number, and the loop starts at 0. -/
theorem cleanup_nil (hnil : argp.op.args = []) :
    cleanup argp 0 = ⟨[.readArg 0], .error .outOfBounds⟩ := by
  rw [cleanup, cleanupStart, hnil]
  change unlockArg argp 0 = _
  rw [unlockArg, readArg, hnil]
  rfl

def ReadsWork (log : List DispatchEvent) (i j : ℕ) : Prop :=
  ∀ e ∈ log, ∃ array l, e = .readWork array l ∧ i ≤ l ∧ l < j

theorem readsWork_nil (i j : ℕ) : ReadsWork [] i j := fun _ he => absurd he List.not_mem_nil

theorem ReadsWork.cons {log : List DispatchEvent} {i j : ℕ} (h : ReadsWork log i j)
    (hij : i < j) (array : WorkArray) : ReadsWork (.readWork array i :: log) i j := by
  intro e he
  rcases List.mem_cons.mp he with rfl | he
  · exact ⟨array, i, rfl, le_rfl, hij⟩
  · exact h e he

theorem ReadsWork.mono {log : List DispatchEvent} {i j : ℕ} (h : ReadsWork log (i + 1) j) :
    ReadsWork log i j := by
  intro e he
  obtain ⟨array, l, rfl, hl, hlt⟩ := h e he
  exact ⟨array, l, rfl, by omega, hlt⟩

theorem readWork_of_lt {array : WorkArray} {i : ℕ} (hi : i < (argp.work array).length) :
    readWork argp array i = ⟨[.readWork array i], .ok (argp.work array)[i]⟩ := by
  rw [readWork, readAt_ok.mpr (List.getElem?_eq_getElem hi)]
  rfl

theorem readWork_of_ge {array : WorkArray} {i : ℕ} (hi : (argp.work array).length ≤ i) :
    readWork argp array i = ⟨[.readWork array i], .error .outOfBounds⟩ := by
  rw [readWork, readAt, List.getElem?_eq_none hi]
  rfl

theorem drop_take_succ {l : List (BitVec 32)} {i : ℕ} (hi : i < l.length) (rounds : ℕ) :
    (l.drop i).take (rounds + 1) = l[i] :: (l.drop (i + 1)).take rounds := by
  rw [List.drop_eq_getElem_cons hi, List.take_succ_cons]

theorem ReadsWork.round {log : List DispatchEvent} {i rounds : ℕ}
    (h : ReadsWork log (i + 1) (i + 1 + rounds)) :
    ReadsWork (.readWork .globalOffset i :: .readWork .globalSize i :: .readWork .localSize i ::
      log) i (i + (rounds + 1)) := by
  have hij : i < i + (rounds + 1) := by omega
  rw [Nat.add_assoc, Nat.add_comm 1] at h
  exact ((h.mono.cons hij _).cons hij _).cons hij _

theorem copyWork_round {rounds i : ℕ} {work : WorkArray → List (BitVec 32)}
    (hoffset : i < (argp.work .globalOffset).length) (hsize : i < (argp.work .globalSize).length)
    (hlocal : i < (argp.work .localSize).length) {log : List DispatchEvent}
    {y : Except Fault (WorkArray → List (BitVec 32))}
    (hrest : copyWork argp rounds (i + 1) (push work (argp.work .globalOffset)[i]
      (argp.work .globalSize)[i] (argp.work .localSize)[i]) = ⟨log, y⟩) :
    copyWork argp (rounds + 1) i work = ⟨.readWork .globalOffset i :: .readWork .globalSize i ::
      .readWork .localSize i :: log, y⟩ := by
  rw [copyWork, readWork_of_lt hoffset, bind_of_ok rfl, readWork_of_lt hsize, bind_of_ok rfl,
    readWork_of_lt hlocal, bind_of_ok rfl, hrest]
  rfl

theorem copyWork_of_le {rounds i : ℕ} (h : ∀ array, i + rounds ≤ (argp.work array).length)
    (work : WorkArray → List (BitVec 32)) :
    ∃ log, ReadsWork log i (i + rounds) ∧ copyWork argp rounds i work =
      ⟨log, .ok fun array => work array ++ ((argp.work array).drop i).take rounds⟩ := by
  induction rounds generalizing i work with
  | zero =>
    refine ⟨[], readsWork_nil _ _, ?_⟩
    simp only [List.take_zero, List.append_nil]
    rfl
  | succ rounds ih =>
    have hlt : ∀ array, i < (argp.work array).length := fun array => by have := h array; omega
    have hoffset := hlt .globalOffset
    have hsize := hlt .globalSize
    have hlocal := hlt .localSize
    obtain ⟨log, hlog, hrest⟩ := ih (i := i + 1) (fun array => by have := h array; omega)
      (push work (argp.work .globalOffset)[i] (argp.work .globalSize)[i] (argp.work .localSize)[i])
    refine ⟨_, hlog.round, ?_⟩
    rw [copyWork_round hoffset hsize hlocal hrest]
    have hwork : (fun array => push work (argp.work .globalOffset)[i] (argp.work .globalSize)[i]
        (argp.work .localSize)[i] array ++ ((argp.work array).drop (i + 1)).take rounds) =
        fun array => work array ++ ((argp.work array).drop i).take (rounds + 1) := by
      funext array
      rw [drop_take_succ (hlt array)]
      cases array <;> exact List.append_assoc ..
    rw [hwork]

theorem copyWork_ends {i : ℕ} (hi : ∀ array, i ≤ (argp.work array).length)
    (h : ¬ ∀ array, i < (argp.work array).length) (rounds : ℕ)
    (work : WorkArray → List (BitVec 32)) :
    ∃ log, ReadsWork log i (i + (rounds + 1)) ∧
      (∃ array, .readWork array (argp.work array).length ∈ log) ∧
      copyWork argp (rounds + 1) i work = ⟨log, .error .outOfBounds⟩ := by
  have hij : i < i + (rounds + 1) := by omega
  have hend : ∀ {array}, (argp.work array).length ≤ i → (argp.work array).length = i :=
    fun hle => Nat.le_antisymm hle (hi _)
  rcases Nat.lt_or_ge i (argp.work .globalOffset).length with hoffset | hoffset
  swap
  · refine ⟨[.readWork .globalOffset i], (readsWork_nil _ _).cons hij _, ⟨.globalOffset, ?_⟩, ?_⟩
    · rw [hend hoffset]
      exact List.mem_singleton_self _
    · rw [copyWork, readWork_of_ge hoffset, bind_of_error rfl]
  rcases Nat.lt_or_ge i (argp.work .globalSize).length with hsize | hsize
  swap
  · refine ⟨[.readWork .globalOffset i, .readWork .globalSize i],
      ((readsWork_nil _ _).cons hij _).cons hij _, ⟨.globalSize, ?_⟩, ?_⟩
    · rw [hend hsize]
      exact List.mem_cons_of_mem _ (List.mem_singleton_self _)
    · rw [copyWork, readWork_of_lt hoffset, bind_of_ok rfl, readWork_of_ge hsize,
        bind_of_error rfl]
      rfl
  rcases Nat.lt_or_ge i (argp.work .localSize).length with hlocal | hlocal
  swap
  · refine ⟨[.readWork .globalOffset i, .readWork .globalSize i, .readWork .localSize i],
      (((readsWork_nil _ _).cons hij _).cons hij _).cons hij _, ⟨.localSize, ?_⟩, ?_⟩
    · rw [hend hlocal]
      exact List.mem_cons_of_mem _ (List.mem_cons_of_mem _ (List.mem_singleton_self _))
    · rw [copyWork, readWork_of_lt hoffset, bind_of_ok rfl, readWork_of_lt hsize, bind_of_ok rfl,
        readWork_of_ge hlocal, bind_of_error rfl]
      rfl
  -- otherwise each array has an entry
  refine absurd (fun array => ?_) h
  cases array with
  | globalOffset => exact hoffset
  | globalSize => exact hsize
  | localSize => exact hlocal

theorem copyWork_of_short {rounds i : ℕ} (hi : ∀ array, i ≤ (argp.work array).length)
    (h : ∃ array, (argp.work array).length < i + rounds) (work : WorkArray → List (BitVec 32)) :
    ∃ log, ReadsWork log i (i + rounds) ∧
      (∃ array, .readWork array (argp.work array).length ∈ log) ∧
      copyWork argp rounds i work = ⟨log, .error .outOfBounds⟩ := by
  induction rounds generalizing i work with
  | zero =>
    obtain ⟨array, hlt⟩ := h
    exact absurd hlt (Nat.not_lt.mpr (hi array))
  | succ rounds ih =>
    by_cases hlt : ∀ array, i < (argp.work array).length
    · have hoffset := hlt .globalOffset
      have hsize := hlt .globalSize
      have hlocal := hlt .localSize
      have hshort : ∃ array, (argp.work array).length < i + 1 + rounds :=
        h.imp fun array hlt => by omega
      obtain ⟨log, hlog, ⟨array, hmem⟩, hrest⟩ := ih hlt hshort (push work
        (argp.work .globalOffset)[i] (argp.work .globalSize)[i] (argp.work .localSize)[i])
      refine ⟨_, hlog.round, ⟨array, ?_⟩, copyWork_round hoffset hsize hlocal hrest⟩
      exact List.mem_cons_of_mem _ (List.mem_cons_of_mem _ (List.mem_cons_of_mem _ hmem))
    · exact copyWork_ends hi hlt rounds work

end VMAccel.Dispatch
