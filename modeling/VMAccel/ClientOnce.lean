import VMAccel.ClientFrame

/-!
# How often a dispatch enqueues its kernel

`operation::dispatch` tries again while the server answers that a resource is not ready, and also
while there is no reply at all. A try whose reply is lost may have been executed, so the kernel is
enqueued at most once exactly under those patterns of answers in which nothing is executed after
such a try.
-/

namespace VMAccel

open StepSystem

def Event.isRan : Event → Bool
  | .ran _ => true
  | _ => false

/-- How many kernels were enqueued so far. -/
def Host.enqueued (h : Host) : ℕ := h.trace.countP Event.isRan

namespace Answer

def Enqueues : Answer → Prop
  | .lost handled => handled = some true
  | .refused _ _ => False
  | .served cl => cl = true

instance : DecidablePred Enqueues
  | .lost handled => inferInstanceAs (Decidable (handled = some true))
  | .refused _ _ => inferInstanceAs (Decidable False)
  | .served cl => inferInstanceAs (Decidable (cl = true))

def Retried : Answer → Prop
  | .lost _ => True
  | .refused status _ => status = .resourceUnavailable
  | .served _ => False

instance : DecidablePred Retried
  | .lost _ => inferInstanceAs (Decidable True)
  | .refused status _ => inferInstanceAs (Decidable (status = .resourceUnavailable))
  | .served _ => inferInstanceAs (Decidable False)

end Answer

def enqueues (answers : ℕ → Answer) : ℕ → ℕ
  | 0 => 0
  | n + 1 =>
    (if (answers 0).Enqueues then 1 else 0) +
      if (answers 0).Retried then enqueues (fun i => answers (i + 1)) n else 0

/-- No try is executed after one that was executed without the client knowing. -/
def Once (answers : ℕ → Answer) (n : ℕ) : Prop :=
  ∀ i j, i < j → j < n → (∀ k < j, (answers k).Retried) → (answers i).Enqueues →
    ¬ (answers j).Enqueues

theorem enqueues_eq_zero_iff (answers : ℕ → Answer) (n : ℕ) :
    enqueues answers n = 0 ↔
      ∀ j < n, (∀ k < j, (answers k).Retried) → ¬ (answers j).Enqueues := by
  induction n generalizing answers with
  | zero => simp [enqueues]
  | succ n ih =>
    have hfirst : (if (answers 0).Enqueues then 1 else 0) = 0 ↔ ¬ (answers 0).Enqueues := by
      split_ifs with h <;> simp [h]
    rw [enqueues, Nat.add_eq_zero_iff, Nat.forall_lt_succ_left', hfirst]
    refine and_congr ⟨fun h _ => h, fun h => h nofun⟩ ?_
    by_cases hretried : (answers 0).Retried
    · rw [if_pos hretried, ih]
      refine forall₂_congr fun j _ => imp_congr_left ?_
      rw [Nat.forall_lt_succ_left', and_iff_right hretried]
    · rw [if_neg hretried]
      exact iff_of_true rfl fun j _ hall => absurd (hall 0 j.succ_pos) hretried

theorem once_succ (answers : ℕ → Answer) (n : ℕ) :
    Once answers (n + 1) ↔ ((answers 0).Retried →
      ((answers 0).Enqueues → enqueues (fun i => answers (i + 1)) n = 0) ∧
        Once (fun i => answers (i + 1)) n) := by
  rw [enqueues_eq_zero_iff]
  constructor
  · intro h hretried
    refine ⟨fun hfirst j hj hall => ?_, fun i j hij hj hall => ?_⟩
    · exact h 0 (j + 1) j.succ_pos (by omega)
        (Nat.forall_lt_succ_left'.mpr ⟨hretried, hall⟩) hfirst
    · exact h (i + 1) (j + 1) (by omega) (by omega)
        (Nat.forall_lt_succ_left'.mpr ⟨hretried, hall⟩)
  · intro h i j hij hj hall hi
    obtain ⟨j, rfl⟩ : ∃ j', j = j' + 1 := ⟨j - 1, by omega⟩
    obtain ⟨hretried, hall⟩ := Nat.forall_lt_succ_left'.mp hall
    obtain ⟨hfirst, hlater⟩ := h hretried
    cases i with
    | zero => exact hfirst hi j (by omega) hall
    | succ i => exact hlater i j (by omega) (by omega) hall hi

theorem enqueues_le_one_iff (answers : ℕ → Answer) (n : ℕ) :
    enqueues answers n ≤ 1 ↔ Once answers n := by
  induction n generalizing answers with
  | zero => simp [enqueues, Once]
  | succ n ih =>
    rw [enqueues, once_succ, ← ih]
    split_ifs with hfirst hretried hretried
    · simp only [hfirst, hretried, true_implies]
      omega
    · simp [hretried]
    · simp [hfirst, hretried]
    · simp [hretried]

namespace Host

def Takes (h : Host) (argp : DispatchOp) : Prop :=
  argp.dimension ≤ 0x1003 ∧
    ∃ contents, h.backend.collectArgs argp.args = .ok (.success, contents)

variable {h : Host} {argp : DispatchOp}

theorem Takes.dispatch (ht : h.Takes argp) (cl : Bool) :
    ∃ r, h.dispatch argp cl = .ok r ∧ r.2.Takes argp ∧
      r.1 = (if cl then .success else .fail) ∧
      r.2.enqueued = h.enqueued + (if cl then 1 else 0) := by
  obtain ⟨hdim, contents, hargs⟩ := ht
  have hdisp : h.backend.dispatch argp cl =
      .ok (if cl then (.success, h.backend.runKernel argp contents) else (.fail, h.backend)) := by
    rw [Backend.dispatch, hargs, ok_bind, if_neg (not_not.mpr rfl), require, if_pos hdim]
    cases cl <;> rfl
  refine ⟨_, by rw [Host.dispatch, hdisp, ok_bind]; rfl, ?_⟩
  cases cl with
  | true =>
    exact ⟨⟨hdim, Backend.collectArgs_runKernel ⟨contents, hargs⟩ _ _⟩, rfl,
      List.countP_cons_of_pos rfl⟩
  | false => exact ⟨⟨hdim, contents, hargs⟩, rfl, rfl⟩

theorem enqueued_dispatch_of_not_takes (ht : ¬ h.Takes argp) (hdim : argp.dimension ≤ 0x1003)
    {cl : Bool} {r : StatusCode × Host} (hr : h.dispatch argp cl = .ok r) : r.2 = h := by
  obtain ⟨q, hq, hr⟩ := bind_eq_ok.mp hr
  cases hr
  rcases Backend.dispatch_ok hq with ⟨hne, heq⟩ | ⟨contents, hargs, -⟩
  · rw [record, if_neg hne, heq]
  · exact absurd ⟨hdim, contents, hargs⟩ ht

theorem enqueued_record (h : Host) (r : StatusCode × Backend) {e : Event} (he : e.isRan = false) :
    (h.record r e).enqueued = h.enqueued := by
  rw [enqueued, record]
  split_ifs
  · exact List.countP_cons_of_neg (by simp [he])
  · rfl

theorem stable_enqueued (n : ℕ) : Stable fun h => h.enqueued = n where
  surfacealloc hh hr := by
    obtain ⟨u, -, hr⟩ := bind_eq_ok.mp hr
    cases hr
    exact hh
  imageupload hh hr := by
    obtain ⟨u, -, hr⟩ := bind_eq_ok.mp hr
    cases hr
    exact (enqueued_record _ u rfl).trans hh
  imagedownload hh hr := by
    obtain ⟨u, -, hr⟩ := bind_eq_ok.mp hr
    cases hr
    exact hh
  surfacemap hh hr := by
    obtain ⟨u, -, hr⟩ := bind_eq_ok.mp hr
    cases hr
    exact hh
  surfaceunmap hh hr := by
    obtain ⟨u, -, hr⟩ := bind_eq_ok.mp hr
    cases hr
    exact (enqueued_record _ u rfl).trans hh

end Host

namespace Client

variable {c : Client} {argp : DispatchOp} {net : Net}

theorem enqueued_run_prepareArg {p p' : Client × List KernelArg} {bs : List (ℕ × ℕ)}
    (hr : run (prepareArg net) p bs = .ok p') : p'.1.host.enqueued = p.1.host.enqueued :=
  (frame_run_prepareArg hr).host _ (Host.stable_enqueued _) rfl

theorem submit_of_takes (net : Net) (ht : c.host.Takes argp) (n t : ℕ) :
    ∃ r, submit argp net c n t = .ok r ∧
      r.2.host.enqueued = c.host.enqueued + enqueues (fun i => net.dispatch (t + i)) n := by
  induction n generalizing c t with
  | zero => exact ⟨_, rfl, rfl⟩
  | succ n ih =>
    have hshift : (fun i => net.dispatch (t + (i + 1))) = fun i => net.dispatch (t + 1 + i) :=
      funext fun i => congrArg net.dispatch (by omega)
    rw [submit, enqueues, hshift, Nat.add_zero]
    rcases net.dispatch t with (_ | cl) | ⟨status, hstatus⟩ | cl
    · obtain ⟨r, hr, hcount⟩ := ih ht (t + 1)
      exact ⟨r, hr, by simp [hcount, Answer.Enqueues, Answer.Retried]⟩
    · obtain ⟨q, hq, htq, -, hcq⟩ := ht.dispatch cl
      obtain ⟨r, hr, hcount⟩ := ih (c := { c with host := q.2 }) htq (t + 1)
      refine ⟨r, ?_, ?_⟩
      · simp only [Answer.call, hq, ok_bind]
        exact hr
      · simp [hcount, hcq, Answer.Enqueues, Answer.Retried, Nat.add_assoc]
    · by_cases hunavail : status = .resourceUnavailable
      · subst hunavail
        obtain ⟨r, hr, hcount⟩ := ih ht (t + 1)
        exact ⟨r, hr, by simp [hcount, Answer.Enqueues, Answer.Retried]⟩
      · refine ⟨(status, c), ?_, ?_⟩
        · cases status <;> first | rfl | exact absurd rfl hunavail
        · simp [Answer.Enqueues, Answer.Retried, hunavail]
    · obtain ⟨q, hq, -, hstatus, hcq⟩ := ht.dispatch cl
      refine ⟨(q.1, { c with host := q.2 }), ?_, ?_⟩
      · simp only [Answer.call, hq, ok_bind]
        rw [hstatus]
        cases cl <;> rfl
      · cases cl <;> simp [hcq, Answer.Enqueues, Answer.Retried]

theorem submit_of_not_takes (ht : ¬ c.host.Takes argp) (hdim : argp.dimension ≤ 0x1003) {n t : ℕ}
    {r : StatusCode × Client} (hr : submit argp net c n t = .ok r) : r.2.host = c.host := by
  induction n generalizing c t with
  | zero =>
    cases hr
    rfl
  | succ n ih =>
    obtain ⟨q, hq, hr⟩ := bind_eq_ok.mp hr
    have heq : q.2 = c.host := Answer.call_invariant (P := fun h => h = c.host) hq rfl
      fun _ _ hp => Host.enqueued_dispatch_of_not_takes ht hdim hp
    dsimp only at hr
    rw [heq] at hr
    split at hr
    · exact ih ht hr
    · exact ih ht hr
    · cases hr
      rfl

theorem enqueued_dispatch_le {o : ℕ} {force : Bool} {r : StatusCode × Client}
    (hr : c.dispatch o force net = .ok r) :
    r.2.host.enqueued ≤ c.host.enqueued + enqueues net.dispatch retryMaxCount := by
  obtain ⟨op, -, ⟨-, -, rfl⟩ | ⟨-, p, q, hp, hq, rfl⟩⟩ := dispatch_ok hr
  · exact Nat.le_add_right _ _
  · have hprep : p.1.host.enqueued = c.host.enqueued := enqueued_run_prepareArg hp
    change q.2.host.enqueued ≤ _
    rw [← hprep]
    by_cases ht : p.1.host.Takes ⟨p.2, 1, op.kernel⟩
    · obtain ⟨q', hq', hcount⟩ := submit_of_takes net ht retryMaxCount 0
      obtain rfl : q = q' := Except.ok.inj (hq.symm.trans hq')
      simp only [Nat.zero_add] at hcount
      exact hcount.le
    · rw [submit_of_not_takes ht (show (1 : BitVec 32) ≤ 0x1003 by decide) hq]
      exact Nat.le_add_right _ _

def demoClient : Client :=
  (start false 1 true 48 [demoSurface]).prepare [0] fun _ _ _ => 7

def demoNetWith (answers : ℕ → Answer) : Net := { demoNet true with dispatch := answers }

theorem demoClient_takes (answers : ℕ → Answer) :
    ∃ p, run (prepareArg (demoNetWith answers)) (demoClient, []) [(0, 0)] = .ok p ∧
      p.1.host.enqueued = demoClient.host.enqueued ∧
      p.1.host.Takes ⟨p.2, 1, fun _ _ _ => 7⟩ := by
  -- the answers to the tries do not matter for the arguments
  have hrun : ∃ p, run (prepareArg (demoNet true)) (demoClient, []) [(0, 0)] = .ok p ∧
      (p.1.host.backend.collectArgs p.2).map Prod.fst = .ok .success := by decide +kernel
  obtain ⟨p, hp, hargs⟩ := hrun
  refine ⟨p, hp, enqueued_run_prepareArg hp, show (1 : BitVec 32) ≤ 0x1003 by decide, ?_⟩
  cases hc : p.1.host.backend.collectArgs p.2 with
  | error e => simp [hc, Except.map] at hargs
  | ok q =>
    obtain ⟨status, contents⟩ := q
    rw [hc] at hargs
    obtain rfl : status = .success := Except.ok.inj hargs
    exact ⟨contents, rfl⟩

theorem enqueued_dispatch_demo (answers : ℕ → Answer) :
    ∃ r, demoClient.dispatch 0 false (demoNetWith answers) = .ok r ∧
      r.2.host.enqueued = demoClient.host.enqueued + enqueues answers retryMaxCount := by
  obtain ⟨p, hp, hprep, ht⟩ := demoClient_takes answers
  obtain ⟨q, hq, hcount⟩ := submit_of_takes (demoNetWith answers) ht retryMaxCount 0
  let op : Operation := ⟨[0], fun _ _ _ => 7, p.2, decide (q.1 = .success), false⟩
  refine ⟨(q.1, { q.2 with operations := q.2.operations.set 0 op }), ?_, ?_⟩
  · change (do
      let p ← run (prepareArg (demoNetWith answers)) (demoClient, []) [(0, 0)]
      _) = _
    rw [hp, ok_bind, hq]
    rfl
  · simp only [Nat.zero_add, hprep] at hcount
    exact hcount

/-- One call of `dispatch` enqueues the kernel at most once, whatever the state of the client and
of the server, exactly when the answers to its tries leave no try to be executed after one that was
executed without a reply. -/
theorem enqueued_dispatch_le_one_iff (answers : ℕ → Answer) :
    (∀ (c : Client) (o : ℕ) (force : Bool) (net : Net) (r : StatusCode × Client),
      net.dispatch = answers → c.dispatch o force net = .ok r →
      r.2.host.enqueued ≤ c.host.enqueued + 1) ↔ Once answers retryMaxCount := by
  rw [← enqueues_le_one_iff]
  constructor
  · intro h
    obtain ⟨r, hr, hcount⟩ := enqueued_dispatch_demo answers
    have := h demoClient 0 false (demoNetWith answers) r rfl hr
    omega
  · rintro h c o force net r rfl hr
    have := enqueued_dispatch_le hr
    omega

/-- The reply to the first try is lost after the kernel was enqueued, and the second is served. -/
def lostReply : ℕ → Answer
  | 0 => .lost (some true)
  | _ => .served true

theorem enqueued_twice_of_lostReply :
    (do
      let r ← demoClient.dispatch 0 false (demoNetWith lostReply)
      return (r.1, r.2.host.enqueued)) = .ok (.success, 2) := by
  decide +kernel

end Client

end VMAccel
