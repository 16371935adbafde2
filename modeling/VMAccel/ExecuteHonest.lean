import VMAccel.ExecuteSpec

/-!
# What `execute` leaves behind

The condition on what becomes of its calls under which `execute` cleans up after itself and reports
what has happened. Its status tells no more than whether it had its memory.
-/

namespace VMAccel

open StepSystem EventLog

namespace Execute

open Logged

variable {net : ExecuteNet} {h : Host} {args : List ExecuteArg} {ex : Exchanges}

/-- What `execute` does after the dispatch, with `quiesced` for whether it quiesces its
arguments. -/
structure Ends (ex : Exchanges) (quiesced : Prop) (args : List ExecuteArg) (h : Host)
    (r : Outcome) : Prop where
  status : r.status = .success
  launches : r.host.launches = h.launches
  readBack : ReadBack args r.readBack ↔ ∀ k arg, args[k]? = some arg → arg.usage ≠ .readonly →
    (quiesced ∧ Reached ex 0 args k) ∧ (ex (.readmap k)).reply = some .success
  active : ∀ id, r.host.backend.surfaceIds.Active id ↔ h.backend.surfaceIds.Active id ∧
    ¬ ∃ k arg, args[k]? = some arg ∧ id = BitVec.ofNat 32 k ∧ (quiesced ∧ Reached ex 0 args k) ∧
      Gone ex k arg

theorem ends_unquiesced {quiesced : Prop} (hnot : ¬ quiesced) :
    Ends ex quiesced args h ⟨.success, h, args.map fun _ => none⟩ := by
  refine ⟨rfl, rfl, readBack_none.trans ?_, fun id => (and_iff_left ?_).symm⟩
  · refine forall₃_congr fun k a _ => ?_
    rw [← not_ne_iff]
    exact forall_congr' fun _ => iff_of_false id fun hr => hnot hr.1.1
  · rintro ⟨k, a, -, -, hr, -⟩
    exact hnot hr.1

theorem under_finish (net : ExecuteNet) (h : Host) {kernelArgs : List KernelArg}
    (hn : args.length < 2 ^ 32)
    (hsids : kernelArgs.map KernelArg.sid = (List.range' 0 args.length).map (BitVec.ofNat 32)) :
    (finish net h args kernelArgs).Under ex (Ends ex ((ex .queueflush).reply ≠ none) args h) := by
  have hlen : kernelArgs.length = args.length := by
    have := congrArg List.length hsids
    simpa using this
  have hargs : (args.zip kernelArgs).map Prod.fst = args := List.map_fst_zip hlen.ge
  have hkernel : (args.zip kernelArgs).map Prod.snd = kernelArgs := List.map_snd_zip hlen.le
  have hzip : (args.zip kernelArgs).length = args.length := by
    rw [← List.length_map Prod.fst, hargs]
  refine (under_call (Q := fun f => (ex .queueflush).reply = f.1 ∧ f.2 = h)
    fun f hf hreply _ => ⟨hreply.trans Option.map_id', ?_⟩).bind ?_
  · exact Answer.call_invariant (P := fun h' => h' = h) hf rfl fun cl q hq => by
      cases hq
      rfl
  rintro ⟨reply, h'⟩ ⟨hreply, rfl⟩
  cases reply with
  | none => exact under_pure (ends_unquiesced fun hne => hne hreply)
  | some status =>
    have hflushed : (ex .queueflush).reply ≠ none :=
      ne_of_eq_of_ne hreply (Option.some_ne_none _)
    refine (under_quiesceComputeArgs net h' 0 (by omega) ?_).bind ?_
    · rw [hzip, ← hsids, ← hkernel, List.map_map, hkernel]
      rfl
    rintro ⟨os, h''⟩ hq
    rw [hargs] at hq
    refine under_pure ⟨rfl, hq.launches, hq.readBack.trans ?_, fun id => (hq.active id).trans ?_⟩
    · simp only [and_iff_right hflushed, Nat.zero_add]
    · simp only [and_iff_right hflushed, Nat.zero_add]

/-- `execute` has cleaned up and tells the truth: each surface that it allocated has been destroyed,
and if it reports success, the kernel has been launched and its results were read back. -/
structure Honest (h : Host) (args : List ExecuteArg) (r : Outcome) : Prop where
  destroyed : ∀ id, r.host.backend.surfaceIds.Active id → h.backend.surfaceIds.Active id
  enqueued : r.status = .success → h.launches < r.host.launches
  readBack : r.status = .success → ReadBack args r.readBack

/-- The dispatch and the flush are answered, and so are the calls with which the arguments in front
of `k` are quiesced. -/
def Quiescing (ex : Exchanges) (args : List ExecuteArg) (k : ℕ) : Prop :=
  ((ex .dispatch).reply ≠ none ∧ (ex .queueflush).reply ≠ none) ∧ Reached ex 0 args k

/-- The calls with which `execute` keeps its word. Each allocation of a surface is answered, with
whatever status, each map with success, and each unmap. The server launches the kernel, whether its
reply gets through or not. An argument that the kernel may write has its turn in
`quiesceComputeArgs` and is mapped for reading; one for which the server made a surface has its
turn, and the server handles the request to destroy the surface. -/
structure Kept (ex : Exchanges) (args : List ExecuteArg) : Prop where
  prepared : ∀ k < args.length, Prepared ex k
  launched : (ex .dispatch).effect = some .success
  copied : ∀ k arg, args[k]? = some arg → arg.usage ≠ .readonly →
    Quiescing ex args k ∧ (ex (.readmap k)).reply = some .success
  gone : ∀ k arg, args[k]? = some arg → Made ex k → Quiescing ex args k ∧ Gone ex k arg

theorem eq_of_ofNat_eq {j k : ℕ} (hj : j < 2 ^ 32) (hk : k < 2 ^ 32)
    (heq : BitVec.ofNat 32 j = BitVec.ofNat 32 k) : j = k := by
  have hnat := congrArg BitVec.toNat heq
  rwa [BitVec.toNat_ofNat, BitVec.toNat_ofNat, Nat.mod_eq_of_lt hj, Nat.mod_eq_of_lt hk] at hnat

theorem honest_iff_kept {h' h'' : Host} {kernelArgs : List KernelArg} {r : Outcome}
    (hn : args.length < 2 ^ 32) (hp : Prepares ex 0 args.length h (some kernelArgs, h'))
    (hids : h''.backend.surfaceIds = h'.backend.surfaceIds)
    (hlaunches : h''.launches =
      h'.launches + if (ex .dispatch).effect = some .success then 1 else 0)
    (he : Ends ex ((ex .dispatch).reply ≠ none ∧ (ex .queueflush).reply ≠ none) args h'' r) :
    Honest h args r ↔ Kept ex args := by
  have hprepared := hp.prepared.mp (Option.some_ne_none _)
  have hactive' := hp.active (Option.some_ne_none _)
  have hfresh := hp.fresh (Option.some_ne_none _)
  simp only [Nat.zero_add] at hprepared hactive' hfresh
  have hactive : ∀ id, r.host.backend.surfaceIds.Active id ↔ (h.backend.surfaceIds.Active id ∨
      ∃ k < args.length, id = BitVec.ofNat 32 k ∧ Made ex k) ∧ ¬ ∃ k arg, args[k]? = some arg ∧
        id = BitVec.ofNat 32 k ∧ Quiescing ex args k ∧ Gone ex k arg := fun id => by
    rw [he.active id, hids, hactive' id]
    rfl
  have hcount : h.launches < r.host.launches ↔ (ex .dispatch).effect = some .success := by
    rw [he.launches, hlaunches, hp.launches]
    split_ifs with hl
    · exact iff_of_true (Nat.lt_succ_self _) hl
    · exact iff_of_false (Nat.lt_irrefl _) hl
  constructor
  · intro hon
    refine ⟨hprepared, hcount.mp (hon.enqueued he.status), he.readBack.mp (hon.readBack he.status),
      fun k arg hk hmade => ?_⟩
    have hlt : k < args.length := (List.getElem?_eq_some_iff.mp hk).1
    by_contra hnot
    -- the surface was made and is still there
    refine hfresh k hlt hmade (hon.destroyed _ ((hactive _).mpr ⟨Or.inr ⟨k, hlt, rfl, hmade⟩, ?_⟩))
    rintro ⟨j, arg', hj, heq, hgone⟩
    have hjlt : j < args.length := (List.getElem?_eq_some_iff.mp hj).1
    obtain rfl := eq_of_ofNat_eq (by omega) (by omega) heq
    cases hk.symm.trans hj
    exact hnot hgone
  · intro hkept
    refine ⟨fun id hid => ?_, fun _ => hcount.mpr hkept.launched,
      fun _ => he.readBack.mpr hkept.copied⟩
    obtain ⟨hid | ⟨k, hlt, rfl, hmade⟩, hnot⟩ := (hactive id).mp hid
    · exact hid
    · have hk : args[k]? = some (args[k]) := List.getElem?_eq_getElem hlt
      exact absurd ⟨k, _, hk, rfl, hkept.gone k _ hk hmade⟩ hnot

theorem launched_call {answer : Answer} {argp : DispatchOp} {kid : Bool}
    {r : Option StatusCode × Host}
    (hr : answer.call h (fun h cl => if kid then h.dispatch argp cl else .error .outOfBounds) id =
      .ok r) :
    r.2.backend.surfaceIds = h.backend.surfaceIds ∧ r.2.launches = h.launches +
      if answer.effect h (fun h cl => if kid then h.dispatch argp cl else .error .outOfBounds) id =
        some .success then 1 else 0 := by
  rcases Answer.call_effect id hr with ⟨heq, hnone⟩ | ⟨cl, q, hq, heq, hsome⟩
  · rw [heq, hnone]
    exact ⟨rfl, rfl⟩
  · rw [heq, hsome]
    cases kid with
    | false => cases hq
    | true =>
      have hlaunched := Host.dispatch_launches hq
      simpa using hlaunched

theorem under_execute (hn : args.length < 2 ^ 32) (hmalloc : net.malloc = true) :
    (execute net h args).Under ex fun r => r.status = .success ∧
      (Honest h args r ↔ Kept ex args) := by
  refine under_lift_bind fun _ _ => ?_
  rw [hmalloc, if_pos rfl]
  refine (under_prepareComputeArgs net h 0 args).bind ?_
  rintro ⟨o, h'⟩ hp
  cases o with
  | none =>
    refine under_pure ⟨rfl, iff_of_false (fun hon => ?_) fun hkept => ?_⟩
    · exact absurd (hon.enqueued rfl) hp.launches.not_gt
    · refine hp.prepared.mpr (fun k hk => ?_) rfl
      rw [Nat.zero_add]
      exact hkept.prepared k hk
  | some kernelArgs =>
    refine (show (prepareKernel net).Under ex fun _ => True from fun _ _ _ _ => trivial).bind
      fun kid _ => ?_
    refine (under_call (Q := fun d => (ex .dispatch).reply = d.1 ∧
      d.2.backend.surfaceIds = h'.backend.surfaceIds ∧ d.2.launches = h'.launches +
        if (ex .dispatch).effect = some .success then 1 else 0)
      fun d hd hreply heffect => ⟨hreply.trans Option.map_id', ?_⟩).bind ?_
    · rw [heffect]
      exact launched_call hd
    rintro ⟨reply, h''⟩ ⟨hreply, hids, hlaunches⟩
    cases reply with
    | none =>
      refine under_pure ⟨rfl, honest_iff_kept hn hp hids hlaunches (ends_unquiesced ?_)⟩
      exact fun hq => hq.1 hreply
    | some status =>
      have hreplied : (ex .dispatch).reply ≠ none :=
        ne_of_eq_of_ne hreply (Option.some_ne_none _)
      have hfinish : (finish net h'' args kernelArgs).Under ex
          (Ends ex ((ex .queueflush).reply ≠ none) args h'') :=
        under_finish net h'' hn (hp.sids _ rfl)
      rw [← and_iff_right (a := (ex .dispatch).reply ≠ none)
        (b := (ex .queueflush).reply ≠ none) hreplied] at hfinish
      intro log r hr hrec
      have he := hfinish log r hr hrec
      exact ⟨he.status, honest_iff_kept hn hp hids hlaunches he⟩

theorem ensures_execute_refused (hmalloc : net.malloc = false) :
    (execute net h args).Ensures fun _ r => r = ⟨.fail, h, args.map fun _ => none⟩ := by
  refine (ensures_lift (Q := fun _ _ => True) fun _ _ => trivial).bind fun _ _ _ => ?_
  rw [hmalloc, if_neg Bool.false_ne_true]
  exact ensures_pure rfl

/-- Whenever `execute` returns, it has made no call twice, and it reports success if it has its
memory, whatever became of its calls. It cleans up and tells the truth exactly if its memory was
refused, which it reports, or the calls are those with which it keeps its word. -/
theorem execute_honest_iff (net : ExecuteNet) (h : Host) (args : List ExecuteArg)
    (hn : args.length < 2 ^ 32) {log : List (ServerCall × ServerExchange)} {r : Outcome}
    (hr : execute net h args = ⟨log, .ok r⟩) :
    (r.status = .success ↔ net.malloc = true) ∧ (∃ ex, Records ex log) ∧
      ∀ ex, Records ex log → (Honest h args r ↔ net.malloc = false ∨ Kept ex args) := by
  cases hmalloc : net.malloc with
  | true =>
    obtain ⟨ex, hex⟩ := exists_records_execute hr
    refine ⟨iff_of_true (under_execute hn hmalloc log r hr hex).1 rfl, ⟨ex, hex⟩,
      fun ex hex => ?_⟩
    rw [or_iff_right (by simp)]
    exact (under_execute hn hmalloc log r hr hex).2
  | false =>
    obtain rfl := ensures_execute_refused hmalloc log r hr
    have hfail : StatusCode.fail ≠ .success := by decide
    refine ⟨iff_of_false hfail Bool.false_ne_true, exists_records_execute hr, fun _ _ => ?_⟩
    refine iff_of_true ⟨fun _ hid => hid, ?_, ?_⟩ (Or.inl rfl)
    · exact fun hs => absurd hs hfail
    · exact fun hs => absurd hs hfail

def demoExecuteNet (n : ℕ) : ExecuteNet where
  context := true
  malloc := true
  contextId := 0
  svmCapable := false
  surfacealloc i := if i < n then .served true else .lost none
  fresh _ _ := 0
  surfacemap _ := .served true
  prints := true
  surfaceunmap _ := .served true
  kernelalloc _ := ⟨some .success, some .success⟩
  argSet _ := true
  dispatch := .served true
  kernel _ _ _ := 7
  queueflush := .served true
  readmap _ := .served true
  readunmap _ := .served true
  surfacedestroy _ := .served true

def demoArgs : List ExecuteArg := [⟨[1, 2], .readonly⟩, ⟨[0, 0], .readwrite⟩]

theorem two_arguments_honest :
    ∃ log r, execute (demoExecuteNet 2) .powerOn demoArgs = ⟨log, .ok r⟩ ∧
      r.status = .success ∧ r.readBack = [none, some [7, 7]] ∧ Honest .powerOn demoArgs r := by
  have hrun : ∃ log r, execute (demoExecuteNet 2) .powerOn demoArgs = ⟨log, .ok r⟩ ∧
      r.status = .success ∧ r.readBack = [none, some [7, 7]] ∧
      ∀ e ∈ log, ServerExchange.mk (some .success) (some .success) = e.2 := by
    decide +kernel
  obtain ⟨log, r, hr, hstatus, hread, hall⟩ := hrun
  have hkept : Kept (fun _ => ⟨some .success, some .success⟩) demoArgs := by
    refine ⟨?_, rfl, ?_, ?_⟩
    all_goals simp [Prepared, Quiescing, Reached, Settled, Gone, Unmapped]
  obtain ⟨-, -, hiff⟩ := execute_honest_iff _ _ _ (by decide) hr
  have hhonest := (hiff (fun _ => ⟨some .success, some .success⟩) hall).mpr (Or.inr hkept)
  exact ⟨log, r, hr, hstatus, hread, hhonest⟩

/-- The second surface is not allocated. `execute` reports success, although the kernel has not run,
nothing was read back, and the first surface is left behind. -/
theorem success_without_dispatch :
    ∃ log r, execute (demoExecuteNet 1) .powerOn demoArgs = ⟨log, .ok r⟩ ∧
      r.status = .success ∧ r.readBack = [none, none] ∧ r.host.launches = 0 ∧
      r.host.backend.surfaceIds.Active 0 ∧ ¬ Host.powerOn.backend.surfaceIds.Active 0 := by
  decide +kernel

end Execute

end VMAccel
