import VMAccel.ClientFrame

/-!
# Results at home after `quiesce`

The calls `dispatch`, `quiesce` and `finish` on one operation, with a record of the arguments that
were downloaded since the latest dispatch that returned success. `quiesce` downloads once and then
answers success at once, also after a forced dispatch has started the kernel again.
-/

namespace VMAccel

open StepSystem

/-- A client with what concerns one of its operations: the arguments that were downloaded since the
latest dispatch that returned success, and what `quiesce` returned if the latest call made it. -/
structure Session where
  client : Client
  downloads : List ℕ
  quiesceStatus : Option StatusCode

namespace Session

/-- `quiesceComputeSurfaceArgs` with the record of the downloads. -/
def quiesceArg (net : Net) (p : Client × List ℕ) (b : (ℕ × KernelArg) × ℕ) :
    Except Fault (Client × List ℕ) := do
  let ((k, arg), i) := b
  if arg.sid = invalidId then return p
  let r ← p.1.downloadSurface k false false net i
  return (r.2, i :: p.2)

/-- `operation::quiesce`. -/
def quiesce (s : Session) (o : ℕ) (net : Net) : Except Fault Session := do
  let op ← readAt s.client.operations o
  if op.quiesced then return { s with quiesceStatus := some .success }
  if ¬ op.dispatched then return { s with quiesceStatus := some .fail }
  let p ← run (quiesceArg net) (s.client, s.downloads) (op.bindings.zip op.kernelArgs).zipIdx
  let operations := p.1.operations.set o { op with quiesced := true }
  return ⟨{ p.1 with operations }, p.2, some .success⟩

/-- `operation::dispatch`. -/
def dispatch (s : Session) (o : ℕ) (force : Bool) (net : Net) : Except Fault Session := do
  let r ← s.client.dispatch o force net
  return ⟨r.2, if r.1 = .success then [] else s.downloads, none⟩

/-- `operation::finish`. -/
def finish (s : Session) (o : ℕ) (dispatchNet quiesceNet : Net) : Except Fault Session := do
  let op ← readAt s.client.operations o
  let s ← (if op.dispatched then .ok { s with quiesceStatus := none }
    else s.dispatch o false dispatchNet : Except Fault Session)
  let op ← readAt s.client.operations o
  if op.dispatched ∧ ¬ op.quiesced then s.quiesce o quiesceNet else return s

inductive Call
  | dispatch (force : Bool) (net : Net)
  | quiesce (net : Net)
  | finish (dispatchNet quiesceNet : Net)

def step (o : ℕ) (s : Session) : Call → Except Fault Session
  | .dispatch force net => s.dispatch o force net
  | .quiesce net => s.quiesce o net
  | .finish dispatchNet quiesceNet => s.finish o dispatchNet quiesceNet

theorem run_quiesceArg (net : Net) (c : Client) (downloads : List ℕ)
    (bs : List ((ℕ × KernelArg) × ℕ)) :
    (run (quiesceArg net) (c, downloads) bs).map Prod.fst = run (Client.quiesceArg net) c bs := by
  induction bs generalizing c downloads with
  | nil => rfl
  | cons b bs ih =>
    obtain ⟨⟨k, arg⟩, i⟩ := b
    rw [run, run, quiesceArg, Client.quiesceArg]
    dsimp only
    split_ifs with harg
    · exact ih c downloads
    · cases c.downloadSurface k false false net i with
      | error e => rfl
      | ok r => exact ih r.2 (i :: downloads)

theorem quiesce_client (s : Session) (o : ℕ) (net : Net) :
    (s.quiesce o net).map (fun t => (t.quiesceStatus, t.client)) =
      (s.client.quiesce o net).map fun r => (some r.1, r.2) := by
  rw [quiesce, Client.quiesce]
  cases readAt s.client.operations o with
  | error e => rfl
  | ok op =>
    rw [ok_bind, ok_bind]
    split_ifs
    · rfl
    · rw [← run_quiesceArg net s.client s.downloads]
      cases run (quiesceArg net) (s.client, s.downloads) (op.bindings.zip op.kernelArgs).zipIdx with
      | error e => rfl
      | ok p => rfl
    · rfl

/-- The surfaces that the kernel may have written are downloaded since the latest dispatch that
returned success. -/
def Home (o : ℕ) (s : Session) : Prop :=
  ∀ op ∈ s.client.operations[o]?, ∀ b ∈ (op.bindings.zip op.kernelArgs).zipIdx,
    ∀ surf ∈ s.client.surfaces[b.1.1]?, surf.desc.usage ≠ .readonly → b.1.2.sid ≠ invalidId →
      b.2 ∈ s.downloads

instance (o : ℕ) (s : Session) : Decidable (s.Home o) :=
  inferInstanceAs (Decidable (∀ _ ∈ (_ : Option _), _))

def Downloaded (op : Operation) (downloads : List ℕ) : Prop :=
  ∀ b ∈ (op.bindings.zip op.kernelArgs).zipIdx, b.1.2.sid ≠ invalidId → b.2 ∈ downloads

/-- What holds of an operation between two calls, as long as it is not started again once it is
quiesced. -/
structure Settled (o : ℕ) (s : Session) : Prop where
  dispatched : ∀ op, s.client.operations[o]? = some op → op.quiesced = true → op.dispatched = true
  downloaded : ∀ op, s.client.operations[o]? = some op → op.quiesced = true →
    Downloaded op s.downloads
  status : s.quiesceStatus = some .success →
    ∃ op, s.client.operations[o]? = some op ∧ op.quiesced = true

/-- A forced dispatch finds the operation not quiesced. -/
def Allowed (o : ℕ) (s : Session) : Call → Prop
  | .dispatch force _ => force = true → ∀ op ∈ s.client.operations[o]?, op.quiesced = false
  | _ => True

instance (o : ℕ) (s : Session) : (a : Call) → Decidable (s.Allowed o a)
  | .dispatch _ _ => inferInstanceAs (Decidable (_ → _))
  | .quiesce _ => inferInstanceAs (Decidable True)
  | .finish _ _ => inferInstanceAs (Decidable True)

variable {s t : Session} {o : ℕ} {net : Net}

theorem Settled.home (hs : Settled o s) (h : s.quiesceStatus = some .success) : s.Home o := by
  intro op hop b hb _ _ _ hsid
  obtain ⟨op', hop', hq⟩ := hs.status h
  obtain rfl : op = op' := Option.some.inj (hop.symm.trans hop')
  exact hs.downloaded op hop hq b hb hsid

theorem mem_downloads {p p' : Client × List ℕ} {bs : List ((ℕ × KernelArg) × ℕ)}
    (hr : run (quiesceArg net) p bs = .ok p') :
    p.1.Frame p'.1 ∧ (∀ i ∈ p.2, i ∈ p'.2) ∧
      ∀ b ∈ bs, b.1.2.sid ≠ invalidId → b.2 ∈ p'.2 := by
  induction bs generalizing p with
  | nil =>
    cases hr
    exact ⟨.refl _, fun _ h => h, fun _ h => absurd h List.not_mem_nil⟩
  | cons b bs ih =>
    obtain ⟨q, hq, hr⟩ := run_cons_ok.mp hr
    obtain ⟨hframe, hkeep, hall⟩ := ih hr
    obtain ⟨⟨k, arg⟩, i⟩ := b
    rw [quiesceArg] at hq
    split_ifs at hq with harg
    · cases hq
      exact ⟨hframe, hkeep, List.forall_mem_cons.mpr ⟨fun h => absurd harg h, hall⟩⟩
    · obtain ⟨r, hdown, hq⟩ := bind_eq_ok.mp hq
      cases hq
      refine ⟨(Client.frame_downloadSurface hdown).trans hframe,
        fun j hj => hkeep j (List.mem_cons_of_mem i hj),
        List.forall_mem_cons.mpr ⟨fun _ => hkeep i List.mem_cons_self, hall⟩⟩

theorem getElem?_set_ops {ops : List Operation} {op op' op'' : Operation}
    (hop : ops[o]? = some op) (h : (ops.set o op')[o]? = some op'') : op'' = op' := by
  rw [List.getElem?_set_self (List.getElem?_eq_some_iff.mp hop).1] at h
  exact (Option.some.inj h).symm

theorem settled_of_not_quiesced {c : Client} {downloads : List ℕ} {status : Option StatusCode}
    (hstatus : status ≠ some .success)
    (h : ∀ op, c.operations[o]? = some op → op.quiesced = false) :
    Settled o ⟨c, downloads, status⟩ where
  dispatched op hop hq := absurd ((h op hop).symm.trans hq) Bool.false_ne_true
  downloaded op hop hq := absurd ((h op hop).symm.trans hq) Bool.false_ne_true
  status hs := absurd hs hstatus

theorem Settled.dispatch {force : Bool} (hs : Settled o s) (ha : s.Allowed o (.dispatch force net))
    (hr : s.dispatch o force net = .ok t) : Settled o t := by
  obtain ⟨r, hdisp, hr⟩ := bind_eq_ok.mp hr
  cases hr
  obtain ⟨op, hop, ⟨-, -, rfl⟩ | ⟨hforce, p, q, -, -, rfl⟩⟩ := Client.dispatch_ok hdisp
  · exact ⟨hs.dispatched, hs.downloaded, nofun⟩
  · refine settled_of_not_quiesced nofun fun op' hop' => ?_
    obtain rfl := getElem?_set_ops hop hop'
    -- an operation that is quiesced is dispatched, so this call would have been forced
    cases hq : op.quiesced with
    | false => rfl
    | true => exact absurd (ha (hforce (hs.dispatched op hop hq)) op hop) (by simp [hq])

theorem Settled.quiesce (hs : Settled o s) (hr : s.quiesce o net = .ok t) : Settled o t := by
  obtain ⟨op, hop, hr⟩ := bind_eq_ok.mp hr
  rw [readAt_ok] at hop
  split_ifs at hr with hq hd
  · cases hr
    exact ⟨hs.dispatched, hs.downloaded, fun _ => ⟨op, hop, hq⟩⟩
  · obtain ⟨p, hp, hr⟩ := bind_eq_ok.mp hr
    cases hr
    obtain ⟨hframe, -, hall⟩ := mem_downloads hp
    have hop' : p.1.operations[o]? = some op := by rw [hframe.operations, hop]
    refine ⟨fun op' h _ => ?_, fun op' h _ => ?_, fun _ => ⟨{ op with quiesced := true }, ?_, rfl⟩⟩
    · obtain rfl := getElem?_set_ops hop' h
      exact hd
    · obtain rfl := getElem?_set_ops hop' h
      exact hall
    · exact List.getElem?_set_self (List.getElem?_eq_some_iff.mp hop').1
  · cases hr
    exact ⟨hs.dispatched, hs.downloaded, nofun⟩

theorem Settled.finish {dispatchNet quiesceNet : Net} (hs : Settled o s)
    (hr : s.finish o dispatchNet quiesceNet = .ok t) : Settled o t := by
  obtain ⟨op, hop, hr⟩ := bind_eq_ok.mp hr
  obtain ⟨s₁, hs₁, hr⟩ := bind_eq_ok.mp hr
  have hs₁ : Settled o s₁ := by
    split_ifs at hs₁
    · cases hs₁
      exact ⟨hs.dispatched, hs.downloaded, nofun⟩
    · exact hs.dispatch (fun h => absurd h Bool.false_ne_true) hs₁
  obtain ⟨op₁, -, hr⟩ := bind_eq_ok.mp hr
  split_ifs at hr
  · exact hs₁.quiesce hr
  · cases hr
    exact hs₁

theorem Settled.step {a : Call} (hs : Settled o s) (ha : s.Allowed o a)
    (hr : s.step o a = .ok t) : Settled o t := by
  cases a with
  | dispatch force net => exact hs.dispatch ha hr
  | quiesce net => exact hs.quiesce hr
  | finish dispatchNet quiesceNet => exact hs.finish hr

/-- After any calls on a prepared operation, of which none starts it again by force once it is
quiesced, a `quiesce` that returned success has left the results at home. -/
theorem home_of_quiesce {c : Client} {op : Operation} (hop : c.operations[o]? = some op)
    (hnew : op.quiesced = false) {calls : List Call}
    (hallowed : EachInput (step o) (Allowed o) ⟨c, [], none⟩ calls)
    (hrun : run (step o) ⟨c, [], none⟩ calls = .ok t) (hq : t.quiesceStatus = some .success) :
    t.Home o := by
  have hstart : Settled o ⟨c, [], none⟩ := settled_of_not_quiesced nofun fun op' hop' => by
    obtain rfl : op = op' := Option.some.inj (hop.symm.trans hop')
    exact hnew
  exact (run_invariant (fun _ _ _ h ha hr => h.step ha hr) hstart hallowed hrun).home hq

def demo : Session :=
  ⟨(Client.start false 1 true 48 [Client.demoSurface]).prepare [0] fun _ _ _ => 7, [], none⟩

/-- The second `quiesce` returns success, and the result of the second run of the kernel stays on
the server. -/
theorem not_home_of_forced_dispatch :
    ∃ t, run (step 0) demo [.dispatch false (Client.demoNet true), .quiesce (Client.demoNet true),
        .dispatch true (Client.demoNet true), .quiesce (Client.demoNet true)] = .ok t ∧
      t.quiesceStatus = some .success ∧ ¬ t.Home 0 := by
  decide +kernel

theorem home_of_quiesce_demo :
    ∃ t, run (step 0) demo [.dispatch false (Client.demoNet true),
        .dispatch true (Client.demoNet true), .quiesce (Client.demoNet true),
        .finish (Client.demoNet true) (Client.demoNet true), .quiesce (Client.demoNet true)] =
      .ok t ∧ t.quiesceStatus = some .success ∧ t.Home 0 := by
  obtain ⟨t, ht, hq⟩ : ∃ t, run (step 0) demo [.dispatch false (Client.demoNet true),
      .dispatch true (Client.demoNet true), .quiesce (Client.demoNet true),
      .finish (Client.demoNet true) (Client.demoNet true), .quiesce (Client.demoNet true)] =
    .ok t ∧ t.quiesceStatus = some .success := by decide +kernel
  exact ⟨t, ht, hq, home_of_quiesce rfl rfl (by decide +kernel) ht hq⟩

end Session

end VMAccel
