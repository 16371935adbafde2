import VMAccel.ClientOffload

/-!
# Deferred operations

`compute::dispatch` prepares an operation and puts it into an operation object. The kernel runs
when the object takes its next operation, or when it is released: the operation that it has held is
then dispatched, quiesced and finished. `Deferred` says what that is for: every kernel runs on the
memory of the application at the end of its time in the object. Between calls no results are
pending, so that a client that uses operation objects only is orderly whatever it calls.
-/

namespace VMAccel

open StepSystem

/-- `operation::finish`, which is also what the destructor does. -/
def Client.finish (c : Client) (o : ℕ) (dispatchNet quiesceNet : Net) : Except Fault Client := do
  let op ← readAt c.operations o
  let r ← (if op.dispatched then .ok (.success, c) else c.dispatch o false dispatchNet :
    Except Fault (StatusCode × Client))
  let op ← readAt r.2.operations o
  if op.dispatched ∧ ¬ op.quiesced then do
    let q ← r.2.quiesce o quiesceNet
    return q.2
  else return r.2

structure Turnover where
  dispatch : Net
  quiesce : Net
  finishDispatch : Net
  finishQuiesce : Net

/-- What `compute::dispatch` does with the operation that the object has held: it is started and
quiesced, and destroyed when the new one takes its place. -/
def Client.runHeld (c : Client) (nets : Turnover) : Option ℕ → Except Fault Client
  | some o => do
    let r ← c.dispatch o false nets.dispatch
    let q ← r.2.quiesce o nets.quiesce
    q.2.finish o nets.finishDispatch nets.finishQuiesce
  | none => .ok c

/-- An application, with the index of the operation that each operation object holds. -/
structure Application where
  client : Client
  objects : ℕ → Option ℕ

namespace Application

/-- The arguments of `compute::dispatch` but for the context and the object, and uploads. -/
inductive Call
  | upload (k : ℕ) (imgRegion : VMAccelSurfaceRegion) (elemSize : ℕ) (input : List Byte)
  | dispatch (i : ℕ) (bindings : List ℕ) (kernel : List (List Byte) → ℕ → ℕ → Byte)
    (nets : Turnover)
  | release (i : ℕ) (nets : Turnover)

/-- `compute::dispatch` with the object `i`. -/
def dispatch (s : Application) (i : ℕ) (bindings : List ℕ)
    (kernel : List (List Byte) → ℕ → ℕ → Byte) (nets : Turnover) : Except Fault Application := do
  let c ← (s.client.prepare bindings kernel).runHeld nets (s.objects i)
  return ⟨c, Function.update s.objects i (some s.client.operations.length)⟩

def release (s : Application) (i : ℕ) (nets : Turnover) : Except Fault Application :=
  match s.objects i with
  | some o => do
    let c ← s.client.finish o nets.finishDispatch nets.finishQuiesce
    return ⟨c, Function.update s.objects i none⟩
  | none => .ok s

def step (s : Application) : Call → Except Fault Application
  | .upload k imgRegion elemSize input => do
    let r ← s.client.upload k imgRegion elemSize input
    return { s with client := r.2 }
  | .dispatch i bindings kernel nets => s.dispatch i bindings kernel nets
  | .release i nets => s.release i nets

def start (isLocal : Bool) (contextId : VMAccelId) (svmCapable : Bool) (maxRefObjects : BitVec 32)
    (surfaces : List Surface) : Application where
  client := .start isLocal contextId svmCapable maxRefObjects surfaces
  objects _ := none

end Application

structure Deferred where
  descs : List VMAccelSurfaceDesc
  memory : Contents
  waiting : ℕ → Option (List ℕ × (List (List Byte) → ℕ → ℕ → Byte))

namespace Deferred

def start (surfaces : List Surface) : Deferred where
  descs := surfaces.map Surface.desc
  memory := surfaces.map Surface.backing
  waiting _ := none

def turn (t : Deferred) (i : ℕ) (next : Option (List ℕ × (List (List Byte) → ℕ → ℕ → Byte))) :
    Deferred where
  descs := t.descs
  memory := match t.waiting i with
    | some (bindings, kernel) => t.memory.runKernel bindings kernel
    | none => t.memory
  waiting := Function.update t.waiting i next

def step (t : Deferred) : Application.Call → Deferred
  | .upload k imgRegion elemSize input =>
    { t with memory := t.memory.upload t.descs k imgRegion elemSize input }
  | .dispatch i bindings kernel _ => t.turn i (some (bindings, kernel))
  | .release i _ => t.turn i none

end Deferred

namespace Client

variable {c : Client} {d : Direct} {o : ℕ} {net : Net}

/-- A `quiesce` marks an operation that has been dispatched, and touches no other operation. -/
theorem quiesce_operations {op : Operation} (hop : c.operations[o]? = some op)
    (hdispatched : op.dispatched = true) {r : StatusCode × Client}
    (hr : c.quiesce o net = .ok r) :
    r.2.operations = c.operations.set o { op with quiesced := true } := by
  obtain ⟨op', hop', hr⟩ := bind_eq_ok.mp hr
  obtain rfl := Option.some.inj (hop.symm.trans (readAt_ok.mp hop'))
  split_ifs at hr with hquiesced
  · cases hr
    refine (set_getElem?_self ?_).symm
    rw [hop, ← hquiesced]
  · obtain ⟨c', hc', hr⟩ := bind_eq_ok.mp hr
    cases hr
    have hframe : Frame c c' := run_invariant (I := fun c' => Frame c c') (C := fun _ _ => True)
      (fun c₁ b c₂ h _ hb => by
        obtain ⟨⟨k, arg⟩, i⟩ := b
        rw [quiesceArg] at hb
        split_ifs at hb
        · cases hb
          exact h
        · obtain ⟨q, hq, hb⟩ := bind_eq_ok.mp hb
          cases hb
          exact h.trans (frame_downloadSurface hq)) (.refl c) (eachInput_true _ _) hc'
    rw [hframe.operations]

theorem finish_of_quiesced {op : Operation} (hop : c.operations[o]? = some op)
    (hdispatched : op.dispatched = true) (hquiesced : op.quiesced = true)
    (dispatchNet quiesceNet : Net) : c.finish o dispatchNet quiesceNet = .ok c := by
  rw [finish, readAt_ok.mpr hop, ok_bind, if_pos hdispatched, ok_bind, readAt_ok.mpr hop, ok_bind,
    if_neg fun h => h.2 hquiesced]
  rfl

structure Completes (c : Client) (d : Direct) (o : ℕ) (op : Operation) (c' : Client) : Prop where
  offloads : ∃ d', c'.Offloads d' ∧ d'.descs = d.descs ∧
    d'.memory = d.memory.runKernel op.bindings op.kernel
  operations : ∃ op', c'.operations = c.operations.set o op' ∧ op'.dispatched = true ∧
    op'.quiesced = true
  argOf : ∀ k, c'.argOf k = c.argOf k

namespace Offloads

variable {net' : Net} {op : Operation}

theorem dispatch_new (h : Offloads c d) (hn : net.Reliable) (hop : c.operations[o]? = some op)
    (hnew : op.dispatched = false) {r : StatusCode × Client}
    (hr : c.dispatch o false net = .ok r) :
    ∃ d' op', Offloads r.2 d' ∧ d'.descs = d.descs ∧
      d'.memory = d.memory.runKernel op.bindings op.kernel ∧
      r.2.operations = c.operations.set o op' ∧ op'.dispatched = true ∧ op'.quiesced = false := by
  have hmem : op ∈ c.operations := List.mem_of_getElem? hop
  have hlt : o < c.operations.length := (List.getElem?_eq_some_iff.mp hop).1
  have h' := (h.dispatch hn (fun hf => absurd hf Bool.false_ne_true) hr).1
  have hdop : d.operations[o]? = some op.direct := by
    rw [h.operations, List.getElem?_map, hop]
    rfl
  have hdispatch : d.dispatch o false = { d with
      memory := d.memory.runKernel op.bindings op.kernel
      operations := d.operations.set o ⟨op.bindings, op.kernel, true⟩ } := by
    rw [Direct.dispatch, hdop]
    exact if_neg fun hdone => Bool.false_ne_true (hnew.symm.trans hdone.1)
  rw [hdispatch] at h'
  obtain ⟨op₁, hop₁, ⟨hd, -⟩ | ⟨-, p, q, -, -, rfl⟩⟩ := dispatch_ok hr
  · obtain rfl := Option.some.inj (hop.symm.trans hop₁)
    exact absurd (hnew.symm.trans hd) Bool.false_ne_true
  · obtain rfl := Option.some.inj (hop.symm.trans hop₁)
    refine ⟨_, _, h', rfl, rfl, rfl, ?_, ?_⟩
    · -- the two levels agree on what has run
      have hlt' : o < d.operations.length := (List.getElem?_eq_some_iff.mp hdop).1
      have hops := congrArg (fun ops => ops[o]?) h'.operations
      dsimp only at hops
      rw [List.getElem?_set_self hlt', List.getElem?_map, List.getElem?_set_self hlt] at hops
      exact (congrArg Direct.Operation.done (Option.some.inj hops)).symm
    · cases hq : op.quiesced with
      | false => rfl
      | true => exact absurd (hnew.symm.trans (h.dispatched op hmem hq)) Bool.false_ne_true

theorem dispatch_quiesce (h : Offloads c d) (hn : net.Reliable) (hn' : net'.Reliable)
    (hop : c.operations[o]? = some op) (hnew : op.dispatched = false)
    {r q : StatusCode × Client} (hr : c.dispatch o false net = .ok r)
    (hq : r.2.quiesce o net' = .ok q) : Completes c d o op q.2 := by
  obtain ⟨d', op', h', hdescs, hmem, hops, hdispatched, -⟩ := h.dispatch_new hn hop hnew hr
  have hop' : r.2.operations[o]? = some op' := by
    rw [hops, List.getElem?_set_self (List.getElem?_eq_some_iff.mp hop).1]
  obtain ⟨hquiesce, harg⟩ := h'.quiesce hn' hq
  have harg' := (h.dispatch hn (fun hf => absurd hf Bool.false_ne_true) hr).2
  refine ⟨⟨d', hquiesce, hdescs, hmem⟩, ⟨{ op' with quiesced := true }, ?_, hdispatched, rfl⟩,
    fun k => (harg k).trans (harg' k)⟩
  rw [quiesce_operations hop' hdispatched hq, hops, List.set_set]

theorem finish (h : Offloads c d) (hn : net.Reliable) (hn' : net'.Reliable)
    (hop : c.operations[o]? = some op) (hnew : op.dispatched = false) {c' : Client}
    (hr : c.finish o net net' = .ok c') : Completes c d o op c' := by
  obtain ⟨op₁, hop₁, hr⟩ := bind_eq_ok.mp hr
  obtain rfl := Option.some.inj (hop.symm.trans (readAt_ok.mp hop₁))
  obtain ⟨r, hdispatch, hr⟩ := bind_eq_ok.mp hr
  rw [if_neg (Bool.eq_false_iff.mp hnew)] at hdispatch
  obtain ⟨-, op', -, -, -, hops, hdispatched, hquiesced⟩ := h.dispatch_new hn hop hnew hdispatch
  obtain ⟨op₂, hop₂, hr⟩ := bind_eq_ok.mp hr
  rw [readAt_ok, hops, List.getElem?_set_self (List.getElem?_eq_some_iff.mp hop).1] at hop₂
  obtain rfl := Option.some.inj hop₂
  rw [if_pos ⟨hdispatched, Bool.eq_false_iff.mp hquiesced⟩] at hr
  obtain ⟨q, hq, hr⟩ := bind_eq_ok.mp hr
  cases hr
  exact h.dispatch_quiesce hn hn' hop hnew hdispatch hq

end Offloads

theorem surface_of_argOf {c' : Client} (h : ∀ k, c'.argOf k = c.argOf k) {k : ℕ} {surf : Surface}
    (hk : c'.surfaces[k]? = some surf) :
    ∃ surf', c.surfaces[k]? = some surf' ∧ surf'.id = surf.id ∧
      surf'.generation = surf.generation := by
  have harg := h k
  rw [argOf_eq hk] at harg
  cases hk' : c.surfaces[k]? with
  | none =>
    rw [argOf, hk'] at harg
    cases harg
  | some surf' =>
    rw [argOf_eq hk'] at harg
    exact ⟨surf', rfl, (congrArg KernelArg.sid harg).symm,
      (congrArg KernelArg.generation harg).symm⟩

theorem generation_of_argOf {c' : Client} (h : ∀ k, c'.argOf k = c.argOf k) {surf : Surface}
    (hsurf : surf ∈ c'.surfaces) :
    ∃ surf' ∈ c.surfaces, surf'.generation = surf.generation := by
  obtain ⟨k, hk⟩ := List.mem_iff_getElem?.mp hsurf
  obtain ⟨surf', hsurf', -, hgen⟩ := surface_of_argOf h hk
  exact ⟨surf', List.mem_of_getElem? hsurf', hgen⟩

theorem generation_upload {k : ℕ} (hsize : ∀ surf ∈ c.surfaces[k]?,
      surf.consistencyDB.size = c.maxRefObjects)
    {imgRegion : VMAccelSurfaceRegion} {elemSize : ℕ} {input : List Byte} {r : StatusCode × Client}
    (hr : c.upload k imgRegion elemSize input = .ok r) {surf : Surface}
    (hsurf : surf ∈ r.2.surfaces) :
    ∃ surf' ∈ c.surfaces, surf.generation.toNat ≤ surf'.generation.toNat + 1 := by
  obtain ⟨old, hold, hr⟩ := bind_eq_ok.mp hr
  have hk := readAt_ok.mp hold
  have hmem : old ∈ c.surfaces := List.mem_of_getElem? hk
  obtain ⟨q, hq, hr⟩ := bind_eq_ok.mp hr
  cases hr
  rcases List.mem_or_eq_of_mem_set hsurf with hsurf | rfl
  · exact ⟨surf, hsurf, Nat.le_succ _⟩
  · refine ⟨old, hmem, ?_⟩
    rcases Surface.upload_ok (hsize old hk) hq with rfl | ⟨db, -, -, rfl⟩
    · exact Nat.le_succ _
    · change (old.generation + 1).toNat ≤ _
      rw [BitVec.toNat_add]
      exact Nat.mod_le _ _

end Client

namespace Application

/-- Every request is served. -/
def Call.Reliable : Call → Prop
  | .upload _ _ _ _ => True
  | .dispatch _ _ _ nets | .release _ nets => nets.dispatch.Reliable ∧ nets.quiesce.Reliable ∧
    nets.finishDispatch.Reliable ∧ nets.finishQuiesce.Reliable

/-- The kernel keeps the surfaces that kernels only read. -/
def Call.KeepsReadonly (descs : List VMAccelSurfaceDesc) : Call → Prop
  | .dispatch _ bindings kernel _ => VMAccel.KeepsReadonly descs bindings kernel
  | _ => True

/-- The client has done what `t` does, in at most `n` calls. The operations in objects are new, and
no operation has results to download. -/
structure Defers (s : Application) (t : Deferred) (n : ℕ) : Prop where
  offloads : ∃ d, s.client.Offloads d ∧ d.descs = t.descs ∧ d.memory = t.memory
  settled : ∀ op ∈ s.client.operations, ¬ op.Outstanding
  held : ∀ i o, s.objects i = some o → ∃ op, s.client.operations[o]? = some op ∧
    op.dispatched = false ∧ t.waiting i = some (op.bindings, op.kernel)
  empty : ∀ i, s.objects i = none → t.waiting i = none
  distinct : ∀ i j o, s.objects i = some o → s.objects j = some o → i = j
  generation : ∀ surf ∈ s.client.surfaces, surf.generation.toNat ≤ n

namespace Defers

variable {s : Application} {t : Deferred} {n i o : ℕ}

theorem not_pending (h : Defers s t n) (k : ℕ) : ¬ s.client.Pending k := by
  rintro ⟨-, op, hop, hout, -⟩
  exact h.settled op hop hout

theorem upload (h : Defers s t n) (hn : n + 1 < 2 ^ 32) {k : ℕ} {imgRegion : VMAccelSurfaceRegion}
    {elemSize : ℕ} {input : List Byte} {r : StatusCode × Client}
    (hr : s.client.upload k imgRegion elemSize input = .ok r) :
    Defers ⟨r.2, s.objects⟩
      { t with memory := t.memory.upload t.descs k imgRegion elemSize input } (n + 1) := by
  obtain ⟨d, hd, hdescs, hmem⟩ := h.offloads
  have hwrap : ∀ surf ∈ s.client.surfaces[k]?, surf.generation ≠ BitVec.allOnes 32 := by
    intro surf hsurf heq
    have hle := h.generation surf (List.mem_of_getElem? hsurf)
    rw [heq, BitVec.toNat_allOnes] at hle
    omega
  obtain ⟨hops, hdescs', hm⟩ := hd.mirrors.upload (h.not_pending k) hwrap hr
  rw [← hd.descs] at hm
  refine ⟨⟨_, hd.of_mirrors hops hdescs' hm, hdescs, ?_⟩, ?_, ?_, h.empty, h.distinct, ?_⟩
  · rw [← hdescs, ← hmem]
  · exact hops ▸ h.settled
  · exact hops ▸ h.held
  · intro surf hsurf
    have hsize : ∀ old ∈ s.client.surfaces[k]?, old.consistencyDB.size = s.client.maxRefObjects :=
      fun old hold => by
        obtain ⟨_, -, hold'⟩ := hd.mirrors.surface k old hold
        exact hold'.size
    obtain ⟨old, hold, hle⟩ := Client.generation_upload hsize hr hsurf
    exact hle.trans (Nat.succ_le_succ (h.generation old hold))

theorem prepare (h : Defers s t n) {bindings : List ℕ} {kernel : List (List Byte) → ℕ → ℕ → Byte}
    (hkeeps : VMAccel.KeepsReadonly t.descs bindings kernel) :
    Defers ⟨s.client.prepare bindings kernel, s.objects⟩ t n := by
  obtain ⟨d, hd, hdescs, hmem⟩ := h.offloads
  refine ⟨⟨_, hd.prepare (hdescs ▸ hkeeps), hdescs, hmem⟩, ?_, ?_, h.empty, h.distinct,
    h.generation⟩
  · intro op hop
    rcases List.mem_append.mp hop with hop | hop
    · exact h.settled op hop
    · obtain rfl := List.mem_singleton.mp hop
      exact fun hout => Bool.false_ne_true hout.1
  · intro i o hi
    obtain ⟨op, hop, hrest⟩ := h.held i o hi
    refine ⟨op, ?_, hrest⟩
    change (s.client.operations ++ _)[o]? = some op
    rw [List.getElem?_append_left (List.getElem?_eq_some_iff.mp hop).1, hop]

/-- Object `i` takes the operation `next`, or none, on a client that has run what it held. -/
theorem replace (h : Defers s t n) {c : Client} {next : Option ℕ}
    {wait : Option (List ℕ × (List (List Byte) → ℕ → ℕ → Byte))}
    (hoffloads : ∃ d, c.Offloads d ∧ d.descs = t.descs ∧ d.memory = (t.turn i wait).memory)
    (hsettled : ∀ op ∈ c.operations, ¬ op.Outstanding)
    (hkeep : ∀ j o, j ≠ i → s.objects j = some o → c.operations[o]? = s.client.operations[o]?)
    (hnext : ∀ o, next = some o → (∀ j, s.objects j ≠ some o) ∧
      ∃ op, c.operations[o]? = some op ∧ op.dispatched = false ∧
        wait = some (op.bindings, op.kernel))
    (hnone : next = none → wait = none) (hgen : ∀ surf ∈ c.surfaces, surf.generation.toNat ≤ n) :
    Defers ⟨c, Function.update s.objects i next⟩ (t.turn i wait) n := by
  have hself : Function.update s.objects i next i = next := Function.update_self ..
  have hother : ∀ j, j ≠ i → Function.update s.objects i next j = s.objects j := fun j hj =>
    Function.update_of_ne hj ..
  have hwait : ∀ j, j ≠ i → (t.turn i wait).waiting j = t.waiting j := fun j hj =>
    Function.update_of_ne hj ..
  have hwait' : (t.turn i wait).waiting i = wait := Function.update_self ..
  refine ⟨hoffloads, hsettled, fun j o hj => ?_, fun j hj => ?_, fun j j' o hj hj' => ?_, hgen⟩
  · by_cases hji : j = i
    · subst hji
      rw [hwait']
      exact (hnext o (hself.symm.trans hj)).2
    · have hj' : s.objects j = some o := (hother j hji).symm.trans hj
      rw [hwait j hji]
      change ∃ op, c.operations[o]? = some op ∧ _
      rw [hkeep j o hji hj']
      exact h.held j o hj'
  · by_cases hji : j = i
    · subst hji
      rw [hwait']
      exact hnone (hself.symm.trans hj)
    · rw [hwait j hji]
      exact h.empty j ((hother j hji).symm.trans hj)
  · by_cases hji : j = i
    · subst hji
      by_contra hne
      refine (hnext o (hself.symm.trans hj)).1 j' ?_
      exact (hother j' (Ne.symm hne)).symm.trans hj'
    · by_cases hji' : j' = i
      · subst hji'
        refine absurd ?_ ((hnext o (hself.symm.trans hj')).1 j)
        exact (hother j hji).symm.trans hj
      · exact h.distinct j j' o ((hother j hji).symm.trans hj) ((hother j' hji').symm.trans hj')

/-- The operation in object `i` comes to its end and another one takes its place. -/
theorem complete (h : Defers s t n) {d : Direct} (hdescs : d.descs = t.descs)
    (hmem : d.memory = t.memory) {op : Operation} (hi : s.objects i = some o)
    (hop : s.client.operations[o]? = some op) {c : Client}
    (hc : Client.Completes s.client d o op c) {next : Option ℕ}
    {wait : Option (List ℕ × (List (List Byte) → ℕ → ℕ → Byte))}
    (hnext : ∀ o', next = some o' → (∀ j, s.objects j ≠ some o') ∧
      ∃ op, s.client.operations[o']? = some op ∧ op.dispatched = false ∧
        wait = some (op.bindings, op.kernel))
    (hnone : next = none → wait = none) :
    Defers ⟨c, Function.update s.objects i next⟩ (t.turn i wait) n := by
  obtain ⟨d', hd', hdescs', hmem'⟩ := hc.offloads
  obtain ⟨op', hops, hdispatched, hquiesced⟩ := hc.operations
  obtain ⟨op₁, hop₁, -, hwait⟩ := h.held i o hi
  obtain rfl := Option.some.inj (hop.symm.trans hop₁)
  have hother : ∀ o', o' ≠ o → c.operations[o']? = s.client.operations[o']? := fun o' hne => by
    rw [hops, List.getElem?_set_ne (Ne.symm hne)]
  refine h.replace ⟨d', hd', hdescs'.trans hdescs, ?_⟩ (fun x hx => ?_) (fun j o' hji hj => ?_)
    (fun o' ho' => ?_) hnone fun surf hsurf => ?_
  · rw [hmem', hmem, Deferred.turn, hwait]
  · rw [hops] at hx
    rcases List.mem_or_eq_of_mem_set hx with hx | rfl
    · exact h.settled x hx
    · exact fun hout => Bool.false_ne_true (hout.2.symm.trans hquiesced)
  · exact hother o' fun heq => hji (h.distinct j i o' hj (heq ▸ hi))
  · obtain ⟨hfree, hnew⟩ := hnext o' ho'
    refine ⟨hfree, ?_⟩
    rw [hother o' fun heq => hfree i (heq ▸ hi)]
    exact hnew
  · obtain ⟨surf', hsurf', hgen⟩ := Client.generation_of_argOf hc.argOf hsurf
    exact hgen ▸ h.generation surf' hsurf'

theorem dispatch (h : Defers s t n) {bindings : List ℕ} {kernel : List (List Byte) → ℕ → ℕ → Byte}
    (hkeeps : VMAccel.KeepsReadonly t.descs bindings kernel) {nets : Turnover}
    (hn : Call.Reliable (.dispatch i bindings kernel nets)) {s' : Application}
    (hr : s.dispatch i bindings kernel nets = .ok s') :
    Defers s' (t.turn i (some (bindings, kernel))) n := by
  have h₁ := h.prepare hkeeps
  have hlast : (s.client.prepare bindings kernel).operations[s.client.operations.length]? =
      some ⟨bindings, kernel, [], false, false⟩ := List.getElem?_concat_length
  have hfree : ∀ j, s.objects j ≠ some s.client.operations.length := fun j hj => by
    obtain ⟨op, hop, -⟩ := h.held j _ hj
    exact absurd (List.getElem?_eq_some_iff.mp hop).1 (lt_irrefl _)
  have hnext : ∀ o', some s.client.operations.length = some o' → (∀ j, s.objects j ≠ some o') ∧
      ∃ op, (s.client.prepare bindings kernel).operations[o']? = some op ∧
        op.dispatched = false ∧ some (bindings, kernel) = some (op.bindings, op.kernel) := by
    intro o' ho'
    cases ho'
    exact ⟨hfree, _, hlast, rfl, rfl⟩
  obtain ⟨c, hc, hr⟩ := bind_eq_ok.mp hr
  cases hr
  cases hi : s.objects i with
  | none =>
    rw [hi] at hc
    cases hc
    obtain ⟨d, hd, hdescs, hmem⟩ := h₁.offloads
    refine h₁.replace ⟨d, hd, hdescs, ?_⟩ h₁.settled (fun _ _ _ _ => rfl) hnext nofun h₁.generation
    rw [hmem, Deferred.turn, h.empty i hi]
  | some o =>
    rw [hi] at hc
    obtain ⟨d, hd, hdescs, hmem⟩ := h₁.offloads
    obtain ⟨op, hop, hnew, -⟩ := h₁.held i o hi
    obtain ⟨r, hdispatch, hc⟩ := bind_eq_ok.mp hc
    obtain ⟨q, hquiesce, hc⟩ := bind_eq_ok.mp hc
    have hcomplete := hd.dispatch_quiesce hn.1 hn.2.1 hop hnew hdispatch hquiesce
    obtain ⟨op', hops, hdispatched, hquiesced⟩ := hcomplete.operations
    -- nothing is left to do for the destructor
    have hop' : q.2.operations[o]? = some op' := by
      rw [hops, List.getElem?_set_self (List.getElem?_eq_some_iff.mp hop).1]
    rw [Client.finish_of_quiesced hop' hdispatched hquiesced] at hc
    cases hc
    exact h₁.complete hdescs hmem hi hop hcomplete hnext nofun

theorem release (h : Defers s t n) {nets : Turnover} (hn : Call.Reliable (.release i nets))
    {s' : Application} (hr : s.release i nets = .ok s') : Defers s' (t.turn i none) n := by
  cases hi : s.objects i with
  | none =>
    rw [Application.release, hi] at hr
    cases hr
    obtain ⟨d, hd, hdescs, hmem⟩ := h.offloads
    have h' : Defers ⟨s.client, Function.update s.objects i none⟩ (t.turn i none) n := by
      refine h.replace ⟨d, hd, hdescs, ?_⟩ h.settled (fun _ _ _ _ => rfl) nofun (fun _ => rfl)
        h.generation
      rw [hmem, Deferred.turn, h.empty i hi]
    rwa [← hi, Function.update_eq_self] at h'
  | some o =>
    rw [Application.release, hi] at hr
    obtain ⟨c, hc, hr⟩ := bind_eq_ok.mp hr
    cases hr
    obtain ⟨d, hd, hdescs, hmem⟩ := h.offloads
    obtain ⟨op, hop, hnew, -⟩ := h.held i o hi
    exact h.complete hdescs hmem hi hop (hd.finish hn.2.2.1 hn.2.2.2 hop hnew hc) nofun
      fun _ => rfl

theorem step (h : Defers s t n) (hn : n + 1 < 2 ^ 32) {a : Call} (hrel : a.Reliable)
    (hkeeps : a.KeepsReadonly t.descs) {s' : Application} (hstep : s.step a = .ok s') :
    Defers s' (t.step a) (n + 1) := by
  have later : ∀ {s t}, Defers s t n → Defers s t (n + 1) := fun h =>
    { h with generation := fun surf hsurf => (h.generation surf hsurf).trans (Nat.le_succ n) }
  cases a with
  | upload k imgRegion elemSize input =>
    obtain ⟨r, hr, heq⟩ := bind_eq_ok.mp hstep
    cases heq
    exact h.upload hn hr
  | dispatch i bindings kernel nets => exact later (h.dispatch hkeeps hrel hstep)
  | release i nets => exact later (h.release hrel hstep)

theorem run (h : Defers s t n) {as : List Call} (hn : n + as.length < 2 ^ 32)
    (hrel : ∀ a ∈ as, a.Reliable) (hkeeps : ∀ a ∈ as, a.KeepsReadonly t.descs) {s' : Application}
    (hrun : StepSystem.run Application.step s as = .ok s') :
    Defers s' (as.foldl Deferred.step t) (n + as.length) := by
  induction as generalizing s t n with
  | nil =>
    cases hrun
    exact h
  | cons a as ih =>
    obtain ⟨s₁, hs₁, hrun⟩ := run_cons_ok.mp hrun
    obtain ⟨hrel₁, hrel⟩ := List.forall_mem_cons.mp hrel
    obtain ⟨hkeeps₁, hkeeps⟩ := List.forall_mem_cons.mp hkeeps
    rw [List.length_cons] at hn ⊢
    have hdescs : (t.step a).descs = t.descs := by cases a <;> rfl
    have hlast := ih (h.step (by omega) hrel₁ hkeeps₁ hs₁) (by omega) hrel (hdescs ▸ hkeeps) hrun
    rwa [show n + (as.length + 1) = n + 1 + as.length by omega]

end Defers

end Application

end VMAccel
