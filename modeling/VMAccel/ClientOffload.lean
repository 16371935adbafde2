import VMAccel.ClientMirror

/-!
# Offloading is transparent

`Direct` is what a client is for: it runs the kernels of the application on its own memory, and a
transfer changes nothing. A client whose requests are all served refines it, as long as the
application leaves a surface alone between a kernel that writes it and the `quiesce` that brings
its results home. Every other surface then has in its backing what `Direct` has in its memory.
-/

namespace VMAccel

open StepSystem

/-- A kernel with the surfaces it is bound to, and whether it has run. -/
structure Direct.Operation where
  bindings : List ℕ
  kernel : List (List Byte) → ℕ → ℕ → Byte
  done : Bool

structure Direct where
  descs : List VMAccelSurfaceDesc
  memory : Contents
  operations : List Direct.Operation

namespace Direct

def start (surfaces : List Surface) : Direct where
  descs := surfaces.map Surface.desc
  memory := surfaces.map Surface.backing
  operations := []

/-- The kernel runs once, and again when it is forced to. -/
def dispatch (d : Direct) (o : ℕ) (force : Bool) : Direct :=
  match d.operations[o]? with
  | some op =>
    if op.done ∧ ¬ force then d
    else { d with
      memory := d.memory.runKernel op.bindings op.kernel
      operations := d.operations.set o { op with done := true } }
  | none => d

def step (d : Direct) : Client.Action → Direct
  | .call (.upload k imgRegion elemSize input) =>
    { d with memory := d.memory.upload d.descs k imgRegion elemSize input }
  | .call (.prepare bindings kernel) =>
    { d with operations := d.operations ++ [⟨bindings, kernel, false⟩] }
  | .call (.dispatch o force _) => d.dispatch o force
  | .call (.allocSurface _ _) | .call (.uploadSurface _ _ _) | .downloadSurface _ _ _ _
  | .quiesce _ _ => d

theorem descs_step (d : Direct) (a : Client.Action) : (d.step a).descs = d.descs := by
  rcases a with (_ | _ | _ | _ | ⟨o, force, net⟩) | _ | _
  case call.dispatch =>
    change (d.dispatch o force).descs = d.descs
    unfold dispatch
    split
    · split_ifs <;> rfl
    · rfl
  all_goals rfl

end Direct

/-- The kernel leaves every surface as it is that kernels only read. -/
def KeepsReadonly (descs : List VMAccelSurfaceDesc) (bindings : List ℕ)
    (kernel : List (List Byte) → ℕ → ℕ → Byte) : Prop :=
  ∀ (m : Contents) (k : ℕ) (desc : VMAccelSurfaceDesc), descs[k]? = some desc →
    desc.usage = .readonly → (m.runKernel bindings kernel)[k]? = m[k]?

def Operation.Outstanding (op : Operation) : Prop := op.dispatched = true ∧ op.quiesced = false

instance (op : Operation) : Decidable op.Outstanding := inferInstanceAs (Decidable (_ ∧ _))

def Operation.direct (op : Operation) : Direct.Operation := ⟨op.bindings, op.kernel, op.dispatched⟩

namespace Client

/-- The kernels of an action keep the surfaces that kernels only read. -/
def Action.KeepsReadonly (descs : List VMAccelSurfaceDesc) : Action → Prop
  | .call (.prepare bindings kernel) => VMAccel.KeepsReadonly descs bindings kernel
  | _ => True

/-- A kernel may have written the surface whose results are not downloaded yet. -/
def Pending (c : Client) (k : ℕ) : Prop :=
  c.Writable k ∧ ∃ op ∈ c.operations, op.Outstanding ∧ k ∈ op.bindings

instance (c : Client) (k : ℕ) : Decidable (c.Writable k) :=
  inferInstanceAs (Decidable (∃ _ ∈ (_ : Option _), _))

instance (c : Client) (k : ℕ) : Decidable (c.Marked k) :=
  inferInstanceAs (Decidable (∃ _ ∈ (_ : Option _), _))

instance (c : Client) (k : ℕ) : Decidable (c.Pending k) := inferInstanceAs (Decidable (_ ∧ _))

/-- A surface is neither overwritten nor sent again while results of a kernel are pending on it,
content is taken back only of a surface that has been sent, an operation is not started again once
it is quiesced, and the generation of a surface does not wrap. -/
def Orderly (c : Client) : Action → Prop
  | .call (.upload k _ _ _) =>
    ¬ c.Pending k ∧ ∀ surf ∈ c.surfaces[k]?, surf.generation ≠ BitVec.allOnes 32
  | .call (.uploadSurface k force _) => force = true → ¬ c.Pending k
  | .call (.dispatch o force _) => force = true → ∀ op ∈ c.operations[o]?, op.quiesced = false
  | .downloadSurface k _ _ _ => c.Marked k
  | .call (.allocSurface _ _) | .call (.prepare _ _) | .quiesce _ _ => True

instance (c : Client) : (a : Action) → Decidable (c.Orderly a)
  | .call (.upload _ _ _ _) => inferInstanceAs (Decidable (_ ∧ _))
  | .call (.uploadSurface _ _ _) => inferInstanceAs (Decidable (_ → _))
  | .call (.dispatch _ _ _) => inferInstanceAs (Decidable (_ → _))
  | .downloadSurface k _ _ _ => inferInstanceAs (Decidable (c.Marked k))
  | .call (.allocSurface _ _) | .call (.prepare _ _) | .quiesce _ _ => .isTrue trivial

structure Offloads (c : Client) (d : Direct) : Prop where
  descs : d.descs = c.surfaces.map Surface.desc
  operations : d.operations = c.operations.map Operation.direct
  mirrors : c.Mirrors c.Pending d.memory
  keeps : ∀ op ∈ c.operations, KeepsReadonly d.descs op.bindings op.kernel
  dispatched : ∀ op ∈ c.operations, op.quiesced = true → op.dispatched = true
  bound : ∀ op ∈ c.operations, op.dispatched = true →
    op.kernelArgs.length = op.bindings.length ∧ ∀ a ∈ op.kernelArgs, a.sid ≠ invalidId

variable {c c' : Client} {d : Direct} {k o : ℕ} {net : Net}

theorem pending_congr (hops : c'.operations = c.operations)
    (hdescs : c'.surfaces.map Surface.desc = c.surfaces.map Surface.desc) :
    c'.Pending = c.Pending := by
  unfold Pending Writable
  rw [hops, hdescs]

theorem mem_set_operations {ops : List Operation} {op op' op'' : Operation}
    (hop : ops[o]? = some op) (h : op'' ∈ ops) : op'' = op ∨ op'' ∈ ops.set o op' := by
  obtain ⟨j, hj⟩ := List.mem_iff_getElem?.mp h
  by_cases hjo : j = o
  · subst hjo
    exact Or.inl (Option.some.inj (hj.symm.trans hop))
  · exact Or.inr (List.mem_iff_getElem?.mpr ⟨j, by rw [List.getElem?_set_ne (Ne.symm hjo), hj]⟩)

namespace Offloads

theorem of_mirrors (h : Offloads c d) (hops : c'.operations = c.operations)
    (hdescs : c'.surfaces.map Surface.desc = c.surfaces.map Surface.desc) {m : Contents}
    (hm : c'.Mirrors c.Pending m) : Offloads c' { d with memory := m } where
  descs := h.descs.trans hdescs.symm
  operations := hops ▸ h.operations
  mirrors := (pending_congr hops hdescs).symm ▸ hm
  keeps := hops ▸ h.keeps
  dispatched := hops ▸ h.dispatched
  bound := hops ▸ h.bound

theorem of_same (h : Offloads c d) (hsame : Same c c') (hm : c'.Mirrors c.Pending d.memory) :
    Offloads c' d := h.of_mirrors hsame.operations hsame.descs hm

theorem prepare (h : Offloads c d) {bindings : List ℕ} {kernel : List (List Byte) → ℕ → ℕ → Byte}
    (hkeeps : KeepsReadonly d.descs bindings kernel) :
    Offloads (c.prepare bindings kernel)
      { d with operations := d.operations ++ [⟨bindings, kernel, false⟩] } := by
  have hops : (c.prepare bindings kernel).operations =
      c.operations ++ [⟨bindings, kernel, [], false, false⟩] := rfl
  have hpending : ∀ k, (c.prepare bindings kernel).Pending k ↔ c.Pending k := fun k => by
    rw [Pending, hops]
    simp [List.mem_append, or_and_right, exists_or, Operation.Outstanding, Pending, Writable,
      Client.prepare]
  refine ⟨h.descs, ?_, ?_, ?_, ?_, ?_⟩
  · rw [hops, List.map_append, ← h.operations]
    rfl
  · exact (h.mirrors.of_operations _).bring (fun k => (hpending k).mp)
      fun k hk hnot => absurd ((hpending k).mpr hk) hnot
  · rw [hops, List.forall_mem_append, List.forall_mem_singleton]
    exact ⟨h.keeps, hkeeps⟩
  · rw [hops, List.forall_mem_append, List.forall_mem_singleton]
    exact ⟨h.dispatched, fun hq => absurd hq Bool.false_ne_true⟩
  · rw [hops, List.forall_mem_append, List.forall_mem_singleton]
    exact ⟨h.bound, fun hd => absurd hd Bool.false_ne_true⟩

theorem set_operation (h : Offloads c d) {op : Operation} (hop : c.operations[o]? = some op)
    (op' : Operation) (hbindings : op'.bindings = op.bindings) (hkernel : op'.kernel = op.kernel)
    (hdispatched : op'.dispatched = true)
    (hbound : op'.kernelArgs.length = op.bindings.length ∧ ∀ a ∈ op'.kernelArgs, a.sid ≠ invalidId)
    (hdescs : c'.surfaces.map Surface.desc = c.surfaces.map Surface.desc) {m : Contents}
    (hm : Mirrors { c' with operations := c.operations.set o op' }
      (Pending { c' with operations := c.operations.set o op' }) m) :
    Offloads { c' with operations := c.operations.set o op' } { d with
      memory := m, operations := d.operations.set o ⟨op.bindings, op.kernel, true⟩ } := by
  have hmem : op ∈ c.operations := List.mem_of_getElem? hop
  have hall : ∀ P : Operation → Prop, (∀ op ∈ c.operations, P op) → P op' →
      ∀ op ∈ c.operations.set o op', P op := fun P hP hop' x hx => by
    rcases List.mem_or_eq_of_mem_set hx with hx | rfl
    · exact hP x hx
    · exact hop'
  refine ⟨h.descs.trans hdescs.symm, ?_, hm, hall _ h.keeps ?_, hall _ h.dispatched ?_,
    hall _ h.bound ?_⟩
  · change d.operations.set o _ = (c.operations.set o op').map Operation.direct
    rw [List.map_set, ← h.operations, Operation.direct, hbindings, hkernel, hdispatched]
  · rw [hbindings, hkernel]
    exact h.keeps op hmem
  · exact fun _ => hdispatched
  · rw [hbindings]
    exact fun _ => hbound

theorem dispatch (h : Offloads c d) (hn : net.Reliable) {force : Bool}
    (hforce : force = true → ∀ op ∈ c.operations[o]?, op.quiesced = false)
    {r : StatusCode × Client} (hr : c.dispatch o force net = .ok r) :
    Offloads r.2 (d.dispatch o force) ∧ ∀ k, r.2.argOf k = c.argOf k := by
  obtain ⟨op, hop, hcase⟩ := dispatch_ok hr
  have hmem : op ∈ c.operations := List.mem_of_getElem? hop
  have hdop : d.operations[o]? = some op.direct := by
    rw [h.operations, List.getElem?_map, hop]
    rfl
  rw [Direct.dispatch, hdop]
  dsimp only
  rcases hcase with ⟨hdone, hf, rfl⟩ | ⟨hagain, p, q, hp, hq, rfl⟩
  · rw [if_pos ⟨hdone, Bool.eq_false_iff.mp hf⟩]
    exact ⟨h, fun _ => rfl⟩
  rw [if_neg fun hskip => hskip.2 (hagain hskip.1)]
  have hquiesced : op.quiesced = false := by
    cases hd : op.quiesced with
    | false => rfl
    | true => exact absurd (hforce (hagain (h.dispatched op hmem hd)) op hop) (by simp [hd])
  obtain ⟨hargs, hsame₁, hs₁, hmarks⟩ := h.mirrors.run_prepareArg hn hp
  rw [List.zipIdx_map_fst, List.nil_append, ← funext hsame₁.argOf] at hargs
  have hbindings : ∀ k ∈ op.bindings, p.1.Marked k := fun k hk => by
    rw [← List.zipIdx_map_fst 0 op.bindings] at hk
    obtain ⟨b, hb, rfl⟩ := List.mem_map.mp hk
    exact hmarks b hb
  -- what the kernel may write is away from now on
  have hkeep : ∀ k ∈ op.bindings, ¬ (c.Pending k ∨ (c.Writable k ∧ k ∈ op.bindings)) →
      (d.memory.runKernel op.bindings op.kernel)[k]? = d.memory[k]? := fun k hk hnot => by
    obtain ⟨surf, hsurf, -⟩ := hbindings k hk
    have hdesc : d.descs[k]? = some surf.desc := by
      rw [h.descs, ← hsame₁.descs, List.getElem?_map, hsurf]
      rfl
    refine h.keeps op hmem d.memory k surf.desc hdesc (not_not.mp fun husage => hnot (Or.inr ?_))
    exact ⟨hsame₁.writable.mp ((writable_iff hsurf).mpr husage), hk⟩
  obtain ⟨hstatus, hsame₂, hs₂⟩ := hs₁.submit hn hbindings _ (fun _ => Or.inl)
    (fun k hk => hk.imp_right And.right) hkeep (hargs ▸ hq)
  have hsame := hsame₁.trans hsame₂
  have hdispatched : (op.dispatched || decide (q.1 = .success)) = true := by
    rw [hstatus]
    exact Bool.or_true _
  refine ⟨h.set_operation hop _ ?_ ?_ hdispatched ?_ hsame.descs
    ((hs₂.of_operations _).bring (fun k => ?_) fun k hk hnot => absurd ?_ hnot), hsame.argOf⟩
  · rfl
  · rfl
  · refine ⟨by rw [hargs, List.length_map], fun a ha => ?_⟩
    rw [hargs] at ha
    obtain ⟨k, hk, rfl⟩ := List.mem_map.mp ha
    obtain ⟨surf, hsurf, hact⟩ := hbindings k hk
    obtain ⟨mem, -, hmir⟩ := hs₁.surface k surf hsurf
    rw [argOf_eq hsurf]
    exact (hmir.sent hact).ne_invalidId hmir.fits.wellFormed
  · rintro ⟨hw, op'', hop'', hout, hk⟩
    have hw' : c.Writable k := hsame.writable.mp hw
    rcases List.mem_or_eq_of_mem_set hop'' with hop'' | rfl
    · exact Or.inl ⟨hw', op'', hop'', hout, hk⟩
    · exact Or.inr ⟨hw', hk⟩
  · have hnew : k ∈ op.bindings → ∃ op' ∈ c.operations.set o { op with
        kernelArgs := p.2, dispatched := op.dispatched || decide (q.1 = .success) },
        op'.Outstanding ∧ k ∈ op'.bindings := fun hk =>
      ⟨_, List.mem_set (List.getElem?_eq_some_iff.mp hop).1 _, ⟨hdispatched, hquiesced⟩, hk⟩
    rcases hk with ⟨hw, op'', hop'', hout, hk⟩ | ⟨hw, hk⟩
    · refine ⟨hsame.writable.mpr hw, ?_⟩
      rcases mem_set_operations hop hop'' with rfl | hset
      · exact hnew hk
      · exact ⟨op'', hset, hout, hk⟩
    · exact ⟨hsame.writable.mpr hw, hnew hk⟩

theorem quiesce (h : Offloads c d) (hn : net.Reliable) {r : StatusCode × Client}
    (hr : c.quiesce o net = .ok r) : Offloads r.2 d ∧ ∀ k, r.2.argOf k = c.argOf k := by
  obtain ⟨op, hop, hr⟩ := bind_eq_ok.mp hr
  rw [readAt_ok] at hop
  have hmem : op ∈ c.operations := List.mem_of_getElem? hop
  split_ifs at hr with hquiesced hdispatched
  · cases hr
    exact ⟨h, fun _ => rfl⟩
  · obtain ⟨c', hc', hr⟩ := bind_eq_ok.mp hr
    cases hr
    obtain ⟨hlen, hsid⟩ := h.bound op hmem hdispatched
    have hout : op.Outstanding := ⟨hdispatched, Bool.eq_false_iff.mpr hquiesced⟩
    have hfst : (op.bindings.zip op.kernelArgs).zipIdx.map (Prod.fst ∘ Prod.fst) =
        op.bindings := by
      rw [← List.map_map, List.zipIdx_map_fst, List.map_fst_zip hlen.ge]
    have hbs : ∀ b ∈ (op.bindings.zip op.kernelArgs).zipIdx, b.1.2.sid ≠ invalidId ∧
        (c.Writable b.1.1 → c.Marked b.1.1) := fun b hb => by
      have hzip := List.of_mem_zip (List.fst_mem_of_mem_zipIdx hb)
      exact ⟨hsid _ hzip.2, fun hw => h.mirrors.marked ⟨hw, op, hmem, hout, hzip.1⟩ hw⟩
    obtain ⟨hsame, hs', hhome⟩ := h.mirrors.run_quiesceArg hn (fun k hk => hk.1) hbs hc'
    have hdone : d.operations.set o ⟨op.bindings, op.kernel, true⟩ = d.operations := by
      refine set_getElem?_self ?_
      rw [h.operations, List.getElem?_map, hop, ← hdispatched]
      rfl
    rw [hsame.operations, show d = { d with
      memory := d.memory, operations := d.operations.set o ⟨op.bindings, op.kernel, true⟩ } by
        rw [hdone]]
    refine ⟨h.set_operation hop { op with quiesced := true } rfl rfl hdispatched ⟨hlen, hsid⟩
      hsame.descs ((hs'.of_operations _).bring (fun k => ?_)
        fun k hk hnot => hhome k (Or.inr ?_)), hsame.argOf⟩
    · rintro ⟨hw, op'', hop'', hout'', hk⟩
      rcases List.mem_or_eq_of_mem_set hop'' with hop'' | rfl
      · exact ⟨hsame.writable.mp hw, op'', hop'', hout'', hk⟩
      · exact absurd hout''.2 (by simp)
    · -- the operation that has left results on the surface is the one that is quiesced
      obtain ⟨hw, op'', hop'', hout'', hk⟩ := hk
      rcases mem_set_operations hop hop'' with rfl | hset
      · rw [← hfst] at hk
        exact List.mem_map.mp hk
      · exact absurd ⟨hsame.writable.mpr hw, op'', hset, hout'', hk⟩ hnot
  · cases hr
    exact ⟨h, fun _ => rfl⟩

theorem step (h : Offloads c d) {a : Action} (hrel : a.Reliable)
    (hkeeps : a.KeepsReadonly d.descs) (ha : c.Orderly a) (hstep : c.step a = .ok c') :
    Offloads c' (d.step a) := by
  rcases a with (⟨k, imgRegion, elemSize, input⟩ | ⟨k, net⟩ | ⟨k, force, net⟩ |
    ⟨bindings, kernel⟩ | ⟨o, force, net⟩) | ⟨k, force, imgDownload, net⟩ | ⟨o, net⟩
  · obtain ⟨r, hr, heq⟩ := bind_eq_ok.mp hstep
    cases heq
    obtain ⟨hops, hdescs, hm⟩ := h.mirrors.upload ha.1 ha.2 hr
    rw [← h.descs] at hm
    exact h.of_mirrors hops hdescs hm
  · obtain ⟨r, hr, heq⟩ := bind_eq_ok.mp hstep
    cases heq
    obtain ⟨-, hsame, hm⟩ := h.mirrors.allocSurface hrel hr
    exact h.of_same hsame hm
  · obtain ⟨r, hr, heq⟩ := bind_eq_ok.mp hstep
    cases heq
    obtain ⟨-, hsame, hm, -⟩ := h.mirrors.uploadSurface hrel ha hr
    exact h.of_same hsame hm
  · cases hstep
    exact h.prepare hkeeps
  · obtain ⟨r, hr, heq⟩ := bind_eq_ok.mp hstep
    cases heq
    exact (h.dispatch hrel ha hr).1
  · obtain ⟨r, hr, heq⟩ := bind_eq_ok.mp hstep
    cases heq
    obtain ⟨hsame, hm⟩ := h.mirrors.downloadSurface hrel ha hr
    exact h.of_same hsame hm
  · obtain ⟨r, hr, heq⟩ := bind_eq_ok.mp hstep
    cases heq
    exact (h.quiesce hrel hr).1

theorem run (h : Offloads c d) {as : List Action} (hrel : ∀ a ∈ as, a.Reliable)
    (hkeeps : ∀ a ∈ as, a.KeepsReadonly d.descs) (has : EachInput Client.step Orderly c as)
    (hrun : StepSystem.run Client.step c as = .ok c') : Offloads c' (as.foldl Direct.step d) := by
  induction as generalizing c d with
  | nil =>
    cases hrun
    exact h
  | cons a as ih =>
    obtain ⟨c₁, hc₁, hrun⟩ := run_cons_ok.mp hrun
    obtain ⟨hrel₁, hrel⟩ := List.forall_mem_cons.mp hrel
    obtain ⟨hkeeps₁, hkeeps⟩ := List.forall_mem_cons.mp hkeeps
    refine ih (h.step hrel₁ hkeeps₁ has.1 hc₁) hrel ?_ (has.2 c₁ hc₁) hrun
    rw [d.descs_step]
    exact hkeeps

end Offloads

def addKernel (contents : List (List Byte)) (k j : ℕ) : Byte :=
  if k = 0 then (contents.getD 0 []).getD j 0
  else (contents.getD 0 []).getD j 0 + (contents.getD 1 []).getD j 0

end Client

end VMAccel
