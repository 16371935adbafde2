import VMAccel.BackendDispatch
import VMAccel.ClientSurface

/-!
# Requests and the trace of a host

What a request can do to the host when its answer is open, and what the trace says about the
content of a surface: the latest bytes stored on the server, and whether a kernel has run on the
surface since. `Holds` is the state in which a surface may be called consistent.
-/

namespace VMAccel

open StepSystem

/-- A request leaves the host alone or is handled, and the reply is then lost or that of the
handler. -/
theorem Answer.call_ok {ρ : Type} {answer : Answer} {h : Host}
    {handler : Host → Bool → Except Fault (ρ × Host)} {refusal : StatusCode → ρ}
    {r : Option ρ × Host} (hr : answer.call h handler refusal = .ok r) :
    (r.2 = h ∧ ∀ q, r.1 = some q → ∃ status, status ≠ .success ∧ q = refusal status) ∨
      ∃ cl q, handler h cl = .ok q ∧ r.2 = q.2 ∧ ∀ q', r.1 = some q' → q' = q.1 := by
  rcases answer with (_ | cl) | ⟨status, hstatus⟩ | cl
  · cases hr
    exact Or.inl ⟨rfl, nofun⟩
  · obtain ⟨q, hq, hr⟩ := bind_eq_ok.mp hr
    cases hr
    exact Or.inr ⟨cl, q, hq, rfl, nofun⟩
  · cases hr
    exact Or.inl ⟨rfl, fun q h => ⟨status, hstatus, (Option.some.inj h).symm⟩⟩
  · obtain ⟨q, hq, hr⟩ := bind_eq_ok.mp hr
    cases hr
    exact Or.inr ⟨cl, q, hq, rfl, fun _ h => (Option.some.inj h).symm⟩

theorem Answer.call_served {ρ : Type} {h : Host}
    {handler : Host → Bool → Except Fault (ρ × Host)} {refusal : StatusCode → ρ}
    {r : Option ρ × Host} (hr : (Answer.served true).call h handler refusal = .ok r) :
    ∃ q, handler h true = .ok q ∧ r = (some q.1, q.2) := by
  obtain ⟨q, hq, hr⟩ := bind_eq_ok.mp hr
  cases hr
  exact ⟨q, hq, rfl⟩

theorem Answer.call_invariant {ρ : Type} {answer : Answer} {h : Host}
    {handler : Host → Bool → Except Fault (ρ × Host)} {refusal : StatusCode → ρ}
    {r : Option ρ × Host} {P : Host → Prop} (hr : answer.call h handler refusal = .ok r) (hP : P h)
    (hstep : ∀ cl q, handler h cl = .ok q → P q.2) : P r.2 := by
  rcases Answer.call_ok hr with ⟨heq, -⟩ | ⟨cl, q, hq, heq, -⟩
  · rwa [heq]
  · rw [heq]
    exact hstep cl q hq

namespace Event

def storedTo (sid : VMAccelId) : Event → Option (List Byte)
  | .stored id bytes => if id = sid then some bytes else none
  | _ => none

def updateOf (sid : VMAccelId) : Event → Option (List Byte)
  | .updated id bytes => if id = sid then some bytes else none
  | _ => none

def runsOn (sid : VMAccelId) : Event → Bool
  | .ran sids => decide (sid ∈ sids)
  | _ => false

/-- The bytes of the latest event that `pick` selects, and whether a kernel has run on the surface
since. -/
def latest (pick : Event → Option (List Byte)) (sid : VMAccelId) :
    List Event → Option (List Byte × Bool)
  | [] => none
  | e :: es =>
    match pick e with
    | some bytes => some (bytes, false)
    | none => (latest pick sid es).map fun p => (p.1, p.2 || e.runsOn sid)

theorem latest_of_pick {pick : Event → Option (List Byte)} {sid : VMAccelId} {e : Event}
    {bytes : List Byte} (he : pick e = some bytes) (es : List Event) :
    latest pick sid (e :: es) = some (bytes, false) := by
  rw [latest, he]

theorem latest_of_not_pick {pick : Event → Option (List Byte)} {sid : VMAccelId} {e : Event}
    (he : pick e = none) (es : List Event) :
    latest pick sid (e :: es) = (latest pick sid es).map fun p => (p.1, p.2 || e.runsOn sid) := by
  rw [latest, he]

theorem latest_of_idle {pick : Event → Option (List Byte)} {sid : VMAccelId} {e : Event}
    (he : pick e = none) (hrun : e.runsOn sid = false) (es : List Event) :
    latest pick sid (e :: es) = latest pick sid es := by
  rw [latest_of_not_pick he, hrun]
  simp

end Event

namespace Host

/-- The server has a live surface of this generation that last received these bytes, and still has
them when no kernel has run on the surface since. -/
def Holds (h : Host) (sid : VMAccelId) (generation : BitVec 32) (bytes : List Byte) : Prop :=
  h.backend.surfaceIds.Active sid ∧
    ∃ x ran, h.backend.instance? sid.toNat 0 = some x ∧ x.generation = generation ∧
      Event.latest (Event.storedTo sid) sid h.trace = some (bytes, ran) ∧
      (ran = false → x.mem.take bytes.length = bytes)

variable {h : Host} {cl : Bool} {sid : VMAccelId} {generation : BitVec 32} {bytes : List Byte}

theorem wellFormed_surfacealloc (hw : h.backend.WellFormed) {argp : SurfaceAllocateDesc}
    {svmCapable : Bool} {fresh : ℕ → Byte} {r : StatusCode × Host}
    (hr : h.surfacealloc argp svmCapable cl fresh = .ok r) : r.2.backend.WellFormed := by
  obtain ⟨q, hq, hr⟩ := bind_eq_ok.mp hr
  cases hr
  exact hw.surfacealloc hq

theorem wellFormed_imageupload (hw : h.backend.WellFormed) {argp : ImageUploadOp}
    {r : StatusCode × Host} (hr : h.imageupload argp cl = .ok r) : r.2.backend.WellFormed := by
  obtain ⟨q, hq, hr⟩ := bind_eq_ok.mp hr
  cases hr
  exact hw.imageupload hq

theorem wellFormed_dispatch (hw : h.backend.WellFormed) {argp : DispatchOp}
    {r : StatusCode × Host} (hr : h.dispatch argp cl = .ok r) : r.2.backend.WellFormed := by
  obtain ⟨q, hq, hr⟩ := bind_eq_ok.mp hr
  cases hr
  exact hw.dispatch hq

theorem Holds.ne_invalidId (hh : h.Holds sid generation bytes) (hw : h.backend.WellFormed) :
    sid ≠ invalidId := by
  obtain ⟨-, x, -, hx, -⟩ := hh
  rintro rfl
  exact absurd (hw.lt_of_instance hx) (by decide)

theorem Holds.updated (hh : h.Holds sid generation bytes) (id : VMAccelId) (input : List Byte) :
    Holds { h with trace := .updated id input :: h.trace } sid generation bytes := by
  obtain ⟨hact, x, ran, hx, hgen, hlast, hmem⟩ := hh
  exact ⟨hact, x, ran, hx, hgen, by rw [Event.latest_of_idle rfl rfl, hlast], hmem⟩

theorem Holds.surfacealloc (hh : h.Holds sid generation bytes) {argp : SurfaceAllocateDesc}
    {svmCapable : Bool} {fresh : ℕ → Byte} {r : StatusCode × Host}
    (hr : h.surfacealloc argp svmCapable cl fresh = .ok r) : r.2.Holds sid generation bytes := by
  obtain ⟨q, hq, hr⟩ := bind_eq_ok.mp hr
  cases hr
  rcases Backend.surfacealloc_ok hq with ⟨-, heq⟩ | ⟨-, hinactive, -, hids, hinst⟩
  · rw [heq]
    exact hh
  · obtain ⟨hact, x, ran, hx, hrest⟩ := hh
    have hne : sid.toNat ≠ argp.sid.toNat := fun heq =>
      hinactive (BitVec.eq_of_toNat_eq heq ▸ hact)
    refine ⟨(hids sid).mpr (Or.inl hact), x, ran, ?_, hrest⟩
    change q.2.instance? sid.toNat 0 = some x
    rw [hinst, if_neg hne, hx]
    rfl

theorem imageupload_of_not_success {argp : ImageUploadOp} {r : StatusCode × Host}
    (hr : h.imageupload argp cl = .ok r) (hne : r.1 ≠ .success) : r.2 = h := by
  obtain ⟨q, hq, hr⟩ := bind_eq_ok.mp hr
  cases hr
  obtain ⟨-, y, -, -, ⟨-, rfl⟩ | ⟨-, -, -, ⟨-, rfl⟩ | ⟨mem, -, rfl⟩⟩⟩ := Backend.imageupload_ok hq
  · rfl
  · rfl
  · exact absurd rfl hne

theorem Holds.imageupload (hh : h.Holds sid generation bytes) {argp : ImageUploadOp}
    {r : StatusCode × Host} (hr : h.imageupload argp cl = .ok r)
    (hne : r.1 = .success → sid ≠ argp.sid) : r.2.Holds sid generation bytes := by
  by_cases hstatus : r.1 = .success
  · obtain ⟨q, hq, hr⟩ := bind_eq_ok.mp hr
    cases hr
    obtain ⟨-, y, -, hy, ⟨-, rfl⟩ | ⟨-, -, -, ⟨-, rfl⟩ | ⟨mem, -, rfl⟩⟩⟩ :=
      Backend.imageupload_ok hq
    · cases hstatus
    · cases hstatus
    · obtain ⟨hact, x, ran, hx, hgen, hlast, hmem⟩ := hh
      have hsid : argp.sid ≠ sid := (hne rfl).symm
      refine ⟨hact, x, ran, ?_, hgen, ?_, hmem⟩
      · change (h.backend.setInstance _ _ _).instance? sid.toNat 0 = some x
        rw [Backend.instance?_setInstance hy,
          if_neg fun heq => hsid (BitVec.eq_of_toNat_eq heq.1.symm), hx]
      · change Event.latest _ _ (.stored argp.sid argp.bytes :: h.trace) = _
        rw [Event.latest_of_idle (if_neg hsid) rfl, hlast]
  · rwa [imageupload_of_not_success hr hstatus]

theorem splice_zero {mem mem' : List Byte} (h : splice mem 0 bytes = some mem') :
    mem'.take bytes.length = bytes := by
  unfold splice at h
  split_ifs at h
  cases h
  simp

theorem holds_of_imageupload (hw : h.backend.WellFormed) {argp : ImageUploadOp}
    (hinst : argp.inst = 0) (hoff : argp.offset = 0) {r : StatusCode × Host}
    (hr : h.imageupload argp cl = .ok r) (hstatus : r.1 = .success) :
    r.2.Holds argp.sid argp.generation argp.bytes := by
  obtain ⟨q, hq, hr⟩ := bind_eq_ok.mp hr
  cases hr
  obtain ⟨desc, y, hdesc, hy, ⟨-, rfl⟩ | ⟨-, htype, -, ⟨-, rfl⟩ | ⟨mem, hmem, rfl⟩⟩⟩ :=
    Backend.imageupload_ok hq
  · cases hstatus
  · cases hstatus
  · refine ⟨hw.active_of_buffer _ desc hdesc htype,
      { y with mem, generation := argp.generation }, false, ?_, rfl, ?_, fun _ => ?_⟩
    · change (h.backend.setInstance _ _ _).instance? _ 0 = _
      rw [Backend.instance?_setInstance hy, if_pos ⟨rfl, by rw [hinst]; rfl⟩]
    · exact Event.latest_of_pick (if_pos rfl) _
    · unfold Backend.writeMem at hmem
      rw [hoff] at hmem
      split_ifs at hmem
      exact splice_zero hmem

theorem runOn_of_not_mem {argp : DispatchOp} {contents : List (List Byte)}
    (hsid : sid ∉ argp.args.map KernelArg.sid) (x : VMWOpenCLSurfaceInstance) :
    Backend.runOn argp contents sid.toNat 0 x = x := by
  unfold Backend.runOn
  split
  · next k hk =>
    obtain ⟨hlt, hmatch, -⟩ := List.findIdx?_eq_some_iff_getElem.mp hk
    have heq : argp.args[k].sid = sid := BitVec.eq_of_toNat_eq (of_decide_eq_true hmatch).1
    exact absurd (List.mem_map.mpr ⟨_, List.getElem_mem hlt, heq⟩) hsid
  · rfl

theorem Holds.dispatch (hh : h.Holds sid generation bytes) {argp : DispatchOp}
    {r : StatusCode × Host} (hr : h.dispatch argp cl = .ok r) :
    r.2.Holds sid generation bytes := by
  obtain ⟨q, hq, hr⟩ := bind_eq_ok.mp hr
  cases hr
  rcases Backend.dispatch_ok hq with ⟨hstatus, heq⟩ | ⟨contents, -, rfl⟩
  · unfold record
    rw [if_neg hstatus, heq]
    exact hh
  · obtain ⟨hact, x, ran, hx, hgen, hlast, hmem⟩ := hh
    refine ⟨hact, Backend.runOn argp contents sid.toNat 0 x,
      ran || decide (sid ∈ argp.args.map KernelArg.sid), ?_, ?_, ?_, fun hran => ?_⟩
    · change (h.backend.runKernel _ _).instance? _ _ = _
      rw [Backend.instance?_runKernel, hx]
      rfl
    · rw [Backend.runOn_generation, hgen]
    · change Event.latest _ _ (.ran _ :: h.trace) = _
      rw [Event.latest_of_not_pick rfl, hlast]
      rfl
    · obtain ⟨hran, hsid⟩ := Bool.or_eq_false_iff.mp hran
      rw [runOn_of_not_mem (of_decide_eq_false hsid)]
      exact hmem hran

end Host

end VMAccel
