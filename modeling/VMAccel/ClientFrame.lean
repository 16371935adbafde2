import VMAccel.ClientSpec

/-!
# What the transfers of a context leave alone

Allocating, uploading and downloading surfaces changes the surfaces, the residency of the context
and the server, and nothing else of the client. On the server, whatever every single request keeps
is kept by the whole call.
-/

namespace VMAccel

open StepSystem

structure Host.Stable (P : Host → Prop) : Prop where
  surfacealloc : ∀ {h argp svmCapable cl fresh r}, P h →
    h.surfacealloc argp svmCapable cl fresh = .ok r → P r.2
  imageupload : ∀ {h argp cl r}, P h → h.imageupload argp cl = .ok r → P r.2
  imagedownload : ∀ {h argp cl r}, P h → h.imagedownload argp cl = .ok r → P r.2
  surfacemap : ∀ {h argp cl r}, P h → h.surfacemap argp cl = .ok r → P r.2
  surfaceunmap : ∀ {h argp cl r}, P h → h.surfaceunmap argp cl = .ok r → P r.2

namespace Client

structure Frame (c c' : Client) : Prop where
  isLocal : c'.isLocal = c.isLocal
  contextId : c'.contextId = c.contextId
  svmCapable : c'.svmCapable = c.svmCapable
  maxRefObjects : c'.maxRefObjects = c.maxRefObjects
  operations : c'.operations = c.operations
  host : ∀ P : Host → Prop, Host.Stable P → P c.host → P c'.host

variable {c : Client} {k i : ℕ} {net : Net}

theorem Frame.refl (c : Client) : Frame c c := ⟨rfl, rfl, rfl, rfl, rfl, fun _ _ h => h⟩

theorem Frame.trans {c₁ c₂ c₃ : Client} (h : Frame c₁ c₂) (h' : Frame c₂ c₃) : Frame c₁ c₃ where
  isLocal := h'.isLocal.trans h.isLocal
  contextId := h'.contextId.trans h.contextId
  svmCapable := h'.svmCapable.trans h.svmCapable
  maxRefObjects := h'.maxRefObjects.trans h.maxRefObjects
  operations := h'.operations.trans h.operations
  host P hP hc := h'.host P hP (h.host P hP hc)

theorem frame_of_host {host : Host} (hhost : ∀ P : Host → Prop, Host.Stable P → P c.host → P host)
    (db : IdentifierDB) (surfs : List Surface) :
    Frame c { c with residencyDB := db, surfaces := surfs, host := host } :=
  ⟨rfl, rfl, rfl, rfl, rfl, hhost⟩

theorem frame_allocSurface {r : Bool × Client} (hr : c.allocSurface k net i = .ok r) :
    Frame c r.2 := by
  obtain ⟨surf, -, rfl | ⟨q, hq, hr⟩⟩ := allocSurface_ok hr
  · exact .refl c
  · have hhost : ∀ P : Host → Prop, Host.Stable P → P c.host → P q.2 := fun P hP hc =>
      Answer.call_invariant hq hc fun _ _ hp => hP.surfacealloc hc hp
    rcases hr with ⟨-, rfl⟩ | ⟨status, db, -, rfl⟩
    · exact frame_of_host hhost _ _
    · exact frame_of_host hhost _ _

theorem frame_uploadImage {surf : Surface} {r : Bool × Client}
    (hr : c.uploadImage k surf net i = .ok r) : Frame c r.2 := by
  obtain ⟨q, hq, hr⟩ := uploadImage_ok hr
  have hhost : ∀ P : Host → Prop, Host.Stable P → P c.host → P q.2 := fun P hP hc =>
    Answer.call_invariant hq hc fun _ _ hp => hP.imageupload hc hp
  rcases hr with ⟨-, rfl⟩ | ⟨status, surf', -, -, rfl⟩
  · exact frame_of_host hhost _ _
  · exact frame_of_host hhost _ _

theorem frame_uploadMapped {surf : Surface} {r : Bool × Client}
    (hr : c.uploadMapped k surf net i = .ok r) : Frame c r.2 := by
  obtain ⟨p, hp, hr⟩ := bind_eq_ok.mp hr
  have hmap : ∀ P : Host → Prop, Host.Stable P → P c.host → P p.2 := fun P hP hc =>
    Answer.call_invariant hp hc fun _ _ hq => hP.surfacemap hc hq
  split at hr
  · obtain ⟨q, hq, hr⟩ := bind_eq_ok.mp hr
    have hunmap : ∀ P : Host → Prop, Host.Stable P → P c.host → P q.2 := fun P hP hc =>
      Answer.call_invariant hq (hmap P hP hc) fun _ _ hu => hP.surfaceunmap (hmap P hP hc) hu
    dsimp only at hr
    split at hr
    · cases hr
      exact frame_of_host hunmap _ _
    · obtain ⟨c', hc', hr⟩ := bind_eq_ok.mp hr
      obtain ⟨surf', -, hc'⟩ := bind_eq_ok.mp hc'
      cases hc'
      cases hr
      exact frame_of_host hunmap _ _
  · cases hr
    exact frame_of_host hmap _ _

theorem frame_uploadSurface {force : Bool} {r : Bool × Client}
    (hr : c.uploadSurface k force net i = .ok r) : Frame c r.2 := by
  obtain ⟨surf, -, ⟨-, -, rfl⟩ | ⟨-, ⟨-, hr⟩ | ⟨-, hr⟩⟩⟩ := uploadSurface_ok hr
  · exact .refl c
  · exact frame_uploadMapped hr
  · exact frame_uploadImage hr

theorem frame_downloadMapped {surf : Surface} {r : Bool × Client}
    (hr : c.downloadMapped k surf net i = .ok r) : Frame c r.2 := by
  obtain ⟨-, -, hr⟩ := bind_eq_ok.mp hr
  obtain ⟨p, hp, hr⟩ := bind_eq_ok.mp hr
  have hmap : ∀ P : Host → Prop, Host.Stable P → P c.host → P p.2 := fun P hP hc =>
    Answer.call_invariant hp hc fun _ _ hq => hP.surfacemap hc hq
  split at hr
  · obtain ⟨bytes, -, hr⟩ := bind_eq_ok.mp hr
    obtain ⟨q, hq, hr⟩ := bind_eq_ok.mp hr
    cases hr
    exact frame_of_host (fun P hP hc => Answer.call_invariant hq (hmap P hP hc)
      fun _ _ hu => hP.surfaceunmap (hmap P hP hc) hu) _ _
  · cases hr
    exact frame_of_host hmap _ _

theorem frame_downloadImage {surf : Surface} {r : Bool × Client}
    (hr : c.downloadImage k surf net i = .ok r) : Frame c r.2 := by
  obtain ⟨p, hp, hr⟩ := bind_eq_ok.mp hr
  have hhost : ∀ P : Host → Prop, Host.Stable P → P c.host → P p.2 := fun P hP hc =>
    Answer.call_invariant hp hc fun _ _ hq => hP.imagedownload hc hq
  dsimp only at hr
  split at hr
  · cases hr
    exact frame_of_host hhost _ _
  · cases hr
    exact frame_of_host hhost _ _

theorem frame_downloadSurface {force imgDownload : Bool} {r : Bool × Client}
    (hr : c.downloadSurface k force imgDownload net i = .ok r) : Frame c r.2 := by
  obtain ⟨surf, -, hr⟩ := bind_eq_ok.mp hr
  split_ifs at hr
  · exact frame_downloadMapped hr
  · exact frame_downloadImage hr
  · cases hr
    exact .refl c

theorem frame_prepareArg {p p' : Client × List KernelArg} {b : ℕ × ℕ}
    (hr : prepareArg net p b = .ok p') : Frame p.1 p'.1 := by
  obtain ⟨q, hq, hr⟩ := bind_eq_ok.mp hr
  have halloc := frame_allocSurface hq
  split_ifs at hr
  · obtain ⟨u, hu, hr⟩ := bind_eq_ok.mp hr
    have hup := halloc.trans (frame_uploadSurface hu)
    split_ifs at hr
    · obtain ⟨surf, -, hr⟩ := bind_eq_ok.mp hr
      cases hr
      exact hup
    · cases hr
      exact hup
  · cases hr
    exact halloc

theorem frame_run_prepareArg {p p' : Client × List KernelArg} {bs : List (ℕ × ℕ)}
    (hr : run (prepareArg net) p bs = .ok p') : Frame p.1 p'.1 :=
  run_invariant (I := fun q => Frame p.1 q.1) (C := fun _ _ => True)
    (fun _ _ _ h _ hs => h.trans (frame_prepareArg hs)) (.refl p.1) (eachInput_true _ _) hr

theorem submit_host {argp : DispatchOp} {n t : ℕ} {r : StatusCode × Client}
    (hr : submit argp net c n t = .ok r) : r.2 = { c with host := r.2.host } := by
  induction n generalizing c t with
  | zero =>
    cases hr
    rfl
  | succ n ih =>
    obtain ⟨q, -, hr⟩ := bind_eq_ok.mp hr
    dsimp only at hr
    split at hr
    · have h := ih hr
      exact h
    · have h := ih hr
      exact h
    · cases hr
      rfl

theorem dispatch_ok {o : ℕ} {force : Bool} {r : StatusCode × Client}
    (hr : c.dispatch o force net = .ok r) :
    ∃ op, c.operations[o]? = some op ∧
      ((op.dispatched = true ∧ force = false ∧ r = (.fail, c)) ∨
        ((op.dispatched = true → force = true) ∧ ∃ p q,
          run (prepareArg net) (c, []) op.bindings.zipIdx = .ok p ∧
          submit ⟨p.2, 1, op.kernel⟩ net p.1 retryMaxCount 0 = .ok q ∧
          r = (q.1, { q.2 with operations := c.operations.set o { op with
            kernelArgs := p.2, dispatched := op.dispatched || decide (q.1 = .success) } }))) := by
  obtain ⟨op, hop, hr⟩ := bind_eq_ok.mp hr
  refine ⟨op, readAt_ok.mp hop, ?_⟩
  split_ifs at hr with hskip
  · cases hr
    exact Or.inl ⟨hskip.1, Bool.eq_false_iff.mpr hskip.2, rfl⟩
  · obtain ⟨p, hp, hr⟩ := bind_eq_ok.mp hr
    obtain ⟨q, hq, hr⟩ := bind_eq_ok.mp hr
    cases hr
    refine Or.inr ⟨fun h => not_not.mp fun hf => hskip ⟨h, hf⟩, p, q, hp, hq, ?_⟩
    have hops : q.2.operations = c.operations := by
      rw [submit_host hq]
      exact (frame_run_prepareArg hp).operations
    rw [hops]

end Client

end VMAccel
