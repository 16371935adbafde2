import VMAccel.ClientTracking

/-!
# No update of the application is lost

`download_surface` maps the surface with the generation of the client, also when the server is
behind, and overwrites the backing: an update that has not been sent yet is lost. When no download
runs over an unsent update, and the generation does not wrap, every update reaches the server as it
was uploaded, and the next kernel runs on it.
-/

namespace VMAccel.Client

open StepSystem

variable {c : Client} {surf : Surface} {k i : ℕ} {net : Net}

def Settled (c : Client) (surf : Surface) : Prop :=
  ¬ surf.consistencyDB.Active c.contextId → c.update surf = none

instance (c : Client) (surf : Surface) : Decidable (c.Settled surf) :=
  inferInstanceAs (Decidable (¬ _ → _))

theorem Tracks.fill (ht : Tracks c surf) (hs : c.Settled surf) {host : Host} {bytes : List Byte}
    (hlen : bytes.length = surf.desc.width.toNat)
    (hfits : host.Fits surf.id surf.desc.width.toNat surf.generation)
    (hcur : host.Current surf.id surf.generation bytes)
    (hup : Event.latest (Event.updateOf surf.id) surf.id host.trace = c.update surf)
    (hmem : ∀ mem, c.host.Current surf.id surf.generation mem → bytes = mem) :
    Tracks { c with host, surfaces := c.surfaces.set 0 (surf.memcpyIn bytes) }
        (surf.memcpyIn bytes) ∧
      Settled { c with host, surfaces := c.surfaces.set 0 (surf.memcpyIn bytes) }
        (surf.memcpyIn bytes) := by
  have hactive : ∀ {bytes₀ ran}, c.update surf = some (bytes₀, ran) →
      surf.consistencyDB.Active c.contextId := by
    intro bytes₀ ran hu
    by_contra hact
    cases (hs hact).symm.trans hu
  refine ⟨⟨ht.set_surfaces _, ht.size, hfits, fun _ => ⟨_, hcur⟩, fun bytes₀ ran hu hran => ?_,
    fun bytes₀ hu hact => ?_⟩, fun h => hup.trans (hs h)⟩
  · have hu' : c.update surf = some (bytes₀, ran) := hup.symm.trans hu
    obtain rfl : ran = false := hran.resolve_left (not_not.mpr (hactive hu'))
    rw [Surface.memcpyIn_backing hlen, hmem bytes₀ (ht.content_eq bytes₀ hu' (hactive hu'))]
  · rw [← hmem bytes₀ (ht.content_eq bytes₀ (hup.symm.trans hu) hact)]
    exact hcur

theorem Tracks.downloadMapped (ht : Tracks c surf) (hs : c.Settled surf) (hn : net.Reliable)
    {r : Bool × Client} (hr : c.downloadMapped 0 surf net i = .ok r) :
    ∃ surf', Tracks r.2 surf' ∧ Settled r.2 surf' := by
  obtain ⟨-, -, hr⟩ := bind_eq_ok.mp hr
  obtain ⟨q, hq, hr⟩ := bind_eq_ok.mp hr
  rw [hn.surfacemap] at hq
  obtain ⟨p, hp, rfl⟩ := Answer.call_served hq
  obtain ⟨_, _, ptr, _, _, _, _, hsuccess⟩ := Host.Fits.surfacemap ht.fits rfl rfl hp
  have hp₁ : p.1 = (.success, some ptr) := congrArg Prod.fst hsuccess
  rw [hp₁] at hr
  obtain ⟨bytes, hbytes, hr⟩ := bind_eq_ok.mp hr
  obtain ⟨u, hu, hr⟩ := bind_eq_ok.mp hr
  rw [hn.surfaceunmap] at hu
  obtain ⟨v, hv, rfl⟩ := Answer.call_served hu
  cases hr
  have hderef : p.2.deref (mapOp surf false).sid (mapOp surf false).size.toNat p.1.2 =
      .ok bytes := by
    rw [hp₁]
    exact hbytes
  obtain ⟨hlen, hmem⟩ := Host.Fits.deref ht.fits rfl rfl hp hderef
  obtain ⟨hfits, hcur, htrace⟩ := Host.Fits.map_unmap ht.fits rfl rfl rfl rfl rfl hlen hp hv
  refine ⟨_, ht.fill hs hlen hfits hcur ?_ hmem⟩
  rw [htrace, Event.latest_of_idle rfl rfl]
  rfl

theorem Tracks.downloadImage (ht : Tracks c surf) (hs : c.Settled surf) (hn : net.Reliable)
    {r : Bool × Client} (hr : c.downloadImage 0 surf net i = .ok r) :
    ∃ surf', Tracks r.2 surf' ∧ Settled r.2 surf' := by
  obtain ⟨q, hq, hr⟩ := bind_eq_ok.mp hr
  rw [hn.imagedownload] at hq
  obtain ⟨⟨reply, host⟩, hp, rfl⟩ := Answer.call_served hq
  obtain ⟨heq, hsuccess⟩ := Host.Fits.imagedownload ht.fits rfl rfl hp
  obtain rfl : host = c.host := heq
  dsimp only at hr
  split at hr
  · next bytes _ hreply =>
    obtain rfl : reply = (.success, bytes) := Option.some.inj hreply
    cases hr
    obtain ⟨hlen, hcur⟩ := hsuccess rfl
    exact ⟨_, ht.fill hs hlen ht.fits hcur rfl fun _ h => hcur.unique h⟩
  · cases hr
    exact ⟨surf, ht, hs⟩

theorem Tracks.downloadSurface (ht : Tracks c surf) (hs : ∀ surf ∈ c.surfaces[k]?, c.Settled surf)
    (hn : net.Reliable) {force imgDownload : Bool} {r : Bool × Client}
    (hr : c.downloadSurface k force imgDownload net i = .ok r) :
    ∃ surf', Tracks r.2 surf' ∧ Settled r.2 surf' := by
  obtain ⟨surf', hsurf', hr⟩ := bind_eq_ok.mp hr
  have hset : c.Settled surf' := hs surf' (readAt_ok.mp hsurf')
  obtain ⟨rfl, rfl⟩ := ht.getElem? (readAt_ok.mp hsurf')
  split_ifs at hr
  · exact ht.downloadMapped hset hn hr
  · exact ht.downloadImage hset hn hr
  · cases hr
    exact ⟨surf', ht, hset⟩

theorem quiesceArg_settled (hn : net.Reliable) {c' : Client} {b : (ℕ × KernelArg) × ℕ}
    (h : ∃ surf, Tracks c surf ∧ Settled c surf) (hb : quiesceArg net c b = .ok c') :
    ∃ surf, Tracks c' surf ∧ Settled c' surf := by
  obtain ⟨surf, ht, hs⟩ := h
  unfold quiesceArg at hb
  dsimp only at hb
  split_ifs at hb
  · cases hb
    exact ⟨surf, ht, hs⟩
  · obtain ⟨q, hq, hb⟩ := bind_eq_ok.mp hb
    cases hb
    refine ht.downloadSurface (fun surf' hsurf' => ?_) hn hq
    obtain ⟨-, rfl⟩ := ht.getElem? hsurf'
    exact hs

theorem Tracks.quiesce (ht : Tracks c surf) (hn : net.Reliable) {o : ℕ}
    (hs : ∀ op, c.operations[o]? = some op → op.dispatched = true → op.quiesced = false →
      c.Settled surf) {r : StatusCode × Client} (hr : c.quiesce o net = .ok r) :
    ∃ surf', Tracks r.2 surf' := by
  obtain ⟨op, hop, hr⟩ := bind_eq_ok.mp hr
  split_ifs at hr with hquiesced hdispatched
  · cases hr
    exact ⟨surf, ht⟩
  · obtain ⟨c', hc', hr⟩ := bind_eq_ok.mp hr
    cases hr
    have hset := hs op (readAt_ok.mp hop) hdispatched (Bool.eq_false_iff.mpr hquiesced)
    obtain ⟨surf', ht', -⟩ := run_invariant (fun _ _ _ h _ => quiesceArg_settled hn h)
      ⟨surf, ht, hset⟩ (eachInput_true _ _) hc'
    exact ⟨surf', ht'.of_operations _⟩
  · cases hr
    exact ⟨surf, ht⟩

theorem Tracks.upload (ht : Tracks c surf)
    (hwrap : ∀ surf ∈ c.surfaces[k]?, surf.generation ≠ BitVec.allOnes 32)
    {imgRegion : VMAccelSurfaceRegion} {elemSize : ℕ} {input : List Byte} {r : StatusCode × Client}
    (hr : c.upload k imgRegion elemSize input = .ok r) : ∃ surf', Tracks r.2 surf' := by
  obtain ⟨surf₀, hsurf, hr⟩ := bind_eq_ok.mp hr
  have hne := hwrap surf₀ (readAt_ok.mp hsurf)
  obtain ⟨rfl, rfl⟩ := ht.getElem? (readAt_ok.mp hsurf)
  obtain ⟨q, hq, hr⟩ := bind_eq_ok.mp hr
  cases hr
  rcases Surface.upload_ok ht.size hq with rfl | ⟨db, hsize, hclear, rfl⟩
  · exact ⟨surf₀, ht.set_surfaces _, ht.size, ht.fits, ht.marked, ht.backing_eq, ht.content_eq⟩
  · have hle : surf₀.generation ≤ surf₀.generation + 1 := by
      have hlt : surf₀.generation.toNat ≠ 2 ^ 32 - 1 := fun h => hne (BitVec.eq_of_toNat_eq h)
      rw [BitVec.le_def, BitVec.toNat_add]
      change _ ≤ (surf₀.generation.toNat + 1) % 2 ^ 32
      omega
    refine ⟨{ surf₀.memcpyIn input with consistencyDB := db, generation := surf₀.generation + 1 },
      ht.set_surfaces _, hsize, ht.fits.mono hle _, fun h => absurd h (hclear _),
      fun bytes ran hu _ => ?_, fun _ _ h => absurd h (hclear _)⟩
    have hlast : Event.latest (Event.updateOf surf₀.id) surf₀.id
        (.updated surf₀.id (surf₀.memcpyIn input).backing :: c.host.trace) =
          some ((surf₀.memcpyIn input).backing, false) :=
      Event.latest_of_pick (if_pos rfl) _
    exact congrArg Prod.fst (Option.some.inj (hlast.symm.trans hu))

theorem tracks_start {db : IdentifierDB} {desc : VMAccelSurfaceDesc} {init : ℕ → Byte}
    (hs : constructSurfaces db [(desc, init)] = .ok [surf]) (isLocal : Bool)
    (contextId : VMAccelId) (svmCapable : Bool) :
    Tracks (start isLocal contextId svmCapable db.size [surf]) surf := by
  have hcdb : surf.consistencyDB = .alloc db.size :=
    ((constructSurfaces_ok hs).1 surf (List.mem_singleton_self _)).1
  have hclear : ∀ id, ¬ surf.consistencyDB.Active id := fun id h => by
    rw [hcdb] at h
    exact absurd ((IdentifierDB.bit_alloc _ _).symm.trans h.2) Bool.false_ne_true
  refine ⟨rfl, ?_, Host.fits_powerOn _ _ _, fun h => absurd h (hclear _), fun _ _ hu => ?_,
    fun _ hu => ?_⟩
  · rw [hcdb]
    rfl
  · cases hu
  · cases hu

/-- Every request of the action is served. -/
def Action.Reliable : Action → Prop
  | .call (.upload _ _ _ _) | .call (.prepare _ _) => True
  | .call (.allocSurface _ net) | .call (.uploadSurface _ _ net) | .call (.dispatch _ _ net)
  | .downloadSurface _ _ _ net | .quiesce _ net => net.Reliable

/-- Content is taken back from the server only when no update waits to be sent, and an upload does
not wrap the generation. -/
def Careful (c : Client) : Action → Prop
  | .call (.upload k _ _ _) => ∀ surf ∈ c.surfaces[k]?, surf.generation ≠ BitVec.allOnes 32
  | .downloadSurface k _ _ _ => ∀ surf ∈ c.surfaces[k]?, c.Settled surf
  | .quiesce o _ => ∀ op ∈ c.operations[o]?, op.dispatched = true → op.quiesced = false →
    ∀ surf ∈ c.surfaces, c.Settled surf
  | _ => True

instance (c : Client) : (a : Action) → Decidable (c.Careful a)
  | .call (.upload _ _ _ _) => inferInstanceAs (Decidable (∀ _ ∈ (_ : Option _), _))
  | .downloadSurface _ _ _ _ => inferInstanceAs (Decidable (∀ _ ∈ (_ : Option _), _))
  | .quiesce _ _ => inferInstanceAs (Decidable (∀ _ ∈ (_ : Option _), _))
  | .call (.allocSurface _ _) | .call (.uploadSurface _ _ _) | .call (.prepare _ _)
  | .call (.dispatch _ _ _) => .isTrue trivial

theorem Tracks.step (ht : Tracks c surf) {a : Action} (hrel : a.Reliable) (hcare : c.Careful a)
    {c' : Client} (h : c.step a = .ok c') : ∃ surf', Tracks c' surf' := by
  rcases a with (⟨k, imgRegion, elemSize, input⟩ | ⟨k, net⟩ | ⟨k, force, net⟩ |
    ⟨bindings, kernel⟩ | ⟨o, force, net⟩) | ⟨k, force, imgDownload, net⟩ | ⟨o, net⟩
  · obtain ⟨r, hr, h⟩ := bind_eq_ok.mp h
    cases h
    exact ht.upload hcare hr
  · obtain ⟨r, hr, h⟩ := bind_eq_ok.mp h
    cases h
    obtain ⟨host, db, rfl, ht', -⟩ := ht.allocSurface hrel hr
    exact ⟨surf, ht'⟩
  · obtain ⟨r, hr, h⟩ := bind_eq_ok.mp h
    cases h
    rcases ht.uploadSurface hrel hr with ⟨-, -, rfl⟩ | ⟨rfl, -, hsent⟩
    · exact ⟨surf, ht⟩
    · obtain ⟨-, -, db, ht'⟩ := ht.of_sent hsent
      exact ⟨_, ht'⟩
  · cases h
    exact ⟨surf, ht.of_operations _⟩
  · obtain ⟨r, hr, h⟩ := bind_eq_ok.mp h
    cases h
    exact (ht.dispatch hrel hr).1
  · obtain ⟨r, hr, h⟩ := bind_eq_ok.mp h
    cases h
    obtain ⟨surf', ht', -⟩ := ht.downloadSurface hcare hrel hr
    exact ⟨surf', ht'⟩
  · obtain ⟨r, hr, h⟩ := bind_eq_ok.mp h
    cases h
    exact ht.quiesce hrel (fun op hop hd hq => hcare op hop hd hq surf
      (by rw [ht.surfaces]; exact List.mem_singleton_self _)) hr

/-- The content of the surface on the server. -/
def content (c : Client) (surf : Surface) : Option (List Byte) :=
  (c.host.backend.instance? surf.id.toNat 0).map VMWOpenCLSurfaceInstance.mem

/-- An update that is still unsent reaches the server as it was uploaded, and a dispatch runs its
kernel on the last update unless a kernel has run on that already. -/
def KeepsUpdate (c : Client) (a : Action) : Prop :=
  ∀ c' surf bytes ran, c.step a = .ok c' → c.surfaces = [surf] →
    c.update surf = some (bytes, ran) →
    match a with
    | .call (.uploadSurface _ _ _) => ¬ surf.consistencyDB.Active c.contextId →
      surf.backing = bytes ∧ c'.content surf = some bytes
    | .call (.dispatch o force _) => ∀ op, c.operations[o]? = some op →
      (op.dispatched = true → force = true) → op.bindings ≠ [] →
      (¬ surf.consistencyDB.Active c.contextId ∨ ran = false) →
      surf.backing = bytes ∧ c'.content surf = some (op.output bytes)
    | _ => True

theorem content_of_current {mem : List Byte}
    (h : c.host.Current surf.id surf.generation mem) : c.content surf = some mem := by
  obtain ⟨-, x, -, -, hx, -, rfl⟩ := h
  rw [content, hx]
  rfl

theorem Tracks.keepsUpdate (ht : Tracks c surf) {a : Action} (hrel : a.Reliable) :
    c.KeepsUpdate a := by
  intro c' surf' bytes ran h hsurf hup
  obtain rfl : surf = surf' := List.singleton_injective (ht.surfaces.symm.trans hsurf)
  rcases a with (_ | _ | ⟨k, force, net⟩ | _ | ⟨o, force, net⟩) | _ | _
  case call.uploadSurface =>
    intro hact
    obtain ⟨r, hr, h⟩ := bind_eq_ok.mp h
    cases h
    have hback := ht.backing_eq bytes ran hup (Or.inl hact)
    rcases ht.uploadSurface hrel hr with ⟨h, -⟩ | ⟨rfl, -, hsent⟩
    · exact absurd h hact
    · obtain ⟨-, hcur, -⟩ := ht.of_sent hsent
      exact ⟨hback, content_of_current (hback ▸ hcur)⟩
  case call.dispatch =>
    intro op hop hforce hne hran
    obtain ⟨r, hr, h⟩ := bind_eq_ok.mp h
    cases h
    have hback := ht.backing_eq bytes ran hup hran
    exact ⟨hback, content_of_current
      ((ht.dispatch hrel hr).2 op hop hforce hne bytes (ht.sends_update hup hran))⟩
  all_goals trivial

/-- In every run with one surface whose requests are all served, whose downloads never run over an
unsent update and whose generation does not wrap, every update that is sent reaches the server and
the next kernel as it was uploaded. -/
theorem updates_reach_server {db : IdentifierDB} {desc : VMAccelSurfaceDesc} {init : ℕ → Byte}
    (hs : constructSurfaces db [(desc, init)] = .ok [surf]) (isLocal : Bool)
    (contextId : VMAccelId) (svmCapable : Bool) (as : List Action) (hrel : ∀ a ∈ as, a.Reliable)
    (hcare : EachInput step Careful (start isLocal contextId svmCapable db.size [surf]) as) :
    EachInput step KeepsUpdate (start isLocal contextId svmCapable db.size [surf]) as :=
  eachInput_of_invariant (I := fun c => ∃ surf, Tracks c surf)
    (fun _ _ ⟨_, ht⟩ hC => ht.keepsUpdate hC.1) (fun _ _ _ ⟨_, ht⟩ hC h => ht.step hC.1 hC.2 h)
    ⟨surf, tracks_start hs isLocal contextId svmCapable⟩ (hcare.and_forall hrel)

def demoKernel (contents : List (List Byte)) (k j : ℕ) : Byte := (contents.getD k []).getD j 0 + 100

def demoActions : List Action :=
  [.call (.prepare [0] demoKernel), .call (.prepare [0] demoKernel),
    .call (.upload 0 demoRegion 1 [1, 2]), .call (.dispatch 0 false (demoNet true)),
    .call (.upload 0 demoRegion 1 [3, 4])]

/-- Taking back the output of the first operation overwrites the second upload, and the second
operation runs on the output of the first one. -/
theorem quiesce_loses_update :
    (∃ c, run step (start false 7 false 48 [demoSurface])
        (demoActions ++ [.quiesce 0 (demoNet true)]) = .ok c ∧
      ∃ surf ∈ c.surfaces, ¬ surf.consistencyDB.Active c.contextId ∧
        c.update surf = some ([3, 4], false) ∧ surf.backing = [101, 102]) ∧
    (∃ c, run step (start false 7 false 48 [demoSurface])
        (demoActions ++ [.quiesce 0 (demoNet true), .call (.dispatch 1 false (demoNet true))]) =
          .ok c ∧
      ∃ surf ∈ c.surfaces, surf.backing = [101, 102] ∧ c.content surf = some [201, 202]) := by
  decide +kernel

theorem reliable_demoNet : (demoNet true).Reliable :=
  ⟨fun _ => rfl, fun _ => rfl, fun _ => rfl, fun _ => rfl, fun _ => rfl, fun _ => rfl, fun _ => rfl⟩

/-- With the second dispatch before the quiesce both updates reach their kernel. -/
theorem updates_reach_server_demo :
    EachInput step Careful (start false 7 false 48 [demoSurface])
        (demoActions ++ [.call (.dispatch 1 false (demoNet true)), .quiesce 0 (demoNet true)]) ∧
      EachInput step KeepsUpdate (start false 7 false 48 [demoSurface])
        (demoActions ++ [.call (.dispatch 1 false (demoNet true)), .quiesce 0 (demoNet true)]) := by
  have hcare : EachInput step Careful (start false 7 false 48 [demoSurface])
      (demoActions ++ [.call (.dispatch 1 false (demoNet true)), .quiesce 0 (demoNet true)]) := by
    decide +kernel
  refine ⟨hcare, updates_reach_server construct_demoSurface false 7 false _ ?_ hcare⟩
  simp [demoActions, Action.Reliable, reliable_demoNet]

end VMAccel.Client
