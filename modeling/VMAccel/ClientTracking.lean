import VMAccel.ClientSpec
import VMAccel.HostServed

/-!
# One surface under requests that are all served

`Tracks` relates the one surface of a client, the server and the trace. It says where the bytes of
the last `surface::upload` are: in the backing until they are sent, and on the server until a
kernel runs on them. The calls that send content keep it, and a dispatch runs its kernel on what
`Sends` names.
-/

namespace VMAccel

open StepSystem

/-- Every request is served and every OpenCL command succeeds. -/
structure Net.Reliable (net : Net) : Prop where
  surfacealloc : ∀ i, net.surfacealloc i = .served true
  imageupload : ∀ i, net.imageupload i = .served true
  imagedownload : ∀ i, net.imagedownload i = .served true
  surfacemap : ∀ i, net.surfacemap i = .served true
  surfaceunmap : ∀ i, net.surfaceunmap i = .served true
  dispatch : ∀ i, net.dispatch i = .served true
  argSet : ∀ i, net.argSet i = true

theorem Surface.memcpyIn_backing {surf : Surface} {input : List Byte}
    (h : input.length = surf.desc.width.toNat) : (surf.memcpyIn input).backing = input := by
  change input.take surf.desc.width.toNat ++ surf.backing.drop input.length = input
  rw [← h, List.take_length, h, ← surf.length_backing, List.drop_length, List.append_nil]

def Operation.output (op : Operation) (mem : List Byte) : List Byte :=
  (List.range mem.length).map (op.kernel (List.replicate op.bindings.length mem) 0)

namespace Client

/-- The bytes of the last `surface::upload`, and whether a kernel has run on the surface since. -/
def update (c : Client) (surf : Surface) : Option (List Byte × Bool) :=
  Event.latest (Event.updateOf surf.id) surf.id c.host.trace

/-- The client has the one surface, its backing has the last update while that is unsent or no
kernel has run on it, and so has the server once the surface is consistent. -/
structure Tracks (c : Client) (surf : Surface) : Prop where
  surfaces : c.surfaces = [surf]
  size : surf.consistencyDB.size = c.maxRefObjects
  fits : c.host.Fits surf.id surf.desc.width.toNat surf.generation
  marked : surf.consistencyDB.Active c.contextId →
    ∃ mem, c.host.Current surf.id surf.generation mem
  backing_eq : ∀ bytes ran, c.update surf = some (bytes, ran) →
    (¬ surf.consistencyDB.Active c.contextId ∨ ran = false) → surf.backing = bytes
  content_eq : ∀ bytes, c.update surf = some (bytes, false) →
    surf.consistencyDB.Active c.contextId → c.host.Current surf.id surf.generation bytes

def Sends (c : Client) (surf : Surface) (mem : List Byte) : Prop :=
  (surf.consistencyDB.Active c.contextId → c.host.Current surf.id surf.generation mem) ∧
    (¬ surf.consistencyDB.Active c.contextId → surf.backing = mem)

variable {c : Client} {surf : Surface} {k i : ℕ} {net : Net}

theorem Tracks.getElem? (ht : Tracks c surf) {surf' : Surface} (hk : c.surfaces[k]? = some surf') :
    k = 0 ∧ surf' = surf := by
  rw [ht.surfaces] at hk
  cases k with
  | zero => exact ⟨rfl, (Option.some.inj hk).symm⟩
  | succ k => simp at hk

theorem Tracks.set_surfaces (ht : Tracks c surf) (surf' : Surface) :
    c.surfaces.set 0 surf' = [surf'] := by
  rw [ht.surfaces]
  rfl

theorem Tracks.exists_sends (ht : Tracks c surf) : ∃ mem, Sends c surf mem := by
  by_cases hact : surf.consistencyDB.Active c.contextId
  · obtain ⟨mem, hmem⟩ := ht.marked hact
    exact ⟨mem, fun _ => hmem, fun h => absurd hact h⟩
  · exact ⟨surf.backing, fun h => absurd h hact, fun _ => rfl⟩

theorem Tracks.sends_update (ht : Tracks c surf) {bytes : List Byte} {ran : Bool}
    (hup : c.update surf = some (bytes, ran))
    (hran : ¬ surf.consistencyDB.Active c.contextId ∨ ran = false) : Sends c surf bytes := by
  refine ⟨fun hact => ?_, fun _ => ht.backing_eq bytes ran hup hran⟩
  obtain rfl := hran.resolve_left (not_not.mpr hact)
  exact ht.content_eq bytes hup hact

theorem Tracks.of_host (ht : Tracks c surf) {host : Host}
    (hfits : host.Fits surf.id surf.desc.width.toNat surf.generation)
    (hcur : ∀ mem, c.host.Current surf.id surf.generation mem →
      host.Current surf.id surf.generation mem)
    (hup : Event.latest (Event.updateOf surf.id) surf.id host.trace = c.update surf)
    (db : IdentifierDB) (ops : List Operation) :
    Tracks { c with host, residencyDB := db, operations := ops } surf where
  surfaces := ht.surfaces
  size := ht.size
  fits := hfits
  marked h := (ht.marked h).imp hcur
  backing_eq bytes ran hu := ht.backing_eq bytes ran (hup.symm.trans hu)
  content_eq bytes hu h := hcur _ (ht.content_eq bytes (hup.symm.trans hu) h)

theorem Tracks.of_operations (ht : Tracks c surf) (ops : List Operation) :
    Tracks { c with operations := ops } surf :=
  ht.of_host ht.fits (fun _ h => h) rfl _ ops

theorem Tracks.allocSurface (ht : Tracks c surf) (hn : net.Reliable) {r : Bool × Client}
    (hr : c.allocSurface k net i = .ok r) :
    ∃ host db, r = (true, { c with host, residencyDB := db }) ∧
      Tracks { c with host, residencyDB := db } surf ∧
      ∀ mem, c.host.Current surf.id surf.generation mem →
        host.Current surf.id surf.generation mem := by
  obtain ⟨surf', hk, rfl | ⟨q, hq, hr⟩⟩ := allocSurface_ok hr
  · exact ⟨c.host, c.residencyDB, rfl, ht, fun _ h => h⟩
  · obtain ⟨-, rfl⟩ := ht.getElem? hk
    rw [hn.surfacealloc] at hq
    obtain ⟨p, hp, rfl⟩ := Answer.call_served hq
    obtain ⟨hfits, hcur, htrace⟩ := ht.fits.surfacealloc rfl rfl hp
    rcases hr with ⟨hnone, -⟩ | ⟨-, db, -, rfl⟩
    · cases hnone
    · refine ⟨p.2, db, rfl, ht.of_host hfits hcur ?_ db _, hcur⟩
      rw [htrace]
      rfl

/-- The surface has been sent to the server and marked consistent. -/
def Sent (c : Client) (k : ℕ) (surf : Surface) (r : Bool × Client) : Prop :=
  ∃ host surf', surf.setConsistency c.contextId true = .ok surf' ∧
    r = (true, { c with host, surfaces := c.surfaces.set k surf' }) ∧
    host.Fits surf.id surf.desc.width.toNat surf.generation ∧
    host.Current surf.id surf.generation surf.backing ∧
    host.trace = .stored surf.id surf.backing :: c.host.trace

theorem sent_uploadImage (hf : c.host.Fits surf.id surf.desc.width.toNat surf.generation)
    (hn : net.Reliable) {r : Bool × Client} (hr : c.uploadImage k surf net i = .ok r) :
    Sent c k surf r := by
  obtain ⟨q, hq, hr⟩ := uploadImage_ok hr
  rw [hn.imageupload] at hq
  obtain ⟨p, hp, rfl⟩ := Answer.call_served hq
  obtain ⟨hfits, hcur, htrace⟩ := Host.Fits.imageupload hf rfl rfl surf.length_backing hp
  rcases hr with ⟨hnone, -⟩ | ⟨-, surf', -, hset, rfl⟩
  · cases hnone
  · exact ⟨p.2, surf', hset, rfl, hfits, hcur, htrace⟩

theorem sent_uploadMapped (hf : c.host.Fits surf.id surf.desc.width.toNat surf.generation)
    (hn : net.Reliable) {r : Bool × Client} (hr : c.uploadMapped k surf net i = .ok r) :
    Sent c k surf r := by
  obtain ⟨q, hq, hr⟩ := bind_eq_ok.mp hr
  rw [hn.surfacemap] at hq
  obtain ⟨p, hp, rfl⟩ := Answer.call_served hq
  obtain ⟨_, _, ptr, _, _, _, _, hsuccess⟩ := Host.Fits.surfacemap hf rfl rfl hp
  rw [show p.1 = (.success, some ptr) from congrArg Prod.fst hsuccess] at hr
  obtain ⟨u, hu, hr⟩ := bind_eq_ok.mp hr
  rw [hn.surfaceunmap] at hu
  obtain ⟨v, hv, rfl⟩ := Answer.call_served hu
  obtain ⟨hfits, hcur, htrace⟩ :=
    Host.Fits.map_unmap hf rfl rfl rfl rfl rfl surf.length_backing hp hv
  obtain ⟨c', hc', hr⟩ := bind_eq_ok.mp hr
  obtain ⟨surf', hset, hc'⟩ := bind_eq_ok.mp hc'
  cases hc'
  cases hr
  exact ⟨v.2, surf', hset, rfl, hfits, hcur, htrace⟩

theorem sent_uploadSurface (hk : c.surfaces[k]? = some surf)
    (hf : c.host.Fits surf.id surf.desc.width.toNat surf.generation) (hn : net.Reliable)
    {force : Bool} {r : Bool × Client} (hr : c.uploadSurface k force net i = .ok r) :
    (surf.consistencyDB.Active c.contextId ∧ force = false ∧ r = (true, c)) ∨
      ((surf.consistencyDB.Active c.contextId → force = true) ∧ Sent c k surf r) := by
  obtain ⟨surf', hk', hcase⟩ := uploadSurface_ok hr
  obtain rfl := Option.some.inj (hk.symm.trans hk')
  rcases hcase with h | ⟨hforce, ⟨-, hr⟩ | ⟨-, hr⟩⟩
  · exact Or.inl h
  · exact Or.inr ⟨hforce, sent_uploadMapped hf hn hr⟩
  · exact Or.inr ⟨hforce, sent_uploadImage hf hn hr⟩

theorem Tracks.uploadSurface (ht : Tracks c surf) (hn : net.Reliable) {force : Bool}
    {r : Bool × Client} (hr : c.uploadSurface k force net i = .ok r) :
    (surf.consistencyDB.Active c.contextId ∧ force = false ∧ r = (true, c)) ∨
      (k = 0 ∧ (surf.consistencyDB.Active c.contextId → force = true) ∧ Sent c k surf r) := by
  obtain ⟨surf', hk, -⟩ := uploadSurface_ok hr
  obtain ⟨rfl, rfl⟩ := ht.getElem? hk
  exact (sent_uploadSurface hk ht.fits hn hr).imp_right fun h => ⟨rfl, h⟩

theorem Tracks.of_sent (ht : Tracks c surf) {r : Bool × Client} (hs : Sent c 0 surf r) :
    r.1 = true ∧ r.2.host.Current surf.id surf.generation surf.backing ∧
      ∃ db, Tracks r.2 { surf with consistencyDB := db } := by
  obtain ⟨host, surf', hset, rfl, hfits, hcur, htrace⟩ := hs
  obtain ⟨db, rfl, hsize, hact⟩ := Surface.setConsistency_true hset
  have hup : Event.latest (Event.updateOf surf.id) surf.id host.trace = c.update surf := by
    rw [htrace, Event.latest_of_idle rfl rfl]
    rfl
  have hmono : surf.consistencyDB.Active c.contextId → db.Active c.contextId :=
    fun h => (hact _).mpr (Or.inl h)
  refine ⟨rfl, hcur, db, ht.set_surfaces _, hsize.trans ht.size, hfits, fun _ => ⟨_, hcur⟩,
    fun bytes ran hu hran => ?_, fun bytes hu _ => ?_⟩
  · exact ht.backing_eq bytes ran (hup.symm.trans hu) (hran.imp (fun h h' => h (hmono h')) id)
  · rw [← ht.backing_eq bytes false (hup.symm.trans hu) (Or.inr rfl)]
    exact hcur

theorem Tracks.prepareArg (ht : Tracks c surf) (hn : net.Reliable) {mem : List Byte}
    (hm : Sends c surf mem) {args : List KernelArg} {b : ℕ × ℕ} {p : Client × List KernelArg}
    (hr : prepareArg net (c, args) b = .ok p) :
    p.2 = args ++ [⟨true, surf.id, 0, surf.generation, true⟩] ∧
      p.1.host.Current surf.id surf.generation mem ∧
      ∃ db, Tracks p.1 { surf with consistencyDB := db } ∧
        Sends p.1 { surf with consistencyDB := db } mem := by
  obtain ⟨r, halloc, hr⟩ := bind_eq_ok.mp hr
  obtain ⟨host, rdb, rfl, ht₁, hcur⟩ := ht.allocSurface hn halloc
  obtain ⟨⟨done, c₂⟩, hup, hr⟩ := bind_eq_ok.mp hr
  rcases ht₁.uploadSurface hn hup with ⟨hact, -, heq⟩ | ⟨hk, hsend, hsent⟩
  · cases heq
    obtain ⟨surf', hsurf', hr⟩ := bind_eq_ok.mp hr
    obtain ⟨-, rfl⟩ := ht₁.getElem? (readAt_ok.mp hsurf')
    cases hr
    rw [hn.argSet]
    have hcur₁ : host.Current surf'.id surf'.generation mem := hcur mem (hm.1 hact)
    exact ⟨rfl, hcur₁, surf'.consistencyDB, ht₁, fun _ => hcur₁, hm.2⟩
  · rw [hk] at hsent
    obtain ⟨hdone, hcur₂, db, ht₂⟩ := ht₁.of_sent hsent
    obtain rfl : done = true := hdone
    obtain rfl : surf.backing = mem := hm.2 fun h => Bool.false_ne_true (hsend h)
    obtain ⟨surf', hsurf', hr⟩ := bind_eq_ok.mp hr
    obtain ⟨-, rfl⟩ := ht₂.getElem? (readAt_ok.mp hsurf')
    cases hr
    rw [hn.argSet]
    exact ⟨rfl, hcur₂, db, ht₂, fun _ => hcur₂, fun _ => rfl⟩

theorem Tracks.run_prepareArg (ht : Tracks c surf) (hn : net.Reliable) {mem : List Byte}
    (hm : Sends c surf mem) {bs : List (ℕ × ℕ)} {args : List KernelArg}
    {p : Client × List KernelArg} (hr : run (Client.prepareArg net) (c, args) bs = .ok p) :
    p.2 = args ++ List.replicate bs.length ⟨true, surf.id, 0, surf.generation, true⟩ ∧
      (bs ≠ [] → p.1.host.Current surf.id surf.generation mem) ∧
      ∃ db, Tracks p.1 { surf with consistencyDB := db } := by
  induction bs generalizing c surf args with
  | nil =>
    cases hr
    exact ⟨(List.append_nil _).symm, fun h => absurd rfl h, surf.consistencyDB, ht⟩
  | cons b bs ih =>
    obtain ⟨⟨c₁, args₁⟩, hb, hr⟩ := run_cons_ok.mp hr
    obtain ⟨rfl, hcur, db₁, ht₁, hm₁⟩ := ht.prepareArg hn hm hb
    obtain ⟨hargs, hcur₂, db₂, ht₂⟩ := ih ht₁ hm₁ hr
    refine ⟨?_, fun _ => ?_, db₂, ht₂⟩
    · rw [hargs, List.append_assoc, List.length_cons, List.replicate_succ]
      rfl
    · cases bs with
      | nil =>
        cases hr
        exact hcur
      | cons b' bs => exact hcur₂ (List.cons_ne_nil _ _)

theorem submit_served (hn : net.Reliable) {argp : DispatchOp} {n t : ℕ} {r : StatusCode × Client}
    (hr : submit argp net c (n + 1) t = .ok r) :
    ∃ q, c.host.dispatch argp true = .ok q ∧
      (q.1 ≠ .resourceUnavailable → r = (q.1, { c with host := q.2 })) := by
  obtain ⟨p, hp, hr⟩ := bind_eq_ok.mp hr
  rw [hn.dispatch] at hp
  obtain ⟨q, hq, rfl⟩ := Answer.call_served hp
  refine ⟨q, hq, fun hne => ?_⟩
  dsimp only at hr
  split at hr
  · next h => cases h
  · next h => exact absurd (Option.some.inj h) hne
  · next h =>
    cases h
    cases hr
    rfl

theorem update_ran {n : ℕ} (hn : 0 < n) (sid : VMAccelId) (trace : List Event) :
    Event.latest (Event.updateOf sid) sid (.ran (List.replicate n sid) :: trace) =
      (Event.latest (Event.updateOf sid) sid trace).map fun p => (p.1, true) := by
  rw [Event.latest_of_not_pick rfl]
  have hrun : (Event.ran (List.replicate n sid)).runsOn sid = true :=
    decide_eq_true (List.mem_replicate.mpr ⟨hn.ne', rfl⟩)
  simp [hrun]

theorem Tracks.submit (ht : Tracks c surf) (hn : net.Reliable) {argp : DispatchOp} {n m t : ℕ}
    (hargs : argp.args = List.replicate n ⟨true, surf.id, 0, surf.generation, true⟩)
    {mem : List Byte} (hcur : 0 < n → c.host.Current surf.id surf.generation mem)
    {r : StatusCode × Client} (hr : Client.submit argp net c (m + 1) t = .ok r) :
    Tracks r.2 surf ∧ (0 < n → r.2.host.Current surf.id surf.generation
      ((List.range mem.length).map (argp.kernel (List.replicate n mem) 0))) := by
  obtain ⟨⟨status, host⟩, hq, hne⟩ := submit_served hn hr
  have hfits : host.Fits surf.id surf.desc.width.toNat surf.generation := ht.fits.dispatch hq
  obtain ⟨hstatus, htrace, hcur'⟩ := Host.dispatch_replicate hargs hcur hq
  obtain rfl : status = .success := hstatus
  obtain rfl := hne StatusCode.noConfusion
  change host.trace = _ at htrace
  rcases Nat.eq_zero_or_pos n with rfl | hpos
  · have hother : surf.id ∉ argp.args.map KernelArg.sid := by
      rw [hargs]
      exact List.not_mem_nil
    have hup : Event.latest (Event.updateOf surf.id) surf.id host.trace = c.update surf := by
      rw [htrace, Event.latest_of_idle rfl rfl]
      rfl
    exact ⟨ht.of_host hfits (fun _ h => h.dispatch_other hother hq) hup _ _, hcur'⟩
  · have hup : ∀ bytes ran, Event.latest (Event.updateOf surf.id) surf.id host.trace =
        some (bytes, ran) → ran = true ∧ ∃ ran', c.update surf = some (bytes, ran') := by
      intro bytes ran hu
      rw [htrace, update_ran hpos] at hu
      obtain ⟨⟨bytes', ran'⟩, hu', heq⟩ := Option.map_eq_some_iff.mp hu
      cases heq
      exact ⟨rfl, ran', hu'⟩
    refine ⟨⟨ht.surfaces, ht.size, hfits, fun _ => ⟨_, hcur' hpos⟩, fun bytes ran hu hran => ?_,
      fun bytes hu => ?_⟩, hcur'⟩
    · obtain ⟨rfl, ran', hu'⟩ := hup bytes ran hu
      exact ht.backing_eq bytes ran' hu' (Or.inl (hran.resolve_right Bool.noConfusion))
    · exact absurd (hup bytes false hu).1 Bool.false_ne_true

theorem Tracks.dispatch (ht : Tracks c surf) (hn : net.Reliable) {o : ℕ} {force : Bool}
    {r : StatusCode × Client} (hr : c.dispatch o force net = .ok r) :
    (∃ surf', Tracks r.2 surf') ∧
      ∀ op, c.operations[o]? = some op → (op.dispatched = true → force = true) →
        op.bindings ≠ [] → ∀ mem, Sends c surf mem →
          r.2.host.Current surf.id surf.generation (op.output mem) := by
  obtain ⟨op, hop, hr⟩ := bind_eq_ok.mp hr
  have hop' := readAt_ok.mp hop
  split_ifs at hr with hskip
  · cases hr
    refine ⟨⟨surf, ht⟩, fun op₁ hop₁ hforce => ?_⟩
    obtain rfl := Option.some.inj (hop'.symm.trans hop₁)
    exact absurd (hforce hskip.1) hskip.2
  · obtain ⟨p, hp, hr⟩ := bind_eq_ok.mp hr
    obtain ⟨q, hq, hr⟩ := bind_eq_ok.mp hr
    cases hr
    -- what is submitted does not depend on the content, so each one can be followed by itself
    have hall : ∀ mem, Sends c surf mem → ∃ surf', Tracks q.2 surf' ∧
        (op.bindings ≠ [] → q.2.host.Current surf.id surf.generation (op.output mem)) := by
      intro mem hm
      obtain ⟨hargs, hcur, db, ht₁⟩ := ht.run_prepareArg hn hm hp
      rw [List.nil_append, List.length_zipIdx] at hargs
      rw [Ne, List.zipIdx_eq_nil_iff, ← Ne, ← List.length_pos_iff] at hcur
      obtain ⟨ht', hcur'⟩ := ht₁.submit hn hargs hcur hq
      exact ⟨_, ht', fun hne => hcur' (List.length_pos_iff.mpr hne)⟩
    obtain ⟨mem, hm⟩ := ht.exists_sends
    obtain ⟨surf', ht', -⟩ := hall mem hm
    refine ⟨⟨surf', ht'.of_operations _⟩, fun op₁ hop₁ _ hne mem hm => ?_⟩
    obtain rfl := Option.some.inj (hop'.symm.trans hop₁)
    obtain ⟨-, -, hout⟩ := hall mem hm
    exact hout hne

end Client

end VMAccel
