import VMAccel.ClientContents
import VMAccel.ClientUpdates

/-!
# What a client keeps of the contents of its surfaces

`Mirrors` relates a client and its server to the contents that its surfaces should have: a surface
that is marked consistent has its content on the server, and the backing has it as well unless a
kernel has left results that are still `away`. Transfers whose requests are all served keep the
contents. A download brings them home, and a kernel that runs on the server does to them what it
would do to memory of the application.
-/

namespace VMAccel

open StepSystem

namespace Host

structure Apart (h h' : Host) (sid : VMAccelId) : Prop where
  descs : ∀ j, j ≠ sid.toNat → h'.backend.descs[j]? = h.backend.descs[j]?
  instance? : ∀ j, j ≠ sid.toNat → h'.backend.instance? j 0 = h.backend.instance? j 0

variable {h h' : Host} {sid sid' : VMAccelId} {width : ℕ} {generation : BitVec 32}

theorem Apart.refl (h : Host) (sid : VMAccelId) : Apart h h sid :=
  ⟨fun _ _ => rfl, fun _ _ => rfl⟩

theorem Apart.trace (h : Host) (trace : List Event) (sid : VMAccelId) :
    Apart h ⟨h.backend, trace⟩ sid := ⟨fun _ _ => rfl, fun _ _ => rfl⟩

theorem Elsewhere.apart (he : Elsewhere h h' sid) : Apart h h' sid where
  descs _ _ := by rw [he.descs]
  instance? := he.instance?

theorem apart_surfacealloc {argp : SurfaceAllocateDesc} {svmCapable cl : Bool} {fresh : ℕ → Byte}
    {r : StatusCode × Host} (hr : h.surfacealloc argp svmCapable cl fresh = .ok r) :
    Apart h r.2 argp.sid := by
  obtain ⟨q, hq, hr⟩ := bind_eq_ok.mp hr
  cases hr
  rcases Backend.surfacealloc_ok hq with ⟨-, heq⟩ | ⟨-, -, hdescs, -, hinst⟩
  · rw [heq]
    exact .refl h argp.sid
  · refine ⟨fun j hj => ?_, fun j hj => ?_⟩
    · change q.2.descs[j]? = _
      rw [hdescs, List.getElem?_set_ne (Ne.symm hj)]
    · change q.2.instance? j 0 = _
      rw [hinst, if_neg hj, Option.map_id, id]

theorem Apart.fits (ha : Apart h h' sid) (hw : h'.backend.WellFormed) (hne : sid' ≠ sid)
    (hf : h.Fits sid' width generation) : h'.Fits sid' width generation := by
  have hne' : sid'.toNat ≠ sid.toNat := fun heq => hne (BitVec.eq_of_toNat_eq heq)
  refine ⟨hw, ?_, ?_, ?_⟩
  · rw [ha.instance? _ hne']
    exact hf.closed
  · rw [ha.descs _ hne', ha.instance? _ hne']
    exact hf.length_mem
  · rw [ha.instance? _ hne']
    exact hf.generation_le

theorem Apart.current (ha : Apart h h' sid) (hne : sid' ≠ sid) {mem : List Byte}
    (hcur : h.Current sid' generation mem) : h'.Current sid' generation mem := by
  have hne' : sid'.toNat ≠ sid.toNat := fun heq => hne (BitVec.eq_of_toNat_eq heq)
  unfold Current
  rw [ha.descs _ hne', ha.instance? _ hne']
  exact hcur

theorem Current.ne_invalidId {mem : List Byte} (hcur : h.Current sid generation mem)
    (hw : h.backend.WellFormed) : sid ≠ invalidId := by
  obtain ⟨-, x, -, -, hx, -⟩ := hcur
  rintro rfl
  exact absurd (hw.lt_of_instance hx) (by decide)

end Host

structure Surface.Mirrored (surf : Surface) (h : Host) (cid : VMAccelId) (size : BitVec 32)
    (away : Prop) (mem : List Byte) : Prop where
  size : surf.consistencyDB.size = size
  fits : h.Fits surf.id surf.desc.width.toNat surf.generation
  sent : surf.consistencyDB.Active cid → h.Current surf.id surf.generation mem
  home : ¬ away → surf.backing = mem
  marked : away → surf.consistencyDB.Active cid

theorem Surface.Mirrored.apart {surf : Surface} {h h' : Host} {cid sid : VMAccelId}
    {size : BitVec 32} {away : Prop} {mem : List Byte} (hs : surf.Mirrored h cid size away mem)
    (ha : Host.Apart h h' sid) (hw : h'.backend.WellFormed) (hne : surf.id ≠ sid) :
    surf.Mirrored h' cid size away mem :=
  ⟨hs.size, ha.fits hw hne hs.fits, fun hact => ha.current hne (hs.sent hact), hs.home, hs.marked⟩

namespace Contents

variable {k : ℕ}

theorem getElem?_runKernel_of_not_mem (m : Contents) {ks : List ℕ} (hk : k ∉ ks)
    (kernel : List (List Byte) → ℕ → ℕ → Byte) : (m.runKernel ks kernel)[k]? = m[k]? := by
  have hnone : ks.findIdx? (· = k) = none :=
    List.findIdx?_eq_none_iff.mpr fun j hj => decide_eq_false fun heq => hk (heq ▸ hj)
  rw [runKernel, List.getElem?_mapIdx, hnone]
  exact Option.map_id'

/-- The bytes of an upload that covers the whole surface replace the first bytes of its content. -/
def upload (m : Contents) (descs : List VMAccelSurfaceDesc) (k : ℕ)
    (imgRegion : VMAccelSurfaceRegion) (elemSize : ℕ) (input : List Byte) : Contents :=
  match descs[k]? with
  | some desc =>
    if Surface.Covers desc imgRegion elemSize then
      m.modify k fun mem => input.take desc.width.toNat ++ mem.drop input.length
    else m
  | none => m

end Contents

theorem Surface.upload_success_iff {surf : Surface} {maxRefObjects : BitVec 32}
    {imgRegion : VMAccelSurfaceRegion} {elemSize : ℕ} {input : List Byte}
    {r : StatusCode × Surface}
    (hr : surf.upload maxRefObjects imgRegion elemSize input = .ok r) :
    r.1 = .success ↔ Covers surf.desc imgRegion elemSize := by
  unfold upload at hr
  split_ifs at hr with hcovers
  · obtain ⟨surf', -, hr⟩ := bind_eq_ok.mp hr
    cases hr
    exact iff_of_true rfl hcovers
  · cases hr
    exact iff_of_false StatusCode.noConfusion hcovers

namespace Client

structure Mirrors (c : Client) (away : ℕ → Prop) (m : Contents) : Prop where
  contextId : c.contextId < c.maxRefObjects
  distinct : c.Distinct
  surface : ∀ (k : ℕ) (surf : Surface), c.surfaces[k]? = some surf → ∃ mem, m[k]? = some mem ∧
    surf.Mirrored c.host c.contextId c.maxRefObjects (away k) mem

def Marked (c : Client) (k : ℕ) : Prop :=
  ∃ surf ∈ c.surfaces[k]?, surf.consistencyDB.Active c.contextId

/-- The backing of the surface has its content. -/
def Home (c : Client) (m : Contents) (k : ℕ) : Prop :=
  ∀ surf, c.surfaces[k]? = some surf → m[k]? = some surf.backing

structure Same (c c' : Client) : Prop where
  operations : c'.operations = c.operations
  descs : c'.surfaces.map Surface.desc = c.surfaces.map Surface.desc
  argOf : ∀ k, c'.argOf k = c.argOf k
  marked : ∀ k, c.Marked k → c'.Marked k

def Writable (c : Client) (k : ℕ) : Prop :=
  ∃ desc ∈ (c.surfaces.map Surface.desc)[k]?, desc.usage ≠ .readonly

variable {c c' : Client} {away away' : ℕ → Prop} {m : Contents} {k i : ℕ} {surf : Surface}
  {net : Net}

theorem Same.refl (c : Client) : Same c c := ⟨rfl, rfl, fun _ => rfl, fun _ h => h⟩

theorem Same.trans {c₁ c₂ c₃ : Client} (h : Same c₁ c₂) (h' : Same c₂ c₃) : Same c₁ c₃ where
  operations := h'.operations.trans h.operations
  descs := h'.descs.trans h.descs
  argOf k := (h'.argOf k).trans (h.argOf k)
  marked k hk := h'.marked k (h.marked k hk)

theorem Same.of_host (c : Client) (host : Host) : Same c { c with host } :=
  ⟨rfl, rfl, fun _ => rfl, fun _ h => h⟩

theorem Same.writable (h : Same c c') : c'.Writable k ↔ c.Writable k := by
  rw [Writable, h.descs, Writable]

theorem writable_iff (hk : c.surfaces[k]? = some surf) :
    c.Writable k ↔ surf.desc.usage ≠ .readonly := by
  simp [Writable, hk]

theorem getElem?_set_surface {surf' sj : Surface} {j : ℕ}
    (hj : (c.surfaces.set k surf')[j]? = some sj) :
    (j = k ∧ sj = surf') ∨ (j ≠ k ∧ c.surfaces[j]? = some sj) := by
  by_cases hjk : j = k
  · subst hjk
    rw [List.getElem?_set_self'] at hj
    obtain ⟨_, -, rfl⟩ := Option.map_eq_some_iff.mp hj
    exact Or.inl ⟨rfl, rfl⟩
  · rw [List.getElem?_set_ne (Ne.symm hjk)] at hj
    exact Or.inr ⟨hjk, hj⟩

theorem same_set (hk : c.surfaces[k]? = some surf) {surf' : Surface} (hid : surf'.id = surf.id)
    (hdesc : surf'.desc = surf.desc) (hgen : surf'.generation = surf.generation)
    (hmark : surf.consistencyDB.Active c.contextId → surf'.consistencyDB.Active c.contextId)
    (host : Host) (db : IdentifierDB) :
    Same c { c with host, residencyDB := db, surfaces := c.surfaces.set k surf' } := by
  have hlt : k < c.surfaces.length := (List.getElem?_eq_some_iff.mp hk).1
  refine ⟨rfl, ?_, fun j => ?_, ?_⟩
  · change (c.surfaces.set k surf').map Surface.desc = _
    rw [List.map_set, hdesc, ← List.map_set, set_getElem?_self hk]
  · unfold argOf
    by_cases hj : j = k
    · rw [hj, List.getElem?_set_self hlt, hk]
      simp only [hid, hgen]
    · rw [List.getElem?_set_ne (Ne.symm hj)]
  · rintro j ⟨sj, hsj, hact⟩
    by_cases hj : j = k
    · subst hj
      obtain rfl := Option.some.inj (hk.symm.trans hsj)
      exact ⟨surf', List.getElem?_set_self hlt, hmark hact⟩
    · exact ⟨sj, (List.getElem?_set_ne (Ne.symm hj)).trans hsj, hact⟩

namespace Mirrors

theorem of_operations (hs : c.Mirrors away m) (ops : List Operation) :
    Mirrors { c with operations := ops } away m := ⟨hs.contextId, hs.distinct, hs.surface⟩

theorem bring (hs : c.Mirrors away m) (hsub : ∀ k, away' k → away k)
    (hhome : ∀ k, away k → ¬ away' k → c.Home m k) : c.Mirrors away' m := by
  refine ⟨hs.contextId, hs.distinct, fun k surf hk => ?_⟩
  obtain ⟨mem, hmem, h⟩ := hs.surface k surf hk
  refine ⟨mem, hmem, h.size, h.fits, h.sent, fun hnot => ?_, fun haway => h.marked (hsub k haway)⟩
  by_cases haway : away k
  · exact Option.some.inj ((hhome k haway hnot surf hk).symm.trans hmem)
  · exact h.home haway

theorem home (hs : c.Mirrors away m) (hk : ¬ away k) : c.Home m k := by
  intro surf hsurf
  obtain ⟨mem, hmem, h⟩ := hs.surface k surf hsurf
  rw [hmem, h.home hk]

theorem marked (hs : c.Mirrors away m) (hk : away k) (hw : c.Writable k) : c.Marked k := by
  obtain ⟨desc, hdesc, -⟩ := hw
  rw [List.getElem?_map] at hdesc
  obtain ⟨surf, hsurf, -⟩ := Option.map_eq_some_iff.mp hdesc
  obtain ⟨mem, -, h⟩ := hs.surface k surf hsurf
  exact ⟨surf, hsurf, h.marked hk⟩

/-- A new state of surface `k` on the client and on the server, with a new content. -/
theorem set (hs : c.Mirrors away m) (hk : c.surfaces[k]? = some surf) (surf' : Surface)
    (hid : surf'.id = surf.id) {host : Host} (ha : Host.Apart c.host host surf.id)
    {m' : Contents} {mem : List Byte} (hmem : m'[k]? = some mem)
    (hother : ∀ j, j ≠ k → m'[j]? = m[j]?)
    (hsurf : surf'.Mirrored host c.contextId c.maxRefObjects (away k) mem) (db : IdentifierDB) :
    Mirrors { c with host, residencyDB := db, surfaces := c.surfaces.set k surf' } away m' := by
  have hold : ∀ (j : ℕ) (sj : Surface), (c.surfaces.set k surf')[j]? = some sj →
      ∃ sj' : Surface, c.surfaces[j]? = some sj' ∧ sj.id = sj'.id := by
    intro j sj hj
    rcases getElem?_set_surface hj with ⟨rfl, rfl⟩ | ⟨-, hj⟩
    · exact ⟨surf, hk, hid⟩
    · exact ⟨sj, hj, rfl⟩
  refine ⟨hs.contextId, fun i j si sj hi hj heq => ?_, fun j sj hj => ?_⟩
  · obtain ⟨si', hi', hidi⟩ := hold i si hi
    obtain ⟨sj', hj', hidj⟩ := hold j sj hj
    exact hs.distinct i j si' sj' hi' hj' (hidi.symm.trans (heq.trans hidj))
  · rcases getElem?_set_surface hj with ⟨rfl, rfl⟩ | ⟨hne, hj⟩
    · exact ⟨mem, hmem, hsurf⟩
    · obtain ⟨memj, hmemj, h⟩ := hs.surface j sj hj
      refine ⟨memj, (hother j hne).trans hmemj, h.apart ha hsurf.fits.wellFormed fun heq => ?_⟩
      exact hne (hs.distinct j k sj surf hj hk heq)

theorem transfer (hs : c.Mirrors away m) (hk : c.surfaces[k]? = some surf) (surf' : Surface)
    (hid : surf'.id = surf.id) (hdesc : surf'.desc = surf.desc)
    (hgen : surf'.generation = surf.generation)
    (hmark : surf.consistencyDB.Active c.contextId → surf'.consistencyDB.Active c.contextId)
    {host : Host} (ha : Host.Apart c.host host surf.id)
    (hsurf : ∀ mem, m[k]? = some mem →
      surf.Mirrored c.host c.contextId c.maxRefObjects (away k) mem →
      surf'.Mirrored host c.contextId c.maxRefObjects (away k) mem) (db : IdentifierDB) :
    Same c { c with host, residencyDB := db, surfaces := c.surfaces.set k surf' } ∧
      Mirrors { c with host, residencyDB := db, surfaces := c.surfaces.set k surf' } away m := by
  obtain ⟨mem, hmem, h⟩ := hs.surface k surf hk
  exact ⟨same_set hk hid hdesc hgen hmark host db,
    hs.set hk surf' hid ha hmem (fun _ _ => rfl) (hsurf mem hmem h) db⟩

theorem allocSurface (hs : c.Mirrors away m) (hn : net.Reliable) {r : Bool × Client}
    (hr : c.allocSurface k net i = .ok r) : r.1 = true ∧ Same c r.2 ∧ r.2.Mirrors away m := by
  obtain ⟨surf, hk, rfl | ⟨q, hq, hr⟩⟩ := allocSurface_ok hr
  · exact ⟨rfl, .refl c, hs⟩
  · rw [hn.surfacealloc] at hq
    obtain ⟨p, hp, rfl⟩ := Answer.call_served hq
    rcases hr with ⟨hnone, -⟩ | ⟨-, db, -, rfl⟩
    · cases hnone
    · refine ⟨rfl, ?_⟩
      have hstep := hs.transfer hk surf rfl rfl rfl id (Host.apart_surfacealloc hp)
        (fun mem _ h => ?_) db
      · rwa [set_getElem?_self hk] at hstep
      · obtain ⟨hfits, hcur, -⟩ := h.fits.surfacealloc rfl rfl hp
        exact ⟨h.size, hfits, fun hact => hcur mem (h.sent hact), h.home, h.marked⟩

theorem uploadSurface (hs : c.Mirrors away m) (hn : net.Reliable) {force : Bool}
    (hforce : force = true → ¬ away k) {r : Bool × Client}
    (hr : c.uploadSurface k force net i = .ok r) :
    r.1 = true ∧ Same c r.2 ∧ r.2.Mirrors away m ∧ r.2.Marked k := by
  obtain ⟨surf, hk, -⟩ := uploadSurface_ok hr
  obtain ⟨mem, hmem, h⟩ := hs.surface k surf hk
  have he := Shadow.elsewhere_uploadSurface hk hr
  rcases sent_uploadSurface hk h.fits hn hr with ⟨hact, -, rfl⟩ | ⟨hskip, hsent⟩
  · exact ⟨rfl, .refl c, hs, surf, hk, hact⟩
  · obtain ⟨host, surf', hset, rfl, hfits, hcur, -⟩ := hsent
    obtain ⟨db, rfl, hsize, hact⟩ := Surface.setConsistency_true hset
    -- a surface whose results are away is marked, so it is sent by force only
    have hnot : ¬ away k := fun haway => hforce (hskip (h.marked haway)) haway
    have hmark : db.Active c.contextId :=
      (hact _).mpr (Or.inr ⟨rfl, h.size.symm ▸ hs.contextId⟩)
    obtain ⟨hsame, hmirrors⟩ := hs.transfer hk { surf with consistencyDB := db } rfl rfl rfl
      (fun _ => hmark) he.apart (fun mem _ h => ⟨hsize.trans h.size, hfits,
        fun _ => h.home hnot ▸ hcur, h.home, fun _ => hmark⟩) c.residencyDB
    refine ⟨rfl, hsame, hmirrors, { surf with consistencyDB := db }, ?_, hmark⟩
    exact List.getElem?_set_self (List.getElem?_eq_some_iff.mp hk).1

theorem prepareArg (hs : c.Mirrors away m) (hn : net.Reliable) {args : List KernelArg}
    {b : ℕ × ℕ} {p : Client × List KernelArg} (hr : Client.prepareArg net (c, args) b = .ok p) :
    p.2 = args ++ [c.argOf b.1] ∧ Same c p.1 ∧ p.1.Mirrors away m ∧ p.1.Marked b.1 := by
  obtain ⟨⟨ok₁, c₁⟩, halloc, hr⟩ := bind_eq_ok.mp hr
  obtain ⟨hok₁, hsame₁, hs₁⟩ := hs.allocSurface hn halloc
  obtain rfl : ok₁ = true := hok₁
  obtain ⟨⟨ok₂, c₂⟩, hup, hr⟩ := bind_eq_ok.mp hr
  obtain ⟨hok₂, hsame₂, hs₂, hmark⟩ :=
    hs₁.uploadSurface hn (fun h => absurd h Bool.false_ne_true) hup
  obtain rfl : ok₂ = true := hok₂
  obtain ⟨surf, hsurf, hr⟩ := bind_eq_ok.mp hr
  cases hr
  have hsame := hsame₁.trans hsame₂
  refine ⟨?_, hsame, hs₂, hmark⟩
  rw [hn.argSet, ← hsame.argOf, argOf_eq (readAt_ok.mp hsurf)]

theorem run_prepareArg (hs : c.Mirrors away m) (hn : net.Reliable) {bs : List (ℕ × ℕ)}
    {args : List KernelArg} {p : Client × List KernelArg}
    (hr : run (Client.prepareArg net) (c, args) bs = .ok p) :
    p.2 = args ++ (bs.map Prod.fst).map c.argOf ∧ Same c p.1 ∧ p.1.Mirrors away m ∧
      ∀ b ∈ bs, p.1.Marked b.1 := by
  induction bs generalizing c args with
  | nil =>
    cases hr
    exact ⟨(List.append_nil _).symm, .refl c, hs, fun _ hb => absurd hb List.not_mem_nil⟩
  | cons b bs ih =>
    obtain ⟨⟨c₁, args₁⟩, hb, hr⟩ := run_cons_ok.mp hr
    obtain ⟨rfl, hsame₁, hs₁, hmark⟩ := hs.prepareArg hn hb
    obtain ⟨hargs, hsame₂, hs₂, hmarks⟩ := ih hs₁ hr
    refine ⟨?_, hsame₁.trans hsame₂, hs₂,
      List.forall_mem_cons.mpr ⟨hsame₂.marked b.1 hmark, hmarks⟩⟩
    rw [hargs, funext hsame₁.argOf, List.append_assoc]
    rfl

/-- A kernel that the server runs on marked surfaces runs on their contents. Its results are away,
but for contents that it keeps. -/
theorem submit (hs : c.Mirrors away m) (hn : net.Reliable) {ks : List ℕ}
    (hks : ∀ k ∈ ks, c.Marked k) {kernel : List (List Byte) → ℕ → ℕ → Byte} (away' : ℕ → Prop)
    (haway : ∀ k, away k → away' k) (haway' : ∀ k, away' k → away k ∨ k ∈ ks)
    (hkeep : ∀ k ∈ ks, ¬ away' k → (m.runKernel ks kernel)[k]? = m[k]?) {n t : ℕ}
    {r : StatusCode × Client}
    (hr : Client.submit ⟨ks.map c.argOf, 1, kernel⟩ net c (n + 1) t = .ok r) :
    r.1 = .success ∧ Same c r.2 ∧ r.2.Mirrors away' (m.runKernel ks kernel) := by
  obtain ⟨⟨status, host⟩, hq, hne⟩ := submit_served hn hr
  have hcollect : c.host.backend.collectArgs (ks.map c.argOf) = .ok (.success, m.reads ks) := by
    refine collectArgs_argOf fun k hk => ?_
    obtain ⟨surf, hsurf, hact⟩ := hks k hk
    obtain ⟨mem, hmem, h⟩ := hs.surface k surf hsurf
    exact ⟨surf, mem, hsurf, hmem, h.sent hact⟩
  have hlt : ∀ k ∈ ks, k < c.surfaces.length := fun k hk => by
    obtain ⟨surf, hsurf, -⟩ := hks k hk
    exact (List.getElem?_eq_some_iff.mp hsurf).1
  obtain ⟨u, hu, heq⟩ := bind_eq_ok.mp hq
  obtain rfl := Backend.dispatch_of_collectArgs ⟨ks.map c.argOf, 1, kernel⟩ hcollect hu
  cases heq
  obtain rfl := hne StatusCode.noConfusion
  refine ⟨rfl, .of_host c _, hs.contextId, hs.distinct, fun k surf hk => ?_⟩
  obtain ⟨mem, hmem, h⟩ := hs.surface k surf hk
  have hfits := h.fits.dispatch hq
  have hstay : ¬ away' k → (m.runKernel ks kernel)[k]? = m[k]? := fun hnot => by
    by_cases hbound : k ∈ ks
    · exact hkeep k hbound hnot
    · exact m.getElem?_runKernel_of_not_mem hbound kernel
  by_cases hact : surf.consistencyDB.Active c.contextId
  · obtain ⟨desc, x, hdesc, htype, hx, hgen, rfl⟩ := h.sent hact
    have hrun := getElem?_runKernel hs.distinct hlt hk hmem kernel
    refine ⟨_, hrun, h.size, hfits, fun _ => ⟨desc, _, ?_, htype, ?_, ?_, rfl⟩, fun hnot => ?_,
      fun _ => hact⟩
    · exact (Backend.descs_runKernel _ _).symm ▸ hdesc
    · change (c.host.backend.runKernel _ _).instance? _ _ = _
      rw [Backend.instance?_runKernel, hx]
      rfl
    · exact (Backend.runOn_generation _ _ _ _ x).trans hgen
    · rw [h.home fun haw => hnot (haway k haw)]
      exact Option.some.inj (hmem.symm.trans ((hstay hnot).symm.trans hrun))
  · -- a surface that is not marked is not bound
    have hbound : k ∉ ks := fun hbound => by
      obtain ⟨surf', hsurf', hact'⟩ := hks k hbound
      obtain rfl := Option.some.inj (hk.symm.trans hsurf')
      exact hact hact'
    have hnot : ¬ away' k := fun haw =>
      (haway' k haw).elim (fun haw => hact (h.marked haw)) hbound
    exact ⟨mem, (hstay hnot).trans hmem, h.size, hfits, fun hact' => absurd hact' hact,
      fun _ => h.home fun haw => hnot (haway k haw), fun haw => absurd haw hnot⟩

theorem fill (hs : c.Mirrors away m) (hk : c.surfaces[k]? = some surf) {host : Host}
    (ha : Host.Apart c.host host surf.id) {bytes : List Byte} (hmem : m[k]? = some bytes)
    (hlen : bytes.length = surf.desc.width.toNat)
    (hfits : host.Fits surf.id surf.desc.width.toNat surf.generation)
    (hcur : host.Current surf.id surf.generation bytes) :
    Same c { c with host, surfaces := c.surfaces.set k (surf.memcpyIn bytes) } ∧
      Mirrors { c with host, surfaces := c.surfaces.set k (surf.memcpyIn bytes) } away m ∧
      ∀ j, c.Home m j ∨ j = k →
        Home { c with host, surfaces := c.surfaces.set k (surf.memcpyIn bytes) } m j := by
  have hback : (surf.memcpyIn bytes).backing = bytes := Surface.memcpyIn_backing hlen
  obtain ⟨hsame, hmirrors⟩ := hs.transfer hk (surf.memcpyIn bytes) rfl rfl rfl id ha
    (fun mem hmem' h => by
      obtain rfl := Option.some.inj (hmem.symm.trans hmem')
      exact ⟨h.size, hfits, fun _ => hcur, fun _ => hback, h.marked⟩) c.residencyDB
  refine ⟨hsame, hmirrors, fun j hj sj hsj => ?_⟩
  rcases getElem?_set_surface hsj with ⟨rfl, rfl⟩ | ⟨hne, hsj⟩
  · rw [hback, hmem]
  · exact hj.resolve_right hne sj hsj

theorem downloadMapped (hs : c.Mirrors away m) (hn : net.Reliable)
    (hk : c.surfaces[k]? = some surf) (hact : surf.consistencyDB.Active c.contextId)
    {r : Bool × Client} (hr : c.downloadMapped k surf net i = .ok r) :
    Same c r.2 ∧ r.2.Mirrors away m ∧ ∀ j, c.Home m j ∨ j = k → r.2.Home m j := by
  obtain ⟨mem, hmem, h⟩ := hs.surface k surf hk
  obtain ⟨-, -, hr⟩ := bind_eq_ok.mp hr
  obtain ⟨q, hq, hr⟩ := bind_eq_ok.mp hr
  rw [hn.surfacemap] at hq
  obtain ⟨p, hp, rfl⟩ := Answer.call_served hq
  obtain ⟨_, _, ptr, _, _, _, _, hsuccess⟩ := Host.Fits.surfacemap h.fits rfl rfl hp
  have hp₁ : p.1 = (.success, some ptr) := congrArg Prod.fst hsuccess
  rw [hp₁] at hr
  obtain ⟨bytes, hbytes, hr⟩ := bind_eq_ok.mp hr
  obtain ⟨u, hu, hr⟩ := bind_eq_ok.mp hr
  rw [hn.surfaceunmap] at hu
  obtain ⟨v, hv, rfl⟩ := Answer.call_served hu
  cases hr
  have hderef : p.2.deref (mapOp surf false).sid (mapOp surf false).size.toNat p.1.2 =
      .ok bytes := by
    rw [hp₁]
    exact hbytes
  obtain ⟨hlen, hread⟩ := Host.Fits.deref h.fits rfl rfl hp hderef
  obtain ⟨hfits, hcur, -⟩ := Host.Fits.map_unmap h.fits rfl rfl rfl rfl rfl hlen hp hv
  obtain rfl : bytes = mem := hread mem (h.sent hact)
  have he : Host.Elsewhere c.host v.2 surf.id :=
    (Host.elsewhere_surfacemap rfl hp).trans (Host.elsewhere_surfaceunmap rfl hv)
  exact hs.fill hk he.apart hmem hlen hfits hcur

theorem downloadImage (hs : c.Mirrors away m) (hn : net.Reliable)
    (hk : c.surfaces[k]? = some surf) (hact : surf.consistencyDB.Active c.contextId)
    {r : Bool × Client} (hr : c.downloadImage k surf net i = .ok r) :
    Same c r.2 ∧ r.2.Mirrors away m := by
  obtain ⟨mem, hmem, h⟩ := hs.surface k surf hk
  obtain ⟨q, hq, hr⟩ := bind_eq_ok.mp hr
  rw [hn.imagedownload] at hq
  obtain ⟨⟨reply, host⟩, hp, rfl⟩ := Answer.call_served hq
  obtain ⟨heq, hsuccess⟩ := Host.Fits.imagedownload h.fits rfl rfl hp
  obtain rfl : host = c.host := heq
  dsimp only at hr
  split at hr
  · next bytes _ hreply =>
    obtain rfl : reply = (.success, bytes) := Option.some.inj hreply
    cases hr
    obtain ⟨hlen, hcur⟩ := hsuccess rfl
    obtain rfl : bytes = mem := hcur.unique (h.sent hact)
    obtain ⟨hsame, hmirrors, -⟩ := hs.fill hk (.refl _ _) hmem hlen h.fits hcur
    exact ⟨hsame, hmirrors⟩
  · cases hr
    exact ⟨.refl c, hs⟩

theorem downloadSurface (hs : c.Mirrors away m) (hn : net.Reliable) (hk : c.Marked k)
    {force imgDownload : Bool} {r : Bool × Client}
    (hr : c.downloadSurface k force imgDownload net i = .ok r) :
    Same c r.2 ∧ r.2.Mirrors away m := by
  obtain ⟨surf, hsurf, hact⟩ := hk
  obtain ⟨surf', hsurf', hr⟩ := bind_eq_ok.mp hr
  obtain rfl := Option.some.inj (hsurf.symm.trans (readAt_ok.mp hsurf'))
  split_ifs at hr
  · obtain ⟨hsame, hmirrors, -⟩ := hs.downloadMapped hn hsurf hact hr
    exact ⟨hsame, hmirrors⟩
  · exact hs.downloadImage hn hsurf hact hr
  · cases hr
    exact ⟨.refl c, hs⟩

/-- The download of an argument brings its content home. That of a surface which kernels only read
is there already. -/
theorem quiesceArg (hs : c.Mirrors away m) (hn : net.Reliable) {arg : KernelArg}
    (harg : arg.sid ≠ invalidId) (hmark : c.Writable k → c.Marked k)
    (hro : ¬ c.Writable k → ¬ away k)
    (hr : Client.quiesceArg net c ((k, arg), i) = .ok c') :
    Same c c' ∧ c'.Mirrors away m ∧ ∀ j, c.Home m j ∨ j = k → c'.Home m j := by
  rw [Client.quiesceArg, if_neg harg] at hr
  obtain ⟨r, hdown, hr⟩ := bind_eq_ok.mp hr
  cases hr
  obtain ⟨surf, hsurf, hdown⟩ := bind_eq_ok.mp hdown
  have hk := readAt_ok.mp hsurf
  by_cases hw : c.Writable k
  · rw [if_pos ⟨Bool.false_ne_true, Or.inl ((writable_iff hk).mp hw)⟩] at hdown
    obtain ⟨surf', hsurf', hact⟩ := hmark hw
    obtain rfl := Option.some.inj (hk.symm.trans hsurf')
    exact hs.downloadMapped hn hk hact hdown
  · have hread : ¬ (surf.desc.usage ≠ .readonly ∨ false = true) :=
      not_or.mpr ⟨fun h => hw ((writable_iff hk).mpr h), Bool.false_ne_true⟩
    rw [if_neg fun h => hread h.2, if_neg Bool.false_ne_true] at hdown
    cases hdown
    refine ⟨.refl c, hs, ?_⟩
    rintro j (hj | rfl)
    · exact hj
    · exact hs.home (hro hw)

theorem run_quiesceArg (hs : c.Mirrors away m) (hn : net.Reliable)
    (haway : ∀ k, away k → c.Writable k) {bs : List ((ℕ × KernelArg) × ℕ)}
    (hbs : ∀ b ∈ bs, b.1.2.sid ≠ invalidId ∧ (c.Writable b.1.1 → c.Marked b.1.1))
    (hr : run (Client.quiesceArg net) c bs = .ok c') :
    Same c c' ∧ c'.Mirrors away m ∧
      ∀ j, c.Home m j ∨ (∃ b ∈ bs, b.1.1 = j) → c'.Home m j := by
  induction bs generalizing c with
  | nil =>
    cases hr
    refine ⟨.refl _, hs, ?_⟩
    rintro j (hj | ⟨b, hb, -⟩)
    · exact hj
    · exact absurd hb List.not_mem_nil
  | cons b bs ih =>
    obtain ⟨⟨k, arg⟩, i⟩ := b
    obtain ⟨c₁, hb, hr⟩ := run_cons_ok.mp hr
    obtain ⟨⟨harg, hmark⟩, hrest⟩ := List.forall_mem_cons.mp hbs
    obtain ⟨hsame₁, hs₁, hhome₁⟩ :=
      hs.quiesceArg hn harg hmark (fun hro haw => hro (haway k haw)) hb
    obtain ⟨hsame₂, hs₂, hhome₂⟩ := ih hs₁
      (fun j hj => hsame₁.writable.mpr (haway j hj))
      (fun b' hb' => ⟨(hrest b' hb').1, fun hw =>
        hsame₁.marked _ ((hrest b' hb').2 (hsame₁.writable.mp hw))⟩) hr
    refine ⟨hsame₁.trans hsame₂, hs₂, fun j hj => hhome₂ j ?_⟩
    rcases hj with hj | ⟨b', hb', rfl⟩
    · exact Or.inl (hhome₁ j (Or.inl hj))
    · rcases List.mem_cons.mp hb' with rfl | hb'
      · exact Or.inl (hhome₁ k (Or.inr rfl))
      · exact Or.inr ⟨b', hb', rfl⟩

theorem upload (hs : c.Mirrors away m) (hhome : ¬ away k)
    (hwrap : ∀ surf ∈ c.surfaces[k]?, surf.generation ≠ BitVec.allOnes 32)
    {imgRegion : VMAccelSurfaceRegion} {elemSize : ℕ} {input : List Byte} {r : StatusCode × Client}
    (hr : c.upload k imgRegion elemSize input = .ok r) :
    r.2.operations = c.operations ∧
      r.2.surfaces.map Surface.desc = c.surfaces.map Surface.desc ∧
      r.2.Mirrors away (m.upload (c.surfaces.map Surface.desc) k imgRegion elemSize input) := by
  obtain ⟨surf, hsurf, hr⟩ := bind_eq_ok.mp hr
  have hk := readAt_ok.mp hsurf
  have hne := hwrap surf hk
  obtain ⟨mem, hmem, h⟩ := hs.surface k surf hk
  obtain ⟨q, hq, hr⟩ := bind_eq_ok.mp hr
  cases hr
  have hdesc : (c.surfaces.map Surface.desc)[k]? = some surf.desc := by
    rw [List.getElem?_map, hk]
    rfl
  have hcovers := Surface.upload_success_iff hq
  rcases Surface.upload_ok h.size hq with rfl | ⟨db, hsize, hclear, rfl⟩
  · have hm : m.upload (c.surfaces.map Surface.desc) k imgRegion elemSize input = m := by
      rw [Contents.upload, hdesc]
      exact if_neg fun h => StatusCode.noConfusion (hcovers.mpr h)
    rw [hm]
    change _ ∧ (c.surfaces.set k surf).map Surface.desc = _ ∧
      Mirrors { c with surfaces := c.surfaces.set k surf, host := _ } away m
    rw [set_getElem?_self hk]
    exact ⟨rfl, rfl, hs⟩
  · have hm : m.upload (c.surfaces.map Surface.desc) k imgRegion elemSize input =
        m.modify k fun mem => input.take surf.desc.width.toNat ++ mem.drop input.length := by
      rw [Contents.upload, hdesc]
      exact if_pos (hcovers.mp rfl)
    rw [hm]
    have hle : surf.generation ≤ surf.generation + 1 := by
      have hlt : surf.generation.toNat ≠ 2 ^ 32 - 1 := fun h => hne (BitVec.eq_of_toNat_eq h)
      rw [BitVec.le_def, BitVec.toNat_add]
      change _ ≤ (surf.generation.toNat + 1) % 2 ^ 32
      omega
    let surf' : Surface :=
      { surf.memcpyIn input with consistencyDB := db, generation := surf.generation + 1 }
    have hback : surf'.backing = input.take surf.desc.width.toNat ++ mem.drop input.length := by
      rw [← h.home hhome]
      rfl
    have hsurf' : ∀ trace, surf'.Mirrored ⟨c.host.backend, trace⟩ c.contextId c.maxRefObjects
        (away k) (input.take surf.desc.width.toNat ++ mem.drop input.length) := fun trace =>
      ⟨hsize, h.fits.mono hle trace, fun hact => absurd hact (hclear _), fun _ => hback,
        fun haway => absurd haway hhome⟩
    refine ⟨rfl, ?_, hs.set hk surf' rfl (.trace c.host _ _) ?_ (fun j hj => ?_) (hsurf' _) _⟩
    · change (c.surfaces.set k surf').map Surface.desc = _
      rw [List.map_set]
      exact set_getElem?_self hdesc
    · rw [List.getElem?_modify_eq, hmem]
      rfl
    · exact List.getElem?_modify_ne _ m (Ne.symm hj)

end Mirrors

end Client

end VMAccel
