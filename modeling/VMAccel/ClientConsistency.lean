import VMAccel.ClientSpec

/-!
# Soundness of the consistency bits

`upload_surface` marks a surface consistent on any reply to its image upload. When each such reply
is a success, a surface is marked only while the server holds its generation and its backing, up to
the kernels that ran since. A reply with any other status breaks this at once.
-/

namespace VMAccel.Client

open StepSystem

def RepliesSuccess (c : Client) (surf : Surface) (net : Net) (i : ℕ) : Prop :=
  match (net.imageupload i).call c.host (fun h cl => h.imageupload (c.uploadOp surf) cl) id with
  | .ok (some status, _) => status = .success
  | _ => True

instance (c : Client) (surf : Surface) (net : Net) (i : ℕ) :
    Decidable (c.RepliesSuccess surf net i) := by
  unfold RepliesSuccess
  split <;> infer_instance

/-- `upload_surface` has nothing to send, or gets no reply but a success. -/
def UploadAccepted (c : Client) (k : ℕ) (force : Bool) (net : Net) (i : ℕ) : Prop :=
  ∀ surf ∈ c.surfaces[k]?,
    (surf.consistencyDB.Active c.contextId ∧ force = false) ∨ c.RepliesSuccess surf net i

instance (c : Client) (k : ℕ) (force : Bool) (net : Net) (i : ℕ) :
    Decidable (c.UploadAccepted k force net i) :=
  inferInstanceAs (Decidable (∀ _ ∈ (_ : Option _), _))

def ArgAccepted (net : Net) (p : Client × List KernelArg) (b : ℕ × ℕ) : Prop :=
  match p.1.allocSurface b.1 net b.2 with
  | .ok (true, c) => c.UploadAccepted b.1 false net b.2
  | _ => True

instance (net : Net) (p : Client × List KernelArg) (b : ℕ × ℕ) :
    Decidable (ArgAccepted net p b) := by
  unfold ArgAccepted
  split <;> infer_instance

/-- Every image upload of the call that is answered is answered with success. -/
def Accepted (c : Client) : Call → Prop
  | .uploadSurface k force net => c.UploadAccepted k force net 0
  | .dispatch o force net => ∀ op ∈ c.operations[o]?, (op.dispatched = true ∧ force = false) ∨
    EachInput (prepareArg net) (ArgAccepted net) (c, []) op.bindings.zipIdx
  | _ => True

instance (c : Client) : (a : Call) → Decidable (c.Accepted a)
  | .uploadSurface k force net => inferInstanceAs (Decidable (c.UploadAccepted k force net 0))
  | .dispatch _ _ _ => inferInstanceAs (Decidable (∀ _ ∈ (_ : Option _), _))
  | .upload _ _ _ _ | .allocSurface _ _ | .prepare _ _ => .isTrue trivial

/-- What holds in every state of a remote context: surfaces that are marked consistent are held by
the server, and no two of them share an identifier. -/
structure Coherent (c : Client) : Prop where
  remote : c.isLocal = false
  wellFormed : c.host.backend.WellFormed
  distinct : ∀ (i j : ℕ) (si sj : Surface), c.surfaces[i]? = some si → c.surfaces[j]? = some sj →
    si.id = sj.id → i = j ∨ si.id = invalidId
  size : ∀ (k : ℕ) (surf : Surface), c.surfaces[k]? = some surf →
    surf.consistencyDB.size = c.maxRefObjects
  holds : ∀ (k : ℕ) (surf : Surface), c.surfaces[k]? = some surf →
    surf.consistencyDB.Active c.contextId → c.host.Holds surf.id surf.generation surf.backing

variable {c : Client} {k i : ℕ} {net : Net}

theorem coherent_start {db : IdentifierDB} {ds : List (VMAccelSurfaceDesc × (ℕ → Byte))}
    {surfs : List Surface} (h : constructSurfaces db ds = .ok surfs) (contextId : VMAccelId)
    (svmCapable : Bool) : Coherent (start false contextId svmCapable db.size surfs) := by
  obtain ⟨hmem, hpair⟩ := constructSurfaces_ok h
  refine ⟨rfl, Backend.wellFormed_powerOn, fun i j si sj hi hj heq => ?_, fun k surf hk => ?_,
    fun k surf hk hact => ?_⟩
  · obtain ⟨hli, rfl⟩ := List.getElem?_eq_some_iff.mp hi
    obtain ⟨hlj, rfl⟩ := List.getElem?_eq_some_iff.mp hj
    rcases Nat.lt_trichotomy i j with hlt | rfl | hlt
    · exact Or.inr (List.pairwise_iff_getElem.mp hpair i j hli hlj hlt heq)
    · exact Or.inl rfl
    · exact Or.inr (heq.trans (List.pairwise_iff_getElem.mp hpair j i hlj hli hlt heq.symm))
  · rw [(hmem surf (List.mem_of_getElem? hk)).1]
    rfl
  · rw [(hmem surf (List.mem_of_getElem? hk)).1] at hact
    exact absurd ((IdentifierDB.bit_alloc _ _).symm.trans hact.2) Bool.false_ne_true

theorem Coherent.of_host (hc : Coherent c) {host : Host} (hw : host.backend.WellFormed)
    (hkeep : ∀ sid generation bytes, c.host.Holds sid generation bytes →
      host.Holds sid generation bytes) (db : IdentifierDB) (ops : List Operation) :
    Coherent { c with host, residencyDB := db, operations := ops } where
  remote := hc.remote
  wellFormed := hw
  distinct := hc.distinct
  size := hc.size
  holds k surf hk hact := hkeep _ _ _ (hc.holds k surf hk hact)

theorem Coherent.set (hc : Coherent c) {surf surf' : Surface} {host : Host}
    (hk : c.surfaces[k]? = some surf) (hid : surf'.id = surf.id)
    (hsize : surf'.consistencyDB.size = surf.consistencyDB.size) (hw : host.backend.WellFormed)
    (hself : surf'.consistencyDB.Active c.contextId →
      host.Holds surf'.id surf'.generation surf'.backing)
    (hother : ∀ sid generation bytes, sid ≠ surf.id → c.host.Holds sid generation bytes →
      host.Holds sid generation bytes) :
    Coherent { c with host, surfaces := c.surfaces.set k surf' } := by
  have hlt : k < c.surfaces.length := (List.getElem?_eq_some_iff.mp hk).1
  have hget : ∀ j sj, (c.surfaces.set k surf')[j]? = some sj →
      (j = k ∧ sj = surf') ∨ (j ≠ k ∧ c.surfaces[j]? = some sj) := by
    intro j sj hj
    by_cases hjk : j = k
    · rw [hjk, List.getElem?_set_self hlt] at hj
      exact Or.inl ⟨hjk, (Option.some.inj hj).symm⟩
    · rw [List.getElem?_set_ne (Ne.symm hjk)] at hj
      exact Or.inr ⟨hjk, hj⟩
  refine ⟨hc.remote, hw, fun i j si sj hi hj heq => ?_, fun j sj hj => ?_, fun j sj hj hact => ?_⟩
  · rcases hget i si hi with ⟨rfl, rfl⟩ | ⟨-, hi'⟩
    · rcases hget j sj hj with ⟨rfl, rfl⟩ | ⟨-, hj'⟩
      · exact Or.inl rfl
      · rw [hid] at heq ⊢
        exact hc.distinct _ _ _ _ hk hj' heq
    · rcases hget j sj hj with ⟨rfl, rfl⟩ | ⟨-, hj'⟩
      · exact hc.distinct _ _ _ _ hi' hk (heq.trans hid)
      · exact hc.distinct _ _ _ _ hi' hj' heq
  · rcases hget j sj hj with ⟨rfl, rfl⟩ | ⟨-, hj⟩
    · exact hsize.trans (hc.size _ _ hk)
    · exact hc.size _ _ hj
  · rcases hget j sj hj with ⟨rfl, rfl⟩ | ⟨hne, hj⟩
    · exact hself hact
    · have hheld := hc.holds j sj hj hact
      refine hother _ _ _ (fun heq => ?_) hheld
      rcases hc.distinct j k sj surf hj hk heq with h | h
      · exact hne h
      · exact hheld.ne_invalidId hc.wellFormed h

theorem set_getElem?_self {α : Type*} {l : List α} {a : α} (h : l[k]? = some a) :
    l.set k a = l := by
  obtain ⟨hlt, rfl⟩ := List.getElem?_eq_some_iff.mp h
  exact List.set_getElem_self hlt

theorem Coherent.upload (hc : Coherent c) {imgRegion : VMAccelSurfaceRegion} {elemSize : ℕ}
    {input : List Byte} {r : StatusCode × Client}
    (hr : c.upload k imgRegion elemSize input = .ok r) : Coherent r.2 := by
  obtain ⟨surf, hsurf, hr⟩ := bind_eq_ok.mp hr
  obtain ⟨q, hq, hr⟩ := bind_eq_ok.mp hr
  cases hr
  have hk := readAt_ok.mp hsurf
  rcases Surface.upload_ok (hc.size k surf hk) hq with rfl | ⟨db, hdb, hclear, rfl⟩
  · exact hc.set hk rfl rfl hc.wellFormed (hc.holds k surf hk) fun _ _ _ _ h => h
  · exact hc.set hk rfl (hdb.trans (hc.size k surf hk).symm) hc.wellFormed
      (fun hact => absurd hact (hclear _)) fun _ _ _ _ h => h.updated _ _

theorem Coherent.allocSurface (hc : Coherent c) {r : Bool × Client}
    (hr : c.allocSurface k net i = .ok r) : Coherent r.2 := by
  obtain ⟨surf, -, rfl | ⟨q, hq, hr⟩⟩ := allocSurface_ok hr
  · exact hc
  · have hw : q.2.backend.WellFormed :=
      Answer.call_invariant (P := fun h => h.backend.WellFormed) hq hc.wellFormed
        fun _ _ hp => Host.wellFormed_surfacealloc hc.wellFormed hp
    have hkeep : ∀ sid generation bytes, c.host.Holds sid generation bytes →
        q.2.Holds sid generation bytes := fun sid generation bytes h =>
      Answer.call_invariant (P := fun h => h.Holds sid generation bytes) hq h
        fun _ _ hp => h.surfacealloc hp
    rcases hr with ⟨-, rfl⟩ | ⟨-, db, -, rfl⟩
    · exact hc.of_host hw hkeep _ _
    · exact hc.of_host hw hkeep _ _

theorem Coherent.uploadImage (hc : Coherent c) {surf : Surface} (hk : c.surfaces[k]? = some surf)
    (hacc : c.RepliesSuccess surf net i) {r : Bool × Client}
    (hr : c.uploadImage k surf net i = .ok r) : Coherent r.2 := by
  obtain ⟨⟨reply, host⟩, hq, hr⟩ := uploadImage_ok hr
  have hw : host.backend.WellFormed :=
    Answer.call_invariant (P := fun h => h.backend.WellFormed) hq hc.wellFormed
      fun _ _ hp => Host.wellFormed_imageupload hc.wellFormed hp
  have hother : ∀ sid generation bytes, sid ≠ surf.id → c.host.Holds sid generation bytes →
      host.Holds sid generation bytes := fun sid generation bytes hne h =>
    Answer.call_invariant (P := fun h => h.Holds sid generation bytes) hq h
      fun _ _ hp => h.imageupload hp fun _ => hne
  rcases hr with ⟨-, rfl⟩ | ⟨status, surf', hsome, hset, rfl⟩
  · -- the request may have been handled although no reply came back
    have hself : surf.consistencyDB.Active c.contextId →
        host.Holds surf.id surf.generation surf.backing := fun hact => by
      refine Answer.call_invariant (P := fun h => h.Holds surf.id surf.generation surf.backing) hq
        (hc.holds k surf hk hact) fun cl p hp => ?_
      by_cases hstatus : p.1 = .success
      · exact Host.holds_of_imageupload hc.wellFormed rfl rfl hp hstatus
      · exact (hc.holds k surf hk hact).imageupload hp fun h => absurd h hstatus
    have hcoh := hc.set hk rfl rfl hw hself hother
    rwa [set_getElem?_self hk] at hcoh
  · obtain ⟨db, rfl, hsize, -⟩ := Surface.setConsistency_true hset
    obtain rfl : reply = some status := hsome
    have hsuccess : status = .success := by
      unfold RepliesSuccess at hacc
      rwa [hq] at hacc
    refine hc.set hk rfl hsize hw (fun _ => ?_) hother
    rcases Answer.call_ok hq with ⟨-, hrefused⟩ | ⟨cl, p, hp, heq, hreply⟩
    · obtain ⟨status', hne, rfl⟩ := hrefused status rfl
      exact absurd hsuccess hne
    · obtain rfl : host = p.2 := heq
      exact Host.holds_of_imageupload hc.wellFormed rfl rfl hp
        ((hreply status rfl).symm.trans hsuccess)

theorem uploadImage_of_failed_reply {surf : Surface} (hk : c.surfaces[k]? = some surf)
    (hctx : c.contextId < surf.consistencyDB.size) {r : Bool × Client}
    (hr : c.uploadImage k surf net i = .ok r) (hfail : ¬ c.RepliesSuccess surf net i) :
    r.2.host = c.host ∧ ∃ db, r.2.surfaces[k]? = some { surf with consistencyDB := db } ∧
      db.Active c.contextId := by
  obtain ⟨⟨reply, host⟩, hq, hr⟩ := uploadImage_ok hr
  unfold RepliesSuccess at hfail
  rw [hq] at hfail
  rcases hr with ⟨rfl, rfl⟩ | ⟨status, surf', rfl, hset, rfl⟩
  · exact absurd trivial hfail
  · obtain ⟨db, rfl, -, hact⟩ := Surface.setConsistency_true hset
    refine ⟨?_, db, List.getElem?_set_self (List.getElem?_eq_some_iff.mp hk).1,
      (hact _).mpr (Or.inr ⟨rfl, hctx⟩)⟩
    rcases Answer.call_ok hq with ⟨heq, -⟩ | ⟨cl, p, hp, heq, hreply⟩
    · exact heq
    · have hne : p.1 ≠ .success := (hreply status rfl) ▸ hfail
      exact heq.trans (Host.imageupload_of_not_success hp hne)

theorem Coherent.uploadSurface (hc : Coherent c) {force : Bool}
    (hacc : c.UploadAccepted k force net i) {r : Bool × Client}
    (hr : c.uploadSurface k force net i = .ok r) : Coherent r.2 := by
  obtain ⟨surf, hk, ⟨-, -, rfl⟩ | ⟨hsend, ⟨hlocal, -⟩ | ⟨-, hr⟩⟩⟩ := uploadSurface_ok hr
  · exact hc
  · exact absurd (hc.remote.symm.trans hlocal) Bool.false_ne_true
  · refine hc.uploadImage hk ?_ hr
    rcases hacc surf hk with ⟨hact, hforce⟩ | h
    · exact absurd (hforce.symm.trans (hsend hact)) Bool.false_ne_true
    · exact h

theorem Coherent.prepareArg {p p' : Client × List KernelArg} {b : ℕ × ℕ} (hc : Coherent p.1)
    (hacc : ArgAccepted net p b) (hr : prepareArg net p b = .ok p') : Coherent p'.1 := by
  obtain ⟨⟨done, c₁⟩, hq, hr⟩ := bind_eq_ok.mp hr
  have hc₁ : Coherent c₁ := hc.allocSurface hq
  cases done with
  | false =>
    cases hr
    exact hc₁
  | true =>
    obtain ⟨⟨done, c₂⟩, hu, hr⟩ := bind_eq_ok.mp hr
    have hacc₁ : c₁.UploadAccepted b.1 false net b.2 := by
      unfold ArgAccepted at hacc
      rwa [hq] at hacc
    have hc₂ : Coherent c₂ := hc₁.uploadSurface hacc₁ hu
    cases done with
    | false =>
      cases hr
      exact hc₂
    | true =>
      obtain ⟨surf, -, hr⟩ := bind_eq_ok.mp hr
      cases hr
      exact hc₂

theorem Coherent.submit (hc : Coherent c) {argp : DispatchOp} {n t : ℕ} {r : StatusCode × Client}
    (hr : submit argp net c n t = .ok r) : Coherent r.2 := by
  induction n generalizing c t with
  | zero =>
    cases hr
    exact hc
  | succ n ih =>
    obtain ⟨⟨reply, host⟩, hq, hr⟩ := bind_eq_ok.mp hr
    have hw : host.backend.WellFormed :=
      Answer.call_invariant (P := fun h => h.backend.WellFormed) hq hc.wellFormed
        fun _ _ hp => Host.wellFormed_dispatch hc.wellFormed hp
    have hc' : Coherent { c with host } := hc.of_host hw (fun sid generation bytes h =>
      Answer.call_invariant (P := fun h => h.Holds sid generation bytes) hq h
        fun _ _ hp => h.dispatch hp) _ _
    dsimp only at hr
    split at hr
    · exact ih hc' hr
    · exact ih hc' hr
    · cases hr
      exact hc'

theorem Coherent.dispatch (hc : Coherent c) {o : ℕ} {force : Bool}
    (hacc : c.Accepted (.dispatch o force net)) {r : StatusCode × Client}
    (hr : c.dispatch o force net = .ok r) : Coherent r.2 := by
  obtain ⟨op, hop, hr⟩ := bind_eq_ok.mp hr
  split_ifs at hr with hskip
  · cases hr
    exact hc
  · obtain ⟨p, hp, hr⟩ := bind_eq_ok.mp hr
    obtain ⟨q, hq, hr⟩ := bind_eq_ok.mp hr
    cases hr
    have hargs := (hacc op (readAt_ok.mp hop)).resolve_left fun h =>
      hskip ⟨h.1, by simp [h.2]⟩
    have hc₁ : Coherent p.1 :=
      run_invariant (I := fun p => Coherent p.1) (fun _ _ _ hI hC => hI.prepareArg hC) hc hargs hp
    have hc₂ : Coherent q.2 := hc₁.submit hq
    exact hc₂.of_host hc₂.wellFormed (fun _ _ _ h => h) _ _

theorem Coherent.perform {a : Call} {c' : Client} (hc : Coherent c) (hacc : c.Accepted a)
    (h : c.perform a = .ok c') : Coherent c' := by
  cases a with
  | upload k imgRegion elemSize input =>
    obtain ⟨r, hr, h⟩ := bind_eq_ok.mp h
    cases h
    exact hc.upload hr
  | allocSurface k net =>
    obtain ⟨r, hr, h⟩ := bind_eq_ok.mp h
    cases h
    exact hc.allocSurface hr
  | uploadSurface k force net =>
    obtain ⟨r, hr, h⟩ := bind_eq_ok.mp h
    cases h
    exact hc.uploadSurface hacc hr
  | prepare bindings kernel =>
    cases h
    exact hc.of_host hc.wellFormed (fun _ _ _ h => h) _ _
  | dispatch o force net =>
    obtain ⟨r, hr, h⟩ := bind_eq_ok.mp h
    cases h
    exact hc.dispatch hacc hr

def demoUpload (cl : Bool) : List Call :=
  [.upload 0 demoRegion 1 [1, 2], .allocSurface 0 (demoNet cl),
    .uploadSurface 0 false (demoNet cl)]

end VMAccel.Client
