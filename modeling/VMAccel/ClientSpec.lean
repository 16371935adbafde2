import VMAccel.Client
import VMAccel.HostSpec
import VMAccel.IdentifierDBRange

/-!
# What the calls of a context do

One lemma for each method that returns. Surfaces that are constructed on one accelerator have
different identifiers, except for those that the exhausted database left without one.
-/

namespace VMAccel

open StepSystem IdentifierDB

namespace Surface

theorem isConsistent_eq_ok {surf : Surface} {id : VMAccelId} {b : Bool}
    (h : surf.isConsistent id = .ok b) : b = true ↔ surf.consistencyDB.Active id := by
  rw [← activeId_eq_ok_true]
  cases b with
  | true => exact iff_of_true rfl h
  | false => exact iff_of_false Bool.false_ne_true fun h' => by cases h.symm.trans h'

theorem setConsistency_true {surf surf' : Surface} {id : VMAccelId}
    (h : surf.setConsistency id true = .ok surf') :
    ∃ db, surf' = { surf with consistencyDB := db } ∧ db.size = surf.consistencyDB.size ∧
      ∀ j, db.Active j ↔ surf.consistencyDB.Active j ∨ (j = id ∧ id < surf.consistencyDB.size) := by
  obtain ⟨r, hr, h⟩ := bind_eq_ok.mp h
  cases h
  exact ⟨r.2, rfl, acquireId_active hr⟩

theorem upload_ok {surf : Surface} {maxRefObjects : BitVec 32} {imgRegion : VMAccelSurfaceRegion}
    {elemSize : ℕ} {input : List Byte} {r : StatusCode × Surface}
    (hsize : surf.consistencyDB.size = maxRefObjects)
    (hr : surf.upload maxRefObjects imgRegion elemSize input = .ok r) :
    r = (.fail, surf) ∨ ∃ db, db.size = maxRefObjects ∧ (∀ id, ¬ db.Active id) ∧
      r = (.success, { surf.memcpyIn input with
        consistencyDB := db, generation := surf.generation + 1 }) := by
  unfold upload at hr
  split_ifs at hr
  · obtain ⟨surf', hsurf', hr⟩ := bind_eq_ok.mp hr
    obtain ⟨q, hq, hsurf'⟩ := bind_eq_ok.mp hsurf'
    cases hsurf'
    cases hr
    have hall : surf.consistencyDB.releaseIdRange 0 (surf.consistencyDB.size - 1) = .ok q := by
      rw [hsize]
      exact hq
    obtain ⟨hqs, hqa⟩ := releaseIdRange_all hall
    exact Or.inr ⟨q.2, hqs.trans hsize, hqa, rfl⟩
  · cases hr
    exact Or.inl rfl

theorem construct_ok {db : IdentifierDB} {desc : VMAccelSurfaceDesc} {init : ℕ → Byte}
    {r : Surface × IdentifierDB} (hr : construct db desc init = .ok r) :
    r.1.consistencyDB = .alloc db.size ∧ r.2.size = db.size ∧
      ((r.1.id = invalidId ∧ r.2 = db) ∨
        (db.bit r.1.id.toNat = false ∧
          ∀ j, r.2.bit j = (db.bit j || decide (j = r.1.id.toNat)))) := by
  obtain ⟨q, hq, hr⟩ := bind_eq_ok.mp hr
  cases hr
  rcases allocId_ok hq with ⟨-, rfl⟩ | ⟨-, k, hk, hfree, rfl⟩
  · exact ⟨rfl, rfl, Or.inl ⟨rfl, rfl⟩⟩
  · have hid : (BitVec.ofNat 32 k).toNat = k := by
      have := db.length_bits_eq
      rw [BitVec.toNat_ofNat]
      omega
    refine ⟨rfl, rfl, Or.inr ?_⟩
    change db.bit (BitVec.ofNat 32 k).toNat = false ∧
      ∀ j, (db.take k).bit j = (db.bit j || decide (j = (BitVec.ofNat 32 k).toNat))
    rw [hid]
    exact ⟨hfree.1, bit_take hk⟩

end Surface

namespace Client

theorem constructSurfaces_ok {db : IdentifierDB} {ds : List (VMAccelSurfaceDesc × (ℕ → Byte))}
    {surfs : List Surface} (h : constructSurfaces db ds = .ok surfs) :
    (∀ surf ∈ surfs, surf.consistencyDB = .alloc db.size ∧
      (surf.id = invalidId ∨ db.bit surf.id.toNat = false)) ∧
    surfs.Pairwise fun a b => a.id = b.id → a.id = invalidId := by
  induction ds generalizing db surfs with
  | nil =>
    cases h
    exact ⟨fun _ h => absurd h List.not_mem_nil, .nil⟩
  | cons d ds ih =>
    obtain ⟨r, hr, h⟩ := bind_eq_ok.mp h
    obtain ⟨rest, hrest, h⟩ := bind_eq_ok.mp h
    cases h
    obtain ⟨hcdb, hsize, hid⟩ := Surface.construct_ok hr
    obtain ⟨hmem, hpair⟩ := ih hrest
    rw [hsize] at hmem
    rcases hid with ⟨hinv, hdb⟩ | ⟨hfree, hbit⟩
    · rw [hdb] at hmem
      exact ⟨List.forall_mem_cons.mpr ⟨⟨hcdb, Or.inl hinv⟩, hmem⟩,
        .cons (fun _ _ _ => hinv) hpair⟩
    · -- the identifier just taken is not free for the later surfaces
      have hlater : ∀ surf ∈ rest, surf.id = invalidId ∨
          (db.bit surf.id.toNat = false ∧ surf.id ≠ r.1.id) := by
        intro surf hsurf
        rcases (hmem surf hsurf).2 with hinv | hclear
        · exact Or.inl hinv
        · rw [hbit, Bool.or_eq_false_iff] at hclear
          exact Or.inr ⟨hclear.1, fun heq => of_decide_eq_false hclear.2 (congrArg _ heq)⟩
      refine ⟨List.forall_mem_cons.mpr ⟨⟨hcdb, Or.inr hfree⟩, fun surf hsurf => ?_⟩,
        .cons (fun surf hsurf heq => ?_) hpair⟩
      · exact ⟨(hmem surf hsurf).1, (hlater surf hsurf).imp id And.left⟩
      · rcases hlater surf hsurf with hinv | ⟨-, hne⟩
        · exact heq.trans hinv
        · exact absurd heq.symm hne

variable {c : Client} {k i : ℕ} {net : Net}

theorem allocSurface_ok {r : Bool × Client} (hr : c.allocSurface k net i = .ok r) :
    ∃ surf, c.surfaces[k]? = some surf ∧
      (r = (true, c) ∨ ∃ q, (net.surfacealloc i).call c.host (fun h cl => h.surfacealloc
          ⟨c.contextId, surf.id, surf.desc⟩ c.svmCapable cl (net.fresh i)) id = .ok q ∧
        ((q.1 = none ∧ r = (false, { c with host := q.2 })) ∨
          ∃ status db, q.1 = some status ∧
            r = (true, { c with host := q.2, residencyDB := db }))) := by
  obtain ⟨surf, hsurf, hr⟩ := bind_eq_ok.mp hr
  refine ⟨surf, readAt_ok.mp hsurf, ?_⟩
  obtain ⟨resident, -, hr⟩ := bind_eq_ok.mp hr
  split_ifs at hr
  · cases hr
    exact Or.inl rfl
  · obtain ⟨-, -, hr⟩ := bind_eq_ok.mp hr
    obtain ⟨q, hq, hr⟩ := bind_eq_ok.mp hr
    refine Or.inr ⟨q, hq, ?_⟩
    split at hr
    · next hnone =>
      cases hr
      exact Or.inl ⟨hnone, rfl⟩
    · next status hsome =>
      obtain ⟨p, -, hr⟩ := bind_eq_ok.mp hr
      cases hr
      exact Or.inr ⟨status, p.2, hsome, rfl⟩

theorem uploadImage_ok {surf : Surface} {r : Bool × Client}
    (hr : c.uploadImage k surf net i = .ok r) :
    ∃ q, (net.imageupload i).call c.host (fun h cl => h.imageupload (c.uploadOp surf) cl) id =
        .ok q ∧
      ((q.1 = none ∧ r = (true, { c with host := q.2 })) ∨
        ∃ status surf', q.1 = some status ∧ surf.setConsistency c.contextId true = .ok surf' ∧
          r = (true, { c with host := q.2, surfaces := c.surfaces.set k surf' })) := by
  obtain ⟨q, hq, hr⟩ := bind_eq_ok.mp hr
  refine ⟨q, hq, ?_⟩
  dsimp only at hr
  split at hr
  · next hnone =>
    cases hr
    exact Or.inl ⟨hnone, rfl⟩
  · next status hsome =>
    obtain ⟨c', hc', hr⟩ := bind_eq_ok.mp hr
    obtain ⟨surf', hsurf', hc'⟩ := bind_eq_ok.mp hc'
    cases hc'
    cases hr
    exact Or.inr ⟨status, surf', hsome, hsurf', rfl⟩

theorem uploadSurface_ok {force : Bool} {r : Bool × Client}
    (hr : c.uploadSurface k force net i = .ok r) :
    ∃ surf, c.surfaces[k]? = some surf ∧
      ((surf.consistencyDB.Active c.contextId ∧ force = false ∧ r = (true, c)) ∨
        ((surf.consistencyDB.Active c.contextId → force = true) ∧
          ((c.isLocal = true ∧ c.uploadMapped k surf net i = .ok r) ∨
            (c.isLocal = false ∧ c.uploadImage k surf net i = .ok r)))) := by
  obtain ⟨surf, hsurf, hr⟩ := bind_eq_ok.mp hr
  refine ⟨surf, readAt_ok.mp hsurf, ?_⟩
  obtain ⟨consistent, hcons, hr⟩ := bind_eq_ok.mp hr
  rw [← Surface.isConsistent_eq_ok hcons]
  split_ifs at hr with hskip hlocal
  · cases hr
    exact Or.inl ⟨hskip.1, Bool.eq_false_iff.mpr hskip.2, rfl⟩
  · exact Or.inr ⟨fun h => not_not.mp fun hf => hskip ⟨h, hf⟩, Or.inl ⟨hlocal, hr⟩⟩
  · obtain ⟨-, -, hr⟩ := bind_eq_ok.mp hr
    refine Or.inr ⟨fun h => not_not.mp fun hf => hskip ⟨h, hf⟩, Or.inr ⟨?_, hr⟩⟩
    exact Bool.eq_false_iff.mpr hlocal

def demoDesc : VMAccelSurfaceDesc :=
  ⟨.buffer, 2, 1, 1, .r8Typeless, .accelerator, .readwrite⟩

def demoSurface : Surface := ⟨0, demoDesc, 0, [0, 0], .alloc 48, rfl⟩

def demoRegion : VMAccelSurfaceRegion := ⟨⟨0, 0, 0⟩, ⟨2, 1, 1⟩⟩

def demoNet (cl : Bool) : Net where
  surfacealloc _ := .served true
  fresh _ _ := 0
  imageupload _ := .served cl
  imagedownload _ := .served true
  surfacemap _ := .served true
  surfaceunmap _ := .served true
  dispatch _ := .served true
  argSet _ := true

theorem construct_demoSurface :
    constructSurfaces (.alloc 48) [(demoDesc, fun _ => 0)] = .ok [demoSurface] := rfl

end Client

end VMAccel
