import VMAccel.Server
import VMAccel.BackendDispatch
import VMAccel.IdentifierDBBalance

/-!
# When the requests of the server return

Every request to the backend returns without a fault exactly under the condition stated here, on
the request and the tables. `Indexed` is what a table and its identifier database keep of each
other.
-/

namespace VMAccel

open StepSystem IdentifierDB

theorem returns_require {p : Prop} [Decidable p] {α : Type} {f : Unit → Except Fault α} :
    Returns (require p >>= f) ↔ p ∧ Returns (f ()) := by
  rw [returns_bind]
  constructor
  · rintro ⟨_, hp, hf⟩
    exact ⟨require_ok.mp hp, hf⟩
  · rintro ⟨hp, hf⟩
    exact ⟨(), require_ok.mpr hp, hf⟩

theorem returns_readAt {α β : Type} {entries : List α} {i : ℕ} {f : α → Except Fault β} :
    Returns (readAt entries i >>= f) ↔ ∃ a ∈ entries[i]?, Returns (f a) := by
  simp only [returns_bind, readAt_ok, Option.mem_def]

structure Indexed {α : Type} (n : ℕ) (entries : List α) (ids : IdentifierDB) : Prop where
  length : entries.length = n
  size : ids.size.toNat = n
  addressable : ids.Addressable

namespace Indexed

variable {α : Type} {n : ℕ} {entries : List α} {ids : IdentifierDB} {id : VMAccelId} {a : α}

theorem new (hn : n + 31 < 2 ^ 32) (zero : α) :
    Indexed n (List.replicate n zero) (.alloc (BitVec.ofNat 32 n)) := by
  have hsize : (BitVec.ofNat 32 n).toNat = n := Nat.mod_eq_of_lt (by omega)
  refine ⟨List.length_replicate, hsize, ?_⟩
  change (BitVec.ofNat 32 n).toNat + 31 < 2 ^ 32
  rw [hsize]
  exact hn

theorem activeId (h : Indexed n entries ids) (id : VMAccelId) :
    ids.activeId id = .ok (decide (ids.Active id)) := activeId_of_addressable h.addressable id

theorem lt_of_active (h : Indexed n entries ids) (hact : ids.Active id) : id.toNat < n := by
  have := BitVec.lt_def.mp hact.1
  rwa [h.size] at this

theorem occupy_eq_ok (h : Indexed n entries ids) {r : List α × IdentifierDB} :
    occupy entries ids id a = .ok r ↔
      (id.toNat < n ∧ ¬ ids.Active id) ∧ r = (entries.set id.toNat a, ids.setBit id.toNat) := by
  constructor
  · intro hr
    obtain ⟨q, hq, hr⟩ := bind_eq_ok.mp hr
    obtain ⟨_, htrue, hr⟩ := bind_eq_ok.mp hr
    obtain ⟨entries', hw, hr⟩ := bind_eq_ok.mp hr
    cases hr
    obtain ⟨hlt, rfl⟩ := writeAt_ok.mp hw
    rcases acquireId_ok hq with ⟨-, rfl⟩ | ⟨-, hbit, -, rfl⟩
    · exact absurd (require_ok.mp htrue) Bool.false_ne_true
    · refine ⟨⟨h.length ▸ hlt, fun hact => ?_⟩, rfl⟩
      exact Bool.false_ne_true (hbit.symm.trans hact.2)
  · rintro ⟨⟨hlt, hact⟩, rfl⟩
    have hsize : id < ids.size := BitVec.lt_def.mpr (h.size.symm ▸ hlt)
    have hbit : ids.bit id.toNat = false := Bool.eq_false_iff.mpr fun hb => hact ⟨hsize, hb⟩
    rw [occupy, acquireId_of_clear h.addressable hsize hbit, ok_bind, require_ok (u := ()).mpr rfl,
      ok_bind, writeAt_ok.mpr ⟨h.length.symm ▸ hlt, rfl⟩]
    rfl

theorem set_setBit (h : Indexed n entries ids) (i k : ℕ) (a : α) :
    Indexed n (entries.set i a) (ids.setBit k) :=
  ⟨by rw [List.length_set, h.length], h.size, h.addressable⟩

theorem set_give (h : Indexed n entries ids) (i k : ℕ) (a : α) :
    Indexed n (entries.set i a) (ids.give k) :=
  ⟨by rw [List.length_set, h.length], h.size, h.addressable⟩

theorem active_setBit (h : Indexed n entries ids) (hlt : id.toNat < n) (j : VMAccelId) :
    (ids.setBit id.toNat).Active j ↔ ids.Active j ∨ j = id := by
  have hk : id.toNat < ids.size.toNat := h.size.symm ▸ hlt
  have hact := active_take (index_lt_length h.addressable hk) hk j
  rwa [BitVec.toNat_inj] at hact

theorem vacate_of_active (h : Indexed n entries ids) (hact : ids.Active id) :
    vacate entries ids id a = .ok (entries.set id.toNat a, ids.give id.toNat) := by
  rw [vacate, writeAt_ok.mpr ⟨h.length.symm ▸ h.lt_of_active hact, rfl⟩, ok_bind,
    releaseId_of_active hact]
  rfl

theorem active_give (hact : ids.Active id) (j : VMAccelId) :
    (ids.give id.toNat).Active j ↔ ids.Active j ∧ j ≠ id := by
  rw [IdentifierDB.active_give (bit_lt_length hact.2), ne_eq, BitVec.toNat_inj]

end Indexed

def Stays {α : Type} (id : VMAccelId) (entries : List α) (ids : IdentifierDB) (entries' : List α)
    (ids' : IdentifierDB) : Prop :=
  ids.Active id → ids'.Active id ∧ entries'[id.toNat]? = entries[id.toNat]?

section Stays

variable {α : Type} {n : ℕ} {entries : List α} {ids : IdentifierDB} {id j : VMAccelId}

theorem Stays.refl : Stays j entries ids entries ids := fun hact => ⟨hact, rfl⟩

theorem stays_modify (h : Indexed n entries ids) (hlt : id.toNat < n) (hact : ¬ ids.Active id)
    (f : α → α) : Stays j entries ids (entries.modify id.toNat f) (ids.setBit id.toNat) := by
  intro hj
  have hne : id.toNat ≠ j.toNat := fun heq => hact (BitVec.eq_of_toNat_eq heq ▸ hj)
  exact ⟨(h.active_setBit hlt j).mpr (Or.inl hj), List.getElem?_modify_ne _ _ hne⟩

theorem stays_occupy (h : Indexed n entries ids) (hlt : id.toNat < n) (hact : ¬ ids.Active id)
    (a : α) : Stays j entries ids (entries.set id.toNat a) (ids.setBit id.toNat) := by
  intro hj
  have hne : id.toNat ≠ j.toNat := fun heq => hact (BitVec.eq_of_toNat_eq heq ▸ hj)
  exact ⟨(h.active_setBit hlt j).mpr (Or.inl hj), List.getElem?_set_ne hne⟩

theorem stays_give (hact : ids.Active id) (hne : j ≠ id) {entries' : List α}
    (hget : entries'[j.toNat]? = entries[j.toNat]?) :
    Stays j entries ids entries' (ids.give id.toNat) :=
  fun hj => ⟨(Indexed.active_give hact j).mpr ⟨hj, hne⟩, hget⟩

theorem stays_vacate (hact : ids.Active id) (hne : j ≠ id) (zero : α) :
    Stays j entries ids (entries.set id.toNat zero) (ids.give id.toNat) :=
  stays_give hact hne (List.getElem?_set_ne fun heq => hne (BitVec.eq_of_toNat_eq heq).symm)

end Stays

namespace Backend

def At (s : Backend) (sid : VMAccelId) (inst : BitVec 32)
    (P : VMAccelSurfaceDesc → VMWOpenCLSurfaceInstance → Prop) : Prop :=
  ∃ surf ∈ s.surfaces[sid.toNat]?, ∃ x ∈ surf.inst[inst.toNat]?, P surf.desc x

instance (s : Backend) (sid : VMAccelId) (inst : BitVec 32)
    (P : VMAccelSurfaceDesc → VMWOpenCLSurfaceInstance → Prop) [∀ desc x, Decidable (P desc x)] :
    Decidable (s.At sid inst P) := inferInstanceAs (Decidable (∃ _ ∈ (_ : Option _), _))

def FitsMapping (x : VMWOpenCLSurfaceInstance) (bytes : List Byte) : Prop :=
  match x.mapping.ptr with
  | none => bytes = []
  | some .svm => bytes.length ≤ x.mem.length
  | some (.mapped _ old) => bytes.length ≤ old.length

instance (x : VMWOpenCLSurfaceInstance) (bytes : List Byte) : Decidable (FitsMapping x bytes) := by
  unfold FitsMapping
  split <;> infer_instance

def ArgsValid (s : Backend) : List KernelArg → Prop
  | [] => True
  | a :: args => a.isSurface = true ∧ s.At a.sid a.inst fun _ x =>
    x.generation = a.generation ∧ a.set = true → s.ArgsValid args

def ArgsTaken (s : Backend) (args : List KernelArg) : Prop :=
  ∀ a ∈ args, a.set = true ∧ s.At a.sid a.inst fun _ x => x.generation = a.generation

instance decidableArgsValid (s : Backend) : (args : List KernelArg) → Decidable (s.ArgsValid args)
  | [] => .isTrue trivial
  | _ :: args =>
    have := decidableArgsValid s args
    inferInstanceAs (Decidable (_ ∧ _))

instance (s : Backend) (args : List KernelArg) : Decidable (s.ArgsTaken args) :=
  inferInstanceAs (Decidable (∀ _ ∈ _, _))

variable {s : Backend} {cl : Bool} {sid : VMAccelId} {inst : BitVec 32}

theorem at_congr {P Q : VMAccelSurfaceDesc → VMWOpenCLSurfaceInstance → Prop}
    (h : ∀ desc x, P desc x ↔ Q desc x) : s.At sid inst P ↔ s.At sid inst Q := by
  simp only [At, h]

theorem returns_locate {α : Type}
    {f : VMAccelSurfaceDesc × VMWOpenCLSurfaceInstance → Except Fault α} :
    Returns (s.locate sid inst >>= f) ↔ s.At sid inst fun desc x => Returns (f (desc, x)) := by
  rw [returns_bind]
  constructor
  · rintro ⟨p, hp, hf⟩
    obtain ⟨surf, hsurf, hp⟩ := bind_eq_ok.mp hp
    obtain ⟨x, hx, hp⟩ := bind_eq_ok.mp hp
    cases hp
    exact ⟨surf, readAt_ok.mp hsurf, x, readAt_ok.mp hx, hf⟩
  · rintro ⟨surf, hsurf, x, hx, hf⟩
    refine ⟨(surf.desc, x), ?_, hf⟩
    rw [locate, readAt_ok.mpr hsurf, ok_bind, readAt_ok.mpr hx, ok_bind]
    rfl

theorem returns_imageupload {argp : ImageUploadOp} :
    Returns (s.imageupload argp cl) ↔ s.At argp.sid argp.inst fun desc x =>
      argp.generation < x.generation ∨
        (argp.queueCid = argp.imgCid ∧ desc.type = .buffer ∧ ¬ x.svm) := by
  rw [imageupload, returns_locate]
  refine at_congr fun desc x => ?_
  dsimp only
  split_ifs with hgen
  · exact iff_of_true (returns_ok _) (Or.inl hgen)
  · rw [returns_require, returns_require, or_iff_right hgen]
    cases writeMem argp x cl <;> simp [returns_ok, pure, Except.pure]

theorem returns_imagedownload {argp : ImageDownloadOp} :
    Returns (s.imagedownload argp cl) ↔ s.At argp.sid argp.inst fun desc x =>
      x.generation ≠ argp.generation ∨
        (argp.queueCid = argp.imgCid ∧ desc.type = .buffer ∧ ¬ x.svm) := by
  rw [imagedownload, returns_locate]
  refine at_congr fun desc x => ?_
  dsimp only
  split_ifs with hgen hlt
  · exact iff_of_true (returns_ok _) (Or.inl hgen)
  · exact iff_of_true (returns_ok _) (Or.inl hgen)
  · rw [returns_require, returns_require, or_iff_right hgen]
    cases readMem argp x cl <;> simp [returns_ok, pure, Except.pure]

theorem returns_surfacemap {argp : SurfaceMapOp} :
    Returns (s.surfacemap argp cl) ↔ s.At argp.sid argp.inst fun desc x =>
      argp.generation < x.generation ∨ desc.type = .buffer := by
  rw [surfacemap, returns_locate]
  refine at_congr fun desc x => ?_
  dsimp only
  split_ifs with hgen
  · exact iff_of_true (returns_ok _) (Or.inl hgen)
  · rw [returns_require, or_iff_right hgen]
    cases mapPtr argp x cl <;> simp [returns_ok, pure, Except.pure]

theorem returns_copyIn {x : VMWOpenCLSurfaceInstance} {bytes : List Byte} :
    Returns (copyIn x bytes) ↔ FitsMapping x bytes := by
  unfold copyIn FitsMapping
  cases x.mapping.ptr with
  | none =>
    dsimp only
    split_ifs with h
    · exact iff_of_true (returns_ok _) h
    · exact iff_of_false nofun h
  | some ptr =>
    cases ptr with
    | svm =>
      simp only [splice, Nat.zero_add]
      split_ifs with h
      · exact iff_of_true (returns_ok _) h
      · exact iff_of_false nofun h
    | mapped offset old =>
      simp only [splice, Nat.zero_add]
      split_ifs with h
      · exact iff_of_true (returns_ok _) h
      · exact iff_of_false nofun h

theorem returns_surfaceunmap {argp : SurfaceUnmapOp} :
    Returns (s.surfaceunmap argp cl) ↔
      s.At argp.sid argp.inst fun _ x => FitsMapping x argp.bytes := by
  rw [surfaceunmap, returns_locate]
  refine at_congr fun desc x => ?_
  rw [← returns_copyIn]
  exact returns_map

theorem returns_surfacecopy {argp : SurfaceCopyOp} :
    Returns (s.surfacecopy argp cl) ↔ argp.dstCid = argp.srcCid ∧
      s.At argp.srcSid 0 fun srcDesc src => s.At argp.dstSid 0 fun dstDesc dst =>
        src.generation ≠ argp.srcGeneration ∨ argp.dstGeneration < dst.generation ∨
          src.svm ∨ dst.svm ∨ (dstDesc.type = .buffer ∧ srcDesc.type = .buffer) := by
  rw [surfacecopy, returns_require, returns_locate]
  refine and_congr_right fun _ => at_congr fun srcDesc src => ?_
  dsimp only
  rw [returns_locate]
  refine at_congr fun dstDesc dst => ?_
  dsimp only
  split_ifs with hlt hgen hsvm
  · exact iff_of_true (returns_ok _) (Or.inl (BitVec.ne_of_lt hlt))
  · refine iff_of_true (returns_ok _) ?_
    rcases hgen with h | h
    · exact Or.inl (BitVec.ne_of_lt h).symm
    · exact Or.inr (Or.inl h)
  · exact iff_of_true (returns_ok _) (Or.inr (Or.inr (hsvm.imp id Or.inl)))
  · rw [not_or] at hgen hsvm
    have heq : src.generation = argp.srcGeneration :=
      BitVec.le_antisymm (BitVec.not_lt.mp hgen.1) (BitVec.not_lt.mp hlt)
    rw [returns_require, or_iff_right (not_not.mpr heq), or_iff_right hgen.2,
      or_iff_right hsvm.1, or_iff_right hsvm.2]
    cases copyMem argp src dst cl <;> simp [returns_ok, pure, Except.pure]

theorem returns_imagefill {argp : ImageFillOp} :
    Returns (s.imagefill argp cl) ↔ s.At argp.sid 0 fun desc x =>
      x.generation ≠ argp.generation ∨ x.svm ∨ desc.type = .buffer := by
  rw [imagefill, returns_locate]
  refine at_congr fun desc x => ?_
  dsimp only
  split_ifs with hlt hgen hsvm
  · exact iff_of_true (returns_ok _) (Or.inl (BitVec.ne_of_lt hlt))
  · exact iff_of_true (returns_ok _) (Or.inl (BitVec.ne_of_lt hgen).symm)
  · exact iff_of_true (returns_ok _) (Or.inr (Or.inl hsvm))
  · have heq : x.generation = argp.generation :=
      BitVec.le_antisymm (BitVec.not_lt.mp hgen) (BitVec.not_lt.mp hlt)
    rw [returns_require, or_iff_right (not_not.mpr heq), or_iff_right hsvm]
    cases fillMem argp x cl <;> simp [returns_ok, pure, Except.pure]

theorem returns_collectArgs {args : List KernelArg} :
    Returns (s.collectArgs args) ↔ s.ArgsValid args := by
  induction args with
  | nil => exact iff_of_true (returns_ok _) trivial
  | cons a args ih =>
    rw [collectArgs, returns_require, returns_locate]
    refine and_congr_right fun _ => at_congr fun desc x => ?_
    dsimp only
    split_ifs with hgen hlt hset
    · exact iff_of_true (returns_ok _) fun h => absurd h.1 hgen
    · exact iff_of_true (returns_ok _) fun h => absurd h.1 hgen
    · rw [← ih, imp_iff_right ⟨not_not.mp hgen, hset⟩]
      exact returns_map
    · exact iff_of_true (returns_ok _) fun h => absurd h.2 hset

theorem collectArgs_taken {args : List KernelArg} {r : StatusCode × List (List Byte)}
    (hr : s.collectArgs args = .ok r) (htaken : s.ArgsTaken args) : r.1 = .success := by
  induction args generalizing r with
  | nil =>
    cases hr
    rfl
  | cons a args ih =>
    obtain ⟨⟨hset, surf, hsurf, x, hx, hgen⟩, hrest⟩ := List.forall_mem_cons.mp htaken
    obtain ⟨_, -, hr⟩ := bind_eq_ok.mp hr
    obtain ⟨p, hp, hr⟩ := bind_eq_ok.mp hr
    have hloc : s.locate a.sid a.inst = .ok (surf.desc, x) := by
      rw [locate, readAt_ok.mpr hsurf, ok_bind, readAt_ok.mpr hx, ok_bind]
      rfl
    obtain rfl := Except.ok.inj (hloc.symm.trans hp)
    dsimp only at hr
    rw [if_neg (not_not.mpr hgen), if_neg (not_not.mpr hset)] at hr
    obtain ⟨q, hq, hr⟩ := bind_eq_ok.mp hr
    cases hr
    exact ih (r := q) hq hrest

theorem argsTaken_of_success {args : List KernelArg} {contents : List (List Byte)}
    (hr : s.collectArgs args = .ok (.success, contents)) : s.ArgsTaken args := by
  intro a ha
  obtain ⟨-, hset, p, hp, hgen⟩ := collectArgs_success_iff.mp ⟨contents, hr⟩ a ha
  obtain ⟨surf, hsurf, hp⟩ := bind_eq_ok.mp hp
  obtain ⟨x, hx, hp⟩ := bind_eq_ok.mp hp
  cases hp
  exact ⟨hset, surf, readAt_ok.mp hsurf, x, readAt_ok.mp hx, hgen⟩

theorem returns_dispatch (argp : DispatchOp) :
    Returns (s.dispatch argp cl) ↔ s.ArgsValid argp.args ∧
      (s.ArgsTaken argp.args → argp.dimension ≤ 0x1003) := by
  rw [dispatch, returns_bind, ← returns_collectArgs]
  constructor
  · rintro ⟨r, hr, hret⟩
    refine ⟨⟨r, hr⟩, fun htaken => ?_⟩
    rw [if_neg (not_not.mpr (collectArgs_taken hr htaken)), returns_require] at hret
    exact hret.1
  · rintro ⟨⟨⟨status, contents⟩, hr⟩, hdim⟩
    refine ⟨_, hr, ?_⟩
    split_ifs with hstatus hcl
    · exact returns_ok _
    · obtain rfl := not_not.mp hstatus
      exact returns_require.mpr ⟨hdim (argsTaken_of_success hr), returns_ok _⟩
    · obtain rfl := not_not.mp hstatus
      exact returns_require.mpr ⟨hdim (argsTaken_of_success hr), returns_ok _⟩

abbrev Tables (s : Backend) : Prop := Indexed maxSurfaces s.surfaces s.surfaceIds

theorem returns_surfacealloc (h : s.Tables) {argp : SurfaceAllocateDesc} {svmCapable : Bool}
    (fresh : ℕ → Byte) :
    Returns (s.surfacealloc argp svmCapable cl fresh) ↔ s.surfaceIds.Active argp.sid ∨
      if argp.desc.type = .buffer then
        (usesSvm argp.desc svmCapable ∨ argp.desc.format = .r8Typeless) ∧
          (cl = true → argp.sid.toNat < maxSurfaces)
      else argp.desc.usage = .readwrite := by
  rw [surfacealloc, h.activeId, ok_bind]
  by_cases hact : s.surfaceIds.Active argp.sid
  · rw [if_pos (decide_eq_true hact)]
    exact iff_of_true (returns_ok _) (Or.inl hact)
  · rw [if_neg fun h => hact (of_decide_eq_true h), or_iff_right hact]
    by_cases htype : argp.desc.type = .buffer
    · rw [if_neg (not_not.mpr htype), if_pos htype, returns_require]
      refine and_congr_right fun _ => ?_
      cases cl with
      | false => exact iff_of_true (returns_ok _) nofun
      | true =>
        rw [if_neg (not_not.mpr rfl), imp_iff_right rfl, returns_bind]
        constructor
        · rintro ⟨r, hr, hret⟩
          rcases acquireId_ok hr with ⟨-, rfl⟩ | ⟨hlt, -⟩
          · exact absurd (returns_require.mp hret).1 Bool.false_ne_true
          · have hlt := BitVec.lt_def.mp hlt
            rwa [h.size] at hlt
        · intro hlt
          have hsize : argp.sid < s.surfaceIds.size := BitVec.lt_def.mpr (h.size.symm ▸ hlt)
          have hbit : s.surfaceIds.bit argp.sid.toNat = false :=
            Bool.eq_false_iff.mpr fun hb => hact ⟨hsize, hb⟩
          refine ⟨_, acquireId_of_clear h.addressable hsize hbit, returns_require.mpr ⟨rfl, ?_⟩⟩
          exact returns_bind.mpr ⟨_, modifyAt_ok.mpr ⟨h.length.symm ▸ hlt, rfl⟩, returns_ok _⟩
    · rw [if_pos htype, if_neg htype, returns_require]
      exact and_iff_left (returns_ok _)

theorem returns_surfacedestroy (h : s.Tables) {sid : VMAccelId} :
    Returns (s.surfacedestroy sid) ↔ s.surfaceIds.Active sid := by
  rw [surfacedestroy, h.activeId, ok_bind, returns_require, decide_eq_true_eq]
  refine and_iff_left_of_imp fun hact => ?_
  refine returns_bind.mpr ⟨_, writeAt_ok.mpr ⟨h.length.symm ▸ h.lt_of_active hact, rfl⟩, ?_⟩
  exact returns_bind.mpr ⟨_, releaseId_of_active hact, returns_ok _⟩

theorem surfacealloc_cases (h : s.Tables) {argp : SurfaceAllocateDesc} {svmCapable : Bool}
    {fresh : ℕ → Byte} {r : StatusCode × Backend}
    (hr : s.surfacealloc argp svmCapable cl fresh = .ok r) :
    (r.1 ≠ .success ∧ r.2 = s) ∨
      (r.1 = .success ∧ cl = true ∧ argp.sid.toNat < maxSurfaces ∧
        ¬ s.surfaceIds.Active argp.sid ∧
        ∃ mem, r.2 = ⟨s.surfaces.modify argp.sid.toNat fun surf =>
          allocated surf argp.cid argp.desc (usesSvm argp.desc svmCapable) mem,
          s.surfaceIds.setBit argp.sid.toNat⟩) := by
  rw [surfacealloc, h.activeId, ok_bind] at hr
  split_ifs at hr with hact htype hcl
  · cases hr
    exact Or.inl ⟨StatusCode.noConfusion, rfl⟩
  · obtain ⟨-, -, hr⟩ := bind_eq_ok.mp hr
    cases hr
    exact Or.inl ⟨StatusCode.noConfusion, rfl⟩
  · obtain ⟨-, -, hr⟩ := bind_eq_ok.mp hr
    obtain ⟨q, hq, hr⟩ := bind_eq_ok.mp hr
    obtain ⟨_, htrue, hr⟩ := bind_eq_ok.mp hr
    obtain ⟨surfaces, hsurf, hr⟩ := bind_eq_ok.mp hr
    cases hr
    obtain ⟨hlt, rfl⟩ := modifyAt_ok.mp hsurf
    rcases acquireId_ok hq with ⟨-, rfl⟩ | ⟨-, -, -, rfl⟩
    · exact absurd (require_ok.mp htrue) Bool.false_ne_true
    · exact Or.inr ⟨rfl, hcl, h.length ▸ hlt, fun h => hact (decide_eq_true h), _, rfl⟩
  · obtain ⟨-, -, hr⟩ := bind_eq_ok.mp hr
    cases hr
    exact Or.inl ⟨StatusCode.noConfusion, rfl⟩

theorem surfacedestroy_eq {sid : VMAccelId} {r : StatusCode × Backend}
    (hr : s.surfacedestroy sid = .ok r) : s.surfaceIds.Active sid ∧
      r = (.success, ⟨s.surfaces.set sid.toNat .zero, s.surfaceIds.give sid.toNat⟩) := by
  obtain ⟨active, hactive, hr⟩ := bind_eq_ok.mp hr
  obtain ⟨_, htrue, hr⟩ := bind_eq_ok.mp hr
  have hact : s.surfaceIds.Active sid := by
    rw [← activeId_eq_ok_true, hactive, require_ok.mp htrue]
  obtain ⟨surfaces, hsurf, hr⟩ := bind_eq_ok.mp hr
  obtain ⟨ids, hids, hr⟩ := bind_eq_ok.mp hr
  cases hr
  obtain ⟨-, rfl⟩ := writeAt_ok.mp hsurf
  rw [releaseId_of_active hact] at hids
  cases hids
  exact ⟨hact, rfl⟩

end Backend

end VMAccel
