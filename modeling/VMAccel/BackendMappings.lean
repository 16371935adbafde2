import VMAccel.BackendRefCounts

/-!
# Mappings and what they stand for

`surfacemap` counts its references before it asks OpenCL, and does not take the reference back when
OpenCL refuses; the next request then finds a mapping that seems to be open. The accounts kept here
beside the backend say what the count and the pointer stand for: how many maps have succeeded and
were not unmapped yet, and what OpenCL has made for them.
-/

namespace VMAccel.Backend

open StepSystem

variable {s s' : Backend} {cl : Bool}

/-- What is owed for an instance: the maps that succeeded and were not unmapped yet, and what
OpenCL has made for them. -/
structure Account where
  opened : ℕ
  made : Option Region
  deriving DecidableEq

structure Traced where
  backend : Backend
  accounts : ℕ → ℕ → Account

namespace Traced

def powerOn : Traced := ⟨Backend.powerOn, fun _ _ => ⟨0, none⟩⟩

def credit (t : Traced) (sid inst : ℕ) (a : Account) (j k : ℕ) : Account :=
  if j = sid ∧ k = inst then a else t.accounts j k

theorem credit_self (t : Traced) (sid inst : ℕ) (a : Account) :
    t.credit sid inst a sid inst = a := if_pos ⟨rfl, rfl⟩

def close (t : Traced) (sid j k : ℕ) : Account :=
  if j = sid then ⟨0, none⟩ else t.accounts j k

/-- The account after a map that succeeded. OpenCL has made something if this is the first
reference. -/
def mapped (t : Traced) (sid inst : ℕ) (ptr : Option HostPtr) : Account where
  opened := (t.accounts sid inst).opened + 1
  made :=
    if t.backend.refCount? sid inst = some 0 then ptr.map HostPtr.region
    else (t.accounts sid inst).made

/-- The account after an unmap. OpenCL takes back what it has made if this is the last reference. -/
def unmapped (t : Traced) (sid inst : ℕ) : Account where
  opened := (t.accounts sid inst).opened - 1
  made := if t.backend.refCount? sid inst = some 1 then none else (t.accounts sid inst).made

def entry (t : Traced) : Request → ℕ → ℕ → Account
  | .surfacealloc argp svmCapable cl fresh =>
    match t.backend.surfacealloc argp svmCapable cl fresh with
    | .ok (.success, _) => t.close argp.sid.toNat
    | _ => t.accounts
  | .surfacedestroy sid => t.close sid.toNat
  | .surfacemap argp cl =>
    match t.backend.surfacemap argp cl with
    | .ok ((.success, ptr), _) =>
      t.credit argp.sid.toNat argp.inst.toNat (t.mapped argp.sid.toNat argp.inst.toNat ptr)
    | _ => t.accounts
  | .surfaceunmap argp _ =>
    t.credit argp.sid.toNat argp.inst.toNat (t.unmapped argp.sid.toNat argp.inst.toNat)
  | _ => t.accounts

def step (t : Traced) (i : Request) : Except Fault Traced := do
  let s ← t.backend.step i
  return ⟨s, t.entry i⟩

/-- The count and the pointer of a mapping stand for what the account says. -/
structure Agrees (m : VMWOpenCLMapping) (a : Account) : Prop where
  count : m.refCount.toNat = a.opened
  made : 0 < a.opened → m.ptr ≠ none ∧ a.made = m.ptr.map HostPtr.region

def Sound (t : Traced) : Prop :=
  ∀ sid inst m, t.backend.mapping? sid inst = some m → Agrees m (t.accounts sid inst)

def Counted (t : Traced) : Prop :=
  ∀ sid inst m, t.backend.mapping? sid inst = some m →
    m.refCount.toNat = (t.accounts sid inst).opened

/-- After the request every count is right, and if it was a map that succeeded, the pointer that it
returns is that of something OpenCL has made. -/
def Faithful (t : Traced) (i : Request) : Prop :=
  ∀ t', t.step i = .ok t' → t'.Counted ∧
    ∀ argp cl r, i = .surfacemap argp cl → t.backend.surfacemap argp cl = .ok r →
      r.1.1 = .success → r.1.2 ≠ none ∧
        (t'.accounts argp.sid.toNat argp.inst.toNat).made = r.1.2.map HostPtr.region

/-- OpenCL refuses no map, no count passes its 32 bits, and nothing is unmapped that is not mapped.
-/
def MapsPaired (t : Traced) : Request → Prop
  | .surfacemap argp cl => ∀ r, t.backend.surfacemap argp cl = .ok r → r.1.1 ≠ .fail ∧
      (r.1.1 = .success → (t.accounts argp.sid.toNat argp.inst.toNat).opened + 1 < 2 ^ 32)
  | .surfaceunmap argp cl => Returns (t.backend.surfaceunmap argp cl) →
      0 < (t.accounts argp.sid.toNat argp.inst.toNat).opened
  | _ => True

theorem sound_powerOn : powerOn.Sound := by
  intro sid inst m hm
  obtain ⟨x, hx, rfl⟩ := Option.map_eq_some_iff.mp hm
  obtain ⟨surf, hsurf, hx⟩ := Option.bind_eq_some_iff.mp hx
  rw [List.eq_of_mem_replicate (List.mem_of_getElem? hsurf)] at hx
  rw [mapping_of_zero hx]
  exact ⟨rfl, fun h => absurd h (Nat.lt_irrefl 0)⟩

variable {t t' : Traced} {i : Request}

theorem Sound.counted (ht : t.Sound) : t.Counted := fun sid inst m hm => (ht sid inst m hm).count

theorem Sound.credit (ht : t.Sound) {sid inst : ℕ} {m : VMWOpenCLMapping} {a : Account}
    (hs : Remaps t.backend s' sid inst m) (ha : Agrees m a) : Sound ⟨s', t.credit sid inst a⟩ := by
  intro j k n hn
  rw [hs] at hn
  change Agrees n (if j = sid ∧ k = inst then a else t.accounts j k)
  split_ifs at hn ⊢
  · cases hn
    exact ha
  · exact ht j k n hn

theorem Sound.close (ht : t.Sound) {sid : ℕ}
    (hs : ∀ j k m, s'.mapping? j k = some m →
      if j = sid then m.refCount = 0 else t.backend.mapping? j k = some m) :
    Sound ⟨s', t.close sid⟩ := by
  intro j k m hm
  have hjk := hs j k m hm
  change Agrees m (if j = sid then ⟨0, none⟩ else t.accounts j k)
  split_ifs at hjk ⊢
  · exact ⟨by rw [hjk]; rfl, fun h => absurd h (Nat.lt_irrefl 0)⟩
  · exact ht j k m hjk

theorem Sound.mapped_made (ht : t.Sound) {sid inst : ℕ} {m : VMWOpenCLMapping}
    (hm : t.backend.mapping? sid inst = some m) {ptr : Option HostPtr}
    (hnew : m.refCount = 0 → ptr ≠ none) (hold : m.refCount ≠ 0 → ptr = m.ptr) :
    ptr ≠ none ∧ (t.mapped sid inst ptr).made = ptr.map HostPtr.region := by
  obtain ⟨hcount, hmade⟩ := ht sid inst m hm
  have hfirst : t.backend.refCount? sid inst = some 0 ↔ m.refCount = 0 := by
    rw [refCount?, hm]
    exact Option.some_inj
  rw [mapped]
  by_cases h0 : m.refCount = 0
  · exact ⟨hnew h0, if_pos (hfirst.mpr h0)⟩
  · obtain ⟨hne, heq⟩ := hmade (by bv_omega)
    rw [hold h0]
    exact ⟨hne, (if_neg (mt hfirst.mp h0)).trans heq⟩

theorem Sound.mapped (ht : t.Sound) {sid inst : ℕ} {m : VMWOpenCLMapping}
    (hm : t.backend.mapping? sid inst = some m) {ptr : Option HostPtr}
    (hnew : m.refCount = 0 → ptr ≠ none) (hold : m.refCount ≠ 0 → ptr = m.ptr)
    (hlt : (t.accounts sid inst).opened + 1 < 2 ^ 32) :
    Agrees ⟨ptr, m.refCount + 1⟩ (t.mapped sid inst ptr) where
  count := by
    have hcount := (ht sid inst m hm).count
    change (m.refCount + 1).toNat = (t.accounts sid inst).opened + 1
    bv_omega
  made _ := ht.mapped_made hm hnew hold

theorem Sound.unmapped (ht : t.Sound) {sid inst : ℕ} {m m' : VMWOpenCLMapping}
    (hm : t.backend.mapping? sid inst = some m) (hcount' : m'.refCount = m.refCount - 1)
    (hptr : m.refCount ≠ 1 → m'.ptr.map HostPtr.region = m.ptr.map HostPtr.region)
    (hpos : 0 < (t.accounts sid inst).opened) : Agrees m' (t.unmapped sid inst) := by
  obtain ⟨hcount, hmade⟩ := ht sid inst m hm
  obtain ⟨hne, heq⟩ := hmade hpos
  refine ⟨?_, fun hopen => ?_⟩
  · change m'.refCount.toNat = (t.accounts sid inst).opened - 1
    rw [hcount']
    bv_omega
  · have hopen : 0 < (t.accounts sid inst).opened - 1 := hopen
    have hlast : m.refCount ≠ 1 := by bv_omega
    have hmore : t.backend.refCount? sid inst ≠ some 1 := by
      rw [refCount?, hm]
      exact fun h => hlast (Option.some.inj h)
    have hregion := hptr hlast
    refine ⟨fun hnone => hne ?_, ?_⟩
    · rw [hnone] at hregion
      exact Option.map_eq_none_iff.mp hregion.symm
    · rw [Traced.unmapped, hregion]
      exact (if_neg hmore).trans heq

theorem entry_surfacealloc {argp : SurfaceAllocateDesc} {svmCapable cl : Bool} {fresh : ℕ → Byte}
    {r : StatusCode × Backend} (hr : t.backend.surfacealloc argp svmCapable cl fresh = .ok r) :
    t.entry (.surfacealloc argp svmCapable cl fresh) =
      if r.1 = .success then t.close argp.sid.toNat else t.accounts := by
  obtain ⟨status, s⟩ := r
  rw [entry, hr]
  cases status <;> rfl

theorem entry_surfacemap {argp : SurfaceMapOp} {r : (StatusCode × Option HostPtr) × Backend}
    (hr : t.backend.surfacemap argp cl = .ok r) :
    t.entry (.surfacemap argp cl) =
      if r.1.1 = .success then t.credit argp.sid.toNat argp.inst.toNat
        (t.mapped argp.sid.toNat argp.inst.toNat r.1.2)
      else t.accounts := by
  obtain ⟨⟨status, ptr⟩, s⟩ := r
  rw [entry, hr]
  cases status <;> rfl

theorem Sound.surfacealloc (ht : t.Sound) {argp : SurfaceAllocateDesc} {svmCapable cl : Bool}
    {fresh : ℕ → Byte} (h : t.step (.surfacealloc argp svmCapable cl fresh) = .ok t') :
    t'.Sound := by
  obtain ⟨s', hs, h⟩ := bind_eq_ok.mp h
  cases h
  obtain ⟨r, hr, hs⟩ := bind_eq_ok.mp hs
  cases hs
  rw [entry_surfacealloc hr]
  split_ifs with hok
  · refine ht.close fun j k m hm => ?_
    simpa [hok] using surfacealloc_mapping hr hm
  · intro j k m hm
    refine ht j k m ?_
    simpa [hok] using surfacealloc_mapping hr hm

theorem Sound.surfacedestroy (ht : t.Sound) {sid : VMAccelId}
    (h : t.step (.surfacedestroy sid) = .ok t') : t'.Sound := by
  obtain ⟨s', hs, h⟩ := bind_eq_ok.mp h
  cases h
  obtain ⟨r, hr, hs⟩ := bind_eq_ok.mp hs
  cases hs
  exact ht.close fun j k m hm => surfacedestroy_mapping hr hm

theorem Sound.leavesMappings (ht : t.Sound) (hi : i.LeavesMappings) (h : t.step i = .ok t') :
    t'.Sound := by
  obtain ⟨s', hs, h⟩ := bind_eq_ok.mp h
  cases h
  have hentry : t.entry i = t.accounts := by
    cases i <;> first | rfl | exact hi.elim
  intro j k m hm
  rw [hentry]
  exact ht j k m ((mapping?_of_leavesMappings hi hs j k).symm.trans hm)

section Map

variable {argp : SurfaceMapOp} {r : (StatusCode × Option HostPtr) × Backend}

theorem Sound.surfacemap (ht : t.Sound) (hr : t.backend.surfacemap argp cl = .ok r)
    (hc : t.MapsPaired (.surfacemap argp cl)) : Sound ⟨r.2, t.entry (.surfacemap argp cl)⟩ := by
  obtain ⟨hfail, hlt⟩ := hc r hr
  rw [entry_surfacemap hr]
  obtain ⟨m, hm, rfl | ⟨heq, -, -⟩ | ⟨ptr, hok, hnew, hold, hs⟩⟩ := surfacemap_mapping hr
  · exact ht
  · exact absurd (congrArg Prod.fst heq) hfail
  · rw [hok] at hlt ⊢
    exact ht.credit hs (ht.mapped hm hnew hold (hlt rfl))

theorem Sound.made_surfacemap (ht : t.Sound) (hr : t.backend.surfacemap argp cl = .ok r)
    (hstatus : r.1.1 = .success) : r.1.2 ≠ none ∧
      (t.entry (.surfacemap argp cl) argp.sid.toNat argp.inst.toNat).made =
        r.1.2.map HostPtr.region := by
  rw [entry_surfacemap hr, if_pos hstatus, credit_self]
  obtain ⟨m, hm, rfl | ⟨heq, -, -⟩ | ⟨ptr, hok, hnew, hold, -⟩⟩ := surfacemap_mapping hr
  · cases hstatus
  · rw [heq] at hstatus
    cases hstatus
  · rw [hok]
    exact ht.mapped_made hm hnew hold

/-- A map that OpenCL refuses is counted and not in the account; at the end of its 32 bits the count
begins again at 0. -/
theorem Sound.paired_surfacemap (ht : t.Sound) (hr : t.backend.surfacemap argp cl = .ok r)
    (h : Counted ⟨r.2, t.entry (.surfacemap argp cl)⟩) : r.1.1 ≠ .fail ∧
      (r.1.1 = .success → (t.accounts argp.sid.toNat argp.inst.toNat).opened + 1 < 2 ^ 32) := by
  have hentry := entry_surfacemap hr
  obtain ⟨m, hm, rfl | ⟨heq, h0, hs⟩ | ⟨ptr, heq, -, -, hs⟩⟩ := surfacemap_mapping hr
  · exact ⟨StatusCode.noConfusion, StatusCode.noConfusion⟩
  · have hcount : (m.refCount + 1).toNat = (t.entry _ _ _).opened :=
      h _ _ _ ((hs _ _).trans (if_pos ⟨rfl, rfl⟩))
    rw [hentry, heq, if_neg StatusCode.noConfusion, ← (ht _ _ m hm).count, h0] at hcount
    cases hcount
  · have hcount : (m.refCount + 1).toNat = (t.entry _ _ _).opened :=
      h _ _ _ ((hs _ _).trans (if_pos ⟨rfl, rfl⟩))
    rw [hentry, heq, if_pos rfl, credit_self] at hcount
    rw [heq]
    refine ⟨StatusCode.noConfusion, fun _ => ?_⟩
    change (t.mapped argp.sid.toNat argp.inst.toNat ptr).opened < 2 ^ 32
    rw [← hcount]
    exact (m.refCount + 1).isLt

end Map

section Unmap

variable {argp : SurfaceUnmapOp} {r : StatusCode × Backend}

theorem Sound.surfaceunmap (ht : t.Sound) (hr : t.backend.surfaceunmap argp cl = .ok r)
    (hc : t.MapsPaired (.surfaceunmap argp cl)) :
    Sound ⟨r.2, t.entry (.surfaceunmap argp cl)⟩ := by
  obtain ⟨m, m', hm, hcount, hptr, hs⟩ := surfaceunmap_mapping hr
  exact ht.credit hs (ht.unmapped hm hcount hptr (hc ⟨r, hr⟩))

theorem Sound.paired_surfaceunmap (ht : t.Sound) (hr : t.backend.surfaceunmap argp cl = .ok r)
    (h : Counted ⟨r.2, t.entry (.surfaceunmap argp cl)⟩) :
    0 < (t.accounts argp.sid.toNat argp.inst.toNat).opened := by
  obtain ⟨m, m', hm, hcount', -, hs⟩ := surfaceunmap_mapping hr
  have hbefore := (ht _ _ m hm).count
  have hafter : m'.refCount.toNat = (t.entry _ _ _).opened :=
    h _ _ _ ((hs _ _).trans (if_pos ⟨rfl, rfl⟩))
  rw [entry, credit_self, hcount'] at hafter
  change (m.refCount - 1).toNat = (t.accounts argp.sid.toNat argp.inst.toNat).opened - 1 at hafter
  bv_omega

end Unmap

theorem Sound.step (ht : t.Sound) (hc : t.MapsPaired i) (h : t.step i = .ok t') : t'.Sound := by
  cases i with
  | surfacealloc argp svmCapable cl fresh => exact ht.surfacealloc h
  | surfacedestroy sid => exact ht.surfacedestroy h
  | surfacemap argp cl =>
    obtain ⟨s', hs, h⟩ := bind_eq_ok.mp h
    cases h
    obtain ⟨r, hr, hs⟩ := bind_eq_ok.mp hs
    cases hs
    exact ht.surfacemap hr hc
  | surfaceunmap argp cl =>
    obtain ⟨s', hs, h⟩ := bind_eq_ok.mp h
    cases h
    obtain ⟨r, hr, hs⟩ := bind_eq_ok.mp hs
    cases hs
    exact ht.surfaceunmap hr hc
  | _ => exact ht.leavesMappings (by trivial) h

theorem Sound.faithful (ht : t.Sound) (hc : t.MapsPaired i) : t.Faithful i := by
  intro t' h
  refine ⟨(ht.step hc h).counted, ?_⟩
  rintro argp cl r rfl hr hstatus
  obtain ⟨s', -, h⟩ := bind_eq_ok.mp h
  cases h
  exact ht.made_surfacemap hr hstatus

theorem Sound.mapsPaired (ht : t.Sound) (hf : t.Faithful i) : t.MapsPaired i := by
  cases i with
  | surfacemap argp cl =>
    intro r hr
    have hstep : t.step (.surfacemap argp cl) = .ok ⟨r.2, t.entry (.surfacemap argp cl)⟩ := by
      rw [Traced.step, Backend.step, hr]
      rfl
    exact ht.paired_surfacemap hr (hf _ hstep).1
  | surfaceunmap argp cl =>
    rintro ⟨r, hr⟩
    have hstep : t.step (.surfaceunmap argp cl) = .ok ⟨r.2, t.entry (.surfaceunmap argp cl)⟩ := by
      rw [Traced.step, Backend.step, hr]
      rfl
    exact ht.paired_surfaceunmap hr (hf _ hstep).1
  | _ => trivial

end Traced

/-- What a map could leave behind in an instance. -/
def trace (s : Backend) (sid inst : ℕ) : Option (VMWOpenCLMapping × BitVec 32) :=
  (s.instance? sid inst).map fun x => (x.mapping, x.generation)

/-- A map that fails leaves mapping and generation of its instance as they were exactly if it was
stale. In every run, the counts are those of the successful maps that were not unmapped yet and
every map that succeeds returns the pointer of something OpenCL has made, exactly if OpenCL refuses
no map, no count passes its 32 bits and nothing is unmapped that is not mapped. -/
theorem failed_map_traceless_iff (s : Backend) (argp : SurfaceMapOp) (cl : Bool)
    (is : List Request) :
    (∀ r, s.surfacemap argp cl = .ok r → r.1.1 ≠ .success →
      (r.2.trace argp.sid.toNat argp.inst.toNat = s.trace argp.sid.toNat argp.inst.toNat ↔
        r.1.1 = .semanticError)) ∧
    (EachInput Traced.step Traced.Faithful .powerOn is ↔
      EachInput Traced.step Traced.MapsPaired .powerOn is) := by
  refine ⟨fun r hr hne => ?_, ?_⟩
  · obtain ⟨desc, x, -, hx, ⟨-, rfl⟩ | ⟨-, -, ⟨-, rfl⟩ | ⟨ptr, -, rfl⟩⟩⟩ := surfacemap_ok hr
    · exact iff_of_true rfl rfl
    · refine iff_of_false (fun h => ?_) StatusCode.noConfusion
      rw [trace, trace, instance?_setInstance hx, if_pos ⟨rfl, rfl⟩, hx] at h
      have hcount := congrArg (fun p => p.1.refCount) (Option.some.inj h)
      change x.mapping.refCount + 1 = x.mapping.refCount at hcount
      bv_omega
    · exact absurd rfl hne
  · exact eachInput_iff (fun t i ht => ⟨ht.mapsPaired, ht.faithful⟩)
      (fun t i t' ht hc => ht.step hc) Traced.sound_powerOn

def demoAlloc : Request := .surfacealloc
  ⟨1, 3, ⟨.buffer, 4, 1, 1, .r8Typeless, .auto, .readwrite⟩⟩ true true fun _ => 0

def demoMap : SurfaceMapOp := ⟨3, 0, 1, 0, 4, false⟩

/-- OpenCL refuses a map, and the count is 1 with no map that has succeeded. The next map succeeds
with no pointer, though OpenCL would have made a mapping. -/
theorem map_after_refused_map :
    (do
      let t ← run Traced.step .powerOn [demoAlloc, .surfacemap demoMap false]
      return (t.backend.refCount? 3 0, (t.accounts 3 0).opened)) = .ok (some 1, 0) ∧
    (do
      let s ← run Backend.step .powerOn [demoAlloc, .surfacemap demoMap false]
      let r ← s.surfacemap demoMap true
      return r.1) = .ok (.success, none) := by
  decide +kernel

end VMAccel.Backend
