import VMAccel.BackendMappings
import VMAccel.BackendSized
import VMAccel.ServerSpec
import Mathlib.Order.Interval.Set.Basic

/-!
# The bytes behind a mapping

A map answers with a pointer and the size that it was asked for, and an unmap copies as many bytes
as it is sent. The backend compares neither with what is mapped. The results below say which
requests a client may send so that the replies and the copies still stay inside of the mapping.
-/

namespace VMAccel

namespace Region

/-- The bytes of the surface that a mapping has open. -/
def bytes (width : ℕ) : Option Region → Set ℕ
  | some region => Set.Ico region.start (region.start + region.length width)
  | none => ∅

def denoted (size : ℕ) : Option Region → Set ℕ
  | some region => Set.Ico region.start (region.start + size)
  | none => ∅

/-- The bytes behind a pointer are those asked for, in the surface and open, exactly if there are
none or the region begins where they begin and is long enough. -/
theorem exposed_iff {width offset size : ℕ} {o : Option Region}
    (hinside : ∀ region ∈ o, region.start + region.length width ≤ width) :
    (denoted size o = Set.Ico offset (offset + size) ∧
      Set.Ico offset (offset + size) ⊆ Set.Ico 0 width ∧
      Set.Ico offset (offset + size) ⊆ bytes width o) ↔
    size = 0 ∨ ∃ region ∈ o, region.start = offset ∧ size ≤ region.length width := by
  rcases Nat.eq_zero_or_pos size with rfl | hpos
  · have hempty : denoted 0 o = ∅ := by
      cases o with
      | none => rfl
      | some region => exact Set.Ico_self region.start
    simp [hempty]
  · have hfirst : offset ∈ Set.Ico offset (offset + size) := ⟨le_rfl, by omega⟩
    have hlast : offset + size - 1 ∈ Set.Ico offset (offset + size) := ⟨by omega, by omega⟩
    constructor
    · rintro ⟨heq, -, hopen⟩
      cases o with
      | none =>
        rw [← heq] at hfirst
        exact absurd hfirst (Set.notMem_empty offset)
      | some region =>
        refine Or.inr ⟨region, rfl, ?_⟩
        have hstart : region.start ∈ denoted size (some region) := ⟨le_rfl, by omega⟩
        rw [heq] at hstart
        have hle : region.start ≤ offset := (hopen hfirst).1
        have hlt : offset + size - 1 < region.start + region.length width := (hopen hlast).2
        have hge := hstart.1
        omega
    · rintro (rfl | ⟨region, rfl, rfl, hsize⟩)
      · exact absurd hpos (Nat.lt_irrefl 0)
      · have hend := hinside region rfl
        exact ⟨rfl, Set.Ico_subset_Ico (Nat.zero_le _) (by omega),
          Set.Ico_subset_Ico le_rfl (by omega)⟩

end Region

/-- The bytes that a map asks for. -/
def SurfaceMapOp.asked (argp : SurfaceMapOp) : Set ℕ :=
  Set.Ico argp.offset.toNat (argp.offset.toNat + argp.size.toNat)

namespace Backend

open StepSystem VMWOpenCLSurfaceInstance

variable {s s' : Backend} {cl : Bool}

theorem Sized.surfacemap_region (h : s.Sized) {argp : SurfaceMapOp}
    {r : (StatusCode × Option HostPtr) × Backend} (hr : s.surfacemap argp cl = .ok r)
    (hok : r.1.1 = .success) : ∃ desc x z, s.descs[argp.sid.toNat]? = some desc ∧
      s.instance? argp.sid.toNat argp.inst.toNat = some x ∧
      r.2.instance? argp.sid.toNat argp.inst.toNat = some z ∧ Fitted desc z ∧
      z.region = opening argp x ∧ r.1.2.map HostPtr.region = opening argp x := by
  have hsized := h.surfacemap hr
  obtain ⟨desc, x, hdesc, hx, ⟨-, rfl⟩ | ⟨-, htype, ⟨-, rfl⟩ | ⟨ptr, hptr, rfl⟩⟩⟩ :=
    surfacemap_ok hr
  · cases hok
  · cases hok
  · obtain ⟨hopen, -⟩ := mapPtr_region hptr
    have hz := (instance?_setInstance (x := { x with mapping := ⟨ptr, x.mapping.refCount + 1⟩ })
      hx argp.sid.toNat argp.inst.toNat).trans (if_pos ⟨rfl, rfl⟩)
    exact ⟨desc, x, _, hdesc, hx, hz, (h.fitted _ _ _ _ hdesc hx).mapped htype hptr _, hopen, hopen⟩

/-- If the request is a map that succeeds, then the pointer and the size of the reply are the bytes
asked for, these are bytes of the surface, and they are mapped. -/
def Exposes (s : Backend) : Request → Prop
  | .surfacemap argp cl => ∀ r, s.surfacemap argp cl = .ok r → r.1.1 = .success →
      ∃ desc z, s.descs[argp.sid.toNat]? = some desc ∧
        r.2.instance? argp.sid.toNat argp.inst.toNat = some z ∧
        Region.denoted argp.size.toNat (r.1.2.map HostPtr.region) = argp.asked ∧
        argp.asked ⊆ Set.Ico 0 desc.width.toNat ∧
        argp.asked ⊆ Region.bytes desc.width.toNat z.region
  | _ => True

/-- If the request is a map that succeeds, then it asks for no bytes, or for the first ones of what
is open or what it opens. -/
def AsksFromStart (s : Backend) : Request → Prop
  | .surfacemap argp cl => ∀ r desc x, s.surfacemap argp cl = .ok r → r.1.1 = .success →
      s.descs[argp.sid.toNat]? = some desc →
      s.instance? argp.sid.toNat argp.inst.toNat = some x →
      argp.size.toNat = 0 ∨ ∃ region ∈ opening argp x, region.start = argp.offset.toNat ∧
        argp.size.toNat ≤ region.length desc.width.toNat
  | _ => True

theorem Sized.exposes_iff (h : s.Sized) (i : Request) : s.Exposes i ↔ s.AsksFromStart i := by
  cases i with
  | surfacemap argp cl =>
    constructor
    · intro he r desc x hr hok hdesc hx
      obtain ⟨desc', z', hdesc', hz', hbytes⟩ := he r hr hok
      obtain ⟨desc'', x', z, hdesc'', hx', hz, hfit, hregion, hptr⟩ := h.surfacemap_region hr hok
      rw [hdesc] at hdesc' hdesc''
      rw [hx] at hx'
      rw [hz] at hz'
      cases hdesc'
      cases hdesc''
      cases hx'
      cases hz'
      rw [hptr, hregion] at hbytes
      have hinside := fun region hr => (hfit.inside region (hregion.trans hr)).2
      exact (Region.exposed_iff hinside).mp hbytes
    · intro ha r hr hok
      obtain ⟨desc, x, z, hdesc, hx, hz, hfit, hregion, hptr⟩ := h.surfacemap_region hr hok
      refine ⟨desc, z, hdesc, hz, ?_⟩
      rw [hptr, hregion]
      exact (Region.exposed_iff fun region hr => (hfit.inside region (hregion.trans hr)).2).mpr
        (ha r desc x hr hok hdesc hx)
  | _ => exact Iff.rfl

/-- In every run, every map that succeeds exposes exactly the bytes it asks for, in the surface and
in what is mapped, exactly if every such map asks for the first bytes of the shared virtual memory,
of what is open, or of a buffer region that it opens itself. -/
theorem map_exposes_asked_iff (is : List Request) :
    EachInput Backend.step Exposes .powerOn is ↔
      EachInput Backend.step AsksFromStart .powerOn is :=
  eachInput_iff (fun _ i hs => hs.exposes_iff i) (fun _ _ _ hs _ hstep => hs.step hstep)
    sized_powerOn

def demoSvmAlloc : Request := .surfacealloc
  ⟨1, 3, ⟨.buffer, 4, 1, 1, .r8Typeless, .systemMemory, .readwrite⟩⟩ true true fun _ => 0

/-- The bytes 2 and 3 are asked for. In shared virtual memory, and in a buffer that is mapped
already, the reply is a pointer to the bytes 0 and 1; of shared virtual memory even eight bytes are
granted. -/
theorem map_ignores_offset :
    (do
      let s ← run Backend.step .powerOn [demoSvmAlloc]
      let r ← s.surfacemap ⟨3, 0, 1, 2, 2, false⟩ true
      let q ← s.surfacemap ⟨3, 0, 1, 0, 8, false⟩ true
      return (r.1, q.1)) = .ok ((.success, some .svm), (.success, some .svm)) ∧
    (do
      let s ← run Backend.step .powerOn [demoAlloc, .surfacemap demoMap true]
      let r ← s.surfacemap ⟨3, 0, 1, 2, 2, false⟩ true
      return (r.1.1, r.1.2.map HostPtr.region)) = .ok (.success, some (.mapped 0 4)) ∧
    Region.denoted 2 (some .svm) ≠ SurfaceMapOp.asked ⟨3, 0, 1, 2, 2, false⟩ := by
  refine ⟨by decide +kernel, by decide +kernel, fun h => ?_⟩
  have hzero : 0 ∈ Region.denoted 2 (some .svm) := ⟨le_rfl, by decide⟩
  rw [h] at hzero
  exact absurd hzero.1 (by decide)

theorem fitsMapping_iff_le_room {x : VMWOpenCLSurfaceInstance} {bytes : List Byte} :
    FitsMapping x bytes ↔ bytes.length ≤ x.room := by
  unfold FitsMapping room region
  cases x.mapping.ptr with
  | none => exact (Nat.le_zero.trans List.length_eq_zero_iff).symm
  | some ptr =>
    cases ptr with
    | svm => exact Iff.rfl
    | mapped offset old => exact Iff.rfl

/-- If the request is an unmap, then it copies no more than what fits behind the pointer of the
mapping, without a mapping it copies nothing and the count stays 0, and the count does not grow. -/
def WritesMapped (s : Backend) : Request → Prop
  | .surfaceunmap argp cl => ∀ x, s.instance? argp.sid.toNat argp.inst.toNat = some x →
      Returns (copyIn x argp.bytes) ∧
      (x.mapping.refCount = 0 → argp.bytes = [] ∧ ∀ r, s.surfaceunmap argp cl = .ok r →
        r.2.refCount? argp.sid.toNat argp.inst.toNat = some 0) ∧
      ∀ r n, s.surfaceunmap argp cl = .ok r →
        r.2.refCount? argp.sid.toNat argp.inst.toNat = some n → n ≤ x.mapping.refCount
  | _ => True

/-- If the request is an unmap, then the instance is mapped and the bytes fit. -/
def UnmapsOpen (s : Backend) : Request → Prop
  | .surfaceunmap argp _ => ∀ x, s.instance? argp.sid.toNat argp.inst.toNat = some x →
      x.mapping.refCount ≠ 0 ∧ argp.bytes.length ≤ x.room
  | _ => True

theorem writesMapped_iff (s : Backend) (i : Request) : s.WritesMapped i ↔ s.UnmapsOpen i := by
  cases i with
  | surfaceunmap argp cl =>
    refine forall_congr' fun x => forall_congr' fun hx => ?_
    have hn : s.refCount? argp.sid.toNat argp.inst.toNat = some x.mapping.refCount := by
      rw [refCount?, mapping?, hx]
      rfl
    have hself : ∀ {r}, s.surfaceunmap argp cl = .ok r →
        r.2.refCount? argp.sid.toNat argp.inst.toNat = some (x.mapping.refCount - 1) :=
      fun hr => (surfaceunmap_recounts hr hn).self
    constructor
    · rintro ⟨hcopy, hzero, -⟩
      have hfit := returns_copyIn.mp hcopy
      refine ⟨fun h0 => ?_, fitsMapping_iff_le_room.mp hfit⟩
      -- a count of 0 would have to stay 0, but it wraps
      obtain ⟨surf, hsurf, hinst⟩ := Option.bind_eq_some_iff.mp hx
      obtain ⟨r, hr⟩ := (returns_surfaceunmap (s := s)).mpr ⟨surf, hsurf, x, hinst, hfit⟩
      have hwrapped := (hself hr).symm.trans ((hzero h0).2 r hr)
      rw [h0] at hwrapped
      cases hwrapped
    · rintro ⟨hne, hfit⟩
      refine ⟨returns_copyIn.mpr (fitsMapping_iff_le_room.mpr hfit), fun h0 => absurd h0 hne,
        fun r n hr hn => ?_⟩
      rw [hself hr] at hn
      cases hn
      bv_omega
  | _ => exact Iff.rfl

/-- If the request is an unmap, then maps are open and it sends no more bytes than what OpenCL has
made for them. -/
def Traced.Repays (t : Traced) : Request → Prop
  | .surfaceunmap argp _ => ∀ x, t.backend.instance? argp.sid.toNat argp.inst.toNat = some x →
      0 < (t.accounts argp.sid.toNat argp.inst.toNat).opened ∧
      argp.bytes.length ≤ ((t.accounts argp.sid.toNat argp.inst.toNat).made.map
        (Region.length x.mem.length)).getD 0
  | _ => True

theorem Traced.Sound.unmapsOpen_iff {t : Traced} (ht : t.Sound) (i : Request) :
    t.backend.UnmapsOpen i ↔ t.Repays i := by
  cases i with
  | surfaceunmap argp cl =>
    refine forall_congr' fun x => forall_congr' fun hx => ?_
    have hm : t.backend.mapping? argp.sid.toNat argp.inst.toNat = some x.mapping := by
      rw [mapping?, hx]
      rfl
    obtain ⟨hcount, hmade⟩ := ht _ _ _ hm
    have hopen : x.mapping.refCount ≠ 0 ↔
        0 < (t.accounts argp.sid.toNat argp.inst.toNat).opened := by
      rw [← hcount]
      constructor <;> intro h <;> bv_omega
    rw [hopen]
    refine and_congr_right fun hpos => ?_
    rw [(hmade hpos).2]
    rfl
  | _ => exact Iff.rfl

/-- In every run, every unmap stays inside of the mapping and every count stays at or above 0
exactly if every unmap is of an instance with a count above 0 and sends no more bytes than there
are behind its pointer. As long as the maps are paired, this means no more than OpenCL has made for
the maps that are open. -/
theorem unmap_writes_mapped_iff (is : List Request) :
    (EachInput Backend.step WritesMapped .powerOn is ↔
      EachInput Backend.step UnmapsOpen .powerOn is) ∧
    (EachInput Traced.step (fun t i => t.MapsPaired i ∧ t.backend.WritesMapped i) .powerOn is ↔
      EachInput Traced.step (fun t i => t.MapsPaired i ∧ t.Repays i) .powerOn is) := by
  constructor
  · exact eachInput_iff (fun s i (_ : True) => s.writesMapped_iff i) (fun _ _ _ _ _ _ => trivial)
      trivial
  · refine eachInput_iff (fun t i ht => and_congr_right fun _ => ?_)
      (fun t i t' ht hc hstep => ht.step hc.1 hstep) Traced.sound_powerOn
    rw [writesMapped_iff, ht.unmapsOpen_iff]

/-- An unmap of a surface that is not mapped leaves the largest count; an unmap with four bytes
after a map of two writes beyond them. -/
theorem unmap_writes_unmapped :
    (do
      let s ← run Backend.step .powerOn [demoAlloc, .surfaceunmap ⟨3, 0, 1, []⟩ true]
      return s.refCount? 3 0) = .ok (some 0xFFFFFFFF) ∧
    run Backend.step .powerOn [demoAlloc, .surfacemap ⟨3, 0, 1, 0, 2, false⟩ true,
      .surfaceunmap ⟨3, 0, 1, [1, 2, 3, 4]⟩ true] = .error .outOfBounds := by
  decide +kernel

end Backend

end VMAccel
