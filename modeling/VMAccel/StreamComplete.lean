import VMAccel.StreamServerSpec
import VMAccel.BackendDispatch

/-!
# Complete data behind a generation

The unmap of a packet gives the surface the packet's generation, and every way out of the payload
loop leads to the unmap. So the generation vouches for the whole payload exactly when the payload
arrives before the connection ends, an error occurs or the server shuts down.
-/

namespace VMAccel.StreamServer

open StepSystem

/-- The whole payload of a packet that fits its mapping arrives. -/
def Uninterrupted (p : VMAccelStreamPacket) (mapped : ℕ) (conn : Conn) : Prop :=
  p.type = vmclUpload → p.len.toNat ≤ mapped →
    p.len.toNat ≤ arriving conn.ticks ∧ p.len.toNat ≤ conn.rest.length

instance (p : VMAccelStreamPacket) (mapped : ℕ) (conn : Conn) :
    Decidable (Uninterrupted p mapped conn) := inferInstanceAs (Decidable (_ → _))

theorem length_recvPayload (ticks : List Tick) (rest : List Byte) (n : ℕ) :
    (recvPayload ticks rest n []).1.length = n ↔ n ≤ arriving ticks ∧ n ≤ rest.length := by
  rw [recvPayload_fst, List.nil_append, List.length_take]
  omega

theorem unmapped_mem_handle {p : VMAccelStreamPacket} {mapped : ℕ} {conn : Conn}
    {es : List Event} {c : Option Conn} (h : handle (recording mapped) p conn [] = .ok (es, c))
    (op : VMCLSurfaceUnmapOp) (bytes : List Byte) :
    .unmapped op bytes ∈ es ↔ p.type = vmclUpload ∧ p.len.toNat ≤ mapped ∧ op = unmapOp p.desc ∧
      bytes = (recvPayload conn.ticks conn.rest p.len.toNat []).1 := by
  rw [handle] at h
  split_ifs at h with htype
  · simp only [recording, ok_bind, stored] at h
    split_ifs at h with hlen
    · cases h
      simp [hlen]
    · cases h
      simp [htype, not_lt.mp hlen]
  · cases h
    simp [htype]

theorem surfacemap_generation {clMap clUnmap : Bool} {desc : VMCLSurfaceMapOp} {s : Backend}
    {m : ℕ × Backend} (h : (vmwopencl clMap clUnmap).surfacemap desc s = .ok m) (sid inst : ℕ) :
    (m.2.instance? sid inst).map VMWOpenCLSurfaceInstance.generation =
      (s.instance? sid inst).map VMWOpenCLSurfaceInstance.generation := by
  obtain ⟨r, hr, hm⟩ := bind_eq_ok.mp h
  cases hm
  obtain ⟨-, x, -, hx, ⟨-, rfl⟩ | ⟨-, -, ⟨-, rfl⟩ | ⟨ptr, -, rfl⟩⟩⟩ := Backend.surfacemap_ok hr
  · rfl
  · rw [Backend.instance?_setInstance hx]
    split_ifs with h
    · rw [h.1, h.2, hx]
      rfl
    · rfl
  · rw [Backend.instance?_setInstance hx]
    split_ifs with h
    · rw [h.1, h.2, hx]
      rfl
    · rfl

def Awaits (a : KernelArg) (p : VMAccelStreamPacket) (s : Backend) : Prop :=
  a.sid = p.desc.surf.id ∧ a.inst = p.desc.surf.inst ∧ a.generation = p.desc.surf.generation ∧
    (s.instance? a.sid.toNat a.inst.toNat).map VMWOpenCLSurfaceInstance.generation ≠
      some a.generation

theorem generation_of_dispatch {s : Backend} {argp : DispatchOp} {cl : Bool}
    {r : StatusCode × Backend} (h : s.dispatch argp cl = .ok r) (hr : r.1 = .success)
    {a : KernelArg} (ha : a ∈ argp.args) :
    (s.instance? a.sid.toNat a.inst.toNat).map VMWOpenCLSurfaceInstance.generation =
      some a.generation := by
  rcases Backend.dispatch_ok h with ⟨hne, -⟩ | ⟨contents, hargs, -⟩
  · exact absurd hr hne
  · obtain ⟨x, hx, hgen⟩ := Backend.collectArgs_success hargs a ha
    rw [hx, ← hgen]
    rfl

theorem mapped_of_awaits {p : VMAccelStreamPacket} {conn : Conn} {clMap clUnmap cl : Bool}
    {s s' : Backend} {m : ℕ × Backend} {c : Option Conn} {argp : DispatchOp}
    {r : StatusCode × Backend} {a : KernelArg}
    (hm : (vmwopencl clMap clUnmap).surfacemap p.desc s = .ok m)
    (hs : handle (vmwopencl clMap clUnmap) p conn s = .ok (s', c))
    (hdisp : s'.dispatch argp cl = .ok r) (hr : r.1 = .success) (ha : a ∈ argp.args)
    (hawaits : Awaits a p s) : p.type = vmclUpload ∧ p.len.toNat ≤ m.1 := by
  obtain ⟨-, -, -, hwait⟩ := hawaits
  have hgen := generation_of_dispatch hdisp hr ha
  rw [handle] at hs
  split_ifs at hs with htype
  · refine ⟨htype, not_lt.mp fun hlt => hwait ?_⟩
    rw [hm, ok_bind, stored, if_pos hlt] at hs
    cases hs
    rw [← hgen, surfacemap_generation hm]
  · cases hs
    exact absurd hgen hwait

/-- The unmap of a packet comes only after its whole payload exactly when the payload arrives
uninterrupted; and then a kernel that waits for the generation runs on complete data. -/
theorem generation_complete_iff (p : VMAccelStreamPacket) (conn : Conn) :
    (∀ mapped, (∀ es c, handle (recording mapped) p conn [] = .ok (es, c) →
        ∀ op bytes, .unmapped op bytes ∈ es → bytes.length = p.len.toNat) ↔
      Uninterrupted p mapped conn) ∧
    ∀ clMap clUnmap cl s m s' c argp r a,
      (vmwopencl clMap clUnmap).surfacemap p.desc s = .ok m → Uninterrupted p m.1 conn →
      handle (vmwopencl clMap clUnmap) p conn s = .ok (s', c) → Awaits a p s → a ∈ argp.args →
      s'.dispatch argp cl = .ok r → r.1 = .success →
      (recvPayload conn.ticks conn.rest p.len.toNat []).1.length = p.len.toNat := by
  refine ⟨fun mapped => ⟨fun h htype hlen => ?_, fun h es c hes op bytes hmem => ?_⟩, ?_⟩
  · rw [← length_recvPayload]
    obtain ⟨es, c, hes⟩ : ∃ es c, handle (recording mapped) p conn [] = .ok (es, c) := by
      simp only [handle, if_pos htype, recording, ok_bind, stored, if_neg (not_lt.mpr hlen)]
      exact ⟨_, _, rfl⟩
    exact h es c hes _ _ ((unmapped_mem_handle hes _ _).mpr ⟨htype, hlen, rfl, rfl⟩)
  · obtain ⟨htype, hlen, -, rfl⟩ := (unmapped_mem_handle hes op bytes).mp hmem
    exact (length_recvPayload _ _ _).mpr (h htype hlen)
  · intro clMap clUnmap cl s m s' c argp r a hm h hs hawaits ha hdisp hr
    obtain ⟨htype, hlen⟩ := mapped_of_awaits hm hs hdisp hr ha hawaits
    exact (length_recvPayload _ _ _).mpr (h htype hlen)

def demoPacket : VMAccelStreamPacket :=
  ⟨vmclUpload, 4, ⟨⟨1, 0⟩, ⟨1, 0, 3, 0, 0, 7⟩, 0, 0, 0, 4, 0, 2⟩⟩

def demoConn : Conn := ⟨[⟨false, 2⟩, ⟨false, 0⟩], [10, 11]⟩

def demoDispatch : DispatchOp := ⟨[⟨true, 3, 0, 7, true⟩], 1, fun _ _ _ => 0⟩

/-- Half of the payload is published as generation 7, and the kernel that waited for it runs. -/
theorem generation_of_partial_payload :
    handle (recording 4) demoPacket demoConn [] =
      .ok ([.mapped demoPacket.desc, .unmapped (unmapOp demoPacket.desc) [10, 11]],
        some ⟨[], []⟩) ∧
    (do
      let s ← run Backend.step .powerOn [.surfacealloc
        ⟨1, 3, ⟨.buffer, 4, 1, 1, .r8Typeless, .auto, .readwrite⟩⟩ true true fun _ => 0]
      let before ← s.dispatch demoDispatch true
      let q ← handle (vmwopencl true true) demoPacket demoConn s
      let after ← q.1.dispatch demoDispatch true
      return (before.1, after.1)) = .ok (.resourceUnavailable, .success) := by
  decide +kernel

end VMAccel.StreamServer
