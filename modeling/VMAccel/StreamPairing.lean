import VMAccel.BackendRefCounts
import VMAccel.StreamServer

/-!
# Maps and unmaps of the receiving end

The thread looks at the length of a mapping and not at its status. It unmaps when the payload is
not longer than what was mapped: also after a map that failed, whose length is 0, if the payload is
empty; and it does not unmap what it has mapped for a payload that is too long.
-/

namespace VMAccel.StreamServer

open StepSystem

inductive Call
  | map (desc : VMCLSurfaceMapOp) (status : StatusCode)
  | unmap (op : VMCLSurfaceUnmapOp)
  deriving DecidableEq

/-- Callbacks that keep a record. Every map answers with the same status and length. -/
def answering (status : StatusCode) (mapped : ℕ) : Callbacks (List Call) where
  surfacemap desc calls := .ok (mapped, calls ++ [.map desc status])
  surfaceunmap op _ calls := .ok (calls ++ [.unmap op])

/-- The calls for one packet: a map if its type is known, then an unmap or none. -/
def calls (p : VMAccelStreamPacket) (status : StatusCode) (unmaps : Bool) : List Call :=
  if p.type = vmclUpload then
    .map p.desc status :: (if unmaps then [.unmap (unmapOp p.desc)] else [])
  else []

theorem calls_eq_iff {p : VMAccelStreamPacket} {status : StatusCode} {b b' : Bool} :
    calls p status b = calls p status b' ↔ (p.type = vmclUpload → b = b') := by
  unfold calls
  by_cases htype : p.type = vmclUpload
  · rw [if_pos htype, if_pos htype]
    cases b <;> cases b' <;> simp [htype]
  · rw [if_neg htype, if_neg htype]
    exact iff_of_true rfl fun h => absurd h htype

theorem handle_answering (p : VMAccelStreamPacket) (conn : Conn) (status : StatusCode)
    (mapped : ℕ) : ∃ c, handle (answering status mapped) p conn [] =
      .ok (calls p status (p.len.toNat ≤ mapped), c) := by
  unfold handle calls
  by_cases htype : p.type = vmclUpload
  · rw [if_pos htype, if_pos htype, answering, ok_bind, stored]
    by_cases hlen : mapped < p.len.toNat
    · rw [if_pos hlen, decide_eq_false (not_le.mpr hlen)]
      exact ⟨_, rfl⟩
    · rw [if_neg hlen, decide_eq_true (not_lt.mp hlen)]
      exact ⟨_, rfl⟩
  · rw [if_neg htype, if_neg htype]
    exact ⟨_, rfl⟩

theorem paired_iff (p : VMAccelStreamPacket) (conn : Conn) (status : StatusCode) (mapped : ℕ) :
    (∃ c, handle (answering status mapped) p conn [] =
        .ok (calls p status (status = .success), c)) ↔
      (p.type = vmclUpload → (p.len.toNat ≤ mapped ↔ status = .success)) := by
  obtain ⟨c, hc⟩ := handle_answering p conn status mapped
  have hcalls : calls p status (p.len.toNat ≤ mapped) = calls p status (status = .success) ↔
      (p.type = vmclUpload → (p.len.toNat ≤ mapped ↔ status = .success)) := by
    rw [calls_eq_iff, decide_eq_decide]
  rw [hc, ← hcalls]
  constructor
  · rintro ⟨c', h⟩
    exact congrArg Prod.fst (Except.ok.inj h)
  · intro h
    rw [h]
    exact ⟨c, rfl⟩

/-- The callbacks of the backend, with a flag that an unmap has found the count at 0. -/
def watched (clMap clUnmap : Bool) : Callbacks (Backend × Bool) where
  surfacemap desc s := do
    let m ← (vmwopencl clMap clUnmap).surfacemap desc s.1
    return (m.1, m.2, s.2)
  surfaceunmap op bytes s := do
    let s' ← (vmwopencl clMap clUnmap).surfaceunmap op bytes s.1
    return (s', s.2 || s.1.refCount? op.surf.id.toNat op.surf.inst.toNat = some 0)

def mapOp (desc : VMCLSurfaceMapOp) : SurfaceMapOp :=
  ⟨desc.surf.id, desc.surf.inst, desc.surf.generation, desc.x, desc.width,
    desc.mapFlags &&& asyncFlag ≠ 0⟩

/-- A successful map is long enough for the payload and its count does not pass 32 bits; the payload
is empty when OpenCL refuses the map, and is not when the map is stale. -/
def Suits (p : VMAccelStreamPacket) (count : Option (BitVec 32)) : StatusCode → Prop
  | .success => p.len.toNat ≤ p.desc.width.toNat ∧ count ≠ some 0xffffffff
  | .semanticError => p.len ≠ 0
  | _ => p.len = 0

/-- The packet suits the answer of the backend to its map. -/
def Balances (clMap : Bool) (p : VMAccelStreamPacket) (s : Backend) : Prop :=
  p.type = vmclUpload → ∀ r, s.surfacemap (mapOp p.desc) clMap = .ok r →
    Suits p (s.refCount? p.desc.surf.id.toNat p.desc.surf.inst.toNat) r.1.1

variable {clMap clUnmap : Bool} {p : VMAccelStreamPacket} {conn : Conn} {s s' : Backend}
  {low : Bool} {c : Option Conn}

theorem handle_watched (p : VMAccelStreamPacket) (conn : Conn) (s : Backend) (low : Bool) :
    (handle (watched clMap clUnmap) p conn (s, low)).map (fun r => (r.1.1, r.2)) =
      handle (vmwopencl clMap clUnmap) p conn s := by
  unfold handle
  by_cases htype : p.type = vmclUpload
  · rw [if_pos htype, if_pos htype, watched]
    dsimp only
    cases (vmwopencl clMap clUnmap).surfacemap p.desc s with
    | error e => rfl
    | ok m =>
      simp only [ok_bind, pure_bind]
      cases stored p.len.toNat m.1 conn with
      | none => rfl
      | some q =>
        obtain ⟨got, conn'⟩ := q
        dsimp only
        cases (vmwopencl clMap clUnmap).surfaceunmap (unmapOp p.desc) got m.2 <;> rfl
  · rw [if_neg htype, if_neg htype]
    rfl

theorem handle_watched_ok (htype : p.type = vmclUpload)
    (h : handle (watched clMap clUnmap) p conn (s, false) = .ok ((s', low), c)) :
    ∃ r, s.surfacemap (mapOp p.desc) clMap = .ok r ∧
      (((if r.1.1 = .success then p.desc.width.toNat else 0) < p.len.toNat ∧
          s' = r.2 ∧ low = false) ∨
        (p.len.toNat ≤ (if r.1.1 = .success then p.desc.width.toNat else 0) ∧
          (∃ bytes q, r.2.surfaceunmap ⟨p.desc.surf.id, p.desc.surf.inst, p.desc.surf.generation,
            bytes⟩ clUnmap = .ok q ∧ s' = q.2) ∧
          low = decide (r.2.refCount? p.desc.surf.id.toNat p.desc.surf.inst.toNat = some 0))) := by
  rw [handle, if_pos htype] at h
  obtain ⟨m, hm, h⟩ := bind_eq_ok.mp h
  obtain ⟨n, hn, hm⟩ := bind_eq_ok.mp hm
  cases hm
  obtain ⟨r, hr, hn⟩ := bind_eq_ok.mp hn
  cases hn
  refine ⟨r, hr, ?_⟩
  dsimp only at h
  rcases Nat.lt_or_ge (if r.1.1 = .success then p.desc.width.toNat else 0) p.len.toNat with
    hlen | hlen
  · rw [stored, if_pos hlen] at h
    cases h
    exact Or.inl ⟨hlen, rfl, rfl⟩
  · rw [stored, if_neg (not_lt.mpr hlen)] at h
    obtain ⟨q, hq, h⟩ := bind_eq_ok.mp h
    cases h
    obtain ⟨u, hu, hq⟩ := bind_eq_ok.mp hq
    cases hq
    obtain ⟨v, hv, hu⟩ := bind_eq_ok.mp hu
    cases hu
    exact Or.inr ⟨hlen, ⟨_, v, hv, rfl⟩, rfl⟩

/-- The count `n` before and the count `k` after the map decide whether the count is `n` again after
the packet, and the unmap does not go below 0. -/
theorem kept_iff_of_handle (htype : p.type = vmclUpload)
    (h : handle (watched clMap clUnmap) p conn (s, false) = .ok ((s', low), c))
    {r : (StatusCode × Option HostPtr) × Backend}
    (hr : s.surfacemap (mapOp p.desc) clMap = .ok r) {mapped : ℕ}
    (hmapped : (if r.1.1 = .success then p.desc.width.toNat else 0) = mapped) {n k : BitVec 32}
    (hn : s.refCount? p.desc.surf.id.toNat p.desc.surf.inst.toNat = some n)
    (hk : Backend.Recounts s r.2 p.desc.surf.id.toNat p.desc.surf.inst.toNat k) :
    ((∀ sid inst, s'.refCount? sid inst = s.refCount? sid inst) ∧ low = false) ↔
      if p.len.toNat ≤ mapped then k - 1 = n ∧ k ≠ 0 else k = n := by
  obtain ⟨q, hq, hcases⟩ := handle_watched_ok htype h
  obtain rfl : r = q := Except.ok.inj (hr.symm.trans hq)
  rw [hmapped] at hcases
  rcases hcases with ⟨hlen, rfl, rfl⟩ | ⟨hlen, ⟨bytes, u, hu, rfl⟩, rfl⟩
  · rw [if_neg (not_le.mpr hlen), hk.kept_iff hn]
    exact and_iff_left rfl
  · have hunmap := hk.trans (Backend.surfaceunmap_recounts hu hk.self)
    rw [if_pos hlen, hunmap.kept_iff hn, hk.self, decide_eq_false_iff_not, Option.some_inj]

theorem handle_watched_iff
    (h : handle (watched clMap clUnmap) p conn (s, false) = .ok ((s', low), c)) :
    ((∀ sid inst, s'.refCount? sid inst = s.refCount? sid inst) ∧ low = false) ↔
      Balances clMap p s := by
  by_cases htype : p.type = vmclUpload
  · obtain ⟨r, hr, -⟩ := handle_watched_ok htype h
    have hsuits : Balances clMap p s ↔
        Suits p (s.refCount? p.desc.surf.id.toNat p.desc.surf.inst.toNat) r.1.1 := by
      refine ⟨fun hb => hb htype r hr, fun hb _ q hq => ?_⟩
      obtain rfl : r = q := Except.ok.inj (hr.symm.trans hq)
      exact hb
    have hempty : p.len.toNat ≤ 0 ↔ p.len = 0 := by
      constructor <;> intro hlen <;> bv_omega
    obtain ⟨n, hcount, hmap⟩ := Backend.surfacemap_recounts hr
    have hn : s.refCount? p.desc.surf.id.toNat p.desc.surf.inst.toNat = some n := hcount
    rw [hsuits, hn]
    rcases hmap with ⟨hstatus, hk⟩ | ⟨hk, ⟨hstatus, h0⟩ | hstatus⟩
    · rw [kept_iff_of_handle htype h hr (if_neg (by rw [hstatus]; decide)) hn hk, hstatus]
      change _ ↔ p.len ≠ 0
      split_ifs with hlen
      · exact iff_of_false (fun hkept => by bv_omega) (not_not.mpr (hempty.mp hlen))
      · exact iff_of_true rfl (mt hempty.mpr hlen)
    · rw [kept_iff_of_handle htype h hr (if_neg (by rw [hstatus]; decide)) hn hk, hstatus, h0]
      change _ ↔ p.len = 0
      split_ifs with hlen
      · exact iff_of_true (by decide) (hempty.mp hlen)
      · exact iff_of_false (by decide) (mt hempty.mpr hlen)
    · rw [kept_iff_of_handle htype h hr (if_pos hstatus) hn hk, hstatus]
      have hmax : some n ≠ some 0xffffffff ↔ n + 1 ≠ 0 := by
        rw [ne_eq, Option.some_inj]
        constructor <;> intro hne <;> bv_omega
      change _ ↔ _ ∧ some n ≠ some 0xffffffff
      rw [hmax]
      split_ifs with hlen
      · exact and_congr_left' (iff_of_true (by bv_omega) hlen)
      · exact iff_of_false (fun hkept => by bv_omega) fun hboth => hlen hboth.1
  · rw [handle, if_neg htype] at h
    cases h
    exact iff_of_true ⟨fun _ _ => rfl, rfl⟩ fun h => absurd h htype

/-- The thread unmaps after a successful map and only then exactly if the payload is not longer than
what was mapped whenever the map succeeds, and is longer whenever it fails. With the callbacks of
the backend, a packet leaves every count as it was without going below 0 exactly if it suits the
answer of the backend to its map. -/
theorem stream_paired_iff (p : VMAccelStreamPacket) (conn : Conn) :
    (∀ status mapped, (∃ c, handle (answering status mapped) p conn [] =
        .ok (calls p status (status = .success), c)) ↔
      (p.type = vmclUpload → (p.len.toNat ≤ mapped ↔ status = .success))) ∧
    ∀ clMap clUnmap s s' low c,
      handle (watched clMap clUnmap) p conn (s, false) = .ok ((s', low), c) →
      handle (vmwopencl clMap clUnmap) p conn s = .ok (s', c) ∧
      (((∀ sid inst, s'.refCount? sid inst = s.refCount? sid inst) ∧ low = false) ↔
        Balances clMap p s) := by
  refine ⟨fun status mapped => paired_iff p conn status mapped, ?_⟩
  intro clMap clUnmap s s' low c h
  refine ⟨?_, handle_watched_iff h⟩
  rw [← handle_watched p conn s false, h]
  rfl

def demoBuffer : Backend.Request := .surfacealloc
  ⟨1, 3, ⟨.buffer, 4, 1, 1, .r8Typeless, .auto, .readwrite⟩⟩ true true fun _ => 0

/-- A packet without payload for generation `generation` of the surface 3, and four bytes of it to
map. -/
def demoEmpty (generation : BitVec 32) : VMAccelStreamPacket :=
  ⟨vmclUpload, 0, ⟨⟨1, 0⟩, ⟨1, 0, 3, 0, 0, generation⟩, 0, 0, 0, 4, 0, 2⟩⟩

def demoLong (generation : BitVec 32) : VMAccelStreamPacket :=
  { demoEmpty generation with len := 5 }

/-- A packet that is too long leaves its mapping open. An empty packet for generation 7 after one
for generation 8 is stale, and is unmapped: the count goes from 0 to its largest value. -/
theorem stream_unpaired :
    (∃ c, handle (answering .success 4) (demoLong 7) ⟨[], []⟩ [] =
      .ok ([.map (demoLong 7).desc .success], c)) ∧
    (do
      let s ← run Backend.step .powerOn [demoBuffer]
      let q ← handle (watched true true) (demoLong 7) ⟨[], []⟩ (s, false)
      return (s.refCount? 3 0, q.1.1.refCount? 3 0, q.1.2)) = .ok (some 0, some 1, false) ∧
    (do
      let s ← run Backend.step .powerOn [demoBuffer]
      let q ← handle (watched true true) (demoEmpty 8) ⟨[], []⟩ (s, false)
      let u ← handle (watched true true) (demoEmpty 7) ⟨[], []⟩ q.1
      return (q.1.1.refCount? 3 0, u.1.1.refCount? 3 0, u.1.2)) =
        .ok (some 0, some 0xffffffff, true) := by
  refine ⟨⟨_, rfl⟩, ?_⟩
  decide +kernel

end VMAccel.StreamServer
