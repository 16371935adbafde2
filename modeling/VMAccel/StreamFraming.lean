import VMAccel.StreamServerSpec
import Mathlib.Algebra.BigOperators.Group.List.Basic

/-!
# Framing of the packets of a stream

A sender writes packets back to back and TCP splits the bytes anywhere. The payload is received in
a loop, but the header by a single call. A split therefore keeps the framing of all packets with
given payload lengths exactly when every call that starts a packet returns the whole header.
-/

namespace VMAccel.StreamServer

open StepSystem

/-- A packet that a sender writes. -/
structure Upload where
  desc : VMCLSurfaceMapOp
  payload : List Byte
  small : payload.length < 2 ^ 32

def Upload.header (u : Upload) : VMAccelStreamPacket :=
  ⟨vmclUpload, BitVec.ofNat 32 u.payload.length, u.desc⟩

theorem Upload.toNat_len (u : Upload) : u.header.len.toNat = u.payload.length :=
  (BitVec.toNat_ofNat _ _).trans (Nat.mod_eq_of_lt u.small)

/-- The packets back to back. -/
def stream (us : List Upload) : List Byte := us.flatMap fun u => u.header.bytes ++ u.payload

def lengths (us : List Upload) : List ℕ := us.map fun u => u.payload.length

theorem stream_cons (u : Upload) (us : List Upload) :
    stream (u :: us) = u.header.bytes ++ (u.payload ++ stream us) := by simp [stream]

variable {σ : Type}

/-- One map and one unmap for each packet, in order, with its header and its payload. -/
def perform (cb : Callbacks σ) : List Upload → σ → Except Fault σ
  | [], s => .ok s
  | u :: us, s => do
    let m ← cb.surfacemap u.desc s
    let s ← cb.surfaceunmap (unmapOp u.desc) u.payload m.2
    perform cb us s

/-- No payload is longer than the mapping it is for. -/
def Fits (cb : Callbacks σ) : List Upload → σ → Prop
  | [], _ => True
  | u :: us, s => ∀ m, cb.surfacemap u.desc s = .ok m → u.payload.length ≤ m.1 ∧
      ∀ s', cb.surfaceunmap (unmapOp u.desc) u.payload m.2 = .ok s' → Fits cb us s'

/-- Every turn that starts a packet brings the whole header. -/
def HeadersWhole : List ℕ → List ℕ → Prop
  | _, [] => True
  | [], _ :: _ => False
  | size :: sizes, len :: lens => packetSize ≤ size ∧ HeadersWhole (afterPayload sizes len) lens

theorem stored_payload {sizes : List ℕ} (hpos : ∀ n ∈ sizes, 0 < n) (u : Upload)
    (hticks : u.payload.length ≤ sizes.length) {mapped : ℕ} (hmapped : u.payload.length ≤ mapped)
    (rest : List Byte) :
    stored u.payload.length mapped ⟨schedule sizes, u.payload ++ rest⟩ =
      some (u.payload, ⟨schedule (afterPayload sizes u.payload.length), rest⟩) := by
  have hfst := recvPayload_fst (schedule sizes) (u.payload ++ rest) u.payload.length []
  have hsnd := recvPayload_snd hpos (u.payload ++ rest) hticks (by simp) []
  have harr : u.payload.length ≤ arriving (schedule sizes) :=
    hticks.trans (length_le_arriving hpos)
  rw [min_eq_left harr, List.nil_append, List.take_left] at hfst
  rw [List.drop_left] at hsnd
  rw [stored, if_neg (by omega)]
  exact congrArg some (Prod.ext hfst hsnd)

theorem serve_turn {t : Tick} {rest chunk : List Byte} (hexit : t.exit = false)
    (hrecv : recv rest t packetSize = chunk) (hchunk : chunk ≠ []) (cb : Callbacks σ) (fuel : ℕ)
    (ticks : List Tick) (p : List Byte) (s : σ) :
    serve cb (fuel + 1) ⟨t :: ticks, rest⟩ p s =
      (do
        let r ← handle cb (.ofBytes (chunk ++ p.drop chunk.length))
          ⟨ticks, rest.drop chunk.length⟩ s
        match r.2 with
        | none => return r.1
        | some conn => serve cb fuel conn (chunk ++ p.drop chunk.length) r.1) := by
  subst hrecv
  have hgo : ¬ t.exit = true := by simp [hexit]
  exact (if_neg hgo).trans (if_neg hchunk)

theorem handle_upload {sizes : List ℕ} (hpos : ∀ n ∈ sizes, 0 < n) (u : Upload)
    (hticks : u.payload.length ≤ sizes.length) (cb : Callbacks σ) (rest : List Byte) {s : σ}
    (hfit : ∀ m, cb.surfacemap u.desc s = .ok m → u.payload.length ≤ m.1) :
    handle cb u.header ⟨schedule sizes, u.payload ++ rest⟩ s =
      (do
        let m ← cb.surfacemap u.desc s
        let s ← cb.surfaceunmap (unmapOp u.desc) u.payload m.2
        return (s, some ⟨schedule (afterPayload sizes u.payload.length), rest⟩)) := by
  rw [handle, if_pos (show u.header.type = vmclUpload from rfl), u.toNat_len]
  change (cb.surfacemap u.desc s >>= _) = (cb.surfacemap u.desc s >>= _)
  cases hm : cb.surfacemap u.desc s with
  | error e => rfl
  | ok m =>
    rw [ok_bind, ok_bind, stored_payload hpos u hticks (hfit m hm)]
    rfl

theorem serve_upload {sizes : List ℕ} (hpos : ∀ n ∈ sizes, 0 < n) (u : Upload)
    (hticks : u.payload.length ≤ sizes.length) {size : ℕ} (hsize : packetSize ≤ size)
    (cb : Callbacks σ) (fuel : ℕ) (rest : List Byte) {p : List Byte} (hp : p.length = packetSize)
    {s : σ} (hfit : ∀ m, cb.surfacemap u.desc s = .ok m → u.payload.length ≤ m.1) :
    serve cb (fuel + 1) ⟨schedule (size :: sizes), u.header.bytes ++ (u.payload ++ rest)⟩ p s =
      (do
        let m ← cb.surfacemap u.desc s
        let s ← cb.surfaceunmap (unmapOp u.desc) u.payload m.2
        serve cb fuel ⟨schedule (afterPayload sizes u.payload.length), rest⟩ u.header.bytes s) := by
  have hrecv : recv (u.header.bytes ++ (u.payload ++ rest)) ⟨false, size⟩ packetSize =
      u.header.bytes := by
    rw [recv, min_eq_right hsize, ← u.header.length_bytes, List.take_left]
  change serve cb (fuel + 1) ⟨⟨false, size⟩ :: schedule sizes, _⟩ p s = _
  rw [serve_turn rfl hrecv (List.cons_ne_nil _ _), u.header.length_bytes, ← hp, List.drop_length,
    List.append_nil, u.header.ofBytes_bytes, hp, ← u.header.length_bytes, List.drop_left,
    handle_upload hpos u hticks cb rest hfit]
  cases cb.surfacemap u.desc s with
  | error e => rfl
  | ok m =>
    rw [ok_bind, ok_bind]
    cases cb.surfaceunmap (unmapOp u.desc) u.payload m.2 with
    | error e => rfl
    | ok s' => rfl

theorem serve_stream (cb : Callbacks σ) {sizes : List ℕ} (hpos : ∀ n ∈ sizes, 0 < n)
    {us : List Upload} (hwhole : HeadersWhole sizes (lengths us))
    (hticks : (stream us).length ≤ sizes.length) {fuel : ℕ} (hfuel : us.length ≤ fuel)
    {p : List Byte} (hp : p.length = packetSize) {s : σ} (hfits : Fits cb us s) :
    serve cb fuel ⟨schedule sizes, stream us⟩ p s = perform cb us s := by
  induction us generalizing sizes fuel p s with
  | nil =>
    rcases fuel with _ | fuel
    · rfl
    · rcases sizes with _ | ⟨size, sizes⟩
      · rfl
      · simp [serve, schedule, stream, recv, perform]
  | cons u us ih =>
    rcases fuel with _ | fuel
    · exact absurd hfuel (Nat.not_succ_le_zero _)
    rcases sizes with _ | ⟨size, sizes⟩
    · exact hwhole.elim
    · obtain ⟨hsize, hwhole⟩ : packetSize ≤ size ∧ HeadersWhole
        (afterPayload sizes u.payload.length) (lengths us) := hwhole
      have hpos' : ∀ n ∈ sizes, 0 < n := fun n hn => hpos n (List.mem_cons_of_mem size hn)
      have hleft := length_le_afterPayload hpos' u.payload.length
      rw [stream_cons, List.length_append, List.length_append, u.header.length_bytes, packetSize,
        List.length_cons] at hticks
      rw [stream_cons, serve_upload hpos' u (by omega) hsize cb fuel _ hp
        (fun m hm => (hfits m hm).1), perform]
      cases hm : cb.surfacemap u.desc s with
      | error e => rfl
      | ok m =>
        rw [ok_bind, ok_bind]
        cases hs : cb.surfaceunmap (unmapOp u.desc) u.payload m.2 with
        | error e => rfl
        | ok s' =>
          exact ih (fun n hn => hpos' n (mem_afterPayload hn)) hwhole (by omega)
            (by simpa using hfuel) u.header.length_bytes ((hfits m hm).2 s' hs)

theorem length_le_stream (us : List Upload) : us.length ≤ (stream us).length := by
  induction us with
  | nil => exact Nat.le_refl 0
  | cons u us ih =>
    rw [stream_cons, List.length_append, List.length_append, u.header.length_bytes, packetSize,
      List.length_cons]
    omega

theorem connection_stream (cb : Callbacks σ) {sizes : List ℕ} (hpos : ∀ n ∈ sizes, 0 < n)
    {us : List Upload} (hwhole : HeadersWhole sizes (lengths us))
    (hticks : (stream us).length ≤ sizes.length) {p : List Byte} (hp : p.length = packetSize)
    {s : σ} (hfits : Fits cb us s) :
    connection cb ⟨schedule sizes, stream us⟩ p s = perform cb us s := by
  refine serve_stream cb hpos hwhole hticks ?_ hp hfits
  change us.length ≤ (schedule sizes).length
  rw [schedule, List.length_map]
  exact (length_le_stream us).trans hticks

/-! ### A header in pieces -/

theorem fits_recording (us : List Upload) (s : List Event) : Fits (recording (2 ^ 32)) us s := by
  induction us generalizing s with
  | nil => trivial
  | cons u us ih =>
    intro m hm
    cases hm
    exact ⟨u.small.le, fun s' _ => ih s'⟩

theorem perform_recording (u : Upload) (us : List Upload) (s : List Event) :
    ∃ es, perform (recording (2 ^ 32)) (u :: us) s = .ok (s ++ .mapped u.desc :: es) := by
  induction us generalizing u s with
  | nil => exact ⟨_, congrArg Except.ok (List.append_assoc _ _ _)⟩
  | cons v us ih =>
    obtain ⟨es, hes⟩ := ih v (s ++ [.mapped u.desc] ++ [.unmapped (unmapOp u.desc) u.payload])
    refine ⟨.unmapped (unmapOp u.desc) u.payload :: .mapped v.desc :: es, hes.trans ?_⟩
    simp

theorem handle_recording (p : VMAccelStreamPacket) (conn : Conn) (s : List Event) :
    handle (recording (2 ^ 32)) p conn s = .ok (s, none) ∨
      ∃ es c, handle (recording (2 ^ 32)) p conn s = .ok (s ++ .mapped p.desc :: es, c) := by
  rw [handle]
  split_ifs with htype
  · right
    simp only [recording, ok_bind]
    cases stored p.len.toNat (2 ^ 32) conn with
    | none => exact ⟨[], none, rfl⟩
    | some r => exact ⟨_, some r.2, congrArg (fun es => Except.ok (es, some r.2))
        (List.append_assoc s [.mapped p.desc] [.unmapped (unmapOp p.desc) r.1])⟩
  · exact Or.inl rfl

theorem serve_recording (fuel : ℕ) (conn : Conn) (p : List Byte) (s : List Event) :
    ∃ es, serve (recording (2 ^ 32)) fuel conn p s = .ok (s ++ es) := by
  induction fuel generalizing conn p s with
  | zero => exact ⟨[], by simp [serve]⟩
  | succ fuel ih =>
    obtain ⟨ticks, rest⟩ := conn
    cases ticks with
    | nil => exact ⟨[], by simp [serve]⟩
    | cons t ticks =>
      by_cases hstop : t.exit = true ∨ recv rest t packetSize = []
      · refine ⟨[], ?_⟩
        rcases hstop with h | h <;> simp [serve, h]
      · obtain ⟨hexit, hchunk⟩ := not_or.mp hstop
        rw [serve_turn (by simpa using hexit) rfl hchunk]
        rcases handle_recording _ _ s with h | ⟨es, c, h⟩
        · exact ⟨[], by rw [h]; simp [ok_bind]; rfl⟩
        · rw [h, ok_bind]
          cases c with
          | none => exact ⟨_, rfl⟩
          | some conn =>
            obtain ⟨es', hes⟩ := ih conn _ (s ++ .mapped _ :: es)
            exact ⟨_, hes.trans (congrArg Except.ok (List.append_assoc _ _ _))⟩

/-- A packet whose header comes in pieces is mapped with other flags, or not at all, if its flags
differ from those left in the variable. -/
theorem serve_ne_perform {size : ℕ} (hpos : 0 < size) (hsize : size < packetSize) (fuel : ℕ)
    (sizes : List ℕ) {p : List Byte} (hp : p.length = packetSize) (u : Upload) (us : List Upload)
    (hflags : u.desc.mapFlags.extractLsb' 24 8 ≠ p.getD 63 0) (s : List Event) :
    serve (recording (2 ^ 32)) (fuel + 1) ⟨schedule (size :: sizes), stream (u :: us)⟩ p s ≠
      perform (recording (2 ^ 32)) (u :: us) s := by
  have hlen : size < (stream (u :: us)).length := by
    rw [stream_cons, List.length_append, u.header.length_bytes]
    omega
  have hrecv : recv (stream (u :: us)) ⟨false, size⟩ packetSize = (stream (u :: us)).take size := by
    rw [recv, min_eq_left hsize.le]
  have hchunk : ((stream (u :: us)).take size).length = size := List.length_take_of_le hlen.le
  have hp' : ((stream (u :: us)).take size ++ p.drop size).length = packetSize := by
    rw [List.length_append, hchunk, List.length_drop]
    omega
  have hother : (VMAccelStreamPacket.ofBytes ((stream (u :: us)).take size ++ p.drop size)).desc ≠
      u.desc := by
    intro h
    refine hflags ?_
    rw [← h]
    refine (high_byte_bytesWords _ 15 (by rw [hp', packetSize]; omega)).trans ?_
    rw [packetSize] at hsize
    rw [List.getD_eq_getElem?_getD, List.getElem?_append_right (by omega), hchunk,
      List.getElem?_drop, List.getD_eq_getElem?_getD, Nat.add_sub_cancel' (by omega)]
  obtain ⟨es, hes⟩ := perform_recording u us s
  change serve (recording (2 ^ 32)) (fuel + 1) ⟨⟨false, size⟩ :: schedule sizes, _⟩ p s ≠ _
  rw [hes, serve_turn rfl hrecv (by rw [← List.length_pos_iff, hchunk]; exact hpos), hchunk]
  rcases handle_recording _ _ s with h | ⟨es', c, h⟩
  · rw [h, ok_bind]
    intro heq
    have := Except.ok.inj heq
    simp at this
  · rw [h, ok_bind]
    cases c with
    | none =>
      intro heq
      have := Except.ok.inj heq
      simp [hother] at this
    | some conn =>
      obtain ⟨es'', hes''⟩ := serve_recording fuel conn _ (s ++ .mapped _ :: es')
      change serve (recording (2 ^ 32)) fuel conn _ _ ≠ _
      rw [hes'']
      intro heq
      have := Except.ok.inj heq
      simp [hother] at this

def flagged (b : Byte) : VMCLSurfaceMapOp :=
  ⟨⟨0, 0⟩, ⟨0, 0, 0, 0, 0, 0⟩, 0, 0, 0, 0, 0, b ++ (0 : BitVec 24)⟩

theorem high_byte_flagged (b : Byte) : (flagged b).mapFlags.extractLsb' 24 8 = b := by
  apply BitVec.eq_of_getLsbD_eq
  intro i hi
  simp only [flagged, BitVec.getLsbD_append, BitVec.getLsbD_extractLsb']
  grind

def blank (b : Byte) {len : ℕ} (h : len < 2 ^ 32) : Upload :=
  ⟨flagged b, List.replicate len 0, by simpa using h⟩

theorem exists_lengths {lens : List ℕ} (hsmall : ∀ len ∈ lens, len < 2 ^ 32) :
    ∃ us, lengths us = lens := by
  induction lens with
  | nil => exact ⟨[], rfl⟩
  | cons len lens ih =>
    obtain ⟨us, rfl⟩ := ih fun n hn => hsmall n (List.mem_cons_of_mem len hn)
    exact ⟨blank 0 (hsmall len List.mem_cons_self) :: us, by simp [lengths, blank]⟩

theorem length_stream (us : List Upload) :
    (stream us).length = ((lengths us).map fun len => packetSize + len).sum := by
  induction us with
  | nil => rfl
  | cons u us ih =>
    rw [stream_cons, List.length_append, List.length_append, u.header.length_bytes, ih]
    simp [lengths, Nat.add_assoc]

/-- The first packet must have its header in one piece, and so must those after it, whatever the
first one left in the variable. -/
theorem headersWhole_of_serve {sizes lens : List ℕ} (hsmall : ∀ len ∈ lens, len < 2 ^ 32)
    (hpos : ∀ n ∈ sizes, 0 < n)
    (hticks : (lens.map fun len => packetSize + len).sum ≤ sizes.length) {fuel : ℕ}
    (hfuel : lens.length ≤ fuel) {p : List Byte} (hp : p.length = packetSize) (s : List Event)
    (hserve : ∀ us, lengths us = lens →
      serve (recording (2 ^ 32)) fuel ⟨schedule sizes, stream us⟩ p s =
        perform (recording (2 ^ 32)) us s) :
    HeadersWhole sizes lens := by
  induction lens generalizing sizes fuel p s with
  | nil => cases sizes <;> trivial
  | cons len lens ih =>
    match fuel, sizes, hticks with
    | _ + 1, [], hticks => simp [packetSize] at hticks
    | fuel + 1, size :: sizes, hticks =>
      have hlen : len < 2 ^ 32 := hsmall len List.mem_cons_self
      have hsmall' : ∀ n ∈ lens, n < 2 ^ 32 := fun n hn => hsmall n (List.mem_cons_of_mem len hn)
      have hpos' : ∀ n ∈ sizes, 0 < n := fun n hn => hpos n (List.mem_cons_of_mem size hn)
      have hleft := length_le_afterPayload hpos' len
      rw [List.map_cons, List.sum_cons, packetSize, List.length_cons] at hticks
      obtain ⟨us₀, hus₀⟩ := exists_lengths hsmall'
      have hsize : packetSize ≤ size := by
        by_contra hlt
        refine serve_ne_perform (hpos size List.mem_cons_self) (not_le.mp hlt) fuel sizes hp
          (blank (p.getD 63 0 + 1) hlen) us₀ ?_ s (hserve _ ?_)
        · rw [blank, high_byte_flagged]
          simp
        · simp [lengths, blank, ← hus₀]
      refine ⟨hsize, ih hsmall' (fun n hn => hpos' n (mem_afterPayload hn))
        (by simp only [packetSize] at *; omega) (by simpa using hfuel)
        (blank 0 hlen).header.length_bytes
        (s ++ [.mapped (flagged 0)] ++ [.unmapped (unmapOp (flagged 0)) (List.replicate len 0)])
        fun us hus => ?_⟩
      have h := hserve (blank 0 hlen :: us) (by simp [lengths, blank, ← hus])
      rw [stream_cons, serve_upload hpos' (blank 0 hlen) (by simp [blank]; omega) hsize
        (recording (2 ^ 32))
        fuel _ hp (fun m hm => by cases hm; exact (blank 0 hlen).small.le)] at h
      simpa [recording, blank, perform, ok_bind] using h

/-- A split of the stream into the results of `recv` keeps the framing of all packets with the
given payload lengths exactly when it leaves the headers whole. -/
theorem connection_eq_perform_iff {sizes lens : List ℕ} (hsmall : ∀ len ∈ lens, len < 2 ^ 32)
    (hpos : ∀ n ∈ sizes, 0 < n)
    (hticks : (lens.map fun len => packetSize + len).sum ≤ sizes.length) {p : List Byte}
    (hp : p.length = packetSize) :
    (∀ (σ : Type) (cb : Callbacks σ) (us : List Upload) (s : σ), lengths us = lens →
      Fits cb us s → connection cb ⟨schedule sizes, stream us⟩ p s = perform cb us s) ↔
      HeadersWhole sizes lens := by
  have hfuel : lens.length ≤ (schedule sizes).length := by
    have hsum := List.length_le_sum_of_one_le (lens.map fun len => packetSize + len) <| by
      intro n hn
      obtain ⟨len, -, rfl⟩ := List.mem_map.mp hn
      rw [packetSize]
      omega
    rw [List.length_map] at hsum
    rw [schedule, List.length_map]
    exact hsum.trans hticks
  constructor
  · intro h
    exact headersWhole_of_serve hsmall hpos hticks hfuel hp [] fun us hus =>
      h _ (recording (2 ^ 32)) us [] hus (fits_recording us [])
  · rintro h σ cb us s rfl hfits
    rw [← length_stream] at hticks
    exact connection_stream cb hpos h hticks hp hfits

def demoUpload : Upload where
  desc := ⟨⟨1, 0⟩, ⟨1, 0, 3, 0, 0, 7⟩, 0, 0, 0, 4, 0, 2⟩
  payload := [10, 11, 12, 13]
  small := by decide

/-- The last word of the header comes separately: the flags are stored as the payload of a mapping
without flags, and the payload is taken for a header. -/
theorem connection_split_header :
    connection (recording (2 ^ 32)) ⟨schedule (60 :: List.replicate 70 64), stream [demoUpload]⟩
        (List.replicate packetSize 0) [] =
      .ok [.mapped { demoUpload.desc with mapFlags := 0 },
        .unmapped ⟨demoUpload.desc.queue, demoUpload.desc.surf, noFreePtrFlag⟩ [2, 0, 0, 0]] ∧
    perform (recording (2 ^ 32)) [demoUpload] [] =
      .ok [.mapped demoUpload.desc, .unmapped (unmapOp demoUpload.desc) [10, 11, 12, 13]] := by
  decide +kernel

/-- Two uploads whose headers arrive whole, while the payload of the first comes in two pieces. -/
theorem connection_eq_perform_demo :
    connection (recording (2 ^ 32))
        ⟨schedule (64 :: 3 :: 7 :: 100 :: List.replicate 140 1), stream [demoUpload, demoUpload]⟩
        (List.replicate packetSize 0) [] =
      perform (recording (2 ^ 32)) [demoUpload, demoUpload] [] := by
  have hwhole : HeadersWhole (64 :: 3 :: 7 :: 100 :: List.replicate 140 1) [4, 4] :=
    ⟨by decide, by decide, trivial⟩
  exact (connection_eq_perform_iff (by decide) (by decide +kernel) (by decide +kernel)
    (by decide)).mpr hwhole _ _ [demoUpload, demoUpload] [] rfl (fits_recording _ _)

end VMAccel.StreamServer
