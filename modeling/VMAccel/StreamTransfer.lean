import VMAccel.StreamClient
import VMAccel.StreamFraming

/-!
# From the sending to the receiving end

What `StreamTCPClientSend` puts on the wire, call after call, and what the thread at the other end
does with it. Where the socket takes each header and each payload at once, the wire carries the
packets as they are, and the thread performs them in order unless a header is split on the way.
-/

namespace VMAccel.StreamClient

open StepSystem StreamServer

/-- A call of `StreamTCPClientSend` with the answers of the socket to it. -/
structure Attempt where
  send : VMAccelStreamSend
  header : Sent
  turns : ℕ → Turn

variable {clntFD : BitVec 32 → BitVec 32 → ℤ}

/-- The bytes of the calls that the sockets have taken. -/
def wire (clntFD : BitVec 32 → BitVec 32 → ℤ) (as : List Attempt) : List Byte :=
  as.flatMap fun a =>
    (streamTCPClientSend clntFD a.header a.turns a.send).header ++
      (streamTCPClientSend clntFD a.header a.turns a.send).payload

namespace Attempt

/-- The packet that the call is to transfer. -/
def upload (a : Attempt) : Upload where
  desc := a.send.desc
  payload := a.send.ptr
  small := a.send.ptr_lt

structure Whole (clntFD : BitVec 32 → BitVec 32 → ℤ) (a : Attempt) : Prop where
  type : a.send.type = vmclUpload
  connected : clntFD a.send.type a.send.index ≠ -1
  header : a.header = .count packetSize
  running : (a.turns 0).exit = false
  payload : ∃ n, (a.turns 0).sent = .count n ∧ a.send.ptr.length ≤ n

theorem Whole.packet {a : Attempt} (h : a.Whole clntFD) : a.send.packet = a.upload.header := by
  rw [VMAccelStreamSend.packet, h.type]
  rfl

theorem Whole.transmission {a : Attempt} (h : a.Whole clntFD) :
    streamTCPClientSend clntFD a.header a.turns a.send =
      ⟨.success, a.upload.header.bytes, a.upload.payload⟩ := by
  have hheader : accepted a.upload.header.bytes (.count packetSize) = a.upload.header.bytes :=
    List.take_of_length_le a.upload.header.length_bytes.le
  have hpayload : sendLoop a.send.ptr a.turns a.send.ptr.length 0 = a.upload.payload := by
    by_cases hptr : a.send.ptr = []
    · rw [hptr]
      exact hptr.symm
    · exact (sendLoop_eq_iff h.running hptr).mpr h.payload
  rw [streamTCPClientSend, if_neg h.connected, if_neg (not_not.mpr h.header), h.header, h.packet,
    hheader, hpayload]

end Attempt

theorem wire_of_whole {as : List Attempt} (h : ∀ a ∈ as, a.Whole clntFD) :
    wire clntFD as = stream (as.map Attempt.upload) := by
  induction as with
  | nil => rfl
  | cons a as ih =>
    have hrest := ih fun b hb => h b (List.mem_cons_of_mem a hb)
    have ha := (h a List.mem_cons_self).transmission
    rw [List.map_cons, stream_cons, ← hrest, ← List.append_assoc]
    change (_ ++ _) ++ wire clntFD as = _
    rw [ha]

/-- Transfers that the sockets take whole are performed in order by the thread at the other end,
whatever its callbacks do, if its turns bring every header whole and every payload fits. -/
theorem transfers_performed {σ : Type} (cb : Callbacks σ) {as : List Attempt}
    (hwhole : ∀ a ∈ as, a.Whole clntFD) {sizes : List ℕ} (hpos : ∀ n ∈ sizes, 0 < n)
    (hheaders : HeadersWhole sizes (lengths (as.map Attempt.upload)))
    (hticks : (wire clntFD as).length ≤ sizes.length) {p : List Byte} (hp : p.length = packetSize)
    {s : σ} (hfits : Fits cb (as.map Attempt.upload) s) :
    connection cb ⟨schedule sizes, wire clntFD as⟩ p s = perform cb (as.map Attempt.upload) s := by
  rw [wire_of_whole hwhole] at hticks ⊢
  exact connection_stream cb hpos hheaders hticks hp hfits

end VMAccel.StreamClient
