import VMAccel.StreamServer

/-!
# The sending end of a data stream

`StreamTCPClientSend` of `vmaccel_stream.c`: a header, then a loop over the payload. In the
condition of the loop `txSize = send(...) < 0` assigns the truth value of the comparison. The loop
therefore ends with the first `send` that takes any bytes, however few, and goes on after an error,
with `txLen` smaller by one and the same pointer. What `send` answers is a parameter.
-/

namespace VMAccel

/-- `VMAccelStreamSend` with the payload that `ptr` points at; its length has 32 bits. -/
structure VMAccelStreamSend where
  type : BitVec 32
  index : BitVec 32
  desc : VMCLSurfaceMapOp
  ptr : List Byte
  ptr_lt : ptr.length < 2 ^ 32

def VMAccelStreamSend.packet (s : VMAccelStreamSend) : VMAccelStreamPacket where
  type := s.type
  len := BitVec.ofNat 32 s.ptr.length
  desc := s.desc

namespace StreamClient

/-- What `send` answers: an error, or how many of the bytes it was given it has taken. -/
inductive Sent
  | error
  | count (n : ℕ)
  deriving DecidableEq

/-- One turn of the loop: whether `g_exitClntThreads` is set by then, and what `send` answers. -/
structure Turn where
  exit : Bool
  sent : Sent
  deriving DecidableEq

/-- The bytes of `buf` that the socket has taken. -/
def accepted (buf : List Byte) : Sent → List Byte
  | .error => []
  | .count n => buf.take n

/-- The loop over the payload from turn `pass` on: all bytes that the socket takes. Each further
round subtracts `txSize`, which is 1. -/
def sendLoop (ptr : List Byte) (turns : ℕ → Turn) : ℕ → ℕ → List Byte
  | 0, _ => []
  | txLen + 1, pass =>
    if (turns pass).exit then []
    else
      match (turns pass).sent with
      | .error => sendLoop ptr turns txLen (pass + 1)
      | .count n => accepted (ptr.take (txLen + 1)) (.count n)

/-- The status that is returned, and the bytes that the socket has taken of the header and of the
payload. -/
structure Transmission where
  status : StatusCode
  header : List Byte
  payload : List Byte
  deriving DecidableEq

/-- `clntFD` is the table of the client's sockets, `header` the answer to the first `send`. -/
def streamTCPClientSend (clntFD : BitVec 32 → BitVec 32 → ℤ) (header : Sent) (turns : ℕ → Turn)
    (s : VMAccelStreamSend) : Transmission :=
  if clntFD s.type s.index = -1 then ⟨.fail, [], []⟩
  else if header ≠ .count packetSize then ⟨.fail, accepted s.packet.bytes header, []⟩
  else ⟨.success, accepted s.packet.bytes header, sendLoop s.ptr turns s.ptr.length 0⟩

variable {ptr : List Byte} {turns : ℕ → Turn}

theorem length_sendLoop_le (txLen pass : ℕ) : (sendLoop ptr turns txLen pass).length ≤ txLen := by
  induction txLen generalizing pass with
  | zero => exact Nat.le_refl 0
  | succ txLen ih =>
    rw [sendLoop]
    split_ifs
    · exact Nat.zero_le _
    · cases (turns pass).sent with
      | error => exact (ih (pass + 1)).trans (Nat.le_succ txLen)
      | count n =>
        change ((ptr.take (txLen + 1)).take n).length ≤ txLen + 1
        rw [List.length_take, List.length_take]
        omega

theorem sendLoop_eq_iff (hexit : (turns 0).exit = false) (hptr : ptr ≠ []) :
    sendLoop ptr turns ptr.length 0 = ptr ↔
      ∃ n, (turns 0).sent = .count n ∧ ptr.length ≤ n := by
  obtain ⟨len, hlen⟩ : ∃ len, ptr.length = len + 1 :=
    Nat.exists_eq_succ_of_ne_zero (mt List.length_eq_zero_iff.mp hptr)
  rw [hlen, sendLoop, if_neg (by simp [hexit])]
  cases hsent : (turns 0).sent with
  | error =>
    -- After an error at least one byte is never offered again.
    refine iff_of_false (fun heq => ?_) (by simp)
    have hle : (sendLoop ptr turns len 1).length ≤ len := length_sendLoop_le len 1
    dsimp only at heq
    rw [heq] at hle
    omega
  | count n =>
    change (ptr.take (len + 1)).take n = ptr ↔ _
    rw [← hlen, List.take_length, List.take_eq_self_iff]
    simp [hlen]

/-- A transmission that succeeds while the client threads are not told to exit has passed on the
whole payload exactly if the payload is empty or the first `send` took all of it. -/
theorem client_send_complete_iff (clntFD : BitVec 32 → BitVec 32 → ℤ) (header : Sent)
    (turns : ℕ → Turn) (s : VMAccelStreamSend) (hexit : ∀ i, (turns i).exit = false)
    (hstatus : (streamTCPClientSend clntFD header turns s).status = .success) :
    (streamTCPClientSend clntFD header turns s).payload = s.ptr ↔
      s.ptr = [] ∨ ∃ n, (turns 0).sent = .count n ∧ s.ptr.length ≤ n := by
  unfold streamTCPClientSend at hstatus ⊢
  split_ifs at hstatus ⊢
  change sendLoop s.ptr turns s.ptr.length 0 = s.ptr ↔ _
  by_cases hptr : s.ptr = []
  · rw [hptr]
    exact iff_of_true rfl (Or.inl rfl)
  · rw [sendLoop_eq_iff (hexit 0) hptr]
    exact (or_iff_right hptr).symm

def demoSend : VMAccelStreamSend where
  type := 0
  index := 0
  desc := ⟨⟨0, 0⟩, ⟨0, 0, 0, 0, 0, 1⟩, 0, 0, 0, 3, 1, 0⟩
  ptr := [1, 2, 3]
  ptr_lt := by decide

/-- The table of a client whose sockets are all open. -/
def demoFD : BitVec 32 → BitVec 32 → ℤ := fun _ _ => 3

theorem client_send_complete_demo :
    (streamTCPClientSend demoFD (.count packetSize) (fun _ => ⟨false, .count 3⟩)
      demoSend).payload = [1, 2, 3] :=
  (client_send_complete_iff demoFD (.count packetSize) (fun _ => ⟨false, .count 3⟩) demoSend
    (fun _ => rfl) rfl).mpr (Or.inr ⟨3, rfl, by decide⟩)

/-- The first `send` takes two of three bytes, or none because of an error: two bytes arrive, and
the status is success. -/
theorem partial_send_cut :
    streamTCPClientSend demoFD (.count packetSize) (fun _ => ⟨false, .count 2⟩) demoSend =
      ⟨.success, demoSend.packet.bytes, [1, 2]⟩ ∧
    streamTCPClientSend demoFD (.count packetSize)
        (fun i => if i = 0 then ⟨false, .error⟩ else ⟨false, .count 2⟩) demoSend =
      ⟨.success, demoSend.packet.bytes, [1, 2]⟩ := by
  decide +kernel

end StreamClient

end VMAccel
