import VMAccel.StreamServer

/-!
# What the receiving end of a stream reads

A header that comes in one piece is the header that was sent. The payload loop stores what arrives
before its first failure, and no more than it is to receive, whatever the sizes in which it comes.
-/

namespace VMAccel

theorem word_of_bytes (w : BitVec 32) :
    w.extractLsb' 24 8 ++ w.extractLsb' 16 8 ++ w.extractLsb' 8 8 ++ w.extractLsb' 0 8 = w := by
  apply BitVec.eq_of_getLsbD_eq
  intro i hi
  simp only [BitVec.getLsbD_append, BitVec.getLsbD_extractLsb']
  grind

theorem high_byte_of_word (b₃ b₂ b₁ b₀ : Byte) :
    (b₃ ++ b₂ ++ b₁ ++ b₀ : BitVec 32).extractLsb' 24 8 = b₃ := by
  apply BitVec.eq_of_getLsbD_eq
  intro i hi
  simp only [BitVec.getLsbD_append, BitVec.getLsbD_extractLsb']
  grind

theorem bytesWords_flatMap (ws : List (BitVec 32)) : bytesWords (ws.flatMap wordBytes) = ws := by
  induction ws with
  | nil => rfl
  | cons w ws ih =>
    change (_ :: bytesWords (ws.flatMap wordBytes)) = _
    rw [ih, word_of_bytes]

theorem high_byte_bytesWords (b : List Byte) (i : ℕ) (hi : 4 * i + 3 < b.length) :
    ((bytesWords b).getD i 0).extractLsb' 24 8 = b.getD (4 * i + 3) 0 := by
  induction b using bytesWords.induct generalizing i with
  | case1 b₀ b₁ b₂ b₃ b ih =>
    cases i with
    | zero => simpa [bytesWords] using high_byte_of_word b₃ b₂ b₁ b₀
    | succ i => exact ih i (by simp at hi; omega)
  | case2 b hb =>
    match b, hi, hb with
    | b₀ :: b₁ :: b₂ :: b₃ :: b, _, hb => exact absurd rfl (hb b₀ b₁ b₂ b₃ b)

namespace VMAccelStreamPacket

theorem ofBytes_bytes (p : VMAccelStreamPacket) : ofBytes p.bytes = p := by
  rw [ofBytes, bytes, bytesWords_flatMap]
  rfl

theorem length_bytes (p : VMAccelStreamPacket) : p.bytes.length = packetSize := rfl

end VMAccelStreamPacket

namespace StreamServer

def arriving (ticks : List Tick) : ℕ :=
  ((ticks.takeWhile fun t => !t.exit && decide (0 < t.size)).map Tick.size).sum

theorem arriving_cons (t : Tick) (ticks : List Tick) :
    arriving (t :: ticks) =
      if t.exit = false ∧ 0 < t.size then t.size + arriving ticks else 0 := by
  simp only [arriving, List.takeWhile_cons]
  by_cases h : t.exit = false ∧ 0 < t.size
  · simp [h]
  · rw [if_neg h]
    cases hx : t.exit
    · simp [hx] at h
      simp [h]
    · simp

theorem recvPayload_stop {t : Tick} {rest : List Byte} {n : ℕ}
    (h : t.exit = true ∨ recv rest t (n + 1) = []) (ticks : List Tick) (got : List Byte) :
    recvPayload (t :: ticks) rest (n + 1) got = (got, ⟨ticks, rest⟩) := by
  simp only [recvPayload]
  split_ifs with hexit hchunk
  · rfl
  · rfl
  · exact absurd h (not_or.mpr ⟨hexit, hchunk⟩)

theorem recvPayload_more {t : Tick} {rest : List Byte} {n : ℕ} (hexit : t.exit = false)
    (hchunk : recv rest t (n + 1) ≠ []) (ticks : List Tick) (got : List Byte) :
    recvPayload (t :: ticks) rest (n + 1) got =
      recvPayload ticks (rest.drop (recv rest t (n + 1)).length)
        (n + 1 - (recv rest t (n + 1)).length) (got ++ recv rest t (n + 1)) := by
  simp only [recvPayload]
  rw [if_neg (by simp [hexit]), if_neg hchunk]

theorem recvPayload_fst (ticks : List Tick) (rest : List Byte) (n : ℕ) (got : List Byte) :
    (recvPayload ticks rest n got).1 = got ++ rest.take (min n (arriving ticks)) := by
  induction ticks generalizing rest n got with
  | nil => cases n <;> simp [recvPayload, arriving]
  | cons t ticks ih =>
    cases n with
    | zero => simp [recvPayload]
    | succ n =>
      by_cases hstop : t.exit = true ∨ recv rest t (n + 1) = []
      · rw [recvPayload_stop hstop, arriving_cons]
        rcases hstop with hexit | hchunk
        · simp [hexit]
        · rcases List.take_eq_nil_iff.mp hchunk with hsize | hrest
          · simp [show t.size = 0 by omega]
          · simp [hrest]
      · obtain ⟨hexit, hchunk⟩ := not_or.mp hstop
        have hexit : t.exit = false := by simpa using hexit
        have hsize : 0 < t.size := by
          by_contra h
          exact hchunk (by simp [recv, show t.size = 0 by omega])
        rw [recvPayload_more hexit hchunk, ih, arriving_cons, if_pos ⟨hexit, hsize⟩,
          List.append_assoc]
        congr 1
        rw [recv]
        -- a chunk that is shorter than what was asked for is all that is left
        rcases Nat.lt_or_ge (min t.size (n + 1)) rest.length with hlt | hge
        · rw [List.length_take_of_le hlt.le, ← List.take_add]
          congr 1
          omega
        · rw [List.take_of_length_le hge, List.drop_length, List.take_nil, List.append_nil,
            List.take_of_length_le (by omega)]

def afterPayload : List ℕ → ℕ → List ℕ
  | sizes, 0 => sizes
  | [], _ + 1 => []
  | size :: sizes, n + 1 => afterPayload sizes (n + 1 - size)

/-- Turns that all receive. -/
def schedule (sizes : List ℕ) : List Tick := sizes.map fun n => ⟨false, n⟩

theorem length_le_arriving {sizes : List ℕ} (hpos : ∀ n ∈ sizes, 0 < n) :
    sizes.length ≤ arriving (schedule sizes) := by
  induction sizes with
  | nil => exact Nat.zero_le _
  | cons size sizes ih =>
    have hsize : 0 < size := hpos size List.mem_cons_self
    have hrest := ih fun n hn => hpos n (List.mem_cons_of_mem size hn)
    change _ ≤ arriving (⟨false, size⟩ :: schedule sizes)
    rw [arriving_cons, if_pos ⟨rfl, hsize⟩]
    change sizes.length + 1 ≤ size + arriving (schedule sizes)
    omega

theorem mem_afterPayload {sizes : List ℕ} {n m : ℕ} (h : m ∈ afterPayload sizes n) :
    m ∈ sizes := by
  induction sizes generalizing n with
  | nil => cases n <;> exact h
  | cons size sizes ih =>
    cases n with
    | zero => exact h
    | succ n => exact List.mem_cons_of_mem size (ih h)

theorem length_le_afterPayload {sizes : List ℕ} (hpos : ∀ n ∈ sizes, 0 < n) (n : ℕ) :
    sizes.length ≤ (afterPayload sizes n).length + n := by
  induction sizes generalizing n with
  | nil => exact Nat.zero_le _
  | cons size sizes ih =>
    cases n with
    | zero => exact le_rfl
    | succ n =>
      have hsize : 0 < size := hpos size List.mem_cons_self
      have hrest := ih (fun m hm => hpos m (List.mem_cons_of_mem size hm)) (n + 1 - size)
      rw [afterPayload, List.length_cons]
      omega

theorem recvPayload_snd {sizes : List ℕ} (hpos : ∀ n ∈ sizes, 0 < n) (rest : List Byte) {n : ℕ}
    (hticks : n ≤ sizes.length) (hrest : n ≤ rest.length) (got : List Byte) :
    (recvPayload (schedule sizes) rest n got).2 =
      ⟨schedule (afterPayload sizes n), rest.drop n⟩ := by
  induction sizes generalizing rest n got with
  | nil =>
    obtain rfl : n = 0 := by simpa using hticks
    simp [recvPayload, afterPayload]
  | cons size sizes ih =>
    cases n with
    | zero => simp [recvPayload, afterPayload]
    | succ n =>
      have hsize : 0 < size := hpos size List.mem_cons_self
      have hlen : (recv rest ⟨false, size⟩ (n + 1)).length = min size (n + 1) :=
        List.length_take_of_le (by omega)
      have hchunk : recv rest ⟨false, size⟩ (n + 1) ≠ [] := by
        rw [← List.length_pos_iff, hlen]
        omega
      change (recvPayload (⟨false, size⟩ :: schedule sizes) rest (n + 1) got).2 = _
      rw [recvPayload_more rfl hchunk, hlen, ih fun m hm => hpos m (List.mem_cons_of_mem size hm)]
      · rw [List.drop_drop, afterPayload]
        congr 2
        · congr 1
          omega
        · omega
      · simp at hticks
        omega
      · rw [List.length_drop]
        omega

inductive Event
  | mapped (desc : VMCLSurfaceMapOp)
  | unmapped (op : VMCLSurfaceUnmapOp) (bytes : List Byte)
  deriving DecidableEq

/-- Callbacks that keep a record, with mappings of a given length. -/
def recording (mapped : ℕ) : Callbacks (List Event) where
  surfacemap desc s := .ok (mapped, s ++ [.mapped desc])
  surfaceunmap op bytes s := .ok (s ++ [.unmapped op bytes])

end StreamServer

end VMAccel
