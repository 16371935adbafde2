import VMAccel.Basic

/-!
# The SPIR-V cloner

`VMXCSPIRVCloner` of `vmxc_spirv_clone.cpp` copies a SPIR-V module word by word out of the
callbacks of the parser in SPIRV-Tools. The library is not part of the repository: `SPIRVTools` has
the three functions of it that the cloner calls, and `Reads` is what is assumed of them. The
types of operands and the identifiers of an instruction are copied along and never written out, so
they are left out here.
-/

namespace VMAccel

open StepSystem

abbrev Word := BitVec 32

/-- `spv_result_t`, of which the cloner only names two values. -/
inductive SpvResult
  | success
  | invalidBinary
  | other (code : ℕ)
  deriving DecidableEq

/-- `spv_parsed_operand_t`. -/
structure ParsedOperand where
  offset : BitVec 16
  numWords : BitVec 16
  deriving DecidableEq

def ParsedOperand.Covers (o : ParsedOperand) (k : ℕ) : Prop :=
  o.offset.toNat ≤ k ∧ k < o.offset.toNat + o.numWords.toNat

instance (o : ParsedOperand) (k : ℕ) : Decidable (o.Covers k) :=
  inferInstanceAs (Decidable (_ ∧ _))

/-- `spv_parsed_instruction_t`. -/
structure ParsedInstruction where
  words : List Word
  numWords : BitVec 16
  opcode : BitVec 16
  operands : List ParsedOperand
  deriving DecidableEq

inductive Callback
  | header (magic version generator idBound schema : Word)
  | instruction (inst : ParsedInstruction)
  deriving DecidableEq

/-- `spvValidateWithOptions`, `spvBinaryParse` with the callbacks that it makes before it returns,
and `spvOpcodeMake`. -/
structure SPIRVTools where
  validate : List Word → SpvResult
  parse : List Word → SpvResult × List Callback
  opcodeMake : BitVec 16 → BitVec 16 → Word

/-- `memcpy` of `n` entries to `offset` in one array from `offset` in another. -/
def memcpyAt {α : Type} (dst src : List α) (offset n : ℕ) : Except Fault (List α) :=
  if offset + n ≤ dst.length ∧ offset + n ≤ src.length then
    .ok (dst.take offset ++ (src.drop offset).take n ++ dst.drop (offset + n))
  else .error .outOfBounds

/-- `SPIRVConcatenate`. -/
def spirvConcatenate (stream : List Word) (instructions : List (List Word)) : List Word :=
  instructions.foldl (· ++ ·) stream

/-- `inst_words_` and `parsed_operands_` are scratch storage that every instruction starts by
clearing. -/
structure VMXCSPIRVCloner where
  spirv : List Word
  instWords : List Word
  parsedOperands : List ParsedOperand

namespace VMXCSPIRVCloner

def new : VMXCSPIRVCloner := ⟨[], [], []⟩

def processHeader (c : VMXCSPIRVCloner) (magic version generator idBound schema : Word) :
    VMXCSPIRVCloner :=
  { c with spirv := spirvConcatenate c.spirv [[magic, version, generator, idBound, schema]] }

def copyOperands (words : List Word) : List Word → List ParsedOperand → Except Fault (List Word)
  | instWords, [] => .ok instWords
  | instWords, o :: operands => do
    let instWords ← memcpyAt instWords words o.offset.toNat o.numWords.toNat
    copyOperands words instWords operands

/-- `ProcessInstruction`. An instruction without words is written as its opcode. -/
def processInstruction (tools : SPIRVTools) (c : VMXCSPIRVCloner) (inst : ParsedInstruction) :
    Except Fault VMXCSPIRVCloner :=
  if inst.numWords = 0 then
    .ok ⟨spirvConcatenate c.spirv [[inst.opcode.setWidth 32]], [], []⟩
  else do
    -- The scratch storage was cleared, so that it grows by zeros only.
    let instWords ← copyOperands inst.words (List.replicate inst.numWords.toNat 0) inst.operands
    let instWords ← writeAt instWords 0
      (tools.opcodeMake (BitVec.ofNat 16 instWords.length) inst.opcode)
    return ⟨spirvConcatenate c.spirv [instWords], instWords, inst.operands⟩

def process (tools : SPIRVTools) (c : VMXCSPIRVCloner) : Callback → Except Fault VMXCSPIRVCloner
  | .header magic version generator idBound schema =>
    .ok (c.processHeader magic version generator idBound schema)
  | .instruction inst => c.processInstruction tools inst

/-- `GetSPIRV` into a buffer. -/
def getSPIRV (c : VMXCSPIRVCloner) (out : List Word) (size : ℕ) : Except Fault (List Word) :=
  memcpyAt out c.spirv 0 (min c.spirv.length size)

def readWords (out : List Word) (size : ℕ) : Except Fault (List Word) :=
  if size ≤ out.length then .ok (out.take size) else .error .outOfBounds

/-- `Run`, with the words in `spirv_out` when it returns. -/
def run (tools : SPIRVTools) (data out : List Word) : Except Fault (SpvResult × List Word) :=
  if tools.validate data ≠ .success then .ok (tools.validate data, out)
  else do
    -- The callbacks are made before it is known whether the whole binary parses.
    let c ← StepSystem.run (process tools) new (tools.parse data).2
    if (tools.parse data).1 ≠ .success then return (.invalidBinary, out)
    let out ← c.getSPIRV out data.length
    let binary ← readWords out data.length
    if tools.validate binary ≠ .success then return (tools.validate binary, out)
    return (.success, out)

end VMXCSPIRVCloner

/-- `vmxc_spirv_clone`, which drops the result of `Run`. -/
def vmxcSpirvClone (tools : SPIRVTools) (data out : List Word) :
    Except Fault (SpvResult × List Word) := do
  let r ← VMXCSPIRVCloner.run tools data out
  return (.success, r.2)

/-- The operands cover the words of the instruction after the first one exactly. -/
structure ParsedInstruction.Covered (inst : ParsedInstruction) : Prop where
  within : ∀ o ∈ inst.operands,
    1 ≤ o.offset.toNat ∧ o.offset.toNat + o.numWords.toNat ≤ inst.numWords.toNat
  covers : ∀ k < inst.numWords.toNat, 1 ≤ k → ∃ o ∈ inst.operands, o.Covers k

structure ParsedInstruction.Native (inst : ParsedInstruction) : Prop extends inst.Covered where
  length : inst.words.length = inst.numWords.toNat
  first : inst.words[0]? = some (inst.numWords ++ inst.opcode)

/-- What is assumed of SPIRV-Tools: one callback for the header and one for each instruction, in
order and with the words of the stream, and `spvOpcodeMake` packs the word count and the opcode. -/
structure SPIRVTools.Reads (tools : SPIRVTools) (data : List Word) : Prop where
  callbacks : ∃ (magic version generator idBound schema : Word) (insts : List ParsedInstruction),
    (tools.parse data).2 =
      .header magic version generator idBound schema :: insts.map .instruction ∧
    data = [magic, version, generator, idBound, schema] ++ insts.flatMap (·.words) ∧
    ∀ inst ∈ insts, inst.Native
  opcodeMake : ∀ n op, tools.opcodeMake n op = n ++ op

section Memcpy

variable {α : Type} {dst src : List α} {offset n : ℕ}

theorem memcpyAt_of_le (hdst : offset + n ≤ dst.length) (hsrc : offset + n ≤ src.length) :
    ∃ r, memcpyAt dst src offset n = .ok r ∧ r.length = dst.length ∧
      ∀ k, r[k]? = if offset ≤ k ∧ k < offset + n then src[k]? else dst[k]? := by
  have htake : (dst.take offset).length = offset := List.length_take_of_le (by omega)
  have hcopy : ((src.drop offset).take n).length = n :=
    List.length_take_of_le (by rw [List.length_drop]; omega)
  refine ⟨_, if_pos ⟨hdst, hsrc⟩, ?_, fun k => ?_⟩
  · rw [List.length_append, List.length_append, htake, hcopy, List.length_drop]
    omega
  · rw [List.append_assoc]
    rcases Nat.lt_or_ge k offset with hk | hk
    · rw [if_neg (by omega), List.getElem?_append_left (by omega), List.getElem?_take_of_lt hk]
    · rw [List.getElem?_append_right (by omega), htake]
      rcases Nat.lt_or_ge k (offset + n) with hk' | hk'
      · rw [if_pos ⟨hk, hk'⟩, List.getElem?_append_left (by omega),
          List.getElem?_take_of_lt (by omega), List.getElem?_drop, Nat.add_sub_cancel' hk]
      · rw [if_neg (by omega), List.getElem?_append_right (by omega), hcopy, List.getElem?_drop]
        congr 1
        omega

end Memcpy

namespace VMXCSPIRVCloner

variable {tools : SPIRVTools} {words : List Word}

theorem copyOperands_ok {operands : List ParsedOperand} (instWords : List Word)
    (hlen : instWords.length = words.length)
    (hwithin : ∀ o ∈ operands, o.offset.toNat + o.numWords.toNat ≤ words.length) :
    ∃ r, copyOperands words instWords operands = .ok r ∧ r.length = words.length ∧
      ∀ k, r[k]? = if ∃ o ∈ operands, o.Covers k then words[k]? else instWords[k]? := by
  induction operands generalizing instWords with
  | nil => exact ⟨instWords, rfl, hlen, fun k => by simp⟩
  | cons o operands ih =>
    obtain ⟨ho, hrest⟩ := List.forall_mem_cons.mp hwithin
    obtain ⟨r, hr, hrlen, hrget⟩ := memcpyAt_of_le (hlen.symm ▸ ho) ho
    obtain ⟨r', hr', hrlen', hrget'⟩ := ih r (hrlen.trans hlen) hrest
    refine ⟨r', bind_eq_ok.mpr ⟨r, hr, hr'⟩, hrlen', fun k => ?_⟩
    rw [hrget', hrget, if_congr (List.exists_mem_cons_iff _ o operands) rfl rfl,
      if_congr or_comm rfl rfl, ite_or]
    rfl

theorem copyOperands_native {inst : ParsedInstruction} (h : inst.Native) :
    ∃ r, copyOperands inst.words (List.replicate inst.numWords.toNat 0) inst.operands = .ok r ∧
      r.length = inst.numWords.toNat ∧ ∀ k, r[k + 1]? = inst.words[k + 1]? := by
  obtain ⟨r, hr, hlen, hget⟩ := copyOperands_ok (List.replicate inst.numWords.toNat 0)
    (List.length_replicate.trans h.length.symm) fun o ho => h.length.symm ▸ (h.within o ho).2
  rw [h.length] at hlen
  refine ⟨r, hr, hlen, fun k => ?_⟩
  by_cases hk : k + 1 < inst.numWords.toNat
  · rw [hget, if_pos (h.covers (k + 1) hk (Nat.le_add_left 1 k))]
  · rw [List.getElem?_eq_none (by omega), List.getElem?_eq_none (by rw [h.length]; omega)]

theorem processInstruction_native {inst : ParsedInstruction}
    (hmake : ∀ n op, tools.opcodeMake n op = n ++ op) (h : inst.Native) (c : VMXCSPIRVCloner) :
    c.processInstruction tools inst = .ok ⟨c.spirv ++ inst.words, inst.words, inst.operands⟩ := by
  have hpos : 0 < inst.numWords.toNat := h.length ▸ (List.getElem?_eq_some_iff.mp h.first).1
  have hne : inst.numWords ≠ 0 := by
    intro h0
    rw [h0] at hpos
    exact absurd hpos (Nat.lt_irrefl 0)
  obtain ⟨r, hr, hlen, hget⟩ := copyOperands_native h
  -- No operand covers the first word: it is still zero, and `spvOpcodeMake` restores it.
  have hwords : r.set 0 (tools.opcodeMake (BitVec.ofNat 16 r.length) inst.opcode) = inst.words := by
    refine List.ext_getElem? fun k => ?_
    rw [hmake, hlen, BitVec.ofNat_toNat, BitVec.setWidth_eq]
    cases k with
    | zero => rw [List.getElem?_set_self (by omega), h.first]
    | succ k => rw [List.getElem?_set_ne (Nat.succ_ne_zero k).symm, hget]
  rw [processInstruction, if_neg hne, hr, ok_bind, writeAt_ok.mpr ⟨hlen.symm ▸ hpos, rfl⟩, ok_bind,
    hwords]
  rfl

theorem run_instructions {insts : List ParsedInstruction}
    (hmake : ∀ n op, tools.opcodeMake n op = n ++ op) (h : ∀ inst ∈ insts, inst.Native)
    (c : VMXCSPIRVCloner) :
    ∃ c', StepSystem.run (process tools) c (insts.map .instruction) = .ok c' ∧
      c'.spirv = c.spirv ++ insts.flatMap (·.words) := by
  induction insts generalizing c with
  | nil => exact ⟨c, rfl, (List.append_nil _).symm⟩
  | cons inst insts ih =>
    obtain ⟨hinst, hrest⟩ := List.forall_mem_cons.mp h
    obtain ⟨c', hc', hspirv⟩ := ih hrest ⟨c.spirv ++ inst.words, inst.words, inst.operands⟩
    refine ⟨c', run_cons_ok.mpr ⟨_, processInstruction_native hmake hinst c, hc'⟩, ?_⟩
    rw [hspirv, List.flatMap_cons, List.append_assoc]

theorem run_callbacks {data : List Word} (h : tools.Reads data) :
    ∃ c, StepSystem.run (process tools) new (tools.parse data).2 = .ok c ∧ c.spirv = data := by
  obtain ⟨magic, version, generator, idBound, schema, insts, hcallbacks, hdata, hnative⟩ :=
    h.callbacks
  obtain ⟨c, hc, hspirv⟩ := run_instructions h.opcodeMake hnative
    (new.processHeader magic version generator idBound schema)
  rw [hcallbacks]
  exact ⟨c, run_cons_ok.mpr ⟨_, rfl, hc⟩, hspirv.trans hdata.symm⟩

theorem getSPIRV_of_le {c : VMXCSPIRVCloner} {out : List Word} (h : c.spirv.length ≤ out.length) :
    c.getSPIRV out c.spirv.length = .ok (c.spirv ++ out.drop c.spirv.length) := by
  rw [getSPIRV, Nat.min_self, memcpyAt, if_pos ⟨by omega, by omega⟩]
  simp

end VMXCSPIRVCloner

open VMXCSPIRVCloner in
/-- A module that is valid and that the parser reads is cloned word for word. -/
theorem clone_eq_input (tools : SPIRVTools) {data out : List Word}
    (hvalid : tools.validate data = .success) (hparse : (tools.parse data).1 = .success)
    (hreads : tools.Reads data) (hout : data.length ≤ out.length) :
    vmxcSpirvClone tools data out = .ok (.success, data ++ out.drop data.length) := by
  obtain ⟨c, hc, rfl⟩ := run_callbacks hreads
  rw [vmxcSpirvClone, VMXCSPIRVCloner.run, if_neg (not_not.mpr hvalid), hc, ok_bind,
    if_neg (not_not.mpr hparse), getSPIRV_of_le hout, ok_bind, readWords,
    if_pos (by rw [List.length_append]; omega), ok_bind, List.take_left,
    if_neg (not_not.mpr hvalid)]
  rfl

def moduleDemo : List Word := [0x07230203, 0x00010000, 0, 1, 0, 0x00020011, 1, 0x0003000E, 0, 1]

def instructionsDemo : List ParsedInstruction :=
  [⟨[0x00020011, 1], 2, 0x11, [⟨1, 1⟩]⟩, ⟨[0x0003000E, 0, 1], 3, 0xE, [⟨1, 1⟩, ⟨2, 1⟩]⟩]

def toolsDemo : SPIRVTools where
  validate data := if data = moduleDemo then .success else .invalidBinary
  parse data :=
    if data = moduleDemo then
      (.success, .header 0x07230203 0x00010000 0 1 0 :: instructionsDemo.map .instruction)
    else (.invalidBinary, [])
  opcodeMake n op := n ++ op

theorem clone_eq_input_demo :
    vmxcSpirvClone toolsDemo moduleDemo (List.replicate 10 0) = .ok (.success, moduleDemo) := by
  have hnative : ∀ inst ∈ instructionsDemo, inst.Native := by
    intro inst hinst
    rcases List.mem_pair.mp hinst with rfl | rfl
    · exact ⟨⟨by decide, by decide⟩, rfl, rfl⟩
    · exact ⟨⟨by decide, by decide⟩, rfl, rfl⟩
  have hreads : toolsDemo.Reads moduleDemo :=
    ⟨⟨0x07230203, 0x00010000, 0, 1, 0, instructionsDemo, rfl, rfl, hnative⟩, fun _ _ => rfl⟩
  exact clone_eq_input toolsDemo rfl rfl hreads (by decide)

end VMAccel
