import Mathlib.Data.Finset.Card
import Mathlib.Data.Finset.Range

/-!
# Bit sets packed into machine words

A list of `w`-bit words holds the bit with number `j` at position `j % w` of word `j / w`.
`bits` is the finite set of the numbers whose bit is one. Replacing one word changes exactly
the bits of that word; `FirstZero` is the specification of a search for the lowest clear bit,
and `firstZero_shift` is the step by which such a search narrows the word down.
-/

namespace PackedBits

variable {w : ℕ}

def word (words : List (BitVec w)) (i : ℕ) : BitVec w := words[i]?.getD 0

def bit (words : List (BitVec w)) (j : ℕ) : Bool := (word words (j / w)).getLsbD (j % w)

def bits (words : List (BitVec w)) : Finset ℕ :=
  (Finset.range (w * words.length)).filter fun j => bit words j = true

theorem word_of_length_le {words : List (BitVec w)} {i : ℕ} (h : words.length ≤ i) :
    word words i = 0 := by
  simp [word, List.getElem?_eq_none h]

theorem bit_of_length_le {words : List (BitVec w)} (hw : 0 < w) {j : ℕ}
    (h : w * words.length ≤ j) : bit words j = false := by
  have hj : words.length ≤ j / w := (Nat.le_div_iff_mul_le hw).mpr (by rwa [Nat.mul_comm])
  simp [bit, word_of_length_le hj]

theorem mem_bits {words : List (BitVec w)} (hw : 0 < w) {j : ℕ} :
    j ∈ bits words ↔ bit words j = true := by
  simp only [bits, Finset.mem_filter, Finset.mem_range, and_iff_right_iff_imp]
  intro hj
  by_contra hlt
  simp [bit_of_length_le hw (Nat.le_of_not_lt hlt)] at hj

theorem bits_replicate_zero (n : ℕ) : bits (List.replicate n (0 : BitVec w)) = ∅ := by
  simp only [bits, Finset.filter_eq_empty_iff, List.length_replicate]
  intro j _
  simp only [bit, word, List.getElem?_replicate]
  split_ifs <;> simp

theorem word_set {words : List (BitVec w)} {i : ℕ} (hi : i < words.length) (v : BitVec w)
    (k : ℕ) : word (words.set i v) k = if k = i then v else word words k := by
  by_cases hk : k = i
  · subst hk
    simp [word, hi]
  · simp [word, List.getElem?_set_ne (Ne.symm hk), hk]

theorem bit_set {words : List (BitVec w)} {i : ℕ} (hi : i < words.length) (v : BitVec w)
    (j : ℕ) : bit (words.set i v) j = if j / w = i then v.getLsbD (j % w) else bit words j := by
  simp only [bit, word_set hi]
  split_ifs <;> rfl

theorem bit_set_or {words : List (BitVec w)} {i : ℕ} (hi : i < words.length) (m : BitVec w)
    (j : ℕ) : bit (words.set i (word words i ||| m)) j =
      (bit words j || (decide (j / w = i) && m.getLsbD (j % w))) := by
  rw [bit_set hi]
  by_cases hj : j / w = i
  · simp [hj, bit]
  · simp [hj]

theorem bit_set_andNot {words : List (BitVec w)} {i : ℕ} (hi : i < words.length)
    (m : BitVec w) (hw : 0 < w) (j : ℕ) : bit (words.set i (word words i &&& ~~~m)) j =
      (bit words j && !(decide (j / w = i) && m.getLsbD (j % w))) := by
  rw [bit_set hi]
  by_cases hj : j / w = i
  · simp [hj, bit, Nat.mod_lt j hw]
  · simp [hj]

def FirstZero (m : BitVec w) (k : ℕ) : Prop :=
  m.getLsbD k = false ∧ ∀ j < k, m.getLsbD j = true

theorem firstZero_shift {m : BitVec w} {s k : ℕ} (hs : ∀ j < s, m.getLsbD j = true)
    (hk : FirstZero (m >>> s) k) : FirstZero m (s + k) := by
  refine ⟨by simpa using hk.1, fun j hj => ?_⟩
  by_cases hjs : j < s
  · exact hs j hjs
  · have h := hk.2 (j - s) (by omega)
    rw [BitVec.getLsbD_ushiftRight] at h
    rwa [show s + (j - s) = j by omega] at h

theorem exists_zero_of_ne_allOnes {m : BitVec w} (h : m ≠ BitVec.allOnes w) :
    ∃ k < w, m.getLsbD k = false := by
  by_contra hne
  push Not at hne
  apply h
  apply BitVec.eq_of_getLsbD_eq
  intro i hi
  simpa [hi] using hne i hi

theorem and_twoPow_eq_zero_iff {m : BitVec w} {k : ℕ} :
    m &&& BitVec.twoPow w k = 0 ↔ m.getLsbD k = false := by
  rw [BitVec.and_twoPow]
  cases hk : m.getLsbD k with
  | false => simp
  | true =>
    have hlt : k < w := BitVec.lt_of_getLsbD hk
    simp only [if_true, Bool.true_eq_false, iff_false]
    intro h0
    have := congrArg (fun v : BitVec w => v.getLsbD k) h0
    simp [hlt] at this

theorem decide_and_twoPow (hw : 0 < w) (j k : ℕ) :
    (decide (j / w = k / w) && (BitVec.twoPow w (k % w)).getLsbD (j % w)) = decide (j = k) := by
  rw [BitVec.getLsbD_twoPow, Bool.eq_iff_iff]
  simp only [Bool.and_eq_true, decide_eq_true_eq, Nat.mod_lt k hw, true_and]
  constructor
  · rintro ⟨hd, hm⟩
    rw [← Nat.div_add_mod j w, ← Nat.div_add_mod k w, hd, hm]
  · rintro rfl
    exact ⟨rfl, rfl⟩

end PackedBits
