import VMAccel.StepSystem
import Mathlib.Algebra.Ring.Int.Defs

/-!
# Signed arithmetic that is undefined on overflow

The value of a signed operation of C is that of the operation in the integers, as long as the type
of the result has that value. Otherwise the behaviour is undefined, which is a fault here.
-/

namespace SignedArith

open StepSystem

inductive Overflow
  | signed
  deriving DecidableEq, Repr

def represent (w : ℕ) (x : ℤ) : Except Overflow (BitVec w) :=
  if (BitVec.ofInt w x).toInt = x then .ok (BitVec.ofInt w x) else .error .signed

variable {w : ℕ} {x : ℤ} {a b z : BitVec w}

def add (a b : BitVec w) : Except Overflow (BitVec w) := represent w (a.toInt + b.toInt)

def sub (a b : BitVec w) : Except Overflow (BitVec w) := represent w (a.toInt - b.toInt)

def mul (a b : BitVec w) : Except Overflow (BitVec w) := represent w (a.toInt * b.toInt)

theorem represent_ok : represent w x = .ok z ↔ z.toInt = x := by
  unfold represent
  constructor
  · intro h
    split_ifs at h with hx
    cases h
    exact hx
  · rintro rfl
    rw [BitVec.ofInt_toInt, if_pos rfl]

theorem add_ok : add a b = .ok z ↔ z.toInt = a.toInt + b.toInt := represent_ok

theorem sub_ok : sub a b = .ok z ↔ z.toInt = a.toInt - b.toInt := represent_ok

theorem mul_ok : mul a b = .ok z ↔ z.toInt = a.toInt * b.toInt := represent_ok

theorem returns_represent (hw : 0 < w) :
    Returns (represent w x) ↔ -2 ^ (w - 1) ≤ x ∧ x < 2 ^ (w - 1) := by
  constructor
  · rintro ⟨z, hz⟩
    rw [← represent_ok.mp hz]
    exact ⟨z.le_toInt, z.toInt_lt⟩
  · rintro ⟨hlo, hhi⟩
    refine ⟨BitVec.ofInt w x, represent_ok.mpr ?_⟩
    obtain ⟨n, rfl⟩ : ∃ n, w = n + 1 := ⟨w - 1, by omega⟩
    have hpow : ((2 ^ (n + 1) : ℕ) : ℤ) = 2 * 2 ^ n := by
      push_cast
      rw [Int.pow_succ, Int.mul_comm]
    rw [Nat.add_sub_cancel] at hlo hhi
    rw [BitVec.toInt_ofInt, Int.bmod_eq_of_le] <;> omega

end SignedArith
