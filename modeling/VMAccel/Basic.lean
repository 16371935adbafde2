import VMAccel.StepSystem
import Mathlib.Algebra.Ring.Nat
import Mathlib.Data.List.Basic

/-!
# Common types of the accelerator stack

Identifiers and status codes of `vmaccel_defs.h`, and the ways in which the code can stop without
returning: a failed `assert`, an access beyond the end of a table, a `free` of memory that was not
allocated, and an access through a null pointer.
-/

namespace VMAccel

open StepSystem

/-- `VMAccelId` is an unsigned 32-bit integer. -/
abbrev VMAccelId := BitVec 32

def invalidId : VMAccelId := -1

inductive StatusCode
  | success
  | fail
  | semanticError
  | deviceError
  | resourceUnavailable
  | deviceLost
  | outOfComputeResources
  | outOfMemory
  | timeout
  deriving DecidableEq, Repr

inductive Fault
  | assertion
  | outOfBounds
  | invalidFree
  | nullPointer
  deriving DecidableEq, Repr

/-- `assert(p)`. -/
def require (p : Prop) [Decidable p] : Except Fault Unit := if p then .ok () else .error .assertion

theorem require_ok {p : Prop} [Decidable p] {u : Unit} : require p = .ok u ↔ p := by
  unfold require
  split_ifs with h
  · exact iff_of_true rfl h
  · simp [h]

/-- Indexing of a table or vector: `std::vector::operator[]` and C arrays do not check. -/
def readAt {α : Type*} (l : List α) (i : ℕ) : Except Fault α :=
  match l[i]? with
  | some a => .ok a
  | none => .error .outOfBounds

def writeAt {α : Type*} (l : List α) (i : ℕ) (a : α) : Except Fault (List α) :=
  if i < l.length then .ok (l.set i a) else .error .outOfBounds

def modifyAt {α : Type} (l : List α) (i : ℕ) (f : α → α) : Except Fault (List α) := do
  let a ← readAt l i
  writeAt l i (f a)

theorem readAt_ok {α : Type*} {l : List α} {i : ℕ} {a : α} :
    readAt l i = .ok a ↔ l[i]? = some a := by
  unfold readAt
  cases l[i]? <;> simp

theorem writeAt_ok {α : Type*} {l l' : List α} {i : ℕ} {a : α} :
    writeAt l i a = .ok l' ↔ i < l.length ∧ l' = l.set i a := by
  unfold writeAt
  split_ifs with h
  · simp [h, eq_comm]
  · simp [h]

theorem modifyAt_ok {α : Type} {l l' : List α} {i : ℕ} {f : α → α} :
    modifyAt l i f = .ok l' ↔ i < l.length ∧ l' = l.modify i f := by
  rw [modifyAt, bind_eq_ok]
  constructor
  · rintro ⟨a, ha, hw⟩
    obtain ⟨hi, rfl⟩ := List.getElem?_eq_some_iff.mp (readAt_ok.mp ha)
    exact ⟨hi, by rw [(writeAt_ok.mp hw).2, List.modify_eq_set_get f hi]; rfl⟩
  · rintro ⟨hi, rfl⟩
    refine ⟨l[i], readAt_ok.mpr (List.getElem?_eq_getElem hi), writeAt_ok.mpr ⟨hi, ?_⟩⟩
    rw [List.modify_eq_set_get f hi]
    rfl

end VMAccel
