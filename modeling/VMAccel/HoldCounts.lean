import Mathlib.Logic.Function.Basic
import Mathlib.Tactic.Common

/-!
# Hold counts of recursive locks

A thread may take a recursive lock that it holds already, and has to release it as often as it has
taken it. `replay` computes the hold counts that a sequence of operations leaves, and fails at the
release of a lock that is not held. A sequence is balanced when it restores the counts it started
with, whatever they are.
-/

namespace HoldCounts

inductive Op (μ : Type)
  | lock (m : μ)
  | unlock (m : μ)
  deriving DecidableEq

variable {μ : Type} [DecidableEq μ] {h h' : μ → ℕ} {ops ops' : List (Op μ)}

def replay (h : μ → ℕ) : List (Op μ) → Option (μ → ℕ)
  | [] => some h
  | .lock m :: ops => replay (Function.update h m (h m + 1)) ops
  | .unlock m :: ops =>
    if h m = 0 then none else replay (Function.update h m (h m - 1)) ops

def Balanced (ops : List (Op μ)) : Prop := ∀ h : μ → ℕ, replay h ops = some h

theorem replay_append : replay h (ops ++ ops') = (replay h ops).bind fun g => replay g ops' := by
  induction ops generalizing h with
  | nil => rfl
  | cons op ops ih =>
    cases op with
    | lock m => exact ih
    | unlock m =>
      simp only [List.cons_append, replay]
      split_ifs
      · rfl
      · exact ih

theorem count_of_replay (hr : replay h ops = some h') (m : μ) :
    h' m + ops.count (.unlock m) = h m + ops.count (.lock m) := by
  induction ops generalizing h with
  | nil =>
    cases hr
    rfl
  | cons op ops ih =>
    cases op with
    | lock k =>
      have hrest := ih hr
      by_cases hk : k = m
      · subst hk
        rw [Function.update_self] at hrest
        rw [List.count_cons_self, List.count_cons_of_ne (by simp), hrest]
        omega
      · simpa [hk, Function.update_of_ne (Ne.symm hk)] using hrest
    | unlock k =>
      simp only [replay] at hr
      split_ifs at hr with h0
      have hrest := ih hr
      by_cases hk : k = m
      · subst hk
        rw [Function.update_self] at hrest
        rw [List.count_cons_self, List.count_cons_of_ne (by simp)]
        omega
      · simpa [hk, Function.update_of_ne (Ne.symm hk)] using hrest

theorem balanced_nil : Balanced ([] : List (Op μ)) := fun _ => rfl

theorem Balanced.nest (hb : Balanced ops) (m : μ) :
    Balanced (.lock m :: ops ++ [.unlock m]) := by
  intro h
  rw [List.cons_append, replay, replay_append, hb, Option.bind_some, replay, Function.update_self,
    if_neg (Nat.succ_ne_zero _), Nat.add_sub_cancel, Function.update_idem, Function.update_eq_self]
  rfl

def mirror (ms : List μ) : List (Op μ) := ms.map .lock ++ ms.reverse.map .unlock

theorem balanced_mirror (ms : List μ) : Balanced (mirror ms) := by
  induction ms with
  | nil => exact balanced_nil
  | cons m ms ih => simpa [mirror] using ih.nest m

end HoldCounts
