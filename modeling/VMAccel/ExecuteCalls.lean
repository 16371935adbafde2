import Mathlib.Data.Prod.Lex
import VMAccel.Execute

/-!
# The calls that `execute` makes

`execute` prepares its arguments one after the other, then prepares the kernel, dispatches and
flushes, and reads the arguments back in the same order. So it makes no call twice, and what became
of its calls can be said by a table.
-/

namespace VMAccel.Execute

open EventLog Logged

/-- The place of a call: the part of `execute`, and the place there. -/
def rank : ServerCall → ℕ ×ₗ ℕ
  | .surfacealloc i => toLex (0, 3 * i)
  | .surfacemap i => toLex (0, 3 * i + 1)
  | .surfaceunmap i => toLex (0, 3 * i + 2)
  | .kernelalloc k => toLex (1, k)
  | .dispatch => toLex (2, 0)
  | .queueflush => toLex (3, 0)
  | .readmap i => toLex (4, 3 * i)
  | .readunmap i => toLex (4, 3 * i + 1)
  | .surfacedestroy i => toLex (4, 3 * i + 2)

section Places

variable {p q m n : ℕ}

theorem place_le (h : m ≤ n) : (toLex (p, m) : ℕ ×ₗ ℕ) ≤ toLex (p, n) :=
  Prod.Lex.toLex_le_toLex.mpr (Or.inr ⟨rfl, h⟩)

theorem place_lt (h : m < n) : (toLex (p, m) : ℕ ×ₗ ℕ) < toLex (p, n) :=
  Prod.Lex.toLex_lt_toLex.mpr (Or.inr ⟨rfl, h⟩)

theorem part_lt (h : p < q) : (toLex (p, m) : ℕ ×ₗ ℕ) < toLex (q, n) :=
  Prod.Lex.toLex_lt_toLex.mpr (Or.inl h)

end Places

abbrev Ordered {α : Type} (a b : ℕ ×ₗ ℕ) (x : Calling α) : Prop :=
  x.InOrder (fun e => rank e.1) a b

variable {net : ExecuteNet} {h : Host} {i : ℕ} {a b c : ℕ ×ₗ ℕ}

theorem ordered_tell {s : ServerCall} (e : ServerExchange) (ha : a ≤ rank s) (hb : rank s < b) :
    Ordered a b (tell (s, e)) := inOrder_tell ha hb

theorem ordered_call_bind {ρ α : Type} {s : ServerCall} {answer : Answer}
    {handler : Host → Bool → Except Fault (ρ × Host)} {refusal : StatusCode → ρ}
    {status : ρ → StatusCode} {f : Option ρ × Host → Calling α} (hf : ∀ r, Ordered b c (f r))
    (ha : a ≤ rank s) (hb : rank s < b) (hc : b ≤ c) :
    Ordered a c (call s answer h handler refusal status >>= f) := by
  have hcall : Ordered a b (call s answer h handler refusal status) :=
    inOrder_lift_bind fun r =>
      (ordered_tell _ ha hb).bind (fun _ => inOrder_pure r) (ha.trans hb.le) le_rfl
  exact hcall.bind hf (ha.trans hb.le) hc

theorem ordered_prepareArg (arg : ExecuteArg) :
    Ordered (toLex (0, 3 * i)) (toLex (0, 3 * (i + 1))) (prepareArg net h i arg) := by
  refine ordered_call_bind (b := toLex (0, 3 * i + 1)) (fun r => ?_) le_rfl
    (place_lt (Nat.lt_succ_self _)) (place_le (by omega))
  cases r.1 with
  | none => exact inOrder_pure _
  | some _ =>
    refine ordered_call_bind (b := toLex (0, 3 * i + 2)) (fun q => ?_) le_rfl
      (place_lt (Nat.lt_succ_self _)) (place_le (by omega))
    split
    · refine inOrder_lift_bind fun _ => ?_
      refine ordered_call_bind (fun u => ?_) le_rfl (place_lt (Nat.lt_succ_self _)) le_rfl
      cases u.1 with
      | none => exact inOrder_pure _
      | some _ => exact inOrder_pure _
    · exact inOrder_lift_bind fun _ => inOrder_pure _

theorem ordered_prepareComputeArgs (args : List ExecuteArg) :
    Ordered (toLex (0, 3 * i)) (toLex (1, 0)) (prepareComputeArgs net h i args) := by
  induction args generalizing h i with
  | nil => exact inOrder_pure _
  | cons arg args ih =>
    refine (ordered_prepareArg arg).bind (fun r => ?_) (place_le (by omega))
      (part_lt Nat.zero_lt_one).le
    cases r.1 with
    | none => exact inOrder_pure _
    | some _ => exact ih.bind (fun _ => inOrder_pure _) (part_lt Nat.zero_lt_one).le le_rfl

theorem ordered_prepareKernel : Ordered (toLex (1, 0)) (toLex (2, 0)) (prepareKernel net) := by
  refine InOrder.bind (b := toLex (1, 1)) (ordered_tell _ le_rfl (place_lt Nat.zero_lt_one))
    (fun _ => ?_) (place_le (by omega)) (part_lt (by omega)).le
  split_ifs
  · exact inOrder_pure _
  · exact (ordered_tell _ le_rfl (part_lt Nat.one_lt_two)).bind (fun _ => inOrder_pure _)
      (part_lt Nat.one_lt_two).le le_rfl

theorem ordered_readBack (arg : ExecuteArg) (kernelArg : KernelArg) :
    Ordered (toLex (4, 3 * i)) (toLex (4, 3 * i + 2)) (readBack net h i arg kernelArg) := by
  refine ordered_call_bind (b := toLex (4, 3 * i + 1)) (fun q => ?_) le_rfl
    (place_lt (Nat.lt_succ_self _)) (place_le (by omega))
  split
  · refine inOrder_lift_bind fun _ => ?_
    exact ordered_call_bind (fun _ => inOrder_pure _) le_rfl (place_lt (Nat.lt_succ_self _)) le_rfl
  · exact inOrder_pure _

theorem ordered_quiesceArg (arg : ExecuteArg) (kernelArg : KernelArg) :
    Ordered (toLex (4, 3 * i)) (toLex (4, 3 * (i + 1))) (quiesceArg net h i arg kernelArg) := by
  unfold quiesceArg
  by_cases hinvalid : kernelArg.sid = invalidId
  · rw [if_pos hinvalid]
    exact inOrder_pure _
  rw [if_neg hinvalid]
  have hread : Ordered (toLex (4, 3 * i)) (toLex (4, 3 * i + 2))
      (if arg.usage = .readonly then pure (true, none, h)
        else readBack net h i arg kernelArg) := by
    split_ifs
    · exact inOrder_pure _
    · exact ordered_readBack arg kernelArg
  refine hread.bind (fun r => ?_) (place_le (by omega)) (place_le (by omega))
  split_ifs
  · exact ordered_call_bind (fun _ => inOrder_pure _) le_rfl (place_lt (Nat.lt_succ_self _)) le_rfl
  · exact inOrder_pure _

theorem ordered_quiesceComputeArgs (ps : List (ExecuteArg × KernelArg)) :
    Ordered (toLex (4, 3 * i)) (toLex (5, 0)) (quiesceComputeArgs net h i ps) := by
  induction ps generalizing h i with
  | nil => exact inOrder_pure _
  | cons p ps ih =>
    refine (ordered_quiesceArg p.1 p.2).bind (fun r => ?_) (place_le (by omega))
      (part_lt (by omega)).le
    split_ifs
    · exact ih.bind (fun _ => inOrder_pure _) (part_lt (by omega)).le le_rfl
    · exact inOrder_pure _

theorem ordered_finish (args : List ExecuteArg) (kernelArgs : List KernelArg) :
    Ordered (toLex (3, 0)) (toLex (5, 0)) (finish net h args kernelArgs) := by
  refine ordered_call_bind (b := toLex (4, 3 * 0)) (fun f => ?_) le_rfl (part_lt (by omega))
    (part_lt (by omega)).le
  cases f.1 with
  | none => exact inOrder_pure _
  | some _ =>
    exact (ordered_quiesceComputeArgs _).bind (fun _ => inOrder_pure _) (part_lt (by omega)).le
      le_rfl

theorem ordered_execute (args : List ExecuteArg) :
    Ordered (toLex (0, 3 * 0)) (toLex (5, 0)) (execute net h args) := by
  refine inOrder_lift_bind fun _ => ?_
  split_ifs
  · refine (ordered_prepareComputeArgs args).bind (fun p => ?_) (part_lt (by omega)).le
      (part_lt (by omega)).le
    cases p.1 with
    | none => exact inOrder_pure _
    | some kernelArgs =>
      refine ordered_prepareKernel.bind (fun kid => ?_) (part_lt (by omega)).le
        (part_lt (by omega)).le
      refine ordered_call_bind (b := toLex (3, 0)) (fun d => ?_) le_rfl (part_lt (by omega))
        (part_lt (by omega)).le
      cases d.1 with
      | none => exact inOrder_pure _
      | some _ => exact ordered_finish args kernelArgs
  · exact inOrder_pure _

/-- Each call of `execute` is made once, so there is a table of what became of them. -/
theorem exists_records_execute {args : List ExecuteArg} {log : List (ServerCall × ServerExchange)}
    {r : Outcome} (hr : execute net h args = ⟨log, .ok r⟩) : ∃ table, Records table log :=
  haveI : Inhabited ServerExchange := ⟨⟨none, none⟩⟩
  exists_records (ordered_execute args log r hr).1

end VMAccel.Execute
