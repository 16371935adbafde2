import VMAccel.AllocatorSurvival
import VMAccel.AllocatorUndo

/-!
# The calls that the allocator of accelerators survives

On top of what any allocator asks of a call, a `Free` of an accelerator that has something free
moves the merged descriptor into a new node, so the memory of the node decides as well.
-/

namespace VMAccel.VMAccelAllocator

open StepSystem IdentifierDB

variable {M : OrderedMultiset (VMAccelObject VMAccelDesc) Resource.cmp}
  {s s' : VMAccelAllocator VMAccelDesc M}

/-- The identifier that the call gives back, if any, is in use, and the node of a `Free` is clear if
its accelerator has something free. -/
def SafeCall (s : VMAccelAllocator VMAccelDesc M) : Call VMAccelDesc × RawNode → Prop
  | (.unregister id, _) => s.registeredIds.Active id
  | (.free id, node) => s.externalIds.Active id ∧
    ((∃ e ∈ M.bag s.freeSet, e.parentId = (s.objectAt id.toNat).parentId) → node.Clear)
  | (.register _, _) | (.alloc _ _, _) => True

structure Kempt (s : VMAccelAllocator VMAccelDesc M) : Prop where
  sized : s.Sized
  wellFormed : s.WellFormed
  orderly : s.ledger.Orderly

theorem kempt_new {num : ℕ} (hnum : num + 31 < 2 ^ 32) : (new M num).Kempt where
  sized := sized_new hnum
  wellFormed := wellFormed_new num
  orderly := Ledger.orderly_new num

theorem Kempt.applyIn (h : s.Kempt) {c : Call VMAccelDesc × RawNode}
    (hr : s.applyIn c = .ok s') : s'.Kempt := by
  have hr := (applyIn_ok.mp hr).1
  obtain ⟨hwf, hstep⟩ := apply_refines h.wellFormed hr
  exact ⟨h.sized.apply hr, hwf, h.orderly.step hstep⟩

theorem Kempt.returns_applyIn_iff (h : s.Kempt) (c : Call VMAccelDesc × RawNode) :
    Returns (s.applyIn c) ↔ s.SafeCall c := by
  have hreturns : Returns (s.applyIn c) ↔ s.InUse c.1 ∧ (s.Merges c.1 → c.2.Clear) := by
    rw [← h.sized.returns_apply_iff false c.1]
    simp only [Returns, applyIn_ok, exists_and_right]
  rw [hreturns]
  obtain ⟨c, node⟩ := c
  cases c with
  | register a =>
    have hnot := not_merges_register h.wellFormed a
    exact iff_of_true ⟨trivial, fun hm => absurd hm hnot⟩ trivial
  | unregister id => exact and_iff_left fun hm => absurd hm (not_merges_unregister id)
  | alloc p a =>
    have hnot := not_merges_alloc h.orderly.single p a
    exact iff_of_true ⟨trivial, fun hm => absurd hm hnot⟩ trivial
  | free id => exact and_congr_right fun _ => imp_congr_left merges_free

theorem returns_run_iff_safeCall {num : ℕ} (hnum : num + 31 < 2 ^ 32)
    (cs : List (Call VMAccelDesc × RawNode)) :
    Returns (run VMAccelAllocator.applyIn (new M num) cs) ↔
      EachInput VMAccelAllocator.applyIn SafeCall (new M num) cs := by
  rw [returns_run_iff]
  exact eachInput_iff (fun s c (h : s.Kempt) => h.returns_applyIn_iff c)
    (fun _ _ _ h _ hr => h.applyIn hr) (kempt_new hnum)

end VMAccel.VMAccelAllocator
