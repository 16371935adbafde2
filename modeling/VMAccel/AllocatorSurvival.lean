import VMAccel.AllocatorReferences

/-!
# The calls that an allocator survives

`Register` and `Alloc` always return. `Unregister` and `Free` return for the identifiers in use
and fail an assertion or leave their vector for the others.
-/

namespace VMAccel.VMAccelAllocator

open StepSystem IdentifierDB

variable {T : Type} [Resource T] {M : OrderedMultiset (VMAccelObject T) Resource.cmp}
  {s s' : VMAccelAllocator T M}

def InUse (s : VMAccelAllocator T M) : Call T → Prop
  | .unregister id => s.registeredIds.Active id
  | .free id => s.externalIds.Active id
  | .register _ | .alloc _ _ => True

structure Sized (s : VMAccelAllocator T M) : Prop where
  coherent : s.Coherent
  addressable : s.registeredIds.Addressable
  refCount : s.refCount.length = s.registeredIds.size.toNat

theorem sized_new {num : ℕ} (hnum : num + 31 < 2 ^ 32) : (new M num).Sized where
  coherent := coherent_new num
  addressable := by
    change num % 2 ^ 32 + 31 < 2 ^ 32
    omega
  refCount := by
    change (List.replicate num (0 : BitVec 32)).length = num % 2 ^ 32
    rw [List.length_replicate]
    omega

theorem Effect.length_refCount {deferFree : Bool} {c : Call T} (he : Effect deferFree s c s') :
    s'.refCount.length = s.refCount.length := by
  cases he with
  | enrolled a hfree hk hff => exact List.length_set
  | granted hfree hk hff hfind => exact List.length_modify ..
  | freed hact => exact List.length_modify ..
  | unchanged | withdrawn | refused | missed => rfl

theorem Sized.apply {deferFree : Bool} {c : Call T} (h : s.Sized)
    (hr : s.apply deferFree c = .ok s') : s'.Sized := by
  have he := apply_effect h.coherent hr
  refine ⟨h.coherent.effect he, ?_, ?_⟩
  · rw [Addressable, he.size_registeredIds]
    exact h.addressable
  · rw [he.length_refCount, he.size_registeredIds]
    exact h.refCount

theorem Sized.returns_register (h : s.Sized) (a : T) : Returns (s.register a) := by
  by_cases hfree : s.registeredIds.free = 0
  · have hid : s.registeredIds.allocId = .ok (none, s.registeredIds) := if_pos hfree
    refine ⟨(⟨0, .fail⟩, s), ?_⟩
    rw [register, hid]
    rfl
  · obtain ⟨k, hlt, -, -, hid⟩ := allocId_of_balanced h.coherent.base.registeredIds h.addressable
      hfree
    exact ⟨_, register_of_allocId h.coherent.base hid hlt a⟩

theorem Sized.returns_unregister_iff (h : s.Sized) {id : VMAccelId} :
    Returns (s.unregister id) ↔ s.registeredIds.Active id := by
  constructor
  · rintro ⟨r, hr⟩
    by_contra hact
    obtain ⟨c, hc, -⟩ := bind_eq_ok.mp hr
    rcases unregister_coalesces h.coherent.base hr with ⟨hne, -⟩ | ⟨ids, hids, -, -⟩
    · have hzero := (h.coherent.refCount_eq_zero (readAt_ok.mp hc)).mpr
        (h.coherent.children_eq_empty hact)
      exact hne (hzero ▸ readAt_ok.mp hc)
    · rcases releaseId_ok hids with ⟨hle, -⟩ | ⟨hactive, -⟩
      · obtain ⟨hlt, -⟩ := List.getElem?_eq_some_iff.mp (readAt_ok.mp hc)
        rw [h.refCount] at hlt
        exact absurd hlt (Nat.not_lt.mpr (BitVec.le_def.mp hle))
      · exact hact hactive
  · intro hact
    have hunreg := h.coherent.unregister_of_active hact
    split_ifs at hunreg
    · exact ⟨_, hunreg⟩
    · exact ⟨_, hunreg⟩

theorem Sized.returns_apply_iff (h : s.Sized) (deferFree : Bool) (c : Call T) :
    Returns (s.apply deferFree c) ↔ s.InUse c := by
  cases c with
  | register a => exact iff_of_true (returns_map.mpr (h.returns_register a)) trivial
  | unregister id => exact returns_map.trans h.returns_unregister_iff
  | alloc p a =>
    have hreturns := h.coherent.returns_alloc h.addressable p a
    exact iff_of_true (returns_map.mpr hreturns) trivial
  | free id =>
    refine returns_map.trans ⟨?_, fun hact => ⟨_, free_stocks h.coherent.base deferFree hact⟩⟩
    rintro ⟨r, hr⟩
    exact free_active hr

end VMAccel.VMAccelAllocator
