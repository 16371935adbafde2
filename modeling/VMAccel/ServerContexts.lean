import VMAccel.Server

/-!
# The choice of a platform for a context

`contextalloc` reads an entry of `deviceIds` for every sub-device that is requested, as soon as one
eligible platform has devices of a selected type. It returns exactly when there are no more of them
than entries or no such platform, and then finds a context exactly when one is granted.
-/

namespace VMAccel.Server

open StepSystem

def Offers (argp : ContextAllocateDesc) (p : Platform) (j : ℕ) : Prop :=
  argp.selectionMask.getLsbD j = true ∧ p.devices j = true

instance (argp : ContextAllocateDesc) (p : Platform) (j : ℕ) : Decidable (Offers argp p j) :=
  inferInstanceAs (Decidable (_ ∧ _))

def Eligible (argp : ContextAllocateDesc) (p : Platform) : Prop :=
  p.name = true ∧ ∃ v ∈ p.version, hasCaps argp.requiredCaps v.1 v.2

instance (argp : ContextAllocateDesc) (p : Platform) : Decidable (Eligible argp p) :=
  inferInstanceAs (Decidable (_ ∧ _))

def Offered (argp : ContextAllocateDesc) (ps : List Platform) : Prop :=
  ∃ p ∈ ps, Eligible argp p ∧ ∃ j ∈ List.range selectMax, Offers argp p j

instance (argp : ContextAllocateDesc) (ps : List Platform) : Decidable (Offered argp ps) :=
  inferInstanceAs (Decidable (∃ _ ∈ _, _))

def Granted (argp : ContextAllocateDesc) (ps : List Platform) : Prop :=
  ∃ p ∈ ps, Eligible argp p ∧
    ∃ j ∈ List.range selectMax, Offers argp p j ∧ p.createContext j = true

instance (argp : ContextAllocateDesc) (ps : List Platform) : Decidable (Granted argp ps) :=
  inferInstanceAs (Decidable (∃ _ ∈ _, _))

theorem returns_selectDevice {argp : ContextAllocateDesc} {p : Platform} {js : List ℕ} :
    Returns (selectDevice argp p js) ↔
      numSubDevices argp ≤ maxSubDevices ∨ ¬ ∃ j ∈ js, Offers argp p j := by
  induction js with
  | nil => exact iff_of_true (returns_ok _) (Or.inr fun ⟨_, h, _⟩ => absurd h List.not_mem_nil)
  | cons j js ih =>
    rw [selectDevice]
    split_ifs with hoff hn hcreate
    · refine iff_of_false nofun (not_or.mpr ⟨Nat.not_le.mpr hn, fun h => h ?_⟩)
      exact ⟨j, List.mem_cons_self, hoff⟩
    · exact iff_of_true (returns_ok _) (Or.inl (Nat.not_lt.mp hn))
    · rw [ih]
      exact iff_of_true (Or.inl (Nat.not_lt.mp hn)) (Or.inl (Nat.not_lt.mp hn))
    · rw [ih, List.exists_mem_cons_iff, or_iff_right (show ¬ Offers argp p j from hoff)]

theorem selectDevice_ok {argp : ContextAllocateDesc} {p : Platform} {js : List ℕ} {b : Bool}
    (h : selectDevice argp p js = .ok b) :
    b = true ↔ ∃ j ∈ js, Offers argp p j ∧ p.createContext j = true := by
  induction js with
  | nil =>
    cases h
    exact iff_of_false Bool.false_ne_true fun ⟨_, h, _⟩ => absurd h List.not_mem_nil
  | cons j js ih =>
    rw [selectDevice] at h
    rw [List.exists_mem_cons_iff]
    split_ifs at h with hoff hn hcreate
    · cases h
      exact iff_of_true rfl (Or.inl ⟨hoff, hcreate⟩)
    · rw [ih h, or_iff_right fun h => hcreate h.2]
    · rw [ih h, or_iff_right fun h => hoff h.1]

theorem selectPlatform_skip {argp : ContextAllocateDesc} {p : Platform} {ps : List Platform}
    (h : ¬ Eligible argp p) : selectPlatform argp (p :: ps) = selectPlatform argp ps := by
  rw [selectPlatform]
  split
  · rfl
  · next major minor hv =>
    rw [if_neg fun hc => h ⟨hc.2, _, hv, hc.1⟩]

theorem selectPlatform_eligible {argp : ContextAllocateDesc} {p : Platform}
    (h : Eligible argp p) (ps : List Platform) : ∃ v, selectPlatform argp (p :: ps) =
      (selectDevice argp p (List.range selectMax) >>= fun found =>
        if found then .ok (some v) else selectPlatform argp ps) := by
  obtain ⟨hname, ⟨major, minor⟩, hv, hcaps⟩ := h
  refine ⟨(major, minor), ?_⟩
  rw [selectPlatform, hv]
  dsimp only
  rw [if_pos ⟨hcaps, hname⟩]
  rfl

theorem returns_selectPlatform {argp : ContextAllocateDesc} {ps : List Platform} :
    Returns (selectPlatform argp ps) ↔
      numSubDevices argp ≤ maxSubDevices ∨ ¬ Offered argp ps := by
  induction ps with
  | nil => exact iff_of_true (returns_ok _) (Or.inr fun ⟨_, h, _⟩ => absurd h List.not_mem_nil)
  | cons p ps ih =>
    rw [Offered, List.exists_mem_cons_iff, ← Offered]
    by_cases hel : Eligible argp p
    · obtain ⟨v, hv⟩ := selectPlatform_eligible hel ps
      rw [hv, returns_bind, and_iff_right hel]
      constructor
      · rintro ⟨found, hfound, hret⟩
        rcases returns_selectDevice.mp ⟨found, hfound⟩ with hn | hnone
        · exact Or.inl hn
        · have hfalse : ¬ found = true := fun h =>
            hnone (((selectDevice_ok hfound).mp h).imp fun _ hj => ⟨hj.1, hj.2.1⟩)
          rw [if_neg hfalse, ih] at hret
          exact hret.imp_right fun h => not_or.mpr ⟨hnone, h⟩
      · intro h
        obtain ⟨found, hfound⟩ := returns_selectDevice.mpr (h.imp_right fun h h' => h (Or.inl h'))
        refine ⟨found, hfound, ?_⟩
        split_ifs
        · exact returns_ok _
        · exact ih.mpr (h.imp_right fun h h' => h (Or.inr h'))
    · have hskip : ¬ (Eligible argp p ∧ ∃ j ∈ List.range selectMax, Offers argp p j) :=
        fun h => hel h.1
      rw [selectPlatform_skip hel, ih, or_iff_right hskip]

theorem selectPlatform_ok {argp : ContextAllocateDesc} {ps : List Platform} {v : Option (ℕ × ℕ)}
    (h : selectPlatform argp ps = .ok v) : v.isSome = true ↔ Granted argp ps := by
  induction ps with
  | nil =>
    cases h
    exact iff_of_false Bool.false_ne_true fun ⟨_, h, _⟩ => absurd h List.not_mem_nil
  | cons p ps ih =>
    rw [Granted, List.exists_mem_cons_iff, ← Granted]
    by_cases hel : Eligible argp p
    · obtain ⟨v', hv'⟩ := selectPlatform_eligible hel ps
      rw [hv'] at h
      obtain ⟨found, hfound, h⟩ := bind_eq_ok.mp h
      rw [and_iff_right hel, ← selectDevice_ok hfound]
      split_ifs at h with hf
      · cases h
        exact iff_of_true rfl (Or.inl hf)
      · rw [ih h, or_iff_right hf]
    · rw [selectPlatform_skip hel] at h
      rw [ih h, or_iff_right fun h => hel h.1]

def platformDemo : Platform := ⟨some (1, 2), true, fun _ => true, fun _ => true⟩

end VMAccel.Server
