import Mathlib.Tactic.Common

/-!
# Runs of a fallible step function

A system is a step function `step : σ → ι → Except ε σ`. `run` feeds it a list of inputs and
stops at the first fault. `Always` says that no input of the run faults and that a predicate
holds in every state on the way; `EachInput` and `SomeInput` say that every input, or some input,
meets a condition in the state it is taken in. The rules below turn one-step facts into facts about
whole runs.
-/

namespace StepSystem

theorem bind_eq_ok {ε α β : Type} {x : Except ε α} {f : α → Except ε β} {b : β} :
    (x >>= f) = .ok b ↔ ∃ a, x = .ok a ∧ f a = .ok b := by
  cases x with
  | ok a => simp [bind, Except.bind]
  | error e => simp [bind, Except.bind]

theorem ok_bind {ε α β : Type} {a : α} {f : α → Except ε β} :
    ((Except.ok a : Except ε α) >>= f) = f a := rfl

theorem bind_snd_eq_ok {ε α β : Type} {x : Except ε (α × β)} {b : β} :
    (x >>= fun r => Except.ok r.2) = .ok b ↔ ∃ r, x = .ok r ∧ r.2 = b := by
  simp only [bind_eq_ok, Except.ok.injEq]

/-- The computation ends without a fault. -/
def Returns {ε α : Type*} (x : Except ε α) : Prop := ∃ a, x = .ok a

theorem returns_ok {ε α : Type*} (a : α) : Returns (Except.ok a : Except ε α) := ⟨a, rfl⟩

theorem Returns.ne_error {ε α : Type*} {x : Except ε α} (h : Returns x) (e : ε) : x ≠ .error e := by
  obtain ⟨a, rfl⟩ := h
  intro heq
  cases heq

theorem returns_bind {ε α β : Type} {x : Except ε α} {f : α → Except ε β} :
    Returns (x >>= f) ↔ ∃ a, x = .ok a ∧ Returns (f a) := by
  simp only [Returns, bind_eq_ok]
  constructor
  · rintro ⟨b, a, ha, hb⟩
    exact ⟨a, ha, b, hb⟩
  · rintro ⟨a, ha, b, hb⟩
    exact ⟨b, a, ha, hb⟩

theorem returns_map {ε α β : Type} {x : Except ε α} {f : α → β} :
    Returns (x >>= fun a => Except.ok (f a)) ↔ Returns x := by
  rw [returns_bind]
  exact exists_congr fun a => and_iff_left (returns_ok _)

theorem map_eq_error {ε α β : Type} {x : Except ε α} {f : α → β} {e : ε} :
    (x >>= fun a => Except.ok (f a)) = .error e ↔ x = .error e := by
  cases x with
  | ok a => simp [bind, Except.bind]
  | error e' => simp [bind, Except.bind]

theorem map_eq_ok {ε α β : Type} {x : Except ε α} {f : α → β} {b : β} :
    x.map f = .ok b ↔ ∃ a, x = .ok a ∧ f a = b := by
  cases x with
  | ok a => simp [Except.map]
  | error e => simp [Except.map]

variable {σ ι ε : Type*} (step : σ → ι → Except ε σ)

def run : σ → List ι → Except ε σ
  | s, [] => .ok s
  | s, i :: is =>
    match step s i with
    | .ok s' => run s' is
    | .error e => .error e

/-- No input faults, and `P` holds in every state of the run, the first and the last included. -/
def Always (P : σ → Prop) : σ → List ι → Prop
  | s, [] => P s
  | s, i :: is => P s ∧ ∃ s', step s i = .ok s' ∧ Always P s' is

/-- Every input meets `C` in the state it is taken in. -/
def EachInput (C : σ → ι → Prop) : σ → List ι → Prop
  | _, [] => True
  | s, i :: is => C s i ∧ ∀ s', step s i = .ok s' → EachInput C s' is

/-- Some input meets `C` in the state it is taken in. -/
def SomeInput (C : σ → ι → Prop) : σ → List ι → Prop
  | _, [] => False
  | s, i :: is => C s i ∨ ∃ s', step s i = .ok s' ∧ SomeInput C s' is

instance decidableAlways {P : σ → Prop} [DecidablePred P] :
    (s : σ) → (is : List ι) → Decidable (Always step P s is)
  | s, [] => inferInstanceAs (Decidable (P s))
  | s, i :: is =>
    match h : step s i with
    | .ok s' =>
      have : Decidable (Always step P s' is) := decidableAlways s' is
      decidable_of_iff (P s ∧ Always step P s' is) (by simp [Always, h])
    | .error _ => .isFalse (by simp [Always, h])

instance decidableEachInput {C : σ → ι → Prop} [∀ s i, Decidable (C s i)] :
    (s : σ) → (is : List ι) → Decidable (EachInput step C s is)
  | _, [] => .isTrue trivial
  | s, i :: is =>
    match h : step s i with
    | .ok s' =>
      have : Decidable (EachInput step C s' is) := decidableEachInput s' is
      decidable_of_iff (C s i ∧ EachInput step C s' is) (by simp [EachInput, h])
    | .error _ => decidable_of_iff (C s i) (by simp [EachInput, h])

instance decidableSomeInput {C : σ → ι → Prop} [∀ s i, Decidable (C s i)] :
    (s : σ) → (is : List ι) → Decidable (SomeInput step C s is)
  | _, [] => .isFalse id
  | s, i :: is =>
    match h : step s i with
    | .ok s' =>
      have : Decidable (SomeInput step C s' is) := decidableSomeInput s' is
      decidable_of_iff (C s i ∨ SomeInput step C s' is) (by simp [SomeInput, h])
    | .error _ => decidable_of_iff (C s i) (by simp [SomeInput, h])

instance decidableRunsTo {P : σ → Prop} [DecidablePred P] (s : σ) (is : List ι) :
    Decidable (∃ t, run step s is = .ok t ∧ P t) :=
  match h : run step s is with
  | .ok t => decidable_of_iff (P t) (by simp)
  | .error _ => .isFalse (by simp)

instance decidableFaultsWith [DecidableEq ε] (s : σ) (is : List ι) (e : ε) :
    Decidable (run step s is = .error e) :=
  match h : run step s is with
  | .ok _ => .isFalse (by simp)
  | .error e' => decidable_of_iff (e' = e) (by simp)

variable {step}

theorem run_cons_ok {s t : σ} {i : ι} {is : List ι} :
    run step s (i :: is) = .ok t ↔ ∃ s', step s i = .ok s' ∧ run step s' is = .ok t := by
  cases h : step s i with
  | ok s' => simp [run, h]
  | error e => simp [run, h]

theorem run_congr {step' : σ → ι → Except ε σ} {is : List ι}
    (h : ∀ i ∈ is, ∀ s, step s i = step' s i) (s : σ) : run step s is = run step' s is := by
  induction is generalizing s with
  | nil => rfl
  | cons i is ih =>
    rw [run, run, h i (List.mem_cons_self ..)]
    cases step' s i with
    | ok s' => exact ih (fun j hj => h j (List.mem_cons_of_mem _ hj)) s'
    | error e => rfl

theorem run_append_ok {s t : σ} {is js : List ι} :
    run step s (is ++ js) = .ok t ↔ ∃ u, run step s is = .ok u ∧ run step u js = .ok t := by
  induction is generalizing s with
  | nil => simp [run]
  | cons i is ih =>
    simp only [List.cons_append, run_cons_ok, ih]
    constructor
    · rintro ⟨s', hs, u, hu, ht⟩
      exact ⟨u, ⟨s', hs, hu⟩, ht⟩
    · rintro ⟨u, ⟨s', hs, hu⟩, ht⟩
      exact ⟨s', hs, u, hu, ht⟩

theorem eachInput_append {C : σ → ι → Prop} {s : σ} {is js : List ι} :
    EachInput step C s (is ++ js) ↔
      EachInput step C s is ∧ ∀ t, run step s is = .ok t → EachInput step C t js := by
  induction is generalizing s with
  | nil => simp [EachInput, run]
  | cons i is ih =>
    simp only [List.cons_append, EachInput, ih, run_cons_ok]
    constructor
    · rintro ⟨hC, hrest⟩
      refine ⟨⟨hC, fun s' hs => (hrest s' hs).1⟩, ?_⟩
      rintro t ⟨s', hs, ht⟩
      exact (hrest s' hs).2 t ht
    · rintro ⟨⟨hC, hrest⟩, hjs⟩
      exact ⟨hC, fun s' hs => ⟨hrest s' hs, fun t ht => hjs t ⟨s', hs, ht⟩⟩⟩

theorem eachInput_of_reached {C : σ → ι → Prop} {s : σ} {is : List ι}
    (h : ∀ before i after t, is = before ++ i :: after → run step s before = .ok t → C t i) :
    EachInput step C s is := by
  induction is generalizing s with
  | nil => trivial
  | cons i is ih =>
    refine ⟨h [] i is s rfl rfl, fun s' hs => ih fun before j after t his hrun => ?_⟩
    exact h (i :: before) j after t (by rw [his]; rfl) (run_cons_ok.mpr ⟨s', hs, hrun⟩)

theorem eachInput_returns {s t : σ} {is : List ι} (hrun : run step s is = .ok t) :
    EachInput step (fun s i => Returns (step s i)) s is := by
  induction is generalizing s with
  | nil => trivial
  | cons i is ih =>
    obtain ⟨s', hs, ht⟩ := run_cons_ok.mp hrun
    refine ⟨⟨s', hs⟩, fun u hu => ih ?_⟩
    obtain rfl : s' = u := Except.ok.inj (hs.symm.trans hu)
    exact ht

theorem returns_run_iff {s : σ} {is : List ι} :
    Returns (run step s is) ↔ EachInput step (fun s i => Returns (step s i)) s is := by
  refine ⟨fun ⟨t, ht⟩ => eachInput_returns ht, fun h => ?_⟩
  induction is generalizing s with
  | nil => exact ⟨s, rfl⟩
  | cons i is ih =>
    obtain ⟨⟨s', hs⟩, hrest⟩ := h
    obtain ⟨t, ht⟩ := ih (hrest s' hs)
    exact ⟨t, run_cons_ok.mpr ⟨s', hs, ht⟩⟩

theorem eachInput_true (s : σ) (is : List ι) : EachInput step (fun _ _ => True) s is := by
  induction is generalizing s with
  | nil => trivial
  | cons i is ih => exact ⟨trivial, fun s' _ => ih s'⟩

theorem EachInput.and_forall {C : σ → ι → Prop} {P : ι → Prop} {s : σ} {is : List ι}
    (hC : EachInput step C s is) (hP : ∀ i ∈ is, P i) :
    EachInput step (fun s i => P i ∧ C s i) s is := by
  induction is generalizing s with
  | nil => trivial
  | cons i is ih =>
    exact ⟨⟨hP i List.mem_cons_self, hC.1⟩, fun s' hs => ih (hC.2 s' hs)
      fun j hj => hP j (List.mem_cons_of_mem i hj)⟩

theorem eachInput_and {C D : σ → ι → Prop} {s : σ} {is : List ι} :
    EachInput step (fun s i => C s i ∧ D s i) s is ↔
      EachInput step C s is ∧ EachInput step D s is := by
  induction is generalizing s with
  | nil => exact iff_of_true trivial ⟨trivial, trivial⟩
  | cons i is ih =>
    constructor
    · rintro ⟨⟨hC, hD⟩, hrest⟩
      exact ⟨⟨hC, fun s' hs => (ih.mp (hrest s' hs)).1⟩, hD, fun s' hs => (ih.mp (hrest s' hs)).2⟩
    · rintro ⟨⟨hC, hrestC⟩, hD, hrestD⟩
      exact ⟨⟨hC, hD⟩, fun s' hs => ih.mpr ⟨hrestC s' hs, hrestD s' hs⟩⟩

theorem eachInput_of_invariant {I : σ → Prop} {C D : σ → ι → Prop}
    (hD : ∀ s i, I s → C s i → D s i)
    (hstep : ∀ s i s', I s → C s i → step s i = .ok s' → I s') {s : σ} {is : List ι} (hI : I s)
    (hC : EachInput step C s is) : EachInput step D s is := by
  induction is generalizing s with
  | nil => trivial
  | cons i is ih =>
    exact ⟨hD s i hI hC.1, fun s' hs => ih (hstep s i s' hI hC.1 hs) (hC.2 s' hs)⟩

theorem eachInput_iff {I : σ → Prop} {C D : σ → ι → Prop} (hiff : ∀ s i, I s → (D s i ↔ C s i))
    (hstep : ∀ s i s', I s → C s i → step s i = .ok s' → I s') {s : σ} {is : List ι} (hI : I s) :
    EachInput step D s is ↔ EachInput step C s is := by
  constructor
  · refine eachInput_of_invariant (fun s i h => (hiff s i h).mp) (fun s i s' h hd hs => ?_) hI
    exact hstep s i s' h ((hiff s i h).mp hd) hs
  · exact eachInput_of_invariant (fun s i h => (hiff s i h).mpr) hstep hI

theorem run_invariant {I : σ → Prop} {C : σ → ι → Prop}
    (hstep : ∀ s i s', I s → C s i → step s i = .ok s' → I s') {s t : σ} {is : List ι}
    (hI : I s) (hC : EachInput step C s is) (hrun : run step s is = .ok t) : I t := by
  induction is generalizing s with
  | nil =>
    cases hrun
    exact hI
  | cons i is ih =>
    obtain ⟨s', hs, ht⟩ := run_cons_ok.mp hrun
    exact ih (hstep s i s' hI hC.1 hs) (hC.2 s' hs) ht

theorem run_simulates {τ : Type*} {step' : τ → ι → Except ε τ} {R : σ → τ → Prop}
    {C : σ → ι → Prop} {D : τ → ι → Prop}
    (hstep : ∀ s t i s', R s t → C s i → D t i → step s i = .ok s' →
      ∃ t', step' t i = .ok t' ∧ R s' t') {s u : σ} {t : τ} {is : List ι} (hR : R s t)
    (hC : EachInput step C s is) (hD : EachInput step' D t is) (hrun : run step s is = .ok u) :
    ∃ v, run step' t is = .ok v ∧ R u v := by
  induction is generalizing s t with
  | nil =>
    cases hrun
    exact ⟨t, rfl, hR⟩
  | cons i is ih =>
    obtain ⟨s', hs, hu⟩ := run_cons_ok.mp hrun
    obtain ⟨t', ht, hR'⟩ := hstep s t i s' hR hC.1 hD.1 hs
    obtain ⟨v, hv, hRv⟩ := ih hR' (hC.2 s' hs) (hD.2 t' ht) hu
    exact ⟨v, run_cons_ok.mpr ⟨t', ht, hv⟩, hRv⟩

theorem run_iff_someInput {I P : σ → Prop} {C D : σ → ι → Prop}
    (hstep : ∀ s i s', I s → D s i → step s i = .ok s' → I s' ∧ (P s' ↔ P s ∨ C s i)) {s t : σ}
    {is : List ι} (hI : I s) (hD : EachInput step D s is) (hrun : run step s is = .ok t) :
    P t ↔ P s ∨ SomeInput step C s is := by
  induction is generalizing s with
  | nil =>
    cases hrun
    exact (or_iff_left id).symm
  | cons i is ih =>
    obtain ⟨s', hs, ht⟩ := run_cons_ok.mp hrun
    obtain ⟨hI', hP⟩ := hstep s i s' hI hD.1 hs
    have hrest : (∃ u, step s i = .ok u ∧ SomeInput step C u is) ↔ SomeInput step C s' is := by
      simp [hs]
    rw [ih hI' (hD.2 s' hs) ht, hP, SomeInput, hrest, or_assoc]

/-- When `C` is exactly what one step needs to keep `P`, a run keeps `P` throughout exactly
when each of its inputs meets `C`. -/
theorem always_iff_eachInput {I P : σ → Prop} {C D : σ → ι → Prop} (hP : ∀ s, I s → P s)
    (hstep : ∀ s i, I s → D s i → C s i → ∃ s', step s i = .ok s' ∧ I s')
    (hback : ∀ s i s', I s → D s i → step s i = .ok s' → P s' → C s i)
    {s : σ} {is : List ι} (hI : I s) (hD : EachInput step D s is) :
    Always step P s is ↔ EachInput step C s is := by
  constructor
  · intro h
    induction is generalizing s with
    | nil => trivial
    | cons i is ih =>
      obtain ⟨-, s', hs, hrest⟩ := h
      have hP' : P s' := by
        cases is with
        | nil => exact hrest
        | cons j js => exact hrest.1
      have hc : C s i := hback s i s' hI hD.1 hs hP'
      obtain ⟨s'', hs'', hI'⟩ := hstep s i hI hD.1 hc
      refine ⟨hc, fun u hu => ?_⟩
      obtain rfl : s' = u := by simpa [hs] using hu
      obtain rfl : s' = s'' := by simpa [hs] using hs''
      exact ih hI' (hD.2 s' hs) hrest
  · intro h
    induction is generalizing s with
    | nil => exact hP s hI
    | cons i is ih =>
      obtain ⟨s', hs, hI'⟩ := hstep s i hI hD.1 h.1
      exact ⟨hP s hI, s', hs, ih hI' (hD.2 s' hs) (h.2 s' hs)⟩

end StepSystem
