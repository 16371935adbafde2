import Mathlib.Logic.Function.Basic
import Mathlib.Order.Defs.PartialOrder
import Mathlib.Tactic.Common

/-!
# Computations with a log

A computation writes events to a log and ends with a result or a fault. The log keeps what was
written before the fault, so that properties of everything a program does can be stated on it.
-/

namespace EventLog

structure Logged (κ ε α : Type) where
  log : List κ
  result : Except ε α

namespace Logged

variable {κ ε α β : Type}

instance : Monad (Logged κ ε) where
  pure a := ⟨[], .ok a⟩
  bind x f :=
    match x.result with
    | .ok a => ⟨x.log ++ (f a).log, (f a).result⟩
    | .error e => ⟨x.log, .error e⟩

def tell (k : κ) : Logged κ ε Unit := ⟨[k], .ok ()⟩

def lift (x : Except ε α) : Logged κ ε α := ⟨[], x⟩

variable {x : Logged κ ε α} {f : α → Logged κ ε β}

theorem bind_of_ok {a : α} (h : x.result = .ok a) :
    (x >>= f) = ⟨x.log ++ (f a).log, (f a).result⟩ := by
  obtain ⟨log, result⟩ := x
  cases h
  rfl

theorem bind_of_error {e : ε} (h : x.result = .error e) : (x >>= f) = ⟨x.log, .error e⟩ := by
  obtain ⟨log, result⟩ := x
  cases h
  rfl

theorem tell_bind {k : κ} {f : Unit → Logged κ ε β} :
    (tell k >>= f) = ⟨k :: (f ()).log, (f ()).result⟩ := rfl

theorem lift_ok_bind {a : α} : (lift (.ok a) >>= f) = f a := rfl

/-- The computation gives `y`, and when that is a result, it has written `ks`. -/
def Performs (x : Logged κ ε α) (ks : List κ) (y : Except ε α) : Prop :=
  x.result = y ∧ ∀ a, y = .ok a → x.log = ks

variable {ks ls : List κ} {k : κ}

theorem performs_pure (a : α) : (pure a : Logged κ ε α).Performs [] (.ok a) := ⟨rfl, fun _ _ => rfl⟩

theorem performs_tell_bind {f : Unit → Logged κ ε α} {y : Except ε α} (h : (f ()).Performs ks y) :
    (tell k >>= f).Performs (k :: ks) y := ⟨h.1, fun a ha => congrArg (k :: ·) (h.2 a ha)⟩

theorem performs_lift_bind {x : Except ε α} {y : Except ε β}
    (herror : ∀ e, x = .error e → y = .error e) (h : ∀ a, x = .ok a → (f a).Performs ks y) :
    (lift x >>= f).Performs ks y := by
  cases x with
  | ok a => exact h a rfl
  | error e =>
    rw [herror e rfl]
    exact ⟨rfl, fun a ha => by cases ha⟩

theorem performs_lift_bind_self {x : Except ε α} {f : α → Logged κ ε α}
    (h : ∀ a, x = .ok a → (f a).Performs ks (.ok a)) : (lift x >>= f).Performs ks x := by
  cases x with
  | ok a => exact h a rfl
  | error e => exact ⟨rfl, fun a ha => by cases ha⟩

theorem Performs.map {y : Except ε α} (h : x.Performs ks y) (f : α → β) :
    (x >>= fun a => pure (f a)).Performs ks (y >>= fun a => .ok (f a)) := by
  obtain ⟨log, result⟩ := x
  obtain ⟨rfl, hlog⟩ := h
  cases result with
  | ok a => exact ⟨rfl, fun _ _ => (List.append_nil log).trans (hlog a rfl)⟩
  | error e => exact ⟨rfl, fun b hb => by cases hb⟩

/-- Whenever there is a result, it and the log are as `Q` says. -/
def Ensures (x : Logged κ ε α) (Q : List κ → α → Prop) : Prop :=
  ∀ ks a, x = ⟨ks, .ok a⟩ → Q ks a

theorem ensures_pure {Q : List κ → α → Prop} {a : α} (h : Q [] a) :
    (pure a : Logged κ ε α).Ensures Q := by
  intro ks b hb
  cases hb
  exact h

theorem ensures_tell {Q : List κ → Unit → Prop} (h : Q [k] ()) :
    (tell k : Logged κ ε Unit).Ensures Q := by
  intro ks b hb
  cases hb
  exact h

theorem ensures_lift {Q : List κ → α → Prop} {y : Except ε α} (h : ∀ a, y = .ok a → Q [] a) :
    (lift y : Logged κ ε α).Ensures Q := by
  intro ks a ha
  cases ha
  exact h a rfl

theorem Ensures.bind {P : List κ → α → Prop} {Q : List κ → β → Prop} (hx : x.Ensures P)
    (hf : ∀ ks a, P ks a → (f a).Ensures fun ls b => Q (ks ++ ls) b) : (x >>= f).Ensures Q := by
  obtain ⟨log, result⟩ := x
  intro ks b hb
  cases result with
  | error e => cases hb
  | ok a =>
    rw [bind_of_ok rfl] at hb
    cases hfa : f a with
    | mk ls result =>
      rw [hfa] at hb
      cases hb
      exact hf log a (hx log a rfl) ls b hfa

/-- The events are in the order of their ranks, which go from `a` up to `b`. -/
def InOrder {γ : Type} [Preorder γ] (rank : κ → γ) (a b : γ) (x : Logged κ ε α) : Prop :=
  x.Ensures fun ks _ => (ks.map rank).Pairwise (· < ·) ∧ ∀ k ∈ ks, a ≤ rank k ∧ rank k < b

section InOrder

variable {γ : Type} [Preorder γ] {rank : κ → γ} {a b c : γ}

theorem inOrder_pure (y : α) : (pure y : Logged κ ε α).InOrder rank a b :=
  ensures_pure ⟨.nil, fun _ hk => absurd hk List.not_mem_nil⟩

theorem inOrder_tell (ha : a ≤ rank k) (hb : rank k < b) :
    (tell k : Logged κ ε Unit).InOrder rank a b :=
  ensures_tell ⟨List.pairwise_singleton _ _, fun _ hk => List.mem_singleton.mp hk ▸ ⟨ha, hb⟩⟩

theorem inOrder_lift_bind {y : Except ε α} (hf : ∀ z, (f z).InOrder rank a b) :
    (lift y >>= f).InOrder rank a b :=
  Ensures.bind (ensures_lift (Q := fun ks _ => ks = []) fun _ _ => rfl) fun _ z hks => hks ▸ hf z

theorem InOrder.bind (hx : x.InOrder rank a b) (hf : ∀ y, (f y).InOrder rank b c) (hab : a ≤ b)
    (hbc : b ≤ c) : (x >>= f).InOrder rank a c := by
  refine Ensures.bind hx fun ks y hks ls z hz => ?_
  have hls := hf y ls z hz
  refine ⟨?_, fun k hk => ?_⟩
  · rw [List.map_append, List.pairwise_append]
    refine ⟨hks.1, hls.1, fun r hr s hs => ?_⟩
    obtain ⟨k, hk, rfl⟩ := List.mem_map.mp hr
    obtain ⟨l, hl, rfl⟩ := List.mem_map.mp hs
    exact lt_of_lt_of_le (hks.2 k hk).2 (hls.2 l hl).1
  · rcases List.mem_append.mp hk with hk | hk
    · exact ⟨(hks.2 k hk).1, lt_of_lt_of_le (hks.2 k hk).2 hbc⟩
    · exact ⟨le_trans hab (hls.2 k hk).1, (hls.2 k hk).2⟩

end InOrder

/-- The events are calls with what became of them, and `table` says that of each call. -/
def Records {C E : Type} (table : C → E) (ks : List (C × E)) : Prop :=
  ∀ k ∈ ks, table k.1 = k.2

theorem exists_records {C E γ : Type} [Preorder γ] [DecidableEq C] [Inhabited E] {rank : C → γ}
    {ks : List (C × E)} (h : (ks.map fun k => rank k.1).Pairwise (· < ·)) :
    ∃ table, Records table ks := by
  induction ks with
  | nil => exact ⟨fun _ => default, fun _ hk => absurd hk List.not_mem_nil⟩
  | cons k ks ih =>
    obtain ⟨hk, hks⟩ := List.pairwise_cons.mp h
    obtain ⟨table, htable⟩ := ih hks
    refine ⟨Function.update table k.1 k.2, List.forall_mem_cons.mpr ⟨?_, fun l hl => ?_⟩⟩
    · exact Function.update_self ..
    · have hne : l.1 ≠ k.1 := fun heq => by
        have hlt := hk _ (List.mem_map_of_mem hl)
        rw [heq] at hlt
        exact lt_irrefl _ hlt
      rw [Function.update_of_ne hne]
      exact htable l hl

section Under

variable {C E : Type} {table : C → E} {x : Logged (C × E) ε α} {f : α → Logged (C × E) ε β}

/-- Whenever there is a result, and calls become of what `table` says, it is as `Q` says. -/
def Under (table : C → E) (x : Logged (C × E) ε α) (Q : α → Prop) : Prop :=
  x.Ensures fun ks a => Records table ks → Q a

theorem under_pure {Q : α → Prop} {a : α} (h : Q a) : (pure a : Logged (C × E) ε α).Under table Q :=
  ensures_pure fun _ => h

theorem under_tell {Q : Unit → Prop} {c : C} {e : E} (h : table c = e → Q ()) :
    (tell (c, e) : Logged (C × E) ε Unit).Under table Q :=
  ensures_tell fun hks => h (hks (c, e) (List.mem_singleton_self _))

theorem Under.bind {P : α → Prop} {Q : β → Prop} (hx : x.Under table P)
    (hf : ∀ a, P a → (f a).Under table Q) : (x >>= f).Under table Q := by
  refine Ensures.bind hx fun ks a ha ls b hb hrec => ?_
  have hks : Records table ks := fun k hk => hrec k (List.mem_append_left _ hk)
  exact hf a (ha hks) ls b hb fun k hk => hrec k (List.mem_append_right _ hk)

theorem under_lift_bind {Q : β → Prop} {y : Except ε α}
    (hf : ∀ a, y = .ok a → (f a).Under table Q) : (lift y >>= f).Under table Q :=
  Under.bind (ensures_lift fun _ ha _ => ha) hf

end Under

instance decidableResult {P : List κ → α → Prop} [∀ ks a, Decidable (P ks a)] :
    (x : Logged κ ε α) → Decidable (∃ ks a, x = ⟨ks, .ok a⟩ ∧ P ks a)
  | ⟨ks, .ok a⟩ => decidable_of_iff (P ks a)
      ⟨fun h => ⟨ks, a, rfl, h⟩, fun ⟨_, _, heq, h⟩ => by cases heq; exact h⟩
  | ⟨_, .error _⟩ => .isFalse fun ⟨_, _, heq, _⟩ => by cases heq

end Logged

end EventLog
