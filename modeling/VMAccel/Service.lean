import VMAccel.ServerIsolation

/-!
# The service in a process

`vmcl_poweron_svc` and `vmcl_poweroff_svc` count in `clRefCount` how often the backend is powered
on, and only the last power-off frees the tables. Each power-on nevertheless installs new tables in
the static pointers of `vmwopencl_ops.c`, so no object outlives a nested power-on. An attempt to
power on is given by the architectures for which a platform is found; the stream server that it can
start is left out.
-/

namespace VMAccel

open StepSystem IdentifierDB

/-- `tables` is `none` while the static pointers are `NULL` or freed. -/
structure Service where
  clRefCount : BitVec 64
  tables : Option Server

namespace Service

/-- A process before the first power-on. -/
def off : Service := ⟨0, none⟩

/-- `vmwopencl_poweron` for one architecture: new tables, unless no platform is found. -/
def vmwopenclPoweron (s : Service) (found : Bool) : StatusCode × Service :=
  if found then (.success, { s with tables := some .powerOn }) else (.fail, s)

/-- `vmwopencl_poweroff`. -/
def vmwopenclPoweroff (s : Service) : Service := { s with tables := none }

/-- The loop of `vmcl_poweron_svc` over the architectures, until one powers on. -/
def poweronFrom (s : Service) (found : ℕ → Bool) (ret : StatusCode) :
    List ℕ → StatusCode × Service
  | [] => (ret, s)
  | i :: is =>
    let r := s.vmwopenclPoweron (found i)
    if r.1 = .success then (r.1, { r.2 with clRefCount := r.2.clRefCount + 1 })
    else r.2.poweronFrom found r.1 is

/-- `vmcl_poweron_svc`. -/
def poweron (s : Service) (found : ℕ → Bool) : StatusCode × Service :=
  s.poweronFrom found .fail (List.range selectMax)

/-- `vmcl_poweroff_svc`. -/
def poweroff (s : Service) : Service :=
  if s.clRefCount = 1 then vmwopenclPoweroff { s with clRefCount := 0 }
  else if 1 < s.clRefCount then { s with clRefCount := s.clRefCount - 1 }
  else s

inductive Event
  | poweron (found : ℕ → Bool)
  | poweroff
  | request (r : Server.Request)

/-- A request reads a table before anything else. -/
def apply (s : Service) : Event → Except Fault Service
  | .poweron found => .ok (s.poweron found).2
  | .poweroff => .ok s.poweroff
  | .request r =>
    match s.tables with
    | none => .error .outOfBounds
    | some t => do
      let t ← t.step r
      return { s with tables := some t }

/-- The object is active in the tables. -/
def Live (s : Service) (o : Object) : Prop := ∃ t ∈ s.tables, t.Active o

instance (s : Service) (o : Object) : Decidable (s.Live o) :=
  inferInstanceAs (Decidable (∃ _ ∈ (_ : Option _), _))

def Stays (s s' : Service) (o : Object) : Prop :=
  ∀ t ∈ s.tables, t.Active o → ∃ t' ∈ s'.tables, t'.Active o ∧ t.SameEntry t' o

namespace Event

/-- The requests are the ones that create or destroy objects. -/
def Allocates : Event → Prop
  | .request r => r.Allocates
  | _ => True

instance : (e : Event) → Decidable e.Allocates
  | .poweron _ | .poweroff => .isTrue trivial
  | .request r => inferInstanceAs (Decidable r.Allocates)

def PowersOn : Event → Prop
  | .poweron found => ∃ i ∈ List.range selectMax, found i = true
  | _ => False

instance : (e : Event) → Decidable e.PowersOn
  | .poweron found => inferInstanceAs (Decidable (∃ i ∈ List.range selectMax, found i = true))
  | .poweroff | .request _ => .isFalse id

def destroys : Event → Option Object
  | .request r => r.destroys
  | _ => none

end Event

/-- The power-off that brings `clRefCount` to zero. -/
def PowersOff (s : Service) : Event → Prop
  | .poweroff => s.clRefCount = 1
  | _ => False

/-- Between any two points of the run, an object that is live at the first and is not destroyed
stays until the power-off that brings `clRefCount` to zero. -/
def KeepsLive (es : List Event) : Prop :=
  ∀ before during after, es = before ++ (during ++ after) → ∀ s s' o,
    run apply off before = .ok s → run apply s during = .ok s' →
    EachInput apply (fun u e => e.destroys ≠ some o ∧ ¬ u.PowersOff e) s during → s.Stays s' o

/-- A power-on finds no live object. -/
def PowersOnIdle (s : Service) (e : Event) : Prop := e.PowersOn → ∀ o, ¬ s.Live o

variable {s s' : Service} {e : Event} {o : Object}

theorem Stays.refl (s : Service) (o : Object) : s.Stays s o :=
  fun t ht hact => ⟨t, ht, hact, .refl t o⟩

theorem Stays.trans {u : Service} (h : s.Stays s' o) (h' : s'.Stays u o) : s.Stays u o := by
  intro t ht hact
  obtain ⟨t', ht', hact', hsame⟩ := h t ht hact
  obtain ⟨t'', ht'', hact'', hsame'⟩ := h' t' ht' hact'
  exact ⟨t'', ht'', hact'', hsame.trans hsame'⟩

theorem request_ok {r : Server.Request} (hr : s.apply (.request r) = .ok s') :
    ∃ t q, s.tables = some t ∧ t.handle r = .ok q ∧ s' = { s with tables := some q.2 } := by
  unfold apply at hr
  cases ht : s.tables with
  | none =>
    rw [ht] at hr
    cases hr
  | some t =>
    rw [ht] at hr
    obtain ⟨t', hstep, hs⟩ := bind_eq_ok.mp hr
    obtain ⟨q, hq, rfl⟩ := bind_snd_eq_ok.mp hstep
    exact ⟨t, q, rfl, hq, (Except.ok.inj hs).symm⟩

theorem poweronFrom_eq (found : ℕ → Bool) (ret : StatusCode) (is : List ℕ) :
    (s.poweronFrom found ret is).2 =
      if ∃ i ∈ is, found i = true then ⟨s.clRefCount + 1, some .powerOn⟩ else s := by
  induction is generalizing ret with
  | nil => exact (if_neg fun ⟨_, h, _⟩ => absurd h List.not_mem_nil).symm
  | cons i is ih =>
    rw [poweronFrom]
    by_cases hi : found i = true
    · rw [vmwopenclPoweron, if_pos hi]
      exact (if_pos ⟨i, List.mem_cons_self, hi⟩).symm
    · rw [vmwopenclPoweron, if_neg hi]
      dsimp only
      rw [if_neg StatusCode.noConfusion, ih]
      refine if_congr ?_ rfl rfl
      rw [List.exists_mem_cons_iff, or_iff_right hi]

theorem poweron_eq (s : Service) (found : ℕ → Bool) :
    (s.poweron found).2 =
      if (Event.poweron found).PowersOn then ⟨s.clRefCount + 1, some .powerOn⟩ else s :=
  poweronFrom_eq found _ _

/-- The tables are in step with their databases whenever there are any. -/
def WellFormed (s : Service) : Prop := ∀ t ∈ s.tables, t.WellFormed

theorem WellFormed.apply (h : s.WellFormed) (hr : s.apply e = .ok s') : s'.WellFormed := by
  cases e with
  | poweron found =>
    obtain rfl := Except.ok.inj hr
    rw [poweron_eq]
    split_ifs
    · rintro t ⟨⟩
      exact Server.wellFormed_powerOn
    · exact h
  | poweroff =>
    obtain rfl := Except.ok.inj hr
    unfold poweroff
    split_ifs
    · rintro t ⟨⟩
    · exact h
    · exact h
  | request r =>
    obtain ⟨t, q, ht, hq, rfl⟩ := request_ok hr
    rintro _ ⟨⟩
    exact (h t ht).handle hq

theorem apply_stays (h : s.WellFormed) (ha : e.Allocates) (hidle : s.PowersOnIdle e)
    (hr : s.apply e = .ok s') (hd : e.destroys ≠ some o) (hoff : ¬ s.PowersOff e) :
    s.Stays s' o := by
  cases e with
  | poweron found =>
    obtain rfl := Except.ok.inj hr
    rw [poweron_eq]
    split_ifs with hon
    · exact fun t ht hact => absurd ⟨t, ht, hact⟩ (hidle hon o)
    · exact .refl s o
  | poweroff =>
    obtain rfl := Except.ok.inj hr
    unfold poweroff
    split_ifs with hone
    · exact absurd hone hoff
    · exact .refl s o
    · exact .refl s o
  | request r =>
    obtain ⟨t, q, ht, hq, rfl⟩ := request_ok hr
    intro u hu hact
    obtain rfl := Option.some.inj (ht.symm.trans hu)
    exact ⟨q.2, rfl, Server.handle_staysIn (h t ht) ha hq hd hact⟩

theorem run_stays {es : List Event} (h : s.WellFormed)
    (hC : EachInput apply (fun u e => e.Allocates ∧ u.PowersOnIdle e) s es)
    (hD : EachInput apply (fun u e => e.destroys ≠ some o ∧ ¬ u.PowersOff e) s es)
    (hrun : run apply s es = .ok s') : s.Stays s' o := by
  refine (run_invariant (I := fun u => u.WellFormed ∧ s.Stays u o)
    (C := fun u e => (e.Allocates ∧ u.PowersOnIdle e) ∧ (e.destroys ≠ some o ∧ ¬ u.PowersOff e))
    ?_ ⟨h, .refl s o⟩ (eachInput_and.mpr ⟨hC, hD⟩) hrun).2
  rintro u e u' ⟨hwf, hst⟩ ⟨⟨ha, hidle⟩, hd, hoff⟩ hr
  exact ⟨hwf.apply hr, hst.trans (apply_stays hwf ha hidle hr hd hoff)⟩

theorem apply_of_powersOn (hon : e.PowersOn) (s : Service) (o : Object) :
    (∃ s', s.apply e = .ok s' ∧ ¬ s'.Live o) ∧ e.destroys ≠ some o ∧ ¬ s.PowersOff e := by
  cases e with
  | poweron found =>
    refine ⟨⟨_, rfl, ?_⟩, (Option.some_ne_none o).symm, id⟩
    rw [poweron_eq, if_pos hon]
    rintro ⟨_, ⟨⟩, hact⟩
    exact Server.not_active_powerOn o hact
  | _ => exact hon.elim

/-- Live objects survive a run exactly when every power-on in it finds none. -/
theorem keepsLive_iff {es : List Event} (ha : ∀ e ∈ es, e.Allocates) :
    KeepsLive es ↔ EachInput apply PowersOnIdle off es := by
  constructor
  · intro h
    refine eachInput_of_reached fun before e after s hes hrun hon o hlive => ?_
    obtain ⟨t, ht, hact⟩ := hlive
    -- The power-on alone is already a stretch of the run in which the object is lost.
    obtain ⟨⟨s', hs', hdead⟩, hkept⟩ := apply_of_powersOn hon s o
    have hstays : s.Stays s' o := h before [e] after hes s s' o hrun
      (run_cons_ok.mpr ⟨s', hs', rfl⟩) ⟨hkept, fun _ _ => trivial⟩
    obtain ⟨t', ht', hact', -⟩ := hstays t ht hact
    exact hdead ⟨t', ht', hact'⟩
  · intro h before during after hes s s' o hbefore hduring hkept
    have hC := h.and_forall ha
    rw [hes, eachInput_append] at hC
    have hwf : s.WellFormed := run_invariant (fun _ _ _ hu _ hr => hu.apply hr)
      (fun _ ht => by cases ht) hC.1 hbefore
    exact run_stays hwf (eachInput_append.mp (hC.2 s hbefore)).1 hkept hduring

/-- Every architecture powers on. -/
def onDemo : Event := .poweron fun _ => true

/-- A context with a queue and a surface, in between the power-offs of two power-ons. -/
def nestedDemo : List Event :=
  onDemo :: onDemo :: ((Server.allocDemo 0 1 ++ [Server.surfaceDemo 0 2]).map .request ++
    [.poweroff])

theorem keepsLive_demo : KeepsLive nestedDemo ∧ ∃ s, run apply off nestedDemo = .ok s ∧
    s.clRefCount = 1 ∧ s.Live (.context 0) ∧ s.Live (.queue 0) ∧ s.Live (.surface 2) := by
  refine ⟨(keepsLive_iff (by decide +kernel)).mpr ⟨fun _ o hlive => ?_, fun s hs => ?_⟩,
    by decide +kernel⟩
  · obtain ⟨_, ⟨⟩, -⟩ := hlive
  · obtain rfl := Except.ok.inj hs
    refine ⟨fun _ o hlive => ?_, fun s _ => ?_⟩
    · rw [poweron_eq, if_pos (by decide)] at hlive
      obtain ⟨_, ⟨⟩, hact⟩ := hlive
      exact Server.not_active_powerOn o hact
    · have hnone : ∀ e ∈ (Server.allocDemo 0 1 ++ [Server.surfaceDemo 0 2]).map .request ++
          [.poweroff], ¬ Event.PowersOn e := by decide +kernel
      exact eachInput_of_reached fun before e after t hes _ hon =>
        absurd hon (hnone e (hes ▸ List.mem_append_right before List.mem_cons_self))

def contextDemo : Server.Request := .contextalloc ⟨0, 0xF, 1, 0⟩ [Server.platformDemo]

/-- The second power-on discards a context that the first power-on still holds. -/
theorem nested_poweron_discards :
    ∃ s, run apply off [onDemo, .request contextDemo] = .ok s ∧ s.Live (.context 0) ∧
      ∃ s', run apply s [onDemo] = .ok s' ∧ s'.clRefCount = 2 ∧ ¬ s'.Live (.context 0) := by
  decide +kernel

end Service

end VMAccel
