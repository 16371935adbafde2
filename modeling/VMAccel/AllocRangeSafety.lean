import VMAccel.AllocRangeRuns

/-!
# Safety of the range allocator

Containment and isolation for any number of registered ranges, and the exact tiling for one
registered range at a time.
-/

namespace VMAccel

open StepSystem IdentifierDB VMAccelAllocator IntervalCover RangeObject

variable {M : OrderedMultiset RangeObject Resource.cmp} {s : VMAccelAllocator AllocRange M}

/-- Every free or live range belongs to a registered parent and lies inside its range. -/
def RangesInside (s : VMAccelAllocator AllocRange M) : Prop :=
  ∀ o ∈ M.bag s.freeSet + s.live, ∃ a, s.registeredIds.Active o.parentId ∧
    s.registered[o.parentId.toNat]? = some a ∧ a.begin ≤ o.obj.begin ∧ o.obj.last ≤ a.last

theorem ledger_registered_eq_some {p : VMAccelId} {a : AllocRange} :
    s.ledger.registered p = some a ↔
      s.registeredIds.Active p ∧ s.registered[p.toNat]? = some a := by
  change (if s.registeredIds.Active p then s.registered[p.toNat]? else none) = some a ↔ _
  split_ifs with h
  · exact (and_iff_right h).symm
  · exact iff_of_false (by simp) fun hcon => h hcon.1

theorem tiled_new (num : ℕ) : (new M num).ledger.Tiled := by
  intro p a hp
  rw [ledger_registered_new] at hp
  cases hp

theorem rangesInside_of_tiled (hwf : s.WellFormed) (h : s.ledger.Tiled) : RangesInside s := by
  intro o ho
  have hreg : s.ledger.registered o.parentId ≠ none := by
    rcases Multiset.mem_add.mp ho with ho | ho
    · exact hwf.closed.pool o ho
    · exact hwf.closed.objects o ho
  obtain ⟨a, ha⟩ := Option.ne_none_iff_exists'.mp hreg
  obtain ⟨hact, hget⟩ := ledger_registered_eq_some.mp ha
  obtain ⟨h1, h2⟩ := (h _ a ha).bounds ho rfl
  exact ⟨a, hact, hget, h1, h2⟩

/-- In every state reached without putting a range back next to a foreign one, all ranges lie
inside what was registered for their parent, and the next such call changes the free ranges of
its own parent only. -/
theorem ranges_isolated (M : OrderedMultiset RangeObject Resource.cmp) (num : ℕ)
    (cs : List (Call AllocRange)) (s : VMAccelAllocator AllocRange M)
    (hapart : EachInput (apply false) (fun t c => KeepsApart t.ledger c) (new M num) cs)
    (hrun : run (apply false) (new M num) cs = .ok s) :
    RangesInside s ∧ ∀ c s', KeepsApart s.ledger c → s.apply false c = .ok s' →
      Isolates s.ledger c s'.ledger := by
  obtain ⟨hwf, htiled⟩ := run_ledger (tiled_new num)
    (fun _ _ _ hwf h hc hstep => (h.step hwf.closed hc hstep).1) hapart hrun
  refine ⟨rangesInside_of_tiled hwf htiled, fun c s' hc hr => ?_⟩
  exact (htiled.step hwf.closed hc (apply_refines hwf hr).2).2

/-- The range `[first, last]` with its size. -/
def AllocRange.ofEnds (first last : BitVec 64) : AllocRange :=
  ⟨false, last - first + 1, first, last⟩

abbrev RangeTree := SearchTree.multiset (Resource.cmp (T := AllocRange))

theorem ranges_isolated_two_parents :
    ∃ s, run (apply false) (new RangeTree 2)
        [.register (.ofEnds 0 9), .register (.ofEnds 20 29)] = .ok s ∧ RangesInside s := by
  have hapart : EachInput (apply false) (fun t c => KeepsApart t.ledger c) (new RangeTree 2)
      [.register (.ofEnds 0 9), .register (.ofEnds 20 29)] := by
    have hfirst : ∃ t, run (apply false) (new RangeTree 2) [.register (.ofEnds 0 9)] = .ok t ∧
        ∀ e ∈ RangeTree.toList t.freeSet,
          e.obj.begin ≠ (29 : BitVec 64) + 1 ∧ e.obj.last + 1 ≠ 20 := by decide +kernel
    obtain ⟨t, ht, hclear⟩ := hfirst
    refine ⟨⟨⟨rfl, by decide, by decide⟩, fun _ _ _ _ hnone _ _ => ?_⟩, fun t' ht' =>
      ⟨⟨⟨rfl, by decide, by decide⟩, fun _ _ _ e _ he _ => ?_⟩, fun _ _ => trivial⟩⟩
    · cases hnone
    · obtain rfl : t' = t := by
        obtain ⟨u, hu, hrun⟩ := run_cons_ok.mp ht
        cases hrun
        exact Except.ok.inj (ht'.symm.trans hu)
      exact hclear e (List.mem_of_getElem? he)
  have hreach : ∃ s, run (apply false) (new RangeTree 2)
      [.register (.ofEnds 0 9), .register (.ofEnds 20 29)] = .ok s ∧
        s.registeredIds.Active 1 := by decide +kernel
  obtain ⟨s, hrun, -⟩ := hreach
  exact ⟨s, hrun, (ranges_isolated RangeTree 2 _ s hapart hrun).1⟩

/-- Registering `[10, 19]` next to a free `[0, 9]` of another parent takes that range away from
it and leaves a free range `[0, 10]`. -/
theorem neighbour_absorbed_across_parents :
    ∃ s, run (apply false) (new RangeTree 2)
        [.register (.ofEnds 0 9), .register (.ofEnds 10 19)] = .ok s ∧
      s.registeredIds.Active 0 ∧
      (RangeTree.toList s.freeSet).map (fun o => (o.parentId, o.obj.begin, o.obj.last)) =
        [(1, 0, 10)] ∧ ¬ RangesInside s := by
  have hreach : ∃ s, run (apply false) (new RangeTree 2)
      [.register (.ofEnds 0 9), .register (.ofEnds 10 19)] = .ok s ∧
        s.registeredIds.Active 0 ∧ s.registered[1]? = some (.ofEnds 10 19) ∧
        RangeTree.toList s.freeSet = [.of 1 ⟨false, 20, 0, 10⟩] := by decide +kernel
  obtain ⟨s, hrun, hact, hreg, hlist⟩ := hreach
  refine ⟨s, hrun, hact, by rw [hlist]; rfl, fun h => ?_⟩
  have hfree : VMAccelObject.of 1 ⟨false, 20, 0, 10⟩ ∈ RangeTree.bag s.freeSet := by
    rw [RangeTree.mem_bag, hlist]
    exact List.mem_singleton_self _
  have hmem : VMAccelObject.of 1 ⟨false, 20, 0, 10⟩ ∈ RangeTree.bag s.freeSet + s.live :=
    Multiset.mem_add.mpr (Or.inl hfree)
  obtain ⟨a, -, ha, hle, -⟩ := h _ hmem
  obtain rfl : AllocRange.ofEnds 10 19 = a := Option.some.inj (hreg.symm.trans ha)
  exact absurd hle (by decide)

/-- The free and live ranges are pairwise disjoint, their union is the registered range and each
has the size of its interval; without a registered range there are none. -/
def RangesTile (s : VMAccelAllocator AllocRange M) : Prop :=
  (∀ p a, s.registeredIds.Active p → s.registered[p.toNat]? = some a →
    ((M.bag s.freeSet + s.live).Pairwise fun o t =>
      o.obj.last < t.obj.begin ∨ t.obj.last < o.obj.begin) ∧
    (∀ x, (∃ o ∈ M.bag s.freeSet + s.live, o.obj.begin.toNat ≤ x ∧ x ≤ o.obj.last.toNat) ↔
      a.begin.toNat ≤ x ∧ x ≤ a.last.toNat) ∧
    ∀ o ∈ M.bag s.freeSet + s.live, o.obj.begin ≤ o.obj.last ∧
      o.obj.size.toNat = o.obj.last.toNat - o.obj.begin.toNat + 1) ∧
  (s.registeredIds.activeIds = ∅ → M.bag s.freeSet + s.live = 0)

/-- A resource is registered only when none is, and is well formed; requests are by size. -/
def OneAtATime (s : VMAccelAllocator AllocRange M) : Call AllocRange → Prop
  | .register a => s.registeredIds.activeIds = ∅ ∧ a.WellFormed
  | .alloc _ a => a.cmpRange = false
  | .unregister _ => True
  | .free _ => True

/-- The same with arbitrary requests. -/
def OneRegistered (s : VMAccelAllocator AllocRange M) : Call AllocRange → Prop
  | .register a => s.registeredIds.activeIds = ∅ ∧ a.WellFormed
  | .alloc _ _ => True
  | .unregister _ => True
  | .free _ => True

theorem oneRegistered_of_oneAtATime {c : Call AllocRange} (hc : OneAtATime s c) :
    OneRegistered s c := by
  cases c with
  | register a => exact hc
  | _ => trivial

def Ledger.Single (l : Ledger AllocRange M) : Prop :=
  ∀ p q, l.registered p ≠ none → l.registered q ≠ none → p = q

theorem registered_eq_none_of_activeIds (h : s.registeredIds.activeIds = ∅) (p : VMAccelId) :
    s.ledger.registered p = none := by
  refine ledger_registered_of_not_active fun hact => ?_
  have hmem : p.toNat ∈ s.registeredIds.activeIds := mem_activeIds.mpr hact
  simp [h] at hmem

theorem Ledger.Single.noForeignNeighbour {l : Ledger AllocRange M} (hs : l.Single)
    (hcl : l.Closed) {pool : M.Carrier} (hsub : ∀ e ∈ M.bag pool, e ∈ M.bag l.pool)
    {o : RangeObject} (ho : l.registered o.parentId ≠ none) : NoForeignNeighbour M pool o := by
  intro i e _ he hne
  exact absurd (hs _ _ (hcl.pool e (hsub e (M.mem_bag_of_getElem he))) ho) hne

theorem keepsApart_of_oneAtATime (hwf : s.WellFormed) (hs : s.ledger.Single)
    {c : Call AllocRange} (hc : OneAtATime s c) : KeepsApart s.ledger c := by
  have hcl := hwf.closed
  cases c with
  | register a =>
    refine ⟨hc.2, fun p _ i e _ he _ => ?_⟩
    have hmem : e ∈ M.bag s.ledger.pool := M.mem_bag_of_getElem he
    exact absurd (registered_eq_none_of_activeIds hc.1 _) (hcl.pool e hmem)
  | unregister id => trivial
  | alloc p a =>
    refine ⟨hc, fun i e d r hlookup _ _ => hs.noForeignNeighbour hcl (fun x hx => ?_) ?_⟩
    · rw [M.bag_eq_cons_erase (lookup_eq_some hlookup).1]
      exact Multiset.mem_cons_of_mem hx
    · obtain ⟨hi, hcmp⟩ := lookup_eq_some hlookup
      have hreg := hcl.pool e (M.mem_bag_of_getElem hi)
      rwa [Resource.parentId_eq_of_cmp hcmp] at hreg
  | free id =>
    intro o ho
    exact hs.noForeignNeighbour hcl (fun _ hx => hx)
      (hcl.objects o (Multiset.mem_map.mpr ⟨(id, o), ho, rfl⟩))

theorem Ledger.Single.step {l' : Ledger AllocRange M} {c : Call AllocRange}
    (hs : s.ledger.Single) (hc : OneRegistered s c) (hstep : s.ledger.Step c l') :
    l'.Single := by
  cases hstep with
  | refused => exact hs
  | @registered p a hp =>
    have honly : ∀ q, Function.update s.ledger.registered p (some a) q ≠ none → q = p := by
      intro q hq
      by_contra hne
      rw [Function.update_of_ne hne] at hq
      exact hq (registered_eq_none_of_activeIds hc.1 q)
    intro q q' hq hq'
    exact (honly q hq).trans (honly q' hq').symm
  | @unregistered p _ =>
    have hsub : ∀ q, Function.update s.ledger.registered p none q ≠ none →
        s.ledger.registered q ≠ none := by
      intro q hq
      by_cases hqp : q = p
      · subst hqp
        rw [Function.update_self] at hq
        exact absurd rfl hq
      · rwa [Function.update_of_ne hqp] at hq
    intro q q' hq hq'
    exact hs q q' (hsub q hq) (hsub q' hq')
  | granted _ _ _ => exact hs
  | freed _ => exact hs

theorem rangesTile_of_tiled (hwf : s.WellFormed) (h : s.ledger.Tiled) (hs : s.ledger.Single) :
    RangesTile s := by
  have hparent : ∀ o ∈ M.bag s.freeSet + s.live, s.ledger.registered o.parentId ≠ none := by
    intro o ho
    rcases Multiset.mem_add.mp ho with ho | ho
    · exact hwf.closed.pool o ho
    · exact hwf.closed.objects o ho
  refine ⟨fun p a hact ha => ?_, fun hnone => ?_⟩
  · have hp : s.ledger.registered p = some a := ledger_registered_eq_some.mpr ⟨hact, ha⟩
    have hpne : s.ledger.registered p ≠ none := by simp [hp]
    have hall : ∀ o ∈ M.bag s.freeSet + s.live, o.parentId = p :=
      fun o ho => hs _ _ (hparent o ho) hpne
    have htp := h p a hp
    have htiles := htp.tiles
    change Tiles lo hi (ofParent (M.bag s.freeSet + s.live) p) _ _ at htiles
    rw [ofParent, Multiset.filter_eq_self.mpr hall] at htiles
    refine ⟨htiles.pairwise, htiles.mem_iff, fun o ho => ?_⟩
    have hwfo := htp.objects o ho (hall o ho)
    exact ⟨hwfo.begin_le, hwfo.size_eq⟩
  · rw [Multiset.eq_zero_iff_forall_notMem]
    intro o ho
    exact hparent o ho (registered_eq_none_of_activeIds hnone _)

theorem tiled_of_run {num : ℕ} {cs : List (Call AllocRange)}
    (hone : EachInput (apply false) OneAtATime (new M num) cs)
    (hrun : run (apply false) (new M num) cs = .ok s) :
    s.WellFormed ∧ s.ledger.Tiled ∧ s.ledger.Single := by
  have hsingle : (new M num).ledger.Single := fun p _ hp => absurd (ledger_registered_new num p) hp
  exact run_ledger (I := fun l => l.Tiled ∧ l.Single) ⟨tiled_new num, hsingle⟩
    (fun _ _ _ hwf h hc hstep =>
      ⟨(h.1.step hwf.closed (keepsApart_of_oneAtATime hwf h.2 hc) hstep).1,
        h.2.step (oneRegistered_of_oneAtATime hc) hstep⟩) hone hrun

/-- With at most one well-formed resource registered at a time, the free and the live ranges tile
the registered range in every reachable state. -/
theorem ranges_tile_registered (M : OrderedMultiset RangeObject Resource.cmp) (num : ℕ)
    (cs : List (Call AllocRange)) (s : VMAccelAllocator AllocRange M)
    (hone : EachInput (apply false) OneAtATime (new M num) cs)
    (hrun : run (apply false) (new M num) cs = .ok s) : RangesTile s := by
  obtain ⟨hwf, htiled, hs⟩ := tiled_of_run hone hrun
  exact rangesTile_of_tiled hwf htiled hs

instance : DecidablePred AllocRange.WellFormed := fun r =>
  decidable_of_iff (r.cmpRange = false ∧ r.begin.toNat ≤ r.last.toNat ∧
      r.size.toNat = r.last.toNat - r.begin.toNat + 1)
    ⟨fun h => ⟨h.1, h.2.1, h.2.2⟩, fun h => ⟨h.cmpRange, h.begin_le, h.size_eq⟩⟩

instance (s : VMAccelAllocator AllocRange M) : (c : Call AllocRange) → Decidable (OneAtATime s c)
  | .register _ => inferInstanceAs (Decidable (_ ∧ _))
  | .alloc _ _ => inferInstanceAs (Decidable (_ = _))
  | .unregister _ | .free _ => .isTrue trivial

theorem ranges_tile_after_fragmentation :
    ∃ s, run (apply false) (new RangeTree 4) [.register (.ofEnds 16 31), .alloc 0 (.ofEnds 0 3),
        .alloc 0 (.ofEnds 0 3), .free 0] = .ok s ∧
      (RangeTree.toList s.freeSet).length = 2 ∧ RangesTile s := by
  have hone : EachInput (apply false) OneAtATime (new RangeTree 4)
      [.register (.ofEnds 16 31), .alloc 0 (.ofEnds 0 3), .alloc 0 (.ofEnds 0 3), .free 0] := by
    decide +kernel
  have hreach : ∃ s, run (apply false) (new RangeTree 4) [.register (.ofEnds 16 31),
      .alloc 0 (.ofEnds 0 3), .alloc 0 (.ofEnds 0 3), .free 0] = .ok s ∧
        (RangeTree.toList s.freeSet).length = 2 := by decide +kernel
  obtain ⟨s, hrun, hlen⟩ := hreach
  exact ⟨s, hrun, hlen, ranges_tile_registered RangeTree 4 _ s hone hrun⟩

end VMAccel
