import VMAccel.AcceleratorContexts

/-!
# The queues of a context

`clcontext::alloc` asks for the queues of a context in two nested loops, and `clcontext::destroy`
destroys queues in one. Which queues were created and which are destroyed is read off from the
requests of the two calls and from the replies.
-/

namespace VMAccel.Accelerator

open StepSystem Server

variable {s s' : Accelerator} {wire : Wire} {n : ℕ}

def createdQueue (wire : Wire) : Request × ℕ → Option VMAccelId
  | (.queuealloc argp _, i) =>
    if i ∉ wire.lost ∧ wire.status i = .success then some argp.client.id else none
  | _ => none

/-- The queues that the requests of a call have created, by the position of the replies. -/
def createdQueues (wire : Wire) (rs : List Request) : List VMAccelId :=
  rs.zipIdx.filterMap (createdQueue wire)

def destroyedQueue : Request → Option VMAccelId
  | .queuedestroy argp => some argp.id
  | _ => none

def destroyedQueues (rs : List Request) : List VMAccelId := rs.filterMap destroyedQueue

def queueRequests (wire : Wire) (contextId : VMAccelId) :
    ℕ → List (BitVec 32 × VMAccelId) → List Request
  | _, [] => []
  | i, q :: qs => .queuealloc ⟨⟨contextId, q.2⟩, q.1⟩ (wire.cl i) ::
    if i ∈ wire.lost then [] else queueRequests wire contextId (i + 1) qs

theorem allocQueues_sends (contextId : VMAccelId) (qs : List (BitVec 32 × VMAccelId)) :
    (allocQueues wire contextId s qs).2 =
      s.send (queueRequests wire contextId s.sent.length qs) := by
  induction qs generalizing s with
  | nil =>
    rw [queueRequests, send, List.append_nil]
    rfl
  | cons q qs ih =>
    rw [allocQueues, queueRequests]
    by_cases hreply : s.replies wire
    · rw [if_pos hreply, if_neg hreply, ih]
      simp [send]
    · rw [if_neg hreply, if_pos (not_not.mp hreply)]

def Made (wire : Wire) (i k : ℕ) : Prop :=
  (∀ l ≤ k, i + l ∉ wire.lost) ∧ wire.status (i + k) = .success

theorem made_zero {i : ℕ} : Made wire i 0 ↔ i ∉ wire.lost ∧ wire.status i = .success := by
  refine and_congr_left' ⟨fun h => h 0 le_rfl, fun h l hl => ?_⟩
  rwa [Nat.le_zero.mp hl]

theorem made_succ {i k : ℕ} : Made wire i (k + 1) ↔ i ∉ wire.lost ∧ Made wire (i + 1) k := by
  have hadd : ∀ l, i + 1 + l = i + (l + 1) := fun l => by omega
  simp only [Made, hadd, ← and_assoc]
  refine and_congr_left' ⟨fun h => ⟨h 0 (Nat.zero_le _), fun l hl => h (l + 1) (by omega)⟩, ?_⟩
  rintro ⟨hzero, hrest⟩ l hl
  cases l with
  | zero => exact hzero
  | succ l => exact hrest l (by omega)

theorem mem_created_queueRequests {contextId id : VMAccelId} {i : ℕ}
    {qs : List (BitVec 32 × VMAccelId)} :
    id ∈ ((queueRequests wire contextId i qs).zipIdx i).filterMap (createdQueue wire) ↔
      ∃ k, Made wire i k ∧ (qs.map Prod.snd)[k]? = some id := by
  induction qs generalizing i with
  | nil => simp [queueRequests]
  | cons q qs ih =>
    have hrest : (∃ k, Made wire i k ∧ ((q :: qs).map Prod.snd)[k]? = some id) ↔
        (Made wire i 0 ∧ q.2 = id) ∨
          i ∉ wire.lost ∧ ∃ k, Made wire (i + 1) k ∧ (qs.map Prod.snd)[k]? = some id := by
      rw [← Nat.or_exists_add_one]
      simp only [made_succ, List.map_cons, List.getElem?_cons_zero, List.getElem?_cons_succ,
        Option.some.injEq, and_assoc, exists_and_left]
    rw [hrest, made_zero, queueRequests, List.zipIdx_cons, List.mem_filterMap]
    simp only [List.mem_cons, or_and_right, exists_or, exists_eq_left]
    refine or_congr ?_ ?_
    · simp [createdQueue, and_assoc]
    · by_cases hlost : i ∈ wire.lost
      · simp [hlost]
      · rw [if_neg hlost, ← List.mem_filterMap, ih]
        exact (and_iff_right hlost).symm

theorem queueSlots_ids (numSubDevices numQueues : BitVec 32) :
    (queueSlots numSubDevices numQueues).map Prod.snd =
      (List.range (numSubDevices.toNat * numQueues.toNat)).map (BitVec.ofNat 32) := by
  rw [queueSlots]
  generalize numSubDevices.toNat = devices
  induction devices with
  | zero => simp
  | succ devices ih =>
    rw [List.range_succ, List.flatMap_append, List.map_append, ih, Nat.succ_mul, List.range_add,
      List.map_append]
    refine congrArg _ ?_
    rw [List.flatMap_singleton, List.map_map, List.map_map]
    refine List.map_congr_left fun j _ => ?_
    simp [BitVec.ofNat_add, BitVec.ofNat_mul]

/-- The requests at the end of `destroy`. -/
def teardown (c : ClContext) : List Request :=
  if c.contextId = invalidId then []
  else (List.range c.numSubDevices.toNat).map
    (fun i => .queuedestroy ⟨c.contextId, BitVec.ofNat 32 i⟩) ++ [.contextdestroy c.contextId]

theorem sent_destroySurfaces {ps : List (ℕ × VMAccelId)} (hr : s.destroySurfaces ps = .ok s') :
    ∃ gone : List VMCLSurfaceId, s'.sent = s.sent ++ gone.map .surfacedestroy := by
  refine destroySurfaces_rule
    (P := fun t => ∃ gone : List VMCLSurfaceId, t.sent = s.sent ++ gone.map .surfacedestroy)
    (fun t t' n id h hr => ?_) ⟨[], by simp⟩ hr
  obtain ⟨gone, hgone⟩ := h
  obtain ⟨c, -, rfl | ⟨-, rfl⟩⟩ := destroySurface_ok hr
  · exact ⟨gone, hgone⟩
  · exact ⟨gone ++ [⟨c.contextId, id⟩], by simp [send, setContext, hgone]⟩

theorem sent_destroy (hr : s.destroy n = .ok s') {c : ClContext}
    (hc : s.contexts[n]? = some (some c)) :
    ∃ gone : List VMCLSurfaceId, s'.sent = s.sent ++ gone.map .surfacedestroy ++ teardown c := by
  obtain ⟨t, d, ht, hd, hs'⟩ := destroy_ok hr
  obtain ⟨gone, hgone⟩ := sent_destroySurfaces ht
  obtain ⟨c', hc', hid, hnum⟩ := (carries_destroySurfaces ht).2 n d
    (List.getElem?_eq_some_iff.mp hc).1 hd
  cases hc.symm.trans hc'
  refine ⟨gone, ?_⟩
  rw [← hgone, teardown, ← hid, ← hnum]
  rcases hs' with ⟨hinvalid, rfl⟩ | ⟨hvalid, rfl⟩
  · rw [if_pos hinvalid, List.append_nil]
    rfl
  · rw [if_neg hvalid]
    rfl

theorem destroyedQueues_append (rs rs' : List Request) :
    destroyedQueues (rs ++ rs') = destroyedQueues rs ++ destroyedQueues rs' :=
  List.filterMap_append

theorem destroyedQueues_surfacedestroy (gone : List VMCLSurfaceId) :
    destroyedQueues (gone.map .surfacedestroy) = [] := by
  rw [destroyedQueues, List.filterMap_map]
  exact List.filterMap_eq_nil_iff.mpr fun _ _ => rfl

theorem destroyedQueues_queueRequests (contextId : VMAccelId) (i : ℕ)
    (qs : List (BitVec 32 × VMAccelId)) :
    destroyedQueues (queueRequests wire contextId i qs) = [] := by
  induction qs generalizing i with
  | nil => rfl
  | cons q qs ih =>
    rw [queueRequests]
    split_ifs
    · rfl
    · exact ih (i + 1)

theorem mem_destroyedQueues_teardown {c : ClContext} {id : VMAccelId} :
    id ∈ destroyedQueues (teardown c) ↔
      c.contextId ≠ invalidId ∧ id.toNat < c.numSubDevices.toNat := by
  rw [teardown]
  split_ifs with hid
  · exact iff_of_false (by simp [destroyedQueues]) fun h => h.1 hid
  · rw [and_iff_right hid, destroyedQueues_append, destroyedQueues, List.filterMap_map]
    have hlt := c.numSubDevices.isLt
    simp only [Function.comp_def, destroyedQueue, destroyedQueues, List.filterMap_cons,
      List.filterMap_nil, List.append_nil, List.mem_filterMap, List.mem_range, Option.some.injEq]
    constructor
    · rintro ⟨i, hi, rfl⟩
      rw [BitVec.toNat_ofNat]
      omega
    · intro h
      exact ⟨id.toNat, h, BitVec.ofNat_toNat _ _ |>.trans (BitVec.setWidth_eq id)⟩

theorem createdQueues_append {rs rs' : List Request}
    (h : ∀ r ∈ rs', ∀ i, createdQueue wire (r, i) = none) :
    createdQueues wire (rs ++ rs') = createdQueues wire rs := by
  rw [createdQueues, List.zipIdx_append, List.filterMap_append]
  refine (congrArg _ (List.filterMap_eq_nil_iff.mpr fun p hp => ?_)).trans (List.append_nil _)
  exact h p.1 (List.fst_mem_of_mem_zipIdx hp) p.2

theorem createdQueue_teardown (c : ClContext) :
    ∀ r ∈ teardown c, ∀ i, createdQueue wire (r, i) = none := by
  intro r hr i
  rw [teardown] at hr
  split_ifs at hr with hid
  · exact absurd hr List.not_mem_nil
  · rcases List.mem_append.mp hr with hr | hr
    · obtain ⟨j, -, rfl⟩ := List.mem_map.mp hr
      rfl
    · rw [List.mem_singleton.mp hr]
      rfl

theorem createdQueue_surfacedestroy (gone : List VMCLSurfaceId) :
    ∀ r ∈ gone.map Request.surfacedestroy, ∀ i, createdQueue wire (r, i) = none := by
  intro r hr i
  obtain ⟨argp, -, rfl⟩ := List.mem_map.mp hr
  rfl

theorem sent_deleteContext (href : ¬ s.contextReferenced n) (hn : n < s.contexts.length)
    (hr : s.step (.deleteContext n, wire) = .ok s') :
    ∃ (c : ClContext) (gone : List VMCLSurfaceId), s.contexts[n]? = some (some c) ∧
      s'.sent = gone.map .surfacedestroy ++ teardown c := by
  obtain ⟨r, hact, -, hsent⟩ := step_ok hr
  obtain ⟨t, ht, hr⟩ := bind_eq_ok.mp hact
  cases hr
  have hdestroy : destroy { s with sent := [] } n = .ok t := by
    rw [← ht, deleteContext]
    exact (if_neg href).symm
  obtain ⟨u, d, hu, hd, -⟩ := destroy_ok hdestroy
  obtain ⟨c, hc, -⟩ := (carries_destroySurfaces hu).2 n d hn hd
  obtain ⟨gone, hgone⟩ := sent_destroy hdestroy hc
  exact ⟨c, gone, hc, hsent.trans hgone⟩

def nextId (s : Accelerator) : VMAccelId :=
  match s.refObjectDB.allocId with
  | .ok r => r.1.getD invalidId
  | .error _ => invalidId

theorem allocId_nextId {o : Holder} {id : VMAccelId} {t : Accelerator}
    (hr : s.allocId o = .ok (id, t)) : id = s.nextId ∧ t.sent = s.sent := by
  obtain ⟨q, hq, hid, ht⟩ := allocId_ok hr
  rw [nextId, hq, show t = _ from ht]
  exact ⟨hid, rfl⟩

theorem length_queueSlots (numSubDevices numQueues : BitVec 32) :
    (queueSlots numSubDevices numQueues).length = numSubDevices.toNat * numQueues.toNat := by
  have h := congrArg List.length (queueSlots_ids numSubDevices numQueues)
  simpa using h

section Alloc

variable {tracked : Bool}
  {selectionMask numSubDevices numQueues requiredCaps uninitialised : BitVec 32}

/-- The requests of `clcontext::alloc`. -/
def allocRequests (s : Accelerator) (wire : Wire)
    (selectionMask numSubDevices numQueues requiredCaps : BitVec 32) : List Request :=
  .contextalloc ⟨s.nextId, selectionMask, atLeastOne numSubDevices, requiredCaps⟩ wire.platforms ::
    queueRequests wire s.nextId 1 (queueSlots (atLeastOne numSubDevices) (atLeastOne numQueues))

/-- The reply to the allocation of a queue is lost. -/
def LosesQueue (wire : Wire) (numSubDevices numQueues : BitVec 32) : Prop :=
  ∃ k < (atLeastOne numSubDevices).toNat * (atLeastOne numQueues).toNat, 1 + k ∈ wire.lost

/-- What a constructor of `clcontext` sends, and the context it leaves behind. -/
theorem newContext_sends (hs : s.sent = []) {r : Accelerator × Option (Holder × VMAccelId)}
    (hr : s.newContext wire tracked selectionMask numSubDevices numQueues requiredCaps
      uninitialised = .ok r) :
    (0 ∈ wire.lost ∧ ∃ argp platforms, r.1.sent = [.contextalloc argp platforms]) ∨
      (0 ∉ wire.lost ∧ LosesQueue wire numSubDevices numQueues ∧
        ∃ (c : ClContext) (gone : List VMCLSurfaceId), c.contextId = s.nextId ∧
          c.numSubDevices = uninitialised ∧ r.1.sent =
            s.allocRequests wire selectionMask numSubDevices numQueues requiredCaps ++
              gone.map .surfacedestroy ++ teardown c) ∨
      (0 ∉ wire.lost ∧ ¬ LosesQueue wire numSubDevices numQueues ∧
        r.1.sent = s.allocRequests wire selectionMask numSubDevices numQueues requiredCaps ∧
        ∃ c, r.1.contexts[s.contexts.length]? = some (some c) ∧ c.contextId = s.nextId ∧
          c.numSubDevices = atLeastOne numSubDevices) := by
  obtain ⟨id, t, u, q, hid, rfl, rfl, hcases⟩ := newContext_ok hr
  obtain ⟨rfl, ht⟩ := allocId_nextId hid
  rw [hs] at ht
  have htc : t.contexts = s.contexts := contexts_allocId hid
  have hreplies : t.replies wire ↔ 0 ∉ wire.lost := by rw [replies, ht]; rfl
  generalize hslots : queueSlots (atLeastOne numSubDevices) (atLeastOne numQueues) = slots at hcases
  have hloses : ∀ {r : Request}, (allocQueues wire s.nextId (t.send [r]) slots).1 = none ↔
      ¬ LosesQueue wire numSubDevices numQueues := by
    intro r
    rw [allocQueues_eq_none, ← hslots, length_queueSlots, LosesQueue]
    simp [send, ht]
  have hsent : (allocQueues wire s.nextId (t.send [.contextalloc ⟨s.nextId, selectionMask,
      atLeastOne numSubDevices, requiredCaps⟩ wire.platforms]) slots).2.sent =
      s.allocRequests wire selectionMask numSubDevices numQueues requiredCaps := by
    rw [allocQueues_sends, ← hslots]
    simp [send, ht, allocRequests]
  have hcontexts : ∀ {r : Request} {c : ClContext},
      ((allocQueues wire s.nextId (t.send [r]) slots).2.contexts ++ [some c])[s.contexts.length]? =
        some (some c) := by
    intro r c
    rw [contexts_allocQueues, ← htc]
    exact List.getElem?_concat_length
  rcases hcases with ⟨hlost, rfl⟩ | ⟨hreply, qid, v, hqid, hv, rfl⟩ | ⟨hreply, hnone, rfl⟩
  · refine Or.inl ⟨not_not.mp (mt hreplies.mpr hlost), ⟨s.nextId, selectionMask,
      atLeastOne numSubDevices, requiredCaps⟩, wire.platforms, ?_⟩
    change t.sent ++ [_] = _
    rw [ht]
    rfl
  · refine Or.inr (Or.inl ⟨hreplies.mp hreply, ?_, ?_⟩)
    · refine not_not.mp fun h => ?_
      rw [hloses.mpr h] at hqid
      cases hqid
    · obtain ⟨gone, hgone⟩ := sent_destroy hv hcontexts
      exact ⟨_, gone, rfl, rfl, by rw [hgone, ← hsent]⟩
  · refine Or.inr (Or.inr ⟨hreplies.mp hreply, hloses.mp hnone, ?_, ?_⟩)
    · rw [sent_track]
      exact hsent
    · rw [contexts_track]
      exact ⟨_, hcontexts, rfl, rfl⟩

/-- The allocations that have succeeded are those that `destroy` takes the queues to be from. -/
def FirstMade (wire : Wire) (numSubDevices numQueues : BitVec 32) (count : ℕ) : Prop :=
  ∀ i < 2 ^ 32, i < count ↔ ∃ k < (atLeastOne numSubDevices).toNat * (atLeastOne numQueues).toNat,
    Made wire 1 k ∧ k % 2 ^ 32 = i

theorem mem_createdQueues_alloc {id : VMAccelId} :
    id ∈ createdQueues wire
        (s.allocRequests wire selectionMask numSubDevices numQueues requiredCaps) ↔
      ∃ k < (atLeastOne numSubDevices).toNat * (atLeastOne numQueues).toNat,
        Made wire 1 k ∧ k % 2 ^ 32 = id.toNat := by
  rw [createdQueues, allocRequests, List.zipIdx_cons, List.filterMap_cons, Nat.zero_add]
  change id ∈ List.filterMap _ _ ↔ _
  rw [mem_created_queueRequests, queueSlots_ids]
  refine exists_congr fun k => ?_
  rw [List.getElem?_map, and_left_comm]
  refine and_congr_right fun _ => ?_
  constructor
  · intro h
    obtain ⟨l, hl, rfl⟩ := Option.map_eq_some_iff.mp h
    obtain ⟨hk, rfl⟩ := List.getElem?_eq_some_iff.mp hl
    rw [List.length_range] at hk
    exact ⟨hk, by simp⟩
  · rintro ⟨hk, heq⟩
    rw [List.getElem?_range hk, Option.map_some, Option.some.injEq]
    exact BitVec.eq_of_toNat_eq ((BitVec.toNat_ofNat _ _).trans heq)

theorem destroyedQueues_alloc : destroyedQueues
    (s.allocRequests wire selectionMask numSubDevices numQueues requiredCaps) = [] :=
  destroyedQueues_queueRequests _ _ _

/-- The queues that `destroy` destroys, of a context that has got an identifier. -/
def destroyCount (s : Accelerator) (numSubDevices : BitVec 32) : ℕ :=
  if s.nextId = invalidId then 0 else numSubDevices.toNat

theorem mem_destroyedQueues {c : ClContext} {count : BitVec 32} (hid : c.contextId = s.nextId)
    (hnum : c.numSubDevices = count) {id : VMAccelId} :
    id ∈ destroyedQueues (teardown c) ↔ id.toNat < s.destroyCount count := by
  rw [mem_destroyedQueues_teardown, hid, hnum, destroyCount]
  split_ifs with hinvalid
  · exact iff_of_false (fun h => h.1 hinvalid) (Nat.not_lt_zero _)
  · exact and_iff_right hinvalid

theorem destroyed_iff_firstMade {destroyed created : List VMAccelId} {count : ℕ}
    (hdestroyed : ∀ id : VMAccelId, id ∈ destroyed ↔ id.toNat < count)
    (hcreated : ∀ id : VMAccelId, id ∈ created ↔
      ∃ k < (atLeastOne numSubDevices).toNat * (atLeastOne numQueues).toNat,
        Made wire 1 k ∧ k % 2 ^ 32 = id.toNat) :
    (∀ id, id ∈ destroyed ↔ id ∈ created) ↔ FirstMade wire numSubDevices numQueues count := by
  constructor
  · intro h i hi
    have hi' : (BitVec.ofNat 32 i).toNat = i := Nat.mod_eq_of_lt hi
    rw [← hi', ← hdestroyed, h, hcreated]
  · intro h id
    rw [hdestroyed, hcreated, h id.toNat id.isLt]

theorem toNat_atLeastOne_pos (n : BitVec 32) : 0 < (atLeastOne n).toNat := by
  unfold atLeastOne
  split_ifs with h
  · decide
  · exact Nat.pos_of_ne_zero fun h0 => h (BitVec.eq_of_toNat_eq h0)

theorem firstMade_iff_numQueues
    (hmade : ∀ k < (atLeastOne numSubDevices).toNat * (atLeastOne numQueues).toNat, Made wire 1 k) :
    FirstMade wire numSubDevices numQueues (atLeastOne numSubDevices).toNat ↔
      (atLeastOne numQueues).toNat = 1 := by
  have hD := toNat_atLeastOne_pos numSubDevices
  have hQ := toNat_atLeastOne_pos numQueues
  have hlt := (atLeastOne numSubDevices).isLt
  rw [FirstMade]
  generalize (atLeastOne numSubDevices).toNat = D at *
  generalize (atLeastOne numQueues).toNat = Q at *
  constructor
  · intro h
    by_contra hne
    have hDQ : D < D * Q := (Nat.lt_mul_iff_one_lt_right hD).mpr (by omega)
    exact lt_irrefl D ((h D hlt).mpr ⟨D, hDQ, hmade D hDQ, Nat.mod_eq_of_lt hlt⟩)
  · rintro rfl i hi
    rw [Nat.mul_one] at hmade ⊢
    constructor
    · exact fun h => ⟨i, h, hmade i h, Nat.mod_eq_of_lt hi⟩
    · rintro ⟨k, hk, -, rfl⟩
      omega

/-- When the allocations succeed up to the reply that is lost, this means that the number left in
`numSubDevices` is that of the replies before it. -/
theorem firstMade_iff_lost {count m : ℕ} (hcount : count < 2 ^ 32)
    (hm : m < (atLeastOne numSubDevices).toNat * (atLeastOne numQueues).toNat)
    (hmade : ∀ k, Made wire 1 k ↔ k < m) :
    FirstMade wire numSubDevices numQueues count ↔ count = m := by
  rw [FirstMade]
  simp only [hmade]
  constructor
  · intro h
    rcases Nat.lt_trichotomy count m with hlt | heq | hgt
    · have hself := (h count hcount).mpr ⟨count, by omega, hlt, Nat.mod_eq_of_lt hcount⟩
      exact absurd hself (lt_irrefl _)
    · exact heq
    · obtain ⟨k, -, hk, hmod⟩ := (h m (by omega)).mp hgt
      omega
  · rintro rfl i hi
    constructor
    · exact fun h => ⟨i, by omega, h, Nat.mod_eq_of_lt hi⟩
    · rintro ⟨k, -, hk, rfl⟩
      omega

/-- For every context and whatever replies are lost or refusals. The queues that `destroy` destroys,
when it is called for a lost reply or after any other calls, are those whose allocation has
succeeded exactly if these are the first ones, as many as `numSubDevices` says. -/
theorem queues_destroyed_iff {s s₁ : Accelerator}
    (hnew : s.step (.newContext tracked selectionMask numSubDevices numQueues requiredCaps
      uninitialised, wire) = .ok s₁) :
    (0 ∈ wire.lost → destroyedQueues s₁.sent = [] ∧ createdQueues wire s₁.sent = []) ∧
    (0 ∉ wire.lost → LosesQueue wire numSubDevices numQueues →
      ((∀ id, id ∈ destroyedQueues s₁.sent ↔ id ∈ createdQueues wire s₁.sent) ↔
        FirstMade wire numSubDevices numQueues (s.destroyCount uninitialised))) ∧
    (0 ∉ wire.lost → ¬ LosesQueue wire numSubDevices numQueues →
      ∀ (as : List (Action × Wire)) (t t' : Accelerator) (wire' : Wire), run step s₁ as = .ok t →
        ¬ t.contextReferenced s.contexts.length →
        t.step (.deleteContext s.contexts.length, wire') = .ok t' →
        ((∀ id, id ∈ destroyedQueues t'.sent ↔ id ∈ createdQueues wire s₁.sent) ↔
          FirstMade wire numSubDevices numQueues
            (s.destroyCount (atLeastOne numSubDevices)))) := by
  obtain ⟨r, hact, hcontexts, hsent⟩ := step_ok hnew
  have hcases := newContext_sends (s := { s with sent := [] }) rfl hact
  rw [← hsent, ← hcontexts] at hcases
  refine ⟨fun hlost => ?_, fun hreply hloses => ?_,
    fun hreply hloses as t t' wire' hrun href hdel => ?_⟩
  · obtain ⟨-, argp, platforms, hs₁⟩ := hcases.resolve_right fun h =>
      h.elim (fun h => h.1 hlost) fun h => h.1 hlost
    rw [hs₁]
    exact ⟨rfl, rfl⟩
  -- a reply is lost, and `alloc` itself destroys the context
  · obtain ⟨-, -, c, gone, hid, hnum, hs₁⟩ :=
      (hcases.resolve_left fun h => hreply h.1).resolve_right fun h => h.2.1 hloses
    refine destroyed_iff_firstMade (fun id => ?_) fun id => ?_
    · rw [hs₁, destroyedQueues_append, destroyedQueues_append, destroyedQueues_surfacedestroy,
        destroyedQueues_alloc]
      exact mem_destroyedQueues hid hnum
    · rw [hs₁, createdQueues_append (createdQueue_teardown c),
        createdQueues_append (createdQueue_surfacedestroy gone)]
      exact mem_createdQueues_alloc
  -- the context is there, and no call in between changes its number of sub-devices
  · obtain ⟨-, -, hs₁, c, hc, hid, hnum⟩ :=
      (hcases.resolve_left fun h => hreply h.1).resolve_left fun h => hloses h.2.1
    have hcarries := carries_run hrun
    have hn : s.contexts.length < s₁.contexts.length := (List.getElem?_eq_some_iff.mp hc).1
    obtain ⟨d, gone, hd, ht'⟩ := sent_deleteContext href (hn.trans_le hcarries.1) hdel
    obtain ⟨c', hc', hid', hnum'⟩ := hcarries.2 _ d hn hd
    cases hc.symm.trans hc'
    refine destroyed_iff_firstMade (fun id => ?_) fun id => ?_
    · rw [ht', destroyedQueues_append, destroyedQueues_surfacedestroy]
      exact mem_destroyedQueues (hid'.trans hid) (hnum'.trans hnum)
    · rw [hs₁]
      exact mem_createdQueues_alloc

end Alloc

def queuesDemo (numQueues uninitialised : BitVec 32) (lost : List ℕ) : Action × Wire :=
  (.newContext false 0xF 1 numQueues 0 uninitialised, wireDemo lost)

/-- The state after a call that returns. -/
def after (s : Accelerator) (a : Action × Wire) : Accelerator :=
  match s.step a with
  | .ok s' => s'
  | .error _ => s

theorem queues_destroyed_one :
    new.step (queuesDemo 1 0 []) = .ok (new.after (queuesDemo 1 0 [])) ∧
      ((∀ id, id ∈ destroyedQueues ((new.after (queuesDemo 1 0 [])).after
          (.deleteContext 0, wireDemo [])).sent ↔
        id ∈ createdQueues (wireDemo []) (new.after (queuesDemo 1 0 [])).sent) ↔
          FirstMade (wireDemo []) 1 1 (new.destroyCount 1)) := by
  have hnew : new.step (.newContext false 0xF 1 1 0 0, wireDemo []) =
      .ok (new.after (queuesDemo 1 0 [])) := rfl
  have hall : ¬ LosesQueue (wireDemo []) 1 1 := fun h => by simp [LosesQueue, wireDemo] at h
  exact ⟨hnew, (queues_destroyed_iff hnew).2.2 List.not_mem_nil hall [] _ _ (wireDemo []) rfl
    (by decide) rfl⟩

/-- Of two queues only the first is destroyed. When the reply to the second is lost, as many queues
are destroyed as the field that is not initialised says. -/
theorem second_queue_not_destroyed :
    (do
      let s ← new.step (queuesDemo 2 0 [])
      let t ← s.step (.deleteContext 0, wireDemo [])
      return (createdQueues (wireDemo []) s.sent, destroyedQueues t.sent)) = .ok ([0, 1], [0]) ∧
    (do
      let s ← new.step surfaceDemo
      let t ← s.step (queuesDemo 2 3 [2])
      return (createdQueues (wireDemo [2]) t.sent, destroyedQueues t.sent)) =
        .ok ([0], [0, 1, 2]) := by
  decide +kernel

end VMAccel.Accelerator
