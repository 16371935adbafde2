import VMAccel.ClientContents
import VMAccel.ExecuteCalls
import VMAccel.ServerSpec

/-!
# The steps of `execute`

What `prepareComputeArgs` and `quiesceComputeArgs` do, as far as the surfaces of the server, the
launches of kernels and the arguments that are read back go, for whatever becomes of their calls.
-/

namespace VMAccel

open StepSystem EventLog

namespace Host

variable {h : Host} {cl : Bool}

/-- The number of kernels that have run. -/
def launches (h : Host) : ℕ :=
  h.trace.countP fun
    | .ran _ => true
    | _ => false

structure Quiet (h h' : Host) : Prop where
  active : h'.backend.surfaceIds = h.backend.surfaceIds
  launches : h'.launches = h.launches

theorem Quiet.refl (h : Host) : Quiet h h := ⟨rfl, rfl⟩

theorem Quiet.trans {h' h'' : Host} (hq : Quiet h h') (hq' : Quiet h' h'') : Quiet h h'' :=
  ⟨hq'.active.trans hq.active, hq'.launches.trans hq.launches⟩

theorem surfacealloc_active {argp : SurfaceAllocateDesc} {svmCapable : Bool} {fresh : ℕ → Byte}
    {q : StatusCode × Host} (hq : h.surfacealloc argp svmCapable cl fresh = .ok q) :
    q.2.launches = h.launches ∧
      (∀ id, q.2.backend.surfaceIds.Active id ↔
        h.backend.surfaceIds.Active id ∨ id = argp.sid ∧ q.1 = .success) ∧
      (q.1 = .success → ¬ h.backend.surfaceIds.Active argp.sid) := by
  obtain ⟨r, hr, hq⟩ := bind_eq_ok.mp hq
  cases hq
  refine ⟨rfl, ?_⟩
  rcases Backend.surfacealloc_ok hr with ⟨hne, heq⟩ | ⟨hsuccess, hnot, -, hids, -⟩
  · refine ⟨fun id => ?_, fun hs => absurd hs hne⟩
    rw [heq, or_iff_left fun hid => hne hid.2]
  · refine ⟨fun id => ?_, fun _ => hnot⟩
    rw [and_iff_left hsuccess]
    exact hids id

theorem quiet_surfacemap {argp : SurfaceMapOp} {q : (StatusCode × Option HostPtr) × Host}
    (hq : h.surfacemap argp cl = .ok q) : Quiet h q.2 := by
  obtain ⟨r, hr, hq⟩ := bind_eq_ok.mp hq
  cases hq
  obtain ⟨desc, x, -, -, ⟨-, rfl⟩ | ⟨-, -, ⟨-, rfl⟩ | ⟨ptr, -, rfl⟩⟩⟩ := Backend.surfacemap_ok hr
  · exact ⟨rfl, rfl⟩
  · exact ⟨rfl, rfl⟩
  · exact ⟨rfl, rfl⟩

theorem quiet_surfaceunmap {argp : SurfaceUnmapOp} {q : StatusCode × Host}
    (hq : h.surfaceunmap argp cl = .ok q) : Quiet h q.2 := by
  obtain ⟨r, hr, hq⟩ := bind_eq_ok.mp hq
  cases hq
  obtain ⟨desc, x, y, -, -, -, rfl⟩ := Backend.surfaceunmap_ok hr
  refine ⟨rfl, ?_⟩
  unfold launches record
  dsimp only
  split_ifs
  · exact List.countP_cons_of_neg (by simp)
  · rfl

theorem dispatch_launches {argp : DispatchOp} {q : StatusCode × Host}
    (hq : h.dispatch argp cl = .ok q) : q.2.backend.surfaceIds = h.backend.surfaceIds ∧
      q.2.launches = h.launches + if q.1 = .success then 1 else 0 := by
  obtain ⟨r, hr, hq⟩ := bind_eq_ok.mp hq
  cases hq
  constructor
  · rcases Backend.dispatch_ok hr with ⟨-, heq⟩ | ⟨contents, -, rfl⟩
    · exact congrArg _ heq
    · rfl
  · unfold launches record
    dsimp only
    split_ifs
    · exact List.countP_cons_of_pos rfl
    · rfl

theorem surfacedestroy_active {sid : VMAccelId} {q : StatusCode × Host}
    (hq : h.surfacedestroy sid = .ok q) : q.2.launches = h.launches ∧
      ∀ id, q.2.backend.surfaceIds.Active id ↔ h.backend.surfaceIds.Active id ∧ id ≠ sid := by
  obtain ⟨r, hr, hq⟩ := bind_eq_ok.mp hq
  cases hq
  obtain ⟨hact, rfl⟩ := Backend.surfacedestroy_eq hr
  refine ⟨rfl, fun id => ?_⟩
  refine (IdentifierDB.active_give (IdentifierDB.bit_lt_length hact.2) id).trans ?_
  exact and_congr_right fun _ => not_congr BitVec.toNat_inj

end Host

theorem Answer.call_effect {ρ : Type} {answer : Answer} {h : Host}
    {handler : Host → Bool → Except Fault (ρ × Host)} {refusal : StatusCode → ρ}
    (status : ρ → StatusCode) {r : Option ρ × Host} (hr : answer.call h handler refusal = .ok r) :
    (r.2 = h ∧ answer.effect h handler status = none) ∨
      ∃ cl q, handler h cl = .ok q ∧ r.2 = q.2 ∧
        answer.effect h handler status = some (status q.1) := by
  rcases answer with (_ | cl) | ⟨_, _⟩ | cl
  · cases hr
    exact Or.inl ⟨rfl, rfl⟩
  · obtain ⟨q, hq, hr⟩ := bind_eq_ok.mp hr
    cases hr
    exact Or.inr ⟨cl, q, hq, rfl, by rw [effect, hq]; rfl⟩
  · cases hr
    exact Or.inl ⟨rfl, rfl⟩
  · obtain ⟨q, hq, hr⟩ := bind_eq_ok.mp hr
    cases hr
    exact Or.inr ⟨cl, q, hq, rfl, by rw [effect, hq]; rfl⟩

namespace Execute

open Logged

/-- What becomes of each call that `execute` can make. -/
abbrev Exchanges := ServerCall → ServerExchange

variable {net : ExecuteNet} {h : Host} {i : ℕ} {arg : ExecuteArg} {args : List ExecuteArg}
  {ex : Exchanges}

theorem under_call {ρ : Type} {c : ServerCall} {answer : Answer}
    {handler : Host → Bool → Except Fault (ρ × Host)} {refusal : StatusCode → ρ}
    {status : ρ → StatusCode} {Q : Option ρ × Host → Prop}
    (hcall : ∀ r, answer.call h handler refusal = .ok r →
      (ex c).reply = r.1.map status → (ex c).effect = answer.effect h handler status → Q r) :
    (call c answer h handler refusal status).Under ex Q := by
  refine under_lift_bind fun r hr => ?_
  refine (under_tell (Q := fun _ => Q r) fun he => ?_).bind fun _ hQ => under_pure hQ
  exact hcall r hr (by rw [he]) (by rw [he])

theorem quiet_call {ρ : Type} {answer : Answer}
    {handler : Host → Bool → Except Fault (ρ × Host)} {refusal : StatusCode → ρ}
    {r : Option ρ × Host} (hr : answer.call h handler refusal = .ok r)
    (hquiet : ∀ cl q, handler h cl = .ok q → Host.Quiet h q.2) : Host.Quiet h r.2 :=
  Answer.call_invariant (P := Host.Quiet h) hr (.refl h) hquiet

theorem under_surfacemap (c : ServerCall) (answer : Answer) (h : Host) (argp : SurfaceMapOp) :
    (call c answer h (fun h cl => h.surfacemap argp cl) (·, none) Prod.fst).Under ex
      fun m => (ex c).reply = m.1.map Prod.fst ∧ Host.Quiet h m.2 :=
  under_call fun _ hm hreply _ => ⟨hreply, quiet_call hm fun _ _ => Host.quiet_surfacemap⟩

theorem under_surfaceunmap (c : ServerCall) (answer : Answer) (h : Host) (argp : SurfaceUnmapOp) :
    (call c answer h (fun h cl => h.surfaceunmap argp cl) id id).Under ex
      fun u => (ex c).reply = u.1 ∧ Host.Quiet h u.2 :=
  under_call fun _ hu hreply _ =>
    ⟨hreply.trans Option.map_id', quiet_call hu fun _ _ => Host.quiet_surfaceunmap⟩

theorem map_fst_ne_success {mapped : Option (StatusCode × Option HostPtr)}
    (hfails : ∀ ptr, mapped = some (.success, ptr) → False) :
    mapped.map Prod.fst ≠ some .success := by
  intro heq
  obtain ⟨⟨status, ptr⟩, hmapped, rfl⟩ := Option.map_eq_some_iff.mp heq
  exact hfails ptr hmapped

def Made (ex : Exchanges) (i : ℕ) : Prop := (ex (.surfacealloc i)).effect = some .success

/-- The replies with which `prepareComputeArgs` goes on to the next argument. -/
def Prepared (ex : Exchanges) (i : ℕ) : Prop :=
  (ex (.surfacealloc i)).reply ≠ none ∧ (ex (.surfacemap i)).reply = some .success ∧
    (ex (.surfaceunmap i)).reply ≠ none

/-- What an allocation does to the surfaces. -/
structure Allocates (ex : Exchanges) (i : ℕ) (h h' : Host) : Prop where
  launches : h'.launches = h.launches
  active : ∀ id, h'.backend.surfaceIds.Active id ↔
    h.backend.surfaceIds.Active id ∨ id = BitVec.ofNat 32 i ∧ Made ex i
  fresh : Made ex i → ¬ h.backend.surfaceIds.Active (BitVec.ofNat 32 i)

theorem Allocates.quiet {h' h'' : Host} (ha : Allocates ex i h h') (hq : Host.Quiet h' h'') :
    Allocates ex i h h'' where
  launches := hq.launches.trans ha.launches
  active := hq.active ▸ ha.active
  fresh := ha.fresh

theorem allocates_call {answer : Answer} {argp : SurfaceAllocateDesc} {svmCapable : Bool}
    {fresh : ℕ → Byte} {r : Option StatusCode × Host} (hsid : argp.sid = BitVec.ofNat 32 i)
    (hr : answer.call h (fun h cl => h.surfacealloc argp svmCapable cl fresh) id = .ok r)
    (heffect : (ex (.surfacealloc i)).effect =
      answer.effect h (fun h cl => h.surfacealloc argp svmCapable cl fresh) id) :
    Allocates ex i h r.2 := by
  rcases Answer.call_effect id hr with ⟨heq, hnone⟩ | ⟨cl, q, hq, heq, hsome⟩
  · have hmade : ¬ Made ex i := by
      rw [Made, heffect, hnone]
      simp
    rw [heq]
    exact ⟨rfl, fun id => (or_iff_left fun hid => hmade hid.2).symm, fun hm => absurd hm hmade⟩
  · have hmade : Made ex i ↔ q.1 = .success := by
      rw [Made, heffect, hsome]
      exact Option.some_inj
    obtain ⟨hlaunches, hactive, hfresh⟩ := Host.surfacealloc_active hq
    rw [heq]
    refine ⟨hlaunches, fun id => ?_, fun hm => ?_⟩
    · rw [hmade, ← hsid]
      exact hactive id
    · rw [← hsid]
      exact hfresh (hmade.mp hm)

/-- What `prepareComputeArgs` does for one argument. -/
structure PreparesArg (ex : Exchanges) (i : ℕ) (h : Host) (r : Option KernelArg × Host) :
    Prop where
  allocates : Allocates ex i h r.2
  prepared : r.1 ≠ none ↔ Prepared ex i
  sid : ∀ kernelArg ∈ r.1, kernelArg.sid = BitVec.ofNat 32 i

theorem Allocates.stops {h' : Host} (ha : Allocates ex i h h') (hnot : ¬ Prepared ex i) :
    PreparesArg ex i h (none, h') :=
  ⟨ha, iff_of_false (not_not.mpr rfl) hnot, fun _ hmem => by cases hmem⟩

theorem under_prepareArg (net : ExecuteNet) (h : Host) (i : ℕ) (arg : ExecuteArg) :
    (prepareArg net h i arg).Under ex (PreparesArg ex i h) := by
  refine (under_call (Q := fun r => (ex (.surfacealloc i)).reply = r.1 ∧ Allocates ex i h r.2)
    fun r hr hreply heffect => ⟨hreply.trans Option.map_id', ?_⟩).bind ?_
  · exact allocates_call rfl hr heffect
  rintro ⟨reply, h'⟩ ⟨halloc, ha⟩
  cases reply with
  | none => exact under_pure (ha.stops fun hp => hp.1 halloc)
  | some status =>
    refine (under_surfacemap (.surfacemap i) _ h' _).bind ?_
    rintro ⟨mapped, h''⟩ ⟨hmap, hquiet⟩
    have ha := ha.quiet hquiet
    dsimp only
    split
    · refine under_lift_bind fun _ _ => ?_
      refine (under_surfaceunmap (.surfaceunmap i) _ h'' _).bind ?_
      rintro ⟨unmapped, h₃⟩ ⟨hunmap, hquiet⟩
      have ha := ha.quiet hquiet
      cases unmapped with
      | none => exact under_pure (ha.stops fun hp => hp.2.2 hunmap)
      | some _ =>
        have halloc := ne_of_eq_of_ne halloc (Option.some_ne_none _)
        have hunmap := ne_of_eq_of_ne hunmap (Option.some_ne_none _)
        refine under_pure ⟨ha, iff_of_true (Option.some_ne_none _) ⟨halloc, hmap, hunmap⟩, ?_⟩
        rintro _ ⟨⟩
        rfl
    · rename_i hfails
      refine under_lift_bind fun _ _ => ?_
      exact under_pure (ha.stops fun hp => map_fst_ne_success hfails (hmap.symm.trans hp.2.1))

/-- What `prepareComputeArgs` does for the `n` arguments from `i` on. -/
structure Prepares (ex : Exchanges) (i n : ℕ) (h : Host) (r : Option (List KernelArg) × Host) :
    Prop where
  launches : r.2.launches = h.launches
  prepared : r.1 ≠ none ↔ ∀ k < n, Prepared ex (i + k)
  sids : ∀ kernelArgs ∈ r.1,
    kernelArgs.map KernelArg.sid = (List.range' i n).map (BitVec.ofNat 32)
  active : r.1 ≠ none → ∀ id, r.2.backend.surfaceIds.Active id ↔
    h.backend.surfaceIds.Active id ∨ ∃ k < n, id = BitVec.ofNat 32 (i + k) ∧ Made ex (i + k)
  fresh : r.1 ≠ none → ∀ k < n, Made ex (i + k) →
    ¬ h.backend.surfaceIds.Active (BitVec.ofNat 32 (i + k))

theorem prepares_stop {n : ℕ} {h' : Host} (hlaunches : h'.launches = h.launches)
    (hnot : ¬ ∀ k < n, Prepared ex (i + k)) : Prepares ex i n h (none, h') where
  launches := hlaunches
  prepared := iff_of_false (not_not.mpr rfl) hnot
  sids _ hmem := by cases hmem
  active hne := absurd rfl hne
  fresh hne := absurd rfl hne

theorem forall_lt_succ_add {P : ℕ → Prop} {n : ℕ} :
    (∀ k < n + 1, P (i + k)) ↔ P i ∧ ∀ k < n, P (i + 1 + k) := by
  rw [Nat.forall_lt_succ_left]
  simp only [Nat.add_zero, Nat.add_right_comm i 1, Nat.add_assoc]

theorem exists_lt_succ_add {P : ℕ → Prop} {n : ℕ} :
    (∃ k < n + 1, P (i + k)) ↔ P i ∨ ∃ k < n, P (i + 1 + k) := by
  rw [Nat.exists_lt_succ_left]
  simp only [Nat.add_zero, Nat.add_right_comm i 1, Nat.add_assoc]

theorem PreparesArg.cons {n : ℕ} {kernelArg : KernelArg} {kernelArgs : List KernelArg}
    {h' h'' : Host} (hp : PreparesArg ex i h (some kernelArg, h'))
    (hps : Prepares ex (i + 1) n h' (some kernelArgs, h'')) :
    Prepares ex i (n + 1) h (some (kernelArg :: kernelArgs), h'') where
  launches := hps.launches.trans hp.allocates.launches
  prepared := by
    rw [forall_lt_succ_add (P := Prepared ex), ← hp.prepared, ← hps.prepared]
    simp
  sids := by
    rintro _ ⟨⟩
    rw [List.map_cons, List.range'_succ, List.map_cons, hp.sid _ rfl, hps.sids _ rfl]
  active _ id := by
    rw [exists_lt_succ_add (P := fun j => id = BitVec.ofNat 32 j ∧ Made ex j), ← or_assoc,
      ← hp.allocates.active id]
    exact hps.active (Option.some_ne_none _) id
  fresh _ := by
    refine forall_lt_succ_add (P := fun j => Made ex j →
      ¬ h.backend.surfaceIds.Active (BitVec.ofNat 32 j)).mpr ⟨hp.allocates.fresh, ?_⟩
    intro k hk hmade hact
    refine hps.fresh (Option.some_ne_none _) k hk hmade ?_
    exact (hp.allocates.active _).mpr (Or.inl hact)

theorem under_prepareComputeArgs (net : ExecuteNet) (h : Host) (i : ℕ)
    (args : List ExecuteArg) :
    (prepareComputeArgs net h i args).Under ex (Prepares ex i args.length h) := by
  induction args generalizing h i with
  | nil =>
    refine under_pure ⟨rfl, iff_of_true (Option.some_ne_none _) ?_, ?_, ?_, ?_⟩
    · exact fun k hk => absurd hk (Nat.not_lt_zero k)
    · rintro _ ⟨⟩
      rfl
    · refine fun _ id => (or_iff_left ?_).symm
      rintro ⟨k, hk, -⟩
      exact Nat.not_lt_zero k hk
    · exact fun _ k hk => absurd hk (Nat.not_lt_zero k)
  | cons arg args ih =>
    refine (under_prepareArg net h i arg).bind ?_
    rintro ⟨o, h'⟩ hp
    cases o with
    | none =>
      refine under_pure (prepares_stop hp.allocates.launches fun hall => ?_)
      exact hp.prepared.mpr (hall 0 (Nat.succ_pos _)) rfl
    | some kernelArg =>
      refine (ih h' (i + 1)).bind ?_
      rintro ⟨o, h''⟩ hps
      cases o with
      | none =>
        refine under_pure (prepares_stop (hps.launches.trans hp.allocates.launches) fun hall => ?_)
        exact hps.prepared.mpr (forall_lt_succ_add.mp hall).2 rfl
      | some kernelArgs => exact under_pure (hp.cons hps)

def Unmapped (ex : Exchanges) (i : ℕ) (arg : ExecuteArg) : Prop :=
  arg.usage ≠ .readonly → (ex (.readmap i)).reply = some .success →
    (ex (.readunmap i)).reply ≠ none

/-- The replies with which `quiesceComputeArgs` goes on to the next argument. -/
def Settled (ex : Exchanges) (i : ℕ) (arg : ExecuteArg) : Prop :=
  Unmapped ex i arg ∧ (ex (.surfacedestroy i)).reply ≠ none

def Gone (ex : Exchanges) (i : ℕ) (arg : ExecuteArg) : Prop :=
  Unmapped ex i arg ∧ (ex (.surfacedestroy i)).effect ≠ none

def Copied (ex : Exchanges) (i : ℕ) (arg : ExecuteArg) : Prop :=
  arg.usage ≠ .readonly ∧ (ex (.readmap i)).reply = some .success

theorem under_readBack (net : ExecuteNet) (h : Host) (i : ℕ) (kernelArg : KernelArg)
    (husage : arg.usage ≠ .readonly) :
    (readBack net h i arg kernelArg).Under ex fun r => Host.Quiet h r.2.2 ∧
      (r.1 = true ↔ Unmapped ex i arg) ∧ (r.2.1 ≠ none ↔ Copied ex i arg) := by
  refine (under_surfacemap (.readmap i) _ h _).bind ?_
  rintro ⟨mapped, h'⟩ ⟨hmap, hquiet⟩
  dsimp only
  split
  · have hsuccess : (ex (.readmap i)).reply = some .success := hmap
    refine under_lift_bind fun bytes _ => ?_
    refine (under_surfaceunmap (.readunmap i) _ h' _).bind ?_
    rintro ⟨unmapped, h''⟩ ⟨hunmap, hquiet'⟩
    refine under_pure ⟨hquiet.trans hquiet', ?_, ?_⟩
    · rw [Unmapped, hunmap, Option.isSome_iff_ne_none]
      exact ⟨fun hne _ _ => hne, fun hne => hne husage hsuccess⟩
    · exact iff_of_true (Option.some_ne_none _) ⟨husage, hsuccess⟩
  · rename_i hfails
    have hnot : (ex (.readmap i)).reply ≠ some .success := hmap ▸ map_fst_ne_success hfails
    refine under_pure ⟨hquiet, iff_of_true rfl fun _ hs => absurd hs hnot, ?_⟩
    exact iff_of_false (not_not.mpr rfl) fun hc => hnot hc.2

theorem destroyed_call {answer : Answer} {sid : VMAccelId} {r : Option StatusCode × Host}
    (hr : answer.call h (fun h _ => h.surfacedestroy sid) id = .ok r) :
    r.2.launches = h.launches ∧ ∀ id', r.2.backend.surfaceIds.Active id' ↔
      h.backend.surfaceIds.Active id' ∧
        ¬ (id' = sid ∧ answer.effect h (fun h _ => h.surfacedestroy sid) id ≠ none) := by
  rcases Answer.call_effect id hr with ⟨heq, hnone⟩ | ⟨cl, q, hq, heq, hsome⟩
  · rw [heq]
    exact ⟨rfl, fun id' => (and_iff_left fun hid => hid.2 hnone).symm⟩
  · obtain ⟨hlaunches, hactive⟩ := Host.surfacedestroy_active hq
    rw [heq, hsome]
    refine ⟨hlaunches, fun id' => (hactive id').trans (and_congr_right fun _ => ?_)⟩
    rw [and_iff_left (Option.some_ne_none _)]

/-- What `quiesceComputeArgs` does for one argument. -/
structure QuiescesArg (ex : Exchanges) (i : ℕ) (arg : ExecuteArg) (h : Host)
    (r : Bool × Option (List Byte) × Host) : Prop where
  launches : r.2.2.launches = h.launches
  settled : r.1 = true ↔ Settled ex i arg
  copied : r.2.1 ≠ none ↔ Copied ex i arg
  active : ∀ id, r.2.2.backend.surfaceIds.Active id ↔
    h.backend.surfaceIds.Active id ∧ ¬ (id = BitVec.ofNat 32 i ∧ Gone ex i arg)

theorem under_quiesceArg (net : ExecuteNet) (h : Host) {kernelArg : KernelArg}
    (hsid : kernelArg.sid = BitVec.ofNat 32 i) (hvalid : kernelArg.sid ≠ invalidId) :
    (quiesceArg net h i arg kernelArg).Under ex (QuiescesArg ex i arg h) := by
  unfold quiesceArg
  rw [if_neg hvalid]
  -- an argument that the kernel cannot write is not mapped
  have hread : (if arg.usage = .readonly then pure (true, none, h)
      else readBack net h i arg kernelArg).Under ex fun r => Host.Quiet h r.2.2 ∧
        (r.1 = true ↔ Unmapped ex i arg) ∧ (r.2.1 ≠ none ↔ Copied ex i arg) := by
    split_ifs with husage
    · refine under_pure ⟨.refl h, iff_of_true rfl fun hne => absurd husage hne, ?_⟩
      exact iff_of_false (not_not.mpr rfl) fun hc => hc.1 husage
    · exact under_readBack net h i kernelArg husage
  refine hread.bind ?_
  rintro ⟨b, bytes, h'⟩ ⟨hquiet, hunmapped, hcopied⟩
  cases b with
  | false =>
    have hnot : ¬ Unmapped ex i arg := fun hu => Bool.false_ne_true (hunmapped.mpr hu)
    refine under_pure ⟨hquiet.launches, iff_of_false Bool.false_ne_true fun hs => hnot hs.1,
      hcopied, fun id => ?_⟩
    rw [and_iff_left fun hid => hnot hid.2.1]
    exact hquiet.active ▸ Iff.rfl
  | true =>
    have hu : Unmapped ex i arg := hunmapped.mp rfl
    refine (under_call (Q := fun d => (ex (.surfacedestroy i)).reply = d.1 ∧
      d.2.launches = h'.launches ∧ ∀ id, d.2.backend.surfaceIds.Active id ↔
        h'.backend.surfaceIds.Active id ∧ ¬ (id = kernelArg.sid ∧
          (ex (.surfacedestroy i)).effect ≠ none))
      fun d hd hreply heffect => ⟨hreply.trans Option.map_id', ?_⟩).bind ?_
    · rw [heffect]
      exact destroyed_call hd
    rintro ⟨reply, h''⟩ ⟨hreply, hlaunches, hactive⟩
    refine under_pure ⟨hlaunches.trans hquiet.launches, ?_, hcopied, fun id => ?_⟩
    · rw [Settled, and_iff_right hu, hreply]
      exact Option.isSome_iff_ne_none
    · rw [Gone, and_iff_right hu, ← hsid, ← hquiet.active]
      exact hactive id

/-- `quiesceComputeArgs` from argument `i` on gets to the one `k` places further. -/
def Reached (ex : Exchanges) (i : ℕ) (args : List ExecuteArg) (k : ℕ) : Prop :=
  ∀ j < k, ∀ arg ∈ args[j]?, Settled ex (i + j) arg

theorem reached_zero : Reached ex i args 0 := fun j hj => absurd hj (Nat.not_lt_zero j)

theorem reached_succ {k : ℕ} : Reached ex i (arg :: args) (k + 1) ↔
    Settled ex i arg ∧ Reached ex (i + 1) args k := by
  unfold Reached
  rw [Nat.forall_lt_succ_left]
  simp [Nat.add_right_comm i 1, Nat.add_assoc]

def ReadBack (args : List ExecuteArg) (os : List (Option (List Byte))) : Prop :=
  List.Forall₂ (fun arg o => arg.usage ≠ .readonly → o ≠ none) args os

theorem readBack_none : ReadBack args (args.map fun _ => none) ↔
    ∀ (k : ℕ) (arg : ExecuteArg), args[k]? = some arg → arg.usage = .readonly := by
  rw [ReadBack, List.forall₂_map_right_iff, List.forall₂_same]
  simp only [ne_eq, not_true_eq_false, imp_false, not_not, List.mem_iff_getElem?]
  exact ⟨fun hall k arg hk => hall arg ⟨k, hk⟩, fun hall arg ⟨k, hk⟩ => hall k arg hk⟩

section Indexed

variable {P : ℕ → ExecuteArg → Prop}

theorem forall_getElem?_cons : (∀ k a, (arg :: args)[k]? = some a → P k a) ↔
    P 0 arg ∧ ∀ k a, args[k]? = some a → P (k + 1) a := by
  constructor
  · exact fun hall => ⟨hall 0 arg rfl, fun k a ha => hall (k + 1) a ha⟩
  · rintro ⟨h0, hall⟩ k a ha
    rcases k with _ | k
    · cases ha
      exact h0
    · exact hall k a ha

theorem exists_getElem?_cons : (∃ k a, (arg :: args)[k]? = some a ∧ P k a) ↔
    P 0 arg ∨ ∃ k a, args[k]? = some a ∧ P (k + 1) a := by
  constructor
  · rintro ⟨k, a, ha, hP⟩
    rcases k with _ | k
    · cases ha
      exact Or.inl hP
    · exact Or.inr ⟨k, a, ha, hP⟩
  · rintro (h0 | ⟨k, a, ha, hP⟩)
    · exact ⟨0, arg, rfl, h0⟩
    · exact ⟨k + 1, a, ha, hP⟩

end Indexed

/-- What `quiesceComputeArgs` does for the arguments from `i` on. -/
structure Quiesces (ex : Exchanges) (i : ℕ) (args : List ExecuteArg) (h : Host)
    (r : List (Option (List Byte)) × Host) : Prop where
  launches : r.2.launches = h.launches
  readBack : ReadBack args r.1 ↔ ∀ k arg, args[k]? = some arg → arg.usage ≠ .readonly →
    Reached ex i args k ∧ (ex (.readmap (i + k))).reply = some .success
  active : ∀ id, r.2.backend.surfaceIds.Active id ↔ h.backend.surfaceIds.Active id ∧
    ¬ ∃ k arg, args[k]? = some arg ∧ id = BitVec.ofNat 32 (i + k) ∧ Reached ex i args k ∧
      Gone ex (i + k) arg

theorem QuiescesArg.read {r : Bool × Option (List Byte) × Host} (hq : QuiescesArg ex i arg h r) :
    (arg.usage ≠ .readonly → r.2.1 ≠ none) ↔ (arg.usage ≠ .readonly →
      Reached ex i (arg :: args) 0 ∧ (ex (.readmap (i + 0))).reply = some .success) := by
  rw [and_iff_right reached_zero, Nat.add_zero]
  exact forall_congr' fun husage => hq.copied.trans (and_iff_right husage)

theorem QuiescesArg.stop {o : Option (List Byte)} {h' : Host}
    (hq : QuiescesArg ex i arg h (false, o, h')) :
    Quiesces ex i (arg :: args) h (o :: args.map fun _ => none, h') := by
  have hnot : ∀ k, ¬ Reached ex i (arg :: args) (k + 1) := fun k hr =>
    Bool.false_ne_true (hq.settled.mpr (reached_succ.mp hr).1)
  refine ⟨hq.launches, ?_, fun id => ?_⟩
  · rw [forall_getElem?_cons, ReadBack, List.forall₂_cons]
    refine and_congr hq.read (readBack_none.trans (forall₃_congr fun k a _ => ?_))
    rw [← not_ne_iff]
    exact forall_congr' fun _ => iff_of_false id fun hr => hnot k hr.1
  · rw [exists_getElem?_cons, or_iff_left, hq.active id]
    · simp only [reached_zero, true_and, Nat.add_zero]
    · rintro ⟨k, a, -, -, hr, -⟩
      exact hnot k hr

theorem QuiescesArg.cons {o : Option (List Byte)} {os : List (Option (List Byte))} {h' h'' : Host}
    (hq : QuiescesArg ex i arg h (true, o, h')) (hqs : Quiesces ex (i + 1) args h' (os, h'')) :
    Quiesces ex i (arg :: args) h (o :: os, h'') := by
  have hreached : ∀ k, Reached ex i (arg :: args) (k + 1) ↔ Reached ex (i + 1) args k := fun k =>
    reached_succ.trans (and_iff_right (hq.settled.mp rfl))
  refine ⟨hqs.launches.trans hq.launches, ?_, fun id => ?_⟩
  · rw [forall_getElem?_cons, ReadBack, List.forall₂_cons]
    refine and_congr hq.read (hqs.readBack.trans ?_)
    simp only [hreached, Nat.add_right_comm i 1, Nat.add_assoc]
  · rw [exists_getElem?_cons, not_or, ← and_assoc, hqs.active id, hq.active id]
    simp only [reached_zero, hreached, true_and, Nat.add_zero, Nat.add_right_comm i 1,
      Nat.add_assoc]

theorem ofNat_ne_invalidId {n : ℕ} (hn : n + 1 < 2 ^ 32) : BitVec.ofNat 32 n ≠ invalidId := by
  intro heq
  have hnat := congrArg BitVec.toNat heq
  rw [BitVec.toNat_ofNat, Nat.mod_eq_of_lt (by omega)] at hnat
  change n = 2 ^ 32 - 1 at hnat
  omega

theorem under_quiesceComputeArgs (net : ExecuteNet) (h : Host) (i : ℕ)
    {ps : List (ExecuteArg × KernelArg)} (hn : i + ps.length < 2 ^ 32)
    (hsids : ps.map (fun p => p.2.sid) = (List.range' i ps.length).map (BitVec.ofNat 32)) :
    (quiesceComputeArgs net h i ps).Under ex (Quiesces ex i (ps.map Prod.fst) h) := by
  induction ps generalizing h i with
  | nil =>
    refine under_pure ⟨rfl, iff_of_true .nil ?_, fun id => (and_iff_left ?_).symm⟩
    · exact fun k arg hk => absurd hk (by simp)
    · rintro ⟨k, arg, hk, -⟩
      exact absurd hk (by simp)
  | cons p ps ih =>
    rw [List.length_cons, List.range'_succ, List.map_cons, List.map_cons, List.cons.injEq] at hsids
    rw [List.length_cons] at hn
    have hvalid : p.2.sid ≠ invalidId := hsids.1 ▸ ofNat_ne_invalidId (by omega)
    refine (under_quiesceArg net h hsids.1 hvalid).bind ?_
    rintro ⟨b, o, h'⟩ hq
    cases b with
    | false =>
      have hstop : Quiesces ex i (p.1 :: ps.map Prod.fst) h
          (o :: (ps.map Prod.fst).map fun _ => none, h') := hq.stop
      rw [List.map_map] at hstop
      exact under_pure hstop
    | true =>
      exact (ih h' (i + 1) (by omega) hsids.2).bind fun _ hqs => under_pure (hq.cons hqs)

end Execute

end VMAccel
