import VMAccel.SpirvCloner

/-!
# The transcoding service

`vmxc_xcode_1_svc` of `vmxc_server.c` in the release build: a request for the language that the
kernel is in has the kernel cloned, and every other target is unsupported. The reply is a static
variable that each request clears to zero, which is `VMXC_SUCCESS`, and the pointer to it in the
result is set by the first request for cloning and never reset. A source is given by its whole
words.
-/

namespace VMAccel

open StepSystem

/-- `VMXCStatusCodeEnum`. -/
inductive VMXCStatusCode
  | success
  | fail
  | semanticError
  | linkError
  deriving DecidableEq

/-- `VMXCKernelDesc`, as far as the service reads or sets it. -/
structure VMXCKernelDesc where
  language : BitVec 32
  source : List Word

structure VMXCodeOp where
  targetLanguage : BitVec 32
  kernel : VMXCKernelDesc

structure VMXCStatus where
  status : VMXCStatusCode
  kernel : VMXCKernelDesc

/-- What `memset` makes of it. -/
def VMXCStatus.zero : VMXCStatus := ⟨.success, ⟨0, []⟩⟩

/-- The static variables of `vmxc_xcode_1_svc`: whether `result` has a pointer to `ret`. -/
structure Transcoder where
  pointed : Bool
  ret : VMXCStatus

namespace Transcoder

/-- A request with what `malloc` finds in memory. -/
structure Request where
  argp : VMXCodeOp
  fresh : ℕ → Word

namespace Request

/-- `malloc(argp->kernel.source.source_len)`. -/
def malloc (r : Request) : List Word := (List.range r.argp.kernel.source.length).map r.fresh

/-- The target is the language that the kernel is in. -/
def Identity (r : Request) : Prop := r.argp.targetLanguage = r.argp.kernel.language

instance (r : Request) : Decidable r.Identity := inferInstanceAs (Decidable (_ = _))

/-- The cloner validates the input, parses it and validates the output. -/
def Cloned (tools : SPIRVTools) (r : Request) : Prop :=
  ∃ out, VMXCSPIRVCloner.run tools r.argp.kernel.source r.malloc = .ok (.success, out)

end Request

/-- The service before the first request. -/
def new : Transcoder := ⟨false, .zero⟩

/-- `vmxc_xcode_1_svc`. -/
def xcode (tools : SPIRVTools) (s : Transcoder) (r : Request) : Except Fault Transcoder :=
  if r.argp.targetLanguage = r.argp.kernel.language then do
    let (result, out) ← vmxcSpirvClone tools r.argp.kernel.source r.malloc
    return ⟨true, ⟨if result ≠ .success then .fail else .success,
      { VMXCStatus.zero.kernel with source := out }⟩⟩
  -- No branch is left for this target: `result` stays what an earlier request has made of it.
  else .ok { s with ret := .zero }

/-- What is sent of the result: nothing, when the pointer is `NULL`. -/
def reply (s : Transcoder) : Option VMXCStatus := if s.pointed then some s.ret else none

/-- A reply with `VMXC_SUCCESS` is to a request for cloning that went through. -/
def Honest (tools : SPIRVTools) (s : Transcoder) (r : Request) : Prop :=
  ∀ s', s.xcode tools r = .ok s' → (∃ ret ∈ s'.reply, ret.status = .success) →
    r.Identity ∧ r.Cloned tools

variable {tools : SPIRVTools} {s s' : Transcoder} {r : Request}

theorem xcode_ok (hr : s.xcode tools r = .ok s') :
    s'.ret.status = .success ∧ (s'.pointed = true ↔ s.pointed = true ∨ r.Identity) := by
  unfold xcode at hr
  split_ifs at hr with hid
  · obtain ⟨clone, hclone, hs⟩ := bind_eq_ok.mp hr
    obtain ⟨_, -, hok⟩ := bind_eq_ok.mp hclone
    cases hok
    cases hs
    exact ⟨rfl, iff_of_true rfl (Or.inr hid)⟩
  · cases hr
    exact ⟨rfl, (or_iff_left hid).symm⟩

theorem succeeds_iff (hr : s.xcode tools r = .ok s') :
    (∃ ret ∈ s'.reply, ret.status = .success) ↔ s.pointed = true ∨ r.Identity := by
  obtain ⟨hstatus, hpointed⟩ := xcode_ok hr
  rw [← hpointed, reply]
  split_ifs with h
  · exact iff_of_true ⟨s'.ret, rfl, hstatus⟩ h
  · refine iff_of_false ?_ h
    rintro ⟨_, ⟨⟩, -⟩

theorem honest_iff : s.Honest tools r ↔ (Returns (s.xcode tools r) →
    if r.Identity then r.Cloned tools else ¬ s.pointed = true) := by
  constructor
  · rintro h ⟨s', hs'⟩
    split_ifs with hid
    · exact (h s' hs' ((succeeds_iff hs').mpr (Or.inr hid))).2
    · exact fun hpointed => hid (h s' hs' ((succeeds_iff hs').mpr (Or.inl hpointed))).1
  · intro h s' hs' hsuccess
    have hcase := h ⟨s', hs'⟩
    rw [succeeds_iff hs'] at hsuccess
    split_ifs at hcase with hid
    · exact ⟨hid, hcase⟩
    · exact absurd hsuccess (not_or.mpr ⟨hcase, hid⟩)

theorem run_pointed {rs : List Request} (hrun : run (xcode tools) s rs = .ok s') :
    s'.pointed = true ↔ s.pointed = true ∨ ∃ r ∈ rs, r.Identity := by
  induction rs generalizing s with
  | nil =>
    cases hrun
    exact (or_iff_left fun ⟨_, h, _⟩ => absurd h List.not_mem_nil).symm
  | cons r rs ih =>
    obtain ⟨t, ht, hrest⟩ := run_cons_ok.mp hrun
    rw [ih hrest, (xcode_ok ht).2, List.exists_mem_cons_iff, or_assoc]

theorem not_pointed_iff {rs : List Request} (hrun : run (xcode tools) new rs = .ok s) :
    ¬ s.pointed = true ↔ ∀ r ∈ rs, ¬ r.Identity := by
  rw [run_pointed hrun, or_iff_right (show ¬ new.pointed = true from Bool.false_ne_true)]
  exact ⟨fun h r hr hid => h ⟨r, hr, hid⟩, fun h ⟨r, hr, hid⟩ => h r hr hid⟩

/-- The replies are honest exactly when each kernel that is to be cloned goes through the cloner,
and no unsupported target is asked for after a request for cloning. -/
theorem replies_honest_iff (tools : SPIRVTools) (rs : List Request) :
    EachInput (xcode tools) (Honest tools) new rs ↔
      ∀ before r after, rs = before ++ r :: after →
        Returns (run (xcode tools) new (before ++ [r])) →
        if r.Identity then r.Cloned tools else ∀ r' ∈ before, ¬ r'.Identity := by
  constructor
  · rintro h before r after rfl ⟨s', hs'⟩
    obtain ⟨s, hs, hlast⟩ := run_append_ok.mp hs'
    obtain ⟨t, ht, -⟩ := run_cons_ok.mp hlast
    have hr := honest_iff.mp ((eachInput_append.mp h).2 s hs).1 ⟨t, ht⟩
    rwa [not_pointed_iff hs] at hr
  · intro h
    refine eachInput_of_reached fun before r after s hrs hs => honest_iff.mpr ?_
    rintro ⟨t, ht⟩
    have hr := h before r after hrs
      ⟨t, run_append_ok.mpr ⟨s, hs, run_cons_ok.mpr ⟨t, ht, rfl⟩⟩⟩
    rwa [not_pointed_iff hs]

/-- `VMCL_SPIRV_1_0` is 10 and `VMCL_GLSL` is 1. -/
def requestDemo (targetLanguage language : BitVec 32) (source : List Word) : Request :=
  ⟨⟨targetLanguage, ⟨language, source⟩⟩, fun _ => 0⟩

/-- A word that is no module is reported as cloned, and so is a target that is not supported, once
some kernel has been cloned. -/
theorem dishonest_replies :
    ((∃ s, run (xcode toolsDemo) new [requestDemo 10 10 [0]] = .ok s ∧
        ∃ ret ∈ s.reply, ret.status = .success) ∧
      ¬ (requestDemo 10 10 [0]).Cloned toolsDemo) ∧
    (∃ s, run (xcode toolsDemo) new [requestDemo 10 10 moduleDemo, requestDemo 1 10 moduleDemo] =
        .ok s ∧ ∃ ret ∈ s.reply, ret.status = .success) ∧
      ¬ (requestDemo 1 10 moduleDemo).Identity := by
  refine ⟨⟨by decide, ?_⟩, by decide, by decide⟩
  rintro ⟨out, hout⟩
  cases hout

end Transcoder

end VMAccel
