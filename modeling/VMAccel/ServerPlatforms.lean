import Mathlib.Data.Fintype.Basic
import Mathlib.Data.Prod.Lex
import VMAccel.IdentifierDBSpec
import VMAccel.ServerContexts

/-!
# The versions of the platforms and the capabilities of a context

`vmwopencl_contextalloc_1` reads the version of a platform from a text, checks it against the
SPIR-V capabilities that the request requires, and reports capabilities in its reply. The checks
compare major and minor number one by one, and the capabilities are collected over all the platforms
that the loop looks at. The version that counts is the one that the text states, which the
substring tests of the source do not always read.
-/

namespace VMAccel

open StepSystem IdentifierDB

/-- The SPIR-V capabilities of `VMCLCaps`. -/
inductive SpirvCap
  | spirv10
  | spirv11
  | spirv12
  deriving DecidableEq

namespace SpirvCap

instance : Fintype SpirvCap where
  elems := {.spirv10, .spirv11, .spirv12}
  complete c := by cases c <;> decide

/-- The `VMCLCapsShift`. -/
def shift : SpirvCap → ℕ
  | .spirv10 => 2
  | .spirv11 => 3
  | .spirv12 => 4

def cap (c : SpirvCap) : BitVec 32 := 1 <<< c.shift

def minVersion : SpirvCap → ℕ × ℕ
  | .spirv10 => (2, 1)
  | .spirv11 => (2, 2)
  | .spirv12 => (2, 2)

def SupportedBy (c : SpirvCap) (v : ℕ × ℕ) : Prop := toLex c.minVersion ≤ toLex v

instance (c : SpirvCap) (v : ℕ × ℕ) : Decidable (c.SupportedBy v) :=
  decidable_of_iff _ Prod.Lex.toLex_le_toLex.symm

def In (c : SpirvCap) (caps : BitVec 32) : Prop := caps.getLsbD c.shift = true

instance (c : SpirvCap) (caps : BitVec 32) : Decidable (c.In caps) :=
  inferInstanceAs (Decidable (_ = _))

end SpirvCap

/-- A platform with the text of its version, or `none` if the query fails. -/
structure PlatformInfo where
  version : Option String
  name : Bool
  devices : ℕ → Bool
  createContext : ℕ → Bool

namespace PlatformInfo

def strstr (haystack needle : String) : Bool := decide (needle.toList <:+: haystack.toList)

/-- `majorVersion` and `minorVersion`. -/
def versionOf (platformVersion : String) : ℕ × ℕ :=
  if strstr platformVersion "OpenCL 1.2" then (1, 2)
  else if strstr platformVersion "OpenCL 2.0" then (2, 0)
  else if strstr platformVersion "OpenCL 2." then (2, 1)
  else if strstr platformVersion "OpenCL 3." then (3, 0)
  else (3, 0)

def leadingNumber (cs : List Char) : Option (ℕ × List Char) :=
  let digits := cs.takeWhile Char.isDigit
  if digits = [] then none
  else some (digits.foldl (fun n d => 10 * n + (d.toNat - '0'.toNat)) 0, cs.dropWhile Char.isDigit)

/-- The version that a text of the form `OpenCL <major>.<minor>` states. -/
def statedVersion (platformVersion : String) : Option (ℕ × ℕ) := do
  let rest ← "OpenCL ".toList.isPrefixOf? platformVersion.toList
  let (major, rest) ← leadingNumber rest
  match rest with
  | '.' :: rest =>
    let (minor, _) ← leadingNumber rest
    return (major, minor)
  | _ => none

example : versionOf "OpenCL 2.2" = (2, 1) ∧ statedVersion "OpenCL 2.2" = some (2, 2) := by
  decide +kernel

example : versionOf "OpenCL 1.1" = (3, 0) ∧ statedVersion "OpenCL 1.1 CUDA" = some (1, 1) := by
  decide +kernel

/-- The text states a version that is high enough for the capability. -/
def Supports (platformVersion : String) (c : SpirvCap) : Prop :=
  ∃ v ∈ statedVersion platformVersion, c.SupportedBy v

instance (platformVersion : String) (c : SpirvCap) : Decidable (Supports platformVersion c) :=
  inferInstanceAs (Decidable (∃ _ ∈ _, _))

def toPlatform (p : PlatformInfo) : Platform where
  version := p.version.map versionOf
  name := p.name
  devices := p.devices
  createContext := p.createContext

end PlatformInfo

/-- What the loop over the platforms leaves: `result.caps`, the texts of the versions that it has
looked at, each with whether it passed the checks, and the text of the platform that a context was
created on. -/
structure Selection where
  caps : BitVec 32
  visited : List (String × Bool)
  chosen : Option String
  deriving DecidableEq

namespace Server

open SpirvCap PlatformInfo

/-- The size of `platforms`. -/
def maxPlatforms : ℕ := 16

/-- The checks of a version: whether it passes them, and `result.caps`. -/
def checkCaps (requiredCaps : BitVec 32) (v : ℕ × ℕ) (caps : BitVec 32) : Bool × BitVec 32 :=
  if spirv10.In requiredCaps ∧ (v.1 < 2 ∨ v.2 < 1) then (false, caps)
  else if (spirv11.In requiredCaps ∨ spirv12.In requiredCaps) ∧ (v.1 < 2 ∨ v.2 < 2) then
    (false, caps ||| spirv10.cap)
  else (true, caps ||| spirv10.cap ||| (spirv11.cap ||| spirv12.cap))

/-- The loop over the platforms, with `n` entries of `platforms` left. -/
def selectInfo (argp : ContextAllocateDesc) :
    ℕ → BitVec 32 → List PlatformInfo → Except Fault Selection
  | _, caps, [] => .ok ⟨caps, [], none⟩
  | 0, _, _ :: _ => .error .outOfBounds
  | n + 1, caps, p :: ps =>
    match p.version with
    -- `continue` keeps the capabilities of the platforms before
    | none => selectInfo argp n caps ps
    | some platformVersion => do
      let r := checkCaps argp.requiredCaps (versionOf platformVersion) caps
      let found ← (if r.1 ∧ p.name then selectDevice argp p.toPlatform (List.range selectMax)
        else .ok false)
      if found then return ⟨r.2, [(platformVersion, true)], some platformVersion⟩
      else do
        let q ← selectInfo argp n r.2 ps
        return { q with visited := (platformVersion, r.1) :: q.visited }

/-- `vmwopencl_contextalloc_1` with the capabilities of its reply. No platforms are found if the
query for them fails. -/
def contextallocInfo (s : Server) (argp : ContextAllocateDesc) (platforms : List PlatformInfo) :
    Except Fault ((StatusCode × Selection) × Server) := do
  let active ← s.contextIds.activeId argp.clientId
  if active then return ((.resourceUnavailable, ⟨0, [], none⟩), s)
  else do
    let q ← selectInfo argp maxPlatforms 0 platforms
    match q.chosen with
    | none => return ((.resourceUnavailable, q), s)
    | some platformVersion =>
      let v := versionOf platformVersion
      let r ← occupy s.contexts s.contextIds argp.clientId ⟨some (numSubDevices argp), v.1, v.2⟩
      return ((.success, q), { s with contexts := r.1, contextIds := r.2 })

variable {argp : ContextAllocateDesc} {n : ℕ} {caps requiredCaps : BitVec 32} {v : ℕ × ℕ}

theorem checkCaps_of_hasCaps (h : hasCaps requiredCaps v.1 v.2) : checkCaps requiredCaps v caps =
    (true, caps ||| spirv10.cap ||| (spirv11.cap ||| spirv12.cap)) :=
  (if_neg h.1).trans (if_neg h.2)

theorem checkCaps_fst :
    (checkCaps requiredCaps v caps).1 = true ↔ hasCaps requiredCaps v.1 v.2 := by
  constructor
  · intro h
    unfold checkCaps at h
    split_ifs at h with h10 h11
    exact ⟨h10, h11⟩
  · intro h
    rw [checkCaps_of_hasCaps h]

theorem in_checkCaps (h : hasCaps requiredCaps v.1 v.2) (c : SpirvCap) :
    c.In (checkCaps requiredCaps v caps).2 := by
  rw [checkCaps_of_hasCaps h]
  cases c with
  | spirv10 => simp [In, cap, shift]
  | spirv11 => simp [In, cap, shift]
  | spirv12 => simp [In, cap, shift]

/-- The checks, said of the text: with SPIR-V 1.0 required, the texts pass that `strstr` takes for
version 2.1, and with SPIR-V 1.1 or 1.2 required none does. -/
def Passes (requiredCaps : BitVec 32) (platformVersion : String) : Prop :=
  (spirv10.In requiredCaps → strstr platformVersion "OpenCL 2." = true ∧
      strstr platformVersion "OpenCL 1.2" = false ∧ strstr platformVersion "OpenCL 2.0" = false) ∧
    ¬ spirv11.In requiredCaps ∧ ¬ spirv12.In requiredCaps

instance (requiredCaps : BitVec 32) (platformVersion : String) :
    Decidable (Passes requiredCaps platformVersion) := inferInstanceAs (Decidable (_ ∧ _))

theorem hasCaps_versionOf {platformVersion : String} :
    hasCaps requiredCaps (versionOf platformVersion).1 (versionOf platformVersion).2 ↔
      Passes requiredCaps platformVersion := by
  unfold hasCaps Passes versionOf In shift
  split_ifs with h12 h20 h2 h3
  all_goals simp_all

/-- The platform passes the checks and a context can be created on devices that the request
selects. -/
def Takes (argp : ContextAllocateDesc) (p : PlatformInfo) : Prop :=
  (∃ platformVersion ∈ p.version, Passes argp.requiredCaps platformVersion) ∧ p.name = true ∧
    ∃ j ∈ List.range selectMax, Offers argp p.toPlatform j ∧ p.createContext j = true

instance (argp : ContextAllocateDesc) (p : PlatformInfo) : Decidable (Takes argp p) :=
  inferInstanceAs (Decidable (_ ∧ _))

def taken (argp : ContextAllocateDesc) (ps : List PlatformInfo) : Option PlatformInfo :=
  ps.find? (Takes argp ·)

def passedOver (argp : ContextAllocateDesc) (ps : List PlatformInfo) : List PlatformInfo :=
  ps.takeWhile (¬ Takes argp ·)

theorem selectInfo_cons_ok {p : PlatformInfo} {ps : List PlatformInfo} {platformVersion : String}
    {q : Selection} (hv : p.version = some platformVersion)
    (h : selectInfo argp (n + 1) caps (p :: ps) = .ok q) :
    (Takes argp p ∧ q = ⟨(checkCaps argp.requiredCaps (versionOf platformVersion) caps).2,
      [(platformVersion, true)], some platformVersion⟩) ∨
    (¬ Takes argp p ∧ ∃ q', selectInfo argp n
        (checkCaps argp.requiredCaps (versionOf platformVersion) caps).2 ps = .ok q' ∧
      q = { q' with visited := (platformVersion,
        (checkCaps argp.requiredCaps (versionOf platformVersion) caps).1) :: q'.visited }) := by
  rw [selectInfo, hv] at h
  obtain ⟨found, hfound, h⟩ := bind_eq_ok.mp h
  have htakes : found = true ↔ Takes argp p := by
    unfold Takes
    rw [hv]
    simp only [Option.mem_some_iff, exists_eq_left']
    have hpasses : (checkCaps argp.requiredCaps (versionOf platformVersion) caps).1 = true ↔
        Passes argp.requiredCaps platformVersion := checkCaps_fst.trans hasCaps_versionOf
    rw [← hpasses, ← and_assoc]
    split_ifs at hfound with hel
    · rw [selectDevice_ok hfound, and_iff_right hel]
      rfl
    · cases hfound
      exact iff_of_false Bool.false_ne_true fun h => hel h.1
  cases found with
  | true =>
    cases h
    exact Or.inl ⟨htakes.mp rfl, rfl⟩
  | false =>
    obtain ⟨q', hq', h⟩ := bind_eq_ok.mp h
    cases h
    exact Or.inr ⟨fun h => Bool.false_ne_true (htakes.mpr h), q', hq', rfl⟩

structure Selects (argp : ContextAllocateDesc) (ps : List PlatformInfo) (q : Selection) :
    Prop where
  chosen : q.chosen = (taken argp ps).bind version
  rejected : ∀ platformVersion, (platformVersion, false) ∈ q.visited ↔
    ∃ p ∈ passedOver argp ps, p.version = some platformVersion ∧
      ¬ Passes argp.requiredCaps platformVersion
  caps : q.chosen ≠ none → ∀ c : SpirvCap, c.In q.caps

section Selects

variable {p : PlatformInfo} {ps : List PlatformInfo} {q : Selection} {platformVersion : String}

theorem selects_nil : Selects argp [] ⟨caps, [], none⟩ :=
  ⟨rfl, by simp [passedOver], by simp⟩

theorem not_takes_of_version (hv : p.version = none) : ¬ Takes argp p := by
  rintro ⟨⟨t, ht, -⟩, -⟩
  rw [hv] at ht
  cases ht

theorem taken_cons_of_not (hp : ¬ Takes argp p) : taken argp (p :: ps) = taken argp ps :=
  List.find?_cons_of_neg (by simpa using hp)

theorem passedOver_cons_of_not (hp : ¬ Takes argp p) :
    passedOver argp (p :: ps) = p :: passedOver argp ps :=
  List.takeWhile_cons_of_pos (by simpa using hp)

theorem Selects.skip (h : Selects argp ps q) (hv : p.version = none) :
    Selects argp (p :: ps) q where
  chosen := by rw [taken_cons_of_not (not_takes_of_version hv), h.chosen]
  rejected t := by
    rw [h.rejected, passedOver_cons_of_not (not_takes_of_version hv), List.exists_mem_cons_iff,
      or_iff_right]
    rw [hv]
    exact fun h => nomatch h.1
  caps := h.caps

theorem Selects.visit (h : Selects argp ps q) (hv : p.version = some platformVersion)
    (hp : ¬ Takes argp p) :
    Selects argp (p :: ps) { q with visited := (platformVersion,
      (checkCaps argp.requiredCaps (versionOf platformVersion) caps).1) :: q.visited } where
  chosen := by
    rw [taken_cons_of_not hp]
    exact h.chosen
  rejected t := by
    rw [List.mem_cons, h.rejected, passedOver_cons_of_not hp, List.exists_mem_cons_iff, hv]
    refine or_congr ?_ Iff.rfl
    rw [Prod.mk.injEq, Option.some.injEq, eq_comm (a := t), eq_comm (a := false)]
    refine and_congr_right fun ht => ?_
    rw [← ht, ← Bool.not_eq_true, checkCaps_fst, hasCaps_versionOf]
  caps := h.caps

theorem Selects.take (hv : p.version = some platformVersion) (hp : Takes argp p) :
    Selects argp (p :: ps) ⟨(checkCaps argp.requiredCaps (versionOf platformVersion) caps).2,
      [(platformVersion, true)], some platformVersion⟩ where
  chosen := by
    rw [taken, List.find?_cons_of_pos (by simpa using hp)]
    exact hv.symm
  rejected t := by
    rw [passedOver, List.takeWhile_cons_of_neg (by simpa using hp)]
    simp
  caps _ := by
    obtain ⟨⟨t, ht, hpasses⟩, -⟩ := hp
    cases hv.symm.trans ht
    exact in_checkCaps (hasCaps_versionOf.mpr hpasses)

theorem selects_selectInfo (h : selectInfo argp n caps ps = .ok q) : Selects argp ps q := by
  induction ps generalizing n caps q with
  | nil =>
    rw [selectInfo] at h
    cases h
    exact selects_nil
  | cons p ps ih =>
    cases n with
    | zero => cases h
    | succ n =>
      cases hv : p.version with
      | none =>
        rw [selectInfo, hv] at h
        exact (ih h).skip hv
      | some platformVersion =>
        obtain ⟨hp, rfl⟩ | ⟨hp, q', hq', rfl⟩ := selectInfo_cons_ok hv h
        · exact Selects.take hv hp
        · exact (ih hq').visit hv hp

end Selects

theorem selectPlatform_cons {p : Platform} {ps : List Platform} (hv : p.version = some v) :
    selectPlatform argp (p :: ps) =
      (if hasCaps argp.requiredCaps v.1 v.2 ∧ p.name = true then
        selectDevice argp p (List.range selectMax) else .ok false) >>= fun found =>
        if found then .ok (some v) else selectPlatform argp ps := by
  rw [selectPlatform, hv]
  dsimp only
  split_ifs
  · rfl
  · rfl

theorem selectPlatform_of_selectInfo {ps : List PlatformInfo} {q : Selection}
    (h : selectInfo argp n caps ps = .ok q) :
    selectPlatform argp (ps.map toPlatform) = .ok (q.chosen.map versionOf) := by
  induction ps generalizing n caps q with
  | nil =>
    rw [selectInfo] at h
    cases h
    rfl
  | cons p ps ih =>
    cases n with
    | zero => cases h
    | succ n =>
      rw [List.map_cons]
      cases hv : p.version with
      | none =>
        rw [selectInfo, hv] at h
        rw [selectPlatform, show p.toPlatform.version = none by rw [toPlatform, hv]; rfl]
        exact ih h
      | some platformVersion =>
        have hversion : p.toPlatform.version = some (versionOf platformVersion) := by
          rw [toPlatform, hv]
          rfl
        rw [selectInfo, hv] at h
        obtain ⟨found, hfound, h⟩ := bind_eq_ok.mp h
        -- both loops guard the search for a device with the same checks
        have hguard := (if_congr (and_congr_left' checkCaps_fst) rfl rfl).symm.trans hfound
        rw [selectPlatform_cons hversion]
        refine (congrArg (· >>= _) hguard).trans ?_
        cases found with
        | true =>
          cases h
          rfl
        | false =>
          obtain ⟨q', hq', h⟩ := bind_eq_ok.mp h
          cases h
          have hrest := ih hq'
          exact hrest

theorem contextalloc_of_contextallocInfo {s : Server} {platforms : List PlatformInfo}
    {r : (StatusCode × Selection) × Server} (h : s.contextallocInfo argp platforms = .ok r) :
    s.contextalloc argp (platforms.map toPlatform) = .ok (r.1.1, r.2) := by
  obtain ⟨active, hactive, h⟩ := bind_eq_ok.mp h
  rw [contextalloc, hactive, ok_bind]
  cases active with
  | true =>
    cases h
    rfl
  | false =>
    obtain ⟨q, hq, h⟩ := bind_eq_ok.mp h
    rw [if_neg Bool.false_ne_true, selectPlatform_of_selectInfo hq, ok_bind]
    cases hchosen : q.chosen with
    | none =>
      rw [hchosen] at h
      cases h
      rfl
    | some platformVersion =>
      rw [hchosen] at h
      obtain ⟨t, ht, h⟩ := bind_eq_ok.mp h
      cases h
      rw [Option.map_some]
      dsimp only
      rw [ht]
      rfl

theorem contextallocInfo_ok {s : Server} {platforms : List PlatformInfo}
    {r : (StatusCode × Selection) × Server} (h : s.contextallocInfo argp platforms = .ok r) :
    (s.contextIds.Active argp.clientId ∧ r.1 = (.resourceUnavailable, ⟨0, [], none⟩)) ∨
      (¬ s.contextIds.Active argp.clientId ∧ Selects argp platforms r.1.2 ∧
        (r.1.1 = .success ↔ r.1.2.chosen ≠ none)) := by
  obtain ⟨active, hactive, h⟩ := bind_eq_ok.mp h
  cases active with
  | true =>
    cases h
    exact Or.inl ⟨activeId_eq_ok_true.mp hactive, rfl⟩
  | false =>
    have hinactive : ¬ s.contextIds.Active argp.clientId := fun hact =>
      Bool.false_ne_true (Except.ok.inj (hactive.symm.trans (activeId_eq_ok_true.mpr hact)))
    obtain ⟨q, hq, h⟩ := bind_eq_ok.mp h
    refine Or.inr ⟨hinactive, ?_⟩
    have hselects := selects_selectInfo hq
    cases hchosen : q.chosen with
    | none =>
      rw [hchosen] at h
      cases h
      exact ⟨hselects, iff_of_false (by simp) (not_not.mpr hchosen)⟩
    | some platformVersion =>
      rw [hchosen] at h
      obtain ⟨_, -, h⟩ := bind_eq_ok.mp h
      cases h
      exact ⟨hselects, iff_of_true rfl (by rw [hchosen]; simp)⟩

def HighEnough (requiredCaps : BitVec 32) (platformVersion : String) : Prop :=
  ∀ c : SpirvCap, c.In requiredCaps → Supports platformVersion c

instance (requiredCaps : BitVec 32) (platformVersion : String) :
    Decidable (HighEnough requiredCaps platformVersion) := inferInstanceAs (Decidable (∀ _, _))

/-- The choice of a platform honours the capabilities: a context is created on a platform that
states a version high enough for those that are required and for those that are reported, and no
platform that states such a version is skipped because of it. -/
structure Honours (argp : ContextAllocateDesc) (status : StatusCode) (q : Selection) : Prop where
  required : status = .success → ∀ t ∈ q.chosen, HighEnough argp.requiredCaps t
  reported : status = .success → ∀ t ∈ q.chosen, ∀ c : SpirvCap, c.In q.caps → Supports t c
  skipped : ∀ t, (t, false) ∈ q.visited → ¬ HighEnough argp.requiredCaps t

/-- The platforms let the choice honour the capabilities: the first one that can be taken states a
version that supports all three, and those in front of it that state a version high enough for the
request pass the checks. -/
structure Honourable (argp : ContextAllocateDesc) (ps : List PlatformInfo) : Prop where
  taken : ∀ p ∈ taken argp ps, ∀ t ∈ p.version, ∀ c : SpirvCap, Supports t c
  passedOver : ∀ p ∈ passedOver argp ps, ∀ t ∈ p.version,
    HighEnough argp.requiredCaps t → Passes argp.requiredCaps t

instance (argp : ContextAllocateDesc) (ps : List PlatformInfo) : Decidable (Honourable argp ps) :=
  decidable_of_iff ((∀ p ∈ taken argp ps, ∀ t ∈ p.version, ∀ c : SpirvCap, Supports t c) ∧
      ∀ p ∈ passedOver argp ps, ∀ t ∈ p.version,
        HighEnough argp.requiredCaps t → Passes argp.requiredCaps t)
    ⟨fun h => ⟨h.1, h.2⟩, fun h => ⟨h.taken, h.passedOver⟩⟩

theorem Selects.honours_iff_honourable {ps : List PlatformInfo} {q : Selection}
    {status : StatusCode} (h : Selects argp ps q)
    (hsuccess : status = .success ↔ q.chosen ≠ none) :
    Honours argp status q ↔ Honourable argp ps := by
  have hchosen : ∀ t, t ∈ q.chosen ↔ ∃ p ∈ taken argp ps, t ∈ p.version := fun t => by
    rw [h.chosen]
    exact Option.mem_bind_iff
  constructor
  · intro hon
    refine ⟨fun p hp t ht c => ?_, fun p hp t ht hhigh => ?_⟩
    · -- a platform that is taken gets all three capabilities
      have hmem : t ∈ q.chosen := (hchosen t).mpr ⟨p, hp, ht⟩
      have hne : q.chosen ≠ none := by
        rw [Option.mem_def.mp hmem]
        exact Option.some_ne_none t
      exact hon.reported (hsuccess.mpr hne) t hmem c (h.caps hne c)
    · by_contra hpasses
      exact hon.skipped t ((h.rejected t).mpr ⟨p, hp, ht, hpasses⟩) hhigh
  · intro hps
    have hall : ∀ t ∈ q.chosen, ∀ c : SpirvCap, Supports t c := fun t ht => by
      obtain ⟨p, hp, ht⟩ := (hchosen t).mp ht
      exact hps.taken p hp t ht
    refine ⟨fun _ t ht c _ => hall t ht c, fun _ t ht c _ => hall t ht c, fun t ht hhigh => ?_⟩
    obtain ⟨p, hp, hv, hpasses⟩ := (h.rejected t).mp ht
    exact hpasses (hps.passedOver p hp t hv hhigh)

/-- For every list of platforms, text of a version and required capabilities: the choice of a
platform honours the capabilities exactly if the context is active already, so that nothing is
chosen, or the platforms allow for it. -/
theorem honours_iff {s : Server} {platforms : List PlatformInfo}
    {r : (StatusCode × Selection) × Server} (h : s.contextallocInfo argp platforms = .ok r) :
    Honours argp r.1.1 r.1.2 ↔
      s.contextIds.Active argp.clientId ∨ Honourable argp platforms := by
  rcases contextallocInfo_ok h with ⟨hact, hr⟩ | ⟨hact, hselects, hsuccess⟩
  · refine iff_of_true ?_ (Or.inl hact)
    rw [hr]
    exact ⟨by simp, by simp, by simp⟩
  · rw [hselects.honours_iff_honourable hsuccess, or_iff_right hact]

def demoPlatform (platformVersion : String) : PlatformInfo :=
  ⟨some platformVersion, true, fun j => j = 0, fun _ => true⟩

def demoContext (requiredCaps : BitVec 32) (platforms : List String) :
    Except Fault (StatusCode × Selection) := do
  let r ← powerOn.contextallocInfo ⟨0, 0xF, 1, requiredCaps⟩ (platforms.map demoPlatform)
  return r.1

theorem honours_two_two :
    ∃ r, powerOn.contextallocInfo ⟨0, 0xF, 1, spirv10.cap⟩
        (["OpenCL 1.2", "OpenCL 2.2"].map demoPlatform) = .ok r ∧
      r.1.1 = .success ∧ r.1.2.chosen = some "OpenCL 2.2" ∧
      Honours ⟨0, 0xF, 1, spirv10.cap⟩ r.1.1 r.1.2 := by
  have hdemo : demoContext spirv10.cap ["OpenCL 1.2", "OpenCL 2.2"] = .ok (.success,
      ⟨0x1C, [("OpenCL 1.2", false), ("OpenCL 2.2", true)], some "OpenCL 2.2"⟩) := by
    decide +kernel
  obtain ⟨r, hr, heq⟩ := bind_eq_ok.mp hdemo
  have hr1 := Except.ok.inj heq
  refine ⟨r, hr, congrArg Prod.fst hr1, by rw [hr1], (honours_iff hr).mpr (Or.inr ?_)⟩
  decide +kernel

/-- All SPIR-V capabilities are reported for OpenCL 1.2. OpenCL 3.0 is skipped if SPIR-V 1.0 is
required, and OpenCL 2.2 is skipped if SPIR-V 1.1 is required. -/
theorem capabilities_of_any_version :
    demoContext 0 ["OpenCL 1.2"] =
      .ok (.success, ⟨0x1C, [("OpenCL 1.2", true)], some "OpenCL 1.2"⟩) ∧
    spirv10.In 0x1C ∧ ¬ Supports "OpenCL 1.2" spirv10 ∧
    demoContext spirv10.cap ["OpenCL 3.0"] =
      .ok (.resourceUnavailable, ⟨0, [("OpenCL 3.0", false)], none⟩) ∧
    Supports "OpenCL 3.0" spirv10 ∧
    demoContext spirv11.cap ["OpenCL 2.2"] =
      .ok (.resourceUnavailable, ⟨spirv10.cap, [("OpenCL 2.2", false)], none⟩) ∧
    Supports "OpenCL 2.2" spirv11 := by
  decide +kernel

end Server

end VMAccel
