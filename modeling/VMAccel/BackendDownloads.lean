import VMAccel.BackendLocks

/-!
# The replies to downloads

`vmwopencl_imagedownload_1` answers through a static variable. A download whose generation is not
the stored one sets only the status of it, so its reply carries the data of the last download that
passed this check. The buffer of that reply has either been allocated for it, and then it is never
freed, or it belongs to the arguments of the earlier request, which the stub of the server frees
once the reply has been sent.
-/

namespace VMAccel

open StepSystem

inductive ReplyPtr
  | null
  | calloc (bytes : List Byte)
  | argument (bytes : List Byte)
  | freed (len : ℕ)

namespace ReplyPtr

/-- `ptr_len`. -/
def len : ReplyPtr → ℕ
  | .null => 0
  | .calloc bytes => bytes.length
  | .argument bytes => bytes.length
  | .freed len => len

/-- The data that a reply carries, with `none` if it is read from a freed buffer. -/
def data : ReplyPtr → Option (List Byte)
  | .null => some []
  | .calloc bytes => some bytes
  | .argument bytes => some bytes
  | .freed 0 => some []
  | .freed (_ + 1) => none

/-- `svc_freeargs`, after the reply has been sent. -/
def freeargs : ReplyPtr → ReplyPtr
  | .argument bytes => .freed bytes.length
  | ptr => ptr

theorem data_eq_nil_iff (ptr : ReplyPtr) : ptr.data = some [] ↔ ptr.len = 0 := by
  cases ptr with
  | null => exact iff_of_true rfl rfl
  | calloc bytes => exact Option.some_inj.trans List.length_eq_zero_iff.symm
  | argument bytes => exact Option.some_inj.trans List.length_eq_zero_iff.symm
  | freed len =>
    cases len with
    | zero => exact iff_of_true rfl rfl
    | succ len => exact iff_of_false (by rw [data]; simp) (Nat.succ_ne_zero len)

@[simp] theorem len_freeargs (ptr : ReplyPtr) : ptr.freeargs.len = ptr.len := by
  cases ptr with
  | argument bytes => rfl
  | _ => rfl

end ReplyPtr

structure VMAccelDownloadStatus where
  status : StatusCode
  ptr : ReplyPtr

namespace VMAccelDownloadStatus

/-- What the client receives. -/
def reply (r : VMAccelDownloadStatus) : StatusCode × Option (List Byte) := (r.status, r.ptr.data)

end VMAccelDownloadStatus

/-- A download, with the length of the buffer that comes with it, or `none` for `NULL`. -/
structure DownloadCall where
  argp : ImageDownloadOp
  ptr : Option ℕ
  cl : Bool

/-- The buffer that the bytes are read into. OpenCL does not know the length of a buffer that came
with the request. -/
def DownloadCall.readInto (c : DownloadCall) (bytes : List Byte) : Except Fault ReplyPtr :=
  match c.ptr with
  | none => .ok (.calloc bytes)
  | some len => if bytes.length ≤ len then .ok (.argument bytes) else .error .outOfBounds

/-- The surfaces, and the static variable `result` of `vmwopencl_imagedownload_1`. -/
structure Downloads where
  backend : Backend
  result : VMAccelDownloadStatus

namespace Downloads

def powerOn : Downloads := ⟨.powerOn, ⟨.success, .null⟩⟩

/-- The part of `vmwopencl_imagedownload_1` that follows the `memset` of `result`. -/
def read (desc : VMAccelSurfaceDesc) (x : VMWOpenCLSurfaceInstance) (c : DownloadCall) :
    Except Fault VMAccelDownloadStatus := do
  require (c.argp.queueCid = c.argp.imgCid)
  require (desc.type = .buffer ∧ ¬ x.svm)
  match Backend.readMem c.argp x c.cl with
  | some bytes => do
    let ptr ← c.readInto bytes
    return ⟨.success, ptr⟩
  | none => return ⟨.fail, .null⟩

/-- `vmwopencl_imagedownload_1`. The reply is the `result` of the state it leads to. -/
def imagedownload (s : Downloads) (c : DownloadCall) : Except Fault Downloads := do
  let (desc, x) ← s.backend.locate c.argp.sid c.argp.inst
  if x.generation ≠ c.argp.generation then
    -- returns before the `memset`
    return { s with
      result := { s.result with status := Backend.outOfSync x.generation c.argp.generation } }
  else do
    let result ← read desc x c
    return { s with result := result }

/-- The request is handled and answered. -/
def step (s : Downloads) (i : Backend.Request × Option ℕ) : Except Fault Downloads :=
  match i.1 with
  | .imagedownload argp cl => do
    let s' ← s.imagedownload ⟨argp, i.2, cl⟩
    -- the reply has been sent
    return { s' with result := { s'.result with ptr := s'.result.ptr.freeargs } }
  | r => do
    let backend ← s.backend.step r
    return { s with backend := backend }

variable {s s' t t' : Downloads} {c : DownloadCall}

/-- The generation of the download is not that of the instance it names. -/
def OutOfSync (s : Downloads) (argp : ImageDownloadOp) : Prop :=
  ∃ p, s.backend.locate argp.sid argp.inst = .ok p ∧ p.2.generation ≠ argp.generation

theorem read_ok {desc : VMAccelSurfaceDesc} {x : VMWOpenCLSurfaceInstance}
    {r : VMAccelDownloadStatus} (hr : read desc x c = .ok r) :
    (r.status = .success ∧ ∃ bytes, Backend.readMem c.argp x c.cl = some bytes ∧
      r.ptr.data = some bytes) ∨ (Backend.readMem c.argp x c.cl = none ∧ r = ⟨.fail, .null⟩) := by
  obtain ⟨-, -, hr⟩ := bind_eq_ok.mp hr
  obtain ⟨-, -, hr⟩ := bind_eq_ok.mp hr
  split at hr
  · next bytes hbytes =>
    obtain ⟨ptr, hptr, hr⟩ := bind_eq_ok.mp hr
    cases hr
    refine Or.inl ⟨rfl, bytes, hbytes, ?_⟩
    unfold DownloadCall.readInto at hptr
    split at hptr
    · cases hptr
      rfl
    · split_ifs at hptr
      cases hptr
      rfl
  · next hbytes =>
    cases hr
    exact Or.inr ⟨hbytes, rfl⟩

/-- What a download does: it is out of sync and sets only the status, or it is read, and then its
reply depends on nothing but the request and the instance. -/
theorem imagedownload_ok (hr : s.imagedownload c = .ok s') :
    ∃ p, s.backend.locate c.argp.sid c.argp.inst = .ok p ∧ s'.backend = s.backend ∧
      ((p.2.generation ≠ c.argp.generation ∧
        s'.result = ⟨Backend.outOfSync p.2.generation c.argp.generation, s.result.ptr⟩) ∨
      (p.2.generation = c.argp.generation ∧ read p.1 p.2 c = .ok s'.result)) := by
  obtain ⟨p, hp, hr⟩ := bind_eq_ok.mp hr
  dsimp only at hr
  split_ifs at hr with hgen
  · cases hr
    exact ⟨p, hp, rfl, Or.inl ⟨hgen, rfl⟩⟩
  · obtain ⟨r, hread, hr⟩ := bind_eq_ok.mp hr
    cases hr
    exact ⟨p, hp, rfl, Or.inr ⟨not_not.mp hgen, hread⟩⟩

theorem imagedownload_of_outOfSync (h : s.OutOfSync c.argp) : ∃ s', s.imagedownload c = .ok s' := by
  obtain ⟨p, hp, hgen⟩ := h
  rw [imagedownload, hp, ok_bind]
  exact ⟨_, if_pos hgen⟩

/-- Up to the data of a download that is out of sync, `Backend.imagedownload` is what happens. -/
theorem imagedownload_refines (hr : s.imagedownload c = .ok s') :
    ∃ bytes, s.backend.imagedownload c.argp c.cl = .ok ((s'.result.status, bytes), s'.backend) ∧
      (¬ s.OutOfSync c.argp → s'.result.ptr.data = some bytes) := by
  obtain ⟨p, hp, hbackend, ⟨hgen, hresult⟩ | ⟨hgen, hread⟩⟩ := imagedownload_ok hr
  · rw [hresult, hbackend, Backend.Locking.imagedownload_of_ne hp hgen]
    exact ⟨[], rfl, fun hsync => absurd ⟨p, hp, hgen⟩ hsync⟩
  · rw [hbackend, Backend.imagedownload, hp, ok_bind]
    dsimp only
    rw [if_neg (not_not.mpr hgen)]
    obtain ⟨_, hcid, hrest⟩ := bind_eq_ok.mp hread
    obtain ⟨_, hbuffer, -⟩ := bind_eq_ok.mp hrest
    rw [hcid, ok_bind, hbuffer, ok_bind]
    rcases read_ok hread with ⟨hsuccess, bytes, hbytes, hdata⟩ | ⟨hbytes, hfail⟩
    · exact ⟨bytes, by rw [hbytes, hsuccess]; rfl, fun _ => hdata⟩
    · exact ⟨[], by rw [hbytes, hfail]; rfl, fun _ => by rw [hfail]; rfl⟩

/-- A step is a download, after which the arguments of the request are freed, or it leaves the
static variable alone. -/
theorem step_cases {i : Backend.Request × Option ℕ} (hs : s.step i = .ok s') :
    (∃ argp cl u, i.1 = .imagedownload argp cl ∧ s.imagedownload ⟨argp, i.2, cl⟩ = .ok u ∧
      s' = { u with result := { u.result with ptr := u.result.ptr.freeargs } }) ∨
    (s.backend.step i.1 = .ok s'.backend ∧ s'.result = s.result) := by
  obtain ⟨r, ptr⟩ := i
  cases r with
  | imagedownload argp cl =>
    obtain ⟨u, hu, hs⟩ := bind_eq_ok.mp hs
    cases hs
    exact Or.inl ⟨argp, cl, u, rfl, hu, rfl⟩
  | _ =>
    obtain ⟨backend, hbackend, hs⟩ := bind_eq_ok.mp hs
    cases hs
    exact Or.inr ⟨hbackend, rfl⟩

theorem run_refines {is : List (Backend.Request × Option ℕ)} (hrun : run step s is = .ok t) :
    run (fun b i => Backend.step b i.1) s.backend is = .ok t.backend := by
  have hstep : ∀ s b (i : Backend.Request × Option ℕ) s', b = s.backend → True → True →
      step s i = .ok s' → ∃ b', Backend.step b i.1 = .ok b' ∧ b' = s'.backend := by
    rintro s _ i s' rfl - - hs
    refine ⟨_, ?_, rfl⟩
    rcases step_cases hs with ⟨argp, cl, u, hi, hu, rfl⟩ | ⟨hbackend, -⟩
    · obtain ⟨bytes, hbytes, -⟩ := imagedownload_refines hu
      rw [hi, Backend.step, hbytes]
      rfl
    · exact hbackend
  obtain ⟨b, hb, rfl⟩ := run_simulates hstep rfl (eachInput_true _ _) (eachInput_true _ _) hrun
  exact hb

/-- A reply with another status than success carries no data unless the download is out of sync
while the static variable holds data. -/
theorem refused_empty_iff (hr : s.imagedownload c = .ok s') :
    (s'.result.status ≠ .success → s'.result.ptr.data = some []) ↔
      (s.OutOfSync c.argp → s.result.ptr.len = 0) := by
  obtain ⟨p, hp, -, ⟨hgen, hresult⟩ | ⟨hgen, hread⟩⟩ := imagedownload_ok hr
  · rw [hresult, ← ReplyPtr.data_eq_nil_iff]
    constructor
    · exact fun h _ => h Backend.outOfSync_ne_success
    · exact fun h _ => h ⟨p, hp, hgen⟩
  · refine iff_of_true (fun hne => ?_) fun hsync => ?_
    · rcases read_ok hread with ⟨hsuccess, -⟩ | ⟨-, hfail⟩
      · exact absurd hsuccess hne
      · rw [hfail]
        rfl
    · obtain ⟨q, hq, hne⟩ := hsync
      cases hp.symm.trans hq
      exact absurd hgen hne

/-- Two servers that hold the same instance answer alike unless the download is out of sync and
their static variables hold other data. -/
theorem reply_eq_iff
    (hsame : s.backend.locate c.argp.sid c.argp.inst = t.backend.locate c.argp.sid c.argp.inst)
    (hs : s.imagedownload c = .ok s') (ht : t.imagedownload c = .ok t') :
    s'.result.reply = t'.result.reply ↔
      (s.OutOfSync c.argp → s.result.ptr.data = t.result.ptr.data) := by
  obtain ⟨p, hp, -, hcases⟩ := imagedownload_ok hs
  obtain ⟨q, hq, -, hcases'⟩ := imagedownload_ok ht
  obtain rfl : p = q := Except.ok.inj (hp.symm.trans (hsame.trans hq))
  rcases hcases with ⟨hgen, hresult⟩ | ⟨hgen, hread⟩
  · rcases hcases' with ⟨-, hresult'⟩ | ⟨hgen', -⟩
    · rw [hresult, hresult']
      constructor
      · exact fun h _ => (Prod.ext_iff.mp h).2
      · exact fun h => Prod.ext rfl (h ⟨p, hp, hgen⟩)
    · exact absurd hgen' hgen
  · rcases hcases' with ⟨hgen', -⟩ | ⟨-, hread'⟩
    · exact absurd hgen hgen'
    · refine iff_of_true (by rw [Except.ok.inj (hread.symm.trans hread')]) fun hsync => ?_
      obtain ⟨q, hq', hne⟩ := hsync
      cases hp.symm.trans hq'
      exact absurd hgen hne

/-- A reply to the request that is not success carries no data. -/
def RefusedEmpty (s : Downloads) (i : Backend.Request × Option ℕ) : Prop :=
  ∀ argp cl s', i.1 = .imagedownload argp cl → s.imagedownload ⟨argp, i.2, cl⟩ = .ok s' →
    s'.result.status ≠ .success → s'.result.ptr.data = some []

/-- The request is no download that is out of sync while the static variable holds data. -/
def Cleared (s : Downloads) (i : Backend.Request × Option ℕ) : Prop :=
  ∀ argp cl, i.1 = .imagedownload argp cl → s.OutOfSync argp → s.result.ptr.len = 0

theorem refusedEmpty_iff_cleared (s : Downloads) (i : Backend.Request × Option ℕ) :
    s.RefusedEmpty i ↔ s.Cleared i := by
  constructor
  · intro h argp cl hi hsync
    obtain ⟨s', hs⟩ := imagedownload_of_outOfSync (c := ⟨argp, i.2, cl⟩) hsync
    exact (refused_empty_iff hs).mp (h argp cl s' hi hs) hsync
  · exact fun h argp cl s' hi hs => (refused_empty_iff hs).mpr (h argp cl hi)

/-- As long as no download passes the check of the generation, the static variable holds what the
last one that did has returned. -/
theorem len_of_outOfSync {is : List (Backend.Request × Option ℕ)}
    (hsync : EachInput step (fun s i => ∀ argp cl, i.1 = .imagedownload argp cl → s.OutOfSync argp)
      s is) (hrun : run step s is = .ok t) : t.result.ptr.len = s.result.ptr.len := by
  refine run_invariant (I := fun u => u.result.ptr.len = s.result.ptr.len) ?_ rfl hsync hrun
  intro u i u' hlen hout hu
  rcases step_cases hu with ⟨argp, cl, v, hi, hv, rfl⟩ | ⟨-, hresult⟩
  · obtain ⟨q, hq, hne⟩ := hout argp cl hi
    obtain ⟨p, hp, -, ⟨-, hresult⟩ | ⟨hgen, -⟩⟩ := imagedownload_ok hv
    · rw [← hlen, ReplyPtr.len_freeargs, hresult]
    · cases hp.symm.trans hq
      exact absurd hgen hne
  · rw [hresult, hlen]

/-- For every sequence of requests: all replies that are not success carry no data exactly if no
download is out of sync while the static variable holds data. And in any two states that agree on an
instance, such as those after two sequences, a download of it gets the same reply exactly if it is
not out of sync or the static variables hold the same data. -/
theorem refused_replies_empty_iff (is : List (Backend.Request × Option ℕ)) :
    (EachInput step RefusedEmpty powerOn is ↔ EachInput step Cleared powerOn is) ∧
      ∀ (s t s' t' : Downloads) (c : DownloadCall),
        s.backend.locate c.argp.sid c.argp.inst = t.backend.locate c.argp.sid c.argp.inst →
        s.imagedownload c = .ok s' → t.imagedownload c = .ok t' →
        (s'.result.reply = t'.result.reply ↔
          (s.OutOfSync c.argp → s.result.ptr.data = t.result.ptr.data)) := by
  constructor
  · exact eachInput_iff (I := fun _ => True) (fun s i _ => s.refusedEmpty_iff_cleared i)
      (fun _ _ _ _ _ _ => trivial) trivial
  · intro s t s' t' c hsame hs ht
    exact reply_eq_iff hsame hs ht

/-- The reply to a download after the requests. -/
def replyAfter (is : List (Backend.Request × Option ℕ)) (c : DownloadCall) :
    Except Fault (StatusCode × Option (List Byte)) := do
  let s ← run step powerOn is
  let s' ← s.imagedownload c
  return s'.result.reply

/-- Surface 3 is allocated and holds four bytes. -/
def demoUpload : List (Backend.Request × Option ℕ) :=
  [(Backend.demoAlloc, none), (.imageupload ⟨1, 1, 3, 0, 1, 0, [1, 2, 3, 4]⟩ true, none)]

/-- A download of another generation than that of the surface, which carries no buffer. -/
def demoStale : DownloadCall := ⟨⟨1, 1, 3, 0, 7, 0, 4⟩, none, true⟩

/-- The reply to the same refused download, of a surface in the same state: it is empty at first;
after a download without a buffer it carries the bytes that were read, and after one with a buffer
whatever is now in the freed buffer. -/
theorem refused_download_carries_data :
    replyAfter demoUpload demoStale = .ok (.resourceUnavailable, some []) ∧
    replyAfter (demoUpload ++ [(.imagedownload ⟨1, 1, 3, 0, 1, 0, 4⟩ true, none)]) demoStale =
      .ok (.resourceUnavailable, some [1, 2, 3, 4]) ∧
    replyAfter (demoUpload ++ [(.imagedownload ⟨1, 1, 3, 0, 1, 0, 4⟩ true, some 4)]) demoStale =
      .ok (.resourceUnavailable, none) := by
  decide +kernel

end Downloads

end VMAccel
