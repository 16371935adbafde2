import VMAccel.StepSystem
import VMAccel.Xdr

/-!
# Remote procedure calls

A program is a family of numbered procedures. A server decodes the argument of a call, calls the
procedure and encodes its result; a client encodes the argument and decodes the result. Procedure 0
does nothing. A call of the client can be lost on its way to the server, or its answer on the way
back, and a result that is too long for a datagram becomes an error. A call that arrives comes to
the call of the procedure itself, unless the argument or the result cannot be encoded. From that, a
session of calls is the session of local calls that the server has received.
-/

namespace RemoteCall

open Xdr StepSystem

structure Program where
  Proc : Type
  number : Proc → BitVec 32
  find : BitVec 32 → Option Proc
  find_number : ∀ p, find (number p) = some p
  number_ne_zero : ∀ p, number p ≠ 0
  Arg : Proc → Type
  Res : Proc → Type

structure Routines (P : Program) where
  arg : (p : P.Proc) → Routine (P.Arg p)
  res : (p : P.Proc) → Routine (P.Res p)

/-- What a server answers. -/
inductive Reply
  | accepted (bs : List Octet)
  | noProc
  | garbageArgs
  | systemErr
  | silent
  deriving DecidableEq

inductive Delivery
  | delivered
  | requestLost
  | replyLost
  deriving DecidableEq

variable {P : Program} {σ ε : Type}

abbrev Handlers (P : Program) (σ ε : Type) :=
  (p : P.Proc) → P.Arg p → σ → Except ε (Option (P.Res p) × σ)

def replyWith {ρ : Type} (r : Routine ρ) : Option ρ → Reply
  | none => .silent
  | some x =>
    match r.encode x with
    | none => .systemErr
    | some bs => .accepted bs

/-- The answer that goes out. A stream takes a result of any length, a datagram only one that its
buffer has room for. -/
def Reply.over (buffer : Option ℕ) : Reply → Reply
  | .accepted bs => if ∃ n ∈ buffer, n < bs.length then .systemErr else .accepted bs
  | reply => reply

/-- The number of a procedure and the octets of its argument. -/
structure Message where
  number : BitVec 32
  body : List Octet
  deriving DecidableEq

/-- The server on one message. -/
def serve (r : Routines P) (h : Handlers P σ ε) (s : σ) (m : Message) : Except ε (Reply × σ) :=
  if m.number = 0 then .ok (.accepted [], s)
  else
    match P.find m.number with
    | none => .ok (.noProc, s)
    | some p =>
      match (r.arg p).decode m.body with
      | none => .ok (.garbageArgs, s)
      | some (a, _) => do
        let x ← h p a s
        return (replyWith (r.res p) x.1, x.2)

def receive {ρ : Type} (r : Routine ρ) : Reply → Option ρ
  | .accepted bs => (r.decode bs).map Prod.fst
  | _ => none

/-- A call of the client and what the network does with it. -/
structure Call (P : Program) where
  proc : P.Proc
  arg : P.Arg proc
  delivery : Delivery

def call (c r : Routines P) (h : Handlers P σ ε) (s : σ) (k : Call P) :
    Except ε (Option (P.Res k.proc) × σ) :=
  match (c.arg k.proc).encode k.arg with
  | none => .ok (none, s)
  | some bs =>
    if k.delivery = .requestLost then .ok (none, s)
    else do
      let x ← serve r h s ⟨P.number k.proc, bs⟩
      return (if k.delivery = .replyLost then none else receive (c.res k.proc) x.1, x.2)

abbrev LocalCall (P : Program) := (p : P.Proc) × P.Arg p

abbrev Result (P : Program) := (p : P.Proc) × P.Res p

def decoded (r : Routines P) (m : Message) : Option (LocalCall P) :=
  if m.number = 0 then none
  else (P.find m.number).bind fun p => ((r.arg p).decode m.body).map fun x => ⟨p, x.1⟩

def Call.toLocal (k : Call P) : LocalCall P := ⟨k.proc, k.arg⟩

/-- The local call that a call of the client comes to, if any. -/
def Call.arrived (r : Routines P) (k : Call P) : Option (LocalCall P) :=
  if ((r.arg k.proc).encode k.arg).isSome ∧ k.delivery ≠ .requestLost then some k.toLocal
  else none

theorem receive_replyWith {ρ : Type} (r : Routine ρ) {x : Option ρ}
    (hx : ∀ a ∈ x, r.Fits a) : receive r (replyWith r x) = x := by
  cases x with
  | none => rfl
  | some a =>
    obtain ⟨bs, hbs⟩ := hx a rfl
    have hdec := r.decode_encode hbs []
    rw [List.append_nil] at hdec
    rw [replyWith, hbs, receive, hdec, Option.map_some]

theorem Reply.over_eq_systemErr {buffer : Option ℕ} {reply : Reply} (h : reply ≠ .systemErr) :
    reply.over buffer = .systemErr ↔ ∃ n ∈ buffer, ∃ bs, reply = .accepted bs ∧ n < bs.length := by
  cases reply with
  | accepted bs =>
    by_cases hlong : ∃ n ∈ buffer, n < bs.length
    · have ⟨n, hn, hlt⟩ := hlong
      exact iff_of_true (if_pos hlong) ⟨n, hn, bs, rfl, hlt⟩
    · rw [Reply.over, if_neg hlong]
      refine iff_of_false Reply.noConfusion ?_
      rintro ⟨n, hn, bs', heq, hlt⟩
      cases heq
      exact hlong ⟨n, hn, hlt⟩
  | systemErr => exact absurd rfl h
  | noProc | garbageArgs | silent =>
    refine iff_of_false Reply.noConfusion ?_
    rintro ⟨n, -, bs, heq, -⟩
    cases heq

theorem Reply.over_ne_silent {buffer : Option ℕ} {reply : Reply} (h : reply ≠ .silent) :
    reply.over buffer ≠ .silent := by
  cases reply with
  | accepted bs =>
    rw [Reply.over]
    split_ifs
    · exact Reply.noConfusion
    · exact Reply.noConfusion
  | noProc | garbageArgs | systemErr | silent => exact h

theorem receive_replyWith_sub {ρ : Type} (r : Routine ρ) (x : Option ρ) :
    receive r (replyWith r x) = none ∨ receive r (replyWith r x) = x := by
  cases x with
  | none => exact Or.inl rfl
  | some a =>
    cases hbs : r.encode a with
    | none =>
      left
      rw [replyWith, hbs]
      rfl
    | some bs =>
      right
      exact receive_replyWith r (by rintro _ ⟨⟩; exact ⟨bs, hbs⟩)

/-! ## One message and one call -/

theorem serve_of_decoded {r : Routines P} {h : Handlers P σ ε} {s : σ} {m : Message}
    {k : LocalCall P} (hk : decoded r m = some k) :
    serve r h s m = (h k.1 k.2 s).map fun x => (replyWith (r.res k.1) x.1, x.2) := by
  unfold decoded at hk
  split_ifs at hk with hzero
  obtain ⟨p, hp, hk⟩ := Option.bind_eq_some_iff.mp hk
  obtain ⟨⟨a, rest⟩, ha, rfl⟩ := Option.map_eq_some_iff.mp hk
  rw [serve, if_neg hzero, hp]
  dsimp only
  rw [ha]
  rfl

theorem fits_of_decoded {r : Routines P} {m : Message} {k : LocalCall P}
    (hk : decoded r m = some k) : (r.arg k.1).Fits k.2 := by
  unfold decoded at hk
  split_ifs at hk
  obtain ⟨p, -, hk⟩ := Option.bind_eq_some_iff.mp hk
  obtain ⟨⟨a, rest⟩, ha, rfl⟩ := Option.map_eq_some_iff.mp hk
  exact (r.arg p).fits_of_decode ha

theorem serve_of_not_decoded {r : Routines P} {h : Handlers P σ ε} {s : σ} {m : Message}
    (hk : decoded r m = none) :
    ∃ reply, serve r h s m = .ok (reply, s) ∧ reply ≠ .systemErr ∧ reply ≠ .silent := by
  unfold serve
  unfold decoded at hk
  split_ifs at hk ⊢ with hzero
  · exact ⟨_, rfl, Reply.noConfusion, Reply.noConfusion⟩
  · cases hp : P.find m.number with
    | none => exact ⟨_, rfl, Reply.noConfusion, Reply.noConfusion⟩
    | some p =>
      rw [hp, Option.bind_some, Option.map_eq_none_iff] at hk
      dsimp only
      rw [hk]
      exact ⟨_, rfl, Reply.noConfusion, Reply.noConfusion⟩

theorem decoded_of_encode {r : Routines P} {p : P.Proc} {a : P.Arg p} {bs : List Octet}
    (h : (r.arg p).encode a = some bs) : decoded r ⟨P.number p, bs⟩ = some ⟨p, a⟩ := by
  have hdec := (r.arg p).decode_encode h []
  rw [List.append_nil] at hdec
  rw [decoded, if_neg (P.number_ne_zero p), P.find_number, Option.bind_some, hdec, Option.map_some]

theorem call_of_arrived {r : Routines P} {h : Handlers P σ ε} {s : σ} {k : Call P}
    {l : LocalCall P} (hl : k.arrived r = some l) :
    l = k.toLocal ∧
      call r r h s k = (h k.proc k.arg s).map fun x =>
        (if k.delivery = .replyLost then none
          else receive (r.res k.proc) (replyWith (r.res k.proc) x.1), x.2) := by
  unfold Call.arrived at hl
  split_ifs at hl with harrives
  obtain ⟨bs, hbs⟩ := Option.isSome_iff_exists.mp harrives.1
  refine ⟨(Option.some.inj hl).symm, ?_⟩
  rw [call, hbs]
  dsimp only
  rw [if_neg harrives.2, serve_of_decoded (decoded_of_encode hbs)]
  cases h k.proc k.arg s with
  | ok x => rfl
  | error e => rfl

theorem call_of_not_arrived {r : Routines P} {h : Handlers P σ ε} {s : σ} {k : Call P}
    (hk : k.arrived r = none) : call r r h s k = .ok (none, s) := by
  unfold call
  unfold Call.arrived at hk
  split_ifs at hk with harrives
  cases hbs : (r.arg k.proc).encode k.arg with
  | none => rfl
  | some bs =>
    rw [hbs] at harrives
    dsimp only
    rw [if_pos (not_not.mp fun hlost => harrives ⟨rfl, hlost⟩)]

/-! ## Runs -/

def serveStep (r : Routines P) (h : Handlers P σ ε) (s : σ) (m : Message) : Except ε σ := do
  let x ← serve r h s m
  return x.2

def localEffect (h : Handlers P σ ε) (s : σ) (k : LocalCall P) : Except ε σ := do
  let x ← h k.1 k.2 s
  return x.2

theorem serveStep_of_not_decoded {r : Routines P} {h : Handlers P σ ε} {s : σ} {m : Message}
    (hm : decoded r m = none) : serveStep r h s m = .ok s := by
  obtain ⟨reply, hserve, -⟩ := serve_of_not_decoded (h := h) (s := s) hm
  rw [serveStep, hserve]
  rfl

theorem serveStep_of_decoded {r : Routines P} {h : Handlers P σ ε} {s : σ} {m : Message}
    {k : LocalCall P} (hm : decoded r m = some k) : serveStep r h s m = localEffect h s k := by
  rw [serveStep, serve_of_decoded hm, localEffect]
  cases h k.1 k.2 s with
  | ok x => rfl
  | error e => rfl

theorem run_serveStep (r : Routines P) (h : Handlers P σ ε) (s : σ)
    (ms : List Message) :
    run (serveStep r h) s ms = run (localEffect h) s (ms.filterMap (decoded r)) := by
  induction ms generalizing s with
  | nil => rfl
  | cons m ms ih =>
    cases hm : decoded r m with
    | none =>
      rw [List.filterMap_cons_none hm, run, serveStep_of_not_decoded hm]
      exact ih s
    | some k =>
      rw [List.filterMap_cons_some hm, run, run, serveStep_of_decoded hm]
      cases localEffect h s k with
      | ok s' => exact ih s'
      | error e => rfl

/-- The state of the server, and the answers that the client has so far. -/
structure Exchange (P : Program) (σ : Type) where
  state : σ
  answers : List (Option (Result P))

def remoteStep (c r : Routines P) (h : Handlers P σ ε) (s : Exchange P σ) (k : Call P) :
    Except ε (Exchange P σ) := do
  let x ← call c r h s.state k
  return ⟨x.2, s.answers ++ [x.1.map fun y => ⟨k.proc, y⟩]⟩

def localStep (h : Handlers P σ ε) (s : Exchange P σ) (k : LocalCall P) :
    Except ε (Exchange P σ) := do
  let x ← h k.1 k.2 s.state
  return ⟨x.2, s.answers ++ [x.1.map fun y => ⟨k.1, y⟩]⟩

def Fit (r : Routines P) (h : Handlers P σ ε) : Prop :=
  ∀ p a s x s', h p a s = .ok (some x, s') → (r.res p).Fits x

theorem run_remoteStep_eq {r : Routines P} {h : Handlers P σ ε} (hfit : Fit r h)
    {ks : List (Call P)}
    (hks : ∀ k ∈ ks, (r.arg k.proc).Fits k.arg ∧ k.delivery = .delivered) (s : Exchange P σ) :
    run (remoteStep r r h) s ks = run (localStep h) s (ks.map Call.toLocal) := by
  induction ks generalizing s with
  | nil => rfl
  | cons k ks ih =>
    obtain ⟨⟨bs, hbs⟩, hdelivered⟩ := hks k (List.mem_cons_self ..)
    have harrived : k.arrived r = some k.toLocal := by
      rw [Call.arrived, if_pos ⟨by rw [hbs]; rfl, by rw [hdelivered]; decide⟩]
    have hstep : remoteStep r r h s k = localStep h s k.toLocal := by
      rw [remoteStep, (call_of_arrived harrived).2, localStep, Call.toLocal]
      cases hx : h k.proc k.arg s.state with
      | error e => rfl
      | ok x =>
        have hres : receive (r.res k.proc) (replyWith (r.res k.proc) x.1) = x.1 :=
          receive_replyWith _ fun y hy => hfit _ _ _ y x.2 (by rw [hx, ← hy])
        simp only [Except.map, ok_bind, hdelivered, reduceCtorEq, if_false, hres]
    rw [List.map_cons, run, run, hstep]
    cases localStep h s k.toLocal with
    | ok s' => exact ih (fun k' hk' => hks k' (List.mem_cons_of_mem _ hk')) s'
    | error e => rfl

structure Exchange.Among (s t : Exchange P σ) : Prop where
  state : s.state = t.state
  answers : (s.answers.filterMap id).Sublist (t.answers.filterMap id)

theorem filterMap_sublist_of_missing {α β : Type} (f : α → β) {x y : Option α}
    (h : y = none ∨ y = x) :
    ([y.map f].filterMap id).Sublist ([x.map f].filterMap id) := by
  obtain rfl | rfl := h
  · exact List.nil_sublist _
  · exact List.Sublist.refl _

theorem remoteStep_among {r : Routines P} {h : Handlers P σ ε} {s t : Exchange P σ} {k : Call P}
    (hst : s.Among t) {s' : Exchange P σ} (hs : remoteStep r r h s k = .ok s') :
    ∃ t', run (localStep h) t (k.arrived r).toList = .ok t' ∧ s'.Among t' := by
  cases hk : k.arrived r with
  | none =>
    rw [remoteStep, call_of_not_arrived hk] at hs
    cases hs
    refine ⟨t, rfl, hst.state, ?_⟩
    rw [List.filterMap_append]
    exact (List.append_nil _).symm ▸ hst.answers
  | some l =>
    obtain ⟨rfl, hcall⟩ := call_of_arrived (h := h) (s := s.state) hk
    rw [remoteStep, hcall] at hs
    cases hx : h k.proc k.arg s.state with
    | error e =>
      rw [hx] at hs
      cases hs
    | ok x =>
      rw [hx] at hs
      cases hs
      refine ⟨⟨x.2, t.answers ++ [x.1.map fun y => ⟨k.proc, y⟩]⟩, ?_, rfl, ?_⟩
      · rw [hst.state] at hx
        simp only [Option.toList_some, Call.toLocal, run, localStep, hx, ok_bind]
        rfl
      · rw [List.filterMap_append, List.filterMap_append]
        refine hst.answers.append (filterMap_sublist_of_missing _ ?_)
        split_ifs with hlost
        · exact Or.inl rfl
        · exact receive_replyWith_sub _ _

theorem run_remoteStep_among {r : Routines P} {h : Handlers P σ ε} {s t s' : Exchange P σ}
    {ks : List (Call P)} (hst : s.Among t) (hs : run (remoteStep r r h) s ks = .ok s') :
    ∃ t', run (localStep h) t (ks.filterMap (Call.arrived r)) = .ok t' ∧ s'.Among t' := by
  induction ks generalizing s t with
  | nil =>
    cases hs
    exact ⟨t, rfl, hst⟩
  | cons k ks ih =>
    obtain ⟨u, hu, hs⟩ := run_cons_ok.mp hs
    obtain ⟨v, hv, huv⟩ := remoteStep_among hst hu
    obtain ⟨t', ht', hst'⟩ := ih huv hs
    refine ⟨t', ?_, hst'⟩
    have hcons : (k :: ks).filterMap (Call.arrived r) =
        (k.arrived r).toList ++ ks.filterMap (Call.arrived r) := by
      rw [List.filterMap_cons]
      cases k.arrived r <;> rfl
    rw [hcons, run_append_ok]
    exact ⟨v, hv, ht'⟩

end RemoteCall
