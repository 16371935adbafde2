import Mathlib.Algebra.Ring.Nat
import Mathlib.Data.List.Basic
import Mathlib.Logic.Equiv.Defs
import Mathlib.Tactic.Common

/-!
# External data representation

Routines that turn values into octets and back, as the XDR standard has them: words with the most
significant octet first, counted octets padded to a multiple of four, counted arrays, optional data
and unions. A routine carries its laws. What it encodes it decodes again in front of any octets;
what it decodes it can encode, in as many octets as it has read; and octets behind those that it
reads make no difference to it. Decoders are not strict: they skip paddings that are not zero and
take every word but zero for true, so one value has many representations.
-/

namespace Xdr

abbrev Octet := BitVec 8

@[ext]
structure Routine (α : Type) where
  encode : α → Option (List Octet)
  decode : List Octet → Option (α × List Octet)
  decode_encode : ∀ {a bs}, encode a = some bs → ∀ rest, decode (bs ++ rest) = some (a, rest)
  encode_decode : ∀ {bs a rest}, decode bs = some (a, rest) →
    ∃ cs, encode a = some cs ∧ bs.length = cs.length + rest.length
  decode_append : ∀ {bs a rest}, decode bs = some (a, rest) →
    ∀ more, decode (bs ++ more) = some (a, rest ++ more)

namespace Routine

variable {α β : Type}

/-- The value can be encoded. -/
def Fits (r : Routine α) (a : α) : Prop := ∃ bs, r.encode a = some bs

theorem fits_of_decode (r : Routine α) {bs rest : List Octet} {a : α}
    (h : r.decode bs = some (a, rest)) : r.Fits a := by
  obtain ⟨cs, hcs, -⟩ := r.encode_decode h
  exact ⟨cs, hcs⟩

theorem decode_eq_none_of_cut (r : Routine α) {a : α} {bs cut : List Octet}
    (h : r.encode a = some (bs ++ cut)) (hcut : cut ≠ []) : r.decode bs = none := by
  by_contra hne
  obtain ⟨⟨b, rest⟩, hdec⟩ := Option.ne_none_iff_exists'.mp hne
  have hlong := r.decode_append hdec cut
  have hwhole := r.decode_encode h []
  rw [List.append_nil, hlong] at hwhole
  have hrest : rest ++ cut = [] := congrArg Prod.snd (Option.some.inj hwhole)
  exact hcut (List.append_eq_nil_iff.mp hrest).2

/-- The routine for the values of `β` that `f` makes of values of `α`, represented like these. -/
def embed (r : Routine α) (f : α → β) (g : β → Option α) (hg : ∀ {a b}, g b = some a ↔ f a = b) :
    Routine β where
  encode b := (g b).bind r.encode
  decode bs := (r.decode bs).map fun p => (f p.1, p.2)
  decode_encode := by
    intro b bs h rest
    obtain ⟨a, ha, h⟩ := Option.bind_eq_some_iff.mp h
    rw [r.decode_encode h rest, Option.map_some, hg.mp ha]
  encode_decode := by
    intro bs b rest h
    obtain ⟨⟨a, rest'⟩, ha, heq⟩ := Option.map_eq_some_iff.mp h
    cases heq
    rw [hg.mpr rfl, Option.bind_some]
    exact r.encode_decode ha
  decode_append := by
    intro bs b rest h more
    obtain ⟨⟨a, rest'⟩, ha, heq⟩ := Option.map_eq_some_iff.mp h
    cases heq
    rw [r.decode_append ha more, Option.map_some]

def iso (r : Routine α) (e : α ≃ β) : Routine β :=
  r.embed e (fun b => some (e.symm b)) (by
    intro a b
    rw [Option.some.injEq, e.symm_apply_eq, eq_comm])

def seq (r : Routine α) (q : Routine β) : Routine (α × β) where
  encode p := (r.encode p.1).bind fun bs => (q.encode p.2).map fun cs => bs ++ cs
  decode bs := (r.decode bs).bind fun p => (q.decode p.2).map fun s => ((p.1, s.1), s.2)
  decode_encode := by
    rintro ⟨a, b⟩ ds h rest
    obtain ⟨bs, hbs, h⟩ := Option.bind_eq_some_iff.mp h
    obtain ⟨cs, hcs, rfl⟩ := Option.map_eq_some_iff.mp h
    rw [List.append_assoc, r.decode_encode hbs, Option.bind_some, q.decode_encode hcs,
      Option.map_some]
  encode_decode := by
    rintro ds ⟨a, b⟩ rest h
    obtain ⟨⟨a', mid⟩, ha, h⟩ := Option.bind_eq_some_iff.mp h
    obtain ⟨⟨b', rest'⟩, hb, heq⟩ := Option.map_eq_some_iff.mp h
    cases heq
    obtain ⟨bs, hbs, hlen⟩ := r.encode_decode ha
    obtain ⟨cs, hcs, hlen'⟩ := q.encode_decode hb
    refine ⟨bs ++ cs, by rw [hbs, Option.bind_some, hcs, Option.map_some], ?_⟩
    rw [List.length_append]
    dsimp only at hlen' ⊢
    omega
  decode_append := by
    rintro ds ⟨a, b⟩ rest h more
    obtain ⟨⟨a', mid⟩, ha, h⟩ := Option.bind_eq_some_iff.mp h
    obtain ⟨⟨b', rest'⟩, hb, heq⟩ := Option.map_eq_some_iff.mp h
    cases heq
    rw [r.decode_append ha more, Option.bind_some, q.decode_append hb more, Option.map_some]

@[simp] theorem fits_iso {r : Routine α} {e : α ≃ β} {b : β} :
    (r.iso e).Fits b ↔ r.Fits (e.symm b) := Iff.rfl

@[simp] theorem fits_seq {r : Routine α} {q : Routine β} {p : α × β} :
    (r.seq q).Fits p ↔ r.Fits p.1 ∧ q.Fits p.2 := by
  constructor
  · rintro ⟨ds, h⟩
    obtain ⟨bs, hbs, h⟩ := Option.bind_eq_some_iff.mp h
    obtain ⟨cs, hcs, -⟩ := Option.map_eq_some_iff.mp h
    exact ⟨⟨bs, hbs⟩, cs, hcs⟩
  · rintro ⟨⟨bs, hbs⟩, cs, hcs⟩
    refine ⟨bs ++ cs, ?_⟩
    change (r.encode p.1).bind _ = _
    rw [hbs, Option.bind_some, hcs, Option.map_some]

def nothing : Routine Unit where
  encode _ := some []
  decode bs := some ((), bs)
  decode_encode := by
    rintro a bs ⟨⟩ rest
    rfl
  encode_decode := by
    rintro bs a rest ⟨⟩
    exact ⟨[], rfl, (Nat.zero_add _).symm⟩
  decode_append := by
    rintro bs a rest ⟨⟩ more
    rfl

def refuse : Routine α where
  encode _ := none
  decode _ := none
  decode_encode := fun h => nomatch h
  encode_decode := fun h => nomatch h
  decode_append := fun h => nomatch h

end Routine

open Routine

/-! ## Words -/

def putWord (w : BitVec 32) : List Octet :=
  [w.extractLsb' 24 8, w.extractLsb' 16 8, w.extractLsb' 8 8, w.extractLsb' 0 8]

def getWord : List Octet → Option (BitVec 32 × List Octet)
  | b₃ :: b₂ :: b₁ :: b₀ :: rest => some (b₃ ++ b₂ ++ b₁ ++ b₀, rest)
  | _ => none

theorem getWord_putWord (w : BitVec 32) (rest : List Octet) :
    getWord (putWord w ++ rest) = some (w, rest) := by
  change some (_, rest) = some (w, rest)
  congr 2
  apply BitVec.eq_of_getLsbD_eq
  intro i hi
  simp only [BitVec.getLsbD_append, BitVec.getLsbD_extractLsb']
  grind

theorem length_of_getWord {bs rest : List Octet} {w : BitVec 32}
    (h : getWord bs = some (w, rest)) : bs.length = 4 + rest.length := by
  unfold getWord at h
  split at h
  · cases h
    simp only [List.length_cons]
    omega
  · cases h

theorem getWord_append {bs rest : List Octet} {w : BitVec 32} (h : getWord bs = some (w, rest))
    (more : List Octet) : getWord (bs ++ more) = some (w, rest ++ more) := by
  unfold getWord at h
  split at h
  · cases h
    rfl
  · cases h

theorem getWord_of_length {bs : List Octet} (h : 4 ≤ bs.length) :
    ∃ w, getWord bs = some (w, bs.drop 4) := by
  match bs, h with
  | b₃ :: b₂ :: b₁ :: b₀ :: rest, _ => exact ⟨b₃ ++ b₂ ++ b₁ ++ b₀, rfl⟩

theorem rest_of_getWord {bs rest : List Octet} {w : BitVec 32} (h : getWord bs = some (w, rest)) :
    rest = bs.drop 4 := by
  unfold getWord at h
  split at h
  · cases h
    rfl
  · cases h

/-- `xdr_u_int`, and `xdr_int`, `xdr_enum` and `xdr_float` on the bits of their values. -/
def uint : Routine (BitVec 32) where
  encode w := some (putWord w)
  decode := getWord
  decode_encode := by
    rintro w bs ⟨⟩ rest
    exact getWord_putWord w rest
  encode_decode := fun h => ⟨_, rfl, length_of_getWord h⟩
  decode_append := fun h more => getWord_append h more

@[simp] theorem fits_uint {w : BitVec 32} : uint.Fits w := ⟨_, rfl⟩

def halves : BitVec 32 × BitVec 32 ≃ BitVec 64 where
  toFun p := p.1 ++ p.2
  invFun w := (w.extractLsb' 32 32, w.extractLsb' 0 32)
  left_inv p := by
    refine Prod.ext ?_ ?_
    · apply BitVec.eq_of_getLsbD_eq
      intro i hi
      simp only [BitVec.getLsbD_append, BitVec.getLsbD_extractLsb']
      grind
    · apply BitVec.eq_of_getLsbD_eq
      intro i hi
      simp only [BitVec.getLsbD_append, BitVec.getLsbD_extractLsb']
      grind
  right_inv w := by
    apply BitVec.eq_of_getLsbD_eq
    intro i hi
    simp only [BitVec.getLsbD_append, BitVec.getLsbD_extractLsb']
    grind

/-- `xdr_double` on the bits of its value. -/
def double : Routine (BitVec 64) := (uint.seq uint).iso halves

@[simp] theorem fits_double {w : BitVec 64} : double.Fits w := by
  simp [double]

/-- `xdr_bool`: every word but zero is true. -/
def bool : Routine Bool where
  encode b := some (putWord (if b then 1 else 0))
  decode bs := (getWord bs).map fun p => (decide (p.1 ≠ 0), p.2)
  decode_encode := by
    rintro b bs ⟨⟩ rest
    rw [getWord_putWord, Option.map_some]
    cases b <;> rfl
  encode_decode := by
    intro bs b rest h
    obtain ⟨⟨w, rest'⟩, hw, heq⟩ := Option.map_eq_some_iff.mp h
    cases heq
    exact ⟨_, rfl, length_of_getWord hw⟩
  decode_append := by
    intro bs b rest h more
    obtain ⟨⟨w, rest'⟩, hw, heq⟩ := Option.map_eq_some_iff.mp h
    cases heq
    rw [getWord_append hw, Option.map_some]

@[simp] theorem fits_bool {b : Bool} : bool.Fits b := ⟨_, rfl⟩

/-! ## Blocks of words

Runs of words are put into one block of the buffer of the stream when the buffer has room for it,
and word by word otherwise. -/

def Words : ℕ → Type
  | 0 => Unit
  | n + 1 => BitVec 32 × Words n

def words : (n : ℕ) → Routine (Words n)
  | 0 => nothing
  | n + 1 => uint.seq (words n)

@[simp] theorem fits_words {n : ℕ} {ws : Words n} : (words n).Fits ws := by
  induction n with
  | zero => exact ⟨[], rfl⟩
  | succ n ih => exact fits_seq.mpr ⟨fits_uint, ih⟩

theorem encode_words_succ {n : ℕ} (ws : Words (n + 1)) :
    (words (n + 1)).encode ws = ((words n).encode ws.2).map fun cs => putWord ws.1 ++ cs := rfl

theorem decode_words_of_length {n : ℕ} {bs : List Octet} (h : 4 * n ≤ bs.length) :
    ∃ ws, (words n).decode bs = some (ws, bs.drop (4 * n)) := by
  induction n generalizing bs with
  | zero => exact ⟨(), rfl⟩
  | succ n ih =>
    have hword : 4 ≤ bs.length := by omega
    have htail : 4 * n ≤ (bs.drop 4).length := by
      rw [List.length_drop]
      omega
    obtain ⟨w, hw⟩ := getWord_of_length hword
    obtain ⟨ws, hws⟩ := ih htail
    refine ⟨(w, ws), ?_⟩
    change ((getWord bs).bind fun p => ((words n).decode p.2).map fun s => ((p.1, s.1), s.2)) = _
    rw [hw, Option.bind_some, hws, Option.map_some, List.drop_drop, Nat.mul_succ,
      Nat.add_comm 4 (4 * n)]
    rfl

/-- `IXDR_PUT_U_LONG`, at an offset of the block. -/
def store (block : List Octet) (offset : ℕ) (w : BitVec 32) : List Octet :=
  block.take offset ++ (putWord w ++ block.drop (offset + 4))

def storeAll : {n : ℕ} → List Octet → ℕ → Words n → List Octet
  | 0, block, _, _ => block
  | _ + 1, block, offset, ws => storeAll (store block offset ws.1) (offset + 4) ws.2

/-- `IXDR_GET_U_LONG`, from an offset of the block. -/
def load (block : List Octet) (offset : ℕ) : Option (BitVec 32) :=
  (getWord (block.drop offset)).map Prod.fst

def loadAll (block : List Octet) : (n : ℕ) → ℕ → Option (Words n)
  | 0, _ => some ()
  | n + 1, offset =>
    (load block offset).bind fun w => (loadAll block n (offset + 4)).map fun ws => (w, ws)

/-- What `XDR_INLINE` answers: whether the buffer has a block for the words that are put, and
whether the octets to come lie in one block. -/
structure Room where
  put : {n : ℕ} → Words n → Bool
  get : List Octet → Bool

/-- A stream without blocks. -/
def Room.no : Room where
  put _ := false
  get _ := false

def putUnits (room : Room) {n : ℕ} (ws : Words n) : Option (List Octet) :=
  if room.put ws then some (storeAll (List.replicate (4 * n) 0) 0 ws) else (words n).encode ws

def getUnits (room : Room) (n : ℕ) (bs : List Octet) : Option (Words n × List Octet) :=
  if room.get bs ∧ 4 * n ≤ bs.length then
    (loadAll (bs.take (4 * n)) n 0).map fun ws => (ws, bs.drop (4 * n))
  else (words n).decode bs

-- The block behind the words that have been stored is still to be overwritten, whatever it holds.
theorem storeAll_eq {n : ℕ} {ws : Words n} {bs block : List Octet} (done : List Octet)
    (h : (words n).encode ws = some bs) (hblock : block.length = 4 * n) :
    storeAll (done ++ block) done.length ws = done ++ bs := by
  induction n generalizing bs done block with
  | zero =>
    cases h
    rw [List.eq_nil_of_length_eq_zero hblock]
    rfl
  | succ n ih =>
    rw [encode_words_succ] at h
    obtain ⟨cs, hcs, rfl⟩ := Option.map_eq_some_iff.mp h
    have hstore : store (done ++ block) done.length ws.1 =
        (done ++ putWord ws.1) ++ block.drop 4 := by
      rw [store, List.take_left, ← List.drop_drop, List.drop_left, List.append_assoc]
    have hnext : done.length + 4 = (done ++ putWord ws.1).length := by
      rw [List.length_append]
      rfl
    have hdrop : (block.drop 4).length = 4 * n := by
      rw [List.length_drop]
      omega
    rw [storeAll, hstore, hnext, ih _ hcs hdrop, List.append_assoc]

theorem loadAll_eq {n : ℕ} {bs rest : List Octet} {ws : Words n} (done : List Octet)
    (h : (words n).decode bs = some (ws, rest)) :
    loadAll (done ++ bs) n done.length = some ws := by
  induction n generalizing done bs with
  | zero => rfl
  | succ n ih =>
    obtain ⟨⟨w, mid⟩, hw, h⟩ := Option.bind_eq_some_iff.mp h
    obtain ⟨⟨ws', rest'⟩, hws, heq⟩ := Option.map_eq_some_iff.mp h
    cases heq
    have hload : load (done ++ bs) done.length = some w := by
      rw [load, List.drop_left]
      exact congrArg (Option.map Prod.fst) hw
    have hmid : done ++ bs = (done ++ bs.take 4) ++ mid := by
      rw [List.append_assoc, rest_of_getWord hw, List.take_append_drop]
    have hnext : done.length + 4 = (done ++ bs.take 4).length := by
      have hlen := length_of_getWord hw
      rw [List.length_append, List.length_take]
      omega
    rw [loadAll, hload, Option.bind_some, hnext, hmid, ih _ hws]
    rfl

theorem putUnits_eq (room : Room) {n : ℕ} (ws : Words n) :
    putUnits room ws = (words n).encode ws := by
  obtain ⟨bs, hbs⟩ : (words n).Fits ws := fits_words
  unfold putUnits
  split_ifs with hroom
  · rw [hbs]
    exact congrArg some (storeAll_eq [] hbs (List.length_replicate ..))
  · rfl

theorem getUnits_eq (room : Room) {n : ℕ} (bs : List Octet) :
    getUnits room n bs = (words n).decode bs := by
  unfold getUnits
  split_ifs with hroom
  · have hlen : 4 * n ≤ (bs.take (4 * n)).length := by
      rw [List.length_take]
      omega
    obtain ⟨ws, hws⟩ := decode_words_of_length hlen
    have hlong := (words n).decode_append hws (bs.drop (4 * n))
    rw [List.take_append_drop, List.drop_take_self, List.nil_append] at hlong
    have hload : loadAll (bs.take (4 * n)) n 0 = some ws := loadAll_eq [] hws
    rw [hlong, hload, Option.map_some]
  · rfl

def units (room : Room) (n : ℕ) : Routine (Words n) where
  encode := putUnits room
  decode := getUnits room n
  decode_encode := by
    intro ws bs h rest
    rw [putUnits_eq] at h
    rw [getUnits_eq]
    exact (words n).decode_encode h rest
  encode_decode := by
    intro bs ws rest h
    rw [getUnits_eq] at h
    rw [putUnits_eq]
    exact (words n).encode_decode h
  decode_append := by
    intro bs ws rest h more
    rw [getUnits_eq] at h ⊢
    exact (words n).decode_append h more

theorem units_eq (room : Room) (n : ℕ) : units room n = words n :=
  Routine.ext (funext (putUnits_eq room)) (funext (getUnits_eq room))

@[simp] theorem fits_units {room : Room} {n : ℕ} {ws : Words n} : (units room n).Fits ws := by
  rw [units_eq]
  exact fits_words

/-! ## A word and what it announces -/

section Headed

variable {α : Type} (head : α → BitVec 32) (tail : BitVec 32 → Routine α)
  (htail : ∀ w a bs, (tail w).encode a = some bs → (tail (head a)).encode a = some bs)

/-- A word, and behind it a representation that depends on the word. Of the words that announce a
value, the encoder takes the one that `head` gives. -/
def headed : Routine α where
  encode a := ((tail (head a)).encode a).map fun bs => putWord (head a) ++ bs
  decode bs := (getWord bs).bind fun p => (tail p.1).decode p.2
  decode_encode := by
    intro a ds h rest
    obtain ⟨bs, hbs, rfl⟩ := Option.map_eq_some_iff.mp h
    rw [List.append_assoc, getWord_putWord, Option.bind_some, (tail (head a)).decode_encode hbs]
  encode_decode := by
    intro ds a rest h
    obtain ⟨⟨w, bs⟩, hw, h⟩ := Option.bind_eq_some_iff.mp h
    obtain ⟨cs, hcs, hlen⟩ := (tail w).encode_decode h
    refine ⟨putWord (head a) ++ cs, by rw [htail w a cs hcs, Option.map_some], ?_⟩
    have hds := length_of_getWord hw
    simp only [putWord, List.length_append, List.length_cons, List.length_nil]
    dsimp only at hlen
    omega
  decode_append := by
    intro ds a rest h more
    obtain ⟨⟨w, bs⟩, hw, h⟩ := Option.bind_eq_some_iff.mp h
    rw [getWord_append hw more, Option.bind_some, (tail w).decode_append h more]

theorem fits_headed {a : α} : (headed head tail htail).Fits a ↔ (tail (head a)).Fits a := by
  constructor
  · rintro ⟨ds, h⟩
    obtain ⟨bs, hbs, -⟩ := Option.map_eq_some_iff.mp h
    exact ⟨bs, hbs⟩
  · rintro ⟨bs, hbs⟩
    exact ⟨putWord (head a) ++ bs, Option.map_eq_some_iff.mpr ⟨bs, hbs, rfl⟩⟩

end Headed

/-! ## Counted data -/

section Counted

variable {α : Type} (limit : ℕ) (r : ℕ → Routine (List α))
  (hr : ∀ {n l bs}, (r n).encode l = some bs → l.length = n)

/-- A count of at most `limit`, and behind it the elements, for which `r` has a routine of each
length. -/
def counted : Routine (List α) :=
  headed (fun l => BitVec.ofNat 32 l.length)
    (fun w => if w.toNat ≤ limit then r w.toNat else refuse) (by
      intro w l bs h
      by_cases hlimit : w.toNat ≤ limit
      · have hlen : l.length = w.toNat := hr (by rwa [if_pos hlimit] at h)
        rwa [hlen, BitVec.ofNat_toNat, BitVec.setWidth_eq]
      · rw [if_neg hlimit] at h
        cases h)

theorem fits_counted {l : List α} :
    (counted limit r hr).Fits l ↔
      l.length < 2 ^ 32 ∧ l.length ≤ limit ∧ (r l.length).Fits l := by
  rw [counted, fits_headed, BitVec.toNat_ofNat]
  constructor
  · rintro ⟨bs, h⟩
    by_cases hlimit : l.length % 2 ^ 32 ≤ limit
    · rw [if_pos hlimit] at h
      have hlen := hr h
      have hlt : l.length < 2 ^ 32 := hlen ▸ Nat.mod_lt _ (by decide)
      rw [← hlen] at h hlimit
      exact ⟨hlt, hlimit, bs, h⟩
    · rw [if_neg hlimit] at h
      cases h
  · rintro ⟨hlt, hlimit, hfits⟩
    rwa [Nat.mod_eq_of_lt hlt, if_pos hlimit]

end Counted

/-- The octets that fill `n` octets up to a multiple of four. -/
def padding (n : ℕ) : ℕ := (4 - n % 4) % 4

/-- `xdr_opaque`: `n` octets and their padding. -/
def octets (n : ℕ) : Routine (List Octet) where
  encode l := if l.length = n then some (l ++ List.replicate (padding n) 0) else none
  decode bs :=
    if n + padding n ≤ bs.length then some (bs.take n, bs.drop (n + padding n)) else none
  decode_encode := by
    intro l bs h rest
    split_ifs at h with hlen
    cases h
    subst hlen
    rw [if_pos (by simp), List.append_assoc, List.take_left, ← List.drop_drop, List.drop_left,
      List.drop_left' List.length_replicate]
  encode_decode := by
    intro bs l rest h
    split_ifs at h with hlong
    cases h
    have hlen : (bs.take n).length = n := by
      rw [List.length_take]
      omega
    refine ⟨_, if_pos hlen, ?_⟩
    rw [List.length_append, hlen, List.length_replicate, List.length_drop]
    omega
  decode_append := by
    intro bs l rest h more
    split_ifs at h with hlong
    cases h
    rw [if_pos (by rw [List.length_append]; omega), List.take_append_of_le_length (by omega),
      List.drop_append_of_le_length hlong]

theorem length_of_octets {n : ℕ} {l bs : List Octet} (h : (octets n).encode l = some bs) :
    l.length = n := by
  by_contra hne
  exact absurd (h.symm.trans (if_neg hne)) (Option.some_ne_none bs)

/-- `xdr_bytes` for at most `max` octets. -/
def bytes (max : BitVec 32) : Routine (List Octet) :=
  counted max.toNat octets length_of_octets

@[simp] theorem fits_bytes {max : BitVec 32} {l : List Octet} :
    (bytes max).Fits l ↔ l.length ≤ max.toNat := by
  rw [bytes, fits_counted]
  constructor
  · rintro ⟨-, hmax, -⟩
    exact hmax
  · intro hmax
    exact ⟨Nat.lt_of_le_of_lt hmax max.isLt, hmax, _, if_pos rfl⟩

section Elements

variable {α : Type} (r : Routine α)

def encodeList : List α → Option (List Octet)
  | [] => some []
  | a :: as => (r.encode a).bind fun bs => (encodeList as).map fun cs => bs ++ cs

def decodeList : ℕ → List Octet → Option (List α × List Octet)
  | 0, bs => some ([], bs)
  | n + 1, bs => (r.decode bs).bind fun p => (decodeList n p.2).map fun s => (p.1 :: s.1, s.2)

variable {r}

theorem decodeList_encodeList {as : List α} {bs : List Octet} (h : encodeList r as = some bs)
    (rest : List Octet) : decodeList r as.length (bs ++ rest) = some (as, rest) := by
  induction as generalizing bs with
  | nil =>
    cases h
    rfl
  | cons a as ih =>
    obtain ⟨cs, hcs, h⟩ := Option.bind_eq_some_iff.mp h
    obtain ⟨ds, hds, rfl⟩ := Option.map_eq_some_iff.mp h
    rw [List.length_cons, decodeList, List.append_assoc, r.decode_encode hcs, Option.bind_some,
      ih hds, Option.map_some]

theorem encodeList_decodeList {n : ℕ} {bs rest : List Octet} {as : List α}
    (h : decodeList r n bs = some (as, rest)) :
    as.length = n ∧ ∃ cs, encodeList r as = some cs ∧ bs.length = cs.length + rest.length := by
  induction n generalizing bs as with
  | zero =>
    cases h
    exact ⟨rfl, [], rfl, (Nat.zero_add _).symm⟩
  | succ n ih =>
    obtain ⟨⟨a, mid⟩, ha, h⟩ := Option.bind_eq_some_iff.mp h
    obtain ⟨⟨as', rest'⟩, has, heq⟩ := Option.map_eq_some_iff.mp h
    cases heq
    obtain ⟨cs, hcs, hlen⟩ := r.encode_decode ha
    obtain ⟨rfl, ds, hds, hlen'⟩ := ih has
    refine ⟨rfl, cs ++ ds, ?_, ?_⟩
    · rw [encodeList, hcs, Option.bind_some, hds, Option.map_some]
    · rw [List.length_append]
      dsimp only at hlen' ⊢
      omega

theorem decodeList_append {n : ℕ} {bs rest : List Octet} {as : List α}
    (h : decodeList r n bs = some (as, rest)) (more : List Octet) :
    decodeList r n (bs ++ more) = some (as, rest ++ more) := by
  induction n generalizing bs as with
  | zero =>
    cases h
    rfl
  | succ n ih =>
    obtain ⟨⟨a, mid⟩, ha, h⟩ := Option.bind_eq_some_iff.mp h
    obtain ⟨⟨as', rest'⟩, has, heq⟩ := Option.map_eq_some_iff.mp h
    cases heq
    rw [decodeList, r.decode_append ha more, Option.bind_some, ih has, Option.map_some]

theorem encodeList_isSome_iff {as : List α} :
    (∃ bs, encodeList r as = some bs) ↔ ∀ a ∈ as, r.Fits a := by
  induction as with
  | nil => exact iff_of_true ⟨[], rfl⟩ (by simp)
  | cons a as ih =>
    rw [List.forall_mem_cons, ← ih]
    constructor
    · rintro ⟨ds, h⟩
      obtain ⟨bs, hbs, h⟩ := Option.bind_eq_some_iff.mp h
      obtain ⟨cs, hcs, -⟩ := Option.map_eq_some_iff.mp h
      exact ⟨⟨bs, hbs⟩, cs, hcs⟩
    · rintro ⟨⟨bs, hbs⟩, cs, hcs⟩
      exact ⟨bs ++ cs, by rw [encodeList, hbs, Option.bind_some, hcs, Option.map_some]⟩

variable (r)

/-- `xdr_vector`: the values of a list of a known length. -/
def vector (n : ℕ) : Routine (List α) where
  encode as := if as.length = n then encodeList r as else none
  decode := decodeList r n
  decode_encode := by
    intro as bs h rest
    split_ifs at h with hlen
    rw [← hlen, decodeList_encodeList h]
  encode_decode := by
    intro bs as rest h
    obtain ⟨hlen, hcs⟩ := encodeList_decodeList h
    rwa [if_pos hlen]
  decode_append := decodeList_append

variable {r}

theorem length_of_vector {n : ℕ} {as : List α} {bs : List Octet}
    (h : (vector r n).encode as = some bs) : as.length = n := by
  by_contra hne
  exact absurd (h.symm.trans (if_neg hne)) (Option.some_ne_none bs)

variable (r)

/-- The number of elements of `elsize` octets in memory that `xdr_array` admits. -/
def arrayLimit (max : BitVec 32) (elsize : ℕ) : ℕ := min max.toNat ((2 ^ 32 - 1) / elsize)

/-- `xdr_array` for at most `max` elements of `elsize` octets in memory. -/
def array (max : BitVec 32) (elsize : ℕ) : Routine (List α) :=
  counted (arrayLimit max elsize) (vector r) length_of_vector

variable {r}

@[simp] theorem fits_array {max : BitVec 32} {elsize : ℕ} {as : List α} :
    (array r max elsize).Fits as ↔ as.length ≤ arrayLimit max elsize ∧ ∀ a ∈ as, r.Fits a := by
  rw [array, fits_counted, ← encodeList_isSome_iff]
  have hvector : (vector r as.length).encode as = encodeList r as := if_pos rfl
  constructor
  · rintro ⟨-, hlimit, bs, h⟩
    exact ⟨hlimit, bs, hvector.symm.trans h⟩
  · rintro ⟨hlimit, bs, h⟩
    have hmax : as.length ≤ max.toNat := Nat.le_trans hlimit (Nat.min_le_left _ _)
    exact ⟨Nat.lt_of_le_of_lt hmax max.isLt, hlimit, bs, hvector.trans h⟩

end Elements

/-! ## Optional data and unions -/

section Arms

variable {α : Type} (r : Routine α)

/-- `xdr_pointer`: a truth value, and the value that the pointer points at unless it is `NULL`. -/
def pointer : Routine (Option α) :=
  headed (fun o => if o.isSome then 1 else 0)
    (fun w =>
      if w = 0 then nothing.embed (fun _ => none) (fun o => if o.isNone then some () else none)
        (by rintro ⟨⟩ (_ | a) <;> simp)
      else r.embed some id (by
        intro a o
        exact eq_comm))
    (by
      intro w o bs h
      by_cases hw : w = 0
      · rw [if_pos hw] at h
        cases o with
        | none => exact h
        | some a => cases h
      · rw [if_neg hw] at h
        cases o with
        | none => cases h
        | some a => exact h)

@[simp] theorem fits_pointer {o : Option α} :
    (pointer r).Fits o ↔ ∀ a, o = some a → r.Fits a := by
  rw [pointer, fits_headed]
  cases o with
  | none => exact iff_of_true ⟨[], rfl⟩ (by simp)
  | some a =>
    rw [if_neg (by simp)]
    simp only [Option.some.injEq, forall_eq']
    exact Iff.rfl

inductive Variant (α : Type)
  | arm (a : α)
  | void (tag : BitVec 32) (h : tag ≠ 0)
  deriving DecidableEq

namespace Variant

def tag {α : Type} : Variant α → BitVec 32
  | arm _ => 0
  | void tag _ => tag

def arm? {α : Type} : Variant α → Option α
  | arm a => some a
  | void _ _ => none

theorem arm?_eq_some_iff {α : Type} {a : α} {u : Variant α} : u.arm? = some a ↔ arm a = u := by
  cases u with
  | arm b => simp [arm?, eq_comm]
  | void w h => simp [arm?]

theorem tag_eq_iff {α : Type} {w : BitVec 32} (hw : w ≠ 0) {x : Unit} {u : Variant α} :
    (if u.tag = w then some () else none) = some x ↔ void w hw = u := by
  rw [Option.ite_none_right_eq_some, and_iff_left rfl]
  cases u with
  | arm a => exact iff_of_false (Ne.symm hw) (by simp)
  | void w' h' => simp [tag, eq_comm]

end Variant

def variant : Routine (Variant α) :=
  headed Variant.tag
    (fun w =>
      if hw : w = 0 then r.embed Variant.arm Variant.arm? Variant.arm?_eq_some_iff
      else nothing.embed (fun _ => .void w hw) (fun u => if u.tag = w then some () else none)
        (Variant.tag_eq_iff hw))
    (by
      intro w u bs h
      by_cases hw : w = 0
      · rw [dif_pos hw] at h
        cases u with
        | arm a => exact h
        | void w' h' => cases h
      · rw [dif_neg hw] at h
        obtain ⟨b, hb, -⟩ := Option.bind_eq_some_iff.mp h
        obtain rfl : u.tag = w := (Option.ite_none_right_eq_some.mp hb).1
        rw [dif_neg hw]
        exact h)

@[simp] theorem fits_variant {u : Variant α} : (variant r).Fits u ↔ ∀ a, u = .arm a → r.Fits a := by
  rw [variant, fits_headed]
  cases u with
  | arm a =>
    rw [dif_pos (show (Variant.arm a).tag = 0 from rfl)]
    simp only [Variant.arm.injEq, forall_eq']
    exact Iff.rfl
  | void w h =>
    rw [dif_neg (show (Variant.void w h).tag ≠ 0 from h)]
    refine iff_of_true ⟨[], ?_⟩ (by simp)
    change (if w = w then some () else none).bind _ = _
    rw [if_pos rfl]
    rfl

end Arms

end Xdr
