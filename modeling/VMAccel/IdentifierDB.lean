import VMAccel.Basic
import VMAccel.PackedBits

/-!
# The identifier database

`IdentifierDB` of `vmaccel_utils.c` keeps a set of identifiers below `size` as a bit map of
32-bit words, together with a counter of the identifiers that are free. Reads and writes of a
word go through `readAt`, so a word index at or beyond `numWords` is a fault, and a failed
`assert` is one too. The length of the bit map and the number of words computed by
`IdentifierDB_Alloc` are fields of the structure: no operation changes them.
-/

namespace VMAccel

/-- One narrowing step of `BitMask_FindFirstZero`: the mask and the index found so far. -/
def skipOnes (ones : BitVec 32) (width : ℕ) (p : BitVec 32 × ℕ) : BitVec 32 × ℕ :=
  if p.1 &&& ones = ones then (p.1 >>> width, p.2 + width) else p

/-- `BitMask_FindFirstZero`, with `none` for the return value `-1`. -/
def bitMaskFindFirstZero (bitMask : BitVec 32) : Option ℕ :=
  if bitMask ≠ 0xffffffff then
    let p := skipOnes 0xf 4 (skipOnes 0xff 8 (skipOnes 0xffff 16 (bitMask, 0)))
    if p.1 &&& 0x1 = 0 then some p.2
    else if p.1 &&& 0x2 = 0 then some (p.2 + 1)
    else if p.1 &&& 0x4 = 0 then some (p.2 + 2)
    else if p.1 &&& 0x8 = 0 then some (p.2 + 3)
    else none
  else none

@[ext]
structure IdentifierDB where
  size : BitVec 32
  numWords : BitVec 32
  free : BitVec 32
  bits : List (BitVec 32)
  numWords_eq : numWords = (size + 31) / 32
  length_bits : bits.length = numWords.toNat
  deriving DecidableEq

namespace IdentifierDB

/-- `IdentifierDB_Alloc`; the two `calloc` calls are taken to succeed. -/
def alloc (size : BitVec 32) : IdentifierDB where
  size := size
  numWords := (size + 31) / 32
  free := size
  bits := List.replicate ((size + 31) / 32).toNat 0
  numWords_eq := rfl
  length_bits := List.length_replicate

def count (db : IdentifierDB) : BitVec 32 := db.size - db.free

def setWord (db : IdentifierDB) (i : ℕ) (v : BitVec 32) : IdentifierDB :=
  { db with bits := db.bits.set i v, length_bits := by simpa using db.length_bits }

/-- The word mask `1 << (id % 32)`. -/
def idMask (id : VMAccelId) : BitVec 32 := 1#32 <<< (id.toNat % 32)

def activeId (db : IdentifierDB) (id : VMAccelId) : Except Fault Bool :=
  if db.size ≤ id then .ok false
  else do
    let w ← readAt db.bits (id.toNat / 32)
    return decide (w &&& idMask id ≠ 0)

/-- The explicit-identifier acquisition sets the bit and leaves `free` alone. -/
def acquireId (db : IdentifierDB) (id : VMAccelId) : Except Fault (Bool × IdentifierDB) :=
  if db.size ≤ id then .ok (false, db)
  else do
    let active ← db.activeId id
    if active then return (false, db)
    let w ← readAt db.bits (id.toNat / 32)
    return (true, db.setWord (id.toNat / 32) (w ||| idMask id))

/-- The mask of one round of the range loops, with `MIN(32, end - start + 1)` bits. -/
def rangeMask (start stop : BitVec 32) : BitVec 32 :=
  let numBits := if 32 < stop - start + 1 then 32 else stop - start + 1
  if numBits = 32 then 0xffffffff else (1#32 <<< numBits.toNat - 1) <<< (start.toNat % 32)

/-- `n` rounds of the range loops from word `i` on: the words visited and the mask for each.
The loop moves `start` to the next word after every round. -/
def rangeWordsFrom : ℕ → ℕ → BitVec 32 → BitVec 32 → List (ℕ × BitVec 32)
  | 0, _, _, _ => []
  | n + 1, i, start, stop =>
    (i, rangeMask start stop) :: rangeWordsFrom n (i + 1) (start + (32 - start % 32)) stop

/-- The rounds of `for (i = start / 32; i <= end / 32; i++)`. -/
def rangeWords (start stop : BitVec 32) : List (ℕ × BitVec 32) :=
  rangeWordsFrom (stop.toNat / 32 + 1 - start.toNat / 32) (start.toNat / 32) start stop

def acquireWords (db : IdentifierDB) : List (ℕ × BitVec 32) → Except Fault (Bool × IdentifierDB)
  | [] => .ok (true, db)
  | (i, mask) :: rest => do
    let w ← readAt db.bits i
    if w &&& mask ≠ 0 then return (false, db)
    acquireWords (db.setWord i (w ||| mask)) rest

def acquireIdRange (db : IdentifierDB) (start stop : BitVec 32) :
    Except Fault (Bool × IdentifierDB) :=
  if db.size ≤ start ∨ db.size ≤ stop then .ok (false, db)
  else db.acquireWords (rangeWords start stop)

/-- The search of `IdentifierDB_AllocId` over the `n` words from word `i` on. Running past the
last word is the failed assertion of a corrupted database. -/
def allocIdFrom (db : IdentifierDB) : ℕ → ℕ → Except Fault (Option VMAccelId × IdentifierDB)
  | 0, _ => .error .assertion
  | n + 1, i => do
    let w ← readAt db.bits i
    match bitMaskFindFirstZero w with
    | some ret =>
      return (some (BitVec.ofNat 32 (i * 32 + ret)),
        { db.setWord i (w ||| 1#32 <<< ret) with free := db.free - 1 })
    | none => allocIdFrom db n (i + 1)

def allocId (db : IdentifierDB) : Except Fault (Option VMAccelId × IdentifierDB) :=
  if db.free = 0 then .ok (none, db) else db.allocIdFrom db.numWords.toNat 0

def releaseId (db : IdentifierDB) (id : VMAccelId) : Except Fault IdentifierDB :=
  if db.size ≤ id then .ok db
  else do
    let w ← readAt db.bits (id.toNat / 32)
    if w &&& idMask id ≠ 0 then
      return { db.setWord (id.toNat / 32) (w &&& ~~~idMask id) with free := db.free + 1 }
    else .error .assertion

def releaseWords (db : IdentifierDB) : List (ℕ × BitVec 32) → Except Fault IdentifierDB
  | [] => .ok db
  | (i, mask) :: rest => do
    let w ← readAt db.bits i
    releaseWords (db.setWord i (w &&& ~~~mask)) rest

def releaseIdRange (db : IdentifierDB) (start stop : BitVec 32) :
    Except Fault (Bool × IdentifierDB) :=
  if db.size ≤ start ∨ db.size ≤ stop then .ok (false, db)
  else do
    let db' ← db.releaseWords (rangeWords start stop)
    return (true, db')

end IdentifierDB

end VMAccel
