import VMAccel.DispatchGate

/-!
# The topology that is launched

A client describes the work of a kernel by a topology. Both of its ways to dispatch fill in the
message with the arrays of the topology and with the dimension 1.
-/

namespace VMAccel

/-- A topology; the constructor throws when the three vectors differ in length. -/
structure WorkTopology where
  values : WorkArray → List (BitVec 32)
  length_eq : ∀ array, (values array).length = (values .globalOffset).length

namespace WorkTopology

open Dispatch

/-- The number of dimensions of the vectors themselves. -/
def dimensions (t : WorkTopology) : ℕ := (t.values .globalOffset).length

def getNumDimensions (t : WorkTopology) : BitVec 32 := BitVec.ofNat 32 t.dimensions

def message (t : WorkTopology) (dimension : BitVec 32) (args : List KernelArg)
    (kernel : List (List Byte) → ℕ → ℕ → Byte) (hargs : args.length < 2 ^ 32) : VMCLDispatchOp where
  op := ⟨args, dimension, kernel⟩
  work array := (t.values array).take t.getNumDimensions.toNat
  length_args := hargs

variable (t : WorkTopology) (args : List KernelArg) (kernel : List (List Byte) → ℕ → ℕ → Byte)
  (hargs : args.length < 2 ^ 32)

/-- The message of `operation::dispatch`, for each of its tries. -/
def operationMessage : VMCLDispatchOp := t.message 1 args kernel hargs

/-- The message of `execute`. -/
def executeMessage : VMCLDispatchOp := t.message 1 args kernel hargs

/-- The kernel is launched with the dimensions of the topology, and with its values. -/
def LaunchedBy (log : List DispatchEvent) : Prop :=
  ∀ dimension work, .launch dimension work ∈ log →
    dimension.toNat = t.dimensions ∧ work = t.values

variable {t args kernel hargs}

theorem launched_message (ht : t.dimensions = 1) (array : WorkArray) :
    ((t.message 1 args kernel hargs).work array).take 1 = t.values array := by
  have hlen : (t.values array).length = 1 := (t.length_eq array).trans ht
  have hnum : t.getNumDimensions.toNat = 1 := by rw [getNumDimensions, ht]; rfl
  have htake : ∀ l : List (BitVec 32), l.length = 1 → (l.take 1).take 1 = l := fun l hl => by
    rw [List.take_take, Nat.min_self, ← hl, List.take_length]
  rw [message, hnum]
  exact htake _ hlen

theorem launchedBy_message_iff {s : Backend} {cl : Bool}
    (hlaunch : Launches (dispatch s (t.message 1 args kernel hargs) cl).log) :
    t.LaunchedBy (dispatch s (t.message 1 args kernel hargs) cl).log ↔ t.dimensions = 1 := by
  constructor
  · intro h
    obtain ⟨dimension, work, hmem⟩ := hlaunch
    have hdim := (h dimension work hmem).1
    cases (eq_launched hmem : _ = DispatchEvent.launch 1 _)
    exact hdim.symm
  · intro ht dimension work hmem
    cases (eq_launched hmem : _ = DispatchEvent.launch 1 _)
    exact ⟨ht.symm, funext fun array => launched_message ht array⟩

/-- Whenever one of the two messages gets a kernel launched, it is launched as the topology says
exactly if that has one dimension. -/
theorem launched_as_requested_iff (t : WorkTopology) (args : List KernelArg)
    (kernel : List (List Byte) → ℕ → ℕ → Byte) (hargs : args.length < 2 ^ 32) (s : Backend)
    (cl : Bool) (m : VMCLDispatchOp)
    (hm : m = t.operationMessage args kernel hargs ∨ m = t.executeMessage args kernel hargs)
    (hlaunch : Launches (dispatch s m cl).log) :
    t.LaunchedBy (dispatch s m cl).log ↔ t.dimensions = 1 := by
  rcases hm with rfl | rfl
  · exact launchedBy_message_iff hlaunch
  · exact launchedBy_message_iff hlaunch

def demoArgs : List KernelArg := [⟨true, 0, 0, 0, true⟩]

def demoLine : WorkTopology where
  values
    | .globalOffset => [0]
    | .globalSize => [4]
    | .localSize => [1]
  length_eq array := by cases array <;> rfl

theorem line_launched_as_requested :
    demoLine.LaunchedBy (dispatch .powerOn
      (demoLine.executeMessage demoArgs (fun _ _ _ => 0) (by decide)) true).log :=
  (launched_as_requested_iff demoLine demoArgs (fun _ _ _ => 0) (by decide) .powerOn true _
    (Or.inr rfl) (by decide +kernel)).mpr rfl

def demoPlane : WorkTopology where
  values
    | .globalOffset => [0, 8]
    | .globalSize => [4, 6]
    | .localSize => [1, 2]
  length_eq array := by cases array <;> rfl

/-- The launches of a log, with offsets, sizes and local sizes. -/
def launches (log : List DispatchEvent) :
    List (BitVec 32 × List (BitVec 32) × List (BitVec 32) × List (BitVec 32)) :=
  log.filterMap fun
    | .launch dimension work =>
      some (dimension, work .globalOffset, work .globalSize, work .localSize)
    | _ => none

/-- Of two dimensions only the first is launched. -/
theorem plane_launched_as_line :
    launches (dispatch .powerOn (demoPlane.operationMessage demoArgs (fun _ _ _ => 0) (by decide))
      true).log = [(1, [0], [4], [1])] ∧
    launches (dispatch .powerOn (demoPlane.executeMessage demoArgs (fun _ _ _ => 0) (by decide))
      true).log = [(1, [0], [4], [1])] := by
  decide +kernel

end WorkTopology

end VMAccel
