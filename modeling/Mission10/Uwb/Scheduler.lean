import Mathlib.Data.List.MinMax
import Mathlib.Data.Prod.Lex
import Mission10.Uwb.Protocol

/-!
# Pair-local medium access

Every radio derives the same sorted roster and the same list of pairs. The
lower address of a pair initiates. A pair's scheduler state decides when its
next attempt is due; close pairs are attempted more often, and failures widen a
pseudorandom retry window.
-/
namespace Mission10.Uwb

def maxNodes : ℕ := 6
def maxPairs : ℕ := 15
def farPeriodUs : UInt64 := 100000
def closePeriodUs : UInt64 := 10000
def closeExpiryUs : UInt64 := 300000
def maxBackoffUs : UInt64 := 400000
def closeEnterMm : UInt32 := 3000
def closeExitMm : UInt32 := 3500

/-- `u64::saturating_add`. -/
def saturatingAdd (a b : UInt64) : UInt64 :=
  if a.toNat + b.toNat < UInt64.size then a + b else UInt64.ofNat (UInt64.size - 1)

theorem toNat_saturatingAdd (a b : UInt64) :
    (saturatingAdd a b).toNat = min (a.toNat + b.toNat) (UInt64.size - 1) := by
  have hb : UInt64.size = 2 ^ 64 := rfl
  unfold saturatingAdd
  split
  · rename_i h
    rw [UInt64.toNat_add, Nat.mod_eq_of_lt h]
    omega
  · have hmax : (UInt64.ofNat (UInt64.size - 1)).toNat = UInt64.size - 1 := rfl
    omega

/-- `u64::saturating_sub`. -/
def saturatingSub (a b : UInt64) : UInt64 := if b ≤ a then a - b else 0

theorem toNat_saturatingSub (a b : UInt64) :
    (saturatingSub a b).toNat = a.toNat - b.toNat := by
  unfold saturatingSub
  split
  · rename_i h
    exact UInt64.toNat_sub_of_le _ _ h
  · rename_i h
    rw [UInt64.le_iff_toNat_le] at h
    rw [UInt64.toNat_zero]
    omega

/-- `u64::saturating_mul`. -/
def saturatingMul (a b : UInt64) : UInt64 :=
  if a.toNat * b.toNat < UInt64.size then a * b else UInt64.ofNat (UInt64.size - 1)

structure Pair where
  initiator : NodeAddress
  responder : NodeAddress
  deriving DecidableEq

inductive PairRole where
  | initiator (peer : NodeAddress)
  | responder (peer : NodeAddress)
  | observer
  deriving DecidableEq

namespace Pair

def new (first second : NodeAddress) : Option Pair :=
  if first = second then none
  else if first < second then some ⟨first, second⟩ else some ⟨second, first⟩

def role (pair : Pair) (node : NodeAddress) : PairRole :=
  if node = pair.initiator then .initiator pair.responder
  else if node = pair.responder then .responder pair.initiator
  else .observer

theorem new_of_lt {a b : NodeAddress} (h : a < b) : new a b = some ⟨a, b⟩ := by
  have hne : a ≠ b := fun he => NodeAddress.lt_irrefl b (he ▸ h)
  simp [new, hne, h]

theorem new_of_gt {a b : NodeAddress} (h : b < a) : new a b = some ⟨b, a⟩ := by
  have hne : a ≠ b := fun he => NodeAddress.lt_irrefl b (he ▸ h)
  have hlt : ¬ a < b := by
    rw [NodeAddress.lt_iff] at h ⊢
    omega
  simp [new, hne, hlt]

end Pair

/-- A sorted, duplicate-free list of two to six nodes. -/
structure FlightRoster where
  nodes : List NodeAddress
  count_valid : 2 ≤ nodes.length ∧ nodes.length ≤ maxNodes
  sorted : nodes.IsChain (· < ·)
  deriving DecidableEq

namespace FlightRoster

def new (localNode : NodeAddress) (peers : List NodeAddress) : Option FlightRoster :=
  if peers = [] ∨ maxNodes ≤ peers.length ∨ localNode ∈ peers then none
  else
    let nodes := (localNode :: peers).mergeSort (fun a b => decide (a ≤ b))
    if h : (2 ≤ nodes.length ∧ nodes.length ≤ maxNodes) ∧ nodes.IsChain (· < ·) then
      some ⟨nodes, h.1, h.2⟩
    else none

def contains (roster : FlightRoster) (node : NodeAddress) : Bool := node ∈ roster.nodes

/-- Every pair of listed nodes, in the order of the source's two indices. -/
def pairsOf : List NodeAddress → List Pair
  | [] => []
  | lower :: rest => rest.filterMap (Pair.new lower) ++ pairsOf rest

def pairs (roster : FlightRoster) : List Pair := pairsOf roster.nodes

end FlightRoster

/-- Scheduler state of one pair. -/
structure PairMacState where
  nextDueUs : UInt64 := 0
  lastAttemptUs : UInt64 := 0
  closeValidUntilUs : UInt64 := 0
  randomState : UInt32
  consecutiveFailures : UInt8 := 0
  initialized : Bool := false
  attempted : Bool := false
  deriving DecidableEq

namespace PairMacState

def new (seed : UInt32) : PairMacState := { randomState := seed }

/-- One xorshift step; the state and the value drawn are the same word. -/
def random (state : PairMacState) : PairMacState × UInt32 :=
  let value := if state.randomState = 0 then 0x6d2b79f5 else state.randomState
  let value := value ^^^ (value <<< 13)
  let value := value ^^^ (value >>> 17)
  let value := value ^^^ (value <<< 5)
  ({ state with randomState := value }, value)

def initializeMac (state : PairMacState) (nowUs : UInt64) (pair : Pair) : PairMacState :=
  if state.initialized then state
  else
    let seed := state.randomState ^^^ (pair.initiator.get.toUInt32 <<< 16)
    let seed := seed ^^^ pair.responder.get.toUInt32
    let (state, value) := ({ state with randomState := seed }).random
    let phase := value.toUInt64 % farPeriodUs
    { state with nextDueUs := saturatingAdd nowUs phase, initialized := true }

def isDue (state : PairMacState) (nowUs : UInt64) : Bool :=
  state.initialized && state.nextDueUs ≤ nowUs

def isClose (state : PairMacState) (nowUs : UInt64) : Bool :=
  state.closeValidUntilUs ≠ 0 && nowUs ≤ state.closeValidUntilUs

def periodUs (state : PairMacState) (nowUs : UInt64) : UInt64 :=
  if state.isClose nowUs then closePeriodUs else farPeriodUs

def beginAttempt (state : PairMacState) (nowUs : UInt64) : PairMacState :=
  { state with lastAttemptUs := nowUs, attempted := true }

def expire (state : PairMacState) (nowUs : UInt64) : PairMacState :=
  if state.closeValidUntilUs ≠ 0 ∧ state.closeValidUntilUs < nowUs then
    { state with closeValidUntilUs := 0 }
  else state

def recordSuccess (state : PairMacState) (nowUs : UInt64) (close : Bool) : PairMacState :=
  let state := { state with
    consecutiveFailures := 0
    closeValidUntilUs := if close then saturatingAdd nowUs closeExpiryUs else 0 }
  let scheduleAnchor := if state.attempted then state.lastAttemptUs else nowUs
  { state with nextDueUs := max (saturatingAdd scheduleAnchor (state.periodUs nowUs)) nowUs }

def recordFailure (state : PairMacState) (nowUs : UInt64) : PairMacState :=
  let state := { state with
    consecutiveFailures :=
      if state.consecutiveFailures = 255 then 255 else state.consecutiveFailures + 1 }
  let period := state.periodUs nowUs
  let exponent : UInt8 := min state.consecutiveFailures 3
  let upper := min (saturatingMul period ((1 : UInt64) <<< exponent.toUInt64)) maxBackoffUs
  let width := saturatingSub upper period
  let (state, extra) :=
    if width = 0 then (state, 0)
    else
      let (state, value) := state.random
      (state, value.toUInt64 % (width + 1))
  { state with nextDueUs := saturatingAdd (saturatingAdd nowUs period) extra }

end PairMacState

/-- The most overdue pair this node initiates; address order breaks a tie. -/
def duePair (roster : FlightRoster) (localNode : NodeAddress) (nowUs : UInt64)
    (pairStates : List PairMacState) : Option Pair :=
  let candidates := (roster.pairs.zip pairStates).filter fun entry =>
    entry.1.initiator = localNode && entry.2.isDue nowUs
  let key := fun entry : Pair × PairMacState =>
    toLex (entry.2.nextDueUs.toNat,
      toLex (entry.1.initiator.get.toNat, entry.1.responder.get.toNat))
  (candidates.argmin key).map Prod.fst

def pairIndex (roster : FlightRoster) (pair : Pair) : Option ℕ :=
  roster.pairs.findIdx? (· = pair)

def classifyRange (previouslyClose : Bool) (millimetres : UInt32) : Bool :=
  if previouslyClose then millimetres < closeExitMm else millimetres < closeEnterMm

example : (PairMacState.new 7).isDue 0 = false := by decide

end Mission10.Uwb
