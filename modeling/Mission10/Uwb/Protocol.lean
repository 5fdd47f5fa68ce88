import Mathlib.Algebra.Order.Floor.Ring
import Mathlib.Algebra.Order.Ring.Rat
import Mathlib.Data.Rat.Floor

/-!
# UWB wire types and ranging arithmetic

The types shared by the air link and the host stream, and the asymmetric
double-sided two-way ranging formula. Timestamps are 40-bit counts in a `u64`;
their differences wrap. The distance is the exact quotient of the integer
numerator and denominator the source converts to floating point.
-/
namespace Mission10.Uwb

/-- An aircraft (`0..255`) or development (`0x8000..0x80ff`) short address. -/
structure NodeAddress where
  get : UInt16
  valid : get ≤ 0xff ∨ (0x8000 ≤ get ∧ get ≤ 0x80ff)
  deriving DecidableEq

namespace NodeAddress

def new (value : UInt16) : Option NodeAddress :=
  if h : value ≤ 0xff ∨ (0x8000 ≤ value ∧ value ≤ 0x80ff) then some ⟨value, h⟩ else none

@[simp] theorem new_get (address : NodeAddress) : new address.get = some address := by
  simp [new, address.valid]

theorem new_eq_some {value : UInt16} {address : NodeAddress} :
    new value = some address ↔ address.get = value := by
  constructor
  · intro h
    unfold new at h
    split_ifs at h with hv
    exact (Option.some.inj h) ▸ rfl
  · rintro rfl
    exact new_get address

instance : Inhabited NodeAddress := ⟨⟨0, by decide⟩⟩

instance : LT NodeAddress := ⟨fun a b => a.get < b.get⟩
instance : LE NodeAddress := ⟨fun a b => a.get ≤ b.get⟩
instance (a b : NodeAddress) : Decidable (a < b) := inferInstanceAs (Decidable (a.get < b.get))
instance (a b : NodeAddress) : Decidable (a ≤ b) := inferInstanceAs (Decidable (a.get ≤ b.get))

/-- The short address of an aircraft. -/
def aircraft (number : UInt8) : NodeAddress :=
  ⟨number.toUInt16, Or.inl (by
    rw [UInt16.le_iff_toNat_le, UInt8.toNat_toUInt16]
    exact Nat.le_of_lt_succ number.toNat_lt)⟩

theorem ext_get {a b : NodeAddress} (h : a.get = b.get) : a = b := by
  cases a; cases b; simp_all

theorem lt_iff {a b : NodeAddress} : a < b ↔ a.get.toNat < b.get.toNat := UInt16.lt_iff_toNat_lt

instance : @Trans NodeAddress NodeAddress NodeAddress LT.lt LT.lt LT.lt :=
  ⟨fun {a b c} hab hbc => lt_iff.mpr (Nat.lt_trans (lt_iff.mp hab) (lt_iff.mp hbc))⟩

theorem lt_irrefl (a : NodeAddress) : ¬ a < a := by simp [lt_iff]

theorem lt_or_gt_of_ne {a b : NodeAddress} (h : a ≠ b) : a < b ∨ b < a := by
  rw [lt_iff, lt_iff]
  have hne : a.get.toNat ≠ b.get.toNat := fun he => h (ext_get (UInt16.toNat_inj.mp he))
  omega

end NodeAddress

/-- MAC destination. -/
inductive Destination where
  | node (address : NodeAddress)
  | broadcast
  deriving DecidableEq

inductive FleetNetwork where
  | field
  | internet
  deriving DecidableEq

structure FleetMode where
  master : UInt8
  network : FleetNetwork
  deriving DecidableEq

inductive AvoidanceMode where
  | nominal
  | phase
  | reflex
  | deconflict
  | yielding
  | saturated
  | climb
  deriving DecidableEq

/-- Compact state shared once by each participant in a ranging exchange. -/
structure EgoState where
  sampleTimeUs : UInt64 := 0
  sequence : UInt32 := 0
  frameEpoch : UInt16 := 0
  phaseMrad : Int16 := 0
  phaseRateMradS : Int16 := 0
  yawMrad : Int16 := 0
  positionEnuMm : Int32 × Int32 × Int32 := (0, 0, 0)
  velocityEnuMmS : Int16 × Int16 × Int16 := (0, 0, 0)
  mode : AvoidanceMode := .nominal
  validity : UInt16 := 0
  deriving DecidableEq

structure ExchangeId where
  get : UInt16
  deriving DecidableEq

def timestampMask : UInt64 := ((1 : UInt64) <<< 40) - 1
def dtuPerUs : UInt64 := 63897
def maxScheduledTxErrorDtu : UInt64 := 512
/-- Gives the initiator time to re-arm its receiver after it transmits Final. -/
def reportTurnaroundUs : UInt32 := 2000

/-- Metres of flight per device time unit. -/
def dtuMetres : ℚ := 46917639786159 / 10000000000000000

def wrappingDelta (later earlier : UInt64) : UInt64 := (later - earlier) &&& timestampMask

def scheduledTxMatches (expected actual : UInt64) : Bool :=
  let forward := wrappingDelta actual expected
  let backward := wrappingDelta expected actual
  let error := if forward < backward then forward else backward
  error ≤ maxScheduledTxErrorDtu

/-- A delayed-transmit time rounded to the resolution the radio requires. -/
def delayedTxTime (base : UInt64) (delayUs : UInt32) : UInt64 :=
  let delayed := (base + delayUs.toUInt64 * dtuPerUs) &&& timestampMask
  delayed &&& ~~~0x1ff

structure ResponderTimestamps where
  pollRx : UInt64
  responseTx : UInt64
  finalRx : UInt64
  deriving DecidableEq

/-- The initiator's three timestamps, in the order of the source's array. -/
structure InitiatorTimestamps where
  pollTx : UInt64
  responseRx : UInt64
  finalTx : UInt64
  deriving DecidableEq

/-- Asymmetric double-sided two-way ranging over the six hardware timestamps. -/
def distanceMetres (initiator : InitiatorTimestamps) (responder : ResponderTimestamps) :
    Option ℚ :=
  let round1 : ℤ := (wrappingDelta initiator.responseRx initiator.pollTx).toNat
  let reply1 : ℤ := (wrappingDelta responder.responseTx responder.pollRx).toNat
  let round2 : ℤ := (wrappingDelta responder.finalRx responder.responseTx).toNat
  let reply2 : ℤ := (wrappingDelta initiator.finalTx initiator.responseRx).toNat
  let denominator := round1 + round2 + reply1 + reply2
  if denominator = 0 then none
  else
    let tofDtu : ℚ := (round1 * round2 - reply1 * reply2 : ℤ) / (denominator : ℤ)
    if 0 ≤ tofDtu then some (tofDtu * dtuMetres) else none

/-- Whole millimetres, rounded half up and clamped to a `u32`. -/
def millimetres (distance : ℚ) : UInt32 :=
  UInt32.ofNat (min ⌊distance * 1000 + 1 / 2⌋.toNat (UInt32.size - 1))

end Mission10.Uwb
