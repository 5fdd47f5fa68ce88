import Mathlib.Data.Int.ModEq
import Mathlib.Data.Real.Basic
import Mathlib.Tactic.FieldSimp
import Mathlib.Tactic.Linarith
import Mathlib.Tactic.Positivity
import Mathlib.Tactic.Ring
import Mission10.Library.Numerals
import Mission10.Uwb.Protocol

/-!
# The value of double-sided two-way ranging

Two radios with clocks of different rates and unrelated offsets stamp an exchange.
The intervals between stamps survive the wrap-around of the 40-bit counters, and
the quotient computed from them is the time of flight at the harmonic mean of the
two rates: the reply delays drop out.
-/
namespace Mission10.Uwb

/-- A wrapped difference is the difference modulo the range of the counter. -/
theorem toNat_wrappingDelta (later earlier : UInt64) :
    ((wrappingDelta later earlier).toNat : ℤ) = ((later.toNat : ℤ) - earlier.toNat) % 2 ^ 40 := by
  have hmask : timestampMask.toNat = 2 ^ 40 - 1 := rfl
  have hsub : ((later - earlier).toNat : ℤ) = ((later.toNat : ℤ) - earlier.toNat) % 2 ^ 64 := by
    have hlater := later.toNat_lt
    have hearlier := earlier.toNat_lt
    rw [UInt64.toNat_sub]
    omega
  rw [wrappingDelta, UInt64.toNat_and, hmask, Nat.and_two_pow_sub_one_eq_mod]
  push_cast
  rw [hsub, Int.emod_emod_of_dvd _ (by norm_num)]

/-- The later stamp is the given number of ticks after the earlier one. -/
def TicksApart (later earlier : UInt64) (ticks : ℝ) : Prop :=
  ∃ count : ℕ, count < 2 ^ 40 ∧ (count : ℝ) = ticks ∧
    (later.toNat : ℤ) ≡ earlier.toNat + count [ZMOD 2 ^ 40]

theorem TicksApart.wrappingDelta {later earlier : UInt64} {ticks : ℝ}
    (h : TicksApart later earlier ticks) :
    ((wrappingDelta later earlier).toNat : ℝ) = ticks := by
  obtain ⟨count, hlt, hticks, hmod⟩ := h
  have hdelta : ((Uwb.wrappingDelta later earlier).toNat : ℤ) = count := by
    have hsub : (later.toNat : ℤ) - earlier.toNat ≡ count [ZMOD 2 ^ 40] := by
      have hcancel := hmod.sub_right (earlier.toNat : ℤ)
      rwa [add_sub_cancel_left] at hcancel
    rw [toNat_wrappingDelta, hsub]
    exact Int.emod_eq_of_lt (by omega) (by exact_mod_cast hlt)
  rw [← hticks]
  exact_mod_cast hdelta

/-- The stamps of an exchange: the time of flight, the delays before the two replies,
and the rates of the two clocks. -/
structure Exchange (tof reply1 reply2 initiatorRate responderRate : ℝ)
    (initiator : InitiatorTimestamps) (responder : ResponderTimestamps) : Prop where
  round1 : TicksApart initiator.responseRx initiator.pollTx (initiatorRate * (2 * tof + reply1))
  reply1 : TicksApart responder.responseTx responder.pollRx (responderRate * reply1)
  round2 : TicksApart responder.finalRx responder.responseTx (responderRate * (2 * tof + reply2))
  reply2 : TicksApart initiator.finalTx initiator.responseRx (initiatorRate * reply2)

/-- The quotient of the formula in five unknowns. -/
theorem quotient_eq {t r1 r2 a b : ℝ} (hlong : 0 < 2 * t + r1 + r2) (ha : 0 < a) (hb : 0 < b) :
    0 < a * (2 * t + r1) + b * (2 * t + r2) + b * r1 + a * r2 ∧
    (a * (2 * t + r1) * (b * (2 * t + r2)) - b * r1 * (a * r2)) /
      (a * (2 * t + r1) + b * (2 * t + r2) + b * r1 + a * r2) = t * (2 * a * b / (a + b)) := by
  have hsum : a * (2 * t + r1) + b * (2 * t + r2) + b * r1 + a * r2 =
      (a + b) * (2 * t + r1 + r2) := by ring
  have hrates : 0 < a + b := add_pos ha hb
  refine ⟨hsum ▸ mul_pos hrates hlong, ?_⟩
  rw [hsum]
  have hne := hlong.ne'
  have hne' := hrates.ne'
  field_simp
  ring

/-- All three stamps of the initiator on a counter that started elsewhere. -/
def InitiatorTimestamps.shift (offset : UInt64) (stamps : InitiatorTimestamps) :
    InitiatorTimestamps where
  pollTx := (stamps.pollTx + offset) &&& timestampMask
  responseRx := (stamps.responseRx + offset) &&& timestampMask
  finalTx := (stamps.finalTx + offset) &&& timestampMask

/-- All three stamps of the responder on a counter that started elsewhere. -/
def ResponderTimestamps.shift (offset : UInt64) (stamps : ResponderTimestamps) :
    ResponderTimestamps where
  pollRx := (stamps.pollRx + offset) &&& timestampMask
  responseTx := (stamps.responseTx + offset) &&& timestampMask
  finalRx := (stamps.finalRx + offset) &&& timestampMask

theorem toNat_shifted (stamp offset : UInt64) :
    (((stamp + offset) &&& timestampMask).toNat : ℤ) =
      ((stamp.toNat : ℤ) + offset.toNat) % 2 ^ 40 := by
  have hmask : timestampMask.toNat = 2 ^ 40 - 1 := rfl
  have hadd : ((stamp + offset).toNat : ℤ) = ((stamp.toNat : ℤ) + offset.toNat) % 2 ^ 64 := by
    rw [UInt64.toNat_add]
    push_cast
    rfl
  rw [UInt64.toNat_and, hmask, Nat.and_two_pow_sub_one_eq_mod]
  push_cast
  rw [hadd, Int.emod_emod_of_dvd _ (by norm_num)]

/-- Intervals do not depend on where the counter started. -/
theorem wrappingDelta_shifted (later earlier offset : UInt64) :
    wrappingDelta ((later + offset) &&& timestampMask) ((earlier + offset) &&& timestampMask) =
      wrappingDelta later earlier := by
  have hdelta := toNat_wrappingDelta ((later + offset) &&& timestampMask)
    ((earlier + offset) &&& timestampMask)
  rw [toNat_shifted, toNat_shifted, Int.emod_sub_emod, Int.sub_emod_emod,
    add_sub_add_right_eq_sub, ← toNat_wrappingDelta] at hdelta
  exact UInt64.toNat_inj.mp (by exact_mod_cast hdelta)

theorem distanceMetres_shift_initiator (offset : UInt64) (initiator : InitiatorTimestamps)
    (responder : ResponderTimestamps) :
    distanceMetres (initiator.shift offset) responder = distanceMetres initiator responder := by
  simp only [distanceMetres, InitiatorTimestamps.shift, wrappingDelta_shifted]

theorem distanceMetres_shift_responder (offset : UInt64) (initiator : InitiatorTimestamps)
    (responder : ResponderTimestamps) :
    distanceMetres initiator (responder.shift offset) = distanceMetres initiator responder := by
  simp only [distanceMetres, ResponderTimestamps.shift, wrappingDelta_shifted]

/-- The distance is that of the time of flight at the harmonic mean of the rates,
whatever the reply delays and wherever the two counters started. -/
theorem ds_twr_value {tof reply1 reply2 initiatorRate responderRate : ℝ} (htof : 0 ≤ tof)
    (hreply1 : 0 ≤ reply1) (hreply2 : 0 ≤ reply2)
    (hsome : ¬ (tof = 0 ∧ reply1 = 0 ∧ reply2 = 0))
    (hinitiator : 0 < initiatorRate) (hresponder : 0 < responderRate)
    {initiator : InitiatorTimestamps} {responder : ResponderTimestamps}
    (h : Exchange tof reply1 reply2 initiatorRate responderRate initiator responder) :
    (∃ tofDtu : ℚ, distanceMetres initiator responder = some (tofDtu * dtuMetres) ∧
      (tofDtu : ℝ) = tof * (2 * initiatorRate * responderRate /
        (initiatorRate + responderRate))) ∧
    ∀ offset, distanceMetres (initiator.shift offset) responder =
        distanceMetres initiator responder ∧
      distanceMetres initiator (responder.shift offset) = distanceMetres initiator responder := by
  refine ⟨?_, fun offset => ⟨distanceMetres_shift_initiator offset initiator responder,
    distanceMetres_shift_responder offset initiator responder⟩⟩
  have hlong : 0 < 2 * tof + reply1 + reply2 := by
    by_contra hzero
    exact hsome ⟨by linarith, by linarith, by linarith⟩
  obtain ⟨hpos, hquotient⟩ := quotient_eq hlong hinitiator hresponder
  rw [← h.round1.wrappingDelta, ← h.reply1.wrappingDelta, ← h.round2.wrappingDelta,
    ← h.reply2.wrappingDelta] at hpos hquotient
  unfold distanceMetres
  generalize (wrappingDelta initiator.responseRx initiator.pollTx).toNat = round1 at *
  generalize (wrappingDelta responder.responseTx responder.pollRx).toNat = back1 at *
  generalize (wrappingDelta responder.finalRx responder.responseTx).toNat = round2 at *
  generalize (wrappingDelta initiator.finalTx initiator.responseRx).toNat = back2 at *
  have hdenominator : (0 : ℤ) < round1 + round2 + back1 + back2 := by exact_mod_cast hpos
  have hcast : (((round1 * round2 - back1 * back2 : ℤ) /
      ((round1 + round2 + back1 + back2 : ℤ) : ℚ) : ℚ) : ℝ) =
      tof * (2 * initiatorRate * responderRate / (initiatorRate + responderRate)) := by
    rw [← hquotient]
    push_cast
    rfl
  have hnonneg : (0 : ℚ) ≤ (round1 * round2 - back1 * back2 : ℤ) /
      ((round1 + round2 + back1 + back2 : ℤ) : ℚ) := by
    have hreal : (0 : ℝ) ≤ (((round1 * round2 - back1 * back2 : ℤ) /
        ((round1 + round2 + back1 + back2 : ℤ) : ℚ) : ℚ) : ℝ) := by
      rw [hcast]
      positivity
    exact_mod_cast hreal
  refine ⟨_, ?_, hcast⟩
  dsimp only
  rw [if_neg hdenominator.ne', if_pos hnonneg]

/-- Ten metres of flight, with the counters wrapping in the exchange and a responder whose
clock runs at two thirds of the initiator's rate. -/
theorem ds_twr_value_wrapped :
    ∃ tofDtu : ℚ, distanceMetres ⟨1099511617775, 447277261, 894556261⟩
        ⟨1099511619905, 298180797, 596369637⟩ = some (tofDtu * dtuMetres) ∧
      (tofDtu : ℝ) = 2130 * (2 * 1 * (2 / 3) / (1 + 2 / 3)) :=
  (ds_twr_value (by norm_num) (by norm_num) (by norm_num) (by norm_num) (by norm_num)
    (by norm_num)
    (⟨⟨447287262, by norm_num, by norm_num, by decide⟩,
      ⟨298188668, by norm_num, by norm_num, by decide⟩,
      ⟨298188840, by norm_num, by norm_num, by decide⟩,
      ⟨447279000, by norm_num, by norm_num, by decide⟩⟩ :
      Exchange 2130 447283002 447279000 1 (2 / 3) _ _)).1

end Mission10.Uwb
