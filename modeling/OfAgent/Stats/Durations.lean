import Mathlib.Tactic.Ring
import Mathlib.Tactic.Linarith
import OfAgent.Stats.Dump

/-!
# Durations

The age of a flow is counted in 64-bit milliseconds and reported in 32-bit seconds and nanoseconds
beyond them, by the two functions `fill_flow_stats` and `dp_send_flow_end` with the same arithmetic.
The product of the seconds with 1000 is one of 32 bits and wraps around after some weeks. What it
loses is a multiple of `2 ^ 32`, which the conversion of the nanoseconds to 32 bits drops again.

* `durationOf`: the arithmetic of both functions.
* `durationOf_nsec`: the nanoseconds are right at every age.
* `RepresentsAge`: the two numbers are an age in milliseconds.
-/

namespace OfAgent

/-! ### The arithmetic -/

/-- The seconds and nanoseconds that are computed from a difference of times in milliseconds. -/
def durationOf (tdiff : BitVec 64) : BitVec 32 × BitVec 32 :=
  let sec := (tdiff / 1000).setWidth 32
  (sec, ((tdiff - (sec * 1000).setWidth 64) * 1000000).setWidth 32)

/-- Seconds, and nanoseconds beyond them, make an age of so many milliseconds. -/
structure RepresentsAge (ms : ℕ) (sec nsec : BitVec 32) : Prop where
  /-- Together they are the age. -/
  total : sec.toNat * 10 ^ 9 + nsec.toNat = ms * 10 ^ 6
  /-- The nanoseconds are less than a second. -/
  lt_second : nsec.toNat < 10 ^ 9

/-- The seconds are the whole ones, reduced to 32 bits. -/
theorem durationOf_sec (tdiff : BitVec 64) :
    (durationOf tdiff).1.toNat = tdiff.toNat / 1000 % 2 ^ 32 := by
  show ((tdiff / 1000).setWidth 32).toNat = _
  rw [BitVec.toNat_setWidth, BitVec.toNat_udiv]
  rfl

/-- The product of the seconds and 1000 differs from the whole seconds in milliseconds by a multiple
of `2 ^ 32`. -/
theorem durationOf_product (tdiff : BitVec 64) :
    ∃ k, tdiff.toNat / 1000 * 1000 = ((durationOf tdiff).1 * 1000).toNat + k * 2 ^ 32 := by
  have hproduct : ((durationOf tdiff).1 * 1000).toNat
      = tdiff.toNat / 1000 * 1000 % 2 ^ 32 := by
    rw [BitVec.toNat_mul, durationOf_sec]
    show tdiff.toNat / 1000 % 2 ^ 32 * 1000 % 2 ^ 32 = _
    omega
  refine ⟨tdiff.toNat / 1000 * 1000 / 2 ^ 32, ?_⟩
  rw [hproduct]
  omega

/-- The nanoseconds are those of the milliseconds beyond the whole seconds, at every age. -/
theorem durationOf_nsec (tdiff : BitVec 64) :
    (durationOf tdiff).2.toNat = tdiff.toNat % 1000 * 10 ^ 6 := by
  obtain ⟨k, hk⟩ := durationOf_product tdiff
  have hsplit := Nat.div_add_mod' tdiff.toNat 1000
  have hrest := Nat.mod_lt tdiff.toNat (show 0 < 1000 by decide)
  have hproduct : ((durationOf tdiff).1 * 1000).toNat < 2 ^ 32 := BitVec.isLt _
  -- the difference is taken in 64 bits and never wraps around
  have hdiff : (tdiff - ((durationOf tdiff).1 * 1000).setWidth 64).toNat
      = tdiff.toNat % 1000 + k * 2 ^ 32 := by
    have hlt := tdiff.isLt
    rw [BitVec.toNat_sub, BitVec.toNat_setWidth]
    omega
  -- what it has too much is still a multiple of `2 ^ 32` after the multiplication
  calc (durationOf tdiff).2.toNat
      = (tdiff.toNat % 1000 + k * 2 ^ 32) * 1000000 % 2 ^ 64 % 2 ^ 32 := by
        rw [← hdiff]
        show ((_ * 1000000 : BitVec 64).setWidth 32).toNat = _
        rw [BitVec.toNat_setWidth, BitVec.toNat_mul]
        rfl
    _ = (tdiff.toNat % 1000 * 10 ^ 6 + 2 ^ 32 * (k * 10 ^ 6)) % 2 ^ 32 := by
        rw [Nat.mod_mod_of_dvd _ (pow_dvd_pow 2 (by decide))]
        ring_nf
    _ = tdiff.toNat % 1000 * 10 ^ 6 := by
        rw [Nat.add_mul_mod_self_left]
        apply Nat.mod_eq_of_lt
        omega

/-- The numbers are the age exactly when the whole seconds fit into 32 bits. -/
theorem representsAge_durationOf_iff (tdiff : BitVec 64) :
    RepresentsAge tdiff.toNat (durationOf tdiff).1 (durationOf tdiff).2
      ↔ tdiff.toNat / 1000 < 2 ^ 32 := by
  have hsec := durationOf_sec tdiff
  have hnsec := durationOf_nsec tdiff
  constructor
  · rintro ⟨htotal, -⟩
    have hlt := (durationOf tdiff).1.isLt
    omega
  · intro hfits
    rw [Nat.mod_eq_of_lt hfits] at hsec
    constructor <;> omega

/-! ### The messages -/

/-- **Durations.** In the statistics of a flow and in the message about its end, the seconds and
nanoseconds are the time that the flow has been there, as long as its whole seconds fit into 32
bits. -/
theorem durations_represent_age (now : BitVec 64) (flow : SwFlow)
    (hfits : (now - flow.created).toNat / 1000 < 2 ^ 32) :
    (∀ tableIdx, RepresentsAge (now - flow.created).toNat
        (fillFlowStats flow tableIdx now).durationSec
        (fillFlowStats flow tableIdx now).durationNsec)
      ∧ ∀ reason ofr, dpSendFlowEnd now flow reason = some (.flowRemoved ofr) →
        RepresentsAge (now - flow.created).toNat ofr.durationSec ofr.durationNsec := by
  have hage := (representsAge_durationOf_iff (now - flow.created)).mpr hfits
  constructor
  · intro tableIdx
    exact hage
  · intro reason ofr hsent
    simp only [dpSendFlowEnd] at hsent
    split_ifs at hsent
    cases hsent
    exact hage

/-- A flow that asks for a message about its end. -/
def announcedFlow (created : BitVec 64) : SwFlow :=
  { (plainFlowMod 0 OfpMatch.zero 0).newFlow created with sendFlowRem := true }

/-- A flow after fifty days, when the product of the seconds with 1000 has wrapped around. -/
theorem durations_represent_age_fifty_days :
    (∀ tableIdx, RepresentsAge 4320000123
        (fillFlowStats (announcedFlow 77) tableIdx 4320000200).durationSec
        (fillFlowStats (announcedFlow 77) tableIdx 4320000200).durationNsec)
      ∧ ∀ reason ofr, dpSendFlowEnd 4320000200 (announcedFlow 77) reason
          = some (.flowRemoved ofr) →
        RepresentsAge 4320000123 ofr.durationSec ofr.durationNsec :=
  durations_represent_age 4320000200 (announcedFlow 77) (by decide)

/-- The message about the end of this flow says 4320000 seconds and 123 million nanoseconds. -/
example : ∃ ofr, dpSendFlowEnd 4320000200 (announcedFlow 77) .delete = some (.flowRemoved ofr)
    ∧ ofr.durationSec = 4320000 ∧ ofr.durationNsec = 123000000 := ⟨_, rfl, rfl, rfl⟩

end OfAgent
