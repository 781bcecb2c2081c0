import OfAgent.Lib.Meter
import OfAgent.Secchan.Conservation

/-!
# The token bucket of the rate limiter

How many tokens the bucket holds, and how many packets are let through in a window of time.

* `LimiterRun.InRange`: the bucket holds at most what the burst limit allows; `inRange_iff`: it does
  so in every run exactly if it does at the start.
* `LimiterRun.Timely`: a packet takes the normal path only on a credit of at most one packet more
  than the bucket holds.
* `LimiterRun.tokens_and_window`: the bucket is filled with a tenth of a second's tokens whatever
  the burst limit says, and it is refilled by the periodic callback only, so that a packet can pass
  on tokens that are about to be replaced by older credit. The rate is kept in the runs in which no
  packet does.
-/

namespace OfAgent

namespace LimiterRun

variable {s : LimitSettings} {w w' : LimiterRun} {fresh : Prop} {now : ℤ}

/-! ### Tokens -/

/-- The bucket holds at most what the burst limit allows. -/
def InRange (s : LimitSettings) (w : LimiterRun) : Prop :=
  0 ≤ w.tokens ∧ w.tokens ≤ 1000 * s.burstLimit

/-- Every change keeps this. -/
theorem InRange.change (h : w.InRange s) (hchange : Change s fresh w w') : w'.InRange s := by
  obtain ⟨hpos, hle⟩ := h
  cases hchange with
  | tick now _ => exact ⟨hpos, hle⟩
  | refill =>
    unfold refillBucket
    simp only
    split
    next htokens =>
      -- the tokens are capped by the limit
      have hburst := s.burstLimit_pos
      refine ⟨le_min (by omega) (by omega), ?_⟩
      exact (min_le_right _ _).trans (by rw [mul_comm])
    next => exact ⟨hpos, hle⟩
  | normal _ htoken _ =>
    refine ⟨?_, ?_⟩
    · show 0 ≤ w.tokens - 1000
      omega
    · show w.tokens - 1000 ≤ _
      omega
  | drop _ _ => exact ⟨hpos, hle⟩
  | push opi _ => exact ⟨hpos, hle⟩
  | send error nextTxPort htoken _ _ =>
    unfold InRange transmit
    split <;> simp only <;> omega
  | waste htoken _ =>
    refine ⟨?_, ?_⟩
    · show 0 ≤ w.tokens - 1000
      omega
    · show w.tokens - 1000 ≤ _
      omega

/-- The bucket is in its range in every run exactly if it is at the start. -/
theorem inRange_iff (s : LimitSettings) (now : ℤ) :
    (∀ w, Transition.Reachable (Step s) (start s now) w → w.InRange s) ↔
      0 ≤ Int.bmod (s.rateLimit * 100) (2 ^ 32) ∧
        Int.bmod (s.rateLimit * 100) (2 ^ 32) ≤ 1000 * s.burstLimit := by
  constructor
  · intro hall
    exact hall _ .refl
  · intro hrange w h
    have hstart : (start s now).InRange s := hrange
    refine h.invariant_of_reached (InRange s) hstart fun w e w' hreach hw _ hstep => ?_
    have hle := (conserved_of_reachable hreach).nQueued_le
    exact (changes_next False hle False.elim hstep).invariant (InRange s)
      (fun _ _ hw hchange => hw.change hchange) hw

/-! ### Windows -/

/-- The packets let through so far have been paid for out of the credit. -/
structure Paid (s : LimitSettings) (w : LimiterRun) : Prop where
  /-- The bucket has not been filled in the future. -/
  lastFill_le : w.lastFill ≤ w.now
  /-- The tokens are an `int`. -/
  tokens_ge : -2 ^ 31 ≤ w.tokens
  /-- Every packet costs a thousand tokens. -/
  metered : Meter.Metered 1000 (1000 * (s.burstLimit + 1)) s.rateLimit w.now (w.credit s) w.through

/-- Arithmetic with 64 bits does not make a number larger, unless it is far below zero. -/
theorem bmod_le {x : ℤ} (h : -2 ^ 63 ≤ x) : Int.bmod x (2 ^ 64) ≤ x := by
  rw [Int.bmod_def]
  split <;> omega

/-- What the bucket is worth is at least its tokens. -/
theorem Paid.tokens_le_credit (h : w.Paid s) : w.tokens ≤ w.credit s := by
  have hrate := s.rateLimit_pos
  have hgrowth : 0 ≤ s.rateLimit * (w.now - w.lastFill) :=
    mul_nonneg (by omega) (sub_nonneg.2 h.lastFill_le)
  unfold credit
  omega

theorem credit_taken (s : LimitSettings) (w : LimiterRun) :
    w.tokens - 1000 + s.rateLimit * (w.now - w.lastFill) = w.credit s - 1000 := by
  unfold credit
  omega

/-- Every change keeps this, if packets are let through on a bounded credit only. -/
theorem Paid.change (h : w.Paid s) (hchange : Change s True w w') : w'.Paid s := by
  cases hchange with
  | tick now hnow =>
    refine ⟨h.lastFill_le.trans hnow, h.tokens_ge, h.metered.advance hnow (le_of_eq ?_)⟩
    simp only [credit]
    ring
  | refill =>
    unfold refillBucket
    simp only
    split
    next htokens =>
      -- the bucket gets the credit, but no more than the burst; the rest of it is lost
      have hvalue : (w.now - w.lastFill) * s.rateLimit + w.tokens = w.credit s := by
        unfold credit
        ring
      rw [hvalue] at htokens ⊢
      have hburst := s.burstLimit_pos
      have hle : Int.bmod (w.credit s) (2 ^ 64) ≤ w.credit s :=
        bmod_le ((by decide : (-2 ^ 63 : ℤ) ≤ -2 ^ 31).trans (h.tokens_ge.trans h.tokens_le_credit))
      refine ⟨le_rfl, ?_, h.metered.forfeit ?_⟩
      · show -2 ^ 31 ≤ min (Int.bmod (w.credit s) (2 ^ 64)) (s.burstLimit * 1000)
        exact le_min (by omega) (by omega)
      · unfold credit at hle ⊢
        simp only [sub_self, mul_zero, add_zero]
        exact (min_le_left _ _).trans hle
    next => exact h
  | normal _ htoken hfresh =>
    refine ⟨h.lastFill_le, ?_, ?_⟩
    · show -2 ^ 31 ≤ w.tokens - 1000
      omega
    · have hspend := h.metered.spend (hfresh trivial) (htoken.trans h.tokens_le_credit)
      rw [← credit_taken] at hspend
      exact hspend
  | drop _ _ => exact ⟨h.1, h.2, h.3⟩
  | push opi _ => exact ⟨h.1, h.2, h.3⟩
  | @send error nextTxPort port b rest htoken hqueue hfresh =>
    have hspend := h.metered.spend (hfresh trivial) (htoken.trans h.tokens_le_credit)
    rw [← credit_taken] at hspend
    have htokens : -2 ^ 31 ≤ w.tokens - 1000 := by omega
    unfold transmit
    split
    · exact ⟨h.lastFill_le, htokens, hspend⟩
    · exact ⟨h.lastFill_le, htokens, hspend⟩
  | waste htoken _ =>
    refine ⟨h.lastFill_le, ?_, h.metered.forfeit ?_⟩
    · show -2 ^ 31 ≤ w.tokens - 1000
      omega
    · exact (credit_taken s w).le.trans (by omega)

/-- A packet takes the normal path on a credit of at most one packet more than the bucket holds, and
the refill computes within 64 bits. -/
def Timely (s : LimitSettings) (w : LimiterRun) : LimiterEvent → Prop
  | .localPacket now _ opi => ∀ p, opi = some p → p.reason ≠ .action → w.nQueued = 0 →
      1000 ≤ w.tokens → w.tokens + s.rateLimit * (now - w.lastFill) ≤ 1000 * (s.burstLimit + 1)
  | .periodic now _ => w.tokens + s.rateLimit * (now - w.lastFill) < 2 ^ 63

/-- Then the callback lets packets through on a bounded credit only. -/
theorem Paid.fresh_of_timely (h : w.Paid s) {e : LimiterEvent} (hnow : w.now ≤ e.now)
    (htimely : w.Timely s e) : w.Fresh s e := by
  cases e with
  | localPacket now random opi => exact htimely
  | periodic now errors =>
    have hburst := s.burstLimit_pos
    have hpaid : Paid s { w with now } := h.change (.tick now hnow)
    have hvalue : (now - w.lastFill) * s.rateLimit + w.tokens = credit s { w with now } := by
      simp only [credit]
      ring
    have hsmall : credit s { w with now } < 2 ^ 63 := htimely
    have hlarge : -2 ^ 31 ≤ credit s { w with now } := hpaid.tokens_ge.trans hpaid.tokens_le_credit
    have hexact : Int.bmod (credit s { w with now }) (2 ^ 64) = credit s { w with now } := by
      rw [Int.bmod_def]
      split <;> omega
    unfold Fresh refillBucket
    simp only [hvalue, hexact]
    split
    next =>
      -- the bucket has just been filled
      simp only [credit, sub_self, mul_zero, add_zero]
      exact (min_le_right _ _).trans (by omega)
    next hfew => omega

/-! ### Runs -/

/-- The bucket is in its range in every run exactly if it is at the start. In the runs in which a
packet takes the normal path only on a credit of at most one packet more than the bucket holds, no
window of time has more packets let through than the burst, the rate and one more packet. -/
theorem tokens_and_window (s : LimitSettings) (w : LimiterRun) :
    ((∀ w, Transition.Reachable (Step s) (start s now) w →
        0 ≤ w.tokens ∧ w.tokens ≤ 1000 * s.burstLimit) ↔
      0 ≤ Int.bmod (s.rateLimit * 100) (2 ^ 32) ∧
        Int.bmod (s.rateLimit * 100) (2 ^ 32) ≤ 1000 * s.burstLimit) ∧
    (Transition.ReachableVia (Step s) (Timely s) (start s now) w → ∀ t duration : ℤ, 0 ≤ duration →
      1000 * (w.through.countP fun x => t ≤ x ∧ x ≤ t + duration : ℕ) ≤
        1000 * s.burstLimit + s.rateLimit * duration + 1000) := by
  refine ⟨inRange_iff s now, fun h t duration hduration => ?_⟩
  have hstart : (start s now).Paid s := by
    refine ⟨le_rfl, ?_, .nil⟩
    show -2 ^ 31 ≤ Int.bmod (s.rateLimit * 100) (2 ^ 32)
    rw [Int.bmod_def]
    split <;> omega
  have hpaid : w.Paid s := by
    refine h.invariant_of_reached (Paid s) hstart fun w e w' hreach hw htimely hstep => ?_
    have hle := (conserved_of_reachable hreach.reachable).nQueued_le
    have hfresh : True → w.Fresh s e := fun _ => hw.fresh_of_timely hstep.1 htimely
    exact (changes_next True hle hfresh hstep).invariant (Paid s)
      (fun _ _ hw hchange => hw.change hchange) hw
  have hrate := s.rateLimit_pos
  have hburst := s.burstLimit_pos
  have hwindow := hpaid.metered.window (by omega) (by omega) t hduration
  calc 1000 * ((w.through.countP fun x => t ≤ x ∧ x ≤ t + duration : ℕ) : ℤ)
      ≤ 1000 * (s.burstLimit + 1) + s.rateLimit * duration := hwindow
    _ = 1000 * s.burstLimit + s.rateLimit * duration + 1000 := by ring

/-- Two packets at once. -/
def tinyLimit : LimitSettings := .parseOptions 20 (some 2) (by decide) (by decide)

/-- A packet at the start is one of at most three. -/
theorem tokens_and_window_normal : ∃ w : LimiterRun,
    Transition.Reachable (Step tinyLimit) (start tinyLimit 0) w ∧ w.through = [0] ∧
      1000 * (w.through.countP fun x => 0 ≤ x ∧ x ≤ 0 + 0 : ℕ) ≤
        1000 * tinyLimit.burstLimit + tinyLimit.rateLimit * 0 + 1000 := by
  have hstep := step_normal tinyLimit (start tinyLimit 0) (fun _ => 0) le_rfl
    (show unmatched.reason ≠ .action by decide) (by decide)
  have htimely : (start tinyLimit 0).Timely tinyLimit
      (.localPacket 0 (fun _ => 0) (some unmatched)) := fun _ _ _ _ _ => by decide
  have hrun : Transition.ReachableVia (Step tinyLimit) (Timely tinyLimit) (start tinyLimit 0) _ :=
    .tail .refl htimely hstep
  exact ⟨_, hrun.reachable, rfl, (tokens_and_window tinyLimit _).2 hrun 0 0 le_rfl⟩

/-- More tokens at the start than the burst limit allows, and four packets at once of which the
burst limit and one more packet allow three: two of them have passed before the bucket is
refilled. -/
theorem not_tokens_and_window :
    (¬ ∀ (s : LimitSettings) (w : LimiterRun),
      Transition.Reachable (Step s) (start s 0) w → 0 ≤ w.tokens ∧ w.tokens ≤ 1000 * s.burstLimit) ∧
    ¬ ∀ (s : LimitSettings) (w : LimiterRun), Transition.Reachable (Step s) (start s 0) w →
      ∀ t duration : ℤ, 0 ≤ duration →
        1000 * (w.through.countP fun x => t ≤ x ∧ x ≤ t + duration : ℕ) ≤
          1000 * s.burstLimit + s.rateLimit * duration + 1000 := by
  constructor
  · intro hall
    have hrange := hall (.parseOptions 1000 (some 1) (by decide) (by decide)) _ .refl
    revert hrange
    decide
  · intro hall
    have hreason : unmatched.reason ≠ .action := by decide
    have hfirst := Transition.Reachable.step .refl
      (step_normal tinyLimit (start tinyLimit 0) (fun _ => 0) (show 0 ≤ 1000 by decide) hreason
        (by decide))
    have hsecond := hfirst.step (step_normal tinyLimit _ (fun _ => 0) le_rfl hreason (by decide))
    have hrefilled := hsecond.step (step_idle tinyLimit _ (fun _ => false) le_rfl rfl)
    have hthird := hrefilled.step (step_normal tinyLimit _ (fun _ => 0) le_rfl hreason (by decide))
    have hfourth := hthird.step (step_normal tinyLimit _ (fun _ => 0) le_rfl hreason (by decide))
    have hwindow := hall tinyLimit _ hfourth 1000 0 le_rfl
    revert hwindow
    decide

end LimiterRun

end OfAgent
