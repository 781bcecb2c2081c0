import Mathlib.Tactic.Ring
import Mathlib.Tactic.Linarith
import OfAgent.Stp.Settings

/-!
# Ticks

`stp_tick` converts milliseconds to ticks of 1/256 s and carries what is left over to the next call.
It carries the remainder of `ms * 256` by 1000, which counts in units of 1/256 ms, and adds it to
the milliseconds of the next call. A call that leaves something over thus makes the next one gain
time.

* `ticksFrom`, `ProductsFit`: a sequence of calls, by the numbers alone.
* `Stp.totalTicks`, `Stp.KeepsTime`: the ticks of a run, and that they are the time that has passed.
* `Stp.keepsTime_iff`: the clock is right exactly when all calls but the last one are multiples of
  125 milliseconds, which leave nothing over.
-/

namespace OfAgent

/-! ### Conversions -/

/-- The product of milliseconds and `0x100` is an `int`. -/
def ProductFits (ms : ℤ) : Prop := -2147483648 ≤ ms * 0x100 ∧ ms * 0x100 ≤ 2147483647

theorem scaledMs_of_fits {ms : ℤ} (h : ProductFits ms) : scaledMs ms = ms * 256 := by
  obtain ⟨hlow, hhigh⟩ := h
  unfold scaledMs
  rw [BitVec.toInt_ofInt]
  exact Int.bmod_eq_of_le (by omega) (by omega)

/-- Where the product is an `int`, ticks and remainder split it. -/
theorem msToTimer_split {ms : ℤ} (hms : 0 ≤ ms) (h : ProductFits ms) :
    1000 * msToTimer ms + msToTimerRemainder ms = 256 * ms ∧
      0 ≤ msToTimerRemainder ms ∧ msToTimerRemainder ms < 1000 := by
  unfold msToTimer msToTimerRemainder
  rw [scaledMs_of_fits h]
  have hnonneg : 0 ≤ ms * 256 := by omega
  rw [Int.tdiv_eq_ediv_of_nonneg hnonneg, Int.tmod_eq_emod_of_nonneg hnonneg]
  omega

/-- Nothing is left over exactly of the multiples of 125 milliseconds. -/
theorem msToTimerRemainder_eq_zero_iff {ms : ℤ} (hms : 0 ≤ ms) (h : ProductFits ms) :
    msToTimerRemainder ms = 0 ↔ 125 ∣ ms := by
  have hsplit := msToTimer_split hms h
  omega

theorem eight_le_msToTimerRemainder {ms : ℤ} (hms : 0 ≤ ms) (h : ProductFits ms)
    (hne : msToTimerRemainder ms ≠ 0) : 8 ≤ msToTimerRemainder ms := by
  have hsplit := msToTimer_split hms h
  omega

/-! ### Sequences of calls -/

/-- The ticks of a sequence of calls of `stp_tick` with a remainder in front of the first one. -/
def ticksFrom : ℤ → List ℤ → ℤ
  | _, [] => 0
  | r, ms :: rest => msToTimer (ms + r) + ticksFrom (msToTimerRemainder (ms + r)) rest

/-- No product in a sequence of calls overflows. -/
def ProductsFit : ℤ → List ℤ → Prop
  | _, [] => True
  | r, ms :: rest => ProductFits (ms + r) ∧ ProductsFit (msToTimerRemainder (ms + r)) rest

/-- A remainder counts as milliseconds in the next call, so that the ticks are at least those of its
milliseconds. -/
theorem le_ticksFrom {r : ℤ} {cs : List ℤ} (hr : 0 ≤ r) (hcs : ∀ c ∈ cs, 0 ≤ c)
    (hfit : ProductsFit r cs) (hne : cs ≠ []) :
    256 * (cs.sum + r) - 999 ≤ 1000 * ticksFrom r cs := by
  induction cs generalizing r with
  | nil => exact absurd rfl hne
  | cons c rest ih =>
    obtain ⟨hproduct, hproducts⟩ := hfit
    have hc : 0 ≤ c := hcs c (.head rest)
    obtain ⟨hsplit, hnonneg, hlt⟩ := msToTimer_split (by omega) hproduct
    rw [List.sum_cons, ticksFrom]
    rcases eq_or_ne rest [] with rfl | hrest
    · rw [ticksFrom, List.sum_nil]
      omega
    · have hlater := ih hnonneg (fun c' hc' => hcs c' (.tail c hc')) hproducts hrest
      omega

/-- The milliseconds from which on the product with `0x100` overflows are out of reach. -/
theorem productFits_iff {ms : ℤ} (hms : 0 ≤ ms) : ProductFits ms ↔ ms ≤ 8388607 := by
  unfold ProductFits
  omega

/-- Where nothing is left over the products are those of the calls themselves. -/
theorem productsFit_iff {cs : List ℤ} (hcs : ∀ c ∈ cs, 0 ≤ c)
    (hwhole : ∀ c ∈ cs.dropLast, 125 ∣ c) : ProductsFit 0 cs ↔ ∀ c ∈ cs, c ≤ 8388607 := by
  induction cs with
  | nil => simp [ProductsFit]
  | cons c rest ih =>
    have hc : 0 ≤ c := hcs c (.head rest)
    rw [ProductsFit, add_zero, List.forall_mem_cons, productFits_iff hc]
    apply and_congr_right
    intro hshort
    rcases eq_or_ne rest [] with rfl | hrest
    · simp [ProductsFit]
    · rw [List.dropLast_cons_of_ne_nil hrest] at hwhole
      have hproduct : ProductFits c := (productFits_iff hc).mpr hshort
      rw [(msToTimerRemainder_eq_zero_iff hc hproduct).mpr (hwhole c (.head _))]
      exact ih (fun c' hc' => hcs c' (.tail c hc')) fun c' hc' => hwhole c' (.tail c hc')

/-- Without an overflow the ticks are the whole ones of the time that has passed exactly when every
call but the last one leaves nothing over. -/
theorem ticksFrom_zero_eq_iff {cs : List ℤ} (hcs : ∀ c ∈ cs, 0 ≤ c) (hfit : ProductsFit 0 cs) :
    ticksFrom 0 cs = 256 * cs.sum / 1000 ↔ ∀ c ∈ cs.dropLast, 125 ∣ c := by
  induction cs with
  | nil => simp [ticksFrom]
  | cons c rest ih =>
    have hc : 0 ≤ c := hcs c (.head rest)
    have hrestNonneg : ∀ c' ∈ rest, 0 ≤ c' := fun c' hc' => hcs c' (.tail c hc')
    rw [ProductsFit, add_zero] at hfit
    obtain ⟨hproduct, hproducts⟩ := hfit
    obtain ⟨hsplit, hnonneg, hlt⟩ := msToTimer_split hc hproduct
    have hdvd := msToTimerRemainder_eq_zero_iff hc hproduct
    rw [ticksFrom, add_zero, List.sum_cons]
    rcases eq_or_ne rest [] with rfl | hrest
    · -- the remainder of the only call is what the claim leaves out
      simp only [ticksFrom, List.sum_nil, List.dropLast_singleton, List.not_mem_nil, false_imp_iff,
        implies_true, iff_true]
      omega
    · rw [List.dropLast_cons_of_ne_nil hrest, List.forall_mem_cons, ← hdvd]
      rcases eq_or_ne (msToTimerRemainder c) 0 with hzero | hzero
      · rw [hzero] at hproducts hsplit
        rw [hzero, ← ih hrestNonneg hproducts]
        omega
      · -- the remainder is added as milliseconds, and the ticks stay too many ever after
        have hgain := le_ticksFrom hnonneg hrestNonneg hproducts hrest
        have height := eight_le_msToTimerRemainder hc hproduct hzero
        have hmany : ticksFrom (msToTimerRemainder c) rest + msToTimer c ≠
            256 * (c + rest.sum) / 1000 := by omega
        constructor
        · intro heq
          omega
        · rintro ⟨heq, -⟩
          exact absurd heq hzero

/-! ### Runs -/

/-- The milliseconds that a call of `stp_tick` says have passed, up to its limit. -/
def StpEvent.passedMs : StpEvent → Option ℤ
  | .tick ms => some (clamp ms 0 (2147483647 - 1000))
  | _ => none

theorem StpEvent.passedMs_nonneg {es : List StpEvent} {ms : ℤ}
    (h : ms ∈ es.filterMap StpEvent.passedMs) : 0 ≤ ms := by
  obtain ⟨e, -, he⟩ := List.mem_filterMap.mp h
  cases e <;> simp only [passedMs, reduceCtorEq, Option.some.injEq] at he
  subst he
  unfold clamp
  split_ifs <;> omega

namespace Stp

/-- The ticks by which an event moves the timers forward. -/
def ticksOf (stp : Stp) : StpEvent → ℤ
  | .tick ms => msToTimer (stp.settings.tickMs ms)
  | _ => 0

/-- The products of an event are of type `int`. -/
def EventFits (stp : Stp) : StpEvent → Prop
  | .tick ms => ProductFits (stp.settings.tickMs ms)
  | _ => True

/-- The ticks of a run. -/
def totalTicks : Stp → List StpEvent → ℤ
  | _, [] => 0
  | stp, e :: es => stp.ticksOf e + (stp.next e).totalTicks es

/-- No product of a run overflows. -/
def RunFits : Stp → List StpEvent → Prop
  | _, [] => True
  | stp, e :: es => stp.EventFits e ∧ (stp.next e).RunFits es

/-- The total number of ticks is that of the time that has passed, and no product overflows. -/
def KeepsTime (stp : Stp) (es : List StpEvent) : Prop :=
  stp.totalTicks es = 256 * (es.filterMap StpEvent.passedMs).sum / 1000 ∧ stp.RunFits es

theorem elapsedRemainder_next (stp : Stp) (e : StpEvent) :
    (stp.next e).elapsedRemainder = (stp.settings.next e).elapsedRemainder :=
  congrArg StpSettings.elapsedRemainder (stp.settings_next e)

/-- The ticks of a run depend on its calls of `stp_tick` alone. -/
theorem totalTicks_eq (stp : Stp) (es : List StpEvent) :
    stp.totalTicks es = ticksFrom stp.elapsedRemainder (es.filterMap StpEvent.passedMs) := by
  induction es generalizing stp with
  | nil => rfl
  | cons e es ih =>
    rw [totalTicks, ih, elapsedRemainder_next]
    cases e with
    | tick ms => rfl
    | _ => exact zero_add _

/-- So do its overflows. -/
theorem runFits_iff (stp : Stp) (es : List StpEvent) :
    stp.RunFits es ↔ ProductsFit stp.elapsedRemainder (es.filterMap StpEvent.passedMs) := by
  induction es generalizing stp with
  | nil => rfl
  | cons e es ih =>
    rw [RunFits, ih, elapsedRemainder_next]
    cases e with
    | tick ms => rfl
    | _ => exact iff_of_eq (true_and _)

theorem elapsedRemainder_stpCreate (bigEndian : Bool) (bridgeId : StpIdentifier) :
    (stpCreate bigEndian bridgeId).elapsedRemainder = 0 := by
  have hcreate := settings_stpCreate bigEndian bridgeId
  generalize stpCreate bigEndian bridgeId = stp at hcreate ⊢
  exact congrArg StpSettings.elapsedRemainder hcreate

/-- **Ticks.** In every run of a new bridge, whatever happens between the calls of `stp_tick`, the
ticks are those of the time that has passed and no product overflows exactly when every call but the
last one is for a multiple of 125 milliseconds, and none for more than 8388607. -/
theorem keepsTime_iff (bigEndian : Bool) (bridgeId : StpIdentifier) (es : List StpEvent) :
    (stpCreate bigEndian bridgeId).KeepsTime es ↔
      (∀ ms ∈ (es.filterMap StpEvent.passedMs).dropLast, 125 ∣ ms) ∧
        ∀ ms ∈ es.filterMap StpEvent.passedMs, ms ≤ 8388607 := by
  have hnonneg : ∀ ms ∈ es.filterMap StpEvent.passedMs, 0 ≤ ms :=
    fun ms hms => StpEvent.passedMs_nonneg hms
  unfold KeepsTime
  rw [runFits_iff, totalTicks_eq, elapsedRemainder_stpCreate]
  generalize es.filterMap StpEvent.passedMs = cs at hnonneg ⊢
  constructor
  · rintro ⟨hticks, hfit⟩
    have hwhole := (ticksFrom_zero_eq_iff hnonneg hfit).mp hticks
    exact ⟨hwhole, (productsFit_iff hnonneg hwhole).mp hfit⟩
  · rintro ⟨hwhole, hshort⟩
    have hfit := (productsFit_iff hnonneg hwhole).mpr hshort
    exact ⟨(ticksFrom_zero_eq_iff hnonneg hfit).mpr hwhole, hfit⟩

/-- Two calls for four milliseconds make eight ticks, where eight milliseconds are two. -/
theorem not_keepsTime : ¬ ∀ (bigEndian : Bool) (bridgeId : StpIdentifier) (calls : List ℤ),
    (∀ ms ∈ calls, 0 < ms) → (stpCreate bigEndian bridgeId).KeepsTime (calls.map .tick) := by
  intro h
  have hticks := (h true 5 [4, 4] (by decide)).1
  rw [totalTicks_eq, elapsedRemainder_stpCreate] at hticks
  exact absurd hticks (by decide)

end Stp

end OfAgent
