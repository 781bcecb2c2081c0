import OfAgent.Stp.Ticks

/-!
# Times of a bridge

The requested times of a bridge are brought into the relation of 802.1D as milliseconds and rounded
down to ticks afterwards. The hello time keeps the relation to the max age that way, since the
rounding of the max age counts once and the one of the hello time twice. The forward delay may lose
it.

* `Stp.TimesRelated`: the relation between the times in ticks.
* `lastRequest`: what has been requested last in a run.
* `RoundsWell`: the last requests for which the forward delay survives the rounding.
* `Stp.timesRelated_iff`: the relation holds behind a run exactly for these.
-/

namespace OfAgent

/-! ### Requests -/

/-- The hello time that an event requests. -/
def StpEvent.helloTime : StpEvent → Option ℤ
  | .setHelloTime ms => some ms
  | _ => none

/-- The max age that an event requests. -/
def StpEvent.maxAge : StpEvent → Option ℤ
  | .setMaxAge ms => some ms
  | _ => none

/-- The forward delay that an event requests. -/
def StpEvent.forwardDelay : StpEvent → Option ℤ
  | .setForwardDelay ms => some ms
  | _ => none

/-- The last request of a kind, or what holds without one. -/
def lastRequest (request : StpEvent → Option ℤ) (initial : ℤ) (es : List StpEvent) : ℤ :=
  (es.filterMap request).getLastD initial

theorem lastRequest_cons (request : StpEvent → Option ℤ) (initial : ℤ) (e : StpEvent)
    (es : List StpEvent) :
    lastRequest request initial (e :: es) = lastRequest request ((request e).getD initial) es := by
  unfold lastRequest
  cases h : request e with
  | none => rw [List.filterMap_cons_none h, Option.getD_none]
  | some ms => rw [List.filterMap_cons_some h, List.getLastD_cons, Option.getD_some]

namespace StpSettings

/-- An event changes a requested time to what it requests. -/
theorem rq_next (s : StpSettings) (e : StpEvent) :
    (s.next e).rqHelloTime = e.helloTime.getD s.rqHelloTime ∧
      (s.next e).rqMaxAge = e.maxAge.getD s.rqMaxAge ∧
      (s.next e).rqForwardDelay = e.forwardDelay.getD s.rqForwardDelay := by
  cases e <;> exact ⟨rfl, rfl, rfl⟩

/-- Behind a run the requested times are the last requests. -/
theorem rq_run (s : StpSettings) (es : List StpEvent) :
    (es.foldl next s).rqHelloTime = lastRequest StpEvent.helloTime s.rqHelloTime es ∧
      (es.foldl next s).rqMaxAge = lastRequest StpEvent.maxAge s.rqMaxAge es ∧
      (es.foldl next s).rqForwardDelay = lastRequest StpEvent.forwardDelay s.rqForwardDelay es := by
  induction es generalizing s with
  | nil => exact ⟨rfl, rfl, rfl⟩
  | cons e es ih =>
    obtain ⟨hhello, hage, hdelay⟩ := s.rq_next e
    rw [List.foldl_cons, lastRequest_cons, lastRequest_cons, lastRequest_cons, ← hhello, ← hage,
      ← hdelay]
    exact ih (s.next e)

/-- The times are those of the requests. -/
def UpToDate (s : StpSettings) : Prop := s.updateBridgeTimers = s

/-- An event leaves the times up to date. -/
theorem UpToDate.next {s : StpSettings} (h : s.UpToDate) (e : StpEvent) : (s.next e).UpToDate := by
  cases e with
  | tick ms =>
    have htimes :=
      fun r : ℤ => congrArg (fun s' : StpSettings => { s' with elapsedRemainder := r }) h
    exact htimes _
  | setHelloTime ms => rfl
  | setMaxAge ms => rfl
  | setForwardDelay ms => rfl
  | _ => exact h

theorem UpToDate.run {s : StpSettings} (h : s.UpToDate) (es : List StpEvent) :
    (es.foldl StpSettings.next s).UpToDate := by
  induction es generalizing s with
  | nil => exact h
  | cons e es ih => exact ih (h.next e)

end StpSettings

/-! ### Rounding -/

/-- The times that users may choose are converted without overflow. -/
theorem msToTimer_of_le {ms : ℤ} (hms : 0 ≤ ms) (hle : ms ≤ 40000) :
    msToTimer ms = 256 * ms / 1000 := by
  have hsplit := msToTimer_split hms ((productFits_iff hms).mpr (by omega))
  omega

theorem clamp_mem {lo hi : ℤ} (h : lo ≤ hi) (x : ℤ) : lo ≤ clamp x lo hi ∧ clamp x lo hi ≤ hi := by
  unfold clamp
  split_ifs <;> omega

/-- The requests for which rounding down keeps the forward delay long enough: it is far enough from
its least value for this max age, or rounding cuts off little of it. -/
def RoundsWell (helloTime maxAge forwardDelay : ℤ) : Prop :=
  let ht := clamp helloTime 1000 10000
  let ma := clamp maxAge (max (2 * (ht + 1000)) 6000) 40000
  let fd := clamp forwardDelay (ma / 2 + 1000) 30000
  2 * (256 * (fd - 1000) % 1000) < 1000 + 256 * (2 * (fd - 1000) - ma)

instance (helloTime maxAge forwardDelay : ℤ) :
    Decidable (RoundsWell helloTime maxAge forwardDelay) :=
  inferInstanceAs (Decidable (_ < _))

/-- The times that are brought into the relation as milliseconds keep it as ticks exactly when the
forward delay survives the rounding. -/
theorem ticks_related_iff {ht ma fd : ℤ} (hht : 1000 ≤ ht) (hma : 2 * (ht + 1000) ≤ ma)
    (hmaLe : ma ≤ 40000) (hfd : ma / 2 + 1000 ≤ fd) (hfdLe : fd ≤ 30000) :
    msToTimer ma ≤ 2 * (msToTimer fd - 256) ∧ 2 * (msToTimer ht + 256) ≤ msToTimer ma ↔
      2 * (256 * (fd - 1000) % 1000) < 1000 + 256 * (2 * (fd - 1000) - ma) := by
  rw [msToTimer_of_le (by omega) hmaLe, msToTimer_of_le (by omega) (by omega),
    msToTimer_of_le (by omega) (by omega)]
  -- a second is a whole number of ticks
  have hsecond : 256 * fd / 1000 = 256 * (fd - 1000) / 1000 + 256 := by omega
  have hsplit := Int.mul_ediv_add_emod (256 * (fd - 1000)) 1000
  constructor
  · rintro ⟨hdelay, -⟩
    omega
  · intro hround
    constructor <;> omega

namespace Stp

/-- The relation of 802.1D between the times of a bridge, in ticks. -/
structure TimesRelated (stp : Stp) : Prop where
  /-- `2 * (bridge_forward_delay - 1 s) >= bridge_max_age`. -/
  forwardDelay : stp.bridgeMaxAge ≤ 2 * (stp.bridgeForwardDelay - 256)
  /-- `bridge_max_age >= 2 * (bridge_hello_time + 1 s)`. -/
  helloTime : 2 * (stp.bridgeHelloTime + 256) ≤ stp.bridgeMaxAge

/-- It is a relation between settings that are up to date, by what is requested. -/
theorem timesRelated_iff_of_upToDate {stp : Stp} (h : stp.settings.UpToDate) :
    stp.TimesRelated ↔
      RoundsWell stp.settings.rqHelloTime stp.settings.rqMaxAge stp.settings.rqForwardDelay := by
  have hrelated : stp.TimesRelated ↔
      stp.settings.bridgeMaxAge ≤ 2 * (stp.settings.bridgeForwardDelay - 256) ∧
        2 * (stp.settings.bridgeHelloTime + 256) ≤ stp.settings.bridgeMaxAge :=
    ⟨fun hrelated => ⟨hrelated.1, hrelated.2⟩, fun hrelated => ⟨hrelated.1, hrelated.2⟩⟩
  generalize stp.settings = s at h hrelated ⊢
  have hhello := congrArg StpSettings.bridgeHelloTime h
  have hage := congrArg StpSettings.bridgeMaxAge h
  have hdelay := congrArg StpSettings.bridgeForwardDelay h
  simp only [StpSettings.updateBridgeTimers] at hhello hage hdelay
  obtain ⟨hht, hhtLe⟩ := clamp_mem (show (1000 : ℤ) ≤ 10000 by decide) s.rqHelloTime
  unfold RoundsWell
  generalize clamp s.rqHelloTime 1000 10000 = ht at *
  obtain ⟨hma, hmaLe⟩ := clamp_mem (show max (2 * (ht + 1000)) 6000 ≤ 40000 by omega) s.rqMaxAge
  dsimp only
  generalize clamp s.rqMaxAge (max (2 * (ht + 1000)) 6000) 40000 = ma at *
  have hmaNonneg : 0 ≤ ma := by omega
  rw [Int.tdiv_eq_ediv_of_nonneg hmaNonneg] at hdelay
  obtain ⟨hfd, hfdLe⟩ := clamp_mem (show ma / 2 + 1000 ≤ 30000 by omega) s.rqForwardDelay
  generalize clamp s.rqForwardDelay (ma / 2 + 1000) 30000 = fd at *
  rw [hrelated, ← ticks_related_iff hht (by omega) hmaLe hfd hfdLe, hage, hdelay, hhello]

/-- **Times.** Behind every run of a new bridge its times are in the relation of 802.1D exactly when
the forward delay survives the rounding for the last requests. -/
theorem timesRelated_iff (bigEndian : Bool) (bridgeId : StpIdentifier) (es : List StpEvent) :
    ((stpCreate bigEndian bridgeId).run es).TimesRelated ↔
      RoundsWell (lastRequest StpEvent.helloTime 2000 es) (lastRequest StpEvent.maxAge 6000 es)
        (lastRequest StpEvent.forwardDelay 4000 es) := by
  have hrun := (stpCreate bigEndian bridgeId).settings_run es
  rw [settings_stpCreate] at hrun
  have hupToDate : StpSettings.created.UpToDate := rfl
  obtain ⟨hhello, hage, hdelay⟩ := StpSettings.created.rq_run es
  rw [← hrun] at hhello hage hdelay
  have hrelated := timesRelated_iff_of_upToDate (hrun ▸ hupToDate.run es)
  generalize (stpCreate bigEndian bridgeId).run es = stp at hhello hage hdelay hrelated ⊢
  rw [hrelated, hhello, hage, hdelay]
  rfl

/-- A max age of 6.004 s makes 1537 ticks, for which the forward delay of 4.002 s is half a tick too
short. -/
theorem not_timesRelated : ¬ ∀ (bigEndian : Bool) (bridgeId : StpIdentifier) (es : List StpEvent),
    (∀ e ∈ es, ∃ ms, e = .setHelloTime ms ∨ e = .setMaxAge ms ∨ e = .setForwardDelay ms) →
      ((stpCreate bigEndian bridgeId).run es).TimesRelated := by
  intro h
  have hrun := (stpCreate true 5).settings_run [.setMaxAge 6004]
  rw [settings_stpCreate] at hrun
  have hrelated := h true 5 [.setMaxAge 6004] (by simp)
  generalize (stpCreate true 5).run [.setMaxAge 6004] = stp at hrun hrelated
  have hdelay := hrelated.forwardDelay
  have hbridgeMaxAge : stp.bridgeMaxAge = 1537 := congrArg StpSettings.bridgeMaxAge hrun
  have hbridgeForwardDelay : stp.bridgeForwardDelay = 1024 :=
    congrArg StpSettings.bridgeForwardDelay hrun
  omega

end Stp

end OfAgent
