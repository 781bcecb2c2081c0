import Mathlib.Data.List.Chain
import OfAgent.Conn.Rconn

/-!
# Controllers that take turns

`failover.c` of the secure channel: a periodic callback that finds the connection to the controller
down connects to the next controller, unless the last one has had less than `max_backoff` seconds.

* `FailoverRun.failoverPeriodicCb`: the callback; `failoverPeriodicCb_cases`: what it may do.
* `FailoverRun.takes_turns`: no controller is left out, and none has less than its time.
* `FailoverRun.tries_all`: without a connection, all of them have a turn in a bounded time.
-/

namespace OfAgent

/-- The options of the command line. The module is not started for a single controller. -/
structure FailoverSettings where
  /-- `num_controllers`. -/
  numControllers : ℕ
  /-- `max_backoff`. -/
  maxBackoff : ℕ
  /-- There is a controller to turn to. -/
  one_lt : 1 < numControllers
  /-- `parse_options` limits the option to an hour. -/
  le_hour : maxBackoff ≤ 3600

/-- `struct failover_context`, with the connection. -/
structure FailoverRun (κ : Type*) where
  /-- `remote_rconn`. -/
  rconn : RconnRun κ
  /-- `index`: the controller that has its turn. -/
  index : ℕ
  /-- `epoch` of `peers`: when a controller has been given its last turn. -/
  epoch : ℕ → ℕ
  /-- The time of the last callback. -/
  clock : ℕ
  /-- The turns that have been given: when, and to which controller. -/
  turns : List (ℕ × ℕ)

/-- What can happen: the connection is used by others, or the callback runs. -/
inductive FailoverEvent (κ : Type*)
  | rconn (e : RconnEvent κ)
  | periodic (now : ℕ) (openResult : Option Bool)

namespace FailoverRun

variable {κ : Type*} [DecidableEq κ] (cfg : FailoverSettings)

/-! ### Functions -/

/-- `is_timed_out`. -/
def isTimedOut (now epoch : ℕ) : Bool := satAdd (toUint epoch) cfg.maxBackoff ≤ now

/-- `failover_periodic_cb`, with what the transport returns. -/
def failoverPeriodicCb (now : ℕ) (openResult : Option Bool) (w : FailoverRun κ) : FailoverRun κ :=
  if w.rconn.state.isConnected then w
  else if !isTimedOut cfg now (w.epoch w.index) then w
  else
    let rconn := RconnRun.rconnDisconnect now w.rconn
    let index := (w.index + 1) % cfg.numControllers
    { w with
      rconn := RconnRun.rconnConnect now rconn openResult
      index
      epoch := Function.update w.epoch index now
      turns := w.turns ++ [(now, index)] }

/-- `failover_start`. -/
def start (now : ℕ) (rconn : RconnRun κ) : FailoverRun κ := ⟨rconn, 0, fun _ => now, now, []⟩

/-- The module behind an event. -/
def next (w : FailoverRun κ) : FailoverEvent κ → FailoverRun κ
  | .rconn e => { w with rconn := w.rconn.next e }
  | .periodic now openResult => failoverPeriodicCb cfg now openResult { w with clock := now }

/-- The callback runs at a time of 31 bits that is not before the last one. -/
def Timely (w : FailoverRun κ) : FailoverEvent κ → Prop
  | .rconn _ => True
  | .periodic now _ => w.clock ≤ now ∧ now < 2 ^ 31

/-- The step relation. -/
def Step (w : FailoverRun κ) (e : FailoverEvent κ) (w' : FailoverRun κ) : Prop :=
  w.Timely e ∧ w' = w.next cfg e

/-- The callback finds the connection down, at most so many seconds after the last one. -/
def Unheard (gap : ℕ) (w : FailoverRun κ) : FailoverEvent κ → Prop
  | .rconn _ => True
  | .periodic now _ => w.rconn.state.isConnected = false ∧ now ≤ w.clock + gap

/-! ### Turns -/

variable {cfg} {w w' s₀ s : FailoverRun κ} {tail : List (ℕ × ℕ)} {e : FailoverEvent κ} {gap : ℕ}

variable (cfg) in
/-- Behind the callback nothing has changed, or the next controller has its turn. -/
theorem failoverPeriodicCb_cases (now : ℕ) (openResult : Option Bool)
    (hepoch : w.epoch w.index < 2 ^ 31) :
    failoverPeriodicCb cfg now openResult w = w ∧
        (w.rconn.state.isConnected = false → now < w.epoch w.index + cfg.maxBackoff) ∨
      w.epoch w.index + cfg.maxBackoff ≤ now ∧
        ∃ rconn i, failoverPeriodicCb cfg now openResult w =
          ⟨rconn, i, Function.update w.epoch i now, w.clock, w.turns ++ [(now, i)]⟩ ∧
            i = (w.index + 1) % cfg.numControllers := by
  have hle := cfg.le_hour
  have hiff : isTimedOut cfg now (w.epoch w.index) = true ↔
      w.epoch w.index + cfg.maxBackoff ≤ now := by
    unfold isTimedOut satAdd toUint uintMax
    rw [decide_eq_true_iff]
    split <;> omega
  unfold failoverPeriodicCb
  by_cases hup : w.rconn.state.isConnected = true
  · rw [if_pos hup]
    exact .inl ⟨rfl, fun hdown => absurd hup (hdown ▸ Bool.false_ne_true)⟩
  rw [if_neg hup]
  by_cases hdue : isTimedOut cfg now (w.epoch w.index) = true
  · rw [hdue]
    exact .inr ⟨hiff.1 hdue, _, _, rfl, rfl⟩
  · rw [Bool.eq_false_iff.2 hdue]
    exact .inl ⟨rfl, fun _ => Nat.lt_of_not_le (mt hiff.2 hdue)⟩

/-- The turns that have been given since the state `s₀`. -/
structure Took (cfg : FailoverSettings) (s₀ w : FailoverRun κ) (tail : List (ℕ × ℕ)) : Prop where
  /-- They are recorded. -/
  turns : w.turns = s₀.turns ++ tail
  /-- The controllers follow each other. -/
  order : tail.map Prod.snd =
    (List.range tail.length).map fun k => (s₀.index + k + 1) % cfg.numControllers
  /-- The last one has its turn. -/
  index : w.index = (s₀.index + tail.length) % cfg.numControllers
  /-- Each turn takes its time. -/
  spaced : (s₀.epoch s₀.index :: tail.map Prod.fst).IsChain (· + cfg.maxBackoff ≤ ·)
  /-- The last one began at the `epoch` of its controller. -/
  last : (s₀.epoch s₀.index :: tail.map Prod.fst).getLast? = some (w.epoch w.index)
  /-- All this was not before `s₀`. -/
  since : s₀.clock ≤ w.clock ∧ ∀ p ∈ tail, s₀.clock ≤ p.1
  /-- Nothing is in the future. -/
  past : w.epoch w.index ≤ w.clock ∧ w.clock < 2 ^ 31

omit [DecidableEq κ] in
theorem Took.refl (hindex : w.index < cfg.numControllers)
    (hpast : w.epoch w.index ≤ w.clock ∧ w.clock < 2 ^ 31) : Took cfg w w [] :=
  ⟨(List.append_nil _).symm, rfl, (Nat.mod_eq_of_lt hindex).symm, .singleton _, rfl,
    ⟨le_rfl, fun _ hp => nomatch hp⟩, hpast⟩

variable (gap) in
/-- A step gives a turn or none. When the connection is down, it gives none only while the current
turn has not taken its time. -/
theorem Took.step (h : Took cfg s₀ w tail) (hstep : Step cfg w e w') :
    Took cfg s₀ w' tail ∧ w'.epoch w'.index = w.epoch w.index ∧
        (Unheard gap w e → w'.clock = w.clock ∨ w'.clock < w.epoch w.index + cfg.maxBackoff) ∨
      ∃ now i, Took cfg s₀ w' (tail ++ [(now, i)]) ∧ w'.epoch w'.index = now ∧ w'.clock = now ∧
        (Unheard gap w e → now ≤ w.clock + gap) := by
  obtain ⟨htimely, rfl⟩ := hstep
  obtain ⟨hturns, horder, hindex, hspaced, hlast, hsince, hpast⟩ := h
  cases e with
  | rconn e =>
    exact .inl ⟨⟨hturns, horder, hindex, hspaced, hlast, hsince, hpast⟩, rfl, fun _ => .inl rfl⟩
  | periodic now openResult =>
    obtain ⟨hclock, hnow⟩ := htimely
    have hsince' := hsince.1.trans hclock
    rw [next]
    obtain ⟨heq, hwait⟩ | ⟨hdue, rconn, i, heq, hi⟩ := failoverPeriodicCb_cases cfg
      (w := { w with clock := now }) now openResult (hpast.1.trans_lt hpast.2)
    · rw [heq]
      exact .inl ⟨⟨hturns, horder, hindex, hspaced, hlast, ⟨hsince', hsince.2⟩,
        hpast.1.trans hclock, hnow⟩, rfl, fun hdown => .inr (hwait hdown.1)⟩
    · rw [heq]
      have hself : Function.update w.epoch i now i = now := Function.update_self ..
      have hnext : i = (s₀.index + tail.length + 1) % cfg.numControllers := by
        rw [hi, hindex, Nat.mod_add_mod]
      refine .inr ⟨now, i, ⟨?_, ?_, ?_, ?_, ?_, ⟨hsince', ?_⟩, hself.le, hnow⟩, hself, rfl,
        fun hdown => hdown.2⟩
      · rw [← List.append_assoc, ← hturns]
      · rw [List.map_append, horder, List.length_append, List.length_singleton, List.range_succ,
          List.map_append, List.map_singleton, List.map_singleton, hnext]
      · rw [List.length_append]
        exact hnext
      · rw [List.map_append, ← List.cons_append]
        refine List.isChain_append.2 ⟨hspaced, .singleton _, fun x hx y hy => ?_⟩
        obtain rfl := Option.some.inj (hlast.symm.trans hx)
        obtain rfl := Option.some.inj hy
        exact hdue
      · rw [List.map_append, ← List.cons_append]
        exact List.getLast?_concat.trans (congrArg some hself.symm)
      · exact List.forall_mem_append.2 ⟨hsince.2, List.forall_mem_singleton.2 hsince'⟩

theorem Took.run (h : Took cfg s₀ w tail) (hrun : Transition.Reachable (Step cfg) w s) :
    ∃ tail', Took cfg s₀ s tail' :=
  hrun.invariant (fun s => ∃ tail', Took cfg s₀ s tail') ⟨tail, h⟩ fun _ _ _ ⟨_, h⟩ _ hstep =>
    (h.step 0 hstep).elim (fun h => ⟨_, h.1⟩) fun ⟨_, _, h, _⟩ => ⟨_, h⟩

theorem took_start {now : ℕ} {rconn : RconnRun κ} (hnow : now < 2 ^ 31)
    (hrun : Transition.Reachable (Step cfg) (start now rconn) s) :
    Took cfg (start now rconn) s s.turns := by
  obtain ⟨tail, h⟩ := (Took.refl (Nat.zero_lt_of_lt cfg.one_lt) ⟨le_rfl, hnow⟩).run hrun
  exact h.turns.trans (List.nil_append _) ▸ h

/-- **Turns.** In every run, whatever else is done with the connection, the controllers take turns
in their order, and none loses its turn in less than `max_backoff` seconds. -/
theorem takes_turns {now : ℕ} {rconn : RconnRun κ} (hnow : now < 2 ^ 31)
    (hrun : Transition.Reachable (Step cfg) (start now rconn) s) :
    s.turns.map Prod.snd =
        (List.range s.turns.length).map (fun k => (k + 1) % cfg.numControllers) ∧
      (now :: s.turns.map Prod.fst).IsChain (· + cfg.maxBackoff ≤ ·) := by
  have h := took_start hnow hrun
  refine ⟨h.order.trans (List.map_congr_left fun k _ => ?_), h.spaced⟩
  rw [start, Nat.zero_add]

/-- While the connection is down, every turn ends, and leaves the next one less than so many
seconds. -/
theorem Took.prompt (h : Took cfg s₀ s₀ [])
    (hdown : Transition.ReachableVia (Step cfg) (Unheard gap) s₀ s) :
    ∃ tail, Took cfg s₀ s tail ∧
      s.epoch s.index ≤ s₀.clock + tail.length * (cfg.maxBackoff + gap) ∧
      s.clock ≤ s₀.clock + tail.length * (cfg.maxBackoff + gap) + cfg.maxBackoff := by
  induction hdown with
  | refl => exact ⟨[], h, by simpa using h.past.1, by simp⟩
  | tail _ hdown hstep ih =>
    obtain ⟨tail, h, hepoch, hclock⟩ := ih
    obtain ⟨h', heq, hwait⟩ | ⟨now, j, h', hnow, hclock', hsoon⟩ := h.step gap hstep
    · refine ⟨tail, h', heq ▸ hepoch, ?_⟩
      obtain hsame | hlt := hwait hdown
      · exact hsame ▸ hclock
      · omega
    · have hle := hsoon hdown
      refine ⟨_, h', ?_⟩
      rw [hnow, hclock', List.length_append, List.length_singleton, Nat.add_mul, Nat.one_mul]
      omega

omit [DecidableEq κ] in
/-- In as many turns as there are controllers, each of them has one. -/
theorem Took.tried (h : Took cfg s₀ w tail) (hindex : s₀.index < cfg.numControllers)
    (hmany : cfg.numControllers ≤ tail.length) {i : ℕ} (hi : i < cfg.numControllers) :
    i ∈ tail.map Prod.snd := by
  rw [h.order, List.mem_map]
  by_cases hle : s₀.index + 1 ≤ i
  · obtain ⟨k, rfl⟩ := Nat.exists_eq_add_of_le hle
    exact ⟨k, List.mem_range.2 (by omega), by rw [Nat.add_right_comm, Nat.mod_eq_of_lt hi]⟩
  · have hle' : s₀.index + 1 ≤ i + cfg.numControllers := by omega
    obtain ⟨k, hk⟩ := Nat.exists_eq_add_of_le hle'
    refine ⟨k, List.mem_range.2 (by omega), ?_⟩
    rw [Nat.add_right_comm, ← hk, Nat.add_mod_right, Nat.mod_eq_of_lt hi]

/-- **No controller is left out.** When the callback runs at least every `gap` seconds, and finds
the connection down every time, each of the controllers is given a turn within `max_backoff + gap`
seconds for each of them. -/
theorem tries_all {now : ℕ} {rconn : RconnRun κ} (hnow : now < 2 ^ 31)
    (hreach : Transition.Reachable (Step cfg) (start now rconn) s₀)
    (hdown : Transition.ReachableVia (Step cfg) (Unheard gap) s₀ s)
    (hlong : s₀.clock + cfg.numControllers * (cfg.maxBackoff + gap) < s.clock) {i : ℕ}
    (hi : i < cfg.numControllers) : ∃ t, s₀.clock ≤ t ∧ (t, i) ∈ s.turns := by
  have h₀ := took_start hnow hreach
  have hindex : s₀.index < cfg.numControllers :=
    h₀.index.trans_lt (Nat.mod_lt _ (Nat.zero_lt_of_lt cfg.one_lt))
  obtain ⟨tail, h, -, hclock⟩ := (Took.refl hindex h₀.past).prompt hdown
  have hmany : cfg.numControllers ≤ tail.length := by
    by_contra hfew
    have hle := Nat.mul_le_mul_right (cfg.maxBackoff + gap) (Nat.lt_of_not_le hfew)
    rw [Nat.succ_mul] at hle
    omega
  obtain ⟨p, hp, rfl⟩ := List.mem_map.1 (h.tried hindex hmany hi)
  exact ⟨p.1, h.since.2 p hp, h.turns ▸ List.mem_append_right _ hp⟩

/-! ### Two controllers -/

/-- The options for two controllers. -/
def twoControllers : FailoverSettings := ⟨2, 1, Nat.one_lt_two, Nat.le_add_left 1 3599⟩

/-- At first. -/
def twoStarted : FailoverRun Unit := start 0 (.create 0 0 15)

/-- Neither of them has answered for nine seconds. -/
def twoDown : FailoverRun Unit :=
  [3, 6, 9].foldl (fun w now => w.next twoControllers (.periodic now (some true))) twoStarted

theorem reachable_twoDown :
    Transition.ReachableVia (Step twoControllers) (Unheard 3) twoStarted twoDown :=
  .tail (.tail (.tail .refl (e := .periodic 3 (some true)) ⟨rfl, by decide⟩
    ⟨⟨by decide, by decide⟩, rfl⟩) (e := .periodic 6 (some true)) ⟨rfl, by decide⟩
    ⟨⟨by decide, by decide⟩, rfl⟩) (e := .periodic 9 (some true)) ⟨rfl, by decide⟩
    ⟨⟨by decide, by decide⟩, rfl⟩

theorem takes_turns_twoDown : (0 :: twoDown.turns.map Prod.fst).IsChain (· + 1 ≤ ·) :=
  (takes_turns (by decide) reachable_twoDown.reachable).2

theorem tries_all_twoDown : ∃ t, 0 ≤ t ∧ (t, 1) ∈ twoDown.turns :=
  tries_all (by decide) .refl reachable_twoDown (by decide) (by decide)

end FailoverRun

end OfAgent
