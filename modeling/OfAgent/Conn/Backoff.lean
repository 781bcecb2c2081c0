import OfAgent.Conn.Queue

/-!
# Backoff

The interval between the attempts of `rconn.c` to connect. It starts with a second, doubles with
every failure up to the limit of the connection, and is forgotten when the connection is closed.
Every function that changes the state of a connection keeps the interval within the limit, whatever
the transport returns; together with the transport that is there while the connection is up, these
are the invariants of the state machine.

* `RconnRun.Paced`: the interval is within the limit.
* `RconnRun.Paced.next`: every operation keeps this.
* `RconnRun.state_machine_invariant`: both invariants, in every run.
-/

namespace OfAgent

namespace RconnRun

variable {κ : Type*} [DecidableEq κ] {w : RconnRun κ} {now : ℤ}

/-- The interval between attempts to connect is within its limit. -/
structure Paced (w : RconnRun κ) : Prop where
  /-- It is not negative. -/
  nonneg : 0 ≤ w.backoff
  /-- The limit admits an interval of a second. -/
  limit_pos : 1 ≤ w.maxBackoff
  /-- It is at most the limit. -/
  le_limit : w.backoff ≤ w.maxBackoff

omit [DecidableEq κ] in
/-- Only the interval and its limit matter. -/
theorem Paced.congr {w' : RconnRun κ} (h : w.Paced) (hbackoff : w'.backoff = w.backoff)
    (hmax : w'.maxBackoff = w.maxBackoff) : w'.Paced where
  nonneg := hbackoff ▸ h.nonneg
  limit_pos := hmax ▸ h.limit_pos
  le_limit := by
    rw [hbackoff, hmax]
    exact h.le_limit

omit [DecidableEq κ] in
/-- `rconn_disconnect` forgets the interval. -/
theorem Paced.rconnDisconnect (h : w.Paced) : (rconnDisconnect now w).Paced := by
  unfold RconnRun.rconnDisconnect
  split_ifs
  · exact ⟨le_refl 0, h.limit_pos, zero_le_one.trans h.limit_pos⟩
  · exact h

/-- `disconnect` begins with a second or doubles the interval. -/
theorem Paced.disconnect (h : w.Paced) : (disconnect now w).Paced := by
  obtain ⟨hnonneg, hpos, hle⟩ := h
  unfold RconnRun.disconnect
  split_ifs with hreliable
  · extract_lets w₁ backoff
    have hmax : w₁.maxBackoff = w.maxBackoff := by
      dsimp only [w₁]
      split <;> rfl
    have hbackoff : w₁.backoff = w.backoff := by
      dsimp only [w₁]
      split <;> rfl
    have hinterval : 0 ≤ backoff ∧ backoff ≤ w₁.maxBackoff := by
      dsimp only [backoff]
      rw [hmax, hbackoff]
      split_ifs <;> omega
    exact ⟨hinterval.1, hmax ▸ hpos, hinterval.2⟩
  · exact Paced.rconnDisconnect ⟨hnonneg, hpos, hle⟩

/-- `reconnect` changes the interval only when the transport cannot be opened. -/
theorem Paced.reconnect (h : w.Paced) (openResult : Option Bool) :
    (reconnect now w openResult).Paced := by
  cases openResult with
  | some reconnectable => exact h.congr rfl rfl
  | none => exact Paced.disconnect (h.congr rfl rfl)

/-- `try_send` disconnects when the transport fails. -/
theorem Paced.trySend (h : w.Paced) (result : Outcome) (head : RconnPacket κ)
    (next : List (RconnPacket κ)) : (trySend now w result head next).2.Paced := by
  cases result with
  | ok => exact h.congr rfl rfl
  | again => exact h.congr rfl rfl
  | fail errno => exact Paced.disconnect (h.congr rfl rfl)

/-- The loop of `do_tx_work`, by induction on its turns. -/
theorem Paced.doTxLoop (h : w.Paced) (sends : ℕ → Outcome) (fuel k : ℕ) :
    (doTxLoop now sends fuel k w).Paced := by
  induction fuel generalizing k w with
  | zero => exact h
  | succ fuel ih =>
    rw [RconnRun.doTxLoop]
    split
    · exact h
    next head next htxq =>
      have hsend : (RconnRun.trySend now w (sends k) head next).2.Paced :=
        h.trySend (sends k) head next
      cases hresult : sends k with
      | ok =>
        rw [hresult] at hsend
        exact ih hsend (k + 1)
      | again =>
        rw [hresult] at hsend
        exact hsend
      | fail errno =>
        rw [hresult] at hsend
        exact hsend

/-- `rconn_send` may try to send at once. -/
theorem Paced.rconnSend (h : w.Paced) (type : BitVec 8) (xid : BitVec 32) (counter : Option κ)
    (result : Outcome) : (rconnSend now w type xid counter result).2.Paced := by
  unfold RconnRun.rconnSend
  split_ifs
  · dsimp only
    split
    · apply Paced.trySend
      exact h.congr rfl rfl
    · exact h.congr rfl rfl
  · exact h

/-- `rconn_recv` disconnects when the stream has failed. -/
theorem Paced.rconnRecv (h : w.Paced) (result : Received) : (rconnRecv now w result).Paced := by
  unfold RconnRun.rconnRecv
  split_ifs
  · cases result with
    | message type xid =>
      dsimp only
      split_ifs <;> exact h.congr rfl rfl
    | again => exact h
    | fail errno => exact h.disconnect
  · exact h

/-- A turn of `rconn_run`, by the state that it finds. -/
theorem Paced.runTurn (h : w.Paced) (input : TurnInput) : (runTurn w input).Paced := by
  unfold RconnRun.runTurn
  cases w.state with
  | void => exact h
  | backoff =>
    dsimp only
    split_ifs
    · exact h.reconnect _
    · exact h
  | connecting =>
    cases input.connectResult with
    | ok => exact h.congr rfl rfl
    | fail errno => exact h.disconnect
    | again =>
      dsimp only
      split_ifs
      · exact Paced.disconnect (h.congr rfl rfl)
      · exact h
  | active =>
    dsimp only
    split_ifs
    · -- the probe is sent from the state `IDLE`
      apply Paced.rconnSend
      exact h.congr rfl rfl
    · exact h.doTxLoop _ _ _
  | idle =>
    dsimp only
    split_ifs
    · exact h.disconnect
    · exact h.doTxLoop _ _ _

/-- Every operation keeps the interval within its limit. -/
theorem Paced.next (h : w.Paced) (e : RconnEvent κ) : (w.next e).Paced := by
  cases e with
  | connect now openResult =>
    have hdisconnected : (RconnRun.rconnDisconnect now w).Paced := h.rconnDisconnect
    apply Paced.reconnect
    exact hdisconnected.congr rfl rfl
  | connectUnreliably now =>
    have hdisconnected : (RconnRun.rconnDisconnect now w).Paced := h.rconnDisconnect
    exact hdisconnected.congr rfl rfl
  | disconnect now => exact h.rconnDisconnect
  | destroy => exact h.congr rfl rfl
  | send now type xid counter result => exact h.rconnSend type xid counter result
  | sendWithLimit now type xid counter queueLimit result =>
    show (rconnSendWithLimit now w type xid counter queueLimit result).2.Paced
    unfold rconnSendWithLimit
    split_ifs
    · exact h
    · exact h.rconnSend type xid (some counter) result
  | run input => exact h.runTurn input
  | recv now result => exact h.rconnRecv result

/-! ### Runs -/

variable {probeInterval maxBackoff : ℤ}

omit [DecidableEq κ] in
/-- A new connection has no interval yet. -/
theorem paced_create (h : 0 ≤ maxBackoff) :
    (create (κ := κ) now probeInterval maxBackoff).Paced := by
  have hpos : 1 ≤ if maxBackoff ≠ 0 then maxBackoff else 60 := by
    split_ifs <;> omega
  exact ⟨le_refl 0, hpos, zero_le_one.trans hpos⟩

/-- **State machine.** In every run of a connection, whatever the transport returns, there is a
transport exactly while the connection is being made, active or idle, and the interval between
attempts to connect is within its limit. -/
theorem state_machine_invariant (hmax : 0 ≤ maxBackoff)
    (h : Transition.Reachable Step (create (κ := κ) now probeInterval maxBackoff) w) :
    (w.destroyed = false →
        (w.vconn.isSome ↔ w.state = .connecting ∨ w.state = .active ∨ w.state = .idle)) ∧
      0 ≤ w.backoff ∧ w.backoff ≤ w.maxBackoff := by
  have hlinked := (counted_of_reachable h).2
  have hpaced := h.invariant Paced (paced_create hmax) fun _ e _ hw _ hstep => hstep.2 ▸ hw.next e
  refine ⟨fun hd => ?_, hpaced.nonneg, hpaced.le_limit⟩
  rw [hlinked hd]
  cases w.state <;> decide

/-- A connection that cannot be opened waits for two seconds after the second failure. -/
theorem state_machine_invariant_refused :
    let w := ((create (κ := Unit) 0 0 15).next (.connect 5 none)).next (.run (.easy 6))
    (w.destroyed = false →
        (w.vconn.isSome ↔ w.state = .connecting ∨ w.state = .active ∨ w.state = .idle)) ∧
      0 ≤ w.backoff ∧ w.backoff ≤ w.maxBackoff :=
  state_machine_invariant (show (0 : ℤ) ≤ 15 by decide)
    ((Transition.Reachable.step .refl ⟨rfl, rfl⟩).step ⟨rfl, rfl⟩)

end RconnRun

end OfAgent
