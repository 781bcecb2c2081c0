import OfAgent.Conn.Rconn

/-!
# Inactivity probes

What a peer gets from its answers to the probes.

* `RconnRun.Unanswered`: a connection is closed for inactivity only when its last probe has not been
  answered.
* `RconnRun.Compares`: the answer to a probe is compared with the transaction of that probe, or with
  none.
* `RconnRun.unanswered_iff`: `try_send` remembers the transaction of whatever it has transmitted, so
  the first is right in the runs in which the second is.
-/

namespace OfAgent

namespace RconnRun

variable {κ : Type*} [DecidableEq κ] {w w' : RconnRun κ} {clean : Prop}

/-- Whenever a turn of `rconn_run` closes the connection for inactivity, its last probe has not been
answered. -/
def Unanswered (w : RconnRun κ) : Prop :=
  ∀ now, w.state = .idle → w.timedOut now = true → w.answered = false

/-- The answer to the last probe is compared with its own transaction, or with none. -/
def Compares (w : RconnRun κ) : RconnEvent κ → Prop
  | .recv _ (.message type xid) =>
      w.state = .idle → type = ofptEchoReply → xid = w.probe → w.idleEchoXid = 0 ∨
        w.idleEchoXid = xid
  | _ => True

omit [DecidableEq κ] in
/-- Time goes by, so an idle connection is closed in the end. -/
theorem unanswered_iff_idle : w.Unanswered ↔ (w.state = .idle → w.answered = false) := by
  constructor
  · intro h hidle
    exact h (satAdd (toUint w.stateEntered) w.timeout) hidle (decide_eq_true le_rfl)
  · intro h now hidle _
    exact h hidle

/-- No change leaves the connection idle behind an answer. -/
theorem Change.unanswered (hchange : Change clean w w') (h : w.state = .idle → w.answered = false) :
    w'.state = .idle → w'.answered = false := by
  intro hidle
  cases hchange with
  | establish now hstate => cases hidle
  | ask now probe hstate => rfl
  | lose now backoff backoffDeadline _ _ => cases hidle
  | defer now backoff backoffDeadline _ _ => cases hidle
  | close now _ => cases hidle
  | opened now reliable backoffDeadline _ _ hstate =>
    rcases hstate with rfl | rfl <;> cases hidle
  | note reliable backoffDeadline idleEchoXid => exact h hidle
  | push b _ _ => exact h hidle
  | transmit head next _ _ => exact h hidle

/-- A message that is received while the connection is not idle leaves it so. -/
theorem state_recv_of_ne_idle (now : ℤ) (h : w.state ≠ .idle) (type : BitVec 8) (xid : BitVec 32) :
    (rconnRecv now w (.message type xid)).state ≠ .idle := by
  obtain ⟨-, -, -, -, -, hstate⟩ := recv_message_frame now w type xid
  rcases hstate with hstate | ⟨hidle, -⟩
  · exact hstate.symm ▸ h
  · exact absurd hidle h

/-- A message that is received while it is idle keeps the connection from being closed behind an
answer exactly if an answer is compared with its own transaction, or with none. -/
theorem recv_idle_iff (now : ℤ) (hidle : w.state = .idle) (h : w.answered = false) (type : BitVec 8)
    (xid : BitVec 32) :
    let w' := rconnRecv now w (.message type xid)
    (w'.state = .idle → w'.answered = false) ↔ w.Compares (.recv now (.message type xid)) := by
  have hconn : RconnState.isConnected .idle = true := rfl
  unfold rconnRecv Compares
  simp only [hidle, hconn, if_true]
  by_cases htype : type = ofptEchoReply
  · rw [if_pos htype]
    by_cases hzero : w.idleEchoXid = 0
    · -- any answer will do
      rw [if_pos hzero]
      exact iff_of_true (fun hidle' => by cases hidle') fun _ _ _ => .inl hzero
    · rw [if_neg hzero]
      by_cases hxid : w.idleEchoXid = xid
      · rw [if_pos hxid]
        exact iff_of_true (fun hidle' => by cases hidle') fun _ _ _ => .inr hxid
      · -- something else has been transmitted behind the probe
        rw [if_neg hxid]
        simp only [htype, hzero, hxid, h, Bool.false_or, beq_self_eq_true, Bool.true_and,
          beq_eq_false_iff_ne, or_self, imp_false, true_implies, ne_eq]
  · -- any other message shows that the peer is alive
    rw [if_neg htype]
    exact iff_of_true (fun hidle' => by cases hidle') fun _ hreply => absurd hreply htype

/-- From a connection that is not idle behind an answer, an operation leads to another one exactly
if it compares an answer with its own transaction, or with none. -/
theorem next_unanswered_iff (h : w.state = .idle → w.answered = false) (e : RconnEvent κ) :
    ((w.next e).state = .idle → (w.next e).answered = false) ↔ w.Compares e := by
  by_cases hmessage : ∃ now type xid, e = .recv now (.message type xid)
  · obtain ⟨now, type, xid, rfl⟩ := hmessage
    by_cases hidle : w.state = .idle
    · exact recv_idle_iff now hidle (h hidle) type xid
    · exact iff_of_true (fun hidle' => absurd hidle' (state_recv_of_ne_idle now hidle type xid))
        fun hidle' => absurd hidle' hidle
  · refine iff_of_true ?_ ?_
    · rcases @changes_next _ _ False w e fun _ hfalse => hfalse.elim with hchanges | heq | hrecv
      · exact hchanges.invariant (fun w => w.state = .idle → w.answered = false)
          (fun _ _ hw hchange => hchange.unanswered hw) h
      · rw [heq]
        exact h
      · exact absurd hrecv hmessage
    · unfold Compares
      split
      next now type xid => exact absurd ⟨now, type, xid, rfl⟩ hmessage
      next => trivial

/-! ### Runs -/

variable {now probeInterval maxBackoff : ℤ}

/-- In the runs in which the answer to a probe is compared with its own transaction, or with none, a
connection is closed for inactivity only when its last probe has not been answered. An operation on
such a connection keeps this exactly if it compares so. -/
theorem unanswered_iff (w : RconnRun κ) :
    (Transition.ReachableVia Step Compares (create now probeInterval maxBackoff) w →
      ∀ input : TurnInput, w.state = .idle → w.timedOut input.now = true → w.answered = false) ∧
    (w.Unanswered → ∀ e, (w.next e).Unanswered ↔ w.Compares e) := by
  refine ⟨fun h input hidle _ => ?_, fun h e => ?_⟩
  · have hinit : (create (κ := κ) now probeInterval maxBackoff).state = .idle →
        (create (κ := κ) now probeInterval maxBackoff).answered = false := fun _ => rfl
    refine h.invariant (fun w => w.state = .idle → w.answered = false) hinit
      (fun s e s' hs hok hstep => ?_) hidle
    rw [hstep.2]
    exact (next_unanswered_iff hs e).2 hok
  · rw [unanswered_iff_idle]
    exact next_unanswered_iff (unanswered_iff_idle.1 h) e

/-- A connection whose peer has been asked for a sign of life. -/
def probed : RconnRun Unit :=
  (((create 0 5 60).next (.connect 0 (some true))).next (.run (.easy 0))).next (.run (.easy 5))

/-- It has answered, and has been asked again. -/
def probedAgain : RconnRun Unit :=
  (probed.next (.recv 6 (.message ofptEchoReply 1))).next (.run (.easy 20))

/-- The connection is closed, since the second probe has not been answered. -/
theorem unanswered_iff_probedAgain :
    (probedAgain.next (.run (.easy 30))).state = .backoff ∧ probedAgain.answered = false := by
  have hrunCompares (w : RconnRun Unit) (now : ℤ) : w.Compares (.run (.easy now)) := trivial
  have hconnected : Transition.ReachableVia Step Compares (create 0 5 60)
      (((create (κ := Unit) 0 5 60).next (.connect 0 (some true))).next (.run (.easy 0))) :=
    .tail (.tail .refl (e := .connect 0 (some true)) trivial ⟨rfl, rfl⟩) (hrunCompares _ 0)
      ⟨rfl, rfl⟩
  have hprobed : Transition.ReachableVia Step Compares (create 0 5 60) probed :=
    hconnected.tail (hrunCompares _ 5) ⟨rfl, rfl⟩
  have hanswer : probed.Compares (.recv 6 (.message ofptEchoReply 1)) :=
    fun _ _ _ => .inr (by decide)
  have hprobedAgain : Transition.ReachableVia Step Compares (create 0 5 60) probedAgain :=
    (hprobed.tail hanswer ⟨rfl, rfl⟩).tail (hrunCompares _ 20) ⟨rfl, rfl⟩
  exact ⟨by decide,
    (unanswered_iff probedAgain).1 hprobedAgain (.easy 30) (by decide) (by decide)⟩

/-- The client has sent something behind the probe, and the peer has answered the probe. -/
def overtaken : RconnRun Unit :=
  (probed.next (.send 6 10 9 none .ok)).next (.recv 7 (.message ofptEchoReply 1))

/-- The connection is closed all the same. -/
theorem not_unanswered : ¬ ∀ w : RconnRun Unit, Transition.Reachable Step (create 0 5 60) w →
    ∀ input : TurnInput, w.state = .idle → w.timedOut input.now = true → w.answered = false := by
  intro hall
  have hconnected : Transition.Reachable Step (create 0 5 60)
      (((create (κ := Unit) 0 5 60).next (.connect 0 (some true))).next (.run (.easy 0))) :=
    (Transition.Reachable.step .refl (e := .connect 0 (some true)) ⟨rfl, rfl⟩).step
      (e := .run (.easy 0)) ⟨rfl, rfl⟩
  have hprobed : Transition.Reachable Step (create 0 5 60) probed :=
    hconnected.step (e := .run (.easy 5)) ⟨rfl, rfl⟩
  have hovertaken : Transition.Reachable Step (create 0 5 60) overtaken :=
    (hprobed.step (e := .send 6 10 9 none .ok) ⟨rfl, rfl⟩).step
      (e := .recv 7 (.message ofptEchoReply 1)) ⟨rfl, rfl⟩
  have hanswered := hall overtaken hovertaken (.easy 20) (by decide) (by decide)
  revert hanswered
  decide

end RconnRun

end OfAgent
