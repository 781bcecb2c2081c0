import OfAgent.Conn.Rconn

/-!
# The queue of a connection

The counters of the callers, and the connections that packets are transmitted on.

* `RconnRun.Counted`: every counter is the number of the packets in the queue that it has been
  passed with.
* `RconnRun.Current`: the packets in the queue are for the connection that is up.
* `RconnRun.exists_txq_next_sublist`: an operation puts at most one packet into the queue.
* `RconnRun.counters_and_connections`: the counters are right in every run. `rconn_disconnect`
  leaves packets in the queue, so the connections are right in the runs in which no new connection
  is made while packets are left.
-/

namespace OfAgent

namespace RconnRun

variable {κ : Type*} [DecidableEq κ] {w w' : RconnRun κ} {clean : Prop}

/-! ### Counters -/

/-- Every counter is the number of its packets in the queue. -/
def Counted (w : RconnRun κ) : Prop :=
  ∀ c, w.counters c = (w.txq.countP fun b => b.counter = some c : ℕ)

/-- A counter after a change of one. -/
theorem addCounter_apply (d : ℤ) (o : Option κ) (counters : κ → ℤ) (c : κ) :
    addCounter d o counters c = counters c + if o = some c then d else 0 := by
  cases o with
  | none => simp [addCounter]
  | some c' =>
    by_cases heq : c' = c
    · subst heq
      simp [addCounter]
    · rw [addCounter, Function.update_of_ne (Ne.symm heq), if_neg fun h => heq (Option.some.inj h),
        Int.add_zero]

/-- The counters when packets are dropped. -/
theorem foldl_addCounter (bs : List (RconnPacket κ)) (counters : κ → ℤ) (c : κ) :
    bs.foldl (fun counters b => addCounter (-1) b.counter counters) counters c =
      counters c - (bs.countP fun b => b.counter = some c : ℕ) := by
  induction bs generalizing counters with
  | nil => simp
  | cons b bs ih =>
    rw [List.foldl_cons, ih, addCounter_apply, List.countP_cons]
    by_cases hb : b.counter = some c
    · simp only [hb, if_true, decide_true]
      omega
    · simp only [hb, if_false, decide_false, Bool.false_eq_true]
      omega

theorem Counted.flushQueue (h : w.Counted) : (flushQueue w).Counted := fun c => by
  change w.txq.foldl _ w.counters c = _
  rw [foldl_addCounter, h c]
  exact Int.sub_self _

/-- Every change keeps the counters right. -/
theorem Counted.change (h : w.Counted) (hchange : Change clean w w') : w'.Counted := by
  cases hchange with
  | establish now hstate => exact h
  | ask now probe hstate => exact h
  | lose now backoff backoffDeadline _ _ =>
    exact @Counted.flushQueue _ _ { w with vconn := none } h
  | defer now backoff backoffDeadline _ _ => exact h
  | close now _ => exact h
  | opened now reliable backoffDeadline _ _ _ => exact h
  | note reliable backoffDeadline idleEchoXid => exact h
  | push b _ _ =>
    intro c
    change addCounter 1 b.counter w.counters c = ((w.txq ++ [b]).countP _ : ℕ)
    rw [addCounter_apply, h c, List.countP_append, List.countP_singleton]
    by_cases hb : b.counter = some c <;> simp [hb]
  | transmit head next _ htxq =>
    intro c
    change addCounter (-1) head.counter w.counters c = (next.countP _ : ℕ)
    rw [addCounter_apply, h c, htxq, List.countP_cons]
    by_cases hb : head.counter = some c <;> simp [hb]

/-- So does every operation. -/
theorem Counted.next (h : w.Counted) (e : RconnEvent κ) : (w.next e).Counted := by
  rcases @changes_next _ _ False w e fun _ hfalse => hfalse.elim with
    hchanges | heq | ⟨now, type, xid, rfl⟩
  · exact hchanges.invariant Counted (fun _ _ => Counted.change) h
  · exact heq ▸ h.flushQueue
  · obtain ⟨-, htxq, hcounters, -⟩ := recv_message_frame now w type xid
    intro c
    change (rconnRecv now w (.message type xid)).counters c = _
    rw [hcounters, RconnRun.next, htxq]
    exact h c

/-! ### Connections -/

/-- There is a transport exactly while the connection is being made or is up. -/
def Linked (w : RconnRun κ) : Prop :=
  w.destroyed = false → w.vconn.isSome = w.state.hasTransport

/-- Every change keeps this. -/
theorem Linked.change (h : w.Linked) (hchange : Change clean w w') : w'.Linked := by
  intro hd
  have hw := h (hchange.destroyed_eq ▸ hd)
  cases hchange with
  | establish now hstate => exact hw.trans (by rw [hstate]; rfl)
  | ask now probe hstate => exact hw.trans (by rw [hstate]; rfl)
  | lose now backoff backoffDeadline _ _ => rfl
  | defer now backoff backoffDeadline hstate _ =>
    exact hw.trans (by rcases hstate with hstate | hstate <;> rw [hstate] <;> rfl)
  | close now _ => rfl
  | opened now reliable backoffDeadline _ _ hstate => rcases hstate with rfl | rfl <;> rfl
  | note reliable backoffDeadline idleEchoXid => exact hw
  | push b _ _ => exact hw
  | transmit head next _ _ => exact hw

/-- So does every operation. -/
theorem Linked.next (h : w.Linked) (e : RconnEvent κ) : (w.next e).Linked := by
  rcases @changes_next _ _ False w e fun _ hfalse => hfalse.elim with
    hchanges | heq | ⟨now, type, xid, rfl⟩
  · exact hchanges.invariant Linked (fun _ _ => Linked.change) h
  · intro hd
    rw [heq] at hd
    cases hd
  · obtain ⟨hvconn, -, -, -, hdestroyed, hstate⟩ := recv_message_frame now w type xid
    intro hd
    have hw := h (hdestroyed ▸ hd)
    rw [RconnRun.next, hvconn, hw]
    rcases hstate with hstate | ⟨hidle, hactive⟩
    · rw [hstate]
    · rw [hactive, hidle]
      rfl

/-- The packets in the queue are for the connection that is up, and so were those that have been
transmitted. -/
structure Current (w : RconnRun κ) : Prop where
  /-- A packet waits for the connection that it has been queued for. -/
  queued : w.state ≠ .void → ∀ b ∈ w.txq, b.conn = w.vconn
  /-- No packet waits for a connection that is to be made. -/
  backoff : w.state = .backoff → w.txq = []
  /-- A packet is transmitted on the connection that it has been queued for. -/
  transmitted : ∀ t ∈ w.transmitted, t.1.conn = t.2

/-- Every change keeps this, if the connection is not opened while packets are left. -/
theorem Current.change (h : w.Current) (hchange : Change True w w') : w'.Current := by
  cases hchange with
  | establish now hstate =>
    refine ⟨fun _ => h.queued ?_, (fun hback => by cases hback), h.transmitted⟩
    rw [hstate]
    decide
  | ask now probe hstate =>
    refine ⟨fun _ => h.queued ?_, (fun hback => by cases hback), h.transmitted⟩
    rw [hstate]
    decide
  | lose now backoff backoffDeadline _ _ =>
    exact ⟨fun _ b hb => absurd hb List.not_mem_nil, fun _ => rfl, h.transmitted⟩
  | defer now backoff backoffDeadline hstate hclean =>
    -- in both states that the connection comes from nothing is queued
    have hnil : w.txq = [] := hstate.elim (fun hvoid => hclean hvoid trivial) h.backoff
    refine ⟨fun _ b hb => ?_, fun _ => hnil, h.transmitted⟩
    rw [show (stateTransition now { w with backoff, backoffDeadline } .backoff).txq = [] from hnil]
      at hb
    exact absurd hb List.not_mem_nil
  | close now _ =>
    exact ⟨fun hne => absurd rfl hne, (fun hback => by cases hback), h.transmitted⟩
  | opened now reliable backoffDeadline hstate hclean hnew =>
    have hnil : w.txq = [] := hstate.elim (fun hvoid => hclean hvoid trivial) h.backoff
    refine ⟨fun _ b hb => ?_, fun _ => hnil, h.transmitted⟩
    change b ∈ w.txq at hb
    rw [hnil] at hb
    exact absurd hb List.not_mem_nil
  | note reliable backoffDeadline idleEchoXid => exact ⟨h.queued, h.backoff, h.transmitted⟩
  | push b hstate hconn =>
    refine ⟨fun hne b' hb' => ?_, fun hback => ?_, h.transmitted⟩
    · rcases List.mem_append.1 hb' with hb' | hb'
      · exact h.queued hne b' hb'
      · exact List.mem_singleton.1 hb' ▸ hconn
    · rw [show w.state = .backoff from hback] at hstate
      cases hstate
  | transmit head next hstate htxq =>
    have hne : w.state ≠ .void := fun hvoid => by
      rw [hvoid] at hstate
      cases hstate
    have hqueued := h.queued hne
    rw [htxq] at hqueued
    refine ⟨fun _ b hb => hqueued b (List.mem_cons_of_mem _ hb), fun hback => ?_, fun t ht => ?_⟩
    · rw [show w.state = .backoff from hback] at hstate
      cases hstate
    · rcases List.mem_append.1 ht with ht | ht
      · exact h.transmitted t ht
      · rw [List.mem_singleton.1 ht]
        exact hqueued head List.mem_cons_self

/-- So does every operation, if a new connection is made with an empty queue. -/
theorem Current.next (h : w.Current) {e : RconnEvent κ} (hopens : e.Opens → w.txq = []) :
    (w.next e).Current := by
  rcases changes_next w e fun hopen _ => hopens hopen with hchanges | heq | ⟨now, type, xid, rfl⟩
  · exact hchanges.invariant Current (fun _ _ => Current.change) h
  · rw [heq]
    exact ⟨fun _ b hb => absurd hb List.not_mem_nil, fun _ => rfl, h.transmitted⟩
  · obtain ⟨hvconn, htxq, -, htransmitted, -, hstate⟩ := recv_message_frame now w type xid
    refine ⟨fun hne => ?_, fun hback => ?_, ?_⟩
    · rw [RconnRun.next, hvconn, htxq]
      refine h.queued fun hvoid => ?_
      rcases hstate with hstate | ⟨hidle, -⟩
      · exact hne (hstate.trans hvoid)
      · rw [hidle] at hvoid
        cases hvoid
    · rw [RconnRun.next, htxq]
      rcases hstate with hstate | ⟨-, hactive⟩
      · exact h.backoff (hstate.symm.trans hback)
      · rw [RconnRun.next, hactive] at hback
        cases hback
    · rw [RconnRun.next, htransmitted]
      exact h.transmitted

/-! ### What is queued -/

section

variable {now : ℤ}

/-- A connection that is lost keeps its packets or drops them. -/
theorem txq_disconnect_sublist : (disconnect now w).txq.Sublist w.txq := by
  unfold disconnect
  split
  next =>
    dsimp only [stateTransition]
    split
    · exact List.nil_sublist _
    · exact List.nil_sublist _
    · exact List.nil_sublist _
    · exact List.Sublist.refl _
    · exact List.Sublist.refl _
  next => exact (rconnDisconnect_frame now w).2 ▸ List.Sublist.refl _

/-- One that is made again keeps them, or is lost. -/
theorem txq_reconnect_sublist (openResult : Option Bool) :
    (reconnect now w openResult).txq.Sublist w.txq := by
  cases openResult with
  | some reconnectable => exact List.Sublist.refl _
  | none => exact txq_disconnect_sublist

/-- A packet that is tried leaves the queue, or stays in front. -/
theorem txq_trySend_sublist {head : RconnPacket κ} {next : List (RconnPacket κ)}
    (htxq : w.txq = head :: next) (result : Outcome) :
    (trySend now w result head next).2.txq.Sublist w.txq := by
  cases result with
  | ok => exact htxq ▸ List.sublist_cons_self _ _
  | again => exact List.Sublist.refl _
  | fail errno => exact txq_disconnect_sublist

/-- `do_tx_work` only takes packets out. -/
theorem txq_doTxLoop_sublist (sends : ℕ → Outcome) (fuel k : ℕ) :
    (doTxLoop now sends fuel k w).txq.Sublist w.txq := by
  induction fuel generalizing k w with
  | zero => exact List.Sublist.refl _
  | succ fuel ih =>
    rw [doTxLoop]
    split
    next => exact List.Sublist.refl _
    next head next htxq =>
      have hsend := @txq_trySend_sublist _ _ w now _ _ htxq (sends k)
      split
      next w' heq =>
        rw [heq] at hsend
        exact (ih (k + 1)).trans hsend
      next w' heq =>
        rw [heq] at hsend
        exact hsend
      next w' heq =>
        rw [heq] at hsend
        exact hsend

/-- `rconn_send` puts one in. -/
theorem txq_rconnSend_sublist (type : BitVec 8) (xid : BitVec 32) (counter : Option κ)
    (result : Outcome) : (rconnSend now w type xid counter result).2.txq.Sublist
      (w.txq ++ [⟨type, xid, counter, w.vconn⟩]) := by
  unfold rconnSend
  split
  next =>
    dsimp only
    split
    next head htxq =>
      exact txq_trySend_sublist (w := { w with
        counters := addCounter 1 counter w.counters
        txq := w.txq ++ [⟨type, xid, counter, w.vconn⟩] }) htxq result
    next => exact List.Sublist.refl _
  next => exact List.sublist_append_left _ _

/-- The counter of a packet that an operation may put into the queue. -/
def pushed : RconnEvent κ → Option κ
  | .send _ _ _ counter _ => counter
  | .sendWithLimit _ _ _ counter _ _ => some counter
  | .connect _ _ | .connectUnreliably _ | .disconnect _ | .destroy | .run _ | .recv _ _ => none

/-- An operation puts at most one packet into the queue, with its own counter. -/
theorem exists_txq_next_sublist (e : RconnEvent κ) :
    ∃ b : RconnPacket κ, b.counter = pushed e ∧ (w.next e).txq.Sublist (w.txq ++ [b]) := by
  -- most operations put nothing into the queue
  have hnone : ∀ {l : List (RconnPacket κ)}, l.Sublist w.txq →
      ∃ b : RconnPacket κ, b.counter = none ∧ l.Sublist (w.txq ++ [b]) :=
    fun h => ⟨⟨0, 0, none, none⟩, rfl, h.trans (List.sublist_append_left _ _)⟩
  cases e with
  | connect now openResult =>
    refine hnone ((txq_reconnect_sublist openResult).trans ?_)
    exact (rconnDisconnect_frame now w).2 ▸ List.Sublist.refl _
  | connectUnreliably now => exact hnone ((rconnDisconnect_frame now w).2 ▸ List.Sublist.refl _)
  | disconnect now => exact hnone ((rconnDisconnect_frame now w).2 ▸ List.Sublist.refl _)
  | destroy => exact hnone (List.nil_sublist _)
  | send now type xid counter result => exact ⟨_, rfl, txq_rconnSend_sublist ..⟩
  | sendWithLimit now type xid counter queueLimit result =>
    refine ⟨⟨type, xid, some counter, w.vconn⟩, rfl, ?_⟩
    change (rconnSendWithLimit now w type xid counter queueLimit result).2.txq.Sublist _
    unfold rconnSendWithLimit
    split
    · exact List.sublist_append_left _ _
    · exact txq_rconnSend_sublist ..
  | run input =>
    change ∃ b : RconnPacket κ, b.counter = none ∧ (runTurn w input).txq.Sublist (w.txq ++ [b])
    unfold runTurn
    split
    · exact hnone (List.Sublist.refl _)
    · split
      · exact hnone (txq_reconnect_sublist _)
      · exact hnone (List.Sublist.refl _)
    · split
      · exact hnone (List.Sublist.refl _)
      · exact hnone txq_disconnect_sublist
      · split
        · exact hnone (txq_disconnect_sublist (w := { w with backoffDeadline := timeMax }))
        · exact hnone (List.Sublist.refl _)
    · split
      · -- an idle connection is probed with an echo request
        exact ⟨_, rfl, txq_rconnSend_sublist ..⟩
      · exact hnone (txq_doTxLoop_sublist ..)
    · split
      · exact hnone txq_disconnect_sublist
      · exact hnone (txq_doTxLoop_sublist ..)
  | recv now result =>
    cases result with
    | message type xid =>
      exact hnone ((recv_message_frame now w type xid).2.1 ▸ List.Sublist.refl _)
    | again =>
      change ∃ b : RconnPacket κ, b.counter = none ∧
        (rconnRecv now w .again).txq.Sublist (w.txq ++ [b])
      unfold rconnRecv
      split <;> exact hnone (List.Sublist.refl _)
    | fail errno =>
      change ∃ b : RconnPacket κ, b.counter = none ∧
        (rconnRecv now w (.fail errno)).txq.Sublist (w.txq ++ [b])
      unfold rconnRecv
      split
      · exact hnone txq_disconnect_sublist
      · exact hnone (List.Sublist.refl _)

/-- The packets of a counter after an operation that puts none of them into the queue. -/
theorem countP_txq_next_le (e : RconnEvent κ) {c : κ} (hc : pushed e ≠ some c) :
    ((w.next e).txq.countP fun b => b.counter = some c) ≤
      w.txq.countP fun b => b.counter = some c := by
  obtain ⟨b, hb, hsub⟩ := @exists_txq_next_sublist _ _ w e
  refine (hsub.countP_le).trans ?_
  rw [List.countP_append, List.countP_singleton, if_neg (by simpa [hb] using hc)]
  exact le_rfl

/-- The packets of a counter after one is sent. -/
theorem countP_txq_send_le (type : BitVec 8) (xid : BitVec 32) (c : κ) (result : Outcome) :
    ((rconnSend now w type xid (some c) result).2.txq.countP fun b => b.counter = some c) ≤
      (w.txq.countP fun b => b.counter = some c) + 1 := by
  refine ((txq_rconnSend_sublist type xid (some c) result).countP_le).trans ?_
  rw [List.countP_append, List.countP_singleton]
  split <;> omega

end

/-! ### Runs -/

variable {now probeInterval maxBackoff : ℤ}

/-- The counters and the transport are right in every run. -/
theorem counted_of_reachable
    (h : Transition.Reachable Step (create (κ := κ) now probeInterval maxBackoff) w) :
    w.Counted ∧ w.Linked :=
  h.invariant (fun w => w.Counted ∧ w.Linked) ⟨fun _ => rfl, fun _ => rfl⟩
    fun _ e _ hw _ hstep => hstep.2 ▸ ⟨hw.1.next e, hw.2.next e⟩

/-- In every run, every counter is the number of the packets in the queue that it has been passed
with, and there is a transport while the connection is up. In the runs in which a new connection is
made only while the queue is empty, every packet is transmitted on the connection that it has been
queued for. -/
theorem counters_and_connections (w : RconnRun κ) :
    (Transition.Reachable Step (create now probeInterval maxBackoff) w →
      (∀ c, w.counters c = (w.txq.countP fun b => b.counter = some c : ℕ)) ∧
        (w.destroyed = false → w.vconn.isSome = w.state.hasTransport)) ∧
    (Transition.ReachableVia Step (fun w e => e.Opens → w.txq = [])
        (create now probeInterval maxBackoff) w →
      ∀ t ∈ w.transmitted, t.1.conn = t.2) := by
  refine ⟨counted_of_reachable, fun h => ?_⟩
  have hinit : (create (κ := κ) now probeInterval maxBackoff).Current :=
    ⟨fun hne => absurd rfl hne, fun _ => rfl, fun t ht => absurd ht List.not_mem_nil⟩
  have hcurrent : w.Current :=
    h.invariant Current hinit fun s e s' hw hok hstep => by
      rw [hstep.2]
      exact hw.next hok
  exact hcurrent.transmitted

/-- A connection that has been made. -/
def connected : RconnRun Unit :=
  ((create 0 60 60).next (.connect 0 (some true))).next (.run (.easy 0))

/-- A packet has been queued while the transport takes nothing. -/
def backlogged : RconnRun Unit := connected.next (.send 0 10 5 (some ()) .again)

/-- The packet is transmitted later, on the connection that it has been queued for. -/
theorem counters_and_connections_later :
    (backlogged.next (.run (.easy 0))).transmitted.length = 1 ∧
      ∀ t ∈ (backlogged.next (.run (.easy 0))).transmitted, t.1.conn = t.2 := by
  have hrunOpens : ¬ (RconnEvent.run (.easy 0) : RconnEvent Unit).Opens := fun h => h
  have hsendOpens : ¬ (RconnEvent.send 0 10 5 (some ()) .again).Opens := fun h => h
  have hfirst : Transition.ReachableVia Step (fun w e => e.Opens → w.txq = []) (create 0 60 60)
      ((create (κ := Unit) 0 60 60).next (.connect 0 (some true))) :=
    .tail .refl (fun _ => rfl) ⟨rfl, rfl⟩
  have hconnected : Transition.ReachableVia Step (fun w e => e.Opens → w.txq = []) (create 0 60 60)
      connected :=
    hfirst.tail (fun h => absurd h hrunOpens) ⟨rfl, rfl⟩
  have hbacklogged : Transition.ReachableVia Step (fun w e => e.Opens → w.txq = [])
      (create 0 60 60) backlogged :=
    hconnected.tail (fun h => absurd h hsendOpens) ⟨rfl, rfl⟩
  have hrun : Transition.ReachableVia Step (fun w e => e.Opens → w.txq = []) (create 0 60 60)
      (backlogged.next (.run (.easy 0))) :=
    hbacklogged.tail (fun h => absurd h hrunOpens) ⟨rfl, rfl⟩
  exact ⟨by decide, (counters_and_connections _).2 hrun⟩

/-- The connection is closed and made again, with the packet in the queue. -/
def reconnected : RconnRun Unit :=
  ((backlogged.next (.disconnect 0)).next (.connect 0 (some true))).next (.run (.easy 0))

/-- The packet is transmitted on the new connection. -/
theorem not_counters_and_connections : ¬ ∀ w : RconnRun Unit,
    Transition.Reachable Step (create 0 60 60) w → ∀ t ∈ w.transmitted, t.1.conn = t.2 := by
  intro hall
  have hbacklogged : Transition.Reachable Step (create 0 60 60) backlogged :=
    (((Transition.Reachable.step .refl ⟨rfl, rfl⟩ : Transition.Reachable Step (create 0 60 60)
      ((create 0 60 60).next (.connect 0 (some true)))).step ⟨rfl, rfl⟩).step ⟨rfl, rfl⟩)
  have hreconnected : Transition.Reachable Step (create 0 60 60) reconnected :=
    ((hbacklogged.step ⟨rfl, rfl⟩).step ⟨rfl, rfl⟩).step ⟨rfl, rfl⟩
  have hsame := hall (reconnected.next (.run (.easy 0))) (hreconnected.step ⟨rfl, rfl⟩)
  revert hsame
  decide

end RconnRun

end OfAgent
