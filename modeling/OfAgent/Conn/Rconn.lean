import Mathlib.Logic.Function.Basic
import Mathlib.Logic.Relation
import OfAgent.Conn.Stream

/-!
# Connections with a queue

`rconn.c`: a connection with a queue of packets to be sent, which may connect again when it fails
and asks its peer for a sign of life when nothing has been received for a while.

* `Rconn`: `struct rconn`, without the fields that are only reported; `RconnRun`: the counters of
  the callers and a record of what has been transmitted beside it.
* `RconnRun.trySend`, `RconnRun.disconnect` and the other functions of the file. What the transport
  returns is an input.
* `RconnEvent`, `RconnRun.Step`: the operations, and one turn of the loop of `rconn_run`;
  `reachable_rconnRun`: the loop is a run of such turns.
* `RconnRun.Change`: the changes that operations are made of; `changes_next`: each of them is.
-/

namespace OfAgent

/-! ### State -/

/-- `enum state`. -/
inductive RconnState
  | void
  | backoff
  | connecting
  | active
  | idle
  deriving DecidableEq, Repr

/-- `S_ACTIVE | S_IDLE`, as `is_connected_state` tests it. -/
def RconnState.isConnected : RconnState → Bool
  | active | idle => true
  | void | backoff | connecting => false

/-- The states with a transport. -/
def RconnState.hasTransport : RconnState → Bool
  | connecting | active | idle => true
  | void | backoff => false

/-- What a function of the transport returns. -/
inductive Outcome
  /-- 0. -/
  | ok
  /-- `EAGAIN`. -/
  | again
  /-- Another error, or the end of the stream. -/
  | fail (errno : ℤ)

/-- A packet in the queue. -/
structure RconnPacket (κ : Type*) where
  /-- The type of the header. -/
  type : BitVec 8
  /-- The transaction of the header. -/
  xid : BitVec 32
  /-- `private`: the counter of the caller. -/
  counter : Option κ
  /-- The number of the connection that the packet has been queued for. -/
  conn : Option ℕ

/-- `struct rconn`. The transport is given by the number of the connection. -/
structure Rconn (κ : Type*) where
  /-- The state. -/
  state : RconnState
  /-- When it has been entered. -/
  stateEntered : ℤ
  /-- The transport. -/
  vconn : Option ℕ
  /-- It connects again when the connection fails. -/
  reliable : Bool
  /-- The packets to be sent. -/
  txq : List (RconnPacket κ)
  /-- Seconds before the next attempt to connect. -/
  backoff : ℤ
  /-- The most that they become. -/
  maxBackoff : ℤ
  /-- When a failure makes them fewer again. -/
  backoffDeadline : ℤ
  /-- When something has been received last. -/
  lastReceived : ℤ
  /-- Seconds without a message before a probe. -/
  probeInterval : ℤ
  /-- The transaction that an answer to a probe is compared with. -/
  idleEchoXid : BitVec 32

/-- A connection with its surroundings. -/
structure RconnRun (κ : Type*) extends Rconn κ where
  /-- The counters of the callers. -/
  counters : κ → ℤ
  /-- How many connections have been opened. -/
  opened : ℕ
  /-- The packets that have been transmitted, with the connection. -/
  transmitted : List (RconnPacket κ × Option ℕ)
  /-- The transaction of the last probe. -/
  probe : BitVec 32
  /-- It has been answered. -/
  answered : Bool
  /-- The connection has been destroyed. -/
  destroyed : Bool

/-! ### Times -/

/-- `UINT_MAX`. -/
def uintMax : ℕ := 2 ^ 32 - 1

/-- The conversion to `unsigned int`. -/
def toUint (z : ℤ) : ℕ := (z % 2 ^ 32).toNat

/-- `sat_add`. -/
def satAdd (x y : ℕ) : ℕ := if x ≤ (x + y) % 2 ^ 32 then (x + y) % 2 ^ 32 else uintMax

/-- `TIME_MIN`. -/
def timeMin : ℤ := -2 ^ 63

/-- `TIME_MAX`. -/
def timeMax : ℤ := 2 ^ 63 - 1

namespace Rconn

variable {κ : Type*} (rc : Rconn κ)

/-- `timeout`, and the functions for the states. -/
def timeout : ℕ :=
  match rc.state with
  | .void => uintMax
  | .backoff => toUint rc.backoff
  | .connecting => toUint (max 1 rc.backoff)
  | .active =>
      if rc.probeInterval ≠ 0 then
        let base := toUint (max rc.lastReceived rc.stateEntered)
        toUint (base + rc.probeInterval - rc.stateEntered)
      else uintMax
  | .idle => toUint rc.probeInterval

/-- `timed_out`. -/
def timedOut (now : ℤ) : Bool := satAdd (toUint rc.stateEntered) rc.timeout ≤ now

end Rconn

/-! ### Functions -/

/-- A counter that has been incremented or decremented, if there is one. -/
def addCounter {κ : Type*} [DecidableEq κ] (d : ℤ) (c : Option κ) (counters : κ → ℤ) : κ → ℤ :=
  match c with
  | none => counters
  | some c => Function.update counters c (counters c + d)

namespace RconnRun

variable {κ : Type*} [DecidableEq κ] (now : ℤ) (w : RconnRun κ)

/-- `state_transition`. -/
def stateTransition (state : RconnState) : RconnRun κ := { w with state, stateEntered := now }

/-- `flush_queue`. -/
def flushQueue : RconnRun κ :=
  { w with
    txq := []
    counters := w.txq.foldl (fun counters b => addCounter (-1) b.counter counters) w.counters }

/-- `rconn_disconnect`. -/
def rconnDisconnect : RconnRun κ :=
  if w.state ≠ .void then
    stateTransition now
      { w with vconn := none, reliable := false, backoff := 0, backoffDeadline := timeMin } .void
  else w

/-- `disconnect`. -/
def disconnect : RconnRun κ :=
  if w.reliable then
    let w :=
      match w.state with
      | .connecting | .active | .idle => flushQueue { w with vconn := none }
      | .void | .backoff => w
    let backoff :=
      if w.backoffDeadline ≤ now then 1 else min w.maxBackoff (max 1 (2 * w.backoff))
    stateTransition now { w with backoff, backoffDeadline := now + backoff } .backoff
  else rconnDisconnect now w

/-- `reconnect`. The transport is opened, and says whether it can be opened again, or fails. -/
def reconnect (openResult : Option Bool) : RconnRun κ :=
  match openResult with
  | some reconnectable =>
      stateTransition now
        { w with
          vconn := some (w.opened + 1)
          opened := w.opened + 1
          reliable := reconnectable && w.reliable
          backoffDeadline := now + w.backoff } .connecting
  -- prevent resetting backoff
  | none => disconnect now { w with backoffDeadline := timeMax }

/-- `rconn_connect`. -/
def rconnConnect (openResult : Option Bool) : RconnRun κ :=
  reconnect now { rconnDisconnect now w with reliable := true } openResult

/-- `rconn_connect_unreliably`. -/
def rconnConnectUnreliably : RconnRun κ :=
  stateTransition now
    { rconnDisconnect now w with
      reliable := false
      vconn := some (w.opened + 1)
      opened := w.opened + 1 } .active

/-- `rconn_destroy`. -/
def rconnDestroy : RconnRun κ := { flushQueue w with vconn := none, destroyed := true }

/-- `try_send`, with the packet at the front of the queue and those behind it. -/
def trySend (result : Outcome) (head : RconnPacket κ) (next : List (RconnPacket κ)) :
    Outcome × RconnRun κ :=
  (result,
    match result with
    | .ok =>
        { w with
          idleEchoXid := head.xid
          counters := addCounter (-1) head.counter w.counters
          txq := next
          transmitted := w.transmitted ++ [(head, w.vconn)] }
    | .again => { w with idleEchoXid := 0 }
    | .fail _ => disconnect now { w with idleEchoXid := 0 })

/-- The loop of `do_tx_work`. Every turn but the last one takes a packet from the queue, so the
length of the queue is enough fuel. -/
def doTxLoop (sends : ℕ → Outcome) : ℕ → ℕ → RconnRun κ → RconnRun κ
  | 0, _, w => w
  | fuel + 1, k, w =>
      match w.txq with
      | [] => w
      | head :: next =>
          match trySend now w (sends k) head next with
          | (.ok, w) => doTxLoop sends fuel (k + 1) w
          | (.again, w) | (.fail _, w) => w

/-- `do_tx_work`. -/
def doTxWork (sends : ℕ → Outcome) : RconnRun κ := doTxLoop now sends w.txq.length 0 w

/-- `ENOTCONN`. -/
def eNotConn : ℤ := 107

/-- `rconn_send`: its result, and the connection behind it. -/
def rconnSend (type : BitVec 8) (xid : BitVec 32) (counter : Option κ) (result : Outcome) :
    ℤ × RconnRun κ :=
  if w.state.isConnected then
    let b : RconnPacket κ := ⟨type, xid, counter, w.vconn⟩
    let w := { w with counters := addCounter 1 counter w.counters, txq := w.txq ++ [b] }
    match w.txq with
    -- the queue was empty before
    | [head] => (0, (trySend now w result head []).2)
    | _ => (0, w)
  else (eNotConn, w)

/-- `rconn_send_with_limit`. -/
def rconnSendWithLimit (type : BitVec 8) (xid : BitVec 32) (counter : κ) (queueLimit : ℤ)
    (result : Outcome) : ℤ × RconnRun κ :=
  if queueLimit ≤ w.counters counter then (eAgain, w)
  else rconnSend now w type xid (some counter) result

/-- `OFPT_ECHO_REQUEST`. -/
def ofptEchoRequest : BitVec 8 := 2

/-- `OFPT_ECHO_REPLY`. -/
def ofptEchoReply : BitVec 8 := 3

/-- What `vconn_recv` returns. -/
inductive Received
  /-- A message. -/
  | message (type : BitVec 8) (xid : BitVec 32)
  /-- `EAGAIN`. -/
  | again
  /-- Another error, or the end of the stream. -/
  | fail (errno : ℤ)

/-- `rconn_recv`, and the record of answers to probes. -/
def rconnRecv (result : Received) : RconnRun κ :=
  if w.state.isConnected then
    match result with
    | .message type xid =>
        let w :=
          { w with
            lastReceived := now
            answered :=
              w.answered || (w.state == .idle && type == ofptEchoReply && xid == w.probe) }
        if w.state = .idle then
          -- check liveliness of a peer
          if type = ofptEchoReply then
            if w.idleEchoXid = 0 then stateTransition now w .active
            else
              let idleEchoXid := w.idleEchoXid
              let w := { w with idleEchoXid := 0 }
              if idleEchoXid = xid then stateTransition now w .active else w
          else stateTransition now w .active
        else w
    | .again => w
    | .fail _ => disconnect now w
  else w

/-! ### Turns of `rconn_run` -/

/-- What a turn of the loop gets from outside. -/
structure TurnInput where
  /-- The time. -/
  now : ℤ
  /-- What `vconn_open` returns. -/
  openResult : Option Bool
  /-- What `vconn_connect` returns. -/
  connectResult : Outcome
  /-- What the calls of `vconn_send` return. -/
  sends : ℕ → Outcome
  /-- The transaction that a probe gets. -/
  probeXid : BitVec 32

/-- What it gets when everything succeeds at once. -/
def TurnInput.easy (now : ℤ) : TurnInput := ⟨now, some true, .ok, fun _ => .ok, 1⟩

/-- One turn of the loop of `rconn_run`. -/
def runTurn (input : TurnInput) : RconnRun κ :=
  match w.state with
  | .void => w
  | .backoff => if w.timedOut input.now then reconnect input.now w input.openResult else w
  | .connecting =>
      match input.connectResult with
      | .ok => stateTransition input.now w .active
      | .fail _ => disconnect input.now w
      | .again =>
          -- prevent resetting backoff
          if w.timedOut input.now then disconnect input.now { w with backoffDeadline := timeMax }
          else w
  | .active =>
      if w.timedOut input.now then
        let w := { w with probe := input.probeXid, answered := false }
        (rconnSend input.now (stateTransition input.now w .idle) ofptEchoRequest input.probeXid none
          (input.sends 0)).2
      else doTxWork input.now w input.sends
  | .idle =>
      if w.timedOut input.now then disconnect input.now w
      else doTxWork input.now w input.sends

/-- `rconn_run`: turns until one leaves the state as it is, with fuel. -/
def rconnRun (inputs : ℕ → TurnInput) : ℕ → RconnRun κ → Option (RconnRun κ)
  | 0, _ => none
  | fuel + 1, w =>
      let w' := runTurn w (inputs fuel)
      if w'.state ≠ w.state then rconnRun inputs fuel w' else some w'

/-! ### Runs -/

/-- `rconn_create`. -/
def create (now probeInterval maxBackoff : ℤ) : RconnRun κ where
  state := .void
  stateEntered := now
  vconn := none
  reliable := false
  txq := []
  backoff := 0
  maxBackoff := if maxBackoff ≠ 0 then maxBackoff else 60
  backoffDeadline := timeMin
  lastReceived := now
  probeInterval := if probeInterval ≠ 0 then max 1 probeInterval else 0
  idleEchoXid := 0
  counters := fun _ => 0
  opened := 0
  transmitted := []
  probe := 0
  answered := false
  destroyed := false

end RconnRun

/-- What can be done with a connection. -/
inductive RconnEvent (κ : Type*)
  /-- `rconn_connect`. -/
  | connect (now : ℤ) (openResult : Option Bool)
  /-- `rconn_connect_unreliably`. -/
  | connectUnreliably (now : ℤ)
  /-- `rconn_disconnect`. -/
  | disconnect (now : ℤ)
  /-- `rconn_destroy`. -/
  | destroy
  /-- `rconn_send`. -/
  | send (now : ℤ) (type : BitVec 8) (xid : BitVec 32) (counter : Option κ) (result : Outcome)
  /-- `rconn_send_with_limit`. -/
  | sendWithLimit (now : ℤ) (type : BitVec 8) (xid : BitVec 32) (counter : κ) (queueLimit : ℤ)
      (result : Outcome)
  /-- A turn of `rconn_run`. -/
  | run (input : RconnRun.TurnInput)
  /-- `rconn_recv`. -/
  | recv (now : ℤ) (result : RconnRun.Received)

/-- The event makes a new connection for the caller. -/
def RconnEvent.Opens {κ : Type*} : RconnEvent κ → Prop
  | connect _ _ | connectUnreliably _ => True
  | disconnect _ | destroy | send _ _ _ _ _ | sendWithLimit _ _ _ _ _ _ | run _ | recv _ _ => False

namespace RconnRun

variable {κ : Type*} [DecidableEq κ] {w w' : RconnRun κ} {now : ℤ}

/-- The connection behind an operation. -/
def next (w : RconnRun κ) : RconnEvent κ → RconnRun κ
  | .connect now openResult => rconnConnect now w openResult
  | .connectUnreliably now => rconnConnectUnreliably now w
  | .disconnect now => rconnDisconnect now w
  | .destroy => rconnDestroy w
  | .send now type xid counter result => (rconnSend now w type xid counter result).2
  | .sendWithLimit now type xid counter queueLimit result =>
      (rconnSendWithLimit now w type xid counter queueLimit result).2
  | .run input => runTurn w input
  | .recv now result => rconnRecv now w result

/-- The step relation. Nothing is done with a connection that has been destroyed. -/
def Step (w : RconnRun κ) (e : RconnEvent κ) (w' : RconnRun κ) : Prop :=
  w.destroyed = false ∧ w' = w.next e

/-! ### What operations are made of -/

/-- A change of a connection. If `clean`, it is not opened while packets are left in its queue. -/
inductive Change (clean : Prop) (w : RconnRun κ) : RconnRun κ → Prop
  /-- The transport is connected. -/
  | establish (now : ℤ) : w.state = .connecting → Change clean w (stateTransition now w .active)
  /-- A probe is due. -/
  | ask (now : ℤ) (probe : BitVec 32) : w.state = .active →
      Change clean w (stateTransition now { w with probe, answered := false } .idle)
  /-- The connection is lost, and is to be made again. -/
  | lose (now backoff backoffDeadline : ℤ) : w.state ≠ .void → w.state ≠ .backoff →
      Change clean w (stateTransition now
        { flushQueue { w with vconn := none } with backoff, backoffDeadline } .backoff)
  /-- It cannot be made. -/
  | defer (now backoff backoffDeadline : ℤ) : w.state = .void ∨ w.state = .backoff →
      (w.state = .void → clean → w.txq = []) →
      Change clean w (stateTransition now { w with backoff, backoffDeadline } .backoff)
  /-- It is closed. -/
  | close (now : ℤ) : w.state ≠ .void →
      Change clean w (stateTransition now
        { w with vconn := none, reliable := false, backoff := 0, backoffDeadline := timeMin } .void)
  /-- It is opened. -/
  | opened (now : ℤ) (reliable : Bool) (backoffDeadline : ℤ) {state : RconnState} :
      w.state = .void ∨ w.state = .backoff → (w.state = .void → clean → w.txq = []) →
      state = .connecting ∨ state = .active →
      Change clean w (stateTransition now
        { w with vconn := some (w.opened + 1), opened := w.opened + 1, reliable, backoffDeadline }
        state)
  /-- Something else is noted. -/
  | note (reliable : Bool) (backoffDeadline : ℤ) (idleEchoXid : BitVec 32) :
      Change clean w { w with reliable, backoffDeadline, idleEchoXid }
  /-- A packet is put into the queue. -/
  | push (b : RconnPacket κ) : w.state.isConnected = true → b.conn = w.vconn →
      Change clean w
        { w with counters := addCounter 1 b.counter w.counters, txq := w.txq ++ [b] }
  /-- One is transmitted. -/
  | transmit (head : RconnPacket κ) (next : List (RconnPacket κ)) :
      w.state.isConnected = true → w.txq = head :: next →
      Change clean w
        { w with
          idleEchoXid := head.xid
          counters := addCounter (-1) head.counter w.counters
          txq := next
          transmitted := w.transmitted ++ [(head, w.vconn)] }

/-- Some changes, one after the other. -/
abbrev Changes (clean : Prop) : RconnRun κ → RconnRun κ → Prop :=
  Relation.ReflTransGen (Change clean)

variable {clean : Prop}

omit [DecidableEq κ] in
/-- A disconnection leaves the packets in the queue. -/
theorem rconnDisconnect_frame (now : ℤ) (w : RconnRun κ) :
    (rconnDisconnect now w).state = .void ∧ (rconnDisconnect now w).txq = w.txq := by
  unfold rconnDisconnect
  split
  next => exact ⟨rfl, rfl⟩
  next h => exact ⟨not_not.1 h, rfl⟩

theorem changes_rconnDisconnect : Changes clean w (rconnDisconnect now w) := by
  unfold rconnDisconnect
  split
  next h => exact .single (.close now h)
  next => exact .refl

/-- `disconnect`. -/
theorem changes_disconnect (h : w.state = .void → clean → w.txq = []) :
    Changes clean w (disconnect now w) := by
  unfold disconnect
  split
  next =>
    cases hstate : w.state with
    | void => exact .single (.defer now _ _ (.inl hstate) h)
    | backoff => exact .single (.defer now _ _ (.inr hstate) h)
    | connecting | active | idle =>
      refine .single (.lose now _ _ ?_ ?_) <;> rw [hstate] <;> decide
  next => exact changes_rconnDisconnect

theorem changes_reconnect (hstate : w.state = .void ∨ w.state = .backoff)
    (h : w.state = .void → clean → w.txq = []) (openResult : Option Bool) :
    Changes clean w (reconnect now w openResult) := by
  cases openResult with
  | some reconnectable => exact .single (.opened now _ _ hstate h (.inl rfl))
  | none => exact .head (.note w.reliable timeMax w.idleEchoXid) (changes_disconnect h)

/-- `try_send`. -/
theorem changes_trySend (hstate : w.state.isConnected = true) {head : RconnPacket κ}
    {next : List (RconnPacket κ)} (htxq : w.txq = head :: next) (result : Outcome) :
    Changes clean w (trySend now w result head next).2 := by
  cases result with
  | ok => exact .single (.transmit head next hstate htxq)
  | again => exact .single (.note w.reliable w.backoffDeadline 0)
  | fail errno =>
    refine .head (.note w.reliable w.backoffDeadline 0) (changes_disconnect fun hvoid => ?_)
    rw [show w.state = .void from hvoid] at hstate
    cases hstate

/-- `do_tx_work`. -/
theorem changes_doTxLoop (hstate : w.state.isConnected = true) (sends : ℕ → Outcome) (fuel k : ℕ) :
    Changes clean w (doTxLoop now sends fuel k w) := by
  induction fuel generalizing k w with
  | zero => exact .refl
  | succ fuel ih =>
    rw [doTxLoop]
    split
    next => exact .refl
    next head next htxq =>
      have hsend := @changes_trySend _ _ w now clean hstate _ _ htxq (sends k)
      cases hresult : sends k with
      | ok =>
        rw [hresult] at hsend
        exact hsend.trans (@ih (trySend now w .ok head next).2 hstate (k + 1))
      | again =>
        rw [hresult] at hsend
        exact hsend
      | fail errno =>
        rw [hresult] at hsend
        exact hsend

/-- `rconn_send`. -/
theorem changes_rconnSend (type : BitVec 8) (xid : BitVec 32) (counter : Option κ)
    (result : Outcome) : Changes clean w (rconnSend now w type xid counter result).2 := by
  unfold rconnSend
  split
  next hstate =>
    refine .head (.push ⟨type, xid, counter, w.vconn⟩ hstate rfl) ?_
    simp only
    split
    next head htxq =>
      exact changes_trySend
        (w := { w with
          counters := addCounter 1 counter w.counters
          txq := w.txq ++ [⟨type, xid, counter, w.vconn⟩] }) hstate htxq result
    next => exact .refl
  next => exact .refl

/-- `rconn_connect`. -/
theorem changes_rconnConnect (h : clean → w.txq = []) (openResult : Option Bool) :
    Changes clean w (rconnConnect now w openResult) := by
  obtain ⟨hstate, htxq⟩ := rconnDisconnect_frame now w
  have hclose := @changes_rconnDisconnect _ _ w now clean
  have hnote : Change clean (rconnDisconnect now w)
      { rconnDisconnect now w with reliable := true } :=
    .note true (rconnDisconnect now w).backoffDeadline (rconnDisconnect now w).idleEchoXid
  exact (hclose.tail hnote).trans (changes_reconnect
    (w := { rconnDisconnect now w with reliable := true }) (.inl hstate)
    (fun _ hclean => htxq.trans (h hclean)) openResult)

/-- `rconn_connect_unreliably`. -/
theorem changes_rconnConnectUnreliably (h : clean → w.txq = []) :
    Changes clean w (rconnConnectUnreliably now w) := by
  obtain ⟨hstate, htxq⟩ := rconnDisconnect_frame now w
  have hclose := @changes_rconnDisconnect _ _ w now clean
  have hopen : Change clean (rconnDisconnect now w) (stateTransition now
      { rconnDisconnect now w with
        vconn := some ((rconnDisconnect now w).opened + 1)
        opened := (rconnDisconnect now w).opened + 1
        reliable := false
        backoffDeadline := (rconnDisconnect now w).backoffDeadline } .active) :=
    .opened now false _ (.inl hstate) (fun _ hclean => htxq.trans (h hclean)) (.inr rfl)
  have hopened : (rconnDisconnect now w).opened = w.opened := by
    unfold rconnDisconnect
    split <;> rfl
  rw [hopened] at hopen
  exact hclose.tail hopen

/-- A turn of `rconn_run`. -/
theorem changes_runTurn (input : TurnInput) : Changes clean w (runTurn w input) := by
  unfold runTurn
  have hclean : w.state ≠ .void → w.state = .void → clean → w.txq = [] := fun hne h => absurd h hne
  cases hstate : w.state with
  | void => exact .refl
  | backoff =>
    simp only
    split
    · exact changes_reconnect (.inr hstate) (hclean (by rw [hstate]; decide)) _
    · exact .refl
  | connecting =>
    have hvoid := hclean (by rw [hstate]; decide)
    cases input.connectResult with
    | ok => exact .single (.establish input.now hstate)
    | fail errno => exact changes_disconnect hvoid
    | again =>
      simp only
      split
      · -- the connection has not been made in time
        rw [← hstate]
        exact .head (.note w.reliable timeMax w.idleEchoXid)
          (changes_disconnect (w := { w with backoffDeadline := timeMax }) hvoid)
      · exact .refl
  | active =>
    simp only
    split
    · exact .head (.ask input.now input.probeXid hstate) (changes_rconnSend ..)
    · exact changes_doTxLoop (by rw [hstate]; rfl) ..
  | idle =>
    simp only
    split
    · exact changes_disconnect (hclean (by rw [hstate]; decide))
    · exact changes_doTxLoop (by rw [hstate]; rfl) ..

/-- Apart from the destruction and the receipt of a message, operations are made of changes. -/
theorem changes_next (w : RconnRun κ) (e : RconnEvent κ) (h : e.Opens → clean → w.txq = []) :
    Changes clean w (w.next e) ∨ w.next e = rconnDestroy w ∨
      ∃ now type xid, e = .recv now (.message type xid) := by
  cases e with
  | connect now openResult => exact .inl (changes_rconnConnect (h trivial) openResult)
  | connectUnreliably now => exact .inl (changes_rconnConnectUnreliably (h trivial))
  | disconnect now => exact .inl changes_rconnDisconnect
  | destroy => exact .inr (.inl rfl)
  | send now type xid counter result => exact .inl (changes_rconnSend ..)
  | sendWithLimit now type xid counter queueLimit result =>
    left
    unfold next rconnSendWithLimit
    simp only
    split
    · exact .refl
    · exact changes_rconnSend ..
  | run input => exact .inl (changes_runTurn input)
  | recv now result =>
    cases result with
    | message type xid => exact .inr (.inr ⟨now, type, xid, rfl⟩)
    | again =>
      left
      unfold next rconnRecv
      simp only
      split <;> exact .refl
    | fail errno =>
      left
      unfold next rconnRecv
      simp only
      split
      next hstate =>
        -- a connection that receives is not void
        refine changes_disconnect fun hvoid => ?_
        rw [hvoid] at hstate
        cases hstate
      next => exact .refl

/-- The receipt of a message touches neither the transport nor the queue. -/
theorem recv_message_frame (now : ℤ) (w : RconnRun κ) (type : BitVec 8) (xid : BitVec 32) :
    let w' := rconnRecv now w (.message type xid)
    w'.vconn = w.vconn ∧ w'.txq = w.txq ∧ w'.counters = w.counters ∧
      w'.transmitted = w.transmitted ∧ w'.destroyed = w.destroyed ∧
      (w'.state = w.state ∨ w.state = .idle ∧ w'.state = .active) := by
  unfold rconnRecv
  simp only
  split
  next =>
    split
    next hidle =>
      repeat' split
      all_goals first
        | exact ⟨rfl, rfl, rfl, rfl, rfl, .inr ⟨hidle, rfl⟩⟩
        | exact ⟨rfl, rfl, rfl, rfl, rfl, .inl rfl⟩
    next => exact ⟨rfl, rfl, rfl, rfl, rfl, .inl rfl⟩
  next => exact ⟨rfl, rfl, rfl, rfl, rfl, .inl rfl⟩

theorem Change.destroyed_eq (h : Change clean w w') : w'.destroyed = w.destroyed := by
  cases h <;> rfl

/-- What every change keeps, several keep. -/
theorem Changes.invariant (Inv : RconnRun κ → Prop)
    (hchange : ∀ w w', Inv w → Change clean w w' → Inv w') (hw : Inv w) (h : Changes clean w w') :
    Inv w' := by
  induction h with
  | refl => exact hw
  | tail _ hlast ih => exact hchange _ _ ih hlast

/-- The loop of `rconn_run` is a run of its turns. -/
theorem reachable_rconnRun (inputs : ℕ → TurnInput) {fuel : ℕ} (hw : w.destroyed = false)
    (h : rconnRun inputs fuel w = some w') : Transition.Reachable Step w w' := by
  induction fuel generalizing w with
  | zero => cases h
  | succ fuel ih =>
    have hstep : Step w (.run (inputs fuel)) (runTurn w (inputs fuel)) := ⟨hw, rfl⟩
    have hkeep : (runTurn w (inputs fuel)).destroyed = w.destroyed :=
      (@changes_runTurn _ _ w False (inputs fuel)).invariant (fun w' => w'.destroyed = w.destroyed)
        (fun _ _ hw hchange => hchange.destroyed_eq.trans hw) rfl
    rw [rconnRun] at h
    split at h
    · exact (Transition.Reachable.step .refl hstep).trans (ih (hkeep.trans hw) h)
    · exact Option.some.inj h ▸ Transition.Reachable.step .refl hstep

end RconnRun

end OfAgent
