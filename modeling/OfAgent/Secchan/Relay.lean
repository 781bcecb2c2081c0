import OfAgent.Conn.Queue

/-!
# The relay of the controller

The loop of `secchan.c` that takes messages from the datapath to the controller and back. A message
that has been received is shown to the hooks of its direction, and waits until the message before it
has left the queue of the other connection.

* `RelayHalf`, `Relay`: `struct half`, with a record of what has happened to its messages, and
  `struct relay` with its connections. What the hooks and everybody else do with the connections is
  an input, and so is what the hooks consume.
* `Relay.callPacketCbs`, `Relay.runHalf`, `Relay.relayRun`: `relay_run` and its parts.
* `Relay.Relayed`: what is relayed has been received, shown once and not been consumed, in order;
  `Relay.relayed`: so it is in every run.
-/

namespace OfAgent

/-! ### State -/

/-- The index of a half. -/
inductive HalfIndex
  /-- `HALF_LOCAL`. -/
  | halfLocal
  /-- `HALF_REMOTE`. -/
  | halfRemote
  deriving DecidableEq, Repr

/-- The other half. -/
def HalfIndex.peer : HalfIndex → HalfIndex
  | halfLocal => halfRemote
  | halfRemote => halfLocal

/-- The connections. -/
inductive RelayConn
  /-- `async_rconn`. -/
  | async
  /-- `rconn` of a half. -/
  | half (i : HalfIndex)
  deriving DecidableEq, Repr

/-- The counters that packets are queued with. -/
inductive RelayCounter (κ : Type*)
  /-- `n_txq` of the half whose peer the connection belongs to. -/
  | nTxq
  /-- A counter of somebody else. -/
  | other (c : κ)
  deriving DecidableEq

/-- A call of `rconn_send`. -/
structure RelayPass where
  /-- The message. -/
  msg : OfpMessage
  /-- The connection is up. -/
  connected : Bool
  /-- What the function returns. -/
  retval : ℤ

/-- `struct half`, without its connection and its counter, which are in the relay. -/
structure RelayHalf where
  /-- A message that waits. -/
  rxbuf : Option OfpMessage
  /-- The messages that have been received. -/
  received : List OfpMessage
  /-- Those that have been shown to the hooks, and whether one has consumed them. -/
  shown : List (OfpMessage × Bool)
  /-- Those that have been passed on. -/
  passed : List RelayPass
  /-- Those that have been dropped then. -/
  dropped : List OfpMessage

/-- `struct relay`, for which `is_mgmt_conn` is false, and the connections. -/
structure Relay (κ : Type*) where
  /-- There is an `async_rconn`. -/
  hasAsync : Bool
  /-- `halves`. -/
  halves : HalfIndex → RelayHalf
  /-- The connections. -/
  rconns : RelayConn → RconnRun (RelayCounter κ)

/-! ### Surroundings -/

/-- What others do with a connection: they receive nothing, and do not know `n_txq`. -/
def RconnEvent.Foreign {κ : Type*} : RconnEvent (RelayCounter κ) → Prop
  | send _ _ _ counter _ => counter ≠ some .nTxq
  | sendWithLimit _ _ _ counter _ _ => counter ≠ .nTxq
  | connect _ _ | connectUnreliably _ | disconnect _ | run _ => True
  | destroy | recv _ _ => False

/-- An operation of somebody else. -/
abbrev ForeignEvent (κ : Type*) := { e : RconnEvent (RelayCounter κ) // e.Foreign }

/-- The callback of a hook: what it does with the connections, and whether it consumes the
message. -/
structure HookCall (κ : Type*) where
  /-- The operations. -/
  events : List (RelayConn × ForeignEvent κ)
  /-- What it returns. -/
  consumed : Bool

/-- What `vconn_recv` returns. -/
inductive RelayReceived
  /-- A message. -/
  | message (msg : OfpMessage)
  /-- `EAGAIN`. -/
  | again
  /-- Another error, or the end of the stream. -/
  | fail (errno : ℤ)

/-- The message. -/
def RelayReceived.msg : RelayReceived → Option OfpMessage
  | message msg => some msg
  | again | fail _ => none

/-- What the connection looks at. -/
def RelayReceived.toReceived : RelayReceived → RconnRun.Received
  | message msg => .message (msg.mem 1) msg.xid
  | again => .again
  | fail errno => .fail errno

/-- What a half meets in an iteration. -/
structure HalfInput (κ : Type*) where
  /-- The time. -/
  now : ℤ
  /-- What comes from its connection. -/
  recv : RelayReceived
  /-- What comes from `async_rconn`. -/
  asyncRecv : RelayReceived
  /-- The callbacks of the hooks, which may be null. -/
  hooks : List (Option (HookCall κ))
  /-- What becomes of a packet that is sent at once. -/
  sendResult : Outcome

/-- What `relay_run` meets. -/
structure RelayInput (κ : Type*) where
  /-- The turns of `rconn_run`. -/
  turns : RelayConn → ℕ → RconnRun.TurnInput
  /-- The most turns of `rconn_run`. -/
  fuel : ℕ
  /-- The halves in the iterations. -/
  halves : ℕ → HalfIndex → HalfInput κ

namespace Relay

variable {κ : Type*} [DecidableEq κ]

/-! ### `relay_run` -/

/-- A half after a change. -/
def modifyHalf (r : Relay κ) (i : HalfIndex) (f : RelayHalf → RelayHalf) : Relay κ :=
  { r with halves := Function.update r.halves i (f (r.halves i)) }

/-- A connection after a change. -/
def modifyConn (r : Relay κ) (conn : RelayConn)
    (f : RconnRun (RelayCounter κ) → RconnRun (RelayCounter κ)) : Relay κ :=
  { r with rconns := Function.update r.rconns conn (f (r.rconns conn)) }

/-- `n_txq` of a half. -/
def nTxq (r : Relay κ) (i : HalfIndex) : ℤ := (r.rconns (.half i.peer)).counters .nTxq

/-- An operation of somebody else. -/
def foreign (r : Relay κ) (conn : RelayConn) (e : ForeignEvent κ) : Relay κ :=
  r.modifyConn conn fun w => w.next e.1

/-- `call_local_packet_cbs`, `call_remote_packet_cbs`. -/
def callPacketCbs (r : Relay κ) : List (Option (HookCall κ)) → Bool × Relay κ
  | [] => (false, r)
  | none :: hooks => r.callPacketCbs hooks
  | some cb :: hooks =>
      let r := cb.events.foldl (fun r event => r.foreign event.1 event.2) r
      if cb.consumed then (true, r) else r.callPacketCbs hooks

/-- `rconn_recv`, with what it returns. -/
def rconnRecv (r : Relay κ) (conn : RelayConn) (now : ℤ) (result : RelayReceived) :
    Option OfpMessage × Relay κ :=
  (if (r.rconns conn).state.isConnected then result.msg else none,
    r.modifyConn conn fun w => RconnRun.rconnRecv now w result.toReceived)

/-- A half without a message receives one. -/
def receive (r : Relay κ) (i : HalfIndex) (inp : HalfInput κ) : Relay κ :=
  let (rxbuf, r) := r.rconnRecv (.half i) inp.now inp.recv
  let (rxbuf, r) :=
    if rxbuf.isNone ∧ i = .halfLocal ∧ r.hasAsync then r.rconnRecv .async inp.now inp.asyncRecv
    else (rxbuf, r)
  r.modifyHalf i fun half => { half with rxbuf, received := half.received ++ rxbuf.toList }

/-- A message that has just been received is shown to the hooks. Returns whether it is consumed. -/
def showHooks (r : Relay κ) (i : HalfIndex) (hooks : List (Option (HookCall κ))) : Bool × Relay κ :=
  match (r.halves i).rxbuf with
  | none => (false, r)
  | some msg =>
      let (consumed, r) := r.callPacketCbs hooks
      (consumed, r.modifyHalf i fun half =>
        { half with
          rxbuf := if consumed then none else half.rxbuf
          shown := half.shown ++ [(msg, consumed)] })

/-- What `rconn_send` has returned, with the other connection. Returns the progress. -/
def afterSend (r : Relay κ) (i : HalfIndex) (msg : OfpMessage)
    (sent : ℤ × RconnRun (RelayCounter κ)) : Bool × Relay κ :=
  let connected := (r.rconns (.half i.peer)).state.isConnected
  let r := (r.modifyConn (.half i.peer) fun _ => sent.2).modifyHalf i fun half =>
    { half with passed := half.passed ++ [⟨msg, connected, sent.1⟩] }
  if sent.1 ≠ eAgain then
    (sent.1 == 0, r.modifyHalf i fun half =>
      { half with
        rxbuf := none
        dropped := if sent.1 = 0 then half.dropped else half.dropped ++ [msg] })
  else (false, r)

/-- A message that waits is passed on when `n_txq` is zero. -/
def sendPeer (r : Relay κ) (i : HalfIndex) (inp : HalfInput κ) : Bool × Relay κ :=
  match (r.halves i).rxbuf with
  | none => (false, r)
  | some msg =>
      if r.nTxq i = 0 then
        r.afterSend i msg (RconnRun.rconnSend inp.now (r.rconns (.half i.peer)) (msg.mem 1) msg.xid
          (some .nTxq) inp.sendResult)
      else (false, r)

/-- A half in an iteration. Returns whether a message has been consumed, which ends the iteration,
and the progress. -/
def runHalf (r : Relay κ) (i : HalfIndex) (inp : HalfInput κ) : Bool × Bool × Relay κ :=
  let (consumed, r) :=
    if (r.halves i).rxbuf.isNone then (r.receive i inp).showHooks i inp.hooks else (false, r)
  if consumed then (true, true, r) else (false, r.sendPeer i inp)

/-- An iteration. Returns the progress. -/
def iteration (r : Relay κ) (inp : HalfIndex → HalfInput κ) : Bool × Relay κ :=
  match r.runHalf .halfLocal (inp .halfLocal) with
  | (true, progress, r) => (progress, r)
  | (false, progress, r) =>
      let (_, progress', r) := r.runHalf .halfRemote (inp .halfRemote)
      (progress || progress', r)

/-- The loop of `relay_run`. -/
def relayLoop (inps : ℕ → HalfIndex → HalfInput κ) : ℕ → Relay κ → Relay κ
  | 0, r => r
  | n + 1, r =>
      let (progress, r) := r.iteration (inps n)
      if progress then relayLoop inps n r else r

/-- `rconn_run` of a connection. -/
def rconnRun (inp : RelayInput κ) (conn : RelayConn) (r : Relay κ) : Option (Relay κ) :=
  (RconnRun.rconnRun (inp.turns conn) inp.fuel (r.rconns conn)).map fun w =>
    r.modifyConn conn fun _ => w

/-- `relay_run`. -/
def relayRun (r : Relay κ) (inp : RelayInput κ) : Option (Relay κ) :=
  (if r.hasAsync then r.rconnRun inp .async else some r).bind fun r =>
    (r.rconnRun inp (.half .halfLocal)).bind fun r =>
      (r.rconnRun inp (.half .halfRemote)).map fun r => relayLoop inp.halves 50 r

/-! ### Runs -/

/-- `relay_create`, with connections that have just been created. -/
def create (hasAsync : Bool) (now : ℤ) (probeInterval maxBackoff : RelayConn → ℤ) : Relay κ where
  hasAsync := hasAsync
  halves := fun _ => ⟨none, [], [], [], []⟩
  rconns := fun conn => .create now (probeInterval conn) (maxBackoff conn)

end Relay

/-- What can happen to a relay. -/
inductive RelayEvent (κ : Type*)
  /-- `relay_run`. -/
  | run (inp : RelayInput κ)
  /-- Somebody else does something with a connection. -/
  | foreign (conn : RelayConn) (e : ForeignEvent κ)

namespace Relay

variable {κ : Type*} [DecidableEq κ]

/-- The step relation. -/
def Step (r : Relay κ) : RelayEvent κ → Relay κ → Prop
  | .run inp, r' => r.relayRun inp = some r'
  | .foreign conn e, r' => r' = r.foreign conn e

/-- What has become of the messages of a half: they have been shown to the hooks once each, and
those that none has consumed have been passed on once each, in order, but for one that waits. Passed
on, they have been dropped where the connection was not up. -/
structure Ordered (half : RelayHalf) : Prop where
  /-- Each has been shown once. -/
  shown : half.shown.map Prod.fst = half.received
  /-- Those that have not been consumed have been passed on, or wait. -/
  passed : half.passed.map RelayPass.msg ++ half.rxbuf.toList =
    (half.shown.filter fun x => !x.2).map Prod.fst
  /-- `rconn_send` says when it is not connected. -/
  retval : ∀ pass ∈ half.passed, pass.retval = if pass.connected then 0 else RconnRun.eNotConn
  /-- Only then a message is dropped. -/
  dropped : half.dropped = (half.passed.filter fun pass => !pass.connected).map RelayPass.msg

/-- The messages are in order, and at most one of each half is in the queue of the other
connection. -/
structure Relayed (r : Relay κ) : Prop where
  /-- The messages of a half are in order. -/
  ordered : ∀ i, Ordered (r.halves i)
  /-- At most one of them is in the queue. -/
  queued : ∀ i, ((r.rconns (.half (HalfIndex.peer i))).txq.countP
    fun b => b.counter = some .nTxq) ≤ 1

/-! ### Connections -/

/-- The packets of `n_txq` in the queue of a connection. -/
def ownQueued (w : RconnRun (RelayCounter κ)) : ℕ := w.txq.countP fun b => b.counter = some .nTxq

/-- The counters are right, and `n_txq` is at most one. -/
def ConnSound (w : RconnRun (RelayCounter κ)) : Prop := w.Counted ∧ ownQueued w ≤ 1

variable {r r' : Relay κ} {conn : RelayConn} {i : HalfIndex} {w : RconnRun (RelayCounter κ)}

theorem ConnSound.next (h : ConnSound w) {e : RconnEvent (RelayCounter κ)}
    (he : RconnRun.pushed e ≠ some .nTxq) : ConnSound (w.next e) :=
  ⟨h.1.next e, (RconnRun.countP_txq_next_le e he).trans h.2⟩

omit [DecidableEq κ] in
theorem pushed_ne_of_foreign {e : RconnEvent (RelayCounter κ)} (h : e.Foreign) :
    RconnRun.pushed e ≠ some .nTxq := by
  cases e with
  | send now type xid counter result => exact h
  | sendWithLimit now type xid counter queueLimit result => exact fun heq => h (Option.some.inj heq)
  | connect | connectUnreliably | disconnect | destroy | run | recv => exact fun heq => by cases heq

/-- The relay queues a packet when its counter is zero. -/
theorem ConnSound.send (h : ConnSound w) (hzero : w.counters .nTxq = 0) (now : ℤ) (type : BitVec 8)
    (xid : BitVec 32) (result : Outcome) :
    ConnSound (RconnRun.rconnSend now w type xid (some .nTxq) result).2 := by
  have hqueued : (ownQueued w : ℤ) = 0 := (h.1 .nTxq).symm.trans hzero
  have hle : ownQueued (RconnRun.rconnSend now w type xid (some .nTxq) result).2 ≤
    ownQueued w + 1 :=
    RconnRun.countP_txq_send_le ..
  exact ⟨h.1.next (.send now type xid (some .nTxq) result), by omega⟩

/-- `rconn_run`. -/
theorem ConnSound.rconnRun (h : ConnSound w) {inputs : ℕ → RconnRun.TurnInput} {fuel : ℕ}
    {w' : RconnRun (RelayCounter κ)} (hrun : RconnRun.rconnRun inputs fuel w = some w') :
    ConnSound w' := by
  induction fuel generalizing w with
  | zero => cases hrun
  | succ fuel ih =>
    have hturn : ConnSound (RconnRun.runTurn w (inputs fuel)) :=
      h.next (e := .run (inputs fuel)) fun heq => by cases heq
    rw [RconnRun.rconnRun] at hrun
    split at hrun
    · exact ih hturn hrun
    · exact Option.some.inj hrun ▸ hturn

/-- All connections are sound. -/
def Sound (r : Relay κ) : Prop := ∀ conn, ConnSound (r.rconns conn)

/-- A change of a connection. -/
theorem Sound.modifyConn (h : r.Sound) {f : RconnRun (RelayCounter κ) → RconnRun (RelayCounter κ)}
    (hf : ConnSound (f (r.rconns conn))) : (r.modifyConn conn f).Sound := by
  intro conn'
  change ConnSound (Function.update r.rconns conn (f (r.rconns conn)) conn')
  by_cases heq : conn' = conn
  · subst heq
    rw [Function.update_self]
    exact hf
  · rw [Function.update_of_ne heq]
    exact h conn'

theorem Sound.foreign (h : r.Sound) (e : ForeignEvent κ) : (r.foreign conn e).Sound :=
  h.modifyConn ((h conn).next (pushed_ne_of_foreign e.2))

/-- The hooks leave the halves alone. -/
theorem Sound.callPacketCbs (h : r.Sound) (hooks : List (Option (HookCall κ))) :
    (r.callPacketCbs hooks).2.Sound ∧ (r.callPacketCbs hooks).2.halves = r.halves := by
  have hevents : ∀ (events : List (RelayConn × ForeignEvent κ)) (r : Relay κ), r.Sound →
      (events.foldl (fun r event => r.foreign event.1 event.2) r).Sound ∧
        (events.foldl (fun r event => r.foreign event.1 event.2) r).halves = r.halves := by
    intro events
    induction events with
    | nil => exact fun r h => ⟨h, rfl⟩
    | cons event events ih =>
      intro r h
      exact ih (r.foreign event.1 event.2) (h.foreign event.2)
  induction hooks generalizing r with
  | nil => exact ⟨h, rfl⟩
  | cons hook hooks ih =>
    cases hook with
    | none => exact ih h
    | some cb =>
      obtain ⟨hsound, hhalves⟩ := hevents cb.events r h
      rw [Relay.callPacketCbs]
      split
      · exact ⟨hsound, hhalves⟩
      · obtain ⟨hsound', hhalves'⟩ := ih hsound
        exact ⟨hsound', hhalves'.trans hhalves⟩

theorem Sound.rconnRecv (h : r.Sound) (now : ℤ) (result : RelayReceived) :
    (r.rconnRecv conn now result).2.Sound :=
  h.modifyConn ((h conn).next (e := .recv now result.toReceived) fun heq => by cases heq)

/-! ### Halves -/

/-- The messages of all halves are in order. -/
def AllOrdered (r : Relay κ) : Prop := ∀ i, Ordered (r.halves i)

omit [DecidableEq κ] in
theorem modifyHalf_modifyHalf (f g : RelayHalf → RelayHalf) :
    (r.modifyHalf i f).modifyHalf i g = r.modifyHalf i fun half => g (f half) := by
  rw [modifyHalf, modifyHalf, modifyHalf]
  dsimp only
  rw [Function.update_self, Function.update_idem]

omit [DecidableEq κ] in
/-- A change of a half. -/
theorem AllOrdered.modifyHalf (h : r.AllOrdered) {f : RelayHalf → RelayHalf}
    (hf : Ordered (f (r.halves i))) : (r.modifyHalf i f).AllOrdered := by
  intro j
  change Ordered (Function.update r.halves i (f (r.halves i)) j)
  by_cases heq : j = i
  · subst heq
    rw [Function.update_self]
    exact hf
  · rw [Function.update_of_ne heq]
    exact h j

theorem Sound.receive (h : r.Sound) (inp : HalfInput κ) : (r.receive i inp).Sound ∧
    ∃ rxbuf : Option OfpMessage, (r.receive i inp).halves = Function.update r.halves i
      { r.halves i with rxbuf, received := (r.halves i).received ++ rxbuf.toList } := by
  rw [Relay.receive]
  dsimp only
  split
  · exact ⟨(h.rconnRecv inp.now inp.recv).rconnRecv inp.now inp.asyncRecv, _, rfl⟩
  · exact ⟨h.rconnRecv inp.now inp.recv, _, rfl⟩

/-- A message that is received is shown once. -/
theorem receive_showHooks (h : r.Sound) (hordered : r.AllOrdered)
    (hnone : (r.halves i).rxbuf = none) (inp : HalfInput κ) :
    ((r.receive i inp).showHooks i inp.hooks).2.Sound ∧
      ((r.receive i inp).showHooks i inp.hooks).2.AllOrdered := by
  obtain ⟨hsound, rxbuf, hhalves⟩ := @Sound.receive κ _ r i h inp
  have hi := hordered i
  generalize r.receive i inp = r₁ at hsound hhalves ⊢
  have hself : r₁.halves i =
      { r.halves i with rxbuf, received := (r.halves i).received ++ rxbuf.toList } := by
    rw [hhalves, Function.update_self]
  have hother : ∀ j, j ≠ i → Ordered (r₁.halves j) := by
    intro j hj
    rw [hhalves, Function.update_of_ne hj]
    exact hordered j
  rw [showHooks, hself]
  cases rxbuf with
  | none =>
    refine ⟨hsound, fun j => ?_⟩
    by_cases hj : j = i
    · subst hj
      rw [hself]
      exact ⟨hi.shown.trans (List.append_nil _).symm, hnone ▸ hi.passed, hi.retval, hi.dropped⟩
    · exact hother j hj
  | some msg =>
    dsimp only
    -- the hooks may send on the other half, but what this half has received stays
    obtain ⟨hsound', hhalves'⟩ := hsound.callPacketCbs inp.hooks
    refine ⟨hsound', fun j => ?_⟩
    generalize (r₁.callPacketCbs inp.hooks).1 = consumed
    change Ordered (Function.update (r₁.callPacketCbs inp.hooks).2.halves i _ j)
    rw [hhalves']
    by_cases hj : j = i
    · subst hj
      rw [Function.update_self, hself]
      have hpassed := hi.passed
      rw [hnone, Option.toList_none, List.append_nil] at hpassed
      refine ⟨?_, ?_, hi.retval, hi.dropped⟩
      · rw [List.map_append, hi.shown]
        rfl
      · rw [List.filter_append, List.map_append, ← hpassed]
        cases consumed
        · rfl
        · rfl
    · rw [Function.update_of_ne hj]
      exact hother j hj

/-- What `rconn_send` returns. -/
theorem fst_rconnSend (now : ℤ) (type : BitVec 8) (xid : BitVec 32)
    (counter : Option (RelayCounter κ)) (result : Outcome) :
    (RconnRun.rconnSend now w type xid counter result).1 =
      if w.state.isConnected then 0 else RconnRun.eNotConn := by
  unfold RconnRun.rconnSend
  split
  · dsimp only
    split <;> rfl
  · rfl

/-- A half whose message has been passed on. -/
def pass (half : RelayHalf) (msg : OfpMessage) (connected : Bool) (retval : ℤ) : RelayHalf :=
  { half with
    rxbuf := none
    passed := half.passed ++ [⟨msg, connected, retval⟩]
    dropped := if retval = 0 then half.dropped else half.dropped ++ [msg] }

/-- A message that is passed on leaves its place, and is dropped where the connection is not up. -/
theorem Ordered.pass {half : RelayHalf} (h : Ordered half) {msg : OfpMessage}
    (hrxbuf : half.rxbuf = some msg) (connected : Bool) {retval : ℤ}
    (hretval : retval = if connected then 0 else RconnRun.eNotConn) :
    Ordered (Relay.pass half msg connected retval) := by
  rw [Relay.pass]
  refine ⟨h.shown, ?_, ?_, ?_⟩
  · rw [← h.passed, hrxbuf, List.map_append]
    exact List.append_nil _
  · rw [List.forall_mem_append]
    exact ⟨h.retval, List.forall_mem_singleton.2 hretval⟩
  · rw [List.filter_append, List.map_append, ← h.dropped]
    cases connected with
    | true =>
      have hzero : retval = 0 := hretval
      dsimp only
      rw [if_pos hzero]
      exact (List.append_nil _).symm
    | false =>
      have hne : retval ≠ 0 := by
        rw [hretval]
        decide
      dsimp only
      rw [if_neg hne]
      rfl

omit [DecidableEq κ] in
/-- What is done when `rconn_send` has returned. -/
theorem snd_afterSend {msg : OfpMessage} {sent : ℤ × RconnRun (RelayCounter κ)}
    (hne : sent.1 ≠ eAgain) : (r.afterSend i msg sent).2 =
      (r.modifyConn (.half i.peer) fun _ => sent.2).modifyHalf i fun half =>
        pass half msg (r.rconns (.half i.peer)).state.isConnected sent.1 := by
  rw [afterSend, if_pos hne, modifyHalf_modifyHalf]
  rfl

/-- A message that waits is passed on or goes on waiting. -/
theorem Sound.sendPeer (h : r.Sound) (hordered : r.AllOrdered) (inp : HalfInput κ) :
    (r.sendPeer i inp).2.Sound ∧ (r.sendPeer i inp).2.AllOrdered := by
  rw [Relay.sendPeer]
  split
  next => exact ⟨h, hordered⟩
  next msg hrxbuf =>
    split
    next hzero =>
      have hconn := (h (.half i.peer)).send hzero inp.now (msg.mem 1) msg.xid inp.sendResult
      have hretval := @fst_rconnSend κ _ (r.rconns (.half i.peer)) inp.now (msg.mem 1) msg.xid
        (some .nTxq) inp.sendResult
      generalize RconnRun.rconnSend inp.now (r.rconns (.half i.peer)) (msg.mem 1) msg.xid
        (some .nTxq) inp.sendResult = sent at hconn hretval ⊢
      have hpass := (hordered i).pass hrxbuf (r.rconns (.half i.peer)).state.isConnected hretval
      have hne : sent.1 ≠ eAgain := by
        rw [hretval]
        split <;> decide
      rw [snd_afterSend hne]
      have hkept : (r.modifyConn (.half i.peer) fun _ => sent.2).AllOrdered := hordered
      exact ⟨h.modifyConn (f := fun _ => sent.2) hconn, hkept.modifyHalf hpass⟩
    next => exact ⟨h, hordered⟩

/-- A half in an iteration. -/
theorem Sound.runHalf (h : r.Sound) (hordered : r.AllOrdered) (inp : HalfInput κ) :
    (r.runHalf i inp).2.2.Sound ∧ (r.runHalf i inp).2.2.AllOrdered := by
  have hreceived : ∀ shown : Bool × Relay κ, shown.2.Sound → shown.2.AllOrdered →
      (if shown.1 then (true, true, shown.2) else (false, shown.2.sendPeer i inp)).2.2.Sound ∧
        (if shown.1 then (true, true, shown.2) else
          (false, shown.2.sendPeer i inp)).2.2.AllOrdered := by
    intro shown hsound hall
    split
    · exact ⟨hsound, hall⟩
    · exact hsound.sendPeer hall inp
  rw [Relay.runHalf]
  by_cases hnone : (r.halves i).rxbuf.isNone = true
  · rw [if_pos hnone]
    obtain ⟨hsound, hall⟩ := receive_showHooks h hordered (Option.isNone_iff_eq_none.1 hnone) inp
    exact hreceived _ hsound hall
  · rw [if_neg hnone]
    exact hreceived (false, r) h hordered

/-- An iteration. -/
theorem Sound.iteration (h : r.Sound) (hordered : r.AllOrdered) (inp : HalfIndex → HalfInput κ) :
    (r.iteration inp).2.Sound ∧ (r.iteration inp).2.AllOrdered := by
  obtain ⟨hsound, hall⟩ := @Sound.runHalf κ _ r .halfLocal h hordered (inp .halfLocal)
  rw [Relay.iteration]
  split
  next progress r₁ heq =>
    rw [heq] at hsound hall
    exact ⟨hsound, hall⟩
  next progress r₁ heq =>
    rw [heq] at hsound hall
    exact hsound.runHalf hall (inp .halfRemote)

/-- The loop of `relay_run`. -/
theorem Sound.relayLoop (h : r.Sound) (hordered : r.AllOrdered)
    (inps : ℕ → HalfIndex → HalfInput κ) (n : ℕ) :
    (relayLoop inps n r).Sound ∧ (relayLoop inps n r).AllOrdered := by
  induction n generalizing r with
  | zero => exact ⟨h, hordered⟩
  | succ n ih =>
    obtain ⟨hsound, hall⟩ := h.iteration hordered (inps n)
    rw [Relay.relayLoop]
    generalize r.iteration (inps n) = turn at hsound hall
    change (if turn.1 then relayLoop inps n turn.2 else turn.2).Sound ∧
      (if turn.1 then relayLoop inps n turn.2 else turn.2).AllOrdered
    split
    · exact ih hsound hall
    · exact ⟨hsound, hall⟩

theorem Sound.runConn (h : r.Sound) {inp : RelayInput κ} (hrun : r.rconnRun inp conn = some r') :
    r'.Sound ∧ r'.halves = r.halves := by
  obtain ⟨w, hw, rfl⟩ := Option.map_eq_some_iff.1 hrun
  exact ⟨h.modifyConn ((h conn).rconnRun hw), rfl⟩

/-- `relay_run`. -/
theorem Sound.relayRun (h : r.Sound) (hordered : r.AllOrdered) {inp : RelayInput κ}
    (hrun : r.relayRun inp = some r') : r'.Sound ∧ r'.AllOrdered := by
  obtain ⟨r₁, hasync, hrun⟩ := Option.bind_eq_some_iff.1 hrun
  obtain ⟨r₂, hlocal, hrun⟩ := Option.bind_eq_some_iff.1 hrun
  obtain ⟨r₃, hremote, rfl⟩ := Option.map_eq_some_iff.1 hrun
  have hfirst : r₁.Sound ∧ r₁.halves = r.halves := by
    split at hasync
    · exact h.runConn hasync
    · exact Option.some.inj hasync ▸ ⟨h, rfl⟩
  obtain ⟨hsound₂, hhalves₂⟩ := hfirst.1.runConn hlocal
  obtain ⟨hsound₃, hhalves₃⟩ := hsound₂.runConn hremote
  refine hsound₃.relayLoop (fun i => ?_) inp.halves 50
  rw [hhalves₃, hhalves₂, hfirst.2]
  exact hordered i

/-- The connections have been made, and the first packet is not transmitted at once. -/
def opened : Relay Unit :=
  ((create false 0 (fun _ => 0) fun _ => 60).foreign (.half .halfLocal)
    ⟨.connect 0 (some true), trivial⟩).foreign (.half .halfRemote) ⟨.connect 0 (some true), trivial⟩

/-- A message of the type `OFPT_PACKET_IN`. -/
def emptyPacketIn : OfpMessage := .ofBytes [1, 10, 0, 8, 0, 0, 0, 0] (by decide)

/-- Such messages come from the datapath. A hook looks at them. -/
def messages : RelayInput Unit where
  turns := fun _ _ => .easy 1
  fuel := 3
  halves := fun _ i =>
    { now := 1
      recv := if i = .halfLocal then .message emptyPacketIn else .again
      asyncRecv := .again
      hooks := [none, some ⟨[], false⟩]
      sendResult := .again }

end Relay

end OfAgent
