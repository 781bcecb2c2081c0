import OfAgent.Conn.Handshake

/-!
# An end of a connection

What an end of a connection does when its peer runs the handshake of `vconn.c` too, over a transport
that keeps messages in order.

* `VconnTransport`: a transport between two ends; `VconnTransport.Fifo`: it neither loses nor
  reorders what it has accepted; `VconnTransport.Prompt`: it does so at once.
* `VconnRun.Linked`: the messages that have not arrived are under way.
* `VconnRun.Greeted`: what an end has done, as long as its peer begins with a HELLO;
  `VconnRun.Greeted.next`: every call keeps this.
* `VconnRun.vconnConnect_of_prompt`: how far a call of `vconn_connect` gets.
-/

namespace OfAgent

theorem eAgain_ne_zero : eAgain ≠ 0 := by decide

/-! ### Bytes of messages -/

/-- The bytes of a message. -/
def OfpMessage.bytes (msg : OfpMessage) : List Byte := msg.mem.slice 0 msg.length

namespace OfpMessage

variable {msg msg' : OfpMessage}

theorem getD_bytes (msg : OfpMessage) {i : ℕ} (hi : i < 8) : msg.bytes.getD i 0 = msg.mem i := by
  have hlength := msg.length_ge
  unfold bytes Memory.slice
  have hget : (List.range msg.length)[i]? = some i := List.getElem?_range (by omega)
  rw [List.getD_eq_getElem?_getD, List.getElem?_map, hget, Option.map_some, Option.getD_some,
    Nat.zero_add]

theorem version_of_bytes (h : msg.bytes = msg'.bytes) : msg.version = msg'.version := by
  unfold version
  rw [← getD_bytes msg (by decide), ← getD_bytes msg' (by decide), h]

theorem type_of_bytes (h : msg.bytes = msg'.bytes) : msg.type = msg'.type := by
  unfold type
  rw [← getD_bytes msg (by decide), ← getD_bytes msg' (by decide), h]

end OfpMessage

/-- `passes`, by the bytes of a message. -/
def passesBytes (version : ℤ) (bs : List Byte) : Bool :=
  ((bs.getD 0 0).toNat : ℤ) == version ||
    versionlessTypes.any fun t => OfpType.ofBitVec (bs.getD 1 0) == some t

theorem passesBytes_bytes (version : ℤ) (msg : OfpMessage) :
    passesBytes version msg.bytes = passes version msg := by
  unfold passesBytes passes
  rw [msg.getD_bytes (by decide), msg.getD_bytes (by decide)]
  rfl

/-- Messages that pass have the bytes that pass. -/
theorem map_filter_passes (version : ℤ) (l : List OfpMessage) :
    (l.filter (passes version)).map OfpMessage.bytes =
      (l.map OfpMessage.bytes).filter (passesBytes version) := by
  rw [List.filter_map]
  exact congrArg (List.map _) (List.filter_congr fun msg _ => (passesBytes_bytes version msg).symm)

/-! ### Transports -/

/-- The ends of a connection: `vconn_open` makes the active one, `pvconn_accept` the passive one. -/
inductive VconnEnd
  | active
  | passive
  deriving DecidableEq

/-- The end at the other side. -/
def VconnEnd.other : VconnEnd → VconnEnd
  | active => passive
  | passive => active

@[simp]
theorem VconnEnd.other_other (d : VconnEnd) : d.other.other = d := by cases d <;> rfl

theorem VconnEnd.other_ne (d : VconnEnd) : d.other ≠ d := by cases d <;> decide

theorem VconnEnd.eq_other_of_ne {d d' : VconnEnd} (h : d' ≠ d) : d' = d.other := by
  cases d <;> cases d' <;> first | rfl | exact absurd rfl h

/-- A transport between both ends. -/
structure VconnTransport (σ : Type*) where
  /-- Its functions at each end. -/
  cls : VconnEnd → VconnClass σ
  /-- The messages under way to an end. -/
  inFlight : VconnEnd → σ → List (List Byte)
  /-- What the transport keeps between calls. -/
  Intact : σ → Prop
  /-- The errors that its functions may return, apart from `EAGAIN`. -/
  Fails : ℤ → Prop

namespace VconnTransport

variable {σ : Type*} (T : VconnTransport σ)

/-- Nothing has been sent or received. -/
def Quiet (t t' : σ) : Prop :=
  T.Intact t' ∧ ∀ d, T.inFlight d t' = T.inFlight d t

/-- The transport neither loses nor reorders messages, and its functions fail for a reason. -/
structure Fifo : Prop where
  /-- `connect`. -/
  connect : ∀ d {t t' r}, T.Intact t → (T.cls d).connect t = (r, t') →
    T.Quiet t t' ∧ (r ≠ 0 → r ≠ eAgain → T.Fails r)
  /-- `alloc_xid`. -/
  allocXid : ∀ d {t t' xid}, T.Intact t → (T.cls d).allocXid t = (xid, t') → T.Quiet t t'
  /-- `recv`, when it returns a message. -/
  recv_ok : ∀ d {t t' msg}, T.Intact t → (T.cls d).recv t = (.ok msg, t') →
    T.Intact t' ∧ T.inFlight d t = msg.bytes :: T.inFlight d t' ∧
      T.inFlight d.other t' = T.inFlight d.other t
  /-- `recv`, when it returns none. -/
  recv_error : ∀ d {t t' errno}, T.Intact t → (T.cls d).recv t = (.error errno, t') →
    T.Quiet t t' ∧ (errno.1 ≠ eAgain → T.Fails errno)
  /-- `send`. -/
  send : ∀ d {t t' r} msg, T.Intact t → (T.cls d).send t msg = (r, t') →
    T.Intact t' ∧ T.inFlight d t' = T.inFlight d t ∧
      T.inFlight d.other t' = (if r = 0 then T.inFlight d.other t ++ [msg.bytes] else
        T.inFlight d.other t) ∧ (r ≠ 0 → r ≠ eAgain → T.Fails r)

/-- The transport takes every message at once, returns a message when one is under way, and does not
fail. -/
structure Prompt : Prop where
  /-- `connect`. -/
  connect : ∀ d {t}, T.Intact t → ((T.cls d).connect t).1 = 0
  /-- `send`. -/
  send : ∀ d {t} msg, T.Intact t → ((T.cls d).send t msg).1 = 0
  /-- `recv`. -/
  recv : ∀ d {t}, T.Intact t → T.inFlight d t ≠ [] → ∃ msg t', (T.cls d).recv t = (.ok msg, t')
  /-- There are no errors. -/
  never : ∀ e, ¬ T.Fails e

end VconnTransport

/-! ### One end -/

namespace VconnRun

variable {σ : Type*} {T : VconnTransport σ} {d : VconnEnd} {S P : List (List Byte)}
  {w w' : VconnRun σ} {fuel : ℕ} {minVersion : ℤ}

variable (T d S P w) in
/-- Of the messages `S` that its peer has sent, those that have not arrived are under way, and so
are its own behind those that have arrived there, `P`. -/
structure Linked : Prop where
  /-- The transport is intact. -/
  intact : T.Intact w.transport
  /-- The messages to this end. -/
  incoming : w.arrived.map OfpMessage.bytes ++ T.inFlight d w.transport = S
  /-- The messages from this end. -/
  outgoing : P ++ T.inFlight d.other w.transport = w.accepted.map fun m => m.1.bytes

/-- A peer that has sent something has sent a HELLO first. -/
def BeginsWithHello (S : List (List Byte)) : Prop :=
  ∀ m ∈ S.head?, ∃ xid, m = (helloMessage xid).bytes

variable (w) in
/-- What an end has done in each state. -/
def Settled (Fails : ℤ → Prop) : Prop :=
  match w.state with
  | .connecting | .sendHello => w.accepted = [] ∧ w.arrived = []
  | .recvHello => w.accepted ≠ [] ∧ w.arrived = []
  | .connected =>
      w.accepted ≠ [] ∧ w.arrived ≠ [] ∧ w.version = ofpVersion.toNat ∧
        w.minVersion ≤ ofpVersion.toNat
  | .sendError =>
      w.accepted ≠ [] ∧ w.arrived ≠ [] ∧ w.version = ofpVersion.toNat ∧
        ofpVersion.toNat < w.minVersion
  | .disconnected => Fails w.error ∨ ofpVersion.toNat < w.minVersion

variable (w) in
/-- What an end has done when its peer begins with a HELLO. -/
structure Greeted (Fails : ℤ → Prop) (minVersion : ℤ) : Prop where
  /-- The first version that it accepts is what it has been. -/
  minVersion_eq : w.minVersion = minVersion
  /-- It begins with a HELLO itself, and sends nothing else of its own as long as it accepts the
  version of the protocol. -/
  accepted : w.accepted = [] ∨ ∃ xid rest, w.accepted = (helloMessage xid, true) :: rest ∧
    (w.minVersion ≤ ofpVersion.toNat → ∀ m ∈ rest, m.2 = false)
  /-- It returns what arrives behind the HELLO and passes. -/
  returned : w.returned = (w.arrived.drop 1).filter (passes ofpVersion.toNat)
  /-- The states. -/
  settled : w.Settled Fails

theorem hello_of_bytes {msg : OfpMessage} {xid : BitVec 32}
    (h : msg.bytes = (helloMessage xid).bytes) :
    msg.type = some .hello ∧ msg.version = ofpVersion :=
  ⟨(OfpMessage.type_of_bytes h).trans (type_helloMessage xid), OfpMessage.version_of_bytes h⟩

/-! ### Rules -/

variable {cls : VconnClass σ}

/-- What a turn of the loop keeps, the loop keeps, by induction on its turns. -/
theorem connectLoop_induct (Inv : VconnRun σ → Prop)
    (hvcs : ∀ {w w'}, Inv w → vcs cls w fuel = some w' → Inv w') {turns : ℕ} {retval : ℤ}
    (h : Inv w) (hrun : connectLoop cls fuel turns w = some (retval, w')) : Inv w' := by
  induction turns generalizing w with
  | zero => cases hrun
  | succ turns ih =>
    rw [connectLoop] at hrun
    split at hrun
    next => exact (Prod.mk.inj (Option.some.inj hrun)).2 ▸ h
    next => exact (Prod.mk.inj (Option.some.inj hrun)).2 ▸ h
    all_goals
      split at hrun
      next => cases hrun
      next w₁ hturn =>
        split at hrun
        next => exact ih (hvcs h hturn) hrun
        next => exact (Prod.mk.inj (Option.some.inj hrun)).2 ▸ hvcs h hturn

theorem vconnConnect_induct (Inv : VconnRun σ → Prop)
    (hvcs : ∀ {w w'}, Inv w → vcs cls w fuel = some w' → Inv w') {retval : ℤ} (h : Inv w)
    (hrun : vconnConnect cls w fuel = some (retval, w')) : Inv w' := by
  unfold vconnConnect at hrun
  split at hrun
  next => cases hrun
  next => exact connectLoop_induct Inv hvcs h hrun

/-- A call of `vconn_recv`, whatever it returns. -/
theorem exists_vconnRecv {retval : ℤ} (hrun : next cls w fuel .recv = some (retval, w')) :
    ∃ r, vconnRecv cls w fuel = some (r, w') := by
  unfold next at hrun
  simp only at hrun
  split at hrun
  next => cases hrun
  next msg w₁ h => exact ⟨_, (Prod.mk.inj (Option.some.inj hrun)).2 ▸ h⟩
  next errno w₁ h => exact ⟨_, (Prod.mk.inj (Option.some.inj hrun)).2 ▸ h⟩

/-! ### Sending and receiving -/

/-- Nothing has happened to the transport. -/
theorem Linked.quiet (h : w.Linked T d S P) {t : σ} (ht : T.Quiet w.transport t) :
    ({ w with transport := t } : VconnRun σ).Linked T d S P where
  intact := ht.1
  incoming := by rw [← h.incoming, ht.2]
  outgoing := by rw [← h.outgoing, ht.2]

section Fifo

variable (hT : T.Fifo)

include hT

/-- A message that has been accepted is under way. -/
theorem Linked.doSend (h : w.Linked T d S P) (msg : OfpMessage) (own : Bool) :
    (doSend (T.cls d) w msg own).2.Linked T d S P ∧
      ((doSend (T.cls d) w msg own).1 ≠ 0 → (doSend (T.cls d) w msg own).1 ≠ eAgain →
        T.Fails (doSend (T.cls d) w msg own).1) := by
  obtain ⟨hintact, hin, hout, hfails⟩ := hT.send d msg h.intact rfl
  refine ⟨⟨hintact, ?_, ?_⟩, hfails⟩
  · exact (congrArg _ hin).trans h.incoming
  · refine (congrArg _ hout).trans ?_
    unfold VconnRun.doSend
    simp only
    split_ifs
    · rw [← List.append_assoc, h.outgoing, List.map_append]
      rfl
    · exact h.outgoing

/-- The first message that arrives is the HELLO of the peer. -/
theorem Linked.doRecv_hello (h : w.Linked T d S P) (hS : BeginsWithHello S)
    (harrived : w.arrived = []) {r : Except Errno OfpMessage}
    (hrun : doRecv (T.cls d) fuel w = some (r, w')) :
    w'.Linked T d S P ∧ ∃ transport,
      match r with
      | .ok msg =>
          w' = { w with transport, arrived := [msg], passed := w.passed ++ [msg] } ∧
            msg.type = some .hello ∧ msg.version = ofpVersion
      | .error errno => w' = { w with transport } ∧ (errno.1 ≠ eAgain → T.Fails errno) := by
  cases fuel with
  | zero => cases hrun
  | succ fuel =>
    rw [VconnRun.doRecv] at hrun
    split at hrun
    next errno transport hrecv =>
      cases hrun
      obtain ⟨hquiet, hfails⟩ := hT.recv_error d h.intact hrecv
      exact ⟨h.quiet hquiet, transport, rfl, hfails⟩
    next msg transport hrecv =>
      obtain ⟨hintact, hin, hout⟩ := hT.recv_ok d h.intact hrecv
      have hincoming := h.incoming
      rw [harrived, hin] at hincoming
      obtain ⟨xid, hxid⟩ := hS msg.bytes (by rw [← hincoming]; rfl)
      obtain ⟨htype, hversion⟩ := hello_of_bytes hxid
      have hpasses : passes w.version msg = true := by
        simp [passes, versionlessTypes, htype]
      simp only [hpasses, if_true] at hrun
      obtain ⟨rfl, rfl⟩ := Prod.mk.inj (Option.some.inj hrun)
      refine ⟨⟨hintact, ?_, ?_⟩, transport, ?_, htype, hversion⟩
      · rw [harrived]
        exact hincoming
      · exact (congrArg _ hout).trans h.outgoing
      · rw [harrived]
        rfl

/-- Once there is a version, one message arrives at a time. -/
theorem Linked.doRecv_settled (h : w.Linked T d S P) (hversion : 0 ≤ w.version)
    {r : Except Errno OfpMessage} (hrun : doRecv (T.cls d) fuel w = some (r, w')) :
    w'.Linked T d S P ∧ ∃ transport,
      match r with
      | .ok msg =>
          w' =
            { w with
              transport
              arrived := w.arrived ++ [msg]
              passed := w.passed ++ [msg] } ∧
            passes w.version msg = true
      | .error _ =>
          w' = { w with transport } ∨
            ∃ msg, w' = { w with transport, arrived := w.arrived ++ [msg] } ∧
              passes w.version msg = false := by
  cases fuel with
  | zero => cases hrun
  | succ fuel =>
    rw [VconnRun.doRecv] at hrun
    split at hrun
    next errno transport hrecv =>
      cases hrun
      exact ⟨h.quiet (hT.recv_error d h.intact hrecv).1, transport, .inl rfl⟩
    next msg transport hrecv =>
      obtain ⟨hintact, hin, hout⟩ := hT.recv_ok d h.intact hrecv
      have hlinked : ∀ passed, ({ w with
          transport
          arrived := w.arrived ++ [msg]
          passed } : VconnRun σ).Linked T d S P := by
        refine fun passed => ⟨hintact, ?_, (congrArg _ hout).trans h.outgoing⟩
        rw [← h.incoming, hin]
        simp
      have hnot : ¬ (w.version < 0 ∧ (earlyTypes.any fun t => msg.type == some t) = true) :=
        fun hearly => absurd hversion (not_le_of_gt hearly.1)
      simp only [if_neg hnot] at hrun
      split at hrun
      next hpasses =>
        cases hrun
        exact ⟨hlinked _, transport, rfl, hpasses⟩
      next hpasses =>
        cases hrun
        exact ⟨hlinked _, transport, .inr ⟨msg, rfl, Bool.eq_false_iff.2 hpasses⟩⟩

/-! ### The states -/

theorem Greeted.vcsConnecting (h : w.Greeted T.Fails minVersion) (hlinked : w.Linked T d S P)
    (hstate : w.state = .connecting) :
    (vcsConnecting (T.cls d) w).Greeted T.Fails minVersion ∧
      (vcsConnecting (T.cls d) w).Linked T d S P := by
  have hsettled := h.settled
  unfold Settled at hsettled
  rw [hstate] at hsettled
  unfold VconnRun.vcsConnecting giveUp
  split
  next retval transport hconnect =>
    obtain ⟨hquiet, hfails⟩ := hT.connect d hlinked.intact hconnect
    have hnext := hlinked.quiet hquiet
    simp only
    split_ifs with hzero hagain
    · exact ⟨⟨h.minVersion_eq, h.accepted, h.returned, hsettled⟩,
        ⟨hnext.intact, hnext.incoming, hnext.outgoing⟩⟩
    · exact ⟨⟨h.minVersion_eq, h.accepted, h.returned, .inl (hfails hzero hagain)⟩,
        ⟨hnext.intact, hnext.incoming, hnext.outgoing⟩⟩
    · exact ⟨⟨h.minVersion_eq, h.accepted, h.returned, h.settled⟩, hnext⟩

theorem Greeted.vcsSendHello (h : w.Greeted T.Fails minVersion) (hlinked : w.Linked T d S P)
    (hstate : w.state = .sendHello) :
    (vcsSendHello (T.cls d) w).Greeted T.Fails minVersion ∧
      (vcsSendHello (T.cls d) w).Linked T d S P := by
  have hsettled := h.settled
  unfold Settled at hsettled
  rw [hstate] at hsettled
  unfold VconnRun.vcsSendHello giveUp
  split
  next xid transport hxid =>
    have hnext := hlinked.quiet (hT.allocXid d hlinked.intact hxid)
    obtain ⟨hsent, hfails⟩ := hnext.doSend hT (helloMessage xid) true
    obtain ⟨retval, transport', hsend⟩ :=
      doSend_spec (T.cls d) { w with transport } (helloMessage xid) true
    rw [hsend] at hsent hfails ⊢
    simp only at hsent hfails ⊢
    split_ifs with hzero hagain
    · rw [if_pos hzero, hsettled.1] at hsent
      refine ⟨⟨h.minVersion_eq, .inr ⟨xid, [], ?_, fun _ m hm => absurd hm List.not_mem_nil⟩,
        h.returned, ?_⟩, ?_⟩
      · rw [hsettled.1]
        rfl
      · exact ⟨by rw [hsettled.1]; exact List.cons_ne_nil _ _, hsettled.2⟩
      · rw [hsettled.1]
        exact ⟨hsent.intact, hsent.incoming, hsent.outgoing⟩
    · rw [if_neg hzero] at hsent
      exact ⟨⟨h.minVersion_eq, h.accepted, h.returned, .inl (hfails hzero hagain)⟩,
        ⟨hsent.intact, hsent.incoming, hsent.outgoing⟩⟩
    · rw [if_neg hzero] at hsent
      exact ⟨⟨h.minVersion_eq, h.accepted, h.returned, h.settled⟩, hsent⟩

theorem Greeted.vcsRecvHello (h : w.Greeted T.Fails minVersion) (hlinked : w.Linked T d S P)
    (hS : BeginsWithHello S) (hstate : w.state = .recvHello)
    (hrun : vcsRecvHello (T.cls d) w fuel = some w') :
    w'.Greeted T.Fails minVersion ∧ w'.Linked T d S P := by
  have hsettled := h.settled
  unfold Settled at hsettled
  rw [hstate] at hsettled
  have hreturned := h.returned
  rw [hsettled.2] at hreturned
  unfold VconnRun.vcsRecvHello giveUp at hrun
  split at hrun
  next => cases hrun
  next b w₁ hrecv =>
    obtain ⟨hnext, transport, rfl, htype, hversion⟩ := hlinked.doRecv_hello hT hS hsettled.2 hrecv
    have hmin : min (ofpVersion.toNat : ℤ) b.version.toNat = ofpVersion.toNat := by
      rw [hversion, min_self]
    simp only [if_pos htype, hmin] at hrun
    obtain rfl := Option.some.inj hrun
    refine ⟨⟨h.minVersion_eq, h.accepted, hreturned, ?_⟩,
      ⟨hnext.intact, hnext.incoming, hnext.outgoing⟩⟩
    unfold Settled
    by_cases hlow : (ofpVersion.toNat : ℤ) < w.minVersion
    · simp only [if_pos hlow]
      exact ⟨hsettled.1, List.cons_ne_nil _ _, trivial, hlow⟩
    · simp only [if_neg hlow]
      exact ⟨hsettled.1, List.cons_ne_nil _ _, trivial, Int.not_lt.1 hlow⟩
  next retval w₁ hrecv =>
    obtain ⟨hnext, transport, rfl, hfails⟩ := hlinked.doRecv_hello hT hS hsettled.2 hrecv
    obtain rfl := Option.some.inj hrun
    split_ifs with hagain
    · exact ⟨⟨h.minVersion_eq, h.accepted, h.returned, .inl (hfails hagain)⟩,
        ⟨hnext.intact, hnext.incoming, hnext.outgoing⟩⟩
    · exact ⟨⟨h.minVersion_eq, h.accepted, h.returned, h.settled⟩, hnext⟩

theorem Greeted.vcsSendError (h : w.Greeted T.Fails minVersion) (hlinked : w.Linked T d S P)
    (hstate : w.state = .sendError) :
    (vcsSendError (T.cls d) w).Greeted T.Fails minVersion ∧
      (vcsSendError (T.cls d) w).Linked T d S P := by
  have hsettled := h.settled
  unfold Settled at hsettled
  rw [hstate] at hsettled
  obtain ⟨hne, harrived, hversion, hlow⟩ := hsettled
  unfold VconnRun.vcsSendError
  split
  next xid transport hxid =>
    have hnext := hlinked.quiet (hT.allocXid d hlinked.intact hxid)
    obtain ⟨hsent, -⟩ := hnext.doSend hT (helloFailedMessage xid w.minVersion w.version) true
    obtain ⟨retval, transport', hsend⟩ := doSend_spec (T.cls d) { w with transport }
      (helloFailedMessage xid w.minVersion w.version) true
    rw [hsend] at hsent ⊢
    simp only at hsent ⊢
    -- more messages of its own may follow, as the version is not accepted
    have hopened : ∀ m : OfpMessage × Bool, w.accepted ++ [m] = [] ∨
        ∃ xid rest, w.accepted ++ [m] = (helloMessage xid, true) :: rest ∧
          (w.minVersion ≤ ofpVersion.toNat → ∀ m ∈ rest, m.2 = false) := by
      intro m
      obtain ⟨xid, rest, hrest, -⟩ := h.accepted.resolve_left hne
      exact .inr ⟨xid, rest ++ [m], by rw [hrest]; rfl, fun hle => absurd hlow (not_lt_of_ge hle)⟩
    by_cases hzero : retval = 0
    · rw [if_pos hzero] at hsent ⊢
      rw [if_neg (not_not.2 hzero), if_neg (not_not.2 hzero), if_pos (by rw [hzero]; decide)]
      exact ⟨⟨h.minVersion_eq, hopened _, h.returned, .inr hlow⟩,
        ⟨hsent.intact, hsent.incoming, hsent.outgoing⟩⟩
    · rw [if_neg hzero] at hsent ⊢
      rw [if_pos hzero, if_pos hzero]
      split_ifs with hagain
      · exact ⟨⟨h.minVersion_eq, h.accepted, h.returned, .inr hlow⟩,
          ⟨hsent.intact, hsent.incoming, hsent.outgoing⟩⟩
      · exact ⟨⟨h.minVersion_eq, h.accepted, h.returned, h.settled⟩,
          ⟨hsent.intact, hsent.incoming, hsent.outgoing⟩⟩

/-! ### Calls -/

/-- A turn of the loop. -/
theorem Greeted.vcs (h : w.Greeted T.Fails minVersion) (hlinked : w.Linked T d S P)
    (hS : BeginsWithHello S) (hrun : vcs (T.cls d) w fuel = some w') :
    w'.Greeted T.Fails minVersion ∧ w'.Linked T d S P := by
  unfold VconnRun.vcs at hrun
  split at hrun
  next hstate => exact Option.some.inj hrun ▸ h.vcsConnecting hT hlinked hstate
  next hstate => exact Option.some.inj hrun ▸ h.vcsSendHello hT hlinked hstate
  next hstate => exact h.vcsRecvHello hT hlinked hS hstate hrun
  next hstate => exact Option.some.inj hrun ▸ h.vcsSendError hT hlinked hstate
  next => exact Option.some.inj hrun ▸ ⟨h, hlinked⟩
  next => exact Option.some.inj hrun ▸ ⟨h, hlinked⟩

theorem Greeted.vconnConnect {retval : ℤ} (h : w.Greeted T.Fails minVersion)
    (hlinked : w.Linked T d S P) (hS : BeginsWithHello S)
    (hrun : vconnConnect (T.cls d) w fuel = some (retval, w')) :
    w'.Greeted T.Fails minVersion ∧ w'.Linked T d S P :=
  vconnConnect_induct (fun w => w.Greeted T.Fails minVersion ∧ w.Linked T d S P)
    (fun h hvcs => h.1.vcs hT h.2 hS hvcs) ⟨h, hlinked⟩ hrun

omit hT in
/-- What an established connection has done. -/
theorem Greeted.connected (h : w.Greeted T.Fails minVersion) (hstate : w.state = .connected) :
    w.accepted ≠ [] ∧ w.arrived ≠ [] ∧ w.version = ofpVersion.toNat ∧
      w.minVersion ≤ ofpVersion.toNat := by
  have hsettled := h.settled
  unfold Settled at hsettled
  rwa [hstate] at hsettled

omit hT in
/-- A message of the caller. -/
theorem Greeted.doSend (h : w.Greeted T.Fails minVersion) (hstate : w.state = .connected)
    (msg : OfpMessage) :
    (doSend (T.cls d) w msg false).2.Greeted T.Fails minVersion := by
  obtain ⟨hne, hsettled⟩ := h.connected hstate
  obtain ⟨retval, transport, hsend⟩ := doSend_spec (T.cls d) w msg false
  obtain ⟨xid, rest, hrest, hown⟩ := h.accepted.resolve_left hne
  rw [hsend]
  by_cases hzero : retval = 0
  · rw [if_pos hzero]
    refine ⟨h.minVersion_eq,
      .inr ⟨xid, rest ++ [(msg, false)], by rw [hrest]; rfl, fun hle => ?_⟩, h.returned, ?_⟩
    · exact List.forall_mem_append.2 ⟨hown hle, List.forall_mem_singleton.2 rfl⟩
    · unfold Settled
      simp only [hstate]
      exact ⟨List.append_ne_nil_of_left_ne_nil hne _, hsettled⟩
  · rw [if_neg hzero]
    exact ⟨h.minVersion_eq, h.accepted, h.returned, h.settled⟩

/-- `vconn_recv`. -/
theorem Greeted.vconnRecv {r : Except ℤ OfpMessage} (h : w.Greeted T.Fails minVersion)
    (horderly : w.Orderly) (hlinked : w.Linked T d S P) (hS : BeginsWithHello S)
    (hrun : vconnRecv (T.cls d) w fuel = some (r, w')) :
    w'.Greeted T.Fails minVersion ∧ w'.Linked T d S P := by
  unfold VconnRun.vconnRecv at hrun
  split at hrun
  next => cases hrun
  next retval w₁ hconnect =>
    have hestablished := (orderly_vconnConnect horderly hconnect).2
    obtain ⟨hnext, hlinked'⟩ := h.vconnConnect hT hlinked hS hconnect
    split at hrun
    next =>
      obtain ⟨-, rfl⟩ := Prod.mk.inj (Option.some.inj hrun)
      exact ⟨hnext, hlinked'⟩
    next hretval =>
      have hstate := hestablished (not_not.1 hretval)
      obtain ⟨hne, harrived, hversion, hmin⟩ := hnext.connected hstate
      have hnonneg : 0 ≤ w₁.version := hversion ▸ Int.natCast_nonneg _
      have hdrop : ∀ msg, (w₁.arrived ++ [msg]).drop 1 = w₁.arrived.drop 1 ++ [msg] := fun msg =>
        List.drop_append_of_le_length (List.length_pos_iff.2 harrived)
      have hreturned : ∀ msg, passes ofpVersion.toNat msg = false →
          w₁.returned = ((w₁.arrived ++ [msg]).drop 1).filter (passes ofpVersion.toNat) := by
        intro msg hmsg
        rw [hdrop, List.filter_append, ← hnext.returned, List.filter_singleton, hmsg]
        simp
      split at hrun
      next => cases hrun
      next msg w₂ hrecv =>
        obtain ⟨-, rfl⟩ := Prod.mk.inj (Option.some.inj hrun)
        obtain ⟨hlinked₂, transport, rfl, hpasses⟩ := hlinked'.doRecv_settled hT hnonneg hrecv
        rw [hversion] at hpasses
        refine ⟨⟨hnext.minVersion_eq, hnext.accepted, ?_, ?_⟩,
          ⟨hlinked₂.intact, hlinked₂.incoming, hlinked₂.outgoing⟩⟩
        · show w₁.returned ++ [msg] = _
          rw [hdrop, List.filter_append, ← hnext.returned, List.filter_singleton, hpasses]
          rfl
        · unfold Settled
          simp only [hstate]
          exact ⟨hne, List.append_ne_nil_of_left_ne_nil harrived _, hversion, hmin⟩
      next errno w₂ hrecv =>
        obtain ⟨-, rfl⟩ := Prod.mk.inj (Option.some.inj hrun)
        obtain ⟨hlinked₂, transport, rfl | ⟨msg, rfl, hpasses⟩⟩ :=
          hlinked'.doRecv_settled hT hnonneg hrecv
        · exact ⟨⟨hnext.minVersion_eq, hnext.accepted, hnext.returned, hnext.settled⟩, hlinked₂⟩
        · -- the message has been dropped
          rw [hversion] at hpasses
          refine ⟨⟨hnext.minVersion_eq, hnext.accepted, hreturned msg hpasses, ?_⟩, hlinked₂⟩
          unfold Settled
          simp only [hstate]
          exact ⟨hne, List.append_ne_nil_of_left_ne_nil harrived _, hversion, hmin⟩

/-- `vconn_send`. -/
theorem Greeted.vconnSend {msg : OfpMessage} {retval : ℤ} (h : w.Greeted T.Fails minVersion)
    (horderly : w.Orderly) (hlinked : w.Linked T d S P) (hS : BeginsWithHello S)
    (hrun : vconnSend (T.cls d) w fuel msg = some (retval, w')) :
    w'.Greeted T.Fails minVersion ∧ w'.Linked T d S P := by
  unfold VconnRun.vconnSend at hrun
  split at hrun
  next => cases hrun
  next retval₁ w₁ hconnect =>
    have hestablished := (orderly_vconnConnect horderly hconnect).2
    obtain ⟨hnext, hlinked'⟩ := h.vconnConnect hT hlinked hS hconnect
    have hrun := Option.some.inj hrun
    split_ifs at hrun with hretval
    · obtain ⟨-, rfl⟩ := Prod.mk.inj hrun
      exact ⟨hnext, hlinked'⟩
    · have hstate := hestablished (not_not.1 hretval)
      have hsent := hnext.doSend (T := T) (d := d) hstate msg
      have hlinked₂ := (hlinked'.doSend hT msg false).1
      rw [hrun] at hsent hlinked₂
      exact ⟨hsent, hlinked₂⟩

/-- Every call, and what happens to the transport meanwhile. -/
theorem Greeted.next {e : Event σ} {retval : ℤ} (h : w.Greeted T.Fails minVersion)
    (horderly : w.Orderly) (hlinked : w.Linked T d S P) (hS : BeginsWithHello S)
    (hquiet : ∀ t, e = .transport t → T.Quiet w.transport t)
    (hrun : next (T.cls d) w fuel e = some (retval, w')) :
    w'.Greeted T.Fails minVersion ∧ w'.Linked T d S P := by
  cases e with
  | connect => exact h.vconnConnect hT hlinked hS hrun
  | recv =>
    obtain ⟨r, hrecv⟩ := exists_vconnRecv hrun
    exact h.vconnRecv hT horderly hlinked hS hrecv
  | send msg => exact h.vconnSend hT horderly hlinked hS hrun
  | transport t =>
    obtain ⟨-, rfl⟩ := Prod.mk.inj (Option.some.inj hrun)
    exact ⟨⟨h.minVersion_eq, h.accepted, h.returned, h.settled⟩, hlinked.quiet (hquiet t rfl)⟩

/-! ### Progress -/

omit hT in
/-- The loop goes on when the state has changed. -/
theorem connectLoop_of_vcs {w₁ : VconnRun σ} (hconnected : w.state ≠ .connected)
    (hdisconnected : w.state ≠ .disconnected) (hvcs : VconnRun.vcs (T.cls d) w fuel = some w₁)
    (hne : w₁.state ≠ w.state) (turns : ℕ) :
    VconnRun.connectLoop (T.cls d) fuel (turns + 1) w =
      VconnRun.connectLoop (T.cls d) fuel turns w₁ := by
  rw [VconnRun.connectLoop]
  split
  next hstate => exact absurd hstate hconnected
  next hstate => exact absurd hstate hdisconnected
  all_goals
    rw [hvcs]
    exact if_pos hne

variable (hprompt : T.Prompt)

include hprompt

/-- Over a prompt transport the HELLO of the peer is received when it is under way. -/
theorem vcs_recvHello (h : w.Greeted T.Fails minVersion) (hlinked : w.Linked T d S P)
    (hS : BeginsWithHello S) (hmin : minVersion ≤ ofpVersion.toNat)
    (hstate : w.state = .recvHello) :
    ∃ w', vcs (T.cls d) w 1 = some w' ∧
      (w'.state = .connected ∨
        w'.state = .recvHello ∧ T.inFlight d w.transport = []) := by
  have hsettled := h.settled
  unfold Settled at hsettled
  rw [hstate] at hsettled
  have hvcs : vcs (T.cls d) w 1 = VconnRun.vcsRecvHello (T.cls d) w 1 := by
    unfold VconnRun.vcs
    rw [hstate]
  rw [hvcs]
  unfold VconnRun.vcsRecvHello VconnRun.doRecv
  cases hrecv : (T.cls d).recv w.transport with
  | mk result transport =>
    cases result with
    | error errno =>
      obtain ⟨-, hfails⟩ := hT.recv_error d hlinked.intact hrecv
      have hagain : errno.1 = eAgain := by
        by_contra hne
        exact hprompt.never _ (hfails hne)
      refine ⟨{ w with transport }, by simp [hagain], .inr ⟨hstate, ?_⟩⟩
      by_contra hne
      obtain ⟨msg, t', hok⟩ := hprompt.recv d hlinked.intact hne
      rw [hrecv] at hok
      cases hok
    | ok msg =>
      obtain ⟨-, hin, -⟩ := hT.recv_ok d hlinked.intact hrecv
      have hincoming := hlinked.incoming
      rw [hsettled.2, hin] at hincoming
      obtain ⟨xid, hxid⟩ := hS msg.bytes (by rw [← hincoming]; rfl)
      obtain ⟨htype, hversion⟩ := hello_of_bytes hxid
      have hpasses : passes w.version msg = true := by
        simp [passes, versionlessTypes, htype]
      have hlow : ¬ ((ofpVersion.toNat : ℤ) < w.minVersion) :=
        not_lt_of_ge (h.minVersion_eq.trans_le hmin)
      simp only [hpasses, if_true, htype, hversion, min_self, if_neg hlow]
      exact ⟨_, rfl, .inl rfl⟩

theorem connectLoop_recvHello (h : w.Greeted T.Fails minVersion) (hlinked : w.Linked T d S P)
    (hS : BeginsWithHello S) (hmin : minVersion ≤ ofpVersion.toNat)
    (hstate : w.state = .recvHello) (turns : ℕ) :
    ∃ r w', VconnRun.connectLoop (T.cls d) 1 (turns + 2) w = some (r, w') ∧
      (w'.state = .connected ∨
        w'.state = .recvHello ∧ T.inFlight d w.transport = []) := by
  obtain ⟨w₁, hvcs, hconnected | ⟨hsame, hnil⟩⟩ :=
    vcs_recvHello hT hprompt h hlinked hS hmin hstate
  · refine ⟨0, w₁, ?_, .inl hconnected⟩
    rw [connectLoop_of_vcs (by rw [hstate]; decide) (by rw [hstate]; decide) hvcs
      (by rw [hconnected, hstate]; decide), VconnRun.connectLoop]
    simp only [hconnected]
  · refine ⟨eAgain, w₁, ?_, .inr ⟨hsame, hnil⟩⟩
    rw [VconnRun.connectLoop]
    simp only [hstate, hvcs, hsame, ne_eq, not_true, if_false]

theorem connectLoop_sendHello (h : w.Greeted T.Fails minVersion) (hlinked : w.Linked T d S P)
    (hS : BeginsWithHello S) (hmin : minVersion ≤ ofpVersion.toNat)
    (hstate : w.state = .sendHello) (turns : ℕ) :
    ∃ r w', VconnRun.connectLoop (T.cls d) 1 (turns + 3) w = some (r, w') ∧
      (w'.state = .connected ∨
        w'.state = .recvHello ∧ T.inFlight d w.transport = []) := by
  obtain ⟨hnext, hlinked'⟩ := h.vcsSendHello hT hlinked hstate
  have hvcs : VconnRun.vcs (T.cls d) w 1 = some (VconnRun.vcsSendHello (T.cls d) w) := by
    unfold VconnRun.vcs
    rw [hstate]
  have hsent : (VconnRun.vcsSendHello (T.cls d) w).state = .recvHello ∧
      T.inFlight d (VconnRun.vcsSendHello (T.cls d) w).transport = T.inFlight d w.transport := by
    unfold VconnRun.vcsSendHello
    split
    next xid transport hxid =>
      have hquiet := hT.allocXid d hlinked.intact hxid
      have hzero := hprompt.send d (helloMessage xid) hquiet.1
      have hin := (hT.send d (helloMessage xid) hquiet.1 rfl).2.1
      unfold VconnRun.doSend
      simp only [hzero, if_true]
      exact ⟨trivial, hin.trans (hquiet.2 d)⟩
  obtain ⟨r, w', hrun, hcases⟩ := connectLoop_recvHello hT hprompt hnext hlinked' hS
    hmin hsent.1 turns
  rw [hsent.2] at hcases
  refine ⟨r, w', ?_, hcases⟩
  rw [connectLoop_of_vcs (by rw [hstate]; decide) (by rw [hstate]; decide) hvcs
    (by rw [hsent.1, hstate]; decide), hrun]

theorem connectLoop_connecting (h : w.Greeted T.Fails minVersion) (hlinked : w.Linked T d S P)
    (hS : BeginsWithHello S) (hmin : minVersion ≤ ofpVersion.toNat)
    (hstate : w.state = .connecting) (turns : ℕ) :
    ∃ r w', VconnRun.connectLoop (T.cls d) 1 (turns + 4) w = some (r, w') ∧
      (w'.state = .connected ∨
        w'.state = .recvHello ∧ T.inFlight d w.transport = []) := by
  obtain ⟨hnext, hlinked'⟩ := h.vcsConnecting hT hlinked hstate
  have hvcs : VconnRun.vcs (T.cls d) w 1 = some (VconnRun.vcsConnecting (T.cls d) w) := by
    unfold VconnRun.vcs
    rw [hstate]
  have hconnect : (VconnRun.vcsConnecting (T.cls d) w).state = .sendHello ∧
      T.inFlight d (VconnRun.vcsConnecting (T.cls d) w).transport = T.inFlight d w.transport := by
    have hzero := hprompt.connect d hlinked.intact
    have hquiet := (hT.connect d hlinked.intact rfl).1
    unfold VconnRun.vcsConnecting
    simp only [hzero, if_true]
    exact ⟨trivial, hquiet.2 d⟩
  obtain ⟨r, w', hrun, hcases⟩ := connectLoop_sendHello hT hprompt hnext hlinked' hS
    hmin hconnect.1 turns
  rw [hconnect.2] at hcases
  refine ⟨r, w', ?_, hcases⟩
  rw [connectLoop_of_vcs (by rw [hstate]; decide) (by rw [hstate]; decide) hvcs
    (by rw [hconnect.1, hstate]; decide), hrun]

/-- A call of `vconn_connect` sends the HELLO, and receives that of the peer when it is there. -/
theorem vconnConnect_of_prompt (h : w.Greeted T.Fails minVersion) (hlinked : w.Linked T d S P)
    (hS : BeginsWithHello S) (hmin : minVersion ≤ ofpVersion.toNat) (hnonneg : 0 ≤ minVersion) :
    ∃ r w', VconnRun.vconnConnect (T.cls d) w 1 = some (r, w') ∧ w'.accepted ≠ [] ∧
      (S ≠ [] → w'.state = .connected) := by
  have hsettled := h.settled
  unfold Settled at hsettled
  have hloop : VconnRun.vconnConnect (T.cls d) w 1 = VconnRun.connectLoop (T.cls d) 1 6 w :=
    if_neg (not_lt_of_ge (h.minVersion_eq ▸ hnonneg))
  have hcases : ∃ r w', VconnRun.connectLoop (T.cls d) 1 6 w = some (r, w') ∧
      (w'.state = .connected ∨ w'.state = .recvHello ∧
        w.arrived = [] ∧ T.inFlight d w.transport = []) := by
    cases hstate : w.state with
    | connecting =>
      rw [hstate] at hsettled
      obtain ⟨r, w', hrun, hcases⟩ :=
        connectLoop_connecting hT hprompt h hlinked hS hmin hstate 2
      exact ⟨r, w', hrun, hcases.imp_right fun hc => ⟨hc.1, hsettled.2, hc.2⟩⟩
    | sendHello =>
      rw [hstate] at hsettled
      obtain ⟨r, w', hrun, hcases⟩ := connectLoop_sendHello hT hprompt h hlinked hS hmin hstate 3
      exact ⟨r, w', hrun, hcases.imp_right fun hc => ⟨hc.1, hsettled.2, hc.2⟩⟩
    | recvHello =>
      rw [hstate] at hsettled
      obtain ⟨r, w', hrun, hcases⟩ := connectLoop_recvHello hT hprompt h hlinked hS hmin hstate 4
      exact ⟨r, w', hrun, hcases.imp_right fun hc => ⟨hc.1, hsettled.2, hc.2⟩⟩
    | connected =>
      refine ⟨0, w, ?_, .inl hstate⟩
      rw [VconnRun.connectLoop]
      simp only [hstate]
    | sendError =>
      rw [hstate] at hsettled
      have hlow := hsettled.2.2.2
      rw [h.minVersion_eq] at hlow
      omega
    | disconnected =>
      rw [hstate] at hsettled
      have hlow := hsettled.resolve_left (hprompt.never _)
      rw [h.minVersion_eq] at hlow
      omega
  obtain ⟨r, w', hrun, hcases⟩ := hcases
  have hnext := (h.vconnConnect hT hlinked hS (hloop.trans hrun)).1.settled
  unfold Settled at hnext
  refine ⟨r, w', hloop.trans hrun, ?_, fun hne => ?_⟩
  · rcases hcases with hstate | ⟨hstate, -⟩
    · rw [hstate] at hnext
      exact hnext.1
    · rw [hstate] at hnext
      exact hnext.1
  · refine hcases.resolve_right fun hempty => hne ?_
    rw [← hlinked.incoming, hempty.2.1, hempty.2.2]
    rfl

end Fifo

end VconnRun

end OfAgent
