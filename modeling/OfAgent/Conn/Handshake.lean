import OfAgent.Conn.Counters
import OfAgent.Conn.Stream
import OfAgent.Packet.Tags

/-!
# The handshake of a connection

`vconn.c`: both ends of a connection send a HELLO first and settle on a version. The handshake
advances with every call, as far as the transport lets it.

* `VconnClass`: the functions of a transport, which may do what they like.
* `Vconn`, `VconnRun`: `struct vconn`, and a record of the messages beside it.
* `VconnRun.vconnConnect`, `VconnRun.vconnRecv`, `VconnRun.vconnSend`: the functions of the file, on
  top of one function for each state.
* `VconnRun.Orderly`: what the record says in each state. `VconnRun.orderly_of_reachable`: it holds
  in every run.
* `VconnRun.handshake`: nothing but the handshake comes before the messages of the callers.
-/

namespace OfAgent

/-! ### State -/

/-- `enum vconn_state`. -/
inductive VconnState
  | connecting
  | sendHello
  | recvHello
  | connected
  | sendError
  | disconnected
  deriving DecidableEq, Repr

/-- `struct vconn`, without what only the transport uses. -/
structure Vconn where
  /-- The state. -/
  state : VconnState
  /-- Why the connection has been closed. -/
  error : ℤ
  /-- The first version that is accepted. -/
  minVersion : ℤ
  /-- The version that both ends have settled on. -/
  version : ℤ
  /-- Counters of received messages. -/
  ofpsRcvd : OfpStat
  /-- Counters of sent messages. -/
  ofpsSent : OfpStat

/-- A positive errno value, or `EOF`. -/
abbrev Errno : Type := { errno : ℤ // errno ≠ 0 }

/-- `struct vconn_class`, on a state of the transport. -/
structure VconnClass (τ : Type*) where
  /-- `connect`. -/
  connect : τ → ℤ × τ
  /-- `recv`. -/
  recv : τ → Except Errno OfpMessage × τ
  /-- `send`. -/
  send : τ → OfpMessage → ℤ × τ
  /-- `alloc_xid`, which all connections share. -/
  allocXid : τ → BitVec 32 × τ

/-- A connection with its transport and the messages that it has seen. -/
structure VconnRun (τ : Type*) extends Vconn where
  /-- The transport. -/
  transport : τ
  /-- The messages that the transport has accepted, and whether they are the connection's own. -/
  accepted : List (OfpMessage × Bool)
  /-- The messages that the transport has returned. -/
  arrived : List OfpMessage
  /-- Those of them that `do_recv` has let through. -/
  passed : List OfpMessage
  /-- Those that `vconn_recv` has returned. -/
  returned : List OfpMessage

/-! ### Messages of the connection itself -/

/-- What `put_openflow_xid` writes in front of a message. -/
def ofpHeaderBytes (type : Byte) (length : BitVec 16) (xid : BitVec 32) : List Byte :=
  [ofpVersion, type] ++ (Memory.bytes16 length ++ Memory.bytes32 xid)

theorem be16_ofpHeaderBytes (type : Byte) (length : BitVec 16) (xid : BitVec 32)
    (rest : List Byte) : be16 (ofpHeaderBytes type length xid ++ rest) 2 = length := by
  have hright := be16_append_right [ofpVersion, type]
    (Memory.bytes16 length ++ (Memory.bytes32 xid ++ rest)) 0
  rw [Memory.be16_bytes16] at hright
  simpa [ofpHeaderBytes] using hright

/-- The HELLO that `vcs_send_hello` makes. -/
def helloMessage (xid : BitVec 32) : OfpMessage :=
  .ofBytes (ofpHeaderBytes 0 8 xid) (by
    have hlen := be16_ofpHeaderBytes 0 8 xid []
    rw [List.append_nil] at hlen
    rw [hlen]
    decide)

/-- `%02x`. -/
def hex02 (n : BitVec 32) : List Char :=
  let digits := Nat.toDigits 16 n.toNat
  List.replicate (2 - digits.length) '0' ++ digits

/-- What `vcs_send_error` prints into its 128 bytes. -/
def helloFailedText (minVersion version : ℤ) : List Byte :=
  let text := "We support versions 0x".toList ++ hex02 (.ofInt 32 minVersion) ++ " to 0x".toList ++
    hex02 (ofpVersion.zeroExtend 32) ++
    " inclusive but you support no later than version 0x".toList ++ hex02 (.ofInt 32 version) ++
    ".".toList
  (text.take 127).map fun c => BitVec.ofNat 8 c.toNat

/-- The error that `vcs_send_error` makes: `OFPET_HELLO_FAILED`, `OFPHFC_INCOMPATIBLE`. -/
def helloFailedMessage (xid : BitVec 32) (minVersion version : ℤ) : OfpMessage :=
  let text := helloFailedText minVersion version
  .ofBytes (ofpHeaderBytes 1 (.ofNat 16 (sizeofOfpErrorMsg + text.length)) xid ++
      (Memory.bytes16 0 ++ Memory.bytes16 0 ++ text)) (by
    have htext : text.length ≤ 127 := by
      simp only [text, helloFailedText, List.length_map]
      exact List.length_take_le _ _
    rw [be16_ofpHeaderBytes, BitVec.toNat_ofNat, sizeofOfpErrorMsg, sizeofOfpHeader]
    omega)

theorem type_helloMessage (xid : BitVec 32) : (helloMessage xid).type = some .hello := rfl

theorem type_helloFailedMessage (xid : BitVec 32) (minVersion version : ℤ) :
    (helloFailedMessage xid minVersion version).type = some .error := rfl

/-! ### Sending and receiving -/

/-- The types that `do_recv` drops as long as there is no version. -/
def earlyTypes : List OfpType := [.packetIn, .flowRemoved, .portStatus]

/-- `do_recv` lets the message through. -/
def passes (version : ℤ) (msg : OfpMessage) : Bool :=
  (msg.version.toNat : ℤ) == version || versionlessTypes.any fun t => msg.type == some t

namespace VconnRun

variable {τ : Type*} (cls : VconnClass τ) (w : VconnRun τ)

/-- `do_send`, which every message here may pass. -/
def doSend (msg : OfpMessage) (own : Bool) : ℤ × VconnRun τ :=
  let (retval, transport) := cls.send w.transport msg
  (retval,
    { w with
      transport
      accepted := if retval = 0 then w.accepted ++ [(msg, own)] else w.accepted })

/-- `do_recv`, with fuel for the messages that it drops. -/
def doRecv : ℕ → VconnRun τ → Option (Except Errno OfpMessage × VconnRun τ)
  | 0, _ => none
  | fuel + 1, w =>
      match cls.recv w.transport with
      | (.error errno, transport) => some (.error errno, { w with transport })
      | (.ok msg, transport) =>
          let w := { w with transport, arrived := w.arrived ++ [msg] }
          if passes w.version msg then some (.ok msg, { w with passed := w.passed ++ [msg] })
          else if w.version < 0 ∧ (earlyTypes.any fun t => msg.type == some t) = true then
            doRecv fuel w
          else some (.error ⟨eProto, by decide⟩, w)

/-! ### The states -/

/-- The connection is given up. -/
def giveUp (error : ℤ) : VconnRun τ := { w with state := .disconnected, error }

/-- `vcs_connecting`. -/
def vcsConnecting : VconnRun τ :=
  let (retval, transport) := cls.connect w.transport
  let w := { w with transport }
  if retval = 0 then { w with state := .sendHello }
  else if retval ≠ eAgain then giveUp w retval
  else w

/-- `vcs_send_hello`. -/
def vcsSendHello : VconnRun τ :=
  let (xid, transport) := cls.allocXid w.transport
  let (retval, w) := doSend cls { w with transport } (helloMessage xid) true
  if retval = 0 then
    { w with state := .recvHello, ofpsSent := (w.ofpsSent.inc .total).inc .hello }
  else if retval ≠ eAgain then giveUp w retval
  else w

/-- `vcs_recv_hello`. -/
def vcsRecvHello (fuel : ℕ) : Option (VconnRun τ) :=
  match doRecv cls fuel w with
  | none => none
  | some (.ok b, w) =>
      if b.type = some .hello then
        let version := min (ofpVersion.toNat : ℤ) b.version.toNat
        some
          { w with
            version
            state := if version < w.minVersion then .sendError else .connected
            ofpsRcvd := (w.ofpsRcvd.inc .total).inc .hello }
      else some (giveUp w eProto)
  | some (.error retval, w) => some (if retval ≠ eAgain then giveUp w retval else w)

/-- `vcs_send_error`. -/
def vcsSendError : VconnRun τ :=
  let (xid, transport) := cls.allocXid w.transport
  let (retval, w) :=
    doSend cls { w with transport } (helloFailedMessage xid w.minVersion w.version) true
  -- an error is counted when it has not been sent
  let w :=
    if retval ≠ 0 then
      { w with
        ofpsSent := (((w.ofpsSent.inc .total).inc .error).inc (.errorType .helloFail)).inc
          (.errorCode .hfIncompat) }
    else w
  if retval ≠ eAgain then giveUp w (if retval ≠ 0 then retval else eProto) else w

/-- A turn of the loop of `vconn_connect`, in a state that it does not leave the loop in. -/
def vcs (fuel : ℕ) : Option (VconnRun τ) :=
  match w.state with
  | .connecting => some (vcsConnecting cls w)
  | .sendHello => some (vcsSendHello cls w)
  | .recvHello => vcsRecvHello cls w fuel
  | .sendError => some (vcsSendError cls w)
  | .connected | .disconnected => some w

/-- The loop of `vconn_connect`, for some turns. -/
def connectLoop (fuel : ℕ) : ℕ → VconnRun τ → Option (ℤ × VconnRun τ)
  | 0, _ => none
  | turns + 1, w =>
      match w.state with
      | .connected => some (0, w)
      | .disconnected => some (w.error, w)
      | .connecting | .sendHello | .recvHello | .sendError =>
          match vcs cls w fuel with
          | none => none
          | some w' => if w'.state ≠ w.state then connectLoop fuel turns w' else some (eAgain, w')

/-- `vconn_connect`. Six turns are enough. -/
def vconnConnect (fuel : ℕ) : Option (ℤ × VconnRun τ) :=
  if w.minVersion < 0 then none else connectLoop cls fuel 6 w

/-- `vconn_recv`. -/
def vconnRecv (fuel : ℕ) : Option (Except ℤ OfpMessage × VconnRun τ) :=
  match vconnConnect cls w fuel with
  | none => none
  | some (retval, w) =>
      if retval ≠ 0 then some (.error retval, w)
      else
        match doRecv cls fuel w with
        | none => none
        | some (.ok msg, w) => some (.ok msg, { w with returned := w.returned ++ [msg] })
        | some (.error errno, w) => some (.error errno, w)

/-- `vconn_send`. -/
def vconnSend (fuel : ℕ) (msg : OfpMessage) : Option (ℤ × VconnRun τ) :=
  match vconnConnect cls w fuel with
  | none => none
  | some (retval, w) => some (if retval ≠ 0 then (retval, w) else doSend cls w msg false)

/-! ### Runs -/

/-- `vconn_init`, and the version that `vconn_open` or `pvconn_accept` asks for. -/
def init (connectStatus minVersion : ℤ) (transport : τ) : VconnRun τ where
  state :=
    if connectStatus = eAgain then .connecting
    else if connectStatus = 0 then .sendHello
    else .disconnected
  error := connectStatus
  minVersion := minVersion
  version := -1
  ofpsRcvd := .zero
  ofpsSent := .zero
  transport := transport
  accepted := []
  arrived := []
  passed := []
  returned := []

/-- What happens to a connection. -/
inductive Event (τ : Type*)
  /-- `vconn_connect`. -/
  | connect
  /-- `vconn_recv`. -/
  | recv
  /-- `vconn_send`. -/
  | send (msg : OfpMessage)
  /-- Something happens to the transport. -/
  | transport (transport : τ)

/-- What a call returns, and the connection behind it. -/
def next (fuel : ℕ) : Event τ → Option (ℤ × VconnRun τ)
  | .connect => vconnConnect cls w fuel
  | .recv =>
      match vconnRecv cls w fuel with
      | none => none
      | some (.ok _, w) => some (0, w)
      | some (.error retval, w) => some (retval, w)
  | .send msg => vconnSend cls w fuel msg
  | .transport transport => some (eAgain, { w with transport })

/-- The step relation. -/
def Step (w : VconnRun τ) (e : Event τ) (w' : VconnRun τ) : Prop :=
  ∃ fuel retval, next cls w fuel e = some (retval, w')

/-! ### What the record says -/

/-- A HELLO of the connection has been accepted first, and no other one. -/
def HelloSent : Prop :=
  ∃ hello rest, w.accepted = (hello, true) :: rest ∧ hello.type = some .hello ∧
    ∀ m ∈ rest, m.2 = true → m.1.type ≠ some .hello

/-- A HELLO of the peer has arrived and has settled the version, and what has been returned arrived
behind it. -/
def HelloReceived : Prop :=
  ∃ early hello later, w.arrived = early ++ hello :: later ∧
    (∀ m ∈ early, m.type ≠ some .hello) ∧ hello.type = some .hello ∧
      w.returned.Sublist later ∧ w.version = min (ofpVersion.toNat : ℤ) hello.version.toNat

/-- What the messages are in each state. -/
def Orderly : Prop :=
  match w.state with
  | .connecting | .sendHello =>
      w.accepted = [] ∧ w.returned = [] ∧ ∀ m ∈ w.arrived, m.type ≠ some .hello
  | .recvHello =>
      w.HelloSent ∧ w.returned = [] ∧ ∀ m ∈ w.arrived, m.type ≠ some .hello
  | .connected => w.HelloSent ∧ w.HelloReceived ∧ w.minVersion ≤ w.version
  | .sendError => w.HelloSent ∧ w.returned = []
  | .disconnected =>
      (w.accepted = [] ∨ w.HelloSent) ∧ (w.returned = [] ∨ w.HelloReceived) ∧ w.error ≠ 0

variable {w} {w' : VconnRun τ} {fuel : ℕ}

/-- What it says in every state. -/
theorem Orderly.weak (h : w.Orderly) :
    (w.accepted = [] ∨ w.HelloSent) ∧ (w.returned = [] ∨ w.HelloReceived) := by
  unfold Orderly at h
  split at h
  next => exact ⟨.inl h.1, .inl h.2.1⟩
  next => exact ⟨.inl h.1, .inl h.2.1⟩
  next => exact ⟨.inr h.1, .inl h.2.1⟩
  next => exact ⟨.inr h.1, .inr h.2.1⟩
  next => exact ⟨.inr h.1, .inl h.2⟩
  next => exact ⟨h.1, h.2.1⟩

theorem orderly_giveUp {error : ℤ} (h : (w.accepted = [] ∨ w.HelloSent) ∧
    (w.returned = [] ∨ w.HelloReceived)) (herror : error ≠ 0) : (giveUp w error).Orderly :=
  ⟨h.1, h.2, herror⟩

/-! ### Sending and receiving -/

variable {cls}

/-- What `do_recv` does. -/
theorem doRecv_spec {r : Except Errno OfpMessage} (h : doRecv cls fuel w = some (r, w')) :
    ∃ transport dropped, (∀ m ∈ dropped, m.type ≠ some .hello) ∧
      w' =
        match r with
        | .ok msg =>
            { w with
              transport
              arrived := w.arrived ++ (dropped ++ [msg])
              passed := w.passed ++ [msg] }
        | .error _ => { w with transport, arrived := w.arrived ++ dropped } := by
  induction fuel generalizing w with
  | zero => cases h
  | succ fuel ih =>
    rw [doRecv] at h
    split at h
    next errno transport _ =>
      cases h
      exact ⟨transport, [], List.forall_mem_nil _, by simp⟩
    next msg transport _ =>
      -- a hello has any version
      have hnot : passes w.version msg = false → msg.type ≠ some .hello := by
        intro hpasses heq
        simp [passes, versionlessTypes, heq] at hpasses
      simp only at h
      split at h
      next =>
        cases h
        exact ⟨transport, [], List.forall_mem_nil _, rfl⟩
      next hpasses =>
        have hmsg := hnot (Bool.eq_false_iff.2 hpasses)
        split at h
        next =>
          obtain ⟨transport', dropped, hdropped, rfl⟩ := ih h
          refine ⟨transport', msg :: dropped, List.forall_mem_cons.2 ⟨hmsg, hdropped⟩, ?_⟩
          cases r <;> simp
        next =>
          cases h
          exact ⟨transport, [msg], List.forall_mem_singleton.2 hmsg, rfl⟩

theorem doSend_spec (cls : VconnClass τ) (w : VconnRun τ) (msg : OfpMessage) (own : Bool) :
    ∃ retval transport, doSend cls w msg own =
      (retval,
        { w with
          transport
          accepted := if retval = 0 then w.accepted ++ [(msg, own)] else w.accepted }) :=
  ⟨_, _, rfl⟩

/-- Other messages may follow the HELLO. -/
theorem HelloSent.doSend (h : w.HelloSent) {msg : OfpMessage} {own : Bool}
    (hmsg : own = true → msg.type ≠ some .hello) : (doSend cls w msg own).2.HelloSent := by
  obtain ⟨hello, rest, haccepted, hhello, hrest⟩ := h
  obtain ⟨retval, transport, hsend⟩ := doSend_spec cls w msg own
  rw [hsend]
  by_cases hzero : retval = 0
  · refine ⟨hello, rest ++ [(msg, own)], ?_, hhello, ?_⟩
    · rw [if_pos hzero, haccepted, List.cons_append]
    · exact List.forall_mem_append.2 ⟨hrest, List.forall_mem_singleton.2 hmsg⟩
  · exact ⟨hello, rest, (if_neg hzero).trans haccepted, hhello, hrest⟩

/-! ### Turns -/

/-- How many turns the loop may still take. -/
def rank : VconnState → ℕ
  | .connecting => 5
  | .sendHello => 4
  | .recvHello => 3
  | .sendError => 2
  | .connected | .disconnected => 1

/-- A turn that leaves the state behind makes progress. -/
theorem rank_vcs (h : vcs cls w fuel = some w') :
    w'.state = w.state ∨ rank w'.state < rank w.state := by
  -- a failure in any state ends the handshake
  have hclose : ∀ s : VconnState, s ≠ .connected → s ≠ .disconnected →
      rank .disconnected < rank s := by
    intro s
    cases s <;> decide
  have hconnecting : rank .sendHello < rank .connecting := by decide
  have hsendHello : rank .recvHello < rank .sendHello := by decide
  have hrecvHello : rank .sendError < rank .recvHello ∧ rank .connected < rank .recvHello := by
    decide
  unfold vcs at h
  split at h
  next hstate =>
    rw [← Option.some.inj h, hstate]
    unfold vcsConnecting giveUp
    simp only
    split_ifs
    · exact .inr hconnecting
    · exact .inr (hclose _ (by decide) (by decide))
    · exact .inl hstate
  next hstate =>
    rw [← Option.some.inj h, hstate]
    unfold vcsSendHello giveUp doSend
    simp only
    split_ifs
    · exact .inr hsendHello
    · exact .inr (hclose _ (by decide) (by decide))
    · exact .inl hstate
  next hstate =>
    rw [hstate]
    unfold vcsRecvHello at h
    split at h
    next => cases h
    next b w₁ hrecv =>
      simp only at h
      split_ifs at h
      · rw [← Option.some.inj h]
        exact .inr hrecvHello.1
      · rw [← Option.some.inj h]
        exact .inr hrecvHello.2
      · rw [← Option.some.inj h]
        exact .inr (hclose _ (by decide) (by decide))
    next retval w₁ hrecv =>
      -- nothing has been received
      obtain ⟨transport, dropped, -, rfl⟩ := doRecv_spec hrecv
      rw [← Option.some.inj h]
      split_ifs
      · exact .inr (hclose _ (by decide) (by decide))
      · exact .inl hstate
  next hstate =>
    rw [← Option.some.inj h, hstate]
    unfold vcsSendError giveUp doSend
    simp only
    split_ifs <;> first | exact .inl hstate | exact .inr (hclose _ (by decide) (by decide))
  next => exact .inl (Option.some.inj h ▸ rfl)
  next => exact .inl (Option.some.inj h ▸ rfl)

/-- More turns than that make no difference, so `vconn_connect` has enough of them. -/
theorem connectLoop_succ {turns : ℕ} (h : rank w.state ≤ turns) :
    connectLoop cls fuel (turns + 1) w = connectLoop cls fuel turns w := by
  induction turns generalizing w with
  | zero =>
    have hpos : 0 < rank w.state := by cases w.state <;> decide
    omega
  | succ turns ih =>
    rw [connectLoop, connectLoop]
    cases hvcs : vcs cls w fuel with
    | none => rfl
    | some w₁ =>
      by_cases hne : w₁.state ≠ w.state
      · have hlt := (rank_vcs hvcs).resolve_left hne
        have hnext := @ih w₁ (by omega)
        simp only [hnext]
      · simp only [if_neg hne]

/-! ### Each function keeps the messages in order -/

theorem orderly_vcsConnecting (h : w.Orderly) (hstate : w.state = .connecting) :
    (vcsConnecting cls w).Orderly := by
  have hweak := h.weak
  unfold vcsConnecting
  split
  next retval transport _ =>
    simp only
    split_ifs with hzero hagain
    · rw [Orderly, hstate] at h
      exact h
    · exact orderly_giveUp hweak hzero
    · exact h

theorem orderly_vcsSendHello (h : w.Orderly) (hstate : w.state = .sendHello) :
    (vcsSendHello cls w).Orderly := by
  have hweak := h.weak
  obtain ⟨haccepted, hreturned, harrived⟩ : w.accepted = [] ∧ w.returned = [] ∧
      ∀ m ∈ w.arrived, m.type ≠ some .hello := by
    rw [Orderly, hstate] at h
    exact h
  unfold vcsSendHello
  split
  next xid transport _ =>
    obtain ⟨retval, transport', hsend⟩ :=
      doSend_spec cls { w with transport } (helloMessage xid) true
    rw [hsend]
    simp only
    split_ifs with hzero hagain
    · exact ⟨⟨helloMessage xid, [], by rw [haccepted]; rfl, type_helloMessage xid,
        List.forall_mem_nil _⟩, hreturned, harrived⟩
    · exact orderly_giveUp hweak hzero
    · exact h

theorem orderly_vcsRecvHello (h : w.Orderly) (hstate : w.state = .recvHello)
    (hrun : vcsRecvHello cls w fuel = some w') : w'.Orderly := by
  obtain ⟨hsent, hreturned, harrived⟩ : w.HelloSent ∧ w.returned = [] ∧
      ∀ m ∈ w.arrived, m.type ≠ some .hello := by
    rw [Orderly, hstate] at h
    exact h
  unfold vcsRecvHello at hrun
  split at hrun
  next => cases hrun
  next b w₁ hrecv =>
    obtain ⟨transport, dropped, hdropped, rfl⟩ := doRecv_spec hrecv
    simp only at hrun
    split at hrun
    next hhello =>
      obtain rfl := Option.some.inj hrun
      -- the first hello that has arrived, and the first message that is passed on
      have hreceived : ∀ state : VconnState, HelloReceived
          { w with
            state
            transport
            version := min (ofpVersion.toNat : ℤ) b.version.toNat
            arrived := w.arrived ++ (dropped ++ [b])
            passed := w.passed ++ [b]
            ofpsRcvd := (w.ofpsRcvd.inc .total).inc .hello } := fun state =>
        ⟨w.arrived ++ dropped, b, [], (List.append_assoc ..).symm,
          List.forall_mem_append.2 ⟨harrived, hdropped⟩, hhello, by rw [hreturned], rfl⟩
      by_cases hversion : min (ofpVersion.toNat : ℤ) b.version.toNat < w.minVersion
      · simp only [if_pos hversion]
        exact ⟨hsent, hreturned⟩
      · simp only [if_neg hversion]
        exact ⟨hsent, hreceived _, Int.not_lt.1 hversion⟩
    next =>
      obtain rfl := Option.some.inj hrun
      exact orderly_giveUp ⟨.inr hsent, .inl hreturned⟩ (by decide)
  next retval w₁ hrecv =>
    obtain ⟨transport, dropped, hdropped, rfl⟩ := doRecv_spec hrecv
    obtain rfl := Option.some.inj hrun
    split_ifs
    · exact orderly_giveUp ⟨.inr hsent, .inl hreturned⟩ retval.2
    · rw [Orderly, hstate]
      exact ⟨hsent, hreturned, List.forall_mem_append.2 ⟨harrived, hdropped⟩⟩

theorem orderly_vcsSendError (h : w.Orderly) (hstate : w.state = .sendError) :
    (vcsSendError cls w).Orderly := by
  obtain ⟨hsent, hreturned⟩ : w.HelloSent ∧ w.returned = [] := by
    rw [Orderly, hstate] at h
    exact h
  unfold vcsSendError
  split
  next xid transport _ =>
    obtain ⟨retval, transport', hsend⟩ := doSend_spec cls { w with transport }
      (helloFailedMessage xid w.minVersion w.version) true
    have hsent' := @HelloSent.doSend _ cls { w with transport } hsent
      (helloFailedMessage xid w.minVersion w.version) true fun _ => by
        rw [type_helloFailedMessage]
        exact fun heq => by cases heq
    rw [hsend] at hsent' ⊢
    simp only
    by_cases hzero : retval = 0
    · rw [if_neg (not_not.2 hzero), if_neg (not_not.2 hzero), if_pos (by rw [hzero]; decide)]
      exact orderly_giveUp ⟨.inr hsent', .inl hreturned⟩ (by decide)
    · rw [if_pos hzero, if_pos hzero]
      split_ifs
      · exact orderly_giveUp ⟨.inr hsent, .inl hreturned⟩ hzero
      · rw [Orderly, hstate]
        exact ⟨hsent, hreturned⟩

/-- A turn of the loop. -/
theorem orderly_vcs (h : w.Orderly) (hrun : vcs cls w fuel = some w') : w'.Orderly := by
  unfold vcs at hrun
  split at hrun
  next hstate => exact Option.some.inj hrun ▸ orderly_vcsConnecting h hstate
  next hstate => exact Option.some.inj hrun ▸ orderly_vcsSendHello h hstate
  next hstate => exact orderly_vcsRecvHello h hstate hrun
  next hstate => exact Option.some.inj hrun ▸ orderly_vcsSendError h hstate
  next => exact Option.some.inj hrun ▸ h
  next => exact Option.some.inj hrun ▸ h

/-- Success means that the connection is established. -/
theorem orderly_connectLoop {turns : ℕ} {retval : ℤ} (h : w.Orderly)
    (hrun : connectLoop cls fuel turns w = some (retval, w')) :
    w'.Orderly ∧ (retval = 0 → w'.state = .connected) := by
  induction turns generalizing w with
  | zero => cases hrun
  | succ turns ih =>
    rw [connectLoop] at hrun
    split at hrun
    next hstate =>
      obtain ⟨-, rfl⟩ := Prod.mk.inj (Option.some.inj hrun)
      exact ⟨h, fun _ => hstate⟩
    next hstate =>
      obtain ⟨rfl, rfl⟩ := Prod.mk.inj (Option.some.inj hrun)
      rw [Orderly, hstate] at h
      exact ⟨by rw [Orderly, hstate]; exact h, fun hzero => absurd hzero h.2.2⟩
    all_goals
      split at hrun
      next => cases hrun
      next w₁ hvcs =>
        have hkeep := orderly_vcs h hvcs
        split at hrun
        next => exact ih hkeep hrun
        next =>
          obtain ⟨rfl, rfl⟩ := Prod.mk.inj (Option.some.inj hrun)
          exact ⟨hkeep, fun hzero => by cases hzero⟩

theorem orderly_vconnConnect {retval : ℤ} (h : w.Orderly)
    (hrun : vconnConnect cls w fuel = some (retval, w')) :
    w'.Orderly ∧ (retval = 0 → w'.state = .connected) := by
  unfold vconnConnect at hrun
  split at hrun
  next => cases hrun
  next => exact orderly_connectLoop h hrun

theorem Orderly.connected (h : w.Orderly) (hstate : w.state = .connected) :
    w.HelloSent ∧ w.HelloReceived ∧ w.minVersion ≤ w.version := by
  rw [Orderly, hstate] at h
  exact h

/-- `vconn_recv`. -/
theorem orderly_vconnRecv {r : Except ℤ OfpMessage} (h : w.Orderly)
    (hrun : vconnRecv cls w fuel = some (r, w')) :
    w'.Orderly ∧ ((∃ msg, r = .ok msg) ∨ r = .error 0 → w'.state = .connected) := by
  unfold vconnRecv at hrun
  split at hrun
  next => cases hrun
  next retval w₁ hconnect =>
    obtain ⟨hkeep, hestablished⟩ := orderly_vconnConnect h hconnect
    split at hrun
    next hretval =>
      obtain ⟨rfl, rfl⟩ := Prod.mk.inj (Option.some.inj hrun)
      refine ⟨hkeep, ?_⟩
      rintro (⟨msg, hmsg⟩ | hzero)
      · cases hmsg
      · exact absurd (Except.error.inj hzero) hretval
    next hretval =>
      have hstate := hestablished (not_not.1 hretval)
      obtain ⟨hsent, ⟨early, hello, later, harrived, hearly, hhello, hreturned, hversion⟩, hmin⟩ :=
        hkeep.connected hstate
      split at hrun
      next => cases hrun
      next msg w₂ hrecv =>
        obtain ⟨rfl, rfl⟩ := Prod.mk.inj (Option.some.inj hrun)
        obtain ⟨transport, dropped, -, rfl⟩ := doRecv_spec hrecv
        refine ⟨?_, fun _ => hstate⟩
        rw [Orderly]
        simp only [hstate]
        -- messages that have been dropped in front of this one are passed over
        refine ⟨hsent,
          ⟨early, hello, later ++ (dropped ++ [msg]), ?_, hearly, hhello, ?_, hversion⟩,
          hmin⟩
        · simp [harrived]
        · exact hreturned.append (List.sublist_append_right dropped [msg])
      next errno w₂ hrecv =>
        obtain ⟨rfl, rfl⟩ := Prod.mk.inj (Option.some.inj hrun)
        obtain ⟨transport, dropped, -, rfl⟩ := doRecv_spec hrecv
        refine ⟨?_, fun _ => hstate⟩
        rw [Orderly]
        simp only [hstate]
        refine ⟨hsent, ⟨early, hello, later ++ dropped, ?_, hearly, hhello, ?_, hversion⟩, hmin⟩
        · simp [harrived]
        · exact hreturned.trans (List.sublist_append_left later dropped)

/-- `vconn_send`. -/
theorem orderly_vconnSend {msg : OfpMessage} {retval : ℤ} (h : w.Orderly)
    (hrun : vconnSend cls w fuel msg = some (retval, w')) :
    w'.Orderly ∧ (retval = 0 → w'.state = .connected) := by
  unfold vconnSend at hrun
  split at hrun
  next => cases hrun
  next retval₁ w₁ hconnect =>
    obtain ⟨hkeep, hestablished⟩ := orderly_vconnConnect h hconnect
    have hrun := Option.some.inj hrun
    split_ifs at hrun with hretval
    · obtain ⟨rfl, rfl⟩ := Prod.mk.inj hrun
      exact ⟨hkeep, hestablished⟩
    · have hstate := hestablished (not_not.1 hretval)
      obtain ⟨hsent, hreceived, hmin⟩ := hkeep.connected hstate
      have hsent' := @HelloSent.doSend _ cls w₁ hsent msg false fun hown => by cases hown
      obtain ⟨retval₂, transport, hsend⟩ := doSend_spec cls w₁ msg false
      rw [hsend] at hrun hsent'
      obtain ⟨rfl, rfl⟩ := Prod.mk.inj hrun
      refine ⟨?_, fun _ => hstate⟩
      rw [Orderly]
      simp only [hstate]
      exact ⟨hsent', hreceived, hmin⟩

/-! ### Runs -/

/-- Every step keeps the messages in order, and succeeds on an established connection only. -/
theorem orderly_next {e : Event τ} {retval : ℤ} (h : w.Orderly)
    (hrun : next cls w fuel e = some (retval, w')) :
    w'.Orderly ∧ (retval = 0 → w'.state = .connected) := by
  cases e with
  | connect => exact orderly_vconnConnect h hrun
  | recv =>
    unfold next at hrun
    simp only at hrun
    split at hrun
    next => cases hrun
    next msg w₁ hrecv =>
      obtain ⟨rfl, rfl⟩ := Prod.mk.inj (Option.some.inj hrun)
      obtain ⟨hkeep, hestablished⟩ := orderly_vconnRecv h hrecv
      exact ⟨hkeep, fun _ => hestablished (.inl ⟨msg, rfl⟩)⟩
    next errno w₁ hrecv =>
      obtain ⟨rfl, rfl⟩ := Prod.mk.inj (Option.some.inj hrun)
      obtain ⟨hkeep, hestablished⟩ := orderly_vconnRecv h hrecv
      exact ⟨hkeep, fun hzero => hestablished (.inr (by rw [hzero]))⟩
  | send msg => exact orderly_vconnSend h hrun
  | transport transport =>
    obtain ⟨rfl, rfl⟩ := Prod.mk.inj (Option.some.inj hrun)
    exact ⟨h, fun hzero => by cases hzero⟩

theorem orderly_init (connectStatus minVersion : ℤ) (transport : τ) :
    (init connectStatus minVersion transport).Orderly := by
  unfold init
  split_ifs with hagain hzero
  · exact ⟨rfl, rfl, List.forall_mem_nil _⟩
  · exact ⟨rfl, rfl, List.forall_mem_nil _⟩
  · exact ⟨.inl rfl, .inl rfl, hzero⟩

/-- The messages are in order in every run. -/
theorem orderly_of_reachable {connectStatus minVersion : ℤ} {transport : τ}
    (h : Transition.Reachable (Step cls) (init connectStatus minVersion transport) w) :
    w.Orderly :=
  h.invariant Orderly (orderly_init connectStatus minVersion transport)
    fun _ _ _ hw _ ⟨_, _, hrun⟩ => (orderly_next hw hrun).1

/-- In every run of a connection over any transport: the first message that the transport accepts is
a HELLO, and no other message of the connection itself is one. What `vconn_recv` has returned
arrived behind the HELLO of the peer. A call only succeeds when both have been exchanged, with a
version that is accepted. -/
theorem handshake {connectStatus minVersion : ℤ} {transport : τ}
    (h : Transition.Reachable (Step cls) (init connectStatus minVersion transport) w) :
    (w.accepted = [] ∨ w.HelloSent) ∧ (w.returned = [] ∨ w.HelloReceived) ∧
      ∀ (e : Event τ) (fuel : ℕ) (w' : VconnRun τ), next cls w fuel e = some (0, w') →
        w'.HelloSent ∧ w'.HelloReceived ∧ w'.minVersion ≤ w'.version := by
  have hw := orderly_of_reachable h
  refine ⟨hw.weak.1, hw.weak.2, fun e fuel w' hrun => ?_⟩
  obtain ⟨hkeep, hestablished⟩ := orderly_next hw hrun
  exact hkeep.connected (hestablished rfl)

/-! ### A handshake -/

/-- A transport that is connected, takes every message and returns those of a list. -/
def listClass : VconnClass (List OfpMessage) where
  connect ms := (0, ms)
  recv
    | [] => (.error ⟨eAgain, by decide⟩, [])
    | msg :: ms => (.ok msg, ms)
  send ms _ := (0, ms)
  allocXid ms := (1, ms)

/-- The peer says HELLO at once. -/
theorem handshake_listClass :
    ∃ w, next listClass (init eAgain 1 [helloMessage 7]) 1 .connect = some (0, w) ∧
      (w.accepted = [] ∨ w.HelloSent) ∧ (w.returned = [] ∨ w.HelloReceived) ∧
        ∀ (e : Event (List OfpMessage)) (fuel : ℕ) (w' : VconnRun (List OfpMessage)),
          next listClass w fuel e = some (0, w') →
            w'.HelloSent ∧ w'.HelloReceived ∧ w'.minVersion ≤ w'.version := by
  have hrun : ∃ w, next listClass (init eAgain 1 [helloMessage 7]) 1 .connect = some (0, w) :=
    ⟨_, rfl⟩
  obtain ⟨w, hw⟩ := hrun
  exact ⟨w, hw, handshake (Transition.Reachable.step .refl ⟨1, 0, hw⟩)⟩

end VconnRun

end OfAgent
