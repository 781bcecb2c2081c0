import OfAgent.Conn.Handshake
import OfAgent.Control.Dispatch

/-!
# Statistics of the remote connection

`protocol-stat.c` of the secure channel, and the parts of `rconn.c` that count messages: a hook
answers requests for the counters of the remote connection. The handshake is counted in the `vconn`,
everything else in the `rconn`, and an answer adds them up.

* `StatRun`: the counters of the remote connection, and the messages of all its connections so far.
* `StatRun.rconnRecv`, `StatRun.trySend`, `StatRun.rconnUpdateProtocolStat`: the functions that
  count.
* `copyOfpStat`: `COPY_OFP_STAT`, which leaves three counters out.
* `StatRun.protocolStatRemotePacketCb`: the hook.
* `StatRun.Accurate`: an answer tells the messages that there have been. `StatRun.accurate`: it does
  in the runs in which every step is `StatRun.Counted`.
-/

namespace OfAgent

/-! ### State -/

/-- The remote connection, as far as messages are counted. -/
structure StatRun (τ : Type*) where
  /-- The transport. -/
  vconn : Option (VconnRun τ)
  /-- `ofps_rcvd` of the `rconn`. -/
  ofpsRcvd : OfpStat
  /-- `ofps_sent` of the `rconn`. -/
  ofpsSent : OfpStat
  /-- The messages that have been received on connections that are closed now. -/
  pastReceived : List OfpMessage
  /-- The messages that have been sent on them. -/
  pastSent : List OfpMessage

/-- The answer to a request: the option `PRIVATEOPT_PROTOCOL_STATS_REPLY`. -/
structure StatReply where
  /-- `xid` of the header. -/
  xid : BitVec 32
  /-- `ofp_vxid`. -/
  vxid : BitVec 32
  /-- `pvo_type`. -/
  pvoType : BitVec 16
  /-- `pvo_len`. -/
  pvoLen : BitVec 16
  /-- The first `struct ofpstat`. -/
  rcvd : OfpStat
  /-- The second one. -/
  sent : OfpStat

/-! ### Functions -/

/-- The counters that `COPY_OFP_STAT` copies. -/
def copiedTags : List OfpStatField :=
  [.total, .unknown,
    .hello, .error, .echoRequest, .echoReply, .vendor, .featsRequest, .featsReply,
    .getConfigRequest, .getConfigReply, .setConfig, .packetIn, .flowRemoved, .portStatus,
    .packetOut, .flowMod, .portMod, .statsRequest, .statsReply, .barrierRequest, .barrierReply,
    .errorType .helloFail, .errorType .badRequest, .errorType .badAction, .errorType .flowModFail,
    .errorType .unknown,
    .errorCode .hfIncompat, .errorCode .hfEperm, .errorCode .brBadVersion, .errorCode .brBadType,
    .errorCode .brBadStat, .errorCode .brBadVendor, .errorCode .brEperm, .errorCode .baBadType,
    .errorCode .baBadLen, .errorCode .baBadVendor, .errorCode .baBadVendorType,
    .errorCode .baBadOutPort, .errorCode .baEperm, .errorCode .fmfAllTablesFull,
    .errorCode .fmfOverlap, .errorCode .fmfEperm, .errorCode .unknown,
    .flowModOps .add, .flowModOps .modify, .flowModOps .delete, .flowModOps .deleteStrict,
    .flowModOps .unknown]

/-- `COPY_OFP_STAT` into a buffer of zeros. -/
def copyOfpStat (src : OfpStat) : OfpStat := fun tag => if tag ∈ copiedTags then src tag else 0

/-- The counters that `rconn_update_protocol_stat` moves from the `vconn` to the `rconn`, for what
has been received. -/
def mergedRcvdTags : List OfpStatField := [.total, .hello]

/-- Those for what has been sent. -/
def mergedSentTags : List OfpStatField :=
  [.total, .hello, .error, .errorType .helloFail, .errorCode .hfIncompat]

/-- Some counters are moved. -/
def OfpStat.merge (tags : List OfpStatField) (src dst : OfpStat) : OfpStat × OfpStat :=
  (fun tag => if tag ∈ tags then 0 else src tag,
    fun tag => if tag ∈ tags then dst tag + src tag else dst tag)

/-- `sizeof(struct ofpstat)`. -/
def sizeofOfpstat : ℕ := 416

/-- `sizeof(struct private_vxhdr)`. -/
def sizeofPrivateVxhdr : ℕ := 12

/-- `PRIVATEOPT_PROTOCOL_STATS_REQUEST`. -/
def privateoptProtocolStatsRequest : BitVec 16 := 0x0001

/-- `PRIVATEOPT_PROTOCOL_STATS_REPLY`. -/
def privateoptProtocolStatsReply : BitVec 16 := 0x0002

namespace StatRun

variable {τ : Type*} (cls : VconnClass τ) (s : StatRun τ)

/-- `vconn_open` succeeds. The counters of the new `vconn` are zero. -/
def vconnOpen (connectStatus minVersion : ℤ) (transport : τ) : StatRun τ :=
  { s with vconn := some (.init connectStatus minVersion transport) }

/-- `vconn_close`, with the counters of the `vconn`. -/
def vconnClose : StatRun τ :=
  match s.vconn with
  | none => s
  | some v =>
      { s with
        vconn := none
        pastReceived := s.pastReceived ++ v.passed
        pastSent := s.pastSent ++ v.accepted.map Prod.fst }

/-- What `run_CONNECTING` asks of the `vconn`. -/
def runConnecting (fuel : ℕ) : Option (StatRun τ) :=
  match s.vconn with
  | none => none
  | some v =>
      match v.vconnConnect cls fuel with
      | none => none
      | some (_, v) => some { s with vconn := some v }

/-- `rconn_recv`. -/
def rconnRecv (fuel : ℕ) : Option (StatRun τ) :=
  match s.vconn with
  | none => none
  | some v =>
      match v.vconnRecv cls fuel with
      | none => none
      | some (.ok h, v) =>
          some { s with vconn := some v, ofpsRcvd := s.ofpsRcvd.incProtocolStat h }
      | some (.error _, v) => some { s with vconn := some v }

/-- `try_send`, with the message at the head of the queue. It is counted before it is sent. -/
def trySend (fuel : ℕ) (h : OfpMessage) : Option (StatRun τ) :=
  match s.vconn with
  | none => none
  | some v =>
      let s := { s with ofpsSent := s.ofpsSent.incProtocolStat h }
      match v.vconnSend cls fuel h with
      | none => none
      | some (_, v) => some { s with vconn := some v }

/-- `rconn_update_protocol_stat`: what it returns are the counters behind it. -/
def rconnUpdateProtocolStat : StatRun τ :=
  match s.vconn with
  | none => s
  | some v =>
      let rcvd := OfpStat.merge mergedRcvdTags v.ofpsRcvd s.ofpsRcvd
      let sent := OfpStat.merge mergedSentTags v.ofpsSent s.ofpsSent
      { s with
        vconn := some { v with ofpsRcvd := rcvd.1, ofpsSent := sent.1 }
        ofpsRcvd := rcvd.2
        ofpsSent := sent.2 }

/-- `protocol_stat_remote_packet_cb`: whether it consumes the message, its answer and the counters
behind it. -/
def protocolStatRemotePacketCb (qbuf : OfpMessage) : Bool × Option StatReply × StatRun τ :=
  if qbuf.length < sizeofPrivateVxhdr then (false, none, s)
  else if qbuf.type ≠ some .vendor then (false, none, s)
  else if qbuf.mem.get32 8 ≠ privateVendorId then (false, none, s)
  else if qbuf.mem.get16 12 ≠ privateoptProtocolStatsRequest then (true, none, s)
  else
    let s := s.rconnUpdateProtocolStat
    (true,
      some
        { xid := qbuf.xid
          vxid := qbuf.mem.get32 8
          pvoType := privateoptProtocolStatsReply
          pvoLen := .ofNat 16 (sizeofOfpstat * 2)
          rcvd := copyOfpStat s.ofpsRcvd
          sent := copyOfpStat s.ofpsSent },
      s)

/-! ### Runs -/

/-- No connection yet. -/
def start : StatRun τ where
  vconn := none
  ofpsRcvd := .zero
  ofpsSent := .zero
  pastReceived := []
  pastSent := []

/-- What happens to the remote connection. -/
inductive Event (τ : Type*)
  /-- `vconn_open` succeeds. -/
  | vconnOpen (connectStatus minVersion : ℤ) (transport : τ)
  /-- `vconn_close`. -/
  | vconnClose
  /-- `run_CONNECTING`. -/
  | runConnecting
  /-- `rconn_recv`. -/
  | rconnRecv
  /-- `try_send`. -/
  | trySend (h : OfpMessage)
  /-- A message reaches the hook. -/
  | hook (qbuf : OfpMessage)
  /-- Something happens to the transport. -/
  | transport (transport : τ)

/-- The connection behind an event. -/
def next (fuel : ℕ) : Event τ → Option (StatRun τ)
  | .vconnOpen connectStatus minVersion transport =>
      if s.vconn.isNone then some (s.vconnOpen connectStatus minVersion transport) else none
  | .vconnClose => some s.vconnClose
  | .runConnecting => runConnecting cls s fuel
  | .rconnRecv => rconnRecv cls s fuel
  | .trySend h => trySend cls s fuel h
  | .hook qbuf => some (s.protocolStatRemotePacketCb qbuf).2.2
  | .transport transport => some { s with vconn := s.vconn.map fun v => { v with transport } }

/-- The step relation. -/
def Step (s : StatRun τ) (e : Event τ) (s' : StatRun τ) : Prop :=
  ∃ fuel, next cls s fuel e = some s'

/-! ### What an answer should tell -/

/-- The messages that have been received. -/
def received : List OfpMessage := s.pastReceived ++ (s.vconn.map fun v => v.passed).getD []

/-- The messages that have been sent. -/
def sent : List OfpMessage :=
  s.pastSent ++ (s.vconn.map fun v => v.accepted.map Prod.fst).getD []

open Classical in
/-- How many messages a counter is meant for. -/
noncomputable def classCount (tag : OfpStatField) (ms : List OfpMessage) : ℕ :=
  ms.countP fun m => decide (m.InClass tag)

/-- Every counter of an answer is the number of messages that it is meant for. -/
def Accurate : Prop :=
  ∀ (qbuf : OfpMessage) (consumed : Bool) (reply : StatReply) (s' : StatRun τ),
    s.protocolStatRemotePacketCb qbuf = (consumed, some reply, s') →
      ∀ tag, (reply.rcvd tag).toNat = classCount tag s.received ∧
        (reply.sent tag).toNat = classCount tag s.sent

/-! ### When it does -/

/-- The first message of the peer that `do_recv` lets through is a HELLO with a version that is
accepted, if one comes in these turns of the loop of `vconn_connect`. -/
def Welcomed (fuel : ℕ) : ℕ → VconnRun τ → Prop
  | 0, _ => True
  | turns + 1, v =>
      (v.state = .recvHello → ∀ msg v', v.doRecv cls fuel = some (.ok msg, v') →
        msg.type = some .hello ∧ v.minVersion ≤ min (ofpVersion.toNat : ℤ) msg.version.toNat) ∧
        ∀ v', v.vcs cls fuel = some v' → v'.state ≠ v.state → Welcomed fuel turns v'

/-- The classes of the message are inside it and have counters that are copied. -/
def Ordinary (msg : OfpMessage) : Prop :=
  msg.Complete ∧ ∀ tag, msg.InClass tag → tag ∈ copiedTags

/-- The step does not make the counters wrong: a handshake succeeds, as far as it goes; messages are
ordinary; those that are sent are accepted at once; and a connection is not closed before its
handshake has been asked for. -/
def Counted (s : StatRun τ) : Event τ → Prop
  | .vconnOpen _ _ _ | .hook _ | .transport _ => True
  | .vconnClose => ∀ v ∈ s.vconn, v.ofpsRcvd = .zero ∧ v.ofpsSent = .zero
  | .runConnecting => ∀ v ∈ s.vconn, ∀ fuel, Welcomed cls fuel 6 v
  | .rconnRecv => ∀ v ∈ s.vconn, ∀ fuel, Welcomed cls fuel 6 v ∧
      ∀ msg v', v.vconnRecv cls fuel = some (.ok msg, v') → Ordinary msg
  | .trySend h => Ordinary h ∧ ∀ v ∈ s.vconn, ∀ fuel, Welcomed cls fuel 6 v ∧
      ∀ retval v', v.vconnSend cls fuel h = some (retval, v') → retval = 0

end StatRun

/-! ### The handshake is counted -/

/-- The messages of a handshake have no classes but the two that are merged. -/
theorem OfpMessage.statTags_of_hello {msg : OfpMessage} (h : msg.type = some .hello) :
    msg.statTags = [.total, .hello] := by
  rw [OfpMessage.statTags, OfpMessage.detailTags, h]
  rfl

/-- A HELLO is counted as any other message would be. -/
theorem OfpStat.incProtocolStat_of_hello (ifps : OfpStat) {msg : OfpMessage}
    (h : msg.type = some .hello) : ifps.incProtocolStat msg = (ifps.inc .total).inc .hello := by
  rw [incProtocolStat, OfpMessage.statTags_of_hello h]
  rfl

namespace VconnRun

variable {τ : Type*} {cls : VconnClass τ} {v v' v'' : VconnRun τ} {fuel : ℕ}

/-- HELLOs have been received and sent, and counted. -/
structure Greets (v v' : VconnRun τ) (rs ss : List OfpMessage) : Prop where
  /-- They are HELLOs. -/
  hello : ∀ m ∈ rs ++ ss, m.type = some .hello
  /-- What has been received. -/
  passed : v'.passed = v.passed ++ rs
  /-- What has been sent. -/
  accepted : v'.accepted.map Prod.fst = v.accepted.map Prod.fst ++ ss
  /-- The counters of the former. -/
  ofpsRcvd : v'.ofpsRcvd = rs.foldl OfpStat.incProtocolStat v.ofpsRcvd
  /-- The counters of the latter. -/
  ofpsSent : v'.ofpsSent = ss.foldl OfpStat.incProtocolStat v.ofpsSent
  /-- The handshake has not failed. -/
  state : v.state ≠ .sendError → v'.state ≠ .sendError

/-- Nothing has happened. -/
theorem Greets.of_eq (hpassed : v'.passed = v.passed) (haccepted : v'.accepted = v.accepted)
    (hrcvd : v'.ofpsRcvd = v.ofpsRcvd) (hsent : v'.ofpsSent = v.ofpsSent)
    (hstate : v.state ≠ .sendError → v'.state ≠ .sendError) : Greets v v' [] [] where
  hello := List.forall_mem_nil _
  passed := by rw [hpassed, List.append_nil]
  accepted := by rw [haccepted, List.append_nil]
  ofpsRcvd := hrcvd
  ofpsSent := hsent
  state := hstate

/-- One after the other. -/
theorem Greets.trans {rs ss rs' ss' : List OfpMessage} (h : Greets v v' rs ss)
    (h' : Greets v' v'' rs' ss') : Greets v v'' (rs ++ rs') (ss ++ ss') where
  hello m hm := by
    have hall := List.forall_mem_append.1 h.hello
    have hall' := List.forall_mem_append.1 h'.hello
    rcases List.mem_append.1 hm with hm | hm
    · rcases List.mem_append.1 hm with hm | hm
      · exact hall.1 m hm
      · exact hall'.1 m hm
    · rcases List.mem_append.1 hm with hm | hm
      · exact hall.2 m hm
      · exact hall'.2 m hm
  passed := by rw [h'.passed, h.passed, List.append_assoc]
  accepted := by rw [h'.accepted, h.accepted, List.append_assoc]
  ofpsRcvd := by rw [h'.ofpsRcvd, h.ofpsRcvd, List.foldl_append]
  ofpsSent := by rw [h'.ofpsSent, h.ofpsSent, List.foldl_append]
  state hv := h'.state (h.state hv)

/-- `vcs_send_hello`. -/
theorem greets_vcsSendHello : ∃ ss, Greets v (vcsSendHello cls v) [] ss := by
  unfold vcsSendHello
  split
  next xid transport _ =>
    obtain ⟨retval, transport', hsend⟩ :=
      doSend_spec cls { v with transport } (helloMessage xid) true
    rw [hsend]
    simp only
    split_ifs
    · refine ⟨[helloMessage xid], ?_,
        (List.append_nil _).symm, by simp, rfl, ?_, fun _ h => by cases h⟩
      · exact List.forall_mem_singleton.2 (type_helloMessage xid)
      · exact (OfpStat.incProtocolStat_of_hello _ (type_helloMessage xid)).symm
    · exact ⟨[], .of_eq rfl rfl rfl rfl fun _ h => by cases h⟩
    · exact ⟨[], .of_eq rfl rfl rfl rfl id⟩

/-- `vcs_recv_hello`. -/
theorem greets_vcsRecvHello
    (hwelcome : ∀ msg v₁, doRecv cls fuel v = some (.ok msg, v₁) →
      msg.type = some .hello ∧ v.minVersion ≤ min (ofpVersion.toNat : ℤ) msg.version.toNat)
    (hrun : vcsRecvHello cls v fuel = some v') : ∃ rs, Greets v v' rs [] := by
  unfold vcsRecvHello at hrun
  split at hrun
  next => cases hrun
  next b v₁ hrecv =>
    obtain ⟨hhello, hversion⟩ := hwelcome b v₁ hrecv
    obtain ⟨transport, dropped, -, rfl⟩ := doRecv_spec hrecv
    rw [if_pos hhello] at hrun
    obtain rfl := Option.some.inj hrun
    refine ⟨[b], ?_, rfl, (List.append_nil _).symm, ?_, rfl, fun _ h => ?_⟩
    · rw [List.append_nil]
      exact List.forall_mem_singleton.2 hhello
    · exact (OfpStat.incProtocolStat_of_hello _ hhello).symm
    · simp only [if_neg (Int.not_lt.2 hversion)] at h
      cases h
  next retval v₁ hrecv =>
    obtain ⟨transport, dropped, -, rfl⟩ := doRecv_spec hrecv
    obtain rfl := Option.some.inj hrun
    refine ⟨[], ?_⟩
    split_ifs
    · exact .of_eq rfl rfl rfl rfl fun _ h => by cases h
    · exact .of_eq rfl rfl rfl rfl id

/-- A turn of the loop of `vconn_connect`. -/
theorem greets_vcs (hv : v.state ≠ .sendError)
    (hwelcome : v.state = .recvHello → ∀ msg v₁, doRecv cls fuel v = some (.ok msg, v₁) →
      msg.type = some .hello ∧ v.minVersion ≤ min (ofpVersion.toNat : ℤ) msg.version.toNat)
    (hrun : vcs cls v fuel = some v') : ∃ rs ss, Greets v v' rs ss := by
  unfold vcs at hrun
  split at hrun
  next hstate =>
    obtain rfl := Option.some.inj hrun
    refine ⟨[], [], ?_⟩
    unfold vcsConnecting
    simp only
    split_ifs
    · exact .of_eq rfl rfl rfl rfl fun _ h => by cases h
    · exact .of_eq rfl rfl rfl rfl fun _ h => by cases h
    · exact .of_eq rfl rfl rfl rfl id
  next hstate =>
    obtain ⟨ss, h⟩ := @greets_vcsSendHello _ cls v
    exact ⟨[], ss, Option.some.inj hrun ▸ h⟩
  next hstate =>
    obtain ⟨rs, h⟩ := greets_vcsRecvHello (hwelcome hstate) hrun
    exact ⟨rs, [], h⟩
  next hstate => exact absurd hstate hv
  next => exact ⟨[], [], Option.some.inj hrun ▸ .of_eq rfl rfl rfl rfl id⟩
  next => exact ⟨[], [], Option.some.inj hrun ▸ .of_eq rfl rfl rfl rfl id⟩

/-- The loop of `vconn_connect`. -/
theorem greets_connectLoop {turns : ℕ} {retval : ℤ} (hv : v.state ≠ .sendError)
    (hwelcome : StatRun.Welcomed cls fuel turns v)
    (hrun : connectLoop cls fuel turns v = some (retval, v')) : ∃ rs ss, Greets v v' rs ss := by
  induction turns generalizing v with
  | zero => cases hrun
  | succ turns ih =>
    rw [connectLoop] at hrun
    split at hrun
    next =>
      obtain ⟨-, rfl⟩ := Prod.mk.inj (Option.some.inj hrun)
      exact ⟨[], [], .of_eq rfl rfl rfl rfl id⟩
    next =>
      obtain ⟨-, rfl⟩ := Prod.mk.inj (Option.some.inj hrun)
      exact ⟨[], [], .of_eq rfl rfl rfl rfl id⟩
    all_goals
      split at hrun
      next => cases hrun
      next v₁ hvcs =>
        obtain ⟨rs, ss, h⟩ := greets_vcs hv hwelcome.1 hvcs
        split at hrun
        next hne =>
          obtain ⟨rs', ss', h'⟩ := ih (h.state hv) (hwelcome.2 v₁ hvcs hne) hrun
          exact ⟨_, _, h.trans h'⟩
        next =>
          obtain ⟨-, rfl⟩ := Prod.mk.inj (Option.some.inj hrun)
          exact ⟨rs, ss, h⟩

theorem greets_vconnConnect {retval : ℤ} (hv : v.state ≠ .sendError)
    (hwelcome : StatRun.Welcomed cls fuel 6 v)
    (hrun : vconnConnect cls v fuel = some (retval, v')) : ∃ rs ss, Greets v v' rs ss := by
  unfold vconnConnect at hrun
  split at hrun
  next => cases hrun
  next => exact greets_connectLoop hv hwelcome hrun

/-! ### Messages of the callers -/

/-- Messages have been received and sent, and not counted yet. -/
structure Carries (v v' : VconnRun τ) (rs ss : List OfpMessage) : Prop where
  /-- What has been received. -/
  passed : v'.passed = v.passed ++ rs
  /-- What has been sent. -/
  accepted : v'.accepted.map Prod.fst = v.accepted.map Prod.fst ++ ss
  /-- The counters are the same. -/
  ofpsRcvd : v'.ofpsRcvd = v.ofpsRcvd
  /-- So are these. -/
  ofpsSent : v'.ofpsSent = v.ofpsSent
  /-- And the state. -/
  state : v'.state = v.state

theorem Carries.refl (v : VconnRun τ) : Carries v v [] [] :=
  ⟨(List.append_nil _).symm, (List.append_nil _).symm, rfl, rfl, rfl⟩

/-- `vconn_recv` connects first. -/
theorem vconnRecv_spec {r : Except ℤ OfpMessage}
    (hrun : vconnRecv cls v fuel = some (r, v'')) :
    ∃ retval v', vconnConnect cls v fuel = some (retval, v') ∧
      Carries v' v'' (match r with | .ok msg => [msg] | .error _ => []) [] := by
  unfold vconnRecv at hrun
  split at hrun
  next => cases hrun
  next retval v' hconnect =>
    refine ⟨retval, v', hconnect, ?_⟩
    split at hrun
    next =>
      obtain ⟨rfl, rfl⟩ := Prod.mk.inj (Option.some.inj hrun)
      exact .refl v'
    next =>
      split at hrun
      next => cases hrun
      next msg v₁ hrecv =>
        obtain ⟨rfl, rfl⟩ := Prod.mk.inj (Option.some.inj hrun)
        obtain ⟨transport, dropped, -, rfl⟩ := doRecv_spec hrecv
        exact ⟨rfl, (List.append_nil _).symm, rfl, rfl, rfl⟩
      next errno v₁ hrecv =>
        obtain ⟨rfl, rfl⟩ := Prod.mk.inj (Option.some.inj hrun)
        obtain ⟨transport, dropped, -, rfl⟩ := doRecv_spec hrecv
        exact ⟨(List.append_nil _).symm, (List.append_nil _).symm, rfl, rfl, rfl⟩

/-- `vconn_send` connects first, and when it succeeds the message has been accepted. -/
theorem vconnSend_spec {msg : OfpMessage} (hrun : vconnSend cls v fuel msg = some (0, v'')) :
    ∃ retval v', vconnConnect cls v fuel = some (retval, v') ∧ Carries v' v'' [] [msg] := by
  unfold vconnSend at hrun
  split at hrun
  next => cases hrun
  next retval v' hconnect =>
    refine ⟨retval, v', hconnect, ?_⟩
    have hrun := Option.some.inj hrun
    split_ifs at hrun with hretval
    · exact absurd (Prod.mk.inj hrun).1 hretval
    · obtain ⟨retval', transport, hsend⟩ := doSend_spec cls v' msg false
      rw [hsend] at hrun
      obtain ⟨rfl, rfl⟩ := Prod.mk.inj hrun
      exact ⟨(List.append_nil _).symm, by simp, rfl, rfl, rfl⟩

end VconnRun

/-! ### Counters and numbers of messages -/

/-- How many messages a counter is incremented for. -/
def tagCount (tag : OfpStatField) (ms : List OfpMessage) : ℕ :=
  ms.countP fun m => tag ∈ m.statTags

/-- Messages that are counted one after the other. -/
theorem OfpStat.foldl_incProtocolStat_apply (ifps : OfpStat) (ms : List OfpMessage)
    (tag : OfpStatField) :
    ms.foldl OfpStat.incProtocolStat ifps tag = ifps tag + BitVec.ofNat 64 (tagCount tag ms) := by
  induction ms generalizing ifps with
  | nil => exact (BitVec.add_zero _).symm
  | cons m ms ih =>
    rw [List.foldl_cons, ih, OfpStat.incProtocolStat_apply, tagCount, tagCount, List.countP_cons,
      BitVec.ofNat_add, add_comm (BitVec.ofNat 64 _) (BitVec.ofNat 64 _), ← add_assoc]
    by_cases h : tag ∈ m.statTags
    · simp only [h, if_true, decide_true]
      rfl
    · simp only [h, if_false, decide_false]
      rfl

/-- Two sets of counters tell how many messages there have been. -/
def AddUp (dst src : OfpStat) (ms : List OfpMessage) : Prop :=
  ∀ tag, dst tag + src tag = BitVec.ofNat 64 (tagCount tag ms)

/-- More messages are counted in either of them. -/
theorem AddUp.foldl {dst src : OfpStat} {ms : List OfpMessage} (h : AddUp dst src ms)
    (rs rs' : List OfpMessage) :
    AddUp (rs'.foldl OfpStat.incProtocolStat dst) (rs.foldl OfpStat.incProtocolStat src)
      (ms ++ (rs ++ rs')) := by
  intro tag
  have hcount : tagCount tag (ms ++ (rs ++ rs')) =
      tagCount tag ms + tagCount tag rs + tagCount tag rs' := by
    rw [tagCount, List.countP_append, List.countP_append, ← add_assoc]
    rfl
  rw [OfpStat.foldl_incProtocolStat_apply, OfpStat.foldl_incProtocolStat_apply, hcount,
    BitVec.ofNat_add, BitVec.ofNat_add, ← h tag]
  ac_rfl

/-- Moving counters changes nothing. -/
theorem AddUp.merge {dst src : OfpStat} {ms : List OfpMessage} (h : AddUp dst src ms)
    (tags : List OfpStatField) :
    AddUp (OfpStat.merge tags src dst).2 (OfpStat.merge tags src dst).1 ms := by
  intro tag
  rw [← h tag]
  unfold OfpStat.merge
  simp only
  split_ifs
  · exact BitVec.add_zero _
  · rfl

namespace StatRun

variable {τ : Type*} {cls : VconnClass τ} {s s' : StatRun τ} {fuel : ℕ}

/-- A HELLO is ordinary. -/
theorem ordinary_of_hello {msg : OfpMessage} (h : msg.type = some .hello) : Ordinary msg := by
  have hcomplete : msg.Complete := by
    constructor <;>
    · intro heq
      rw [h] at heq
      cases heq
  refine ⟨hcomplete, fun tag htag => ?_⟩
  have hmem := (OfpMessage.mem_statTags_iff hcomplete tag).2 htag
  rw [OfpMessage.statTags_of_hello h] at hmem
  rcases List.mem_pair.1 hmem with rfl | rfl <;> decide

/-- For complete messages, a counter is incremented for those that it is meant for. -/
theorem tagCount_eq_classCount {ms : List OfpMessage} (hms : ∀ m ∈ ms, m.Complete)
    (tag : OfpStatField) : tagCount tag ms = classCount tag ms := by
  refine List.countP_congr fun m hm => ?_
  simp only [decide_eq_true_eq]
  exact OfpMessage.mem_statTags_iff (hms m hm) tag

/-- The counters of the `vconn` for what has been received. -/
def vconnRcvd (s : StatRun τ) : OfpStat := (s.vconn.map fun v => v.ofpsRcvd).getD .zero

/-- The counters of the `vconn` for what has been sent. -/
def vconnSent (s : StatRun τ) : OfpStat := (s.vconn.map fun v => v.ofpsSent).getD .zero

/-- The counters tell what has been received and sent. -/
structure Tally (s : StatRun τ) : Prop where
  /-- What has been received. -/
  rcvd : AddUp s.ofpsRcvd s.vconnRcvd s.received
  /-- What has been sent. -/
  sent : AddUp s.ofpsSent s.vconnSent s.sent
  /-- All of it is ordinary. -/
  ordinary : ∀ m ∈ s.received ++ s.sent, Ordinary m
  /-- Counters that are not moved are zero. -/
  merged : (∀ tag ∉ mergedRcvdTags, s.vconnRcvd tag = 0) ∧
    ∀ tag ∉ mergedSentTags, s.vconnSent tag = 0
  /-- The handshake has not failed. -/
  state : ∀ v ∈ s.vconn, v.state ≠ .sendError

/-- HELLOs leave the other counters alone. -/
theorem foldl_apply_of_hello {ms : List OfpMessage} (hms : ∀ m ∈ ms, m.type = some .hello)
    (ifps : OfpStat) {tag : OfpStatField} (htag : tag ≠ .total ∧ tag ≠ .hello) :
    ms.foldl OfpStat.incProtocolStat ifps tag = ifps tag := by
  have hzero : tagCount tag ms = 0 := by
    refine List.countP_eq_zero.2 fun m hm => ?_
    rw [OfpMessage.statTags_of_hello (hms m hm)]
    simp [htag.1, htag.2]
  rw [OfpStat.foldl_incProtocolStat_apply, hzero]
  exact BitVec.add_zero _

/-- A handshake and then messages of the callers, which are counted in the `rconn`. -/
theorem Tally.extend {v v' v'' : VconnRun τ} {rs ss rs' ss' : List OfpMessage} (h : s.Tally)
    (hs : s.vconn = some v) (hgreets : v.Greets v' rs ss) (hcarries : v'.Carries v'' rs' ss')
    (hordinary : ∀ m ∈ rs' ++ ss', Ordinary m) :
    Tally
      { s with
        vconn := some v''
        ofpsRcvd := rs'.foldl OfpStat.incProtocolStat s.ofpsRcvd
        ofpsSent := ss'.foldl OfpStat.incProtocolStat s.ofpsSent } := by
  have hrcvd : s.vconnRcvd = v.ofpsRcvd := by rw [vconnRcvd, hs]; rfl
  have hsent : s.vconnSent = v.ofpsSent := by rw [vconnSent, hs]; rfl
  have hreceived : s.received ++ (rs ++ rs') = s.pastReceived ++ v''.passed := by
    rw [received, hs, hcarries.passed, hgreets.passed]
    simp
  have hsents : s.sent ++ (ss ++ ss') = s.pastSent ++ v''.accepted.map Prod.fst := by
    rw [StatRun.sent, hs, hcarries.accepted, hgreets.accepted]
    simp
  obtain ⟨hhello, hhello'⟩ := List.forall_mem_append.1 hgreets.hello
  obtain ⟨hold, hold'⟩ := List.forall_mem_append.1 h.ordinary
  obtain ⟨hnew, hnew'⟩ := List.forall_mem_append.1 hordinary
  constructor
  · have hadd := h.rcvd.foldl rs rs'
    rw [hrcvd, ← hgreets.ofpsRcvd, ← hcarries.ofpsRcvd, hreceived] at hadd
    exact hadd
  · have hadd := h.sent.foldl ss ss'
    rw [hsent, ← hgreets.ofpsSent, ← hcarries.ofpsSent, hsents] at hadd
    exact hadd
  · refine List.forall_mem_append.2 ⟨?_, ?_⟩
    · rw [show received _ = s.pastReceived ++ v''.passed from rfl, ← hreceived]
      exact List.forall_mem_append.2
        ⟨hold, List.forall_mem_append.2 ⟨fun m hm => ordinary_of_hello (hhello m hm), hnew⟩⟩
    · rw [show StatRun.sent _ = s.pastSent ++ v''.accepted.map Prod.fst from rfl, ← hsents]
      exact List.forall_mem_append.2
        ⟨hold', List.forall_mem_append.2 ⟨fun m hm => ordinary_of_hello (hhello' m hm), hnew'⟩⟩
  · -- the handshake counts in two fields, which are not among those that are merged
    have htags : ∀ tag : OfpStatField, tag ∉ mergedRcvdTags ∨ tag ∉ mergedSentTags →
        tag ≠ .total ∧ tag ≠ .hello := by
      rintro tag (htag | htag) <;> constructor <;> rintro rfl <;> exact htag (by decide)
    constructor
    · intro tag htag
      refine (congrFun (hcarries.ofpsRcvd.trans hgreets.ofpsRcvd) tag).trans ?_
      rw [foldl_apply_of_hello hhello _ (htags tag (.inl htag)), ← hrcvd]
      exact h.merged.1 tag htag
    · intro tag htag
      refine (congrFun (hcarries.ofpsSent.trans hgreets.ofpsSent) tag).trans ?_
      rw [foldl_apply_of_hello hhello' _ (htags tag (.inr htag)), ← hsent]
      exact h.merged.2 tag htag
  · intro v₁ hv₁
    obtain rfl := Option.some.inj hv₁
    rw [hcarries.state]
    exact hgreets.state (h.state v hs)

/-! ### Every step is counted -/

/-- `rconn_update_protocol_stat`. -/
theorem Tally.rconnUpdateProtocolStat (h : s.Tally) :
    s.rconnUpdateProtocolStat.Tally ∧ (∀ tag, s.rconnUpdateProtocolStat.vconnRcvd tag = 0) ∧
      ∀ tag, s.rconnUpdateProtocolStat.vconnSent tag = 0 := by
  unfold StatRun.rconnUpdateProtocolStat
  split
  next hs =>
    have hzero : s.vconnRcvd = .zero ∧ s.vconnSent = .zero := by
      rw [vconnRcvd, vconnSent, hs]
      exact ⟨rfl, rfl⟩
    exact ⟨h, congrFun hzero.1, congrFun hzero.2⟩
  next v hs =>
    have hrcvd : s.vconnRcvd = v.ofpsRcvd := by rw [vconnRcvd, hs]; rfl
    have hsent : s.vconnSent = v.ofpsSent := by rw [vconnSent, hs]; rfl
    obtain ⟨hmergedRcvd, hmergedSent⟩ := h.merged
    -- a counter is cleared when it is merged, and those that are not merged have been zero
    have hzeroRcvd : ∀ tag, (OfpStat.merge mergedRcvdTags v.ofpsRcvd s.ofpsRcvd).1 tag = 0 := by
      intro tag
      unfold OfpStat.merge
      simp only
      split_ifs with htag
      · rfl
      · rw [← hrcvd]
        exact hmergedRcvd tag htag
    have hzeroSent : ∀ tag, (OfpStat.merge mergedSentTags v.ofpsSent s.ofpsSent).1 tag = 0 := by
      intro tag
      unfold OfpStat.merge
      simp only
      split_ifs with htag
      · rfl
      · rw [← hsent]
        exact hmergedSent tag htag
    have hreceived : s.received = s.pastReceived ++ v.passed := by rw [received, hs]; rfl
    have hsents : s.sent = s.pastSent ++ v.accepted.map Prod.fst := by rw [StatRun.sent, hs]; rfl
    refine ⟨⟨?_, ?_, ?_, ⟨fun tag _ => hzeroRcvd tag, fun tag _ => hzeroSent tag⟩, ?_⟩, hzeroRcvd,
      hzeroSent⟩
    · have hadd := h.rcvd.merge mergedRcvdTags
      rw [hrcvd, hreceived] at hadd
      exact hadd
    · have hadd := h.sent.merge mergedSentTags
      rw [hsent, hsents] at hadd
      exact hadd
    · have hall := h.ordinary
      rw [hreceived, hsents] at hall
      exact hall
    · intro v₁ hv₁
      obtain rfl := Option.some.inj hv₁
      exact h.state v hs

/-- The hook. -/
theorem Tally.protocolStatRemotePacketCb (h : s.Tally) (qbuf : OfpMessage) :
    (s.protocolStatRemotePacketCb qbuf).2.2.Tally := by
  unfold StatRun.protocolStatRemotePacketCb
  split_ifs
  · exact h
  · exact h
  · exact h
  · exact h
  · exact h.rconnUpdateProtocolStat.1

/-- `vconn_close`, when there is nothing to move. -/
theorem Tally.vconnClose (h : s.Tally)
    (hzero : ∀ v ∈ s.vconn, v.ofpsRcvd = .zero ∧ v.ofpsSent = .zero) : s.vconnClose.Tally := by
  unfold StatRun.vconnClose
  split
  next => exact h
  next v hs =>
    obtain ⟨hrcvd, hsent⟩ := hzero v hs
    have hreceived : s.received = s.pastReceived ++ v.passed := by rw [received, hs]; rfl
    have hsents : s.sent = s.pastSent ++ v.accepted.map Prod.fst := by rw [StatRun.sent, hs]; rfl
    refine ⟨?_, ?_, ?_, ⟨fun tag _ => rfl, fun tag _ => rfl⟩, fun v hv => by cases hv⟩
    · have hadd := h.rcvd
      rw [vconnRcvd, hs, hreceived] at hadd
      unfold vconnRcvd received
      simpa [hrcvd] using hadd
    · have hadd := h.sent
      rw [vconnSent, hs, hsents] at hadd
      unfold vconnSent StatRun.sent
      simpa [hsent] using hadd
    · have hall := h.ordinary
      rw [hreceived, hsents] at hall
      unfold received StatRun.sent
      simpa using hall

/-- `vconn_open`. -/
theorem Tally.vconnOpen (h : s.Tally) (hs : s.vconn = none) {connectStatus minVersion : ℤ}
    {transport : τ} : (s.vconnOpen connectStatus minVersion transport).Tally := by
  have hreceived : s.received = s.pastReceived ++ [] := by rw [received, hs]; rfl
  have hsents : s.sent = s.pastSent ++ [] := by rw [StatRun.sent, hs]; rfl
  refine ⟨?_, ?_, ?_, ⟨fun tag _ => rfl, fun tag _ => rfl⟩, ?_⟩
  · have hadd := h.rcvd
    rw [vconnRcvd, hs, hreceived] at hadd
    exact hadd
  · have hadd := h.sent
    rw [vconnSent, hs, hsents] at hadd
    exact hadd
  · have hall := h.ordinary
    rw [hreceived, hsents] at hall
    exact hall
  · intro v hv
    obtain rfl := Option.some.inj hv
    simp only [VconnRun.init]
    split_ifs <;> exact VconnState.noConfusion

/-- The transport does not matter. -/
theorem Tally.transport (h : s.Tally) (transport : τ) :
    Tally { s with vconn := s.vconn.map fun v => { v with transport } } := by
  cases hs : s.vconn with
  | none =>
    have hself : { s with vconn := none } = s := by rw [← hs]
    exact hself ▸ h
  | some v =>
    have hextend := @Tally.extend _ s v v { v with transport } [] [] [] [] h hs
      (.of_eq rfl rfl rfl rfl id)
      ⟨(List.append_nil _).symm, (List.append_nil _).symm, rfl, rfl, rfl⟩ (List.forall_mem_nil _)
    exact hextend

/-- A step keeps the tally. -/
theorem Tally.step {e : Event τ} (h : s.Tally) (hcounted : Counted cls s e)
    (hstep : Step cls s e s') :
    s'.Tally := by
  obtain ⟨fuel, hrun⟩ := hstep
  cases e with
  | vconnOpen connectStatus minVersion transport =>
    unfold next at hrun
    simp only at hrun
    split at hrun
    next hnone => exact Option.some.inj hrun ▸ h.vconnOpen (Option.isNone_iff_eq_none.1 hnone)
    next => cases hrun
  | vconnClose => exact Option.some.inj hrun ▸ h.vconnClose hcounted
  | runConnecting =>
    unfold next runConnecting at hrun
    simp only at hrun
    split at hrun
    next => cases hrun
    next v hs =>
      split at hrun
      next => cases hrun
      next retval v' hconnect =>
        obtain ⟨rs, ss, hgreets⟩ :=
          VconnRun.greets_vconnConnect (h.state v hs) (hcounted v hs fuel) hconnect
        exact Option.some.inj hrun ▸ h.extend hs hgreets (.refl v') (List.forall_mem_nil _)
  | rconnRecv =>
    unfold next rconnRecv at hrun
    simp only at hrun
    split at hrun
    next => cases hrun
    next v hs =>
      -- the handshake may still go on before the message is received
      obtain ⟨hwelcome, hordinary⟩ := hcounted v hs fuel
      split at hrun
      next => cases hrun
      next msg v'' hrecv =>
        obtain ⟨retval, v', hconnect, hcarries⟩ := VconnRun.vconnRecv_spec hrecv
        obtain ⟨rs, ss, hgreets⟩ := VconnRun.greets_vconnConnect (h.state v hs) hwelcome hconnect
        exact Option.some.inj hrun ▸ h.extend hs hgreets hcarries
          (List.forall_mem_singleton.2 (hordinary msg v'' hrecv))
      next errno v'' hrecv =>
        obtain ⟨retval, v', hconnect, hcarries⟩ := VconnRun.vconnRecv_spec hrecv
        obtain ⟨rs, ss, hgreets⟩ := VconnRun.greets_vconnConnect (h.state v hs) hwelcome hconnect
        exact Option.some.inj hrun ▸ h.extend hs hgreets hcarries (List.forall_mem_nil _)
  | trySend m =>
    unfold next trySend at hrun
    simp only at hrun
    split at hrun
    next => cases hrun
    next v hs =>
      obtain ⟨hordinary, hall⟩ := hcounted
      obtain ⟨hwelcome, hsends⟩ := hall v hs fuel
      split at hrun
      next => cases hrun
      next retval v'' hsend =>
        rw [hsends retval v'' hsend] at hsend
        obtain ⟨retval', v', hconnect, hcarries⟩ := VconnRun.vconnSend_spec hsend
        obtain ⟨rs, ss, hgreets⟩ := VconnRun.greets_vconnConnect (h.state v hs) hwelcome hconnect
        exact Option.some.inj hrun ▸ h.extend hs hgreets hcarries
          (List.forall_mem_singleton.2 hordinary)
  | hook qbuf => exact Option.some.inj hrun ▸ h.protocolStatRemotePacketCb qbuf
  | transport transport => exact Option.some.inj hrun ▸ h.transport transport

/-! ### Answers -/

/-- Nothing is counted when nothing has happened. -/
theorem tally_start : (start : StatRun τ).Tally where
  rcvd _ := rfl
  sent _ := rfl
  ordinary := List.forall_mem_nil _
  merged := ⟨fun _ _ => rfl, fun _ _ => rfl⟩
  state v hv := by cases hv

/-- A counter that tells the messages so far is copied, or it is zero and there are none. -/
theorem copyOfpStat_apply {ifps : OfpStat} {ms : List OfpMessage}
    (hifps : ∀ tag, ifps tag = BitVec.ofNat 64 (tagCount tag ms)) (hms : ∀ m ∈ ms, Ordinary m)
    (hlen : ms.length < 2 ^ 64) (tag : OfpStatField) :
    (copyOfpStat ifps tag).toNat = classCount tag ms := by
  rw [← tagCount_eq_classCount fun m hm => (hms m hm).1]
  unfold copyOfpStat
  split_ifs with htag
  · rw [hifps, BitVec.toNat_ofNat]
    exact Nat.mod_eq_of_lt (Nat.lt_of_le_of_lt List.countP_le_length hlen)
  · refine (List.countP_eq_zero.2 fun m hm hmem => ?_).symm
    have hclass := (OfpMessage.mem_statTags_iff (hms m hm).1 tag).1 (of_decide_eq_true hmem)
    exact htag ((hms m hm).2 tag hclass)

/-- Moving counters moves no messages. -/
theorem messages_rconnUpdateProtocolStat (s : StatRun τ) :
    s.rconnUpdateProtocolStat.received = s.received ∧ s.rconnUpdateProtocolStat.sent = s.sent := by
  unfold rconnUpdateProtocolStat
  split
  next => exact ⟨rfl, rfl⟩
  next v hs =>
    unfold received StatRun.sent
    rw [hs]
    exact ⟨rfl, rfl⟩

/-- An answer tells what there has been. -/
theorem Tally.accurate_of_lt (h : s.Tally) (hreceived : s.received.length < 2 ^ 64)
    (hsent : s.sent.length < 2 ^ 64) : s.Accurate := by
  intro qbuf consumed reply s' hcb tag
  obtain ⟨hkeep, hzeroRcvd, hzeroSent⟩ := h.rconnUpdateProtocolStat
  obtain ⟨hsame, hsame'⟩ := messages_rconnUpdateProtocolStat s
  obtain ⟨hordinary, hordinary'⟩ := List.forall_mem_append.1 h.ordinary
  unfold StatRun.protocolStatRemotePacketCb at hcb
  split_ifs at hcb
  · cases hcb
  · cases hcb
  · cases hcb
  · cases hcb
  · cases hcb
    constructor
    · refine copyOfpStat_apply (fun tag => ?_) hordinary hreceived tag
      have hadd := hkeep.rcvd tag
      rw [hzeroRcvd, hsame] at hadd
      exact (BitVec.add_zero _).symm.trans hadd
    · refine copyOfpStat_apply (fun tag => ?_) hordinary' hsent tag
      have hadd := hkeep.sent tag
      rw [hzeroSent, hsame'] at hadd
      exact (BitVec.add_zero _).symm.trans hadd

/-- In every run whose steps are counted, and with fewer than 2^64 messages, the answers tell how
many messages of each class have been received and sent. -/
theorem accurate (h : Transition.ReachableVia (Step cls) (Counted cls) start s)
    (hreceived : s.received.length < 2 ^ 64) (hsent : s.sent.length < 2 ^ 64) : s.Accurate :=
  (h.invariant Tally tally_start fun _ _ _ hs hcounted hstep =>
    hs.step hcounted hstep).accurate_of_lt
    hreceived hsent

/-! ### A handshake, and a flow modification -/

/-- The peer's HELLO is welcome. -/
theorem welcomed_listClass (fuel : ℕ) (ms : List OfpMessage) :
    Welcomed VconnRun.listClass fuel 6 (.init 0 1 (helloMessage 7 :: ms)) := by
  refine ⟨fun h => VconnState.noConfusion h, fun v' h _ => ?_⟩
  obtain rfl := Option.some.inj h
  refine ⟨fun _ msg v'' hrecv => ?_, fun v' h _ => ?_⟩
  · cases fuel with
    | zero => cases hrecv
    | succ fuel =>
      cases hrecv
      have hversion : (1 : ℤ) ≤ min 1 1 := by decide
      exact ⟨rfl, hversion⟩
  · cases fuel with
    | zero => cases h
    | succ fuel =>
      cases h
      exact ⟨fun h => VconnState.noConfusion h, fun v' h hne =>
        absurd (Option.some.inj h ▸ rfl) hne⟩

/-- A request for the counters. -/
def statsRequest : OfpMessage :=
  .ofBytes [1, 4, 0, 16, 0, 0, 0, 9, 0x00, 0xac, 0xde, 0x48, 0, 1, 0, 0] (by decide)

/-- The connection after a handshake. -/
def greeted (ms : List OfpMessage) : Option (StatRun (List OfpMessage)) :=
  runConnecting VconnRun.listClass (start.vconnOpen 0 1 (helloMessage 7 :: ms)) 1

/-- A handshake is told. -/
theorem accurate_greeted : ∃ s, greeted [] = some s ∧ s.Accurate := by
  have hgreeted : ∃ s, greeted [] = some s ∧ s.received.length = 1 ∧ s.sent.length = 1 :=
    ⟨_, rfl, rfl, rfl⟩
  obtain ⟨s, hs, hreceived, hsent⟩ := hgreeted
  refine ⟨s, hs, @accurate _ VconnRun.listClass s ?_ (by omega) (by omega)⟩
  refine .tail (.tail .refl (e := .vconnOpen 0 1 [helloMessage 7]) trivial ⟨1, rfl⟩)
    (e := .runConnecting) (fun v hv fuel => ?_) ⟨1, hs⟩
  obtain rfl := Option.some.inj hv
  exact welcomed_listClass fuel []

/-- A flow modification of the command `OFPFC_MODIFY_STRICT`. -/
def modifyStrict : OfpMessage :=
  .ofBytes ([1, 14, 0, 72, 0, 0, 0, 8] ++ List.replicate 48 0 ++ [0, 2] ++ List.replicate 14 0)
    (by decide)

/-- One that has been received is not told. -/
theorem not_accurate : ¬ ∀ (cls : VconnClass (List OfpMessage)) (s : StatRun (List OfpMessage)),
    Transition.Reachable (Step cls) start s → s.received.length < 2 ^ 64 →
      s.sent.length < 2 ^ 64 → s.Accurate := by
  intro hall
  have hrun : ∃ s₁ s₂, greeted [modifyStrict] = some s₁ ∧
      rconnRecv VconnRun.listClass s₁ 1 = some s₂ ∧
        s₂.received = [helloMessage 7, modifyStrict] ∧ s₂.sent.length = 1 :=
          ⟨_, _, rfl, rfl, rfl, rfl⟩
  obtain ⟨s₁, s₂, hs₁, hs₂, hreceived, hsent⟩ := hrun
  have hreach : Transition.Reachable (Step VconnRun.listClass) start s₂ :=
    .tail (.tail (.tail .refl (e := .vconnOpen 0 1 [helloMessage 7, modifyStrict]) trivial ⟨1, rfl⟩)
      (e := .runConnecting) trivial ⟨1, hs₁⟩) (e := .rconnRecv) trivial ⟨1, hs₂⟩
  have haccurate := hall _ s₂ hreach (by rw [hreceived]; decide) (by rw [hsent]; decide)
  have hcomplete : ∀ m ∈ s₂.received, m.Complete := by
    rw [hreceived]
    refine List.forall_mem_cons.2 ⟨(ordinary_of_hello rfl).1, List.forall_mem_singleton.2 ⟨?_, ?_⟩⟩
    · intro h
      cases h
    · intro _
      decide
  have hcount : classCount (.flowModOps .modifyStrict) s₂.received = 1 := by
    rw [← tagCount_eq_classCount hcomplete, hreceived]
    rfl
  have hanswer := (haccurate statsRequest _ _ _ rfl (.flowModOps .modifyStrict)).1
  rw [hcount] at hanswer
  cases hanswer

end StatRun

end OfAgent
