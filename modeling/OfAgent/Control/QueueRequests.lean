import OfAgent.Control.AddedPorts
import OfAgent.Control.StatsAnswers

/-!
# Requests about queues

What the datapath answers to a request for the configuration of the queues of a port, and to one for
the statistics of queues. `dp_lookup_port` finds a record for every number below `DP_MAX_PORTS`, and
the queues of a record that no port has been made of are no list.

* `ConfigAnswered`, `QueueStatsAnswered`: the datapath reports the queues of the ports that the
  request is about, or says that there is no such port.
* `queueRequests_iff`: it does so exactly when it does not come to the queues of a record that is
  not in use: those of number 0 for the configuration, and those of any number of the table for
  statistics.
-/

namespace OfAgent

open Monitored Transition

/-- The computation may not fail. -/
def faultless : Contract Access ControlFault := ⟨fun _ => True, fun _ => False⟩

/-! ### Answers -/

/-- The number that a request for the configuration of queues is about. -/
def OfpMessage.queueConfigPort (msg : OfpMessage) : BitVec 16 := msg.mem.get16 8

/-- The number that a request for the statistics of queues is about. -/
def OfpMessage.queueStatsPort (msg : OfpMessage) : BitVec 16 := msg.mem.get16 12

/-- The queue id that it is about. -/
def OfpMessage.queueStatsId (msg : OfpMessage) : BitVec 32 := msg.mem.get32 16

/-- The physical port with a number. -/
def Switch.physicalPort (sw : Switch) (n : BitVec 16) : Option SwPort :=
  if n < ofppMax then portInUse sw n else none

/-- The queues of a port that a request for statistics is about. -/
def SwPort.queueStats (queueId : BitVec 32) (p : SwPort) : List OfpQueueStats :=
  (p.queueList.filter fun q => queueId = ofpqAll ∨ q.queueId = queueId).map fun q =>
    ⟨p.portNo, q.queueId⟩

/-- The queues of all ports that such a request is about. -/
def Switch.queueStats (sw : Switch) (n : BitVec 16) (queueId : BitVec 32) : List OfpQueueStats :=
  if n = ofppAll then (sw.listedPorts.filter fun p => p.portNo < ofppMax).flatMap
    (SwPort.queueStats queueId)
  else (portInUse sw n).toList.flatMap (SwPort.queueStats queueId)

namespace Control

variable (ctl : Control) (env : Surroundings) (remote : Remote) (msg : OfpMessage)

/-- The answer to a request for the configuration: the queues of the port, or an error. -/
def IsConfigAnswer (m : OfpOutgoing) : Prop :=
  m.remote = some remote ∧ m.xid = msg.xid ∧
    match ctl.physicalPort msg.queueConfigPort with
    | some p => m.body = .queueGetConfigReply msg.queueConfigPort (p.queueList.map fillQueueDesc)
    | none => ∃ type code data, m.body = .error type code data

/-- The request is handled without a fault, and answered. -/
def ConfigAnswered : Prop :=
  Meets (receive env remote msg) faultless
    (fun _ ctl' => ∃ m, ctl.IsConfigAnswer remote msg m ∧ ctl'.messages = ctl.messages ++ [m]) ctl

/-- The reply to a request for statistics. -/
def IsQueueStatsReply (m : OfpOutgoing) : Prop :=
  m.remote = some remote ∧ m.xid = msg.xid ∧
    m.body = .statsReply false (.queue (ctl.queueStats msg.queueStatsPort msg.queueStatsId))

/-- The request is handled, and whatever else happens until the datapath comes to its dump: it does
so without a fault, and replies. -/
def QueueStatsAnswered : Prop :=
  ∃ ctl₁, Step ctl (.message env remote msg) ctl₁ ∧
    ∀ ctl₂, ReachableVia Step (fun _ e => e.IsElsewhere remote) ctl₁ ctl₂ → ∀ now err2,
      Meets (runDump now err2 remote) faultless
        (fun _ ctl₃ => ∃ m, ctl₂.IsQueueStatsReply remote msg m ∧
          ctl₃.messages = ctl₂.messages ++ [m]) ctl₂

variable {ctl env remote msg}

/-! ### Configuration -/

/-- An error message is an answer about a port that is not there, if the message can be quoted. -/
theorem meets_refused_iff (hnone : ctl.physicalPort msg.queueConfigPort = none)
    (hne : msg.queueConfigPort ≠ 0) :
    Meets (do replyError ⟨remote, msg.xid⟩ ofpetQueueOpFailed ofpqofcBadPort msg.mem; pure (0 : ℤ))
      faultless
      (fun _ ctl' => ∃ m, ctl.IsConfigAnswer remote msg m ∧ ctl'.messages = ctl.messages ++ [m])
        ctl ↔
        (ctl.physicalPort msg.queueConfigPort).isSome = true ∨ msg.queueConfigPort ≠ 0 ∧
          msg.length ≤ 65523 := by
  have hlength : (msg.mem.get16 2).toNat = msg.length := rfl
  simp only [replyError, dpSendErrorMsg, meets_bind, meets_readLength, meets_putOpenflowXid,
    meets_readBytes, meets_sendOpenflowBuffer, meets_pure, hlength]
  have hanswer : ∀ data, ∃ m, ctl.IsConfigAnswer remote msg m ∧
      ctl.messages ++ [(⟨some remote, msg.xid,
      BitVec.ofNat 16 (OfpBody.error ofpetQueueOpFailed ofpqofcBadPort data).size,
      .error ofpetQueueOpFailed ofpqofcBadPort data⟩ : OfpOutgoing)] = ctl.messages ++ [m] := by
    intro data
    refine ⟨_, ⟨rfl, rfl, ?_⟩, rfl⟩
    rw [hnone]
    exact ⟨_, _, data, rfl⟩
  have hsize : 8 ≤ sizeofOfpErrorMsg + msg.length ∧ sizeofOfpErrorMsg + msg.length ≤ 65535 ↔
      msg.length ≤ 65523 := by
    rw [sizeofOfpErrorMsg]
    omega
  rw [hsize, hnone]
  constructor
  · -- a message of more bytes does not fit into the error behind its header
    rintro ⟨-, -, hlong⟩
    exact .inr ⟨hne, not_not.1 hlong⟩
  · rintro (hsome | ⟨-, hle⟩)
    · cases hsome
    · exact ⟨trivial, fun _ => ⟨trivial, hanswer _⟩, fun hnot => hnot hle⟩

/-- The request is answered if it is about a physical port, or about a number other than 0, and can
be quoted then. -/
theorem meets_recvQueueGetConfigRequest_iff (h : ctl.PortsAdded) :
    Meets (recvQueueGetConfigRequest ⟨remote, msg.xid⟩ msg.mem) faultless
      (fun _ ctl' => ∃ m, ctl.IsConfigAnswer remote msg m ∧ ctl'.messages = ctl.messages ++ [m])
        ctl ↔
        (ctl.physicalPort msg.queueConfigPort).isSome = true ∨ msg.queueConfigPort ≠ 0 ∧
          msg.length ≤ 65523 := by
  have hread : msg.mem.get16 8 = msg.queueConfigPort := rfl
  simp only [recvQueueGetConfigRequest, meets_bind, meets_read16, meets_get, hread]
  refine (and_iff_right trivial).trans ?_
  by_cases hmax : msg.queueConfigPort < ofppMax
  · have hphysical : ctl.physicalPort msg.queueConfigPort =
        portInUse ctl.toSwitch msg.queueConfigPort := if_pos hmax
    rw [if_pos hmax]
    cases hp : ctl.dpLookupPort msg.queueConfigPort with
    | none =>
      have hnone : ctl.physicalPort msg.queueConfigPort = none := by
        rw [hphysical, portInUse, hp]
        rfl
      have hne : msg.queueConfigPort ≠ 0 := by
        intro hzero
        -- the table has a record with this number, added or not
        rw [hzero] at hp
        cases hp
      exact meets_refused_iff hnone hne
    | some p =>
      have hadded := h.added _ p hp
      simp only
      cases hused : p.used with
      | false =>
        have hnone : ctl.physicalPort msg.queueConfigPort = none := by
          rw [hphysical, portInUse, hp, Option.filter_some, hused]
          rfl
        rw [(hadded.zeroed hused).1]
        by_cases hzero : msg.queueConfigPort = 0
        · -- the number of the record is the one that is asked for
          rw [if_neg (fun hne => hne hzero.symm)]
          simp only [meets_bind, walkQueues, hused, Bool.false_eq_true, if_false, meets_fail,
            meets_putOpenflowXid]
          rw [hnone]
          refine iff_of_false (fun hall => hall.1 (by decide)) ?_
          rintro (hsome | ⟨hne, -⟩)
          · cases hsome
          · exact hne hzero
        · -- the record has another number than 0
          rw [if_pos (Ne.symm hzero)]
          exact meets_refused_iff hnone hzero
      | true =>
        have hsome : ctl.physicalPort msg.queueConfigPort = some p := by
          rw [hphysical, portInUse, hp, Option.filter_some, hused]
          rfl
        rw [if_neg (fun hne => hne (hadded.portNo hused)), hsome]
        simp only [meets_bind, walkQueues, hused, if_true, meets_pure, meets_putOpenflowXid,
          meets_sendOpenflowBuffer]
        refine iff_of_true ⟨fun _ => ⟨_, ⟨rfl, rfl, ?_⟩, rfl⟩, fun hbad => absurd (by decide) hbad⟩
          (.inl rfl)
        rw [hsome]
  · have hnone : ctl.physicalPort msg.queueConfigPort = none := if_neg hmax
    have hne : msg.queueConfigPort ≠ 0 := fun hzero => hmax (hzero ▸ by decide)
    rw [if_neg hmax]
    exact meets_refused_iff hnone hne

/-- A request for the configuration of queues. -/
theorem configAnswered_iff (h : ctl.PortsAdded)
    (henabled : (ControlEvent.message env remote msg).Enabled ctl)
    (htype : msg.type = some .queueGetConfigRequest) :
    ctl.ConfigAnswered env remote msg ↔
      (ctl.physicalPort msg.queueConfigPort).isSome = true ∨ msg.queueConfigPort ≠ 0 ∧
        msg.length ≤ 65523 := by
  have hversion : msg.version = ofpVersion := by
    have hrecv := henabled.2
    unfold doRecv at hrecv
    rw [htype, Bool.or_eq_true_iff, beq_iff_eq] at hrecv
    exact hrecv.resolve_right (by decide)
  exact (meets_receive_of_handler (fun _ _ _ => trivial) hversion htype rfl msg.length_ge).trans
    (meets_recvQueueGetConfigRequest_iff h)

/-! ### Statistics -/

/-- The queue with an id is the only one with it. -/
theorem filter_queueId_eq (queueId : BitVec 32) {queues : List SwQueue}
    (h : (queues.map SwQueue.queueId).Nodup) :
    (queues.filter fun q => q.queueId = queueId) =
      (queues.find? fun q => q.queueId == queueId).toList := by
  induction queues with
  | nil => rfl
  | cons q queues ih =>
    rw [List.map_cons, List.nodup_cons] at h
    rw [List.filter_cons, List.find?_cons]
    by_cases hid : q.queueId = queueId
    · -- no other queue has the id
      have hnone : (queues.filter fun q => q.queueId = queueId) = [] := by
        refine List.filter_eq_nil_iff.2 fun q' hq' hid' => h.1 ?_
        rw [hid, ← of_decide_eq_true hid']
        exact List.mem_map_of_mem hq'
      rw [decide_eq_true hid, if_pos rfl, hnone, beq_iff_eq.2 hid]
      rfl
    · rw [decide_eq_false hid, if_neg Bool.false_ne_true, beq_eq_false_iff_ne.2 hid]
      exact ih h.2

/-- The part of `queue_stats_dump` for one port. -/
theorem meets_dumpQueueStats_iff {n : BitVec 16} {p : SwPort} (h : p.Added n) (queueId : BitVec 32)
    {Q : List OfpQueueStats → Control → Prop} :
    Meets (dumpQueueStats queueId p) faultless Q ctl ↔
      p.used = true ∧ Q (p.queueStats queueId) ctl := by
  have hqueues : (if queueId = ofpqAll then p.queueList else (p.lookupQueue queueId).toList) =
      p.queueList.filter fun q => queueId = ofpqAll ∨ q.queueId = queueId := by
    by_cases hall : queueId = ofpqAll
    · rw [if_pos hall]
      exact (List.filter_eq_self.2 fun q _ => decide_eq_true (.inl hall)).symm
    · rw [if_neg hall, SwPort.lookupQueue, ← filter_queueId_eq queueId h.queueIds]
      refine List.filter_congr fun q _ => ?_
      rw [decide_eq_decide]
      exact (or_iff_right hall).symm
  rw [dumpQueueStats, meets_bind, walkQueues, meets_ite, meets_pure, meets_fail, meets_pure,
    hqueues]
  constructor
  · rintro ⟨hok, hfault⟩
    have hused : p.used = true := not_not.1 hfault
    exact ⟨hused, hok hused⟩
  · rintro ⟨hused, hok⟩
    exact ⟨fun _ => hok, fun hnot => hnot hused⟩

/-- The loop of `queue_stats_dump`, over ports in use. -/
theorem meets_dumpAllQueueStats_iff (queueId : BitVec 32) {ps : List SwPort}
    (hps : ∀ p ∈ ps, p.Added p.portNo ∧ p.used = true) {Q : List OfpQueueStats → Control → Prop} :
    Meets (dumpAllQueueStats queueId ps) faultless Q ctl ↔
      Q ((ps.filter fun p => p.portNo < ofppMax).flatMap (SwPort.queueStats queueId)) ctl := by
  induction ps generalizing Q with
  | nil => exact meets_pure _
  | cons p ps ih =>
    obtain ⟨⟨hadded, hused⟩, hps⟩ := List.forall_mem_cons.1 hps
    rw [dumpAllQueueStats, List.filter_cons]
    by_cases hmax : p.portNo < ofppMax
    · rw [if_pos hmax, if_pos (decide_eq_true hmax), meets_bind, meets_dumpQueueStats_iff hadded,
        and_iff_right hused, meets_bind, ih hps, meets_pure, List.flatMap_cons]
    · rw [if_neg hmax, if_neg (fun h => hmax (of_decide_eq_true h)), meets_bind, meets_pure,
        meets_bind, ih hps, meets_pure, List.nil_append]

/-- `queue_stats_dump` reports the queues, unless it comes to a record of the table that is not in
use. -/
theorem meets_queueStatsDump_iff (h : ctl.PortsAdded) (n : BitVec 16) (queueId : BitVec 32)
    {Q : List OfpQueueStats → Control → Prop} :
    Meets (queueStatsDump n queueId) faultless Q ctl ↔
      (n.toNat < dpMaxPorts → (portInUse ctl.toSwitch n).isSome = true) ∧
        Q (ctl.queueStats n queueId) ctl := by
  rw [queueStatsDump, meets_bind, meets_get]
  unfold Switch.queueStats
  by_cases hall : n = ofppAll
  · have hlisted : ∀ p ∈ ctl.listedPorts, p.Added p.portNo ∧ p.used = true := by
      intro p hp
      have hused := h.used_of_listed hp
      obtain ⟨m, -, hlookup⟩ := List.mem_filterMap.1 hp
      have hadded := h.added m p hlookup
      rw [hadded.portNo hused]
      exact ⟨hadded, hused⟩
    have hlarge : n.toNat < dpMaxPorts → (portInUse ctl.toSwitch n).isSome = true := by
      rw [hall]
      exact fun hlt => absurd hlt (by decide)
    rw [if_pos hall, if_pos hall, meets_dumpAllQueueStats_iff queueId hlisted, and_iff_right hlarge]
  · rw [if_neg hall, if_neg hall]
    cases hp : ctl.dpLookupPort n with
    | none =>
      have hnone : portInUse ctl.toSwitch n = none := by
        rw [portInUse, hp]
        rfl
      have hlarge : ¬ n.toNat < dpMaxPorts := by
        intro hlt
        rw [Switch.dpLookupPort, dif_pos hlt] at hp
        cases hp
      rw [hnone, and_iff_right fun hlt => absurd hlt hlarge]
      exact meets_pure _
    | some p =>
      have hadded := h.added n p hp
      rw [portInUse, hp, Option.filter_some]
      simp only
      rw [meets_dumpQueueStats_iff hadded]
      cases hused : p.used with
      | true =>
        rw [if_pos rfl, Option.toList_some, List.flatMap_singleton]
        exact and_congr_left' (iff_of_true rfl fun _ => rfl)
      | false =>
        -- only records of the table are not in use
        have hsmall := (hadded.zeroed hused).2
        exact iff_of_false (fun hand => by cases hand.1) fun hand => by cases hand.1 hsmall

/-! ### Runs -/

/-- What a request for the statistics of queues leaves behind: the dump of its connection. -/
def queueDump (remote : Remote) (msg : OfpMessage) : StatsDumpCb :=
  ⟨false, ⟨remote, msg.xid⟩, .queue msg.queueStatsPort msg.queueStatsId⟩

/-- The request starts the dump. -/
theorem meets_queueStatsRequest (henabled : (ControlEvent.message env remote msg).Enabled ctl)
    (htype : msg.type = some .statsRequest) (hstats : msg.statsRequestType = 5)
    (hlen : msg.length = 20) :
    Meets (ControlEvent.message env remote msg).run faultless
      (fun _ ctl' => ctl' = { ctl with
        cbDump := Function.update ctl.cbDump remote (some (queueDump remote msg)) }) ctl := by
  obtain ⟨hdump, hrecv⟩ := henabled
  -- only greetings and errors are received in other versions
  have hversion : msg.version = ofpVersion := by
    unfold doRecv at hrecv
    rw [htype, Bool.or_eq_true_iff, beq_iff_eq] at hrecv
    exact hrecv.resolve_right (by decide)
  have hsize : (msg.mem.get16 2).toNat = msg.length := rfl
  have hread : msg.mem.get16 8 = 5 := hstats
  have hfive : statsType (5 : BitVec 16) =
      some ⟨sizeofOfpQueueStatsRequest, sizeofOfpQueueStatsRequest, fun oh => do
      let portNo ← read16 oh 12
      let queueId ← read32 oh 16
      pure (some (.queue portNo queueId))⟩ := rfl
  refine meets_bind.2 ((meets_receive_of_handler (fun _ _ _ => trivial) hversion htype rfl ?_).2 ?_)
  · rw [hlen]
    decide
  · simp only [recvStatsRequest, meets_bind, meets_readLength, meets_read16, hsize, hread, hfive,
      meets_readBytes, meets_observe]
    refine ⟨trivial, trivial, trivial, trivial, ?_⟩
    -- the length is the one that the request for queues asks for
    rw [hlen, if_neg (by decide)]
    simp only [meets_bind, meets_read16, meets_read32, meets_pure, remoteStartDump, meets_get,
      hdump, Option.isSome_none, Bool.false_eq_true, if_false, meets_modify]
    exact ⟨trivial, trivial, rfl⟩

/-- A turn of the dump replies, unless it comes to a record that is not in use. -/
theorem meets_runDump_queue_iff (h : ctl.PortsAdded)
    (hdump : ctl.cbDump remote = some (queueDump remote msg)) (now : BitVec 64) (err2 : ℤ) :
    Meets (runDump now err2 remote) faultless
      (fun _ ctl' => ∃ m, ctl.IsQueueStatsReply remote msg m ∧ ctl'.messages = ctl.messages ++ [m])
        ctl ↔
        (msg.queueStatsPort.toNat < dpMaxPorts →
          (portInUse ctl.toSwitch msg.queueStatsPort).isSome = true) := by
  have hlen : 8 ≤ sizeofOfpStatsReply ∧ sizeofOfpStatsReply ≤ 65535 := by decide
  have hreply : ∀ (more : Bool) (body : OfpBody),
      body = .statsReply false (.queue (ctl.queueStats msg.queueStatsPort msg.queueStatsId)) →
      ∃ m, ctl.IsQueueStatsReply remote msg m ∧
        ctl.messages ++ [(⟨some remote, msg.xid, BitVec.ofNat 16 body.size, body⟩ : OfpOutgoing)] =
          ctl.messages ++ [m] :=
    fun _ body hbody => ⟨_, ⟨rfl, rfl, hbody⟩, rfl⟩
  rw [runDump, meets_bind, meets_get, hdump]
  simp only [meets_bind, statsDumpCallback, queueDump, Bool.false_eq_true, if_false,
    meets_putOpenflowXid, hlen, and_self, true_imp_iff, not_true_eq_false, false_imp_iff, and_true,
    dumpState, meets_queueStatsDump_iff h, meets_pure]
  refine and_iff_left ?_
  have hanswer := hreply false _ rfl
  simp only [setDump, meets_modify, meets_sendOpenflowBuffer, meets_ite, meets_pure]
  exact ⟨fun _ => ⟨fun _ => hanswer, fun _ => hanswer⟩,
    fun _ => ⟨fun _ => hanswer, fun _ => hanswer⟩⟩

/-- A request for the statistics of queues. -/
theorem queueStatsAnswered_iff (h : ctl.PortsAdded) (hown : ctl.OwnDumps)
    (henabled : (ControlEvent.message env remote msg).Enabled ctl)
    (htype : msg.type = some .statsRequest) (hstats : msg.statsRequestType = 5)
    (hlen : msg.length = 20) :
    ctl.QueueStatsAnswered env remote msg ↔
      (msg.queueStatsPort.toNat < dpMaxPorts →
        (portInUse ctl.toSwitch msg.queueStatsPort).isSome = true) := by
  have hstart := meets_queueStatsRequest henabled htype hstats hlen
  have hports : HasPorts ctl.portList ctl := ⟨h, rfl⟩
  constructor
  · rintro ⟨ctl₁, hstep, hturn⟩
    have hctl₁ := hstart.of_result hstep.2
    -- the dump may come to its turn at once
    have hports₁ := hports.step hstep
    have hused :=
      (meets_runDump_queue_iff hports₁.ports (hctl₁ ▸ Function.update_self ..) 0 0).1
        (hturn ctl₁ .refl 0 0)
    intro hlt
    rw [← h.listed, ← hports₁.portList_eq, hports₁.ports.listed]
    exact hused hlt
  · intro hused
    obtain ⟨⟨⟩, ctl₁, hok, hctl₁⟩ := hstart.exists_ok
    have hstep : Step ctl (.message env remote msg) ctl₁ := ⟨henabled, hok⟩
    refine ⟨ctl₁, hstep, fun ctl₂ hrun now err2 => ?_⟩
    -- the dump waits, whatever else happens
    obtain ⟨hports₂, -, hdump₂⟩ : HasPorts ctl.portList ctl₂ ∧ ctl₂.OwnDumps ∧
        ctl₂.cbDump remote = some (queueDump remote msg) := by
      refine hrun.invariant
        (fun s => HasPorts ctl.portList s ∧ s.OwnDumps ∧
          s.cbDump remote = some (queueDump remote msg))
        ⟨hports.step hstep, hstep.ownDumps hown, hctl₁ ▸ Function.update_self ..⟩ ?_
      rintro s e s' ⟨hs, howns, hdumps⟩ helse hstep'
      exact ⟨hs.step hstep', hstep'.ownDumps howns,
        (hstep'.frame howns helse).cbDump_eq.trans hdumps⟩
    refine (meets_runDump_queue_iff hports₂.ports hdump₂ now err2).2 fun hlt => ?_
    rw [← hports₂.ports.listed, hports₂.portList_eq, h.listed]
    exact hused hlt

end Control

open Control

/-- In every state that a datapath with added ports can reach, a request for the configuration of
queues is answered exactly when it is about a physical port, or about another number than 0 with a
message that an error can quote; and one for the statistics of queues exactly when its number
belongs to a port, or is none of the table. -/
theorem queueRequests_iff {sizes : TableSizes} {init ctl : Control} (hinit : Initial sizes init)
    (hports : init.PortsAdded) (hrun : Reachable Step init ctl) {env : Surroundings}
    {remote : Remote} {msg : OfpMessage}
    (henabled : (ControlEvent.message env remote msg).Enabled ctl) :
    (msg.type = some .queueGetConfigRequest → (ctl.ConfigAnswered env remote msg ↔
      (ctl.physicalPort msg.queueConfigPort).isSome = true ∨ msg.queueConfigPort ≠ 0 ∧
        msg.length ≤ 65523)) ∧
    (msg.type = some .statsRequest → msg.statsRequestType = 5 → msg.length = 20 →
      (ctl.QueueStatsAnswered env remote msg ↔
        (msg.queueStatsPort.toNat < dpMaxPorts →
          (portInUse ctl.toSwitch msg.queueStatsPort).isSome = true))) := by
  have hadded := (hasPorts_of_reachable hports hrun).ports
  have hown : ctl.OwnDumps := hrun.invariant OwnDumps hinit.ownDumps fun _ _ _ h _ hstep =>
    hstep.ownDumps h
  exact ⟨configAnswered_iff hadded henabled, queueStatsAnswered_iff hadded hown henabled⟩

/-! ### One port -/

/-- The port of the switch has been added. -/
theorem portsAdded_onePortSwitch (dp : Datapath) : (onePortSwitch dp).PortsAdded := by
  have hnone : ({ onePortSwitch dp with
      ports := fun _ => .unused, portList := [], portList_nodup := List.nodup_nil } :
        Switch).PortsAdded :=
    .of_unused (fun _ => rfl) rfl rfl
  refine hnone.append (m := 1) (q := .added) rfl rfl rfl
    ⟨fun _ => rfl, fun hunused => (Bool.noConfusion hunused), List.nodup_nil⟩ fun n hne => ?_
  unfold Switch.dpLookupPort
  by_cases hn : n.toNat < dpMaxPorts
  · rw [dif_pos hn, dif_pos hn]
    refine congrArg some (if_neg fun heq => hne ?_)
    have hone : n.toNat = 1 := congrArg Fin.val heq
    exact BitVec.eq_of_toNat_eq hone
  · rw [dif_neg hn, dif_neg hn]

/-- A request for the configuration of the queues of a port. -/
def queueConfigRequest (n : Byte) : OfpMessage :=
  .ofBytes [1, 20, 0, 12, 0, 0, 0, 7, 0, n, 0, 0] (by decide +revert)

/-- A request for the statistics of all queues of a port. -/
def queueStatsRequest (n : Byte) : OfpMessage :=
  .ofBytes [1, 16, 0, 20, 0, 0, 0, 7, 0, 5, 0, 0, 0, n, 0, 0, 0xff, 0xff, 0xff, 0xff]
    (by decide +revert)

/-- The queues of port 1 are reported. -/
theorem queueRequests_port : emptyControl.ConfigAnswered .calm 0 (queueConfigRequest 1) ∧
    emptyControl.QueueStatsAnswered .calm 0 (queueStatsRequest 1) := by
  have hinit : Initial .source emptyControl := .start rfl rfl 1 []
  have hports : emptyControl.PortsAdded := portsAdded_onePortSwitch _
  constructor
  · exact ((queueRequests_iff hinit hports .refl ⟨rfl, by decide⟩).1 (by decide)).2
      (.inl (by decide))
  · exact ((queueRequests_iff hinit hports .refl ⟨rfl, by decide⟩).2 (by decide) (by decide)
      (by decide)).2
      fun _ => by decide

/-- A request about number 0, and one about the statistics of a number without a port, lead to a
record that is not in use. -/
theorem not_queueRequests : ¬ emptyControl.ConfigAnswered .calm 0 (queueConfigRequest 0) ∧
    ¬ emptyControl.QueueStatsAnswered .calm 0 (queueStatsRequest 7) := by
  have hports : emptyControl.PortsAdded := portsAdded_onePortSwitch _
  constructor
  · rw [configAnswered_iff hports ⟨rfl, by decide⟩ (by decide)]
    decide
  · have hown : emptyControl.OwnDumps :=
      (show Initial .source emptyControl from .start rfl rfl 1 []).ownDumps
    rw [queueStatsAnswered_iff hports hown ⟨rfl, by decide⟩ (by decide) (by decide) (by decide)]
    decide

end OfAgent
