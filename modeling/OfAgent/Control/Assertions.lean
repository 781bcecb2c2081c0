import OfAgent.Control.Reads
import OfAgent.Forward.Nested

/-!
# Assertions

What a remote must not send. The datapath asserts the version of every message, though `do_recv`
lets some types through in any version, and the length of every message that it sends, though an
error message quotes all of the offending one.

* `sound`: no failure of a computation is a failed assertion.
* `Refused`: the messages that are answered by an error; `LeavesRoom`: the ones whose actions find
  room for their pushes; `Harmless`: the ones that keep the assertions.
* `sound_dispatch`: the handlers, type by type.
* `assertions_iff`: a message whose handling ends keeps the assertions exactly when it is harmless.
-/

namespace OfAgent

open Monitored Switch

/-- No failure is a failed assertion. -/
def sound : Contract Access ControlFault := ⟨fun _ => True, fun e => ¬ e.IsAssertion⟩

/-! ### Failures -/

section Sound

variable {ctl : Control} {oh : Memory}

/-- Nothing is asked of what is seen. -/
@[simp]
theorem sound_seen (o : Access) : sound.seen o := trivial

/-- A null pointer is no failed assertion. -/
@[simp]
theorem sound_nullPointer : sound.failed .nullPointer := id

/-- The assertions of `put_openflow_xid` are some. -/
@[simp]
theorem not_sound_openflowLen : ¬ sound.failed .openflowLen := fun h => h trivial

/-- Sending an error message keeps the assertions when the message and the quoted bytes fit. -/
theorem sound_dpSendErrorMsg_iff (sender : Sender) (type code : BitVec 16) (len : ℕ) :
    Meets (dpSendErrorMsg sender type code oh len) sound (fun _ _ => True) ctl ↔
      len ≤ 65523 := by
  simp only [dpSendErrorMsg, meets_bind, meets_putOpenflowXid, meets_readBytes,
    meets_sendOpenflowBuffer, sound_seen, not_sound_openflowLen, and_true, imp_true_iff, true_and,
    imp_false, not_not, sizeofOfpErrorMsg]
  omega

/-- Messages about removed flows keep the assertions. -/
theorem sound_performAll {env : Surroundings} {sender : Sender} {outputs : List DpOutput}
    (h : ∀ output ∈ outputs, ∃ ofr, output = .flowRemoved ofr) :
    Meets (performAll env sender oh outputs) sound (fun _ _ => True) ctl := by
  induction outputs generalizing ctl with
  | nil => simp [performAll]
  | cons output outputs ih =>
    obtain ⟨ofr, rfl⟩ := h output List.mem_cons_self
    have hsize : 8 ≤ sizeofOfpFlowRemoved ∧ sizeofOfpFlowRemoved ≤ 65535 := by decide
    simp only [performAll, perform, meets_bind, meets_putOpenflowXid, meets_sendOpenflowBuffer,
      hsize, and_self, true_imp_iff, not_true_eq_false, false_imp_iff, and_true]
    exact ih fun output hmem => h output (List.mem_cons_of_mem _ hmem)

end Sound

/-! ### Messages that are answered by an error -/

namespace OfpMessage

variable (msg : OfpMessage)

/-- `recv_queue_get_config_request` finds no port with the number of the request. -/
def RefusesQueueGetConfig (ctl : Control) : Prop :=
  msg.mem.get16 8 < ofppMax → ∀ p, ctl.dpLookupPort (msg.mem.get16 8) = some p →
    p.portNo ≠ msg.mem.get16 8

/-- `recv_of_exp_queue_modify` does not accept the queue, finds no port that is in use, or no room
for a new queue, or the network device refuses. -/
def RefusesQueueModify (env : Surroundings) (ctl : Control) : Prop :=
  msg.mem.get16 28 = 24 → msg.mem.get16 32 = ofpqtMinRate →
    ∀ p, portInUse ctl.toSwitch (msg.mem.get16 16) = some p →
      match p.lookupQueue (msg.mem.get32 24) with
      | some q => p.netdev = true ∧
          env.changeClass (msg.mem.get16 16) q.classId (msg.mem.get16 40) = true
      | none => ∀ queueNo, p.freeQueueNo = some queueNo → p.netdev = true ∧
          env.setupClass (msg.mem.get16 16) (BitVec.ofNat 16 queueNo) (msg.mem.get16 40) = true

/-- `recv_of_exp_queue_delete` finds a port without a network device or without the queue. -/
def RefusesQueueDelete (ctl : Control) : Prop :=
  ∃ p, ctl.dpLookupPort (msg.mem.get16 16) = some p ∧
    (p.netdev = true → p.lookupQueue (msg.mem.get32 24) = none)

/-- `recv_vendor` does not know the vendor, or the vendor OpenFlow refuses to change a queue. -/
def RefusesVendor (env : Surroundings) (ctl : Control) : Prop :=
  msg.vendor ≠ privateVendorId ∧
    (msg.vendor = openflowVendorId →
      msg.subtype = 0 ∧ msg.RefusesQueueModify env ctl ∨
        msg.subtype = 1 ∧ msg.RefusesQueueDelete ctl)

/-- The message is answered by an error that quotes it. -/
def Refused (env : Surroundings) (ctl : Control) : Prop :=
  match msg.type with
  | some .queueGetConfigRequest => msg.RefusesQueueGetConfig ctl
  | some .vendor => 12 ≤ msg.length ∧ msg.RefusesVendor env ctl
  | some .flowMod => sizeofOfpFlowMod ≤ msg.length ∧ (OfpFlowMod.ofMemory msg.mem).IsInstallation ∧
      ctl.toDatapath.installed env.now (.ofMemory msg.mem) = none
  -- there is no handler for the type
  | some t => handlerOf env t = none
  | none => True

/-- There is room for all the pushes that the message leads to: those of the list that a flow
modification executes on a saved packet, and of the lists that this one leads to. -/
def LeavesRoom (env : Surroundings) (ctl : Control) : Prop :=
  msg.type = some .flowMod → sizeofOfpFlowMod ≤ msg.length →
    (OfpFlowMod.ofMemory msg.mem).IsInstallation →
    ∀ chain, ctl.toDatapath.installed env.now (.ofMemory msg.mem) = some chain →
    ∀ buffer, (ctl.toDatapath.takeBuffer (.ofMemory msg.mem)).1 = some buffer →
      AllRoom { ctl.toSwitch with chain }
        ⟨.cloneData buffer, (OfpFlowMod.ofMemory msg.mem).ofpMatch.inPort,
          (OfpFlowMod.ofMemory msg.mem).actions⟩

/-- The version is the one that the datapath asserts, what is quoted fits into an error message, and
there is room in front of the packets. -/
structure Harmless (env : Surroundings) (ctl : Control) : Prop where
  /-- `fwd_control_input` asserts the version. -/
  version : msg.version = ofpVersion
  /-- `put_openflow_xid` asserts the length of the error message. -/
  quoted : msg.Refused env ctl → msg.length ≤ 65523
  /-- `ofpbuf_push_uninit` asserts the headroom. -/
  room : msg.LeavesRoom env ctl

end OfpMessage

/-! ### The handlers -/

section Handlers

variable (env : Surroundings) (sender : Sender) (msg : OfpMessage) (ctl : Control)

/-- An error message quotes the whole request. -/
@[simp]
theorem sound_replyError_iff (type code : BitVec 16) :
    Meets (replyError sender type code msg.mem) sound (fun _ _ => True) ctl ↔
      msg.length ≤ 65523 := by
  unfold replyError
  rw [meets_bind, meets_readLength]
  exact (and_iff_right trivial).trans (sound_dpSendErrorMsg_iff sender type code _)

/-- Requests for copies and for the configuration are always answered. -/
theorem sound_requests :
    (Meets (recvBarrierRequest sender msg.mem) sound (fun _ _ => True) ctl ∧
      Meets (recvEchoRequest sender msg.mem) sound (fun _ _ => True) ctl) ∧
    (Meets (recvFeaturesRequest sender) sound (fun _ _ => True) ctl ∧
      Meets (recvGetConfigRequest sender) sound (fun _ _ => True) ctl) := by
  simp [recvBarrierRequest, recvEchoRequest, recvFeaturesRequest, recvGetConfigRequest,
    sizeofOfpSwitchFeatures, sizeofOfpSwitchConfig]

/-- So are changes of the configuration. -/
theorem sound_changes :
    Meets (recvSetConfig msg.mem) sound (fun _ _ => True) ctl ∧
      Meets (recvPortMod msg.mem) sound (fun _ _ => True) ctl := by
  constructor
  · simp [recvSetConfig]
  · simp only [recvPortMod, meets_bind, meets_read16, meets_read32, meets_get, sound_seen, true_and]
    rw [meets_ite]
    refine ⟨fun _ => by simp, fun _ => ?_⟩
    cases ctl.dpLookupPort (msg.mem.get16 8) <;> simp

/-- A statistics request is never answered by an error, and starts a dump on a connection that has
none. -/
theorem sound_recvStatsRequest (hdump : ctl.cbDump sender.remote = none) :
    Meets (recvStatsRequest sender msg.mem) sound (fun _ _ => True) ctl := by
  simp only [recvStatsRequest, meets_bind, meets_readLength, meets_read16, sound_seen, true_and]
  cases hst : statsType (msg.mem.get16 8) with
  | none => simp
  | some st =>
    simp only [meets_bind, meets_readBytes, meets_observe, sound_seen, true_and]
    rw [meets_ite]
    refine ⟨fun _ => by simp, fun _ => ?_⟩
    have hinit : Meets (st.init msg.mem) sound (fun _ ctl' => ctl' = ctl) ctl := by
      unfold statsType at hst
      split at hst
      all_goals
        cases hst
        try simp
    rw [meets_bind]
    refine hinit.mono fun state ctl' heq => ?_
    rw [heq]
    cases state with
    | none => simp
    | some state => simp [remoteStartDump, meets_ite, hdump]

/-- A request for the configuration of queues. -/
theorem sound_recvQueueGetConfigRequest_iff :
    Meets (recvQueueGetConfigRequest sender msg.mem) sound (fun _ _ => True) ctl ↔
      (msg.RefusesQueueGetConfig ctl → msg.length ≤ 65523) := by
  have hsize : 8 ≤ sizeofOfpQueueGetConfigReply ∧ sizeofOfpQueueGetConfigReply ≤ 65535 := by decide
  simp only [recvQueueGetConfigRequest, meets_bind, meets_read16, meets_get, sound_seen, true_and,
    meets_ite]
  unfold OfpMessage.RefusesQueueGetConfig
  by_cases hmax : msg.mem.get16 8 < ofppMax
  · simp only [hmax, true_imp_iff, not_true_eq_false, false_imp_iff, and_true]
    cases ctl.dpLookupPort (msg.mem.get16 8) with
    | none => simp
    | some p =>
      by_cases hno : p.portNo = msg.mem.get16 8
      · simp [hno, hsize, walkQueues, meets_ite]
      · simp [hno]
  · simp [hmax]

/-- The change of a queue. -/
theorem sound_recvOfExpQueueModify_iff :
    Meets (recvOfExpQueueModify env sender msg.mem) sound (fun _ _ => True) ctl ↔
      (msg.RefusesQueueModify env ctl → msg.length ≤ 65523) := by
  simp only [recvOfExpQueueModify, meets_bind, meets_read16, meets_read32, meets_get, meets_ite,
    sound_seen, true_and, sound_replyError_iff]
  unfold OfpMessage.RefusesQueueModify
  by_cases hlen : msg.mem.get16 28 = 24
  swap
  · simp only [hlen, ne_eq, not_false_eq_true, true_imp_iff, not_true_eq_false, false_imp_iff,
      and_true]
  by_cases hproperty : msg.mem.get16 32 = ofpqtMinRate
  swap
  · simp only [hlen, hproperty, ne_eq, not_false_eq_true, true_imp_iff, not_true_eq_false,
      false_imp_iff, and_true, true_and]
  simp only [hlen, hproperty, ne_eq, not_true_eq_false, not_false_eq_true, true_imp_iff,
    false_imp_iff, true_and]
  -- the length matters only where an error message copies the request
  cases portInUse ctl.toSwitch (msg.mem.get16 16) with
  | none => simp
  | some p =>
    simp only [Option.some.injEq, forall_eq']
    cases p.lookupQueue (msg.mem.get32 24) with
    | none =>
      simp only [createQueue]
      split
      next h => simp [h]
      next queueNo h =>
        cases p.netdev <;> simp [h, meets_ite, setPort]
    | some q =>
      simp only [modifyQueue]
      cases p.netdev <;> simp [meets_ite, setPort]

/-- The deletion of a queue. -/
theorem sound_recvOfExpQueueDelete_iff :
    Meets (recvOfExpQueueDelete sender msg.mem) sound (fun _ _ => True) ctl ↔
      (msg.RefusesQueueDelete ctl → msg.length ≤ 65523) := by
  simp only [recvOfExpQueueDelete, meets_bind, meets_read16, meets_read32, meets_get, sound_seen,
    true_and]
  unfold OfpMessage.RefusesQueueDelete
  cases ctl.dpLookupPort (msg.mem.get16 16) with
  | none => simp
  | some p =>
    cases hdev : p.netdev with
    | false => simp [hdev]
    | true => cases hq : p.lookupQueue (msg.mem.get32 24) <;> simp [hdev, hq, setPort]

/-- Copying a string keeps the assertions. -/
theorem sound_strncpy {Q : List Byte → Control → Prop} (hQ : ∀ bs, Q bs ctl) (n off : ℕ) :
    Meets (strncpy msg.mem n off) sound Q ctl := by
  induction n generalizing off Q with
  | zero => simp [strncpy, hQ]
  | succ n ih =>
    simp only [strncpy, meets_bind, meets_read8, meets_ite, meets_pure, sound_seen, true_and]
    exact ⟨fun _ => hQ _, fun _ => ih (fun bs => hQ _) _⟩

/-- A message of a vendor. -/
theorem sound_recvVendor_iff :
    Meets (recvVendor env sender msg.mem) sound (fun _ _ => True) ctl ↔
      (msg.RefusesVendor env ctl → msg.length ≤ 65523) := by
  have hvendor : msg.mem.get32 8 = msg.vendor := rfl
  have hsubtype : (msg.mem.get32 12).toNat = msg.subtype := rfl
  simp only [recvVendor, meets_bind, meets_read32, sound_seen, true_and, hvendor, meets_ite]
  unfold OfpMessage.RefusesVendor
  by_cases hprivate : msg.vendor = privateVendorId
  · -- the private messages are never answered by an error
    simp only [hprivate, true_imp_iff, not_true_eq_false, false_imp_iff, and_true, ne_eq, false_and,
      iff_true]
    simp only [privateRecvMsg, meets_bind, meets_read16, sound_seen, true_and]
    split
    case h_4 =>
      simp only [setDatapath, meets_bind, meets_get, meets_modify, meets_pure]
      exact sound_performAll fun output hmem => Datapath.flowRemoved_of_mem hmem
    all_goals simp
  by_cases hopenflow : msg.vendor = openflowVendorId
  · have hne : ¬ openflowVendorId = privateVendorId := by decide
    simp only [hopenflow, hne, true_imp_iff, not_true_eq_false, false_imp_iff, and_true,
      not_false_eq_true, true_and, ne_eq]
    simp only [ofExtRecvMsg, meets_bind, meets_read32, sound_seen, true_and, hsubtype]
    rcases hs : msg.subtype with _ | _ | _ | n
    · simpa using sound_recvOfExpQueueModify_iff env sender msg ctl
    · simpa using sound_recvOfExpQueueDelete_iff sender msg ctl
    · simp only [recvOfSetDpDesc, meets_bind, meets_modify, meets_pure]
      exact iff_of_true (sound_strncpy msg ctl (fun _ => trivial) _ _) (by simp)
    · simp
  · simp [hprivate, hopenflow]

end Handlers

/-- A message of any other type than a flow modification, on a connection without a dump. -/
theorem sound_dispatch_iff_of_ne (env : Surroundings) {sender : Sender} {msg : OfpMessage}
    {ctl : Control} (hdump : ctl.cbDump sender.remote = none)
    (htype : msg.type ≠ some .flowMod) :
    Meets (dispatch env sender msg) sound (fun _ _ => True) ctl ↔
      (msg.Refused env ctl → msg.length ≤ 65523) := by
  have hlen := msg.length_ge
  have herror : ∀ {refused : Prop}, refused → (Meets (do
      dpSendErrorMsg sender ofpetBadRequest ofpbrcBadType msg.mem msg.length
      pure (-eInval) : ControlM ℤ) sound (fun _ _ => True) ctl ↔
      (refused → msg.length ≤ 65523)) := by
    intro refused href
    simp only [meets_bind, meets_pure, href, true_imp_iff]
    exact sound_dpSendErrorMsg_iff sender _ _ _
  -- a handler that keeps the assertions always
  have hkept : ∀ {minSize : ℕ} {handler : ControlM ℤ} {refused : Prop}, ¬ refused →
      Meets handler sound (fun _ _ => True) ctl →
      (Meets (if msg.length < minSize then pure (-eFault) else handler) sound
        (fun _ _ => True) ctl ↔ (refused → msg.length ≤ 65523)) := by
    intro minSize handler refused hno h
    rw [meets_ite]
    exact iff_of_true ⟨fun _ => by simp, fun _ => h⟩ fun href => absurd href hno
  obtain ⟨⟨hbarrier, hecho⟩, hfeatures, hconfig⟩ := sound_requests sender msg ctl
  obtain ⟨hset, hport⟩ := sound_changes msg ctl
  unfold dispatch OfpMessage.Refused
  cases ht : msg.type with
  | none => exact herror trivial
  | some t =>
    cases t
    case flowMod => exact absurd ht htype
    case vendor =>
      change Meets (if msg.length < 12 then _ else _) _ _ _ ↔ _
      rw [meets_ite]
      by_cases h12 : 12 ≤ msg.length
      · simp only [Nat.not_lt.2 h12, false_imp_iff, true_and, not_false_eq_true, true_imp_iff, h12]
        exact sound_recvVendor_iff env sender msg ctl
      · exact iff_of_true ⟨fun _ => by simp, fun h => absurd (Nat.not_lt.1 h) h12⟩
          fun href => absurd href.1 h12
    case queueGetConfigRequest =>
      change Meets (if msg.length < 8 then _ else _) _ _ _ ↔ _
      rw [if_neg (Nat.not_lt.2 hlen)]
      exact sound_recvQueueGetConfigRequest_iff sender msg ctl
    case barrierRequest => exact hkept (Option.some_ne_none _) hbarrier
    case echoRequest => exact hkept (Option.some_ne_none _) hecho
    case featuresRequest => exact hkept (Option.some_ne_none _) hfeatures
    case getConfigRequest => exact hkept (Option.some_ne_none _) hconfig
    case setConfig => exact hkept (Option.some_ne_none _) hset
    case portMod => exact hkept (Option.some_ne_none _) hport
    case statsRequest =>
      exact hkept (Option.some_ne_none _) (sound_recvStatsRequest sender msg ctl hdump)
    case packetOut => exact hkept (Option.some_ne_none _) (by simp [recvPacketOut])
    case echoReply => exact hkept (Option.some_ne_none _) (by simp [recvEchoReply])
    all_goals exact herror rfl

/-! ### Flow modifications -/

/-- The handling ends: no packet enters the tables more often than the fuel allows. -/
def ended : Contract Access ControlFault := ⟨fun _ => True, fun e => e ≠ .forward .endless⟩

/-- The execution of accepted actions on a packet that has been taken out of its buffer decides
whether there is room for all that it leads to. -/
theorem executeSaved_decides {sizes : TableSizes} {dp : Datapath}
    (hr : Datapath.Reachable sizes dp) (env : Surroundings) (sw : Switch) (buffer : List Byte)
    (inPort : BitVec 16) {key : SwFlowKey} {actions : List Byte}
    (hval : validateActions key actions = actValidationOk) :
    Decides { sw with chain := dp.chain }
      (AllRoom { sw with chain := dp.chain } ⟨.cloneData buffer, inPort, actions⟩)
      (executeSaved env buffer inPort actions { sw with toDatapath := dp }) :=
  Job.execute_decides ⟨.cloneData buffer, inPort, actions⟩ env.now env.fuel hr hval rfl
    ⟨fun _ => rfl, rfl, rfl, rfl⟩

section FlowMod

variable {sizes : TableSizes} {ctl : Control} (hr : Datapath.Reachable sizes ctl.toDatapath)
  (env : Surroundings) (sender : Sender) (msg : OfpMessage)

/-- What is left of a flow modification when the tables have been changed. -/
theorem meets_recvFlow_iff {c : Contract Access ControlFault} (hseen : ∀ o, c.seen o) :
    Meets (Control.recvFlow env sender msg.mem) c (fun _ _ => True) ctl ↔
      Meets (performAll env sender msg.mem
          (ctl.toDatapath.recvFlowTables env.now (.ofMemory msg.mem)).2.1) c (fun _ _ => True)
        { ctl with
          toSwitch := { ctl.toSwitch with
            toDatapath := (ctl.toDatapath.recvFlowTables env.now (.ofMemory msg.mem)).1 } } := by
  simp only [Control.recvFlow, setDatapath, meets_bind, meets_observe, meets_readLength, meets_get,
    meets_modify, meets_pure, hseen, true_and]

include hr

/-- A flow modification: an error message is short enough, or there is room for all that the
execution of its actions leads to. -/
theorem sound_recvFlow (h : sizeofOfpFlowMod ≤ msg.length) (htype : msg.type = some .flowMod) :
    ((msg.Refused env ctl → msg.length ≤ 65523) ∧ msg.LeavesRoom env ctl →
        Meets (Control.recvFlow env sender msg.mem) sound (fun _ _ => True) ctl) ∧
      (Meets (Control.recvFlow env sender msg.mem) ended (fun _ _ => True) ctl →
        Meets (Control.recvFlow env sender msg.mem) sound (fun _ _ => True) ctl →
        (msg.Refused env ctl → msg.length ≤ 65523) ∧ msg.LeavesRoom env ctl) := by
  have hlength : (OfpFlowMod.ofMemory msg.mem).length = msg.length := by
    change 72 + (msg.mem.slice 72 (msg.length - 72)).length = msg.length
    have h72 : 72 ≤ msg.length := h
    rw [Memory.length_slice]
    omega
  rw [meets_recvFlow_iff env sender msg (fun _ => trivial),
    meets_recvFlow_iff env sender msg (c := ended) (fun _ => trivial)]
  have hnext : Datapath.Reachable sizes
      (ctl.toDatapath.recvFlowTables env.now (.ofMemory msg.mem)).1 := by
    obtain ⟨start, hrun⟩ := hr
    exact ⟨start, hrun.step (e := .flowMod env.now (.ofMemory msg.mem)) rfl⟩
  unfold OfpMessage.Refused OfpMessage.LeavesRoom
  simp only [htype, h, true_and, true_imp_iff]
  generalize OfpFlowMod.ofMemory msg.mem = ofm at *
  by_cases hinst : ofm.IsInstallation
  swap
  · -- messages about removed flows
    refine ⟨fun _ => sound_performAll fun output hmem => ?_, fun _ _ => ?_⟩
    · exact Datapath.flowRemoved_of_not_isInstallation hinst hmem
    · exact ⟨fun h => absurd h.1 hinst, fun h => absurd h hinst⟩
  obtain ⟨hrejected, haccepted⟩ :=
    Datapath.answers_recvFlowTables ctl.toDatapath env.now hinst
  simp only [hinst, true_and, true_imp_iff]
  cases htables : ctl.toDatapath.installed env.now ofm with
  | none =>
    obtain ⟨error, heq⟩ := hrejected htables
    rw [heq, hlength]
    simp only [performAll, perform, meets_bind, meets_pure, true_imp_iff, reduceCtorEq,
      false_imp_iff, implies_true, and_true]
    exact ⟨(sound_dpSendErrorMsg_iff sender _ _ _).2,
      fun _ => (sound_dpSendErrorMsg_iff sender _ _ _).1⟩
  | some chain =>
    obtain ⟨hval, hchain, heq⟩ := haccepted chain htables
    rw [heq]
    simp only [reduceCtorEq, false_imp_iff, true_and, Option.some.injEq, forall_eq']
    cases hbuffer : (ctl.toDatapath.takeBuffer ofm).1 with
    | none => simp [Datapath.executeOn, performAll]
    | some buffer =>
      have hdec := executeSaved_decides hnext env ctl.toSwitch buffer ofm.ofpMatch.inPort hval
      rw [hchain] at hdec
      simp only [Datapath.executeOn, Option.map_some, Option.toList_some, performAll, perform,
        meets_bind, meets_pure, forward, meets_attempt, Option.some.injEq, forall_eq']
      cases hrun : executeSaved env buffer ofm.ofpMatch.inPort ofm.actions
          { ctl.toSwitch with toDatapath := (ctl.toDatapath.recvFlowTables env.now ofm).1 } with
      | ok sw =>
        rw [hrun] at hdec
        exact ⟨fun _ => trivial, fun _ _ => hdec.2⟩
      | error e =>
        rw [hrun] at hdec
        rcases hdec with rfl | ⟨rfl, hno⟩
        · exact ⟨fun _ => id, fun hend => absurd rfl hend⟩
        · exact ⟨fun hall => absurd hall hno, fun _ hsound => absurd trivial hsound⟩

/-- What the dispatch of a message keeps and what it needs, on a connection without a dump. -/
theorem sound_dispatch (hdump : ctl.cbDump sender.remote = none) :
    ((msg.Refused env ctl → msg.length ≤ 65523) ∧ msg.LeavesRoom env ctl →
        Meets (dispatch env sender msg) sound (fun _ _ => True) ctl) ∧
      (Meets (dispatch env sender msg) ended (fun _ _ => True) ctl →
        Meets (dispatch env sender msg) sound (fun _ _ => True) ctl →
        (msg.Refused env ctl → msg.length ≤ 65523) ∧ msg.LeavesRoom env ctl) := by
  by_cases htype : msg.type = some .flowMod
  · have hdispatch : dispatch env sender msg =
        if msg.length < sizeofOfpFlowMod then pure (-eFault)
        else Control.recvFlow env sender msg.mem := by
      rw [dispatch, htype]
      rfl
    rw [hdispatch]
    by_cases h72 : msg.length < sizeofOfpFlowMod
    · rw [if_pos h72, meets_pure]
      refine ⟨fun _ => trivial, fun _ _ => ⟨fun href => ?_, fun _ hle => ?_⟩⟩
      · unfold OfpMessage.Refused at href
        rw [htype] at href
        exact absurd h72 (Nat.not_lt.2 href.1)
      · exact absurd h72 (Nat.not_lt.2 hle)
    · rw [if_neg h72]
      exact sound_recvFlow hr env sender msg (Nat.not_lt.1 h72) htype
  · -- only flow modifications lead to the execution of actions
    have hiff := sound_dispatch_iff_of_ne env hdump htype
    exact ⟨fun h => hiff.2 h.1, fun _ h => ⟨hiff.1 h, fun hmod => absurd hmod htype⟩⟩

end FlowMod

/-! ### Every message -/

/-- When a message is handled on a connection without a dump, a harmless one makes no assertion
fail; and if the handling ends, then no assertion fails only for a harmless one. -/
theorem assertions_iff {sizes : TableSizes} {ctl : Control}
    (hr : Datapath.Reachable sizes ctl.toDatapath) {remote : Remote}
    (hdump : ctl.cbDump remote = none) (env : Surroundings) (msg : OfpMessage) :
    (msg.Harmless env ctl →
        ∀ fault, (receive env remote msg ctl).2 = .error fault → ¬ fault.IsAssertion) ∧
      ((receive env remote msg ctl).2 ≠ .error (.forward .endless) →
        (∀ fault, (receive env remote msg ctl).2 = .error fault → ¬ fault.IsAssertion) →
        msg.Harmless env ctl) := by
  obtain ⟨hkeeps, hneeds⟩ := sound_dispatch hr env ⟨remote, msg.xid⟩ msg hdump
  have hsound : (∀ fault, (receive env remote msg ctl).2 = .error fault → ¬ fault.IsAssertion) ↔
      _ :=
    meets_iff_failure.symm.trans (meets_receive_iff (c := sound) fun _ _ _ => trivial)
  have hended : (receive env remote msg ctl).2 ≠ .error (.forward .endless) →
      Meets (receive env remote msg) ended (fun _ _ => True) ctl :=
    fun hne => meets_iff_failure.2 fun fault hfault heq => hne (heq ▸ hfault)
  rw [hsound]
  constructor
  · rintro ⟨hversion, hquoted, hroom⟩
    exact ⟨fun hne => absurd hversion hne, fun _ => hkeeps ⟨hquoted, hroom⟩⟩
  · rintro hne ⟨hversion, hdispatch⟩
    -- any other version fails the assertion
    have hv : msg.version = ofpVersion := not_not.1 fun hother => hversion hother trivial
    have hend := ((meets_receive_iff (c := ended) fun _ _ _ => trivial).1 (hended hne)).2 hv
    obtain ⟨hquoted, hroom⟩ := hneeds hend (hdispatch hv)
    exact ⟨hv, hquoted, hroom⟩

/-- An echo request of the right version. -/
def echoRequest : OfpMessage := .ofBytes [1, 2, 0, 8, 0, 0, 0, 0] (by decide)

/-- Right after the start of the datapath, such a request makes no assertion fail. -/
theorem assertions_iff_echo : ¬ ∃ fault, (receive .calm 0 echoRequest
    (.start (onePortSwitch (.init .source 0)) 1 [])).2 = .error fault ∧ fault.IsAssertion := by
  have hr : Datapath.Reachable .source (Datapath.init .source 0) := ⟨0, .refl⟩
  have hharmless : echoRequest.Harmless .calm (.start (onePortSwitch (.init .source 0)) 1 []) :=
    ⟨by decide, fun href => (Option.some_ne_none _ href).elim,
      fun htype => absurd htype (by decide)⟩
  rintro ⟨fault, hfault, hassert⟩
  exact (@assertions_iff .source (.start (onePortSwitch (.init .source 0)) 1 []) hr 0 rfl .calm
    echoRequest).1 hharmless fault hfault hassert

/-- A greeting of version 4, which an established connection lets through, makes the datapath fail
its assertion of the version; so does an unknown message of 65535 bytes the one of the length. -/
theorem not_assertions :
    (¬ ∀ (sizes : TableSizes) (ctl : Control) (remote : Remote) (peer version : BitVec 8)
        (env : Surroundings) (msg : OfpMessage), Datapath.Reachable sizes ctl.toDatapath →
      ctl.cbDump remote = none → vcsRecvHello peer = some version → doRecv version msg = true →
      ∀ fault, (receive env remote msg ctl).2 = .error fault → ¬ fault.IsAssertion) ∧
      ¬ ∀ (sizes : TableSizes) (ctl : Control) (remote : Remote) (peer version : BitVec 8)
          (env : Surroundings) (msg : OfpMessage), Datapath.Reachable sizes ctl.toDatapath →
        ctl.cbDump remote = none → vcsRecvHello peer = some version → doRecv version msg = true →
        msg.version = ofpVersion →
        ∀ fault, (receive env remote msg ctl).2 = .error fault → ¬ fault.IsAssertion := by
  constructor
  · intro hall
    exact hall .source (.start (onePortSwitch (.init .source 0)) 1 []) 0 4 1 .calm
      (.ofBytes [4, 0, 0, 8, 0, 0, 0, 0] (by decide)) ⟨0, .refl⟩ rfl (by decide) (by decide)
      .version rfl trivial
  · intro hall
    exact hall .source (.start (onePortSwitch (.init .source 0)) 1 []) 0 4 1 .calm
      (.ofBytes [1, 99, 0xff, 0xff, 0, 0, 0, 0] (by decide)) ⟨0, .refl⟩ rfl (by decide) (by decide)
      (by decide) .openflowLen rfl trivial

end OfAgent
