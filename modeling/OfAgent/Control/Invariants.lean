import OfAgent.Control.Reads
import OfAgent.Control.System

/-!
# Invariants of the handlers

What the handling of a message keeps. Most handlers only answer, and every answer but one kind has a
short body; what they change is the configuration, the queues of a port, and the dumps.

* `OfpBody.Short`: the body and its entries fit into length fields of 16 bits.
* `Control.Answered`, `Control.AnsweredTo`: an invariant that answers keep, to every sender or to
  one of them; `AnsweredTo.receive`: the handling of a message keeps it, if the handlers do that
  change something; `Answered.runDump`: so does a dump.
* `Control.Kept`, `Control.KeptBy`: one that changes of the configuration and of the queues keep,
  too; `KeptBy.receive`: what is left are the handlers that change ports and tables.
-/

namespace OfAgent

open Monitored

/-! ### Bodies -/

/-- The length field of every entry of a flow statistics reply is the size of the entry. -/
def OfpBody.EntriesExact : OfpBody → Prop
  | .statsReply _ (.flow entries) => ∀ ofs ∈ entries, ofs.length.toNat = ofs.size
  | _ => True

/-- The body fits into a message, and the length fields of its entries are right. -/
structure OfpBody.Short (body : OfpBody) : Prop where
  /-- The body. -/
  size_le : body.size ≤ 65535
  /-- The entries. -/
  entries : body.EntriesExact

/-! ### Operations -/

section Operations

variable {P : Control → Prop} {oh : Memory}

theorem keeps_read8 (off : ℕ) : Keeps P (read8 oh off) := (Keeps.observe _).bind fun _ => .pure _

theorem keeps_read16 (off : ℕ) : Keeps P (read16 oh off) := (Keeps.observe _).bind fun _ => .pure _

theorem keeps_read32 (off : ℕ) : Keeps P (read32 oh off) := (Keeps.observe _).bind fun _ => .pure _

theorem keeps_readBytes (off n : ℕ) : Keeps P (readBytes oh off n) :=
  (Keeps.observe _).bind fun _ => .pure _

theorem keeps_readLength : Keeps P (readLength oh) := (keeps_read16 2).bind fun _ => .pure _

theorem keeps_putOpenflowXid (n : ℕ) : Keeps P (putOpenflowXid n) :=
  .ite (fun _ => .pure _) fun _ => .fail _

theorem keeps_walkQueues (p : SwPort) (ctl : Control) (h : P ctl) :
    Meets (walkQueues p) .any (fun queues ctl' => queues = p.queueList ∧ P ctl') ctl := by
  rw [walkQueues, meets_ite, meets_pure, meets_fail]
  exact ⟨fun _ => ⟨rfl, h⟩, fun _ => trivial⟩

theorem keeps_strncpy (n off : ℕ) : Keeps P (strncpy oh n off) := by
  induction n generalizing off with
  | zero => exact .pure _
  | succ n ih =>
    refine (keeps_read8 off).bind fun c => .ite (fun _ => .pure _) fun _ => ?_
    exact (ih (off + 1)).bind fun _ => .pure _

/-- Processing a packet. -/
theorem keeps_forward {f : Switch → Except ForwardFault Switch}
    (hf : ∀ (ctl : Control) sw, P ctl → f ctl.toSwitch = .ok sw → P { ctl with toSwitch := sw }) :
    Keeps P (forward f) := by
  refine .attempt fun ctl ctl' hP hok => ?_
  cases hrun : f ctl.toSwitch with
  | error e =>
    rw [hrun] at hok
    cases hok
  | ok sw =>
    rw [hrun] at hok
    exact Except.ok.inj hok ▸ hf ctl sw hP hrun

theorem keeps_performAll {env : Surroundings} {sender : Sender} {outputs : List DpOutput}
    (h : ∀ output ∈ outputs, Keeps P (perform env sender oh output)) :
    Keeps P (performAll env sender oh outputs) := by
  induction outputs with
  | nil => exact .pure _
  | cons output outputs ih =>
    exact (h output List.mem_cons_self).bind fun _ =>
      ih fun output' hmem => h output' (List.mem_cons_of_mem _ hmem)

/-- A flow modification, if what it does to the tables and what follows keep the invariant. -/
theorem keeps_recvFlow {env : Surroundings} {sender : Sender}
    (h : ∀ ctl : Control, P ctl → Meets (do
      setDatapath (ctl.toDatapath.recvFlowTables env.now (.ofMemory oh)).1
      performAll env sender oh (ctl.toDatapath.recvFlowTables env.now (.ofMemory oh)).2.1) .any
      (fun _ => P) ctl) : Keeps P (Control.recvFlow env sender oh) := by
  refine (Keeps.observe _).bind fun _ => keeps_readLength.bind fun _ => ?_
  refine (Keeps.observe _).bind fun _ => (Keeps.observe _).bind fun _ => .get_bind fun ctl hP => ?_
  have hend := h ctl hP
  simp only [meets_bind, meets_pure] at hend ⊢
  exact hend

end Operations

/-! ### Ports -/

section Ports

variable {P : Control → Prop} {sender : Sender} {oh : Memory}

/-- A request for the features changes the flags of ports and answers. -/
theorem keeps_recvFeaturesRequest
    (hports : ∀ (ctl : Control) (sw : Switch), sw.toDatapath = ctl.toDatapath → sw.sent = ctl.sent →
      P ctl → P { ctl with toSwitch := sw })
    (hreply : ∀ (dpId : BitVec 64) (sw : Switch), Keeps P (sendOpenflowBuffer (some sender)
      (.featuresReply dpId (sw.listedPorts.map fillPortDesc)))) :
    Keeps P (recvFeaturesRequest sender) := by
  refine (keeps_putOpenflowXid _).bind fun _ => .get_bind_all fun ctl => ?_
  refine Keeps.bind (.modify fun ctl' h => ?_) fun _ => (hreply _ ctl.toSwitch).bind fun _ =>
    .pure _
  exact hports ctl' _
    (Switch.foldl_modifyPort Switch.toDatapath (fun _ _ => (Switch.modifyPort_rest ..).1) _ _)
    (Switch.foldl_modifyPort Switch.sent (fun _ _ => (Switch.modifyPort_rest ..).2) _ _) h

/-- A modification of a port changes its configuration. -/
theorem keeps_recvPortMod
    (hports : ∀ (ctl : Control) (sw : Switch), sw.toDatapath = ctl.toDatapath → sw.sent = ctl.sent →
      P ctl → P { ctl with toSwitch := sw }) : Keeps P (recvPortMod oh) := by
  refine (keeps_read16 8).bind fun portNo => .get_bind_all fun ctl => ?_
  refine (keeps_read32 20).bind fun mask => .ite (fun _ => .pure _) fun _ => ?_
  cases ctl.dpLookupPort portNo with
  | none => exact .fail _
  | some p =>
    refine (keeps_read32 16).bind fun config => Keeps.bind (.modify fun ctl' h => ?_)
      fun _ => .pure _
    exact hports ctl' _ (Switch.modifyPort_rest ..).1 (Switch.modifyPort_rest ..).2 h

end Ports

/-- The execution of actions on a saved packet. -/
theorem Switch.Kept.executeSaved {P : Switch → Prop} {B : Ofpbuf → SwFlowKey → Prop}
    (h : Switch.Kept P B) {env : Surroundings} {buffer : List Byte} {inPort : BitVec 16}
    {actions : List Byte} {sw sw' : Switch} (hP : P sw) (hb : Switch.Ready B (.cloneData buffer))
    (hrun : executeSaved env buffer inPort actions sw = .ok sw') : P sw' :=
  h.executeActions (fun _ _ _ _ _ hb hP hrun => h.runFlowThroughTables hP hb hrun) hP (hb inPort)
    hrun

/-- The vendor message that asks for the emergency flows. -/
def IsProtection (oh : Memory) : Prop :=
  oh.get32 8 = privateVendorId ∧ (oh.get16 12).toNat = 3

/-- An invariant that answers to one sender keep, and the start of a dump. -/
structure Control.AnsweredTo (sender : Sender) (P : Control → Prop) : Prop where
  /-- A message to the sender. -/
  reply : ∀ {body : OfpBody}, body.Short → Keeps P (sendOpenflowBuffer (some sender) body)
  /-- A new dump. -/
  start : ∀ {ctl : Control} (state : StatsState), P ctl →
    P { ctl with
      cbDump := Function.update ctl.cbDump sender.remote (some ⟨false, sender, state⟩) }
  /-- The description. -/
  desc : ∀ {ctl : Control} (dpDesc : List Byte), P ctl → P { ctl with dpDesc }

/-- An invariant that answers to a remote keep, and changes of the dumps. -/
structure Control.Answered (P : Control → Prop) : Prop where
  /-- A message to a remote. -/
  reply : ∀ (sender : Sender) {body : OfpBody}, body.Short →
    Keeps P (sendOpenflowBuffer (some sender) body)
  /-- The dumps and the description. -/
  connections : ∀ {ctl : Control} (cbDump : Remote → Option StatsDumpCb) (dpDesc : List Byte),
    P ctl → P { ctl with cbDump, dpDesc }

/-- An invariant that changes of the configuration and of queues keep, too. -/
structure Control.Kept (P : Control → Prop) : Prop extends Answered P where
  /-- The configuration. -/
  config : ∀ {ctl : Control} (flags missSendLen : BitVec 16), P ctl →
    P { ctl with flags, missSendLen }
  /-- The queues of a port. -/
  queues : ∀ {ctl : Control} {portNo : BitVec 16} {p p' : SwPort},
    ctl.dpLookupPort portNo = some p →
    p'.config = p.config → P ctl →
    P { ctl with toSwitch := ctl.toSwitch.modifyPort portNo fun _ => p' }

/-- An invariant of one sender that changes of the configuration and of queues keep, too. -/
structure Control.KeptBy (sender : Sender) (P : Control → Prop) : Prop
    extends AnsweredTo sender P where
  /-- The configuration. -/
  config : ∀ {ctl : Control} (flags missSendLen : BitVec 16), P ctl →
    P { ctl with flags, missSendLen }
  /-- The queues of a port. -/
  queues : ∀ {ctl : Control} {portNo : BitVec 16} {p p' : SwPort},
    ctl.dpLookupPort portNo = some p →
    p'.config = p.config → P ctl →
    P { ctl with toSwitch := ctl.toSwitch.modifyPort portNo fun _ => p' }

theorem Control.Answered.answeredTo {P : Control → Prop} (h : Answered P) (sender : Sender) :
    AnsweredTo sender P :=
  ⟨h.reply sender, fun {ctl} _ hP => h.connections _ ctl.dpDesc hP,
    fun {ctl} dpDesc hP => h.connections ctl.cbDump dpDesc hP⟩

theorem Control.Kept.keptBy {P : Control → Prop} (h : Kept P) (sender : Sender) : KeptBy sender P :=
  ⟨h.toAnswered.answeredTo sender, h.config, h.queues⟩

/-- The types of messages whose handlers only answer. -/
def OfpType.OnlyAnswers (t : OfpType) : Prop :=
  t ∈ [.barrierRequest, .echoRequest, .echoReply, .getConfigRequest, .statsRequest,
    .queueGetConfigRequest, .packetOut]

instance (t : OfpType) : Decidable t.OnlyAnswers := inferInstanceAs (Decidable (_ ∈ _))

namespace Control.AnsweredTo

variable {P : Control → Prop} {env : Surroundings} {sender : Sender} {oh : Memory} {ctl : Control}

/-! ### Answers -/

theorem answer (h : AnsweredTo sender P) {body : OfpBody} (hshort : body.Short) (code : ℤ) :
    Keeps P (do sendOpenflowBuffer (some sender) body; pure code) :=
  (h.reply hshort).bind fun _ => .pure code

/-- An error message is as long as has been checked. -/
theorem dpSendErrorMsg (h : AnsweredTo sender P) (type code : BitVec 16) (len : ℕ) :
    Keeps P (dpSendErrorMsg sender type code oh len) := by
  intro ctl hP
  simp only [OfAgent.dpSendErrorMsg, meets_bind, meets_putOpenflowXid, meets_readBytes]
  refine ⟨fun hlen => ⟨trivial, ?_⟩, fun _ => trivial⟩
  refine h.reply ⟨?_, by trivial⟩ ctl hP
  rw [OfpBody.size, Memory.length_slice]
  exact hlen.2

theorem replyError (h : AnsweredTo sender P) (type code : BitVec 16) :
    Keeps P (replyError sender type code oh) :=
  keeps_readLength.bind fun len => h.dpSendErrorMsg type code len

/-- A copy of the request is as long as its header says. -/
theorem recvEchoRequest (h : AnsweredTo sender P) :
    Keeps P (recvBarrierRequest sender oh) ∧ Keeps P (recvEchoRequest sender oh) := by
  have hcopy : (oh.slice 0 (oh.get16 2).toNat).length ≤ 65535 := by
    have hlt := (oh.get16 2).isLt
    rw [Memory.length_slice]
    omega
  have hbarrier : (OfpBody.barrierReply (oh.slice 0 (oh.get16 2).toNat)).Short := ⟨hcopy, trivial⟩
  have hecho : (OfpBody.echoReply (oh.slice 0 (oh.get16 2).toNat)).Short := ⟨hcopy, trivial⟩
  constructor
  · intro ctl hP
    simp only [recvBarrierRequest, meets_bind, meets_readLength, meets_readBytes]
    exact ⟨trivial, trivial, meets_bind.1 (h.answer hbarrier 0 ctl hP)⟩
  · intro ctl hP
    simp only [OfAgent.recvEchoRequest, meets_bind, meets_readLength, meets_readBytes]
    exact ⟨trivial, trivial, meets_bind.1 (h.answer hecho 0 ctl hP)⟩

theorem recvGetConfigRequest (h : AnsweredTo sender P) : Keeps P (recvGetConfigRequest sender) := by
  refine (keeps_putOpenflowXid _).bind fun _ => .get_bind_all fun ctl => h.answer ⟨?_, by trivial⟩ 0
  rw [OfpBody.size, sizeofOfpSwitchConfig]
  decide

/-- A statistics request only starts a dump. -/
theorem recvStatsRequest (h : AnsweredTo sender P) : Keeps P (recvStatsRequest sender oh) := by
  have hinit : ∀ {type : BitVec 16} {st : StatsType}, statsType type = some st →
      Keeps P (st.init oh) := by
    intro type st hst
    unfold statsType at hst
    split at hst
    all_goals first
      | cases hst
    · exact .pure _
    · exact (Keeps.observe _).bind fun _ => .pure _
    · exact (Keeps.observe _).bind fun _ => .pure _
    · exact .pure _
    · exact (keeps_read16 12).bind fun _ => .pure _
    · exact (keeps_read16 12).bind fun _ => (keeps_read32 16).bind fun _ => .pure _
    · exact (keeps_read32 12).bind fun _ => .pure _
  refine keeps_readLength.bind fun rqLen => (keeps_read16 8).bind fun type => ?_
  cases hst : statsType type with
  | none => exact .pure _
  | some st =>
    refine (keeps_readBytes 0 rqLen).bind fun _ => (Keeps.observe _).bind fun _ => ?_
    refine .ite (fun _ => .pure _) fun _ => (hinit hst).bind fun state => ?_
    cases state with
    | none => exact .pure _
    | some state =>
      refine Keeps.bind ?_ fun _ => .pure _
      refine .get_bind_all fun ctl => .ite (fun _ => .fail _) fun _ => .modify fun ctl hP => ?_
      exact h.start state hP

/-- A request for the configuration of queues. A port has at most seven of them. -/
theorem recvQueueGetConfigRequest (h : AnsweredTo sender P) :
    Keeps P (recvQueueGetConfigRequest sender oh) := by
  have hrefuse : Keeps P (do
      OfAgent.replyError sender ofpetQueueOpFailed ofpqofcBadPort oh
      pure (0 : ℤ)) := (h.replyError _ _).bind fun _ => .pure _
  refine (keeps_read16 8).bind fun portNo => .get_bind_all fun ctl => ?_
  refine .ite (fun _ => ?_) fun _ => hrefuse
  cases ctl.dpLookupPort portNo with
  | none => exact hrefuse
  | some p =>
    refine .ite (fun _ => hrefuse) fun _ => (keeps_putOpenflowXid _).bind fun _ => ?_
    refine .bind_of (keeps_walkQueues p) fun queues hqueues => h.answer ⟨?_, by trivial⟩ 0
    have hle := p.length_queueList_le
    rw [hqueues, OfpBody.size, List.length_map, sizeofOfpQueueGetConfigReply, sizeofOfpPacketQueue]
    omega

/-! ### Dispatch -/

/-- The handling of a message, if the handlers that do more than answer keep the invariant. -/
theorem receive {remote : Remote} {msg : OfpMessage} (h : AnsweredTo ⟨remote, msg.xid⟩ P)
    (hother : ∀ t minSize handler, msg.type = some t → handlerOf env t = some (minSize, handler) →
      ¬ t.OnlyAnswers → Keeps P (handler ⟨remote, msg.xid⟩ msg.mem)) :
    Keeps P (receive env remote msg) := by
  intro ctl hP
  simp only [OfAgent.receive, fwdControlInput, meets_bind, meets_readLength, meets_read8, meets_ite,
    meets_pure, meets_fail]
  refine ⟨trivial, fun _ => hP, fun _ => ⟨trivial, fun _ => trivial, fun _ => ⟨trivial, ?_⟩⟩⟩
  cases htype : msg.type.bind (handlerOf env) with
  | none =>
    have hbind : (OfpType.ofBitVec (msg.mem 1)).bind (handlerOf env) = none := htype
    rw [hbind]
    exact (h.dpSendErrorMsg _ _ _).bind (fun _ => .pure _) ctl hP
  | some entry =>
    have hbind : (OfpType.ofBitVec (msg.mem 1)).bind (handlerOf env) = some entry := htype
    rw [hbind]
    obtain ⟨minSize, handler⟩ := entry
    obtain ⟨t, ht, hentry⟩ := Option.bind_eq_some_iff.1 htype
    refine Keeps.ite (fun _ => .pure _) (fun _ => ?_) ctl hP
    -- a handler that answers alone leaves everything else as it is
    by_cases honly : t.OnlyAnswers
    · cases t
      case barrierRequest =>
        cases hentry
        exact h.recvEchoRequest.1
      case echoRequest =>
        cases hentry
        exact h.recvEchoRequest.2
      case getConfigRequest =>
        cases hentry
        exact h.recvGetConfigRequest
      case statsRequest =>
        cases hentry
        exact h.recvStatsRequest
      case queueGetConfigRequest =>
        cases hentry
        exact h.recvQueueGetConfigRequest
      case echoReply | packetOut =>
        cases hentry
        exact .pure _
      all_goals exact absurd honly (by decide)
    · exact hother t minSize handler ht hentry honly

end Control.AnsweredTo

namespace Control.KeptBy

variable {P : Control → Prop} {env : Surroundings} {sender : Sender} {oh : Memory} {ctl : Control}

theorem recvSetConfig (h : KeptBy sender P) : Keeps P (recvSetConfig oh) := by
  refine (keeps_read16 8).bind fun flags => (keeps_read16 10).bind fun missSendLen => ?_
  exact (Keeps.modify fun ctl hP => h.config _ _ hP).bind fun _ => .pure _

theorem modifyQueue (h : KeptBy sender P) {portNo property : BitVec 16} {p : SwPort} (q : SwQueue)
    (hp : ctl.dpLookupPort portNo = some p) (hP : P ctl) :
    Meets (modifyQueue env sender oh portNo property p q) .any (fun _ => P) ctl := by
  simp only [OfAgent.modifyQueue, meets_bind, meets_read16, meets_ite, meets_fail, setPort,
    meets_modify]
  refine ⟨trivial, fun _ => trivial, fun _ => ⟨fun _ => ?_, fun _ => h.queues hp rfl hP⟩⟩
  exact h.replyError _ _ ctl hP

/-- A new queue. -/
theorem createQueue (h : KeptBy sender P) {portNo property : BitVec 16} {p : SwPort}
    (queueId : BitVec 32)
    (hp : ctl.dpLookupPort portNo = some p) (hP : P ctl) :
    Meets (createQueue env sender oh portNo property queueId p) .any (fun _ => P) ctl := by
  unfold OfAgent.createQueue
  split
  next => exact h.replyError _ _ ctl hP
  next queueNo hfree =>
    simp only [meets_bind, meets_read16, meets_ite, meets_fail, setPort, meets_modify, meets_pure]
    have hqueues :=
      @KeptBy.queues sender P h ctl portNo p (p.newQueue queueNo hfree queueId property
      (oh.get16 40)) hp rfl hP
    exact ⟨trivial, fun _ => trivial,
      fun _ => ⟨fun _ => h.replyError _ _ _ hqueues, fun _ => hqueues⟩⟩

/-- The changes of queues. -/
theorem recvOfExpQueueModify (h : KeptBy sender P) :
    Keeps P (recvOfExpQueueModify env sender oh) := by
  refine (keeps_read16 28).bind fun len => .ite (fun _ => h.replyError _ _) fun _ => ?_
  refine (keeps_read16 32).bind fun property => .ite (fun _ => h.replyError _ _) fun _ => ?_
  refine (keeps_read16 16).bind fun portNo => (keeps_read32 24).bind fun queueId => ?_
  refine .get_bind fun ctl hP => ?_
  cases hp : portInUse ctl.toSwitch portNo with
  | none => exact h.replyError _ _ ctl hP
  | some p =>
    have hlookup := (Option.filter_eq_some_iff.1 hp).1
    simp only
    cases p.lookupQueue queueId with
    | some q => exact h.modifyQueue q hlookup hP
    | none => exact h.createQueue queueId hlookup hP

/-- The deletion of a queue. -/
theorem recvOfExpQueueDelete (h : KeptBy sender P) : Keeps P (recvOfExpQueueDelete sender oh) := by
  refine (keeps_read16 16).bind fun portNo => (keeps_read32 24).bind fun queueId => ?_
  refine .get_bind fun ctl hP => ?_
  cases hp : ctl.dpLookupPort portNo with
  | none => exact (meets_fail _).2 trivial
  | some p =>
    simp only [meets_ite]
    refine ⟨fun _ => ?_, fun _ => h.replyError _ _ ctl hP⟩
    cases p.lookupQueue queueId with
    | none => exact h.replyError _ _ ctl hP
    | some q => exact (meets_modify _).2 (h.queues hp rfl hP)

/-- A vendor message, if the protection keeps the invariant. -/
theorem recvVendor (h : KeptBy sender P)
    (hprotection : IsProtection oh → ∀ ctl : Control, P ctl → Meets (do
      setDatapath (ctl.toDatapath.emergFlowProtection env.now).1
      performAll env sender oh (ctl.toDatapath.emergFlowProtection env.now).2) .any
      (fun _ => P) ctl) : Keeps P (recvVendor env sender oh) := by
  intro ctl hP
  simp only [OfAgent.recvVendor, meets_bind, meets_read32, meets_ite]
  refine ⟨trivial, fun hvendor => ?_, fun _ => ⟨fun _ => ?_, fun _ => ?_⟩⟩
  · simp only [privateRecvMsg, meets_bind, meets_read16]
    refine ⟨trivial, ?_⟩
    split
    case h_4 htype =>
      have hend := hprotection ⟨hvendor, htype⟩ ctl hP
      simp only [meets_bind, meets_get, meets_pure] at hend ⊢
      exact hend
    all_goals exact (meets_pure _).2 hP
  · refine (keeps_read32 12).bind (fun subtype => ?_) ctl hP
    split
    · exact h.recvOfExpQueueModify.bind fun _ => .pure _
    · exact h.recvOfExpQueueDelete.bind fun _ => .pure _
    · refine Keeps.bind ?_ fun _ => .pure _
      refine (keeps_strncpy _ _).bind fun dpDesc => .modify fun ctl hP => ?_
      exact h.desc _ hP
    · exact .pure _
  · exact meets_bind.1 ((h.replyError _ _).bind (fun _ => .pure _) ctl hP)

/-- The handling of a message, if the handlers that change ports and tables keep the invariant. -/
theorem receive {remote : Remote} {msg : OfpMessage} (h : KeptBy ⟨remote, msg.xid⟩ P)
    (hfeatures : msg.type = some .featuresRequest →
      Keeps P (recvFeaturesRequest ⟨remote, msg.xid⟩))
    (hport : msg.type = some .portMod → Keeps P (recvPortMod msg.mem))
    (hflow : msg.type = some .flowMod → Keeps P (Control.recvFlow env ⟨remote, msg.xid⟩ msg.mem))
    (hprotection : msg.type = some .vendor → IsProtection msg.mem → ∀ ctl : Control, P ctl →
      Meets (do
        setDatapath (ctl.toDatapath.emergFlowProtection env.now).1
        performAll env ⟨remote, msg.xid⟩ msg.mem
          (ctl.toDatapath.emergFlowProtection env.now).2) .any (fun _ => P) ctl) :
    Keeps P (receive env remote msg) := by
  refine h.toAnsweredTo.receive fun t minSize handler ht hentry honly => ?_
  cases t
  case featuresRequest =>
    cases hentry
    exact hfeatures ht
  case setConfig =>
    cases hentry
    exact h.recvSetConfig
  case portMod =>
    cases hentry
    exact hport ht
  case flowMod =>
    cases hentry
    exact hflow ht
  case vendor =>
    cases hentry
    exact h.recvVendor (hprotection ht)
  -- the others only answer
  case barrierRequest | echoRequest | echoReply | getConfigRequest | statsRequest
    | queueGetConfigRequest | packetOut => exact absurd (by decide) honly
  all_goals cases hentry

end Control.KeptBy

/-! ### Dumps -/

section Dumps

variable {now : BitVec 64} {err2 : ℤ} {remote : Remote} {cb : StatsDumpCb} {ctl : Control}

/-- There are at most 255 ports in use with a number of their own. -/
theorem length_portStatsDump_le (portNo : BitVec 16) (sw : Switch) :
    (portStatsDump portNo sw).length ≤ 255 := by
  have htoList : ∀ {α : Type} (o : Option α), o.toList.length ≤ 1 := by
    intro α o
    cases o <;> simp
  unfold portStatsDump
  split
  · have hloop := List.length_filterMap_le
      (fun i => (portInUse sw (BitVec.ofNat 16 i)).map SwPort.portNo)
      (List.range' 1 (dpMaxPorts - 1))
    have hlocal := htoList (sw.localPort.map SwPort.portNo)
    rw [List.length_range'] at hloop
    rw [List.length_append]
    exact Nat.add_le_add hloop hlocal
  · exact (htoList _).trans (by decide)

/-- A port has at most seven queues. -/
theorem keeps_dumpQueueStats {P : Control → Prop} (queueId : BitVec 32) (p : SwPort) (ctl : Control)
    (h : P ctl) :
    Meets (dumpQueueStats queueId p) .any (fun entries ctl' => entries.length ≤ 7 ∧ P ctl')
      ctl := by
  rw [dumpQueueStats, meets_bind]
  refine (keeps_walkQueues p ctl h).mono fun queues ctl' hqueues => ?_
  simp only [meets_pure, List.length_map]
  refine ⟨?_, hqueues.2⟩
  split
  · rw [hqueues.1]
    exact p.length_queueList_le
  · cases p.lookupQueue queueId <;> simp

/-- So all of them have at most seven times their number. -/
theorem keeps_dumpAllQueueStats {P : Control → Prop} (queueId : BitVec 32) (ps : List SwPort)
    (ctl : Control) (h : P ctl) :
    Meets (dumpAllQueueStats queueId ps) .any
      (fun entries ctl' => entries.length ≤ 7 * ps.length ∧ P ctl') ctl := by
  induction ps generalizing ctl with
  | nil => exact (meets_pure _).2 ⟨le_refl _, h⟩
  | cons p ps ih =>
    have hrest : ∀ (entries : List OfpQueueStats) ctl', entries.length ≤ 7 → P ctl' →
        Meets (do let rest ← dumpAllQueueStats queueId ps; pure (entries ++ rest)) .any
          (fun entries ctl' => entries.length ≤ 7 * (p :: ps).length ∧ P ctl') ctl' := by
      intro entries ctl' hle h'
      rw [meets_bind]
      refine (ih ctl' h').mono fun rest ctl'' hrest => ?_
      have hlen := hrest.1
      simp only [meets_pure, List.length_append, List.length_cons]
      exact ⟨by omega, hrest.2⟩
    simp only [dumpAllQueueStats, meets_ite, meets_bind (x := dumpQueueStats queueId p)]
    refine ⟨fun _ => ?_, fun _ => hrest [] ctl (by decide) h⟩
    exact (keeps_dumpQueueStats queueId p ctl h).mono fun entries ctl' hle =>
      hrest entries ctl' hle.1 hle.2

/-- What a dump puts into a reply is short, unless it is about flows. -/
theorem keeps_dumpState {P : Control → Prop} {state : StatsState} (hstate : ∀ s, state ≠ .flow s)
    (ctl : Control) (h : P ctl) :
    Meets (dumpState now state) .any
      (fun r ctl' => (∀ more, (OfpBody.statsReply more r.1).Short) ∧ P ctl') ctl := by
  cases state with
  | flow s => exact absurd rfl (hstate s)
  | desc =>
    simp only [dumpState, meets_bind, meets_get, meets_pure]
    exact ⟨fun _ => ⟨(by decide : 12 + 1056 ≤ 65535), trivial⟩, h⟩
  | aggregate rq =>
    simp only [dumpState, meets_bind, meets_get, meets_pure]
    exact ⟨fun _ => ⟨(by decide : 12 + 24 ≤ 65535), trivial⟩, h⟩
  | table =>
    simp only [dumpState, meets_bind, meets_get, meets_pure]
    exact ⟨fun _ => ⟨(by decide : 12 + 64 * 2 ≤ 65535), trivial⟩, h⟩
  | port portNo =>
    simp only [dumpState, meets_bind, meets_get, meets_pure]
    refine ⟨fun _ => ⟨?_, trivial⟩, h⟩
    have hle := length_portStatsDump_le portNo ctl.toSwitch
    rw [OfpBody.size, OfpStats.size, sizeofOfpStatsReply, sizeofOfpPortStats]
    omega
  | queue portNo queueId =>
    -- at most seven queues of at most 256 ports
    have hqueues : Meets (queueStatsDump portNo queueId) .any
        (fun entries ctl' => entries.length ≤ 7 * 256 ∧ P ctl') ctl := by
      rw [queueStatsDump, meets_bind, meets_get, meets_ite]
      refine ⟨fun _ => ?_, fun _ => ?_⟩
      · have hports := ctl.toSwitch.length_listedPorts_le
        exact (keeps_dumpAllQueueStats queueId ctl.listedPorts ctl h).mono fun entries ctl' hle =>
          ⟨hle.1.trans (Nat.mul_le_mul_left 7 hports), hle.2⟩
      · cases ctl.dpLookupPort portNo with
        | none => exact (meets_pure _).2 ⟨by decide, h⟩
        | some p =>
          exact (keeps_dumpQueueStats queueId p ctl h).mono fun entries ctl' hle =>
            ⟨hle.1.trans (by decide), hle.2⟩
    rw [dumpState, meets_bind]
    refine hqueues.mono fun entries ctl' h' => (meets_pure _).2 ⟨fun _ => ⟨?_, trivial⟩, h'.2⟩
    have hle := h'.1
    rw [OfpBody.size, OfpStats.size, sizeofOfpStatsReply, sizeofOfpQueueStats]
    omega

/-- The part of `remote_run` that carries on with a dump. -/
theorem meets_runDump_iff (hcb : ctl.cbDump remote = some cb) {Q : Control → Prop}
    {c : Contract Access ControlFault}
    (hQ : ∀ ctl' d, Q { ctl' with cbDump := Function.update ctl'.cbDump remote d } ↔ Q ctl') :
    Meets (runDump now err2 remote) c (fun _ => Q) ctl ↔
      Meets (statsDumpCallback now err2 remote cb) c (fun _ => Q) ctl := by
  rw [runDump, meets_bind, meets_get, hcb]
  simp only [meets_bind, meets_ite, setDump, meets_modify, meets_pure, hQ]
  have hboth : ∀ (error : ℤ) (p : Prop), ((error ≤ 0 → p) ∧ (¬ error ≤ 0 → p)) ↔ p :=
    fun error p => ⟨fun h => (em (error ≤ 0)).elim h.1 h.2, fun h => ⟨fun _ => h, fun _ => h⟩⟩
  simp only [hboth]

/-- A dump keeps what the dumps have no influence on, if replies keep it, those about flows with any
size. -/
theorem keeps_runDump {P : Control → Prop}
    (hset : ∀ (ctl' : Control) d,
      P { ctl' with cbDump := Function.update ctl'.cbDump remote d } ↔ P ctl')
    (hshort : ∀ {body : OfpBody}, body.Short → Keeps P (sendOpenflowBuffer (some cb.sender) body))
    (hflow : cb.done = false → ∀ s, cb.state = .flow s → ∀ more entries,
      Keeps P (sendOpenflowBuffer (some cb.sender) (.statsReply more (.flow entries))))
    (hcb : ctl.cbDump remote = some cb) (hP : P ctl) :
    Meets (runDump now err2 remote) .any (fun _ => P) ctl := by
  rw [meets_runDump_iff hcb hset]
  cases hdone : cb.done with
  | true =>
    rw [statsDumpCallback, if_pos hdone]
    exact (meets_pure _).2 hP
  | false =>
    -- only a dump of flows has replies of any size
    have hreply : ∀ ctl', P ctl' → Meets (dumpState now cb.state) .any (fun r ctl' =>
        (∀ more, Keeps P (sendOpenflowBuffer (some cb.sender) (.statsReply more r.1))) ∧ P ctl')
        ctl' := by
      intro ctl' hP'
      by_cases hstate : ∃ s, cb.state = .flow s
      · obtain ⟨s, hs⟩ := hstate
        rw [hs]
        simp only [dumpState, meets_bind, meets_get, meets_pure]
        exact ⟨fun more => hflow hdone s hs more _, hP'⟩
      · refine (keeps_dumpState (fun s hs => hstate ⟨s, hs⟩) ctl' hP').mono fun r ctl'' hr => ?_
        exact ⟨fun more => hshort (hr.1 more), hr.2⟩
    rw [statsDumpCallback, if_neg (hdone ▸ Bool.false_ne_true)]
    refine ((keeps_putOpenflowXid _).bind fun _ => Keeps.bind_of hreply ?_) ctl hP
    rintro ⟨stats, state, more⟩ hsend
    refine Keeps.bind (.modify fun ctl' hP' => (hset ctl' _).2 hP') fun _ => ?_
    exact (hsend more).bind fun _ => .ite (fun _ => .pure _) fun _ => .pure _

/-- So a dump keeps what all answers keep. -/
theorem Control.Answered.runDump {P : Control → Prop} (h : Answered P)
    (hflow : cb.done = false → ∀ s, cb.state = .flow s → ∀ more entries,
      Keeps P (sendOpenflowBuffer (some cb.sender) (.statsReply more (.flow entries))))
    (hcb : ctl.cbDump remote = some cb) (hP : P ctl) :
    Meets (OfAgent.runDump now err2 remote) .any (fun _ => P) ctl := by
  have hset : ∀ (ctl' : Control) cbDump, P { ctl' with cbDump } ↔ P ctl' := fun ctl' cbDump =>
    ⟨fun hP => @Answered.connections P h { ctl' with cbDump } ctl'.cbDump ctl'.dpDesc hP,
      fun hP => h.connections cbDump ctl'.dpDesc hP⟩
  exact keeps_runDump (fun ctl' d => hset ctl' _) (h.reply cb.sender) hflow hcb hP

end Dumps

end OfAgent
