import OfAgent.Control.Answers
import OfAgent.Control.Dispatch

/-!
# What handlers read

The reads of a message and the lengths computed from its header, when `fwd_control_input` handles a
message. The sizes that it checks are those of the structures, apart from one; the messages of
vendors have parts of their own, which nobody checks.

* `within`: everything that is seen stays inside the message.
* `Covers`: the condition on a message; `reads_within_iff`: it is exactly what the dispatch needs.
-/

namespace OfAgent

open Monitored

/-- Every read stays among the first `size` bytes, and no length is negative. -/
def within (size : ℕ) : Contract Access ControlFault := ⟨Access.Within size, fun _ => True⟩

/-! ### The condition -/

namespace OfpMessage

variable (msg : OfpMessage)

/-- `vendor` of a vendor message. -/
def vendor : BitVec 32 := msg.mem.get32 8

/-- `subtype` of a message of the vendor OpenFlow. -/
def subtype : ℕ := (msg.mem.get32 12).toNat

/-- The structures that `recv_of_exp_queue_modify` reads are there: up to the length of the queue,
up to the property when the length is the expected one, and up to the rate when the port is in use
and the queue exists or can be created. -/
def CoversQueueModify (ctl : Control) : Prop :=
  30 ≤ msg.length ∧ (msg.mem.get16 28 = 24 → 34 ≤ msg.length ∧
    (msg.mem.get16 32 = ofpqtMinRate → ∀ p,
      portInUse ctl.toSwitch (msg.mem.get16 16) = some p →
      (p.lookupQueue (msg.mem.get32 24)).isSome ∨ p.freeQueueNo.isSome → 42 ≤ msg.length))

/-- The description that `recv_of_set_dp_desc` copies is there, or ends before the message does. -/
def CoversDesc : Prop := 272 ≤ msg.length ∨ ∃ i, 16 ≤ i ∧ i < msg.length ∧ msg.mem i = 0

/-- The message is long enough for what its handler reads. Only some handlers read more than the
size that is checked. -/
structure Covers (ctl : Control) : Prop where
  /-- The request has a port. -/
  queueGetConfig : msg.type = some .queueGetConfigRequest → 10 ≤ msg.length
  /-- The private message has a type. -/
  privateMsg : msg.type = some .vendor → 12 ≤ msg.length → msg.vendor = privateVendorId →
    14 ≤ msg.length
  /-- The message of the vendor OpenFlow has a subtype. -/
  extension : msg.type = some .vendor → 12 ≤ msg.length → msg.vendor = openflowVendorId →
    16 ≤ msg.length
  /-- The change of a queue is complete. -/
  queueModify : msg.type = some .vendor → 12 ≤ msg.length → msg.vendor = openflowVendorId →
    msg.subtype = 0 → msg.CoversQueueModify ctl
  /-- The deletion of a queue has a port and a queue. -/
  queueDelete : msg.type = some .vendor → 12 ≤ msg.length → msg.vendor = openflowVendorId →
    msg.subtype = 1 → 28 ≤ msg.length
  /-- The description is complete. -/
  setDesc : msg.type = some .vendor → 12 ≤ msg.length → msg.vendor = openflowVendorId →
    msg.subtype = 2 → msg.CoversDesc

end OfpMessage

/-! ### Reading -/

section Within

variable {size off : ℕ} {ctl : Control} {oh : Memory}

/-- What is asked of a read. -/
@[simp]
theorem within_read (n : ℕ) : (within size).seen (.read off n) ↔ off + n ≤ size := Iff.rfl

/-- What is asked of a length. -/
@[simp]
theorem within_length (n : ℤ) : (within size).seen (.length n) ↔ 0 ≤ n := Iff.rfl

/-- Nothing is asked of a failure. -/
@[simp]
theorem within_failed (e : ControlFault) : (within size).failed e := trivial

variable {c : Contract Access ControlFault}

/-- One byte. -/
@[simp]
theorem meets_read8 {Q : Byte → Control → Prop} :
    Meets (read8 oh off) c Q ctl ↔ c.seen (.read off 1) ∧ Q (oh off) ctl := by simp [read8]

/-- A 16-bit number. -/
@[simp]
theorem meets_read16 {Q : BitVec 16 → Control → Prop} :
    Meets (read16 oh off) c Q ctl ↔ c.seen (.read off 2) ∧ Q (oh.get16 off) ctl := by
  simp [read16]

/-- A 32-bit number. -/
@[simp]
theorem meets_read32 {Q : BitVec 32 → Control → Prop} :
    Meets (read32 oh off) c Q ctl ↔ c.seen (.read off 4) ∧ Q (oh.get32 off) ctl := by
  simp [read32]

/-- Some bytes. -/
@[simp]
theorem meets_readBytes {Q : List Byte → Control → Prop} (n : ℕ) :
    Meets (readBytes oh off n) c Q ctl ↔ c.seen (.read off n) ∧ Q (oh.slice off n) ctl := by
  simp [readBytes]

/-- The length in the header. -/
@[simp]
theorem meets_readLength {Q : ℕ → Control → Prop} :
    Meets (readLength oh) c Q ctl ↔ c.seen (.read 2 2) ∧ Q (oh.get16 2).toNat ctl := by
  simp [readLength]

/-- The assertions of `put_openflow_xid`. -/
@[simp]
theorem meets_putOpenflowXid {Q : PUnit → Control → Prop} (n : ℕ) :
    Meets (putOpenflowXid n) c Q ctl ↔
      (8 ≤ n ∧ n ≤ 65535 → Q ⟨⟩ ctl) ∧ (¬ (8 ≤ n ∧ n ≤ 65535) → c.failed .openflowLen) := by
  unfold putOpenflowXid
  rw [meets_ite, meets_pure, meets_fail]
  exact Iff.rfl

/-- Sending reads nothing. -/
@[simp]
theorem meets_sendOpenflowBuffer {Q : PUnit → Control → Prop} (sender : Option Sender)
    (body : OfpBody) :
    Meets (sendOpenflowBuffer sender body) c Q ctl ↔
      Q ⟨⟩ { ctl with
        messages := ctl.messages ++ [{
          remote := sender.map Sender.remote
          xid := (sender.map Sender.xid).getD 0
          length := BitVec.ofNat 16 body.size
          body }] } := by
  unfold sendOpenflowBuffer
  rw [meets_modify]

/-- Processing a packet reads nothing of a message. -/
@[simp]
theorem reads_forward (f : Switch → Except ForwardFault Switch) :
    Meets (forward f) (within size) (fun _ _ => True) ctl := by
  unfold forward
  rw [meets_attempt]
  cases f ctl.toSwitch <;> trivial

theorem reads_dpSendErrorMsg {len : ℕ} (h : len ≤ size) (sender : Sender) (type code : BitVec 16) :
    Meets (dpSendErrorMsg sender type code oh len) (within size) (fun _ _ => True) ctl := by
  simp [dpSendErrorMsg, h]

/-- The queues of a port are no part of a message. -/
@[simp]
theorem reads_walkQueues {Q : List SwQueue → Control → Prop} (p : SwPort)
    (hQ : ∀ queues, Q queues ctl) : Meets (walkQueues p) (within size) Q ctl := by
  unfold walkQueues
  rw [meets_ite]
  exact ⟨fun _ => by simp [hQ], fun _ => by simp⟩

end Within

/-! ### The handlers -/

section Handlers

variable (env : Surroundings) (sender : Sender) (msg : OfpMessage) (ctl : Control)

/-- An error message quotes the whole request. -/
@[simp]
theorem reads_replyError (type code : BitVec 16) :
    Meets (replyError sender type code msg.mem) (within msg.length) (fun _ _ => True) ctl := by
  have hlen := msg.length_ge
  unfold replyError
  rw [meets_bind, meets_readLength, within_read]
  exact ⟨by omega, reads_dpSendErrorMsg (le_refl _) sender type code⟩

/-- The copies of barriers and echoes are those of the whole request. -/
theorem reads_recvBarrierRequest :
    Meets (recvBarrierRequest sender msg.mem) (within msg.length) (fun _ _ => True) ctl ∧
      Meets (recvEchoRequest sender msg.mem) (within msg.length) (fun _ _ => True) ctl := by
  have hlen := msg.length_ge
  have hsize : (msg.mem.get16 2).toNat = msg.length := rfl
  simp only [recvBarrierRequest, recvEchoRequest, meets_bind, meets_readLength, meets_readBytes,
    meets_sendOpenflowBuffer, meets_pure, within_read, hsize, and_true]
  omega

/-- Requests for the features and the configuration are not read. -/
theorem reads_recvFeaturesRequest :
    Meets (recvFeaturesRequest sender) (within msg.length) (fun _ _ => True) ctl ∧
      Meets (recvGetConfigRequest sender) (within msg.length) (fun _ _ => True) ctl := by
  simp [recvFeaturesRequest, recvGetConfigRequest]

/-- A configuration is read up to its end. -/
theorem reads_recvSetConfig (h : sizeofOfpSwitchConfig ≤ msg.length) :
    Meets (recvSetConfig msg.mem) (within msg.length) (fun _ _ => True) ctl := by
  change 12 ≤ msg.length at h
  simp only [recvSetConfig, meets_bind, meets_read16, within_read, meets_modify, meets_pure,
    and_true]
  omega

/-- A port modification is read up to its mask. -/
theorem reads_recvPortMod (h : 32 ≤ msg.length) :
    Meets (recvPortMod msg.mem) (within msg.length) (fun _ _ => True) ctl := by
  simp only [recvPortMod, meets_bind, meets_read16, meets_read32, meets_get, within_read]
  refine ⟨by omega, by omega, ?_⟩
  rw [meets_ite]
  refine ⟨fun _ => by simp, fun _ => ?_⟩
  cases ctl.dpLookupPort (msg.mem.get16 8) with
  | none => simp
  | some p =>
    simp only [meets_bind, meets_read32, within_read, meets_modify, meets_pure, and_true]
    omega

/-- What is asked for one after the other quotes bytes that are there. -/
theorem reads_performAll {size : ℕ} {oh : Memory} {outputs : List DpOutput}
    (h : ∀ error length, .errorMsg error length ∈ outputs → length ≤ size) :
    Meets (performAll env sender oh outputs) (within size) (fun _ _ => True) ctl := by
  induction outputs generalizing ctl with
  | nil => simp [performAll]
  | cons output outputs ih =>
    rw [performAll, meets_bind]
    have hrest : ∀ ctl', Meets (performAll env sender oh outputs) (within size)
        (fun _ _ => True) ctl' :=
      fun ctl' => ih ctl' fun error length hmem => h error length (List.mem_cons_of_mem _ hmem)
    refine Meets.mono (Q := fun _ _ => True) ?_ fun _ ctl' _ => hrest ctl'
    cases output with
    | errorMsg error length =>
      exact reads_dpSendErrorMsg (h error length List.mem_cons_self) sender _ _
    | flowRemoved ofr => simp [perform]
    | executeActions buffer inPort actions => exact reads_forward _
    | packetIn buffer bufferId => simp [perform]

/-- A flow modification is read up to its end. -/
theorem reads_recvFlow (h : sizeofOfpFlowMod ≤ msg.length) :
    Meets (Control.recvFlow env sender msg.mem) (within msg.length) (fun _ _ => True) ctl := by
  have hsize : (msg.mem.get16 2).toNat = msg.length := rfl
  have hlen : sizeofOfpFlowMod = 72 := rfl
  simp only [Control.recvFlow, setDatapath, meets_bind, meets_observe, meets_readLength, meets_get,
    meets_modify, meets_pure, within_read, within_length, hsize]
  refine ⟨by omega, by omega, by omega, by omega, ?_⟩
  refine reads_performAll env sender _ fun error length hmem => ?_
  rw [Datapath.length_of_errorMsg_mem hmem]
  change 72 + (msg.mem.slice 72 ((msg.mem.get16 2).toNat - 72)).length ≤ msg.length
  rw [Memory.length_slice, hsize]
  omega

/-- The body of a statistics request is read up to its smallest size. -/
theorem reads_init {type : BitVec 16} {st : StatsType} (hst : statsType type = some st)
    {size : ℕ} (hlen : 12 + st.minBody ≤ size) {oh : Memory}
    {Q : Option StatsState → Control → Prop} (hQ : ∀ state, Q state ctl) :
    Meets (st.init oh) (within size) Q ctl := by
  unfold statsType at hst
  split at hst
  all_goals
    cases hst
    try
      simp only [meets_bind, meets_observe, meets_read16, meets_read32, meets_pure, within_read,
        hQ, and_true]
    try
      change 12 + _ ≤ size at hlen
  · change 12 + 44 ≤ size
    exact hlen
  · change 12 + 44 ≤ size
    exact hlen
  · change 12 + 8 ≤ size at hlen
    omega
  · change 12 + 8 ≤ size at hlen
    omega
  · change 12 + 8 ≤ size at hlen
    omega

/-- A statistics request is read up to its end. -/
theorem reads_recvStatsRequest (h : sizeofOfpStatsRequest ≤ msg.length) :
    Meets (recvStatsRequest sender msg.mem) (within msg.length) (fun _ _ => True) ctl := by
  have hsize : (msg.mem.get16 2).toNat = msg.length := rfl
  have h12 : sizeofOfpStatsRequest = 12 := rfl
  simp only [recvStatsRequest, meets_bind, meets_readLength, meets_read16, within_read, hsize]
  refine ⟨by omega, by omega, ?_⟩
  cases hst : statsType (msg.mem.get16 8) with
  | none => simp
  | some st =>
    simp only [meets_bind, meets_readBytes, meets_observe, within_read, within_length]
    refine ⟨by omega, by omega, ?_⟩
    rw [meets_ite]
    refine ⟨fun _ => by simp, fun hbody => ?_⟩
    -- the body has the right size
    rw [meets_bind]
    refine reads_init ctl hst (by omega) fun state => ?_
    cases state with
    | none => simp
    | some state =>
      simp only [remoteStartDump, meets_bind, meets_get, meets_pure, meets_ite, meets_fail,
        meets_modify, within_failed]
      exact ⟨fun _ => trivial, fun _ => trivial⟩

/-- A request for the configuration of queues is checked for a header only. -/
theorem reads_recvQueueGetConfigRequest_iff :
    Meets (recvQueueGetConfigRequest sender msg.mem) (within msg.length) (fun _ _ => True) ctl ↔
      10 ≤ msg.length := by
  simp only [recvQueueGetConfigRequest, meets_bind, meets_read16, meets_get, within_read]
  refine ⟨fun h => h.1, fun h => ⟨h, ?_⟩⟩
  rw [meets_ite]
  refine ⟨fun _ => ?_, fun _ => by simp⟩
  cases ctl.dpLookupPort (msg.mem.get16 8) with
  | none => simp
  | some p =>
    simp only [meets_ite]
    refine ⟨fun _ => by simp, fun _ => ?_⟩
    simp only [meets_bind, meets_putOpenflowXid, meets_sendOpenflowBuffer, meets_pure,
      within_failed]
    exact ⟨fun _ => reads_walkQueues p fun _ => trivial, fun _ => trivial⟩

/-- The rate is read for a queue that exists. -/
theorem reads_modifyQueue_iff (portNo property : BitVec 16) (p : SwPort) (q : SwQueue) :
    Meets (modifyQueue env sender msg.mem portNo property p q) (within msg.length)
      (fun _ _ => True) ctl ↔ 42 ≤ msg.length := by
  simp only [modifyQueue, meets_bind, meets_read16, within_read]
  refine ⟨fun h => h.1, fun h => ⟨h, ?_⟩⟩
  rw [meets_ite, meets_ite]
  exact ⟨fun _ => by simp, fun _ => ⟨fun _ => by simp, fun _ => by simp [setPort]⟩⟩

/-- The rate is read for a queue that can be created. -/
theorem reads_createQueue_iff (portNo property : BitVec 16) (queueId : BitVec 32) (p : SwPort) :
    Meets (createQueue env sender msg.mem portNo property queueId p) (within msg.length)
      (fun _ _ => True) ctl ↔ (p.freeQueueNo.isSome → 42 ≤ msg.length) := by
  unfold createQueue
  split
  next h => simp [h]
  next queueNo h =>
    simp only [meets_bind, meets_read16, within_read, setPort, meets_modify, h, Option.isSome_some,
      true_imp_iff]
    refine ⟨fun h => h.1, fun h => ⟨h, ?_⟩⟩
    rw [meets_ite, meets_ite]
    exact ⟨fun _ => by simp, fun _ => ⟨fun _ => by simp, fun _ => by simp⟩⟩

/-- What the change of a queue reads depends on the port and its queues. -/
theorem reads_recvOfExpQueueModify_iff :
    Meets (recvOfExpQueueModify env sender msg.mem) (within msg.length) (fun _ _ => True) ctl ↔
      msg.CoversQueueModify ctl := by
  simp only [recvOfExpQueueModify, meets_bind, meets_read16, meets_read32, meets_get, meets_ite,
    within_read, reads_replyError, imp_true_iff, true_and, not_not]
  unfold OfpMessage.CoversQueueModify
  -- the port and the queue are in front of the property
  refine and_congr Iff.rfl (forall_congr' fun _ => and_congr_right fun h34 => ?_)
  refine forall_congr' fun _ => ?_
  have h18 : 16 + 2 ≤ msg.length := by omega
  have h28 : 24 + 4 ≤ msg.length := by omega
  simp only [h18, h28, true_and]
  cases hport : portInUse ctl.toSwitch (msg.mem.get16 16) with
  | none => simp
  | some p =>
    simp only [Option.some.injEq, forall_eq']
    cases hqueue : p.lookupQueue (msg.mem.get32 24) with
    | none => simpa using reads_createQueue_iff env sender msg ctl _ _ _ p
    | some q => simpa using reads_modifyQueue_iff env sender msg ctl _ _ p q

/-- The deletion of a queue is read up to the queue. -/
theorem reads_recvOfExpQueueDelete_iff :
    Meets (recvOfExpQueueDelete sender msg.mem) (within msg.length) (fun _ _ => True) ctl ↔
      28 ≤ msg.length := by
  simp only [recvOfExpQueueDelete, meets_bind, meets_read16, meets_read32, meets_get, within_read]
  refine ⟨fun h => h.2.1, fun h => ⟨by omega, h, ?_⟩⟩
  cases ctl.dpLookupPort (msg.mem.get16 16) with
  | none => simp
  | some p =>
    simp only [meets_ite]
    refine ⟨fun _ => ?_, fun _ => by simp⟩
    cases p.lookupQueue (msg.mem.get32 24) with
    | none => simp
    | some q => simp [setPort]

/-- Copying a string reads it up to its end, or as much as has been asked for. -/
theorem reads_strncpy_iff {size : ℕ} {oh : Memory} {Q : List Byte → Control → Prop}
    (hQ : ∀ bs, Q bs ctl) (n off : ℕ) :
    Meets (strncpy oh n off) (within size) Q ctl ↔
      n = 0 ∨ off + n ≤ size ∨ ∃ i, off ≤ i ∧ i < size ∧ oh i = 0 := by
  induction n generalizing off Q with
  | zero => simp [strncpy, hQ]
  | succ n ih =>
    simp only [strncpy, meets_bind, meets_read8, within_read, meets_ite, meets_pure, hQ,
      imp_true_iff, true_and]
    rw [or_iff_right (Nat.succ_ne_zero n)]
    by_cases hzero : oh off = 0
    · simp only [hzero, not_true_eq_false, false_imp_iff, and_true]
      refine ⟨fun h => .inr ⟨off, le_refl off, h, hzero⟩, ?_⟩
      rintro (h | ⟨i, hle, hlt, -⟩) <;> omega
    · rw [imp_iff_right hzero, ih (Q := fun cs s => Q (oh off :: cs) s) fun _ => hQ _]
      constructor
      · rintro ⟨hoff, rfl | h | ⟨i, hle, hlt, hi⟩⟩
        · exact .inl hoff
        · exact .inl (by omega)
        · exact .inr ⟨i, by omega, hlt, hi⟩
      · rintro (h | ⟨i, hle, hlt, hi⟩)
        · exact ⟨by omega, .inr (.inl (by omega))⟩
        · have hne : off ≠ i := fun heq => hzero (heq ▸ hi)
          exact ⟨by omega, .inr (.inr ⟨i, by omega, hlt, hi⟩)⟩

/-- The description is read up to its end. -/
theorem reads_recvOfSetDpDesc_iff :
    Meets (recvOfSetDpDesc msg.mem) (within msg.length) (fun _ _ => True) ctl ↔
      msg.CoversDesc := by
  unfold recvOfSetDpDesc OfpMessage.CoversDesc
  rw [meets_bind, reads_strncpy_iff ctl fun _ => by simp, or_iff_right (by decide)]
  exact Iff.rfl

/-- The parts of a message of the vendor OpenFlow that are read depend on its subtype. -/
theorem reads_ofExtRecvMsg_iff :
    Meets (ofExtRecvMsg env sender msg.mem) (within msg.length) (fun _ _ => True) ctl ↔
      16 ≤ msg.length ∧ (msg.subtype = 0 → msg.CoversQueueModify ctl) ∧
        (msg.subtype = 1 → 28 ≤ msg.length) ∧ (msg.subtype = 2 → msg.CoversDesc) := by
  unfold ofExtRecvMsg
  rw [meets_bind, meets_read32, within_read]
  refine and_congr Iff.rfl ?_
  have hsubtype : (msg.mem.get32 12).toNat = msg.subtype := rfl
  rw [hsubtype]
  match hs : msg.subtype with
  | 0 => simpa using reads_recvOfExpQueueModify_iff env sender msg ctl
  | 1 => simpa using reads_recvOfExpQueueDelete_iff sender msg ctl
  | 2 => simpa using reads_recvOfSetDpDesc_iff msg ctl
  | n + 3 => simp

/-- A private message is read up to its type. -/
theorem reads_privateRecvMsg_iff :
    Meets (privateRecvMsg env sender msg.mem) (within msg.length) (fun _ _ => True) ctl ↔
      14 ≤ msg.length := by
  unfold privateRecvMsg
  rw [meets_bind, meets_read16, within_read]
  refine ⟨fun h => h.1, fun h => ⟨h, ?_⟩⟩
  split
  case h_4 =>
    simp only [setDatapath, meets_bind, meets_get, meets_modify, meets_pure]
    refine reads_performAll env sender _ fun error length hmem => ?_
    -- flushing the working tables sends flow removed messages only
    obtain ⟨ofr, heq⟩ := Datapath.flowRemoved_of_mem hmem
    cases heq
  all_goals simp

/-- The parts of a vendor message that are read depend on the vendor. -/
theorem reads_recvVendor_iff (h : 12 ≤ msg.length) (htype : msg.type = some .vendor) :
    Meets (recvVendor env sender msg.mem) (within msg.length) (fun _ _ => True) ctl ↔
      msg.Covers ctl := by
  have hvendor : msg.mem.get32 8 = msg.vendor := rfl
  simp only [recvVendor, meets_bind, meets_read32, within_read, hvendor, meets_ite,
    reads_privateRecvMsg_iff, reads_ofExtRecvMsg_iff]
  constructor
  · rintro ⟨-, hprivate, hother⟩
    have hext : msg.vendor = openflowVendorId → _ := fun hv =>
      (hother (by rw [hv]; decide)).1 hv
    exact {
      queueGetConfig := fun heq => by
        rw [htype] at heq
        cases heq
      privateMsg := fun _ _ => hprivate
      extension := fun _ _ hv => (hext hv).1
      queueModify := fun _ _ hv => (hext hv).2.1
      queueDelete := fun _ _ hv => (hext hv).2.2.1
      setDesc := fun _ _ hv => (hext hv).2.2.2 }
  · intro hc
    refine ⟨h, hc.privateMsg htype h, fun _ => ⟨fun hv => ?_, fun _ => by simp⟩⟩
    exact ⟨hc.extension htype h hv, hc.queueModify htype h hv, hc.queueDelete htype h hv,
      hc.setDesc htype h hv⟩

end Handlers

/-- A message of any other type needs nothing but the size that is checked. -/
theorem OfpMessage.covers_of_ne (msg : OfpMessage) (ctl : Control)
    (hqueue : msg.type ≠ some .queueGetConfigRequest) (hvendor : msg.type ≠ some .vendor) :
    msg.Covers ctl where
  queueGetConfig h := absurd h hqueue
  privateMsg h := absurd h hvendor
  extension h := absurd h hvendor
  queueModify h := absurd h hvendor
  queueDelete h := absurd h hvendor
  setDesc h := absurd h hvendor

/-- The part of `fwd_control_input` behind the check of the version. -/
def dispatch (env : Surroundings) (sender : Sender) (msg : OfpMessage) : ControlM ℤ :=
  match msg.type.bind (handlerOf env) with
  | none => do
      dpSendErrorMsg sender ofpetBadRequest ofpbrcBadType msg.mem msg.length
      pure (-eInval)
  | some (minSize, handler) =>
      if msg.length < minSize then pure (-eFault) else handler sender msg.mem

/-- A message whose header is read is dispatched when its version is the right one. -/
theorem meets_receive_iff {env : Surroundings} {remote : Remote} {msg : OfpMessage}
    {c : Contract Access ControlFault} (hseen : ∀ n off, off + n ≤ 8 → c.seen (.read off n))
    {ctl : Control} :
    Meets (receive env remote msg) c (fun _ _ => True) ctl ↔
      (msg.version ≠ ofpVersion → c.failed .version) ∧
        (msg.version = ofpVersion →
          Meets (dispatch env ⟨remote, msg.xid⟩ msg) c (fun _ _ => True) ctl) := by
  have hsize : (msg.mem.get16 2).toNat = msg.length := rfl
  simp only [receive, fwdControlInput, meets_bind, meets_readLength, meets_read8, meets_ite, hsize,
    lt_irrefl, false_imp_iff, true_and, not_false_eq_true, true_imp_iff, meets_fail, not_not,
    hseen _ _ (by decide : 2 + 2 ≤ 8), hseen _ _ (by decide : 0 + 1 ≤ 8),
    hseen _ _ (by decide : 1 + 1 ≤ 8)]
  exact Iff.rfl

/-- A message of the right version is handled by the handler of its type, if it is long enough. -/
theorem meets_receive_of_handler {env : Surroundings} {remote : Remote} {msg : OfpMessage}
    {c : Contract Access ControlFault} (hseen : ∀ n off, off + n ≤ 8 → c.seen (.read off n))
    {t : OfpType} {minSize : ℕ} {handler : Sender → Memory → ControlM ℤ}
    (hversion : msg.version = ofpVersion) (htype : msg.type = some t)
    (hhandler : handlerOf env t = some (minSize, handler)) (hsize : minSize ≤ msg.length)
    {ctl : Control} {Q : ℤ → Control → Prop} :
    Meets (receive env remote msg) c Q ctl ↔
      Meets (handler ⟨remote, msg.xid⟩ msg.mem) c Q ctl := by
  have hlength : (msg.mem.get16 2).toNat = msg.length := rfl
  have hmem : msg.mem 0 = ofpVersion := hversion
  have ht : OfpType.ofBitVec (msg.mem 1) = some t := htype
  simp only [receive, fwdControlInput, meets_bind, meets_readLength, meets_read8, meets_ite,
    hlength, hmem, ht, hhandler, lt_irrefl, false_imp_iff, true_and, not_false_eq_true,
    true_imp_iff, ne_eq, not_true_eq_false, Option.bind_some, Nat.not_lt.2 hsize,
    hseen _ _ (by decide : 2 + 2 ≤ 8), hseen _ _ (by decide : 0 + 1 ≤ 8),
    hseen _ _ (by decide : 1 + 1 ≤ 8)]

/-- What is asked of the handling of a message follows from what is asked of the handler of its
type. -/
theorem meets_receive_of_type {env : Surroundings} {remote : Remote} {msg : OfpMessage}
    {c : Contract Access ControlFault} (hseen : ∀ o, c.seen o)
    (hversion : msg.version ≠ ofpVersion → c.failed .version)
    {t : OfpType} {minSize : ℕ} {handler : Sender → Memory → ControlM ℤ}
    (htype : msg.type = some t) (hhandler : handlerOf env t = some (minSize, handler))
    {ctl : Control} {Q : ℤ → Control → Prop} (hshort : msg.length < minSize → Q (-eFault) ctl)
    (h : minSize ≤ msg.length → Meets (handler ⟨remote, msg.xid⟩ msg.mem) c Q ctl) :
    Meets (receive env remote msg) c Q ctl := by
  have hlength : (msg.mem.get16 2).toNat = msg.length := rfl
  have ht : OfpType.ofBitVec (msg.mem 1) = some t := htype
  simp only [receive, fwdControlInput, meets_bind, meets_readLength, meets_read8, meets_ite,
    hlength, ht, hhandler, lt_irrefl, false_imp_iff, true_and, not_false_eq_true, true_imp_iff,
    Option.bind_some, meets_pure, meets_fail, hseen]
  exact ⟨hversion, fun _ => ⟨hshort, fun hle => h (Nat.not_lt.1 hle)⟩⟩

/-- What the dispatch of a message needs, once its version has been checked. -/
theorem reads_dispatch_iff (env : Surroundings) (sender : Sender) (msg : OfpMessage)
    (ctl : Control) :
    Meets (dispatch env sender msg) (within msg.length) (fun _ _ => True) ctl ↔
      msg.Covers ctl := by
  have hlen := msg.length_ge
  unfold dispatch
  have herror : Meets (do
      dpSendErrorMsg sender ofpetBadRequest ofpbrcBadType msg.mem msg.length
      pure (-eInval)) (within msg.length) (fun _ _ => True) ctl := by
    rw [meets_bind]
    exact (reads_dpSendErrorMsg (le_refl _) sender _ _).mono fun _ _ _ => by simp
  -- a handler that reads no more than the size that has been checked
  have hchecked : ∀ {minSize : ℕ} {handler : ControlM ℤ}, msg.Covers ctl →
      (minSize ≤ msg.length → Meets handler (within msg.length) (fun _ _ => True) ctl) →
      (Meets (if msg.length < minSize then pure (-eFault) else handler) (within msg.length)
        (fun _ _ => True) ctl ↔ msg.Covers ctl) := by
    intro minSize handler hc h
    rw [meets_ite, iff_true_right hc]
    exact ⟨fun _ => by simp, fun hle => h (Nat.not_lt.1 hle)⟩
  cases htype : msg.type with
  | none => exact iff_of_true herror (msg.covers_of_ne ctl (by simp [htype]) (by simp [htype]))
  | some t =>
    have hne : t ≠ .queueGetConfigRequest → t ≠ .vendor → msg.Covers ctl := fun hq hv =>
      msg.covers_of_ne ctl (fun h => hq (Option.some.inj (htype.symm.trans h)))
        fun h => hv (Option.some.inj (htype.symm.trans h))
    rw [Option.bind_some]
    cases t
    case vendor =>
      change Meets (if msg.length < 12 then _ else _) _ _ _ ↔ _
      rw [meets_ite]
      by_cases h12 : 12 ≤ msg.length
      · simp only [Nat.not_lt.2 h12, false_imp_iff, true_and, not_false_eq_true, true_imp_iff]
        exact reads_recvVendor_iff env sender msg ctl h12 htype
      · have hq : OfpType.vendor ≠ .queueGetConfigRequest := by decide
        refine iff_of_true ⟨fun _ => by simp, fun h => absurd (Nat.not_lt.1 h) h12⟩ ?_
        exact {
          queueGetConfig := fun h => absurd (Option.some.inj (htype.symm.trans h)) hq
          privateMsg := fun _ h => absurd h h12
          extension := fun _ h => absurd h h12
          queueModify := fun _ h => absurd h h12
          queueDelete := fun _ h => absurd h h12
          setDesc := fun _ h => absurd h h12 }
    case queueGetConfigRequest =>
      have hv : OfpType.queueGetConfigRequest ≠ .vendor := by decide
      change Meets (if msg.length < 8 then _ else _) _ _ _ ↔ _
      rw [if_neg (Nat.not_lt.2 hlen), reads_recvQueueGetConfigRequest_iff sender msg ctl]
      constructor
      · intro h10
        exact {
          queueGetConfig := fun _ => h10
          privateMsg := fun h => absurd (Option.some.inj (htype.symm.trans h)) hv
          extension := fun h => absurd (Option.some.inj (htype.symm.trans h)) hv
          queueModify := fun h => absurd (Option.some.inj (htype.symm.trans h)) hv
          queueDelete := fun h => absurd (Option.some.inj (htype.symm.trans h)) hv
          setDesc := fun h => absurd (Option.some.inj (htype.symm.trans h)) hv }
      · exact fun hc => hc.queueGetConfig htype
    all_goals
      have hc := hne (by decide) (by decide)
    case barrierRequest =>
      exact hchecked hc fun _ => (reads_recvBarrierRequest sender msg ctl).1
    case echoRequest => exact hchecked hc fun _ => (reads_recvBarrierRequest sender msg ctl).2
    case featuresRequest =>
      exact hchecked hc fun _ => (reads_recvFeaturesRequest sender msg ctl).1
    case getConfigRequest =>
      exact hchecked hc fun _ => (reads_recvFeaturesRequest sender msg ctl).2
    case setConfig => exact hchecked hc (reads_recvSetConfig msg ctl)
    case portMod => exact hchecked hc (reads_recvPortMod msg ctl)
    case flowMod => exact hchecked hc (reads_recvFlow env sender msg ctl)
    case statsRequest => exact hchecked hc (reads_recvStatsRequest sender msg ctl)
    case packetOut => exact hchecked hc fun _ => by simp [recvPacketOut]
    case echoReply => exact hchecked hc fun _ => by simp [recvEchoReply]
    all_goals exact iff_of_true herror hc

/-- When a message is handled, the handlers read only bytes of the message, and every length that is
computed from its header is one, exactly when the version is the wrong one or the message covers
what they read. -/
theorem reads_within_iff (env : Surroundings) (remote : Remote) (msg : OfpMessage)
    (ctl : Control) :
    (∀ access ∈ (receive env remote msg ctl).1, access.Within msg.length) ↔
      (msg.version = ofpVersion → msg.Covers ctl) := by
  have hlen := msg.length_ge
  change (∀ access ∈ _, (within msg.length).seen access) ↔ _
  rw [← meets_iff_seen]
  change Meets _ (within msg.length) _ _ ↔ _
  rw [meets_receive_iff fun n off h => by rw [within_read]; omega]
  simp only [within_failed, implies_true, true_and]
  exact forall_congr' fun _ => reads_dispatch_iff env ⟨remote, msg.xid⟩ msg ctl

/-- A request for the configuration of queues that ends with its header. -/
def shortQueueRequest : OfpMessage := .ofBytes [1, 20, 0, 8, 0, 0, 0, 0] (by decide)

/-- The number of the port of such a request is read behind its end. -/
theorem not_reads_within : ¬ ∀ (env : Surroundings) (remote : Remote) (msg : OfpMessage)
    (ctl : Control), msg.version = ofpVersion →
    ∀ access ∈ (receive env remote msg ctl).1, access.Within msg.length := by
  intro hall
  have hread := hall .calm 0 shortQueueRequest
    (.start (onePortSwitch (.init .source 0)) 1 []) (by decide) (.read 8 2) (by decide +kernel)
  change 8 + 2 ≤ 8 at hread
  omega

end OfAgent
