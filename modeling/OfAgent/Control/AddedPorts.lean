import OfAgent.Control.Frames
import OfAgent.Forward.Receive

/-!
# Ports that have been added

The table `ports` has a record for every number below `DP_MAX_PORTS`, and a record of which no port
has been made is zeroed memory: its number is 0, and its list of queues is no list.

* `SwPort.Added`: what a record is like that is found under a number.
* `Switch.PortsAdded`: all records are so, and `port_list` names the ports in use. The functions
  that add ports see to it.
* `SwPort.ChangedTo`: what handlers do to a record; `Step.portsAdded`: every event keeps the ports
  so, and the list as it is.
-/

namespace OfAgent

open Monitored

/-! ### Records -/

/-- A record of the table, or the local port, that is found under a number. -/
structure SwPort.Added (p : SwPort) (n : BitVec 16) : Prop where
  /-- A port in use has its number. -/
  portNo : p.used = true → p.portNo = n
  /-- Another record has number 0 and belongs to the table. -/
  zeroed : p.used = false → p.portNo = 0 ∧ n.toNat < dpMaxPorts
  /-- Queues of a port have different ids. -/
  queueIds : (p.queueList.map SwQueue.queueId).Nodup

/-- Records are as they should be, and the list names the ports in use. -/
structure Switch.PortsAdded (sw : Switch) : Prop where
  /-- The records. -/
  added : ∀ n p, sw.dpLookupPort n = some p → p.Added n
  /-- The list. -/
  listed : ∀ n, n ∈ sw.portList ↔ (portInUse sw n).isSome = true

/-- A change of a record that leaves alone whether it is in use, and under which number. -/
structure SwPort.ChangedTo (p p' : SwPort) : Prop where
  /-- `SWP_USED`. -/
  used : p'.used = p.used
  /-- The number. -/
  portNo : p'.portNo = p.portNo
  /-- The ids of its queues stay different. -/
  queueIds : (p.queueList.map SwQueue.queueId).Nodup → (p'.queueList.map SwQueue.queueId).Nodup

namespace SwPort

variable {p p' : SwPort} {n : BitVec 16}

theorem Added.changed (h : p.Added n) (hp : p.ChangedTo p') : p'.Added n where
  portNo hused := hp.portNo.trans (h.portNo (hp.used ▸ hused))
  zeroed hunused := by
    rw [hp.portNo]
    exact h.zeroed (hp.used ▸ hunused)
  queueIds := hp.queueIds h.queueIds

theorem ChangedTo.flags (p : SwPort) (config state : BitVec 32) :
    p.ChangedTo { p with config, state } :=
  ⟨rfl, rfl, id⟩

theorem ChangedTo.fillFlags (p : SwPort) : p.ChangedTo p.fillFlags := by
  unfold SwPort.fillFlags
  split
  next => exact ⟨rfl, rfl, id⟩
  next => exact .flags p _ _

/-- A queue with a new id. -/
theorem ChangedTo.newQueue {queueNo : ℕ} (hfree : p.freeQueueNo = some queueNo)
    {queueId : BitVec 32} (hnew : p.lookupQueue queueId = none) (property minRate : BitVec 16) :
    p.ChangedTo (p.newQueue queueNo hfree queueId property minRate) := by
  refine ⟨rfl, rfl, fun hnodup => ?_⟩
  change ((p.queueList ++ [_]).map SwQueue.queueId).Nodup
  rw [List.map_append, List.map_singleton, List.nodup_append]
  refine ⟨hnodup, List.nodup_singleton _, fun id hid id' hid' heq => ?_⟩
  obtain ⟨q, hq, rfl⟩ := List.mem_map.1 hid
  have hne := List.find?_eq_none.1 hnew q hq
  rw [List.mem_singleton.1 hid'] at heq
  exact hne (beq_iff_eq.2 heq)

/-- New values of a queue. -/
theorem ChangedTo.changeQueue (p : SwPort) (classId property minRate : BitVec 16) :
    p.ChangedTo (p.changeQueue classId property minRate) := by
  refine ⟨rfl, rfl, fun hnodup => ?_⟩
  have hsame : (p.changeQueue classId property minRate).queueList.map SwQueue.queueId =
      p.queueList.map SwQueue.queueId := by
    change (p.queueList.map _).map _ = _
    rw [List.map_map]
    refine List.map_congr_left fun q _ => ?_
    rw [Function.comp_apply]
    split <;> rfl
  rw [hsame]
  exact hnodup

theorem ChangedTo.portDeleteQueue (p : SwPort) (q : SwQueue) : p.ChangedTo (p.portDeleteQueue q) :=
  ⟨rfl, rfl, fun hnodup => hnodup.sublist (List.erase_sublist.map _)⟩

end SwPort

/-! ### Switches -/

/-- A change of a port leaves the list alone. -/
theorem Switch.portList_modifyPort (portNo : BitVec 16) (f : SwPort → SwPort) (sw : Switch) :
    (sw.modifyPort portNo f).portList = sw.portList := by
  unfold modifyPort
  split
  · rfl
  · split <;> rfl

namespace Switch.PortsAdded

variable {sw sw' : Switch} {garbage : Bool} {numQueues : Fin (netdevMaxQueues + 1)} {n : BitVec 16}
    {p : SwPort}

theorem used_of_listed (h : sw.PortsAdded) (hp : p ∈ sw.listedPorts) : p.used = true := by
  obtain ⟨n, hn, hlookup⟩ := List.mem_filterMap.1 hp
  obtain ⟨q, hq⟩ := Option.isSome_iff_exists.1 ((h.listed n).1 hn)
  obtain ⟨hq, hused⟩ := Option.filter_eq_some_iff.1 hq
  rw [Option.some.inj (hlookup.symm.trans hq)]
  exact hused

/-- Only what is found under a number matters, and the list. -/
theorem of_same (h : sw.PortsAdded) (hlist : sw'.portList = sw.portList)
    (hsame : ∀ n, sw'.dpLookupPort n = sw.dpLookupPort n) : sw'.PortsAdded where
  added n p hp := h.added n p ((hsame n).symm.trans hp)
  listed n := by
    rw [hlist, h.listed n]
    unfold portInUse
    rw [hsame n]

/-- A change of a port. -/
theorem modifyPort (h : sw.PortsAdded) {f : SwPort → SwPort}
    (hf : ∀ p, sw.dpLookupPort n = some p → p.ChangedTo (f p)) :
    (sw.modifyPort n f).PortsAdded := by
  constructor
  · intro m q hq
    rw [dpLookupPort_modifyPort] at hq
    split at hq
    next heq =>
      obtain ⟨p, hp, rfl⟩ := Option.map_eq_some_iff.1 hq
      exact (h.added m p hp).changed (hf p (heq ▸ hp))
    next => exact h.added m q hq
  · intro m
    rw [portList_modifyPort, h.listed m]
    unfold portInUse
    rw [dpLookupPort_modifyPort]
    split
    next heq =>
      cases hp : sw.dpLookupPort m with
      | none => rfl
      | some p =>
        have hused := (hf p (heq ▸ hp)).used
        rw [Option.map_some, Option.isSome_filter, Option.isSome_filter, Option.any_some,
          Option.any_some, hused]
    next => rfl

/-- A port that has been added under a number that was not in the list. -/
theorem append {m : BitVec 16} {q : SwPort} (h : sw.PortsAdded)
    (hlist : sw'.portList = sw.portList ++ [m]) (hself : sw'.dpLookupPort m = some q)
    (hused : q.used = true) (hq : q.Added m)
    (hother : ∀ n, n ≠ m → sw'.dpLookupPort n = sw.dpLookupPort n) : sw'.PortsAdded := by
  constructor
  · intro n p hp
    by_cases hne : n = m
    · rw [hne, hself] at hp
      rw [← Option.some.inj hp, hne]
      exact hq
    · exact h.added n p ((hother n hne).symm.trans hp)
  · intro n
    rw [hlist, List.mem_append, List.mem_singleton, h.listed n]
    unfold portInUse
    by_cases hne : n = m
    · rw [hne, hself, Option.isSome_filter, Option.isSome_filter, Option.any_some, hused]
      exact iff_of_true (.inr rfl) rfl
    · rw [hother n hne]
      exact or_iff_left hne

theorem dpAddPort (h : sw.PortsAdded) {portNo : Fin dpMaxPorts}
    (hnew : BitVec.ofNat 16 portNo ∉ sw.portList) :
    (sw.dpAddPort garbage portNo numQueues hnew).PortsAdded :=
  h.append rfl dpLookupPort_dpAddPort rfl
    ⟨fun _ => rfl, fun hunused => (Bool.noConfusion hunused), List.nodup_nil⟩
    fun _ => dpLookupPort_dpAddPort_of_ne

theorem dpAddLocalPort (h : sw.PortsAdded) (hnew : ofppLocal ∉ sw.portList) :
    (sw.dpAddLocalPort garbage numQueues hnew).PortsAdded :=
  h.append rfl rfl rfl
    ⟨fun _ => rfl, fun hunused => (Bool.noConfusion hunused), List.nodup_nil⟩
    fun _ => dpLookupPort_dpAddLocalPort_of_ne

/-- Before any port is added, there are none. -/
theorem of_unused (hports : ∀ i, sw.ports i = .unused) (hlocal : sw.localPort = none)
    (hlist : sw.portList = []) :
    sw.PortsAdded := by
  have hlookup : ∀ n p, sw.dpLookupPort n = some p → n.toNat < dpMaxPorts ∧ p = .unused := by
    intro n p hp
    unfold dpLookupPort at hp
    split at hp
    next hn => exact ⟨hn, (Option.some.inj hp).symm.trans (hports _)⟩
    next =>
      rw [hlocal] at hp
      split at hp <;> cases hp
  constructor
  · intro n p hp
    obtain ⟨hn, rfl⟩ := hlookup n p hp
    exact ⟨fun hused => absurd hused (by decide), fun _ => ⟨rfl, hn⟩, List.nodup_nil⟩
  · intro n
    rw [hlist]
    refine iff_of_false List.not_mem_nil fun hsome => ?_
    obtain ⟨p, hp⟩ := Option.isSome_iff_exists.1 hsome
    obtain ⟨hp, hused⟩ := Option.filter_eq_some_iff.1 hp
    rw [(hlookup n p hp).2] at hused
    cases hused

end Switch.PortsAdded

/-! ### Events -/

/-- The ports of a datapath have been added, and the list names the given ones. -/
structure Control.HasPorts (portList : List (BitVec 16)) (ctl : Control) : Prop where
  /-- The ports. -/
  ports : ctl.PortsAdded
  /-- The list. -/
  portList_eq : ctl.portList = portList

namespace Control.HasPorts

variable {portList : List (BitVec 16)} {ctl : Control} {env : Surroundings} {sender : Sender}
    {oh : Memory}

theorem of_same {ctl' : Control} (h : HasPorts portList ctl) (hports : ctl'.ports = ctl.ports)
    (hlocal : ctl'.localPort = ctl.localPort) (hlist : ctl'.portList = ctl.portList) :
    HasPorts portList ctl' := by
  refine ⟨h.ports.of_same hlist fun n => ?_, hlist.trans h.portList_eq⟩
  unfold Switch.dpLookupPort
  rw [hports, hlocal]

theorem modifyPort (h : HasPorts portList ctl) {n : BitVec 16} {f : SwPort → SwPort}
    (hf : ∀ p, ctl.dpLookupPort n = some p → p.ChangedTo (f p)) :
    HasPorts portList { ctl with toSwitch := ctl.toSwitch.modifyPort n f } := by
  refine ⟨h.ports.modifyPort hf, ?_⟩
  rw [Switch.portList_modifyPort, h.portList_eq]

theorem answered (portList : List (BitVec 16)) : Answered (HasPorts portList) where
  reply _ _ _ := .modify fun _ h => h.of_same rfl rfl rfl
  connections _ _ h := h.of_same rfl rfl rfl

/-- Forwarding leaves them alone. -/
theorem forwarding (sw : Switch) : Switch.Kept
    (fun sw' => sw'.ports = sw.ports ∧ sw'.localPort = sw.localPort ∧ sw'.portList = sw.portList)
      fun _ _ => True where
  action _ _ := trivial
  ready _ _ := trivial
  clone _ _ := trivial
  transmit h _ := h
  control h _ hout := by
    unfold Switch.dpOutputControl at hout
    simp only at hout
    split at hout
    next => cases hout
    next =>
      rw [← Except.ok.inj hout]
      exact h
  used h _ := h

theorem perform_flowRemoved (ofr : OfpFlowRemoved) :
    Keeps (HasPorts portList) (perform env sender oh (.flowRemoved ofr)) :=
  (keeps_putOpenflowXid _).bind fun _ => .modify fun _ h => h.of_same rfl rfl rfl

variable (portList env sender oh) in
/-- A change of the tables, and what follows it. -/
theorem setDatapath (dp : Datapath) (outputs : List DpOutput) :
    Keeps (HasPorts portList) (do OfAgent.setDatapath dp; performAll env sender oh outputs) := by
  refine Keeps.bind (.modify fun _ h => h.of_same rfl rfl rfl) fun _ =>
    keeps_performAll fun output _ => ?_
  cases output with
  | errorMsg error length => exact ((answered portList).answeredTo sender).dpSendErrorMsg _ _ _
  | flowRemoved ofr => exact perform_flowRemoved ofr
  | executeActions buffer inPort actions =>
    refine keeps_forward fun ctl sw h hrun => ?_
    obtain ⟨hports, hlocal, hlist⟩ :=
      (forwarding ctl.toSwitch).executeSaved ⟨rfl, rfl, rfl⟩ (fun _ => trivial) hrun
    exact h.of_same hports hlocal hlist
  | packetIn buffer bufferId => exact .pure _

/-- A request for the features changes flags. -/
theorem recvFeaturesRequest : Keeps (HasPorts portList) (recvFeaturesRequest sender) := by
  have hfold : ∀ (portNos : List (BitVec 16)) (ctl : Control), HasPorts portList ctl →
      HasPorts portList { ctl with
        toSwitch := portNos.foldl
          (fun sw portNo => sw.modifyPort portNo SwPort.fillFlags) ctl.toSwitch } := by
    intro portNos
    induction portNos with
    | nil => exact fun _ h => h
    | cons portNo portNos ih =>
      exact fun ctl h => ih _ (h.modifyPort fun p _ => .fillFlags p)
  refine (keeps_putOpenflowXid _).bind fun _ => .get_bind_all fun ctl => ?_
  refine Keeps.bind (.modify fun ctl' h => hfold _ _ h) fun _ => Keeps.bind ?_ fun _ => .pure _
  exact .modify fun _ h => h.of_same rfl rfl rfl

/-- So does a modification of a port. -/
theorem recvPortMod : Keeps (HasPorts portList) (recvPortMod oh) := by
  refine (keeps_read16 8).bind fun portNo => .get_bind_all fun ctl => ?_
  refine (keeps_read32 20).bind fun mask => .ite (fun _ => .pure _) fun _ => ?_
  cases ctl.dpLookupPort portNo with
  | none => exact .fail _
  | some p =>
    refine (keeps_read32 16).bind fun config => Keeps.bind (.modify fun ctl' h => ?_) fun _ =>
      .pure _
    exact h.modifyPort fun p _ => .flags p _ _

/-- The change of a queue, or a new queue. -/
theorem recvOfExpQueueModify : Keeps (HasPorts portList) (recvOfExpQueueModify env sender oh) := by
  have hreply : ∀ code, Keeps (HasPorts portList) (replyError sender ofpetQueueOpFailed code oh) :=
    fun code => ((answered portList).answeredTo sender).replyError _ code
  refine (keeps_read16 28).bind fun len => .ite (fun _ => hreply _) fun _ => ?_
  refine (keeps_read16 32).bind fun property => .ite (fun _ => hreply _) fun _ => ?_
  refine (keeps_read16 16).bind fun portNo => (keeps_read32 24).bind fun queueId => ?_
  refine .get_bind fun ctl h => ?_
  cases hp : portInUse ctl.toSwitch portNo with
  | none => exact hreply _ ctl h
  | some p =>
    have hlookup := (Option.filter_eq_some_iff.1 hp).1
    have hset : ∀ {p'}, p.ChangedTo p' →
        HasPorts portList { ctl with toSwitch := ctl.toSwitch.modifyPort portNo fun _ => p' } :=
          fun hchanged =>
      h.modifyPort fun q hq => Option.some.inj (hlookup.symm.trans hq) ▸ hchanged
    simp only
    cases hq : p.lookupQueue queueId with
    | some q =>
      -- the queue is there, and gets another rate
      simp only [modifyQueue, meets_bind, meets_read16, meets_ite, meets_fail, setPort,
        meets_modify]
      exact ⟨trivial, fun _ => trivial,
        fun _ => ⟨fun _ => hreply _ ctl h, fun _ => hset (.changeQueue p _ _ _)⟩⟩
    | none =>
      simp only
      unfold createQueue
      split
      next => exact hreply _ ctl h
      next queueNo hfree =>
        -- the answer to a network device that refuses does not take the new queue back
        have hnew := hset (.newQueue hfree hq property (oh.get16 40))
        simp only [meets_bind, meets_read16, meets_ite, meets_fail, setPort, meets_modify,
          meets_pure]
        exact ⟨trivial, fun _ => trivial, fun _ => ⟨fun _ => hreply _ _ hnew, fun _ => hnew⟩⟩

/-- The deletion of a queue. -/
theorem recvOfExpQueueDelete : Keeps (HasPorts portList) (recvOfExpQueueDelete sender oh) := by
  have hreply : Keeps (HasPorts portList)
      (replyError sender ofpetQueueOpFailed ofpqofcBadPort oh) :=
    ((answered portList).answeredTo sender).replyError _ _
  refine (keeps_read16 16).bind fun portNo => (keeps_read32 24).bind fun queueId => ?_
  refine .get_bind fun ctl h => ?_
  cases hp : ctl.dpLookupPort portNo with
  | none => exact (meets_fail _).2 trivial
  | some p =>
    simp only [meets_ite]
    refine ⟨fun _ => ?_, fun _ => hreply ctl h⟩
    cases p.lookupQueue queueId with
    | none => exact hreply ctl h
    | some q =>
      refine (meets_modify _).2 (h.modifyPort fun p' hp' => ?_)
      rw [Option.some.inj (hp'.symm.trans hp)]
      exact .portDeleteQueue p q

/-- A vendor message. -/
theorem recvVendor : Keeps (HasPorts portList) (recvVendor env sender oh) := by
  refine (keeps_read32 8).bind fun vendor => .ite (fun _ => ?_) fun _ => .ite (fun _ => ?_) fun _ =>
    ?_
  · refine (keeps_read16 12).bind fun pvoType => ?_
    split
    case h_4 =>
      refine .get_bind_all fun ctl => ?_
      have hset := setDatapath portList env sender oh
        (ctl.toDatapath.emergFlowProtection env.now).1
          (ctl.toDatapath.emergFlowProtection env.now).2
      intro ctl' h
      have hend := hset ctl' h
      simp only [meets_bind, meets_pure] at hend ⊢
      exact hend
    all_goals exact .pure _
  · refine (keeps_read32 12).bind fun subtype => ?_
    split
    · exact recvOfExpQueueModify.bind fun _ => .pure _
    · exact recvOfExpQueueDelete.bind fun _ => .pure _
    · refine Keeps.bind ?_ fun _ => .pure _
      exact (keeps_strncpy _ _).bind fun dpDesc => .modify fun _ h => h.of_same rfl rfl rfl
    · exact .pure _
  · exact (((answered portList).answeredTo sender).replyError _ _).bind fun _ => .pure _

/-- The handling of a message. -/
theorem receive (remote : Remote) (msg : OfpMessage) :
    Keeps (HasPorts portList) (receive env remote msg) := by
  refine ((answered portList).answeredTo ⟨remote, msg.xid⟩).receive
    fun t minSize handler ht hentry honly => ?_
  cases t
  case featuresRequest =>
    cases hentry
    exact recvFeaturesRequest
  case setConfig =>
    cases hentry
    refine (keeps_read16 8).bind fun flags => (keeps_read16 10).bind fun missSendLen => ?_
    exact Keeps.bind (.modify fun _ h => h.of_same rfl rfl rfl) fun _ => .pure _
  case portMod =>
    cases hentry
    exact recvPortMod
  case flowMod =>
    cases hentry
    exact keeps_recvFlow fun ctl => setDatapath _ _ _ _ _ _ ctl
  case vendor =>
    cases hentry
    exact recvVendor
  case barrierRequest | echoRequest | echoReply | getConfigRequest | statsRequest
    | queueGetConfigRequest | packetOut => exact absurd (by decide) honly
  all_goals cases hentry

/-- Every event leaves the ports added, and the list as it is. -/
theorem step {e : ControlEvent} {ctl' : Control} (h : HasPorts portList ctl)
    (hstep : Step ctl e ctl') : HasPorts portList ctl' := by
  refine (meets_any_iff (Q := fun _ s => HasPorts portList s)).1 ?_ _ _ hstep.2
  cases e with
  | message env remote msg => exact Keeps.bind (receive remote msg) (fun _ => .pure _) ctl h
  | packet env portNo bytes =>
    refine Keeps.get_bind_all (fun ctl' => ?_) ctl h
    cases ctl'.dpLookupPort portNo with
    | none => exact .pure _
    | some p =>
      refine keeps_forward fun ctl sw h hrun => ?_
      obtain ⟨hports, hlocal, hlist⟩ :=
        (forwarding ctl.toSwitch).fwdPortInput ⟨rfl, rfl, rfl⟩ (fun _ => trivial) hrun
      exact h.of_same hports hlocal hlist
  | timeouts env =>
    refine Keeps.get_bind_all
      (fun ctl' => Keeps.bind (.modify fun _ h => h.of_same rfl rfl rfl) fun _ => ?_) ctl h
    refine keeps_performAll fun output hmem => ?_
    obtain ⟨ofr, rfl⟩ := Datapath.flowRemoved_of_mem_dpRun hmem
    exact perform_flowRemoved ofr
  | close remote => exact (meets_modify _).2 (h.of_same rfl rfl rfl)
  | dump now err2 remote =>
    obtain ⟨cb, hcb⟩ := Option.isSome_iff_exists.1 hstep.1
    refine (meets_runDump hcb fun _ _ _ _ _ _ _ => trivial).mono ?_
    rintro - ctl' ⟨next, sent, -, rfl⟩
    exact h.of_same rfl rfl rfl

end Control.HasPorts

/-- In every state that a datapath with added ports can reach, its ports are added, and the list is
the one that it had at the beginning. -/
theorem Control.hasPorts_of_reachable {init ctl : Control} (hports : init.PortsAdded)
    (hrun : Transition.Reachable Step init ctl) : HasPorts init.portList ctl :=
  hrun.invariant (HasPorts init.portList) ⟨hports, rfl⟩ fun _ _ _ h _ hstep => h.step hstep

end OfAgent
