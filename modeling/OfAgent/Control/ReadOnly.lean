import OfAgent.Control.Invariants

/-!
# Requests that only read

A request for the features, the configuration, statistics, the configuration of queues, an echo or a
barrier is answered. None of them changes the configuration, with one exception: when a port without
a network device is described, it is put up.

* `Control.SameConfiguration`: what a request that only reads leaves alone.
* `ControlEvent.SparesPorts`: no such port is down.
* `Control.readOnly_iff`: exactly then, such a request changes nothing, and a bit that a port
  modification has set stays as it is until the next one for that port.
-/

namespace OfAgent

open Monitored

/-! ### The configuration -/

namespace Switch

/-- `config` of the port with a number. -/
def portConfig (sw : Switch) (portNo : BitVec 16) : Option (BitVec 32) :=
  (sw.dpLookupPort portNo).map SwPort.config

/-- `queue_list` of the port with a number. -/
def portQueues (sw : Switch) (portNo : BitVec 16) : Option (List SwQueue) :=
  (sw.dpLookupPort portNo).map SwPort.queueList

variable {sw : Switch} {portNo n : BitVec 16} {f : SwPort → SwPort}

/-- A change that leaves the configuration of a port alone. -/
theorem portConfig_modifyPort (h : ∀ p, sw.dpLookupPort portNo = some p → (f p).config = p.config) :
    (sw.modifyPort portNo f).portConfig n = sw.portConfig n := by
  rw [portConfig, portConfig, dpLookupPort_modifyPort]
  split
  next heq =>
    subst heq
    cases hp : sw.dpLookupPort n with
    | none => rfl
    | some p => exact congrArg some (h p hp)
  next => rfl

theorem portConfig_modifyPort_of_ne (h : n ≠ portNo) :
    (sw.modifyPort portNo f).portConfig n = sw.portConfig n := by
  rw [portConfig, portConfig, dpLookupPort_modifyPort, if_neg h]

/-- Changes of several ports. -/
theorem dpLookupPort_foldl (f : SwPort → SwPort) {portNos : List (BitVec 16)}
    (hnodup : portNos.Nodup) (sw : Switch) (n : BitVec 16) :
    (portNos.foldl (fun sw portNo => sw.modifyPort portNo f) sw).dpLookupPort n =
      if n ∈ portNos then (sw.dpLookupPort n).map f else sw.dpLookupPort n := by
  induction portNos generalizing sw with
  | nil => rfl
  | cons portNo portNos ih =>
    obtain ⟨hmem, hrest⟩ := List.nodup_cons.1 hnodup
    rw [List.foldl_cons, ih hrest, dpLookupPort_modifyPort]
    by_cases heq : n = portNo
    · subst heq
      rw [if_neg hmem, if_pos rfl, if_pos List.mem_cons_self]
    · simp only [heq, if_false, List.mem_cons, false_or]

end Switch

namespace Control

/-- The configuration of the ports, their queues, the flags and the flow tables are the same. -/
structure SameConfiguration (ctl ctl' : Control) : Prop where
  /-- The configuration of the ports. -/
  ports : ∀ n, ctl'.portConfig n = ctl.portConfig n
  /-- Their queues. -/
  queues : ∀ n, ctl'.portQueues n = ctl.portQueues n
  /-- The flags. -/
  flags : ctl'.flags = ctl.flags
  /-- The length of messages to the controller. -/
  missSendLen : ctl'.missSendLen = ctl.missSendLen
  /-- The flow tables. -/
  chain : ctl'.chain = ctl.chain

/-- The same switch is configured the same way. -/
theorem SameConfiguration.of_eq {ctl ctl' : Control} (h : ctl'.toSwitch = ctl.toSwitch) :
    SameConfiguration ctl ctl' where
  ports _ := by rw [h]
  queues _ := by rw [h]
  flags := by rw [h]
  missSendLen := by rw [h]
  chain := by rw [h]

end Control

/-! ### Events -/

/-- The types of requests that only read. -/
def OfpType.ReadOnly (t : OfpType) : Prop :=
  t ∈ [.featuresRequest, .getConfigRequest, .statsRequest, .echoRequest, .barrierRequest,
    .queueGetConfigRequest]

instance (t : OfpType) : Decidable t.ReadOnly := inferInstanceAs (Decidable (_ ∈ _))

namespace ControlEvent

/-- The event is the handling of such a request, or of the dump that a statistics request starts. -/
def IsReadOnly : ControlEvent → Prop
  | message _ _ msg => ∃ t, msg.type = some t ∧ t.ReadOnly
  | dump _ _ _ => True
  | _ => False

/-- The event is a port modification for a port. -/
def ModifiesPort (portNo : BitVec 16) : ControlEvent → Prop
  | message _ _ msg => msg.type = some .portMod ∧ msg.mem.get16 8 = portNo
  | _ => False

/-- The features are requested only when no port without a network device is down. -/
def SparesPorts (ctl : Control) : ControlEvent → Prop
  | message _ _ msg => msg.type = some .featuresRequest →
      ∀ p ∈ ctl.listedPorts, p.netdev = false → p.config &&& ofppcPortDown = 0
  | _ => True

end ControlEvent

/-! ### One event -/

namespace Control

variable {ctl ctl' : Control} {e : ControlEvent}

theorem answered_switch (sw : Switch) : Answered fun ctl => ctl.toSwitch = sw where
  reply _ _ _ := .modify fun _ h => h
  connections _ _ h := h

theorem switch_runDump {now : BitVec 64} {err2 : ℤ} {remote : Remote} {cb : StatsDumpCb}
    (hcb : ctl.cbDump remote = some cb) :
    Meets (runDump now err2 remote) .any (fun _ ctl' => ctl'.toSwitch = ctl.toSwitch) ctl :=
  (answered_switch ctl.toSwitch).runDump (fun _ _ _ _ _ => .modify fun _ h => h) hcb rfl

/-- A request for the features leaves the ports behind as they have been described. -/
theorem Step.features {env : Surroundings} {remote : Remote} {msg : OfpMessage}
    (h : Step ctl (.message env remote msg) ctl') (htype : msg.type = some .featuresRequest) :
    ctl'.toSwitch = ctl.portList.foldl (fun sw portNo => sw.modifyPort portNo SwPort.fillFlags)
      ctl.toSwitch := by
  refine (meets_any_iff (Q := fun _ s => s.toSwitch = _)).1 ?_ _ _ h.2
  rw [ControlEvent.run, meets_bind]
  refine meets_receive_of_type (fun _ => trivial) (fun _ => trivial) htype rfl
    (fun hlt => absurd msg.length_ge (Nat.not_le.2 hlt)) fun _ => ?_
  simp only [recvFeaturesRequest, meets_bind, meets_putOpenflowXid, meets_get, meets_modify,
    meets_sendOpenflowBuffer, meets_pure]
  exact ⟨fun _ => trivial, fun _ => trivial⟩

/-- Any other request that only reads leaves the switch alone. -/
theorem Step.switch_eq (h : Step ctl e ctl') (hread : e.IsReadOnly)
    (hne : ∀ env remote msg, e = .message env remote msg → msg.type ≠ some .featuresRequest) :
    ctl'.toSwitch = ctl.toSwitch := by
  refine (meets_any_iff (Q := fun _ s => s.toSwitch = _)).1 ?_ _ _ h.2
  cases e with
  | message env remote msg =>
    obtain ⟨t, ht, honly⟩ := hread
    have hnot := hne env remote msg rfl
    refine Keeps.bind (((answered_switch ctl.toSwitch).answeredTo _).receive
      fun t' minSize handler ht' hentry hother => ?_) (fun _ => .pure _) ctl rfl
    -- the other types only answer
    have heq : t' = t := Option.some.inj (ht'.symm.trans ht)
    subst heq
    cases t'
    case featuresRequest => exact absurd ht hnot
    case getConfigRequest | statsRequest | echoRequest | barrierRequest | queueGetConfigRequest =>
      exact absurd (by decide) hother
    all_goals simp [OfpType.ReadOnly] at honly
  | dump now err2 remote =>
    obtain ⟨cb, hcb⟩ := Option.isSome_iff_exists.1 h.1
    exact switch_runDump hcb
  | packet env portNo bytes => exact hread.elim
  | timeouts env => exact hread.elim
  | close remote => exact hread.elim

end Control

/-- The flags that are left behind are those before, unless the port has no network device and is
down. -/
theorem SwPort.fillFlags_config_eq_iff (p : SwPort) :
    p.fillFlags.config = p.config ↔ (p.netdev = false → p.config &&& ofppcPortDown = 0) := by
  unfold fillFlags
  cases p.netdev with
  | true => simp
  | false =>
    simp only [Bool.false_eq_true, if_false, true_imp_iff]
    constructor
    · intro h
      rw [← h, BitVec.and_assoc, BitVec.and_comm (~~~ofppcPortDown), BitVec.and_not_self]
      exact BitVec.and_zero
    · intro h
      have hsplit : p.config = p.config &&& (ofppcPortDown ||| ~~~ofppcPortDown) := by
        rw [BitVec.or_not_self, BitVec.and_allOnes]
      rw [BitVec.and_or_distrib_left, h] at hsplit
      exact (hsplit.trans BitVec.zero_or).symm

theorem SwPort.fillFlags_queueList (p : SwPort) : p.fillFlags.queueList = p.queueList := by
  unfold fillFlags
  split <;> rfl

namespace Control

variable {ctl ctl' : Control} {e : ControlEvent}

/-- A request for the features changes nothing exactly when no port without a network device is
down. -/
theorem Step.sameConfiguration_iff (h : Step ctl e ctl') (hread : e.IsReadOnly) :
    SameConfiguration ctl ctl' ↔ e.SparesPorts ctl := by
  by_cases hfeatures : ∃ env remote msg, e = .message env remote msg ∧
      msg.type = some .featuresRequest
  · -- the answer to a request for the features fills in the flags of the ports
    obtain ⟨env, remote, msg, rfl, htype⟩ := hfeatures
    have hsw := h.features htype
    have hlookup : ∀ n, ctl'.dpLookupPort n = if n ∈ ctl.portList then
        (ctl.dpLookupPort n).map SwPort.fillFlags else ctl.dpLookupPort n := by
      intro n
      rw [hsw]
      exact Switch.dpLookupPort_foldl _ ctl.portList_nodup ctl.toSwitch n
    have hlisted : ControlEvent.SparesPorts ctl (.message env remote msg) ↔
        ∀ n ∈ ctl.portList, ∀ p, ctl.dpLookupPort n = some p → p.fillFlags.config = p.config := by
      refine ⟨fun hspares n hn p hp => ?_, fun hall _ p hp => ?_⟩
      · exact p.fillFlags_config_eq_iff.2
          (hspares htype p (List.mem_filterMap.2 ⟨n, hn, hp⟩))
      · obtain ⟨n, hn, hlookup⟩ := List.mem_filterMap.1 hp
        exact p.fillFlags_config_eq_iff.1 (hall n hn p hlookup)
    rw [hlisted]
    constructor
    · intro hsame n hn p hp
      have hports := hsame.ports n
      rw [Switch.portConfig, Switch.portConfig, hlookup, if_pos hn, hp] at hports
      exact Option.some.inj hports
    · intro hall
      have hkeep := fun (α : Type) (g : Switch → α) hg =>
        (congrArg g hsw).trans (Switch.foldl_modifyPort g hg ctl.portList ctl.toSwitch)
      refine ⟨fun n => ?_, fun n => ?_, ?_, ?_, ?_⟩
      · rw [Switch.portConfig, Switch.portConfig, hlookup]
        split
        next hn =>
          cases hp : ctl.dpLookupPort n with
          | none => rfl
          | some p => exact congrArg some (hall n hn p hp)
        next => rfl
      · rw [Switch.portQueues, Switch.portQueues, hlookup]
        split
        next =>
          cases ctl.dpLookupPort n with
          | none => rfl
          | some p => exact congrArg some p.fillFlags_queueList
        next => rfl
      · exact hkeep _ Switch.flags fun _ _ => (Switch.modifyPort_config ..).1
      · exact hkeep _ Switch.missSendLen fun _ _ => (Switch.modifyPort_config ..).2
      · exact hkeep _ (fun sw => sw.chain) fun _ _ =>
          congrArg Datapath.chain (Switch.modifyPort_rest ..).1
  · -- anything else leaves the switch alone
    have hsw := h.switch_eq hread fun env remote msg heq htype => hfeatures ⟨_, _, _, heq, htype⟩
    refine iff_of_true (.of_eq hsw) ?_
    cases e with
    | message env remote msg => exact fun htype => absurd ⟨_, _, _, rfl, htype⟩ hfeatures
    | dump now err2 remote => trivial
    | packet env portNo bytes => trivial
    | timeouts env => trivial
    | close remote => trivial

/-! ### Port modifications -/

/-- Forwarding keeps the configuration of a port. -/
theorem kept_switch_portConfig (n : BitVec 16) (config : Option (BitVec 32)) :
    Switch.Kept (fun sw => sw.portConfig n = config) fun _ _ => True where
  action _ _ := trivial
  ready _ _ := trivial
  clone _ _ := trivial
  transmit hP _ := hP
  control hP _ hout := by
    unfold Switch.dpOutputControl at hout
    simp only at hout
    split at hout
    next => cases hout
    next => exact Except.ok.inj hout ▸ hP
  used hP _ := hP

/-- So do answers and changes of queues. -/
theorem kept_portConfig (n : BitVec 16) (config : Option (BitVec 32)) :
    Kept fun ctl => ctl.portConfig n = config where
  reply _ _ _ := .modify fun _ h => h
  connections _ _ h := h
  config _ _ h := h
  queues hp hconfig h := (Switch.portConfig_modifyPort fun p' hp' => by
    rw [hp] at hp'
    rw [hconfig, Option.some.inj hp']).trans h

/-- So does what follows a change of the tables. -/
theorem portConfig_performAll {env : Surroundings} {sender : Sender} {oh : Memory}
    {n : BitVec 16} {config : Option (BitVec 32)} (outputs : List DpOutput) :
    Keeps (fun ctl => ctl.portConfig n = config) (performAll env sender oh outputs) := by
  refine keeps_performAll fun output _ => ?_
  cases output with
  | errorMsg error length => exact ((kept_portConfig n config).keptBy _).dpSendErrorMsg _ _ _
  | flowRemoved ofr => exact (keeps_putOpenflowXid _).bind fun _ => .modify fun _ h => h
  | executeActions buffer inPort actions =>
    exact keeps_forward fun ctl sw h hrun =>
      (kept_switch_portConfig n config).executeSaved h (fun _ => trivial) hrun
  | packetIn buffer bufferId => exact .pure _

/-- A modification of another port. -/
theorem portConfig_recvPortMod {oh : Memory} {n : BitVec 16} {config : Option (BitVec 32)}
    (hne : oh.get16 8 ≠ n) :
    Keeps (fun ctl => ctl.portConfig n = config) (recvPortMod oh) := by
  intro ctl h
  simp only [recvPortMod, meets_bind, meets_read16, meets_get, meets_read32, meets_ite, meets_pure]
  refine ⟨trivial, trivial, fun _ => h, fun _ => ?_⟩
  cases ctl.dpLookupPort (oh.get16 8) with
  | none => exact (meets_fail _).2 trivial
  | some p =>
    simp only [meets_bind, meets_read32, meets_modify, meets_pure]
    exact ⟨trivial, (Switch.portConfig_modifyPort_of_ne hne.symm).trans h⟩

/-- Every event that is no modification of a port leaves its configuration alone, when no port
without a network device is down at a request for the features. -/
theorem Step.portConfig_eq {n : BitVec 16} (h : Step ctl e ctl') (hspares : e.SparesPorts ctl)
    (hmod : ¬ e.ModifiesPort n) : ctl'.portConfig n = ctl.portConfig n := by
  by_cases hread : e.IsReadOnly
  · exact ((h.sameConfiguration_iff hread).2 hspares).ports n
  -- the tables and their outputs have nothing to do with ports
  have htables : ∀ {env : Surroundings} {sender : Sender} {oh : Memory} {ctl : Control}
      {config : Option (BitVec 32)} (dp : Datapath) (outputs : List DpOutput),
      ctl.portConfig n = config → Meets (do setDatapath dp; performAll env sender oh outputs) .any
        (fun _ ctl' => ctl'.portConfig n = config) ctl := by
    intro env sender oh ctl config dp outputs hctl
    rw [setDatapath, meets_bind, meets_modify]
    exact portConfig_performAll outputs _ hctl
  refine (meets_any_iff (Q := fun _ s => s.portConfig n = _)).1 ?_ _ _ h.2
  cases e with
  | message env remote msg =>
    refine Keeps.bind (((kept_portConfig n (ctl.portConfig n)).keptBy _).receive (fun htype => ?_)
      (fun htype => portConfig_recvPortMod fun heq => hmod ⟨htype, heq⟩) (fun _ => ?_)
      fun _ _ ctl' h' => htables _ _ h') (fun _ => .pure _) ctl rfl
    · exact absurd ⟨_, htype, by decide⟩ hread
    · exact keeps_recvFlow fun ctl' h' => htables _ _ h'
  | dump now err2 remote => exact absurd trivial hread
  | packet env portNo bytes =>
    refine Keeps.get_bind_all (fun ctl' => ?_) ctl rfl
    cases ctl'.dpLookupPort portNo with
    | none => exact .pure _
    | some p =>
      exact keeps_forward fun ctl'' sw h'' hrun =>
        (kept_switch_portConfig n _).fwdPortInput h'' (fun _ => trivial) hrun
  | timeouts env => exact Keeps.get_bind (fun ctl' h' => htables _ _ h') ctl rfl
  | close remote => exact (meets_modify _).2 rfl

/-- A run without modifications of a port leaves its configuration alone, when no port without a
network device is down at a request for the features. -/
theorem portConfig_of_reachable {n : BitVec 16}
    (h : Transition.ReachableVia Step (fun s e => ControlEvent.SparesPorts s e ∧ ¬ e.ModifiesPort n)
      ctl ctl') : ctl'.portConfig n = ctl.portConfig n :=
  h.invariant (fun s => s.portConfig n = ctl.portConfig n) rfl fun _ _ _ hs hok hstep =>
    (hstep.portConfig_eq hok.1 hok.2).trans hs

/-- A port modification sets the bits of its mask. -/
theorem Step.portMod {env : Surroundings} {remote : Remote} {msg : OfpMessage}
    (h : Step ctl (.message env remote msg) ctl') (htype : msg.type = some .portMod)
    (hlen : 32 ≤ msg.length) (hmask : msg.mem.get32 20 ≠ 0) :
    ∃ config, ctl'.portConfig (msg.mem.get16 8) = some config ∧
      config &&& msg.mem.get32 20 = msg.mem.get32 16 &&& msg.mem.get32 20 := by
  refine (meets_any_iff (Q := fun _ s => ∃ config, s.portConfig (msg.mem.get16 8) = some config ∧
    config &&& msg.mem.get32 20 = msg.mem.get32 16 &&& msg.mem.get32 20)).1 ?_ _ _ h.2
  rw [ControlEvent.run, meets_bind]
  refine meets_receive_of_type (fun _ => trivial) (fun _ => trivial) htype rfl
    (fun hlt => absurd hlen (Nat.not_le.2 hlt)) fun _ => ?_
  simp only [recvPortMod, meets_bind, meets_read16, meets_get, meets_read32, meets_ite, meets_pure]
  refine ⟨trivial, trivial, fun hzero => absurd hzero hmask, fun _ => ?_⟩
  cases hp : ctl.dpLookupPort (msg.mem.get16 8) with
  | none => exact (meets_fail _).2 trivial
  | some p =>
    simp only [meets_bind, meets_read32, meets_modify, meets_pure]
    refine ⟨trivial, p.config &&& ~~~msg.mem.get32 20 ||| msg.mem.get32 16 &&& msg.mem.get32 20,
      ?_, ?_⟩
    · rw [Switch.portConfig, Switch.dpLookupPort_modifyPort, if_pos rfl, hp]
      rfl
    · rw [BitVec.and_or_distrib_right, BitVec.and_assoc, BitVec.and_assoc,
        BitVec.and_comm (~~~msg.mem.get32 20), BitVec.and_not_self, BitVec.and_self]
      have hzero : p.config &&& (0 : BitVec 32) = 0 := BitVec.and_zero
      rw [hzero]
      exact BitVec.zero_or

/-- A request that only reads leaves the configuration of the ports, their queues, the flags and the
flow tables unchanged exactly when it is no request for the features with a port that is down and
has no network device. When that is so all along, the configuration of a port and the bits that a
port modification has set stay as they are until the next modification of the port. -/
theorem readOnly_iff (ctl : Control) :
    (∀ e ctl', Step ctl e ctl' → e.IsReadOnly →
      (SameConfiguration ctl ctl' ↔ e.SparesPorts ctl)) ∧
    (∀ n ctl', Transition.ReachableVia Step
        (fun s e => ControlEvent.SparesPorts s e ∧ ¬ e.ModifiesPort n) ctl ctl' →
      ctl'.portConfig n = ctl.portConfig n) ∧
    ∀ env remote msg ctl₁ ctl₂, Step ctl (.message env remote msg) ctl₁ →
      msg.type = some .portMod → 32 ≤ msg.length → msg.mem.get32 20 ≠ 0 →
      Transition.ReachableVia Step
        (fun s e => ControlEvent.SparesPorts s e ∧ ¬ e.ModifiesPort (msg.mem.get16 8)) ctl₁ ctl₂ →
      ∃ config, ctl₂.portConfig (msg.mem.get16 8) = some config ∧
        config &&& msg.mem.get32 20 = msg.mem.get32 16 &&& msg.mem.get32 20 := by
  refine ⟨fun e ctl' h hread => h.sameConfiguration_iff hread,
    fun n ctl' hrun => portConfig_of_reachable hrun,
    fun env remote msg ctl₁ ctl₂ h htype hlen hmask hrun => ?_⟩
  rw [portConfig_of_reachable hrun]
  exact h.portMod htype hlen hmask

/-- A datapath with a port that has no network device. -/
def oneControl : Control := .start (onePortSwitch (.init .source 0)) 1 []

/-- A barrier request. -/
def barrierMessage : OfpMessage := .ofBytes [1, 18, 0, 8, 0, 0, 0, 0] (by decide)

/-- A barrier request leaves the configuration alone. -/
theorem readOnly_iff_barrier : ∃ ctl, Step oneControl (.message .calm 0 barrierMessage) ctl ∧
    SameConfiguration oneControl ctl := by
  obtain ⟨ctl, hstep⟩ : ∃ ctl, Step oneControl (.message .calm 0 barrierMessage) ctl :=
    ⟨_, ⟨⟨rfl, by decide⟩, rfl⟩⟩
  have hspares : ControlEvent.SparesPorts oneControl (.message .calm 0 barrierMessage) :=
    fun htype => absurd htype (by decide)
  exact ⟨ctl, hstep, ((readOnly_iff oneControl).1 _ _ hstep ⟨_, rfl, by decide⟩).2 hspares⟩

/-- A port modification that takes port 1 down. -/
def downMessage : OfpMessage :=
  .ofBytes ([1, 15, 0, 32, 0, 0, 0, 0, 0, 1] ++ List.replicate 6 0 ++
    [0, 0, 0, 1, 0, 0, 0, 1, 0, 0, 0, 0, 0, 0, 0, 0]) (by decide)

/-- A request for the features. -/
def featuresMessage : OfpMessage := .ofBytes [1, 5, 0, 8, 0, 0, 0, 0] (by decide)

/-- A request for the features is always answered. -/
theorem exists_step_features {ctl : Control} (hcb : ctl.cbDump 0 = none) :
    ∃ ctl', Step ctl (.message .calm 0 featuresMessage) ctl' := by
  have hmeets : Meets (ControlEvent.run (.message .calm 0 featuresMessage))
      ⟨fun _ => True, fun _ => False⟩ (fun _ _ => True) ctl := by
    rw [ControlEvent.run, meets_bind]
    refine (meets_receive_of_handler (t := .featuresRequest) (fun _ _ _ => trivial) rfl rfl rfl
      (by decide)).2 ?_
    simp only [recvFeaturesRequest, meets_bind, meets_putOpenflowXid, meets_get, meets_modify,
      meets_sendOpenflowBuffer, meets_pure]
    exact ⟨fun _ => trivial, fun hsize => absurd (by decide) hsize⟩
  obtain ⟨_, ctl', hok, -⟩ := hmeets.exists_ok
  exact ⟨ctl', ⟨hcb, by decide⟩, hok⟩

/-- A request for the features puts the port up that a port modification has taken down. -/
theorem not_readOnly : ¬ ∀ (sizes : TableSizes) (init ctl ctl' : Control) (e : ControlEvent),
    Initial sizes init → Transition.Reachable Step init ctl → Step ctl e ctl' → e.IsReadOnly →
      SameConfiguration ctl ctl' := by
  intro hall
  obtain ⟨ctl, hdown, hcb, p, hp, hnetdev, hconfig⟩ : ∃ ctl,
      Step oneControl (.message .calm 0 downMessage) ctl ∧ ctl.cbDump 0 = none ∧
        ∃ p ∈ ctl.listedPorts, p.netdev = false ∧ p.config &&& ofppcPortDown ≠ 0 :=
    ⟨_, ⟨⟨rfl, by decide⟩, rfl⟩, rfl, _, List.mem_cons_self, rfl, by decide⟩
  obtain ⟨ctl', hstep⟩ := exists_step_features hcb
  have hsame := hall .source oneControl ctl ctl' _ (.start rfl rfl 1 [])
    (Transition.Reachable.step .refl hdown) hstep ⟨_, rfl, by decide⟩
  exact hconfig ((hstep.sameConfiguration_iff ⟨_, rfl, by decide⟩).1 hsame rfl p hp hnetdev)

end Control

end OfAgent
