import OfAgent.Stp.Bridge

/-!
# Operations on bridges

The public functions of `stp.c`, and those that they call to select the root, the designated ports
and the states of ports.

* `Stp.rootSelection`, `Stp.designatedPortSelection`, `Stp.portStateSelection`: the three
  selections.
* `Stp.receivedBpdu`, `Stp.tick` and the functions that change parameters.
* `StpEvent`, `Stp.next`: what can happen to a bridge; `stpCreate`: how it begins.
-/

namespace OfAgent

/-- The condition of `stp_designated_port_selection`. -/
def BridgeInfo.Designates (b : BridgeInfo) (p : PortInfo) : Prop :=
  b.IsDesignatedPort p ∨ p.designatedRoot ≠ b.designatedRoot ∨ b.rootPathCost < p.designatedCost ∨
    b.rootPathCost = p.designatedCost ∧ (b.bridgeId < p.designatedBridge ∨
      b.bridgeId = p.designatedBridge ∧ p.portId ≤ p.designatedPort)

instance (b : BridgeInfo) (p : PortInfo) : Decidable (b.Designates p) :=
  inferInstanceAs (Decidable (_ ∨ _ ∨ _ ∨ _ ∧ (_ ∨ _ ∧ _)))

/-- The 64-bit number in network byte order at offset `off`. -/
def be64 (bs : List Byte) (off : ℕ) : BitVec 64 := be32 bs off ++ be32 bs (off + 4)

/-- `sizeof(struct stp_config_bpdu)`. -/
def sizeofStpConfigBpdu : ℕ := 35

/-- A configuration message, by its bytes. -/
def ConfigBpdu.ofBytes (bpdu : List Byte) : ConfigBpdu where
  flags := bpdu.getD 4 0
  rootId := be64 bpdu 5
  rootPathCost := be32 bpdu 13
  bridgeId := be64 bpdu 17
  portId := be16 bpdu 25
  messageAge := be16 bpdu 27
  maxAge := be16 bpdu 29
  helloTime := be16 bpdu 31
  forwardDelay := be16 bpdu 33

/-- The identifier of a port with another priority. -/
def PortInfo.newPortId (p : PortInfo) (newPriority : BitVec 8) : BitVec 16 :=
  p.portId &&& 0xff ||| newPriority.setWidth 16 <<< 8

namespace Stp

variable (stp : Stp)

/-! ### Selections -/

/-- The loop of `stp_root_selection`: the root port so far and the next port. -/
def selectRoot (root : Option StpPortNo) (i : StpPortNo) : Option StpPortNo :=
  let p := (stp.ports i).toPortInfo
  if ¬ stp.Enabled i ∨ stp.IsDesignatedPort p ∨ stp.bridgeId ≤ p.designatedRoot then root
  else
    match root with
    | none => some i
    | some r => if (stp.ports r).SupersedesRoot p then some i else some r

/-- `stp_root_selection`. -/
def rootSelection : Stp :=
  match (List.finRange stpMaxPorts).foldl stp.selectRoot none with
  | none => { stp with rootPort := none, designatedRoot := stp.bridgeId, rootPathCost := 0 }
  | some r => { stp with
      rootPort := some r
      designatedRoot := (stp.ports r).designatedRoot
      rootPathCost := (stp.ports r).cost }

/-- `stp_become_designated_port`. -/
def becomeDesignatedPort (i : StpPortNo) : Stp :=
  stp.modifyPort i fun p => { p with
    designatedRoot := stp.designatedRoot
    designatedCost := stp.rootPathCost
    designatedBridge := stp.bridgeId
    designatedPort := p.portId }

/-- `stp_designated_port_selection`. -/
def designatedPortSelection : Stp :=
  stp.forEachEnabledPort fun stp i =>
    if stp.Designates (stp.ports i).toPortInfo then stp.becomeDesignatedPort i else stp

/-- `stp_configuration_update`. -/
def configurationUpdate : Stp := stp.rootSelection.designatedPortSelection

/-- The body of the loop of `stp_port_state_selection`. -/
def selectPortState (i : StpPortNo) : Stp :=
  if stp.rootPort = some i then
    (stp.modifyPort i fun p =>
      { p with configPending := false, topologyChangeAck := false }).makeForwarding i
  else if stp.IsDesignatedPort (stp.ports i).toPortInfo then
    (stp.modifyPort i fun p => { p with messageAgeTimer := p.messageAgeTimer.stop }).makeForwarding
      i
  else
    (stp.modifyPort i fun p =>
      { p with configPending := false, topologyChangeAck := false }).makeBlocking i

/-- `stp_port_state_selection`. -/
def portStateSelection : Stp := stp.forEachEnabledPort selectPortState

/-! ### Root bridges -/

/-- The times of a root bridge. -/
def useBridgeTimes : Stp :=
  { stp with
    maxAge := stp.bridgeMaxAge
    helloTime := stp.bridgeHelloTime
    forwardDelay := stp.bridgeForwardDelay }

/-- `stp_become_root_bridge`. -/
def becomeRootBridge : Stp :=
  let stp := stp.useBridgeTimes.topologyChangeDetection
  let stp := { stp with tcnTimer := stp.tcnTimer.stop }
  { stp.configBpduGeneration with helloTimer := startTimer 0 }

/-- What follows a change of the configuration: the states of the ports, and becoming the root. -/
def reconfigure (root : Prop) [Decidable root] : Stp :=
  let stp := stp.configurationUpdate.portStateSelection
  if stp.IsRootBridge ∧ ¬ root then stp.becomeRootBridge else stp

/-- `stp_update_bridge_timers`. -/
def updateBridgeTimers : Stp :=
  let ht := clamp stp.rqHelloTime 1000 10000
  let ma := clamp stp.rqMaxAge (max (2 * (ht + 1000)) 6000) 40000
  let fd := clamp stp.rqForwardDelay (ma.tdiv 2 + 1000) 30000
  let stp := { stp with
    bridgeHelloTime := msToTimer ht
    bridgeMaxAge := msToTimer ma
    bridgeForwardDelay := msToTimer fd }
  if stp.IsRootBridge then stp.useBridgeTimes else stp

/-! ### Messages -/

/-- `stp_record_config_information`. -/
def recordConfigInformation (i : StpPortNo) (config : ConfigBpdu) : Stp :=
  stp.modifyPort i fun p => { p with
    designatedRoot := config.rootId
    designatedCost := config.rootPathCost
    designatedBridge := config.bridgeId
    designatedPort := config.portId
    messageAgeTimer := startTimer config.messageAge.toNat }

/-- `stp_record_config_timeout_values`. -/
def recordConfigTimeoutValues (config : ConfigBpdu) : Stp :=
  { stp with
    maxAge := config.maxAge.toNat
    helloTime := config.helloTime.toNat
    forwardDelay := config.forwardDelay.toNat
    topologyChange := config.flags &&& stp.htons stpConfigTopologyChange != 0 }

/-- What a bridge does in `stp_received_config_bpdu` when it is no longer the root. -/
def resignAsRoot : Stp :=
  let stp := { stp with helloTimer := stp.helloTimer.stop }
  if stp.topologyChangeDetected then
    let stp := { stp with topologyChangeTimer := stp.topologyChangeTimer.stop }
    { stp.transmitTcn with tcnTimer := startTimer 0 }
  else stp

/-- What a bridge does in `stp_received_config_bpdu` with a message that its root port has
recorded. -/
def receivedFromRoot (config : ConfigBpdu) : Stp :=
  let stp := (stp.recordConfigTimeoutValues config).configBpduGeneration
  if config.flags &&& stp.htons stpConfigTopologyChangeAck ≠ 0 then stp.topologyChangeAcknowledged
  else stp

/-- The part of `stp_received_config_bpdu` behind the record of a message that supersedes the
information of the port. -/
def receivedNewConfig (root : Prop) [Decidable root] (i : StpPortNo) (config : ConfigBpdu) : Stp :=
  let stp := stp.configurationUpdate.portStateSelection
  let stp := if ¬ stp.IsRootBridge ∧ root then stp.resignAsRoot else stp
  if stp.rootPort = some i then stp.receivedFromRoot config else stp

/-- `stp_received_config_bpdu`. -/
def receivedConfigBpdu (i : StpPortNo) (config : ConfigBpdu) : Stp :=
  if config.maxAge ≤ config.messageAge then stp
  else if stp.Enabled i then
    if stp.SupersedesPortInfo (stp.ports i).toPortInfo config then
      (stp.recordConfigInformation i config).receivedNewConfig stp.IsRootBridge i config
    else if stp.IsDesignatedPort (stp.ports i).toPortInfo then stp.transmitConfig i
    else stp
  else stp

/-- `stp_received_tcn_bpdu`. -/
def receivedTcnBpdu (i : StpPortNo) : Stp :=
  if stp.Enabled i then
    if stp.IsDesignatedPort (stp.ports i).toPortInfo then
      stp.topologyChangeDetection.acknowledgeTopologyChange i
    else stp
  else stp

/-- `stp_received_bpdu`. -/
def receivedBpdu (i : StpPortNo) (bpdu : List Byte) : Stp :=
  if ¬ stp.Enabled i then stp
  else if bpdu.length < 4 then stp
  -- `STP_PROTOCOL_ID`; an unexpected version is only logged
  else if be16 bpdu 0 ≠ 0 then stp
  else
    match (bpdu.getD 3 0).toNat with
    | 0x00 =>
        if bpdu.length < sizeofStpConfigBpdu then stp else stp.receivedConfigBpdu i (.ofBytes bpdu)
    | 0x80 => if bpdu.length ≠ 4 then stp else stp.receivedTcnBpdu i
    | _ => stp

/-! ### Timers -/

/-- `stp_hello_timer_expiry`. -/
def helloTimerExpiry : Stp := { stp.configBpduGeneration with helloTimer := startTimer 0 }

/-- `stp_tcn_timer_expiry`. -/
def tcnTimerExpiry : Stp := { stp.transmitTcn with tcnTimer := startTimer 0 }

/-- `stp_topology_change_timer_expiry`. -/
def topologyChangeTimerExpiry : Stp :=
  { stp with topologyChangeDetected := false, topologyChange := false }

/-- `stp_message_age_timer_expiry`. -/
def messageAgeTimerExpiry (i : StpPortNo) : Stp :=
  (stp.becomeDesignatedPort i).reconfigure stp.IsRootBridge

/-- `stp_is_designated_for_some_port`. -/
def IsDesignatedForSomePort : Prop :=
  ∃ i ∈ List.finRange stpMaxPorts, stp.Enabled i ∧ (stp.ports i).designatedBridge = stp.bridgeId

instance : Decidable stp.IsDesignatedForSomePort := inferInstanceAs (Decidable (∃ _ ∈ _, _))

/-- `stp_forward_delay_timer_expiry`. -/
def forwardDelayTimerExpiry (i : StpPortNo) : Stp :=
  match (stp.ports i).state with
  | .listening =>
      (stp.setPortState i .learning).modifyPort i fun p =>
        { p with forwardDelayTimer := startTimer 0 }
  | .learning =>
      let stp := stp.setPortState i .forwarding
      if stp.IsDesignatedForSomePort ∧ (stp.ports i).changeDetectionEnabled = true then
        stp.topologyChangeDetection
      else stp
  | _ => stp

/-- `stp_hold_timer_expiry`. -/
def holdTimerExpiry (i : StpPortNo) : Stp :=
  if (stp.ports i).configPending then stp.transmitConfig i else stp

/-- The timers of the bridge in `stp_tick`. -/
def tickBridge (elapsed : ℤ) : Stp :=
  let (timer, expired) := stp.helloTimer.expired elapsed stp.helloTime
  let stp := { stp with helloTimer := timer }
  let stp := if expired then stp.helloTimerExpiry else stp
  let (timer, expired) := stp.tcnTimer.expired elapsed stp.bridgeHelloTime
  let stp := { stp with tcnTimer := timer }
  let stp := if expired then stp.tcnTimerExpiry else stp
  let (timer, expired) := stp.topologyChangeTimer.expired elapsed (stp.maxAge + stp.forwardDelay)
  let stp := { stp with topologyChangeTimer := timer }
  if expired then stp.topologyChangeTimerExpiry else stp

/-- The body of the first loop of `stp_tick`. -/
def tickMessageAge (elapsed : ℤ) (i : StpPortNo) : Stp :=
  let (timer, expired) := (stp.ports i).messageAgeTimer.expired elapsed stp.maxAge
  let stp := stp.modifyPort i fun p => { p with messageAgeTimer := timer }
  if expired then stp.messageAgeTimerExpiry i else stp

/-- The body of the second loop of `stp_tick`. -/
def tickPort (elapsed : ℤ) (i : StpPortNo) : Stp :=
  let (timer, expired) := (stp.ports i).forwardDelayTimer.expired elapsed stp.forwardDelay
  let stp := stp.modifyPort i fun p => { p with forwardDelayTimer := timer }
  let stp := if expired then stp.forwardDelayTimerExpiry i else stp
  let (timer, expired) := (stp.ports i).holdTimer.expired elapsed (msToTimer 1000)
  let stp := stp.modifyPort i fun p => { p with holdTimer := timer }
  if expired then stp.holdTimerExpiry i else stp

/-- `stp_tick`. -/
def tick (ms : ℤ) : Stp :=
  let ms := clamp ms 0 (2147483647 - 1000) + stp.elapsedRemainder
  let elapsed := msToTimer ms
  let stp := { stp with elapsedRemainder := msToTimerRemainder ms }
  if elapsed = 0 then stp
  else
    let stp := (stp.tickBridge elapsed).forEachEnabledPort fun stp => stp.tickMessageAge elapsed
    stp.forEachEnabledPort fun stp => stp.tickPort elapsed

/-! ### Parameters of the bridge -/

/-- `set_bridge_id`. -/
def changeBridgeId (newBridgeId : StpIdentifier) : Stp :=
  if newBridgeId ≠ stp.bridgeId then
    let renamed := stp.forEachEnabledPort fun stp i =>
      if stp.IsDesignatedPort (stp.ports i).toPortInfo then
        stp.modifyPort i fun p => { p with designatedBridge := newBridgeId }
      else stp
    { renamed with bridgeId := newBridgeId }.reconfigure stp.IsRootBridge
  else stp

/-- The bits of an address in an identifier. -/
def macBits : StpIdentifier := 0x0000ffffffffffff

/-- `stp_set_bridge_id`. -/
def setBridgeId (bridgeId : StpIdentifier) : Stp :=
  stp.changeBridgeId (stp.bridgeId &&& ~~~macBits ||| bridgeId &&& macBits)

/-- `stp_set_bridge_priority`. -/
def setBridgePriority (newPriority : BitVec 16) : Stp :=
  stp.changeBridgeId (stp.bridgeId &&& macBits ||| newPriority.setWidth 64 <<< 48)

/-- `stp_set_hello_time`. -/
def setHelloTime (ms : ℤ) : Stp := { stp with rqHelloTime := ms }.updateBridgeTimers

/-- `stp_set_max_age`. -/
def setMaxAge (ms : ℤ) : Stp := { stp with rqMaxAge := ms }.updateBridgeTimers

/-- `stp_set_forward_delay`. -/
def setForwardDelay (ms : ℤ) : Stp := { stp with rqForwardDelay := ms }.updateBridgeTimers

/-- `stp_get_changed_port`. -/
def getChangedPort : Stp × Option StpPortNo :=
  match (List.finRange stpMaxPorts).find? fun i : StpPortNo =>
      decide (stp.firstChangedPort ≤ i.val) && (stp.ports i).stateChanged with
  | some i => ({ stp.modifyPort i fun p => { p with stateChanged := false } with
      firstChangedPort := i + 1 }, some i)
  | none => ({ stp with firstChangedPort := stpMaxPorts }, none)

/-! ### Parameters of ports -/

/-- `stp_initialize_port`. -/
def initializePort (i : StpPortNo) (state : StpState) : Stp :=
  ((stp.becomeDesignatedPort i).setPortState i state).modifyPort i fun p => { p with
    topologyChangeAck := false
    configPending := false
    changeDetectionEnabled := true
    messageAgeTimer := p.messageAgeTimer.stop
    forwardDelayTimer := p.forwardDelayTimer.stop
    holdTimer := p.holdTimer.stop }

/-- `stp_port_disable`. -/
def portDisable (i : StpPortNo) : Stp :=
  if stp.Enabled i then
    let disabled := ((stp.becomeDesignatedPort i).setPortState i .disabled).modifyPort i fun p =>
      { p with
        topologyChangeAck := false
        configPending := false
        messageAgeTimer := p.messageAgeTimer.stop
        forwardDelayTimer := p.forwardDelayTimer.stop }
    disabled.reconfigure stp.IsRootBridge
  else stp

/-- `stp_port_enable`. -/
def portEnable (i : StpPortNo) : Stp :=
  if stp.Enabled i then stp else (stp.initializePort i .blocking).portStateSelection

/-- `stp_port_set_priority`. -/
def portSetPriority (i : StpPortNo) (newPriority : BitVec 8) : Stp :=
  let newPortId := (stp.ports i).newPortId newPriority
  if (stp.ports i).portId ≠ newPortId then
    let stp :=
      if stp.IsDesignatedPort (stp.ports i).toPortInfo then
        stp.modifyPort i fun p => { p with designatedPort := newPortId }
      else stp
    let stp := stp.modifyPort i fun p => { p with portId := newPortId }
    if stp.bridgeId = (stp.ports i).designatedBridge ∧
        (stp.ports i).portId < (stp.ports i).designatedPort then
      (stp.becomeDesignatedPort i).portStateSelection
    else stp
  else stp

/-- `stp_port_set_path_cost`. -/
def portSetPathCost (i : StpPortNo) (pathCost : BitVec 16) : Stp :=
  if (stp.ports i).pathCost ≠ pathCost.setWidth 32 then
    (stp.modifyPort i fun p =>
      { p with pathCost := pathCost.setWidth 32 }).configurationUpdate.portStateSelection
  else stp

/-- The path cost that `stp_port_set_speed` gives a link of `speed` Mb/s. -/
def costOfSpeed (speed : BitVec 32) : BitVec 16 :=
  if 10000 ≤ speed then 2
  else if 1000 ≤ speed then 4
  else if 100 ≤ speed then 19
  else if 16 ≤ speed then 62
  else if 10 ≤ speed then 100
  else if 4 ≤ speed then 250
  else 19

/-- `stp_port_set_speed`. -/
def portSetSpeed (i : StpPortNo) (speed : BitVec 32) : Stp :=
  stp.portSetPathCost i (costOfSpeed speed)

/-- `stp_port_enable_change_detection` and `stp_port_disable_change_detection`. -/
def portSetChangeDetection (i : StpPortNo) (enabled : Bool) : Stp :=
  stp.modifyPort i fun p => { p with changeDetectionEnabled := enabled }

end Stp

/-! ### Runs -/

/-- A port as `xcalloc` leaves it. -/
def StpPort.zero : StpPort where
  portId := 0
  -- 0 is no state; it is not `STP_DISABLED`, so that the state changes when the port is initialized
  state := .blocking
  pathCost := 0
  designatedRoot := 0
  designatedCost := 0
  designatedBridge := 0
  designatedPort := 0
  topologyChangeAck := false
  configPending := false
  changeDetectionEnabled := false
  messageAgeTimer := ⟨false, 0⟩
  forwardDelayTimer := ⟨false, 0⟩
  holdTimer := ⟨false, 0⟩
  stateChanged := false

/-- The identifier of a new bridge: it has `STP_DEFAULT_BRIDGE_PRIORITY` unless it has a
priority. -/
def withDefaultPriority (bridgeId : StpIdentifier) : StpIdentifier :=
  if bridgeId >>> 48 = 0 then bridgeId ||| 0x8000000000000000 else bridgeId

/-- The bridge of `stp_create` in front of the loop over its ports. -/
def stpCreateBridge (bigEndian : Bool) (bridgeId : StpIdentifier) : Stp :=
  let bridgeId := withDefaultPriority bridgeId
  let stp := Stp.updateBridgeTimers {
    bigEndian, bridgeId
    designatedRoot := 0
    rootPathCost := 0
    rootPort := none
    maxAge := 0
    helloTime := 0
    forwardDelay := 0
    bridgeMaxAge := 0
    bridgeHelloTime := 0
    bridgeForwardDelay := 0
    rqMaxAge := 6000
    rqHelloTime := 2000
    rqForwardDelay := 4000
    elapsedRemainder := 0
    topologyChangeDetected := false
    topologyChange := false
    helloTimer := startTimer 0
    tcnTimer := ⟨false, 0⟩
    topologyChangeTimer := ⟨false, 0⟩
    ports := fun _ => .zero
    firstChangedPort := stpMaxPorts
    sent := [] }
  { stp.useBridgeTimes with designatedRoot := bridgeId }

/-- `stp_create`. -/
def stpCreate (bigEndian : Bool) (bridgeId : StpIdentifier) : Stp :=
  (List.finRange stpMaxPorts).foldl (fun stp i =>
    (stp.modifyPort i fun p => { p with
      portId := BitVec.ofNat 16 (i + 1) ||| 0x8000
      pathCost := 19 }).initializePort i .disabled)
    (stpCreateBridge bigEndian bridgeId)

/-- What can happen to a bridge: the calls of the public functions that may change it. -/
inductive StpEvent
  /-- `stp_tick`. -/
  | tick (ms : ℤ)
  /-- `stp_received_bpdu`. -/
  | receivedBpdu (i : StpPortNo) (bpdu : List Byte)
  /-- `stp_set_bridge_id`. -/
  | setBridgeId (bridgeId : StpIdentifier)
  /-- `stp_set_bridge_priority`. -/
  | setBridgePriority (newPriority : BitVec 16)
  /-- `stp_set_hello_time`. -/
  | setHelloTime (ms : ℤ)
  /-- `stp_set_max_age`. -/
  | setMaxAge (ms : ℤ)
  /-- `stp_set_forward_delay`. -/
  | setForwardDelay (ms : ℤ)
  /-- `stp_get_changed_port`. -/
  | getChangedPort
  /-- `stp_port_disable`. -/
  | portDisable (i : StpPortNo)
  /-- `stp_port_enable`. -/
  | portEnable (i : StpPortNo)
  /-- `stp_port_set_priority`. -/
  | portSetPriority (i : StpPortNo) (newPriority : BitVec 8)
  /-- `stp_port_set_path_cost`. -/
  | portSetPathCost (i : StpPortNo) (pathCost : BitVec 16)
  /-- `stp_port_set_speed`. -/
  | portSetSpeed (i : StpPortNo) (speed : BitVec 32)
  /-- `stp_port_enable_change_detection` and `stp_port_disable_change_detection`. -/
  | portSetChangeDetection (i : StpPortNo) (enabled : Bool)

/-- The bridge behind an event. -/
def Stp.next (stp : Stp) : StpEvent → Stp
  | .tick ms => stp.tick ms
  | .receivedBpdu i bpdu => stp.receivedBpdu i bpdu
  | .setBridgeId bridgeId => stp.setBridgeId bridgeId
  | .setBridgePriority newPriority => stp.setBridgePriority newPriority
  | .setHelloTime ms => stp.setHelloTime ms
  | .setMaxAge ms => stp.setMaxAge ms
  | .setForwardDelay ms => stp.setForwardDelay ms
  | .getChangedPort => stp.getChangedPort.1
  | .portDisable i => stp.portDisable i
  | .portEnable i => stp.portEnable i
  | .portSetPriority i newPriority => stp.portSetPriority i newPriority
  | .portSetPathCost i pathCost => stp.portSetPathCost i pathCost
  | .portSetSpeed i speed => stp.portSetSpeed i speed
  | .portSetChangeDetection i enabled => stp.portSetChangeDetection i enabled

/-- The step relation of a bridge. -/
def Stp.Step (stp : Stp) (e : StpEvent) (stp' : Stp) : Prop := stp' = stp.next e

end OfAgent
