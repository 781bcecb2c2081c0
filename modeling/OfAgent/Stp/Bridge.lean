import Mathlib.Data.Fintype.Basic
import Mathlib.Logic.Function.Basic
import OfAgent.OpenFlow

/-!
# Bridges

The state of the spanning tree entity of `stp.c` with its ports, and the functions that look at it
or change a part of it.

* `BridgeInfo`, `PortInfo`: what the spanning tree is made of; `StpPort`, `Stp`: the structures of
  the source, with the timers and flags.
* `ConfigBpdu`: configuration messages.
* `Stp.transmitConfig`, `Stp.transmitTcn`: what is sent; `Stp.setPortState`: states of ports.
-/

namespace OfAgent

/-! ### Data -/

/-- `STP_MAX_PORTS`. -/
def stpMaxPorts : ℕ := 255

/-- The index of a port. -/
abbrev StpPortNo : Type := Fin stpMaxPorts

/-- `stp_identifier`: a bridge identifier, with a priority in the top 16 bits. -/
abbrev StpIdentifier : Type := BitVec 64

/-- `enum stp_state`. -/
inductive StpState
  /-- Disabled by management. -/
  | disabled
  /-- Not learning or relaying frames. -/
  | listening
  /-- Learning but not relaying frames. -/
  | learning
  /-- Learning and relaying frames. -/
  | forwarding
  /-- Initial boot state. -/
  | blocking
  deriving DecidableEq, Repr

/-- `struct stp_timer`. -/
structure StpTimer where
  /-- Timer in use? -/
  active : Bool
  /-- Current value of timer, counting up. -/
  value : ℤ
  deriving DecidableEq, Repr

/-- The parameters of a port that the spanning tree is made of. -/
structure PortInfo where
  /-- Unique port identifier. -/
  portId : BitVec 16
  /-- Current state. -/
  state : StpState
  /-- Cost of tx/rx on this port. -/
  pathCost : BitVec 32
  /-- The root that the designated port of the segment announces. -/
  designatedRoot : StpIdentifier
  /-- Path cost to root on port. -/
  designatedCost : BitVec 32
  /-- The bridge of the designated port of the segment. -/
  designatedBridge : StpIdentifier
  /-- Port to send config msgs on. -/
  designatedPort : BitVec 16
  deriving DecidableEq, Repr

/-- `struct stp_port`. -/
structure StpPort extends PortInfo where
  /-- Flag for next config BPDU. -/
  topologyChangeAck : Bool
  /-- Send BPDU when hold expires? -/
  configPending : Bool
  /-- Detect topology changes? -/
  changeDetectionEnabled : Bool
  /-- Age of received info. -/
  messageAgeTimer : StpTimer
  /-- State change timer. -/
  forwardDelayTimer : StpTimer
  /-- BPDU rate limit timer. -/
  holdTimer : StpTimer
  /-- `state_changed`. -/
  stateChanged : Bool
  deriving DecidableEq, Repr

/-- `struct stp_config_bpdu`, without the header. -/
structure ConfigBpdu where
  /-- `STP_CONFIG_*` flags. -/
  flags : BitVec 8
  /-- Bridge believed to be root. -/
  rootId : StpIdentifier
  /-- Cost of path to root. -/
  rootPathCost : BitVec 32
  /-- ID of transmitting bridge. -/
  bridgeId : StpIdentifier
  /-- Port transmitting the BPDU. -/
  portId : BitVec 16
  /-- Age of BPDU at tx time. -/
  messageAge : BitVec 16
  /-- Timeout for received data. -/
  maxAge : BitVec 16
  /-- Time between BPDU generation. -/
  helloTime : BitVec 16
  /-- State progression delay. -/
  forwardDelay : BitVec 16
  deriving DecidableEq, Repr

/-- The messages that a bridge sends. -/
inductive Bpdu
  /-- `STP_TYPE_CONFIG`. -/
  | config (bpdu : ConfigBpdu)
  /-- `STP_TYPE_TCN`. -/
  | tcn
  deriving DecidableEq, Repr

/-- The parameters of a bridge that the spanning tree is made of. -/
structure BridgeInfo where
  /-- This bridge. -/
  bridgeId : StpIdentifier
  /-- Bridge believed to be root. -/
  designatedRoot : StpIdentifier
  /-- Cost of path to root. -/
  rootPathCost : BitVec 32
  /-- Lowest cost port to root. -/
  rootPort : Option StpPortNo
  deriving DecidableEq, Repr

/-- `struct stp`. Times are in ticks, unless they are those that the user has requested. -/
structure Stp extends BridgeInfo where
  /-- The byte order of the host, which decides what `htons` does to a flag. -/
  bigEndian : Bool
  /-- Time to drop received data. -/
  maxAge : ℤ
  /-- Time between sending BPDUs. -/
  helloTime : ℤ
  /-- Delay between state changes. -/
  forwardDelay : ℤ
  /-- `max_age` when we're root. -/
  bridgeMaxAge : ℤ
  /-- `hello_time` as root. -/
  bridgeHelloTime : ℤ
  /-- `forward_delay` as root. -/
  bridgeForwardDelay : ℤ
  /-- User-requested max age, in ms. -/
  rqMaxAge : ℤ
  /-- User-requested hello time, in ms. -/
  rqHelloTime : ℤ
  /-- User-requested forward delay, in ms. -/
  rqForwardDelay : ℤ
  /-- Left-over msecs from last `stp_tick()`. -/
  elapsedRemainder : ℤ
  /-- Detected a topology change? -/
  topologyChangeDetected : Bool
  /-- Received topology change? -/
  topologyChange : Bool
  /-- Hello timer. -/
  helloTimer : StpTimer
  /-- Topology change timer. -/
  tcnTimer : StpTimer
  /-- `topology_change_timer`. -/
  topologyChangeTimer : StpTimer
  /-- `ports`. -/
  ports : StpPortNo → StpPort
  /-- `first_changed_port`, by its index. -/
  firstChangedPort : ℕ
  /-- The messages that have been handed to `send_bpdu`: a history that the source does not keep. -/
  sent : List (StpPortNo × Bpdu)

/-! ### Timers -/

/-- `stp_start_timer`. -/
def startTimer (value : ℤ) : StpTimer := ⟨true, value⟩

/-- `stp_stop_timer`. -/
def StpTimer.stop (timer : StpTimer) : StpTimer := { timer with active := false }

/-- `stp_timer_expired`: the timer, and whether it has expired. -/
def StpTimer.expired (timer : StpTimer) (elapsed timeout : ℤ) : StpTimer × Bool :=
  if timer.active then
    if timeout ≤ timer.value + elapsed then (⟨false, timer.value + elapsed⟩, true)
    else ({ timer with value := timer.value + elapsed }, false)
  else (timer, false)

/-- `ms * 0x100` as an `int`, which wraps around. -/
def scaledMs (ms : ℤ) : ℤ := (BitVec.ofInt 32 (ms * 0x100)).toInt

/-- `ms_to_timer`. -/
def msToTimer (ms : ℤ) : ℤ := (scaledMs ms).tdiv 1000

/-- `ms_to_timer_remainder`. -/
def msToTimerRemainder (ms : ℤ) : ℤ := (scaledMs ms).tmod 1000

/-- `clamp`. -/
def clamp (x lo hi : ℤ) : ℤ := if x < lo then lo else if hi < x then hi else x

/-! ### Ports and messages -/

/-- `stp_is_designated_port`. -/
def BridgeInfo.IsDesignatedPort (b : BridgeInfo) (p : PortInfo) : Prop :=
  p.designatedBridge = b.bridgeId ∧ p.designatedPort = p.portId

instance (b : BridgeInfo) (p : PortInfo) : Decidable (b.IsDesignatedPort p) :=
  inferInstanceAs (Decidable (_ ∧ _))

/-- `stp_is_root_bridge`. -/
def BridgeInfo.IsRootBridge (b : BridgeInfo) : Prop := b.bridgeId = b.designatedRoot

instance (b : BridgeInfo) : Decidable b.IsRootBridge := inferInstanceAs (Decidable (_ = _))

/-- `stp_supersedes_port_info`. -/
def BridgeInfo.SupersedesPortInfo (b : BridgeInfo) (p : PortInfo) (config : ConfigBpdu) : Prop :=
  if config.rootId ≠ p.designatedRoot then config.rootId < p.designatedRoot
  else if config.rootPathCost ≠ p.designatedCost then config.rootPathCost < p.designatedCost
  else if config.bridgeId ≠ p.designatedBridge then config.bridgeId < p.designatedBridge
  else config.bridgeId ≠ b.bridgeId ∨ config.portId ≤ p.designatedPort

instance (b : BridgeInfo) (p : PortInfo) (config : ConfigBpdu) :
    Decidable (b.SupersedesPortInfo p config) :=
  inferInstanceAs (Decidable (ite _ _ _))

/-- The cost of the path to the root through a port: the sum of two numbers of type `int`. -/
def PortInfo.cost (p : PortInfo) : BitVec 32 := p.designatedCost + p.pathCost

/-- `stp_supersedes_root`. -/
def PortInfo.SupersedesRoot (root p : PortInfo) : Prop :=
  if p.designatedRoot ≠ root.designatedRoot then p.designatedRoot < root.designatedRoot
  else if p.cost ≠ root.cost then p.cost.toInt < root.cost.toInt
  else if p.designatedBridge ≠ root.designatedBridge then p.designatedBridge < root.designatedBridge
  else if p.designatedPort ≠ root.designatedPort then p.designatedPort < root.designatedPort
  else p.portId < root.portId

instance (root p : PortInfo) : Decidable (root.SupersedesRoot p) :=
  inferInstanceAs (Decidable (ite _ _ _))

/-- `STP_CONFIG_TOPOLOGY_CHANGE_ACK`. -/
def stpConfigTopologyChangeAck : BitVec 8 := 0x80

/-- `STP_CONFIG_TOPOLOGY_CHANGE`. -/
def stpConfigTopologyChange : BitVec 8 := 0x01

namespace Stp

variable (stp : Stp)

/-- What `htons` leaves of a flag in a number of 8 bits. -/
def htons (flag : BitVec 8) : BitVec 8 := if stp.bigEndian then flag else 0

/-- A change of a port. -/
def modifyPort (i : StpPortNo) (f : StpPort → StpPort) : Stp :=
  { stp with ports := Function.update stp.ports i (f (stp.ports i)) }

/-- The port is not disabled. -/
def Enabled (i : StpPortNo) : Prop := (stp.ports i).state ≠ .disabled

instance (i : StpPortNo) : Decidable (stp.Enabled i) := inferInstanceAs (Decidable (_ ≠ _))

/-- `FOR_EACH_ENABLED_PORT`. -/
def forEachEnabledPort (body : Stp → StpPortNo → Stp) : Stp :=
  (List.finRange stpMaxPorts).foldl (fun stp i => if stp.Enabled i then body stp i else stp) stp

/-- `stp_send_bpdu`. -/
def sendBpdu (i : StpPortNo) (bpdu : Bpdu) : Stp := { stp with sent := stp.sent ++ [(i, bpdu)] }

/-- The message that `stp_transmit_config` sends. -/
def configMessage (i : StpPortNo) : ConfigBpdu where
  flags := (if (stp.ports i).topologyChangeAck then stp.htons stpConfigTopologyChangeAck else 0) |||
    (if stp.topologyChange then stp.htons stpConfigTopologyChange else 0)
  rootId := stp.designatedRoot
  rootPathCost := stp.rootPathCost
  bridgeId := stp.bridgeId
  portId := (stp.ports i).portId
  messageAge :=
    if stp.IsRootBridge then 0
    else match stp.rootPort with
      -- `MESSAGE_AGE_INCREMENT`
      | some r => BitVec.ofInt 16 ((stp.ports r).messageAgeTimer.value + 1)
      | none => 0
  maxAge := BitVec.ofInt 16 stp.maxAge
  helloTime := BitVec.ofInt 16 stp.helloTime
  forwardDelay := BitVec.ofInt 16 stp.forwardDelay

/-- `stp_transmit_config`. -/
def transmitConfig (i : StpPortNo) : Stp :=
  if ¬ stp.IsRootBridge ∧ stp.rootPort = none then stp
  else if (stp.ports i).holdTimer.active then stp.modifyPort i fun p =>
    { p with configPending := true }
  else
    let config := stp.configMessage i
    if (config.messageAge.toNat : ℤ) < stp.maxAge then
      ((stp.modifyPort i fun p =>
        { p with topologyChangeAck := false, configPending := false }).sendBpdu
        i (.config config)).modifyPort i fun p => { p with holdTimer := startTimer 0 }
    else stp

/-- `stp_transmit_tcn`. -/
def transmitTcn : Stp :=
  match stp.rootPort with
  | none => stp
  | some r => stp.sendBpdu r .tcn

/-- `stp_config_bpdu_generation`. -/
def configBpduGeneration : Stp :=
  stp.forEachEnabledPort fun stp i =>
    if stp.IsDesignatedPort (stp.ports i).toPortInfo then stp.transmitConfig i else stp

/-- `stp_set_port_state`. -/
def setPortState (i : StpPortNo) (state : StpState) : Stp :=
  let changes := state ≠ (stp.ports i).state ∧ (stp.ports i).stateChanged = false
  { stp.modifyPort i fun p => { p with
      state
      stateChanged := if changes then true else p.stateChanged } with
    firstChangedPort := if changes ∧ i < stp.firstChangedPort then i else stp.firstChangedPort }

/-- `stp_topology_change_detection`. -/
def topologyChangeDetection : Stp :=
  let stp :=
    if stp.IsRootBridge then
      { stp with topologyChange := true, topologyChangeTimer := startTimer 0 }
    else if ¬ stp.topologyChangeDetected then { stp.transmitTcn with tcnTimer := startTimer 0 }
    else stp
  { stp with topologyChangeDetected := true }

/-- `stp_topology_change_acknowledged`. -/
def topologyChangeAcknowledged : Stp :=
  { stp with topologyChangeDetected := false, tcnTimer := stp.tcnTimer.stop }

/-- `stp_acknowledge_topology_change`. -/
def acknowledgeTopologyChange (i : StpPortNo) : Stp :=
  (stp.modifyPort i fun p => { p with topologyChangeAck := true }).transmitConfig i

/-- `stp_make_forwarding`. -/
def makeForwarding (i : StpPortNo) : Stp :=
  if (stp.ports i).state = .blocking then
    (stp.setPortState i .listening).modifyPort i fun p =>
      { p with forwardDelayTimer := startTimer 0 }
  else stp

/-- `stp_make_blocking`. -/
def makeBlocking (i : StpPortNo) : Stp :=
  let p := stp.ports i
  if p.state ≠ .disabled ∧ p.state ≠ .blocking then
    let stp :=
      if (p.state = .forwarding ∨ p.state = .learning) ∧ p.changeDetectionEnabled = true then
        stp.topologyChangeDetection
      else stp
    (stp.setPortState i .blocking).modifyPort i fun p =>
      { p with forwardDelayTimer := p.forwardDelayTimer.stop }
  else stp

end Stp

end OfAgent
