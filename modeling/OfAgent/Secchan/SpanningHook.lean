import OfAgent.Packet.Rewriting
import OfAgent.Secchan.Inspection
import OfAgent.Secchan.PortHistory
import OfAgent.Stp.Marks

/-!
# The hook for spanning trees

`stp-secchan.c` of the secure channel runs the spanning tree entity over the ports that the port
watcher knows: it enables and disables them as their records change, and writes their states into
the records.

* `StpData`: the entity with the port watcher.
* `stpPortChangedCb`: the callback for changes of ports, on a host of either byte order;
  `StpData.setFlags`: `port_watcher_set_flags`, which calls it again.
* `StpData.stpPeriodicCb`: the callback that ticks, with its loop over the ports whose states have
  changed.
* `StpDataEvent`, `StpData.next`: what can happen.
* `updatePhyPort_eq_notify`, `remotePacketCb_eq_notify`: what the port watcher does to a record is
  such a notification.
-/

namespace OfAgent

/-! ### Constants -/

/-- `OFPPF_10MB_HD | OFPPF_10MB_FD`. -/
def ofppf10mb : BitVec 32 := 1 <<< 0 ||| 1 <<< 1

/-- `OFPPF_100MB_HD | OFPPF_100MB_FD`. -/
def ofppf100mb : BitVec 32 := 1 <<< 2 ||| 1 <<< 3

/-- `OFPPF_1GB_HD | OFPPF_1GB_FD`. -/
def ofppf1gb : BitVec 32 := 1 <<< 4 ||| 1 <<< 5

/-- `OFPPF_10GB_FD`. -/
def ofppf10gb : BitVec 32 := 1 <<< 6

/-- `OFPPS_STP_LISTEN`. -/
def ofppsStpListen : BitVec 32 := 0 <<< 8

/-- `OFPPS_STP_LEARN`. -/
def ofppsStpLearn : BitVec 32 := 1 <<< 8

/-- `OFPPS_STP_FORWARD`. -/
def ofppsStpForward : BitVec 32 := 2 <<< 8

/-- `OFPPS_STP_BLOCK`. -/
def ofppsStpBlock : BitVec 32 := 3 <<< 8

/-- `stp_forward_in_state`. -/
def StpState.forwards : StpState → Bool
  | disabled | forwarding => true
  | listening | learning | blocking => false

/-- The bits for a state in the state of a port. -/
def StpState.portBits : StpState → BitVec 32
  | listening => ofppsStpListen
  | learning => ofppsStpLearn
  | disabled | forwarding => ofppsStpForward
  | blocking => ofppsStpBlock

/-- The byte order of the host. -/
def Stp.host (stp : Stp) : HostOrder := if stp.bigEndian then .big else .little

/-- The number of a port of the entity. -/
def portNoOf (i : StpPortNo) : BitVec 16 := BitVec.ofNat 16 i

/-! ### Changes of ports -/

/-- The speed in Mb/s for the features of a port: the lowest one, or 0 if there is none. -/
def speedOf (curr : BitVec 32) : BitVec 32 :=
  if curr &&& ofppf10mb ≠ 0 then 10
  else if curr &&& ofppf100mb ≠ 0 then 100
  else if curr &&& ofppf1gb ≠ 0 then 1000
  else if curr &&& ofppf10gb ≠ 0 then 10000
  else 0

/-- What `stp_port_changed_cb` does about a port that the entity has. -/
def stpPortChanged (i : StpPortNo) (new : Option OfpPhyPortDesc) (stp : Stp) : Stp :=
  match new with
  | none => stp.portDisable i
  | some new =>
    -- the fields are in network byte order, and so are the flags, by htonl
    if stp.host.ofNet32 new.config &&& stp.host.ofNet32 (ofppcNoStp ||| ofppcPortDown) ≠ 0 ∨
        stp.host.ofNet32 new.state &&& stp.host.ofNet32 ofppsLinkDown ≠ 0 then
      stp.portDisable i
    else
      -- but not these flags
      (stp.portEnable i).portSetSpeed i (speedOf (stp.host.ofNet32 new.curr))

/-- `stp_port_changed_cb`. -/
def stpPortChangedCb (portNo : BitVec 16) (new : Option OfpPhyPortDesc) (stp : Stp) : Stp :=
  -- `stp_is_port_supported`
  if h : portNo.toNat < stpMaxPorts then stpPortChanged ⟨portNo.toNat, h⟩ new stp else stp

/-- The messages of `port_watcher_set_flags`. -/
inductive FlagsMessage
  /-- `OFPT_PORT_MOD`, to the datapath. -/
  | portMod (portNo : BitVec 16) (hwAddr : BitVec 48) (config mask advertise : BitVec 32)
  /-- `OFPT_PORT_STATUS`, to the controller. -/
  | portStatus (reason : BitVec 8) (desc : OfpPhyPortDesc)

/-- `struct stp_data`, with the port watcher. -/
structure StpData where
  /-- `stp`. -/
  stp : Stp
  /-- `pw`. -/
  pw : PortWatcher
  /-- `got_feature_reply` of the port watcher. -/
  gotFeatureReply : Bool
  /-- `last_tick`. -/
  lastTick : ℤ
  /-- The messages that have been sent: a history that the source does not keep. -/
  sent : List FlagsMessage

namespace StpData

/-- `stp_start`, with its random address. -/
def start (bigEndian : Bool) (dpid : StpIdentifier) (now : ℤ) : StpData where
  stp := stpCreate bigEndian dpid
  pw := .start
  gotFeatureReply := false
  lastTick := now
  sent := []

variable (d : StpData)

/-- The record of a port changes, and the callbacks are called for this. -/
def notify (portNo : BitVec 16) (new : Option OfpPhyPortDesc)
    (h : ∀ p, new = some p → p.portNo = portNo) : StpData :=
  { d with
    stp := stpPortChangedCb portNo new d.stp
    pw := (d.pw.call (.portChanged portNo (d.pw.ports portNo) new)).setPort portNo new h }

/-- `port_watcher_set_flags`. -/
def setFlags (portNo : BitVec 16) (config cMask state sMask : BitVec 32) : StpData :=
  match hport : d.pw.ports portNo with
  | none => d
  | some p =>
    if (p.state ^^^ state) &&& sMask = 0 ∧ (p.config ^^^ config) &&& cMask = 0 then d
    else
      let new := { p with
        config := PortWatcher.withMasked p.config config cMask
        state := PortWatcher.withMasked p.state state sMask }
      { d.notify portNo (some new) fun q hq => by
          cases hq
          exact d.pw.portNo_eq portNo p hport with
        sent := d.sent ++
          [.portMod new.portNo new.hwAddr new.config cMask 0, .portStatus ofpprModify new] }

/-- The body of the loop of `stp_periodic_cb`. -/
def portStateChanged (i : StpPortNo) (d : StpData) : StpData :=
  let state := (d.stp.ports i).state
  if Inspect.portWatcherGetConfig d.pw (portNoOf i) &&& ofppcNoStp = 0 then
    d.setFlags (portNoOf i) (if state.forwards then 0 else ofppcNoFlood) ofppcNoFlood state.portBits
      ofppsStpMask
  else d

/-- `stp_get_changed_port`. -/
def getChangedPort : StpData × Option StpPortNo :=
  ({ d with stp := d.stp.getChangedPort.1 }, d.stp.getChangedPort.2)

/-- `stp_periodic_cb`. Nothing, when its loop takes at least so many turns. -/
def stpPeriodicCb (fuel : ℕ) (now : ℤ) : Option StpData :=
  let elapsed := now - d.lastTick
  if ¬ d.gotFeatureReply then some d
  else if elapsed ≤ 0 then some d
  else
    -- `INT_MAX`
    Worklist.drain getChangedPort portStateChanged fuel
      { d with stp := d.stp.tick (min 2147483647 elapsed), lastTick := now }

/-- What `stp_local_packet_cb` does with a BPDU from a port. -/
def receivedBpdu (portNo : BitVec 16) (bpdu : List Byte) : StpData :=
  if h : portNo.toNat < stpMaxPorts then
    if Inspect.portWatcherGetConfig d.pw portNo &&& ofppcNoStp = 0 then
      { d with stp := d.stp.receivedBpdu ⟨portNo.toNat, h⟩ bpdu }
    else d
  else d

/-- `stp_local_port_changed_cb`. -/
def stpLocalPortChangedCb (port : Option OfpPhyPortDesc) : StpData :=
  match port with
  | none => d
  | some port => { d with stp := d.stp.setBridgeId (port.hwAddr.setWidth 64) }

end StpData

/-- What can happen to the hook. -/
inductive StpDataEvent
  /-- A port that there is now has this description. -/
  | portDescribed (opp : OfpPhyPortDesc)
  /-- A port is gone. -/
  | portDeleted (portNo : BitVec 16)
  /-- The port watcher has got the features of the datapath. -/
  | gotFeatureReply
  /-- The callbacks for the local port. -/
  | localPortChanged (port : Option OfpPhyPortDesc)
  /-- A BPDU from a port. -/
  | receivedBpdu (portNo : BitVec 16) (bpdu : List Byte)
  /-- The periodic callback. -/
  | periodic (now : ℤ)

namespace StpData

theorem portNo_of_none (portNo : BitVec 16) (p : OfpPhyPortDesc) (h : none = some p) :
    p.portNo = portNo := by
  cases h

/-- The hook behind an event. -/
def next (fuel : ℕ) (d : StpData) : StpDataEvent → Option StpData
  | .portDescribed opp => some (d.notify opp.portNo (some opp) fun _ hp => by cases hp; rfl)
  | .portDeleted portNo => some (d.notify portNo none (portNo_of_none portNo))
  | .gotFeatureReply => some { d with gotFeatureReply := true }
  | .localPortChanged port => some (d.stpLocalPortChangedCb port)
  | .receivedBpdu portNo bpdu => some (d.receivedBpdu portNo bpdu)
  | .periodic now => d.stpPeriodicCb fuel now

/-! ### The port watcher -/

variable (d : StpData)

/-- The port watcher behind a description. -/
theorem pw_portDescribed (fuel : ℕ) {opp : OfpPhyPortDesc} {portNo : BitVec 16}
    (h : opp.portNo = portNo) :
    ∃ d', d.next fuel (.portDescribed opp) = some d' ∧
      d'.pw = (d.pw.call (.portChanged portNo (d.pw.ports portNo) (some opp))).setPort portNo
        (some opp)
        fun _ hp => by cases hp; exact h := by
  subst h
  exact ⟨_, rfl, rfl⟩

/-- What the port watcher does to a record is a notification, if it is anything. -/
theorem updatePhyPort_eq_notify (fuel : ℕ) (opp : OfpPhyPortDesc) (reason : BitVec 8) :
    d.pw.updatePhyPort opp reason = d.pw ∨
      ∃ e d', d.next fuel e = some d' ∧ d'.pw = d.pw.updatePhyPort opp reason := by
  unfold PortWatcher.updatePhyPort
  dsimp only
  split
  next => exact .inr ⟨.portDeleted opp.portNo, _, rfl, rfl⟩
  next =>
    split
    next =>
      split
      next =>
        have hportNo : (sanitizeOpp (PortWatcher.keepStpState (d.pw.ports opp.portNo) opp)).portNo =
            opp.portNo :=
          PortWatcher.portNo_keepStpState _ opp
        exact .inr ⟨_, d.pw_portDescribed fuel hportNo⟩
      next => exact .inl rfl
    next => exact .inl rfl

/-- So is a port modification of the controller. -/
theorem remotePacketCb_eq_notify (fuel : ℕ) {msg : OfpMessage} {pw' : PortWatcher}
    (h : d.pw.remotePacketCb msg = .ok pw') :
    pw'.ports = d.pw.ports ∨ ∃ e d', d.next fuel e = some d' ∧ d'.pw.ports = pw'.ports := by
  cases hport : d.pw.ports msg.portModPortNo with
  | none =>
    unfold PortWatcher.remotePacketCb at h
    split at h
    next =>
      dsimp only at h
      split at h
      next => cases h
      next old hold => exact absurd (hold.symm.trans hport) (Option.some_ne_none old)
    next => cases h; exact .inl rfl
  | some opp =>
    obtain ⟨pw'', config, hok, -, hports⟩ := PortWatcher.ports_remotePacketCb hport
    obtain rfl : pw'' = pw' := Except.ok.inj (hok.symm.trans h)
    obtain ⟨d', hnext, hpw⟩ := d.pw_portDescribed fuel
      (show ({ opp with config := config } : OfpPhyPortDesc).portNo =
        msg.portModPortNo from d.pw.portNo_eq _ opp hport)
    exact .inr ⟨_, d', hnext, by rw [hpw, hports]; rfl⟩

end StpData

/-! ### Byte orders -/

namespace HostOrder

open OnesComplement

theorem ofNet32_and (host : HostOrder) (x y : BitVec 32) :
    host.ofNet32 x &&& host.ofNet32 y = host.ofNet32 (x &&& y) := by
  have hswap : ∀ a b : BitVec 16, swap a &&& swap b = swap (a &&& b) := fun a b => by
    rw [swap, swap, swap, BitVec.and_append, BitVec.extractLsb'_and, BitVec.extractLsb'_and]
  cases host with
  | big => rfl
  | little =>
    rw [ofNet32, ofNet32, ofNet32, BitVec.and_append, hswap, hswap, lowWord, lowWord, lowWord,
      highWord, highWord, highWord, BitVec.setWidth_and, BitVec.ushiftRight_and_distrib,
      BitVec.setWidth_and]

theorem ofNet32_eq_zero_iff (host : HostOrder) (x : BitVec 32) : host.ofNet32 x = 0 ↔ x = 0 := by
  cases host with
  | big => rfl
  | little =>
    refine ⟨fun hzero => ?_, fun hzero => by rw [hzero]; decide⟩
    have hlow : swap (lowWord x) = 0 := by
      rw [← highWord_append (swap (lowWord x)) (swap (highWord x))]
      exact congrArg highWord hzero
    have hhigh : swap (highWord x) = 0 := by
      rw [← lowWord_append (swap (lowWord x)) (swap (highWord x))]
      exact congrArg lowWord hzero
    have hlow : lowWord x = 0 := by rw [← swap_swap (lowWord x), hlow]; decide
    have hhigh : highWord x = 0 := by rw [← swap_swap (highWord x), hhigh]; decide
    apply BitVec.eq_of_toNat_eq
    have hlow := congrArg BitVec.toNat hlow
    have hhigh := congrArg BitVec.toNat hhigh
    rw [lowWord, BitVec.toNat_setWidth] at hlow
    rw [highWord, BitVec.toNat_setWidth, BitVec.toNat_ushiftRight,
      Nat.shiftRight_eq_div_pow] at hhigh
    have hx := x.isLt
    have hzero : (0 : BitVec 32).toNat = 0 := rfl
    have hzero16 : (0 : BitVec 16).toNat = 0 := rfl
    omega

theorem ofNet32_and_ne_zero_iff (host : HostOrder) (x y : BitVec 32) :
    host.ofNet32 x &&& host.ofNet32 y ≠ 0 ↔ x &&& y ≠ 0 := by
  rw [ofNet32_and, ne_eq, ofNet32_eq_zero_iff]

end HostOrder

/-! ### What the callback does -/

/-- The port takes part in the spanning tree: it is there, without `OFPPC_NO_STP`, `OFPPC_PORT_DOWN`
and `OFPPS_LINK_DOWN`. -/
def OfpPhyPortDesc.Up (opp : OfpPhyPortDesc) : Prop :=
  opp.config &&& ofppcNoStp = 0 ∧ opp.config &&& ofppcPortDown = 0 ∧ opp.state &&& ofppsLinkDown = 0

instance (opp : OfpPhyPortDesc) : Decidable opp.Up := inferInstanceAs (Decidable (_ ∧ _ ∧ _))

/-- The cost of the path that the hook gives a port with some features. -/
def costOfCurr (curr : BitVec 32) : BitVec 32 := (Stp.costOfSpeed (speedOf curr)).setWidth 32

theorem or_eq_zero_iff {x y z : BitVec 32} : x &&& (y ||| z) = 0 ↔ x &&& y = 0 ∧ x &&& z = 0 := by
  rw [BitVec.and_or_distrib_left]
  exact BitVec.or_eq_zero_iff

/-- The test of the callback, in either byte order. -/
theorem tested_iff_not_up (host : HostOrder) (opp : OfpPhyPortDesc) :
    (host.ofNet32 opp.config &&& host.ofNet32 (ofppcNoStp ||| ofppcPortDown) ≠ 0 ∨
      host.ofNet32 opp.state &&& host.ofNet32 ofppsLinkDown ≠ 0) ↔ ¬ opp.Up := by
  rw [HostOrder.ofNet32_and_ne_zero_iff, HostOrder.ofNet32_and_ne_zero_iff, OfpPhyPortDesc.Up,
    ne_eq, or_eq_zero_iff]
  tauto

section Changed

variable (i : StpPortNo) (new : Option OfpPhyPortDesc) (stp : Stp)

/-- What the callback does, by what the port is. -/
theorem stpPortChanged_eq :
    stpPortChanged i new stp = match new with
      | none => stp.portDisable i
      | some opp =>
        if opp.Up then (stp.portEnable i).portSetSpeed i (speedOf (stp.host.ofNet32 opp.curr))
        else stp.portDisable i := by
  cases new with
  | none => rfl
  | some opp =>
    unfold stpPortChanged
    dsimp only
    rw [if_congr (tested_iff_not_up stp.host opp) rfl rfl, ite_not]

/-- The entity follows a change of a port: it is enabled exactly if it is up, and then at the cost
for its features as the host reads them. -/
structure FollowsChange (stp' : Stp) : Prop extends stp.Marks stp' where
  /-- The port is enabled exactly if it is up. -/
  enabled_self : stp'.Enabled i ↔ ∃ opp, new = some opp ∧ opp.Up
  /-- Its cost. -/
  pathCost_self : ∀ opp, new = some opp → opp.Up →
    (stp'.ports i).pathCost = costOfCurr (stp.host.ofNet32 opp.curr)
  /-- The same others are enabled. -/
  enabled_other : ∀ j, j ≠ i → (stp'.Enabled j ↔ stp.Enabled j)
  /-- Their costs are the same. -/
  pathCost_other : ∀ j, j ≠ i → (stp'.ports j).pathCost = (stp.ports j).pathCost

theorem followsChange_portDisable {new : Option OfpPhyPortDesc}
    (hnew : ¬ ∃ opp, new = some opp ∧ opp.Up) :
    FollowsChange i new stp (stp.portDisable i) := by
  obtain ⟨hmarks, henabled, hcost⟩ := stp.marks_portDisable i
  refine ⟨hmarks, ?_, fun opp hopp hup => absurd ⟨opp, hopp, hup⟩ hnew, fun j hj => ?_, fun j _ =>
    hcost j⟩
  · rw [henabled]
    exact ⟨fun h => absurd rfl h.1, fun h => absurd h hnew⟩
  · rw [henabled]
    exact ⟨And.right, fun h => ⟨hj, h⟩⟩

theorem followsChange_stpPortChanged : FollowsChange i new stp (stpPortChanged i new stp) := by
  rw [stpPortChanged_eq]
  cases new with
  | none => exact followsChange_portDisable i stp fun ⟨_, h, _⟩ => by cases h
  | some opp =>
    dsimp only
    split
    next hup =>
      obtain ⟨henable, henabled, henabledCost⟩ := stp.marks_portEnable i
      obtain ⟨hset, hsame, hcost⟩ := (stp.portEnable i).marks_portSetPathCost i
        (Stp.costOfSpeed (speedOf (stp.host.ofNet32 opp.curr)))
      refine ⟨henable.trans hset, ?_, fun opp' hopp' _ => ?_, fun j hj => ?_, fun j hj => ?_⟩
      · exact ⟨fun _ => ⟨opp, rfl, hup⟩, fun _ => (hsame i).2 ((henabled i).2 (.inl rfl))⟩
      · obtain rfl := Option.some.inj hopp'
        exact (hcost i).trans (if_pos rfl)
      · exact (hsame j).trans ((henabled j).trans (or_iff_right hj))
      · exact (hcost j).trans ((if_neg hj).trans (henabledCost j))
    next hup =>
      exact followsChange_portDisable i stp fun ⟨_, h, hup'⟩ => hup (Option.some.inj h ▸ hup')

/-- Nothing happens to a port that is as it should be. -/
theorem stpPortChanged_same {opp : OfpPhyPortDesc} (henabled : stp.Enabled i ↔ opp.Up)
    (hcost : opp.Up → (stp.ports i).pathCost = costOfCurr (stp.host.ofNet32 opp.curr)) :
    stpPortChanged i (some opp) stp = stp := by
  rw [stpPortChanged_eq]
  dsimp only
  split
  next hup =>
    rw [Stp.portEnable, if_pos (henabled.2 hup), Stp.portSetSpeed, Stp.portSetPathCost, if_neg]
    rw [not_not]
    exact hcost hup
  next hup => rw [Stp.portDisable, if_neg fun h => hup (henabled.1 h)]

end Changed

end OfAgent
