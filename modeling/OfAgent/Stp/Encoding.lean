import OfAgent.Packet.Composed
import OfAgent.Stp.Operations

/-!
# Configuration messages as bytes

`stp_transmit_config` writes the parameters of a bridge into a message and
`stp_received_config_bpdu` reads them from it. Numbers are converted to network byte order and back.
So are the flags, although they are in a single byte: on a little-endian host `htons` moves them out
of it.

* `ConfigBpdu.toBytes`: the message as bytes; `ConfigBpdu.ofBytes_toBytes`: they read back.
* `Announcement`: what a message says. `Stp.announced` is what the sender means, `Stp.decoded` what
  a receiver understands.
* `Stp.decoded_eq_announced_iff`: when they are the same.
-/

namespace OfAgent

/-! ### Bytes -/

/-- The eight bytes of a number in network byte order. -/
def bytes64 (v : BitVec 64) : List Byte :=
  Memory.bytes32 (v.extractLsb' 32 32) ++ Memory.bytes32 (v.extractLsb' 0 32)

/-- A number of 64 bits that starts at a position reads back there. -/
theorem be64_of_drop {bs rest : List Byte} {i : ℕ} {v : BitVec 64}
    (h : bs.drop i = bytes64 v ++ rest) : be64 bs i = v := by
  have hhigh : be32 bs i = v.extractLsb' 32 32 :=
    be32_of_drop (h.trans (List.append_assoc _ _ _))
  have hlow : be32 bs (i + 4) = v.extractLsb' 0 32 := by
    apply be32_of_drop
    rw [← List.drop_drop, h]
    rfl
  rw [be64, hhigh, hlow]
  exact (BitVec.extractLsb'_append_extractLsb'_eq_extractLsb' rfl).trans BitVec.extractLsb'_eq_self

/-- The message as `stp_transmit_config` lays it out: the header of `STP_TYPE_CONFIG` and the packed
members of `struct stp_config_bpdu`. -/
def ConfigBpdu.toBytes (config : ConfigBpdu) : List Byte :=
  List.flatten [[0, 0, 0, 0], [config.flags], bytes64 config.rootId,
    Memory.bytes32 config.rootPathCost, bytes64 config.bridgeId, Memory.bytes16 config.portId,
    Memory.bytes16 config.messageAge, Memory.bytes16 config.maxAge,
    Memory.bytes16 config.helloTime, Memory.bytes16 config.forwardDelay]

theorem ConfigBpdu.length_toBytes (config : ConfigBpdu) :
    config.toBytes.length = sizeofStpConfigBpdu := rfl

/-- What has been laid out reads back. -/
theorem ConfigBpdu.ofBytes_toBytes (config : ConfigBpdu) : ofBytes config.toBytes = config := by
  have hrootId : be64 config.toBytes 5 = config.rootId := be64_of_drop rfl
  have hcost : be32 config.toBytes 13 = config.rootPathCost := be32_of_drop rfl
  have hbridgeId : be64 config.toBytes 17 = config.bridgeId := be64_of_drop rfl
  have hportId : be16 config.toBytes 25 = config.portId := be16_of_drop rfl
  have hmessageAge : be16 config.toBytes 27 = config.messageAge := be16_of_drop rfl
  have hmaxAge : be16 config.toBytes 29 = config.maxAge := be16_of_drop rfl
  have hhelloTime : be16 config.toBytes 31 = config.helloTime := be16_of_drop rfl
  have hforwardDelay : be16 config.toBytes 33 = config.forwardDelay := be16_of_drop rfl
  rw [ofBytes, hrootId, hcost, hbridgeId, hportId, hmessageAge, hmaxAge, hhelloTime, hforwardDelay]
  rfl

/-! ### Announcements -/

/-- What a configuration message says. -/
structure Announcement where
  /-- Bridge believed to be root. -/
  rootId : StpIdentifier
  /-- Cost of path to root. -/
  rootPathCost : BitVec 32
  /-- ID of transmitting bridge. -/
  bridgeId : StpIdentifier
  /-- Port transmitting the message. -/
  portId : BitVec 16
  /-- Age of the message at transmission. -/
  messageAge : ℤ
  /-- Timeout for received data. -/
  maxAge : ℤ
  /-- Time between messages. -/
  helloTime : ℤ
  /-- State progression delay. -/
  forwardDelay : ℤ
  /-- The topology changes. -/
  topologyChange : Bool
  /-- A topology change is acknowledged. -/
  topologyChangeAck : Bool
  deriving DecidableEq, Repr

namespace Stp

variable (stp : Stp)

/-- The age that a bridge gives its messages. -/
def messageAge : ℤ :=
  if stp.IsRootBridge then 0
  else match stp.rootPort with
    | some r => (stp.ports r).messageAgeTimer.value + 1
    | none => 0

/-- What a bridge means to say by a message of a port. -/
def announced (i : StpPortNo) : Announcement where
  rootId := stp.designatedRoot
  rootPathCost := stp.rootPathCost
  bridgeId := stp.bridgeId
  portId := (stp.ports i).portId
  messageAge := stp.messageAge
  maxAge := stp.maxAge
  helloTime := stp.helloTime
  forwardDelay := stp.forwardDelay
  topologyChange := stp.topologyChange
  topologyChangeAck := (stp.ports i).topologyChangeAck

/-- What a bridge understands of a message: the numbers as `stp_record_config_information` and
`stp_record_config_timeout_values` convert them and the flags as they are tested. -/
def decoded (bpdu : List Byte) : Announcement :=
  let config := ConfigBpdu.ofBytes bpdu
  { rootId := config.rootId
    rootPathCost := config.rootPathCost
    bridgeId := config.bridgeId
    portId := config.portId
    messageAge := config.messageAge.toNat
    maxAge := config.maxAge.toNat
    helloTime := config.helloTime.toNat
    forwardDelay := config.forwardDelay.toNat
    topologyChange := config.flags &&& stp.htons stpConfigTopologyChange != 0
    topologyChangeAck := config.flags &&& stp.htons stpConfigTopologyChangeAck != 0 }

/-! ### Transmission -/

/-- `stp_transmit_config` sends no other message. -/
theorem sent_transmitConfig (i : StpPortNo) :
    (stp.transmitConfig i).sent = stp.sent ∨
      (stp.transmitConfig i).sent = stp.sent ++ [(i, .config (stp.configMessage i))] := by
  unfold transmitConfig
  extract_lets config
  split_ifs
  · exact .inl rfl
  · exact .inl rfl
  · exact .inr rfl
  · exact .inl rfl

/-- A root bridge with a max age sends one unless its port waits. -/
theorem sent_transmitConfig_of_root (i : StpPortNo) (hroot : stp.IsRootBridge)
    (hhold : (stp.ports i).holdTimer.active = false) (hage : 0 < stp.maxAge) :
    (stp.transmitConfig i).sent = stp.sent ++ [(i, .config (stp.configMessage i))] := by
  have hmessageAge : (stp.configMessage i).messageAge = 0 := if_pos hroot
  unfold transmitConfig
  rw [if_neg (fun h => h.1 hroot), if_neg (by rw [hhold]; decide)]
  dsimp only
  rw [hmessageAge, if_pos (by simpa using hage)]
  rfl

/-- The times of a message fit into 16 bits. -/
structure TimesFit : Prop where
  /-- The age of the message. -/
  messageAge : 0 ≤ stp.messageAge ∧ stp.messageAge < 2 ^ 16
  /-- The max age. -/
  maxAge : 0 ≤ stp.maxAge ∧ stp.maxAge < 2 ^ 16
  /-- The hello time. -/
  helloTime : 0 ≤ stp.helloTime ∧ stp.helloTime < 2 ^ 16
  /-- The forward delay. -/
  forwardDelay : 0 ≤ stp.forwardDelay ∧ stp.forwardDelay < 2 ^ 16

theorem toNat_ofInt_eq_iff (t : ℤ) :
    ((BitVec.ofInt 16 t).toNat : ℤ) = t ↔ 0 ≤ t ∧ t < 2 ^ 16 := by
  rw [BitVec.toNat_ofInt]
  omega

/-- The message of a bridge, by the age that it means. -/
theorem messageAge_configMessage (i : StpPortNo) :
    (stp.configMessage i).messageAge = BitVec.ofInt 16 stp.messageAge := by
  show (if stp.IsRootBridge then 0 else _) = BitVec.ofInt 16 (if stp.IsRootBridge then 0 else _)
  split_ifs
  · rfl
  · cases stp.rootPort <;> rfl

/-- A flag gets through when it is not set, or neither host moves it out of the byte. -/
theorem flags_carried_iff (receiver : Stp) (i : StpPortNo) :
    ((stp.configMessage i).flags &&& receiver.htons stpConfigTopologyChange != 0) =
          stp.topologyChange ∧
        ((stp.configMessage i).flags &&& receiver.htons stpConfigTopologyChangeAck != 0) =
          (stp.ports i).topologyChangeAck ↔
      stp.bigEndian ∧ receiver.bigEndian ∨
        stp.topologyChange = false ∧ (stp.ports i).topologyChangeAck = false := by
  show (((if (stp.ports i).topologyChangeAck then stp.htons stpConfigTopologyChangeAck else 0) |||
        if stp.topologyChange then stp.htons stpConfigTopologyChange else 0) &&& _ != _) = _ ∧
      (((if (stp.ports i).topologyChangeAck then stp.htons stpConfigTopologyChangeAck else 0) |||
        if stp.topologyChange then stp.htons stpConfigTopologyChange else 0) &&& _ != _) = _ ↔ _
  unfold htons
  generalize stp.bigEndian = sender
  generalize receiver.bigEndian = receiving
  generalize stp.topologyChange = change
  generalize (stp.ports i).topologyChangeAck = ack
  revert sender receiving change ack
  decide

/-- **Configuration messages.** A bridge understands the message that another one sends as it is
meant exactly when both hosts are big-endian or neither flag is to be sent, and the times fit into
the fields of the message. -/
theorem decoded_eq_announced_iff (sender receiver : Stp) (i : StpPortNo) {config : ConfigBpdu}
    (hsent : (sender.transmitConfig i).sent = sender.sent ++ [(i, .config config)]) :
    receiver.decoded config.toBytes = sender.announced i ↔
      (sender.bigEndian ∧ receiver.bigEndian ∨
        sender.topologyChange = false ∧ (sender.ports i).topologyChangeAck = false) ∧
        sender.TimesFit := by
  -- there is only one message that the bridge can have sent
  have hconfig : config = sender.configMessage i := by
    rcases sender.sent_transmitConfig i with hnone | hone
    · rw [hnone] at hsent
      exact absurd hsent (by simp)
    · rw [hone] at hsent
      simpa using hsent.symm
  subst hconfig
  rw [← sender.flags_carried_iff receiver i]
  unfold decoded
  rw [ConfigBpdu.ofBytes_toBytes]
  dsimp only
  rw [messageAge_configMessage]
  constructor
  · intro heq
    have hage := (toNat_ofInt_eq_iff _).mp (congrArg Announcement.messageAge heq)
    have hmaxAge := (toNat_ofInt_eq_iff _).mp (congrArg Announcement.maxAge heq)
    have hhelloTime := (toNat_ofInt_eq_iff _).mp (congrArg Announcement.helloTime heq)
    have hforwardDelay := (toNat_ofInt_eq_iff _).mp (congrArg Announcement.forwardDelay heq)
    exact ⟨⟨congrArg Announcement.topologyChange heq, congrArg Announcement.topologyChangeAck heq⟩,
      hage, hmaxAge, hhelloTime, hforwardDelay⟩
  · rintro ⟨⟨hchange, hack⟩, htimes⟩
    have hage := (toNat_ofInt_eq_iff _).mpr htimes.messageAge
    have hmaxAge : ((sender.configMessage i).maxAge.toNat : ℤ) = sender.maxAge :=
      (toNat_ofInt_eq_iff _).mpr htimes.maxAge
    have hhelloTime : ((sender.configMessage i).helloTime.toNat : ℤ) = sender.helloTime :=
      (toNat_ofInt_eq_iff _).mpr htimes.helloTime
    have hforwardDelay : ((sender.configMessage i).forwardDelay.toNat : ℤ) = sender.forwardDelay :=
      (toNat_ofInt_eq_iff _).mpr htimes.forwardDelay
    rw [hage, hmaxAge, hhelloTime, hforwardDelay, hchange, hack]
    rfl

/-- A root bridge that has just learned of a topology change. -/
def changingBridge (bigEndian : Bool) : Stp :=
  { stpCreateBridge bigEndian 5 with
    topologyChangeDetected := true
    topologyChange := true
    topologyChangeTimer := startTimer 0 }

/-- On a big-endian host it announces the change. -/
theorem decoded_eq_announced_bigEndian :
    (changingBridge true).decoded
          ((changingBridge true).configMessage ⟨0, by decide⟩).toBytes =
        (changingBridge true).announced ⟨0, by decide⟩ ↔
      ((changingBridge true).bigEndian ∧ (changingBridge true).bigEndian ∨
        (changingBridge true).topologyChange = false ∧
          ((changingBridge true).ports ⟨0, by decide⟩).topologyChangeAck = false) ∧
        (changingBridge true).TimesFit :=
  decoded_eq_announced_iff (changingBridge true) (changingBridge true) ⟨0, by decide⟩
    (sent_transmitConfig_of_root _ _ (by decide) (by decide) (by decide))

/-- On a little-endian host no receiver hears of it. -/
theorem not_decoded_eq_announced :
    ¬ ∀ (sender receiver : Stp) (i : StpPortNo) (config : ConfigBpdu),
    sender.bigEndian = receiver.bigEndian →
      (sender.transmitConfig i).sent = sender.sent ++ [(i, .config config)] →
        receiver.decoded config.toBytes = sender.announced i := by
  intro h
  have hdecoded := h (changingBridge false) (changingBridge false) ⟨0, by decide⟩
    ((changingBridge false).configMessage ⟨0, by decide⟩) rfl
    (sent_transmitConfig_of_root _ _ (by decide) (by decide) (by decide))
  have hchange := congrArg Announcement.topologyChange hdecoded
  exact absurd hchange (by decide)

end Stp

end OfAgent
