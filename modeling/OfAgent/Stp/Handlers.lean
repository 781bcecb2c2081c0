import OfAgent.Stp.SpanningTree

/-!
# Handlers

What the public functions of `stp.c` do to the spanning tree.

* `TreeInfo.Records`, `TreeInfo.receivedBpdu`, `TreeInfo.changeBridgeId`, `TreeInfo.portEnable` and
  so on: what they do, by the spanning tree alone.
* `Stp.info_receivedBpdu`, `Stp.info_changeBridgeId`, `Stp.info_portEnable` and so on: the functions
  of the source do it.
* `Stp.info_tickMessageAge`, `Stp.info_tickPort`: timers that expire.
-/

namespace OfAgent

/-- A port behind `stp_record_config_information`. -/
def PortInfo.record (p : PortInfo) (config : ConfigBpdu) : PortInfo :=
  { p with
    designatedRoot := config.rootId
    designatedCost := config.rootPathCost
    designatedBridge := config.bridgeId
    designatedPort := config.portId }

/-- The state behind the expiry of the forward delay timer. -/
def StpState.progress : StpState → StpState
  | .listening => .learning
  | .learning => .forwarding
  | state => state

/-- A port with another identifier: a designated port sends its messages under it. -/
def BridgeInfo.renumber (b : BridgeInfo) (newPortId : BitVec 16) (p : PortInfo) : PortInfo :=
  { p with
    portId := newPortId
    designatedPort := if b.IsDesignatedPort p then newPortId else p.designatedPort }

namespace TreeInfo

variable (t : TreeInfo)

/-- Both selections. -/
def reconfigured : TreeInfo := t.configurationUpdate.portStateSelection

/-- The port records what a message says. -/
def Records (i : StpPortNo) (bpdu : List Byte) : Prop :=
  t.Enabled i ∧ be16 bpdu 0 = 0 ∧ (bpdu.getD 3 0).toNat = 0 ∧ sizeofStpConfigBpdu ≤ bpdu.length ∧
    (ConfigBpdu.ofBytes bpdu).messageAge < (ConfigBpdu.ofBytes bpdu).maxAge ∧
    t.bridge.SupersedesPortInfo (t.port i) (.ofBytes bpdu)

instance (i : StpPortNo) (bpdu : List Byte) : Decidable (t.Records i bpdu) :=
  inferInstanceAs (Decidable (_ ∧ _ ∧ _ ∧ _ ∧ _ ∧ _))

/-- `stp_received_bpdu`: a message that a port records leads to both selections. -/
def receivedBpdu (i : StpPortNo) (bpdu : List Byte) : TreeInfo :=
  if t.Records i bpdu then (t.modifyPort i fun p => p.record (.ofBytes bpdu)).reconfigured else t

/-- The tree with another bridge identifier, which the designated ports send their messages
under. -/
def renamed (newBridgeId : StpIdentifier) : TreeInfo where
  bridge := { t.bridge with bridgeId := newBridgeId }
  port i :=
    if t.Enabled i ∧ t.Designated i then { t.port i with designatedBridge := newBridgeId }
    else t.port i

/-- `set_bridge_id`. -/
def changeBridgeId (newBridgeId : StpIdentifier) : TreeInfo :=
  if newBridgeId ≠ t.bridge.bridgeId then (t.renamed newBridgeId).reconfigured else t

/-- A port that becomes designated and gets another state. -/
def becomeDesignated (i : StpPortNo) (state : StpState) : TreeInfo :=
  t.modifyPort i fun p => { t.bridge.designated p with state }

/-- `stp_port_disable`. -/
def portDisable (i : StpPortNo) : TreeInfo :=
  if t.Enabled i then (t.becomeDesignated i .disabled).reconfigured else t

/-- `stp_port_enable`. -/
def portEnable (i : StpPortNo) : TreeInfo :=
  if t.Enabled i then t else (t.becomeDesignated i .blocking).portStateSelection

/-- The part of `stp_port_set_priority` that changes the identifier of the port. The configuration
is not updated. -/
def setPortId (i : StpPortNo) (newPortId : BitVec 16) : TreeInfo :=
  let renumbered := t.modifyPort i (t.bridge.renumber newPortId)
  if (t.port i).portId = newPortId then t
  else if t.bridge.bridgeId = (renumbered.port i).designatedBridge ∧
      newPortId < (renumbered.port i).designatedPort then
    (renumbered.modifyPort i t.bridge.designated).portStateSelection
  else renumbered

/-- `stp_port_set_priority`. -/
def portSetPriority (i : StpPortNo) (newPriority : BitVec 8) : TreeInfo :=
  t.setPortId i ((t.port i).newPortId newPriority)

/-- `stp_port_set_path_cost`. -/
def portSetPathCost (i : StpPortNo) (pathCost : BitVec 16) : TreeInfo :=
  if (t.port i).pathCost ≠ pathCost.setWidth 32 then
    (t.modifyPort i fun p => { p with pathCost := pathCost.setWidth 32 }).reconfigured
  else t

end TreeInfo

namespace Stp

variable (stp : Stp)

/-! ### Messages -/

@[simp]
theorem info_resignAsRoot : stp.resignAsRoot.info = stp.info := by
  unfold resignAsRoot
  extract_lets resigned stopped
  split_ifs
  · exact stopped.info_transmitTcn
  · rfl

@[simp]
theorem info_receivedFromRoot (config : ConfigBpdu) :
    (stp.receivedFromRoot config).info = stp.info := by
  have hgeneration := (stp.recordConfigTimeoutValues config).info_configBpduGeneration
  unfold receivedFromRoot
  generalize (stp.recordConfigTimeoutValues config).configBpduGeneration = generated
    at hgeneration ⊢
  dsimp only
  split_ifs
  · exact hgeneration
  · exact hgeneration

/-- A message that supersedes what the port knows leads to both selections. -/
theorem info_receivedNewConfig (root : Prop) [Decidable root] (i : StpPortNo)
    (config : ConfigBpdu) :
    (stp.receivedNewConfig root i config).info = stp.info.reconfigured := by
  have hselected : stp.configurationUpdate.portStateSelection.info = stp.info.reconfigured := by
    rw [info_portStateSelection, info_configurationUpdate, TreeInfo.reconfigured]
  unfold receivedNewConfig
  generalize stp.configurationUpdate.portStateSelection = selected at hselected ⊢
  rw [← hselected]
  dsimp only
  split_ifs <;> simp

/-- What a bridge records leads to both selections; other messages leave the tree alone. -/
theorem info_receivedBpdu (i : StpPortNo) (bpdu : List Byte) :
    (stp.receivedBpdu i bpdu).info = stp.info.receivedBpdu i bpdu := by
  -- every way through the handler on which nothing is recorded
  have hnot : ¬ stp.info.Records i bpdu → (stp.receivedBpdu i bpdu).info = stp.info := by
    intro hrecords
    unfold receivedBpdu
    split
    · rfl
    split
    · rfl
    split
    · rfl
    next hprotocol =>
    split
    · next htype =>
      split_ifs with hlength
      · rfl
      · unfold receivedConfigBpdu
        split_ifs with hage hi hsupersedes
        · rfl
        · refine absurd ⟨hi, not_not.mp hprotocol, htype, Nat.not_lt.mp hlength, ?_, hsupersedes⟩
            hrecords
          exact BitVec.not_le.mp hage
        · exact stp.info_transmitConfig i
        · rfl
        · rfl
    · split_ifs
      · rfl
      · exact stp.info_receivedTcnBpdu i
    · rfl
  unfold TreeInfo.receivedBpdu
  by_cases hrecords : stp.info.Records i bpdu
  · rw [if_pos hrecords]
    obtain ⟨hi, hprotocol, htype, hlength, hage, hsupersedes⟩ := hrecords
    simp only [info_enabled, info_bridge, info_port] at hi hsupersedes
    have hreceived : stp.receivedBpdu i bpdu = (stp.recordConfigInformation i
        (.ofBytes bpdu)).receivedNewConfig stp.IsRootBridge i (.ofBytes bpdu) := by
      have hheader : ¬ bpdu.length < 4 := by
        unfold sizeofStpConfigBpdu at hlength
        omega
      unfold receivedBpdu
      rw [if_neg (not_not.mpr hi), if_neg hheader, if_neg (not_not.mpr hprotocol)]
      simp only [htype]
      rw [if_neg (Nat.not_lt.mpr hlength), receivedConfigBpdu, if_neg (BitVec.not_le.mpr hage),
        if_pos hi, if_pos hsupersedes]
    have hrecorded : (stp.recordConfigInformation i (.ofBytes bpdu)).info =
        stp.info.modifyPort i fun p => p.record (.ofBytes bpdu) :=
      stp.info_modifyPort i fun _ => rfl
    rw [hreceived, info_receivedNewConfig, hrecorded]
  · rw [if_neg hrecords, hnot hrecords]

/-! ### Parameters of the bridge -/

theorem info_changeBridgeId (newBridgeId : StpIdentifier) :
    (stp.changeBridgeId newBridgeId).info = stp.info.changeBridgeId newBridgeId := by
  unfold changeBridgeId TreeInfo.changeBridgeId
  by_cases hne : newBridgeId ≠ stp.bridgeId
  · rw [if_pos hne, if_pos (show newBridgeId ≠ stp.info.bridge.bridgeId from hne)]
    -- the designated ports get the new identifier, before the bridge does
    let body : Stp → StpPortNo → Stp := fun stp i =>
      if stp.IsDesignatedPort (stp.ports i).toPortInfo then
        stp.modifyPort i fun p => { p with designatedBridge := newBridgeId }
      else stp
    have hloop := @info_forEachEnabledPort stp body (fun b _ p =>
      if b.IsDesignatedPort p then { p with designatedBridge := newBridgeId } else p) ?_
    · generalize stp.forEachEnabledPort _ = renamed at hloop ⊢
      have hrenamed : { renamed with bridgeId := newBridgeId }.info =
        stp.info.renamed newBridgeId := by
        have hbridge : renamed.toBridgeInfo = stp.toBridgeInfo := congrArg TreeInfo.bridge hloop
        refine TreeInfo.ext (by simp [TreeInfo.renamed, hbridge]) (funext fun i => ?_)
        have hport := congrFun (congrArg TreeInfo.port hloop) i
        refine hport.trans ?_
        by_cases hi : stp.info.Enabled i
        · refine (if_pos hi).trans ?_
          simp only [TreeInfo.renamed, hi, true_and]
          rfl
        · refine (if_neg hi).trans ?_
          simp only [TreeInfo.renamed, hi, false_and, if_false]
      rw [info_reconfigure, hrenamed, TreeInfo.reconfigured]
    · intro stp i _
      dsimp only [body]
      split_ifs with h
      · rw [stp.info_modifyPort i (g := fun p => { p with designatedBridge := newBridgeId })
          fun _ => rfl]
        simp [TreeInfo.modifyPort, h]
      · rw [TreeInfo.modifyPort_of_eq]
        simp [h]
  · rw [if_neg hne, if_neg (show ¬ newBridgeId ≠ stp.info.bridge.bridgeId from hne)]

/-! ### Parameters of ports -/

/-- A port that becomes designated and gets another state. -/
theorem info_setPortState_becomeDesignatedPort (i : StpPortNo) (state : StpState) :
    ((stp.becomeDesignatedPort i).setPortState i state).info =
      stp.info.becomeDesignated i state := by
  rw [info_setPortState, info_becomeDesignatedPort]
  simp [TreeInfo.becomeDesignated, TreeInfo.modifyPort]

theorem info_initializePort (i : StpPortNo) (state : StpState) :
    (stp.initializePort i state).info = stp.info.becomeDesignated i state := by
  rw [← info_setPortState_becomeDesignatedPort]
  unfold initializePort
  exact info_modifyPort_self _ i fun _ => rfl

theorem info_portDisable (i : StpPortNo) : (stp.portDisable i).info = stp.info.portDisable i := by
  unfold portDisable TreeInfo.portDisable
  simp only [info_enabled]
  split_ifs
  · rw [info_reconfigure, ← info_setPortState_becomeDesignatedPort, TreeInfo.reconfigured]
    rw [info_modifyPort_self _ i]
    exact fun _ => rfl
  · rfl

theorem info_portEnable (i : StpPortNo) : (stp.portEnable i).info = stp.info.portEnable i := by
  unfold portEnable TreeInfo.portEnable
  simp only [info_enabled]
  split_ifs
  · rfl
  · rw [info_portStateSelection, info_initializePort]

theorem info_portSetPathCost (i : StpPortNo) (pathCost : BitVec 16) :
    (stp.portSetPathCost i pathCost).info = stp.info.portSetPathCost i pathCost := by
  unfold portSetPathCost TreeInfo.portSetPathCost
  rw [info_port]
  split_ifs
  · rw [info_portStateSelection, info_configurationUpdate]
    rw [stp.info_modifyPort i (g := fun p => { p with pathCost := pathCost.setWidth 32 }) fun _ =>
      rfl]
    rfl
  · rfl

theorem info_portSetPriority (i : StpPortNo) (newPriority : BitVec 8) :
    (stp.portSetPriority i newPriority).info = stp.info.portSetPriority i newPriority := by
  unfold portSetPriority TreeInfo.portSetPriority
  rw [info_port]
  generalize (stp.ports i).newPortId newPriority = newPortId
  unfold TreeInfo.setPortId
  dsimp only
  -- the identifier is written to both fields of a designated port
  have hrenumbered : ((if stp.IsDesignatedPort (stp.ports i).toPortInfo then
        stp.modifyPort i fun p => { p with designatedPort := newPortId }
      else stp).modifyPort i fun p => { p with portId := newPortId }).info =
      stp.info.modifyPort i (stp.info.bridge.renumber newPortId) := by
    refine (info_modifyPort _ i (g := fun p => { p with portId := newPortId }) fun _ => rfl).trans
      ?_
    split_ifs with h
    · rw [stp.info_modifyPort i (g := fun p => { p with designatedPort := newPortId }) fun _ => rfl]
      simp [TreeInfo.modifyPort, BridgeInfo.renumber, h]
    · simp [TreeInfo.modifyPort, BridgeInfo.renumber, h]
  by_cases hid : (stp.ports i).portId = newPortId
  · rw [if_neg (not_not.mpr hid), if_pos (show (stp.info.port i).portId = newPortId from hid)]
  · rw [if_pos hid, if_neg (show ¬ (stp.info.port i).portId = newPortId from hid)]
    generalize
      ((if stp.IsDesignatedPort (stp.ports i).toPortInfo then _ else stp : Stp).modifyPort i
      fun p => { p with portId := newPortId }) = renumbered at hrenumbered ⊢
    have hbridge : renumbered.toBridgeInfo = stp.toBridgeInfo :=
      congrArg TreeInfo.bridge hrenumbered
    have hportId : (renumbered.ports i).portId = newPortId := by
      have hport := congrFun (congrArg TreeInfo.port hrenumbered) i
      simp only [TreeInfo.modifyPort, Function.update_self, info_port] at hport
      rw [hport]
      rfl
    rw [← hrenumbered, hbridge, hportId]
    by_cases hless : stp.bridgeId = (renumbered.ports i).designatedBridge ∧
        newPortId < (renumbered.ports i).designatedPort
    · rw [if_pos hless, info_portStateSelection, info_becomeDesignatedPort, hbridge]
      exact (if_pos hless).symm
    · rw [if_neg hless]
      exact (if_neg hless).symm

/-! ### Timers -/

/-- What every round of a loop keeps holds behind the loop. -/
theorem forEachEnabledPort_induct {P : Stp → Prop} {body : Stp → StpPortNo → Stp} (h0 : P stp)
    (hbody : ∀ stp i, P stp → P (body stp i)) : P (stp.forEachEnabledPort body) := by
  unfold forEachEnabledPort
  refine List.foldlRecOn _ _ h0 fun stp h i _ => ?_
  split_ifs
  · exact hbody stp i h
  · exact h

/-- A port whose information is too old becomes designated, which leads to both selections. -/
theorem info_tickMessageAge (elapsed : ℤ) (i : StpPortNo) :
    (stp.tickMessageAge elapsed i).info = stp.info ∨
      (stp.tickMessageAge elapsed i).info =
        (stp.info.modifyPort i stp.designated).reconfigured := by
  unfold tickMessageAge
  obtain ⟨timer, expired⟩ := (stp.ports i).messageAgeTimer.expired elapsed stp.maxAge
  have hself := stp.info_modifyPort_self i (f := fun p => { p with messageAgeTimer := timer })
    fun _ => rfl
  dsimp only
  generalize (stp.modifyPort i fun p => { p with messageAgeTimer := timer }) = aged at hself ⊢
  split_ifs
  · right
    have hbridge : aged.toBridgeInfo = stp.toBridgeInfo := congrArg TreeInfo.bridge hself
    rw [messageAgeTimerExpiry, info_reconfigure, info_becomeDesignatedPort, hself, hbridge,
      TreeInfo.reconfigured]
  · exact Or.inl hself

theorem info_forwardDelayTimerExpiry (i : StpPortNo) :
    (stp.forwardDelayTimerExpiry i).info =
      stp.info.modifyPort i fun p => { p with state := p.state.progress } := by
  unfold forwardDelayTimerExpiry
  split
  · next hstate =>
    refine (info_modifyPort_self _ i ?_).trans ?_
    · exact fun _ => rfl
    · rw [info_setPortState]
      simp [TreeInfo.modifyPort, hstate, StpState.progress]
  · next hstate =>
    have hforwarding : (stp.setPortState i .forwarding).info =
        stp.info.modifyPort i fun p => { p with state := p.state.progress } := by
      rw [info_setPortState]
      simp [TreeInfo.modifyPort, hstate, StpState.progress]
    rw [← hforwarding]
    dsimp only
    split_ifs
    · exact info_topologyChangeDetection _
    · rfl
  · next hlistening hlearning =>
    rw [TreeInfo.modifyPort_of_eq]
    -- in the other states the timer changes nothing, and there is no next state
    have hprogress : (stp.ports i).state.progress = (stp.ports i).state := by
      cases hstate : (stp.ports i).state with
      | listening => exact absurd hstate hlistening
      | learning => exact absurd hstate hlearning
      | disabled => rfl
      | forwarding => rfl
      | blocking => rfl
    simp [hprogress]

/-- The other timers of a port change its state at most. -/
theorem info_tickPort (elapsed : ℤ) (i : StpPortNo) :
    (stp.tickPort elapsed i).info = stp.info ∨
      (stp.tickPort elapsed i).info =
        stp.info.modifyPort i fun p => { p with state := p.state.progress } := by
  unfold tickPort
  obtain ⟨timer, expired⟩ := (stp.ports i).forwardDelayTimer.expired elapsed stp.forwardDelay
  have hself := stp.info_modifyPort_self i (f := fun p => { p with forwardDelayTimer := timer })
    fun _ => rfl
  dsimp only
  generalize (stp.modifyPort i fun p => { p with forwardDelayTimer := timer }) = aged at hself ⊢
  have hprogress : (if expired then aged.forwardDelayTimerExpiry i else aged).info = stp.info ∨
      (if expired then aged.forwardDelayTimerExpiry i else aged).info =
        stp.info.modifyPort i fun p => { p with state := p.state.progress } := by
    split_ifs
    · rw [info_forwardDelayTimerExpiry, hself]
      exact Or.inr rfl
    · exact Or.inl hself
  generalize (if expired then aged.forwardDelayTimerExpiry i else aged) = progressed at hprogress ⊢
  obtain ⟨timer, expired⟩ := (progressed.ports i).holdTimer.expired elapsed (msToTimer 1000)
  have hhold := progressed.info_modifyPort_self i (f := fun p => { p with holdTimer := timer })
    fun _ => rfl
  dsimp only
  rw [← hhold] at hprogress
  split_ifs
  · rw [info_holdTimerExpiry]
    exact hprogress
  · exact hprogress

end Stp

end OfAgent
