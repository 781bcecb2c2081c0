import OfAgent.Lib.Sweep
import OfAgent.Stp.Operations

/-!
# Selections

What the functions of `stp.c` do to the part of a bridge that the spanning tree is made of.

* `TreeInfo`, `Stp.info`: a bridge and its ports without timers and flags.
* `Stp.info_forEachEnabledPort`: loops over the enabled ports.
* `Stp.info_transmitConfig` and the like: functions that leave the tree alone.
* `Stp.info_configurationUpdate`, `Stp.info_portStateSelection`: the selections.
-/

namespace OfAgent

/-- What the spanning tree of a bridge is made of. -/
@[ext]
structure TreeInfo where
  /-- The bridge. -/
  bridge : BridgeInfo
  /-- Its ports. -/
  port : StpPortNo → PortInfo

namespace TreeInfo

variable (t : TreeInfo)

/-- The port is not disabled. -/
def Enabled (i : StpPortNo) : Prop := (t.port i).state ≠ .disabled

instance (i : StpPortNo) : Decidable (t.Enabled i) := inferInstanceAs (Decidable (_ ≠ _))

/-- The port is designated for its segment. -/
def Designated (i : StpPortNo) : Prop := t.bridge.IsDesignatedPort (t.port i)

instance (i : StpPortNo) : Decidable (t.Designated i) := inferInstanceAs (Decidable (_ ∧ _))

/-- A change of a port. -/
def modifyPort (i : StpPortNo) (f : PortInfo → PortInfo) : TreeInfo :=
  { t with port := Function.update t.port i (f (t.port i)) }

/-- A change of every enabled port. -/
def mapEnabled (f : BridgeInfo → StpPortNo → PortInfo → PortInfo) : TreeInfo :=
  { t with port := fun i => if t.Enabled i then f t.bridge i (t.port i) else t.port i }

theorem modifyPort_of_eq {i : StpPortNo} {f : PortInfo → PortInfo} (h : f (t.port i) = t.port i) :
    t.modifyPort i f = t := by
  simp [modifyPort, h]

@[simp]
theorem mapEnabled_id : t.mapEnabled (fun _ _ p => p) = t := by
  simp [mapEnabled]

/-! ### Selections -/

/-- A port that `stp_root_selection` looks at. -/
def RootCandidate (i : StpPortNo) : Prop :=
  t.Enabled i ∧ ¬ t.Designated i ∧ (t.port i).designatedRoot < t.bridge.bridgeId

instance (i : StpPortNo) : Decidable (t.RootCandidate i) := inferInstanceAs (Decidable (_ ∧ _ ∧ _))

/-- The root port that `stp_root_selection` selects. -/
def selectedRoot : Option StpPortNo :=
  (List.finRange stpMaxPorts).foldl
    (Sweep.keepBetter (fun i => t.RootCandidate i)
      fun i r => (t.port r).SupersedesRoot (t.port i)) none

/-- The bridge with the root port `root`. -/
def bridgeVia (root : Option StpPortNo) : BridgeInfo :=
  match root with
  | none => { t.bridge with
      rootPort := none, designatedRoot := t.bridge.bridgeId, rootPathCost := 0 }
  | some r => { t.bridge with
      rootPort := some r
      designatedRoot := (t.port r).designatedRoot
      rootPathCost := (t.port r).cost }

/-- `stp_root_selection`. -/
def rootSelection : TreeInfo := { t with bridge := t.bridgeVia t.selectedRoot }

end TreeInfo

/-- A port behind `stp_become_designated_port`. -/
def BridgeInfo.designated (b : BridgeInfo) (p : PortInfo) : PortInfo :=
  { p with
    designatedRoot := b.designatedRoot
    designatedCost := b.rootPathCost
    designatedBridge := b.bridgeId
    designatedPort := p.portId }

/-- The state of a port behind `stp_port_state_selection`. -/
def BridgeInfo.selectedState (b : BridgeInfo) (i : StpPortNo) (p : PortInfo) : StpState :=
  if b.rootPort = some i ∨ b.IsDesignatedPort p then
    if p.state = .blocking then .listening else p.state
  else .blocking

namespace TreeInfo

variable (t : TreeInfo)

/-- `stp_designated_port_selection`. -/
def designatedPortSelection : TreeInfo :=
  t.mapEnabled fun b _ p => if b.Designates p then b.designated p else p

/-- `stp_configuration_update`. -/
def configurationUpdate : TreeInfo := t.rootSelection.designatedPortSelection

/-- `stp_port_state_selection`. -/
def portStateSelection : TreeInfo :=
  t.mapEnabled fun b i p => { p with state := b.selectedState i p }

end TreeInfo

namespace Stp

variable (stp : Stp)

/-- The part of a bridge that the spanning tree is made of. -/
def info : TreeInfo := ⟨stp.toBridgeInfo, fun i => (stp.ports i).toPortInfo⟩

@[simp]
theorem info_bridge : stp.info.bridge = stp.toBridgeInfo := rfl

@[simp]
theorem info_port (i : StpPortNo) : stp.info.port i = (stp.ports i).toPortInfo := rfl

@[simp]
theorem info_enabled (i : StpPortNo) : stp.info.Enabled i ↔ stp.Enabled i := Iff.rfl

/-! ### Changes of a port -/

/-- A change of a port changes its part of the tree. -/
theorem info_modifyPort (i : StpPortNo) {f : StpPort → StpPort} {g : PortInfo → PortInfo}
    (h : ∀ p, (f p).toPortInfo = g p.toPortInfo) :
    (stp.modifyPort i f).info = stp.info.modifyPort i g := by
  refine TreeInfo.ext rfl (funext fun j => ?_)
  rcases eq_or_ne j i with rfl | hj
  · simp [modifyPort, TreeInfo.modifyPort, h]
  · simp [modifyPort, TreeInfo.modifyPort, hj]

theorem info_modifyPort_self (i : StpPortNo) {f : StpPort → StpPort}
    (h : ∀ p, (f p).toPortInfo = p.toPortInfo) : (stp.modifyPort i f).info = stp.info :=
  (stp.info_modifyPort i (g := fun p => p) h).trans (stp.info.modifyPort_of_eq rfl)

theorem info_setPortState (i : StpPortNo) (state : StpState) :
    (stp.setPortState i state).info = stp.info.modifyPort i fun p => { p with state } := by
  let changes := state ≠ (stp.ports i).state ∧ (stp.ports i).stateChanged = false
  exact stp.info_modifyPort i (f := fun p => { p with
    state, stateChanged := if changes then true else p.stateChanged }) fun _ => rfl

theorem info_becomeDesignatedPort (i : StpPortNo) :
    (stp.becomeDesignatedPort i).info = stp.info.modifyPort i stp.designated :=
  stp.info_modifyPort i fun _ => rfl

/-! ### Loops -/

/-- A loop over all ports whose body changes the port it is at changes every port. -/
theorem info_foldl {body : Stp → StpPortNo → Stp}
    {f : BridgeInfo → StpPortNo → PortInfo → PortInfo}
    (h : ∀ stp i, (body stp i).info = stp.info.modifyPort i (f stp.toBridgeInfo i)) :
    ((List.finRange stpMaxPorts).foldl body stp).info =
      ⟨stp.toBridgeInfo, fun i => f stp.toBridgeInfo i (stp.ports i).toPortInfo⟩ := by
  have hsweep : Sweep.RewritesEntry (fun stp => stp.info.bridge) (fun stp => stp.info.port)
      body f := by
    constructor
    · intro stp i
      rw [h]
      rfl
    · intro stp i
      have hport := congrFun (congrArg TreeInfo.port (h stp i)) i
      simpa only [TreeInfo.modifyPort, Function.update_self, info_port, info_bridge] using hport
    · intro stp i j hj
      have hport := congrFun (congrArg TreeInfo.port (h stp i)) j
      simpa only [TreeInfo.modifyPort, Function.update_of_ne hj, info_port] using hport
  refine TreeInfo.ext (hsweep.rest_foldl _ stp) (funext fun i => ?_)
  exact hsweep.get_foldl (List.nodup_finRange stpMaxPorts) (List.mem_finRange i) stp

/-- A loop whose body changes the port it is at changes every enabled port. -/
theorem info_forEachEnabledPort {body : Stp → StpPortNo → Stp}
    {f : BridgeInfo → StpPortNo → PortInfo → PortInfo}
    (h : ∀ stp i, stp.Enabled i →
      (body stp i).info = stp.info.modifyPort i (f stp.toBridgeInfo i)) :
    (stp.forEachEnabledPort body).info = stp.info.mapEnabled f := by
  let g : BridgeInfo → StpPortNo → PortInfo → PortInfo := fun b i p =>
    if p.state ≠ .disabled then f b i p else p
  refine stp.info_foldl (f := g) fun stp i => ?_
  by_cases hi : stp.Enabled i
  · have hg : g stp.toBridgeInfo i (stp.info.port i) =
        f stp.toBridgeInfo i (stp.info.port i) := if_pos hi
    rw [if_pos hi, h stp i hi, TreeInfo.modifyPort, TreeInfo.modifyPort, hg]
  · rw [if_neg hi, TreeInfo.modifyPort_of_eq]
    exact if_neg hi

/-- A loop whose body leaves the tree alone does so too. -/
theorem info_forEachEnabledPort_self {body : Stp → StpPortNo → Stp}
    (h : ∀ stp i, (body stp i).info = stp.info) :
    (stp.forEachEnabledPort body).info = stp.info := by
  have hself : ∀ (stp : Stp) i, stp.Enabled i →
      (body stp i).info = stp.info.modifyPort i fun p => p := fun stp i _ =>
    (h stp i).trans (stp.info.modifyPort_of_eq rfl).symm
  rw [stp.info_forEachEnabledPort (f := fun _ _ p => p) hself, TreeInfo.mapEnabled_id]

/-! ### Functions that leave the tree alone -/

@[simp]
theorem info_sendBpdu (i : StpPortNo) (bpdu : Bpdu) : (stp.sendBpdu i bpdu).info = stp.info := rfl

@[simp]
theorem info_transmitConfig (i : StpPortNo) : (stp.transmitConfig i).info = stp.info := by
  unfold transmitConfig
  split_ifs
  · rfl
  · exact stp.info_modifyPort_self i fun _ => rfl
  · dsimp only
    split_ifs
    · refine (info_modifyPort_self _ i ?_).trans ?_
      · exact fun _ => rfl
      · rw [info_sendBpdu]
        exact stp.info_modifyPort_self i fun _ => rfl
    · rfl

@[simp]
theorem info_transmitTcn : stp.transmitTcn.info = stp.info := by
  unfold transmitTcn
  split <;> rfl

@[simp]
theorem info_configBpduGeneration : stp.configBpduGeneration.info = stp.info := by
  refine stp.info_forEachEnabledPort_self fun stp i => ?_
  split_ifs
  · exact stp.info_transmitConfig i
  · rfl

@[simp]
theorem info_topologyChangeDetection : stp.topologyChangeDetection.info = stp.info := by
  unfold topologyChangeDetection
  split_ifs
  · rfl
  · rfl
  · exact stp.info_transmitTcn

@[simp]
theorem info_acknowledgeTopologyChange (i : StpPortNo) :
    (stp.acknowledgeTopologyChange i).info = stp.info :=
  (info_transmitConfig _ i).trans (stp.info_modifyPort_self i fun _ => rfl)

/-- Becoming the root bridge changes times, and sends messages. -/
@[simp]
theorem info_becomeRootBridge : stp.becomeRootBridge.info = stp.info := by
  have hdetection := stp.useBridgeTimes.info_topologyChangeDetection
  unfold becomeRootBridge
  generalize stp.useBridgeTimes.topologyChangeDetection = detected at hdetection ⊢
  have hgeneration := { detected with tcnTimer := detected.tcnTimer.stop }.info_configBpduGeneration
  dsimp only
  generalize { detected with tcnTimer := detected.tcnTimer.stop }.configBpduGeneration = generated
    at hgeneration ⊢
  exact hgeneration.trans hdetection

@[simp]
theorem info_updateBridgeTimers : stp.updateBridgeTimers.info = stp.info := by
  unfold updateBridgeTimers
  extract_lets
  split_ifs <;> rfl

@[simp]
theorem info_getChangedPort : stp.getChangedPort.1.info = stp.info := by
  unfold getChangedPort
  split
  · exact stp.info_modifyPort_self _ (f := fun p => { p with stateChanged := false }) fun _ => rfl
  · rfl

@[simp]
theorem info_portSetChangeDetection (i : StpPortNo) (enabled : Bool) :
    (stp.portSetChangeDetection i enabled).info = stp.info :=
  stp.info_modifyPort_self i fun _ => rfl

@[simp]
theorem info_receivedTcnBpdu (i : StpPortNo) : (stp.receivedTcnBpdu i).info = stp.info := by
  unfold receivedTcnBpdu
  split_ifs
  · rw [info_acknowledgeTopologyChange, info_topologyChangeDetection]
  · rfl
  · rfl

@[simp]
theorem info_holdTimerExpiry (i : StpPortNo) : (stp.holdTimerExpiry i).info = stp.info := by
  unfold holdTimerExpiry
  split_ifs
  · exact stp.info_transmitConfig i
  · rfl

/-- The timers of the bridge send messages. -/
@[simp]
theorem info_tickBridge (elapsed : ℤ) : (stp.tickBridge elapsed).info = stp.info := by
  have hhello : ∀ (timer : StpTimer) (expired : Bool),
      (if expired then { stp with helloTimer := timer }.helloTimerExpiry
        else { stp with helloTimer := timer }).info = stp.info := by
    intro timer expired
    split_ifs
    · have hgeneration := info_configBpduGeneration { stp with helloTimer := timer }
      unfold helloTimerExpiry
      generalize { stp with helloTimer := timer }.configBpduGeneration = generated at hgeneration ⊢
      exact hgeneration
    · rfl
  have htcn : ∀ (stp : Stp) (timer : StpTimer) (expired : Bool),
      (if expired then { stp with tcnTimer := timer }.tcnTimerExpiry
        else { stp with tcnTimer := timer }).info = stp.info := by
    intro stp timer expired
    split_ifs
    · exact info_transmitTcn { stp with tcnTimer := timer }
    · rfl
  -- one timer after the other
  unfold tickBridge
  obtain ⟨timer₁, expired₁⟩ := stp.helloTimer.expired elapsed stp.helloTime
  rw [← hhello timer₁ expired₁]
  dsimp only
  generalize (if expired₁ then { stp with helloTimer := timer₁ }.helloTimerExpiry
    else { stp with helloTimer := timer₁ }) = stp₁
  obtain ⟨timer₂, expired₂⟩ := stp₁.tcnTimer.expired elapsed stp₁.bridgeHelloTime
  rw [← htcn stp₁ timer₂ expired₂]
  dsimp only
  generalize (if expired₂ then { stp₁ with tcnTimer := timer₂ }.tcnTimerExpiry
    else { stp₁ with tcnTimer := timer₂ }) = stp₂
  split_ifs <;> rfl

/-! ### The selections -/

theorem info_makeForwarding (i : StpPortNo) :
    (stp.makeForwarding i).info = stp.info.modifyPort i fun p =>
      { p with state := if p.state = .blocking then .listening else p.state } := by
  unfold makeForwarding
  split_ifs with hstate
  · refine (info_modifyPort_self _ i ?_).trans ?_
    · exact fun _ => rfl
    · rw [info_setPortState]
      simp [TreeInfo.modifyPort, hstate]
  · rw [TreeInfo.modifyPort_of_eq]
    simp [hstate]

/-- A port that is not disabled is blocked. -/
theorem info_makeBlocking {i : StpPortNo} (h : stp.Enabled i) :
    (stp.makeBlocking i).info = stp.info.modifyPort i fun p => { p with state := .blocking } := by
  unfold makeBlocking
  dsimp only
  split_ifs with hstate hdetect
  · refine (info_modifyPort_self _ i ?_).trans ?_
    · exact fun _ => rfl
    · rw [info_setPortState, info_topologyChangeDetection]
  · refine (info_modifyPort_self _ i ?_).trans ?_
    · exact fun _ => rfl
    · rw [info_setPortState]
  · have hblocking : (stp.ports i).state = .blocking := by
      by_contra hne
      exact hstate ⟨h, hne⟩
    rw [TreeInfo.modifyPort_of_eq]
    simp [← hblocking]

/-- The loop of `stp_root_selection` keeps the better one of two candidates. -/
theorem selectRoot_eq_keepBetter : stp.selectRoot =
    Sweep.keepBetter (fun i => decide (stp.info.RootCandidate i))
      fun i r => decide ((stp.info.port r).SupersedesRoot (stp.info.port i)) := by
  funext root i
  have hcandidate : (¬ stp.Enabled i ∨ stp.IsDesignatedPort (stp.ports i).toPortInfo ∨
      stp.bridgeId ≤ (stp.ports i).designatedRoot) ↔ ¬ stp.info.RootCandidate i := by
    unfold TreeInfo.RootCandidate TreeInfo.Designated
    rw [info_enabled, info_bridge, info_port, ← BitVec.not_le]
    tauto
  unfold selectRoot Sweep.keepBetter
  dsimp only
  by_cases hi : stp.info.RootCandidate i
  · rw [if_neg (hcandidate.not.mpr (not_not.mpr hi)), if_pos (decide_eq_true hi)]
    cases root with
    | none => rfl
    | some r =>
      by_cases hr : (stp.info.port r).SupersedesRoot (stp.info.port i)
      · exact (if_pos hr).trans (if_pos (decide_eq_true hr)).symm
      · exact (if_neg hr).trans (if_neg (mt of_decide_eq_true hr)).symm
  · rw [if_pos (hcandidate.mpr hi), if_neg (by simpa using hi)]

theorem info_rootSelection : stp.rootSelection.info = stp.info.rootSelection := by
  have hroot : (List.finRange stpMaxPorts).foldl stp.selectRoot none = stp.info.selectedRoot := by
    rw [selectRoot_eq_keepBetter, TreeInfo.selectedRoot]
  unfold rootSelection TreeInfo.rootSelection
  rw [hroot]
  cases stp.info.selectedRoot <;> rfl

theorem info_designatedPortSelection :
    stp.designatedPortSelection.info = stp.info.designatedPortSelection := by
  refine stp.info_forEachEnabledPort fun stp i _ => ?_
  split_ifs with h
  · rw [info_becomeDesignatedPort]
    simp [TreeInfo.modifyPort, h]
  · rw [TreeInfo.modifyPort_of_eq]
    simp [h]

theorem info_configurationUpdate : stp.configurationUpdate.info = stp.info.configurationUpdate := by
  unfold configurationUpdate TreeInfo.configurationUpdate
  rw [info_designatedPortSelection, info_rootSelection]

theorem info_portStateSelection : stp.portStateSelection.info = stp.info.portStateSelection := by
  refine stp.info_forEachEnabledPort fun stp i hi => ?_
  unfold selectPortState
  split_ifs with hroot hdesignated
  · rw [info_makeForwarding, stp.info_modifyPort_self i (f := fun p => { p with
      configPending := false, topologyChangeAck := false }) fun _ => rfl]
    simp [TreeInfo.modifyPort, BridgeInfo.selectedState, hroot]
  · rw [info_makeForwarding, stp.info_modifyPort_self i (f := fun p => { p with
      messageAgeTimer := p.messageAgeTimer.stop }) fun _ => rfl]
    simp [TreeInfo.modifyPort, BridgeInfo.selectedState, hdesignated]
  · have hself := stp.info_modifyPort_self i (f := fun p => { p with
      configPending := false, topologyChangeAck := false }) fun _ => rfl
    rw [info_makeBlocking, hself]
    · simp [TreeInfo.modifyPort, BridgeInfo.selectedState, hroot, hdesignated]
    · rw [← info_enabled, hself]
      exact hi

/-- What follows a change of the configuration: both selections. -/
theorem info_reconfigure (root : Prop) [Decidable root] :
    (stp.reconfigure root).info = stp.info.configurationUpdate.portStateSelection := by
  unfold reconfigure
  rw [← info_configurationUpdate, ← info_portStateSelection]
  dsimp only
  split_ifs
  · exact info_becomeRootBridge _
  · rfl

end Stp

end OfAgent
