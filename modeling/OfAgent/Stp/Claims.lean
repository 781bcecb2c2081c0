import OfAgent.Stp.Encoding
import OfAgent.Stp.Handlers

/-!
# What bridges claim

What a bridge takes for its root, what its ports know of other roots and what it sends, for any
notion of a claim that may be made.

* `StpClaims`: which roots may be claimed, at what cost, by the bridge and on the segments of its
  ports.
* `Stp.Credible`: the bridge claims nothing else, and has sent what it has sent.
* `Stp.Credible.next`: this stays so, whatever happens, as long as the messages that are received
  make no other claims.
-/

namespace OfAgent

/-- The claims that may be made: a root and the cost of the way to it. -/
structure StpClaims where
  /-- By the bridge. -/
  atBridge : StpIdentifier → BitVec 32 → Prop
  /-- On the segment of a port. -/
  onSegment : StpPortNo → StpIdentifier → BitVec 32 → Prop
  /-- The messages that have been sent. -/
  said : Set (StpPortNo × Bpdu)
  /-- What the bridge may claim, it may claim on the segments of its ports. -/
  announce : ∀ {root cost}, atBridge root cost → ∀ i, onSegment i root cost

namespace Stp

/-- A bridge only makes claims that may be made. -/
structure Credible (claims : StpClaims) (stp : Stp) : Prop where
  /-- Its root may be claimed. -/
  root : claims.atBridge stp.designatedRoot stp.rootPathCost
  /-- It may claim to be the root itself. -/
  own : claims.atBridge stp.bridgeId 0
  /-- What a port knows may be claimed on its segment. -/
  port : ∀ i, claims.onSegment i (stp.ports i).designatedRoot (stp.ports i).designatedCost
  /-- What may be claimed on the segment of a port, the bridge may claim at the cost of the port. -/
  path : ∀ i {root cost}, claims.onSegment i root cost →
    claims.atBridge root (cost + (stp.ports i).pathCost)
  /-- It may make the claims of the messages that it has sent. -/
  sent : ∀ {i config}, (i, Bpdu.config config) ∈ stp.sent →
    claims.atBridge config.rootId config.rootPathCost
  /-- It has sent them. -/
  said : ∀ {m}, m ∈ claims.said → m ∈ stp.sent

namespace Credible

variable {claims : StpClaims} {stp stp' : Stp} (h : stp.Credible claims)

include h

/-! ### Changes of a part -/

/-- Claims are made by the tree and by messages. -/
theorem of_same (hinfo : stp'.info = stp.info) (hsent : stp'.sent = stp.sent) :
    stp'.Credible claims := by
  have hbridge : stp'.toBridgeInfo = stp.toBridgeInfo := congrArg TreeInfo.bridge hinfo
  have hport : ∀ i, (stp'.ports i).toPortInfo = (stp.ports i).toPortInfo := fun i =>
    congrFun (congrArg TreeInfo.port hinfo) i
  constructor
  · rw [hbridge]
    exact h.root
  · rw [hbridge]
    exact h.own
  · intro i
    rw [hport]
    exact h.port i
  · intro i root cost hclaim
    rw [hport]
    exact h.path i hclaim
  · intro i config hmem
    exact h.sent (hsent ▸ hmem)
  · intro m hm
    rw [hsent]
    exact h.said hm

/-- A port that knows of something else. -/
theorem modifyPort (i : StpPortNo) {f : StpPort → StpPort}
    (hport : claims.onSegment i (f (stp.ports i)).designatedRoot (f (stp.ports i)).designatedCost)
    (hcost : ∀ {root cost}, claims.onSegment i root cost →
      claims.atBridge root (cost + (f (stp.ports i)).pathCost)) :
    (stp.modifyPort i f).Credible claims where
  root := h.root
  own := h.own
  port j := by
    rcases eq_or_ne j i with rfl | hj
    · simpa [Stp.modifyPort] using hport
    · simpa [Stp.modifyPort, hj] using h.port j
  path j _ _ hclaim := by
    rcases eq_or_ne j i with rfl | hj
    · simpa [Stp.modifyPort] using hcost hclaim
    · simpa [Stp.modifyPort, hj] using h.path j hclaim
  sent := h.sent
  said := h.said

theorem modifyPort_self (i : StpPortNo) {f : StpPort → StpPort}
    (hf : ∀ p, (f p).toPortInfo = p.toPortInfo) : (stp.modifyPort i f).Credible claims :=
  h.of_same (stp.info_modifyPort_self i hf) rfl

theorem setPortState (i : StpPortNo) (state : StpState) :
    (stp.setPortState i state).Credible claims := by
  unfold Stp.setPortState
  extract_lets changes
  have hport : (stp.modifyPort i fun p =>
      { p with state, stateChanged := if changes then true else p.stateChanged }).Credible claims :=
    h.modifyPort i (h.port i) (h.path i)
  exact hport.of_same rfl rfl

theorem becomeDesignatedPort (i : StpPortNo) : (stp.becomeDesignatedPort i).Credible claims :=
  h.modifyPort i (claims.announce h.root i) (h.path i)

theorem forEachEnabledPort {body : Stp → StpPortNo → Stp}
    (hbody : ∀ stp i, stp.Credible claims → (body stp i).Credible claims) :
    (stp.forEachEnabledPort body).Credible claims :=
  stp.forEachEnabledPort_induct h hbody

/-! ### Messages -/

/-- A message claims what the bridge claims. -/
theorem transmitConfig (i : StpPortNo) : (stp.transmitConfig i).Credible claims := by
  have hsame := stp.info_transmitConfig i
  rcases stp.sent_transmitConfig i with hsent | hsent
  · exact h.of_same hsame hsent
  · -- the tree is the same, and the new message is made from it
    have hsilent : { stp.transmitConfig i with sent := stp.sent }.Credible claims :=
      h.of_same hsame rfl
    refine ⟨hsilent.root, hsilent.own, hsilent.port, hsilent.path, fun {j config} hmem => ?_,
      fun {m} hm => ?_⟩
    · rw [hsent] at hmem
      obtain hmem | hmem := List.mem_append.1 hmem
      · exact h.sent hmem
      · obtain ⟨rfl, hconfig⟩ := Prod.mk.inj (List.mem_singleton.1 hmem)
        rw [Bpdu.config.inj hconfig]
        exact h.root
    · rw [hsent]
      exact List.mem_append_left _ (h.said hm)

/-- A notification of a topology change claims nothing. -/
theorem transmitTcn : stp.transmitTcn.Credible claims := by
  unfold Stp.transmitTcn
  split
  · exact h
  next r _ =>
    refine ⟨h.root, h.own, h.port, h.path, fun {j config} hmem => ?_, fun hm =>
      List.mem_append_left _ (h.said hm)⟩
    obtain hmem | hmem := List.mem_append.1 hmem
    · exact h.sent hmem
    · exact absurd (Prod.mk.inj (List.mem_singleton.1 hmem)).2 Bpdu.noConfusion

theorem configBpduGeneration : stp.configBpduGeneration.Credible claims := by
  refine h.forEachEnabledPort fun stp i h => ?_
  split_ifs
  · exact h.transmitConfig i
  · exact h

theorem topologyChangeDetection : stp.topologyChangeDetection.Credible claims := by
  unfold Stp.topologyChangeDetection
  extract_lets transmitted detected
  have htransmitted : transmitted.Credible claims := h.transmitTcn
  have hdetected : detected.Credible claims := by
    unfold detected
    split_ifs
    · exact h.of_same rfl rfl
    · exact h
    · exact htransmitted.of_same rfl rfl
  exact hdetected.of_same rfl rfl

theorem acknowledgeTopologyChange (i : StpPortNo) :
    (stp.acknowledgeTopologyChange i).Credible claims :=
  (h.modifyPort_self i (f := fun p => { p with topologyChangeAck := true }) fun _ =>
    rfl).transmitConfig i

/-! ### Selections -/

theorem makeForwarding (i : StpPortNo) : (stp.makeForwarding i).Credible claims := by
  unfold Stp.makeForwarding
  split_ifs
  · exact (h.setPortState i .listening).modifyPort_self i fun _ => rfl
  · exact h

theorem makeBlocking (i : StpPortNo) : (stp.makeBlocking i).Credible claims := by
  unfold Stp.makeBlocking
  extract_lets p detected
  have hdetected : detected.Credible claims := by
    unfold detected
    split_ifs
    · exact h.topologyChangeDetection
    · exact h
  split_ifs
  · exact (hdetected.setPortState i .blocking).modifyPort_self i fun _ => rfl
  · exact h

/-- The root is the bridge itself, or one that a port knows of. -/
theorem rootSelection : stp.rootSelection.Credible claims := by
  unfold Stp.rootSelection
  split
  · exact ⟨h.own, h.own, h.port, h.path, h.sent, h.said⟩
  next r _ => exact ⟨h.path r (h.port r), h.own, h.port, h.path, h.sent, h.said⟩

theorem designatedPortSelection : stp.designatedPortSelection.Credible claims := by
  refine h.forEachEnabledPort fun stp i h => ?_
  split_ifs
  · exact h.becomeDesignatedPort i
  · exact h

theorem configurationUpdate : stp.configurationUpdate.Credible claims :=
  h.rootSelection.designatedPortSelection

theorem portStateSelection : stp.portStateSelection.Credible claims := by
  refine h.forEachEnabledPort fun stp i h => ?_
  unfold selectPortState
  split_ifs
  · refine makeForwarding (h.modifyPort_self i ?_) i
    exact fun _ => rfl
  · refine makeForwarding (h.modifyPort_self i ?_) i
    exact fun _ => rfl
  · refine makeBlocking (h.modifyPort_self i ?_) i
    exact fun _ => rfl

/-! ### Root bridges -/

theorem becomeRootBridge : stp.becomeRootBridge.Credible claims := by
  unfold Stp.becomeRootBridge
  extract_lets detected stopped generated
  have huse : stp.useBridgeTimes.Credible claims := h.of_same rfl rfl
  have hdetected : detected.Credible claims := huse.topologyChangeDetection
  clear_value detected
  have hstopped : stopped.Credible claims := hdetected.of_same rfl rfl
  have hgenerated : generated.Credible claims := hstopped.configBpduGeneration
  clear_value generated
  exact hgenerated.of_same rfl rfl

theorem reconfigure (root : Prop) [Decidable root] : (stp.reconfigure root).Credible claims := by
  unfold Stp.reconfigure
  extract_lets selected
  have hselected : selected.Credible claims := h.configurationUpdate.portStateSelection
  split_ifs
  · exact hselected.becomeRootBridge
  · exact hselected

theorem updateBridgeTimers : stp.updateBridgeTimers.Credible claims := by
  unfold Stp.updateBridgeTimers
  dsimp only
  split_ifs
  · exact h.of_same rfl rfl
  · exact h.of_same rfl rfl

/-! ### Received messages -/

theorem resignAsRoot : stp.resignAsRoot.Credible claims := by
  unfold Stp.resignAsRoot
  extract_lets resigned stopped transmitted
  have hresigned : resigned.Credible claims := h.of_same rfl rfl
  have hstopped : stopped.Credible claims := hresigned.of_same rfl rfl
  have htransmitted : transmitted.Credible claims := hstopped.transmitTcn
  split_ifs
  · exact htransmitted.of_same rfl rfl
  · exact hresigned

theorem receivedFromRoot (config : ConfigBpdu) : (stp.receivedFromRoot config).Credible claims := by
  have hrecorded : (stp.recordConfigTimeoutValues config).Credible claims := h.of_same rfl rfl
  have hgenerated := hrecorded.configBpduGeneration
  unfold Stp.receivedFromRoot
  generalize (stp.recordConfigTimeoutValues config).configBpduGeneration = generated
    at hgenerated ⊢
  dsimp only
  split_ifs
  · exact hgenerated.of_same rfl rfl
  · exact hgenerated

theorem receivedNewConfig (root : Prop) [Decidable root] (i : StpPortNo) (config : ConfigBpdu) :
    (stp.receivedNewConfig root i config).Credible claims := by
  unfold Stp.receivedNewConfig
  extract_lets selected resigned
  have hselected : selected.Credible claims := h.configurationUpdate.portStateSelection
  have hresigned : resigned.Credible claims := by
    unfold resigned
    split_ifs
    · exact hselected.resignAsRoot
    · exact hselected
  split_ifs
  · exact hresigned.receivedFromRoot config
  · exact hresigned

/-- A message that makes a claim that may be made. -/
theorem receivedConfigBpdu {i : StpPortNo} {config : ConfigBpdu}
    (hclaim : claims.onSegment i config.rootId config.rootPathCost) :
    (stp.receivedConfigBpdu i config).Credible claims := by
  unfold Stp.receivedConfigBpdu
  split_ifs
  · exact h
  · have hrecorded : (stp.recordConfigInformation i config).Credible claims :=
      h.modifyPort i hclaim (h.path i)
    exact hrecorded.receivedNewConfig _ i config
  · exact h.transmitConfig i
  · exact h
  · exact h

theorem receivedTcnBpdu (i : StpPortNo) : (stp.receivedTcnBpdu i).Credible claims := by
  unfold Stp.receivedTcnBpdu
  split_ifs
  · exact h.topologyChangeDetection.acknowledgeTopologyChange i
  · exact h
  · exact h

/-- A message makes a claim when its type says that it is a configuration message. -/
theorem receivedBpdu {i : StpPortNo} {bpdu : List Byte}
    (hclaim : (bpdu.getD 3 0).toNat = 0 → claims.onSegment i (ConfigBpdu.ofBytes bpdu).rootId
      (ConfigBpdu.ofBytes bpdu).rootPathCost) :
    (stp.receivedBpdu i bpdu).Credible claims := by
  unfold Stp.receivedBpdu
  split
  next => exact h
  split
  next => exact h
  split
  next => exact h
  split
  next htype =>
    split_ifs
    · exact h
    · exact h.receivedConfigBpdu (hclaim htype)
  next =>
    split_ifs
    · exact h
    · exact h.receivedTcnBpdu i
  next => exact h

/-! ### Timers -/

theorem ite {p : Prop} [Decidable p] (h' : p → stp'.Credible claims) :
    (if p then stp' else stp).Credible claims := by
  split_ifs with hp
  · exact h' hp
  · exact h

theorem helloTimerExpiry : stp.helloTimerExpiry.Credible claims := by
  have hgenerated := h.configBpduGeneration
  unfold Stp.helloTimerExpiry
  generalize stp.configBpduGeneration = generated at hgenerated ⊢
  exact hgenerated.of_same rfl rfl

theorem tcnTimerExpiry : stp.tcnTimerExpiry.Credible claims := by
  have htransmitted := h.transmitTcn
  unfold Stp.tcnTimerExpiry
  generalize stp.transmitTcn = transmitted at htransmitted ⊢
  exact htransmitted.of_same rfl rfl

omit h in
/-- The timers of the bridge behind the hello timer. -/
theorem tickBridge_of_hello {elapsed : ℤ} {timer : StpTimer} {expired : Bool}
    (hhello : stp.helloTimer.expired elapsed stp.helloTime = (timer, expired))
    (h₁ : (if expired then { stp with helloTimer := timer }.helloTimerExpiry
      else { stp with helloTimer := timer }).Credible claims) :
    (stp.tickBridge elapsed).Credible claims := by
  unfold Stp.tickBridge
  rw [hhello]
  dsimp only
  generalize (if expired = true then _ else { stp with helloTimer := timer }) = stp₁ at h₁ ⊢
  obtain ⟨timer₂, expired₂⟩ := stp₁.tcnTimer.expired elapsed stp₁.bridgeHelloTime
  dsimp only
  have haged₂ : { stp₁ with tcnTimer := timer₂ }.Credible claims := h₁.of_same rfl rfl
  have h₂ := haged₂.ite (p := expired₂ = true) fun _ => haged₂.tcnTimerExpiry
  generalize (if expired₂ = true then _ else { stp₁ with tcnTimer := timer₂ }) = stp₂ at h₂ ⊢
  obtain ⟨timer₃, expired₃⟩ :=
    stp₂.topologyChangeTimer.expired elapsed (stp₂.maxAge + stp₂.forwardDelay)
  have haged₃ : { stp₂ with topologyChangeTimer := timer₃ }.Credible claims := h₂.of_same rfl rfl
  exact haged₃.ite fun _ => haged₃.of_same rfl rfl

theorem tickBridge (elapsed : ℤ) : (stp.tickBridge elapsed).Credible claims := by
  cases hhello : stp.helloTimer.expired elapsed stp.helloTime with
  | mk timer expired =>
    have haged : { stp with helloTimer := timer }.Credible claims := h.of_same rfl rfl
    exact tickBridge_of_hello hhello (haged.ite fun _ => haged.helloTimerExpiry)

/-- A port whose information is too old claims what the bridge claims. -/
theorem tickMessageAge (elapsed : ℤ) (i : StpPortNo) :
    (stp.tickMessageAge elapsed i).Credible claims := by
  unfold Stp.tickMessageAge
  obtain ⟨timer, expired⟩ := (stp.ports i).messageAgeTimer.expired elapsed stp.maxAge
  dsimp only
  have haged := h.modifyPort_self i (f := fun p => { p with messageAgeTimer := timer }) fun _ => rfl
  generalize (stp.modifyPort i fun p => { p with messageAgeTimer := timer }) = aged at haged ⊢
  exact haged.ite fun _ => (haged.becomeDesignatedPort i).reconfigure _

theorem forwardDelayTimerExpiry (i : StpPortNo) :
    (stp.forwardDelayTimerExpiry i).Credible claims := by
  unfold Stp.forwardDelayTimerExpiry
  split
  next => exact (h.setPortState i .learning).modifyPort_self i fun _ => rfl
  next => exact (h.setPortState i .forwarding).ite fun _ =>
    (h.setPortState i .forwarding).topologyChangeDetection
  next => exact h

theorem tickPort (elapsed : ℤ) (i : StpPortNo) : (stp.tickPort elapsed i).Credible claims := by
  unfold Stp.tickPort
  obtain ⟨timer, expired⟩ := (stp.ports i).forwardDelayTimer.expired elapsed stp.forwardDelay
  dsimp only
  have haged :=
    h.modifyPort_self i (f := fun p => { p with forwardDelayTimer := timer }) fun _ => rfl
  generalize (stp.modifyPort i fun p => { p with forwardDelayTimer := timer }) = aged at haged ⊢
  have hprogressed := haged.ite (p := expired = true) fun _ => haged.forwardDelayTimerExpiry i
  generalize (if expired = true then aged.forwardDelayTimerExpiry i else aged) =
    progressed at hprogressed ⊢
  obtain ⟨timer, expired⟩ := (progressed.ports i).holdTimer.expired elapsed (msToTimer 1000)
  dsimp only
  have hheld :=
    hprogressed.modifyPort_self i (f := fun p => { p with holdTimer := timer }) fun _ => rfl
  generalize (progressed.modifyPort i fun p => { p with holdTimer := timer }) = held at hheld ⊢
  exact hheld.ite fun _ => hheld.ite fun _ => hheld.transmitConfig i

theorem tick (ms : ℤ) : (stp.tick ms).Credible claims := by
  unfold Stp.tick
  extract_lets ms elapsed kept aged
  have hkept : kept.Credible claims := h.of_same rfl rfl
  split_ifs
  · exact hkept
  · have haged : aged.Credible claims :=
      (hkept.tickBridge elapsed).forEachEnabledPort fun _ i h => h.tickMessageAge elapsed i
    exact haged.forEachEnabledPort fun _ i h => h.tickPort elapsed i

/-! ### Parameters -/

/-- Another identifier, under which the bridge may claim to be the root. -/
theorem changeBridgeId {newBridgeId : StpIdentifier} (hnew : claims.atBridge newBridgeId 0) :
    (stp.changeBridgeId newBridgeId).Credible claims := by
  unfold Stp.changeBridgeId
  split_ifs
  · extract_lets renamed
    have hrenamed : renamed.Credible claims := by
      refine h.forEachEnabledPort fun stp i h => h.ite fun _ => ?_
      exact h.modifyPort i (h.port i) (h.path i)
    clear_value renamed
    have hbridge : { renamed with bridgeId := newBridgeId }.Credible claims :=
      ⟨hrenamed.root, hnew, hrenamed.port, hrenamed.path, hrenamed.sent, hrenamed.said⟩
    exact hbridge.reconfigure _
  · exact h

theorem initializePort (i : StpPortNo) (state : StpState) :
    (stp.initializePort i state).Credible claims :=
  ((h.becomeDesignatedPort i).setPortState i state).modifyPort_self i fun _ => rfl

theorem portDisable (i : StpPortNo) : (stp.portDisable i).Credible claims := by
  have hdisabled := (h.becomeDesignatedPort i).setPortState i .disabled
  unfold Stp.portDisable
  generalize (stp.becomeDesignatedPort i).setPortState i .disabled = disabled at hdisabled ⊢
  split_ifs
  · refine reconfigure (hdisabled.modifyPort_self i ?_) _
    exact fun _ => rfl
  · exact h

theorem portEnable (i : StpPortNo) : (stp.portEnable i).Credible claims := by
  unfold Stp.portEnable
  split_ifs
  · exact h
  · exact (h.initializePort i .blocking).portStateSelection

theorem portSetPriority (i : StpPortNo) (newPriority : BitVec 8) :
    (stp.portSetPriority i newPriority).Credible claims := by
  unfold Stp.portSetPriority
  extract_lets newPortId designated renamed
  have hdesignated : designated.Credible claims :=
    h.ite fun _ => h.modifyPort i (h.port i) (h.path i)
  have hrenamed : renamed.Credible claims :=
    hdesignated.modifyPort i (hdesignated.port i) (hdesignated.path i)
  exact h.ite fun _ => hrenamed.ite fun _ => (hrenamed.becomeDesignatedPort i).portStateSelection

/-- Another cost, at which the bridge may claim what is claimed on the segment. -/
theorem portSetPathCost {i : StpPortNo} {pathCost : BitVec 16}
    (hcost : ∀ {root cost}, claims.onSegment i root cost →
      claims.atBridge root (cost + pathCost.setWidth 32)) :
    (stp.portSetPathCost i pathCost).Credible claims := by
  unfold Stp.portSetPathCost
  refine h.ite fun _ => ?_
  exact (h.modifyPort i (f := fun p => { p with pathCost := pathCost.setWidth 32 }) (h.port i)
    hcost).configurationUpdate.portStateSelection

theorem getChangedPort : stp.getChangedPort.1.Credible claims := by
  refine h.of_same stp.info_getChangedPort ?_
  unfold Stp.getChangedPort
  split <;> rfl

end Credible

end Stp

/-! ### Events -/

/-- Whatever an event makes a bridge claim may be claimed: what a message claims, the bridge itself
under a new identifier, and what is claimed on a segment at the new cost of a port. -/
def StpClaims.Admits (claims : StpClaims) (stp : Stp) : StpEvent → Prop
  | .receivedBpdu i bpdu => (bpdu.getD 3 0).toNat = 0 →
      claims.onSegment i (ConfigBpdu.ofBytes bpdu).rootId (ConfigBpdu.ofBytes bpdu).rootPathCost
  | .setBridgeId bridgeId =>
      claims.atBridge (stp.bridgeId &&& ~~~Stp.macBits ||| bridgeId &&& Stp.macBits) 0
  | .setBridgePriority newPriority =>
      claims.atBridge (stp.bridgeId &&& Stp.macBits ||| newPriority.setWidth 64 <<< 48) 0
  | .portSetPathCost i pathCost => ∀ {root cost}, claims.onSegment i root cost →
      claims.atBridge root (cost + pathCost.setWidth 32)
  | .portSetSpeed i speed => ∀ {root cost}, claims.onSegment i root cost →
      claims.atBridge root (cost + (Stp.costOfSpeed speed).setWidth 32)
  | _ => True

/-- A bridge keeps to the claims that may be made, whatever happens. -/
theorem Stp.Credible.next {claims : StpClaims} {stp : Stp} (h : stp.Credible claims) {e : StpEvent}
    (hadmits : claims.Admits stp e) : (stp.next e).Credible claims := by
  have htimers : ∀ stp' : Stp, stp'.info = stp.info → stp'.sent = stp.sent →
      stp'.updateBridgeTimers.Credible claims := fun _ hinfo hsent =>
    (h.of_same hinfo hsent).updateBridgeTimers
  cases e with
  | tick ms => exact h.tick ms
  | receivedBpdu i bpdu => exact h.receivedBpdu hadmits
  | setBridgeId bridgeId => exact h.changeBridgeId hadmits
  | setBridgePriority newPriority => exact h.changeBridgeId hadmits
  | setHelloTime ms => exact htimers { stp with rqHelloTime := ms } rfl rfl
  | setMaxAge ms => exact htimers { stp with rqMaxAge := ms } rfl rfl
  | setForwardDelay ms => exact htimers { stp with rqForwardDelay := ms } rfl rfl
  | getChangedPort => exact h.getChangedPort
  | portDisable i => exact h.portDisable i
  | portEnable i => exact h.portEnable i
  | portSetPriority i newPriority => exact h.portSetPriority i newPriority
  | portSetPathCost i pathCost => exact h.portSetPathCost hadmits
  | portSetSpeed i speed => exact h.portSetPathCost hadmits
  | portSetChangeDetection i enabled =>
    exact h.modifyPort_self i (f := fun p => { p with changeDetectionEnabled := enabled }) fun _ =>
      rfl

/-- Any claim, by a bridge that has sent some messages. -/
def StpClaims.any (said : Set (StpPortNo × Bpdu)) : StpClaims where
  atBridge _ _ := True
  onSegment _ _ _ := True
  said := said
  announce _ _ := trivial

theorem Stp.credible_any {stp : Stp} {said : Set (StpPortNo × Bpdu)}
    (h : ∀ {m}, m ∈ said → m ∈ stp.sent) : stp.Credible (.any said) :=
  ⟨trivial, trivial, fun _ => trivial, fun _ _ _ _ => trivial, fun _ => trivial, h⟩

end OfAgent
