import OfAgent.Stp.Claims
import OfAgent.Stp.Steady

/-!
# A bridge with one port

A new bridge with a single enabled port takes itself for the root and says so.

* `Stp.forEachEnabledPort_single`: loops over the ports of such a bridge.
* `Stp.sent_tick_of_hello`: what is sent when the hello timer expires.
* `Stp.hello_of_portEnable`: two seconds after its port has been enabled, the bridge has sent a
  message, and at most the state of the port has changed.
-/

namespace OfAgent

namespace Stp

/-- A loop over the ports of a bridge with a single enabled port. -/
theorem forEachEnabledPort_single {stp : Stp} {body : Stp → StpPortNo → Stp} {i : StpPortNo}
    (hi : stp.Enabled i) (hother : ∀ j, j ≠ i → ¬ stp.Enabled j)
    (hbody : ∀ j, j ≠ i → ¬ (body stp i).Enabled j) : stp.forEachEnabledPort body = body stp i := by
  have hskip : ∀ (l : List StpPortNo) (stp : Stp), (∀ j ∈ l, ¬ stp.Enabled j) →
      l.foldl (fun stp j => if stp.Enabled j then body stp j else stp) stp = stp := by
    intro l stp h
    induction l with
    | nil => rfl
    | cons j l ih =>
      rw [List.foldl_cons, if_neg (h j List.mem_cons_self)]
      exact ih fun k hk => h k (List.mem_cons_of_mem j hk)
  obtain ⟨before, after, hsplit⟩ := List.append_of_mem (List.mem_finRange i)
  have hnodup := List.nodup_finRange stpMaxPorts
  rw [hsplit, List.nodup_append, List.nodup_cons] at hnodup
  unfold forEachEnabledPort
  rw [hsplit, List.foldl_append, hskip before, List.foldl_cons, if_pos hi, hskip after]
  · exact fun j hj => hbody j fun heq => hnodup.2.1.1 (heq ▸ hj)
  · exact fun j hj => hother j fun heq => hnodup.2.2 j hj i List.mem_cons_self heq

/-- The timers of a bridge and what its messages say of them. -/
def clock (stp : Stp) : List StpTimer × List ℤ × Bool :=
  ([stp.helloTimer, stp.tcnTimer, stp.topologyChangeTimer],
    [stp.helloTime, stp.maxAge, stp.forwardDelay, stp.elapsedRemainder], stp.topologyChange)

/-- The clock of a new bridge, which has sent nothing. -/
theorem clock_stpCreate (bigEndian : Bool) (bridgeId : StpIdentifier) :
    (stpCreate bigEndian bridgeId).clock =
        ([⟨true, 0⟩, ⟨false, 0⟩, ⟨false, 0⟩], [512, 1536, 1024, 0], false) ∧
      (stpCreate bigEndian bridgeId).sent = [] := by
  have hround : ∀ (stp : Stp) (i : StpPortNo) (f : StpPort → StpPort),
      ((stp.modifyPort i f).initializePort i .disabled).clock = stp.clock ∧
        ((stp.modifyPort i f).initializePort i .disabled).sent = stp.sent := by
    intro stp i f
    simp only [initializePort, setPortState, becomeDesignatedPort, modifyPort, clock, and_self]
  unfold stpCreate
  refine List.foldlRecOn (motive := fun stp : Stp => stp.clock = _ ∧ stp.sent = []) _ _ ?_ ?_
  · unfold stpCreateBridge updateBridgeTimers
    dsimp only
    split_ifs <;> exact ⟨rfl, rfl⟩
  · intro stp h i _
    rw [(hround stp i _).1, (hround stp i _).2]
    exact h

theorem clock_modifyPort (stp : Stp) (i : StpPortNo) (f : StpPort → StpPort) :
    (stp.modifyPort i f).clock = stp.clock := rfl

theorem clock_setPortState (stp : Stp) (i : StpPortNo) (state : StpState) :
    (stp.setPortState i state).clock = stp.clock := by
  simp only [setPortState, modifyPort, clock]

/-- A designated port that is blocked begins to listen. -/
theorem selectPortState_of_designated {stp : Stp} {i : StpPortNo} (hroot : stp.rootPort = none)
    (hd : stp.IsDesignatedPort (stp.ports i).toPortInfo)
    (hstate : (stp.ports i).state = .blocking) :
    stp.selectPortState i = ((stp.modifyPort i fun p =>
      { p with messageAgeTimer := p.messageAgeTimer.stop }).setPortState i .listening).modifyPort
        i fun p => { p with forwardDelayTimer := startTimer 0 } := by
  have hblocking : ((stp.modifyPort i fun p =>
      { p with messageAgeTimer := p.messageAgeTimer.stop }).ports i).state = .blocking := by
    simp [modifyPort, hstate]
  unfold selectPortState
  rw [if_neg (by simp [hroot]), if_pos hd, makeForwarding, if_pos hblocking]

/-- Enabling a port of a bridge with none: it becomes designated, and listens. -/
theorem portEnable_of_disabled {stp : Stp} {i : StpPortNo} (h : ∀ j, ¬ stp.Enabled j)
    (hroot : stp.rootPort = none) :
    (stp.portEnable i).clock = stp.clock ∧ ((stp.portEnable i).ports i).holdTimer.active = false ∧
      ((stp.portEnable i).ports i).topologyChangeAck = false := by
  have hinfo := stp.info_initializePort i .blocking
  have hclock : (stp.initializePort i .blocking).clock = stp.clock := by
    rw [initializePort, clock_modifyPort, clock_setPortState]
    rfl
  have hhold : ((stp.initializePort i .blocking).ports i).holdTimer.active = false ∧
      ((stp.initializePort i .blocking).ports i).topologyChangeAck = false := by
    simp [initializePort, modifyPort, StpTimer.stop]
  unfold portEnable
  rw [if_neg (h i)]
  generalize stp.initializePort i .blocking = initialized at hinfo hclock hhold ⊢
  have hbridge : initialized.toBridgeInfo = stp.toBridgeInfo := congrArg TreeInfo.bridge hinfo
  have hport : (initialized.ports i).toPortInfo =
      { stp.designated (stp.ports i).toPortInfo with state := .blocking } := by
    refine (congrFun (congrArg TreeInfo.port hinfo) i).trans ?_
    rw [TreeInfo.becomeDesignated, TreeInfo.port_modifyPort_self]
    rfl
  have hother : ∀ j, j ≠ i → (initialized.ports j).state = .disabled := by
    intro j hj
    refine (congrArg PortInfo.state (congrFun (congrArg TreeInfo.port hinfo) j)).trans ?_
    rw [TreeInfo.becomeDesignated, TreeInfo.port_modifyPort_of_ne hj]
    exact not_not.1 (h j)
  have hselect := @selectPortState_of_designated initialized i (by rw [hbridge]; exact hroot)
    (by rw [hbridge, hport]; exact ⟨rfl, rfl⟩) (by rw [hport])
  have hloop : initialized.portStateSelection = initialized.selectPortState i := by
    refine forEachEnabledPort_single ?_ (fun j hj => not_not.2 (hother j hj)) fun j hj => ?_
    · rw [Enabled, hport]
      exact StpState.noConfusion
    · rw [hselect, Enabled]
      simp [modifyPort, setPortState, hj, hother j hj]
  rw [hloop, hselect]
  refine ⟨?_, ?_, ?_⟩
  · rw [clock_modifyPort, clock_setPortState, clock_modifyPort, hclock]
  · simp [modifyPort, setPortState, hhold.1]
  · simp [modifyPort, setPortState, hhold.2]

/-- A root bridge with a single enabled port, which is designated, sends a message when it sends
messages. -/
theorem sent_configBpduGeneration {stp : Stp} {i : StpPortNo} (hroot : stp.IsRootBridge)
    (hi : stp.Enabled i) (hother : ∀ j, j ≠ i → ¬ stp.Enabled j)
    (hd : stp.IsDesignatedPort (stp.ports i).toPortInfo)
    (hhold : (stp.ports i).holdTimer.active = false) (hage : 0 < stp.maxAge) :
    stp.configBpduGeneration.sent = stp.sent ++ [(i, .config (stp.configMessage i))] := by
  have hloop : stp.configBpduGeneration = stp.transmitConfig i := by
    unfold configBpduGeneration
    rw [forEachEnabledPort_single (i := i) hi hother, if_pos hd]
    intro j hj
    rw [if_pos hd, ← info_enabled, info_transmitConfig]
    exact hother j hj
  rw [hloop]
  exact sent_transmitConfig_of_root stp i hroot hhold hage

/-- What is sent when the hello timer expires is still sent at the end of the tick. -/
theorem sent_tick_of_hello {stp : Stp} {ms : ℤ} {timer : StpTimer} {m : StpPortNo × Bpdu}
    (hremainder : stp.elapsedRemainder = 0) (hpos : msToTimer (clamp ms 0 (2147483647 - 1000)) ≠ 0)
    (hexpired : stp.helloTimer.expired (msToTimer (clamp ms 0 (2147483647 - 1000))) stp.helloTime =
      (timer, true))
    (hm : m ∈ { stp with
      elapsedRemainder := msToTimerRemainder (clamp ms 0 (2147483647 - 1000))
      helloTimer := timer }.configBpduGeneration.sent) : m ∈ (stp.tick ms).sent := by
  unfold tick
  rw [hremainder, add_zero]
  generalize clamp ms 0 (2147483647 - 1000) = ms at *
  extract_lets total elapsed kept aged
  rw [if_neg hpos]
  have hhello : { kept with helloTimer := timer }.helloTimerExpiry.Credible (.any {m}) := by
    refine credible_any fun {m'} hm' => ?_
    rw [Set.mem_singleton_iff.1 hm']
    unfold helloTimerExpiry
    generalize Stp.configBpduGeneration _ = generated at hm ⊢
    exact hm
  have hbridge : (kept.tickBridge elapsed).Credible (.any {m}) := by
    refine Credible.tickBridge_of_hello hexpired ?_
    rw [if_pos rfl]
    exact hhello
  have haged : aged.Credible (.any {m}) :=
    hbridge.forEachEnabledPort fun _ i h => h.tickMessageAge elapsed i
  have hticked : (aged.forEachEnabledPort fun stp => stp.tickPort elapsed).Credible (.any {m}) :=
    haged.forEachEnabledPort fun _ i h => h.tickPort elapsed i
  exact hticked.said rfl

end Stp

/-- The message of a new bridge. -/
def helloOf (bridgeId : StpIdentifier) (portId : BitVec 16) : ConfigBpdu where
  flags := 0
  rootId := bridgeId
  rootPathCost := 0
  bridgeId := bridgeId
  portId := portId
  messageAge := 0
  maxAge := 1536
  helloTime := 512
  forwardDelay := 1024

namespace TreeInfo

/-- A new bridge with one enabled port: the states have changed, and no other port is enabled. -/
theorem portEnable_created (bridgeId : StpIdentifier) (i : StpPortNo) :
    ((created bridgeId).portEnable i).bridge = (created bridgeId).bridge ∧
      (∀ j, ((created bridgeId).portEnable i).port j =
        { (created bridgeId).port j with
          state := (((created bridgeId).portEnable i).port j).state }) ∧
      ∀ j, ((created bridgeId).portEnable i).Enabled j ↔ j = i := by
  have heq : (created bridgeId).portEnable i =
      ((created bridgeId).becomeDesignated i .blocking).portStateSelection :=
    if_neg (not_not.2 rfl)
  have hsame := sameButStates_portStateSelection ((created bridgeId).becomeDesignated i .blocking)
  rw [heq]
  refine ⟨hsame.bridge, fun j => ?_, fun j => ?_⟩
  · rw [hsame.port j, becomeDesignated]
    rcases eq_or_ne j i with rfl | hj
    · rw [port_modifyPort_self]
      rfl
    · rw [port_modifyPort_of_ne hj]
  · rw [hsame.enabled, becomeDesignated, Enabled]
    rcases eq_or_ne j i with rfl | hj
    · rw [port_modifyPort_self]
      exact iff_of_true StpState.noConfusion rfl
    · rw [port_modifyPort_of_ne hj]
      exact iff_of_false (not_not.2 rfl) hj

end TreeInfo

namespace Stp

variable (bigEndian : Bool) (bridgeId : StpIdentifier) (i : StpPortNo)

/-- A bridge that has been created and has one enabled port says that it is the root when it sends
messages. -/
theorem hello_of_configBpduGeneration {stp : Stp} {bridgeId : StpIdentifier} {i : StpPortNo}
    (hbridge : stp.toBridgeInfo = (TreeInfo.created bridgeId).bridge)
    (hport : (stp.ports i).toPortInfo =
      { (TreeInfo.created bridgeId).port i with state := (stp.ports i).state })
    (henabled : ∀ j, stp.Enabled j ↔ j = i)
    (htimes : (stp.maxAge, stp.helloTime, stp.forwardDelay) = (1536, 512, 1024))
    (hchange : stp.topologyChange = false) (hack : (stp.ports i).topologyChangeAck = false)
    (hhold : (stp.ports i).holdTimer.active = false) :
    (i, .config (helloOf bridgeId (BitVec.ofNat 16 (i + 1) ||| 0x8000))) ∈
      stp.configBpduGeneration.sent := by
  obtain ⟨hmaxAge, hhelloTime, hforwardDelay⟩ :
      stp.maxAge = 1536 ∧ stp.helloTime = 512 ∧ stp.forwardDelay = 1024 := by
    simpa only [Prod.mk.injEq] using htimes
  have hd : stp.IsDesignatedPort (stp.ports i).toPortInfo := by
    rw [hbridge, hport]
    exact ⟨rfl, rfl⟩
  have hroot : stp.IsRootBridge := by
    rw [hbridge]
    exact rfl
  have hmessage : stp.configMessage i =
      helloOf bridgeId (BitVec.ofNat 16 (i + 1) ||| 0x8000) := by
    unfold configMessage helloOf
    rw [hack, hchange, if_pos hroot, hmaxAge, hhelloTime, hforwardDelay, hport, hbridge]
    simp [TreeInfo.created]
  rw [sent_configBpduGeneration hroot ((henabled i).2 rfl) (fun j hj => mt (henabled j).1 hj) hd
    hhold (hmaxAge ▸ by decide), ← hmessage]
  exact List.mem_append_right _ List.mem_cons_self

/-- Two seconds after its port has been enabled, a new bridge has sent a message in which it takes
itself for the root. -/
theorem hello_of_portEnable :
    (i, .config (helloOf (withDefaultPriority bridgeId) (BitVec.ofNat 16 (i + 1) ||| 0x8000))) ∈
      (((stpCreate bigEndian bridgeId).portEnable i).tick 2000).sent := by
  have hcreated := info_stpCreate bigEndian bridgeId
  have hclock := (clock_stpCreate bigEndian bridgeId).1
  generalize stpCreate bigEndian bridgeId = created at *
  generalize withDefaultPriority bridgeId = bridgeId at *
  have hdisabled : ∀ j, ¬ created.Enabled j := by
    intro j
    rw [← info_enabled, hcreated]
    exact not_not.2 rfl
  obtain ⟨hkept, hhold, hack⟩ := portEnable_of_disabled (i := i) hdisabled
    (congrArg (fun t : TreeInfo => t.bridge.rootPort) hcreated)
  have hinfo : (created.portEnable i).info = (TreeInfo.created bridgeId).portEnable i := by
    rw [info_portEnable, hcreated]
  rw [hclock] at hkept
  generalize created.portEnable i = stp at *
  obtain ⟨hbridge, hport, henabled⟩ := TreeInfo.portEnable_created bridgeId i
  rw [← hinfo] at hbridge hport henabled
  -- the clock says when the hello timer expires, and what is sent then
  have htimer : stp.helloTimer = ⟨true, 0⟩ := congrArg (fun c => c.1.headD ⟨false, 0⟩) hkept
  have htimes : (stp.maxAge, stp.helloTime, stp.forwardDelay) = (1536, 512, 1024) :=
    congrArg (fun c => (c.2.1.getD 1 0, c.2.1.getD 0 0, c.2.1.getD 2 0)) hkept
  have hremainder : stp.elapsedRemainder = 0 := congrArg (fun c => c.2.1.getD 3 0) hkept
  have helapsed : msToTimer (clamp 2000 0 (2147483647 - 1000)) = 512 := by decide
  have hexpired : stp.helloTimer.expired 512 stp.helloTime = (⟨false, 512⟩, true) := by
    have hhelloTime : stp.helloTime = 512 := congrArg (fun times => times.2.1) htimes
    rw [htimer, hhelloTime]
    decide
  refine sent_tick_of_hello hremainder (by rw [helapsed]; decide) (by rw [helapsed]; exact hexpired)
    ?_
  exact hello_of_configBpduGeneration hbridge (hport i) henabled htimes
    (congrArg (fun c => c.2.2) hkept) hack hhold

/-- At most the state of the port has changed by then. -/
theorem sameButStates_hello :
    TreeInfo.SameButStates
      ((TreeInfo.created (withDefaultPriority bridgeId)).portEnable i)
      (((stpCreate bigEndian bridgeId).portEnable i).tick 2000).info := by
  have hcreated := info_stpCreate bigEndian bridgeId
  generalize stpCreate bigEndian bridgeId = created at *
  generalize withDefaultPriority bridgeId = bridgeId at *
  have hsteady : created.info.Steady := hcreated ▸ TreeInfo.steady_created bridgeId
  have henabled : (created.portEnable i).info.Steady :=
    TreeInfo.steady_next (e := .portEnable i) hsteady trivial
  have hinfo : (created.portEnable i).info = (TreeInfo.created bridgeId).portEnable i := by
    rw [info_portEnable, hcreated]
  obtain ⟨hbridge, hport, -⟩ := TreeInfo.portEnable_created bridgeId i
  rw [← hinfo] at hbridge hport ⊢
  refine sameButStates_tick henabled (fun j _ => ?_) 2000
  unfold TreeInfo.Designated
  rw [hbridge, hport]
  exact ⟨rfl, rfl⟩

end Stp

end OfAgent
