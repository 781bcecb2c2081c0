import OfAgent.Stp.Handlers

/-!
# Settings of a bridge

The part of a bridge that only its user and its clock change: the requested and the resulting times,
and what the last tick has left over. Messages, selections and timers that expire leave it alone.

* `StpSettings`, `StpSettings.next`: this part by itself, and what an event does to it.
* `Stp.Moves`: enabled ports get other states, one after the other, and the settings stay.
  `Stp.moves_receivedBpdu`, `Stp.moves_tickBridge` and so on: messages and timers do no more than
  this.
* `Stp.settings_next`: the functions of the source do this.
* `Stp.settings_run`: so do whole runs of them.
-/

namespace OfAgent

/-- The settings of a bridge. Times are in ticks, unless they are those that the user has
requested. -/
structure StpSettings where
  /-- `max_age` when we're root. -/
  bridgeMaxAge : ℤ
  /-- `hello_time` as root. -/
  bridgeHelloTime : ℤ
  /-- `forward_delay` as root. -/
  bridgeForwardDelay : ℤ
  /-- User-requested max age, in ms. -/
  rqMaxAge : ℤ
  /-- User-requested hello time, in ms. -/
  rqHelloTime : ℤ
  /-- User-requested forward delay, in ms. -/
  rqForwardDelay : ℤ
  /-- What the last `stp_tick` has left over. -/
  elapsedRemainder : ℤ
  deriving DecidableEq, Repr

namespace StpSettings

variable (s : StpSettings)

/-- `stp_update_bridge_timers`. -/
def updateBridgeTimers : StpSettings :=
  let ht := clamp s.rqHelloTime 1000 10000
  let ma := clamp s.rqMaxAge (max (2 * (ht + 1000)) 6000) 40000
  let fd := clamp s.rqForwardDelay (ma.tdiv 2 + 1000) 30000
  { s with
    bridgeHelloTime := msToTimer ht
    bridgeMaxAge := msToTimer ma
    bridgeForwardDelay := msToTimer fd }

/-- The milliseconds that `stp_tick` converts: those that have passed, up to a limit, and what the
last call has left over. -/
def tickMs (ms : ℤ) : ℤ := clamp ms 0 (2147483647 - 1000) + s.elapsedRemainder

/-- The settings behind an event. -/
def next : StpEvent → StpSettings
  | .tick ms => { s with elapsedRemainder := msToTimerRemainder (s.tickMs ms) }
  | .setHelloTime ms => { s with rqHelloTime := ms }.updateBridgeTimers
  | .setMaxAge ms => { s with rqMaxAge := ms }.updateBridgeTimers
  | .setForwardDelay ms => { s with rqForwardDelay := ms }.updateBridgeTimers
  | _ => s

end StpSettings

namespace Stp

variable (stp : Stp)

/-- The settings of a bridge. -/
def settings : StpSettings where
  bridgeMaxAge := stp.bridgeMaxAge
  bridgeHelloTime := stp.bridgeHelloTime
  bridgeForwardDelay := stp.bridgeForwardDelay
  rqMaxAge := stp.rqMaxAge
  rqHelloTime := stp.rqHelloTime
  rqForwardDelay := stp.rqForwardDelay
  elapsedRemainder := stp.elapsedRemainder

/-! ### Ports -/

@[simp]
theorem settings_modifyPort (i : StpPortNo) (f : StpPort → StpPort) :
    (stp.modifyPort i f).settings = stp.settings := rfl

@[simp]
theorem settings_setPortState (i : StpPortNo) (state : StpState) :
    (stp.setPortState i state).settings = stp.settings := rfl

@[simp]
theorem settings_becomeDesignatedPort (i : StpPortNo) :
    (stp.becomeDesignatedPort i).settings = stp.settings := rfl

@[simp]
theorem settings_initializePort (i : StpPortNo) (state : StpState) :
    (stp.initializePort i state).settings = stp.settings := by
  unfold initializePort
  rw [settings_modifyPort, settings_setPortState, settings_becomeDesignatedPort]

/-- What another record of a port leaves alone. -/
theorem field_update {α : Type*} (g : StpPort → α) {ports : StpPortNo → StpPort} {i : StpPortNo}
    {p : StpPort} (h : g p = g (ports i)) (j : StpPortNo) :
    g (Function.update ports i p j) = g (ports j) := by
  by_cases heq : j = i
  · rw [heq, Function.update_self, h]
  · rw [Function.update_of_ne heq]

/-- The same ports are enabled, if the state is left alone. -/
theorem enabled_modifyPort (i : StpPortNo) {f : StpPort → StpPort}
    (hstate : ∀ p, (f p).state = p.state) (j : StpPortNo) :
    (stp.modifyPort i f).Enabled j ↔ stp.Enabled j := by
  have hsame : ((stp.modifyPort i f).ports j).state = (stp.ports j).state :=
    field_update (fun p => p.state) (hstate _) j
  rw [Enabled, Enabled, hsame]

theorem enabled_of_state {i : StpPortNo} {state : StpState} (h : (stp.ports i).state = state)
    (hstate : state ≠ .disabled) : stp.Enabled i := fun hdisabled =>
  hstate (h.symm.trans hdisabled)

theorem state_setPortState (i j : StpPortNo) (state : StpState) :
    ((stp.setPortState i state).ports j).state = if j = i then state else (stp.ports j).state := by
  by_cases heq : j = i
  · simp [setPortState, modifyPort, heq]
  · simp [setPortState, modifyPort, heq]

theorem enabled_setPortState (i j : StpPortNo) (state : StpState) :
    (stp.setPortState i state).Enabled j ↔ if j = i then state ≠ .disabled else stp.Enabled j := by
  unfold Enabled
  rw [state_setPortState]
  split <;> rfl

/-! ### Messages and timers -/

/-- What messages and timers do: a port that is enabled gets a state in which it is, and the rest
leaves states, costs, marks and settings alone. -/
inductive Moves (stp : Stp) : Stp → Prop
  | refl : Moves stp stp
  | changeBridge {stp' stp'' : Stp} (h : Moves stp stp') (hports : stp''.ports = stp'.ports)
      (hfirst : stp''.firstChangedPort = stp'.firstChangedPort)
      (hbig : stp''.bigEndian = stp'.bigEndian) (hsettings : stp''.settings = stp'.settings) :
      Moves stp stp''
  | modifyPort {stp' : Stp} (h : Moves stp stp') (i : StpPortNo) {f : StpPort → StpPort}
      (hf : ∀ p, (f p).state = p.state ∧ (f p).pathCost = p.pathCost ∧
        (f p).stateChanged = p.stateChanged) : Moves stp (stp'.modifyPort i f)
  | setPortState {stp' : Stp} (h : Moves stp stp') {i : StpPortNo} (hi : stp'.Enabled i)
      {state : StpState} (hstate : state ≠ .disabled) : Moves stp (stp'.setPortState i state)

namespace Moves

variable {stp stp' stp'' : Stp}

theorem trans (h : stp.Moves stp') (h' : stp'.Moves stp'') : stp.Moves stp'' := by
  induction h' with
  | refl => exact h
  | changeBridge _ hports hfirst hbig hsettings ih =>
    exact ih.changeBridge hports hfirst hbig hsettings
  | modifyPort _ i hf ih => exact ih.modifyPort i hf
  | setPortState _ hi hstate ih => exact ih.setPortState hi hstate

theorem of_eq (hports : stp'.ports = stp.ports)
    (hfirst : stp'.firstChangedPort = stp.firstChangedPort)
    (hbig : stp'.bigEndian = stp.bigEndian) (hsettings : stp'.settings = stp.settings) :
    stp.Moves stp' :=
  Moves.refl.changeBridge hports hfirst hbig hsettings

/-- A loop whose body does no more than this does no more. -/
theorem forEachEnabledPort {body : Stp → StpPortNo → Stp}
    (hbody : ∀ stp i, Moves stp (body stp i)) (stp : Stp) :
    stp.Moves (stp.forEachEnabledPort body) :=
  stp.forEachEnabledPort_induct .refl fun stp' i h => h.trans (hbody stp' i)

/-- An alternative. -/
theorem ite {p : Prop} [Decidable p] (h : p → stp.Moves stp') (h' : ¬ p → stp.Moves stp'') :
    stp.Moves (if p then stp' else stp'') := by
  split
  next hp => exact h hp
  next hp => exact h' hp

/-- The same ports are enabled. -/
theorem enabled (h : stp.Moves stp') (i : StpPortNo) : stp'.Enabled i ↔ stp.Enabled i := by
  induction h with
  | refl => exact Iff.rfl
  | changeBridge _ hports _ _ _ ih => rwa [Enabled, hports]
  | modifyPort _ j hf ih => exact (enabled_modifyPort _ j (fun p => (hf p).1) i).trans ih
  | setPortState _ hj hstate ih =>
    rw [enabled_setPortState]
    split
    next heq => exact (iff_of_true hstate (heq ▸ hj)).trans ih
    next => exact ih

theorem settings (h : stp.Moves stp') : stp'.settings = stp.settings := by
  induction h with
  | refl => rfl
  | changeBridge _ _ _ _ hsettings ih => exact hsettings.trans ih
  | modifyPort _ _ _ ih => exact ih
  | setPortState _ _ _ ih => exact ih

end Moves

theorem moves_becomeDesignatedPort (i : StpPortNo) : stp.Moves (stp.becomeDesignatedPort i) :=
  Moves.refl.modifyPort i fun _ => ⟨rfl, rfl, rfl⟩

/-! ### Messages -/

theorem moves_transmitConfig (i : StpPortNo) : stp.Moves (stp.transmitConfig i) := by
  unfold transmitConfig
  extract_lets config
  split_ifs
  · exact .refl
  · exact Moves.refl.modifyPort i fun _ => ⟨rfl, rfl, rfl⟩
  · refine .modifyPort ?_ i fun _ => ⟨rfl, rfl, rfl⟩
    have hsent : ∀ stp : Stp, stp.Moves (stp.sendBpdu i (.config config)) :=
      fun _ => .of_eq rfl rfl rfl rfl
    refine .trans ?_ (hsent _)
    exact Moves.refl.modifyPort i fun _ => ⟨rfl, rfl, rfl⟩
  · exact .refl

theorem moves_transmitTcn : stp.Moves stp.transmitTcn := by
  unfold transmitTcn
  split
  next => exact .refl
  next => exact .of_eq rfl rfl rfl rfl

theorem moves_configBpduGeneration : stp.Moves stp.configBpduGeneration :=
  .forEachEnabledPort (fun stp i => .ite (fun _ => stp.moves_transmitConfig i) fun _ => .refl)
    stp

theorem moves_topologyChangeDetection : stp.Moves stp.topologyChangeDetection := by
  unfold topologyChangeDetection
  split_ifs
  · exact .of_eq rfl rfl rfl rfl
  · exact .of_eq rfl rfl rfl rfl
  · exact stp.moves_transmitTcn.trans (.of_eq rfl rfl rfl rfl)

theorem moves_makeForwarding (i : StpPortNo) : stp.Moves (stp.makeForwarding i) := by
  refine .ite (fun hblocking => ?_) fun _ => .refl
  have hi := stp.enabled_of_state hblocking StpState.noConfusion
  exact (Moves.refl.setPortState hi StpState.noConfusion).modifyPort i fun _ => ⟨rfl, rfl, rfl⟩

theorem moves_makeBlocking (i : StpPortNo) : stp.Moves (stp.makeBlocking i) := by
  refine .ite (fun hports => ?_) fun _ => .refl
  -- the port is enabled still when its state is set
  have hdetected : stp.Moves
      (if ((stp.ports i).state = .forwarding ∨ (stp.ports i).state = .learning) ∧
      (stp.ports i).changeDetectionEnabled = true then stp.topologyChangeDetection else stp) :=
    .ite (fun _ => stp.moves_topologyChangeDetection) fun _ => .refl
  refine .modifyPort (hdetected.trans ?_) i fun _ => ⟨rfl, rfl, rfl⟩
  exact Moves.refl.setPortState ((hdetected.enabled i).2 hports.1) StpState.noConfusion

/-! ### Selections -/

theorem moves_configurationUpdate : stp.Moves stp.configurationUpdate := by
  have hroot : stp.Moves stp.rootSelection := by
    unfold rootSelection
    split
    next => exact .of_eq rfl rfl rfl rfl
    next => exact .of_eq rfl rfl rfl rfl
  unfold configurationUpdate designatedPortSelection
  refine hroot.trans (.forEachEnabledPort (fun stp i => ?_) _)
  exact .ite (fun _ => stp.moves_becomeDesignatedPort i) fun _ => .refl

theorem moves_portStateSelection : stp.Moves stp.portStateSelection := by
  unfold portStateSelection
  refine .forEachEnabledPort (fun stp i => ?_) stp
  unfold selectPortState
  split_ifs
  · refine .trans ?_ (moves_makeForwarding _ i)
    exact Moves.refl.modifyPort i fun _ => ⟨rfl, rfl, rfl⟩
  · refine .trans ?_ (moves_makeForwarding _ i)
    exact Moves.refl.modifyPort i fun _ => ⟨rfl, rfl, rfl⟩
  · refine .trans ?_ (moves_makeBlocking _ i)
    exact Moves.refl.modifyPort i fun _ => ⟨rfl, rfl, rfl⟩

theorem moves_becomeRootBridge : stp.Moves stp.becomeRootBridge := by
  have huse : stp.Moves stp.useBridgeTimes := .of_eq rfl rfl rfl rfl
  have hdetected := huse.trans stp.useBridgeTimes.moves_topologyChangeDetection
  unfold becomeRootBridge
  generalize stp.useBridgeTimes.topologyChangeDetection = detected at hdetected ⊢
  have hstop : detected.Moves { detected with tcnTimer := detected.tcnTimer.stop } :=
    .of_eq rfl rfl rfl rfl
  have hgenerated := (hdetected.trans hstop).trans (moves_configBpduGeneration _)
  dsimp only
  generalize { detected with tcnTimer := detected.tcnTimer.stop }.configBpduGeneration = generated
    at hgenerated ⊢
  exact hgenerated.trans (.of_eq rfl rfl rfl rfl)

theorem moves_reconfigure (root : Prop) [Decidable root] : stp.Moves (stp.reconfigure root) := by
  have hselected := stp.moves_configurationUpdate.trans (moves_portStateSelection _)
  unfold reconfigure
  generalize stp.configurationUpdate.portStateSelection = selected at hselected ⊢
  exact .ite (fun _ => hselected.trans selected.moves_becomeRootBridge) fun _ => hselected

/-! ### Received messages -/

theorem moves_resignAsRoot : stp.Moves stp.resignAsRoot := by
  unfold resignAsRoot
  extract_lets resigned stopped sent
  have hresigned : stp.Moves resigned := .of_eq rfl rfl rfl rfl
  have hstopped : resigned.Moves stopped := .of_eq rfl rfl rfl rfl
  have hsent : stopped.Moves sent := stopped.moves_transmitTcn
  refine .ite (fun _ => ?_) fun _ => hresigned
  exact hresigned.trans (hstopped.trans (hsent.trans (.of_eq rfl rfl rfl rfl)))

theorem moves_receivedFromRoot (config : ConfigBpdu) : stp.Moves (stp.receivedFromRoot config) := by
  have htimes : stp.Moves (stp.recordConfigTimeoutValues config) := .of_eq rfl rfl rfl rfl
  have hgenerated := htimes.trans (moves_configBpduGeneration _)
  unfold receivedFromRoot
  generalize (stp.recordConfigTimeoutValues config).configBpduGeneration = generated at hgenerated ⊢
  exact .ite (fun _ => hgenerated.trans (.of_eq rfl rfl rfl rfl)) fun _ => hgenerated

theorem moves_receivedNewConfig (root : Prop) [Decidable root] (i : StpPortNo)
    (config : ConfigBpdu) :
    stp.Moves (stp.receivedNewConfig root i config) := by
  -- the ports are selected anew, and a bridge that was the root may not be any more
  have hselected := stp.moves_configurationUpdate.trans (moves_portStateSelection _)
  unfold receivedNewConfig
  generalize stp.configurationUpdate.portStateSelection = selected at hselected ⊢
  dsimp only
  have hresigned : stp.Moves
      (if ¬ selected.IsRootBridge ∧ root then selected.resignAsRoot else selected) :=
    .ite (fun _ => hselected.trans selected.moves_resignAsRoot) fun _ => hselected
  generalize (if ¬ selected.IsRootBridge ∧ root then selected.resignAsRoot else selected) = resigned
    at hresigned ⊢
  exact .ite (fun _ => hresigned.trans (resigned.moves_receivedFromRoot config)) fun _ => hresigned

theorem moves_receivedConfigBpdu (i : StpPortNo) (config : ConfigBpdu) :
    stp.Moves (stp.receivedConfigBpdu i config) := by
  unfold receivedConfigBpdu
  refine .ite (fun _ => .refl) fun _ => .ite (fun _ => .ite (fun _ => ?_) fun _ => ?_) fun _ =>
    .refl
  · refine .trans ?_ (moves_receivedNewConfig _ _ i config)
    exact Moves.refl.modifyPort i fun _ => ⟨rfl, rfl, rfl⟩
  · exact .ite (fun _ => stp.moves_transmitConfig i) fun _ => .refl

theorem moves_receivedTcnBpdu (i : StpPortNo) : stp.Moves (stp.receivedTcnBpdu i) := by
  unfold receivedTcnBpdu acknowledgeTopologyChange
  refine .ite (fun _ => .ite (fun _ => ?_) fun _ => .refl) fun _ => .refl
  refine .trans ?_ (moves_transmitConfig _ i)
  exact stp.moves_topologyChangeDetection.modifyPort i fun _ => ⟨rfl, rfl, rfl⟩

/-- A message does no more than this. -/
theorem moves_receivedBpdu (i : StpPortNo) (bpdu : List Byte) :
    stp.Moves (stp.receivedBpdu i bpdu) := by
  unfold receivedBpdu
  refine .ite (fun _ => .refl) fun _ => .ite (fun _ => .refl) fun _ =>
    .ite (fun _ => .refl) fun _ => ?_
  split
  next => exact .ite (fun _ => .refl) fun _ => stp.moves_receivedConfigBpdu i _
  next => exact .ite (fun _ => .refl) fun _ => stp.moves_receivedTcnBpdu i
  next => exact .refl

/-! ### Timers -/

theorem moves_helloTimerExpiry : stp.Moves stp.helloTimerExpiry := by
  have hgenerated := stp.moves_configBpduGeneration
  unfold helloTimerExpiry
  generalize stp.configBpduGeneration = generated at hgenerated ⊢
  exact hgenerated.trans (.of_eq rfl rfl rfl rfl)

theorem moves_tcnTimerExpiry : stp.Moves stp.tcnTimerExpiry := by
  have hsent := stp.moves_transmitTcn
  unfold tcnTimerExpiry
  generalize stp.transmitTcn = sent at hsent ⊢
  exact hsent.trans (.of_eq rfl rfl rfl rfl)

theorem moves_tickBridge (elapsed : ℤ) : stp.Moves (stp.tickBridge elapsed) := by
  -- one timer after the other: its value, and what it does when it expires
  have hhello : ∀ timer, stp.Moves { stp with helloTimer := timer } :=
    fun _ => .of_eq rfl rfl rfl rfl
  have htcn : ∀ (stp : Stp) timer, stp.Moves { stp with tcnTimer := timer } :=
    fun _ _ => .of_eq rfl rfl rfl rfl
  unfold tickBridge
  obtain ⟨timer₁, expired₁⟩ := stp.helloTimer.expired elapsed stp.helloTime
  dsimp only
  have h₁ : stp.Moves (if expired₁ then { stp with helloTimer := timer₁ }.helloTimerExpiry
      else { stp with helloTimer := timer₁ }) :=
    .ite (fun _ => (hhello timer₁).trans (moves_helloTimerExpiry _)) fun _ => hhello timer₁
  refine h₁.trans ?_
  generalize (if expired₁ then { stp with helloTimer := timer₁ }.helloTimerExpiry
      else { stp with helloTimer := timer₁ }) = stp₁
  obtain ⟨timer₂, expired₂⟩ := stp₁.tcnTimer.expired elapsed stp₁.bridgeHelloTime
  dsimp only
  have h₂ : stp₁.Moves (if expired₂ then { stp₁ with tcnTimer := timer₂ }.tcnTimerExpiry
      else { stp₁ with tcnTimer := timer₂ }) :=
    .ite (fun _ => (htcn stp₁ timer₂).trans (moves_tcnTimerExpiry _)) fun _ => htcn stp₁ timer₂
  refine h₂.trans ?_
  generalize (if expired₂ then { stp₁ with tcnTimer := timer₂ }.tcnTimerExpiry
      else { stp₁ with tcnTimer := timer₂ }) = stp₂
  obtain ⟨timer₃, expired₃⟩ :=
    stp₂.topologyChangeTimer.expired elapsed (stp₂.maxAge + stp₂.forwardDelay)
  exact .ite (fun _ => .of_eq rfl rfl rfl rfl) fun _ => .of_eq rfl rfl rfl rfl

theorem moves_messageAgeTimerExpiry (i : StpPortNo) : stp.Moves (stp.messageAgeTimerExpiry i) := by
  unfold messageAgeTimerExpiry
  exact (stp.moves_becomeDesignatedPort i).trans (moves_reconfigure _ _)

theorem moves_tickMessageAge (elapsed : ℤ) (i : StpPortNo) :
    stp.Moves (stp.tickMessageAge elapsed i) := by
  unfold tickMessageAge
  obtain ⟨timer, expired⟩ := (stp.ports i).messageAgeTimer.expired elapsed stp.maxAge
  dsimp only
  have haged : stp.Moves (stp.modifyPort i fun p => { p with messageAgeTimer := timer }) :=
    Moves.refl.modifyPort i fun _ => ⟨rfl, rfl, rfl⟩
  generalize (stp.modifyPort i fun p => { p with messageAgeTimer := timer }) = aged at haged ⊢
  exact .ite (fun _ => haged.trans (aged.moves_messageAgeTimerExpiry i)) fun _ => haged

theorem moves_forwardDelayTimerExpiry (i : StpPortNo) :
    stp.Moves (stp.forwardDelayTimerExpiry i) := by
  unfold forwardDelayTimerExpiry
  split
  next hlistening =>
    have hi := stp.enabled_of_state hlistening StpState.noConfusion
    exact (Moves.refl.setPortState hi StpState.noConfusion).modifyPort i fun _ => ⟨rfl, rfl, rfl⟩
  next hlearning =>
    have hi := stp.enabled_of_state hlearning StpState.noConfusion
    exact (Moves.refl.setPortState hi StpState.noConfusion).trans
      (.ite (fun _ => moves_topologyChangeDetection _) fun _ => .refl)
  next => exact .refl

theorem moves_tickPort (elapsed : ℤ) (i : StpPortNo) : stp.Moves (stp.tickPort elapsed i) := by
  unfold tickPort
  obtain ⟨timer, expired⟩ := (stp.ports i).forwardDelayTimer.expired elapsed stp.forwardDelay
  dsimp only
  have haged : stp.Moves (stp.modifyPort i fun p => { p with forwardDelayTimer := timer }) :=
    Moves.refl.modifyPort i fun _ => ⟨rfl, rfl, rfl⟩
  generalize (stp.modifyPort i fun p => { p with forwardDelayTimer := timer }) = aged at haged ⊢
  have hprogressed : stp.Moves (if expired then aged.forwardDelayTimerExpiry i else aged) :=
    .ite (fun _ => haged.trans (aged.moves_forwardDelayTimerExpiry i)) fun _ => haged
  generalize (if expired then aged.forwardDelayTimerExpiry i else aged) =
    progressed at hprogressed ⊢
  obtain ⟨timer, expired⟩ := (progressed.ports i).holdTimer.expired elapsed (msToTimer 1000)
  dsimp only
  have hheld : stp.Moves (progressed.modifyPort i fun p => { p with holdTimer := timer }) :=
    hprogressed.modifyPort i fun _ => ⟨rfl, rfl, rfl⟩
  generalize (progressed.modifyPort i fun p => { p with holdTimer := timer }) = held at hheld ⊢
  have hexpiry : held.Moves (held.holdTimerExpiry i) := by
    unfold holdTimerExpiry
    exact .ite (fun _ => held.moves_transmitConfig i) fun _ => .refl
  exact .ite (fun _ => hheld.trans hexpiry) fun _ => hheld

/-- Nor does a tick do more, but for what it leaves over for the next one. -/
theorem moves_tick (ms : ℤ) :
    { stp with elapsedRemainder := msToTimerRemainder (stp.settings.tickMs ms) }.Moves
      (stp.tick ms) := by
  unfold tick
  extract_lets ms elapsed kept aged
  refine .ite (fun _ => .refl) fun _ => ?_
  have haged : kept.Moves aged :=
    (kept.moves_tickBridge elapsed).trans
      (.forEachEnabledPort (fun stp i => stp.moves_tickMessageAge elapsed i) _)
  exact haged.trans (.forEachEnabledPort (fun stp i => stp.moves_tickPort elapsed i) _)

/-! ### Identifiers -/

/-- Nor does another identifier of the bridge. -/
theorem moves_changeBridgeId (newBridgeId : StpIdentifier) :
    stp.Moves (stp.changeBridgeId newBridgeId) := by
  unfold changeBridgeId
  refine .ite (fun _ => ?_) fun _ => .refl
  dsimp only
  have hrename : ∀ (stp : Stp) (i : StpPortNo),
      stp.Moves (if stp.IsDesignatedPort (stp.ports i).toPortInfo then
      stp.modifyPort i fun p => { p with designatedBridge := newBridgeId } else stp) := fun stp i =>
    .ite (fun _ => Moves.refl.modifyPort i fun _ => ⟨rfl, rfl, rfl⟩) fun _ => .refl
  have hrenamed := Moves.forEachEnabledPort hrename stp
  generalize stp.forEachEnabledPort _ = renamed at hrenamed ⊢
  have hbridge : renamed.Moves { renamed with bridgeId := newBridgeId } := .of_eq rfl rfl rfl rfl
  exact hrenamed.trans (hbridge.trans (moves_reconfigure _ _))

theorem moves_setBridgeId (bridgeId : StpIdentifier) : stp.Moves (stp.setBridgeId bridgeId) :=
  stp.moves_changeBridgeId _

/-! ### Events -/

theorem settings_tick (ms : ℤ) : (stp.tick ms).settings = stp.settings.next (.tick ms) :=
  (stp.moves_tick ms).settings

theorem settings_updateBridgeTimers :
    stp.updateBridgeTimers.settings = stp.settings.updateBridgeTimers := by
  unfold updateBridgeTimers
  dsimp only
  split_ifs <;> rfl

theorem settings_portSetPathCost (i : StpPortNo) (pathCost : BitVec 16) :
    (stp.portSetPathCost i pathCost).settings = stp.settings := by
  unfold portSetPathCost
  split_ifs
  · rw [(moves_portStateSelection _).settings, (moves_configurationUpdate _).settings,
      settings_modifyPort]
  · rfl

theorem settings_portSetPriority (i : StpPortNo) (newPriority : BitVec 8) :
    (stp.portSetPriority i newPriority).settings = stp.settings := by
  unfold portSetPriority
  extract_lets newPortId designated renamed
  have hdesignated : designated.settings = stp.settings := by
    unfold designated
    split <;> rfl
  have hrenamed : renamed.settings = stp.settings :=
    (designated.settings_modifyPort i _).trans hdesignated
  split
  next =>
    split
    next =>
      rw [(moves_portStateSelection _).settings, settings_becomeDesignatedPort]
      exact hrenamed
    next => exact hrenamed
  next => rfl

/-- An event changes the settings as it does by themselves. -/
theorem settings_next (e : StpEvent) : (stp.next e).settings = stp.settings.next e := by
  cases e with
  | tick ms => exact stp.settings_tick ms
  | receivedBpdu i bpdu => exact (stp.moves_receivedBpdu i bpdu).settings
  | setBridgeId bridgeId => exact (stp.moves_changeBridgeId _).settings
  | setBridgePriority newPriority => exact (stp.moves_changeBridgeId _).settings
  | setHelloTime ms => exact settings_updateBridgeTimers { stp with rqHelloTime := ms }
  | setMaxAge ms => exact settings_updateBridgeTimers { stp with rqMaxAge := ms }
  | setForwardDelay ms => exact settings_updateBridgeTimers { stp with rqForwardDelay := ms }
  | getChangedPort =>
    show stp.getChangedPort.1.settings = stp.settings
    unfold getChangedPort
    split <;> rfl
  | portDisable i =>
    show (stp.portDisable i).settings = stp.settings
    unfold portDisable
    -- the port gets a state in which it is disabled, which is no move, but keeps the settings
    split_ifs
    · rw [(moves_reconfigure _ _).settings, settings_modifyPort, settings_setPortState,
        settings_becomeDesignatedPort]
    · rfl
  | portEnable i =>
    show (stp.portEnable i).settings = stp.settings
    unfold portEnable
    split_ifs
    · rfl
    · rw [(moves_portStateSelection _).settings, settings_initializePort]
  | portSetPriority i newPriority => exact stp.settings_portSetPriority i newPriority
  | portSetPathCost i pathCost => exact stp.settings_portSetPathCost i pathCost
  | portSetSpeed i speed => exact stp.settings_portSetPathCost i _
  | portSetChangeDetection i enabled => rfl

/-! ### Runs -/

/-- The bridge behind a list of events. -/
def run (es : List StpEvent) : Stp := es.foldl Stp.next stp

/-- A run changes the settings as it does by themselves. -/
theorem settings_run (es : List StpEvent) :
    (stp.run es).settings = es.foldl StpSettings.next stp.settings := by
  unfold run
  induction es generalizing stp with
  | nil => rfl
  | cons e es ih => rw [List.foldl_cons, List.foldl_cons, ih, settings_next]

end Stp

/-- The settings of a new bridge. -/
def StpSettings.created : StpSettings :=
  StpSettings.updateBridgeTimers
    { bridgeMaxAge := 0
      bridgeHelloTime := 0
      bridgeForwardDelay := 0
      rqMaxAge := 6000
      rqHelloTime := 2000
      rqForwardDelay := 4000
      elapsedRemainder := 0 }

/-- A loop over all ports whose body keeps the settings keeps them. -/
theorem Stp.settings_foldl {body : Stp → StpPortNo → Stp}
    (h : ∀ stp i, (body stp i).settings = stp.settings) (is : List StpPortNo) (stp : Stp) :
    (is.foldl body stp).settings = stp.settings := by
  induction is generalizing stp with
  | nil => rfl
  | cons i is ih => rw [List.foldl_cons, ih, h]

theorem settings_stpCreate (bigEndian : Bool) (bridgeId : StpIdentifier) :
    (stpCreate bigEndian bridgeId).settings = .created := by
  have huse : ∀ (stp : Stp) (root : StpIdentifier),
      { stp.useBridgeTimes with designatedRoot := root }.settings = stp.settings := fun _ _ => rfl
  unfold stpCreate
  rw [Stp.settings_foldl]
  · unfold stpCreateBridge
    rw [huse, Stp.settings_updateBridgeTimers]
    rfl
  · intro stp i
    rw [Stp.settings_initializePort, Stp.settings_modifyPort]

end OfAgent
