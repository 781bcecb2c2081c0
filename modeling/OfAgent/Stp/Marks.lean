import OfAgent.Lib.Worklist
import OfAgent.Stp.Runs
import OfAgent.Stp.Settings

/-!
# Changed ports

The ports whose state has changed, which `stp_get_changed_port` finds one after the other, and what
the functions of `stp.c` do to them, to who is enabled, and to the costs of paths.

* `Stp.worklist`: the marks of the ports that have changed, with `first_changed_port`.
* `Stp.Marks`: no port gets another state without a mark.
* `Stp.Keeps`: moreover, the same ports are enabled, at the same costs.
* `Stp.Moves.keeps`, `Stp.keeps_tick`: messages and timers keep this.
* `Stp.marks_portEnable`, `Stp.marks_portSetPathCost` and so on: what the others do.
-/

namespace OfAgent

namespace Stp

/-- The ports whose state has changed. -/
def worklist (stp : Stp) : Worklist stpMaxPorts :=
  ⟨fun i => (stp.ports i).stateChanged, stp.firstChangedPort⟩

/-- No port gets another state without a mark, and marks stay. -/
structure Marks (stp stp' : Stp) : Prop where
  /-- The host is the same. -/
  bigEndian : stp'.bigEndian = stp.bigEndian
  /-- Marks stay. -/
  marked : ∀ i, stp.worklist.marked i = true → stp'.worklist.marked i = true
  /-- Without a mark the state is the same. -/
  state : ∀ i, stp'.worklist.marked i = false → (stp'.ports i).state = (stp.ports i).state
  /-- No mark gets behind the cursor. -/
  valid : stp.worklist.Valid → stp'.worklist.Valid

/-- Moreover, the same ports are enabled, and their paths have the same costs; the others are not
marked. -/
structure Keeps (stp stp' : Stp) : Prop extends Marks stp stp' where
  /-- The same ports are enabled. -/
  enabled : ∀ i, stp'.Enabled i ↔ stp.Enabled i
  /-- Paths have the same costs. -/
  pathCost : ∀ i, (stp'.ports i).pathCost = (stp.ports i).pathCost
  /-- Disabled ports get no marks. -/
  disabled : ∀ i, ¬ stp.Enabled i → stp'.worklist.marked i = stp.worklist.marked i

/-! ### Composition -/

section Composition

variable {stp stp' stp'' : Stp}

theorem Marks.refl (stp : Stp) : stp.Marks stp := ⟨rfl, fun _ => id, fun _ _ => rfl, id⟩

theorem Marks.trans (h : stp.Marks stp') (h' : stp'.Marks stp'') : stp.Marks stp'' where
  bigEndian := h'.bigEndian.trans h.bigEndian
  marked i hi := h'.marked i (h.marked i hi)
  state i hi := by
    have hi' : stp'.worklist.marked i = false := by
      by_contra hmarked
      rw [h'.marked i (Bool.not_eq_false _ ▸ hmarked)] at hi
      cases hi
    exact (h'.state i hi).trans (h.state i hi')
  valid hvalid := h'.valid (h.valid hvalid)

/-- A port that becomes enabled or disabled is marked. -/
theorem Marks.marked_of_not_iff (h : stp.Marks stp') {i : StpPortNo}
    (hi : ¬ (stp'.Enabled i ↔ stp.Enabled i)) : stp'.worklist.marked i = true := by
  by_contra hmarked
  refine hi ?_
  rw [Enabled, Enabled, h.state i (Bool.not_eq_true _ ▸ hmarked)]

theorem Keeps.refl (stp : Stp) : stp.Keeps stp :=
  ⟨.refl stp, fun _ => Iff.rfl, fun _ => rfl, fun _ _ => rfl⟩

theorem Keeps.trans (h : stp.Keeps stp') (h' : stp'.Keeps stp'') : stp.Keeps stp'' where
  toMarks := h.toMarks.trans h'.toMarks
  enabled i := (h'.enabled i).trans (h.enabled i)
  pathCost i := (h'.pathCost i).trans (h.pathCost i)
  disabled i hi := (h'.disabled i fun hi' => hi ((h.enabled i).1 hi')).trans (h.disabled i hi)

/-- A change of the bridge alone. -/
theorem Keeps.of_eq (hports : stp'.ports = stp.ports)
    (hfirst : stp'.firstChangedPort = stp.firstChangedPort)
    (hbig : stp'.bigEndian = stp.bigEndian) : stp.Keeps stp' := by
  have hwork : stp'.worklist = stp.worklist := by rw [worklist, worklist, hports, hfirst]
  refine ⟨⟨hbig, fun i hi => ?_, fun i _ => ?_, fun hvalid => ?_⟩, fun i => ?_, fun i => ?_,
    fun i _ => ?_⟩
  · rwa [hwork]
  · rw [hports]
  · rwa [hwork]
  · rw [Enabled, Enabled, hports]
  · rw [hports]
  · rw [hwork]

end Composition

variable (stp : Stp)

/-! ### Ports -/

/-- A change of a port that leaves its state alone. -/
theorem marks_modifyPort (i : StpPortNo) {f : StpPort → StpPort}
    (hstate : ∀ p, (f p).state = p.state) (hchanged : ∀ p, (f p).stateChanged = p.stateChanged) :
    stp.Marks (stp.modifyPort i f) := by
  have hmarked : (stp.modifyPort i f).worklist = stp.worklist := by
    show Worklist.mk _ _ = Worklist.mk _ _
    congr 1
    ext j : 1
    exact field_update (fun p => p.stateChanged) (hchanged _) j
  refine ⟨rfl, fun j hj => ?_, fun j _ => ?_, fun hvalid => ?_⟩
  · rwa [hmarked]
  · exact field_update (fun p => p.state) (hstate _) j
  · rwa [hmarked]

/-- A change of a port that leaves its state and the cost of its path alone. -/
theorem keeps_modifyPort (i : StpPortNo) {f : StpPort → StpPort}
    (h : ∀ p, (f p).state = p.state ∧ (f p).pathCost = p.pathCost ∧
      (f p).stateChanged = p.stateChanged) :
    stp.Keeps (stp.modifyPort i f) := by
  refine ⟨stp.marks_modifyPort i (fun p => (h p).1) (fun p => (h p).2.2), fun j => ?_, fun j => ?_,
    fun j _ => ?_⟩
  · exact stp.enabled_modifyPort i (fun p => (h p).1) j
  · exact field_update (fun p => p.pathCost) (h _).2.1 j
  · exact field_update (fun p => p.stateChanged) (h _).2.2 j

/-- A state that is another one is marked. -/
theorem worklist_setPortState (i : StpPortNo) (state : StpState) :
    (stp.setPortState i state).worklist =
      if state ≠ (stp.ports i).state then stp.worklist.mark i else stp.worklist := by
  unfold setPortState worklist Worklist.mark modifyPort
  by_cases hchanged : (stp.ports i).stateChanged
  · simp only [hchanged, Bool.true_eq_false, and_false, if_false, false_and, if_true, ite_self]
    congr 1
    funext j
    by_cases heq : j = i
    · simp [heq, hchanged]
    · simp [heq]
  · rw [Bool.not_eq_true] at hchanged
    by_cases hsame : state = (stp.ports i).state
    · simp only [hsame, ne_eq, not_true_eq_false, false_and, if_false]
      congr 1
      funext j
      by_cases heq : j = i
      · simp [heq]
      · simp [heq]
    · simp only [hchanged, hsame, ne_eq, not_false_eq_true, true_and, and_true, if_true,
        Bool.false_eq_true, if_false]
      congr 1
      funext j
      by_cases heq : j = i
      · simp [heq]
      · simp [heq]

theorem pathCost_setPortState (i j : StpPortNo) (state : StpState) :
    ((stp.setPortState i state).ports j).pathCost = (stp.ports j).pathCost := by
  refine field_update (fun p => p.pathCost) ?_ j
  rfl

theorem marks_setPortState (i : StpPortNo) (state : StpState) :
    stp.Marks (stp.setPortState i state) := by
  refine ⟨rfl, fun j hj => ?_, fun j hj => ?_, fun hvalid => ?_⟩
  · rw [worklist_setPortState]
    split
    next => rw [Worklist.marked_mark, hj, ite_self]
    next => exact hj
  · rw [state_setPortState]
    split
    next heq =>
      -- it is marked unless it has the state
      rw [worklist_setPortState] at hj
      split at hj
      next => rw [Worklist.marked_mark, if_pos heq] at hj; cases hj
      next hsame => rw [heq, not_not.1 hsame]
    next => rfl
  · rw [worklist_setPortState]
    split
    next => exact hvalid.mark i
    next => exact hvalid

/-- An enabled port gets a state in which it is enabled. -/
theorem keeps_setPortState {i : StpPortNo} (hi : stp.Enabled i) {state : StpState}
    (hstate : state ≠ .disabled) :
    stp.Keeps (stp.setPortState i state) := by
  refine ⟨stp.marks_setPortState i state, fun j => ?_, fun j => stp.pathCost_setPortState i j state,
    fun j hj => ?_⟩
  · rw [enabled_setPortState]
    split
    next heq => exact ⟨fun _ => heq ▸ hi, fun _ => hstate⟩
    next => exact Iff.rfl
  · have hne : j ≠ i := fun heq => hj (heq ▸ hi)
    rw [worklist_setPortState]
    split
    next => rw [Worklist.marked_mark, if_neg hne]
    next => rfl

/-- Messages and timers keep all of this. -/
theorem Moves.keeps {stp stp' : Stp} (h : stp.Moves stp') : stp.Keeps stp' := by
  induction h with
  | refl => exact .refl stp
  | changeBridge _ hports hfirst hbig _ ih => exact ih.trans (.of_eq hports hfirst hbig)
  | modifyPort _ i hf ih => exact ih.trans (keeps_modifyPort _ i hf)
  | setPortState _ hi hstate ih => exact ih.trans (keeps_setPortState _ hi hstate)

theorem keeps_tick (ms : ℤ) : stp.Keeps (stp.tick ms) := by
  have hkept : stp.Keeps
      { stp with elapsedRemainder := msToTimerRemainder (stp.settings.tickMs ms) } :=
    .of_eq rfl rfl rfl
  exact hkept.trans (stp.moves_tick ms).keeps

/-! ### Enabling and disabling -/

/-- A port that gets any state, like `stp_initialize_port` and `stp_port_disable` give it one. -/
theorem marks_redesignate (i : StpPortNo) (state : StpState) {f : StpPort → StpPort}
    (hf : ∀ p, (f p).state = p.state ∧ (f p).pathCost = p.pathCost ∧
      (f p).stateChanged = p.stateChanged) :
    let redesignated := ((stp.becomeDesignatedPort i).setPortState i state).modifyPort i f
    stp.Marks redesignated ∧
      (∀ j, redesignated.Enabled j ↔ if j = i then state ≠ .disabled else stp.Enabled j) ∧
      ∀ j, (redesignated.ports j).pathCost = (stp.ports j).pathCost := by
  have hdesignated := (stp.moves_becomeDesignatedPort i).keeps
  have hstate := (stp.becomeDesignatedPort i).marks_setPortState i state
  have hrest := ((stp.becomeDesignatedPort i).setPortState i state).keeps_modifyPort i hf
  refine ⟨hdesignated.toMarks.trans (hstate.trans hrest.toMarks), fun j => ?_, fun j => ?_⟩
  · rw [hrest.enabled, enabled_setPortState]
    split
    next => rfl
    next => exact hdesignated.enabled j
  · rw [hrest.pathCost, pathCost_setPortState, hdesignated.pathCost]

theorem marks_initializePort (i : StpPortNo) (state : StpState) :
    stp.Marks (stp.initializePort i state) ∧
      (∀ j, (stp.initializePort i state).Enabled j ↔
        if j = i then state ≠ .disabled else stp.Enabled j) ∧
      ∀ j, ((stp.initializePort i state).ports j).pathCost = (stp.ports j).pathCost :=
  stp.marks_redesignate i state fun _ => ⟨rfl, rfl, rfl⟩

/-- `stp_port_enable` enables the port. -/
theorem marks_portEnable (i : StpPortNo) :
    stp.Marks (stp.portEnable i) ∧ (∀ j, (stp.portEnable i).Enabled j ↔ j = i ∨ stp.Enabled j) ∧
      ∀ j, ((stp.portEnable i).ports j).pathCost = (stp.ports j).pathCost := by
  unfold portEnable
  split
  next hi =>
    exact ⟨.refl stp, fun j => ⟨.inr, fun h => h.elim (fun heq => heq ▸ hi) id⟩, fun _ => rfl⟩
  next hi =>
    obtain ⟨hmarks, henabled, hcost⟩ := stp.marks_initializePort i .blocking
    have hselected := (stp.initializePort i .blocking).moves_portStateSelection.keeps
    refine ⟨hmarks.trans hselected.toMarks, fun j => ?_, fun j => ?_⟩
    · rw [hselected.enabled, henabled]
      split
      next heq => exact ⟨fun _ => .inl heq, fun _ => StpState.noConfusion⟩
      next hne => exact ⟨.inr, fun h => h.resolve_left hne⟩
    · rw [hselected.pathCost, hcost]

/-- `stp_port_disable` disables the port. -/
theorem marks_portDisable (i : StpPortNo) :
    stp.Marks (stp.portDisable i) ∧ (∀ j, (stp.portDisable i).Enabled j ↔ j ≠ i ∧ stp.Enabled j) ∧
      ∀ j, ((stp.portDisable i).ports j).pathCost = (stp.ports j).pathCost := by
  unfold portDisable
  split
  next hi =>
    dsimp only
    obtain ⟨hmarks, henabled, hcost⟩ := stp.marks_redesignate i .disabled (f := fun p => { p with
      topologyChangeAck := false
      configPending := false
      messageAgeTimer := p.messageAgeTimer.stop
      forwardDelayTimer := p.forwardDelayTimer.stop }) fun _ => ⟨rfl, rfl, rfl⟩
    generalize ((stp.becomeDesignatedPort i).setPortState i .disabled).modifyPort i _ = disabled
      at hmarks henabled hcost ⊢
    have hreconfigured := (disabled.moves_reconfigure stp.IsRootBridge).keeps
    refine ⟨hmarks.trans hreconfigured.toMarks, fun j => ?_, fun j => ?_⟩
    · rw [hreconfigured.enabled, henabled]
      split
      next heq => exact ⟨fun h => absurd rfl h, fun h => absurd heq h.1⟩
      next hne => exact ⟨fun h => ⟨hne, h⟩, And.right⟩
    · rw [hreconfigured.pathCost, hcost]
  next hi =>
    exact ⟨.refl stp, fun j => ⟨fun h => ⟨fun heq => hi (heq ▸ h), h⟩, And.right⟩, fun _ => rfl⟩

/-- `stp_port_set_path_cost` sets the cost of the path. -/
theorem marks_portSetPathCost (i : StpPortNo) (pathCost : BitVec 16) :
    stp.Marks (stp.portSetPathCost i pathCost) ∧
      (∀ j, (stp.portSetPathCost i pathCost).Enabled j ↔ stp.Enabled j) ∧
      ∀ j, ((stp.portSetPathCost i pathCost).ports j).pathCost =
        if j = i then pathCost.setWidth 32 else (stp.ports j).pathCost := by
  unfold portSetPathCost
  split
  next hi =>
    have hmarks : stp.Marks
        (stp.modifyPort i fun p => { p with pathCost := pathCost.setWidth 32 }) :=
      stp.marks_modifyPort i (fun _ => rfl) fun _ => rfl
    have henabled := stp.enabled_modifyPort i
      (f := fun p => { p with pathCost := pathCost.setWidth 32 }) fun _ => rfl
    have hcost : ∀ j,
        ((stp.modifyPort i fun p => { p with pathCost := pathCost.setWidth 32 }).ports j).pathCost =
        if j = i then pathCost.setWidth 32 else (stp.ports j).pathCost := fun j => by
      by_cases heq : j = i
      · simp [modifyPort, heq]
      · simp [modifyPort, heq]
    generalize (stp.modifyPort i fun p => { p with pathCost := pathCost.setWidth 32 }) = changed
      at hmarks henabled hcost ⊢
    -- behind the new cost the ports are selected anew, as messages do
    have hselected := (changed.moves_configurationUpdate.trans (moves_portStateSelection _)).keeps
    refine ⟨hmarks.trans hselected.toMarks, fun j => (hselected.enabled j).trans (henabled j),
      fun j => ?_⟩
    rw [hselected.pathCost, hcost]
  next hsame =>
    refine ⟨.refl stp, fun _ => Iff.rfl, fun j => ?_⟩
    split
    next heq => rw [heq, not_not.1 hsame]
    next => rfl

/-! ### The changed ports -/

/-- `stp_get_changed_port` takes the first mark. -/
theorem worklist_getChangedPort :
    stp.getChangedPort.2 = stp.worklist.next ∧
      stp.getChangedPort.1.worklist = stp.worklist.take := by
  unfold getChangedPort Worklist.take Worklist.next worklist
  dsimp only
  split
  next i hfound =>
    refine ⟨hfound.symm, ?_⟩
    rw [hfound]
    show Worklist.mk _ _ = Worklist.mk _ _
    congr 1
    funext j
    by_cases heq : j = i
    · simp [modifyPort, heq]
    · simp [modifyPort, heq]
  next hnone =>
    refine ⟨hnone.symm, ?_⟩
    rw [hnone]

/-- Nothing but the marks changes. -/
theorem getChangedPort_same (i : StpPortNo) :
    stp.getChangedPort.1.bigEndian = stp.bigEndian ∧
      (stp.getChangedPort.1.ports i).state = (stp.ports i).state ∧
      (stp.getChangedPort.1.ports i).pathCost = (stp.ports i).pathCost := by
  unfold getChangedPort
  split
  next j _ =>
    refine ⟨rfl, field_update (fun p => p.state) ?_ i, field_update (fun p => p.pathCost) ?_ i⟩
    all_goals rfl
  next => exact ⟨rfl, rfl, rfl⟩

/-- `stp_create` marks the ports to which it gives a state. -/
theorem marks_stpCreate (bigEndian : Bool) (bridgeId : StpIdentifier) :
    (stpCreateBridge bigEndian bridgeId).Marks (stpCreate bigEndian bridgeId) := by
  have hinitialized : ∀ (stp : Stp) (i : StpPortNo), stp.Marks ((stp.modifyPort i fun p => { p with
      portId := BitVec.ofNat 16 (i + 1) ||| 0x8000
      pathCost := 19 }).initializePort i .disabled) := fun stp i => by
    refine .trans ?_ (marks_initializePort _ i .disabled).1
    exact stp.marks_modifyPort i (fun _ => rfl) fun _ => rfl
  exact List.foldlRecOn _ _ (Marks.refl _) fun stp h i _ => h.trans (hinitialized stp i)

/-- In front of the loop of `stp_create` no port has a state or a mark. -/
theorem fresh_stpCreateBridge (bigEndian : Bool) (bridgeId : StpIdentifier) :
    (stpCreateBridge bigEndian bridgeId).bigEndian = bigEndian ∧
      (stpCreateBridge bigEndian bridgeId).ports = fun _ => .zero := by
  unfold stpCreateBridge updateBridgeTimers
  dsimp only
  split_ifs
  · exact ⟨rfl, rfl⟩
  · exact ⟨rfl, rfl⟩

/-- No mark of a new bridge is behind the cursor. -/
theorem valid_stpCreate (bigEndian : Bool) (bridgeId : StpIdentifier) :
    (stpCreate bigEndian bridgeId).bigEndian = bigEndian ∧
      (stpCreate bigEndian bridgeId).worklist.Valid := by
  obtain ⟨hbig, hports⟩ := fresh_stpCreateBridge bigEndian bridgeId
  have hmarks := marks_stpCreate bigEndian bridgeId
  refine ⟨hmarks.bigEndian.trans hbig, hmarks.valid fun i hi => ?_⟩
  rw [worklist, hports] at hi
  exact absurd hi Bool.false_ne_true

end Stp

end OfAgent
