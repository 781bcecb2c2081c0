import OfAgent.Stp.Runs

/-!
# What every event keeps

Facts about the tree of a bridge that hold in every run: the selections establish them, whatever the
tree was before, and the other functions of `stp.c` keep them.

* `TreeInfo.Kept`: a property with this; `TreeInfo.Kept.next`: every event keeps it.
* `TreeInfo.kept_rootLe`: no bridge takes a bridge with a greater identifier than its own for the
  root.
* `TreeInfo.kept_numbered`: the identifiers of ports are told apart by their numbers.
* `TreeInfo.Announcing`, `TreeInfo.kept_announcing`: every port that is to be designated is, with
  the root and the cost that the bridge claims.
-/

namespace OfAgent

/-- The rule for `stp_tick`: what is kept when the information of a port is too old and when a
forward delay timer expires is kept. -/
theorem Stp.info_tick_induct {stp : Stp} {P : TreeInfo → Prop} (h : P stp.info)
    (hold : ∀ {t : TreeInfo} (i : StpPortNo), P t →
      P (t.modifyPort i t.bridge.designated).reconfigured)
    (hprogress : ∀ {t : TreeInfo} (i : StpPortNo), P t →
      P (t.modifyPort i fun p => { p with state := p.state.progress })) (ms : ℤ) :
    P (stp.tick ms).info := by
  unfold tick
  dsimp only
  split_ifs
  · exact h
  · refine forEachEnabledPort_induct (P := fun stp => P stp.info) _ ?_ fun stp i h => ?_
    · refine forEachEnabledPort_induct (P := fun stp => P stp.info) _ ?_ fun stp i h => ?_
      · rw [info_tickBridge]
        exact h
      · rcases stp.info_tickMessageAge _ i with heq | heq
        · rwa [heq]
        · exact heq ▸ hold i h
    · rcases stp.info_tickPort _ i with heq | heq
      · rwa [heq]
      · exact heq ▸ hprogress i h

namespace TreeInfo

/-- The selections establish a property that the numbers of the ports had, and the other functions
keep it when `ok` says so of a new priority. -/
structure Kept (ok : TreeInfo → StpPortNo → BitVec 8 → Prop) (P : TreeInfo → Prop) : Prop where
  /-- Both selections. -/
  reconfigured : ∀ {t t' : TreeInfo}, P t → (∀ i, (t'.port i).portId = (t.port i).portId) →
    P t'.reconfigured
  /-- The expiry of a forward delay timer. -/
  progress : ∀ {t : TreeInfo} (i : StpPortNo), P t →
    P (t.modifyPort i fun p => { p with state := p.state.progress })
  /-- `stp_port_enable`. -/
  portEnable : ∀ {t : TreeInfo} (i : StpPortNo), P t → P (t.portEnable i)
  /-- `stp_port_set_priority`. -/
  portSetPriority : ∀ {t : TreeInfo} {i : StpPortNo} {newPriority : BitVec 8},
    ok t i newPriority → P t → P (t.portSetPriority i newPriority)

/-- A change of a port that leaves its identifier alone. -/
theorem portId_modifyPort {t : TreeInfo} {i : StpPortNo} {f : PortInfo → PortInfo}
    (hf : ∀ p, (f p).portId = p.portId) (j : StpPortNo) :
    ((t.modifyPort i f).port j).portId = (t.port j).portId := by
  rcases eq_or_ne j i with rfl | hj
  · rw [port_modifyPort_self, hf]
  · rw [port_modifyPort_of_ne hj]

/-- Another identifier of the bridge leaves those of the ports alone. -/
theorem portId_renamed {t : TreeInfo} (newBridgeId : StpIdentifier) (i : StpPortNo) :
    ((t.renamed newBridgeId).port i).portId = (t.port i).portId := by
  unfold renamed
  dsimp only
  split_ifs <;> rfl

namespace Kept

variable {ok : TreeInfo → StpPortNo → BitVec 8 → Prop} {P : TreeInfo → Prop} (hP : Kept ok P)
  {stp : Stp}

include hP

theorem changeBridgeId (h : P stp.info) (newBridgeId : StpIdentifier) :
    P (stp.changeBridgeId newBridgeId).info := by
  rw [Stp.info_changeBridgeId, TreeInfo.changeBridgeId]
  split_ifs
  · exact hP.reconfigured h (portId_renamed newBridgeId)
  · exact h

theorem portSetPathCost (h : P stp.info) (i : StpPortNo) (pathCost : BitVec 16) :
    P (stp.portSetPathCost i pathCost).info := by
  rw [Stp.info_portSetPathCost, TreeInfo.portSetPathCost]
  split_ifs
  · exact hP.reconfigured h (portId_modifyPort fun _ => rfl)
  · exact h

/-- Every event. -/
theorem next (h : P stp.info) (e : StpEvent)
    (hok : ∀ i newPriority, e = .portSetPriority i newPriority → ok stp.info i newPriority) :
    P (stp.next e).info := by
  have htimers : ∀ stp' : Stp, stp'.info = stp.info → P stp'.updateBridgeTimers.info := by
    intro stp' hinfo
    rw [Stp.info_updateBridgeTimers, hinfo]
    exact h
  cases e with
  | tick ms =>
    exact Stp.info_tick_induct h (fun _ h => hP.reconfigured h (portId_modifyPort fun _ => rfl))
      hP.progress ms
  | receivedBpdu i bpdu =>
    rw [Stp.next, Stp.info_receivedBpdu, TreeInfo.receivedBpdu]
    split_ifs
    · exact hP.reconfigured h (portId_modifyPort fun _ => rfl)
    · exact h
  | setBridgeId bridgeId => exact hP.changeBridgeId h _
  | setBridgePriority newPriority => exact hP.changeBridgeId h _
  | setHelloTime ms => exact htimers { stp with rqHelloTime := ms } rfl
  | setMaxAge ms => exact htimers { stp with rqMaxAge := ms } rfl
  | setForwardDelay ms => exact htimers { stp with rqForwardDelay := ms } rfl
  | getChangedPort => exact stp.info_getChangedPort.symm ▸ h
  | portDisable i =>
    rw [Stp.next, Stp.info_portDisable, TreeInfo.portDisable]
    split_ifs
    · exact hP.reconfigured h (portId_modifyPort fun _ => rfl)
    · exact h
  | portEnable i =>
    rw [Stp.next, Stp.info_portEnable]
    exact hP.portEnable i h
  | portSetPriority i newPriority =>
    rw [Stp.next, Stp.info_portSetPriority]
    exact hP.portSetPriority (hok i newPriority rfl) h
  | portSetPathCost i pathCost => exact hP.portSetPathCost h i pathCost
  | portSetSpeed i speed => exact hP.portSetPathCost h i _
  | portSetChangeDetection i enabled => exact (stp.info_portSetChangeDetection i enabled).symm ▸ h

end Kept

/-! ### Roots -/

variable {t : TreeInfo}

/-- The bridge does not take a bridge with a greater identifier than its own for the root. -/
def RootLe (t : TreeInfo) : Prop := t.bridge.designatedRoot ≤ t.bridge.bridgeId

/-- Both selections leave the identifier alone, and find a root that is not greater. -/
theorem rootLe_reconfigured (t : TreeInfo) : t.reconfigured.RootLe := by
  show (t.bridgeVia t.selectedRoot).designatedRoot ≤ (t.bridgeVia t.selectedRoot).bridgeId
  cases hroot : t.selectedRoot with
  | none => exact BitVec.le_refl _
  | some r => exact BitVec.le_of_lt (rootCandidate_of_selectedRoot hroot).2.2

/-- `stp_port_set_priority` leaves the bridge alone. -/
theorem bridge_portSetPriority (i : StpPortNo) (newPriority : BitVec 8) :
    (t.portSetPriority i newPriority).bridge = t.bridge := by
  unfold portSetPriority setPortId
  dsimp only
  split_ifs <;> rfl

/-- The root is not greater in any run. -/
theorem kept_rootLe : Kept (fun _ _ _ => True) RootLe where
  reconfigured _ _ := rootLe_reconfigured _
  progress _ h := h
  portEnable {t} i h := by
    unfold TreeInfo.portEnable
    split_ifs
    · exact h
    · exact h
  portSetPriority {t} i newPriority _ h := by
    unfold RootLe
    rw [bridge_portSetPriority]
    exact h

/-! ### Identifiers of ports -/

/-- Behind its priority, the identifier of a port has the number of the port. -/
def Numbered (t : TreeInfo) : Prop := ∀ i, (t.port i).portId.setWidth 8 = BitVec.ofNat 8 (i + 1)

/-- Ports that have numbers have different identifiers. -/
theorem Numbered.eq_of_portId (h : t.Numbered) {i j : StpPortNo}
    (hid : (t.port i).portId = (t.port j).portId) : i = j := by
  have heq : BitVec.ofNat 8 (i + 1) = BitVec.ofNat 8 (j + 1) := by rw [← h i, ← h j, hid]
  have hnat := congrArg BitVec.toNat heq
  have hi := i.2
  have hj := j.2
  unfold stpMaxPorts at hi hj
  rw [BitVec.toNat_ofNat, BitVec.toNat_ofNat, Nat.mod_eq_of_lt (by omega),
    Nat.mod_eq_of_lt (by omega)] at hnat
  exact Fin.ext (Nat.succ.inj hnat)

/-- A change of a port that leaves its number alone. -/
theorem Numbered.modifyPort (h : t.Numbered) {i : StpPortNo} {f : PortInfo → PortInfo}
    (hf : (f (t.port i)).portId.setWidth 8 = (t.port i).portId.setWidth 8) :
    (t.modifyPort i f).Numbered := by
  intro j
  rcases eq_or_ne j i with rfl | hj
  · rw [port_modifyPort_self, hf, h j]
  · rw [port_modifyPort_of_ne hj, h j]

theorem portId_portStateSelection (i : StpPortNo) :
    (t.portStateSelection.port i).portId = (t.port i).portId := by
  rw [t.sameButStates_portStateSelection.port i]

theorem portId_reconfigured (i : StpPortNo) :
    (t.reconfigured.port i).portId = (t.port i).portId := by
  rw [reconfigured, portId_portStateSelection, port_configurationUpdate]
  split_ifs <;> rfl

/-- A priority takes the place of the other one. -/
theorem setWidth_newPortId (p : PortInfo) (newPriority : BitVec 8) :
    (p.newPortId newPriority).setWidth 8 = p.portId.setWidth 8 := by
  have hmask : ∀ k : Fin 8, (255#8)[k.val] = true := by decide
  apply BitVec.eq_of_getLsbD_eq
  intro k hk
  have hbit := hmask ⟨k, hk⟩
  simp [PortInfo.newPortId, hk, hbit]

/-- The identifiers have the numbers of the ports in every run. -/
theorem kept_numbered : Kept (fun _ _ _ => True) Numbered where
  reconfigured h hid i := by rw [portId_reconfigured, hid, h i]
  progress i h := h.modifyPort rfl
  portEnable {t} i h := by
    unfold TreeInfo.portEnable
    split_ifs
    · exact h
    · have hdesignated : (t.becomeDesignated i .blocking).Numbered := h.modifyPort rfl
      intro j
      rw [portId_portStateSelection, hdesignated j]
  portSetPriority {t i newPriority} _ h := by
    have hrenumbered : Numbered (t.modifyPort i
        (t.bridge.renumber ((t.port i).newPortId newPriority))) :=
      h.modifyPort (setWidth_newPortId _ _)
    unfold TreeInfo.portSetPriority setPortId
    dsimp only
    split_ifs
    · exact h
    · intro j
      rw [portId_portStateSelection, hrenumbered.modifyPort rfl j]
    · exact hrenumbered

/-! ### Designated ports -/

theorem SameButStates.refl (t : TreeInfo) : SameButStates t t :=
  ⟨rfl, fun _ => rfl, fun _ => Iff.rfl⟩

/-- The expiry of a forward delay timer changes a state, but disables no port. -/
theorem SameButStates.progress {t' : TreeInfo} (hsame : SameButStates t t') (i : StpPortNo) :
    SameButStates t (t'.modifyPort i fun p => { p with state := p.state.progress }) := by
  refine ⟨hsame.bridge, fun j => ?_, fun j => ?_⟩
  · rcases eq_or_ne j i with rfl | hj
    · rw [port_modifyPort_self]
      exact congrArg (fun p : PortInfo => { p with state := (t'.port j).state.progress })
        (hsame.port j)
    · rw [port_modifyPort_of_ne hj]
      exact hsame.port j
  · rw [← hsame.enabled j]
    unfold Enabled
    rcases eq_or_ne j i with rfl | hj
    · rw [port_modifyPort_self]
      cases (t'.port j).state <;> simp [StpState.progress]
    · rw [port_modifyPort_of_ne hj]

/-- Every port that `stp_designated_port_selection` would designate is designated, with the root and
the cost that the bridge claims. -/
def Announcing (t : TreeInfo) : Prop :=
  ∀ i, t.Enabled i → t.bridge.Designates (t.port i) → t.bridge.designated (t.port i) = t.port i

theorem SameButStates.announcing {t' : TreeInfo} (hsame : SameButStates t t') (h : t.Announcing) :
    t'.Announcing := by
  intro i hi hd
  rw [hsame.bridge, hsame.port i] at hd
  have heq := h i ((hsame.enabled i).1 hi) hd
  rw [hsame.bridge, hsame.port i]
  exact congrArg (fun p : PortInfo => { p with state := (t'.port i).state }) heq

/-- `stp_designated_port_selection` designates the ports. -/
theorem announcing_configurationUpdate (t : TreeInfo) : t.configurationUpdate.Announcing := by
  intro i hi hd
  have hi := (t.enabled_configurationUpdate i).1 hi
  rw [bridge_configurationUpdate, port_configurationUpdate] at *
  split_ifs at hd ⊢ with hdesignates
  · rfl
  · exact absurd ⟨hi, hd⟩ hdesignates

/-- A port that becomes designated announces what the bridge claims. -/
theorem Announcing.modifyPort (h : t.Announcing) {i : StpPortNo} {f : PortInfo → PortInfo}
    (hf : (f (t.port i)).state ≠ .disabled → t.bridge.Designates (f (t.port i)) →
      t.bridge.designated (f (t.port i)) = f (t.port i)) : (t.modifyPort i f).Announcing := by
  intro j hj hd
  unfold Enabled at hj
  rcases eq_or_ne j i with rfl | hne
  · rw [port_modifyPort_self] at hj hd ⊢
    exact hf hj hd
  · rw [port_modifyPort_of_ne hne] at hj hd ⊢
    exact h j hj hd

/-- Every port that is to be designated is, in every run in which new priorities are admitted. -/
theorem kept_announcing : Kept
    (fun t i newPriority => t.AdmitsPortId i ((t.port i).newPortId newPriority)) Announcing where
  reconfigured {t t'} _ _ :=
    (sameButStates_portStateSelection _).announcing (announcing_configurationUpdate t')
  progress i h := ((SameButStates.refl _).progress i).announcing h
  portEnable {t} i h := by
    unfold TreeInfo.portEnable
    split_ifs
    · exact h
    · exact (sameButStates_portStateSelection _).announcing (h.modifyPort fun _ _ => rfl)
  portSetPriority {t i newPriority} hadmits h := by
    unfold TreeInfo.portSetPriority
    generalize (t.port i).newPortId newPriority = newPortId at hadmits ⊢
    unfold setPortId
    dsimp only
    rw [port_modifyPort_self]
    by_cases hid : (t.port i).portId = newPortId
    · rwa [if_pos hid]
    rw [if_neg hid]
    split_ifs with hless
    · refine (sameButStates_portStateSelection _).announcing ?_
      rw [modifyPort_modifyPort]
      exact h.modifyPort fun _ _ => rfl
    · refine h.modifyPort fun hi hd => ?_
      by_cases hnot : t.Designated i
      · -- the port announces the same under another identifier
        have heq := h i hi (.inl hnot)
        have hnew : t.bridge.renumber newPortId (t.port i) =
            { t.port i with portId := newPortId, designatedPort := newPortId } := by
          unfold Designated at hnot
          rw [BridgeInfo.renumber, if_pos hnot]
        rw [hnew]
        exact congrArg
          (fun p : PortInfo => { p with portId := newPortId, designatedPort := newPortId }) heq
      · have hport : (t.bridge.renumber newPortId (t.port i)).designatedPort =
            (t.port i).designatedPort := if_neg hnot
        rw [hport] at hless
        have hother : ¬ ((t.port i).designatedBridge = t.bridge.bridgeId ∧
            newPortId ≤ (t.port i).designatedPort) := by
          intro hle
          have hadmits := hadmits hi hnot (Ne.symm hid)
          rw [if_pos hle] at hadmits
          exact hless ⟨hle.1.symm, hadmits.1⟩
        -- a port that would be designated now would have been before
        have hbefore : t.bridge.Designates (t.port i) := by
          rcases hd with hd | hd | hd | ⟨hcost, hd | hd⟩
          · rw [BridgeInfo.IsDesignatedPort, hport] at hd
            exact absurd ⟨hd.1, BitVec.le_of_eq hd.2.symm⟩ hother
          · exact .inr (.inl hd)
          · exact .inr (.inr (.inl hd))
          · exact .inr (.inr (.inr ⟨hcost, .inl hd⟩))
          · rw [hport] at hd
            exact absurd ⟨hd.1.symm, hd.2⟩ hother
        have heq := h i hi hbefore
        exact absurd ⟨congrArg PortInfo.designatedBridge heq.symm,
          congrArg PortInfo.designatedPort heq.symm⟩ hnot

end TreeInfo

end OfAgent
