import OfAgent.Lib.Transition
import OfAgent.Stp.Handlers

/-!
# Runs of bridges

Which events keep a spanning tree, from any state with one.

* `TreeInfo.Sound`: a spanning tree with costs that do not overflow.
* `TreeInfo.AdmitsPort`, `TreeInfo.AdmitsPortId`, `Stp.Regular`: the events that keep it.
* `Stp.sound_of_reachableVia`, `Stp.spanningTree_of_reachableVia`: it holds in every state of a run
  of such events.
-/

namespace OfAgent

namespace TreeInfo

/-- A spanning tree with costs that do not overflow. -/
structure Sound (t : TreeInfo) : Prop extends SpanningTree t, CostsBounded t

variable {t : TreeInfo} {i : StpPortNo} {f : PortInfo → PortInfo}

/-! ### Changes of a port -/

@[simp]
theorem port_modifyPort_self : (t.modifyPort i f).port i = f (t.port i) := by
  simp [modifyPort]

theorem modifyPort_modifyPort {g : PortInfo → PortInfo} :
    (t.modifyPort i f).modifyPort i g = t.modifyPort i fun p => g (f p) := by
  simp [modifyPort]

theorem port_modifyPort_of_ne {j : StpPortNo} (hj : j ≠ i) :
    (t.modifyPort i f).port j = t.port j := by
  simp [modifyPort, hj]

theorem candidate_modifyPort_self : (t.modifyPort i f).Candidate (some i) ↔
    (f (t.port i)).state ≠ .disabled ∧ ¬ t.bridge.IsDesignatedPort (f (t.port i)) := by
  simp only [Candidate, Enabled, Designated, port_modifyPort_self]
  exact Iff.rfl

theorem candidate_modifyPort_of_ne {j : StpPortNo} (hj : j ≠ i) :
    (t.modifyPort i f).Candidate (some j) ↔ t.Candidate (some j) := by
  simp only [Candidate, Enabled, Designated, port_modifyPort_of_ne hj]
  exact Iff.rfl

/-- When `p` is what the port knows, it is disabled or designated, or its costs are positive, do not
overflow, and may be compared with those of the other candidates. -/
def AdmitsPort (t : TreeInfo) (i : StpPortNo) (p : PortInfo) : Prop :=
  p.state ≠ .disabled → ¬ t.bridge.IsDesignatedPort p →
    0 < p.pathCost.toNat ∧ p.costToRoot < 2 ^ 32 ∧
      ∀ j, j ≠ i → t.Candidate (some j) →
        (p.costToRoot < 2 ^ 31 ↔ (t.port j).costToRoot < 2 ^ 31)

/-- Costs stay bounded when those of the changed port do. -/
theorem CostsBounded.modifyPort (h : t.CostsBounded) (hadmits : t.AdmitsPort i (f (t.port i))) :
    (t.modifyPort i f).CostsBounded := by
  have hself : (t.modifyPort i f).Candidate (some i) → 0 < (f (t.port i)).pathCost.toNat ∧
      (f (t.port i)).costToRoot < 2 ^ 32 ∧ ∀ j, j ≠ i → t.Candidate (some j) →
        ((f (t.port i)).costToRoot < 2 ^ 31 ↔ (t.port j).costToRoot < 2 ^ 31) := by
    intro hi
    obtain ⟨henabled, hnot⟩ := candidate_modifyPort_self.1 hi
    exact hadmits henabled hnot
  constructor
  · intro j hj
    rcases eq_or_ne j i with rfl | hne
    · rw [port_modifyPort_self]
      exact (hself hj).1
    · rw [port_modifyPort_of_ne hne]
      exact h.pathCost_pos j ((candidate_modifyPort_of_ne hne).1 hj)
  · intro j hj
    rcases eq_or_ne j i with rfl | hne
    · rw [port_modifyPort_self]
      exact (hself hj).2.1
    · rw [port_modifyPort_of_ne hne]
      exact h.costToRoot_lt j ((candidate_modifyPort_of_ne hne).1 hj)
  · intro j k hj hk
    rcases eq_or_ne j i with rfl | hji
    · -- the changed port and another one
      rcases eq_or_ne k j with rfl | hkj
      · exact Iff.rfl
      · rw [port_modifyPort_self, port_modifyPort_of_ne hkj]
        exact (hself hj).2.2 k hkj ((candidate_modifyPort_of_ne hkj).1 hk)
    · rcases eq_or_ne k i with rfl | hki
      · rw [port_modifyPort_self, port_modifyPort_of_ne hji]
        exact ((hself hk).2.2 j hji ((candidate_modifyPort_of_ne hji).1 hj)).symm
      · rw [port_modifyPort_of_ne hji, port_modifyPort_of_ne hki]
        exact h.same_sign j k ((candidate_modifyPort_of_ne hji).1 hj)
          ((candidate_modifyPort_of_ne hki).1 hk)

/-- Another port than the root port may leave the candidates. -/
theorem RootBest.modifyPort (h : t.RootBest) (hroot : t.bridge.rootPort ≠ some i)
    (hleaves : (f (t.port i)).state ≠ .disabled → t.bridge.IsDesignatedPort (f (t.port i))) :
    (t.modifyPort i f).RootBest := by
  -- the other candidates are the same
  have hne : ∀ j, (t.modifyPort i f).Candidate (some j) → j ≠ i := by
    rintro j hj rfl
    obtain ⟨henabled, hnot⟩ := candidate_modifyPort_self.1 hj
    exact hnot (hleaves henabled)
  have hcandidate : ∀ c, c ≠ some i → ((t.modifyPort i f).Candidate c ↔ t.Candidate c) ∧
      (t.modifyPort i f).vector c = t.vector c ∧ (t.modifyPort i f).rootVia c = t.rootVia c := by
    intro c hc
    cases c with
    | none => exact ⟨Iff.rfl, rfl, rfl⟩
    | some j =>
      have hj : j ≠ i := fun hji => hc (congrArg some hji)
      simp only [vector, rootVia, port_modifyPort_of_ne hj]
      exact ⟨candidate_modifyPort_of_ne hj, trivial, trivial⟩
  obtain ⟨hiff, hvector, hvia⟩ := hcandidate _ hroot
  refine ⟨hiff.mpr h.candidate, hvia.symm ▸ h.root_eq, fun c hc => ?_⟩
  have hci : c ≠ some i := by
    rintro rfl
    exact hne i hc rfl
  obtain ⟨hiff, hvector', -⟩ := hcandidate c hci
  calc (t.modifyPort i f).vector t.bridge.rootPort = t.vector t.bridge.rootPort := hvector
    _ ≤ t.vector c := h.best c (hiff.mp hc)
    _ = (t.modifyPort i f).vector c := hvector'.symm

/-- The same ports are blocked for the same reasons. -/
theorem SpanningTree.modifyPort (h : t.SpanningTree) (hbest : (t.modifyPort i f).RootBest)
    (hdisabled : (f (t.port i)).state ≠ .disabled → t.Enabled i)
    (hblocking : (f (t.port i)).state = .blocking ↔ (t.port i).state = .blocking)
    (hdesignated : t.Enabled i → (t.bridge.IsDesignatedPort (f (t.port i)) ↔ t.Designated i)) :
    (t.modifyPort i f).SpanningTree where
  toRootBest := hbest
  blocking j hj := by
    unfold Enabled Designated at *
    rcases eq_or_ne j i with rfl | hne
    · rw [port_modifyPort_self] at *
      have hj := hdisabled hj
      rw [hblocking, h.blocking j hj]
      exact and_congr Iff.rfl (not_congr (hdesignated hj).symm)
    · rw [port_modifyPort_of_ne hne] at *
      exact h.blocking j hj

/-- The root port is no port that is disabled or designated. -/
theorem RootBest.rootPort_ne (h : t.RootBest) (hi : t.Enabled i → t.Designated i) :
    t.bridge.rootPort ≠ some i := by
  intro hroot
  have hcandidate := h.candidate
  rw [hroot] at hcandidate
  exact hcandidate.2 (hi hcandidate.1)

/-- Enabling a port leaves the other ports disabled or enabled. -/
theorem enabled_portEnable {j : StpPortNo} (hj : j ≠ i) :
    (t.portEnable i).Enabled j ↔ t.Enabled j := by
  unfold portEnable
  split_ifs
  · exact Iff.rfl
  · rw [(sameButStates_portStateSelection _).enabled j]
    unfold becomeDesignated Enabled
    rw [port_modifyPort_of_ne hj]

theorem CostsBounded.sound_reconfigured (h : t.CostsBounded) : t.reconfigured.Sound where
  toSpanningTree := h.spanningTree_reconfigured
  toCostsBounded := h.reconfigured

/-- The selection of states establishes a spanning tree when the root port is right. -/
theorem CostsBounded.sound_portStateSelection (h : t.CostsBounded) (hbest : t.RootBest) :
    t.portStateSelection.Sound where
  toSpanningTree := hbest.spanningTree_portStateSelection
  toCostsBounded := t.sameButStates_portStateSelection.costsBounded h

/-- A port that becomes designated is no candidate, whatever path it knows. -/
theorem CostsBounded.modifyPort_of_designated (h : t.CostsBounded)
    (hdesignated : t.bridge.IsDesignatedPort (f (t.port i))) : (t.modifyPort i f).CostsBounded :=
  h.modifyPort fun _ hnot => absurd hdesignated hnot

/-- Another bridge identifier leaves the candidates alone. -/
theorem CostsBounded.renamed (h : t.CostsBounded) (newBridgeId : StpIdentifier) :
    (t.renamed newBridgeId).CostsBounded := by
  refine h.of_candidate fun i hi => ?_
  by_cases hdesignated : t.Enabled i ∧ t.Designated i
  · -- a designated port stays one
    have hrenamed : (t.renamed newBridgeId).port i =
        { t.port i with designatedBridge := newBridgeId } := if_pos hdesignated
    refine absurd ?_ hi.2
    unfold Designated
    rw [hrenamed]
    exact ⟨rfl, hdesignated.2.2⟩
  · have hkept : (t.renamed newBridgeId).port i = t.port i := if_neg hdesignated
    have henabled : t.Enabled i := by
      have hi := hi.1
      unfold Enabled at *
      rwa [hkept] at hi
    rw [hkept]
    exact ⟨⟨henabled, fun hd => hdesignated ⟨henabled, hd⟩⟩, rfl, rfl⟩

/-- The progress of a state leaves the tree alone. -/
theorem Sound.progress (h : t.Sound) (i : StpPortNo) :
    (t.modifyPort i fun p => { p with state := p.state.progress }).Sound := by
  have hstate : ∀ state : StpState, (state.progress = .disabled ↔ state = .disabled) ∧
      (state.progress = .blocking ↔ state = .blocking) := by
    intro state
    cases state <;> decide
  have hsame : SameButStates t (t.modifyPort i fun p => { p with state := p.state.progress }) := by
    refine ⟨rfl, fun j => ?_, fun j => ?_⟩
    · rcases eq_or_ne j i with rfl | hj
      · rw [port_modifyPort_self]
      · rw [port_modifyPort_of_ne hj]
    · unfold Enabled
      rcases eq_or_ne j i with rfl | hj
      · rw [port_modifyPort_self]
        exact not_congr (hstate _).1
      · rw [port_modifyPort_of_ne hj]
  refine ⟨?_, hsame.costsBounded h.toCostsBounded⟩
  refine h.toSpanningTree.modifyPort (hsame.rootBest h.toRootBest) ?_ ?_ ?_
  · exact (not_congr (hstate _).1).mp
  · exact (hstate _).2
  · exact fun _ => Iff.rfl

/-! ### Identifiers of ports -/

/-- The identifier of port `j` when that of port `i` is `newPortId`. -/
def portIdWith (t : TreeInfo) (i : StpPortNo) (newPortId : BitVec 16) (j : StpPortNo) : BitVec 16 :=
  if j = i then newPortId else (t.port j).portId

/-- The two ports hear of one root, at one cost, from one port of one bridge. -/
def Tied (t : TreeInfo) (i j : StpPortNo) : Prop :=
  (t.port i).designatedRoot = (t.port j).designatedRoot ∧
    (t.port i).costToRoot = (t.port j).costToRoot ∧
    (t.port i).designatedBridge = (t.port j).designatedBridge ∧
    (t.port i).designatedPort = (t.port j).designatedPort

/-- The new identifier of a port does not matter: the port is disabled or designated, or it keeps
its identifier. Otherwise, if the bridge itself sends messages on the segment of the port, and under
no smaller identifier, the port is not the root port, and its identifier becomes the smallest; if it
does not, the root port has still the smallest identifier among the ports that it is tied with. -/
def AdmitsPortId (t : TreeInfo) (i : StpPortNo) (newPortId : BitVec 16) : Prop :=
  t.Enabled i → ¬ t.Designated i → newPortId ≠ (t.port i).portId →
    if (t.port i).designatedBridge = t.bridge.bridgeId ∧ newPortId ≤ (t.port i).designatedPort then
      newPortId < (t.port i).designatedPort ∧ t.bridge.rootPort ≠ some i
    else ∀ r j, t.bridge.rootPort = some r → t.Candidate (some j) → t.Tied r j →
      t.portIdWith i newPortId r ≤ t.portIdWith i newPortId j

/-- The vector of a port under another identifier. -/
theorem vector_renumber {newPortId : BitVec 16} (j : StpPortNo) (hi : ¬ t.Designated i) :
    (t.modifyPort i (t.bridge.renumber newPortId)).vector (some j) =
      toLex ((t.port j).designatedRoot.toNat, toLex (((t.port j).costToRoot : ℤ),
        toLex ((t.port j).designatedBridge.toNat, toLex ((t.port j).designatedPort.toNat,
          (t.portIdWith i newPortId j).toNat)))) := by
  unfold vector portIdWith
  rcases eq_or_ne j i with rfl | hj
  · have hnot : ¬ t.bridge.IsDesignatedPort (t.port j) := hi
    simp [BridgeInfo.renumber, hnot, PortInfo.vector, PortInfo.vectorAt, PortInfo.costToRoot]
  · simp [port_modifyPort_of_ne hj, hj, PortInfo.vector, PortInfo.vectorAt]

/-- With another identifier the root port stays the best, when it wins all ties. -/
theorem Sound.rootBest_renumber (h : t.Sound) {newPortId : BitVec 16} (hi : ¬ t.Designated i)
    (hother : ¬ t.bridge.IsDesignatedPort (t.bridge.renumber newPortId (t.port i)))
    (hties : ∀ r j, t.bridge.rootPort = some r → t.Candidate (some j) → t.Tied r j →
      t.portIdWith i newPortId r ≤ t.portIdWith i newPortId j) :
    (t.modifyPort i (t.bridge.renumber newPortId)).RootBest := by
  have hcandidate : ∀ c, (t.modifyPort i (t.bridge.renumber newPortId)).Candidate c ↔
      t.Candidate c := by
    intro c
    cases c with
    | none => exact Iff.rfl
    | some j =>
      rcases eq_or_ne j i with rfl | hj
      · rw [candidate_modifyPort_self]
        exact and_congr Iff.rfl (iff_of_true hother hi)
      · exact candidate_modifyPort_of_ne hj
  have hvia : ∀ c, (t.modifyPort i (t.bridge.renumber newPortId)).rootVia c = t.rootVia c := by
    intro c
    cases c with
    | none => rfl
    | some j =>
      unfold rootVia
      rcases eq_or_ne j i with rfl | hj
      · simp only [port_modifyPort_self]
        rfl
      · simp only [port_modifyPort_of_ne hj]
  refine ⟨(hcandidate _).mpr h.candidate, (hvia _).symm ▸ h.root_eq, fun c hc => ?_⟩
  have hc := (hcandidate c).mp hc
  have hbest := h.best c hc
  change (t.modifyPort i _).vector t.bridge.rootPort ≤ _
  -- the costs of ports are positive, so that the identifiers do not matter for the bridge itself
  have hpos : ∀ j, t.Candidate (some j) → 0 < (t.port j).costToRoot := fun j hj =>
    Nat.add_pos_right _ (h.pathCost_pos j hj)
  have hcandidate := h.candidate
  cases hroot : t.bridge.rootPort with
  | none =>
    rw [hroot] at hbest
    cases c with
    | none => exact le_refl _
    | some j =>
      have hj := hpos j hc
      rw [vector_renumber j hi]
      simp only [vector, PortInfo.vector, PortInfo.vectorAt, Prod.Lex.toLex_le_toLex]
        at hbest ⊢
      simp only [modifyPort]
      omega
  | some r =>
    rw [hroot] at hbest hcandidate
    have hr := hpos r hcandidate
    cases c with
    | none =>
      rw [vector_renumber r hi]
      simp only [vector, PortInfo.vector, PortInfo.vectorAt, Prod.Lex.toLex_le_toLex]
        at hbest ⊢
      simp only [modifyPort]
      omega
    | some j =>
      have htie := hties r j hroot hc
      rw [vector_renumber r hi, vector_renumber j hi]
      simp only [Tied, BitVec.le_def, ← BitVec.toNat_inj] at htie
      simp only [vector, PortInfo.vector, PortInfo.vectorAt, Prod.Lex.toLex_le_toLex]
        at hbest ⊢
      omega

/-- A new identifier keeps a spanning tree when it is admitted. -/
theorem Sound.setPortId (h : t.Sound) {newPortId : BitVec 16}
    (hadmits : t.AdmitsPortId i newPortId) :
    (t.setPortId i newPortId).Sound := by
  unfold TreeInfo.setPortId
  dsimp only
  rw [port_modifyPort_self]
  by_cases hid : (t.port i).portId = newPortId
  · rwa [if_pos hid]
  rw [if_neg hid]
  -- the cost of the port is the same, and a designated port stays designated
  have hkeeps : t.Designated i →
      t.bridge.IsDesignatedPort (t.bridge.renumber newPortId (t.port i)) :=
    fun hd => ⟨hd.1, if_pos hd⟩
  have hcosts : (t.modifyPort i (t.bridge.renumber newPortId)).CostsBounded :=
    h.toCostsBounded.modifyPort fun hi hnot =>
      have hcandidate : t.Candidate (some i) := ⟨hi, fun hd => hnot (hkeeps hd)⟩
      ⟨h.pathCost_pos i hcandidate, h.costToRoot_lt i hcandidate,
        fun j _ hj => h.same_sign i j hcandidate hj⟩
  -- when it becomes designated, it has not been the root port
  have hbecomes : t.bridge.rootPort ≠ some i →
      ((t.modifyPort i (t.bridge.renumber newPortId)).modifyPort i
        t.bridge.designated).portStateSelection.Sound := by
    intro hroot
    refine CostsBounded.sound_portStateSelection ?_ ?_
    · exact hcosts.modifyPort_of_designated ⟨rfl, rfl⟩
    · rw [modifyPort_modifyPort]
      exact h.toRootBest.modifyPort hroot fun _ => ⟨rfl, rfl⟩
  by_cases hi : t.Enabled i → t.Designated i
  · split_ifs
    · exact hbecomes (h.rootPort_ne hi)
    · refine ⟨h.toSpanningTree.modifyPort ?_ ?_ Iff.rfl ?_, hcosts⟩
      · exact h.toRootBest.modifyPort (h.rootPort_ne hi) fun he => hkeeps (hi he)
      · exact fun he => he
      · exact fun he => iff_of_true (hkeeps (hi he)) (hi he)
  · obtain ⟨hi, hnot⟩ := Classical.not_imp.mp hi
    have hadmits := hadmits hi hnot (Ne.symm hid)
    have hdesignatedPort : (t.bridge.renumber newPortId (t.port i)).designatedPort =
        (t.port i).designatedPort := if_neg hnot
    rw [hdesignatedPort]
    split_ifs with hless
    · rw [if_pos ⟨hless.1.symm, BitVec.le_of_lt hless.2⟩] at hadmits
      exact hbecomes hadmits.2
    · have hother : ¬ ((t.port i).designatedBridge = t.bridge.bridgeId ∧
          newPortId ≤ (t.port i).designatedPort) := by
        intro hle
        rw [if_pos hle] at hadmits
        exact hless ⟨hle.1.symm, hadmits.1⟩
      rw [if_neg hother] at hadmits
      have hnot' : ¬ t.bridge.IsDesignatedPort (t.bridge.renumber newPortId (t.port i)) := by
        rintro ⟨hbridge, hport⟩
        rw [hdesignatedPort] at hport
        exact hother ⟨hbridge, BitVec.le_of_eq hport.symm⟩
      refine ⟨h.toSpanningTree.modifyPort ?_ ?_ Iff.rfl ?_, hcosts⟩
      · exact h.rootBest_renumber hnot hnot' hadmits
      · exact fun he => he
      · exact fun _ => iff_of_false hnot' hnot

end TreeInfo

namespace Stp

variable {stp : Stp}

/-! ### Events -/

/-- What a message that is recorded says about the path to the root is admitted. -/
def AdmitsMessage (stp : Stp) (i : StpPortNo) (bpdu : List Byte) : Prop :=
  stp.info.Records i bpdu →
    stp.info.AdmitsPort i ((stp.info.port i).record (ConfigBpdu.ofBytes bpdu))

/-- So is another path cost. -/
def AdmitsPathCost (stp : Stp) (i : StpPortNo) (pathCost : BitVec 16) : Prop :=
  stp.info.AdmitsPort i { stp.info.port i with pathCost := pathCost.setWidth 32 }

/-- The events that keep a spanning tree. -/
def Regular (stp : Stp) : StpEvent → Prop
  | .receivedBpdu i bpdu => stp.AdmitsMessage i bpdu
  | .portSetPriority i newPriority =>
      stp.info.AdmitsPortId i ((stp.info.port i).newPortId newPriority)
  | .portSetPathCost i pathCost => stp.AdmitsPathCost i pathCost
  | .portSetSpeed i speed => stp.AdmitsPathCost i (costOfSpeed speed)
  | _ => True

theorem sound_receivedBpdu (h : stp.info.Sound) {i : StpPortNo} {bpdu : List Byte}
    (hadmits : stp.AdmitsMessage i bpdu) : (stp.receivedBpdu i bpdu).info.Sound := by
  rw [info_receivedBpdu, TreeInfo.receivedBpdu]
  split_ifs with hrecords
  · exact (h.toCostsBounded.modifyPort (hadmits hrecords)).sound_reconfigured
  · exact h

theorem sound_changeBridgeId (h : stp.info.Sound) (newBridgeId : StpIdentifier) :
    (stp.changeBridgeId newBridgeId).info.Sound := by
  rw [info_changeBridgeId, TreeInfo.changeBridgeId]
  split_ifs
  · exact (h.renamed newBridgeId).sound_reconfigured
  · exact h

theorem sound_portDisable (h : stp.info.Sound) (i : StpPortNo) :
    (stp.portDisable i).info.Sound := by
  rw [info_portDisable, TreeInfo.portDisable]
  split_ifs
  · refine TreeInfo.CostsBounded.sound_reconfigured ?_
    exact h.modifyPort_of_designated ⟨rfl, rfl⟩
  · exact h

theorem sound_portEnable (h : stp.info.Sound) (i : StpPortNo) :
    (stp.portEnable i).info.Sound := by
  rw [info_portEnable, TreeInfo.portEnable]
  split_ifs with hi
  · exact h
  · refine TreeInfo.CostsBounded.sound_portStateSelection ?_ ?_
    · exact h.modifyPort_of_designated ⟨rfl, rfl⟩
    · exact h.toRootBest.modifyPort (h.rootPort_ne fun he => absurd he hi) fun _ => ⟨rfl, rfl⟩

theorem sound_portSetPathCost (h : stp.info.Sound) {i : StpPortNo} {pathCost : BitVec 16}
    (hadmits : stp.AdmitsPathCost i pathCost) : (stp.portSetPathCost i pathCost).info.Sound := by
  rw [info_portSetPathCost, TreeInfo.portSetPathCost]
  split_ifs
  · refine TreeInfo.CostsBounded.sound_reconfigured ?_
    exact h.toCostsBounded.modifyPort hadmits
  · exact h

/-- A new priority keeps a spanning tree when the new identifier is admitted. -/
theorem sound_portSetPriority (h : stp.info.Sound) {i : StpPortNo} {newPriority : BitVec 8}
    (hadmits : stp.info.AdmitsPortId i ((stp.info.port i).newPortId newPriority)) :
    (stp.portSetPriority i newPriority).info.Sound := by
  rw [info_portSetPriority]
  exact h.setPortId hadmits

/-- The timers keep a spanning tree. -/
theorem sound_tick (h : stp.info.Sound) (ms : ℤ) : (stp.tick ms).info.Sound := by
  have hmessageAge : ∀ (elapsed : ℤ) (stp : Stp) (i : StpPortNo), stp.info.Sound →
      (stp.tickMessageAge elapsed i).info.Sound := by
    intro elapsed stp i h
    rcases stp.info_tickMessageAge elapsed i with heq | heq
    · rwa [heq]
    · rw [heq]
      refine TreeInfo.CostsBounded.sound_reconfigured ?_
      exact h.modifyPort_of_designated ⟨rfl, rfl⟩
  have hport : ∀ (elapsed : ℤ) (stp : Stp) (i : StpPortNo), stp.info.Sound →
      (stp.tickPort elapsed i).info.Sound := by
    intro elapsed stp i h
    rcases stp.info_tickPort elapsed i with heq | heq
    · rwa [heq]
    · rw [heq]
      exact h.progress i
  unfold tick
  dsimp only
  split_ifs
  · exact h
  · refine forEachEnabledPort_induct (P := fun stp => stp.info.Sound) _ ?_ (hport _)
    refine forEachEnabledPort_induct (P := fun stp => stp.info.Sound) _ ?_ (hmessageAge _)
    rw [info_tickBridge]
    exact h

/-- An event that is regular keeps a spanning tree. -/
theorem sound_next (h : stp.info.Sound) (e : StpEvent) (hregular : stp.Regular e) :
    (stp.next e).info.Sound := by
  have htimes : ∀ stp' : Stp, stp'.info = stp.info → stp'.updateBridgeTimers.info.Sound := by
    intro stp' hinfo
    rw [info_updateBridgeTimers, hinfo]
    exact h
  cases e with
  | tick ms => exact sound_tick h ms
  | receivedBpdu i bpdu => exact sound_receivedBpdu h hregular
  | setBridgeId bridgeId => exact sound_changeBridgeId h _
  | setBridgePriority newPriority => exact sound_changeBridgeId h _
  | setHelloTime ms => exact htimes { stp with rqHelloTime := ms } rfl
  | setMaxAge ms => exact htimes { stp with rqMaxAge := ms } rfl
  | setForwardDelay ms => exact htimes { stp with rqForwardDelay := ms } rfl
  | getChangedPort => exact stp.info_getChangedPort.symm ▸ h
  | portDisable i => exact sound_portDisable h i
  | portEnable i => exact sound_portEnable h i
  | portSetPriority i newPriority => exact sound_portSetPriority h hregular
  | portSetPathCost i pathCost => exact sound_portSetPathCost h hregular
  | portSetSpeed i speed => exact sound_portSetPathCost h hregular
  | portSetChangeDetection i enabled => exact (stp.info_portSetChangeDetection i enabled).symm ▸ h

end Stp

/-! ### Runs -/

/-- The tree of a new bridge: it is the root, and all ports are disabled. -/
def TreeInfo.created (bridgeId : StpIdentifier) : TreeInfo where
  bridge := { bridgeId, designatedRoot := bridgeId, rootPathCost := 0, rootPort := none }
  port i :=
    { portId := BitVec.ofNat 16 (i + 1) ||| 0x8000
      state := .disabled
      pathCost := 19
      designatedRoot := bridgeId
      designatedCost := 0
      designatedBridge := bridgeId
      designatedPort := BitVec.ofNat 16 (i + 1) ||| 0x8000 }

theorem toBridgeInfo_stpCreateBridge (bigEndian : Bool) (bridgeId : StpIdentifier) :
    (stpCreateBridge bigEndian bridgeId).toBridgeInfo =
      (TreeInfo.created (withDefaultPriority bridgeId)).bridge := by
  have htimers := fun stp : Stp => congrArg TreeInfo.bridge stp.info_updateBridgeTimers
  have huse : ∀ (stp : Stp) (root : StpIdentifier),
      { stp.useBridgeTimes with designatedRoot := root }.toBridgeInfo =
        { stp.info.bridge with designatedRoot := root } := fun _ _ => rfl
  unfold stpCreateBridge
  rw [huse, htimers]
  rfl

theorem info_stpCreate (bigEndian : Bool) (bridgeId : StpIdentifier) :
    (stpCreate bigEndian bridgeId).info = .created (withDefaultPriority bridgeId) := by
  have hport : ∀ (stp : Stp) (i : StpPortNo), ((stp.modifyPort i fun p => { p with
        portId := BitVec.ofNat 16 (i + 1) ||| 0x8000
        pathCost := 19 }).initializePort i .disabled).info =
      stp.info.modifyPort i fun p => { stp.designated { p with
        portId := BitVec.ofNat 16 (i + 1) ||| 0x8000
        pathCost := 19 } with state := .disabled } := by
    intro stp i
    rw [Stp.info_initializePort, stp.info_modifyPort i (g := fun p => { p with
      portId := BitVec.ofNat 16 (i + 1) ||| 0x8000
      pathCost := 19 }) fun _ => rfl, TreeInfo.becomeDesignated, TreeInfo.modifyPort_modifyPort]
    rfl
  unfold stpCreate
  rw [Stp.info_foldl _ (f := fun b i p => { b.designated { p with
      portId := BitVec.ofNat 16 (i + 1) ||| 0x8000
      pathCost := 19 } with state := .disabled }) hport, toBridgeInfo_stpCreateBridge]
  rfl

/-- The tree of a new bridge is a spanning tree. -/
theorem TreeInfo.sound_created (bridgeId : StpIdentifier) : (TreeInfo.created bridgeId).Sound where
  candidate := trivial
  root_eq := rfl
  best c hc := by
    cases c with
    | none => exact le_refl _
    | some i => exact absurd rfl hc.1
  blocking i hi := absurd rfl hi
  pathCost_pos i hi := absurd rfl hi.1
  costToRoot_lt i hi := absurd rfl hi.1
  same_sign i _ hi := absurd rfl hi.1

/-- In every run of regular events the parameters of the bridge and its ports form a spanning
tree. -/
theorem spanningTree_of_reachableVia (bigEndian : Bool) (bridgeId : StpIdentifier) {stp : Stp}
    (h : Transition.ReachableVia Stp.Step Stp.Regular (stpCreate bigEndian bridgeId) stp) :
    stp.info.SpanningTree := by
  refine (h.invariant (fun stp : Stp => stp.info.Sound) ?_ ?_).toSpanningTree
  · rw [info_stpCreate]
    exact TreeInfo.sound_created _
  · rintro stp e _ hsound hregular rfl
    exact Stp.sound_next hsound e hregular

/-- A message of the bridge 2, which knows of the root 1. -/
def bpduOfBridge2 : List Byte :=
  [0, 0, 0, 0, 0, 0, 0, 0, 0, 0, 0, 0, 1, 0, 0, 0, 0, 0, 0, 0, 0, 0, 0, 0, 2, 0x80, 1, 0, 0, 20, 0,
    2, 0,
    15, 0]

/-- A bridge whose first port hears of this root has a spanning tree with this root port. -/
theorem spanningTree_of_receivedBpdu :
    (((stpCreate true 5).portEnable ⟨0, by decide⟩).receivedBpdu ⟨0, by decide⟩
      bpduOfBridge2).info.SpanningTree ∧
    (((stpCreate true 5).portEnable ⟨0, by decide⟩).receivedBpdu ⟨0, by decide⟩
      bpduOfBridge2).rootPort = some ⟨0, by decide⟩ := by
  have hinfo : ((stpCreate true 5).portEnable ⟨0, by decide⟩).info =
      (TreeInfo.created (withDefaultPriority 5)).portEnable ⟨0, by decide⟩ := by
    rw [Stp.info_portEnable, info_stpCreate]
  refine ⟨spanningTree_of_reachableVia true 5
    (.tail (e := .receivedBpdu ⟨0, by decide⟩ bpduOfBridge2)
      (.tail (e := .portEnable ⟨0, by decide⟩) .refl trivial rfl) (fun _ => ?_) rfl), ?_⟩
  · rw [Stp.next, hinfo]
    refine fun _ _ => ⟨by decide +kernel, by decide +kernel, fun j hj hc => ?_⟩
    -- no other port is enabled
    exact absurd rfl ((TreeInfo.enabled_portEnable hj).1 hc.1)
  · rw [← Stp.info_bridge, Stp.info_receivedBpdu, hinfo]
    decide +kernel

/-- Two ports are enabled and hear of the same root from the same port of the bridge 2. Then the
second port gets a better priority than the first one. -/
def eventsOfTwoPorts : List StpEvent :=
  [.portEnable ⟨0, by decide⟩, .portEnable ⟨1, by decide⟩,
    .receivedBpdu ⟨0, by decide⟩ bpduOfBridge2, .receivedBpdu ⟨1, by decide⟩ bpduOfBridge2,
    .portSetPriority ⟨1, by decide⟩ 0x10]

/-- The tree behind these events. -/
def treeOfTwoPorts : TreeInfo :=
  (((((TreeInfo.created (withDefaultPriority 5)).portEnable ⟨0, by decide⟩).portEnable
    ⟨1, by decide⟩).receivedBpdu ⟨0, by decide⟩ bpduOfBridge2).receivedBpdu
    ⟨1, by decide⟩ bpduOfBridge2).portSetPriority ⟨1, by decide⟩ 0x10

/-- The first port stays the root port, although the second one is the best. -/
theorem not_spanningTree_of_reachable :
    ¬ ∀ (bigEndian : Bool) (bridgeId : StpIdentifier) (stp : Stp),
      Transition.Reachable Stp.Step (stpCreate bigEndian bridgeId) stp → stp.info.SpanningTree := by
  intro h
  have hinfo : (eventsOfTwoPorts.foldl Stp.next (stpCreate true 5)).info = treeOfTwoPorts := by
    rw [eventsOfTwoPorts, List.foldl_cons, List.foldl_cons, List.foldl_cons, List.foldl_cons,
      List.foldl_cons, List.foldl_nil]
    simp only [Stp.next, Stp.info_portSetPriority, Stp.info_receivedBpdu, Stp.info_portEnable,
      info_stpCreate, treeOfTwoPorts]
  have htree := h true 5 _ (Transition.reachable_of_foldl eventsOfTwoPorts _)
  rw [hinfo] at htree
  have hroot : treeOfTwoPorts.bridge.rootPort = some ⟨0, by decide⟩ := by decide +kernel
  have hcandidate : treeOfTwoPorts.Enabled ⟨1, by decide⟩ ∧
      ¬ treeOfTwoPorts.Designated ⟨1, by decide⟩ := by decide +kernel
  have hless : treeOfTwoPorts.vector (some ⟨1, by decide⟩) <
      treeOfTwoPorts.vector (some ⟨0, by decide⟩) := by decide +kernel
  have hbest := htree.best (some ⟨1, by decide⟩) hcandidate
  rw [hroot] at hbest
  exact absurd hless (not_lt_of_ge hbest)

end OfAgent
