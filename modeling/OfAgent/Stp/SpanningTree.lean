import Mathlib.Data.Prod.Lex
import OfAgent.Stp.Selection

/-!
# Spanning trees

When the parameters of a bridge and its ports form a spanning tree, and how the selections of
`stp.c` restore it.

* `PortInfo.vector`, `TreeInfo.vector`: priority vectors, in lexicographic order.
* `TreeInfo.RootBest`: the root port has the best vector; `TreeInfo.SpanningTree`: moreover exactly
  the ports that are neither the root port nor designated are blocked.
* `TreeInfo.CostsBounded`: costs that do not overflow, and may be compared.
* `TreeInfo.rootBest_configurationUpdate`, `TreeInfo.blocking_portStateSelection`: what the
  selections establish.
-/

namespace OfAgent

/-! ### Priority vectors -/

/-- Priority vectors: a root, the cost of the path to it, the bridge and the port that announce it,
and the port that hears of it. -/
abbrev PriorityVector : Type := ℕ ×ₗ ℤ ×ₗ ℕ ×ₗ ℕ ×ₗ ℕ

namespace PortInfo

variable (p : PortInfo)

/-- The vector of a port through which the path to the root costs `cost`. -/
def vectorAt (cost : ℤ) : PriorityVector :=
  toLex (p.designatedRoot.toNat, toLex (cost, toLex (p.designatedBridge.toNat,
    toLex (p.designatedPort.toNat, p.portId.toNat))))

/-- The cost of the path to the root through the port. -/
def costToRoot : ℕ := p.designatedCost.toNat + p.pathCost.toNat

/-- The vector of a port. -/
def vector : PriorityVector := p.vectorAt p.costToRoot

/-- `stp_supersedes_root` compares vectors with the cost as the code computes it. -/
theorem supersedesRoot_iff (root : PortInfo) :
    root.SupersedesRoot p ↔ p.vectorAt p.cost.toInt < root.vectorAt root.cost.toInt := by
  have hcost : p.cost.toInt = root.cost.toInt ↔ p.cost.toNat = root.cost.toNat :=
    BitVec.toInt_inj.trans BitVec.toNat_inj.symm
  unfold SupersedesRoot vectorAt
  simp only [Prod.Lex.toLex_lt_toLex, BitVec.lt_def, ne_eq,
    ← BitVec.toNat_inj]
  split_ifs <;> omega

/-- The cost that the code computes is the cost, as long as it does not overflow. -/
theorem toNat_cost (h : p.costToRoot < 2 ^ 32) : p.cost.toNat = p.costToRoot := by
  unfold costToRoot at *
  rw [cost, BitVec.toNat_add, Nat.mod_eq_of_lt h]

/-- As an `int` it is negative from `2 ^ 31` on. -/
theorem toInt_cost (h : p.costToRoot < 2 ^ 32) :
    p.cost.toInt = if p.costToRoot < 2 ^ 31 then (p.costToRoot : ℤ) else p.costToRoot - 2 ^ 32 := by
  have hcost := p.toNat_cost h
  rw [BitVec.toInt_eq_toNat_cond, hcost]
  split_ifs <;> omega

/-- Vectors are compared rightly when both costs are negative so, or neither is. -/
theorem vector_le_of_vectorAt_le {q : PortInfo} (hp : p.costToRoot < 2 ^ 32)
    (hq : q.costToRoot < 2 ^ 32) (hsame : p.costToRoot < 2 ^ 31 ↔ q.costToRoot < 2 ^ 31)
    (h : p.vectorAt p.cost.toInt ≤ q.vectorAt q.cost.toInt) : p.vector ≤ q.vector := by
  rw [p.toInt_cost hp, q.toInt_cost hq] at h
  by_cases hsign : q.costToRoot < 2 ^ 31
  · rw [if_pos hsign, if_pos (hsame.2 hsign)] at h
    exact h
  · rw [if_neg hsign, if_neg (mt hsame.1 hsign)] at h
    simp only [vector, vectorAt, Prod.Lex.toLex_le_toLex] at h ⊢
    omega

end PortInfo

namespace TreeInfo

variable (t : TreeInfo)

/-- The vector of the bridge itself, or of a port. -/
def vector : Option StpPortNo → PriorityVector
  | none =>
    toLex (t.bridge.bridgeId.toNat, toLex (0, toLex (t.bridge.bridgeId.toNat, toLex (0, 0))))
  | some i => (t.port i).vector

/-- The bridge itself, and the enabled ports that are not designated. -/
def Candidate : Option StpPortNo → Prop
  | none => True
  | some i => t.Enabled i ∧ ¬ t.Designated i

/-- The root and the cost of the path to it, for the bridge itself and through a port. -/
def rootVia : Option StpPortNo → StpIdentifier × ℕ
  | none => (t.bridge.bridgeId, 0)
  | some i => ((t.port i).designatedRoot, (t.port i).costToRoot)

/-- The root, its cost and the root port of the bridge are those of the best vector. -/
structure RootBest : Prop where
  /-- The root port is enabled and not designated. -/
  candidate : t.Candidate t.bridge.rootPort
  /-- The bridge announces the root of the root port, and its cost. -/
  root_eq : (t.bridge.designatedRoot, t.bridge.rootPathCost.toNat) = t.rootVia t.bridge.rootPort
  /-- No vector is better. -/
  best : ∀ c, t.Candidate c → t.vector t.bridge.rootPort ≤ t.vector c

/-- The parameters of a bridge and its ports form a spanning tree. -/
structure SpanningTree : Prop extends RootBest t where
  /-- A port is blocked if it is neither the root port nor designated. -/
  blocking : ∀ i, t.Enabled i →
    ((t.port i).state = .blocking ↔ t.bridge.rootPort ≠ some i ∧ ¬ t.Designated i)

/-- The costs of the candidates are positive, do not overflow, and may be compared. -/
structure CostsBounded : Prop where
  /-- The cost of a port is not 0. -/
  pathCost_pos : ∀ i, t.Candidate (some i) → 0 < (t.port i).pathCost.toNat
  /-- The sum with the cost that another bridge announces does not overflow. -/
  costToRoot_lt : ∀ i, t.Candidate (some i) → (t.port i).costToRoot < 2 ^ 32
  /-- As an `int` it is negative for all candidates, or for none. -/
  same_sign : ∀ i j, t.Candidate (some i) → t.Candidate (some j) →
    ((t.port i).costToRoot < 2 ^ 31 ↔ (t.port j).costToRoot < 2 ^ 31)

variable {t}

/-- Costs stay bounded when no other candidates come up, and those of the candidates stay. -/
theorem CostsBounded.of_candidate {t' : TreeInfo} (h : t.CostsBounded)
    (hkept : ∀ i, t'.Candidate (some i) → t.Candidate (some i) ∧
      (t'.port i).pathCost = (t.port i).pathCost ∧
      (t'.port i).designatedCost = (t.port i).designatedCost) : t'.CostsBounded := by
  have hcost : ∀ i, t'.Candidate (some i) → (t'.port i).costToRoot = (t.port i).costToRoot := by
    intro i hi
    obtain ⟨-, hpath, hdesignated⟩ := hkept i hi
    rw [PortInfo.costToRoot, hpath, hdesignated, PortInfo.costToRoot]
  constructor
  · intro i hi
    obtain ⟨hold, hpath, -⟩ := hkept i hi
    rw [hpath]
    exact h.pathCost_pos i hold
  · intro i hi
    rw [hcost i hi]
    exact h.costToRoot_lt i (hkept i hi).1
  · intro i j hi hj
    rw [hcost i hi, hcost j hj]
    exact h.same_sign i j (hkept i hi).1 (hkept j hj).1

/-! ### The selection of the root -/

/-- The vector of a port as the code computes it. -/
def rank (t : TreeInfo) (i : StpPortNo) : PriorityVector :=
  (t.port i).vectorAt (t.port i).cost.toInt

theorem supersedes_iff_rank_lt (t : TreeInfo) (i r : StpPortNo) :
    decide ((t.port r).SupersedesRoot (t.port i)) = true ↔ t.rank i < t.rank r := by
  rw [decide_eq_true_iff]
  exact (t.port i).supersedesRoot_iff (t.port r)

theorem RootCandidate.candidate {i : StpPortNo} (h : t.RootCandidate i) : t.Candidate (some i) :=
  ⟨h.1, h.2.1⟩

/-- Without a root port there is no candidate for it. -/
theorem not_rootCandidate_of_selectedRoot (h : t.selectedRoot = none) (i : StpPortNo) :
    ¬ t.RootCandidate i := by
  have hnone :=
    (Sweep.foldl_keepBetter_eq_none t.supersedes_iff_rank_lt).mp h i (List.mem_finRange i)
  exact of_decide_eq_false hnone

theorem rootCandidate_of_selectedRoot {r : StpPortNo} (h : t.selectedRoot = some r) :
    t.RootCandidate r :=
  of_decide_eq_true (Sweep.of_foldl_keepBetter_eq_some t.supersedes_iff_rank_lt h).1.2

/-- No candidate has a better vector than the root port. -/
theorem CostsBounded.vector_le (hb : t.CostsBounded) {r i : StpPortNo}
    (h : t.selectedRoot = some r) (hi : t.RootCandidate i) :
    t.vector (some r) ≤ t.vector (some i) := by
  have hrank : t.rank r ≤ t.rank i :=
    (Sweep.of_foldl_keepBetter_eq_some t.supersedes_iff_rank_lt h).2 i (List.mem_finRange i)
      (decide_eq_true hi)
  have hr := (rootCandidate_of_selectedRoot h).candidate
  have hi := hi.candidate
  exact (t.port r).vector_le_of_vectorAt_le (hb.costToRoot_lt r hr) (hb.costToRoot_lt i hi)
    (hb.same_sign r i hr hi) hrank

/-- A port that knows of a root no better than the bridge has no better vector. -/
theorem vector_none_le {i : StpPortNo} (hroot : t.bridge.bridgeId ≤ (t.port i).designatedRoot)
    (hcost : 0 < (t.port i).costToRoot) : t.vector none ≤ t.vector (some i) := by
  have hle := BitVec.le_def.mp hroot
  refine le_of_lt ?_
  simp only [vector, PortInfo.vector, PortInfo.vectorAt, Prod.Lex.toLex_lt_toLex]
  omega

/-- A port that knows of a better root than the bridge has a better vector. -/
theorem vector_some_le {i : StpPortNo} (hroot : (t.port i).designatedRoot < t.bridge.bridgeId) :
    t.vector (some i) ≤ t.vector none := by
  have hlt := BitVec.lt_def.mp hroot
  refine le_of_lt ?_
  simp only [vector, PortInfo.vector, PortInfo.vectorAt, Prod.Lex.toLex_lt_toLex]
  exact Or.inl hlt

/-- The port through which the bridge reaches the root is not designated for its segment. -/
theorem CostsBounded.not_designates (h : t.CostsBounded) {r : StpPortNo} (hr : t.RootCandidate r) :
    ¬ (t.bridgeVia (some r)).Designates (t.port r) := by
  have hpath := h.pathCost_pos r hr.candidate
  have hcost : (t.port r).cost.toNat = (t.port r).designatedCost.toNat +
      (t.port r).pathCost.toNat := (t.port r).toNat_cost (h.costToRoot_lt r hr.candidate)
  rintro (hdesignated | hroot | hlt | ⟨heq, -⟩)
  · exact hr.2.1 hdesignated
  · exact hroot rfl
  · have hlt := BitVec.lt_def.mp hlt
    simp only [bridgeVia] at hlt
    omega
  · have heq := congrArg BitVec.toNat heq
    simp only [bridgeVia] at heq
    omega

/-! ### The selection of the designated ports -/

section

variable (t)

theorem bridge_configurationUpdate :
    t.configurationUpdate.bridge = t.bridgeVia t.selectedRoot := rfl

theorem port_configurationUpdate (i : StpPortNo) :
    t.configurationUpdate.port i =
      if t.Enabled i ∧ (t.bridgeVia t.selectedRoot).Designates (t.port i) then
        (t.bridgeVia t.selectedRoot).designated (t.port i)
      else t.port i := by
  by_cases hi : t.Enabled i
  · simp only [hi, true_and]
    exact if_pos hi
  · simp only [hi, false_and, if_false]
    exact if_neg hi

@[simp]
theorem enabled_configurationUpdate (i : StpPortNo) :
    t.configurationUpdate.Enabled i ↔ t.Enabled i := by
  unfold Enabled
  rw [port_configurationUpdate]
  split_ifs <;> rfl

end

/-- A candidate behind the selection is unchanged, and was a candidate before it. -/
theorem port_of_candidate {i : StpPortNo} (hi : t.configurationUpdate.Candidate (some i)) :
    t.configurationUpdate.port i = t.port i ∧ t.Candidate (some i) := by
  obtain ⟨henabled, hnot⟩ := hi
  have henabled := (t.enabled_configurationUpdate i).mp henabled
  have hport := t.port_configurationUpdate i
  unfold Designated at hnot
  rw [bridge_configurationUpdate] at hnot
  by_cases hd : (t.bridgeVia t.selectedRoot).Designates (t.port i)
  · rw [hport, if_pos ⟨henabled, hd⟩] at hnot
    exact absurd ⟨rfl, rfl⟩ hnot
  · have hkeep : t.configurationUpdate.port i = t.port i := by
      rw [hport, if_neg fun h => hd h.2]
    refine ⟨hkeep, henabled, fun hdes => hd (Or.inl ?_)⟩
    have hbridge : (t.bridgeVia t.selectedRoot).bridgeId = t.bridge.bridgeId := by
      cases t.selectedRoot <;> rfl
    exact ⟨hdes.1.trans hbridge.symm, hdes.2⟩

theorem CostsBounded.configurationUpdate (h : t.CostsBounded) :
    t.configurationUpdate.CostsBounded := by
  refine h.of_candidate fun i hi => ?_
  obtain ⟨hport, hcandidate⟩ := port_of_candidate hi
  rw [hport]
  exact ⟨hcandidate, rfl, rfl⟩

/-- A candidate behind the selection that is no candidate for the root port knows of no better root
than the bridge. -/
theorem CostsBounded.vector_none_le_of_not (h : t.CostsBounded) {i : StpPortNo}
    (hi : t.Candidate (some i)) (hnot : ¬ t.RootCandidate i) :
    t.vector none ≤ t.vector (some i) := by
  refine vector_none_le ?_ ?_
  · exact BitVec.not_lt.mp fun hlt => hnot ⟨hi.1, hi.2, hlt⟩
  · exact Nat.add_pos_right _ (h.pathCost_pos i hi)

/-- The selections of `stp_configuration_update` find the best vector. -/
theorem CostsBounded.rootBest_configurationUpdate (h : t.CostsBounded) :
    t.configurationUpdate.RootBest := by
  have hnone : t.configurationUpdate.vector none = t.vector none := by
    have hid : t.configurationUpdate.bridge.bridgeId = t.bridge.bridgeId := by
      rw [bridge_configurationUpdate]
      cases t.selectedRoot <;> rfl
    simp only [vector, hid]
  have hbridge := t.bridge_configurationUpdate
  cases hroot : t.selectedRoot with
  | none =>
    have hport : t.configurationUpdate.bridge.rootPort = none := by rw [hbridge, hroot]; rfl
    constructor
    · rw [hport]
      trivial
    · rw [hport, hbridge, hroot]
      simp [rootVia, hbridge, hroot, bridgeVia]
    · intro c hc
      rw [hport, hnone]
      cases c with
      | none => exact hnone.ge
      | some i =>
        obtain ⟨hkept, hi⟩ := port_of_candidate hc
        have hvector : t.configurationUpdate.vector (some i) = t.vector (some i) :=
          congrArg PortInfo.vector hkept
        rw [hvector]
        exact h.vector_none_le_of_not hi (not_rootCandidate_of_selectedRoot hroot i)
  | some r =>
    have hr := rootCandidate_of_selectedRoot hroot
    have hnot := h.not_designates hr
    have hkeep : t.configurationUpdate.port r = t.port r := by
      rw [port_configurationUpdate, hroot, if_neg fun hd => hnot hd.2]
    have hport : t.configurationUpdate.bridge.rootPort = some r := by rw [hbridge, hroot]; rfl
    have hvector : t.configurationUpdate.vector (some r) = t.vector (some r) :=
      congrArg PortInfo.vector hkeep
    constructor
    · rw [hport]
      refine ⟨(t.enabled_configurationUpdate r).mpr hr.1, fun hd => hnot (Or.inl ?_)⟩
      unfold Designated at hd
      rwa [hkeep, hbridge, hroot] at hd
    · rw [hport]
      simp only [rootVia, hkeep, hbridge, hroot, bridgeVia, Prod.mk.injEq, true_and]
      exact (t.port r).toNat_cost (h.costToRoot_lt r hr.candidate)
    · intro c hc
      rw [hport, hvector]
      cases c with
      | none => exact (vector_some_le hr.2.2).trans hnone.ge
      | some i =>
        obtain ⟨hkept, hi⟩ := port_of_candidate hc
        have hvector : t.configurationUpdate.vector (some i) = t.vector (some i) :=
          congrArg PortInfo.vector hkept
        rw [hvector]
        by_cases hcandidate : t.RootCandidate i
        · exact h.vector_le hroot hcandidate
        · exact (vector_some_le hr.2.2).trans (h.vector_none_le_of_not hi hcandidate)

/-! ### States of ports -/

/-- Only the states differ, and the same ports are enabled. -/
structure SameButStates (t t' : TreeInfo) : Prop where
  /-- The bridge is the same. -/
  bridge : t'.bridge = t.bridge
  /-- The ports are the same but for their states. -/
  port : ∀ i, t'.port i = { t.port i with state := (t'.port i).state }
  /-- The same ports are enabled. -/
  enabled : ∀ i, t'.Enabled i ↔ t.Enabled i

namespace SameButStates

variable {t' : TreeInfo} (h : SameButStates t t')

include h

theorem designated (i : StpPortNo) : t'.Designated i ↔ t.Designated i := by
  unfold Designated
  rw [h.port i, h.bridge]
  rfl

theorem vector_eq (c : Option StpPortNo) : t'.vector c = t.vector c := by
  cases c with
  | none => simp only [vector, h.bridge]
  | some i =>
    simp only [vector]
    rw [h.port i]
    rfl

theorem candidate (c : Option StpPortNo) : t'.Candidate c ↔ t.Candidate c := by
  cases c with
  | none => exact Iff.rfl
  | some i => exact and_congr (h.enabled i) (not_congr (h.designated i))

/-- The best vector does not depend on the states. -/
theorem rootBest (hbest : t.RootBest) : t'.RootBest := by
  constructor
  · rw [h.bridge]
    exact (h.candidate _).mpr hbest.candidate
  · have hvia : ∀ c, t'.rootVia c = t.rootVia c := by
      intro c
      cases c with
      | none => simp only [rootVia, h.bridge]
      | some i =>
        simp only [rootVia]
        rw [h.port i]
        rfl
    rw [h.bridge, hvia]
    exact hbest.root_eq
  · intro c hc
    rw [h.bridge, h.vector_eq, h.vector_eq]
    exact hbest.best c ((h.candidate c).mp hc)

theorem costsBounded (hb : t.CostsBounded) : t'.CostsBounded :=
  hb.of_candidate fun i hi => ⟨(h.candidate (some i)).mp hi, by rw [h.port i], by rw [h.port i]⟩

end SameButStates

theorem port_portStateSelection {i : StpPortNo} (hi : t.Enabled i) :
    t.portStateSelection.port i = { t.port i with state := t.bridge.selectedState i (t.port i) } :=
  if_pos hi

theorem port_portStateSelection_of_not {i : StpPortNo} (hi : ¬ t.Enabled i) :
    t.portStateSelection.port i = t.port i :=
  if_neg hi

/-- `stp_port_state_selection` changes states only. -/
theorem sameButStates_portStateSelection (t : TreeInfo) :
    SameButStates t t.portStateSelection where
  bridge := rfl
  port i := by
    by_cases hi : t.Enabled i
    · rw [port_portStateSelection hi]
    · rw [port_portStateSelection_of_not hi]
  enabled i := by
    unfold Enabled
    by_cases hi : t.Enabled i
    · have hne : (t.port i).state ≠ .disabled := hi
      rw [port_portStateSelection hi]
      simp only [BridgeInfo.selectedState]
      split_ifs <;> simp [hne]
    · rw [port_portStateSelection_of_not hi]

/-- `stp_port_state_selection` blocks the ports that are neither the root port nor designated. -/
theorem RootBest.spanningTree_portStateSelection (h : t.RootBest) :
    t.portStateSelection.SpanningTree where
  toRootBest := t.sameButStates_portStateSelection.rootBest h
  blocking i hi := by
    have hsame := t.sameButStates_portStateSelection
    have hi := (hsame.enabled i).mp hi
    rw [hsame.designated, hsame.bridge, port_portStateSelection hi]
    simp only [BridgeInfo.selectedState, Designated]
    split_ifs with hcase hblocking
    · simpa using fun hne => hcase.resolve_left hne
    · simpa [hblocking] using fun hne => hcase.resolve_left hne
    · simpa using hcase

/-- Both selections establish a spanning tree. -/
theorem CostsBounded.spanningTree_reconfigured (h : t.CostsBounded) :
    t.configurationUpdate.portStateSelection.SpanningTree :=
  h.rootBest_configurationUpdate.spanningTree_portStateSelection

theorem CostsBounded.reconfigured (h : t.CostsBounded) :
    t.configurationUpdate.portStateSelection.CostsBounded :=
  (sameButStates_portStateSelection _).costsBounded h.configurationUpdate

end TreeInfo

end OfAgent
