import OfAgent.Stp.Announcing

/-!
# Steady trees

What the tree of a bridge satisfies in every run of regular events, and that both selections leave
it alone.

* `TreeInfo.Steady`: a spanning tree whose designated ports announce what the bridge claims.
* `TreeInfo.steady_next`: regular events keep this.
* `TreeInfo.Steady.reconfigured_eq`: both selections leave a steady tree alone.
* `Stp.sameButStates_tick`: time only changes the states of ports that announce.
-/

namespace OfAgent

namespace TreeInfo

/-- A spanning tree, with designated ports that announce what the bridge claims and identifiers that
tell the ports apart. -/
structure Steady (t : TreeInfo) : Prop extends Sound t where
  /-- Every port that is to be designated is. -/
  announcing : t.Announcing
  /-- The identifiers have the numbers of the ports. -/
  numbered : t.Numbered

variable {t : TreeInfo} {i : StpPortNo}

theorem steady_created (bridgeId : StpIdentifier) : (TreeInfo.created bridgeId).Steady where
  toSound := sound_created bridgeId
  announcing i hi := absurd rfl hi
  numbered i := by
    have hnumber : ∀ n < 256, (BitVec.ofNat 16 n ||| 0x8000).setWidth 8 = BitVec.ofNat 8 n := by
      decide +kernel
    exact hnumber (i + 1) (Nat.succ_lt_succ i.2)

theorem steady_next {stp : Stp} (h : stp.info.Steady) {e : StpEvent} (hregular : stp.Regular e) :
    (stp.next e).info.Steady where
  toSound := Stp.sound_next h.toSound e hregular
  announcing := kept_announcing.next h.announcing e fun i newPriority he => by
    rw [he] at hregular
    exact hregular
  numbered := kept_numbered.next h.numbered e fun _ _ _ => trivial

namespace Steady

variable (h : t.Steady)

include h

/-! ### Ports -/

/-- An enabled port knows of the root of the bridge, and of no way that is longer than its own. -/
theorem port_of_enabled (hi : t.Enabled i) :
    (t.port i).designatedRoot = t.bridge.designatedRoot ∧
      (t.port i).designatedCost.toNat ≤ t.bridge.rootPathCost.toNat := by
  by_cases hd : t.bridge.Designates (t.port i)
  · have heq := h.announcing i hi hd
    exact ⟨congrArg PortInfo.designatedRoot heq.symm,
      le_of_eq (congrArg (fun p : PortInfo => p.designatedCost.toNat) heq.symm)⟩
  · constructor
    · by_contra hroot
      exact hd (.inr (.inl hroot))
    · by_contra hcost
      exact hd (.inr (.inr (.inl (BitVec.lt_def.2 (Nat.not_le.1 hcost)))))

theorem port_of_designated (hi : t.Enabled i) (hd : t.Designated i) :
    t.bridge.designated (t.port i) = t.port i :=
  h.announcing i hi (.inl hd)

theorem active_iff (hi : t.Enabled i) :
    (t.port i).state ≠ .blocking ↔ t.bridge.rootPort = some i ∨ t.Designated i := by
  rw [ne_eq, h.blocking i hi, not_and_or, not_not, not_not]

/-- The root port is enabled and not designated, and the way through it is that of the bridge. -/
theorem of_rootPort (hroot : t.bridge.rootPort = some i) :
    t.Enabled i ∧ ¬ t.Designated i ∧ t.bridge.designatedRoot = (t.port i).designatedRoot ∧
      t.bridge.rootPathCost.toNat = (t.port i).costToRoot := by
  have hcandidate := h.candidate
  have heq := h.root_eq
  rw [hroot] at hcandidate heq
  obtain ⟨hid, hcost⟩ := Prod.mk.inj heq
  exact ⟨hcandidate.1, hcandidate.2, hid, hcost⟩

/-- Without a root port the bridge is the root. -/
theorem of_rootPort_none (hroot : t.bridge.rootPort = none) :
    t.bridge.designatedRoot = t.bridge.bridgeId ∧ t.bridge.rootPathCost.toNat = 0 := by
  have heq := h.root_eq
  rw [hroot] at heq
  exact Prod.mk.inj heq

/-- A root has no root port. -/
theorem rootPort_of_isRootBridge (hroot : t.bridge.IsRootBridge) : t.bridge.rootPort = none := by
  cases hport : t.bridge.rootPort with
  | none => rfl
  | some r =>
    obtain ⟨hi, hd, hid, -⟩ := h.of_rootPort hport
    have hbest := h.best none trivial
    have hpos : 0 < (t.port r).costToRoot := Nat.add_pos_right _ (h.pathCost_pos r ⟨hi, hd⟩)
    unfold BridgeInfo.IsRootBridge at hroot
    rw [hport] at hbest
    simp only [vector, PortInfo.vector, PortInfo.vectorAt, Prod.Lex.toLex_le_toLex] at hbest
    rw [hroot, hid] at hbest
    omega

/-- The bridge knows of no better root than its own, and of no shorter way to it. -/
theorem cost_le (hi : t.Enabled i) : t.bridge.rootPathCost.toNat ≤ (t.port i).costToRoot := by
  obtain ⟨hroot, -⟩ := h.port_of_enabled hi
  by_cases hd : t.Designated i
  · have heq := h.port_of_designated hi hd
    rw [PortInfo.costToRoot, ← congrArg PortInfo.designatedCost heq]
    exact Nat.le_add_right _ _
  · -- otherwise the port is a candidate with the same root
    have hbest := h.best (some i) ⟨hi, hd⟩
    cases hport : t.bridge.rootPort with
    | none => exact (h.of_rootPort_none hport).2.trans_le (Nat.zero_le _)
    | some r =>
      obtain ⟨-, -, hid, hcost⟩ := h.of_rootPort hport
      rw [hport] at hbest
      simp only [vector, PortInfo.vector, PortInfo.vectorAt, Prod.Lex.toLex_le_toLex] at hbest
      rw [hroot, hid] at hbest
      omega

/-! ### Selections -/

/-- A port that could be the root port has a better vector than the bridge itself. -/
theorem rootCandidate_iff (hi : t.Candidate (some i)) :
    t.RootCandidate i ↔ t.vector (some i) ≤ t.vector none := by
  constructor
  · exact fun hr => vector_some_le hr.2.2
  · intro hle
    refine ⟨hi.1, hi.2, ?_⟩
    have hpos : 0 < (t.port i).costToRoot := Nat.add_pos_right _ (h.pathCost_pos i hi)
    simp only [vector, PortInfo.vector, PortInfo.vectorAt, Prod.Lex.toLex_le_toLex] at hle
    rw [BitVec.lt_def]
    omega

/-- `stp_root_selection` finds the root port again. -/
theorem selectedRoot_eq : t.selectedRoot = t.bridge.rootPort := by
  have hcandidate := h.candidate
  have hnone := h.best none trivial
  cases hport : t.bridge.rootPort with
  | none =>
    rw [hport] at hnone
    cases hselected : t.selectedRoot with
    | none => rfl
    | some r =>
      have hr := rootCandidate_of_selectedRoot hselected
      have hbest := h.best (some r) ⟨hr.1, hr.2.1⟩
      have hlt := hr.2.2
      rw [hport] at hbest
      simp only [vector, PortInfo.vector, PortInfo.vectorAt, Prod.Lex.toLex_le_toLex] at hbest
      rw [BitVec.lt_def] at hlt
      omega
  | some r =>
    rw [hport] at hcandidate hnone
    have hr := (h.rootCandidate_iff hcandidate).2 hnone
    cases hselected : t.selectedRoot with
    | none => exact absurd hr (not_rootCandidate_of_selectedRoot hselected r)
    | some r' =>
      have hr' := rootCandidate_of_selectedRoot hselected
      have hle := h.vector_le hselected hr
      have hge := h.best (some r') ⟨hr'.1, hr'.2.1⟩
      rw [hport] at hge
      -- the vectors are the same, and so are the identifiers of the ports
      have heq := le_antisymm hge hle
      simp only [vector, PortInfo.vector, PortInfo.vectorAt, EmbeddingLike.apply_eq_iff_eq,
        Prod.mk.injEq] at heq
      rw [h.numbered.eq_of_portId (BitVec.eq_of_toNat_eq heq.2.2.2.2)]

/-- `stp_root_selection` leaves the bridge alone. -/
theorem bridgeVia_selectedRoot : t.bridgeVia t.selectedRoot = t.bridge := by
  rw [h.selectedRoot_eq]
  cases hport : t.bridge.rootPort with
  | none =>
    obtain ⟨hid, hcost⟩ := h.of_rootPort_none hport
    have hzero : t.bridge.rootPathCost = 0 := BitVec.eq_of_toNat_eq hcost
    show BridgeInfo.mk t.bridge.bridgeId t.bridge.bridgeId 0 none = BridgeInfo.mk _ _ _ _
    rw [hid, hzero, hport]
  | some r =>
    obtain ⟨hi, hd, hid, hcost⟩ := h.of_rootPort hport
    have hsum : (t.port r).cost = t.bridge.rootPathCost := by
      apply BitVec.eq_of_toNat_eq
      rw [hcost, PortInfo.toNat_cost _ (h.costToRoot_lt r ⟨hi, hd⟩)]
    rw [bridgeVia, ← hport, ← hid, hsum]

/-- Both selections leave a steady tree alone. -/
theorem reconfigured_eq : t.reconfigured = t := by
  have hport : ∀ i, t.configurationUpdate.port i = t.port i := by
    intro i
    rw [port_configurationUpdate, h.bridgeVia_selectedRoot]
    split_ifs with hd
    · exact h.announcing i hd.1 hd.2
    · rfl
  have hupdate : t.configurationUpdate = t :=
    TreeInfo.ext h.bridgeVia_selectedRoot (funext hport)
  rw [reconfigured, hupdate]
  refine TreeInfo.ext rfl (funext fun i => ?_)
  by_cases hi : t.Enabled i
  · rw [port_portStateSelection hi]
    -- a port has the state that is selected for it
    have hstate : t.bridge.selectedState i (t.port i) = (t.port i).state := by
      unfold BridgeInfo.selectedState
      split_ifs with hactive hblocking
      · exact absurd hblocking ((h.active_iff hi).2 hactive)
      · rfl
      · by_contra hne
        exact hactive ((h.active_iff hi).1 (Ne.symm hne))
    rw [hstate]
  · exact port_portStateSelection_of_not hi

end Steady

end TreeInfo

namespace Stp

/-- What every round of a loop for an enabled port keeps holds behind the loop. -/
theorem forEachEnabledPort_of_enabled {P : Stp → Prop} {stp : Stp} {body : Stp → StpPortNo → Stp}
    (h0 : P stp) (hbody : ∀ stp i, P stp → stp.Enabled i → P (body stp i)) :
    P (stp.forEachEnabledPort body) := by
  unfold forEachEnabledPort
  refine List.foldlRecOn _ _ h0 fun stp h i _ => ?_
  split_ifs with henabled
  · exact hbody stp i h henabled
  · exact h

/-- When all enabled ports of a steady tree are designated, time only changes their states. -/
theorem sameButStates_tick {stp : Stp} (h : stp.info.Steady)
    (hd : ∀ i, stp.info.Enabled i → stp.info.Designated i) (ms : ℤ) :
    TreeInfo.SameButStates stp.info (stp.tick ms).info := by
  have hmessageAge : ∀ (elapsed : ℤ) (aged : Stp) (i : StpPortNo), aged.info = stp.info →
      aged.Enabled i → (aged.tickMessageAge elapsed i).info = stp.info := by
    intro elapsed aged i hinfo henabled
    rw [← info_enabled, hinfo] at henabled
    rcases aged.info_tickMessageAge elapsed i with heq | heq
    · exact heq.trans hinfo
    · -- a designated port announces already what it would announce
      have hbridge : aged.toBridgeInfo = stp.toBridgeInfo := congrArg TreeInfo.bridge hinfo
      have hsame : stp.info.modifyPort i stp.designated = stp.info :=
        TreeInfo.modifyPort_of_eq _ (h.port_of_designated henabled (hd i henabled))
      rw [heq, hinfo, hbridge, hsame, h.reconfigured_eq]
  have hport : ∀ (elapsed : ℤ) (aged : Stp) (i : StpPortNo),
      TreeInfo.SameButStates stp.info aged.info →
        TreeInfo.SameButStates stp.info (aged.tickPort elapsed i).info := by
    intro elapsed aged i hsame
    rcases aged.info_tickPort elapsed i with heq | heq
    · rwa [heq]
    · rw [heq]
      exact hsame.progress i
  unfold tick
  dsimp only
  split_ifs
  · exact TreeInfo.SameButStates.refl _
  · refine forEachEnabledPort_induct (P := fun aged => TreeInfo.SameButStates stp.info aged.info) _
      ?_
      (hport _)
    refine (congrArg (TreeInfo.SameButStates stp.info) ?_).mpr (TreeInfo.SameButStates.refl _)
    refine forEachEnabledPort_of_enabled (P := fun aged => aged.info = stp.info) ?_ (hmessageAge _)
    rw [info_tickBridge]
    rfl

end Stp

end OfAgent
