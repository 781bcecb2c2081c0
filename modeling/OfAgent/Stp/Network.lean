import OfAgent.Stp.Hello

/-!
# Networks of bridges

Bridges whose ports are attached to segments. A message that a bridge has sent may reach any port of
its segment at any time: never, more than once, and behind messages that have been sent later.

* `StpNetwork`, `StpNetwork.Step`: the bridges, and what can happen to them.
* `Way`: a way from a bridge that is the root through ports and segments, and its cost.
* `StpNetwork.roots_of_reachable`: whatever any bridge claims about a root, there is a bridge that
  has or has had this identifier and a way to it of this cost, and no bridge claims a root with a
  greater identifier than its own.
-/

namespace OfAgent

/-- A message as `send_bpdu` gets it. -/
def Bpdu.toBytes : Bpdu → List Byte
  | .config bpdu => bpdu.toBytes
  | .tcn => [0, 0, 0, 0x80]

/-- Bridges, by their names. -/
abbrev StpNetwork (β : Type*) : Type _ := β → Stp

/-- A way through the network from a bridge that has been called `root`, with its cost: it leaves
each bridge by a port and enters the next one by a port of the same segment, at a cost that this
port has had. -/
inductive Way {β Λ : Type*} (segment : β → StpPortNo → Λ) (ids : β → Set StpIdentifier)
    (costs : β → StpPortNo → Set (BitVec 32)) (root : StpIdentifier) : β → BitVec 32 → Prop
  /-- The root itself. -/
  | root {b : β} : root ∈ ids b → Way segment ids costs root b 0
  /-- One segment more. -/
  | hop {b b' : β} {i j : StpPortNo} {cost pathCost : BitVec 32} :
      Way segment ids costs root b cost → segment b i = segment b' j → pathCost ∈ costs b' j →
        Way segment ids costs root b' (cost + pathCost)

/-! ### Identifiers and costs of one bridge -/

/-- Events that change neither the identifier of the bridge nor the cost of a port. -/
def StpEvent.KeepsLabels : StpEvent → Prop
  | .setBridgeId _ | .setBridgePriority _ | .portSetPathCost _ _ | .portSetSpeed _ _ => False
  | _ => True

namespace TreeInfo

/-- The bridge has the same identifier, and its ports have the same costs. -/
structure SameLabels (t t' : TreeInfo) : Prop where
  /-- The identifier. -/
  bridgeId : t'.bridge.bridgeId = t.bridge.bridgeId
  /-- The costs. -/
  pathCost : ∀ i, (t'.port i).pathCost = (t.port i).pathCost

namespace SameLabels

variable {t t' : TreeInfo}

theorem refl (t : TreeInfo) : SameLabels t t := ⟨rfl, fun _ => rfl⟩

variable (h : SameLabels t t')

include h

theorem modifyPort {i : StpPortNo} {f : PortInfo → PortInfo}
    (hf : ∀ p, (f p).pathCost = p.pathCost) : SameLabels t (t'.modifyPort i f) := by
  refine ⟨h.bridgeId, fun j => ?_⟩
  rcases eq_or_ne j i with rfl | hj
  · rw [port_modifyPort_self, hf, h.pathCost]
  · rw [port_modifyPort_of_ne hj, h.pathCost]

theorem portStateSelection : SameLabels t t'.portStateSelection := by
  have hsame := sameButStates_portStateSelection t'
  refine ⟨?_, fun j => ?_⟩
  · rw [hsame.bridge, h.bridgeId]
  · rw [hsame.port, h.pathCost]

theorem reconfigured : SameLabels t t'.reconfigured := by
  have hupdate : SameLabels t t'.configurationUpdate := by
    refine ⟨?_, fun j => ?_⟩
    · rw [← h.bridgeId, bridge_configurationUpdate]
      cases t'.selectedRoot <;> rfl
    · rw [← h.pathCost, port_configurationUpdate]
      split_ifs <;> rfl
  exact hupdate.portStateSelection

theorem designated (b : BridgeInfo) (i : StpPortNo) :
    SameLabels t (t'.modifyPort i b.designated) :=
  h.modifyPort fun _ => rfl

theorem becomeDesignated (i : StpPortNo) (state : StpState) :
    SameLabels t (t'.becomeDesignated i state) :=
  h.modifyPort fun _ => rfl

theorem receivedBpdu (i : StpPortNo) (bpdu : List Byte) :
    SameLabels t (t'.receivedBpdu i bpdu) := by
  have hrecorded : SameLabels t (t'.modifyPort i fun p => p.record (.ofBytes bpdu)) :=
    h.modifyPort fun _ => rfl
  unfold TreeInfo.receivedBpdu
  split_ifs
  · exact hrecorded.reconfigured
  · exact h

theorem portDisable (i : StpPortNo) : SameLabels t (t'.portDisable i) := by
  unfold TreeInfo.portDisable
  split_ifs
  · exact (h.becomeDesignated i .disabled).reconfigured
  · exact h

theorem portEnable (i : StpPortNo) : SameLabels t (t'.portEnable i) := by
  unfold TreeInfo.portEnable
  split_ifs
  · exact h
  · exact (h.becomeDesignated i .blocking).portStateSelection

theorem portSetPriority (i : StpPortNo) (newPriority : BitVec 8) :
    SameLabels t (t'.portSetPriority i newPriority) := by
  unfold TreeInfo.portSetPriority setPortId
  have hrenumbered := h.modifyPort (i := i)
    (f := t'.bridge.renumber ((t'.port i).newPortId newPriority)) fun _ => rfl
  dsimp only
  split_ifs
  · exact h
  · exact (hrenumbered.designated _ i).portStateSelection
  · exact hrenumbered

end SameLabels

end TreeInfo

namespace Stp

/-- Time changes neither. -/
theorem sameLabels_tick (stp : Stp) (ms : ℤ) :
    TreeInfo.SameLabels stp.info (stp.tick ms).info :=
  info_tick_induct (.refl _) (fun i h => (h.designated _ i).reconfigured)
    (fun _ h => h.modifyPort fun _ => rfl) ms

/-- Nor does any event that is not about them. -/
theorem sameLabels_next (stp : Stp) {e : StpEvent} (he : e.KeepsLabels) :
    TreeInfo.SameLabels stp.info (stp.next e).info := by
  have htimers : ∀ stp' : Stp, stp'.info = stp.info →
      TreeInfo.SameLabels stp.info stp'.updateBridgeTimers.info := by
    intro stp' hinfo
    rw [info_updateBridgeTimers, hinfo]
    exact .refl _
  cases e with
  | tick ms => exact stp.sameLabels_tick ms
  | receivedBpdu i bytes =>
    rw [next, info_receivedBpdu]
    exact (TreeInfo.SameLabels.refl _).receivedBpdu i bytes
  | setHelloTime ms => exact htimers { stp with rqHelloTime := ms } rfl
  | setMaxAge ms => exact htimers { stp with rqMaxAge := ms } rfl
  | setForwardDelay ms => exact htimers { stp with rqForwardDelay := ms } rfl
  | getChangedPort =>
    rw [next, info_getChangedPort]
    exact .refl _
  | portDisable i =>
    rw [next, info_portDisable]
    exact (TreeInfo.SameLabels.refl _).portDisable i
  | portEnable i =>
    rw [next, info_portEnable]
    exact (TreeInfo.SameLabels.refl _).portEnable i
  | portSetPriority i newPriority =>
    rw [next, info_portSetPriority]
    exact (TreeInfo.SameLabels.refl _).portSetPriority i newPriority
  | portSetChangeDetection i enabled =>
    rw [next, info_portSetChangeDetection]
    exact .refl _
  | setBridgeId bridgeId => exact he.elim
  | setBridgePriority newPriority => exact he.elim
  | portSetPathCost i pathCost => exact he.elim
  | portSetSpeed i speed => exact he.elim

end Stp

namespace StpNetwork

variable {β Λ : Type*} (segment : β → StpPortNo → Λ)

/-- The message has been sent on a segment. -/
def Aired (net : StpNetwork β) (s : Λ) (bpdu : Bpdu) : Prop :=
  ∃ b i, segment b i = s ∧ (i, bpdu) ∈ (net b).sent

/-- What can happen to a bridge: it receives nothing but what has been sent on the segment of the
port. -/
def Enabled (net : StpNetwork β) (b : β) : StpEvent → Prop
  | .receivedBpdu i bytes => ∃ bpdu, Aired segment net (segment b i) bpdu ∧ bytes = bpdu.toBytes
  | _ => True

/-- The network behind an event of a bridge. -/
def next [DecidableEq β] (net : StpNetwork β) (e : β × StpEvent) : StpNetwork β :=
  Function.update net e.1 ((net e.1).next e.2)

/-- The step relation of a network. -/
def Step [DecidableEq β] (net : StpNetwork β) (e : β × StpEvent) (net' : StpNetwork β) : Prop :=
  Enabled segment net e.1 e.2 ∧ net' = next net e

/-- New bridges. -/
def created (bigEndian : β → Bool) (bridgeId : β → StpIdentifier) : StpNetwork β :=
  fun b => stpCreate (bigEndian b) (bridgeId b)

/-- The bridges and their ports have one of the given identifiers and costs. -/
def Within (ids : β → Set StpIdentifier) (costs : β → StpPortNo → Set (BitVec 32))
    (net : StpNetwork β) : Prop :=
  ∀ b, (net b).bridgeId ∈ ids b ∧ ∀ i, ((net b).ports i).pathCost ∈ costs b i

variable {segment} {net : StpNetwork β} {b : β}

@[simp]
theorem next_self [DecidableEq β] (e : StpEvent) :
    next net (b, e) b = (net b).next e := by simp [next]

theorem next_of_ne [DecidableEq β] {b' : β} (e : StpEvent) (hb : b' ≠ b) :
    next net (b, e) b' = net b' := by
  simp [next, hb]

/-! ### Claims -/

variable (segment) in
/-- The claims that a bridge of the network may make. -/
def claims (ids : β → Set StpIdentifier) (costs : β → StpPortNo → Set (BitVec 32)) (b : β) :
    StpClaims where
  atBridge root := Way segment ids costs root b
  onSegment i root cost := ∃ b' j, segment b' j = segment b i ∧ Way segment ids costs root b' cost
  said := ∅
  announce h i := ⟨b, i, rfl, h⟩

variable {ids : β → Set StpIdentifier} {costs : β → StpPortNo → Set (BitVec 32)}

/-- What is claimed on a segment is claimed at the cost of a port behind it. -/
theorem claims_path {i : StpPortNo} {root : StpIdentifier} {cost pathCost : BitVec 32}
    (h : (claims segment ids costs b).onSegment i root cost) (hcost : pathCost ∈ costs b i) :
    (claims segment ids costs b).atBridge root (cost + pathCost) := by
  obtain ⟨b', j, hsegment, hway⟩ := h
  exact hway.hop hsegment hcost

/-- A message that has been sent claims what its bridge may claim. -/
theorem claims_aired {i : StpPortNo} {bpdu : Bpdu}
    (h : ∀ b, (net b).Credible (claims segment ids costs b))
    (haired : Aired segment net (segment b i) bpdu) (htype : (bpdu.toBytes.getD 3 0).toNat = 0) :
    (claims segment ids costs b).onSegment i (ConfigBpdu.ofBytes bpdu.toBytes).rootId
      (ConfigBpdu.ofBytes bpdu.toBytes).rootPathCost := by
  obtain ⟨b', j, hsegment, hmem⟩ := haired
  cases bpdu with
  | config config =>
    rw [Bpdu.toBytes, ConfigBpdu.ofBytes_toBytes]
    exact ⟨b', j, hsegment, (h b').sent hmem⟩
  | tcn =>
    rw [Bpdu.toBytes] at htype
    exact absurd htype (by decide)

/-- A way leads from a bridge with the identifier of the root. -/
theorem exists_root {root : StpIdentifier} {cost : BitVec 32}
    (h : Way segment ids costs root b cost) : ∃ b', root ∈ ids b' := by
  induction h with
  | root hid => exact ⟨_, hid⟩
  | hop _ _ _ ih => exact ih

/-! ### Identifiers and costs -/

theorem bridgeId_changeBridgeId (stp : Stp) (newBridgeId : StpIdentifier) :
    (stp.changeBridgeId newBridgeId).bridgeId = newBridgeId := by
  have hinfo := congrArg (fun t : TreeInfo => t.bridge.bridgeId)
    (stp.info_changeBridgeId newBridgeId)
  refine hinfo.trans ?_
  unfold TreeInfo.changeBridgeId
  split_ifs with hne
  · show ((stp.info.renamed newBridgeId).bridgeVia _).bridgeId = newBridgeId
    unfold TreeInfo.bridgeVia
    split <;> rfl
  · exact (not_not.1 hne).symm

theorem pathCost_portSetPathCost (stp : Stp) (i : StpPortNo) (pathCost : BitVec 16) :
    ((stp.portSetPathCost i pathCost).ports i).pathCost = pathCost.setWidth 32 := by
  have hinfo := congrArg (fun t : TreeInfo => (t.port i).pathCost)
    (stp.info_portSetPathCost i pathCost)
  refine hinfo.trans ?_
  unfold TreeInfo.portSetPathCost
  split_ifs with hne
  · rw [TreeInfo.reconfigured, (TreeInfo.sameButStates_portStateSelection _).port i]
    show (TreeInfo.port _ i).pathCost = _
    rw [TreeInfo.port_configurationUpdate]
    split_ifs
    · exact congrArg PortInfo.pathCost TreeInfo.port_modifyPort_self
    · exact congrArg PortInfo.pathCost TreeInfo.port_modifyPort_self
  · exact not_not.1 hne

/-- An event only adds claims that the network bears out. -/
theorem admits_of_enabled [DecidableEq β] {e : StpEvent}
    (h : ∀ b, (net b).Credible (claims segment ids costs b)) (henabled : Enabled segment net b e)
    (hwithin : Within ids costs (next net (b, e))) :
    (claims segment ids costs b).Admits (net b) e := by
  obtain ⟨hid, hcost⟩ := hwithin b
  rw [next_self] at hid hcost
  cases e with
  | receivedBpdu i bytes =>
    obtain ⟨bpdu, haired, rfl⟩ := henabled
    exact claims_aired h haired
  | setBridgeId bridgeId =>
    refine .root ?_
    rwa [Stp.next, Stp.setBridgeId, bridgeId_changeBridgeId] at hid
  | setBridgePriority newPriority =>
    refine .root ?_
    rwa [Stp.next, Stp.setBridgePriority, bridgeId_changeBridgeId] at hid
  | portSetPathCost i pathCost =>
    intro root cost hclaim
    have hcost := hcost i
    rw [Stp.next, pathCost_portSetPathCost] at hcost
    exact claims_path hclaim hcost
  | portSetSpeed i speed =>
    intro root cost hclaim
    have hcost := hcost i
    rw [Stp.next, Stp.portSetSpeed, pathCost_portSetPathCost] at hcost
    exact claims_path hclaim hcost
  | _ => trivial

/-- Events that keep identifiers and costs keep them within what is given. -/
theorem within_next [DecidableEq β] {e : β × StpEvent} (h : Within ids costs net)
    (he : e.2.KeepsLabels) : Within ids costs (next net e) := by
  obtain ⟨b, e⟩ := e
  intro b'
  rcases eq_or_ne b' b with rfl | hb
  · have hsame := (net b').sameLabels_next he
    rw [next_self]
    refine ⟨hsame.bridgeId.symm ▸ (h b').1, fun i => hsame.pathCost i ▸ (h b').2 i⟩
  · rw [next_of_ne e hb]
    exact h b'

/-! ### Runs -/

/-- A new bridge claims to be the root. -/
theorem credible_created {bigEndian : β → Bool} {bridgeId : β → StpIdentifier}
    (hwithin : Within ids costs (created bigEndian bridgeId)) (b : β) :
    (created bigEndian bridgeId b).Credible (claims segment ids costs b) := by
  obtain ⟨hid, hcost⟩ := hwithin b
  have hinfo := info_stpCreate (bigEndian b) (bridgeId b)
  have hsent := (Stp.clock_stpCreate (bigEndian b) (bridgeId b)).2
  unfold created at *
  generalize stpCreate (bigEndian b) (bridgeId b) = stp at *
  have hbridge : stp.toBridgeInfo =
      (TreeInfo.created (withDefaultPriority (bridgeId b))).bridge := congrArg TreeInfo.bridge hinfo
  have hport : ∀ i, (stp.ports i).toPortInfo =
      (TreeInfo.created (withDefaultPriority (bridgeId b))).port i := fun i =>
    congrFun (congrArg TreeInfo.port hinfo) i
  have hroot : (claims segment ids costs b).atBridge (withDefaultPriority (bridgeId b)) 0 := by
    rw [hbridge] at hid
    exact .root hid
  constructor
  · rw [hbridge]
    exact hroot
  · rw [hbridge]
    exact hroot
  · intro i
    rw [hport]
    exact (claims segment ids costs b).announce hroot i
  · exact fun i _ _ hclaim => claims_path hclaim (hcost i)
  · intro i config hmem
    rw [hsent] at hmem
    cases hmem
  · exact fun hm => absurd hm (Set.notMem_empty _)

variable [DecidableEq β]

/-- What holds of every bridge at first, and what every event of a bridge keeps of this bridge,
holds of every bridge in every run. -/
theorem forall_of_reachable {net₀ : StpNetwork β} {ok : StpNetwork β → β × StpEvent → Prop}
    {P : β → Stp → Prop} (h : Transition.ReachableVia (Step segment) ok net₀ net)
    (h0 : ∀ b, P b (net₀ b)) (hstep : ∀ {net b e}, (∀ b, P b (net b)) → ok net (b, e) →
      Enabled segment net b e → P b ((net b).next e)) (b : β) : P b (net b) := by
  refine h.invariant (fun net => ∀ b, P b (net b)) h0 ?_ b
  rintro net ⟨b, e⟩ _ hall hok ⟨henabled, rfl⟩ b'
  rcases eq_or_ne b' b with rfl | hb
  · rw [next_self]
    exact hstep hall hok henabled
  · rw [next_of_ne e hb]
    exact hall b'

/-- The bridges only make claims that the network bears out. -/
theorem credible_of_reachable {bigEndian : β → Bool} {bridgeId : β → StpIdentifier}
    (hcreated : Within ids costs (created bigEndian bridgeId))
    (h : Transition.ReachableVia (Step segment) (fun net e => Within ids costs (next net e))
      (created bigEndian bridgeId) net)
    (b : β) : (net b).Credible (claims segment ids costs b) :=
  forall_of_reachable (P := fun b stp => stp.Credible (claims segment ids costs b)) h
    (credible_created hcreated) (fun hcredible hwithin henabled =>
      (hcredible _).next (admits_of_enabled hcredible henabled hwithin)) b

/-- No bridge takes a bridge with a greater identifier than its own for the root. -/
theorem rootLe_of_reachable {bigEndian : β → Bool} {bridgeId : β → StpIdentifier}
    (h : Transition.Reachable (Step segment) (created bigEndian bridgeId) net) (b : β) :
    (net b).info.RootLe := by
  refine forall_of_reachable (P := fun _ stp => stp.info.RootLe) h (fun b => ?_)
    (fun hle _ _ => TreeInfo.kept_rootLe.next (hle _) _ fun _ _ _ => trivial) b
  rw [created, info_stpCreate]
  exact BitVec.le_refl _

/-- Messages may get lost, be repeated and overtake each other, ports and bridges may change in any
way within the given identifiers and costs. Still there is a way, of this cost, from a bridge that
has or has had the identifier of the root to every bridge that claims this root, at present or in a
message that it has sent. A bridge whose identifier is the least of all that are given takes itself
for the root, and no bridge takes one with a greater identifier than its own. -/
theorem roots_of_reachable {bigEndian : β → Bool} {bridgeId : β → StpIdentifier}
    (hcreated : Within ids costs (created bigEndian bridgeId))
    (h : Transition.ReachableVia (Step segment) (fun net e => Within ids costs (next net e))
      (created bigEndian bridgeId) net) (b : β) :
    Way segment ids costs (net b).designatedRoot b (net b).rootPathCost ∧
      (∀ i config, (i, .config config) ∈ (net b).sent →
        Way segment ids costs config.rootId b config.rootPathCost) ∧
      (net b).designatedRoot ≤ (net b).bridgeId ∧
      ((∀ b' id, id ∈ ids b' → (net b).bridgeId ≤ id) → (net b).IsRootBridge) := by
  have hcredible := credible_of_reachable hcreated h b
  have hle : (net b).designatedRoot ≤ (net b).bridgeId := rootLe_of_reachable h.reachable b
  refine ⟨hcredible.root, fun i config hmem => hcredible.sent hmem, hle, fun hleast => ?_⟩
  obtain ⟨b', hid⟩ := exists_root hcredible.root
  exact BitVec.le_antisymm (hleast b' _ hid) hle

/-! ### Two bridges -/

omit [DecidableEq β]

/-- One port of each of two bridges is enabled. Then the second one receives a message. -/
def meet (i : StpPortNo) (config : ConfigBpdu) (net : StpNetwork Bool) : StpNetwork Bool :=
  [(false, .portEnable i), (true, .portEnable i), (false, .tick 2000),
    (true, .receivedBpdu i config.toBytes)].foldl next net

section Meet

variable {net : StpNetwork Bool} {i : StpPortNo} {config : ConfigBpdu}

theorem meet_false : meet i config net false = ((net false).portEnable i).tick 2000 := by
  simp only [meet, List.foldl_cons, List.foldl_nil, next_self,
    next_of_ne _ (show false ≠ true by decide), Stp.next]

theorem meet_true :
    meet i config net true = ((net true).portEnable i).receivedBpdu i config.toBytes := by
  simp only [meet, List.foldl_cons, List.foldl_nil, next_self,
    next_of_ne _ (show true ≠ false by decide), Stp.next]

/-- This is possible when the ports are attached to one segment and the first bridge sends the
message. -/
theorem reachable_meet {segment : Bool → StpPortNo → Λ} {ids : Bool → Set StpIdentifier}
    {costs : Bool → StpPortNo → Set (BitVec 32)} (hwithin : Within ids costs net)
    (hsegment : segment false i = segment true i)
    (hsent : (i, .config config) ∈ (((net false).portEnable i).tick 2000).sent)
    (hdisabled : ∀ j, ¬ (net true).info.Enabled j)
    (hcost : ∀ cost ∈ costs true i,
      0 < cost.toNat ∧ config.rootPathCost.toNat + cost.toNat < 2 ^ 32) :
    Transition.ReachableVia (Step segment)
      (fun net e => (net e.1).Regular e.2 ∧ Within ids costs (next net e)) net
      (meet i config net) := by
  have hfirst := within_next hwithin (e := (false, .portEnable i)) trivial
  have hsecond := within_next hfirst (e := (true, .portEnable i)) trivial
  have hthird := within_next hsecond (e := (false, .tick 2000)) trivial
  have hlast := within_next hthird (e := (true, .receivedBpdu i config.toBytes)) trivial
  refine .tail (e := (true, .receivedBpdu i config.toBytes)) (.tail (e := (false, .tick 2000))
    (.tail (e := (true, .portEnable i)) (.tail (e := (false, .portEnable i)) .refl
      ⟨trivial, hfirst⟩ ⟨trivial, rfl⟩) ⟨trivial, hsecond⟩ ⟨trivial, rfl⟩)
        ⟨trivial, hthird⟩ ⟨trivial, rfl⟩) ⟨fun _ => ?_, hlast⟩ ⟨?_, rfl⟩
  · rw [ConfigBpdu.ofBytes_toBytes]
    obtain ⟨hpos, hlt⟩ := hcost _ ((hthird true).2 i)
    refine fun _ _ => ⟨hpos, hlt, fun j hj hc => absurd hc.1 ?_⟩
    -- the other ports are disabled
    have hbridge : next (next (next net (false, .portEnable i)) (true, .portEnable i))
        (false, .tick 2000) true = (net true).portEnable i := by
      simp only [next_self, next_of_ne _ (show true ≠ false by decide), Stp.next]
    dsimp only
    rw [hbridge, Stp.info_portEnable, TreeInfo.enabled_portEnable hj]
    exact hdisabled j
  · refine ⟨.config config, ⟨false, i, hsegment, ?_⟩, rfl⟩
    rw [next_self, next_of_ne _ (by decide), next_self]
    exact hsent

end Meet

/-- Two bridges, all ports of which are attached to one segment. -/
def oneSegment : Bool → StpPortNo → Unit := fun _ _ => ()

/-- The identifiers that they are created with. -/
def bridgeIds : Bool → StpIdentifier
  | false => 1
  | true => 2

theorem stpMaxPorts_pos : 0 < stpMaxPorts := by decide

/-- The second bridge has heard of the first one. -/
def twoBridges : StpNetwork Bool :=
  meet ⟨0, stpMaxPorts_pos⟩ (helloOf (withDefaultPriority 1) 0x8001)
    (created (fun _ => true) bridgeIds)

theorem within_created : Within (fun b => {withDefaultPriority (bridgeIds b)}) (fun _ _ => {19})
    (created (fun _ => true) bridgeIds) := by
  intro b
  have hinfo := info_stpCreate true (bridgeIds b)
  unfold created
  generalize stpCreate true (bridgeIds b) = stp at hinfo ⊢
  exact ⟨congrArg (fun t : TreeInfo => t.bridge.bridgeId) hinfo,
    fun i => congrArg (fun t : TreeInfo => (t.port i).pathCost) hinfo⟩

theorem reachable_twoBridges : Transition.ReachableVia (Step oneSegment)
    (fun net e => (net e.1).Regular e.2 ∧
      Within (fun b => {withDefaultPriority (bridgeIds b)}) (fun _ _ => {19}) (next net e))
    (created (fun _ => true) bridgeIds) twoBridges := by
  refine reachable_meet within_created rfl (Stp.hello_of_portEnable true 1 _) (fun j => ?_) ?_
  · rw [created, info_stpCreate]
    exact fun hj => hj rfl
  · rintro cost rfl
    decide

/-- The tree of the second bridge. -/
theorem info_twoBridges : (twoBridges true).info =
    ((TreeInfo.created (withDefaultPriority 2)).portEnable ⟨0, by decide⟩).receivedBpdu
      ⟨0, by decide⟩ (helloOf (withDefaultPriority 1) 0x8001).toBytes := by
  rw [twoBridges, meet_true, Stp.info_receivedBpdu, Stp.info_portEnable, created, info_stpCreate,
    bridgeIds]

theorem bridge_twoBridges : (twoBridges true).info.bridge =
    { bridgeId := 0x8000000000000002, designatedRoot := 0x8000000000000001, rootPathCost := 19,
      rootPort := some ⟨0, by decide⟩ } := by
  rw [info_twoBridges]
  decide +kernel

/-- The second bridge takes the first one for the root, at the cost of its port. -/
theorem roots_of_twoBridges :
    Way oneSegment (fun b => {withDefaultPriority (bridgeIds b)}) (fun _ _ => {19})
      0x8000000000000001 true 19 := by
  obtain ⟨hway, -⟩ := roots_of_reachable within_created
    (reachable_twoBridges.mono fun _ _ h => h.2) true
  rw [← Stp.info_bridge, bridge_twoBridges] at hway
  exact hway

end StpNetwork

end OfAgent
