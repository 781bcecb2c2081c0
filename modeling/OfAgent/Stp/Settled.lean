import OfAgent.Lib.ParentMap
import OfAgent.Lib.Route
import OfAgent.Stp.Network
import OfAgent.Stp.Steady

/-!
# Settled networks

Networks of bridges in which no message changes anything any more.

* `StpNetwork.Settled`: every port knows what a designated port of its segment announces, and
  records nothing else of the messages of its segment. `StpNetwork.settled_of_records`: when a
  network has come to this.
* `StpNetwork.Settled.rest`: then these messages change nothing.
* `StpNetwork.portGraph`: bridges and segments, connected by ports.
* `StpNetwork.spanningTree_of_settled`: the ports that are not blocked span the network without a
  loop, and all bridges that are connected agree on the one with the least identifier as their root.
* `StpNetwork.shortestPaths_of_settled`: they reach it over shortest ways.
-/

namespace OfAgent

namespace TreeInfo

/-- A message that is received disables no port, and enables none. -/
theorem enabled_receivedBpdu (t : TreeInfo) (i : StpPortNo) (bpdu : List Byte) (j : StpPortNo) :
    (t.receivedBpdu i bpdu).Enabled j ↔ t.Enabled j := by
  unfold receivedBpdu
  split_ifs
  · rw [reconfigured, (sameButStates_portStateSelection _).enabled, enabled_configurationUpdate]
    unfold Enabled
    rcases eq_or_ne j i with rfl | hj
    · rw [port_modifyPort_self]
      rfl
    · rw [port_modifyPort_of_ne hj]
  · rfl

end TreeInfo

namespace StpNetwork

variable {β Λ : Type*} (segment : β → StpPortNo → Λ) (net : StpNetwork β)

/-- The port is enabled. -/
def Wired (b : β) (i : StpPortNo) : Prop := (net b).info.Enabled i

/-- The port is enabled and not blocked. -/
def Active (b : β) (i : StpPortNo) : Prop :=
  (net b).info.Enabled i ∧ ((net b).info.port i).state ≠ .blocking

/-- The port is enabled and designated. -/
def Speaks (b : β) (i : StpPortNo) : Prop := (net b).info.Enabled i ∧ (net b).info.Designated i

/-- The port knows what a message says. -/
def Knows (b : β) (i : StpPortNo) (config : ConfigBpdu) : Prop :=
  ((net b).info.port i).record config = (net b).info.port i

/-- No message changes anything any more, and what is known is still announced. -/
structure Settled : Prop where
  /-- When a message of its segment supersedes what a port knows, it says the same. -/
  quiet : ∀ b i b' j, Speaks net b i → Wired net b' j → segment b i = segment b' j →
    (net b').info.bridge.SupersedesPortInfo ((net b').info.port j) ((net b).configMessage i) →
      Knows net b' j ((net b).configMessage i)
  /-- What a port knows, a designated port of its segment announces. -/
  fresh : ∀ b i, Wired net b i →
    ∃ b' j, Speaks net b' j ∧ segment b' j = segment b i ∧ Knows net b i ((net b').configMessage j)

/-- Bridges and segments. A port that satisfies `p` connects its bridge with its segment. -/
def portGraph (p : β → StpPortNo → Prop) : SimpleGraph (β ⊕ Λ) where
  Adj x y := ∃ b i, p b i ∧
    (x = .inl b ∧ y = .inr (segment b i) ∨ x = .inr (segment b i) ∧ y = .inl b)
  symm := ⟨fun _ _ ⟨b, i, hp, h⟩ => ⟨b, i, hp, h.symm.imp And.symm And.symm⟩⟩
  loopless := ⟨fun x ⟨b, i, _, h⟩ => by
    rcases h with ⟨hx, hx'⟩ | ⟨hx, hx'⟩
    · exact Sum.inl_ne_inr (hx.symm.trans hx')
    · exact Sum.inr_ne_inl (hx.symm.trans hx')⟩

/-- From one bridge to another: a port of each is enabled and attached to the same segment, and the
length is the path cost of the port that is entered. -/
def Link (b b' : β) (length : ℕ) : Prop :=
  ∃ i j, Wired net b i ∧ Wired net b' j ∧ segment b i = segment b' j ∧
    length = ((net b').ports j).pathCost.toNat

/-- Every event of a run is regular for its bridge. -/
def Regular (net : StpNetwork β) (e : β × StpEvent) : Prop := (net e.1).Regular e.2

variable {segment net} {b b' : β} {i j : StpPortNo}

/-- The trees of all bridges are steady in every run of regular events. -/
theorem steady_of_reachable [DecidableEq β] {bigEndian : β → Bool} {bridgeId : β → StpIdentifier}
    (h : Transition.ReachableVia (Step segment) Regular (created bigEndian bridgeId) net) (b : β) :
    (net b).info.Steady := by
  refine forall_of_reachable (P := fun _ stp => stp.info.Steady) h (fun b => ?_)
    (fun hsteady hregular _ => TreeInfo.steady_next (hsteady _) hregular) b
  rw [created, info_stpCreate]
  exact TreeInfo.steady_created _

/-! ### Messages -/

/-- What a message says is what its bridge claims. -/
theorem knows_iff : Knows net b i ((net b').configMessage j) ↔
    ((net b).info.port i).designatedRoot = (net b').designatedRoot ∧
      ((net b).info.port i).designatedCost = (net b').rootPathCost ∧
        ((net b).info.port i).designatedBridge = (net b').bridgeId ∧
          ((net b).info.port i).designatedPort = ((net b').ports j).portId := by
  unfold Knows PortInfo.record
  generalize (net b).info.port i = p
  constructor
  · intro h
    exact ⟨congrArg PortInfo.designatedRoot h.symm, congrArg PortInfo.designatedCost h.symm,
      congrArg PortInfo.designatedBridge h.symm, congrArg PortInfo.designatedPort h.symm⟩
  · rintro ⟨hroot, hcost, hbridge, hport⟩
    show PortInfo.mk _ _ _ (net b').designatedRoot (net b').rootPathCost (net b').bridgeId
      ((net b').ports j).portId = PortInfo.mk _ _ _ _ _ _ _
    rw [hroot, hcost, hbridge, hport]

/-- A message that is not too old is recorded when it supersedes what the port knows. -/
theorem records_iff {config : ConfigBpdu} (henabled : Wired net b i)
    (hyoung : config.messageAge < config.maxAge) : (net b).info.Records i config.toBytes ↔
      (net b).info.bridge.SupersedesPortInfo ((net b).info.port i) config := by
  have hlength := config.length_toBytes
  have hprotocol : be16 config.toBytes 0 = 0 :=
    (show be16 config.toBytes 0 = 0#8 ++ 0#8 from rfl).trans (by decide)
  have htype : (config.toBytes.getD 3 0).toNat = 0 := rfl
  unfold TreeInfo.Records
  rw [ConfigBpdu.ofBytes_toBytes, hprotocol, htype, hlength]
  exact ⟨fun h => h.2.2.2.2.2, fun h => ⟨henabled, rfl, rfl, le_refl _, hyoung, h⟩⟩

/-- A network is settled when the messages of its designated ports are not too old, what the ports
record of them is what they know, and what they know is still announced. -/
theorem settled_of_records
    (hyoung : ∀ b i, Speaks net b i →
      ((net b).configMessage i).messageAge < ((net b).configMessage i).maxAge)
    (hquiet : ∀ b i b' j, Speaks net b i → segment b i = segment b' j →
      (net b').info.Records j ((net b).configMessage i).toBytes →
        Knows net b' j ((net b).configMessage i))
    (hfresh : ∀ b i, Wired net b i → ∃ b' j, Speaks net b' j ∧ segment b' j = segment b i ∧
      Knows net b i ((net b').configMessage j)) : Settled segment net where
  quiet b i b' j hb hj hs hsupersedes :=
    hquiet b i b' j hb hs ((records_iff hj (hyoung b i hb)).2 hsupersedes)
  fresh := hfresh

/-! ### Designated ports -/

theorem port_of_speaks (hsteady : ∀ b, (net b).info.Steady) (hb : Speaks net b i) :
    Knows net b i ((net b).configMessage i) :=
  (hsteady b).port_of_designated hb.1 hb.2

/-- Of two messages, one supersedes what the port of the other bridge knows. -/
theorem supersedes_total (hsteady : ∀ b, (net b).info.Steady) (hb : Speaks net b i)
    (hb' : Speaks net b' j) :
    (net b').info.bridge.SupersedesPortInfo ((net b').info.port j) ((net b).configMessage i) ∨
      (net b).info.bridge.SupersedesPortInfo ((net b).info.port i) ((net b').configMessage j) := by
  obtain ⟨hroot, hcost, hbridge, hport⟩ := knows_iff.1 (port_of_speaks hsteady hb)
  obtain ⟨hroot', hcost', hbridge', hport'⟩ := knows_iff.1 (port_of_speaks hsteady hb')
  unfold BridgeInfo.SupersedesPortInfo
  rw [hroot, hcost, hbridge, hport, hroot', hcost', hbridge', hport']
  simp only [Stp.configMessage, Stp.info_bridge, BitVec.lt_def, BitVec.le_def, ne_eq,
    ← BitVec.toNat_inj]
  split_ifs <;> omega

section Settled

variable (hsteady : ∀ b, (net b).info.Steady) (hsettled : Settled segment net)

include hsteady hsettled

/-- What a designated port of its segment would send changes nothing about a bridge. -/
theorem Settled.rest (hb : Speaks net b i) (hs : segment b i = segment b' j) :
    ((net b').receivedBpdu j ((net b).configMessage i).toBytes).info = (net b').info := by
  rw [Stp.info_receivedBpdu, TreeInfo.receivedBpdu]
  split_ifs with hrecords
  · have hsupersedes := hrecords.2.2.2.2.2
    rw [ConfigBpdu.ofBytes_toBytes] at hsupersedes
    have hknows := hsettled.quiet b i b' j hb hrecords.1 hs hsupersedes
    have hsame : ((net b').info.modifyPort j fun p => p.record ((net b).configMessage i)) =
        (net b').info := TreeInfo.modifyPort_of_eq _ hknows
    rw [ConfigBpdu.ofBytes_toBytes, hsame]
    exact (hsteady b').reconfigured_eq
  · rfl

variable (hids : Function.Injective fun b => (net b).bridgeId)

include hids

/-- A bridge that records a message of another designated port would be the same, and so would the
port. -/
theorem Settled.eq_of_supersedes (hb : Speaks net b i) (hb' : Speaks net b' j)
    (hs : segment b i = segment b' j)
    (hsupersedes : (net b').info.bridge.SupersedesPortInfo ((net b').info.port j)
      ((net b).configMessage i)) : b = b' ∧ i = j := by
  obtain ⟨-, -, hbridge, hport⟩ := knows_iff.1 (hsettled.quiet b i b' j hb hb'.1 hs hsupersedes)
  obtain ⟨-, -, hbridge', hport'⟩ := knows_iff.1 (port_of_speaks hsteady hb')
  obtain rfl : b = b' := hids (hbridge.symm.trans hbridge')
  exact ⟨rfl, (hsteady b).numbered.eq_of_portId (hport.symm.trans hport')⟩

/-- Each segment has one designated port. -/
theorem Settled.speaker_eq (hb : Speaks net b i) (hb' : Speaks net b' j)
    (hs : segment b i = segment b' j) : b = b' ∧ i = j := by
  rcases supersedes_total hsteady hb hb' with hsupersedes | hsupersedes
  · exact hsettled.eq_of_supersedes hsteady hids hb hb' hs hsupersedes
  · obtain ⟨rfl, rfl⟩ := hsettled.eq_of_supersedes hsteady hids hb' hb hs.symm hsupersedes
    exact ⟨rfl, rfl⟩

/-- Every port knows what the designated port of its segment announces. -/
theorem Settled.knows_of_speaks {d : β} {k : StpPortNo} (hd : Speaks net d k)
    (hi : Wired net b i) (hs : segment d k = segment b i) :
    Knows net b i ((net d).configMessage k) := by
  obtain ⟨d', k', hd', hs', hknows⟩ := hsettled.fresh b i hi
  obtain ⟨rfl, rfl⟩ := hsettled.speaker_eq hsteady hids hd hd' (hs.trans hs'.symm)
  exact hknows

/-- A bridge has the root of the designated ports of its segments, and no shorter way to it. -/
theorem Settled.root_eq {d : β} {k : StpPortNo} (hd : Speaks net d k) (hi : Wired net b i)
    (hs : segment d k = segment b i) :
    (net d).designatedRoot = (net b).designatedRoot ∧
      (net d).rootPathCost.toNat ≤ (net b).rootPathCost.toNat := by
  obtain ⟨hroot, hcost, -⟩ := knows_iff.1 (hsettled.knows_of_speaks hsteady hids hd hi hs)
  obtain ⟨hroot', hcost'⟩ := (hsteady b).port_of_enabled hi
  rw [hroot] at hroot'
  rw [hcost] at hcost'
  exact ⟨hroot', hcost'⟩

/-- The way of a bridge to its root leads through the designated port of the segment of its root
port. -/
theorem Settled.of_rootPort (hroot : (net b).rootPort = some i) :
    ∃ d k, Speaks net d k ∧ segment d k = segment b i ∧
      (net d).designatedRoot = (net b).designatedRoot ∧
        (net b).rootPathCost.toNat =
          (net d).rootPathCost.toNat + ((net b).ports i).pathCost.toNat := by
  obtain ⟨hi, -, -, hcost⟩ := (hsteady b).of_rootPort hroot
  obtain ⟨d, k, hd, hs, hknows⟩ := hsettled.fresh b i hi
  refine ⟨d, k, hd, hs, (hsettled.root_eq hsteady hids hd hi hs).1, ?_⟩
  rw [PortInfo.costToRoot, (knows_iff.1 hknows).2.1] at hcost
  exact hcost

/-! ### The tree -/

omit hsteady hsettled hids in
open Classical in
variable (segment net) in
/-- The bridge of the designated port of a segment. -/
noncomputable def speakerOf (s : Λ) : Option β :=
  if h : ∃ b i, Speaks net b i ∧ segment b i = s then some h.choose else none

theorem Settled.speakerOf_eq {d : β} {k : StpPortNo} (hd : Speaks net d k) :
    speakerOf segment net (segment d k) = some d := by
  have h : ∃ b i, Speaks net b i ∧ segment b i = segment d k := ⟨d, k, hd, rfl⟩
  obtain ⟨k', hd', hs⟩ := h.choose_spec
  rw [speakerOf, dif_pos h, (hsettled.speaker_eq hsteady hids hd' hd hs).1]

omit hsteady hsettled hids in
theorem exists_of_speakerOf {s : Λ} {d : β} (h : speakerOf segment net s = some d) :
    ∃ k, Speaks net d k ∧ segment d k = s := by
  unfold speakerOf at h
  split_ifs at h with hexists
  obtain rfl := Option.some.inj h
  exact hexists.choose_spec

/-- The parent of a bridge is the segment of its root port, and that of a segment is the bridge of
its designated port. -/
noncomputable def Settled.parents : ParentMap (β ⊕ Λ) where
  parent
    | .inl b => (net b).rootPort.map fun i => .inr (segment b i)
    | .inr s => (speakerOf segment net s).map .inl
  rank
    | .inl b => 2 * (net b).rootPathCost.toNat
    | .inr s =>
        match speakerOf segment net s with
        | some d => 2 * (net d).rootPathCost.toNat + 1
        | none => 0
  rank_lt {x y} h := by
    cases x with
    | inl b =>
      obtain ⟨r, hroot, rfl⟩ := Option.map_eq_some_iff.1 h
      obtain ⟨d, k, hd, hs, -, hcost⟩ := hsettled.of_rootPort hsteady hids hroot
      have hr := (hsteady b).of_rootPort hroot
      have hpos : 0 < ((net b).ports r).pathCost.toNat :=
        (hsteady b).pathCost_pos r ⟨hr.1, hr.2.1⟩
      rw [← hs]
      simp only [hsettled.speakerOf_eq hsteady hids hd]
      omega
    | inr s =>
      obtain ⟨d, hd, rfl⟩ := Option.map_eq_some_iff.1 h
      simp only [hd]
      omega

/-- The ports that are not blocked connect bridges and segments with their parents. -/
theorem Settled.portGraph_active :
    portGraph segment (Active net) = (hsettled.parents hsteady hids).graph := by
  -- a port that is not blocked is the root port or designated
  have hto : ∀ {b i}, Active net b i →
      (hsettled.parents hsteady hids).graph.Adj (.inl b) (.inr (segment b i)) := by
    intro b i hactive
    rcases ((hsteady b).active_iff hactive.1).1 hactive.2 with hroot | hd
    · refine .inl ?_
      show (net b).rootPort.map _ = _
      rw [show (net b).rootPort = some i from hroot]
      rfl
    · refine .inr ?_
      show (speakerOf segment net (segment b i)).map _ = _
      rw [hsettled.speakerOf_eq hsteady hids ⟨hactive.1, hd⟩]
      rfl
  have hof : ∀ {x y}, (hsettled.parents hsteady hids).parent x = some y →
      (portGraph segment (Active net)).Adj x y := by
    intro x y h
    cases x with
    | inl b =>
      obtain ⟨r, hroot, rfl⟩ := Option.map_eq_some_iff.1 h
      have hi := ((hsteady b).of_rootPort hroot).1
      exact ⟨b, r, ⟨hi, ((hsteady b).active_iff hi).2 (.inl hroot)⟩, .inl ⟨rfl, rfl⟩⟩
    | inr s =>
      obtain ⟨d, hspeaker, rfl⟩ := Option.map_eq_some_iff.1 h
      obtain ⟨k, hd, rfl⟩ := exists_of_speakerOf hspeaker
      exact ⟨d, k, ⟨hd.1, ((hsteady d).active_iff hd.1).2 (.inr hd.2)⟩, .inr ⟨rfl, rfl⟩⟩
  ext x y
  constructor
  · rintro ⟨b, i, hactive, ⟨rfl, rfl⟩ | ⟨rfl, rfl⟩⟩
    · exact hto hactive
    · exact (hto hactive).symm
  · rintro (h | h)
    · exact hof h
    · exact (hof h).symm

/-! ### Roots -/

omit hsteady hsettled hids in
variable (segment net) in
/-- The root of a bridge, or of the bridge of the designated port of a segment. -/
noncomputable def rootOf : β ⊕ Λ → StpIdentifier
  | .inl b => (net b).designatedRoot
  | .inr s => ((speakerOf segment net s).map fun d => (net d).designatedRoot).getD 0

/-- A bridge and the segments of its ports have the same root. -/
theorem Settled.rootOf_port (hi : Wired net b i) :
    rootOf segment net (.inr (segment b i)) = (net b).designatedRoot := by
  obtain ⟨d, k, hd, hs, -⟩ := hsettled.fresh b i hi
  rw [rootOf, ← hs, hsettled.speakerOf_eq hsteady hids hd]
  exact (hsettled.root_eq hsteady hids hd hi hs).1

/-- Parents have the same root. -/
theorem Settled.rootOf_parent {x y : β ⊕ Λ}
    (h : (hsettled.parents hsteady hids).parent x = some y) :
    rootOf segment net y = rootOf segment net x := by
  cases x with
  | inl b =>
    obtain ⟨r, hroot, rfl⟩ := Option.map_eq_some_iff.1 h
    exact hsettled.rootOf_port hsteady hids ((hsteady b).of_rootPort hroot).1
  | inr s =>
    obtain ⟨d, hspeaker, rfl⟩ := Option.map_eq_some_iff.1 h
    rw [rootOf, rootOf, hspeaker]
    rfl

/-- What is connected has the same root. -/
theorem Settled.rootOf_eq {x y : β ⊕ Λ} (h : (portGraph segment (Wired net)).Reachable x y) :
    rootOf segment net x = rootOf segment net y := by
  obtain ⟨walk⟩ := h
  induction walk with
  | nil => rfl
  | cons hadj _ ih =>
    rw [← ih]
    obtain ⟨b, i, hi, ⟨rfl, rfl⟩ | ⟨rfl, rfl⟩⟩ := hadj
    · exact (hsettled.rootOf_port hsteady hids hi).symm
    · exact hsettled.rootOf_port hsteady hids hi

/-- The parents of a bridge lead to its root. -/
theorem Settled.exists_rootBridge (b : β) :
    ∃ b₀, (hsettled.parents hsteady hids).Ancestor (.inl b) (.inl b₀) ∧
      (net b₀).bridgeId = (net b).designatedRoot := by
  obtain ⟨r, hr, hnone⟩ := (hsettled.parents hsteady hids).exists_root (.inl b)
  cases r with
  | inl b₀ =>
    refine ⟨b₀, hr, ?_⟩
    have hroot : (net b₀).rootPort = none := Option.map_eq_none_iff.1 hnone
    have heq := hr.eq fun h => hsettled.rootOf_parent hsteady hids h
    exact ((hsteady b₀).of_rootPort_none hroot).1.symm.trans heq
  | inr s =>
    -- only the segment of a root port is a parent, and it has one itself
    obtain heq | ⟨x, -, hx⟩ := Relation.ReflTransGen.cases_tail hr
    · cases heq
    · cases x with
      | inl b' =>
        obtain ⟨i, hroot, hs⟩ := Option.map_eq_some_iff.1 hx
        obtain rfl := Sum.inr.inj hs
        obtain ⟨d, k, hd, hs, -⟩ := hsettled.of_rootPort hsteady hids hroot
        have hnone : speakerOf segment net (segment b' i) = none := Option.map_eq_none_iff.1 hnone
        rw [← hs, hsettled.speakerOf_eq hsteady hids hd] at hnone
        cases hnone
      | inr s' =>
        obtain ⟨d, -, hd⟩ := Option.map_eq_some_iff.1 hx
        cases hd

/-- A bridge and the segment of a port have a common ancestor: their root. -/
theorem Settled.exists_ancestor (hi : Wired net b i) :
    ∃ r, (hsettled.parents hsteady hids).Ancestor (.inl b) r ∧
      (hsettled.parents hsteady hids).Ancestor (.inr (segment b i)) r := by
  obtain ⟨b₀, hb₀, hroot⟩ := hsettled.exists_rootBridge hsteady hids b
  obtain ⟨d, k, hd, hs, -⟩ := hsettled.fresh b i hi
  obtain ⟨d₀, hd₀, hroot'⟩ := hsettled.exists_rootBridge hsteady hids d
  have heq := (hsettled.root_eq hsteady hids hd hi hs).1
  obtain rfl : d₀ = b₀ := hids (hroot'.trans (heq.trans hroot.symm))
  refine ⟨.inl d₀, hb₀, .head ?_ hd₀⟩
  show (speakerOf segment net (segment b i)).map _ = _
  rw [← hs, hsettled.speakerOf_eq hsteady hids hd]
  rfl

end Settled

/-! ### Two bridges -/

/-- Both bridges have one enabled port. -/
theorem wired_twoBridges (b : Bool) (i : StpPortNo) :
    Wired twoBridges b i ↔ i = ⟨0, by decide⟩ := by
  cases b with
  | false =>
    have hsame := Stp.sameButStates_hello true 1 ⟨0, by decide⟩
    rw [← (TreeInfo.portEnable_created (withDefaultPriority 1) ⟨0, by decide⟩).2.2 i,
      ← hsame.enabled i]
    unfold Wired
    rw [twoBridges, meet_false, created, bridgeIds]
  | true =>
    rw [← (TreeInfo.portEnable_created (withDefaultPriority 2) ⟨0, by decide⟩).2.2 i]
    unfold Wired
    rw [info_twoBridges]
    exact TreeInfo.enabled_receivedBpdu _ _ _ _

/-- That of the first one is designated, and it says so. -/
theorem message_twoBridges : Speaks twoBridges false ⟨0, by decide⟩ ∧
    (twoBridges false).info.bridge = (TreeInfo.created (withDefaultPriority 1)).bridge ∧
      ((twoBridges false).info.port ⟨0, by decide⟩).portId = 0x8001 := by
  have hsame := Stp.sameButStates_hello true 1 ⟨0, by decide⟩
  obtain ⟨hbridge, hport, -⟩ :=
    TreeInfo.portEnable_created (withDefaultPriority 1) ⟨0, by decide⟩
  have hwired := (wired_twoBridges false ⟨0, by decide⟩).2 rfl
  unfold Speaks
  unfold Wired at hwired
  rw [twoBridges, meet_false, created, bridgeIds] at hwired ⊢
  generalize ((stpCreate true 1).portEnable ⟨0, by decide⟩).tick 2000 = stp at *
  refine ⟨⟨hwired, ?_⟩, ?_, ?_⟩
  · rw [hsame.designated]
    unfold TreeInfo.Designated
    rw [hbridge, hport]
    exact ⟨rfl, rfl⟩
  · rw [hsame.bridge, hbridge]
  · rw [hsame.port, hport]
    rfl

/-- The port of the second one knows the message, and is not designated. -/
theorem port_twoBridges : ¬ Speaks twoBridges true ⟨0, by decide⟩ ∧
    Knows twoBridges true ⟨0, by decide⟩ ((twoBridges false).configMessage ⟨0, by decide⟩) := by
  obtain ⟨-, hbridge, hportId⟩ := message_twoBridges
  rw [Stp.info_bridge] at hbridge
  rw [Stp.info_port] at hportId
  rw [knows_iff, hbridge, hportId, Speaks, info_twoBridges]
  decide +kernel

theorem settled_twoBridges : Settled oneSegment twoBridges := by
  have hsteady := steady_of_reachable (reachable_twoBridges.mono fun _ _ h => h.1)
  -- only the port of the first bridge is designated
  have hspeaks : ∀ {b i}, Speaks twoBridges b i → b = false ∧ i = ⟨0, by decide⟩ := by
    intro b i hi
    obtain rfl := (wired_twoBridges b i).1 hi.1
    cases b with
    | false => exact ⟨rfl, rfl⟩
    | true => exact absurd hi port_twoBridges.1
  have hknows : ∀ b, Knows twoBridges b ⟨0, by decide⟩
      ((twoBridges false).configMessage ⟨0, by decide⟩) := by
    intro b
    cases b with
    | false => exact port_of_speaks hsteady message_twoBridges.1
    | true => exact port_twoBridges.2
  constructor
  · intro b i b' j hb hj _ _
    obtain ⟨rfl, rfl⟩ := hspeaks hb
    obtain rfl := (wired_twoBridges b' j).1 hj
    exact hknows b'
  · intro b i hi
    obtain rfl := (wired_twoBridges b i).1 hi
    exact ⟨false, _, message_twoBridges.1, rfl, hknows b⟩

theorem injective_twoBridges : Function.Injective fun b => (twoBridges b).bridgeId := by
  obtain ⟨-, hfirst, -⟩ := message_twoBridges
  have hsecond := bridge_twoBridges
  have hne : (twoBridges false).info.bridge.bridgeId ≠ (twoBridges true).info.bridge.bridgeId := by
    rw [hfirst, hsecond]
    decide
  rw [Stp.info_bridge, Stp.info_bridge] at hne
  intro b b' heq
  cases b <;> cases b'
  · rfl
  · exact absurd heq hne
  · exact absurd heq.symm hne
  · rfl

theorem connected_twoBridges :
    (portGraph oneSegment (Wired twoBridges)).Reachable (.inl true) (.inl false) := by
  have hadj : ∀ b, (portGraph oneSegment (Wired twoBridges)).Adj (.inl b) (.inr ()) :=
    fun b => ⟨b, ⟨0, by decide⟩, (wired_twoBridges b _).2 rfl, .inl ⟨rfl, rfl⟩⟩
  exact (hadj true).reachable.trans (hadj false).symm.reachable

/-! ### Runs -/

variable [DecidableEq β] {bigEndian : β → Bool} {bridgeId : β → StpIdentifier}

/-- In a settled network that a run of regular events reaches, with bridges that have different
identifiers: the ports that are not blocked connect bridges and segments without a loop, and all
those that the enabled ports connect. All bridges that are connected have the same root, which is
one of them and has the least identifier. -/
theorem spanningTree_of_settled
    (h : Transition.ReachableVia (Step segment) Regular (created bigEndian bridgeId) net)
    (hids : Function.Injective fun b => (net b).bridgeId) (hsettled : Settled segment net) :
    (portGraph segment (Active net)).IsAcyclic ∧
      (∀ b i j, Active net b i → Active net b j → segment b i = segment b j → i = j) ∧
      (∀ x y, (portGraph segment (Wired net)).Reachable x y →
        (portGraph segment (Active net)).Reachable x y) ∧
      ∀ b, ∃ b₀, (portGraph segment (Wired net)).Reachable (.inl b) (.inl b₀) ∧
        ∀ b', (portGraph segment (Wired net)).Reachable (.inl b) (.inl b') →
          (net b').designatedRoot = (net b₀).bridgeId ∧
            (net b₀).bridgeId ≤ (net b').bridgeId := by
  have hsteady := steady_of_reachable h
  have hactive := hsettled.portGraph_active hsteady hids
  refine ⟨?_, fun b i j hi hj hs => ?_, fun x y hconnected => ?_, fun b => ?_⟩
  · rw [hactive]
    exact ParentMap.isAcyclic_graph _
  · -- a root port is not attached to a segment that its bridge is designated for
    have hnot : ∀ {i j}, (net b).rootPort = some i → Speaks net b j →
        segment b i ≠ segment b j := by
      intro i j hroot hj hs
      obtain ⟨d, k, hd, hs', -, hcost⟩ := hsettled.of_rootPort hsteady hids hroot
      obtain ⟨rfl, rfl⟩ := hsettled.speaker_eq hsteady hids hd hj (hs'.trans hs)
      have hi := (hsteady d).of_rootPort hroot
      have hpos : 0 < ((net d).ports i).pathCost.toNat :=
        (hsteady d).pathCost_pos i ⟨hi.1, hi.2.1⟩
      omega
    rcases ((hsteady b).active_iff hi.1).1 hi.2 with hroot | hd
    · rcases ((hsteady b).active_iff hj.1).1 hj.2 with hroot' | hd'
      · exact Option.some.inj (hroot.symm.trans hroot')
      · exact absurd hs (hnot hroot ⟨hj.1, hd'⟩)
    · rcases ((hsteady b).active_iff hj.1).1 hj.2 with hroot' | hd'
      · exact absurd hs.symm (hnot hroot' ⟨hi.1, hd⟩)
      · exact (hsettled.speaker_eq hsteady hids ⟨hi.1, hd⟩ ⟨hj.1, hd'⟩ hs).2
  · rw [hactive]
    refine ParentMap.reachable_of_reachable ?_ hconnected
    rintro x y ⟨b, i, hi, ⟨rfl, rfl⟩ | ⟨rfl, rfl⟩⟩
    · exact hsettled.exists_ancestor hsteady hids hi
    · obtain ⟨r, hb, hs⟩ := hsettled.exists_ancestor hsteady hids hi
      exact ⟨r, hs, hb⟩
  · obtain ⟨b₀, hancestor, hroot⟩ := hsettled.exists_rootBridge hsteady hids b
    refine ⟨b₀, ?_, fun b' hb' => ?_⟩
    · have hreachable := hancestor.reachable
      rw [← hactive] at hreachable
      refine hreachable.mono ?_
      rintro x y ⟨b, i, hi, hxy⟩
      exact ⟨b, i, hi.1, hxy⟩
    · have heq : (net b).designatedRoot = (net b').designatedRoot :=
        hsettled.rootOf_eq hsteady hids hb'
      have hle : (net b').designatedRoot ≤ (net b').bridgeId := rootLe_of_reachable h.reachable b'
      rw [hroot, heq]
      exact ⟨rfl, hle⟩

/-- The ports of two bridges connect them without a loop. -/
theorem spanningTree_twoBridges :
    (portGraph oneSegment (Active twoBridges)).IsAcyclic ∧
      (portGraph oneSegment (Active twoBridges)).Reachable (.inl true) (.inl false) := by
  obtain ⟨hacyclic, -, hspanning, -⟩ :=
    spanningTree_of_settled (reachable_twoBridges.mono fun _ _ h => h.1) injective_twoBridges
      settled_twoBridges
  exact ⟨hacyclic, hspanning _ _ connected_twoBridges⟩

/-- In such a network the cost that a bridge claims for the way to its root is the length of a
shortest way over enabled ports. -/
theorem shortestPaths_of_settled
    (h : Transition.ReachableVia (Step segment) Regular (created bigEndian bridgeId) net)
    (hids : Function.Injective fun b => (net b).bridgeId) (hsettled : Settled segment net)
    {b₀ : β} (hroot : (net b₀).IsRootBridge)
    (hconnected : (portGraph segment (Wired net)).Reachable (.inl b) (.inl b₀)) :
    IsLeast {length | Route (Link segment net) b₀ b length} (net b).rootPathCost.toNat := by
  have hsteady := steady_of_reachable h
  have heq : (net b).designatedRoot = (net b₀).designatedRoot :=
    hsettled.rootOf_eq hsteady hids hconnected
  refine Route.isLeast_of_potential (fun b => (net b).rootPathCost.toNat)
    (fun b => (net b).designatedRoot = (net b₀).bridgeId) ?_ ?_ ?_ (heq.trans hroot.symm)
  · exact ((hsteady b₀).of_rootPort_none ((hsteady b₀).rootPort_of_isRootBridge hroot)).2
  · rintro x y step ⟨i, j, hi, hj, hs, rfl⟩
    -- the designated port of the segment has no longer way than either bridge
    obtain ⟨d, k, hd, hs', -⟩ := hsettled.fresh x i hi
    have hcost := (hsettled.root_eq hsteady hids hd hi hs').2
    have hknows := hsettled.knows_of_speaks hsteady hids hd hj (hs'.trans hs)
    have hle := (hsteady y).cost_le hj
    rw [PortInfo.costToRoot, (knows_iff.1 hknows).2.1] at hle
    exact hle.trans (Nat.add_le_add_right hcost _)
  · intro y hy hne
    cases hport : (net y).rootPort with
    | none =>
      have hself : (net y).designatedRoot = (net y).bridgeId :=
        ((hsteady y).of_rootPort_none hport).1
      exact absurd (hids (hself.symm.trans hy)) hne
    | some r =>
      obtain ⟨d, k, hd, hs, heq, hcost⟩ := hsettled.of_rootPort hsteady hids hport
      obtain ⟨hi, hnot, -⟩ := (hsteady y).of_rootPort hport
      exact ⟨d, _, heq.trans hy, ⟨k, r, hd.1, hi, hs, rfl⟩, hcost,
        (hsteady y).pathCost_pos r ⟨hi, hnot⟩⟩

/-- The shortest way from the first of two bridges to the second one has the length 19. -/
theorem shortestPaths_twoBridges :
    IsLeast {length | Route (Link oneSegment twoBridges) false true length} 19 := by
  have hroot : (twoBridges false).IsRootBridge := by
    rw [← Stp.info_bridge, message_twoBridges.2.1]
    exact rfl
  have hleast := shortestPaths_of_settled (reachable_twoBridges.mono fun _ _ h => h.1)
    injective_twoBridges settled_twoBridges hroot connected_twoBridges
  rw [← Stp.info_bridge, bridge_twoBridges] at hleast
  exact hleast

end StpNetwork

end OfAgent
