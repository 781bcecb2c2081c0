import OfAgent.Packet.Checksum
import OfAgent.Secchan.FlowSetup
import OfAgent.Secchan.LearningSwitch

/-!
# Flows to ports that do not forward

The learning switch goes through the flows of the datapath after the state of a port has changed,
and sends a strict deletion for each one that comes from a port that must not receive or goes to one
that must not send. The message starts out as zeros, and only the match and the command are filled
in.

* `Lswitch.processFlowStats`: `process_flow_stats`, with the message that it sends.
* `Datapath.RemovesExactly`: a message takes one entry out of the tables.
* `removesExactly_deletion_iff`: the message of the learning switch takes out the entry that it has
  been sent for, exactly when the host is big-endian, the entry has an output to port 0 and the
  priority 0 if it has wildcards, and no second entry is the same flow. The command is not
  converted, and neither `out_port` nor the priority is set.
-/

namespace OfAgent

/-! ### The deletion -/

namespace Lswitch

variable (sw : Lswitch) (host : HostOrder)

/-- The loop over actions of `process_flow_stats`: the flow forwards to a port that must not send.
An action without a length is looked at forever. -/
def anyOutput : ℕ → List Byte → Option Bool
  | _, [] => some false
  | 0, _ :: _ => none
  | turns + 1, a :: as =>
      let len := actionLen (a :: as)
      if (a :: as).length < len then some false
      else if len % 8 ≠ 0 then some false
      else if actionType (a :: as) = ofpatOutput ∧ sw.maySend (be16 (a :: as) 4) = false then
        some true
      else anyOutput turns ((a :: as).drop len)

/-- The decision of `process_flow_stats`, if it is made. -/
def decidesToDelete (ofs : OfpFlowStats) : Option Bool :=
  let size := ofs.length.toNat - sizeofOfpFlowStats
  -- a flow that drops everything may stay on a port that must not receive
  if wild ofs.ofpMatch.wildcards ofpfwInPort = false ∧
      sw.mayRecv ofs.ofpMatch.inPort (0 < size) = false then
    some true
  else sw.anyOutput size (ofs.actions.take size)

/-- The message that `process_flow_stats` sends. The command goes into it without `htons`. -/
def deletion (ofs : OfpFlowStats) : OfpFlowMod where
  ofpMatch := ofs.ofpMatch
  cookie := 0
  command := host.ofNet ofpfcDeleteStrict
  idleTimeout := 0
  hardTimeout := 0
  priority := 0
  bufferId := 0
  outPort := 0
  flags := 0
  actions := []
  length_lt := length_noActions

/-- `process_flow_stats`: what is sent. -/
def processFlowStats (ofs : OfpFlowStats) : Option (List OfpFlowMod) :=
  (sw.decidesToDelete ofs).map fun delete => if delete then [deletion host ofs] else []

/-- What is sent for an entry does not depend on why it is sent. -/
theorem eq_deletion_of_mem {ofs : OfpFlowStats} {sent : List OfpFlowMod}
    (h : sw.processFlowStats host ofs = some sent) {ofm : OfpFlowMod} (hofm : ofm ∈ sent) :
    ofm = deletion host ofs := by
  unfold processFlowStats at h
  obtain ⟨delete, -, rfl⟩ := Option.map_eq_some_iff.1 h
  cases delete with
  | true => exact List.mem_singleton.1 hofm
  | false => exact absurd hofm List.not_mem_nil

variable {sw host}

/-- The deletion is sent when it has been decided on. -/
theorem processFlowStats_of_decidesToDelete {ofs : OfpFlowStats}
    (h : sw.decidesToDelete ofs = some true) :
    sw.processFlowStats host ofs = some [deletion host ofs] := by
  rw [processFlowStats, h]
  rfl

end Lswitch

/-! ### Taking out one entry -/

/-- A filter takes one element out of a list, exactly when it is the only one that is filtered
out. -/
theorem filter_eq_erased_iff {α : Type*} {p : α → Bool} {l : List α} {a : α} :
    (∃ pre post, l = pre ++ a :: post ∧ l.filter (fun b => !p b) = pre ++ post) ↔
      l.filter p = [a] := by
  constructor
  · rintro ⟨pre, post, rfl, hfilter⟩
    -- what is left is not filtered out
    have hleft : ∀ b ∈ pre ++ post, p b = false := by
      intro b hb
      rw [← hfilter] at hb
      simpa using (List.mem_filter.1 hb).2
    have hpre : pre.filter p = [] :=
      List.filter_eq_nil_iff.2 fun b hb => by simp [hleft b (List.mem_append_left _ hb)]
    have hpost : post.filter p = [] :=
      List.filter_eq_nil_iff.2 fun b hb => by simp [hleft b (List.mem_append_right _ hb)]
    have hlen := congrArg List.length hfilter
    have hsum := List.length_eq_length_filter_add (l := pre ++ a :: post) p
    rw [List.length_append] at hlen
    rw [List.filter_append, List.filter_cons, hpre, hpost] at hsum ⊢
    split at hsum
    next ha => rw [if_pos ha, List.nil_append]
    next =>
      simp only [List.append_nil, List.length_nil, Nat.zero_add, List.length_append,
        List.length_cons] at hsum
      omega
  · intro hfilter
    have hmem : a ∈ l := (List.mem_filter.1 (hfilter ▸ List.mem_singleton_self a)).1
    obtain ⟨pre, post, rfl⟩ := List.append_of_mem hmem
    refine ⟨pre, post, rfl, ?_⟩
    have ha : p a = true := (List.mem_filter.1 (hfilter ▸ List.mem_singleton_self a : a ∈ _)).2
    rw [List.filter_append, List.filter_cons, if_pos ha] at hfilter
    -- nothing else is filtered out
    have hlen := congrArg List.length hfilter
    rw [List.length_append, List.length_cons, List.length_singleton] at hlen
    have hpre : pre.filter p = [] := List.length_eq_zero_iff.1 (by omega)
    have hpost : post.filter p = [] := List.length_eq_zero_iff.1 (by omega)
    rw [List.filter_append, List.filter_cons, if_neg (by simp [ha])]
    congr 1
    · exact List.filter_eq_self.2 fun b hb => by simpa using List.filter_eq_nil_iff.1 hpre b hb
    · exact List.filter_eq_self.2 fun b hb => by simpa using List.filter_eq_nil_iff.1 hpost b hb

/-- A strict description with the key and the priority of an entry and an output port selects the
entries that are the same flow and have this output. -/
theorem deletes_eq_identical_and {f flow : SwFlow} (hf : f.WellFormed) (hflow : flow.WellFormed)
    (outPort : BitVec 16) :
    SwTableLinear.deletes flow.key outPort flow.priority true f =
      (f.identical flow && f.flowHasOutPort outPort) := by
  rw [← deletes_eq_identical hf hflow, SwTableLinear.deletes, SwTableLinear.deletes,
    SwFlow.flowHasOutPort_none, Bool.and_true, Bool.and_right_comm]

namespace Datapath

variable {dp : Datapath} {f : SwFlow}

/-- A message takes one entry out of the tables, and nothing else. -/
structure RemovesExactly (dp : Datapath) (f : SwFlow) (now : BitVec 64) (ofm : OfpFlowMod) :
    Prop where
  /-- The working tables. -/
  working : ∃ pre post, dp.chain.workingFlows = pre ++ f :: post ∧
    (dp.recvFlowTables now ofm).1.chain.workingFlows = pre ++ post
  /-- The emergency table stays. -/
  emerg : (dp.recvFlowTables now ofm).1.chain.emergTable = dp.chain.emergTable

/-- A command that the datapath does not know changes nothing, so it takes nothing out. -/
theorem not_removesExactly_of_command {now : BitVec 64} {ofm : OfpFlowMod}
    (h : ofm.knownCommand = none) :
    ¬ dp.RemovesExactly f now ofm := by
  rintro ⟨⟨pre, post, hbefore, hafter⟩, -⟩
  have hsame : (dp.recvFlowTables now ofm).1 = dp := by
    unfold recvFlowTables
    rw [h]
  rw [hsame, hbefore] at hafter
  have hlen := congrArg List.length hafter
  simp at hlen

/-- On a little-endian host the command in the message is no command. -/
theorem knownCommand_deletion_little (ofs : OfpFlowStats) :
    (Lswitch.deletion .little ofs).knownCommand = none := by
  change OfpFlowModCommand.ofBitVec (HostOrder.little.ofNet ofpfcDeleteStrict) = none
  decide

/-- What the message takes out of the tables on a big-endian host: the entry, if it has an output to
port 0 and the priority of the message, and if no other entry is the same flow and has such an
output. -/
theorem removesExactly_big_iff (hv : dp.chain.Valid) (hf : f ∈ dp.chain.workingFlows) (tableIdx : ℕ)
    (reported now : BitVec 64) :
    dp.RemovesExactly f now (Lswitch.deletion .big (fillFlowStats f tableIdx reported)) ↔
      f.flowHasOutPort 0 = true ∧ (f.key.wildcards ≠ 0 → f.priority = 0) ∧
        (dp.chain.workingFlows.filter fun g => g.identical f && g.flowHasOutPort 0).length ≤ 1 := by
  have hwf := hv.wellFormed hf
  set ofm := Lswitch.deletion .big (fillFlowStats f tableIdx reported) with hofm
  have hkey : flowExtractMatch ofm.ofpMatch = f.key :=
    (OfpMatch.Reports.stats f tableIdx reported).key hwf
  have hprio : ofm.flowPriority f.key = if f.key.wildcards ≠ 0 then 0 else f.priority := by
    unfold OfpFlowMod.flowPriority
    split_ifs with hw
    · rfl
    · exact (hwf.priority_of_exact (not_not.1 hw)).symm
  have hexact : SwChain.PriorityOfExact f.key (ofm.flowPriority f.key) true := by
    intro _ hw
    rw [hprio, if_neg (not_not.2 hw), hwf.priority_of_exact hw]
  have hchain : (dp.recvFlowTables now ofm).1.chain =
      (dp.chain.delete f.key 0 (ofm.flowPriority f.key) true false).1 := by
    have hflag : ofm.hasFlag ofpffEmerg = false := OfpFlowMod.hasFlag_of_flags_eq_zero rfl _
    change (dp.chain.delete (flowExtractMatch ofm.ofpMatch) 0
      (ofm.flowPriority (flowExtractMatch ofm.ofpMatch)) true
      (ofm.hasFlag ofpffEmerg)).1 = _
    rw [hflag, hkey]
  have hemerg : (dp.recvFlowTables now ofm).1.chain.emergTable = dp.chain.emergTable := by
    rw [hchain, hv.delete_eq hwf.normal 0 hexact]
    exact SwChain.filterFlows_true _
  have hafter : (dp.recvFlowTables now ofm).1.chain.workingFlows = dp.chain.workingFlows.filter
      fun g => !SwTableLinear.deletes f.key 0 (ofm.flowPriority f.key) true g := by
    rw [hchain, hv.delete_eq hwf.normal 0 hexact, SwChain.workingFlows_filterTables]
  have hremoves : dp.RemovesExactly f now ofm ↔
      dp.chain.workingFlows.filter (SwTableLinear.deletes f.key 0 (ofm.flowPriority f.key) true) =
        [f] := by
    rw [← filter_eq_erased_iff, ← hafter]
    exact ⟨RemovesExactly.working, fun hworking => ⟨hworking, hemerg⟩⟩
  rw [hremoves]
  by_cases hgood : f.key.wildcards ≠ 0 → f.priority = 0
  · -- the description has the priority of the entry
    have heq : ofm.flowPriority f.key = f.priority := by
      rw [hprio]
      split_ifs with hw
      · exact (hgood hw).symm
      · rfl
    have hfilter : dp.chain.workingFlows.filter
        (SwTableLinear.deletes f.key 0 (ofm.flowPriority f.key) true) =
        dp.chain.workingFlows.filter fun g => g.identical f && g.flowHasOutPort 0 := by
      rw [heq]
      exact List.filter_congr fun g hg => deletes_eq_identical_and (hv.wellFormed hg) hwf 0
    rw [hfilter]
    constructor
    · intro hsingle
      have hmem := (List.mem_filter.1 (hsingle ▸ List.mem_singleton_self f)).2
      rw [SwFlow.identical_self, Bool.true_and] at hmem
      exact ⟨hmem, hgood, by rw [hsingle]; exact le_rfl⟩
    · rintro ⟨hport, -, hlen⟩
      have hmem : f ∈ dp.chain.workingFlows.filter fun g => g.identical f && g.flowHasOutPort 0 :=
        List.mem_filter.2 ⟨hf, by rw [SwFlow.identical_self, Bool.true_and, hport]⟩
      obtain ⟨g, hg⟩ := List.length_eq_one_iff.1 (le_antisymm hlen (List.length_pos_of_mem hmem))
      rw [hg] at hmem ⊢
      rw [List.mem_singleton.1 hmem]
  · -- another priority than the one of the entry
    refine iff_of_false (fun hsingle => ?_) fun hall => hgood hall.2.1
    rw [Classical.not_imp] at hgood
    have hmem := (List.mem_filter.1 (hsingle ▸ List.mem_singleton_self f)).2
    rw [SwTableLinear.deletes, hprio, if_pos hgood.1] at hmem
    simp only [Bool.and_eq_true, Bool.not_true, Bool.false_or, beq_iff_eq] at hmem
    exact hgood.2 hmem.2

/-- The message that the learning switch sends for an entry takes it out, and nothing else, exactly
when the host is big-endian, the entry has an output to port 0, has the priority 0 if it has
wildcards, and is the only one of its flow with such an output. -/
theorem removesExactly_deletion_iff {sizes : TableSizes} (hdp : dp.Reachable sizes)
    (hf : f ∈ dp.chain.workingFlows) (sw : Lswitch) (host : HostOrder) (tableIdx : ℕ)
    (reported now : BitVec 64) {ofm : OfpFlowMod}
    (hsent : sw.processFlowStats host (fillFlowStats f tableIdx reported) = some [ofm]) :
    dp.RemovesExactly f now ofm ↔
      host = .big ∧ f.flowHasOutPort 0 = true ∧ (f.key.wildcards ≠ 0 → f.priority = 0) ∧
        (dp.chain.workingFlows.filter fun g => g.identical f && g.flowHasOutPort 0).length ≤ 1 := by
  rw [sw.eq_deletion_of_mem host hsent (List.mem_singleton_self ofm)]
  cases host with
  | big =>
    rw [removesExactly_big_iff (valid_of_reachable hdp) hf tableIdx reported now]
    exact ⟨fun hall => ⟨rfl, hall⟩, And.right⟩
  | little =>
    refine iff_of_false (not_removesExactly_of_command (knownCommand_deletion_little _)) ?_
    rintro ⟨hhost, -⟩
    cases hhost

/-- A learning switch that blocks one port. -/
def blockingSwitch (port : BitVec 16) : Lswitch where
  maxIdle := 60
  datapathId := 1
  capabilities := ofpcStp
  ml := none
  queried := true
  portStates i := if i.val = port.toNat then .blocking else .forwarding
  queryXid := 0

/-- A flow without wildcards that goes to one port. -/
def outputFlowMod (outPort : BitVec 16) : OfpFlowMod :=
  makeAddSimpleFlow (frameFlow 1) noBuffer outPort 0

/-- The entry of this flow. -/
def outputFlow (outPort : BitVec 16) : SwFlow := (outputFlowMod outPort).newFlow 0

/-- A datapath that has this entry alone. -/
def outputDatapath (sizes : TableSizes) (outPort : BitVec 16) : Datapath :=
  (Datapath.init sizes 0).runEvents [.flowMod 0 (outputFlowMod outPort)]

/-- The message for a flow to port 0, from a big-endian host. -/
theorem removesExactly_port_zero : (outputDatapath ⟨0, 100⟩ 0).RemovesExactly (outputFlow 0) 0
    (Lswitch.deletion .big (fillFlowStats (outputFlow 0) 0 0)) := by
  have hflows : (outputDatapath ⟨0, 100⟩ 0).chain.workingFlows = [outputFlow 0] := by decide +kernel
  have hr := reachable_runEvents ⟨0, 100⟩ 0 [.flowMod 0 (outputFlowMod 0)]
  refine (removesExactly_deletion_iff hr (hflows ▸ List.mem_singleton_self _) (blockingSwitch 0)
    .big 0 0 0
    (Lswitch.processFlowStats_of_decidesToDelete (by decide +kernel))).2
      ⟨rfl, by decide, fun hw => absurd rfl hw, ?_⟩
  change ((outputDatapath ⟨0, 100⟩ 0).chain.workingFlows.filter _).length ≤ 1
  rw [hflows]
  decide

/-- On hosts of one byte order, every message for an entry takes it out, and nothing else. -/
def RemovesReported (host : HostOrder) : Prop :=
  ∀ (sizes : TableSizes) (dp : Datapath) (f : SwFlow), dp.Reachable sizes →
    f ∈ dp.chain.workingFlows →
    ∀ (sw : Lswitch) (tableIdx : ℕ) (reported now : BitVec 64) (ofm : OfpFlowMod),
      sw.processFlowStats host (fillFlowStats f tableIdx reported) = some [ofm] →
        dp.RemovesExactly f now ofm

/-- A flow to port 2, which is blocked, stays on hosts of either byte order. -/
theorem not_removesExactly_port_two : ¬ RemovesReported .big ∧ ¬ RemovesReported .little := by
  have hflows : (outputDatapath ⟨0, 100⟩ 2).chain.workingFlows = [outputFlow 2] := by decide +kernel
  have hr := reachable_runEvents ⟨0, 100⟩ 0 [.flowMod 0 (outputFlowMod 2)]
  have hmem : outputFlow 2 ∈ (outputDatapath ⟨0, 100⟩ 2).chain.workingFlows :=
    hflows ▸ List.mem_singleton_self _
  have hremoves : ∀ host, RemovesReported host →
      (outputDatapath ⟨0, 100⟩ 2).RemovesExactly (outputFlow 2) 0
        (Lswitch.deletion host (fillFlowStats (outputFlow 2) 0 0)) :=
    fun host hall => hall ⟨0, 100⟩ _ _ hr hmem (blockingSwitch 2) 0 0 0 _
      (Lswitch.processFlowStats_of_decidesToDelete (by cases host <;> decide +kernel))
  constructor
  · intro hall
    have hport :=
      ((removesExactly_big_iff (valid_of_reachable hr) hmem 0 0 0).1 (hremoves _ hall)).1
    exact absurd hport (by decide)
  · exact fun hall =>
      not_removesExactly_of_command (knownCommand_deletion_little _) (hremoves _ hall)

end Datapath

end OfAgent
