import OfAgent.Stats.Dump

/-!
# Entries by their reports

A flow statistics reply, a flow removed message and the copy that a protection makes all describe an
entry by an `ofp_match` and a priority. Such a description is a normal form, and it comes back as
the description of a strict deletion.

* `flowExtractMatch_idem`: the way from a key into a match and back is the identity on the keys that
  matches have.
* `OfpMatch.Reports`: the ways in which an entry is described. `Reports.key`, `Reports.priority`:
  they say the same.
* `deletes_eq_identical`: what a strict deletion with such a description selects.
* `Datapath.report_identifies`: the strict deletion with a report, sent to any datapath at any time,
  takes away the entries that are the flow of the report, and no others.
-/

namespace OfAgent

/-- Normalising the match that a normalised key fills is the identity. -/
theorem flowExtractMatch_idem (m : OfpMatch) :
    flowExtractMatch (flowFillMatch (flowExtractMatch m).flow (flowExtractMatch m).wildcards) =
      flowExtractMatch m :=
  flowExtractMatch_flowFillMatch (normal_flowExtractMatch m)

/-- The descriptions of an entry that leave the datapath, and the ones of the copy that a protection
makes of it. -/
inductive OfpMatch.Reports : OfpMatch → BitVec 16 → SwFlow → Prop
  /-- In a flow statistics reply. -/
  | stats (flow : SwFlow) (tableIdx : ℕ) (now : BitVec 64) :
      Reports (fillFlowStats flow tableIdx now).ofpMatch (fillFlowStats flow tableIdx now).priority
        flow
  /-- In a flow removed message. -/
  | removed {flow : SwFlow} {now : BitVec 64} {reason : OfpFlowRemovedReason}
    {ofr : OfpFlowRemoved} :
      dpSendFlowEnd now flow reason = some (.flowRemoved ofr) →
        Reports ofr.ofpMatch ofr.priority flow
  /-- In a flow statistics reply, for the copy that `protection_callback` makes. -/
  | copied (flow : SwFlow) (copiedAt : BitVec 64) (tableIdx : ℕ) (now : BitVec 64) :
      Reports (fillFlowStats (Datapath.protectionFlow copiedAt flow) tableIdx now).ofpMatch
        (fillFlowStats (Datapath.protectionFlow copiedAt flow) tableIdx now).priority flow

namespace OfpMatch.Reports

variable {m : OfpMatch} {priority : BitVec 16} {flow : SwFlow}

/-- A report is the match of the entry's key. -/
theorem eq_flowFillMatch (h : Reports m priority flow) (hflow : flow.WellFormed) :
    m = flowFillMatch flow.key.flow flow.key.wildcards := by
  cases h with
  | stats => rfl
  | removed hsend =>
    unfold dpSendFlowEnd at hsend
    dsimp only at hsend
    split at hsend
    next => cases hsend
    next =>
      split at hsend
      next => cases hsend
      next =>
        cases hsend
        rfl
  | copied _ copiedAt =>
    have hkey : (Datapath.protectionFlow copiedAt flow).key = flow.key :=
      Datapath.protectionFlow_key hflow
    change flowFillMatch (Datapath.protectionFlow copiedAt flow).key.flow
      (Datapath.protectionFlow copiedAt flow).key.wildcards = _
    rw [hkey]

/-- A report says the priority of the entry. -/
theorem priority_eq (h : Reports m priority flow) : priority = flow.priority := by
  cases h with
  | stats => rfl
  | removed hsend =>
    unfold dpSendFlowEnd at hsend
    dsimp only at hsend
    split at hsend
    next => cases hsend
    next =>
      split at hsend
      next => cases hsend
      next =>
        cases hsend
        rfl
  | copied => rfl

theorem key (h : Reports m priority flow) (hflow : flow.WellFormed) :
    flowExtractMatch m = flow.key := by
  rw [h.eq_flowFillMatch hflow, flowExtractMatch_flowFillMatch hflow.normal]

end OfpMatch.Reports

/-- A strict description with the key and the priority of an entry selects the entries that are the
same flow. -/
theorem deletes_eq_identical {f flow : SwFlow} (hf : f.WellFormed) (hflow : flow.WellFormed) :
    SwTableLinear.deletes flow.key ofppNone flow.priority true f = f.identical flow := by
  rw [SwTableLinear.deletes, SwFlow.identical, SwFlow.flowHasOutPort_none, flowMatchesDesc]
  by_cases hw : flow.key.wildcards = f.key.wildcards
  · -- with equal wildcards the two keys have equal masks, so the comparisons are one
    obtain ⟨hsf, hdf⟩ := hf.normal.masks
    obtain ⟨hs, hd⟩ := hflow.normal.masks
    have hmatch : flowMatches2wild f.key flow.key = flowMatches1wild f.key flow.key := by
      rw [flowMatches2wild, flowMatches1wild, hsf, hdf, hs, hd, hw, BitVec.or_self, BitVec.and_self,
        BitVec.and_self]
    rw [hmatch, hw]
    simp [Bool.and_comm]
  · have hne : (flow.key.wildcards != f.key.wildcards) = true := bne_iff_ne.2 hw
    have hne' : (f.key.wildcards == flow.key.wildcards) = false := beq_false_of_ne (Ne.symm hw)
    simp [hne, hne']

/-- `OFPFC_DELETE_STRICT` with a match and a priority, for the emergency table or for the working
tables. -/
def strictDeletion (m : OfpMatch) (priority : BitVec 16) (emerg : Bool) : OfpFlowMod :=
  { plainFlowMod 4 m priority with flags := if emerg then ofpffEmerg else 0 }

namespace Datapath

variable {dp : Datapath} {m : OfpMatch} {priority : BitVec 16} {flow : SwFlow}

/-- A strict deletion with the description takes the entries away that are the same flow, from the
tables it is for, and leaves the other tables alone. -/
structure Identifies (dp : Datapath) (m : OfpMatch) (priority : BitVec 16)
    (flow : SwFlow) : Prop where
  /-- The working tables lose the entries that are the flow. -/
  working : ∀ now, (dp.recvFlowTables now (strictDeletion m priority false)).1.chain.workingFlows =
    dp.chain.workingFlows.filter fun f => !f.identical flow
  /-- The emergency table stays. -/
  working_emerg : ∀ now,
    (dp.recvFlowTables now (strictDeletion m priority false)).1.chain.emergTable =
    dp.chain.emergTable
  /-- The emergency table loses the entries that are the flow. -/
  emerg : ∀ now, (dp.recvFlowTables now (strictDeletion m priority true)).1.chain.emergTable.flows =
    dp.chain.emergTable.flows.filter fun f => !f.identical flow
  /-- The working tables stay. -/
  emerg_working : ∀ now,
    (dp.recvFlowTables now (strictDeletion m priority true)).1.chain.workingFlows =
    dp.chain.workingFlows

theorem hasFlag_strictDeletion (m : OfpMatch) (priority : BitVec 16) (emerg : Bool) :
    (strictDeletion m priority emerg).hasFlag ofpffEmerg = emerg := by
  change ((if emerg then ofpffEmerg else 0) &&& ofpffEmerg != 0) = emerg
  cases emerg <;> decide

/-- The priority of a strict deletion with the description of an entry is the entry's. -/
theorem flowPriority_strictDeletion (hkey : flowExtractMatch m = flow.key)
    (hprio : priority = flow.priority)
    (hflow : flow.WellFormed) (emerg : Bool) :
    (strictDeletion m priority emerg).flowPriority (flowExtractMatch m) = flow.priority := by
  subst hprio
  rw [OfpFlowMod.flowPriority, hkey]
  split
  next => rfl
  next hw => exact (hflow.priority_of_exact (not_not.1 hw)).symm

/-- In valid tables the description of a flow identifies it. -/
theorem identifies_of_key (hv : dp.chain.Valid) (hkey : flowExtractMatch m = flow.key)
    (hprio : priority = flow.priority) (hflow : flow.WellFormed) :
    dp.Identifies m priority flow := by
  have hsel : ∀ emerg, (strictDeletion m priority emerg).flowPriority (flowExtractMatch m) =
    flow.priority :=
    flowPriority_strictDeletion hkey hprio hflow
  have hchain : ∀ now emerg, (dp.recvFlowTables now (strictDeletion m priority emerg)).1.chain =
      (dp.chain.delete flow.key ofppNone flow.priority true emerg).1 := by
    intro now emerg
    change (dp.chain.delete (flowExtractMatch m) ofppNone
      ((strictDeletion m priority emerg).flowPriority (flowExtractMatch m)) true
      ((strictDeletion m priority emerg).hasFlag ofpffEmerg)).1 = _
    rw [hsel, hkey, hasFlag_strictDeletion]
  -- an exact entry has the greatest priority, and so has the deletion
  have hexact : SwChain.PriorityOfExact flow.key flow.priority true :=
    fun _ hw => hflow.priority_of_exact hw
  have hdelete := hv.delete_eq hflow.normal ofppNone hexact
  refine ⟨fun now => ?_, fun now => ?_, fun now => ?_, fun now => ?_⟩
  · rw [hchain, hdelete, SwChain.workingFlows_filterTables]
    exact List.filter_congr fun f hf => by rw [deletes_eq_identical (hv.wellFormed hf) hflow]
  · rw [hchain, hdelete]
    exact SwChain.filterFlows_true _
  · rw [hchain]
    change dp.chain.emergTable.flows.filter _ = _
    exact List.filter_congr fun f hf => by
      rw [deletes_eq_identical (hv.emergTable.wellFormed f hf) hflow]
  · rw [hchain]
    rfl

/-- A normalised key comes back from its match. So every report of an entry of a reachable datapath,
sent to any reachable datapath as a strict deletion, identifies the entry. -/
theorem report_identifies (sizes : TableSizes) :
    (∀ m,
      flowExtractMatch (flowFillMatch (flowExtractMatch m).flow (flowExtractMatch m).wildcards) =
      flowExtractMatch m) ∧
    ∀ dp₀, Reachable sizes dp₀ → ∀ flow, flow ∈ dp₀.chain.workingFlows ∨
      flow ∈ dp₀.chain.emergTable.flows →
      ∀ m priority, m.Reports priority flow → ∀ dp, Reachable sizes dp →
        dp.Identifies m priority flow := by
  refine ⟨flowExtractMatch_idem, ?_⟩
  intro dp₀ hdp₀ flow hmem m priority hreport dp hdp
  have hflow : flow.WellFormed := by
    have hv := valid_of_reachable hdp₀
    rcases hmem with hmem | hmem
    · exact hv.wellFormed hmem
    · exact hv.emergTable.wellFormed flow hmem
  exact identifies_of_key (valid_of_reachable hdp) (hreport.key hflow) hreport.priority_eq hflow

/-- A flow that wildcards the IP source address but for its first 16 bits. -/
def subnetFlowMod : OfpFlowMod :=
  plainFlowMod 0
    { OfpMatch.zero with
      wildcards :=
        ofpfwAll &&& ~~~(ofpfwDlType ||| ofpfwNwSrcMask) ||| (16 : BitVec 32) <<< ofpfwNwSrcShift
      dlType := ethTypeIp
      nwSrc := 0x0a010203 } 7

/-- The flow statistics of this flow identify it in the datapath that has it. -/
theorem report_identifies_subnet :
    ((Datapath.init .source 0).runEvents [.flowMod 0 subnetFlowMod]).Identifies
      (fillFlowStats (subnetFlowMod.newFlow 0) 1 0).ofpMatch 7 (subnetFlowMod.newFlow 0) := by
  have hr := Datapath.reachable_runEvents .source 0 [.flowMod 0 subnetFlowMod]
  have hmem : subnetFlowMod.newFlow 0 ∈
      ((Datapath.init .source 0).runEvents [.flowMod 0 subnetFlowMod]).chain.linear.flows := by
        decide +kernel
  exact (report_identifies .source).2 _ hr _ (.inl (List.mem_append_right _ hmem)) _ _
    (.stats _ 1 0) _ hr

end Datapath

end OfAgent
