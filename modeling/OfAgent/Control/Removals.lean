import OfAgent.Chain.Protection
import OfAgent.Control.Invariants

/-!
# Messages about removed flows

An entry that a deletion or a timeout takes out of the working tables is reported to every
connection, if it asks for that. Entries that are replaced or rewritten are not.

* `OfpFlowRemoved.Reports`: what the message says about the entry.
* `ControlEvent.removed`: the entries that an event takes out of the working tables, and why.
* `Control.removals_reported`: over a run, the messages report these entries, in order, once each.
-/

namespace OfAgent

open Monitored

/-! ### What is reported -/

/-- What a message says about a removed entry. -/
structure OfpFlowRemoved.Reports (ofr : OfpFlowRemoved) (d : SwFlow × OfpFlowRemovedReason) :
    Prop where
  /-- The match is that of the entry. -/
  key : flowExtractMatch ofr.ofpMatch = d.1.key
  /-- The priority. -/
  priority : ofr.priority = d.1.priority
  /-- The cookie. -/
  cookie : ofr.cookie = d.1.cookie
  /-- The number of packets. -/
  packetCount : ofr.packetCount = d.1.packetCount
  /-- The number of bytes. -/
  byteCount : ofr.byteCount = d.1.byteCount
  /-- The reason. -/
  reason : ofr.reason = d.2

/-- The entry asks for a message, and it is no emergency entry. -/
def SwFlow.IsReported (flow : SwFlow) : Bool := flow.sendFlowRem && !flow.emergFlow

/-- The message among the demands of the datapath. -/
def DpOutput.removal : DpOutput → Option OfpFlowRemoved
  | .flowRemoved ofr => some ofr
  | .errorMsg _ _ | .executeActions _ _ _ | .packetIn _ _ => none

/-- `dp_send_flow_end` for removed entries reports those that ask for it, in order. -/
theorem forall₂_reports (now : BitVec 64) {removed : List (SwFlow × OfpFlowRemovedReason)}
    (hwf : ∀ d ∈ removed, d.1.WellFormed) :
    List.Forall₂ OfpFlowRemoved.Reports
      ((removed.filterMap fun d => dpSendFlowEnd now d.1 d.2).filterMap DpOutput.removal)
      (removed.filter fun d => d.1.IsReported) := by
  induction removed with
  | nil => exact .nil
  | cons d ds ih =>
    have hrest := ih fun d' hd' => hwf d' (List.mem_cons_of_mem _ hd')
    have hkey := flowExtractMatch_flowFillMatch (hwf d List.mem_cons_self).normal
    cases hsend : d.1.sendFlowRem with
    | false =>
      rw [List.filterMap_cons_none (by simp [dpSendFlowEnd, hsend]),
        List.filter_cons_of_neg (by simp [SwFlow.IsReported, hsend])]
      exact hrest
    | true =>
      cases hemerg : d.1.emergFlow with
      | true =>
        rw [List.filterMap_cons_none (by simp [dpSendFlowEnd, hsend, hemerg]),
          List.filter_cons_of_neg (by simp [SwFlow.IsReported, hemerg])]
        exact hrest
      | false =>
        rw [List.filter_cons_of_pos (by simp [SwFlow.IsReported, hsend, hemerg])]
        simp only [List.filterMap_cons, dpSendFlowEnd, hsend, hemerg, DpOutput.removal,
          Bool.not_true, Bool.false_eq_true, if_false]
        exact .cons ⟨hkey, rfl, rfl, rfl, rfl, rfl⟩ hrest

/-- The same for entries that are removed for one reason. -/
theorem forall₂_reports_map (now : BitVec 64) {flows : List SwFlow} (reason : OfpFlowRemovedReason)
    (hwf : ∀ flow ∈ flows, flow.WellFormed) :
    List.Forall₂ OfpFlowRemoved.Reports
      ((flows.filterMap fun flow => dpSendFlowEnd now flow reason).filterMap DpOutput.removal)
      ((flows.map fun flow => (flow, reason)).filter fun d => d.1.IsReported) := by
  have hmem : ∀ d ∈ flows.map fun flow => (flow, reason), d.1.WellFormed := fun d hd => by
    obtain ⟨flow, hflow, rfl⟩ := List.mem_map.1 hd
    exact hwf flow hflow
  have hreports := forall₂_reports now hmem
  rw [List.filterMap_map] at hreports
  exact hreports

/-! ### What leaves the working tables -/

/-- The message deletes entries of the working tables. -/
def OfpFlowMod.IsDeletion (ofm : OfpFlowMod) : Prop :=
  ofm.hasFlag ofpffEmerg = false ∧
    (ofm.knownCommand = some .delete ∨ ofm.knownCommand = some .deleteStrict)

namespace Datapath

variable (dp : Datapath)

/-- The entries that a flow modification takes out of the working tables. -/
def removedBy (ofm : OfpFlowMod) : List (SwFlow × OfpFlowRemovedReason) :=
  let key := flowExtractMatch ofm.ofpMatch
  let deleted := fun (priority : BitVec 16) (strict : Bool) =>
    (dp.chain.workingFlows.filter (SwTableLinear.deletes key ofm.outPort priority strict)).map
      fun flow => (flow, OfpFlowRemovedReason.delete)
  if ofm.hasFlag ofpffEmerg then []
  else
    match ofm.knownCommand with
    | some .delete => deleted 0 false
    | some .deleteStrict => deleted (ofm.flowPriority key) true
    | _ => []

/-- The entries that time out. -/
def timedOut (now : BitVec 64) : List (SwFlow × OfpFlowRemovedReason) :=
  if timeNow now = dp.lastTimeout then []
  else dp.chain.workingFlows.filterMap fun flow =>
    (flow.flowTimeout now).map fun reason => (flow, reason)

/-- An operation takes entries out of the working tables and reports them. -/
structure Removes (removed : List (SwFlow × OfpFlowRemovedReason)) (dp' : Datapath)
    (outputs : List DpOutput) : Prop where
  /-- The other entries stay. -/
  perm : dp.chain.workingFlows.Perm (removed.map Prod.fst ++ dp'.chain.workingFlows)
  /-- One message for each entry that asks for it. -/
  reports : List.Forall₂ OfpFlowRemoved.Reports (outputs.filterMap DpOutput.removal)
    (removed.filter fun d => d.1.IsReported)
  /-- Nothing else is asked for. -/
  only : ∀ output ∈ outputs, ∃ ofr, output = .flowRemoved ofr

variable {dp} {now : BitVec 64} {ofm : OfpFlowMod}

theorem map_fst_pair (l : List SwFlow) (reason : OfpFlowRemovedReason) :
    (l.map fun flow => (flow, reason)).map Prod.fst = l := by
  rw [List.map_map]
  exact List.map_id l

/-- A deletion. -/
theorem removes_deleteFlow (hv : dp.chain.Valid) (hemerg : ofm.hasFlag ofpffEmerg = false)
    (strict : Bool) :
    Removes dp ((dp.chain.workingFlows.filter (SwTableLinear.deletes
        (flowExtractMatch ofm.ofpMatch) ofm.outPort
        (if strict then ofm.flowPriority (flowExtractMatch ofm.ofpMatch) else 0) strict)).map
          fun flow => (flow, OfpFlowRemovedReason.delete))
      (dp.deleteFlow now ofm strict).1 (dp.deleteFlow now ofm strict).2.1 := by
  have hdelete := hv.delete_eq (normal_flowExtractMatch ofm.ofpMatch) ofm.outPort
    (ofm.priorityOfExact (flowExtractMatch ofm.ofpMatch) strict)
  simp only [deleteFlow, hemerg, hdelete]
  refine ⟨?_, ?_, fun output => flowRemoved_of_mem⟩
  · rw [map_fst_pair, SwChain.workingFlows_filterTables]
    exact (List.filter_append_perm _ _).symm
  · exact forall₂_reports_map now .delete fun flow hflow =>
      hv.wellFormed (List.mem_of_mem_filter hflow)

/-- The entries that time out, without their reasons. -/
theorem map_fst_timedOut (l : List SwFlow) :
    (l.filterMap fun flow => (flow.flowTimeout now).map fun reason => (flow, reason)).map Prod.fst =
      l.filter fun flow => (flow.flowTimeout now).isSome := by
  induction l with
  | nil => rfl
  | cons flow flows ih =>
    cases hreason : flow.flowTimeout now with
    | none =>
      rw [List.filterMap_cons_none (by rw [hreason]; rfl), ih,
        List.filter_cons_of_neg (by rw [hreason]; decide)]
    | some reason =>
      rw [List.filterMap_cons_some (by rw [hreason]; rfl), List.map_cons, ih,
        List.filter_cons_of_pos (by rw [hreason]; rfl)]

/-- A timeout. -/
theorem removes_dpRun (hv : dp.chain.Valid) :
    Removes dp (dp.timedOut now) (dp.dpRun now).1 (dp.dpRun now).2 := by
  unfold dpRun timedOut
  split
  next => exact ⟨.refl _, .nil, fun output hmem => absurd hmem List.not_mem_nil⟩
  next =>
    have hsnd : (dp.chain.timeout now).2 = dp.chain.workingFlows.filterMap fun flow =>
        (flow.flowTimeout now).map fun reason => (flow, reason) := by
      simp only [SwChain.timeout, SwTableHash2.timeout, SwTableHash.timeout,
        SwTableLinear.timeout, SwChain.workingFlows, SwTableHash2.flows, List.filterMap_append]
    simp only [hsnd]
    refine ⟨?_, ?_, fun output hmem => ?_⟩
    · rw [SwChain.timeout_fst, SwChain.workingFlows_filterTables, map_fst_timedOut]
      have hnone : (fun flow : SwFlow => (flow.flowTimeout now).isNone) =
          fun flow => !(flow.flowTimeout now).isSome := by
        funext flow
        rw [Option.not_isSome]
      rw [hnone]
      exact (List.filter_append_perm _ _).symm
    · refine forall₂_reports now fun d hd => ?_
      obtain ⟨flow, hflow, hd⟩ := List.mem_filterMap.1 hd
      obtain ⟨reason, -, rfl⟩ := Option.map_eq_some_iff.1 hd
      exact hv.wellFormed hflow
    · obtain ⟨d, -, hd⟩ := List.mem_filterMap.1 hmem
      exact flowRemoved_of_dpSendFlowEnd hd

/-- Additions and modifications report nothing. -/
theorem removal_of_isInstallation (h : ofm.IsInstallation) :
    (dp.recvFlowTables now ofm).2.1.filterMap DpOutput.removal = [] := by
  obtain ⟨hrejected, haccepted⟩ := answers_recvFlowTables dp now h
  cases htables : dp.installed now ofm with
  | none =>
    obtain ⟨error, heq⟩ := hrejected htables
    rw [heq]
    rfl
  | some chain =>
    rw [(haccepted chain htables).2.2, executeOn]
    cases (dp.takeBuffer ofm).1 <;> rfl

end Datapath

/-! ### Emergency entries -/

/-- The entries of the emergency table are marked. -/
def SwChain.EmergFlagged (ch : SwChain) : Prop := ∀ f ∈ ch.emergTable.flows, f.emergFlow = true

namespace Datapath

variable {dp : Datapath} {now : BitVec 64} {ofm : OfpFlowMod}

/-- An insertion of an entry that is marked when it is one of the emergency table. -/
theorem emergFlagged_insert {ch ch' : SwChain} (h : ch.EmergFlagged) (hv : ch.Valid)
    {flow : SwFlow} (hwf : flow.WellFormed) {emerg : Bool} (hflag : flow.emergFlow = emerg)
    (hins : ch.insert flow emerg = some ch') : ch'.EmergFlagged := by
  cases emerg with
  | true =>
    obtain ⟨tl, htl, rfl⟩ := SwChain.insert_emerg_eq_some hins
    intro f hf
    rcases hv.emergTable.mem_flows_insert hwf htl hf with ⟨serial, rfl⟩ | ⟨hf, -⟩
    · exact hflag
    · exact h f hf
  | false =>
    rcases SwChain.insert_eq_some hins with ⟨th, -, rfl⟩ | ⟨th, -, -, rfl⟩ | ⟨tl, -, -, -, rfl⟩
    all_goals exact h

/-- A modification rewrites entries without changing the marks. -/
theorem emergFlagged_modify {ch : SwChain} (h : ch.EmergFlagged) (key : SwFlowKey)
    (priority : BitVec 16) (strict : Bool) (actions : List Byte) (emerg : Bool) :
    (ch.modify key priority strict actions emerg).1.EmergFlagged := by
  unfold SwChain.modify
  split
  · intro f hf
    obtain ⟨g, hg, rfl⟩ := List.mem_map.1 hf
    split
    · exact h g hg
    · exact h g hg
  · exact h

/-- So do additions and modifications of flow entries. -/
theorem emergFlagged_installation (h : dp.chain.EmergFlagged) (hv : dp.chain.Valid) :
    (dp.addFlow now ofm).1.chain.EmergFlagged ∧
      ∀ strict, (dp.modFlow now ofm strict).1.chain.EmergFlagged := by
  -- a new flow goes to the table that its flag names
  have hnew : ∀ {ch ch' : SwChain} {flow : SwFlow}, ch.EmergFlagged → ch.Valid → ofm.Makes flow →
      flow.emergFlow = ofm.hasFlag ofpffEmerg → ch.insert flow (ofm.hasFlag ofpffEmerg) = some ch' →
      ch'.EmergFlagged := fun hch hvch hmakes hflag hins =>
    emergFlagged_insert hch hvch hmakes.wellFormed hflag hins
  have hbuf := takeBuffer_chain dp ofm
  constructor
  · unfold addFlow
    rcases hb : dp.takeBuffer ofm with ⟨buffer, dp'⟩
    rw [hb] at hbuf
    simp only
    split
    next => exact hbuf ▸ h
    next =>
      split
      next => exact hbuf ▸ h
      next chain hins =>
        refine hnew h hv ?_ ?_ hins
        · cases buffer <;> exact ⟨rfl, rfl⟩
        · cases buffer <;> rfl
  · intro strict
    have hkey := normal_flowExtractMatch ofm.ofpMatch
    have hmodify := emergFlagged_modify h (flowExtractMatch ofm.ofpMatch)
      (ofm.flowPriority (flowExtractMatch ofm.ofpMatch)) strict ofm.actions
      (ofm.hasFlag ofpffEmerg)
    have hvmodify := hv.change (hv.change_modify hkey
      (ofm.flowPriority (flowExtractMatch ofm.ofpMatch)) strict ofm.actions
      (ofm.hasFlag ofpffEmerg))
    unfold modFlow
    simp only
    split
    next => exact hbuf ▸ h
    next =>
      split
      next => exact hmodify
      next =>
        split
        next => exact hmodify
        next chain hins => exact hnew hmodify hvmodify ⟨rfl, rfl⟩ rfl hins

/-- A deletion leaves only entries that were there. -/
theorem emergFlagged_delete {ch : SwChain} (h : ch.EmergFlagged) (key : SwFlowKey)
    (outPort priority : BitVec 16) (strict emerg : Bool) :
    (ch.delete key outPort priority strict emerg).1.EmergFlagged := by
  unfold SwChain.delete
  split
  · exact fun f hf => h f (List.mem_of_mem_filter hf)
  · exact h

/-- Every event keeps the marks. -/
theorem emergFlagged_next (h : dp.chain.EmergFlagged) (hv : dp.chain.Valid) (e : DatapathEvent) :
    (dp.next e).chain.EmergFlagged := by
  cases e with
  | flowMod now ofm =>
    change (dp.recvFlowTables now ofm).1.chain.EmergFlagged
    unfold recvFlowTables
    split
    -- additions and modifications flag what they put into the emergency table
    · exact (emergFlagged_installation h hv).1
    · exact (emergFlagged_installation h hv).2 false
    · exact (emergFlagged_installation h hv).2 true
    · exact emergFlagged_delete h _ ofm.outPort 0 false _
    · exact emergFlagged_delete h _ ofm.outPort _ true _
    · exact h
  | packet now flow buffer =>
    rcases fwdPortInput_chain dp now flow buffer with heq | heq
    · exact heq ▸ h
    · refine heq ▸ ?_
      unfold SwChain.updateLookup
      split <;> exact h
  | toController now buffer => exact h
  | run now =>
    rcases dpRun_chain dp now with heq | heq
    · exact heq ▸ h
    · exact heq ▸ h
  | protection now =>
    change (dp.emergFlowProtection now).1.chain.EmergFlagged
    unfold SwChain.EmergFlagged
    rw [emergTable_emergFlowProtection]
    exact h

/-- The entries of the emergency table are marked in every run. -/
theorem emergFlagged_of_reachable {sizes : TableSizes} (h : Reachable sizes dp) :
    dp.chain.EmergFlagged := by
  obtain ⟨start, hrun⟩ := h
  have hboth : dp.chain.Valid ∧ dp.chain.EmergFlagged := by
    refine hrun.invariant (fun s : Datapath => s.chain.Valid ∧ s.chain.EmergFlagged)
      ⟨SwChain.valid_create sizes, fun f hf => absurd hf List.not_mem_nil⟩ fun s e s' hs _ hstep =>
        ?_
    rw [hstep]
    exact ⟨hs.1.changes (changes_next hs.1 e), emergFlagged_next hs.2 hs.1 e⟩
  exact hboth.2

/-- A deletion of working entries takes these out and reports them. -/
theorem removes_recvFlowTables (hv : dp.chain.Valid) (hdelete : ofm.IsDeletion) :
    Removes dp (dp.removedBy ofm) (dp.recvFlowTables now ofm).1
      (dp.recvFlowTables now ofm).2.1 := by
  obtain ⟨hemerg, hcmd⟩ := hdelete
  unfold removedBy recvFlowTables
  rw [if_neg (by rw [hemerg]; exact Bool.false_ne_true)]
  rcases hcmd with hcmd | hcmd <;> rw [hcmd]
  · exact removes_deleteFlow hv hemerg false
  · exact removes_deleteFlow hv hemerg true

/-- A deletion of emergency entries reports nothing. -/
theorem removal_deleteFlow (hflagged : dp.chain.EmergFlagged)
    (hemerg : ofm.hasFlag ofpffEmerg = true) (strict : Bool) :
    (dp.deleteFlow now ofm strict).2.1.filterMap DpOutput.removal = [] := by
  refine List.filterMap_eq_nil_iff.2 fun output hmem => ?_
  simp only [deleteFlow, SwChain.delete, hemerg, if_true, SwTableLinear.delete] at hmem
  obtain ⟨flow, hflow, hsend⟩ := List.mem_filterMap.1 hmem
  have hmark := hflagged flow (List.mem_of_mem_filter hflow)
  simp [dpSendFlowEnd, hmark] at hsend

/-- A flow modification reports what it takes out of the working tables, and nothing else. -/
theorem reports_recvFlowTables (hv : dp.chain.Valid) (hflagged : dp.chain.EmergFlagged) :
    List.Forall₂ OfpFlowRemoved.Reports
      ((dp.recvFlowTables now ofm).2.1.filterMap DpOutput.removal)
      ((dp.removedBy ofm).filter fun d => d.1.IsReported) := by
  by_cases hdelete : ofm.IsDeletion
  · exact (removes_recvFlowTables hv hdelete).reports
  · -- everything else takes nothing out of the working tables
    have hnone : dp.removedBy ofm = [] := by
      unfold removedBy
      simp only
      split
      next => rfl
      next hemerg =>
        split
        next hcmd => exact absurd ⟨Bool.eq_false_iff.2 hemerg, .inl hcmd⟩ hdelete
        next hcmd => exact absurd ⟨Bool.eq_false_iff.2 hemerg, .inr hcmd⟩ hdelete
        next => rfl
    have hsent : (dp.recvFlowTables now ofm).2.1.filterMap DpOutput.removal = [] := by
      by_cases hinst : ofm.IsInstallation
      · exact removal_of_isInstallation hinst
      · -- a deletion that is left is one of emergency flows, which are not reported
        have hemerg : ∀ command, ofm.knownCommand = some command →
            command = .delete ∨ command = .deleteStrict → ofm.hasFlag ofpffEmerg = true := by
          intro command hcmd hor
          refine not_not.1 fun hne => hdelete ⟨Bool.eq_false_iff.2 hne, ?_⟩
          rw [hcmd]
          exact hor.imp (congrArg some) (congrArg some)
        unfold recvFlowTables
        split
        next hcmd => exact absurd (.inl hcmd) hinst
        next hcmd => exact absurd (.inr (.inl hcmd)) hinst
        next hcmd => exact absurd (.inr (.inr hcmd)) hinst
        next hcmd => exact removal_deleteFlow hflagged (hemerg _ hcmd (.inl rfl)) false
        next hcmd => exact removal_deleteFlow hflagged (hemerg _ hcmd (.inr rfl)) true
        next => rfl
    rw [hnone, hsent]
    exact .nil

end Datapath

/-! ### Messages -/

/-- A message about a removed entry that goes to every connection. -/
def OfpOutgoing.removal (m : OfpOutgoing) : Option OfpFlowRemoved :=
  match m.remote, m.body with
  | none, .flowRemoved ofr => some ofr
  | _, _ => none

namespace Control

/-- The messages about removed entries that have been sent. -/
def removals (ctl : Control) : List OfpFlowRemoved := ctl.messages.filterMap OfpOutgoing.removal

/-- A message to one remote is no such message. -/
theorem keeps_reply_removals (ofrs : List OfpFlowRemoved) (sender : Sender) (body : OfpBody) :
    Keeps (fun ctl : Control => ctl.removals = ofrs) (sendOpenflowBuffer (some sender) body) :=
  .modify fun ctl h => by
    rw [removals, List.filterMap_append, ← h]
    exact List.append_nil _

/-- Only demands of the datapath lead to such messages. -/
theorem kept_removals (ofrs : List OfpFlowRemoved) : Kept fun ctl => ctl.removals = ofrs where
  reply sender body _ := keeps_reply_removals ofrs sender body
  connections _ _ h := h
  config _ _ h := h
  queues _ _ h := h

variable {env : Surroundings} {sender : Sender} {oh : Memory}

/-- The demands of the datapath that are such messages are sent, in order. -/
theorem removals_performAll (outputs : List DpOutput) (ctl : Control) :
    Meets (performAll env sender oh outputs) .any (fun _ ctl' =>
      ctl'.removals = ctl.removals ++ outputs.filterMap DpOutput.removal) ctl := by
  induction outputs generalizing ctl with
  | nil => exact (meets_pure _).2 (List.append_nil _).symm
  | cons output outputs ih =>
    have hother : output.removal = none →
        Keeps (fun ctl' => ctl'.removals = ctl.removals) (perform env sender oh output) →
          Meets (performAll env sender oh (output :: outputs)) .any (fun _ ctl' =>
            ctl'.removals = ctl.removals ++ (output :: outputs).filterMap DpOutput.removal)
              ctl := by
      intro hnone hkeeps
      rw [performAll, meets_bind, List.filterMap_cons_none hnone]
      exact (hkeeps ctl rfl).mono fun _ ctl' heq => heq ▸ ih ctl'
    cases output with
    | errorMsg error length =>
      exact hother rfl (((kept_removals ctl.removals).keptBy _).dpSendErrorMsg _ _ _)
    | flowRemoved ofr =>
      simp only [performAll, perform, meets_bind, meets_putOpenflowXid, meets_sendOpenflowBuffer]
      refine ⟨fun _ => (ih _).mono fun _ ctl' heq => ?_, fun _ => trivial⟩
      rw [heq, removals, List.filterMap_append, List.append_assoc]
      rfl
    | executeActions buffer inPort actions =>
      exact hother rfl (keeps_forward fun _ _ h _ => h)
    | packetIn buffer bufferId => exact hother rfl (.pure _)

/-- Messages about removed entries leave the switch alone. -/
theorem switch_performAll {outputs : List DpOutput}
    (honly : ∀ output ∈ outputs, ∃ ofr, output = .flowRemoved ofr) (sw : Switch) :
    Keeps (fun ctl => ctl.toSwitch = sw) (performAll env sender oh outputs) := by
  refine keeps_performAll fun output hmem => ?_
  obtain ⟨ofr, rfl⟩ := honly output hmem
  exact (keeps_putOpenflowXid _).bind fun _ => .modify fun _ h => h

/-! ### The datapath in a run -/

/-- What follows a change of the tables is what events of the datapath do. -/
theorem reachable_performAll (dp : Datapath) (outputs : List DpOutput) :
    Keeps (fun ctl => Transition.Reachable Datapath.Step dp ctl.toDatapath)
      (performAll env sender oh outputs) := by
  refine keeps_performAll fun output _ => ?_
  cases output with
  | errorMsg error length =>
    exact (keeps_putOpenflowXid _).bind fun _ => (keeps_readBytes _ _).bind fun _ =>
      .modify fun _ h => h
  | flowRemoved ofr => exact (keeps_putOpenflowXid _).bind fun _ => .modify fun _ h => h
  | executeActions buffer inPort actions =>
    exact keeps_forward fun ctl sw h hrun =>
      (Switch.kept_reachable dp).executeSaved h (fun _ => trivial) hrun
  | packetIn buffer bufferId => exact .pure _

/-- A change of the tables that is an event of the datapath, and what follows it. -/
theorem reachable_setDatapath {dp : Datapath} {ctl : Control}
    (h : Transition.Reachable Datapath.Step dp ctl.toDatapath) (e : DatapathEvent)
    (outputs : List DpOutput) :
    Meets (do setDatapath (ctl.toDatapath.next e); performAll env sender oh outputs) .any
      (fun _ ctl' => Transition.Reachable Datapath.Step dp ctl'.toDatapath) ctl := by
  rw [setDatapath, meets_bind, meets_modify]
  exact reachable_performAll dp outputs _ (Transition.Reachable.step h rfl)

theorem reachable_setSwitch {dp : Datapath} {ctl : Control} {sw : Switch}
    (heq : sw.toDatapath = ctl.toDatapath)
    (h : Transition.Reachable Datapath.Step dp ctl.toDatapath) :
    Transition.Reachable Datapath.Step dp sw.toDatapath := by
  rw [heq]
  exact h

theorem kept_reachable (dp : Datapath) :
    Kept fun ctl => Transition.Reachable Datapath.Step dp ctl.toDatapath where
  reply _ _ _ := .modify fun _ h => h
  connections _ _ h := h
  config _ _ h := h
  queues _ _ h := reachable_setSwitch (Switch.modifyPort_rest ..).1 h

/-- Every event of the datapath with its connections is a run of the datapath. -/
theorem Step.reachable {ctl ctl' : Control} {e : ControlEvent} (h : Step ctl e ctl') :
    Transition.Reachable Datapath.Step ctl.toDatapath ctl'.toDatapath := by
  refine (meets_any_iff (Q := fun _ s => Transition.Reachable Datapath.Step _ s.toDatapath)).1
    ?_ _ _ h.2
  have hkept := kept_reachable ctl.toDatapath
  cases e with
  | message env remote msg =>
    refine Keeps.bind ((hkept.keptBy _).receive (fun _ => ?_) (fun _ => ?_)
      (fun _ => keeps_recvFlow fun ctl' h' => reachable_setDatapath h' (.flowMod env.now _) _)
      fun _ _ ctl' h' => reachable_setDatapath h' (.protection env.now) _) (fun _ => .pure _) ctl
        .refl
    · exact keeps_recvFeaturesRequest (fun ctl' sw hdp _ h' => reachable_setSwitch hdp h')
        fun _ _ => .modify fun _ h' => h'
    · exact keeps_recvPortMod fun ctl' sw hdp _ h' => reachable_setSwitch hdp h'
  | dump now err2 remote =>
    obtain ⟨cb, hcb⟩ := Option.isSome_iff_exists.1 h.1
    exact hkept.toAnswered.runDump (fun _ _ _ _ _ => .modify fun _ h => h) hcb .refl
  | packet env portNo bytes =>
    refine Keeps.get_bind_all (fun ctl' => ?_) ctl .refl
    cases ctl'.dpLookupPort portNo with
    | none => exact .pure _
    | some p =>
      exact keeps_forward fun ctl'' sw h'' hrun =>
        (Switch.kept_reachable ctl.toDatapath).fwdPortInput h'' (fun _ => trivial) hrun
  | timeouts env =>
    exact Keeps.get_bind (fun ctl' h' => reachable_setDatapath h' (.run env.now) _) ctl .refl
  | close remote => exact (meets_modify _).2 .refl

/-- The tables and the buffers of a run are those of a reachable datapath. -/
theorem Initial.dp_reachable {sizes : TableSizes} {init ctl : Control} (hinit : Initial sizes init)
    (hrun : Transition.Reachable Step init ctl) : Datapath.Reachable sizes ctl.toDatapath := by
  refine hrun.invariant (fun s => Datapath.Reachable sizes s.toDatapath) ?_ fun s e s' hs _ hstep =>
    ?_
  · obtain @⟨sw, now, hdp, hsent, id, dpDesc⟩ := hinit
    refine ⟨now, ?_⟩
    rw [Control.start, hdp]
    exact .refl
  · obtain ⟨start, hdp⟩ := hs
    exact ⟨start, hdp.trans hstep.reachable⟩

end Control

/-! ### Events -/

instance (oh : Memory) : Decidable (IsProtection oh) := inferInstanceAs (Decidable (_ ∧ _))

namespace ControlEvent

/-- The entries that an event takes out of the working tables, and why. -/
def removed (ctl : Control) : ControlEvent → List (SwFlow × OfpFlowRemovedReason)
  | message _ _ msg =>
      match msg.type with
      | some .flowMod =>
          if msg.length < sizeofOfpFlowMod then [] else ctl.removedBy (.ofMemory msg.mem)
      | some .vendor =>
          if 12 ≤ msg.length ∧ IsProtection msg.mem then
            ctl.chain.workingFlows.map fun flow => (flow, .delete)
          else []
      | _ => []
  | timeouts env => ctl.timedOut env.now
  | dump _ _ _ | packet _ _ _ | close _ => []

/-- The event is a deletion of working entries, or a timeout. -/
def Removes : ControlEvent → Prop
  | message _ _ msg => msg.type = some .flowMod ∧ sizeofOfpFlowMod ≤ msg.length ∧
      (OfpFlowMod.ofMemory msg.mem).IsDeletion
  | timeouts _ => True
  | dump _ _ _ | packet _ _ _ | close _ => False

/-- The event is an addition or a modification. -/
def Installs : ControlEvent → Prop
  | message _ _ msg => msg.type = some .flowMod ∧ (OfpFlowMod.ofMemory msg.mem).IsInstallation
  | dump _ _ _ | packet _ _ _ | timeouts _ | close _ => False

end ControlEvent

namespace Control

variable {ctl ctl' : Control} {e : ControlEvent}

/-- The messages of an event report what it takes out of the working tables. -/
def ReportsRemoved (removed : List (SwFlow × OfpFlowRemovedReason)) (ctl ctl' : Control) : Prop :=
  ∃ ofrs, ctl'.removals = ctl.removals ++ ofrs ∧
    List.Forall₂ OfpFlowRemoved.Reports ofrs (removed.filter fun d => d.1.IsReported)

theorem reportsRemoved_nil (h : ctl'.removals = ctl.removals) : ReportsRemoved [] ctl ctl' :=
  ⟨[], h.trans (List.append_nil _).symm, .nil⟩

/-- A change of the tables, and what is reported of it. -/
theorem reportsRemoved_setDatapath {env : Surroundings} {sender : Sender} {oh : Memory}
    {removed : List (SwFlow × OfpFlowRemovedReason)} (dp : Datapath) {outputs : List DpOutput}
    (h : List.Forall₂ OfpFlowRemoved.Reports (outputs.filterMap DpOutput.removal)
      (removed.filter fun d => d.1.IsReported)) :
    Meets (do setDatapath dp; performAll env sender oh outputs) .any
      (fun _ ctl' => ReportsRemoved removed ctl ctl') ctl := by
  rw [setDatapath, meets_bind, meets_modify]
  exact (removals_performAll outputs _).mono fun _ ctl' heq => ⟨_, heq, h⟩

/-- A protection reports everything that has been in the working tables. -/
theorem reports_emergFlowProtection (dp : Datapath) (now : BitVec 64) (hv : dp.chain.Valid) :
    List.Forall₂ OfpFlowRemoved.Reports
      ((dp.emergFlowProtection now).2.filterMap DpOutput.removal)
      ((dp.chain.workingFlows.map fun flow => (flow, OfpFlowRemovedReason.delete)).filter
        fun d => d.1.IsReported) := by
  have hdeleted : (dp.chain.delete Datapath.allKey ofppNone 0 false false).2 =
      dp.chain.workingFlows := by
    rw [hv.delete_eq normal_allKey ofppNone (priorityOfExact_of_not_strict _ 0)]
    exact List.filter_eq_self.2 fun f _ => Datapath.deletes_allKey f
  have hreports := forall₂_reports_map now .delete fun flow hflow => hv.wellFormed hflow
  rw [← hdeleted] at hreports ⊢
  exact hreports

/-- Every event reports what it takes out of the working tables. -/
theorem Step.reportsRemoved (h : Step ctl e ctl') (hv : ctl.chain.Valid)
    (hflagged : ctl.chain.EmergFlagged) : ReportsRemoved (e.removed ctl) ctl ctl' := by
  refine (meets_any_iff (Q := fun _ s => ReportsRemoved _ ctl s)).1 ?_ _ _ h.2
  have hkept := kept_removals ctl.removals
  -- most events take nothing out, so that it is enough that they report nothing
  have hnothing : ∀ {α : Type} {x : ControlM α},
      Keeps (fun s : Control => s.removals = ctl.removals) x →
        Meets x .any (fun _ s => ReportsRemoved [] ctl s) ctl := fun hx =>
    (hx ctl rfl).mono fun _ _ heq => reportsRemoved_nil heq
  cases e with
  | message env remote msg =>
    rw [ControlEvent.run, meets_bind]
    -- only these two messages take entries out: a flow modification and the protection
    by_cases hflow : msg.type = some .flowMod
    · refine meets_receive_of_type (fun _ => trivial) (fun _ => trivial) hflow rfl (fun hlt => ?_)
        fun hlen => ?_
      · simp only [ControlEvent.removed, hflow, if_pos hlt, meets_pure]
        exact reportsRemoved_nil rfl
      · simp only [ControlEvent.removed, hflow, if_neg (Nat.not_lt.2 hlen)]
        have hend := @reportsRemoved_setDatapath ctl env ⟨remote, msg.xid⟩ msg.mem _
          (ctl.toDatapath.recvFlowTables env.now (.ofMemory msg.mem)).1 _
          (@Datapath.reports_recvFlowTables ctl.toDatapath env.now (.ofMemory msg.mem) hv hflagged)
        simp only [recvFlow, meets_bind, meets_observe, meets_readLength, meets_get,
          meets_pure] at hend ⊢
        exact ⟨trivial, trivial, trivial, trivial, hend⟩
    by_cases hprotection : msg.type = some .vendor ∧ IsProtection msg.mem
    · obtain ⟨hvendor, hpriv⟩ := hprotection
      refine meets_receive_of_type (fun _ => trivial) (fun _ => trivial) hvendor rfl (fun hlt => ?_)
        fun hlen => ?_
      · simp only [ControlEvent.removed, hvendor, meets_pure]
        rw [if_neg fun hboth => absurd hboth.1 (Nat.not_le.2 hlt)]
        exact reportsRemoved_nil rfl
      · simp only [ControlEvent.removed, hvendor, if_pos (And.intro hlen hpriv)]
        have hend := @reportsRemoved_setDatapath ctl env ⟨remote, msg.xid⟩ msg.mem _
          (ctl.toDatapath.emergFlowProtection env.now).1 _
          (reports_emergFlowProtection ctl.toDatapath env.now hv)
        simp only [recvVendor, privateRecvMsg, hpriv.1, hpriv.2, if_true, meets_bind, meets_read32,
          meets_read16, meets_get, meets_pure] at hend ⊢
        exact ⟨trivial, trivial, hend⟩
    -- any other message leaves the tables alone
    · have hremoved : ControlEvent.removed ctl (.message env remote msg) = [] := by
        simp only [ControlEvent.removed]
        split
        next htype => exact absurd htype hflow
        next htype => exact if_neg fun hpriv => hprotection ⟨htype, hpriv.2⟩
        next => rfl
      rw [hremoved]
      have hports : ∀ (ctl' : Control) (sw : Switch), sw.toDatapath = ctl'.toDatapath →
          sw.sent = ctl'.sent → ctl'.removals = ctl.removals →
            ({ ctl' with toSwitch := sw } : Control).removals = ctl.removals :=
        fun _ _ _ _ h' => h'
      have hkeeps : Keeps (fun s : Control => s.removals = ctl.removals) (receive env remote msg) :=
        (hkept.keptBy _).receive
          (fun _ => keeps_recvFeaturesRequest hports fun _ _ => keeps_reply_removals _ _ _)
          (fun _ => keeps_recvPortMod hports) (fun htype => absurd htype hflow)
          fun htype hpriv => absurd ⟨htype, hpriv⟩ hprotection
      exact (hkeeps ctl rfl).mono fun _ _ heq => (meets_pure _).2 (reportsRemoved_nil heq)
  | dump now err2 remote =>
    obtain ⟨cb, hcb⟩ := Option.isSome_iff_exists.1 h.1
    exact (hkept.toAnswered.runDump (fun _ _ _ _ _ => .modify fun s h => by
      rw [← h, removals, List.filterMap_append]
      exact List.append_nil _) hcb rfl).mono fun _ _ heq => reportsRemoved_nil heq
  | packet env portNo bytes =>
    refine hnothing (.get_bind_all fun ctl' => ?_)
    cases ctl'.dpLookupPort portNo with
    | none => exact .pure _
    | some p => exact keeps_forward fun _ _ h _ => h
  | timeouts env =>
    rw [ControlEvent.run, runTimeouts, meets_bind, meets_get]
    exact reportsRemoved_setDatapath _ (Datapath.removes_dpRun hv).reports
  | close remote => exact (meets_modify _).2 (reportsRemoved_nil rfl)

/-- A change of the tables that asks for messages about removed entries only. -/
theorem chain_setDatapath {env : Surroundings} {sender : Sender} {oh : Memory} (dp : Datapath)
    {outputs : List DpOutput} (honly : ∀ output ∈ outputs, ∃ ofr, output = .flowRemoved ofr) :
    Meets (do setDatapath dp; performAll env sender oh outputs) .any
      (fun _ ctl' => ctl'.chain = dp.chain) ctl := by
  rw [setDatapath, meets_bind, meets_modify]
  exact (switch_performAll honly _ _ rfl).mono fun _ ctl' heq => congrArg (·.chain) heq

/-- A deletion or a timeout takes out the entries that are reported, and leaves the others. -/
theorem Step.perm_removed (h : Step ctl e ctl') (hv : ctl.chain.Valid) (hremoves : e.Removes) :
    ctl.chain.workingFlows.Perm ((e.removed ctl).map Prod.fst ++ ctl'.chain.workingFlows) := by
  refine (meets_any_iff (Q := fun _ s =>
    ctl.chain.workingFlows.Perm ((e.removed ctl).map Prod.fst ++ s.chain.workingFlows))).1 ?_ _ _
      h.2
  cases e with
  | message env remote msg =>
    obtain ⟨hflow, hlen, hdelete⟩ := hremoves
    have hremoved := @Datapath.removes_recvFlowTables ctl.toDatapath env.now _ hv hdelete
    rw [ControlEvent.run, meets_bind]
    refine meets_receive_of_type (fun _ => trivial) (fun _ => trivial) hflow rfl
      (fun hlt => absurd hlen (Nat.not_le.2 hlt)) fun _ => ?_
    simp only [ControlEvent.removed, hflow, if_neg (Nat.not_lt.2 hlen)]
    have hend := @chain_setDatapath ctl env ⟨remote, msg.xid⟩ msg.mem
      (ctl.toDatapath.recvFlowTables env.now (.ofMemory msg.mem)).1 _ hremoved.only
    simp only [recvFlow, meets_bind, meets_observe, meets_readLength, meets_get,
      meets_pure] at hend ⊢
    refine ⟨trivial, trivial, trivial, trivial, ?_⟩
    exact hend.mono fun _ _ hrest => hrest.mono fun _ ctl' heq => heq ▸ hremoved.perm
  | timeouts env =>
    have hremoved := @Datapath.removes_dpRun ctl.toDatapath env.now hv
    rw [ControlEvent.run, runTimeouts, meets_bind, meets_get]
    exact (chain_setDatapath _ hremoved.only).mono fun _ ctl' heq => heq ▸ hremoved.perm
  | dump now err2 remote => exact hremoves.elim
  | packet env portNo bytes => exact hremoves.elim
  | close remote => exact hremoves.elim

/-- An addition or a modification takes nothing out that would be reported. -/
theorem removed_of_installs (h : e.Installs) : e.removed ctl = [] := by
  cases e with
  | message env remote msg =>
    obtain ⟨hflow, hinst⟩ := h
    simp only [ControlEvent.removed, hflow]
    refine ite_eq_left_iff.2 fun _ => ?_
    unfold Datapath.removedBy
    simp only
    split
    next => rfl
    next =>
      split
      next hcmd => rw [OfpFlowMod.IsInstallation, hcmd] at hinst; simp at hinst
      next hcmd => rw [OfpFlowMod.IsInstallation, hcmd] at hinst; simp at hinst
      next => rfl
  | dump now err2 remote => rfl
  | packet env portNo bytes => rfl
  | timeouts env => exact h.elim
  | close remote => rfl

/-! ### Runs -/

/-- A step, and a log of the entries that have left the working tables. -/
def LoggedStep (s : Control × List (SwFlow × OfpFlowRemovedReason)) (e : ControlEvent)
    (s' : Control × List (SwFlow × OfpFlowRemovedReason)) : Prop :=
  Step s.1 e s'.1 ∧ s'.2 = s.2 ++ e.removed s.1

/-- The entries that ask for it are reported. -/
theorem forall₂_reports_log {sizes : TableSizes} {init : Control}
    {log : List (SwFlow × OfpFlowRemovedReason)} (hinit : Initial sizes init)
    (hrun : Transition.Reachable LoggedStep (init, []) (ctl, log)) :
    Transition.Reachable Step init ctl ∧
      List.Forall₂ OfpFlowRemoved.Reports ctl.removals (log.filter fun d => d.1.IsReported) := by
  refine hrun.invariant (fun s => Transition.Reachable Step init s.1 ∧
    List.Forall₂ OfpFlowRemoved.Reports s.1.removals (s.2.filter fun d => d.1.IsReported)) ?_
    fun s e s' hs _ hstep => ?_
  · refine ⟨.refl, ?_⟩
    obtain @⟨sw, now, hdp, hsent, id, dpDesc⟩ := hinit
    exact .nil
  · obtain ⟨hreach, hreports⟩ := hs
    have hdp := hinit.dp_reachable hreach
    obtain ⟨ofrs, heq, hnew⟩ := hstep.1.reportsRemoved (Datapath.valid_of_reachable hdp)
      (Datapath.emergFlagged_of_reachable hdp)
    refine ⟨hreach.step hstep.1, ?_⟩
    rw [heq, hstep.2, List.filter_append]
    exact List.rel_append hreports hnew

/-- In every run, the messages about removed entries that have been broadcast report, in order and
once each, the entries that ask for it among those that have left the working tables. These are what
a deletion or a timeout takes out; an addition or a modification reports nothing. -/
theorem removals_reported {sizes : TableSizes} {init : Control}
    {log : List (SwFlow × OfpFlowRemovedReason)} (hinit : Initial sizes init)
    (hrun : Transition.Reachable LoggedStep (init, []) (ctl, log)) :
    List.Forall₂ OfpFlowRemoved.Reports ctl.removals (log.filter fun d => d.1.IsReported) ∧
      ∀ e ctl', Step ctl e ctl' →
        (e.Removes → ctl.chain.workingFlows.Perm
          ((e.removed ctl).map Prod.fst ++ ctl'.chain.workingFlows)) ∧
        (e.Installs → ctl'.removals = ctl.removals) := by
  obtain ⟨hreach, hreports⟩ := forall₂_reports_log hinit hrun
  have hdp := hinit.dp_reachable hreach
  refine ⟨hreports, fun e ctl' hstep =>
    ⟨hstep.perm_removed (Datapath.valid_of_reachable hdp), fun hinst => ?_⟩⟩
  obtain ⟨ofrs, heq, hnew⟩ := hstep.reportsRemoved (Datapath.valid_of_reachable hdp)
    (Datapath.emergFlagged_of_reachable hdp)
  rw [removed_of_installs hinst] at hnew
  rw [heq, List.forall₂_nil_right_iff.1 hnew, List.append_nil]

/-- A step that a run computes. -/
theorem exists_step_of_run (ctl : Control) (e : ControlEvent) (f : Control → Bool)
    (henabled : e.Enabled ctl)
    (h : ((e.run ctl).2.toOption.map fun result => f result.2) = some true) :
    ∃ ctl', Step ctl e ctl' ∧ f ctl' = true := by
  cases hrun : (e.run ctl).2 with
  | error fault =>
    rw [hrun] at h
    cases h
  | ok result =>
    rw [hrun] at h
    exact ⟨result.2, ⟨henabled, hrun⟩, Option.some.inj h⟩

/-- A flow modification for every packet that adds an entry, which asks for a message. -/
def addAllMessage : OfpMessage :=
  .ofBytes ([1, 14, 0, 72, 0, 0, 0, 0, 0, 63, 255, 255] ++ List.replicate 45 0 ++
    [0, 0, 0, 0, 0, 0, 5, 255, 255, 255, 255, 255, 255, 0, 1]) (by decide)

/-- A flow modification that deletes all entries. -/
def deleteAllMessage : OfpMessage :=
  .ofBytes ([1, 14, 0, 72, 0, 0, 0, 0, 0, 63, 255, 255] ++ List.replicate 45 0 ++
    [3, 0, 0, 0, 0, 0, 5, 255, 255, 255, 255, 255, 255, 0, 0]) (by decide)

theorem four_lt_bits : 4 < 32 := by decide

/-- Small tables. -/
def smallSizes : TableSizes := ⟨⟨4, four_lt_bits⟩, 10⟩

/-- A datapath with small tables and one port. -/
def smallControl : Control := .start (onePortSwitch (.init smallSizes 0)) 1 []

/-- An entry that is added and deleted is reported once. -/
theorem removals_reported_all : ∃ ctl log,
    Transition.Reachable LoggedStep (smallControl, []) (ctl, log) ∧
      ∃ d ofr, ctl.removals = [ofr] ∧ (log.filter fun d => d.1.IsReported) = [d] ∧
        ofr.Reports d := by
  have hinit : Initial smallSizes smallControl := .start rfl rfl 1 []
  let deletion : ControlEvent := .message .calm 0 deleteAllMessage
  let isOne (ctl : Control) : Bool :=
    ((deletion.removed ctl).filter fun d => d.1.IsReported).length == 1
  -- an entry is added, and then all entries are deleted
  obtain ⟨ctl₁, hadd, hcheck⟩ := exists_step_of_run
    smallControl (.message .calm 0 addAllMessage)
    (fun ctl => (ctl.cbDump 0).isNone && isOne ctl &&
      ((deletion.run ctl).2.toOption.map fun _ => true) == some true)
    ⟨rfl, by decide⟩ (by decide +kernel)
  simp only [Bool.and_eq_true, Option.isNone_iff_eq_none, beq_iff_eq] at hcheck
  obtain ⟨⟨hcb, hone⟩, hruns⟩ := hcheck
  obtain ⟨ctl₂, hdelete, -⟩ :=
    exists_step_of_run ctl₁ deletion (fun _ => true) ⟨hcb, by decide⟩ hruns
  obtain ⟨d, hd⟩ := List.length_eq_one_iff.1 (beq_iff_eq.1 hone)
  have hrun : Transition.Reachable LoggedStep (smallControl, [])
      (ctl₂, deletion.removed ctl₁) := by
    have hinstalls : (ControlEvent.message .calm 0 addAllMessage).Installs :=
      ⟨rfl, .inl (by decide)⟩
    have hlog : LoggedStep (smallControl, [])
        (.message .calm 0 addAllMessage) (ctl₁, []) := by
      refine ⟨hadd, ?_⟩
      rw [removed_of_installs hinstalls]
      rfl
    exact Transition.Reachable.step (Transition.Reachable.step .refl hlog) ⟨hdelete, rfl⟩
  have hreports := (removals_reported hinit hrun).1
  rw [hd] at hreports
  obtain ⟨ofr, ofrs, hofr, hnil, hofrs⟩ := List.forall₂_cons_right_iff.1 hreports
  rw [List.forall₂_nil_right_iff.1 hnil] at hofrs
  exact ⟨ctl₂, _, hrun, d, ofr, hofrs, hd, hofr⟩

end Control

end OfAgent
