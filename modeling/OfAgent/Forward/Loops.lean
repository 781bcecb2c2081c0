import OfAgent.Forward.Switch

/-!
# Loops through the tables

An action may send a packet to the tables, and the entry that it matches there may do so again.
`validate_output` means to exclude such actions but compares the port with another one.

* `StaysOut`: an accepted list without an output to the tables; `executeActions_staysOut`: its
  execution does not depend on what a run through the tables does.
* `SwChain.AllActions`: what holds of the actions of every entry, and the functions that keep it.
* `forwarding_ends`: without accepted flow modifications that send packets to the tables, no packet
  enters them twice.
* `endless_of_tableAction`: a single entry that does so is enough for an endless run.
-/

namespace OfAgent

/-! ### Lists without an output to the tables -/

/-- An accepted list that sends no packet to the tables. -/
def StaysOut (actions : List Byte) : Prop :=
  ∃ key, validateActions key actions = actValidationOk ∧
    hasOutPort ofppTable actions = .ok false

/-- The actions of an accepted list without an output to the tables name other ports. -/
theorem StaysOut.exists_items {actions : List Byte} (h : StaysOut actions) :
    ∃ (key : SwFlowKey) (as : List (List Byte)), as.flatten = actions ∧
      (∀ a ∈ as, AcceptedAction key a) ∧
      ∀ a ∈ as, ∀ port, actionPort a = some port → port ≠ ofppTable := by
  obtain ⟨key, hval, hport⟩ := h
  obtain ⟨as, rfl, has⟩ := validateActions_eq_ok_iff.1 hval
  refine ⟨key, as, rfl, has, ?_⟩
  rintro a ha port hp rfl
  have hany : as.any (outputsTo ofppTable) = true :=
    List.any_eq_true.2 ⟨a, ha, (has a ha).outputsTo_of_virtual (by decide) (by decide) hp⟩
  rw [hasOutPort_flatten has, hany] at hport
  simp at hport

section Switch

open Switch

variable {now : BitVec 64} {actions : List Byte}

/-- An output to another port does not depend on what a run through the tables does. -/
theorem doOutput_eq_of_ne {call : OutputCall} (h : call.outPort ≠ ofppTable)
    (runTables runTables' : TableRun) (now : BitVec 64) (sw : Switch) :
    sw.doOutput runTables now call = sw.doOutput runTables' now call := by
  unfold doOutput dpOutputPort
  rw [if_neg h, if_neg h]

/-- The execution of a list that stays out of the tables does not depend on what a run through them
does. -/
theorem executeActions_staysOut (h : StaysOut actions) (runTables runTables' : TableRun)
    (now : BitVec 64) (buffer : Ofpbuf) (key : SwFlowKey) (sw : Switch) :
    executeActions (doOutput runTables now) buffer key actions sw =
      executeActions (doOutput runTables' now) buffer key actions sw := by
  obtain ⟨key', as, rfl, has, hports⟩ := h.exists_items
  rw [executeActions_flatten has, executeActions_flatten has]
  exact executeList_congr (P := fun port => port ≠ ofppTable)
    (fun call w hne => doOutput_eq_of_ne hne runTables runTables' now w) hports buffer key sw

/-- Outputs are no endless runs, unless runs through the tables are. -/
theorem doOutput_ne_endless {runTables : TableRun}
    (h : ∀ buffer p sw, runTables buffer p sw ≠ .error .endless) (call : OutputCall)
    (sw : Switch) : sw.doOutput runTables now call ≠ .error .endless := by
  -- an output to the controller runs no tables
  have hcontrol : ∀ inPort maxLen reason,
      sw.dpOutputControl now call.buffer inPort maxLen reason ≠ .error .endless := by
    intro inPort maxLen reason
    unfold dpOutputControl
    simp only
    split <;> exact fun h => by cases h
  have hok : ∀ x : Switch, Except.ok x ≠ .error ForwardFault.endless := fun x h => by cases h
  unfold doOutput
  split
  next =>
    unfold dpOutputPort
    split
    · exact hok _
    split
    · cases hrun : runTables call.buffer (sw.dpLookupPort call.inPort) sw with
      | error e =>
        intro he
        exact h _ _ _ (hrun.trans (congrArg _ (Except.error.inj he)))
      | ok r => exact hok _
    split
    · exact hok _
    split
    · exact hok _
    · exact hok _
  next => exact hcontrol _ _ _

/-- The execution of a list that stays out of the tables ends. -/
theorem executeActions_ne_endless (h : StaysOut actions) (runTables : TableRun)
    (now : BitVec 64) (buffer : Ofpbuf) (key : SwFlowKey) (sw : Switch) :
    executeActions (doOutput runTables now) buffer key actions sw ≠ .error .endless := by
  rw [executeActions_staysOut h runTables (fun _ _ sw => .ok (sw, true))]
  obtain ⟨key', as, rfl, has, -⟩ := h.exists_items
  rw [executeActions_flatten has]
  refine executeList_ne_error has (fun fault h => by cases h) (fun call w => ?_) buffer sw
  exact doOutput_ne_endless (fun _ _ _ h => by cases h) call w

end Switch

/-! ### The actions in the tables -/

namespace SwChain

/-- Every entry of a list has actions that satisfy `Q`. -/
def AllOf (Q : List Byte → Prop) (flows : List SwFlow) : Prop := ∀ f ∈ flows, Q f.actions

/-- Every entry of the working tables and of the emergency table has actions that satisfy `Q`. -/
structure AllActions (Q : List Byte → Prop) (ch : SwChain) : Prop where
  /-- The working tables. -/
  working : AllOf Q ch.workingFlows
  /-- The emergency table. -/
  emerg : AllOf Q ch.emergTable.flows

variable {Q : List Byte → Prop} {ch ch' : SwChain}

theorem AllOf.filter {l : List SwFlow} (h : AllOf Q l) (p : SwFlow → Bool) :
    AllOf Q (l.filter p) := fun f hf => h f (List.mem_of_mem_filter hf)

theorem AllOf.map {l : List SwFlow} (h : AllOf Q l) {g : SwFlow → SwFlow}
    (hg : ∀ f, Q f.actions → Q (g f).actions) : AllOf Q (l.map g) := by
  intro f hf
  obtain ⟨f', hf', rfl⟩ := List.mem_map.1 hf
  exact hg f' (h f' hf')

/-- The tables of a chain one by one. -/
theorem allActions_iff : ch.AllActions Q ↔
    (AllOf Q ch.hash2.subtable0.flows ∧ AllOf Q ch.hash2.subtable1.flows) ∧
      AllOf Q ch.linear.flows ∧ AllOf Q ch.emergTable.flows := by
  have hw : AllOf Q ch.workingFlows ↔ (AllOf Q ch.hash2.subtable0.flows ∧
      AllOf Q ch.hash2.subtable1.flows) ∧ AllOf Q ch.linear.flows := by
    rw [workingFlows, SwTableHash2.flows, AllOf, List.forall_mem_append, List.forall_mem_append]
    exact Iff.rfl
  constructor
  · intro h
    exact ⟨(hw.1 h.working).1, (hw.1 h.working).2, h.emerg⟩
  · rintro ⟨h01, h2, h3⟩
    exact ⟨hw.2 ⟨h01, h2⟩, h3⟩

theorem allActions_create (sizes : TableSizes) : (chainCreate sizes).AllActions Q := by
  have hhash : ∀ (poly : BitVec 32) (k : Fin 32), AllOf Q (tableHashCreate poly k).flows := by
    intro poly k f hf
    rw [SwTableHash.flows_of_forall_none fun i => rfl] at hf
    cases hf
  have hlinear : AllOf Q (tableLinearCreate sizes.linearMaxFlows).flows := fun f hf => by cases hf
  exact allActions_iff.2 ⟨⟨hhash _ _, hhash _ _⟩, hlinear, hlinear⟩

theorem AllActions.filterTables (h : ch.AllActions Q) (p0 p1 p2 p3 : SwFlow → Bool) :
    (ch.filterTables p0 p1 p2 p3).AllActions Q := by
  obtain ⟨⟨h0, h1⟩, h2, h3⟩ := allActions_iff.1 h
  refine allActions_iff.2 ⟨⟨?_, ?_⟩, h2.filter p2, h3.filter p3⟩
  · rw [SwChain.filterTables, SwTableHash.flows_filterBuckets]
    exact h0.filter p0
  · rw [SwChain.filterTables, SwTableHash.flows_filterBuckets]
    exact h1.filter p1

/-- Rewriting entries. -/
theorem AllActions.mapTables (h : ch.AllActions Q) {g0 g1 g2 g3 : SwFlow → SwFlow}
    (hg0 : ∀ f, Q f.actions → Q (g0 f).actions) (hg1 : ∀ f, Q f.actions → Q (g1 f).actions)
    (hg2 : ∀ f, Q f.actions → Q (g2 f).actions) (hg3 : ∀ f, Q f.actions → Q (g3 f).actions) :
    (ch.mapTables g0 g1 g2 g3).AllActions Q := by
  obtain ⟨⟨h0, h1⟩, h2, h3⟩ := allActions_iff.1 h
  refine allActions_iff.2 ⟨⟨?_, ?_⟩, h2.map hg2, h3.map hg3⟩
  · rw [SwChain.mapTables, SwTableHash.flows_mapBuckets]
    exact h0.map hg0
  · rw [SwChain.mapTables, SwTableHash.flows_mapBuckets]
    exact h1.map hg1

/-- Inserting a flow. -/
theorem AllActions.insert (hv : ch.Valid) (h : ch.AllActions Q) {flow : SwFlow}
    (hwf : flow.WellFormed) (hq : Q flow.actions) {emerg : Bool}
    (hins : ch.insert flow emerg = some ch') : ch'.AllActions Q := by
  cases emerg with
  | true =>
    obtain ⟨tl, htl, rfl⟩ := insert_emerg_eq_some hins
    refine ⟨h.working, fun f hf => ?_⟩
    rcases hv.emergTable.mem_flows_insert hwf htl hf with ⟨serial, rfl⟩ | ⟨hf, -⟩
    · exact hq
    · exact h.emerg f hf
  | false =>
    refine ⟨fun f hf => ?_, ?_⟩
    · rcases hv.mem_workingFlows_insert hwf hins hf with ⟨serial, rfl⟩ | hf
      · exact hq
      · exact h.working f hf
    · rcases insert_eq_some hins with ⟨th, -, rfl⟩ | ⟨th, -, -, rfl⟩ | ⟨tl, -, -, -, rfl⟩ <;>
        exact h.emerg

/-- `chain_modify`. -/
theorem AllActions.modify (hv : ch.Valid) (h : ch.AllActions Q) {key : SwFlowKey}
    (hkey : key.Normal) (priority : BitVec 16) (strict : Bool) {actions : List Byte}
    (hq : Q actions) (emerg : Bool) :
    (ch.modify key priority strict actions emerg).1.AllActions Q := by
  have hg : ∀ f : SwFlow, Q f.actions →
      Q (if f.modifiedBy key priority strict then f.replaceActs actions else f).actions := by
    intro f hf
    split
    · exact hq
    · exact hf
  cases emerg with
  | true => exact ⟨h.working, h.emerg.map hg⟩
  | false =>
    rw [hv.modify_eq hkey]
    exact h.mapTables hg hg hg fun f hf => hf

/-- `chain_delete`. -/
theorem AllActions.delete (hv : ch.Valid) (h : ch.AllActions Q) {key : SwFlowKey}
    (hkey : key.Normal) (outPort : BitVec 16) {priority : BitVec 16} {strict : Bool}
    (hp : PriorityOfExact key priority strict) (emerg : Bool) :
    (ch.delete key outPort priority strict emerg).1.AllActions Q := by
  cases emerg with
  | true => exact ⟨h.working, h.emerg.filter _⟩
  | false =>
    rw [hv.delete_eq hkey outPort hp]
    exact h.filterTables _ _ _ _

/-- `flow_used` on the entry that a lookup points to. -/
theorem AllActions.updateLookup (hv : ch.Valid) (h : ch.AllActions Q) (key : SwFlowKey)
    {g : SwFlow → SwFlow} (hg : ∀ f, (g f).actions = f.actions) :
    (ch.updateLookup key g).AllActions Q := by
  obtain ⟨g0, g1, g2, h0, h1, h2, heq⟩ := hv.updateLookup_either key g
  have hkeep : ∀ {g' : SwFlow → SwFlow}, (∀ f, g' f = f ∨ g' f = g f) →
      ∀ f, Q f.actions → Q (g' f).actions := by
    intro g' h' f hf
    rcases h' f with heq | heq <;> rw [heq]
    · exact hf
    · rw [hg f]
      exact hf
  rw [heq]
  exact h.mapTables (hkeep h0) (hkeep h1) (hkeep h2) fun f hf => hf

/-- A lookup finds an entry of the working tables. -/
theorem mem_workingFlows_of_lookup {key : SwFlowKey} {f : SwFlow} (hv : ch.Valid)
    (h : ch.lookup key false = some f) : f ∈ ch.workingFlows := by
  simp only [lookup, SwTableHash2.lookup, Bool.false_eq_true, if_false, Option.or_eq_some_iff]
    at h
  rcases h with (h | ⟨-, h⟩) | ⟨-, h⟩
  · exact List.mem_append_left _ (List.mem_append_left _ (hv.subtable0.lookup_eq_some_iff.1 h).1)
  · exact List.mem_append_left _ (List.mem_append_right _ (hv.subtable1.lookup_eq_some_iff.1 h).1)
  · exact List.mem_append_right _ (SwTableLinear.lookup_eq_some h).1

end SwChain

/-! ### Runs without outputs to the tables -/

/-- A flow modification whose actions are accepted and installed, and send packets to the
tables. -/
def OfpFlowMod.InstallsTableOutput (ofm : OfpFlowMod) : Prop :=
  (ofm.knownCommand = some .add ∨ ofm.knownCommand = some .modify ∨
      ofm.knownCommand = some .modifyStrict) ∧
    validateActions (flowExtractMatch ofm.ofpMatch) ofm.actions = actValidationOk ∧
    hasOutPort ofppTable ofm.actions = .ok true

/-- The event is no such flow modification. -/
def DatapathEvent.NoTableOutput : DatapathEvent → Prop
  | .flowMod _ ofm => ¬ ofm.InstallsTableOutput
  | _ => True

/-- The actions that the event installs, when they are accepted, satisfy `Q`. -/
def DatapathEvent.Installs (Q : List Byte → Prop) : DatapathEvent → Prop
  | .flowMod _ ofm => (ofm.knownCommand = some .add ∨ ofm.knownCommand = some .modify ∨
      ofm.knownCommand = some .modifyStrict) →
    validateActions (flowExtractMatch ofm.ofpMatch) ofm.actions = actValidationOk → Q ofm.actions
  | _ => True

namespace Datapath

open SwChain

variable {dp : Datapath} {now : BitVec 64} {ofm : OfpFlowMod}

/-- The accepted actions of any other message that installs actions stay out of the tables. -/
theorem staysOut_of_not_installs (h : ¬ ofm.InstallsTableOutput)
    (hcmd : ofm.knownCommand = some .add ∨ ofm.knownCommand = some .modify ∨
      ofm.knownCommand = some .modifyStrict)
    (hval : validateActions (flowExtractMatch ofm.ofpMatch) ofm.actions = actValidationOk) :
    StaysOut ofm.actions := by
  refine ⟨_, hval, ?_⟩
  obtain ⟨as, hflat, has⟩ := validateActions_eq_ok_iff.1 hval
  have hport := hasOutPort_flatten has ofppTable
  rw [hflat] at hport
  rw [hport]
  cases hb : (ofppTable == ofppNone || as.any (outputsTo ofppTable)) with
  | false => rfl
  | true =>
    rw [hb] at hport
    exact absurd ⟨hcmd, hval, hport⟩ h

/-- Accepted actions are those of a message that passes the first check. -/
theorem validateActions_of_addFlowError (h : dp.addFlowError ofm = none) :
    validateActions (flowExtractMatch ofm.ofpMatch) ofm.actions = actValidationOk := by
  unfold addFlowError at h
  simp only at h
  split at h
  next => cases h
  next hcode => exact not_not.1 hcode

/-- The copies that `do_protection` makes of the emergency flows have the same actions. -/
theorem allActions_doProtection {Q : List Byte → Prop} (hv : dp.chain.Valid)
    (h : dp.chain.AllActions Q) : (dp.doProtection now).chain.AllActions Q := by
  unfold doProtection SwTableLinear.iterate
  have hvisit := Visit.visit_invariant (protectionCallback now)
    (fun chain => chain.Valid ∧ chain.AllActions Q)
    (l := dp.chain.emergTable.candidates allKey ofppNone (~~~SwTablePosition.zero.private0))
    (fun chain f hf hc => ?_) (s := dp.chain) ⟨hv, h⟩
  · split
    next s _ heq =>
      rw [heq] at hvisit
      exact hvisit.2
    next s _ heq =>
      rw [heq] at hvisit
      exact hvisit.2
  · have hmem := mem_of_mem_candidates hv.emergTable hf
    have hwf : (protectionFlow now f).WellFormed :=
      protectionFlow_wellFormed (hv.emergTable.wellFormed f hmem)
    unfold protectionCallback
    split
    next chain' hins =>
      exact ⟨hc.1.change (.insert hwf hins), hc.2.insert hc.1 hwf (h.emerg f hmem) hins⟩
    next => exact hc

/-- An event that installs only actions that satisfy `Q` keeps the tables to such actions. -/
theorem allActions_next {Q : List Byte → Prop} (hv : dp.chain.Valid) (h : dp.chain.AllActions Q)
    {e : DatapathEvent} (he : e.Installs Q) : (dp.next e).chain.AllActions Q := by
  have hkey := normal_flowExtractMatch
  cases e with
  | flowMod now ofm =>
    -- `mod_flow` changes what matches, and adds the flow if nothing did
    have hmod : ∀ strict, (ofm.knownCommand = some .modify ∨
        ofm.knownCommand = some .modifyStrict) →
        (dp.modFlow now ofm strict).1.chain.AllActions Q := by
      intro strict hcmd
      rcases modFlow_chain dp now ofm strict
        with heq | ⟨hval, heq | ⟨-, flow, hmk, hacts, hins⟩⟩
      · rw [heq]
        exact h
      · rw [heq]
        exact h.modify hv (hkey _) _ _ (he (.inr hcmd) hval) _
      · have hout := he (.inr hcmd) hval
        exact (h.modify hv (hkey _) _ _ hout _).insert
          (hv.change (hv.change_modify (hkey _) _ _ _ _)) hmk.wellFormed (hacts ▸ hout) hins
    have hdel : ∀ strict, (dp.deleteFlow now ofm strict).1.chain.AllActions Q :=
      fun strict => h.delete hv (hkey _) _ (ofm.priorityOfExact _ strict) _
    change (dp.recvFlowTables now ofm).1.chain.AllActions Q
    unfold recvFlowTables
    split
    next hcmd =>
      rcases addFlow_chain dp now ofm with heq | ⟨herr, flow, hmk, hacts, hins⟩
      · rw [heq]
        exact h
      · have hout := he (.inl hcmd) (validateActions_of_addFlowError herr)
        exact h.insert hv hmk.wellFormed (hacts ▸ hout) hins
    next hcmd => exact hmod false (.inl hcmd)
    next hcmd => exact hmod true (.inr hcmd)
    · exact hdel false
    · exact hdel true
    · exact h
  | packet now flow buffer =>
    change (dp.fwdPortInput now flow buffer).1.chain.AllActions Q
    rcases fwdPortInput_chain dp now flow buffer with heq | heq
    · rw [heq]
      exact h
    · rw [heq]
      exact h.updateLookup hv _ fun f => rfl
  | toController now buffer => exact h
  | run now =>
    change (dp.dpRun now).1.chain.AllActions Q
    rcases dpRun_chain dp now with heq | heq
    · rw [heq]
      exact h
    · rw [heq, timeout_fst]
      exact h.filterTables _ _ _ _
  | protection now =>
    -- the emergency flows go into the tables that have been emptied
    have hflush : (dp.flushWorking now).1.chain.AllActions Q :=
      h.delete hv normal_allKey ofppNone (priorityOfExact_of_not_strict _ 0) false
    have hvflush : (dp.flushWorking now).1.chain.Valid :=
      hv.change (hv.change_delete normal_allKey ofppNone (priorityOfExact_of_not_strict _ 0) false)
    exact allActions_doProtection hvflush hflush

/-- An event without an output to the tables installs none. -/
theorem installs_staysOut {e : DatapathEvent} (he : e.NoTableOutput) : e.Installs StaysOut := by
  cases e with
  | flowMod now ofm => exact fun hcmd hval => staysOut_of_not_installs he hcmd hval
  | packet | toController | run | protection => trivial

end Datapath

/-- Forwarding by a switch ends: no entry sends packets to the tables again, and every run through
the tables comes to an end. -/
structure Switch.ForwardingEnds (sw : Switch) : Prop where
  /-- What an entry does to a packet does not depend on what a run through the tables does. -/
  entries : ∀ f ∈ sw.chain.workingFlows,
    ∀ (now : BitVec 64) (runTables runTables' : TableRun) (buffer : Ofpbuf) (key : SwFlowKey),
      executeActions (doOutput runTables now) buffer key f.actions sw =
        executeActions (doOutput runTables' now) buffer key f.actions sw
  /-- A run through the tables has a result, with enough fuel. -/
  tables : ∀ (now : BitVec 64) (buffer : Ofpbuf) (p : Option SwPort), ∃ fuel result,
    result ≠ .error .endless ∧
      ∀ fuel' ≥ fuel, runFlowThroughTables now fuel' buffer p sw = result

open Switch in
/-- In every run whose accepted flow modifications send no packet to the tables, forwarding ends in
every state that the run reaches. -/
theorem forwarding_ends {sizes : TableSizes} {start : BitVec 64} {dp : Datapath}
    (h : Transition.ReachableVia Datapath.Step (fun _ e => e.NoTableOutput) (.init sizes start) dp)
    (sw : Switch) (hsw : sw.toDatapath = dp) : sw.ForwardingEnds := by
  subst hsw
  obtain ⟨hv, hacts⟩ : sw.chain.Valid ∧ sw.chain.AllActions StaysOut := by
    refine h.invariant (fun dp => dp.chain.Valid ∧ dp.chain.AllActions StaysOut)
      ⟨SwChain.valid_create sizes, SwChain.allActions_create sizes⟩ ?_
    rintro s e s' ⟨hv, hacts⟩ he rfl
    exact ⟨hv.changes (Datapath.changes_next hv e),
      Datapath.allActions_next hv hacts (Datapath.installs_staysOut he)⟩
  refine ⟨fun f hf now T T' buffer key => ?_, fun now buffer p => ?_⟩
  · exact executeActions_staysOut (hacts.working f hf) T T' now buffer key sw
  · obtain ⟨fragment, flow, b, hx⟩ : ∃ fragment flow b,
        flowExtract buffer ((p.map SwPort.portNo).getD ofppNone) = (fragment, flow, b) :=
      ⟨_, _, _, rfl⟩
    refine ⟨1, runFlowThroughTables now 1 buffer p sw, ?_, fun fuel' hfuel => ?_⟩
    · rw [runFlowThroughTables_succ hx]
      split
      · exact fun h => by cases h
      split
      · exact fun h => by cases h
      split
      next => exact fun h => by cases h
      next f hf =>
        have hout := hacts.working f (SwChain.mem_workingFlows_of_lookup hv hf)
        have hne := executeActions_ne_endless hout (runFlowThroughTables now 0) now b
          (packetKey flow) (sw.flowUsed now flow b)
        cases hexec : executeActions (doOutput (runFlowThroughTables now 0) now) b
            (packetKey flow) f.actions (sw.flowUsed now flow b) with
        | error e =>
          intro he
          exact hne (hexec.trans (congrArg _ (Except.error.inj he)))
        | ok w => exact fun h => by cases h
    · -- more fuel makes no difference, because no action asks for another run
      obtain ⟨fuel, rfl⟩ := Nat.exists_eq_add_of_le' hfuel
      rw [runFlowThroughTables_succ hx, runFlowThroughTables_succ hx]
      cases hf : sw.chain.lookup (packetKey flow) false with
      | none => rfl
      | some f =>
        have hout := hacts.working f (SwChain.mem_workingFlows_of_lookup hv hf)
        simp only [executeActions_staysOut hout (runFlowThroughTables now fuel)
          (runFlowThroughTables now 0)]

/-! ### An endless run -/

/-- A flow modification that adds an entry for every packet, with the given actions. -/
def catchAll (actions : List Byte) (h : sizeofOfpFlowMod + actions.length < 2 ^ 16) : OfpFlowMod :=
  { plainFlowMod 0 { OfpMatch.zero with wildcards := ofpfwAll } 1 with
    actions, length_lt := h }

/-- Port 1, as `new_port` adds it. -/
def SwPort.added : SwPort where
  config := 0
  state := 0
  used := true
  portNo := 1
  netdev := false
  numQueues := netdevMaxQueues
  queueList := []
  real := .inl (by decide)
  numQueues_le := by decide
  classIds_nodup := SwPort.nodup_nil
  classId_lt := fun _ hq => by cases hq

/-- The switch of a datapath, with a single port that has been added. -/
def onePortSwitch (dp : Datapath) : Switch :=
  { dp with
    flags := 0, missSendLen := 128
    ports := fun i => if i = 1 then .added else .unused
    localPort := none, portList := [1], sent := [], portList_nodup := List.nodup_singleton 1 }

/-- A flow modification that sends every packet out on port 2 is let through: forwarding ends. -/
theorem forwarding_ends_output :
    (onePortSwitch ((Datapath.init .source 0).runEvents
      [.flowMod 0 (catchAll outputAction (by decide))])).ForwardingEnds := by
  have hok : DatapathEvent.NoTableOutput (.flowMod 0 (catchAll outputAction (by decide))) := by
    rintro ⟨-, -, hport⟩
    exact absurd hport (by decide)
  have hrun : Transition.ReachableVia Datapath.Step (fun _ e => e.NoTableOutput)
      (.init .source 0) ((Datapath.init .source 0).runEvents
        [.flowMod 0 (catchAll outputAction (by decide))]) := .tail .refl hok rfl
  exact forwarding_ends hrun _ rfl

/-- An output to the tables. -/
def tableAction : List Byte := [0, 0, 0, 8, 0xff, 0xf9, 0, 0]

theorem executeActions_tableAction {σ : Type*} (out : OutputCall → σ → Except ForwardFault σ)
    (buffer : Ofpbuf) (key : SwFlowKey) (w : σ) :
    executeActions out buffer key tableAction w =
      out ⟨buffer, key.flow.inPort, 0, ofppTable, 0⟩ w := rfl

/-- Extracting the flow of a packet once more gives the same flow and the same headers. -/
theorem flowExtract_flowExtract (buffer : Ofpbuf) (inPort : BitVec 16) :
    flowExtract (flowExtract buffer inPort).2.2 inPort = flowExtract buffer inPort := by
  have hcongr : ∀ l2 l3 l4 l7, flowExtract { buffer with l2, l3, l4, l7 } inPort =
      flowExtract buffer inPort := fun _ _ _ _ => rfl
  obtain ⟨l3, l4, l7, heq⟩ := flowExtract_headers buffer inPort
  rw [heq, hcongr]

/-- A lookup in a hash table after `g` has been applied to the entry that it points to. -/
theorem SwTableHash.lookup_updateLookup (th : SwTableHash) (key : SwFlowKey)
    {g : SwFlow → SwFlow} (hg : ∀ f, (g f).key = f.key) :
    (th.updateLookup key g).lookup key = (th.lookup key).map g := by
  unfold updateLookup
  cases hl : th.lookup key with
  | none => exact hl
  | some f =>
    have hf : f.key.flow == key.flow := by
      rw [lookup, Option.filter_eq_some_iff] at hl
      exact hl.2
    have hbucket : (th.setBucket (th.findBucket key.flow) (some (g f))).buckets
        (th.findBucket key.flow) = some (g f) := by
      rw [setBucket_buckets, if_pos rfl]
    change Option.filter _ ((th.setBucket (th.findBucket key.flow) (some (g f))).buckets
      (th.findBucket key.flow)) = _
    rw [hbucket, Option.filter_some, hg, if_pos hf]
    rfl

/-- A lookup in a linear table after `g` has been applied to the entry that it points to. -/
theorem SwTableLinear.lookup_updateLookup (tl : SwTableLinear) (key : SwFlowKey)
    {g : SwFlow → SwFlow} (hg : ∀ f, (g f).key = f.key) :
    (tl.updateLookup key g).lookup key = (tl.lookup key).map g := by
  unfold updateLookup
  cases hl : tl.lookup key with
  | none => exact hl
  | some f =>
    -- the entries match as before
    have hmatch : (fun flow : SwFlow => flowMatches1wild key flow.key) ∘
        (fun flow => if flow.serial = f.serial then g flow else flow) =
        fun flow => flowMatches1wild key flow.key := by
      funext flow
      simp only [Function.comp_apply]
      split
      · rw [hg]
      · rfl
    change List.find? _ (tl.flows.map fun flow => if flow.serial = f.serial then g flow else flow)
      = _
    rw [List.find?_map, hmatch]
    change (tl.lookup key).map _ = _
    rw [hl, Option.map_some, if_pos rfl]
    rfl

/-- A lookup after `g` has been applied to the entry that it points to. -/
theorem SwChain.lookup_updateLookup (ch : SwChain) (key : SwFlowKey) {g : SwFlow → SwFlow}
    (hg : ∀ f, (g f).key = f.key) :
    (ch.updateLookup key g).lookup key false = (ch.lookup key false).map g := by
  have h0 := ch.hash2.subtable0.lookup_updateLookup key hg
  have h1 := ch.hash2.subtable1.lookup_updateLookup key hg
  have h2 := ch.linear.lookup_updateLookup key hg
  unfold updateLookup lookup SwTableHash2.updateLookup SwTableHash2.lookup
  cases hl0 : ch.hash2.subtable0.lookup key with
  | some f =>
    rw [hl0] at h0
    simp [h0]
  | none =>
    cases hl1 : ch.hash2.subtable1.lookup key with
    | some f =>
      rw [hl1] at h1
      simp [hl0, h1]
    | none => simp [hl0, hl1, h2]

open Switch in
/-- An entry whose only action is an output to the tables keeps the packets that it matches there
for ever, if nothing drops them before. -/
theorem endless_of_tableAction {now : BitVec 64} {sw : Switch} {p : SwPort} {buffer b : Ofpbuf}
    {fragment : Bool} {flow : Flow} {f : SwFlow} (hp : sw.dpLookupPort p.portNo = some p)
    (hx : flowExtract buffer p.portNo = (fragment, flow, b))
    (hfrag : (fragment && sw.flags &&& ofpcFragMask == ofpcFragDrop) = false)
    (hrefuse : p.refuses flow.dlDst = false)
    (hf : sw.chain.lookup (packetKey flow) false = some f) (hacts : f.actions = tableAction)
    (fuel : ℕ) : runFlowThroughTables now fuel buffer (some p) sw = .error .endless := by
  induction fuel generalizing buffer sw f with
  | zero => rfl
  | succ fuel ih =>
    have hport : flow.inPort = p.portNo := by
      have hflow := packetFlow_inPort buffer p.portNo
      rw [packetFlow, hx] at hflow
      exact hflow
    have hb : flowExtract b p.portNo = (fragment, flow, b) := by
      have htwice := flowExtract_flowExtract buffer p.portNo
      rw [hx] at htwice
      exact htwice
    -- the next round meets the same packet and the same entry, with other counters
    have hlookup : (sw.flowUsed now flow b).chain.lookup (packetKey flow) false =
        some (f.flowUsed now b.size) := by
      rw [flowUsed, SwChain.lookup_updateLookup, hf]
      · rfl
      · exact SwFlow.flowUsed_key now b.size
    have hnext : runFlowThroughTables now fuel b (some p) (sw.flowUsed now flow b) =
        .error .endless := ih hp hb hfrag hlookup hacts
    rw [runFlowThroughTables_succ hx, hfrag, hf]
    simp only [Bool.false_eq_true, if_false, Option.any_some, hrefuse, hacts]
    rw [executeActions_tableAction]
    have hlocal : (sw.flowUsed now flow b).dpLookupPort (packetKey flow).flow.inPort = some p := by
      rw [packetKey, hport]
      exact hp
    have hne : ofppTable ≠ ofppController := by decide
    have hne' : ofppTable ≠ ofppInPort := by decide
    rw [doOutput, if_pos hne, dpOutputPort, if_neg hne', if_pos rfl]
    simp only [hlocal, hnext]
    rfl

/-- A datapath with an entry that sends every packet to the tables. -/
def loopingDatapath : Datapath :=
  (Datapath.init .source 0).runEvents [.flowMod 0 (catchAll tableAction (by decide))]

/-- The entry is accepted, and no packet leaves the tables again. -/
theorem not_forwarding_ends : ¬ ∀ (sizes : TableSizes) (dp : Datapath),
    Datapath.Reachable sizes dp → ∀ sw : Switch, sw.toDatapath = dp → sw.ForwardingEnds := by
  intro hall
  have hends := hall .source loopingDatapath (Datapath.reachable_runEvents _ _ _)
    (onePortSwitch loopingDatapath) rfl
  obtain ⟨fuel, result, hne, hresult⟩ := hends.tables 0 (.cloneData []) (some .added)
  have hactions : ((onePortSwitch loopingDatapath).chain.lookup
      (packetKey (Flow.unset 1)) false).map SwFlow.actions = some tableAction := by
    decide +kernel
  obtain ⟨f, hf, hacts⟩ := Option.map_eq_some_iff.1 hactions
  have hx : flowExtract (.cloneData []) SwPort.added.portNo = (false, Flow.unset 1,
      { Ofpbuf.cloneData [] with l2 := some 0 }) := rfl
  have hport : (onePortSwitch loopingDatapath).dpLookupPort SwPort.added.portNo = some .added :=
    rfl
  have hrefuse : SwPort.added.refuses (Flow.unset 1).dlDst = false := by decide
  exact hne ((hresult fuel (le_refl fuel)).symm.trans
    (endless_of_tableAction hport hx rfl hrefuse hf hacts fuel))

end OfAgent
