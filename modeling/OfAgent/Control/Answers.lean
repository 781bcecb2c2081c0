import OfAgent.Forward.Loops

/-!
# What follows a flow modification

The demands of `recv_flow`, after it has changed the tables: error messages, messages about removed
flows, and the execution of actions on a saved packet.

* `Datapath.installed`: the tables with the entry that a flow modification asks for.
* `Datapath.Answers`: an error message without an entry, and the execution of the actions with one;
  `answers_recvFlowTables`.
* `length_of_errorMsg_mem`: an error message quotes the whole flow modification.
-/

namespace OfAgent

/-- The command is one that adds or modifies entries. -/
def OfpFlowMod.IsInstallation (ofm : OfpFlowMod) : Prop :=
  ofm.knownCommand = some .add ∨ ofm.knownCommand = some .modify ∨
    ofm.knownCommand = some .modifyStrict

namespace Datapath

section Installed

variable (now : BitVec 64) (dp : Datapath) (ofm : OfpFlowMod)

/-- The tables after `add_flow`, if the entry passes the checks and there is room for it. -/
def addInstalled : Option SwChain :=
  match dp.addFlowError ofm with
  | some _ => none
  | none =>
      let flow := match (dp.takeBuffer ofm).1 with
        | some b => (ofm.newFlow now).flowUsed now b.length
        | none => ofm.newFlow now
      dp.chain.insert flow (ofm.hasFlag ofpffEmerg)

/-- The tables after `mod_flow`, if the actions pass the check and there is an entry to modify or
room for a new one. -/
def modInstalled (strict : Bool) : Option SwChain :=
  let key := flowExtractMatch ofm.ofpMatch
  let emerg := ofm.hasFlag ofpffEmerg
  if validateActions key ofm.actions ≠ actValidationOk then none
  else
    let (chain, count) := dp.chain.modify key (ofm.flowPriority key) strict ofm.actions emerg
    if count ≠ 0 then some chain else chain.insert (ofm.newFlow now) emerg

/-- The tables with the entry that a flow modification asks for, if it asks for one and gets it. -/
def installed : Option SwChain :=
  match ofm.knownCommand with
  | some .add => dp.addInstalled now ofm
  | some .modify => dp.modInstalled now ofm false
  | some .modifyStrict => dp.modInstalled now ofm true
  | some .delete | some .deleteStrict | none => none

end Installed

variable {now : BitVec 64} {dp : Datapath} {ofm : OfpFlowMod}

/-- What follows a flow modification: an error message without an entry, and the execution of the
actions with one. -/
structure Answers (dp : Datapath) (ofm : OfpFlowMod) (tables : Option SwChain)
    (r : Datapath × List DpOutput × ℤ) : Prop where
  /-- There is no entry. -/
  rejected : tables = none → ∃ error, r.2.1 = [.errorMsg error ofm.length]
  /-- There is one. -/
  accepted : ∀ chain, tables = some chain →
    validateActions (flowExtractMatch ofm.ofpMatch) ofm.actions = actValidationOk ∧
      r.1.chain = chain ∧ r.2.1 = executeOn ofm (dp.takeBuffer ofm).1

theorem Answers.reject {r : Datapath × List DpOutput × ℤ} {error : FlowModError}
    (h : r.2.1 = [.errorMsg error ofm.length]) : dp.Answers ofm none r where
  rejected _ := ⟨error, h⟩
  accepted chain hsome := by cases hsome

theorem Answers.accept {r : Datapath × List DpOutput × ℤ} {tables : SwChain}
    (hval : validateActions (flowExtractMatch ofm.ofpMatch) ofm.actions = actValidationOk)
    (htables : r.1.chain = tables) (h : r.2.1 = executeOn ofm (dp.takeBuffer ofm).1) :
    dp.Answers ofm (some tables) r where
  rejected hnone := by cases hnone
  accepted chain hsome := ⟨hval, htables.trans (Option.some.inj hsome), h⟩

/-- `add_flow`. -/
theorem answers_addFlow : dp.Answers ofm (dp.addInstalled now ofm) (dp.addFlow now ofm) := by
  unfold addInstalled addFlow
  cases herr : dp.addFlowError ofm with
  | some error => exact .reject rfl
  | none =>
    have hval := validateActions_of_addFlowError herr
    rcases htake : dp.takeBuffer ofm with ⟨_ | b, dp'⟩
    · simp only
      cases dp.chain.insert (ofm.newFlow now) (ofm.hasFlag ofpffEmerg) with
      | none => exact .reject rfl
      | some chain => exact .accept hval rfl (by rw [htake])
    · simp only
      cases dp.chain.insert ((ofm.newFlow now).flowUsed now b.length)
          (ofm.hasFlag ofpffEmerg) with
      | none => exact .reject rfl
      | some chain => exact .accept hval rfl (by rw [htake])

/-- `mod_flow`. -/
theorem answers_modFlow (strict : Bool) :
    dp.Answers ofm (dp.modInstalled now ofm strict) (dp.modFlow now ofm strict) := by
  unfold modInstalled modFlow
  simp only
  split
  next hval => exact .reject rfl
  next hval =>
    split
    next hcount => exact .accept (not_not.1 hval) rfl rfl
    next hcount =>
      cases (dp.chain.modify (flowExtractMatch ofm.ofpMatch)
          (ofm.flowPriority (flowExtractMatch ofm.ofpMatch)) strict ofm.actions
          (ofm.hasFlag ofpffEmerg)).1.insert (ofm.newFlow now) (ofm.hasFlag ofpffEmerg) with
      | none => exact .reject rfl
      | some chain => exact .accept (not_not.1 hval) rfl rfl

/-- A flow modification that adds or modifies entries. -/
theorem answers_recvFlowTables (dp : Datapath) (now : BitVec 64) (h : ofm.IsInstallation) :
    dp.Answers ofm (dp.installed now ofm) (dp.recvFlowTables now ofm) := by
  unfold installed recvFlowTables
  rcases h with hcmd | hcmd | hcmd <;> rw [hcmd]
  · exact answers_addFlow
  · exact answers_modFlow false
  · exact answers_modFlow true

/-- `dp_send_flow_end` sends a message about a removed flow, or none. -/
theorem flowRemoved_of_dpSendFlowEnd {flow : SwFlow} {reason : OfpFlowRemovedReason}
    {output : DpOutput} (h : dpSendFlowEnd now flow reason = some output) :
    ∃ ofr, output = .flowRemoved ofr := by
  unfold dpSendFlowEnd at h
  simp only at h
  split at h
  next => cases h
  next =>
    split at h
    next => cases h
    next => exact ⟨_, (Option.some.inj h).symm⟩

/-- Deleted entries are followed by messages about removed flows. -/
theorem flowRemoved_of_mem {deleted : List SwFlow} {reason : OfpFlowRemovedReason}
    {output : DpOutput}
    (h : output ∈ deleted.filterMap fun flow => dpSendFlowEnd now flow reason) :
    ∃ ofr, output = .flowRemoved ofr := by
  obtain ⟨flow, -, hflow⟩ := List.mem_filterMap.1 h
  exact flowRemoved_of_dpSendFlowEnd hflow

/-- Timeouts are followed by such messages only. -/
theorem flowRemoved_of_mem_dpRun {output : DpOutput} (h : output ∈ (dp.dpRun now).2) :
    ∃ ofr, output = .flowRemoved ofr := by
  unfold dpRun at h
  split at h
  next => cases h
  next =>
    obtain ⟨d, -, hd⟩ := List.mem_filterMap.1 h
    exact flowRemoved_of_dpSendFlowEnd hd

/-- Any other flow modification is followed by messages about removed flows only. -/
theorem flowRemoved_of_not_isInstallation (h : ¬ ofm.IsInstallation) {output : DpOutput}
    (hmem : output ∈ (dp.recvFlowTables now ofm).2.1) : ∃ ofr, output = .flowRemoved ofr := by
  unfold recvFlowTables at hmem
  cases hcmd : ofm.knownCommand with
  | none =>
    rw [hcmd] at hmem
    cases hmem
  | some command =>
    rw [hcmd] at hmem
    cases command with
    | add => exact absurd (.inl hcmd) h
    | modify => exact absurd (.inr (.inl hcmd)) h
    | modifyStrict => exact absurd (.inr (.inr hcmd)) h
    | delete | deleteStrict => exact flowRemoved_of_mem hmem

/-- An error message of `recv_flow` quotes the whole flow modification. -/
theorem length_of_errorMsg_mem {error : FlowModError} {length : ℕ}
    (h : .errorMsg error length ∈ (dp.recvFlowTables now ofm).2.1) : length = ofm.length := by
  by_cases hinst : ofm.IsInstallation
  · obtain ⟨hrejected, haccepted⟩ := answers_recvFlowTables dp now hinst
    cases htables : dp.installed now ofm with
    | none =>
      obtain ⟨error', heq⟩ := hrejected htables
      rw [heq, List.mem_singleton] at h
      exact (DpOutput.errorMsg.inj h).2
    | some chain =>
      rw [(haccepted chain htables).2.2] at h
      cases hb : (dp.takeBuffer ofm).1 <;> simp [executeOn, hb] at h
  · obtain ⟨ofr, heq⟩ := flowRemoved_of_not_isInstallation hinst h
    cases heq

end Datapath

end OfAgent
