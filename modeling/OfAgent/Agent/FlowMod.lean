import OfAgent.Flow.Actions
import OfAgent.OpenFlow

/-!
# The agent's handler of flow modifications

`ofagent.c`: the handler that `recv_flow` calls before it touches the tables. It keeps a table of
its own, whose records hold the match and the actions of each addition, and configures a device
with the actions. Which device that is, and with which functions, is a parameter.

* `DevProperties`: what a device supports, and the functions that configure it.
* `applyActions`, `unapplyActions`: the two walks over the actions of a record. They stop with an
  `AgentFault` where the source would leave the actions, or not stop.
* `handleFlowMod`: the handler. A record whose actions have been released keeps its place in the
  table; applying the walk to it once more is a fault.
* `handleFlowMod_cases`: what the handler has done when it has not met a fault.
-/

namespace OfAgent

/-- What can go wrong in the agent. -/
inductive AgentFault
  /-- A walk over actions goes wrong. -/
  | walk (fault : Tlv.Fault)
  /-- An action header is read outside the actions. -/
  | actionsOutside
  /-- The actions of a record are read or released after their release. -/
  | useAfterRelease
  deriving DecidableEq, Repr

/-- `struct inserted_flow`. Its index of the current action lasts for one walk only and is an
argument of the functions that read it. -/
structure InsertedFlow where
  /-- The match of the message. -/
  ofpMatch : OfpMatch
  /-- The bytes of the actions. -/
  actions : List Byte
  /-- The actions and the device configurations have been released. -/
  released : Bool
  /-- The indices of the actions whose configuration has succeeded: the values of `success` in
  `apply_actions`, which the source leaves unused. -/
  applied : List ℕ
  deriving DecidableEq, Repr

/-- `struct dev_action`: the functions get the record and the index of the current action. -/
structure DevAction (σ : Type*) where
  /-- The type of the action. -/
  actionType : BitVec 16
  /-- `conf_fun_ptr`: the device and the return value. -/
  confFun : InsertedFlow → ℕ → σ → Except AgentFault (σ × ℤ)
  /-- `unconf_fun_ptr`, if it is not null. -/
  unconfFun : Option (InsertedFlow → ℕ → σ → Except AgentFault σ)

/-- `struct dev_properties`. -/
structure DevProperties (σ : Type*) where
  /-- The flow modification fields on which the device should react. -/
  wildcards : BitVec 32
  /-- The action types supported by the device. -/
  supportedActions : List (DevAction σ)

/-- The table of inserted flows, and the device. -/
structure Agent (σ : Type*) where
  /-- `inserted_flows` up to the static `flow_counter`, which is the length of the list. -/
  insertedFlows : List InsertedFlow
  /-- The device, with the agent's view of it. -/
  device : σ
  /-- The records whose actions have been unapplied, in order: a history that the source does not
  keep. -/
  unapplied : List ℕ
  deriving DecidableEq, Repr

/-- `MAX_NUMBER_OF_FLOWS`. -/
def maxNumberOfFlows : ℕ := 10000

/-- `my_flow_fields_match`. -/
def myFlowFieldsMatch (a b : OfpMatch) : Bool :=
  a.inPort == b.inPort
    && a.dlVlan == b.dlVlan
    && a.dlVlanPcp == b.dlVlanPcp
    && a.dlSrc == b.dlSrc
    && a.dlDst == b.dlDst
    && a.dlType == b.dlType
    && a.nwTos == b.nwTos
    && a.nwProto == b.nwProto
    && a.nwSrc == b.nwSrc
    && a.nwDst == b.nwDst
    && a.tpSrc == b.tpSrc
    && a.tpDst == b.tpDst

section Handler

variable {σ : Type*} (dev : DevProperties σ)

/-- The supported action of a given type. -/
def DevProperties.find (actionType : BitVec 16) : Option (DevAction σ) :=
  dev.supportedActions.find? fun sa => sa.actionType == actionType

/-- One turn of the loop of `apply_actions`: the device and the indices of the actions that have
been configured. -/
def applyAction (infl : InsertedFlow) (auxInd : ℕ) (ah : List Byte) (s : σ × List ℕ) :
    Except AgentFault (σ × List ℕ) :=
  match dev.find (actionType ah) with
  | none => .ok s
  | some sa =>
      match sa.confFun infl auxInd s.1 with
      | .error e => .error e
      | .ok (device, success) =>
          .ok (device, if success = 0 then s.2 ++ [auxInd] else s.2)

/-- `apply_actions`, without its messages. A header is the whole structure of 8 bytes.
`print_action` reads the arguments of an action for a message, also those behind the end of a short
one: this is left out. -/
def applyActions (fuel : ℕ) (infl : InsertedFlow) (device : σ) :
    Except AgentFault (σ × List ℕ) :=
  Tlv.walk sizeofOfpActionHeader actionLen .walk (applyAction dev infl) fuel 0 infl.actions
    (device, [])

/-- One turn of the loop of `unapply_actions`. -/
def unapplyAction (infl : InsertedFlow) (auxInd : ℕ) (ah : List Byte) (device : σ) :
    Except AgentFault σ :=
  match dev.find (actionType ah) with
  | none => .ok device
  | some sa =>
      match sa.unconfFun with
      | some unconf => unconf infl auxInd device
      | none => .ok device

/-- `unapply_actions`. -/
def unapplyActions (fuel : ℕ) (infl : InsertedFlow) (device : σ) : Except AgentFault σ :=
  Tlv.walk sizeofOfpActionHeader actionLen .walk (unapplyAction dev infl) fuel 0 infl.actions
    device

/-- What is left of a record behind its release. -/
def InsertedFlow.release (infl : InsertedFlow) : InsertedFlow :=
  { infl with ofpMatch := .zero, released := true }

/-- The loop of `handleFlowMod` on `OFPFC_DELETE`, from record `i` on: the records, the device and
the history. -/
def deleteLoop (ofpMatch : OfpMatch) : ℕ → List InsertedFlow → σ → List ℕ →
    Except AgentFault (List InsertedFlow × σ × List ℕ)
  | _, [], device, unapplied => .ok ([], device, unapplied)
  | i, infl :: infls, device, unapplied =>
      if myFlowFieldsMatch infl.ofpMatch ofpMatch then
        if infl.released then .error .useAfterRelease
        else
          match unapplyActions dev infl.actions.length infl device with
          | .error e => .error e
          | .ok device =>
              match deleteLoop ofpMatch (i + 1) infls device (unapplied ++ [i]) with
              | .error e => .error e
              | .ok (infls, device, unapplied) => .ok (infl.release :: infls, device, unapplied)
      else
        match deleteLoop ofpMatch (i + 1) infls device unapplied with
        | .error e => .error e
        | .ok (infls, device, unapplied) => .ok (infl :: infls, device, unapplied)

/-- The record that `OFPFC_ADD` fills. -/
def OfpFlowMod.insertedFlow (ofm : OfpFlowMod) : InsertedFlow :=
  { ofpMatch := ofm.ofpMatch, actions := ofm.actions, released := false, applied := [] }

/-- `handleFlowMod`. The device is `none` when the name of the hardware is not recognized. -/
def handleFlowMod (platform : Option (DevProperties σ)) (agent : Agent σ) (ofm : OfpFlowMod) :
    Except AgentFault (Agent σ) :=
  match platform with
  | none => .ok agent
  | some dev =>
      if maxNumberOfFlows ≤ agent.insertedFlows.length then .ok agent
      -- the comparison binds more tightly than the conjunction
      else if ~~~ofm.ofpMatch.wildcards &&&
          (if ~~~dev.wildcards ≠ ~~~dev.wildcards then 1 else 0) ≠ 0 then .ok agent
      else
        match ofm.knownCommand with
        | some .add =>
            let infl := ofm.insertedFlow
            match applyActions dev infl.actions.length infl agent.device with
            | .error e => .error e
            | .ok (device, applied) =>
                .ok { agent with
                  insertedFlows := agent.insertedFlows ++ [{ infl with applied }]
                  device }
        | some .delete =>
            match deleteLoop dev ofm.ofpMatch 0 agent.insertedFlows agent.device
              agent.unapplied with
            | .error e => .error e
            | .ok (insertedFlows, device, unapplied) => .ok { insertedFlows, device, unapplied }
        | _ => .ok agent

variable {dev} {agent agent' : Agent σ} {ofm : OfpFlowMod}

theorem handleFlowMod_of_full (hfull : maxNumberOfFlows ≤ agent.insertedFlows.length) :
    handleFlowMod (some dev) agent ofm = .ok agent := by
  simp only [handleFlowMod, if_pos hfull]

/-- The comparison of wildcards lets every message pass. -/
theorem handleFlowMod_of_not_full (hfull : ¬ maxNumberOfFlows ≤ agent.insertedFlows.length) :
    handleFlowMod (some dev) agent ofm =
      match ofm.knownCommand with
      | some .add =>
          let infl := ofm.insertedFlow
          match applyActions dev infl.actions.length infl agent.device with
          | .error e => .error e
          | .ok (device, applied) =>
              .ok { agent with
                insertedFlows := agent.insertedFlows ++ [{ infl with applied }]
                device }
      | some .delete =>
          match deleteLoop dev ofm.ofpMatch 0 agent.insertedFlows agent.device
            agent.unapplied with
          | .error e => .error e
          | .ok (insertedFlows, device, unapplied) => .ok { insertedFlows, device, unapplied }
      | _ => .ok agent := by
  have hgate : ∀ w : BitVec 32, w &&& 0 = 0 := fun _ => BitVec.and_zero
  simp only [handleFlowMod, if_neg hfull, ne_eq, not_true_eq_false, if_false, hgate]

/-- What the handler has done when it has not met a fault: nothing, or an addition or a deletion
on a table that is not full. -/
theorem handleFlowMod_cases (h : handleFlowMod (some dev) agent ofm = .ok agent') :
    (agent' = agent ∧ (maxNumberOfFlows ≤ agent.insertedFlows.length ∨
        ofm.knownCommand ≠ some .add ∧ ofm.knownCommand ≠ some .delete)) ∨
      (agent.insertedFlows.length < maxNumberOfFlows ∧ ofm.knownCommand = some .add ∧
        ∃ device applied,
          applyActions dev ofm.actions.length ofm.insertedFlow agent.device =
            .ok (device, applied) ∧
          agent' = { agent with
            insertedFlows := agent.insertedFlows ++ [{ ofm.insertedFlow with applied }]
            device }) ∨
      (agent.insertedFlows.length < maxNumberOfFlows ∧ ofm.knownCommand = some .delete ∧
        deleteLoop dev ofm.ofpMatch 0 agent.insertedFlows agent.device agent.unapplied =
          .ok (agent'.insertedFlows, agent'.device, agent'.unapplied)) := by
  by_cases hfull : maxNumberOfFlows ≤ agent.insertedFlows.length
  · rw [handleFlowMod_of_full hfull] at h
    exact .inl ⟨(Except.ok.inj h).symm, .inl hfull⟩
  · rw [handleFlowMod_of_not_full hfull] at h
    have hlt := Nat.lt_of_not_le hfull
    -- the other commands are ignored
    split at h
    next hadd =>
      cases happly : applyActions dev ofm.insertedFlow.actions.length ofm.insertedFlow
          agent.device with
      | error e => simp [happly] at h
      | ok r =>
        simp only [happly, Except.ok.injEq] at h
        exact .inr (.inl ⟨hlt, hadd, r.1, r.2, happly, h.symm⟩)
    next hdel =>
      cases hloop : deleteLoop dev ofm.ofpMatch 0 agent.insertedFlows agent.device
          agent.unapplied with
      | error e => simp [hloop] at h
      | ok r =>
        simp only [hloop, Except.ok.injEq] at h
        subst h
        exact .inr (.inr ⟨hlt, hdel, rfl⟩)
    next hadd hdel => exact .inl ⟨(Except.ok.inj h).symm, .inr ⟨hadd, hdel⟩⟩

end Handler

end OfAgent
