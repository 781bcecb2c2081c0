import OfAgent.Agent.FlowMod

/-!
# The Zyxel device

`zyxel.c`: a device with seven WAN services. An output action of a flow sets up the service for the
flow's address and VLAN, or counts one more flow for it; its removal counts one flow less for the
first service with the address, or takes the service down.

* `ZyxelProperties`: the services and their counters; `ZyxelState`: these and the commands that
  have been given to the device.
* `outputConfZyxel`, `outputUnconfZyxel`: the two functions of the supported actions.
* `zyxelProps`: the properties of the platform, for given exit values of the commands.
-/

namespace OfAgent

/-- `struct zyxel_service_params`. The fields from `vlanTag` on are of type `short`. -/
structure ZyxelServiceParams where
  /-- The port of the flow; zero in a slot that is not in use. -/
  inPort : BitVec 16
  /-- The address of the WAN interface. -/
  wanAddress : BitVec 32
  /-- Its mask. -/
  wanMask : BitVec 32
  /-- The VLAN of the WAN interface. -/
  vlanTag : BitVec 16
  /-- Its priority. -/
  vlanPcp : BitVec 16
  /-- The number of flows related to the service. -/
  flowCounter : BitVec 16
  deriving DecidableEq, Repr

/-- A slot of the array when the program starts. -/
def ZyxelServiceParams.zero : ZyxelServiceParams := ⟨0, 0, 0, 0, 0, 0⟩

/-- `MAX_SERVICES`. -/
def maxServices : ℕ := 7

/-- `struct zyxel_properties`, without the fields that `zyxel_init` sets. -/
structure ZyxelProperties where
  /-- `created_services`. -/
  createdServices : List ZyxelServiceParams
  /-- The number of services, of type `short`. -/
  srvCounter : BitVec 16
  /-- The next slot; it grows up to `MAX_SERVICES`. -/
  serviceAllocatorIndex : ℕ
  /-- The array has `MAX_SERVICES` slots. -/
  length_eq : createdServices.length = maxServices
  deriving DecidableEq, Repr

/-- A command of `zyxel_client.py`, with its arguments. -/
inductive DeviceCommand
  /-- `zyxel_configure_service`. -/
  | setwan (wanAddress wanMask : BitVec 32) (vlanTag vlanPcp : BitVec 16)
  /-- `zyxel_unconfigure_service`. -/
  | delwan (wanAddress wanMask : BitVec 32) (vlanTag vlanPcp : BitVec 16)
  deriving DecidableEq, Repr

/-- The properties and the commands that have been run. -/
structure ZyxelState where
  /-- `zyxel_props`. -/
  props : ZyxelProperties
  /-- The commands, in order. -/
  commands : List DeviceCommand
  deriving DecidableEq, Repr

/-- The state when the program starts. -/
def ZyxelState.init : ZyxelState :=
  ⟨⟨List.replicate maxServices .zero, 0, 0, List.length_replicate⟩, []⟩

namespace ZyxelProperties

/-- The properties with a slot changed by `g`. -/
def modifySlot (p : ZyxelProperties) (i : ℕ) (g : ZyxelServiceParams → ZyxelServiceParams) :
    ZyxelProperties :=
  { p with
    createdServices := p.createdServices.modify i g
    length_eq := by rw [List.length_modify, p.length_eq] }

/-- The slots that have been allocated. -/
def allocated (p : ZyxelProperties) : List ZyxelServiceParams :=
  p.createdServices.take p.serviceAllocatorIndex

end ZyxelProperties

namespace InsertedFlow

variable (infl : InsertedFlow)

/-- `wan_address` of the flow: its source address, or its destination address. -/
def wanAddress : BitVec 32 :=
  if infl.ofpMatch.nwSrc = 0 then infl.ofpMatch.nwDst else infl.ofpMatch.nwSrc

/-- What `output_conf_zyxel` reads from the actions up to the current one: the output port, the
VLAN and its priority. It takes the actions to be 8 bytes long each. -/
def scanActions (auxInd : ℕ) : BitVec 16 × BitVec 16 × BitVec 16 :=
  (List.range (auxInd + 1)).foldl (fun (outPort, vlanTag, vlanPcp) i =>
    let ah := infl.actions.drop (sizeofOfpActionHeader * i)
    if actionType ah = ofpatOutput then (be16 ah 4, vlanTag, vlanPcp)
    else if actionType ah = ofpatSetVlanVid then (outPort, be16 ah 4, vlanPcp)
    else if actionType ah = ofpatSetVlanPcp then (outPort, vlanTag, (ah.getD 4 0).setWidth 16)
    else (outPort, vlanTag, vlanPcp))
    (0, infl.ofpMatch.dlVlan, infl.ofpMatch.dlVlanPcp.setWidth 16)

/-- The output port of the action. -/
def outPort (auxInd : ℕ) : BitVec 16 := (infl.scanActions auxInd).1

/-- The VLAN of the action. -/
def vlanTag (auxInd : ℕ) : BitVec 16 := (infl.scanActions auxInd).2.1

/-- The VLAN priority of the action. -/
def vlanPcp (auxInd : ℕ) : BitVec 16 := (infl.scanActions auxInd).2.2

/-- The flow is about ARP. -/
def isArp : Bool := infl.ofpMatch.dlType == ethTypeArp

/-- The reasons in the flow for which `output_conf_zyxel` skips an action. -/
def skips (auxInd : ℕ) : Bool :=
  infl.isArp || infl.ofpMatch.inPort == 0 || infl.outPort auxInd == 0 || infl.vlanTag auxInd == 0

end InsertedFlow

/-- The comparison by which `output_conf_zyxel` finds a service: the VLAN of the flow is unsigned
and that of the service signed. -/
def ZyxelServiceParams.serves (wanAddress : BitVec 32) (vlanTag : BitVec 16)
    (s : ZyxelServiceParams) : Bool :=
  wanAddress == s.wanAddress && (vlanTag.toNat : ℤ) == s.vlanTag.toInt

/-- `flow_counter++`. -/
def ZyxelServiceParams.countUp (s : ZyxelServiceParams) : ZyxelServiceParams :=
  { s with flowCounter := s.flowCounter + 1 }

/-- Counting up wraps at the end of the type `short`. -/
theorem toInt_add_one (c : BitVec 16) :
    (c + 1).toInt = if c.toInt = 2 ^ 15 - 1 then -2 ^ 15 else c.toInt + 1 := by
  have hone : (1 : BitVec 16).toNat = 1 := rfl
  have := c.isLt
  simp only [BitVec.toInt_eq_toNat_cond, BitVec.toNat_add, hone]
  split <;> split <;> split <;> omega

/-- `output_conf_zyxel`, when its reads stay inside the actions: the state and the return value.
The exit value of the `n`-th command is `exitValue n`. -/
def configureService (exitValue : ℕ → ℤ) (infl : InsertedFlow) (auxInd : ℕ) (s : ZyxelState) :
    ZyxelState × ℤ :=
  if infl.skips auxInd then (s, -1)
  else if maxServices - 1 < s.props.serviceAllocatorIndex then (s, -1)
  else
    let vlanTag := infl.vlanTag auxInd
    match s.props.allocated.findIdx? (ZyxelServiceParams.serves infl.wanAddress vlanTag) with
    | some i => ({ s with props := s.props.modifySlot i ZyxelServiceParams.countUp }, 0)
    | none =>
        let commands := s.commands ++ [.setwan infl.wanAddress 0 vlanTag (infl.vlanPcp auxInd)]
        if exitValue s.commands.length < 0 then ({ s with commands }, -1)
        else
          let props := s.props.modifySlot s.props.serviceAllocatorIndex fun slot =>
            { inPort := infl.ofpMatch.inPort
              wanAddress := infl.wanAddress
              wanMask := 0
              vlanTag := vlanTag
              vlanPcp := infl.vlanPcp auxInd
              flowCounter := slot.flowCounter + 1 }
          ({ commands
             props := { props with
               srvCounter := props.srvCounter + 1
               serviceAllocatorIndex := props.serviceAllocatorIndex + 1 } }, 0)

/-- `output_conf_zyxel`. It reads the headers of as many actions of 8 bytes as there are actions
up to the current one. -/
def outputConfZyxel (exitValue : ℕ → ℤ) (infl : InsertedFlow) (auxInd : ℕ) (s : ZyxelState) :
    Except AgentFault (ZyxelState × ℤ) :=
  if infl.actions.length < sizeofOfpActionHeader * (auxInd + 1) then .error .actionsOutside
  else .ok (configureService exitValue infl auxInd s)

/-- The comparison by which `output_unconf_zyxel` finds a service. -/
def ZyxelServiceParams.holds (wanAddress : BitVec 32) (s : ZyxelServiceParams) : Bool :=
  wanAddress == s.wanAddress && 0 == s.wanMask

/-- `flow_counter--`. -/
def ZyxelServiceParams.countDown (s : ZyxelServiceParams) : ZyxelServiceParams :=
  { s with flowCounter := s.flowCounter - 1 }

/-- Counting down wraps at the lower end of the type `short` only. -/
theorem toInt_sub_one {c : BitVec 16} (h : -2 ^ 15 < c.toInt) : (c - 1).toInt = c.toInt - 1 := by
  have hone : (1 : BitVec 16).toNat = 1 := rfl
  have := c.isLt
  simp only [BitVec.toInt_eq_toNat_cond, BitVec.toNat_sub, hone] at h ⊢
  split at h <;> omega

/-- The slot of a service that has been taken down. The priority is left as it is. -/
def ZyxelServiceParams.cleared (s : ZyxelServiceParams) : ZyxelServiceParams :=
  { s with inPort := 0, wanAddress := 0, wanMask := 0, vlanTag := 0, flowCounter := 0 }

/-- `output_unconf_zyxel` for a given address, when the flow is not about ARP. -/
def unconfigureService (wanAddress : BitVec 32) (s : ZyxelState) : ZyxelState :=
  match s.props.createdServices.findIdx? (ZyxelServiceParams.holds wanAddress) with
  | none => s
  | some i =>
      let slot := s.props.createdServices.getD i .zero
      if 1 < slot.flowCounter.toInt then
        { s with props := s.props.modifySlot i ZyxelServiceParams.countDown }
      else
        let props := s.props.modifySlot i ZyxelServiceParams.cleared
        { commands := s.commands ++ [.delwan wanAddress 0 slot.vlanTag slot.vlanPcp]
          props := { props with srvCounter := props.srvCounter - 1 } }

/-- `output_unconf_zyxel`. -/
def outputUnconfZyxel (infl : InsertedFlow) (_auxInd : ℕ) (s : ZyxelState) :
    Except AgentFault ZyxelState :=
  .ok (if infl.isArp then s else unconfigureService infl.wanAddress s)

/-- `zyxel_props` after `zyxel_init`, as far as `handleFlowMod` reads it. -/
def zyxelProps (exitValue : ℕ → ℤ) : DevProperties ZyxelState where
  wildcards := 4294967292
  supportedActions :=
    [⟨ofpatOutput, outputConfZyxel exitValue, some outputUnconfZyxel⟩,
      ⟨ofpatEnqueue, outputConfZyxel exitValue, some outputUnconfZyxel⟩]

/-- The type is that of an action that configures the device. -/
def isOutput (actionType : BitVec 16) : Bool :=
  actionType == ofpatOutput || actionType == ofpatEnqueue

/-- The two supported actions have the same functions. -/
theorem zyxelProps_find (exitValue : ℕ → ℤ) (t : BitVec 16) :
    (zyxelProps exitValue).find t = if isOutput t then
      some ⟨t, outputConfZyxel exitValue, some outputUnconfZyxel⟩ else none := by
  unfold DevProperties.find zyxelProps isOutput
  by_cases h1 : t = ofpatOutput
  · subst h1
    rfl
  · have h1' : (ofpatOutput == t) = false := beq_false_of_ne (Ne.symm h1)
    by_cases h2 : t = ofpatEnqueue
    · subst h2
      rfl
    · have h2' : (ofpatEnqueue == t) = false := beq_false_of_ne (Ne.symm h2)
      simp [List.find?, h1, h2, h1', h2']

end OfAgent
