import OfAgent.Control.Invariants
import OfAgent.Forward.Sizes

/-!
# Lengths of messages

The length field of a header has 16 bits. Every message with which a handler answers is short enough
for it.

* `OfpOutgoing.Exact`: the length fields are the sizes; `Control.Exact`: those of everything that
  has been sent.
* `exact_receive`: the handling of a message keeps that.
-/

namespace OfAgent

open Monitored

/-! ### Length fields -/

/-- The length fields of a message and of its entries are the sizes. -/
def OfpOutgoing.Exact (m : OfpOutgoing) : Prop :=
  m.length.toNat = m.body.size ∧ m.body.EntriesExact

namespace Control

/-- The length fields of all messages that have been sent are the sizes. -/
def SaysLengths (ctl : Control) : Prop :=
  (∀ m ∈ ctl.messages, m.Exact) ∧ ∀ e ∈ ctl.sent, e.Exact

/-- The length fields are right, and the packets that are saved are short. -/
structure Exact (ctl : Control) : Prop where
  /-- The messages. -/
  messages : ∀ m ∈ ctl.messages, m.Exact
  /-- The packets. -/
  sizes : ctl.toSwitch.Sizes

theorem Exact.saysLengths {ctl : Control} (h : ctl.Exact) : ctl.SaysLengths :=
  ⟨h.messages, h.sizes.sent⟩

end Control

section Handlers

open Control

variable {env : Surroundings} {sender : Sender} {oh : Memory}

/-- A short message is sent. -/
theorem exact_sendOpenflowBuffer (dest : Option Sender) {body : OfpBody} (hshort : body.Short) :
    Keeps Exact (sendOpenflowBuffer dest body) := by
  refine .modify fun ctl h => ⟨fun m hm => ?_, h.sizes⟩
  rcases List.mem_append.1 hm with hm | hm
  · exact h.messages m hm
  · rw [List.mem_singleton.1 hm]
    refine ⟨?_, hshort.entries⟩
    change (BitVec.ofNat 16 body.size).toNat = body.size
    have hle := hshort.size_le
    rw [BitVec.toNat_ofNat, Nat.mod_eq_of_lt (by omega)]

/-- A change of ports that leaves the buffers alone, and what has been sent. -/
theorem Control.Exact.setSwitch {ctl : Control} (h : ctl.Exact) {sw : Switch}
    (hrest : sw.toDatapath = ctl.toDatapath ∧ sw.sent = ctl.sent) :
    Exact { ctl with toSwitch := sw } :=
  ⟨h.messages, h.sizes.congr (congrArg Datapath.buffers hrest.1) hrest.2⟩

/-- Answers and changes of what no message depends on keep the length fields right. -/
theorem kept_exact : Kept Exact where
  reply sender _ hshort := exact_sendOpenflowBuffer (some sender) hshort
  connections _ _ h := ⟨h.messages, h.sizes⟩
  config _ _ h := ⟨h.messages, h.sizes.congr rfl rfl⟩
  queues _ _ h := h.setSwitch (Switch.modifyPort_rest ..)

/-- A request for the features. There are at most 256 ports. -/
theorem exact_recvFeaturesRequest : Keeps Exact (recvFeaturesRequest sender) := by
  refine keeps_recvFeaturesRequest (fun ctl sw hdp hsent h => h.setSwitch ⟨hdp, hsent⟩) fun id sw =>
    ?_
  refine exact_sendOpenflowBuffer (some sender) ⟨?_, by trivial⟩
  have hle := sw.length_listedPorts_le
  rw [OfpBody.size, List.length_map, sizeofOfpSwitchFeatures, sizeofOfpPhyPort]
  omega

theorem exact_recvPortMod : Keeps Exact (recvPortMod oh) :=
  keeps_recvPortMod fun _ _ hdp hsent h => h.setSwitch ⟨hdp, hsent⟩

/-- What a flow modification or a timeout asks for. The packets of actions have been saved. -/
theorem exact_performAll {outputs : List DpOutput}
    (h : ∀ buffer inPort actions, .executeActions buffer inPort actions ∈ outputs →
      buffer.length ≤ receiveBufferSize) : Keeps Exact (performAll env sender oh outputs) := by
  refine keeps_performAll fun output hmem => ?_
  cases output with
  | errorMsg error length => exact (kept_exact.keptBy _).dpSendErrorMsg _ _ _
  | flowRemoved ofr =>
    refine (keeps_putOpenflowXid _).bind fun _ => exact_sendOpenflowBuffer none ⟨?_, by trivial⟩
    rw [OfpBody.size, sizeofOfpFlowRemoved]
    decide
  | executeActions buffer inPort actions =>
    refine keeps_forward fun ctl sw h' hrun => ⟨h'.messages, ?_⟩
    have hfits := Ofpbuf.fits_cloneData (h buffer inPort actions hmem)
    exact Switch.kept_sizes.executeSaved h'.sizes (ready_bounded_iff.2 hfits) hrun
  | packetIn buffer bufferId => exact .pure _

/-- New tables, when the buffers are those before or without the packet of a message. -/
theorem Control.Exact.setDatapath {ctl : Control} (h : ctl.Exact) {dp : Datapath}
    (hbuffers : dp.buffers = ctl.buffers ∨
      ∃ ofm, dp.buffers = (ctl.toDatapath.takeBuffer ofm).2.buffers) :
    Exact { ctl with toSwitch := { ctl.toSwitch with toDatapath := dp } } := by
  refine ⟨h.messages, ?_⟩
  rcases hbuffers with heq | ⟨ofm, heq⟩
  · exact h.sizes.congr heq rfl
  · exact (h.sizes.takeBuffer ofm).2.congr heq rfl

end Handlers

/-! ### Flow modifications -/

namespace Datapath

variable {now : BitVec 64} {dp : Datapath} {ofm : OfpFlowMod}

/-- A flow modification takes its packet out of its buffer, or leaves the buffers alone. -/
theorem recvFlowTables_buffers : (dp.recvFlowTables now ofm).1.buffers = dp.buffers ∨
    (dp.recvFlowTables now ofm).1.buffers = (dp.takeBuffer ofm).2.buffers := by
  unfold recvFlowTables
  split
  · refine .inr ?_
    unfold addFlow
    simp only
    split
    · rfl
    · split <;> rfl
  · refine .inr ?_
    unfold modFlow
    simp only
    split
    · rfl
    split
    · rfl
    split <;> rfl
  · refine .inr ?_
    unfold modFlow
    simp only
    split
    · rfl
    split
    · rfl
    split <;> rfl
  all_goals exact .inl rfl

/-- The actions of a flow modification are executed on the packet in the buffer that it names. -/
theorem takeBuffer_of_executeActions_mem {buffer : List Byte} {inPort : BitVec 16}
    {actions : List Byte}
    (h : .executeActions buffer inPort actions ∈ (dp.recvFlowTables now ofm).2.1) :
    (dp.takeBuffer ofm).1 = some buffer := by
  by_cases hinst : ofm.IsInstallation
  · obtain ⟨hrejected, haccepted⟩ := answers_recvFlowTables dp now hinst
    cases htables : dp.installed now ofm with
    | none =>
      obtain ⟨error, heq⟩ := hrejected htables
      rw [heq, List.mem_singleton] at h
      cases h
    | some chain =>
      rw [(haccepted chain htables).2.2, executeOn, Option.mem_toList, Option.map_eq_some_iff] at h
      obtain ⟨buffer', htake, heq⟩ := h
      rw [htake, (DpOutput.executeActions.inj heq).1]
  · obtain ⟨ofr, heq⟩ := flowRemoved_of_not_isInstallation hinst h
    cases heq

end Datapath

/-! ### Handlers -/

section Dispatch

open Control

variable {env : Surroundings} {sender : Sender} {oh : Memory}

theorem exact_recvFlow : Keeps Exact (Control.recvFlow env sender oh) := by
  refine keeps_recvFlow fun ctl h => ?_
  rw [setDatapath, meets_bind, meets_modify]
  refine exact_performAll (fun buffer inPort actions hmem => ?_) _ (h.setDatapath
    (Datapath.recvFlowTables_buffers.imp_right fun heq => ⟨_, heq⟩))
  exact (h.sizes.takeBuffer (.ofMemory oh)).1 buffer
    (Datapath.takeBuffer_of_executeActions_mem hmem)

/-- The end of a timeout or of a protection: only messages about removed flows are sent. -/
theorem exact_removals {ctl : Control} (h : ctl.Exact) {dp : Datapath}
    (hbuffers : dp.buffers = ctl.buffers) {outputs : List DpOutput}
    (houtputs : ∀ output ∈ outputs, ∃ ofr, output = .flowRemoved ofr) :
    Meets (do setDatapath dp; performAll env sender oh outputs) .any (fun _ ctl' => ctl'.Exact)
      ctl := by
  rw [setDatapath, meets_bind, meets_modify]
  refine exact_performAll (fun buffer inPort actions hmem => ?_) _ (h.setDatapath (.inl hbuffers))
  obtain ⟨ofr, heq⟩ := houtputs _ hmem
  cases heq

theorem exact_receive (remote : Remote) (msg : OfpMessage) :
    Keeps Exact (receive env remote msg) := by
  refine (kept_exact.keptBy _).receive (fun _ => exact_recvFeaturesRequest)
    (fun _ => exact_recvPortMod)
    (fun _ => exact_recvFlow) fun _ _ ctl h => ?_
  -- the protection flushes the working tables
  have hbuffers : (ctl.toDatapath.emergFlowProtection env.now).1.buffers = ctl.buffers := rfl
  exact exact_removals h hbuffers fun output => Datapath.flowRemoved_of_mem

end Dispatch

end OfAgent
