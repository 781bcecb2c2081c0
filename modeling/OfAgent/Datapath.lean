import OfAgent.Flow.Actions
import OfAgent.Lib.Transition
import OfAgent.Table.Chain

/-!
# The datapath

The parts of `datapath.c` and `private-msg.c` that read or write the flow tables: the handling of
flow modifications, packets, timeouts, and the protection message that replaces the working
flows by the emergency flows.

* `Datapath`: the tables, the packet buffers, and the time of the last timeout.
* `addFlow`, `modFlow`, `recvFlowTables`: the handlers of flow modifications, with the messages
  they send and their return codes; `recvFlowTables` is `recv_flow` after its call of the agent.
* `DatapathEvent`, `Datapath.step`: what can happen to a datapath. Executing actions can send the
  packet to the tables again or to the controller; these are events of their own.
* `valid_of_reachable`: the tables of every reachable datapath are valid.
-/

namespace OfAgent

/-! ### Packet buffers -/

/-- `struct packet_buffer`. -/
structure PacketBuffer where
  /-- The bytes of the packet, if there is one. -/
  buffer : Option (List Byte)
  /-- The upper bits of the buffer's id. -/
  cookie : BitVec 32
  /-- The time, in seconds, from which on the packet may be overwritten. -/
  timeout : BitVec 64
  deriving DecidableEq, Repr

/-- `N_PKT_BUFFERS`. -/
abbrev nPktBuffers : ℕ := 256

/-- `buffers` and `buffer_idx`. -/
structure PacketBuffers where
  /-- `buffers`. -/
  slots : Fin nPktBuffers → PacketBuffer
  /-- `buffer_idx`. -/
  bufferIdx : Fin nPktBuffers

/-- The id of no buffer. -/
def noBuffer : BitVec 32 := -1

/-- `time_now`: the time in seconds, from the time in milliseconds. -/
def timeNow (now : BitVec 64) : BitVec 64 := now / 1000

namespace PacketBuffers

/-- The buffers at the start. -/
def init : PacketBuffers := ⟨fun _ => ⟨none, 0, 0⟩, 0⟩

/-- The slot of a buffer id: `id & PKT_BUFFER_MASK`. -/
def slotOf (id : BitVec 32) : Fin nPktBuffers := Fin.ofNat nPktBuffers id.toNat

/-- `save_buffer`: the buffers and the id of the packet. -/
def saveBuffer (now : BitVec 64) (buffer : List Byte) (bs : PacketBuffers) :
    PacketBuffers × BitVec 32 :=
  let idx := bs.bufferIdx + 1
  let p := bs.slots idx
  if p.buffer.isSome && timeNow now < p.timeout then ({ bs with bufferIdx := idx }, noBuffer)
  else
    let cookie := if p.cookie + 1 ≥ (1 <<< 24) - 1 then 0 else p.cookie + 1
    ({ slots := Function.update bs.slots idx ⟨some buffer, cookie, timeNow now + 1⟩,
       bufferIdx := idx },
      BitVec.ofNat 32 idx ||| cookie <<< 8)

/-- `retrieve_buffer`, and `discard_buffer` where the packet is not used: the packet and the
buffers without it. -/
def retrieveBuffer (id : BitVec 32) (bs : PacketBuffers) : Option (List Byte) × PacketBuffers :=
  let p := bs.slots (slotOf id)
  if p.cookie = id >>> 8 then
    (p.buffer, { bs with slots := Function.update bs.slots (slotOf id) { p with buffer := none } })
  else (none, bs)

end PacketBuffers

/-! ### The datapath and its messages -/

/-- `struct datapath`. -/
structure Datapath where
  /-- The flow tables. -/
  chain : SwChain
  /-- The packet buffers. -/
  buffers : PacketBuffers
  /-- The time, in seconds, of the last timeout. -/
  lastTimeout : BitVec 64

/-- A datapath as `dp_new` creates it at a given time. -/
def Datapath.init (sizes : TableSizes) (now : BitVec 64) : Datapath :=
  ⟨chainCreate sizes, .init, timeNow now⟩

/-- `struct ofp_flow_removed`. -/
structure OfpFlowRemoved where
  /-- Description of fields. -/
  ofpMatch : OfpMatch
  /-- Opaque controller-issued identifier. -/
  cookie : BitVec 64
  /-- Priority level of flow entry. -/
  priority : BitVec 16
  /-- One of `OFPRR_*`. -/
  reason : OfpFlowRemovedReason
  /-- Time flow was alive in seconds. -/
  durationSec : BitVec 32
  /-- Time flow was alive in nanoseconds beyond `durationSec`. -/
  durationNsec : BitVec 32
  /-- Idle timeout from original flow mod. -/
  idleTimeout : BitVec 16
  /-- Number of packets in the flow. -/
  packetCount : BitVec 64
  /-- Number of bytes in the flow. -/
  byteCount : BitVec 64
  deriving DecidableEq, Repr

/-- What a datapath sends or does with a packet. -/
inductive DpOutput
  /-- An error message that quotes `length` bytes of the rejected message. -/
  | errorMsg (error : FlowModError) (length : ℕ)
  /-- A flow removed message. -/
  | flowRemoved (ofr : OfpFlowRemoved)
  /-- The execution of actions on a packet. -/
  | executeActions (buffer : List Byte) (inPort : BitVec 16) (actions : List Byte)
  /-- A packet sent to the controller under the id of its buffer. -/
  | packetIn (buffer : List Byte) (bufferId : BitVec 32)
  deriving DecidableEq, Repr

/-- `dp_send_flow_end`: the message, if the flow asks for one. -/
def dpSendFlowEnd (now : BitVec 64) (flow : SwFlow) (reason : OfpFlowRemovedReason) :
    Option DpOutput :=
  let tdiff := now - flow.created
  let sec := (tdiff / 1000).setWidth 32
  if !flow.sendFlowRem then none
  else if flow.emergFlow then none
  else
    some (.flowRemoved {
      ofpMatch := flowFillMatch flow.key.flow flow.key.wildcards
      cookie := flow.cookie
      priority := flow.priority
      reason := reason
      durationSec := sec
      durationNsec := ((tdiff - (sec * 1000).setWidth 64) * 1000000).setWidth 32
      idleTimeout := flow.idleTimeout
      packetCount := flow.packetCount
      byteCount := flow.byteCount })

/-- `ENOMEM`. -/
def eNoMem : ℤ := 12

/-- `ENOBUFS`. -/
def eNoBufs : ℤ := 105

/-- `ESRCH`. -/
def eSrch : ℤ := 3

/-- `ENODEV`. -/
def eNoDev : ℤ := 19

/-! ### Flow modifications -/

/-- The priority of the flow of a message: without wildcards it is the highest one. -/
def OfpFlowMod.flowPriority (ofm : OfpFlowMod) (key : SwFlowKey) : BitVec 16 :=
  if key.wildcards ≠ 0 then ofm.priority else -1

/-- The flow that `add_flow` and `mod_flow` fill out from a message. -/
def OfpFlowMod.newFlow (now : BitVec 64) (ofm : OfpFlowMod) : SwFlow :=
  let key := flowExtractMatch ofm.ofpMatch
  { key := key
    cookie := ofm.cookie
    priority := ofm.flowPriority key
    idleTimeout := ofm.idleTimeout
    hardTimeout := ofm.hardTimeout
    used := now
    created := now
    packetCount := 0
    byteCount := 0
    sendFlowRem := ofm.hasFlag ofpffSendFlowRem
    emergFlow := ofm.hasFlag ofpffEmerg
    actions := ofm.actions
    serial := 0 }

namespace Datapath

/-- The packet that a message asks to handle, and the datapath without it. -/
def takeBuffer (ofm : OfpFlowMod) (dp : Datapath) : Option (List Byte) × Datapath :=
  if ofm.bufferId = noBuffer then (none, dp)
  else
    let (buffer, buffers) := dp.buffers.retrieveBuffer ofm.bufferId
    (buffer, { dp with buffers })

/-- The return code of a handler that has changed the tables: a missing packet is an error. -/
def bufferCode (ofm : OfpFlowMod) (buffer : Option (List Byte)) : ℤ :=
  if ofm.bufferId ≠ noBuffer ∧ buffer = none then -eSrch else 0

/-- The execution of the actions of a message on the packet it asks to handle. -/
def executeOn (ofm : OfpFlowMod) (buffer : Option (List Byte)) : List DpOutput :=
  (buffer.map fun b => .executeActions b ofm.ofpMatch.inPort ofm.actions).toList

/-- The checks of `add_flow`, in their order: the error of the first one that fails. -/
def addFlowError (dp : Datapath) (ofm : OfpFlowMod) : Option FlowModError :=
  let key := flowExtractMatch ofm.ofpMatch
  let vCode := validateActions key ofm.actions
  if vCode ≠ actValidationOk then some (.badAction vCode)
  else if ofm.hasFlag ofpffCheckOverlap
      && dp.chain.hasConflict key (ofm.flowPriority key) false then some .overlap
  else if ofm.hasFlag ofpffEmerg
      && (ofm.idleTimeout != ofpFlowPermanent || ofm.hardTimeout != ofpFlowPermanent) then
    some .badEmergTimeout
  else none

/-- `add_flow`: the datapath, what it sends, and the return code. -/
def addFlow (now : BitVec 64) (dp : Datapath) (ofm : OfpFlowMod) : Datapath × List DpOutput × ℤ :=
  let (buffer, dp') := dp.takeBuffer ofm
  match dp.addFlowError ofm with
  | some error => (dp', [.errorMsg error ofm.length], -eNoMem)
  | none =>
      -- the source counts the packet after the insertion, on the entry that is in the table by
      -- then; where a flow is put does not depend on its counters
      let flow := match buffer with
        | some b => (ofm.newFlow now).flowUsed now b.length
        | none => ofm.newFlow now
      match dp.chain.insert flow (ofm.hasFlag ofpffEmerg) with
      | none => (dp', [.errorMsg .allTablesFull ofm.length], -eNoBufs)
      | some chain => ({ dp' with chain }, executeOn ofm buffer, bufferCode ofm buffer)

/-- `mod_flow`: the datapath, what it sends, and the return code. -/
def modFlow (now : BitVec 64) (dp : Datapath) (ofm : OfpFlowMod) (strict : Bool) :
    Datapath × List DpOutput × ℤ :=
  let (buffer, dp') := dp.takeBuffer ofm
  let key := flowExtractMatch ofm.ofpMatch
  let vCode := validateActions key ofm.actions
  let emerg := ofm.hasFlag ofpffEmerg
  if vCode ≠ actValidationOk then (dp', [.errorMsg (.badAction vCode) ofm.length], -eNoMem)
  else
    -- first try to modify existing flows if any
    let (chain, count) := dp.chain.modify key (ofm.flowPriority key) strict ofm.actions emerg
    if count ≠ 0 then ({ dp' with chain }, executeOn ofm buffer, bufferCode ofm buffer)
    else
      -- if there is no matching flow, add it
      match chain.insert (ofm.newFlow now) emerg with
      | none => ({ dp' with chain }, [.errorMsg .allTablesFull ofm.length], -eNoBufs)
      | some chain => ({ dp' with chain }, executeOn ofm buffer, bufferCode ofm buffer)

/-- The deletions of `recv_flow`. -/
def deleteFlow (now : BitVec 64) (dp : Datapath) (ofm : OfpFlowMod) (strict : Bool) :
    Datapath × List DpOutput × ℤ :=
  let key := flowExtractMatch ofm.ofpMatch
  let priority := if strict then ofm.flowPriority key else 0
  let (chain, deleted) :=
    dp.chain.delete key ofm.outPort priority strict (ofm.hasFlag ofpffEmerg)
  ({ dp with chain }, deleted.filterMap fun flow => dpSendFlowEnd now flow .delete,
    if deleted.length ≠ 0 then 0 else -eSrch)

/-- `recv_flow` after its call of `handleFlowMod`: the datapath, what it sends, and the return
code. -/
def recvFlowTables (now : BitVec 64) (dp : Datapath) (ofm : OfpFlowMod) :
    Datapath × List DpOutput × ℤ :=
  match ofm.knownCommand with
  | some .add => dp.addFlow now ofm
  | some .modify => dp.modFlow now ofm false
  | some .modifyStrict => dp.modFlow now ofm true
  | some .delete => dp.deleteFlow now ofm false
  | some .deleteStrict => dp.deleteFlow now ofm true
  | none => (dp, [], -eNoDev)

/-! ### Packets, timeouts and protection -/

/-- `fwd_port_input` for a packet with the given flow: `run_flow_through_tables`, and
`dp_output_control` when no entry matches. -/
def fwdPortInput (now : BitVec 64) (dp : Datapath) (flow : Flow) (buffer : List Byte) :
    Datapath × List DpOutput :=
  match dp.chain.lookup (packetKey flow) false with
  | some f =>
      ({ dp with
          chain := dp.chain.updateLookup (packetKey flow) (SwFlow.flowUsed now buffer.length) },
        [.executeActions buffer flow.inPort f.actions])
  | none =>
      let (buffers, id) := dp.buffers.saveBuffer now buffer
      ({ dp with buffers }, [.packetIn buffer id])

/-- `dp_output_control` for a packet that actions send to the controller. -/
def outputControl (now : BitVec 64) (dp : Datapath) (buffer : List Byte) :
    Datapath × List DpOutput :=
  let (buffers, id) := dp.buffers.saveBuffer now buffer
  ({ dp with buffers }, [.packetIn buffer id])

/-- The timeouts of `dp_run`, at most once a second. -/
def dpRun (now : BitVec 64) (dp : Datapath) : Datapath × List DpOutput :=
  if timeNow now = dp.lastTimeout then (dp, [])
  else
    let (chain, deleted) := dp.chain.timeout now
    ({ dp with chain, lastTimeout := timeNow now },
      deleted.filterMap fun d => dpSendFlowEnd now d.1 d.2)

/-- The key of `flush_working` and `do_protection`: all fields wildcarded, everything else
zero. -/
def allKey : SwFlowKey := ⟨⟨0, 0, 0, 0, 0, 0, 0, 0, 0, 0, 0, 0⟩, ofpfwAll, 0, 0⟩

/-- `flush_working`. -/
def flushWorking (now : BitVec 64) (dp : Datapath) : Datapath × List DpOutput :=
  let (chain, deleted) := dp.chain.delete allKey ofppNone 0 false false
  ({ dp with chain }, deleted.filterMap fun flow => dpSendFlowEnd now flow .delete)

/-- The working flow that `protection_callback` makes of an emergency flow: a copy without
timeouts. -/
def protectionFlow (now : BitVec 64) (flow : SwFlow) : SwFlow :=
  { key := flowExtractMatch (flowFillMatch flow.key.flow flow.key.wildcards)
    cookie := 0
    priority := flow.priority
    idleTimeout := ofpFlowPermanent
    hardTimeout := ofpFlowPermanent
    used := now
    created := now
    packetCount := 0
    byteCount := 0
    sendFlowRem := flow.sendFlowRem
    emergFlow := false
    actions := flow.actions
    serial := 0 }

/-- `protection_callback`. -/
def protectionCallback (now : BitVec 64) (chain : SwChain) (flow : SwFlow) : SwChain × ℤ :=
  match chain.insert (protectionFlow now flow) false with
  | some chain => (chain, 0)
  | none => (chain, -eNoBufs)

/-- `do_protection`. -/
def doProtection (now : BitVec 64) (dp : Datapath) : Datapath :=
  { dp with
    chain := (dp.chain.emergTable.iterate allKey ofppNone (protectionCallback now) .zero
      dp.chain).1 }

/-- `private_recv_msg` on `PRIVATEOPT_EMERG_FLOW_PROTECTION`. -/
def emergFlowProtection (now : BitVec 64) (dp : Datapath) : Datapath × List DpOutput :=
  let (dp, outputs) := dp.flushWorking now
  (dp.doProtection now, outputs)

end Datapath

/-! ### Runs -/

/-- What can happen to a datapath, at a time in milliseconds. -/
inductive DatapathEvent
  /-- The controller sends a flow modification. -/
  | flowMod (now : BitVec 64) (ofm : OfpFlowMod)
  /-- A packet, from a port or from the execution of actions, enters the tables. -/
  | packet (now : BitVec 64) (flow : Flow) (buffer : List Byte)
  /-- The execution of actions sends a packet to the controller. -/
  | toController (now : BitVec 64) (buffer : List Byte)
  /-- The main loop calls `dp_run`. -/
  | run (now : BitVec 64)
  /-- The secure channel asks for the emergency flows. -/
  | protection (now : BitVec 64)

/-- The datapath after an event. -/
def Datapath.next (dp : Datapath) : DatapathEvent → Datapath
  | .flowMod now ofm => (dp.recvFlowTables now ofm).1
  | .packet now flow buffer => (dp.fwdPortInput now flow buffer).1
  | .toController now buffer => (dp.outputControl now buffer).1
  | .run now => (dp.dpRun now).1
  | .protection now => (dp.emergFlowProtection now).1

/-- The step relation of a datapath. -/
def Datapath.Step (dp : Datapath) (e : DatapathEvent) (dp' : Datapath) : Prop := dp' = dp.next e

/-- The datapaths that runs reach from a new datapath with tables of the given sizes. -/
def Datapath.Reachable (sizes : TableSizes) (dp : Datapath) : Prop :=
  ∃ now, Transition.Reachable Datapath.Step (.init sizes now) dp

/-- The datapath after a list of events. -/
def Datapath.runEvents (dp : Datapath) (es : List DatapathEvent) : Datapath :=
  es.foldl Datapath.next dp

/-- Running a new datapath through a list of events reaches the datapath it computes. -/
theorem Datapath.reachable_runEvents (sizes : TableSizes) (now : BitVec 64)
    (es : List DatapathEvent) : Datapath.Reachable sizes ((Datapath.init sizes now).runEvents es) :=
  ⟨now, Transition.reachable_of_foldl es _⟩

/-- A message without actions, timeouts, flags or buffered packet. -/
def plainFlowMod (command : BitVec 16) (ofpMatch : OfpMatch) (priority : BitVec 16) :
    OfpFlowMod where
  ofpMatch := ofpMatch
  cookie := 0
  command := command
  idleTimeout := 0
  hardTimeout := 0
  priority := priority
  bufferId := noBuffer
  outPort := ofppNone
  flags := 0
  actions := []
  length_lt := by decide

/-- A match without wildcards on a frame that is neither IP nor ARP. -/
def frameMatch (dlSrc : BitVec 48) : OfpMatch :=
  { OfpMatch.zero with inPort := 1, dlVlan := 10, dlType := 0x88cc, dlSrc }

/-- The flow of such a match. -/
def frameFlow (dlSrc : BitVec 48) : Flow := (flowExtractMatch (frameMatch dlSrc)).flow

/-! ### What the handlers do to the tables -/

/-- The flow is one that `add_flow` or `mod_flow` makes of the message, up to its counters. -/
structure OfpFlowMod.Makes (ofm : OfpFlowMod) (flow : SwFlow) : Prop where
  /-- The key is the normalised match. -/
  key : flow.key = flowExtractMatch ofm.ofpMatch
  /-- The priority is the one of the message, or the highest one. -/
  priority : flow.priority = ofm.flowPriority (flowExtractMatch ofm.ofpMatch)

theorem OfpFlowMod.Makes.wellFormed {ofm : OfpFlowMod} {flow : SwFlow} (h : ofm.Makes flow) :
    flow.WellFormed := by
  refine ⟨⟨_, h.key⟩, fun hw => ?_⟩
  rw [h.key] at hw
  rw [h.priority, OfpFlowMod.flowPriority, if_neg (not_not.2 hw)]

/-- The priority of a message without wildcards is the highest one. -/
theorem OfpFlowMod.priorityOfExact (ofm : OfpFlowMod) (key : SwFlowKey) (strict : Bool) :
    SwChain.PriorityOfExact key (if strict then ofm.flowPriority key else 0) strict := by
  rintro rfl hw
  rw [if_pos rfl, OfpFlowMod.flowPriority, if_neg (not_not.2 hw)]

theorem priorityOfExact_of_not_strict (key : SwFlowKey) (priority : BitVec 16) :
    SwChain.PriorityOfExact key priority false :=
  fun hs => by cases hs

theorem normal_flowExtractMatch (m : OfpMatch) : (flowExtractMatch m).Normal := ⟨m, rfl⟩

theorem normal_allKey : Datapath.allKey.Normal :=
  ⟨{ OfpMatch.zero with wildcards := ofpfwAll }, by decide⟩

namespace Datapath

open Relation SwChain

variable {dp : Datapath} {now : BitVec 64} {ofm : OfpFlowMod}

variable (dp ofm) in
/-- Taking a packet out of its buffer leaves the tables alone. -/
@[simp]
theorem takeBuffer_chain : (dp.takeBuffer ofm).2.chain = dp.chain := by
  unfold takeBuffer
  split <;> rfl

variable (dp now ofm) in
/-- What `add_flow` does to the tables. -/
theorem addFlow_chain :
    (dp.addFlow now ofm).1.chain = dp.chain ∨
      dp.addFlowError ofm = none ∧ ∃ flow, ofm.Makes flow ∧ flow.actions = ofm.actions ∧
        dp.chain.insert flow (ofm.hasFlag ofpffEmerg) = some (dp.addFlow now ofm).1.chain := by
  have hbuf := takeBuffer_chain dp ofm
  unfold addFlow
  rcases hb : dp.takeBuffer ofm with ⟨buffer, dp'⟩
  rw [hb] at hbuf
  simp only
  split
  next => exact .inl hbuf
  next herr =>
    split
    next => exact .inl hbuf
    next chain hins =>
      refine .inr ⟨herr, _, ?_, ?_, hins⟩
      · cases buffer <;> exact ⟨rfl, rfl⟩
      · cases buffer <;> rfl

variable (dp now ofm) in
/-- What `mod_flow` does to the tables. -/
theorem modFlow_chain (strict : Bool) :
    (dp.modFlow now ofm strict).1.chain = dp.chain ∨
      (let m := dp.chain.modify (flowExtractMatch ofm.ofpMatch)
          (ofm.flowPriority (flowExtractMatch ofm.ofpMatch)) strict ofm.actions
          (ofm.hasFlag ofpffEmerg)
      validateActions (flowExtractMatch ofm.ofpMatch) ofm.actions = actValidationOk ∧
        ((dp.modFlow now ofm strict).1.chain = m.1 ∨
          m.2 = 0 ∧ ∃ flow, ofm.Makes flow ∧ flow.actions = ofm.actions ∧
            m.1.insert flow (ofm.hasFlag ofpffEmerg) =
              some (dp.modFlow now ofm strict).1.chain)) := by
  have hbuf := takeBuffer_chain dp ofm
  unfold modFlow
  rcases hb : dp.takeBuffer ofm with ⟨buffer, dp'⟩
  rw [hb] at hbuf
  simp only
  split
  next => exact .inl hbuf
  next hcode =>
    refine .inr ⟨not_not.1 hcode, ?_⟩
    split
    next => exact .inl rfl
    next hcount =>
      split
      next => exact .inl rfl
      next chain hins => exact .inr ⟨not_not.1 hcount, _, ⟨rfl, rfl⟩, rfl, hins⟩

variable (dp now) in
theorem fwdPortInput_chain (flow : Flow) (buffer : List Byte) :
    (dp.fwdPortInput now flow buffer).1.chain = dp.chain ∨
      (dp.fwdPortInput now flow buffer).1.chain =
        dp.chain.updateLookup (packetKey flow) (SwFlow.flowUsed now buffer.length) := by
  unfold fwdPortInput
  split
  · exact .inr rfl
  · exact .inl rfl

variable (dp now) in
theorem dpRun_chain :
    (dp.dpRun now).1.chain = dp.chain ∨ (dp.dpRun now).1.chain = (dp.chain.timeout now).1 := by
  unfold dpRun
  split
  · exact .inl rfl
  · exact .inr rfl

/-- The flow that `protection_callback` inserts has the key of the emergency flow. -/
theorem protectionFlow_key {flow : SwFlow} (h : flow.WellFormed) :
    (protectionFlow now flow).key = flow.key :=
  flowExtractMatch_flowFillMatch h.normal

/-- The flow that `protection_callback` inserts is well formed. -/
theorem protectionFlow_wellFormed {flow : SwFlow} (h : flow.WellFormed) :
    (protectionFlow now flow).WellFormed :=
  h.congr (protectionFlow_key h) rfl

/-- The entries that a protection visits are entries of the emergency table. -/
theorem mem_of_mem_candidates {tl : SwTableLinear} (h : tl.Valid) {key : SwFlowKey}
    {outPort : BitVec 16} {start : BitVec 64} {f : SwFlow}
    (hf : f ∈ tl.candidates key outPort start) : f ∈ tl.flows :=
  h.perm.mem_iff.1 (List.mem_of_mem_filter hf)

/-- `do_protection` is a sequence of insertions of copies of the emergency flows. -/
theorem changes_doProtection (h : dp.chain.emergTable.Valid) :
    ReflTransGen Change dp.chain (dp.doProtection now).chain := by
  unfold doProtection SwTableLinear.iterate
  have hvisit := Visit.visit_invariant (protectionCallback now)
    (fun chain => ReflTransGen Change dp.chain chain)
    (l := dp.chain.emergTable.candidates allKey ofppNone (~~~SwTablePosition.zero.private0))
    (fun chain f hf hc => ?_) (s := dp.chain) .refl
  · split
    next s _ heq =>
      rw [heq] at hvisit
      exact hvisit
    next s _ heq =>
      rw [heq] at hvisit
      exact hvisit
  · unfold protectionCallback
    split
    next chain' hins =>
      exact hc.tail (.insert (protectionFlow_wellFormed
        (h.wellFormed f (mem_of_mem_candidates h hf))) hins)
    next => exact hc

/-- Every event is a sequence of changes of the tables. -/
theorem changes_next (h : dp.chain.Valid) (e : DatapathEvent) :
    ReflTransGen Change dp.chain (dp.next e).chain := by
  have hkey := normal_flowExtractMatch
  cases e with
  | flowMod now ofm =>
    -- a modification that matches nothing adds the flow
    have hmod : ∀ strict, ReflTransGen Change dp.chain (dp.modFlow now ofm strict).1.chain := by
      intro strict
      rcases modFlow_chain dp now ofm strict
        with heq | ⟨-, heq | ⟨-, flow, hmk, -, hins⟩⟩
      · rw [heq]
      · rw [heq]
        exact .single (h.change_modify (hkey _) _ _ _ _)
      · exact (ReflTransGen.single (h.change_modify (hkey _) _ _ _ _)).tail
          (.insert hmk.wellFormed hins)
    have hdel : ∀ strict, ReflTransGen Change dp.chain (dp.deleteFlow now ofm strict).1.chain :=
      fun strict => .single (h.change_delete (hkey _) _ (ofm.priorityOfExact _ strict) _)
    change ReflTransGen Change dp.chain (dp.recvFlowTables now ofm).1.chain
    unfold recvFlowTables
    split
    · rcases addFlow_chain dp now ofm with heq | ⟨-, flow, hmk, -, hins⟩
      · rw [heq]
      · exact .single (.insert hmk.wellFormed hins)
    · exact hmod false
    · exact hmod true
    · exact hdel false
    · exact hdel true
    · exact .refl
  | packet now flow buffer =>
    rcases fwdPortInput_chain dp now flow buffer
      with heq | heq
    · exact heq ▸ .refl
    · exact heq ▸ .single (h.change_updateLookup _ (rewrites_flowUsed _ _))
  | toController now buffer => exact .refl
  | run now =>
    rcases dpRun_chain dp now with heq | heq
    · exact heq ▸ .refl
    · exact heq ▸ .single (timeout_fst now ▸ .filter _ _ _ _)
  | protection now =>
    -- the working tables are emptied before the emergency flows go into them
    have hflush : Change dp.chain (dp.flushWorking now).1.chain :=
      h.change_delete normal_allKey ofppNone (priorityOfExact_of_not_strict _ 0) false
    exact (ReflTransGen.single hflush).trans
      (changes_doProtection (h.change hflush).emergTable)

/-- The tables of every reachable datapath are valid. -/
theorem valid_of_reachable {sizes : TableSizes} (h : Reachable sizes dp) : dp.chain.Valid := by
  obtain ⟨now, hrun⟩ := h
  refine hrun.invariant (fun dp => dp.chain.Valid) (valid_create sizes) ?_
  rintro s e s' hv - rfl
  exact hv.changes (changes_next hv e)

end Datapath

end OfAgent
