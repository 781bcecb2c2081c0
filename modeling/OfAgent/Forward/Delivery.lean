import OfAgent.Forward.Receive
import OfAgent.Lib.Ownership

/-!
# Delivery

What `dp_output_port` does with a packet and its copies, operation by operation: the packets that go
out, and the buffers that are freed or passed on. Virtual ports, the configuration of the ports and
the ingress port decide about both, at three levels: in the loop over the ports, in the last case of
`dp_output_port`, and in `output_packet`.

* `PortOp`: the operations. `Switch.dpOutputPortOps`: the operations of a call.
* `dpOutputPort_eq_ops`: a call transmits what its operations transmit.
* `Switch.OutputsWell`: the packet goes where its port says, ports that must not forward are left
  alone, and every buffer is freed or passed on once. `Switch.Deliverable`: when it is so.
* `Switch.MissesQuietly`: a port that sends no packets to the controller sends none that no entry
  matches.
* `delivery_iff`: outputs are well exactly when they are deliverable, and only misses without the
  flag are quiet.
-/

namespace OfAgent

/-- `OFPPC_NO_FWD`: drop packets forwarded to port. -/
def ofppcNoFwd : BitVec 32 := 1 <<< 5

/-- `OFPPC_NO_PACKET_IN`: do not send packet-in msgs for port. -/
def ofppcNoPacketIn : BitVec 32 := 1 <<< 6

/-! ### Operations -/

/-- What is done with a packet, which has the number 0, and its copies. -/
inductive PortOp
  /-- `ofpbuf_clone` of the packet. -/
  | clone (id : ℕ)
  /-- `netdev_send`, which leaves the buffer to its caller. -/
  | send (id : ℕ) (portNo classId : BitVec 16) (packet : List Byte)
  /-- `ofpbuf_delete`. -/
  | delete (id : ℕ)
  /-- `dp_output_control` takes the buffer over. -/
  | control (id : ℕ)
  /-- `run_flow_through_tables` has taken the buffer over. -/
  | tables (id : ℕ)

namespace PortOp

/-- What an operation does to the ownership of buffers. -/
def ownership : PortOp → List (Ownership.Op ℕ)
  | clone id => [.use 0, .acquire id]
  | send id _ _ _ => [.use id]
  | delete id | control id | tables id => [.release id]

/-- What an operation transmits. -/
def transmission : PortOp → Option Emission
  | send _ portNo classId packet => some (.transmit portNo classId packet)
  | clone _ | delete _ | control _ | tables _ => none

/-- What operations transmit. -/
def transmissions (ops : List PortOp) : List Emission := ops.filterMap transmission

/-- What operations do to the ownership of buffers. -/
def ownerships (ops : List PortOp) : List (Ownership.Op ℕ) := ops.flatMap ownership

/-- The transmissions of one part and of another. -/
@[simp]
theorem transmissions_append (ops ops' : List PortOp) :
    transmissions (ops ++ ops') = transmissions ops ++ transmissions ops' := List.filterMap_append

/-- The ownership in one part and in another. -/
@[simp]
theorem ownerships_append (ops ops' : List PortOp) :
    ownerships (ops ++ ops') = ownerships ops ++ ownerships ops' := List.flatMap_append

end PortOp

namespace Switch

open PortOp

variable (sw : Switch) (packet : List Byte) (inPort : BitVec 16)

/-- `output_packet`, for a buffer with the given number and bytes. -/
def outputPacketOps (id : ℕ) (outPort : BitVec 16) (queueId : BitVec 32) : List PortOp :=
  match sw.dpLookupPort outPort with
  | none => [.delete id]
  | some p =>
      if p.netdev then
        if p.config &&& ofppcPortDown != 0 then [.delete id]
        else if queueId = 0 then [.send id p.portNo 0 packet, .delete id]
        else
          match p.lookupQueue queueId with
          | some q => [.send id p.portNo q.classId packet, .delete id]
          | none => [.delete id]
      else [.delete id]

/-- The last case of `dp_output_port`, which leaves the buffer to nobody if it is for the ingress
port. -/
def outputOtherOps (id : ℕ) (outPort : BitVec 16) (queueId : BitVec 32) : List PortOp :=
  if inPort = outPort then [] else sw.outputPacketOps packet id outPort queueId

/-- The loop of `output_all`, with `prev_port` and the number of copies so far, and what follows
it. -/
def outputAllLoopOps (flood : Bool) : List SwPort → Option (BitVec 16) → ℕ → List PortOp
  | [], none, _ => [.delete 0]
  | [], some prevPort, _ => sw.outputOtherOps packet inPort 0 prevPort 0
  | p :: ps, prevPort, copies =>
      if p.portNo = inPort then outputAllLoopOps flood ps prevPort copies
      else if flood && p.config &&& ofppcNoFlood != 0 then outputAllLoopOps flood ps prevPort copies
      else
        match prevPort with
        | none => outputAllLoopOps flood ps (some p.portNo) copies
        | some prevPort =>
            .clone (copies + 1) :: sw.outputOtherOps packet inPort (copies + 1) prevPort 0 ++
              outputAllLoopOps flood ps (some p.portNo) (copies + 1)

/-- `output_all`. -/
def outputAllOps (flood : Bool) : List PortOp :=
  sw.outputAllLoopOps packet inPort flood sw.listedPorts none 0

/-- `dp_output_port`, unless a function that it calls fails. -/
def dpOutputPortOps (runTables : TableRun) (now : BitVec 64) (buffer : Ofpbuf)
    (inPort outPort : BitVec 16) (queueId : BitVec 32) : Except ForwardFault (List PortOp) :=
  if outPort = ofppInPort then .ok (sw.outputPacketOps buffer.bytes 0 inPort queueId)
  else if outPort = ofppTable then
    (runTables buffer (sw.dpLookupPort inPort) sw).map fun r =>
      if r.2 then [.tables 0] else [.delete 0]
  else if outPort = ofppFlood then .ok (sw.outputAllOps buffer.bytes inPort true)
  else if outPort = ofppAll then .ok (sw.outputAllOps buffer.bytes inPort false)
  else if outPort = ofppController then
    (sw.dpOutputControl now buffer inPort 0xffff .action).map fun _ => [.control 0]
  else .ok (sw.outputOtherOps buffer.bytes inPort 0 outPort queueId)

/-! ### The operations are those of the outputs -/

/-- The switch that has sent some things more. -/
def emitAll (es : List Emission) : Switch := { sw with sent := sw.sent ++ es }

theorem emitAll_append (es es' : List Emission) :
    (sw.emitAll es).emitAll es' = sw.emitAll (es ++ es') := by
  simp only [emitAll, List.append_assoc]

theorem emitAll_nil : sw.emitAll [] = sw := by
  simp only [emitAll, List.append_nil]

variable {sw packet inPort}

/-- What `output_packet` transmits. -/
theorem outputPacket_eq_ops (buffer : Ofpbuf) (id : ℕ) (outPort : BitVec 16) (queueId : BitVec 32) :
    sw.outputPacket buffer outPort queueId =
      sw.emitAll (transmissions (sw.outputPacketOps buffer.bytes id outPort queueId)) := by
  cases hp : sw.dpLookupPort outPort with
  | none =>
    simp only [outputPacket, outputPacketOps, hp]
    exact (emitAll_nil sw).symm
  | some p =>
    simp only [outputPacket, outputPacketOps, hp]
    by_cases hdevice : p.netdev = true
    · rw [if_pos hdevice, if_pos hdevice]
      by_cases hdown : (p.config &&& ofppcPortDown != 0) = true
      · -- the buffer is freed, and nothing goes out
        rw [if_pos hdown, if_pos hdown]
        exact (emitAll_nil sw).symm
      · rw [if_neg hdown, if_neg hdown]
        by_cases hqueue : queueId = 0
        · rw [if_pos hqueue, if_pos hqueue]
          rfl
        · rw [if_neg hqueue, if_neg hqueue]
          cases p.lookupQueue queueId with
          | none => exact (emitAll_nil sw).symm
          | some q => rfl
    · rw [if_neg hdevice, if_neg hdevice]
      exact (emitAll_nil sw).symm

/-- What the last case of `dp_output_port` transmits. -/
theorem outputOther_eq_ops (buffer : Ofpbuf) (id : ℕ) (outPort : BitVec 16) (queueId : BitVec 32) :
    sw.outputOther buffer inPort outPort queueId =
      sw.emitAll (transmissions (sw.outputOtherOps buffer.bytes inPort id outPort queueId)) := by
  unfold outputOther outputOtherOps
  split
  next => exact (emitAll_nil sw).symm
  next => exact outputPacket_eq_ops buffer id outPort queueId

/-- What the loop of `output_all` transmits. -/
theorem outputAllLoop_eq_ops (buffer : Ofpbuf) (flood : Bool) (ps : List SwPort)
    (prevPort : Option (BitVec 16)) (copies : ℕ) (es : List Emission) :
    outputAllLoop buffer inPort flood ps prevPort (sw.emitAll es) =
      sw.emitAll
        (es ++
          transmissions (sw.outputAllLoopOps buffer.bytes inPort flood ps prevPort copies)) := by
  induction ps generalizing prevPort copies es with
  | nil =>
    cases prevPort with
    | none => exact congrArg sw.emitAll (List.append_nil es).symm
    | some prevPort =>
      rw [outputAllLoop, outputAllLoopOps, outputOther_eq_ops buffer 0, emitAll_append]
      rfl
  | cons p ps ih =>
    unfold outputAllLoop outputAllLoopOps
    by_cases hin : p.portNo = inPort
    · rw [if_pos hin, if_pos hin]
      exact ih prevPort copies es
    · rw [if_neg hin, if_neg hin]
      by_cases hflood : (flood && p.config &&& ofppcNoFlood != 0) = true
      · rw [if_pos hflood, if_pos hflood]
        exact ih prevPort copies es
      · rw [if_neg hflood, if_neg hflood]
        cases prevPort with
        | none => exact ih (some p.portNo) copies es
        | some prevPort =>
          simp only
          -- the copy has the bytes of the packet, so it is sent like the packet itself
          rw [outputOther_eq_ops buffer.clone (copies + 1), emitAll_append, Ofpbuf.bytes_clone,
            ih (some p.portNo) (copies + 1)]
          have hclone : ∀ ops ops' : List PortOp,
              transmissions (.clone (copies + 1) :: ops ++ ops') =
                transmissions ops ++ transmissions ops' := transmissions_append
          rw [hclone, List.append_assoc]
          rfl

/-- A call transmits what its operations transmit, unless it goes to the tables or to the
controller. -/
theorem dpOutputPort_eq_ops (runTables : TableRun) (now : BitVec 64) (buffer : Ofpbuf)
    {outPort : BitVec 16} (queueId : BitVec 32) (htable : outPort ≠ ofppTable)
    (hcontroller : outPort ≠ ofppController) :
    sw.dpOutputPort runTables now buffer inPort outPort queueId =
      (sw.dpOutputPortOps runTables now buffer inPort outPort queueId).map fun ops =>
        sw.emitAll (transmissions ops) := by
  have hall : ∀ flood, sw.outputAll buffer inPort flood =
      sw.emitAll (transmissions (sw.outputAllOps buffer.bytes inPort flood)) := by
    intro flood
    have hloop := @outputAllLoop_eq_ops sw inPort buffer flood sw.listedPorts none 0 []
    rw [emitAll_nil, List.nil_append] at hloop
    exact hloop
  unfold dpOutputPort dpOutputPortOps
  rw [if_neg htable, if_neg htable, if_neg hcontroller, if_neg hcontroller]
  split
  next => exact congrArg Except.ok (outputPacket_eq_ops buffer 0 inPort queueId)
  next =>
    split
    next => exact congrArg Except.ok (hall true)
    next =>
      split
      next => exact congrArg Except.ok (hall false)
      next => exact congrArg Except.ok (outputOther_eq_ops buffer 0 outPort queueId)

end Switch

/-! ### What outputs should do -/

/-- A flag of the configuration of a port. -/
def SwPort.has (p : SwPort) (flag : BitVec 32) : Bool := p.config &&& flag != 0

/-- A packet from the ingress port is meant for the port, if it goes to all ports or is flooded. -/
def SwPort.isMeant (inPort : BitVec 16) (flood : Bool) (p : SwPort) : Bool :=
  p.portNo != inPort && !(flood && p.has ofppcNoFlood)

/-- The port lets packets out. -/
def SwPort.letsOut (p : SwPort) : Bool := !p.has ofppcPortDown && !p.has ofppcNoFwd

/-- The class of a queue of the port: zero is best-effort traffic. -/
def SwPort.queueClass (p : SwPort) (queueId : BitVec 32) : Option (BitVec 16) :=
  if queueId = 0 then some 0 else (p.lookupQueue queueId).map SwQueue.classId

namespace Switch

open PortOp

variable (sw : Switch) (packet : List Byte) (inPort outPort : BitVec 16)

/-- One copy of a packet on every port that it is meant for and that lets packets out. -/
def copies (flood : Bool) : List Emission :=
  (sw.listedPorts.filter fun p => p.isMeant inPort flood && p.letsOut).map fun p =>
    .transmit p.portNo 0 packet

/-- Operations on a packet do what the port is for that it goes to. -/
structure Delivers (ops : List PortOp) : Prop where
  /-- `OFPP_ALL`: all ports except the ingress port. -/
  all : outPort = ofppAll → (transmissions ops).Perm (sw.copies packet inPort false)
  /-- `OFPP_FLOOD`: without those that are not flooded. -/
  flood : outPort = ofppFlood → (transmissions ops).Perm (sw.copies packet inPort true)
  /-- `OFPP_IN_PORT`: the ingress port only. -/
  ingress : outPort = ofppInPort → ∀ portNo classId bytes,
    .transmit portNo classId bytes ∈ transmissions ops → portNo = inPort
  /-- A port that is down, or must not forward, is left alone. -/
  letsOut : ∀ portNo classId bytes p, .transmit portNo classId bytes ∈ transmissions ops →
    sw.dpLookupPort portNo = some p → p.letsOut = true
  /-- The packet and its copies are freed or passed on once. -/
  balanced : Ownership.Balanced [0] (ownerships ops)

/-- Whatever `dp_output_port` does with a packet is what the port is for. -/
def OutputsWell (runTables : TableRun) (now : BitVec 64) (buffer : Ofpbuf) (queueId : BitVec 32) :
    Prop :=
  ∀ ops, sw.dpOutputPortOps runTables now buffer inPort outPort queueId = .ok ops →
    sw.Delivers buffer.bytes inPort outPort ops

/-- `output_packet` comes to a port that it sends packets on, with a class. -/
structure SendsOn (queueId : BitVec 32) (p : SwPort) (classId : BitVec 16) : Prop where
  /-- The port is there. -/
  lookup : sw.dpLookupPort outPort = some p
  /-- It has a device. -/
  device : p.netdev = true
  /-- It is not down. -/
  up : p.has ofppcPortDown = false
  /-- The queue is there. -/
  queue : p.queueClass queueId = some classId

/-- A port that `output_packet` sends packets on may forward them. -/
def ForwardsOn (queueId : BitVec 32) : Prop :=
  ∀ p classId, sw.SendsOn outPort queueId p classId → p.has ofppcNoFwd = false

/-- The ports that a packet is meant for, unless they are down, have devices if and only if they may
forward. -/
def FansOut (flood : Bool) : Prop :=
  ∀ p ∈ sw.listedPorts, p.isMeant inPort flood = true → p.has ofppcPortDown = false →
    (p.netdev = true ↔ p.has ofppcNoFwd = false)

/-- The condition for an output. -/
def Deliverable (queueId : BitVec 32) : Prop :=
  if outPort = ofppInPort then sw.ForwardsOn inPort queueId
  else if outPort = ofppTable then True
  else if outPort = ofppFlood then sw.FansOut inPort true
  else if outPort = ofppAll then sw.FansOut inPort false
  else if outPort = ofppController then True
  -- the buffer of a packet that would go back is lost
  else inPort ≠ outPort ∧ sw.ForwardsOn outPort queueId

/-! ### One port -/

variable {sw packet inPort outPort} {id : ℕ} {queueId : BitVec 32}

/-- `output_packet` sends the packet on the port that it comes to, or only frees the buffer. -/
theorem outputPacketOps_cases (packet : List Byte) (id : ℕ) (outPort : BitVec 16)
    (queueId : BitVec 32) :
    (∃ p classId, sw.SendsOn outPort queueId p classId ∧
        sw.outputPacketOps packet id outPort queueId =
          [.send id p.portNo classId packet, .delete id]) ∨
      (∀ p classId, ¬ sw.SendsOn outPort queueId p classId) ∧
        sw.outputPacketOps packet id outPort queueId = [.delete id] := by
  cases hp : sw.dpLookupPort outPort with
  | none =>
    refine .inr ⟨fun p classId h => ?_, by rw [outputPacketOps, hp]⟩
    rw [h.lookup] at hp
    cases hp
  | some p =>
    -- a packet can be sent on the port that is looked up at most
    have hsame : ∀ {q classId}, sw.SendsOn outPort queueId q classId → q = p := fun h =>
      Option.some.inj (h.lookup.symm.trans hp)
    simp only [outputPacketOps, hp]
    by_cases hdevice : p.netdev = true
    · rw [if_pos hdevice]
      by_cases hdown : (p.config &&& ofppcPortDown != 0) = true
      · rw [if_pos hdown]
        refine .inr ⟨fun q classId h => ?_, rfl⟩
        have hup := h.up
        rw [hsame h, SwPort.has, hdown] at hup
        cases hup
      · rw [if_neg hdown]
        have hup : p.has ofppcPortDown = false := eq_false_of_ne_true hdown
        by_cases hqueue : queueId = 0
        · rw [if_pos hqueue]
          exact .inl ⟨p, 0, ⟨hp, hdevice, hup, if_pos hqueue⟩, rfl⟩
        · rw [if_neg hqueue]
          have hclass : p.queueClass queueId = (p.lookupQueue queueId).map SwQueue.classId :=
            if_neg hqueue
          cases hq : p.lookupQueue queueId with
          | none =>
            refine .inr ⟨fun q classId h => ?_, rfl⟩
            have hnone := h.queue
            rw [hsame h, hclass, hq] at hnone
            cases hnone
          | some q => exact .inl ⟨p, q.classId, ⟨hp, hdevice, hup, by rw [hclass, hq]; rfl⟩, rfl⟩
    · rw [if_neg hdevice]
      exact .inr ⟨fun q classId h => hdevice (hsame h ▸ h.device), rfl⟩

/-- `output_packet` frees the buffer, whatever else it owns. -/
theorem run_outputPacketOps {live : List ℕ} (hid : id ∈ live) (packet : List Byte)
    (outPort : BitVec 16) (queueId : BitVec 32) :
    Ownership.run live (ownerships (sw.outputPacketOps packet id outPort queueId)) =
      some (live.erase id) := by
  have hdelete : Ownership.run live [.release id] = some (live.erase id) :=
    Ownership.run_release_cons hid
  rcases @outputPacketOps_cases sw packet id outPort queueId with ⟨p, classId, -, hops⟩ | ⟨-, hops⟩
  · rw [hops]
    exact (Ownership.run_use_cons hid).trans hdelete
  · rw [hops]
    exact hdelete

/-! ### All ports -/

/-- The loop passes over a port that the packet is not meant for. -/
theorem outputAllLoopOps_skip {flood : Bool} {p : SwPort} (h : p.isMeant inPort flood = false)
    (ps : List SwPort) (prevPort : Option (BitVec 16)) (copies : ℕ) :
    sw.outputAllLoopOps packet inPort flood (p :: ps) prevPort copies =
      sw.outputAllLoopOps packet inPort flood ps prevPort copies := by
  conv_lhs => unfold outputAllLoopOps
  by_cases hin : p.portNo = inPort
  · rw [if_pos hin]
  · rw [if_neg hin]
    have hne : (p.portNo != inPort) = true := bne_iff_ne.2 hin
    rw [SwPort.isMeant, hne, Bool.true_and, Bool.not_eq_false'] at h
    exact if_pos h

/-- The loop comes to a port that the packet is meant for. -/
theorem outputAllLoopOps_take {flood : Bool} {p : SwPort} (h : p.isMeant inPort flood = true)
    (ps : List SwPort) (prevPort : Option (BitVec 16)) (copies : ℕ) :
    sw.outputAllLoopOps packet inPort flood (p :: ps) prevPort copies =
      match prevPort with
      | none => sw.outputAllLoopOps packet inPort flood ps (some p.portNo) copies
      | some prevPort =>
          .clone (copies + 1) :: sw.outputOtherOps packet inPort (copies + 1) prevPort 0 ++
            sw.outputAllLoopOps packet inPort flood ps (some p.portNo) (copies + 1) := by
  rw [SwPort.isMeant, Bool.and_eq_true, bne_iff_ne, Bool.not_eq_true'] at h
  conv_lhs => unfold outputAllLoopOps
  rw [if_neg h.1]
  exact if_neg (ne_true_of_eq_false h.2)

/-- The copy that goes out on a port. -/
def sentCopy (packet : List Byte) (p : SwPort) : Option Emission :=
  if p.netdev && !p.has ofppcPortDown then some (.transmit p.portNo 0 packet) else none

/-- The copies for one port and for others. -/
theorem filterMap_sentCopy_cons (q : SwPort) (ps : List SwPort) :
    (q :: ps).filterMap (sentCopy packet) = (sentCopy packet q).toList ++
      ps.filterMap (sentCopy packet) := by
  rw [List.filterMap_cons]
  cases sentCopy packet q <;> rfl

/-- What goes out on a port of the list that is not the ingress port. -/
theorem transmissions_outputOtherOps {q : SwPort} (hlookup : sw.dpLookupPort q.portNo = some q)
    (hne : q.portNo ≠ inPort) :
    transmissions (sw.outputOtherOps packet inPort id q.portNo 0) = (sentCopy packet q).toList := by
  rw [outputOtherOps, if_neg (Ne.symm hne), sentCopy]
  rcases @outputPacketOps_cases sw packet id q.portNo 0 with
    ⟨p, classId, hsends, hops⟩ | ⟨hnone, hops⟩
  · have hq : p = q := Option.some.inj (hsends.lookup.symm.trans hlookup)
    subst hq
    have hclass : (0 : BitVec 16) = classId := Option.some.inj hsends.queue
    rw [hops, hsends.device, hsends.up, ← hclass]
    rfl
  · rw [hops, if_neg]
    · rfl
    · intro hsend
      rw [Bool.and_eq_true, Bool.not_eq_true'] at hsend
      exact hnone q 0 ⟨hlookup, hsend.1, hsend.2, rfl⟩

/-- What the loop sends, when the packet is still to be sent on the previous port. -/
theorem transmissions_outputAllLoopOps {flood : Bool} {ps : List SwPort} {prev : Option SwPort}
    {copies : ℕ} (hps : ∀ p ∈ ps, sw.dpLookupPort p.portNo = some p)
    (hprev : ∀ q ∈ prev, sw.dpLookupPort q.portNo = some q ∧ q.portNo ≠ inPort) :
    transmissions (sw.outputAllLoopOps packet inPort flood ps (prev.map SwPort.portNo) copies) =
      (prev.toList ++ ps.filter (SwPort.isMeant inPort flood)).filterMap (sentCopy packet) := by
  -- a port that the packet is meant for waits as the previous one until the next is found
  induction ps generalizing prev copies with
  | nil =>
    cases prev with
    | none => rfl
    | some q =>
      obtain ⟨hlookup, hne⟩ := hprev q rfl
      refine (transmissions_outputOtherOps hlookup hne).trans ?_
      exact (List.append_nil _).symm.trans (filterMap_sentCopy_cons q []).symm
  | cons p ps ih =>
    obtain ⟨hp, hps⟩ := List.forall_mem_cons.1 hps
    cases hmeant : p.isMeant inPort flood with
    | false =>
      rw [outputAllLoopOps_skip hmeant, List.filter_cons_of_neg (ne_true_of_eq_false hmeant)]
      exact ih hps hprev
    | true =>
      have hnext : ∀ q ∈ some p, sw.dpLookupPort q.portNo = some q ∧ q.portNo ≠ inPort := by
        intro q hq
        obtain rfl := Option.some.inj hq
        rw [SwPort.isMeant, Bool.and_eq_true, bne_iff_ne] at hmeant
        exact ⟨hp, hmeant.1⟩
      rw [outputAllLoopOps_take hmeant, List.filter_cons_of_pos hmeant]
      cases prev with
      | none => exact ih hps hnext
      | some q =>
        obtain ⟨hlookup, hne⟩ := hprev q rfl
        have hrest := @ih (some p) (copies + 1) hps hnext
        refine (transmissions_append (.clone (copies + 1) :: _) _).trans ?_
        change transmissions (sw.outputOtherOps packet inPort (copies + 1) q.portNo 0) ++ _ = _
        rw [transmissions_outputOtherOps hlookup hne]
        refine (congrArg _ hrest).trans ?_
        exact (filterMap_sentCopy_cons q (p :: ps.filter (SwPort.isMeant inPort flood))).symm

/-- The loop frees the buffer and the copies that it makes. -/
theorem run_outputAllLoopOps {flood : Bool} {ps : List SwPort} {prevPort : Option (BitVec 16)}
    {copies : ℕ} (hprev : ∀ n ∈ prevPort, n ≠ inPort) :
    Ownership.run [0] (ownerships (sw.outputAllLoopOps packet inPort flood ps prevPort copies)) =
      some [] := by
  have hfirst : 0 ∈ [0] := List.mem_singleton.2 rfl
  induction ps generalizing prevPort copies with
  | nil =>
    cases prevPort with
    | none => rfl
    | some prevPort =>
      have hne := Ne.symm (hprev prevPort rfl)
      -- the buffer itself goes to the last port
      rw [outputAllLoopOps, outputOtherOps, if_neg hne]
      exact run_outputPacketOps hfirst packet prevPort 0
  | cons p ps ih =>
    cases hmeant : p.isMeant inPort flood with
    | false =>
      rw [outputAllLoopOps_skip hmeant]
      exact ih hprev
    | true =>
      have hnext : ∀ n ∈ some p.portNo, n ≠ inPort := by
        intro n hn
        obtain rfl := Option.some.inj hn
        rw [SwPort.isMeant, Bool.and_eq_true, bne_iff_ne] at hmeant
        exact hmeant.1
      rw [outputAllLoopOps_take hmeant]
      cases prevPort with
      | none => exact ih hnext
      | some prevPort =>
        have hne := Ne.symm (hprev prevPort rfl)
        have hnew : copies + 1 ∉ [0] := by simp
        -- the copy is freed before the next turn
        have hcopy : Ownership.run [copies + 1, 0]
            (ownerships (sw.outputOtherOps packet inPort (copies + 1) prevPort 0)) =
              some ([copies + 1, 0].erase (copies + 1)) := by
          rw [outputOtherOps, if_neg hne]
          exact run_outputPacketOps (List.mem_cons_self ..) packet prevPort 0
        simp only [ownerships_append]
        exact (Ownership.run_use_cons hfirst).trans
          ((Ownership.run_block hnew hcopy).trans (ih hnext))

/-! ### Outputs that are well -/

/-- A port with a device has the number that it is found under. -/
theorem PortsListed.portNo_of_device (hsw : sw.PortsListed) {n : BitVec 16} {p : SwPort}
    (hp : sw.dpLookupPort n = some p) (hdevice : p.netdev = true) : p.portNo = n := by
  obtain ⟨q, hq, hno⟩ := hsw.listed n (hsw.device n p hp hdevice)
  rw [Option.some.inj (hp.symm.trans hq), hno]

/-- Two ports of the list with one number are one port. -/
theorem PortsListed.eq_of_portNo (hsw : sw.PortsListed) {p q : SwPort} (hp : p ∈ sw.listedPorts)
    (hq : q ∈ sw.listedPorts) (h : q.portNo = p.portNo) : q = p := by
  have hlookup := hsw.lookup_of_listed hq
  rw [h, hsw.lookup_of_listed hp] at hlookup
  exact (Option.some.inj hlookup).symm

theorem letsOut_iff {p : SwPort} :
    p.letsOut = true ↔ p.has ofppcPortDown = false ∧ p.has ofppcNoFwd = false := by
  rw [SwPort.letsOut, Bool.and_eq_true, Bool.not_eq_true', Bool.not_eq_true']

theorem PortsListed.transmissions_outputAllOps (hsw : sw.PortsListed) (packet : List Byte)
    (inPort : BitVec 16) (flood : Bool) :
    transmissions (sw.outputAllOps packet inPort flood) =
      (sw.listedPorts.filter (SwPort.isMeant inPort flood)).filterMap (sentCopy packet) :=
  @transmissions_outputAllLoopOps sw packet inPort flood sw.listedPorts none 0
    (fun _ hp => hsw.lookup_of_listed hp) fun _ h => by cases h

/-- A copy goes out on a port that is meant, has a device and is not down. -/
theorem PortsListed.mem_outputAllOps_iff (hsw : sw.PortsListed) {flood : Bool} {p : SwPort}
    (hp : p ∈ sw.listedPorts) :
    .transmit p.portNo 0 packet ∈ transmissions (sw.outputAllOps packet inPort flood) ↔
      p.isMeant inPort flood = true ∧ p.netdev = true ∧ p.has ofppcPortDown = false := by
  have hcopy : ∀ {q : SwPort}, sentCopy packet q = some (.transmit p.portNo 0 packet) ↔
      (q.netdev = true ∧ q.has ofppcPortDown = false) ∧ q.portNo = p.portNo := by
    intro q
    rw [sentCopy, Option.ite_none_right_eq_some, Bool.and_eq_true, Bool.not_eq_true']
    simp
  rw [hsw.transmissions_outputAllOps, List.mem_filterMap]
  constructor
  · rintro ⟨q, hq, hsent⟩
    -- the port that has sent it is the one with the number
    obtain ⟨hsends, hno⟩ := hcopy.1 hsent
    obtain ⟨hlisted, hmeant⟩ := List.mem_filter.1 hq
    rw [hsw.eq_of_portNo hp hlisted hno] at hsends hmeant
    exact ⟨hmeant, hsends⟩
  · rintro ⟨hmeant, hsends⟩
    exact ⟨p, List.mem_filter.2 ⟨hp, hmeant⟩, hcopy.2 ⟨hsends, rfl⟩⟩

/-- A copy should go out on a port that is meant and lets it out. -/
theorem PortsListed.mem_copies_iff (hsw : sw.PortsListed) {flood : Bool} {p : SwPort}
    (hp : p ∈ sw.listedPorts) :
    .transmit p.portNo 0 packet ∈ sw.copies packet inPort flood ↔ p.isMeant inPort flood = true ∧
      p.letsOut = true := by
  rw [copies, List.mem_map]
  constructor
  · rintro ⟨q, hq, heq⟩
    obtain ⟨hlisted, hmeant⟩ := List.mem_filter.1 hq
    rw [hsw.eq_of_portNo hp hlisted (Emission.transmit.inj heq).1] at hmeant
    exact Bool.and_eq_true _ _ ▸ hmeant
  · rintro ⟨hmeant, hout⟩
    exact ⟨p, List.mem_filter.2 ⟨hp, by rw [hmeant, hout]; rfl⟩, rfl⟩

/-- The copies that go out are the ones that should, exactly when the ports fan out. -/
theorem PortsListed.perm_copies_iff (hsw : sw.PortsListed) (packet : List Byte) {flood : Bool} :
    (transmissions (sw.outputAllOps packet inPort flood)).Perm (sw.copies packet inPort flood) ↔
      sw.FansOut inPort flood := by
  constructor
  · intro hperm p hp hmeant hup
    have hmem := hperm.mem_iff (a := .transmit p.portNo 0 packet)
    rw [hsw.mem_outputAllOps_iff hp, hsw.mem_copies_iff hp, letsOut_iff] at hmem
    exact ⟨fun h => (hmem.1 ⟨hmeant, h, hup⟩).2.2, fun h => (hmem.2 ⟨hmeant, hup, h⟩).2.1⟩
  · intro hfans
    -- the two lists are the same, as both are in the order of the loop
    have heq : transmissions (sw.outputAllOps packet inPort flood) =
        sw.copies packet inPort flood := by
      rw [hsw.transmissions_outputAllOps, copies, ← List.filterMap_eq_map, List.filterMap_filter,
        List.filterMap_filter]
      refine List.filterMap_congr fun p hp => ?_
      cases hmeant : p.isMeant inPort flood with
      | false => rfl
      | true =>
        rw [if_pos rfl, Bool.true_and, sentCopy, SwPort.letsOut]
        cases hdown : p.has ofppcPortDown with
        | true =>
          rw [Bool.not_true, Bool.and_false, Bool.false_and]
          rfl
        | false =>
          have hp' := hfans p hp hmeant hdown
          have hsame : p.netdev = !p.has ofppcNoFwd := by
            rw [Bool.eq_iff_iff, Bool.not_eq_true']
            exact hp'
          rw [hsame, Bool.not_false, Bool.and_true, Bool.true_and]
          rfl
    exact .of_eq heq

/-- A copy that should go out is for a port that lets it out. -/
theorem PortsListed.letsOut_of_mem_copies (hsw : sw.PortsListed) {flood : Bool}
    {portNo classId : BitVec 16} {bytes : List Byte} {p : SwPort}
    (hmem : .transmit portNo classId bytes ∈ sw.copies packet inPort flood)
    (hp : sw.dpLookupPort portNo = some p) : p.letsOut = true := by
  obtain ⟨q, hq, heq⟩ := List.mem_map.1 hmem
  obtain ⟨hlisted, hmeant⟩ := List.mem_filter.1 hq
  rw [← (Emission.transmit.inj heq).1, hsw.lookup_of_listed hlisted] at hp
  rw [← Option.some.inj hp]
  exact ((Bool.and_eq_true _ _).mp hmeant).2

/-- What `output_packet` sends goes out on the port that it comes to. -/
theorem PortsListed.mem_outputPacketOps_iff (hsw : sw.PortsListed) (packet : List Byte) (id : ℕ)
    {portNo classId : BitVec 16} {bytes : List Byte} :
    .transmit portNo classId bytes ∈ transmissions (sw.outputPacketOps packet id outPort queueId) ↔
      portNo = outPort ∧ bytes = packet ∧ ∃ p, sw.SendsOn outPort queueId p classId := by
  rcases @outputPacketOps_cases sw packet id outPort queueId with
    ⟨p, c, hsends, hops⟩ | ⟨hnone, hops⟩
  · have hno := hsw.portNo_of_device hsends.lookup hsends.device
    have hmem : .transmit portNo classId bytes ∈ transmissions
        (sw.outputPacketOps packet id outPort queueId) ↔
        portNo = p.portNo ∧ classId = c ∧ bytes = packet := by
      rw [hops]
      exact List.mem_singleton.trans (by rw [Emission.transmit.injEq])
    rw [hmem, hno]
    constructor
    · rintro ⟨rfl, rfl, rfl⟩
      exact ⟨rfl, rfl, p, hsends⟩
    · rintro ⟨rfl, rfl, q, hq⟩
      have hsame : q = p := Option.some.inj (hq.lookup.symm.trans hsends.lookup)
      subst hsame
      exact ⟨rfl, Option.some.inj (hq.queue.symm.trans hsends.queue), rfl⟩
  · rw [hops]
    constructor
    · intro h
      cases h
    · rintro ⟨-, -, p, hp⟩
      exact absurd hp (hnone p classId)

/-- What `output_packet` sends goes out on a port that lets it out, exactly when this may
forward. -/
theorem PortsListed.letsOut_outputPacketOps_iff (hsw : sw.PortsListed) (packet : List Byte)
    (id : ℕ) :
    (∀ portNo classId bytes p,
        .transmit portNo classId bytes ∈ transmissions
          (sw.outputPacketOps packet id outPort queueId) →
          sw.dpLookupPort portNo = some p → p.letsOut = true) ↔ sw.ForwardsOn outPort queueId := by
  constructor
  · intro hall p classId hsends
    have hmem := (hsw.mem_outputPacketOps_iff packet id).2 ⟨rfl, rfl, p, hsends⟩
    exact (letsOut_iff.1 (hall outPort classId packet p hmem hsends.lookup)).2
  · intro hforwards portNo classId bytes p hmem hp
    obtain ⟨rfl, -, q, hq⟩ := (hsw.mem_outputPacketOps_iff _ _).1 hmem
    rw [Option.some.inj (hp.symm.trans hq.lookup)]
    exact letsOut_iff.2 ⟨hq.up, hforwards q classId hq⟩

/-- One copy on all ports is what the virtual ports are for, exactly when the ports fan out. -/
theorem PortsListed.delivers_outputAllOps_iff (hsw : sw.PortsListed) {flood : Bool}
    (hport : outPort = if flood then ofppFlood else ofppAll) :
    sw.Delivers packet inPort outPort (sw.outputAllOps packet inPort flood) ↔
      sw.FansOut inPort flood := by
  rw [← hsw.perm_copies_iff packet]
  constructor
  · intro h
    cases flood with
    | false => exact h.all hport
    | true => exact h.flood hport
  · intro hperm
    constructor
    · intro hall
      cases flood with
      | false => exact hperm
      | true => exact absurd (hport.symm.trans hall) (by decide)
    · intro hflood
      cases flood with
      | false => exact absurd (hport.symm.trans hflood) (by decide)
      | true => exact hperm
    · intro hingress
      cases flood with
      | false => exact absurd (hport.symm.trans hingress) (by decide)
      | true => exact absurd (hport.symm.trans hingress) (by decide)
    · intro portNo classId bytes p hmem hp
      exact hsw.letsOut_of_mem_copies (hperm.mem_iff.1 hmem) hp
    · exact run_outputAllLoopOps fun _ h => by cases h

/-- `output_packet` does what a port is for that is not for all ports, exactly when the port that
the packet comes to may forward. -/
theorem PortsListed.delivers_outputPacketOps_iff (hsw : sw.PortsListed) {n : BitVec 16}
    (hflood : outPort ≠ ofppFlood) (hall : outPort ≠ ofppAll)
    (hingress : outPort = ofppInPort → n = inPort) :
    sw.Delivers packet inPort outPort (sw.outputPacketOps packet 0 n queueId) ↔
      sw.ForwardsOn n queueId := by
  rw [← hsw.letsOut_outputPacketOps_iff packet 0]
  constructor
  · exact fun h => h.letsOut
  · intro hout
    constructor
    · exact fun h => absurd h hall
    · exact fun h => absurd h hflood
    · intro h portNo classId bytes hmem
      rw [((hsw.mem_outputPacketOps_iff _ _).1 hmem).1, hingress h]
    · exact hout
    · exact run_outputPacketOps (List.mem_singleton.2 rfl) packet n queueId

/-- Handing the buffer over, or freeing it, is enough for a port that sends nothing by itself. -/
theorem delivers_release {op : PortOp} (hflood : outPort ≠ ofppFlood) (hall : outPort ≠ ofppAll)
    (hsent : op.transmission = none) (howned : op.ownership = [.release 0]) :
    sw.Delivers packet inPort outPort [op] := by
  have hnone : transmissions [op] = [] := by
    rw [transmissions, List.filterMap_cons_none hsent, List.filterMap_nil]
  constructor
  · exact fun h => absurd h hall
  · exact fun h => absurd h hflood
  · intro _ portNo classId bytes hmem
    rw [hnone] at hmem
    cases hmem
  · intro portNo classId bytes p hmem
    rw [hnone] at hmem
    cases hmem
  · rw [ownerships, List.flatMap_singleton, howned]
    rfl

/-- Nothing is done with the buffer of a packet that would go back: it is lost. -/
theorem not_delivers_nil : ¬ sw.Delivers packet inPort outPort [] := by
  intro h
  have hlost : some [0] = some [] := h.balanced
  cases hlost

/-- An output to the tables passes the buffer on, or frees it. -/
theorem outputsWell_table (runTables : TableRun) (now : BitVec 64) (buffer : Ofpbuf) :
    sw.OutputsWell inPort ofppTable runTables now buffer queueId := by
  intro ops hops
  rw [dpOutputPortOps, if_neg (by decide), if_pos rfl] at hops
  cases hrun : runTables buffer (sw.dpLookupPort inPort) sw with
  | error e =>
    rw [hrun] at hops
    cases hops
  | ok r =>
    rw [hrun] at hops
    rw [← Except.ok.inj hops]
    simp only
    split
    next => exact delivers_release (by decide) (by decide) rfl rfl
    next => exact delivers_release (by decide) (by decide) rfl rfl

/-- So does one to the controller. -/
theorem outputsWell_controller (runTables : TableRun) (now : BitVec 64) (buffer : Ofpbuf) :
    sw.OutputsWell inPort ofppController runTables now buffer queueId := by
  intro ops hops
  rw [dpOutputPortOps, if_neg (by decide), if_neg (by decide), if_neg (by decide),
    if_neg (by decide), if_pos rfl] at hops
  cases hrun : sw.dpOutputControl now buffer inPort 0xffff .action with
  | error e =>
    rw [hrun] at hops
    cases hops
  | ok sw' =>
    rw [hrun] at hops
    rw [← Except.ok.inj hops]
    exact delivers_release (by decide) (by decide) rfl rfl

/-- Outputs are well exactly when they are deliverable. -/
theorem PortsListed.outputsWell_iff (hsw : sw.PortsListed) (runTables : TableRun) (now : BitVec 64)
    (buffer : Ofpbuf) (inPort outPort : BitVec 16) (queueId : BitVec 32) :
    sw.OutputsWell inPort outPort runTables now buffer queueId ↔
      sw.Deliverable inPort outPort queueId := by
  have hok : ∀ ops : List PortOp, sw.dpOutputPortOps runTables now buffer inPort outPort queueId =
      .ok ops →
      (sw.OutputsWell inPort outPort runTables now buffer queueId ↔
        sw.Delivers buffer.bytes inPort outPort ops) := by
    intro ops hops
    constructor
    · exact fun h => h ops hops
    · intro h ops' hops'
      rw [← Except.ok.inj (hops.symm.trans hops')]
      exact h
  -- the cases are those of `dp_output_port`, in their order
  unfold Deliverable
  by_cases hin : outPort = ofppInPort
  · rw [if_pos hin, hok _ (if_pos hin)]
    subst hin
    exact hsw.delivers_outputPacketOps_iff (by decide) (by decide) fun _ => rfl
  rw [if_neg hin]
  by_cases htable : outPort = ofppTable
  · rw [if_pos htable, iff_true, htable]
    exact outputsWell_table runTables now buffer
  rw [if_neg htable]
  by_cases hflood : outPort = ofppFlood
  · rw [if_pos hflood, hok (sw.outputAllOps buffer.bytes inPort true)
      (by rw [dpOutputPortOps, if_neg hin, if_neg htable, if_pos hflood])]
    exact hsw.delivers_outputAllOps_iff hflood
  rw [if_neg hflood]
  by_cases hall : outPort = ofppAll
  · rw [if_pos hall, hok (sw.outputAllOps buffer.bytes inPort false)
      (by rw [dpOutputPortOps, if_neg hin, if_neg htable, if_neg hflood, if_pos hall])]
    exact hsw.delivers_outputAllOps_iff hall
  rw [if_neg hall]
  by_cases hcontroller : outPort = ofppController
  · rw [if_pos hcontroller, iff_true, hcontroller]
    exact outputsWell_controller runTables now buffer
  have hother : sw.dpOutputPortOps runTables now buffer inPort outPort queueId =
      .ok (sw.outputOtherOps buffer.bytes inPort 0 outPort queueId) := by
    rw [dpOutputPortOps, if_neg hin, if_neg htable, if_neg hflood, if_neg hall,
      if_neg hcontroller]
  rw [if_neg hcontroller, hok _ hother, outputOtherOps]
  by_cases hback : inPort = outPort
  · -- nobody frees the buffer
    rw [if_pos hback]
    exact iff_of_false not_delivers_nil fun h => h.1 hback
  · rw [if_neg hback, hsw.delivers_outputPacketOps_iff hflood hall fun h => absurd h hin]
    exact (and_iff_right hback).symm

/-! ### Misses -/

/-- No entry matches a packet from a port, and the packet is not dropped before. -/
structure Misses (sw : Switch) (buffer : Ofpbuf) (p : SwPort) : Prop where
  /-- Not a fragment that is dropped. -/
  fragment : ((flowExtract buffer p.portNo).1 && sw.flags &&& ofpcFragMask == ofpcFragDrop) = false
  /-- The port does not refuse it. -/
  accepted : p.refuses (flowExtract buffer p.portNo).2.1.dlDst = false
  /-- No entry. -/
  lookup : sw.chain.lookup (packetKey (flowExtract buffer p.portNo).2.1) false = none

/-- A miss on a port that sends no packets to the controller sends nothing. -/
def MissesQuietly (sw : Switch) (now : BitVec 64) (buffer : Ofpbuf) (p : SwPort) : Prop :=
  ∀ fuel sw', sw.Misses buffer p → p.has ofppcNoPacketIn = true →
    sw.fwdPortInput now (fuel + 1) buffer p = .ok sw' → sw'.sent = sw.sent

/-- A miss goes to the controller, whatever the port. -/
theorem Misses.fwdPortInput {buffer : Ofpbuf} {p : SwPort} (h : sw.Misses buffer p)
    (now : BitVec 64) (fuel : ℕ) :
    sw.fwdPortInput now (fuel + 1) buffer p =
      sw.dpOutputControl now buffer p.portNo sw.missSendLen.toNat .noMatch := by
  obtain ⟨hfragment, haccepted, hlookup⟩ := h
  rcases hx : flowExtract buffer p.portNo with ⟨fragment, flow, b⟩
  rw [hx] at hfragment haccepted hlookup
  have hnot : ¬ (some p).any (fun p => p.refuses flow.dlDst) = true := ne_true_of_eq_false haccepted
  have hrun : runFlowThroughTables now (fuel + 1) buffer (some p) sw = .ok (sw, false) := by
    rw [runFlowThroughTables_succ (p := some p) hx, if_neg (ne_true_of_eq_false hfragment),
      if_neg hnot]
    simp only [hlookup]
  rw [Switch.fwdPortInput, hrun]

/-- A message to the controller is sent. -/
theorem sent_dpOutputControl {now : BitVec 64} {buffer : Ofpbuf} {maxLen : ℕ}
    {reason : OfpPacketInReason} {sw' : Switch}
    (h : sw.dpOutputControl now buffer inPort maxLen reason = .ok sw') :
    ∃ opi, sw'.sent = sw.sent ++ [.packetIn opi] := by
  unfold dpOutputControl at h
  simp only at h
  split at h
  next => cases h
  next =>
    rw [← Except.ok.inj h]
    exact ⟨_, rfl⟩

/-- Misses are quiet exactly when there is no miss on such a port, or no room for the message. -/
theorem missesQuietly_iff (sw : Switch) (now : BitVec 64) (buffer : Ofpbuf) (p : SwPort) :
    sw.MissesQuietly now buffer p ↔
      ¬ (sw.Misses buffer p ∧ p.has ofppcNoPacketIn = true ∧
        offsetofOfpPacketInData ≤ buffer.headroom) := by
  have hcontrol := dpOutputControl_iff now buffer p.portNo sw.missSendLen.toNat .noMatch sw
  constructor
  · rintro hquiet ⟨hmiss, hflag, hroom⟩
    -- `fwd_port_input` does not look at the flag: a message has been sent
    obtain ⟨sw', hout⟩ := hcontrol.1 hroom
    have hsame := hquiet 0 sw' hmiss hflag ((hmiss.fwdPortInput now 0).trans hout)
    obtain ⟨opi, hsent⟩ := sent_dpOutputControl hout
    rw [hsent] at hsame
    exact List.cons_ne_nil _ _ (List.append_right_eq_self.1 hsame)
  · intro hnot fuel sw' hmiss hflag hout
    rw [hmiss.fwdPortInput] at hout
    have hlow : buffer.headroom < offsetofOfpPacketInData :=
      Nat.not_le.1 fun hroom => hnot ⟨hmiss, hflag, hroom⟩
    rw [hcontrol.2 hlow] at hout
    cases hout

/-- The switch with one configuration for all its ports. -/
def configure (sw : Switch) (config : BitVec 32) : Switch :=
  { sw with
    ports := fun i => { sw.ports i with config }
    localPort := sw.localPort.map fun p => { p with config } }

/-- The ports of the switch are the ones before, with the configuration. -/
theorem dpLookupPort_configure (sw : Switch) (config : BitVec 32) (n : BitVec 16) :
    (sw.configure config).dpLookupPort n = (sw.dpLookupPort n).map fun p => { p with config } := by
  unfold dpLookupPort
  by_cases hn : n.toNat < dpMaxPorts
  · rw [dif_pos hn, dif_pos hn]
    rfl
  · rw [dif_neg hn, dif_neg hn]
    by_cases hlocal : n = ofppLocal
    · rw [if_pos hlocal, if_pos hlocal]
      rfl
    · rw [if_neg hlocal, if_neg hlocal]
      rfl

/-- They are listed as before. -/
theorem PortsListed.configure (h : sw.PortsListed) (config : BitVec 32) :
    (sw.configure config).PortsListed := by
  constructor
  · intro n hn
    obtain ⟨p, hp, hno⟩ := h.listed n hn
    exact ⟨{ p with config }, by rw [dpLookupPort_configure, hp]; rfl, hno⟩
  · intro n p hp hdevice
    rw [dpLookupPort_configure] at hp
    obtain ⟨q, hq, hqp⟩ := Option.map_eq_some_iff.1 hp
    rw [← hqp] at hdevice
    exact h.device n q hq hdevice

/-- A switch with port 1, which has a device and a configuration. -/
def configuredSwitch (sizes : TableSizes) (config : BitVec 32) : Switch :=
  (polledSwitch (.init sizes 0) true).configure config

theorem portsListed_configuredSwitch (sizes : TableSizes) (config : BitVec 32) :
    (configuredSwitch sizes config).PortsListed :=
  (portsListed_polledSwitch _ true).configure config

end Switch

end OfAgent
