import OfAgent.Control.Lengths
import OfAgent.Control.Removals
import OfAgent.Forward.Buffers

/-!
# Buffered packets

The controller names a packet by the id of its buffer, which it has learned from a message about the
packet. What a flow modification executes its actions on is the packet that the latest of these
messages is about, and there is one such flow modification at most.

* `Emission.Announces`, `Emission.Reuses`: what a message says about a buffer.
* `Switch.Announced`: the packet that an id leads to has been announced; `Switch.kept_announced`:
  forwarding keeps that, `Control.announced_of_reachable`: and so does everything else.
* `Control.executed_was_announced`: what flow modifications are executed on.
-/

namespace OfAgent

open Monitored

/-- The message is about a packet, and gives its id. -/
def Emission.Announces (id : BitVec 32) (packet : List Byte) : Emission → Prop
  | .transmit _ _ _ => False
  | .packetIn opi => opi.bufferId = id ∧ id ≠ noBuffer ∧ opi.data <+: packet ∧
      opi.totalLen = BitVec.ofNat 16 packet.length

/-- The message is about a packet in the same slot. -/
def Emission.Reuses (id : BitVec 32) : Emission → Prop
  | .transmit _ _ _ => False
  | .packetIn opi =>
      opi.bufferId ≠ noBuffer ∧ PacketBuffers.slotOf opi.bufferId = PacketBuffers.slotOf id

namespace Switch

/-- If an id leads to a packet, this has been announced, not before the switch had sent `start`
things, and the slot has not been reused since. -/
def Announced (start : ℕ) (id : BitVec 32) (sw : Switch) : Prop :=
  ∀ packet, (sw.buffers.retrieveBuffer id).1 = some packet →
    Transition.Since (fun i e => start ≤ i ∧ e.Announces id packet) (fun _ e => e.Reuses id) sw.sent

variable {start : ℕ} {id : BitVec 32} {sw sw' : Switch}

/-- Only the buffers and what has been sent matter. -/
theorem Announced.congr (h : sw.Announced start id) (hbuffers : sw'.buffers = sw.buffers)
    (hsent : sw'.sent = sw.sent) : sw'.Announced start id := by
  unfold Announced
  rw [hbuffers, hsent]
  exact h

/-- Asking for a packet takes it away from its id alone. -/
theorem Announced.takeBuffer (h : sw.Announced start id) (ofm : OfpFlowMod) :
    ({ sw with toDatapath := (sw.toDatapath.takeBuffer ofm).2 } : Switch).Announced start id := by
  unfold Datapath.takeBuffer
  split
  next => exact h
  next =>
    intro packet hpacket
    exact h packet (PacketBuffers.retrieve_retrieveBuffer_iff.1 hpacket).2

theorem announced_takeBuffer (start : ℕ) (sw : Switch) {ofm : OfpFlowMod}
    (hid : ofm.bufferId ≠ noBuffer) :
    ({ sw with toDatapath := (sw.toDatapath.takeBuffer ofm).2 } : Switch).Announced start
      ofm.bufferId := by
  unfold Datapath.takeBuffer
  rw [if_neg hid]
  intro packet hpacket
  exact absurd rfl (PacketBuffers.retrieve_retrieveBuffer_iff.1 hpacket).1

/-- A message to the controller announces the packet that it is about, in part or in full. -/
theorem dpOutputControl_eq {now : BitVec 64} {b : Ofpbuf} {inPort : BitVec 16} {maxLen : ℕ}
    {reason : OfpPacketInReason} (h : sw.dpOutputControl now b inPort maxLen reason = .ok sw') :
    sw'.buffers = (sw.buffers.saveBuffer now b.bytes).1 ∧
      ∃ opi, sw'.sent = sw.sent ++ [.packetIn opi] ∧
        opi.bufferId = (sw.buffers.saveBuffer now b.bytes).2 ∧ opi.data <+: b.bytes ∧
        opi.totalLen = BitVec.ofNat 16 b.bytes.length := by
  unfold dpOutputControl at h
  simp only at h
  generalize hb : (if (sw.buffers.saveBuffer now b.bytes).2 ≠ noBuffer ∧ maxLen < b.size then
      { b with size := maxLen } else b) = b' at h
  split at h
  next => cases h
  next =>
    obtain rfl := Except.ok.inj h
    refine ⟨rfl, _, rfl, rfl, ?_, ?_⟩
    · simp only
      rw [← hb]
      split
      next hcut =>
        -- the beginning of the packet
        obtain ⟨rest, hrest⟩ := Nat.exists_eq_add_of_le (Nat.le_of_lt hcut.2)
        refine ⟨b.mem.slice (b.data + maxLen) rest, ?_⟩
        unfold Ofpbuf.bytes
        rw [← Memory.slice_add, ← hrest]
      next => exact List.prefix_rfl
    · simp only
      rw [Ofpbuf.bytes, Memory.length_slice]

/-- Forwarding keeps it: every packet that is saved is announced. -/
theorem kept_announced (start : ℕ) (id : BitVec 32) :
    Kept (fun sw => sw.Announced start id ∧ start ≤ sw.sent.length) fun _ _ => True where
  action _ _ := trivial
  ready _ _ := trivial
  clone _ _ := trivial
  transmit {sw portNo classId b} h _ := by
    refine ⟨fun packet hpacket => ?_, ?_⟩
    · change Transition.Since _ _ (sw.sent ++ [_])
      rw [Transition.since_concat]
      exact .inr ⟨fun hreuses => hreuses, h.1 packet hpacket⟩
    · change start ≤ (sw.sent ++ [_]).length
      rw [List.length_append]
      exact Nat.le_add_right_of_le h.2
  control {sw sw' now b inPort maxLen reason} h _ hout := by
    obtain ⟨hbuffers, opi, hsent, hid, hdata, hlen⟩ := dpOutputControl_eq hout
    refine ⟨fun packet hpacket => ?_, ?_⟩
    · rw [hbuffers, PacketBuffers.retrieve_saveBuffer_iff, ← hid] at hpacket
      rw [hsent, Transition.since_concat]
      rcases hpacket with ⟨heq, rfl, hne⟩ | ⟨hnot, hbefore⟩
      · exact .inl ⟨h.2, heq, hne, hdata, hlen⟩
      · exact .inr ⟨hnot, h.1 packet hbefore⟩
    · rw [hsent, List.length_append]
      exact Nat.le_add_right_of_le h.2
  used {sw now flow f b} h _ := ⟨h.1.congr rfl rfl, h.2⟩

end Switch

namespace Datapath

theorem dpRun_buffers (dp : Datapath) (now : BitVec 64) :
    (dp.dpRun now).1.buffers = dp.buffers := by
  unfold dpRun
  split <;> rfl

variable {dp : Datapath} {now : BitVec 64} {ofm : OfpFlowMod}

/-- Whatever comes of an addition, its packet is not in the buffer any more. -/
theorem addFlow_buffers : (dp.addFlow now ofm).1.buffers = (dp.takeBuffer ofm).2.buffers := by
  unfold addFlow
  simp only
  split
  next => rfl
  next => split <;> rfl

/-- The same of a modification. -/
theorem modFlow_buffers (strict : Bool) :
    (dp.modFlow now ofm strict).1.buffers = (dp.takeBuffer ofm).2.buffers := by
  unfold modFlow
  simp only
  split
  next => rfl
  next =>
    split
    next => rfl
    next => split <;> rfl

theorem recvFlowTables_buffers_of_isInstallation (h : ofm.IsInstallation) :
    (dp.recvFlowTables now ofm).1.buffers = (dp.takeBuffer ofm).2.buffers := by
  unfold recvFlowTables
  rcases h with hcmd | hcmd | hcmd <;> rw [hcmd]
  · exact addFlow_buffers
  · exact modFlow_buffers false
  · exact modFlow_buffers true

end Datapath

namespace Control

variable {start : ℕ} {id : BitVec 32} {ctl ctl' : Control} {env : Surroundings} {sender : Sender}
  {oh : Memory}

/-- The packet that an id leads to has been announced. -/
def Announced (start : ℕ) (id : BitVec 32) (ctl : Control) : Prop :=
  ctl.toSwitch.Announced start id ∧ start ≤ ctl.sent.length

/-- A change of the switch that leaves the buffers alone, and what has been sent. -/
theorem Announced.setSwitch (h : ctl.Announced start id) {sw : Switch}
    (hrest : sw.toDatapath = ctl.toDatapath ∧ sw.sent = ctl.sent) :
    Announced start id { ctl with toSwitch := sw } :=
  ⟨h.1.congr (congrArg Datapath.buffers hrest.1) hrest.2, hrest.2.symm ▸ h.2⟩

/-- Answers do not count, nor do changes of ports. -/
theorem kept_announced (start : ℕ) (id : BitVec 32) : Kept (Announced start id) where
  reply _ _ _ := .modify fun _ h => h
  connections _ _ h := h
  config _ _ h := h.setSwitch ⟨rfl, rfl⟩
  queues _ _ h := h.setSwitch (Switch.modifyPort_rest ..)

/-- Executing actions keeps it, and so do messages. -/
theorem announced_performAll (outputs : List DpOutput) :
    Keeps (Announced start id) (performAll env sender oh outputs) := by
  refine keeps_performAll fun output _ => ?_
  cases output with
  | errorMsg error length => exact ((kept_announced start id).keptBy _).dpSendErrorMsg _ _ _
  | flowRemoved ofr => exact (keeps_putOpenflowXid _).bind fun _ => .modify fun _ h => h
  | executeActions buffer inPort actions =>
    exact keeps_forward fun ctl sw h hrun =>
      (Switch.kept_announced start id).executeSaved h (fun _ => trivial) hrun
  | packetIn buffer bufferId => exact .pure _

theorem announced_setDatapath {dp : Datapath} (outputs : List DpOutput)
    (h : Announced start id { ctl with toSwitch := { ctl.toSwitch with toDatapath := dp } }) :
    Meets (do setDatapath dp; performAll env sender oh outputs) .any
      (fun _ ctl' => ctl'.Announced start id) ctl := by
  rw [setDatapath, meets_bind, meets_modify]
  exact announced_performAll outputs _ h

/-- Timeouts and the protection leave the buffers alone. -/
theorem announced_removals {dp : Datapath} (outputs : List DpOutput) (h : ctl.Announced start id)
    (hbuffers : dp.buffers = ctl.buffers) :
    Meets (do setDatapath dp; performAll env sender oh outputs) .any
      (fun _ ctl' => ctl'.Announced start id) ctl :=
  announced_setDatapath outputs ⟨h.1.congr hbuffers rfl, h.2⟩

/-- A flow modification takes a packet at most. -/
theorem announced_recvFlow : Keeps (Announced start id) (Control.recvFlow env sender oh) := by
  refine keeps_recvFlow fun ctl h => announced_setDatapath _ ?_
  rcases Datapath.recvFlowTables_buffers with hbuffers | hbuffers
  · exact ⟨h.1.congr hbuffers rfl, h.2⟩
  · exact ⟨(h.1.takeBuffer (.ofMemory oh)).congr hbuffers rfl, h.2⟩

/-- Every event keeps it. -/
theorem Announced.step {e : ControlEvent} (h : ctl.Announced start id) (hstep : Step ctl e ctl') :
    ctl'.Announced start id := by
  refine (meets_any_iff (Q := fun _ s => s.Announced start id)).1 ?_ _ _ hstep.2
  have hkept := kept_announced start id
  cases e with
  | message env remote msg =>
    refine Keeps.bind ((hkept.keptBy _).receive (fun _ => ?_) (fun _ => ?_)
      (fun _ => announced_recvFlow) fun _ _ ctl' h' => ?_) (fun _ => .pure _) ctl h
    · exact keeps_recvFeaturesRequest (fun _ _ hdp hsent h' => h'.setSwitch ⟨hdp, hsent⟩)
        fun _ _ => .modify fun _ h' => h'
    · exact keeps_recvPortMod fun _ _ hdp hsent h' => h'.setSwitch ⟨hdp, hsent⟩
    · exact announced_removals _ h' rfl
  | dump now err2 remote =>
    obtain ⟨cb, hcb⟩ := Option.isSome_iff_exists.1 hstep.1
    exact hkept.toAnswered.runDump (fun _ _ _ _ _ => .modify fun _ h => h) hcb h
  | packet env portNo bytes =>
    refine Keeps.get_bind_all (fun ctl' => ?_) ctl h
    cases ctl'.dpLookupPort portNo with
    | none => exact .pure _
    | some p =>
      exact keeps_forward fun ctl'' sw h'' hrun =>
        (Switch.kept_announced start id).fwdPortInput h'' (fun _ => trivial) hrun
  | timeouts env =>
    exact Keeps.get_bind (fun ctl' h' =>
      announced_removals _ h' (Datapath.dpRun_buffers ctl'.toDatapath env.now)) ctl h
  | close remote => exact (meets_modify _).2 h

theorem Announced.run (h : ctl.Announced start id) (hrun : Transition.Reachable Step ctl ctl') :
    ctl'.Announced start id :=
  hrun.invariant (Announced start id) h fun _ _ _ hs _ hstep => hs.step hstep

/-- A new datapath has no packets. -/
theorem Initial.announced {sizes : TableSizes} (h : Initial sizes ctl) (id : BitVec 32) :
    ctl.Announced 0 id := by
  cases h with
  | @start sw now hdp hsent dpid dpDesc =>
    refine ⟨fun packet hpacket => ?_, Nat.zero_le _⟩
    have hbuffers : sw.buffers = .init := congrArg Datapath.buffers hdp
    change (sw.buffers.retrieveBuffer id).1 = some packet at hpacket
    rw [hbuffers] at hpacket
    cases (PacketBuffers.retrieveBuffer_eq_some_iff.1 hpacket).2

/-- After an addition or a modification, its id leads to what is announced from then on. -/
theorem announced_of_installation {remote : Remote} {msg : OfpMessage}
    (hstep : Step ctl (.message env remote msg) ctl') (hflow : msg.type = some .flowMod)
    (hlen : sizeofOfpFlowMod ≤ msg.length) (hinst : (OfpFlowMod.ofMemory msg.mem).IsInstallation)
    (hid : (OfpFlowMod.ofMemory msg.mem).bufferId ≠ noBuffer) :
    ctl'.Announced ctl.sent.length (OfpFlowMod.ofMemory msg.mem).bufferId := by
  refine (meets_any_iff
    (Q := fun _ s => s.Announced ctl.sent.length (OfpFlowMod.ofMemory msg.mem).bufferId)).1
    ?_ _ _ hstep.2
  rw [ControlEvent.run, meets_bind]
  refine meets_receive_of_type (fun _ => trivial) (fun _ => trivial) hflow rfl
    (fun hlt => absurd hlen (Nat.not_le.2 hlt)) fun _ => ?_
  -- the packet is gone before the actions are executed
  have hend := @announced_setDatapath ctl.sent.length (OfpFlowMod.ofMemory msg.mem).bufferId ctl env
    ⟨remote, msg.xid⟩ msg.mem (ctl.toDatapath.recvFlowTables env.now (.ofMemory msg.mem)).1
    (ctl.toDatapath.recvFlowTables env.now (.ofMemory msg.mem)).2.1
    ⟨(Switch.announced_takeBuffer _ ctl.toSwitch hid).congr
      (Datapath.recvFlowTables_buffers_of_isInstallation hinst) rfl, le_refl _⟩
  simp only [recvFlow, meets_bind, meets_observe, meets_readLength, meets_get, meets_pure] at hend ⊢
  exact ⟨trivial, trivial, trivial, trivial, hend⟩

/-- A flow modification is executed on the packet of its id. -/
theorem retrieve_of_executeActions_mem {now : BitVec 64} {ofm : OfpFlowMod} {buffer : List Byte}
    {inPort : BitVec 16} {actions : List Byte}
    (h : .executeActions buffer inPort actions ∈ (ctl.toDatapath.recvFlowTables now ofm).2.1) :
    (ctl.buffers.retrieveBuffer ofm.bufferId).1 = some buffer ∧ ofm.bufferId ≠ noBuffer := by
  have htake := Datapath.takeBuffer_of_executeActions_mem h
  unfold Datapath.takeBuffer at htake
  split at htake
  next => cases htake
  next hne => exact ⟨htake, hne⟩

/-- **Flow modifications and buffered packets.** In every run, the packet that a flow modification
is executed on is the one that the latest message about its buffer has announced: the message has
given the id, the length of the packet, and the packet or its beginning. After an addition or a
modification, whatever has come of it, only a packet that is announced later can be had under its
id again: what has been announced once is executed once at most. -/
theorem executed_was_announced {sizes : TableSizes} {init : Control} (hinit : Initial sizes init)
    (hrun : Transition.Reachable Step init ctl) :
    (∀ now ofm buffer inPort actions,
      .executeActions buffer inPort actions ∈ (ctl.toDatapath.recvFlowTables now ofm).2.1 →
      Transition.Since (fun _ e => e.Announces ofm.bufferId buffer)
        (fun _ e => e.Reuses ofm.bufferId) ctl.sent) ∧
    ∀ env remote msg ctl₁ ctl₂, Step ctl (.message env remote msg) ctl₁ →
      msg.type = some .flowMod → sizeofOfpFlowMod ≤ msg.length →
      (OfpFlowMod.ofMemory msg.mem).IsInstallation → Transition.Reachable Step ctl₁ ctl₂ →
      ∀ now ofm buffer inPort actions, ofm.bufferId = (OfpFlowMod.ofMemory msg.mem).bufferId →
        .executeActions buffer inPort actions ∈ (ctl₂.toDatapath.recvFlowTables now ofm).2.1 →
        Transition.Since (fun i e => ctl.sent.length ≤ i ∧ e.Announces ofm.bufferId buffer)
          (fun _ e => e.Reuses ofm.bufferId) ctl₂.sent := by
  constructor
  · intro now ofm buffer inPort actions hmem
    have hsince := ((hinit.announced ofm.bufferId).run hrun).1 buffer
      (retrieve_of_executeActions_mem hmem).1
    simpa only [Nat.zero_le, true_and] using hsince
  · intro env remote msg ctl₁ ctl₂ hstep hflow hlen hinst hrun' now ofm buffer inPort actions hsame
      hmem
    have hid : (OfpFlowMod.ofMemory msg.mem).bufferId ≠ noBuffer :=
      hsame ▸ (retrieve_of_executeActions_mem hmem).2
    have hannounced := announced_of_installation hstep hflow hlen hinst hid
    rw [hsame]
    exact (hannounced.run hrun').1 buffer (hsame ▸ (retrieve_of_executeActions_mem hmem).1)

/-- An addition for the first packet that is buffered. -/
def firstBufferFlowMod : OfpFlowMod := { plainFlowMod 0 (frameMatch 0) 0 with bufferId := 257 }

/-- A packet that has been sent to the controller. -/
theorem executed_was_announced_first : ∃ ctl buffer, Transition.Reachable Step smallControl ctl ∧
    Transition.Since (fun _ e => e.Announces 257 buffer) (fun _ e => e.Reuses 257) ctl.sent := by
  have hinit : Initial smallSizes smallControl := .start rfl rfl 1 []
  let executes (output : DpOutput) : Bool :=
    match output with
    | .executeActions _ _ _ => true
    | _ => false
  obtain ⟨ctl, hstep, hcheck⟩ := exists_step_of_run smallControl
    (.packet .calm 1 [0, 0, 0, 0, 0, 1])
    (fun ctl => (ctl.toDatapath.recvFlowTables 0 firstBufferFlowMod).2.1.any executes)
    ⟨by decide, by decide⟩ (by decide +kernel)
  have hrun : Transition.Reachable Step smallControl ctl := .step .refl hstep
  obtain ⟨output, hmem, houtput⟩ := List.any_eq_true.1 hcheck
  cases output with
  | executeActions buffer inPort actions =>
    exact ⟨ctl, buffer, hrun,
      (executed_was_announced hinit hrun).1 0 firstBufferFlowMod buffer inPort actions hmem⟩
  | errorMsg error length => cases houtput
  | flowRemoved ofr => cases houtput
  | packetIn buffer bufferId => cases houtput

end Control

end OfAgent
