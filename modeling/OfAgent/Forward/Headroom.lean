import OfAgent.Forward.Loops
import OfAgent.Packet.Tags

/-!
# Headroom

`ofpbuf_push_uninit` asserts that there is headroom for what it pushes. Packets that have been
received have enough for a message to the controller and a tag; copies, among them the packets that
are saved in buffers, have none.

* `received`: a packet as `dp_run` receives it.
* `dpOutputControl_iff`, `doOutput_eq_ok`: what an output needs.
* `finishList`: the rest of an execution; `roomFor_cons_iff`: the room for it, action by action.
-/

namespace OfAgent

open Switch

/-! ### Received packets -/

/-- The buffer that `dp_run` receives a packet into: with headroom for a message to the controller
and for a tag. -/
def received (packet : List Byte) : Ofpbuf :=
  { mem := fun i => packet.getD (i - 130) 0, allocated := 130 + 18 + 1024, data := 130,
    size := packet.length, l2 := none, l3 := none, l4 := none, l7 := none }

/-- The room in front of a packet is the one of its buffer. -/
theorem headroom_flowExtract (packet : Ofpbuf) (inPort : BitVec 16) :
    (flowExtract packet inPort).2.2.headroom = packet.headroom :=
  (flowExtract_mem packet inPort).2.1

/-! ### Outputs -/

section Outputs

variable (now : BitVec 64)

/-- A message to the controller needs room for its header. -/
theorem dpOutputControl_iff (buffer : Ofpbuf) (inPort : BitVec 16) (maxLen : ℕ)
    (reason : OfpPacketInReason) (sw : Switch) :
    (offsetofOfpPacketInData ≤ buffer.headroom →
      ∃ sw', sw.dpOutputControl now buffer inPort maxLen reason = .ok sw') ∧
      (buffer.headroom < offsetofOfpPacketInData →
        sw.dpOutputControl now buffer inPort maxLen reason = .error (.ofpbuf .headroom)) := by
  unfold dpOutputControl
  simp only
  -- cutting the packet short leaves the headroom as it is
  generalize hb : (if (sw.buffers.saveBuffer now buffer.bytes).2 ≠ noBuffer ∧ maxLen < buffer.size
    then { buffer with size := maxLen } else buffer) = b
  have hroom : b.headroom = buffer.headroom := by
    rw [← hb]
    split <;> rfl
  rw [← hroom]
  unfold Ofpbuf.pushUninit
  constructor
  · intro h
    rw [if_pos h]
    exact ⟨_, rfl⟩
  · intro h
    rw [if_neg (Nat.not_le.2 h)]

variable (reenter : Ofpbuf → Option SwPort → Switch → Switch × Bool)

/-- An output to any other port meets no fault, if runs through the tables meet none. -/
theorem doOutput_eq_ok (call : OutputCall) (sw : Switch) (h : call.outPort ≠ ofppController) :
    ∃ sw', sw.doOutput (fun buffer p sw => .ok (reenter buffer p sw)) now call = .ok sw' := by
  unfold doOutput dpOutputPort
  rw [if_pos h]
  repeat' split
  all_goals exact ⟨_, rfl⟩

end Outputs

/-! ### Lists of actions -/

section Lists

variable {key : SwFlowKey}

/-- An accepted action names the controller exactly when it is an output to it. -/
theorem actionPort_controller_iff {a : List Byte} (h : AcceptedAction key a) :
    actionPort a = some ofppController ↔ outputsTo ofppController a = true := by
  constructor
  · exact h.outputsTo_of_virtual (by decide) (by decide)
  · intro hout
    rw [outputsTo, Bool.and_eq_true, beq_iff_eq, beq_iff_eq] at hout
    rw [actionPort, if_pos (.inl hout.1), hout.2]

/-- An output leaves the tags alone. -/
theorem TagRoom.act_of_outputsTo {a : List Byte} {port : BitVec 16}
    (h : outputsTo port a = true) (t : TagRoom) : t.act a = t := by
  rw [outputsTo, Bool.and_eq_true, beq_iff_eq] at h
  have hset : setsVlan a = false := by
    rw [setsVlan, h.1]
    rfl
  have hstrip : actionType a ≠ ofpatStripVlan := by
    rw [h.1]
    decide
  rw [TagRoom.act, hset, if_neg hstrip]
  rfl

/-- Where there is room for the tag of the first action, there is room for a list exactly when there
is some for the message that this action may leave over, and for the other actions. -/
theorem roomFor_cons_iff {a : List Byte} (ha : AcceptedAction key a) {t : TagRoom}
    (hroom : setsVlan a = true → t.tagged = false → vlanHeaderLen ≤ t.headroom)
    (as : List (List Byte)) :
    RoomFor t (a :: as) ↔
      (actionPort a = some ofppController →
          as = [] ∧ offsetofOfpPacketInData ≤ (t.act a).headroom) ∧ RoomFor (t.act a) as := by
  rw [RoomFor, actionPort_controller_iff ha]
  constructor
  · rintro ⟨-, hlast, hrest⟩
    refine ⟨fun hout => ?_, hrest⟩
    rw [TagRoom.act_of_outputsTo hout]
    exact hlast hout
  · rintro ⟨hlast, hrest⟩
    refine ⟨hroom, fun hout => ?_, hrest⟩
    rw [← TagRoom.act_of_outputsTo hout t]
    exact hlast hout

/-- The rest of an execution: the actions that are left, and the last output. -/
def finishList (out : OutputCall → Switch → Except ForwardFault Switch) (inPort : BitVec 16)
    (as : List (List Byte)) (s : ExecState Switch) : Except ForwardFault Switch :=
  match as.foldlM (fun s a => executeTurn out inPort 0 a s) s with
  | .error e => .error e
  | .ok s => finishActions out inPort s

/-- The execution of a list is what is left at its start. -/
theorem executeList_eq_finishList (out : OutputCall → Switch → Except ForwardFault Switch)
    (buffer : Ofpbuf) (key : SwFlowKey) (as : List (List Byte)) (sw : Switch) :
    executeList out buffer key as sw =
      finishList out key.flow.inPort as (.init buffer key sw) := by
  unfold executeList finishList
  cases as.foldlM (fun s a => executeTurn out key.flow.inPort 0 a s) (.init buffer key sw) <;> rfl

/-- The rest of an execution, action by action. -/
theorem finishList_cons (out : OutputCall → Switch → Except ForwardFault Switch)
    (inPort : BitVec 16) (a : List Byte) (as : List (List Byte)) (s : ExecState Switch) :
    finishList out inPort (a :: as) s =
      match executeTurn out inPort 0 a s with
      | .error e => .error e
      | .ok s => finishList out inPort as s := by
  rw [finishList, List.foldlM_cons]
  cases executeTurn out inPort 0 a s <;> rfl

end Lists

end OfAgent
