import OfAgent.Lib.Transition
import OfAgent.Stp.Marks

/-!
# Reports of changed ports

The calls of `stp_set_port_state` and of `stp_get_changed_port`, in any order, and what the loop
that calls `stp_get_changed_port` until it returns false reports behind them.

* `StateCall`: a call; `Pending`: the state of a port has been set to a different value since it was
  reported.
* `Interleaving`: the bridges behind calls in any order, with anything in between that leaves the
  states, the marks and the cursor alone.
* `Interleaving.marked_iff`: the marks are the ports that are pending.
* `changed_ports_reported`: no mark is behind the cursor, and the loop reports the ports that are
  pending, each of them once.
* `Interleaving.next`: what can happen to a bridge is an interleaving.
-/

namespace OfAgent

/-- A call that concerns changed ports. -/
inductive StateCall
  /-- `stp_set_port_state`, with the state before: a port that `xcalloc` has made has none. -/
  | setPortState (i : StpPortNo) (old : Option StpState) (state : StpState)
  /-- `stp_get_changed_port`, with the port that it reports. -/
  | getChangedPort (reported : Option StpPortNo)
  deriving DecidableEq, Repr

/-- The state of the port is set to a different value. -/
def StateCall.Changes (i : StpPortNo) : StateCall → Prop
  | .setPortState j old state => j = i ∧ old ≠ some state
  | .getChangedPort _ => False

/-- The port is reported. -/
def StateCall.Reports (i : StpPortNo) : StateCall → Prop
  | .setPortState .. => False
  | .getChangedPort reported => reported = some i

/-- The state of the port has been set to a different value since the port was last reported. -/
def Pending (i : StpPortNo) (calls : List StateCall) : Prop :=
  Transition.Since (fun _ call => call.Changes i) (fun _ call => call.Reports i) calls

/-- The calls that `stp_create` makes. -/
def callsOfCreate : List StateCall :=
  (List.finRange stpMaxPorts).map fun i => .setPortState i none .disabled

/-- The states, the marks and the cursor are left alone. -/
structure Stp.SameStates (stp stp' : Stp) : Prop where
  /-- The states are the same. -/
  state : ∀ i, (stp'.ports i).state = (stp.ports i).state
  /-- The marks and the cursor are the same. -/
  worklist : stp'.worklist = stp.worklist

/-- The bridges behind calls in any order, and the calls. -/
inductive Interleaving (bigEndian : Bool) (bridgeId : StpIdentifier) : List StateCall → Stp → Prop
  /-- `stp_create`. -/
  | create : Interleaving bigEndian bridgeId callsOfCreate (stpCreate bigEndian bridgeId)
  /-- `stp_set_port_state`. -/
  | setPortState {calls : List StateCall} {stp : Stp}
    (h : Interleaving bigEndian bridgeId calls stp)
      (i : StpPortNo) (state : StpState) :
      Interleaving bigEndian bridgeId
        (calls ++ [.setPortState i (some (stp.ports i).state) state]) (stp.setPortState i state)
  /-- `stp_get_changed_port`. -/
  | getChangedPort {calls : List StateCall} {stp : Stp}
      (h : Interleaving bigEndian bridgeId calls stp) :
      Interleaving bigEndian bridgeId (calls ++ [.getChangedPort stp.getChangedPort.2])
        stp.getChangedPort.1
  /-- Anything else. -/
  | other {calls : List StateCall} {stp stp' : Stp} (h : Interleaving bigEndian bridgeId calls stp)
      (hsame : stp.SameStates stp') : Interleaving bigEndian bridgeId calls stp'

/-- The loop that calls `stp_get_changed_port` until it returns false, with the ports that it
reports. Nothing, when this takes too many turns. -/
def Stp.changedPorts (fuel : ℕ) (stp : Stp) : Option (Stp × List StpPortNo) :=
  Worklist.collect Stp.getChangedPort fuel stp

/-! ### Marks -/

section Marks

variable {bigEndian : Bool} {bridgeId : StpIdentifier} {calls : List StateCall} {stp stp' : Stp}
  {i : StpPortNo}

theorem pending_concat {call : StateCall} :
    Pending i (calls ++ [call]) ↔ call.Changes i ∨ (¬ call.Reports i ∧ Pending i calls) :=
  Transition.since_concat

/-- Behind `stp_create` every port is pending. -/
theorem pending_callsOfCreate (i : StpPortNo) : Pending i callsOfCreate := by
  refine ⟨i, .setPortState i none .disabled, ?_, ⟨rfl, (Option.some_ne_none _).symm⟩, ?_⟩
  · simp [callsOfCreate]
  · intro j call _ hcall hreports
    obtain ⟨k, -, rfl⟩ := List.mem_map.1 (List.mem_of_getElem? hcall)
    exact hreports

theorem state_stpCreate (bigEndian : Bool) (bridgeId : StpIdentifier) (i : StpPortNo) :
    ((stpCreate bigEndian bridgeId).ports i).state = .disabled := by
  have hinfo := congrArg (fun info : TreeInfo => (info.port i).state)
    (info_stpCreate bigEndian bridgeId)
  exact hinfo

/-- Behind `stp_create` every port is marked. -/
theorem marked_stpCreate (bigEndian : Bool) (bridgeId : StpIdentifier) (i : StpPortNo) :
    (stpCreate bigEndian bridgeId).worklist.marked i = true := by
  by_contra hmarked
  have hstate := (Stp.marks_stpCreate bigEndian bridgeId).state i (Bool.not_eq_true _ ▸ hmarked)
  rw [state_stpCreate, (Stp.fresh_stpCreateBridge bigEndian bridgeId).2] at hstate
  cases hstate

/-- The marks are the ports that are pending. -/
theorem Interleaving.marked_iff (h : Interleaving bigEndian bridgeId calls stp) (i : StpPortNo) :
    stp.worklist.marked i = true ↔ Pending i calls := by
  induction h with
  | create => exact iff_of_true (marked_stpCreate bigEndian bridgeId i) (pending_callsOfCreate i)
  | @setPortState calls stp _ j state ih =>
    -- a state that is the same one marks nothing, and makes nothing pending
    have hreports : ¬ (StateCall.setPortState j (some (stp.ports j).state) state).Reports i := id
    rw [pending_concat, ← ih, Stp.worklist_setPortState, and_iff_right hreports]
    show _ ↔ (j = i ∧ some (stp.ports j).state ≠ some state) ∨ _
    by_cases hchanged : state ≠ (stp.ports j).state
    · rw [if_pos hchanged, Worklist.marked_mark]
      have hne : some (stp.ports j).state ≠ some state := fun heq =>
        hchanged (Option.some.inj heq).symm
      by_cases heq : i = j
      · rw [if_pos heq]
        exact iff_of_true rfl (.inl ⟨heq.symm, hne⟩)
      · rw [if_neg heq]
        exact (or_iff_right fun hi => heq hi.1.symm).symm
    · rw [if_neg hchanged]
      exact (or_iff_right fun hi => hi.2 (congrArg some (not_not.1 hchanged).symm)).symm
  | @getChangedPort calls stp _ ih =>
    -- the port that is reported loses its mark
    obtain ⟨hnext, htake⟩ := stp.worklist_getChangedPort
    rw [pending_concat, ← ih, htake, hnext]
    show _ ↔ False ∨ ¬ stp.worklist.next = some i ∧ _
    rw [false_or]
    cases hfound : stp.worklist.next with
    | none =>
      have hsame : stp.worklist.take.marked = stp.worklist.marked := by
        rw [Worklist.take, hfound]
      rw [hsame]
      exact (and_iff_right (Option.some_ne_none i).symm).symm
    | some j =>
      rw [Worklist.marked_take hfound]
      by_cases heq : i = j
      · rw [if_pos heq]
        exact iff_of_false Bool.false_ne_true fun h => h.1 (congrArg some heq.symm)
      · rw [if_neg heq]
        exact (and_iff_right fun h => heq (Option.some.inj h).symm).symm
  | other _ hsame ih => rw [hsame.worklist, ih]

/-- No mark gets behind the cursor. -/
theorem Interleaving.valid (h : Interleaving bigEndian bridgeId calls stp) :
    stp.worklist.Valid := by
  induction h with
  | create => exact (Stp.valid_stpCreate bigEndian bridgeId).2
  | setPortState _ i state ih => exact (Stp.marks_setPortState _ i state).valid ih
  | @getChangedPort _ stp _ ih =>
    rw [stp.worklist_getChangedPort.2]
    exact ih.take
  | other _ hsame ih =>
    rw [hsame.worklist]
    exact ih

end Marks

/-- Behind any calls in any order, no port whose state has changed is in front of
`first_changed_port`, and calling `stp_get_changed_port` until it returns false ends and reports the
ports whose state has been set to a different value since they were last reported, each of them
once. -/
theorem changed_ports_reported {bigEndian : Bool} {bridgeId : StpIdentifier}
    {calls : List StateCall} {stp : Stp} (h : Interleaving bigEndian bridgeId calls stp) :
    (∀ i, (stp.ports i).stateChanged = true → stp.firstChangedPort ≤ i) ∧
      ∀ fuel, stpMaxPorts < fuel → ∃ stp' reported,
        stp.changedPorts fuel = some (stp', reported) ∧ reported.Nodup ∧
          ∀ i, i ∈ reported ↔ Pending i calls := by
  refine ⟨h.valid, fun fuel hfuel => ?_⟩
  obtain ⟨stp', reported, hrun, hnodup, hmarked⟩ := Worklist.collect_ends
    Stp.worklist_getChangedPort h.valid (lt_of_le_of_lt stp.worklist.count_le hfuel)
  exact ⟨stp', reported, hrun, hnodup, fun i => (hmarked i).trans (h.marked_iff i)⟩

/-- Behind `stp_create` every port is reported. -/
theorem changed_ports_reported_created : ∃ stp' reported,
    (stpCreate true 5).changedPorts 256 = some (stp', reported) ∧ reported.Nodup ∧
      ∀ i, i ∈ reported := by
  have hfuel : stpMaxPorts < 256 := by decide
  obtain ⟨stp', reported, hrun, hnodup, hpending⟩ :=
    (changed_ports_reported (.create : Interleaving true 5 _ _)).2 256 hfuel
  exact ⟨stp', reported, hrun, hnodup, fun i => (hpending i).2 (pending_callsOfCreate i)⟩

/-! ### What can happen to a bridge -/

section Events

variable {bigEndian : Bool} {bridgeId : StpIdentifier} {calls : List StateCall} {stp stp' : Stp}

/-- More calls lead here, and none of them reports a port. -/
def Continues (bigEndian : Bool) (bridgeId : StpIdentifier) (calls : List StateCall) (stp : Stp) :
    Prop :=
  ∃ later, (∀ call ∈ later, ∀ i, ¬ StateCall.Reports i call) ∧
    Interleaving bigEndian bridgeId (calls ++ later) stp

theorem Interleaving.continues (h : Interleaving bigEndian bridgeId calls stp) :
    Continues bigEndian bridgeId calls stp := by
  refine ⟨[], fun call hcall => absurd hcall List.not_mem_nil, ?_⟩
  rw [List.append_nil]
  exact h

namespace Continues

theorem other (h : Continues bigEndian bridgeId calls stp) (hsame : stp.SameStates stp') :
    Continues bigEndian bridgeId calls stp' := by
  obtain ⟨later, hsilent, hlater⟩ := h
  exact ⟨later, hsilent, hlater.other hsame⟩

theorem setPortState (h : Continues bigEndian bridgeId calls stp) (i : StpPortNo)
    (state : StpState) : Continues bigEndian bridgeId calls (stp.setPortState i state) := by
  obtain ⟨later, hsilent, hlater⟩ := h
  refine ⟨later ++ [.setPortState i (some (stp.ports i).state) state], fun call hcall j => ?_, ?_⟩
  · obtain hcall | hcall := List.mem_append.1 hcall
    · exact hsilent call hcall j
    · rw [List.mem_singleton.1 hcall]
      exact id
  · rw [← List.append_assoc]
    exact hlater.setPortState i state

/-- A change of a port that leaves its state alone. -/
theorem modifyPort (h : Continues bigEndian bridgeId calls stp) (i : StpPortNo)
    {f : StpPort → StpPort} (hstate : ∀ p, (f p).state = p.state)
    (hchanged : ∀ p, (f p).stateChanged = p.stateChanged) :
    Continues bigEndian bridgeId calls (stp.modifyPort i f) := by
  refine h.other ⟨fun j => Stp.field_update (fun p => p.state) (hstate _) j, ?_⟩
  show Worklist.mk _ _ = Worklist.mk _ _
  congr 1
  ext j : 1
  exact Stp.field_update (fun p => p.stateChanged) (hchanged _) j

theorem of_eq (h : Continues bigEndian bridgeId calls stp) (hports : stp'.ports = stp.ports)
    (hfirst : stp'.firstChangedPort = stp.firstChangedPort) :
    Continues bigEndian bridgeId calls stp' := by
  refine h.other ⟨fun i => by rw [hports], ?_⟩
  rw [Stp.worklist, Stp.worklist, hports, hfirst]

theorem moves (h : Continues bigEndian bridgeId calls stp) (hmoves : stp.Moves stp') :
    Continues bigEndian bridgeId calls stp' := by
  induction hmoves with
  | refl => exact h
  | changeBridge _ hports hfirst _ _ ih => exact ih.of_eq hports hfirst
  | modifyPort _ i hf ih => exact ih.modifyPort i (fun p => (hf p).1) fun p => (hf p).2.2
  | setPortState _ _ _ ih => exact ih.setPortState _ _

theorem ite {p : Prop} [Decidable p] (h : p → Continues bigEndian bridgeId calls stp)
    (h' : ¬ p → Continues bigEndian bridgeId calls stp') :
    Continues bigEndian bridgeId calls (if p then stp else stp') := by
  split
  next hp => exact h hp
  next hp => exact h' hp

theorem initializePort (h : Continues bigEndian bridgeId calls stp) (i : StpPortNo)
    (state : StpState) : Continues bigEndian bridgeId calls (stp.initializePort i state) := by
  unfold Stp.initializePort
  have hdesignated := h.moves (stp.moves_becomeDesignatedPort i)
  exact (hdesignated.setPortState i state).modifyPort i (fun _ => rfl) fun _ => rfl

theorem portDisable (h : Continues bigEndian bridgeId calls stp) (i : StpPortNo) :
    Continues bigEndian bridgeId calls (stp.portDisable i) := by
  unfold Stp.portDisable
  refine .ite (fun _ => ?_) fun _ => h
  have hdisabled := (h.moves (stp.moves_becomeDesignatedPort i)).setPortState i .disabled
  refine .moves (hdisabled.modifyPort i ?_ ?_) (Stp.moves_reconfigure _ _)
  · exact fun _ => rfl
  · exact fun _ => rfl

theorem portEnable (h : Continues bigEndian bridgeId calls stp) (i : StpPortNo) :
    Continues bigEndian bridgeId calls (stp.portEnable i) := by
  unfold Stp.portEnable
  refine .ite (fun _ => h) fun _ => ?_
  exact (h.initializePort i .blocking).moves (Stp.moves_portStateSelection _)

theorem portSetPriority (h : Continues bigEndian bridgeId calls stp) (i : StpPortNo)
    (newPriority : BitVec 8) :
    Continues bigEndian bridgeId calls (stp.portSetPriority i newPriority) := by
  unfold Stp.portSetPriority
  extract_lets newPortId designated renamed
  refine .ite (fun _ => ?_) fun _ => h
  have hdesignated : Continues bigEndian bridgeId calls designated :=
    .ite (fun _ => h.modifyPort i (fun _ => rfl) fun _ => rfl) fun _ => h
  have hrenamed : Continues bigEndian bridgeId calls renamed :=
    hdesignated.modifyPort i (fun _ => rfl) fun _ => rfl
  refine .ite (fun _ => ?_) fun _ => hrenamed
  exact (hrenamed.moves (renamed.moves_becomeDesignatedPort i)).moves
    (Stp.moves_portStateSelection _)

theorem portSetPathCost (h : Continues bigEndian bridgeId calls stp) (i : StpPortNo)
    (pathCost : BitVec 16) :
    Continues bigEndian bridgeId calls (stp.portSetPathCost i pathCost) := by
  unfold Stp.portSetPathCost
  refine .ite (fun _ => ?_) fun _ => h
  have hcost : Continues bigEndian bridgeId calls
      (stp.modifyPort i fun p => { p with pathCost := pathCost.setWidth 32 }) :=
    h.modifyPort i (fun _ => rfl) fun _ => rfl
  exact (hcost.moves (Stp.moves_configurationUpdate _)).moves (Stp.moves_portStateSelection _)

theorem portSetChangeDetection (h : Continues bigEndian bridgeId calls stp) (i : StpPortNo)
    (enabled : Bool) :
    Continues bigEndian bridgeId calls (stp.portSetChangeDetection i enabled) := by
  unfold Stp.portSetChangeDetection
  exact h.modifyPort i (fun _ => rfl) fun _ => rfl

/-- Whatever happens, other than a call of `stp_get_changed_port`. -/
theorem next (h : Continues bigEndian bridgeId calls stp) {e : StpEvent}
    (he : e ≠ .getChangedPort) : Continues bigEndian bridgeId calls (stp.next e) := by
  have htimers : ∀ stp' : Stp, Continues bigEndian bridgeId calls stp' →
      Continues bigEndian bridgeId calls stp'.updateBridgeTimers := fun stp' h' =>
    .ite (fun _ => h'.of_eq rfl rfl) fun _ => h'.of_eq rfl rfl
  cases e with
  | tick ms =>
    have hkept : Continues bigEndian bridgeId calls
        { stp with elapsedRemainder := msToTimerRemainder (stp.settings.tickMs ms) } :=
      h.of_eq rfl rfl
    exact hkept.moves (stp.moves_tick ms)
  | receivedBpdu i bpdu => exact h.moves (stp.moves_receivedBpdu i bpdu)
  | setBridgeId bridgeId => exact h.moves (stp.moves_setBridgeId bridgeId)
  | setBridgePriority newPriority => exact h.moves (stp.moves_changeBridgeId _)
  | setHelloTime ms => exact htimers _ (h.of_eq rfl rfl)
  | setMaxAge ms => exact htimers _ (h.of_eq rfl rfl)
  | setForwardDelay ms => exact htimers _ (h.of_eq rfl rfl)
  | getChangedPort => exact absurd rfl he
  | portDisable i => exact h.portDisable i
  | portEnable i => exact h.portEnable i
  | portSetPriority i newPriority => exact h.portSetPriority i newPriority
  | portSetPathCost i pathCost => exact h.portSetPathCost i pathCost
  | portSetSpeed i speed => exact h.portSetPathCost i _
  | portSetChangeDetection i enabled => exact h.portSetChangeDetection i enabled

end Continues

/-- What can happen to a bridge is an interleaving, and the ports that it reports are those that
`stp_get_changed_port` returns. -/
theorem Interleaving.next (h : Interleaving bigEndian bridgeId calls stp) (e : StpEvent) :
    ∃ later, Interleaving bigEndian bridgeId (calls ++ later) (stp.next e) ∧
      ∀ i, (∃ call ∈ later, StateCall.Reports i call) ↔
        e = .getChangedPort ∧ stp.getChangedPort.2 = some i := by
  by_cases he : e = .getChangedPort
  · subst he
    refine ⟨_, h.getChangedPort, fun i => ?_⟩
    rw [and_iff_right rfl]
    constructor
    · rintro ⟨call, hcall, hreports⟩
      rw [List.mem_singleton.1 hcall] at hreports
      exact hreports
    · exact fun hreported => ⟨_, List.mem_singleton.2 rfl, hreported⟩
  · obtain ⟨later, hsilent, hlater⟩ := h.continues.next he
    refine ⟨later, hlater, fun i => iff_of_false ?_ fun hpoll => he hpoll.1⟩
    rintro ⟨call, hcall, hreports⟩
    exact hsilent call hcall i hreports

/-- Every bridge that a run reaches is behind an interleaving. -/
theorem exists_interleaving
    (h : Transition.Reachable Stp.Step (stpCreate bigEndian bridgeId) stp) :
    ∃ calls, Interleaving bigEndian bridgeId calls stp := by
  refine h.invariant (fun stp => ∃ calls, Interleaving bigEndian bridgeId calls stp)
    ⟨callsOfCreate, .create⟩ ?_
  rintro stp e _ ⟨calls, hcalls⟩ - rfl
  obtain ⟨later, hlater, -⟩ := hcalls.next e
  exact ⟨_, hlater⟩

end Events

end OfAgent
