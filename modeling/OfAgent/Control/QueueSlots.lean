import Mathlib.Data.List.Find
import Mathlib.Tactic.IntervalCases
import OfAgent.Control.Invariants

/-!
# The array of queues

`of_ext_msg.c` keeps the queues of a port twice: in the array `queues`, where a slot is occupied
when its pointer to the port is set, and in the list `queue_list`. `SwPort` has the list only; here
are both.

* `QueuePort`: a port with its slots; `newQueue`, `portAddQueue`, `portDeleteQueue`,
  `dpLookupQueue`: the functions on it.
* `QueueCommand`, `QueuePort.Step`: the messages, and how they are handled.
* `QueuePort.Consistent`: the list and the array agree; `QueuePort.queues_consistent`: they do so in
  every run.
* `QueuePort.Represents`: the port is the one that `SwPort` shows; the functions on the array do
  what those on the list do.
-/

namespace OfAgent

/-! ### Slots -/

/-- `struct sw_queue` as an element of the array. -/
structure SwQueueSlot extends SwQueue where
  /-- `port` is not null. -/
  port : Bool
  deriving DecidableEq, Repr

/-- Zeroed memory. -/
def SwQueueSlot.zero : SwQueueSlot := ⟨⟨0, 0, 0, 0⟩, false⟩

/-- `struct sw_port`, as far as it is about queues. An element of `queue_list` is the node of a
slot. -/
structure QueuePort where
  /-- `PORT_IN_USE`. -/
  used : Bool
  /-- `netdev` is not null. -/
  netdev : Bool
  /-- `num_queues`. -/
  numQueues : ℕ
  /-- `queues`. -/
  queues : Fin netdevMaxQueues → SwQueueSlot
  /-- `queue_list`. -/
  queueList : List (Fin netdevMaxQueues)
  /-- The array is large enough. -/
  numQueues_le : numQueues ≤ netdevMaxQueues

/-- The part of a message about a queue that the handlers read. -/
structure QueueCommand where
  /-- `port`. -/
  port : BitVec 16
  /-- `queue_id` of the queue. -/
  queueId : BitVec 32
  /-- `len` of the queue. -/
  len : BitVec 16
  /-- `property` of the first property. -/
  property : BitVec 16
  /-- Its `rate`. -/
  rate : BitVec 16
  deriving DecidableEq, Repr

/-- The command in a message. -/
def QueueCommand.ofMemory (oh : Memory) : QueueCommand where
  port := oh.get16 16
  queueId := oh.get32 24
  len := oh.get16 28
  property := oh.get16 32
  rate := oh.get16 40

namespace QueuePort

variable (p : QueuePort)

/-- `dp_lookup_queue`. -/
def dpLookupQueue (queueId : BitVec 32) : Option (Fin netdevMaxQueues) :=
  p.queueList.find? fun i => (p.queues i).queueId == queueId

/-- `new_queue` on the slot with an index, which becomes the class id. -/
def newQueue (i : Fin netdevMaxQueues) (cmd : QueueCommand) : QueuePort :=
  { p with
    queues := Function.update p.queues i
      ⟨⟨cmd.queueId, BitVec.ofNat 16 i, cmd.property, cmd.rate⟩, true⟩
    queueList := p.queueList ++ [i] }

/-- The loop of `port_add_queue`. -/
def freeSlot : Option (Fin netdevMaxQueues) :=
  (List.finRange netdevMaxQueues).find? fun i =>
    0 < i.val && i.val < p.numQueues && !(p.queues i).port

/-- `port_add_queue`, unless it returns `EXFULL`. -/
def portAddQueue (cmd : QueueCommand) : Option QueuePort :=
  p.freeSlot.map fun i => p.newQueue i cmd

/-- `port_delete_queue`. -/
def portDeleteQueue (i : Fin netdevMaxQueues) : QueuePort :=
  { p with
    queues := Function.update p.queues i .zero
    queueList := p.queueList.erase i }

/-- The new values of a queue. -/
def changeQueue (i : Fin netdevMaxQueues) (cmd : QueueCommand) : QueuePort :=
  { p with
    queues := Function.update p.queues i
      { p.queues i with property := cmd.property, minRate := cmd.rate } }

/-! ### Handlers -/

/-- What `dp_lookup_port` finds for every number. -/
abbrev Ports : Type := BitVec 16 → Option QueuePort

/-- `recv_of_exp_queue_modify`, when `netdev_change_class` fails or not. The replies are those of
`OfAgent.recvOfExpQueueModify`. -/
def recvOfExpQueueModify (failed : Bool) (cmd : QueueCommand) (ports : Ports) :
    Except ControlFault Ports :=
  if cmd.len ≠ 24 ∨ cmd.property ≠ ofpqtMinRate then .ok ports
  else
    match (ports cmd.port).filter QueuePort.used with
    | none => .ok ports
    | some p =>
        match p.dpLookupQueue cmd.queueId with
        | some i =>
            -- queue exists
            if !p.netdev then .error .nullPointer
            else if failed then .ok ports
            else .ok (Function.update ports cmd.port (some (p.changeQueue i cmd)))
        | none =>
            -- create new queue
            match p.portAddQueue cmd with
            | none => .ok ports
            | some p =>
                match p.dpLookupQueue cmd.queueId with
                | none => .error .nullPointer
                | some _ =>
                    if !p.netdev then .error .nullPointer
                    else .ok (Function.update ports cmd.port (some p))

/-- `recv_of_exp_queue_delete`. -/
def recvOfExpQueueDelete (cmd : QueueCommand) (ports : Ports) : Except ControlFault Ports :=
  match ports cmd.port with
  | none => .error .nullPointer
  | some p =>
      if p.netdev then
        match p.dpLookupQueue cmd.queueId with
        | some i => .ok (Function.update ports cmd.port (some (p.portDeleteQueue i)))
        | none => .ok ports
      else .ok ports

/-- A message about a queue. -/
inductive QueueMessage
  /-- `OFP_EXT_QUEUE_MODIFY`, and whether `netdev_change_class` fails. -/
  | modify (failed : Bool) (cmd : QueueCommand)
  /-- `OFP_EXT_QUEUE_DELETE`. -/
  | delete (cmd : QueueCommand)

/-- The handling of a message. -/
def handle (ports : Ports) : QueueMessage → Except ControlFault Ports
  | .modify failed cmd => recvOfExpQueueModify failed cmd ports
  | .delete cmd => recvOfExpQueueDelete cmd ports

/-- The step relation. -/
def Step : Ports → QueueMessage → Ports → Prop := Transition.StepOf handle

/-! ### Consistency -/

/-- The list and the array agree. -/
structure Consistent : Prop where
  /-- The list consists of the occupied slots. -/
  mem_queueList : ∀ i, i ∈ p.queueList ↔ (p.queues i).port = true
  /-- It has none of them twice. -/
  nodup : p.queueList.Nodup
  /-- The class id of a queue is its index. -/
  classId_eq : ∀ i ∈ p.queueList, (p.queues i).classId.toNat = i.val
  /-- The first slot is never occupied. -/
  index_lt : ∀ i ∈ p.queueList, 0 < i.val ∧ i.val < p.numQueues
  /-- Different queues have different ids. -/
  queueId_inj : ∀ i ∈ p.queueList, ∀ j ∈ p.queueList,
    (p.queues i).queueId = (p.queues j).queueId → i = j

variable {p}

theorem dpLookupQueue_eq_some {queueId : BitVec 32} {i : Fin netdevMaxQueues}
    (h : p.dpLookupQueue queueId = some i) :
    i ∈ p.queueList ∧ (p.queues i).queueId = queueId :=
  ⟨List.mem_of_find?_eq_some h, by simpa using List.find?_some h⟩

theorem dpLookupQueue_eq_none {queueId : BitVec 32} :
    p.dpLookupQueue queueId = none ↔ ∀ i ∈ p.queueList, (p.queues i).queueId ≠ queueId := by
  simp [dpLookupQueue, List.find?_eq_none]

/-- A slot that `port_add_queue` finds is free. -/
theorem freeSlot_eq_some {i : Fin netdevMaxQueues} (h : p.freeSlot = some i) :
    0 < i.val ∧ i.val < p.numQueues ∧ (p.queues i).port = false := by
  have hfound := List.find?_some h
  simp only [Bool.and_eq_true, decide_eq_true_eq, Bool.not_eq_true'] at hfound
  exact ⟨hfound.1.1, hfound.1.2, hfound.2⟩

/-- A new queue with an id that no queue has. -/
theorem Consistent.newQueue (h : p.Consistent) {i : Fin netdevMaxQueues} {cmd : QueueCommand}
    (hfree : p.freeSlot = some i) (hnew : p.dpLookupQueue cmd.queueId = none) :
    (p.newQueue i cmd).Consistent := by
  obtain ⟨hpos, hlt, hport⟩ := freeSlot_eq_some hfree
  have hids := dpLookupQueue_eq_none.1 hnew
  -- a free slot is not in the list
  have hmem : i ∉ p.queueList := fun hi => by
    rw [h.mem_queueList, hport] at hi
    cases hi
  have hold : ∀ j ∈ p.queueList, (p.newQueue i cmd).queues j = p.queues j := by
    intro j hj
    have hne : j ≠ i := fun heq => hmem (heq ▸ hj)
    exact Function.update_of_ne hne _ _
  have hself : (p.newQueue i cmd).queues i =
      ⟨⟨cmd.queueId, BitVec.ofNat 16 i, cmd.property, cmd.rate⟩, true⟩ := Function.update_self ..
  have hlist : ∀ j, j ∈ (p.newQueue i cmd).queueList ↔ j ∈ p.queueList ∨ j = i := fun j =>
    List.mem_append.trans (or_congr_right List.mem_singleton)
  refine ⟨fun j => ?_, ?_, fun j hj => ?_, fun j hj => ?_, fun j hj k hk heq => ?_⟩
  · rw [hlist]
    by_cases heq : j = i
    · rw [heq, hself]
      exact iff_of_true (.inr rfl) rfl
    · rw [or_iff_left heq, h.mem_queueList]
      show _ ↔ (Function.update p.queues i _ j).port = true
      rw [Function.update_of_ne heq]
  · exact List.nodup_append.2 ⟨h.nodup, List.nodup_singleton i, fun j hj k hk heq =>
      hmem (List.mem_singleton.1 hk ▸ heq ▸ hj)⟩
  · obtain hj | rfl := (hlist j).1 hj
    · rw [hold j hj]
      exact h.classId_eq j hj
    · rw [hself]
      exact Nat.mod_eq_of_lt (j.isLt.trans (by decide))
  · obtain hj | rfl := (hlist j).1 hj
    · exact h.index_lt j hj
    · exact ⟨hpos, hlt⟩
  · rcases (hlist j).1 hj with hj' | hj' <;> rcases (hlist k).1 hk with hk' | hk'
    · rw [hold j hj', hold k hk'] at heq
      exact h.queueId_inj j hj' k hk' heq
    · rw [hold j hj', hk', hself] at heq
      exact absurd heq (hids j hj')
    · rw [hold k hk', hj', hself] at heq
      exact absurd heq.symm (hids k hk')
    · exact hj'.trans hk'.symm

/-- A queue is deleted. -/
theorem Consistent.portDeleteQueue (h : p.Consistent) (i : Fin netdevMaxQueues) :
    (p.portDeleteQueue i).Consistent := by
  have hlist : ∀ j, j ∈ (p.portDeleteQueue i).queueList ↔ j ≠ i ∧ j ∈ p.queueList := fun j =>
    h.nodup.mem_erase_iff
  have hold : ∀ j, j ≠ i → (p.portDeleteQueue i).queues j = p.queues j := fun j hne =>
    Function.update_of_ne hne _ _
  refine ⟨fun j => ?_, h.nodup.erase i, fun j hj => ?_, fun j hj => ?_, fun j hj k hk heq => ?_⟩
  · rw [hlist]
    by_cases heq : j = i
    · subst heq
      show _ ↔ (Function.update p.queues j .zero j).port = true
      rw [Function.update_self]
      exact iff_of_false (fun h => h.1 rfl) Bool.false_ne_true
    · rw [hold j heq, and_iff_right heq, h.mem_queueList]
  · obtain ⟨hne, hj⟩ := (hlist j).1 hj
    rw [hold j hne]
    exact h.classId_eq j hj
  · exact h.index_lt j ((hlist j).1 hj).2
  · obtain ⟨hne, hj⟩ := (hlist j).1 hj
    obtain ⟨hne', hk⟩ := (hlist k).1 hk
    rw [hold j hne, hold k hne'] at heq
    exact h.queueId_inj j hj k hk heq

/-- New values for a queue leave its ids alone. -/
theorem queues_changeQueue (i j : Fin netdevMaxQueues) (cmd : QueueCommand) :
    ((p.changeQueue i cmd).queues j).port = (p.queues j).port ∧
      ((p.changeQueue i cmd).queues j).classId = (p.queues j).classId ∧
      ((p.changeQueue i cmd).queues j).queueId = (p.queues j).queueId := by
  unfold changeQueue
  by_cases heq : j = i
  · subst heq
    simp
  · simp [heq]

/-- A queue gets new values. -/
theorem Consistent.changeQueue (h : p.Consistent) (i : Fin netdevMaxQueues) (cmd : QueueCommand) :
    (p.changeQueue i cmd).Consistent := by
  refine ⟨fun j => ?_, h.nodup, fun j hj => ?_, h.index_lt, fun j hj k hk heq => ?_⟩
  · rw [(queues_changeQueue i j cmd).1]
    exact h.mem_queueList j
  · rw [(queues_changeQueue i j cmd).2.1]
    exact h.classId_eq j hj
  · rw [(queues_changeQueue i j cmd).2.2, (queues_changeQueue i k cmd).2.2] at heq
    exact h.queueId_inj j hj k hk heq

/-! ### Runs -/

/-- All ports are consistent. -/
def AllConsistent (ports : Ports) : Prop := ∀ n p, ports n = some p → p.Consistent

variable {ports ports' : Ports}

theorem AllConsistent.update (h : AllConsistent ports) (hp : p.Consistent) (n : BitVec 16) :
    AllConsistent (Function.update ports n (some p)) := by
  intro m q hq
  by_cases heq : m = n
  · rw [heq, Function.update_self] at hq
    exact Option.some.inj hq ▸ hp
  · rw [Function.update_of_ne heq] at hq
    exact h m q hq

/-- Every message keeps this. -/
theorem AllConsistent.step (h : AllConsistent ports) {msg : QueueMessage}
    (hstep : Step ports msg ports') : AllConsistent ports' := by
  change handle ports msg = .ok ports' at hstep
  cases msg with
  | modify failed cmd =>
    simp only [handle, recvOfExpQueueModify] at hstep
    split at hstep
    next =>
      cases hstep
      exact h
    next =>
      split at hstep
      next =>
        cases hstep
        exact h
      next p hp =>
        have hcons : p.Consistent := h _ p (Option.filter_eq_some_iff.1 hp).1
        split at hstep
        next i hi =>
          -- the queue exists
          split at hstep
          next => cases hstep
          next =>
            split at hstep
            next =>
              cases hstep
              exact h
            next =>
              cases hstep
              exact h.update (hcons.changeQueue i cmd) _
        next hnew =>
          -- it is created
          split at hstep
          next =>
            cases hstep
            exact h
          next p' hadd =>
            obtain ⟨i, hfree, rfl⟩ := Option.map_eq_some_iff.1 hadd
            split at hstep
            next => cases hstep
            next =>
              split at hstep
              next => cases hstep
              next =>
                cases hstep
                exact h.update (hcons.newQueue hfree hnew) _
  | delete cmd =>
    simp only [handle, recvOfExpQueueDelete] at hstep
    split at hstep
    next => cases hstep
    next p hp =>
      split at hstep
      next =>
        split at hstep
        next i hi =>
          cases hstep
          exact h.update ((h _ p hp).portDeleteQueue i) _
        next =>
          cases hstep
          exact h
      next =>
        cases hstep
        exact h

/-- A port without queues, as `new_port` leaves it. -/
def Fresh (p : QueuePort) : Prop := p.queueList = [] ∧ ∀ i, p.queues i = .zero

/-- It is consistent. -/
theorem Fresh.consistent (h : p.Fresh) : p.Consistent := by
  obtain ⟨hlist, hslots⟩ := h
  refine ⟨fun i => ?_, ?_, ?_, ?_, ?_⟩
  · rw [hlist, hslots]
    exact iff_of_false List.not_mem_nil Bool.false_ne_true
  · rw [hlist]
    exact List.nodup_nil
  all_goals
    rw [hlist]
    intro i hi
    cases hi

/-- There are fewer queues than slots. -/
theorem Consistent.length_le (h : p.Consistent) : p.queueList.length ≤ p.numQueues - 1 := by
  have hsub : p.queueList.map Fin.val ⊆ List.range' 1 (p.numQueues - 1) := by
    intro n hn
    obtain ⟨i, hi, rfl⟩ := List.mem_map.1 hn
    obtain ⟨hpos, hlt⟩ := h.index_lt i hi
    exact List.mem_range'_1.2 ⟨hpos, by omega⟩
  have hnodup : (p.queueList.map Fin.val).Nodup := h.nodup.map Fin.val_injective
  have hlen := (hnodup.subperm hsub).length_le
  rwa [List.length_map, List.length_range'] at hlen

/-- In every run of messages about queues, the list of a port consists of its occupied slots, each
of them once, with different queue ids and different class ids from 1 to the last index, and there
are fewer of them than slots. -/
theorem queues_consistent (hstart : ∀ n p, ports n = some p → p.Fresh)
    (hrun : Transition.Reachable Step ports ports') {n : BitVec 16} (hp : ports' n = some p) :
    (p.queueList.Nodup ∧ ∀ i, i ∈ p.queueList ↔ (p.queues i).port = true) ∧
      (p.queueList.map fun i => (p.queues i).queueId).Nodup ∧
      (p.queueList.map fun i => (p.queues i).classId).Nodup ∧
      (∀ i ∈ p.queueList, 1 ≤ (p.queues i).classId.toNat ∧
        (p.queues i).classId.toNat ≤ p.numQueues - 1) ∧
      p.queueList.length ≤ p.numQueues - 1 := by
  have hall : AllConsistent ports' := hrun.invariant AllConsistent
    (fun n p hp => (hstart n p hp).consistent) fun s _ s' hs _ hstep => hs.step hstep
  have h := hall n p hp
  refine ⟨⟨h.nodup, h.mem_queueList⟩, ?_, ?_, fun i hi => ?_, h.length_le⟩
  · exact h.nodup.map_on fun i hi j hj heq => h.queueId_inj i hi j hj heq
  · refine h.nodup.map_on fun i hi j hj heq => Fin.val_injective ?_
    rw [← h.classId_eq i hi, ← h.classId_eq j hj, heq]
  · obtain ⟨hpos, hlt⟩ := h.index_lt i hi
    rw [h.classId_eq i hi]
    omega

/-- A port with eight slots. -/
def eightSlots : QueuePort where
  used := true
  netdev := true
  numQueues := netdevMaxQueues
  queues := fun _ => .zero
  queueList := []
  numQueues_le := le_rfl

/-- A queue that is created gets the first class id. -/
theorem queues_consistent_created :
    ∃ ports p, Transition.Reachable Step (fun _ => some eightSlots) ports ∧ ports 3 = some p ∧
      (p.queueList.map fun i => (p.queues i).classId) = [1] ∧
      p.queueList.length ≤ p.numQueues - 1 := by
  have hstart : ∀ n p, (fun _ : BitVec 16 => some eightSlots) n = some p → p.Fresh := by
    intro n p hp
    cases hp
    exact ⟨rfl, fun _ => rfl⟩
  have hstep : Step (fun _ => some eightSlots) (.modify false ⟨3, 70, 24, 1, 9⟩) _ := rfl
  have hp : Function.update (fun _ : BitVec 16 => some eightSlots) 3
      (some (eightSlots.newQueue 1 ⟨3, 70, 24, 1, 9⟩)) 3 = some _ := Function.update_self ..
  obtain ⟨-, -, -, -, hlength⟩ := queues_consistent hstart (.step .refl hstep) hp
  exact ⟨_, _, .step .refl hstep, hp, rfl, hlength⟩

/-! ### Ports without slots -/

/-- The port is the one that is shown with its list only. -/
structure Represents (p : QueuePort) (sp : SwPort) : Prop where
  /-- Both are in use, or not. -/
  used : sp.used = p.used
  /-- Both have a network device, or not. -/
  netdev : sp.netdev = p.netdev
  /-- There are as many slots. -/
  numQueues : sp.numQueues = p.numQueues
  /-- The queues are those in the slots of the list. -/
  queueList : sp.queueList = p.queueList.map fun i => (p.queues i).toSwQueue

variable {sp : SwPort}

/-- The queue with an id is in the slot that is found for it. -/
theorem Represents.lookupQueue (h : p.Represents sp) (queueId : BitVec 32) :
    sp.lookupQueue queueId = (p.dpLookupQueue queueId).map fun i => (p.queues i).toSwQueue := by
  rw [SwPort.lookupQueue, h.queueList, List.find?_map]
  rfl

theorem range'_eq_filter {n : ℕ} (hle : n ≤ netdevMaxQueues) :
    List.range' 1 (n - 1) = ((List.finRange netdevMaxQueues).filter fun i =>
      0 < i.val && i.val < n).map Fin.val := by
  interval_cases n <;> decide

/-- The first class id without a queue is the index of the first free slot. -/
theorem Represents.freeQueueNo (h : p.Represents sp) (hcons : p.Consistent) :
    sp.freeQueueNo = p.freeSlot.map Fin.val := by
  rw [SwPort.freeQueueNo, h.numQueues, range'_eq_filter p.numQueues_le, List.find?_map,
    List.find?_filter, freeSlot]
  refine congrArg (Option.map Fin.val) (List.find?_congr fun i _ => ?_)
  have hfree : (sp.queueList.all fun q => q.classId.toNat != i.val) = !(p.queues i).port := by
    rw [Bool.eq_iff_iff, List.all_eq_true, h.queueList, Bool.not_eq_true', ← Bool.not_eq_true,
      ← hcons.mem_queueList]
    constructor
    · intro hall hi
      have hne := hall _ (List.mem_map_of_mem hi)
      rw [hcons.classId_eq i hi] at hne
      simp at hne
    · intro hi q hq
      obtain ⟨j, hj, rfl⟩ := List.mem_map.1 hq
      rw [hcons.classId_eq j hj, bne_iff_ne]
      exact fun heq => hi (Fin.val_injective heq ▸ hj)
  rw [Function.comp_apply, hfree]
  simp only [Bool.decide_and, Bool.decide_eq_true, Bool.and_assoc]

/-- A slot of the list is not the free one. -/
theorem Represents.newQueue (h : p.Represents sp) (hcons : p.Consistent) {i : Fin netdevMaxQueues}
    (hfree : p.freeSlot = some i) (cmd : QueueCommand) (hno : sp.freeQueueNo = some i.val) :
    (p.newQueue i cmd).Represents (sp.newQueue i.val hno cmd.queueId cmd.property cmd.rate) := by
  refine ⟨h.used, h.netdev, h.numQueues, ?_⟩
  have hport := (freeSlot_eq_some hfree).2.2
  have hold : ∀ j ∈ p.queueList, (p.newQueue i cmd).queues j = p.queues j := by
    intro j hj
    have hne : j ≠ i := by
      rintro rfl
      rw [hcons.mem_queueList, hport] at hj
      cases hj
    exact Function.update_of_ne hne _ _
  show sp.queueList ++ [_] = (p.queueList ++ [i]).map _
  rw [h.queueList, List.map_append, List.map_singleton]
  refine congrArg₂ (· ++ ·) (List.map_congr_left fun j hj => by rw [hold j hj]) ?_
  show [_] = [(Function.update p.queues i _ i).toSwQueue]
  rw [Function.update_self]

theorem dpLookupQueue_newQueue (i : Fin netdevMaxQueues) (cmd : QueueCommand) :
    (p.newQueue i cmd).dpLookupQueue cmd.queueId ≠ none := by
  intro hnone
  refine dpLookupQueue_eq_none.1 hnone i (List.mem_append_right _ List.mem_cons_self) ?_
  show (Function.update p.queues i _ i).queueId = cmd.queueId
  rw [Function.update_self]

/-! ### Modifications -/

/-- A modification that is about a port: the message is accepted, and the port is in use. -/
structure Accepts (ports : Ports) (cmd : QueueCommand) (p : QueuePort) : Prop where
  /-- The length of the queue. -/
  len : cmd.len = 24
  /-- Its property. -/
  property : cmd.property = ofpqtMinRate
  /-- The port. -/
  port : (ports cmd.port).filter QueuePort.used = some p

variable {cmd : QueueCommand} {i : Fin netdevMaxQueues}

theorem Accepts.consistent (h : Accepts ports cmd p) (hall : AllConsistent ports) : p.Consistent :=
  hall _ p (Option.filter_eq_some_iff.1 h.port).1

/-- A message that is accepted is about the queue of a port in use. -/
theorem Accepts.handle_eq (h : Accepts ports cmd p) (failed : Bool) :
    handle ports (.modify failed cmd) =
      match p.dpLookupQueue cmd.queueId with
      | some i =>
          if !p.netdev then .error .nullPointer
          else if failed then .ok ports
          else .ok (Function.update ports cmd.port (some (p.changeQueue i cmd)))
      | none =>
          match p.portAddQueue cmd with
          | none => .ok ports
          | some p =>
              match p.dpLookupQueue cmd.queueId with
              | none => .error .nullPointer
              | some _ =>
                  if !p.netdev then .error .nullPointer
                  else .ok (Function.update ports cmd.port (some p)) := by
  have haccepted : ¬ (cmd.len ≠ 24 ∨ cmd.property ≠ ofpqtMinRate) := fun hor =>
    hor.elim (fun hne => hne h.len) fun hne => hne h.property
  rw [handle, recvOfExpQueueModify, if_neg haccepted, h.port]

theorem handle_modify_of_unused (hport : (ports cmd.port).filter QueuePort.used = none)
    (failed : Bool) : handle ports (.modify failed cmd) = .ok ports := by
  rw [handle, recvOfExpQueueModify, hport]
  exact ite_self _

theorem handle_modify_of_found (h : Accepts ports cmd p) (hi : p.dpLookupQueue cmd.queueId = some i)
    (failed : Bool) :
    handle ports (.modify failed cmd) =
      if !p.netdev then .error .nullPointer
      else if failed then .ok ports
      else .ok (Function.update ports cmd.port (some (p.changeQueue i cmd))) := by
  rw [h.handle_eq, hi]

/-- The queue is not there, and no slot is free. -/
theorem handle_modify_of_full (h : Accepts ports cmd p) (hnew : p.dpLookupQueue cmd.queueId = none)
    (hfull : p.freeSlot = none) (failed : Bool) :
    handle ports (.modify failed cmd) = .ok ports := by
  rw [h.handle_eq, hnew, portAddQueue, hfull]
  rfl

/-- The queue is not there, and gets the first free slot. -/
theorem handle_modify_of_free (h : Accepts ports cmd p) (hnew : p.dpLookupQueue cmd.queueId = none)
    (hfree : p.freeSlot = some i) (failed : Bool) :
    handle ports (.modify failed cmd) =
      if !p.netdev then .error .nullPointer
      else .ok (Function.update ports cmd.port (some (p.newQueue i cmd))) := by
  obtain ⟨j, hj⟩ := Option.ne_none_iff_exists'.1 (dpLookupQueue_newQueue (p := p) i cmd)
  rw [h.handle_eq, hnew, portAddQueue, hfree, Option.map_some]
  dsimp only
  rw [hj]
  rfl

theorem Consistent.classId_inj (h : p.Consistent) {i j : Fin netdevMaxQueues} (hi : i ∈ p.queueList)
    (hj : j ∈ p.queueList) (heq : (p.queues i).classId = (p.queues j).classId) : i = j := by
  apply Fin.val_injective
  rw [← h.classId_eq i hi, ← h.classId_eq j hj, heq]

/-- New values for a queue. -/
theorem Represents.changeQueue (h : p.Represents sp) (hcons : p.Consistent)
    {i : Fin netdevMaxQueues} (hi : i ∈ p.queueList) (cmd : QueueCommand) :
    (p.changeQueue i cmd).Represents
      (sp.changeQueue (p.queues i).classId cmd.property cmd.rate) := by
  refine ⟨h.used, h.netdev, h.numQueues, ?_⟩
  show sp.queueList.map _ = p.queueList.map _
  rw [h.queueList, List.map_map]
  refine List.map_congr_left fun j hj => ?_
  rw [Function.comp_apply]
  by_cases heq : j = i
  · subst heq
    rw [if_pos rfl]
    show _ = (Function.update p.queues j _ j).toSwQueue
    rw [Function.update_self]
  · rw [if_neg fun hid => heq (hcons.classId_inj hj hi hid)]
    show _ = (Function.update p.queues i _ j).toSwQueue
    rw [Function.update_of_ne heq]

/-- A deleted queue. -/
theorem Represents.portDeleteQueue (h : p.Represents sp) (hcons : p.Consistent)
    {i : Fin netdevMaxQueues} (hi : i ∈ p.queueList) :
    (p.portDeleteQueue i).Represents (sp.portDeleteQueue (p.queues i).toSwQueue) := by
  refine ⟨h.used, h.netdev, h.numQueues, ?_⟩
  show sp.queueList.erase _ = (p.queueList.erase i).map _
  have hqueues : (sp.queueList).Nodup := List.Nodup.of_map _ sp.classIds_nodup
  rw [hqueues.erase_eq_filter, hcons.nodup.erase_eq_filter, h.queueList, List.filter_map]
  have hfilter : p.queueList.filter ((fun q => q != (p.queues i).toSwQueue) ∘
      fun j => (p.queues j).toSwQueue) = p.queueList.filter fun j => j != i := by
    refine List.filter_congr fun j hj => ?_
    rw [Function.comp_apply, Bool.eq_iff_iff, bne_iff_ne, bne_iff_ne, not_iff_not]
    exact ⟨fun heq => hcons.classId_inj hj hi (congrArg SwQueue.classId heq),
      fun heq => by rw [heq]⟩
  rw [hfilter]
  refine List.map_congr_left fun j hj => ?_
  have hne : j ≠ i := by simpa using (List.mem_filter.1 hj).2
  show _ = (Function.update p.queues i .zero j).toSwQueue
  rw [Function.update_of_ne hne]

/-- The ports are those of a switch. -/
def RepresentsAll (ports : Ports) (sw : Switch) : Prop :=
  ∀ n, Option.Rel Represents (ports n) (sw.dpLookupPort n)

/-- The same port of both changes. -/
theorem RepresentsAll.update {sw : Switch} (h : RepresentsAll ports sw) {n : BitVec 16}
    {old : SwPort} (hold : sw.dpLookupPort n = some old) (hp : p.Represents sp) :
    RepresentsAll (Function.update ports n (some p)) (sw.modifyPort n fun _ => sp) := by
  intro m
  rw [Switch.dpLookupPort_modifyPort]
  by_cases heq : m = n
  · subst heq
    rw [Function.update_self, if_pos rfl, hold]
    exact .some hp
  · rw [Function.update_of_ne heq, if_neg heq]
    exact h m

/-- What an optional port with its list only says about one with slots. -/
theorem exists_of_rel_some {o : Option QueuePort} (h : Option.Rel Represents o (some sp)) :
    ∃ p, o = some p ∧ p.Represents sp := by
  cases h with
  | some hp => exact ⟨_, rfl, hp⟩

theorem eq_none_of_rel_none {o : Option QueuePort} (h : Option.Rel Represents o none) :
    o = none := by
  cases h
  rfl

/-- A port that is found is there with its slots. -/
theorem RepresentsAll.exists_port {sw : Switch} (h : RepresentsAll ports sw) {n : BitVec 16}
    (hsp : sw.dpLookupPort n = some sp) : ∃ p, ports n = some p ∧ p.Represents sp :=
  exists_of_rel_some (hsp ▸ h n)

/-- So is a port that is looked up for a modification. -/
theorem RepresentsAll.portInUse {sw : Switch} (h : RepresentsAll ports sw) (n : BitVec 16) :
    Option.Rel Represents ((ports n).filter QueuePort.used) (OfAgent.portInUse sw n) := by
  have hrel := h n
  unfold OfAgent.portInUse
  cases hsp : sw.dpLookupPort n with
  | none =>
    rw [hsp] at hrel
    rw [eq_none_of_rel_none hrel]
    exact .none
  | some sp =>
    obtain ⟨p, hp, hrep⟩ := h.exists_port hsp
    rw [hp, Option.filter_some, Option.filter_some, hrep.used]
    split
    · exact .some hrep
    · exact .none

end QueuePort

section Handlers

open Monitored QueuePort

variable {ports : QueuePort.Ports} {env : Surroundings} {sender : Sender} {oh : Memory}
    {ctl : Control}

/-- An error message changes nothing but what has been sent. -/
theorem meets_replyError {type code : BitVec 16} {Q : Control → Prop}
    (h : ∀ messages, Q { ctl with messages := messages }) :
    Meets (replyError sender type code oh) .any (fun _ => Q) ctl := by
  simp only [replyError, dpSendErrorMsg, meets_bind, meets_readLength, meets_putOpenflowXid,
    meets_readBytes, meets_sendOpenflowBuffer]
  exact ⟨trivial, fun _ => ⟨trivial, h _⟩, fun _ => trivial⟩

/-- The deletion of a queue is what it is on the array. -/
theorem represents_recvOfExpQueueDelete (hall : AllConsistent ports)
    (h : RepresentsAll ports ctl.toSwitch) :
    Meets (recvOfExpQueueDelete sender oh) .any
      (fun _ ctl' => ∃ ports', Step ports (.delete (.ofMemory oh)) ports' ∧
        RepresentsAll ports' ctl'.toSwitch) ctl := by
  simp only [recvOfExpQueueDelete, meets_bind, meets_read16, meets_read32, meets_get]
  refine ⟨trivial, trivial, ?_⟩
  cases hsp : ctl.dpLookupPort (oh.get16 16) with
  | none => exact (meets_fail _).2 trivial
  | some sp =>
    obtain ⟨p, hp, hrep⟩ := h.exists_port hsp
    have hcons := hall _ p hp
    -- what the handler does on the array
    have hdelete : ∀ ports', (if p.netdev then
        match p.dpLookupQueue (oh.get32 24) with
        | some i => .ok (Function.update ports (oh.get16 16) (some (p.portDeleteQueue i)))
        | none => .ok ports
      else .ok ports : Except ControlFault Ports) = .ok ports' →
        Step ports (.delete (.ofMemory oh)) ports' := by
      intro ports' hports
      change QueuePort.recvOfExpQueueDelete (.ofMemory oh) ports = .ok ports'
      unfold QueuePort.recvOfExpQueueDelete QueueCommand.ofMemory
      dsimp only
      rw [hp]
      exact hports
    simp only [hrep.netdev, hrep.lookupQueue]
    cases hnetdev : p.netdev with
    | false =>
      rw [if_neg Bool.false_ne_true]
      exact meets_replyError fun _ => ⟨ports, hdelete _ (by rw [hnetdev]; rfl), h⟩
    | true =>
      rw [if_pos rfl]
      cases hi : p.dpLookupQueue (oh.get32 24) with
      | none => exact meets_replyError fun _ => ⟨ports, hdelete _ (by rw [hnetdev, hi]; rfl), h⟩
      | some i =>
        refine (meets_modify _).2 ⟨_, hdelete _ (by rw [hnetdev, hi]; rfl), ?_⟩
        exact h.update hsp (hrep.portDeleteQueue hcons (dpLookupQueue_eq_some hi).1)

/-- The modification of a queue on the array, for some result of `netdev_change_class`. -/
def Modified (ports : QueuePort.Ports) (oh : Memory) (ctl' : Control) : Prop :=
  ∃ failed ports', Step ports (.modify failed (.ofMemory oh)) ports' ∧
    RepresentsAll ports' ctl'.toSwitch

theorem modified_same (failed : Bool) (h : RepresentsAll ports ctl.toSwitch)
    (hok : handle ports (.modify failed (.ofMemory oh)) = .ok ports) (messages : List OfpOutgoing) :
    Modified ports oh { ctl with messages := messages } :=
  ⟨failed, ports, hok, h⟩

section Accepted

variable {p : QueuePort} {sp : SwPort} {i : Fin netdevMaxQueues}

/-- A queue that is there gets new values, unless `netdev_change_class` fails. -/
theorem represents_modifyQueue (hall : AllConsistent ports) (h : RepresentsAll ports ctl.toSwitch)
    (hcmd : Accepts ports (.ofMemory oh) p) (hsp : ctl.dpLookupPort (oh.get16 16) = some sp)
    (hrep : p.Represents sp) (hi : p.dpLookupQueue (oh.get32 24) = some i) :
    Meets (modifyQueue env sender oh (oh.get16 16) (oh.get16 32) sp (p.queues i).toSwQueue) .any
      (fun _ => Modified ports oh) ctl := by
  have hhandle := fun failed => handle_modify_of_found hcmd hi failed
  simp only [modifyQueue, meets_bind, meets_read16, meets_ite, hrep.netdev, meets_fail]
  cases hnetdev : p.netdev with
  | false => exact ⟨trivial, fun _ => trivial, fun hne => absurd rfl hne⟩
  | true =>
    simp only [hnetdev, Bool.not_true, Bool.false_eq_true, if_false] at hhandle
    refine ⟨trivial, fun _ => trivial, fun _ => ⟨fun _ => meets_replyError ?_, fun _ => ?_⟩⟩
    · exact modified_same _ h (hhandle true)
    · refine (meets_modify _).2 ⟨false, _, hhandle false, ?_⟩
      exact h.update hsp
        (hrep.changeQueue (hcmd.consistent hall) (dpLookupQueue_eq_some hi).1 (.ofMemory oh))

/-- A queue that is not there is created, if there is a free slot. -/
theorem represents_createQueue (hall : AllConsistent ports) (h : RepresentsAll ports ctl.toSwitch)
    (hcmd : Accepts ports (.ofMemory oh) p) (hsp : ctl.dpLookupPort (oh.get16 16) = some sp)
    (hrep : p.Represents sp) (hnew : p.dpLookupQueue (oh.get32 24) = none) :
    Meets (createQueue env sender oh (oh.get16 16) (oh.get16 32) (oh.get32 24) sp) .any
      (fun _ => Modified ports oh) ctl := by
  have hcons := hcmd.consistent hall
  have hfree := hrep.freeQueueNo hcons
  unfold createQueue
  split
  next hno =>
    rw [hno] at hfree
    exact meets_replyError (modified_same _ h
      (handle_modify_of_full hcmd hnew (Option.map_eq_none_iff.1 hfree.symm) false))
  next queueNo hno =>
    rw [hno] at hfree
    obtain ⟨i, hslot, rfl⟩ := Option.map_eq_some_iff.1 hfree.symm
    have hhandle := handle_modify_of_free hcmd hnew hslot false
    simp only [setPort, meets_bind, meets_read16, meets_modify, meets_ite, meets_fail, hrep.netdev]
    cases hnetdev : p.netdev with
    | false => exact ⟨trivial, fun _ => trivial, fun hne => absurd rfl hne⟩
    | true =>
      rw [hnetdev] at hhandle
      -- the queue stays even if `netdev_setup_class` fails
      have hcreated : ∀ messages, Modified ports oh
          (Control.mk (ctl.toSwitch.modifyPort (oh.get16 16) fun _ =>
            sp.newQueue i.val hno (oh.get32 24) (oh.get16 32) (oh.get16 40))
              ctl.id ctl.dpDesc ctl.cbDump messages) := fun messages =>
        ⟨false, _, hhandle, h.update hsp (hrep.newQueue hcons hslot (.ofMemory oh) hno)⟩
      exact ⟨trivial, fun _ => trivial, fun _ => ⟨fun _ => meets_replyError hcreated,
        fun _ => (meets_pure _).2 (hcreated _)⟩⟩

end Accepted

/-- The modification of a queue is what it is on the array, for some result of
`netdev_change_class`. -/
theorem represents_recvOfExpQueueModify (hall : AllConsistent ports)
    (h : RepresentsAll ports ctl.toSwitch) :
    Meets (recvOfExpQueueModify env sender oh) .any
      (fun _ ctl' => ∃ failed ports', Step ports (.modify failed (.ofMemory oh)) ports' ∧
        RepresentsAll ports' ctl'.toSwitch) ctl := by
  simp only [recvOfExpQueueModify, meets_bind, meets_read16, meets_ite]
  refine ⟨trivial, fun hlen => meets_replyError (modified_same false h ?_),
    fun hlen => ⟨trivial,
      fun hproperty => meets_replyError (modified_same false h ?_),
      fun hproperty => ?_⟩⟩
  · exact if_pos (.inl hlen)
  · exact if_pos (.inr hproperty)
  rw [not_not] at hlen hproperty
  simp only [meets_read32, meets_get]
  refine ⟨trivial, trivial, ?_⟩
  -- a port is there exactly if the array has one in its place
  have hrel := h.portInUse (oh.get16 16)
  cases hsp : portInUse ctl.toSwitch (oh.get16 16) with
  | none =>
    rw [hsp] at hrel
    exact meets_replyError (modified_same _ h
      (handle_modify_of_unused (eq_none_of_rel_none hrel) false))
  | some sp =>
    rw [hsp] at hrel
    have hlookup : ctl.dpLookupPort (oh.get16 16) = some sp := (Option.filter_eq_some_iff.1 hsp).1
    obtain ⟨p, hport, hrep⟩ := exists_of_rel_some hrel
    have hcmd : Accepts ports (.ofMemory oh) p := ⟨hlen, hproperty, hport⟩
    simp only [hrep.lookupQueue]
    cases hi : p.dpLookupQueue (oh.get32 24) with
    | some i => exact represents_modifyQueue hall h hcmd hlookup hrep hi
    | none => exact represents_createQueue hall h hcmd hlookup hrep hi

end Handlers

end OfAgent
