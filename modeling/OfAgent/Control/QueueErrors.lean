import OfAgent.Control.QueueSlots

/-!
# Errors about queues

`recv_of_exp_queue_modify` and `recv_of_exp_queue_delete` once more, on the array and the list of
queues and now with the error that they answer with.

* `QueueRequest`, `QueuePort.answer`: a message and what becomes of the ports and of the sender.
  `answer_ports`: without the answers this is `QueuePort.handle`.
* `QueuePort.Restores`: whenever the answer is an error, all ports are as before the message.
* `QueuePort.SetupRefused`: the message makes a new queue whose class the network device does not
  set up.
* `QueuePort.restores_iff`: this is the one case in which the ports are not as before.
-/

namespace OfAgent

/-- A message about a queue. -/
inductive QueueRequest
  /-- `OFP_EXT_QUEUE_MODIFY`. -/
  | modify (cmd : QueueCommand)
  /-- `OFP_EXT_QUEUE_DELETE`. -/
  | delete (cmd : QueueCommand)
  deriving DecidableEq, Repr

namespace QueuePort

/-- `recv_of_exp_queue_modify`: the ports, and the code of the error that is answered. -/
def modifyAnswer (env : Surroundings) (cmd : QueueCommand) (ports : Ports) :
    Except ControlFault (Ports × Option (BitVec 16)) :=
  if cmd.len ≠ 24 ∨ cmd.property ≠ ofpqtMinRate then .ok (ports, some ofqErrDiscipline)
  else
    match (ports cmd.port).filter QueuePort.used with
    | none => .ok (ports, some ofpqofcBadPort)
    | some p =>
        match p.dpLookupQueue cmd.queueId with
        | some i =>
            -- queue exists
            if !p.netdev then .error .nullPointer
            else if env.changeClass cmd.port (p.queues i).classId cmd.rate then
              .ok (ports, some ofpqofcEperm)
            else .ok (Function.update ports cmd.port (some (p.changeQueue i cmd)), none)
        | none =>
            -- create new queue
            match p.portAddQueue cmd with
            | none => .ok (ports, some ofpqofcEperm)
            | some p =>
                match p.dpLookupQueue cmd.queueId with
                | none => .error .nullPointer
                | some i =>
                    if !p.netdev then .error .nullPointer
                    else .ok (Function.update ports cmd.port (some p),
                      if env.setupClass cmd.port (p.queues i).classId cmd.rate then
                        some ofpqofcBadQueue
                      else none)

/-- `recv_of_exp_queue_delete`: the ports, and the code of the error that is answered. The result of
`netdev_delete_class` is not used. -/
def deleteAnswer (cmd : QueueCommand) (ports : Ports) :
    Except ControlFault (Ports × Option (BitVec 16)) :=
  match ports cmd.port with
  | none => .error .nullPointer
  | some p =>
      if p.netdev then
        match p.dpLookupQueue cmd.queueId with
        | some i => .ok (Function.update ports cmd.port (some (p.portDeleteQueue i)), none)
        | none => .ok (ports, some ofpqofcBadPort)
      else .ok (ports, some ofpqofcBadPort)

/-- The handling of a message. -/
def answer (env : Surroundings) (ports : Ports) :
    QueueRequest → Except ControlFault (Ports × Option (BitVec 16))
  | .modify cmd => modifyAnswer env cmd ports
  | .delete cmd => deleteAnswer cmd ports

/-- The class of the queue that a modification is about is not changed. -/
def changeFails (env : Surroundings) (ports : Ports) (cmd : QueueCommand) : Bool :=
  match (ports cmd.port).filter QueuePort.used with
  | none => false
  | some p =>
    (p.dpLookupQueue cmd.queueId).any fun i =>
      env.changeClass cmd.port (p.queues i).classId cmd.rate

/-- The message as `handle` takes it. -/
def messageOf (env : Surroundings) (ports : Ports) : QueueRequest → QueueMessage
  | .modify cmd => .modify (changeFails env ports cmd) cmd
  | .delete cmd => .delete cmd

variable {env : Surroundings} {ports : Ports}

/-- Without the answers the handling of a message is the one of its slots. -/
theorem answer_ports (env : Surroundings) (ports : Ports) (request : QueueRequest) :
    (answer env ports request).map Prod.fst = handle ports (messageOf env ports request) := by
  cases request with
  | modify cmd =>
    -- both run through the same tests, one with the answer and one with the result of the device
    rw [answer, modifyAnswer, messageOf, handle, recvOfExpQueueModify, changeFails]
    split
    next => rfl
    next =>
      cases (ports cmd.port).filter QueuePort.used with
      | none => rfl
      | some p =>
        rcases Option.eq_none_or_eq_some (p.dpLookupQueue cmd.queueId) with hi | ⟨i, hi⟩
        · simp only [hi]
          cases p.portAddQueue cmd with
          | none => rfl
          | some p' =>
            dsimp only
            cases p'.dpLookupQueue cmd.queueId with
            | none => rfl
            | some i =>
              dsimp only
              cases p'.netdev with
              | false => rfl
              | true => rfl
        · simp only [hi, Option.any_some]
          cases p.netdev with
          | false => rfl
          | true =>
            cases env.changeClass cmd.port (p.queues i).classId cmd.rate with
            | false => rfl
            | true => rfl
  | delete cmd =>
    rw [answer, deleteAnswer, messageOf, handle, recvOfExpQueueDelete]
    cases ports cmd.port with
    | none => rfl
    | some p =>
      dsimp only
      cases p.netdev with
      | false => rfl
      | true =>
        cases p.dpLookupQueue cmd.queueId with
        | none => rfl
        | some i => rfl

/-! ### What an error leaves behind -/

/-- Whenever the answer is an error, all ports are as before the message. -/
def Restores (env : Surroundings) (ports : Ports) (request : QueueRequest) : Prop :=
  ∀ ports' code, answer env ports request = .ok (ports', some code) → ports' = ports

/-- The message is accepted, is about a queue that the port does not have, and finds a free slot for
it, and the network device does not set up the class of this slot. -/
def SetupRefused (env : Surroundings) (ports : Ports) : QueueRequest → Prop
  | .modify cmd => cmd.len = 24 ∧ cmd.property = ofpqtMinRate ∧
      ∃ p, (ports cmd.port).filter QueuePort.used = some p ∧ p.netdev = true ∧
        p.dpLookupQueue cmd.queueId = none ∧
        ∃ i, p.freeSlot = some i ∧ env.setupClass cmd.port (BitVec.ofNat 16 i) cmd.rate = true
  | .delete _ => False

variable {p : QueuePort} {cmd : QueueCommand}

/-- The queue that is found behind its creation is the new one. -/
theorem dpLookupQueue_newQueue_eq (hnone : p.dpLookupQueue cmd.queueId = none)
    (i : Fin netdevMaxQueues) :
    (p.newQueue i cmd).dpLookupQueue cmd.queueId = some i := by
  obtain ⟨j, hj⟩ := Option.ne_none_iff_exists'.1 (dpLookupQueue_newQueue (p := p) i cmd)
  obtain ⟨hmem, hid⟩ := dpLookupQueue_eq_some hj
  by_cases heq : j = i
  · rw [hj, heq]
  · -- any other queue has been there before, with another id
    have hold : (p.newQueue i cmd).queues j = p.queues j := Function.update_of_ne heq _ _
    rw [hold] at hid
    rcases List.mem_append.1 hmem with hmem | hmem
    · exact absurd hid (dpLookupQueue_eq_none.1 hnone j hmem)
    · exact absurd (List.mem_singleton.1 hmem) heq

theorem classId_newQueue (i : Fin netdevMaxQueues) :
    ((p.newQueue i cmd).queues i).classId = BitVec.ofNat 16 i := by
  show (Function.update p.queues i _ i).classId = _
  rw [Function.update_self]

theorem newQueue_ne (i : Fin netdevMaxQueues) : p.newQueue i cmd ≠ p := by
  intro heq
  have hlist : p.queueList ++ [i] = p.queueList := congrArg QueuePort.queueList heq
  exact List.cons_ne_nil i [] (List.append_right_eq_self.1 hlist)

/-- A deletion that is answered with an error leaves all ports alone. -/
theorem restores_delete (cmd : QueueCommand) : Restores env ports (.delete cmd) := by
  intro ports' code hanswer
  rw [answer, deleteAnswer] at hanswer
  split at hanswer
  next => cases hanswer
  next p hp =>
    split at hanswer
    next =>
      split at hanswer
      next => cases hanswer
      next =>
        cases hanswer
        rfl
    next =>
      cases hanswer
      rfl

/-- A modification that is answered with an error leaves all ports alone, unless the class of a new
queue is not set up. -/
theorem restores_modify (h : ¬ SetupRefused env ports (.modify cmd)) :
    Restores env ports (.modify cmd) := by
  intro ports' code hanswer
  rw [answer, modifyAnswer] at hanswer
  split at hanswer
  next =>
    cases hanswer
    rfl
  next haccepted =>
    obtain ⟨hlen, hproperty⟩ := not_or.1 haccepted
    split at hanswer
    next =>
      cases hanswer
      rfl
    next p hp =>
      split at hanswer
      next i hi =>
        split at hanswer
        next => cases hanswer
        next =>
          split at hanswer
          next =>
            cases hanswer
            rfl
          next => cases hanswer
      next hnew =>
        rw [portAddQueue] at hanswer
        cases hfree : p.freeSlot with
        | none =>
          rw [hfree] at hanswer
          cases hanswer
          rfl
        | some i =>
          rw [hfree, Option.map_some] at hanswer
          dsimp only at hanswer
          rw [dpLookupQueue_newQueue_eq hnew] at hanswer
          dsimp only at hanswer
          split at hanswer
          next => cases hanswer
          next hnetdev =>
            split at hanswer
            next hsetup =>
              -- the queue has been created, and its class is refused
              have hnetdev' : p.netdev = true := by
                change ¬ (!p.netdev) = true at hnetdev
                simpa using hnetdev
              rw [classId_newQueue] at hsetup
              exact absurd
                ⟨not_not.1 hlen, not_not.1 hproperty, p, hp, hnetdev', hnew, i, hfree, hsetup⟩ h
            next => cases hanswer

/-- If the class of a new queue is not set up, the queue stays. -/
theorem not_restores_modify (h : SetupRefused env ports (.modify cmd)) :
    ¬ Restores env ports (.modify cmd) := by
  obtain ⟨hlen, hproperty, p, hp, hnetdev, hnew, i, hfree, hsetup⟩ := h
  have hanswer : answer env ports (.modify cmd) =
      .ok (Function.update ports cmd.port (some (p.newQueue i cmd)), some ofpqofcBadQueue) := by
    have haccepted : ¬ (cmd.len ≠ 24 ∨ cmd.property ≠ ofpqtMinRate) :=
      not_or.2 ⟨not_not.2 hlen, not_not.2 hproperty⟩
    have hnetdev' : (p.newQueue i cmd).netdev = true := hnetdev
    rw [answer, modifyAnswer, if_neg haccepted, hp]
    dsimp only
    rw [hnew, portAddQueue, hfree, Option.map_some]
    dsimp only
    rw [dpLookupQueue_newQueue_eq hnew]
    dsimp only
    rw [hnetdev', classId_newQueue, hsetup]
    rfl
  intro hrestores
  have hsame := congrFun (hrestores _ _ hanswer) cmd.port
  rw [Function.update_self, (Option.filter_eq_some_iff.1 hp).1] at hsame
  exact newQueue_ne i (Option.some.inj hsame)

/-- An error leaves all ports as before the message, except when the network device does not set up
the class of a new queue: this queue stays in its slot and in the list. -/
theorem restores_iff (env : Surroundings) (ports : Ports) (request : QueueRequest) :
    Restores env ports request ↔ ¬ SetupRefused env ports request := by
  cases request with
  | modify cmd => exact ⟨fun hr hs => not_restores_modify hs hr, restores_modify⟩
  | delete cmd => exact iff_of_true (restores_delete cmd) id

/-- Surroundings in which no class is set up. -/
def Surroundings.refusing : Surroundings :=
  { Surroundings.calm with setupClass := fun _ _ _ => true }

/-- A new queue that is answered with an error stays. -/
theorem not_restores_refusing :
    ¬ Restores Surroundings.refusing (fun _ => some eightSlots) (.modify ⟨3, 70, 24, 1, 9⟩) :=
  not_restores_modify ⟨rfl, rfl, eightSlots, rfl, rfl, rfl, 1, rfl, rfl⟩

end QueuePort

end OfAgent
