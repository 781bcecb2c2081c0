import OfAgent.Packet.Boundaries

/-!
# The outputs of an action list

`execute_actions` puts every output off until it knows whether another action follows, so that the
last output gets the packet itself and only the others get copies.

* `traceActions`: the loop with numbers for its buffers; what it does with them is recorded.
* `sequentialCalls`: the plain meaning of a list. Every output action sends a copy at once.
* `executeActions_eq_runOps`: `execute_actions` hands exactly the buffers of the trace to the output
  function, whatever this one does.
* `executeActions_outputs`: the trace sends what the plain meaning sends, and gives away each buffer
  once.
-/

namespace OfAgent

/-! ### Buffers -/

/-- What `execute_actions` does with buffers. The caller's one has the number 0. -/
inductive BufferOp
  /-- `ofpbuf_clone` of the packet. -/
  | clone (id : ℕ)
  /-- A call of `do_output`, which takes the buffer over. -/
  | output (id : ℕ) (call : OutputCall)
  /-- `ofpbuf_delete`. -/
  | delete (id : ℕ)

namespace BufferOp

/-- The number of a new copy. -/
def cloned : BufferOp → Option ℕ
  | clone id => some id
  | output _ _ | delete _ => none

/-- The call of `do_output`. -/
def call : BufferOp → Option OutputCall
  | output _ call => some call
  | clone _ | delete _ => none

/-- The number of the buffer that is given away. -/
def consumed : BufferOp → Option ℕ
  | output id _ | delete id => some id
  | clone _ => none

/-- Every buffer is given away once. -/
structure Owned (ops : List BufferOp) : Prop where
  /-- The copies are new buffers. -/
  nodup : (ops.filterMap cloned).Nodup
  /-- Each of them is given away once. -/
  clone : ∀ id ∈ ops.filterMap cloned, (ops.filterMap consumed).count id = 1
  /-- It is given away after it has been made. The packet is given away last. -/
  order : ∀ pre op post id, ops = pre ++ op :: post → op.consumed = some id →
    (id ≠ 0 ∧ id ∈ pre.filterMap cloned) ∨ (id = 0 ∧ post = [])

end BufferOp

/-- What an output sends. -/
structure OutputContent where
  /-- The output port. -/
  outPort : BitVec 16
  /-- The queue of the output port. -/
  queueId : BitVec 32
  /-- How much of the packet to send to the controller. -/
  maxLen : BitVec 16
  /-- The packet. -/
  bytes : List Byte

/-- What a call of `do_output` sends. -/
def OutputCall.content (call : OutputCall) : OutputContent where
  outPort := call.outPort
  queueId := call.queueId
  maxLen := call.maxLen
  bytes := call.buffer.bytes

/-! ### The trace of the loop -/

section Trace

variable {σ τ : Type*} (inPort : BitVec 16)

/-- The call for the output that is left over from the action before. -/
def ExecState.pending (s : ExecState σ) (buffer : Ofpbuf) : Option OutputCall :=
  s.prevPort.map fun port => ⟨buffer, inPort, s.maxLen, port, s.prevQueue⟩

/-- The same variables with another state of the output function. -/
def ExecState.withWorld (s : ExecState σ) (world : τ) : ExecState τ where
  buffer := s.buffer
  key := s.key
  prevPort := s.prevPort
  prevQueue := s.prevQueue
  maxLen := s.maxLen
  world := world

/-- The output that is left over gets a copy. The state holds the number of copies so far. -/
def flushTrace (s : ExecState ℕ) : List BufferOp × ExecState ℕ :=
  match s.pending inPort s.buffer.clone with
  | none => ([], s)
  | some call =>
      ([.clone (s.world + 1), .output (s.world + 1) call],
        { s with prevPort := none, world := s.world + 1 })

/-- The end of the list: the last output gets the packet itself. -/
def finishTrace (s : ExecState ℕ) : List BufferOp :=
  match s.pending inPort s.buffer with
  | none => [.delete 0]
  | some call => [.output 0 call]

/-- What `execute_actions` does with buffers from a state on, and the fault that ends it. -/
def traceActions : List (List Byte) → ExecState ℕ → List BufferOp × Option ForwardFault
  | [], s => (finishTrace inPort s, none)
  | a :: as, s =>
      match executeAction a (flushTrace inPort s).2 with
      | .error e => ((flushTrace inPort s).1, some e)
      | .ok s' =>
          let rest := traceActions as s'
          ((flushTrace inPort s).1 ++ rest.1, rest.2)

/-- The calls of a trace, with the fault at the end. -/
def runOps (doOutput : OutputCall → σ → Except ForwardFault σ)
    (trace : List BufferOp × Option ForwardFault) (world : σ) : Except ForwardFault σ :=
  match (trace.1.filterMap BufferOp.call).foldlM (fun w call => doOutput call w) world with
  | .error e => .error e
  | .ok world =>
      match trace.2 with
      | some e => .error e
      | none => .ok world

/-! ### The plain meaning -/

/-- The calls that a list of actions stands for. Every output action sends a copy of the packet as
it is at that point. -/
def sequentialCalls :
    List (List Byte) → Ofpbuf → SwFlowKey → List OutputCall × Option ForwardFault
  | [], _, _ => ([], none)
  | a :: as, buffer, key =>
      if actionType a = ofpatOutput then
        let rest := sequentialCalls as buffer key
        (⟨buffer.clone, inPort, be16 a 6, be16 a 4, 0⟩ :: rest.1, rest.2)
      else if actionType a = ofpatEnqueue then
        let rest := sequentialCalls as buffer key
        (⟨buffer.clone, inPort, 0, be16 a 4, be32 a 12⟩ :: rest.1, rest.2)
      else
        match executeOther a (.init buffer key ()) with
        | .error e => ([], some e)
        | .ok s => sequentialCalls as s.buffer s.key

/-! ### Single actions -/

variable {inPort}

/-- An action that is no output reads and changes the packet and its key only. -/
theorem executeOther_eq (a : List Byte) (s : ExecState σ) :
    executeOther a s = (executeOther a (.init s.buffer s.key ())).map fun s' =>
      { s with buffer := s'.buffer, key := s'.key } := by
  unfold executeOther
  cases ofActions[(actionType a).toNat]? with
  | none =>
    simp only
    split
    · split <;> rfl
    · rfl
  | some act =>
    simp only
    split
    next => rfl
    next =>
      cases ofActionsExecute.getD (actionType a).toNat none with
      | none => rfl
      | some execute =>
        simp only [ExecState.init]
        cases execute s.buffer s.key a <;> rfl

/-- An action does not depend on the state of the output function. -/
theorem executeAction_withWorld (a : List Byte) (s : ExecState σ) (w : τ) :
    executeAction a (s.withWorld w) = (executeAction a s).map fun s' => s'.withWorld w := by
  unfold executeAction
  split
  next => split <;> rfl
  next =>
    split
    next => split <;> rfl
    next =>
      rw [executeOther_eq a (s.withWorld w), executeOther_eq a s]
      change (executeOther a (.init s.buffer s.key ())).map _ = _
      cases executeOther a (.init s.buffer s.key ()) <;> rfl

/-! ### The trace is what the loop does -/

variable {doOutput : OutputCall → σ → Except ForwardFault σ}

/-- The rest of a trace behind some calls. -/
theorem runOps_append (ops : List BufferOp) (rest : List BufferOp × Option ForwardFault)
    (world : σ) :
    runOps doOutput (ops ++ rest.1, rest.2) world =
      match (ops.filterMap BufferOp.call).foldlM (fun w call => doOutput call w) world with
      | .error e => .error e
      | .ok world => runOps doOutput rest world := by
  unfold runOps
  rw [List.filterMap_append, List.foldlM_append]
  cases (ops.filterMap BufferOp.call).foldlM (fun w call => doOutput call w) world <;> rfl

/-- The output that is left over is handed to the output function with a copy. -/
theorem flushOutput_withWorld (s : ExecState ℕ) (w : σ) :
    flushOutput doOutput inPort (s.withWorld w) =
      match ((flushTrace inPort s).1.filterMap BufferOp.call).foldlM
        (fun w call => doOutput call w) w with
      | .error e => .error e
      | .ok w => .ok ((flushTrace inPort s).2.withWorld w) := by
  unfold flushOutput flushTrace ExecState.pending
  cases hport : s.prevPort with
  | none => simp [ExecState.withWorld, hport, pure, Except.pure]
  | some port =>
    simp only [ExecState.withWorld, hport, Option.map_some, List.filterMap_cons, BufferOp.call,
      List.filterMap_nil, List.foldlM_cons, List.foldlM_nil, bind, Except.bind, pure, Except.pure]
    cases doOutput ⟨s.buffer.clone, inPort, s.maxLen, port, s.prevQueue⟩ w <;> rfl

/-- So is the last one, with the packet itself. -/
theorem finishActions_withWorld (s : ExecState ℕ) (w : σ) :
    finishActions doOutput inPort (s.withWorld w) =
      runOps doOutput (finishTrace inPort s, none) w := by
  unfold finishActions finishTrace ExecState.pending runOps
  cases hport : s.prevPort with
  | none => simp only [ExecState.withWorld, hport, Option.map_none]; rfl
  | some port =>
    simp only [ExecState.withWorld, hport, Option.map_some, List.filterMap_cons, BufferOp.call,
      List.filterMap_nil, List.foldlM_cons, List.foldlM_nil, bind, Except.bind, pure, Except.pure]
    cases doOutput ⟨s.buffer, inPort, s.maxLen, port, s.prevQueue⟩ w <;> rfl

/-- The rest of the loop does what its trace says. -/
theorem finish_foldlM_eq_runOps (as : List (List Byte)) (s : ExecState ℕ) (w : σ) :
    (match as.foldlM (fun s a => executeTurn doOutput inPort 0 a s) (s.withWorld w) with
      | .error e => Except.error e
      | .ok s => finishActions doOutput inPort s) =
        runOps doOutput (traceActions inPort as s) w := by
  induction as generalizing s w with
  | nil => exact finishActions_withWorld s w
  | cons a as ih =>
    rw [List.foldlM_cons, traceActions, executeTurn, flushOutput_withWorld]
    cases hact : executeAction a (flushTrace inPort s).2 with
    | error e =>
      simp only [runOps]
      cases ((flushTrace inPort s).1.filterMap BufferOp.call).foldlM
          (fun w call => doOutput call w) w with
      | error e' => rfl
      | ok w' => simp only [executeAction_withWorld, hact, Except.map, bind, Except.bind]
    | ok s' =>
      simp only
      rw [runOps_append]
      cases ((flushTrace inPort s).1.filterMap BufferOp.call).foldlM
          (fun w call => doOutput call w) w with
      | error e' => rfl
      | ok w' =>
        simp only [executeAction_withWorld, hact, Except.map, bind, Except.bind]
        exact ih s' w'

/-! ### The trace sends what the list stands for -/

variable {key : SwFlowKey}

/-- What a trace sends. -/
def contents (trace : List BufferOp × Option ForwardFault) : List OutputContent :=
  (trace.1.filterMap BufferOp.call).map OutputCall.content

/-- A copy sends what the packet itself would. -/
theorem content_pending_clone (s : ExecState σ) :
    (s.pending inPort s.buffer.clone).map OutputCall.content =
      (s.pending inPort s.buffer).map OutputCall.content := by
  unfold ExecState.pending
  cases s.prevPort with
  | none => rfl
  | some port =>
    simp only [Option.map_some, OutputCall.content, Ofpbuf.bytes_clone]

/-- What is flushed is the output that is left over. -/
theorem contents_flushTrace (s : ExecState ℕ) :
    ((flushTrace inPort s).1.filterMap BufferOp.call) =
      (s.pending inPort s.buffer.clone).toList := by
  unfold flushTrace
  cases s.pending inPort s.buffer.clone <;> rfl

/-- After that nothing is left over, and the packet and its key are the same. -/
theorem flushTrace_snd (s : ExecState ℕ) :
    (flushTrace inPort s).2.prevPort = none ∧ (flushTrace inPort s).2.buffer = s.buffer ∧
      (flushTrace inPort s).2.key = s.key := by
  unfold flushTrace ExecState.pending
  cases hport : s.prevPort with
  | none => exact ⟨hport, rfl, rfl⟩
  | some port => exact ⟨rfl, rfl, rfl⟩

/-- What follows an accepted action sends what the plain meaning of the action and of what follows
sends. -/
theorem contents_sequentialCalls_cons {a : List Byte} (h : AcceptedAction key a)
    (as : List (List Byte)) {s : ExecState ℕ} (hnone : s.prevPort = none) :
    match executeAction a s with
    | .error e => sequentialCalls inPort (a :: as) s.buffer s.key = ([], some e)
    | .ok s' =>
        ((sequentialCalls inPort (a :: as) s.buffer s.key).1.map OutputCall.content,
          (sequentialCalls inPort (a :: as) s.buffer s.key).2) =
        (((s'.pending inPort s'.buffer).toList ++
          (sequentialCalls inPort as s'.buffer s'.key).1).map OutputCall.content,
            (sequentialCalls inPort as s'.buffer s'.key).2) := by
  have h8 : 8 ≤ a.length := h.header_le
  rw [executeAction, sequentialCalls]
  by_cases hout : actionType a = ofpatOutput
  · simp only [if_pos hout, if_neg (Nat.not_lt.2 h8)]
    simp [ExecState.pending, OutputCall.content]
  by_cases henq : actionType a = ofpatEnqueue
  · have h16 := h.length_of_enqueue henq
    simp only [if_neg hout, if_pos henq, if_neg (Nat.not_lt.2 h16)]
    simp [ExecState.pending, OutputCall.content]
  simp only [if_neg hout, if_neg henq]
  rw [executeOther_eq]
  cases executeOther a (.init s.buffer s.key ()) with
  | error e => rfl
  | ok s' => simp [Except.map, ExecState.pending, hnone]

/-- The trace sends the output that is left over, and then what the plain meaning of the list
sends. -/
theorem contents_traceActions {as : List (List Byte)} (has : ∀ a ∈ as, AcceptedAction key a)
    (s : ExecState ℕ) :
    contents (traceActions inPort as s) = ((s.pending inPort s.buffer).toList ++
        (sequentialCalls inPort as s.buffer s.key).1).map OutputCall.content ∧
      (traceActions inPort as s).2 = (sequentialCalls inPort as s.buffer s.key).2 := by
  induction as generalizing s with
  | nil =>
    refine ⟨?_, rfl⟩
    rw [traceActions, contents, finishTrace, sequentialCalls]
    cases s.pending inPort s.buffer <;> rfl
  | cons a as ih =>
    -- a copy that is handed over has the contents of the packet
    have hflush : ((flushTrace inPort s).1.filterMap BufferOp.call).map OutputCall.content =
        (s.pending inPort s.buffer).toList.map OutputCall.content := by
      rw [contents_flushTrace, ← Option.toList_map, ← Option.toList_map, content_pending_clone]
    obtain ⟨hnone, hbuffer, hkey⟩ := @flushTrace_snd inPort s
    have hcons := @contents_sequentialCalls_cons inPort key a (has a List.mem_cons_self) as _ hnone
    rw [traceActions]
    cases hact : executeAction a (flushTrace inPort s).2 with
    | error e =>
      rw [hact, hbuffer, hkey] at hcons
      simp only [contents, hcons, hflush, List.append_nil, and_self]
    | ok s' =>
      rw [hact, hbuffer, hkey] at hcons
      obtain ⟨hcalls, hfault⟩ := Prod.mk.inj hcons
      obtain ⟨ih₁, ih₂⟩ := ih (fun x hx => has x (List.mem_cons_of_mem _ hx)) s'
      refine ⟨?_, ih₂.trans hfault.symm⟩
      rw [List.map_append, hcalls, ← ih₁, ← hflush]
      simp only [contents, List.filterMap_append, List.map_append]

/-! ### The buffers of a trace -/

/-- Copies that are handed over at once, behind the first `n`. -/
def outputCopies : ℕ → List OutputCall → List BufferOp
  | _, [] => []
  | n, call :: calls => .clone (n + 1) :: .output (n + 1) call :: outputCopies (n + 1) calls

/-- A trace hands over copies, and then the packet itself unless a fault has ended it. -/
theorem exists_outputCopies (as : List (List Byte)) (s : ExecState ℕ) :
    ∃ calls last, (traceActions inPort as s).1 = outputCopies s.world calls ++ last ∧
      ((traceActions inPort as s).2 = none → last = [.delete 0] ∨ ∃ call, last = [.output 0 call]) ∧
      ((traceActions inPort as s).2 ≠ none → last = []) := by
  induction as generalizing s with
  | nil =>
    rw [traceActions, finishTrace]
    cases s.pending inPort s.buffer with
    | none => exact ⟨[], _, rfl, fun _ => .inl rfl, fun h => absurd rfl h⟩
    | some call => exact ⟨[], _, rfl, fun _ => .inr ⟨call, rfl⟩, fun h => absurd rfl h⟩
  | cons a as ih =>
    -- an output that is pending in front of the action hands over a copy
    have hflush : ∃ flushed, (flushTrace inPort s).1 = outputCopies s.world flushed ∧
        ∀ calls, outputCopies s.world (flushed ++ calls) =
          (flushTrace inPort s).1 ++ outputCopies (flushTrace inPort s).2.world calls := by
      unfold flushTrace
      cases s.pending inPort s.buffer.clone with
      | none => exact ⟨[], rfl, fun _ => rfl⟩
      | some call => exact ⟨[call], rfl, fun _ => rfl⟩
    obtain ⟨flushed, heq, happend⟩ := hflush
    rw [traceActions]
    cases hact : executeAction a (flushTrace inPort s).2 with
    | error e =>
      refine ⟨flushed, [], ?_, fun h => ?_, fun _ => rfl⟩
      · rw [List.append_nil, heq]
      · cases h
    | ok s' =>
      obtain ⟨calls, last, hops, hend, hfault⟩ := ih s'
      refine ⟨flushed ++ calls, last, ?_, hend, hfault⟩
      simp only
      rw [hops, happend, List.append_assoc, executeAction_world hact]

/-- The copies are numbered from `n` on. -/
theorem cloned_outputCopies (n : ℕ) (calls : List OutputCall) :
    (outputCopies n calls).filterMap BufferOp.cloned = List.range' (n + 1) calls.length := by
  induction calls generalizing n with
  | nil => rfl
  | cons call calls ih =>
    simp only [outputCopies, List.filterMap_cons, BufferOp.cloned, ih, List.length_cons,
      List.range'_succ]

theorem consumed_outputCopies (n : ℕ) (calls : List OutputCall) :
    (outputCopies n calls).filterMap BufferOp.consumed = List.range' (n + 1) calls.length := by
  induction calls generalizing n with
  | nil => rfl
  | cons call calls ih =>
    simp only [outputCopies, List.filterMap_cons, BufferOp.consumed, ih, List.length_cons,
      List.range'_succ]

/-- A copy is made before it is handed over. -/
theorem mem_cloned_of_outputCopies {n id : ℕ} {calls : List OutputCall} {pre post : List BufferOp}
    {op : BufferOp} (h : outputCopies n calls = pre ++ op :: post) (hid : op.consumed = some id) :
    id ≠ 0 ∧ id ∈ pre.filterMap BufferOp.cloned := by
  induction calls generalizing n pre with
  | nil => exact absurd h.symm (List.append_ne_nil_of_right_ne_nil _ (List.cons_ne_nil _ _))
  | cons call calls ih =>
    match pre with
    | [] =>
      obtain ⟨rfl, -⟩ := List.cons.inj h
      cases hid
    | [first] =>
      obtain ⟨rfl, hrest⟩ := List.cons.inj h
      obtain ⟨rfl, -⟩ := List.cons.inj hrest
      cases hid
      exact ⟨Nat.succ_ne_zero n, List.mem_cons_self⟩
    | first :: second :: pre =>
      obtain ⟨hne, hmem⟩ := ih (List.cons.inj (List.cons.inj h).2).2
      obtain ⟨op', hop', hcloned⟩ := List.mem_filterMap.1 hmem
      exact ⟨hne, List.mem_filterMap.2
        ⟨op', List.mem_cons_of_mem _ (List.mem_cons_of_mem _ hop'), hcloned⟩⟩

/-- Copies that are handed over, and the packet itself at the end. -/
theorem owned_outputCopies (calls : List OutputCall) {last : List BufferOp}
    (hlast : last = [] ∨ last = [.delete 0] ∨ ∃ call, last = [.output 0 call]) :
    BufferOp.Owned (outputCopies 0 calls ++ last) := by
  have hcloned : last.filterMap BufferOp.cloned = [] := by
    rcases hlast with rfl | rfl | ⟨call, rfl⟩ <;> rfl
  have hconsumed : ∀ id ∈ last.filterMap BufferOp.consumed, id = 0 := by
    rcases hlast with rfl | rfl | ⟨call, rfl⟩
    · exact fun id hid => absurd hid List.not_mem_nil
    · exact fun id hid => List.mem_singleton.1 hid
    · exact fun id hid => List.mem_singleton.1 hid
  refine ⟨?_, fun id hid => ?_, fun pre op post id heq hop => ?_⟩
  · rw [List.filterMap_append, hcloned, List.append_nil, cloned_outputCopies]
    exact List.nodup_range'
  · rw [List.filterMap_append, hcloned, List.append_nil, cloned_outputCopies] at hid
    have hpos : id ≠ 0 := by
      have := (List.mem_range'_1.1 hid).1
      omega
    rw [List.filterMap_append, List.count_append, consumed_outputCopies,
      List.count_eq_one_of_mem List.nodup_range' hid,
      List.count_eq_zero_of_not_mem fun h => hpos (hconsumed id h)]
  · -- the operation is one on a copy or the last one
    have hend : ∀ mid, last = mid ++ op :: post → id = 0 ∧ post = [] := fun mid hmid => by
      have hmem : op ∈ last := hmid ▸ List.mem_append_right _ List.mem_cons_self
      refine ⟨hconsumed id (List.mem_filterMap.2 ⟨op, hmem, hop⟩), ?_⟩
      have hlen : last.length ≤ 1 := by rcases hlast with rfl | rfl | ⟨call, rfl⟩ <;> simp
      rw [hmid, List.length_append, List.length_cons] at hlen
      exact List.length_eq_zero_iff.1 (by omega)
    rcases List.append_eq_append_iff.1 heq with ⟨mid, -, hmid⟩ | ⟨mid, hmid, hpost⟩
    · exact .inr (hend mid hmid)
    · cases mid with
      | nil => exact .inr (hend [] hpost.symm)
      | cons op' mid =>
        obtain ⟨rfl, -⟩ := List.cons.inj hpost
        exact .inl (mem_cloned_of_outputCopies hmid hop)

/-- A trace gives away every buffer once; the packet itself is given away unless a fault has ended
the trace. -/
theorem owned_traceActions (as : List (List Byte)) {s : ExecState ℕ} (hs : s.world = 0) :
    BufferOp.Owned (traceActions inPort as s).1 ∧
      ((traceActions inPort as s).2 = none →
        ((traceActions inPort as s).1.filterMap BufferOp.consumed).count 0 = 1) := by
  obtain ⟨calls, last, hops, hend, hfault⟩ := @exists_outputCopies inPort as s
  rw [hs] at hops
  rw [hops]
  refine ⟨owned_outputCopies calls ?_, fun hnone => ?_⟩
  · by_cases hnone : (traceActions inPort as s).2 = none
    · exact .inr (hend hnone)
    · exact .inl (hfault hnone)
  · have hzero : 0 ∉ List.range' (0 + 1) calls.length := fun h => by
      have := (List.mem_range'_1.1 h).1
      omega
    rw [List.filterMap_append, List.count_append, consumed_outputCopies,
      List.count_eq_zero_of_not_mem hzero]
    rcases hend hnone with rfl | ⟨call, rfl⟩ <;> rfl

/-- On an accepted list `execute_actions` does what the trace of the list says. -/
theorem executeActions_eq_runOps {as : List (List Byte)} (has : ∀ a ∈ as, AcceptedAction key a)
    (doOutput : OutputCall → σ → Except ForwardFault σ) (buffer : Ofpbuf) (key' : SwFlowKey)
    (world : σ) :
    executeActions doOutput buffer key' as.flatten world =
      runOps doOutput (traceActions key'.flow.inPort as (.init buffer key' 0)) world := by
  rw [executeActions_flatten has]
  exact finish_foldlM_eq_runOps as (.init buffer key' 0) world

/-- Only an assertion of the packet buffer ends the trace of an accepted list. -/
theorem fault_traceActions {as : List (List Byte)} (has : ∀ a ∈ as, AcceptedAction key a)
    (buffer : Ofpbuf) (key' : SwFlowKey) {e : ForwardFault}
    (h : (traceActions key'.flow.inPort as (.init buffer key' 0)).2 = some e) :
    ∃ fault, e = .ofpbuf fault := by
  by_contra hne
  -- an output function that never fails leaves only the fault of the trace
  let out : OutputCall → Unit → Except ForwardFault Unit := fun _ w => .ok w
  have hfold : ∀ calls : List OutputCall, calls.foldlM (fun w call => out call w) () = .ok () := by
    intro calls
    induction calls with
    | nil => rfl
    | cons call calls ih => exact ih
  have hlist := @executeList_ne_error _ out key key' as has e (fun fault heq => hne ⟨fault, heq⟩)
    (fun _ _ h => by cases h) buffer ()
  rw [← executeActions_flatten has, executeActions_eq_runOps has, runOps, hfold, h] at hlist
  exact hlist rfl

/-- For every packet and every accepted list, `execute_actions` hands to the output function the
buffers of its trace, whatever the output function does. The trace sends what the plain meaning of
the list sends, one output after the other, and ends as it does. Every copy is given away once, and
so is the packet itself, at the end, unless an assertion ends the program. -/
theorem executeActions_outputs {actions : List Byte}
    (h : validateActions key actions = actValidationOk) (buffer : Ofpbuf) (key' : SwFlowKey) :
    let trace := traceActions key'.flow.inPort (actionItems actions) (.init buffer key' 0)
    let meaning := sequentialCalls key'.flow.inPort (actionItems actions) buffer key'
    (∀ (doOutput : OutputCall → σ → Except ForwardFault σ) (world : σ),
      executeActions doOutput buffer key' actions world = runOps doOutput trace world) ∧
    contents trace = meaning.1.map OutputCall.content ∧ trace.2 = meaning.2 ∧
    (∀ e, trace.2 = some e → ∃ fault, e = .ofpbuf fault) ∧
    BufferOp.Owned trace.1 ∧
    (trace.2 = none → (trace.1.filterMap BufferOp.consumed).count 0 = 1) := by
  obtain ⟨hflat, has⟩ := actionItems_spec h
  obtain ⟨hcontents, hfault⟩ :=
    @contents_traceActions key'.flow.inPort key _ has (.init buffer key' 0)
  obtain ⟨howned, hpacket⟩ := @owned_traceActions key'.flow.inPort (actionItems actions)
    (.init buffer key' 0) rfl
  refine ⟨fun doOutput world => ?_, hcontents, hfault, fun e he => ?_, howned, hpacket⟩
  · have hrun := executeActions_eq_runOps has doOutput buffer key' world
    rw [hflat] at hrun
    exact hrun
  · exact fault_traceActions has buffer key' he

/-- Of two outputs the first one gets a copy of the packet, which is given away at the end. -/
theorem executeActions_outputs_two :
    (let key := flowExtractMatch { OfpMatch.zero with wildcards := ofpfwAll }
    let trace := traceActions key.flow.inPort (actionItems (outputAction ++ outputAction))
      (.init (.cloneData []) key 0)
    (contents trace).length = 2 ∧ (trace.1.filterMap BufferOp.consumed).count 0 = 1) := by
  have htwo : ∀ a ∈ [outputAction, outputAction],
      AcceptedAction (flowExtractMatch { OfpMatch.zero with wildcards := ofpfwAll }) a := by
    intro a ha
    rcases List.mem_cons.1 ha with rfl | ha
    · exact acceptedAction_outputAction
    · exact List.mem_singleton.1 ha ▸ acceptedAction_outputAction
  have h := @executeActions_outputs Unit _ (outputAction ++ outputAction)
    (validateActions_eq_ok_iff.2 ⟨[outputAction, outputAction], by simp, htwo⟩) (.cloneData [])
    (flowExtractMatch { OfpMatch.zero with wildcards := ofpfwAll })
  exact ⟨by rw [h.2.1]; rfl, h.2.2.2.2.2 rfl⟩

end Trace

end OfAgent
