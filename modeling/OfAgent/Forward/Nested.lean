import OfAgent.Forward.Headroom
import Mathlib.Logic.Relation

/-!
# Nested runs through the tables

Executing a list of actions sends packets to the tables, whose entries have lists of their own. All
the lists that are executed in this way, on the packets that they get, decide whether the assertion
of `ofpbuf_push_uninit` is kept.

* `SameRouting`: two switches find the same actions for every packet. Forwarding keeps that.
* `Job`, `asks`: a list that is executed on a packet, and the packets that it sends to the tables.
* `AllRoom`: there is room for the pushes of a list and of all the lists that it leads to.
* `Decides`: an execution that ends keeps the assertion exactly then; `Job.decides` for a list,
  `runFlowThroughTables_decides` for a packet in the tables.
* `headroom_iff`: so does the execution of an accepted list in a datapath; `hasRoom_received_iff`:
  on a received packet only the outputs to the controller matter.
-/

namespace OfAgent

open Switch

/-! ### Lookups after counting -/

/-- Counting a packet leaves the actions that a hash table has for a key as they are. -/
theorem SwTableHash.lookup_updateLookup_actions (th : SwTableHash) (key key' : SwFlowKey)
    {g : SwFlow → SwFlow} (hkey : ∀ f, (g f).key = f.key) (hacts : ∀ f, (g f).actions = f.actions) :
    ((th.updateLookup key g).lookup key').map SwFlow.actions =
      (th.lookup key').map SwFlow.actions := by
  unfold updateLookup
  cases hl : th.lookup key with
  | none => rfl
  | some f =>
    have hbucket : th.buckets (th.findBucket key.flow) = some f := by
      rw [lookup, Option.filter_eq_some_iff] at hl
      exact hl.1
    unfold lookup
    simp only [setBucket_buckets]
    by_cases heq : th.findBucket key'.flow = th.findBucket key.flow
    · -- the entry in the bucket has the same key and the same actions
      have hsame : (th.setBucket (th.findBucket key.flow) (some (g f))).findBucket key'.flow =
          th.findBucket key.flow := heq
      rw [hsame, if_pos rfl, heq, hbucket, Option.filter_some, Option.filter_some, hkey]
      split
      · exact congrArg some (hacts f)
      · rfl
    · have hother : (th.setBucket (th.findBucket key.flow) (some (g f))).findBucket key'.flow ≠
          th.findBucket key.flow := heq
      rw [if_neg hother]
      rfl

/-- Counting a packet leaves the actions that a linear table has for a key as they are. -/
theorem SwTableLinear.lookup_updateLookup_actions (tl : SwTableLinear) (key key' : SwFlowKey)
    {g : SwFlow → SwFlow} (hkey : ∀ f, (g f).key = f.key) (hacts : ∀ f, (g f).actions = f.actions) :
    ((tl.updateLookup key g).lookup key').map SwFlow.actions =
      (tl.lookup key').map SwFlow.actions := by
  unfold updateLookup
  cases tl.lookup key with
  | none => rfl
  | some f =>
    have hmatch : (fun flow : SwFlow => flowMatches1wild key' flow.key) ∘
        (fun flow => if flow.serial = f.serial then g flow else flow) =
        fun flow => flowMatches1wild key' flow.key := by
      funext flow
      simp only [Function.comp_apply]
      split
      · rw [hkey]
      · rfl
    change (List.find? _ (tl.flows.map fun flow => if flow.serial = f.serial then g flow else
      flow)).map SwFlow.actions = _
    rw [List.find?_map, hmatch, Option.map_map]
    refine congrArg (fun h => Option.map h (tl.lookup key')) ?_
    funext flow
    simp only [Function.comp_apply]
    split
    · exact hacts flow
    · rfl

/-- Counting a packet leaves the actions that the tables have for a key as they are. -/
theorem SwChain.lookup_updateLookup_actions (ch : SwChain) (key key' : SwFlowKey)
    {g : SwFlow → SwFlow} (hkey : ∀ f, (g f).key = f.key) (hacts : ∀ f, (g f).actions = f.actions) :
    ((ch.updateLookup key g).lookup key' false).map SwFlow.actions =
      (ch.lookup key' false).map SwFlow.actions := by
  have h0 := ch.hash2.subtable0.lookup_updateLookup_actions key key' hkey hacts
  have h1 := ch.hash2.subtable1.lookup_updateLookup_actions key key' hkey hacts
  have h2 := ch.linear.lookup_updateLookup_actions key key' hkey hacts
  unfold updateLookup
  split
  next =>
    unfold SwTableHash2.updateLookup
    split
    · simp only [lookup, SwTableHash2.lookup, Bool.false_eq_true, if_false, Option.map_or, h0]
    · simp only [lookup, SwTableHash2.lookup, Bool.false_eq_true, if_false, Option.map_or, h1]
  next => simp only [lookup, Bool.false_eq_true, if_false, Option.map_or, h2]

/-! ### Switches that route alike -/

/-- Two switches find the same actions for every packet, and have the same ports and the same
handling of fragments. -/
structure SameRouting (sw sw' : Switch) : Prop where
  /-- The actions for a key. -/
  actions : ∀ key, (sw'.chain.lookup key false).map SwFlow.actions =
    (sw.chain.lookup key false).map SwFlow.actions
  /-- The configuration. -/
  flags : sw'.flags = sw.flags
  /-- The ports. -/
  ports : sw'.ports = sw.ports
  /-- The local port. -/
  localPort : sw'.localPort = sw.localPort

namespace SameRouting

variable {sw sw' sw'' : Switch} {now : BitVec 64} {buffer : Ofpbuf} {inPort : BitVec 16}

theorem refl (sw : Switch) : SameRouting sw sw := ⟨fun _ => rfl, rfl, rfl, rfl⟩

theorem trans (h : SameRouting sw sw') (h' : SameRouting sw' sw'') : SameRouting sw sw'' where
  actions key := (h'.actions key).trans (h.actions key)
  flags := h'.flags.trans h.flags
  ports := h'.ports.trans h.ports
  localPort := h'.localPort.trans h.localPort

theorem dpLookupPort (h : SameRouting sw sw') (portNo : BitVec 16) :
    sw'.dpLookupPort portNo = sw.dpLookupPort portNo := by
  unfold Switch.dpLookupPort
  rw [h.ports, h.localPort]

/-- Sending a packet to the controller changes no route. -/
theorem dpOutputControl {maxLen : ℕ} {reason : OfpPacketInReason}
    (h : sw.dpOutputControl now buffer inPort maxLen reason = .ok sw') : SameRouting sw sw' := by
  unfold Switch.dpOutputControl at h
  simp only at h
  split at h
  next => cases h
  next => exact Except.ok.inj h ▸ ⟨fun _ => rfl, rfl, rfl, rfl⟩

theorem flowUsed (now : BitVec 64) (flow : Flow) (buffer : Ofpbuf) :
    SameRouting sw (sw.flowUsed now flow buffer) :=
  ⟨fun key => sw.chain.lookup_updateLookup_actions _ key (SwFlow.flowUsed_key now buffer.size)
    fun _ => rfl, rfl, rfl, rfl⟩

theorem kept (sw : Switch) : Kept (SameRouting sw) fun _ _ => True where
  action _ _ := trivial
  ready _ _ := trivial
  clone _ _ := trivial
  transmit hP _ := hP.trans ⟨fun _ => rfl, rfl, rfl, rfl⟩
  control hP _ hout := hP.trans (dpOutputControl hout)
  used hP _ := hP.trans (flowUsed _ _ _)

end SameRouting

/-! ### Lists and what they lead to -/

/-- What an action does to a packet and its key. Where it fails, they stay. -/
def editAction (a : List Byte) (packet : Ofpbuf × SwFlowKey) : Ofpbuf × SwFlowKey :=
  match executeAction a (.init packet.1 packet.2 ()) with
  | .error _ => packet
  | .ok s => (s.buffer, s.key)

/-- The packets that the rest of a list sends to the tables, when an output to the tables may be
left over. All but the last are copies. -/
def asks : Bool → Ofpbuf × SwFlowKey → List (List Byte) → List Ofpbuf
  | pending, packet, [] => if pending then [packet.1] else []
  | pending, packet, a :: as =>
      (if pending then [packet.1.clone] else []) ++
        asks (actionPort a == some ofppTable) (editAction a packet) as

/-- A list of actions that is executed on a packet from a port. -/
structure Job where
  /-- The packet. -/
  packet : Ofpbuf
  /-- The number of the port. -/
  inPort : BitVec 16
  /-- The actions. -/
  actions : List Byte

namespace Job

variable (j : Job)

/-- The packet with its key. -/
def start : Ofpbuf × SwFlowKey :=
  ((flowExtract j.packet j.inPort).2.2, packetKey (packetFlow j.packet j.inPort))

/-- There is room for the pushes of the list. -/
def HasRoom : Prop := RoomFor (j.start.1.tagRoom j.start.2) (actionItems j.actions)

/-- The packets that the list sends to the tables. -/
def asked : List Ofpbuf := asks false j.start (actionItems j.actions)

end Job

/-- What `run_flow_through_tables` executes on a packet. -/
def Switch.job (sw : Switch) (packet : Ofpbuf) (p : Option SwPort) : Option Job :=
  let inPort := (p.map SwPort.portNo).getD ofppNone
  let (fragment, flow, _) := flowExtract packet inPort
  if fragment && sw.flags &&& ofpcFragMask == ofpcFragDrop then none
  else if p.any fun p => p.refuses flow.dlDst then none
  else (sw.chain.lookup (packetKey flow) false).map fun f => ⟨packet, inPort, f.actions⟩

/-- These are the actions of an entry. -/
theorem Switch.exists_lookup_of_job {sw : Switch} {packet : Ofpbuf} {p : Option SwPort} {j : Job}
    (h : sw.job packet p = some j) :
    ∃ key f, sw.chain.lookup key false = some f ∧ f.actions = j.actions := by
  unfold Switch.job at h
  simp only at h
  split at h
  · cases h
  · split at h
    · cases h
    · obtain ⟨f, hf, rfl⟩ := Option.map_eq_some_iff.1 h
      exact ⟨_, f, hf, rfl⟩

/-- The execution of a list sends a packet to the tables, which execute another list on it. -/
inductive LeadsTo (sw : Switch) (j : Job) : Job → Prop
  | table {packet : Ofpbuf} {j' : Job} : packet ∈ j.asked →
      sw.job packet (sw.dpLookupPort j.inPort) = some j' → LeadsTo sw j j'

/-- There is room for the pushes of a list, and of all the lists that it leads to. -/
def AllRoom (sw : Switch) (j : Job) : Prop :=
  ∀ j', Relation.ReflTransGen (LeadsTo sw) j j' → j'.HasRoom

/-- There is room for the pushes of all the lists that a packet in the tables leads to. -/
def Switch.TablesRoom (sw : Switch) (packet : Ofpbuf) (p : Option SwPort) : Prop :=
  ∀ j, sw.job packet p = some j → AllRoom sw j

/-- The lists that a list leads to are those that it leads to at once, and the ones that those lead
to. -/
theorem allRoom_iff {sw : Switch} {j : Job} :
    AllRoom sw j ↔ j.HasRoom ∧ ∀ packet ∈ j.asked, sw.TablesRoom packet
      (sw.dpLookupPort j.inPort) := by
  constructor
  · intro h
    refine ⟨h j .refl, fun packet hp j' hj' j'' hrun => h j'' ?_⟩
    exact .head (.table hp hj') hrun
  · rintro ⟨hroom, hasked⟩ j'' hrun
    rcases hrun.cases_head with rfl | ⟨j', ⟨hp, hj'⟩, hrest⟩
    · exact hroom
    · exact hasked _ hp j' hj' j'' hrest

/-- An accepted action does to the packet and its key the same in every state. -/
theorem editAction_eq {σ : Type*} {key : SwFlowKey} {a : List Byte} {s s' : ExecState σ}
    (ha : AcceptedAction key a) (h : executeAction a s = .ok s') :
    editAction a (s.buffer, s.key) = (s'.buffer, s'.key) := by
  cases hex : ofActionsExecute.getD (actionType a).toNat none with
  | none =>
    obtain ⟨_, _, _, -, heq⟩ := executeAction_of_output (s := s) ha hex
    obtain ⟨_, _, _, -, heq'⟩ := executeAction_of_output (s := .init s.buffer s.key ()) ha hex
    rw [heq] at h
    rw [editAction, heq', ← Except.ok.inj h]
    rfl
  | some execute =>
    obtain ⟨-, heq⟩ := executeAction_of_execute (s := s) ha hex
    obtain ⟨-, heq'⟩ := executeAction_of_execute (s := .init s.buffer s.key ()) ha hex
    have hinit : execute (ExecState.init s.buffer s.key ()).buffer
        (ExecState.init s.buffer s.key ()).key a = execute s.buffer s.key a := rfl
    rw [heq] at h
    rw [editAction, heq', hinit]
    cases hrun : execute s.buffer s.key a with
    | error e => simp [hrun] at h
    | ok packet =>
      rw [hrun] at h
      rw [← Except.ok.inj h]

/-! ### Executions decide -/

/-- What the result of forwarding says about the room for pushes: there was room when it is a
switch, which routes alike, and there was none when the assertion fails. -/
def Decides (sw : Switch) (room : Prop) : Except ForwardFault Switch → Prop
  | .ok sw' => SameRouting sw sw' ∧ room
  | .error e => e = .endless ∨ e = .ofpbuf .headroom ∧ ¬ room

theorem Decides.congr {sw : Switch} {room room' : Prop} {r : Except ForwardFault Switch}
    (h : Decides sw room r) (hiff : room ↔ room') : Decides sw room' r := by
  rwa [← propext hiff]

/-- There is room for an output of a packet: for the message to the controller, and for what the
tables do. -/
structure OutputRoom (sw : Switch) (buffer : Ofpbuf) (inPort outPort : BitVec 16) : Prop where
  /-- The message to the controller. -/
  control : outPort = ofppController → offsetofOfpPacketInData ≤ buffer.headroom
  /-- The tables. -/
  tables : outPort = ofppTable → sw.TablesRoom buffer (sw.dpLookupPort inPort)

section Decide

variable {sw : Switch} (now : BitVec 64) {runTables : TableRun}
  (htables : ∀ packet p w, SameRouting sw w →
    Decides sw (sw.TablesRoom packet p) ((runTables packet p w).map Prod.fst))

include htables

/-- An output decides whether there is room for it. -/
theorem doOutput_decides (call : OutputCall) {w : Switch} (hw : SameRouting sw w) :
    Decides sw (OutputRoom sw call.buffer call.inPort call.outPort)
      (w.doOutput runTables now call) := by
  obtain ⟨hroom, hnone⟩ :=
    dpOutputControl_iff now call.buffer call.inPort call.maxLen.toNat .action w
  by_cases hport : call.outPort = ofppController
  · -- the message to the controller
    have hne : call.outPort ≠ ofppTable := hport ▸ by decide
    unfold Switch.doOutput
    rw [if_neg (not_not.2 hport)]
    by_cases h : offsetofOfpPacketInData ≤ call.buffer.headroom
    · obtain ⟨w', hok⟩ := hroom h
      rw [hok]
      exact ⟨hw.trans (.dpOutputControl hok), fun _ => h, fun heq => absurd heq hne⟩
    · rw [hnone (Nat.lt_of_not_le h)]
      exact .inr ⟨rfl, fun hout => h (hout.control hport)⟩
  · by_cases htable : call.outPort = ofppTable
    · -- the tables
      have hne : call.outPort ≠ ofppInPort := htable ▸ by decide
      have hrun := htables call.buffer (sw.dpLookupPort call.inPort) w hw
      rw [← hw.dpLookupPort] at hrun
      unfold Switch.doOutput Switch.dpOutputPort
      rw [if_pos hport, if_neg hne, if_pos htable]
      refine hrun.congr ⟨fun h => ⟨fun heq => absurd heq hport, fun _ => ?_⟩, fun h => ?_⟩
      · rwa [← hw.dpLookupPort]
      · rw [hw.dpLookupPort]
        exact h.tables htable
    · -- every other port, where no fault is met
      obtain ⟨w', hok⟩ := doOutput_eq_ok now (fun _ _ sw => (sw, true)) call w hport
      rw [doOutput_eq_of_ne htable runTables (fun _ _ sw => .ok (sw, true)), hok]
      refine ⟨hw.trans ?_, fun heq => absurd heq hport, fun heq => absurd heq htable⟩
      exact (SameRouting.kept w).doOutput (fun _ _ _ _ _ _ hP hrun =>
        (Prod.mk.inj (Except.ok.inj hrun)).1 ▸ hP) (.refl w) (fun _ => trivial) hok

/-- The last output decides whether there is room for it. -/
theorem finishActions_decides (inPort : BitVec 16) {s : ExecState Switch}
    (hs : SameRouting sw s.world) :
    Decides sw (∀ port, s.prevPort = some port → OutputRoom sw s.buffer inPort port)
      (finishActions (doOutput runTables now) inPort s) := by
  unfold finishActions
  cases hp : s.prevPort with
  | none => exact ⟨hs, fun port h => by cases h⟩
  | some port =>
    refine (doOutput_decides now htables ⟨s.buffer, inPort, s.maxLen, port, s.prevQueue⟩ hs).congr
      ?_
    simp

/-- An output that is left over decides whether there is room for it, on a copy of the packet. -/
theorem flushOutput_decides (inPort : BitVec 16) {s : ExecState Switch}
    (hs : SameRouting sw s.world) :
    Decides sw (∀ port, s.prevPort = some port → OutputRoom sw s.buffer.clone inPort port)
        ((flushOutput (doOutput runTables now) inPort s).map ExecState.world) ∧
      ∀ s', flushOutput (doOutput runTables now) inPort s = .ok s' →
        s' = { s with prevPort := none, world := s'.world } := by
  unfold flushOutput
  cases hp : s.prevPort with
  | none =>
    refine ⟨⟨hs, fun port h => by cases h⟩, fun s' h => ?_⟩
    obtain ⟨buffer, key, prevPort, prevQueue, maxLen, world⟩ := s
    rw [← Except.ok.inj h]
    exact congrArg (fun port => ExecState.mk buffer key port prevQueue maxLen world) hp
  | some port =>
    have hout := (doOutput_decides now htables
      ⟨s.buffer.clone, inPort, s.maxLen, port, s.prevQueue⟩ hs).congr
      (by simp : _ ↔ ∀ port', some port = some port' → OutputRoom sw s.buffer.clone inPort port')
    simp only
    cases hrun : s.world.doOutput runTables now
        ⟨s.buffer.clone, inPort, s.maxLen, port, s.prevQueue⟩ with
    | error e =>
      rw [hrun] at hout
      exact ⟨hout, fun s' h => by cases h⟩
    | ok world =>
      rw [hrun] at hout
      refine ⟨hout, fun s' h => ?_⟩
      rw [← Except.ok.inj h]

/-- The rest of an execution decides whether there is room for its pushes, and for what the tables
do with the packets that it sends there. -/
theorem finishList_decides (inPort : BitVec 16) {key : SwFlowKey} {as : List (List Byte)}
    (has : ∀ a ∈ as, AcceptedAction key a) {s : ExecState Switch} (hf : s.buffer.Framed s.key)
    (hs : SameRouting sw s.world) :
    Decides sw
      ((s.prevPort = some ofppController →
          as = [] ∧ offsetofOfpPacketInData ≤ s.buffer.headroom) ∧
        RoomFor (s.buffer.tagRoom s.key) as ∧
        ∀ packet ∈ asks (s.prevPort == some ofppTable) (s.buffer, s.key) as,
          sw.TablesRoom packet (sw.dpLookupPort inPort))
      (finishList (doOutput runTables now) inPort as s) := by
  -- by induction on the actions that are left
  induction as generalizing s with
  | nil =>
    refine (finishActions_decides now htables inPort hs).congr ?_
    simp only [asks, RoomFor, true_and]
    constructor
    · intro h
      refine ⟨fun hp => (h _ hp).control rfl, fun packet hp => ?_⟩
      split at hp
      next htable =>
        rw [List.mem_singleton.1 hp]
        exact (h _ (beq_iff_eq.1 htable)).tables rfl
      next => cases hp
    · rintro ⟨hcontrol, htable⟩ port hp
      refine ⟨fun heq => hcontrol (heq ▸ hp), fun heq => htable _ ?_⟩
      rw [if_pos (beq_iff_eq.2 (heq ▸ hp))]
      exact List.mem_singleton_self _
  | cons a as ih =>
    have ha := has a List.mem_cons_self
    rw [finishList_cons, executeTurn]
    obtain ⟨hflush, hshape⟩ := flushOutput_decides now htables inPort hs
    cases hfl : flushOutput (doOutput runTables now) inPort s with
    | error e =>
      rw [hfl] at hflush
      refine hflush.imp_right fun hfail => ⟨hfail.1, ?_⟩
      rintro ⟨hlast, -, hasked⟩
      refine hfail.2 fun port hp => ⟨fun heq => ?_, fun heq => ?_⟩
      · cases (hlast (heq ▸ hp)).1
      · refine hasked _ (List.mem_append_left _ ?_)
        rw [if_pos (beq_iff_eq.2 (heq ▸ hp))]
        exact List.mem_singleton_self _
    | ok s₁ =>
      obtain ⟨world, rfl⟩ : ∃ world, s₁ = { s with prevPort := none, world } :=
        ⟨_, hshape s₁ hfl⟩
      rw [hfl] at hflush
      obtain ⟨hworld, hout⟩ := hflush
      have hcontrol : s.prevPort ≠ some ofppController := by
        intro hp
        have h18 := (hout _ hp).control rfl
        rw [Ofpbuf.headroom_clone] at h18
        exact absurd h18 (by decide)
      by_cases hroom : setsVlan a = true → (s.buffer.tagRoom s.key).tagged = false →
          vlanHeaderLen ≤ (s.buffer.tagRoom s.key).headroom
      · obtain ⟨s', hok, hf', htags, hport, hsame⟩ :=
          executeAction_framed (s := { s with prevPort := none, world }) ha hf hroom
        have hedit : editAction a (s.buffer, s.key) = (s'.buffer, s'.key) :=
          editAction_eq (s := { s with prevPort := none, world }) ha hok
        have hroom' : s'.buffer.headroom = ((s.buffer.tagRoom s.key).act a).headroom := by
          rw [← htags]
          rfl
        simp only [hok]
        refine (ih (fun x hx => has x (List.mem_cons_of_mem _ hx)) hf' (hsame ▸ hworld)).congr ?_
        rw [asks, roomFor_cons_iff ha hroom, hport, Option.or_none, hedit, htags, hroom']
        constructor
        · rintro ⟨hlast, hrest, hasked⟩
          refine ⟨fun hp => absurd hp hcontrol, ⟨hlast, hrest⟩, fun packet hp => ?_⟩
          rcases List.mem_append.1 hp with hp | hp
          · split at hp
            next htable =>
              rw [List.mem_singleton.1 hp]
              exact (hout _ (beq_iff_eq.1 htable)).tables rfl
            next => cases hp
          · exact hasked packet hp
        · rintro ⟨-, ⟨hlast, hrest⟩, hasked⟩
          exact ⟨hlast, hrest, fun packet hp => hasked packet (List.mem_append_right _ hp)⟩
      · have hno := hroom
        simp only [Classical.not_imp, Nat.not_le] at hno
        obtain ⟨hset, htag, hlt⟩ := hno
        have herr :=
          executeAction_no_room (s := { s with prevPort := none, world }) ha hset htag hlt
        simp only [herr]
        exact .inr ⟨rfl, fun h => hroom h.2.1.1⟩

/-- The execution of an accepted list decides whether there is room for it and all that it leads
to. -/
theorem Job.decides (j : Job) {key : SwFlowKey}
    (hval : validateActions key j.actions = actValidationOk) {w : Switch} (hw : SameRouting sw w) :
    Decides sw (AllRoom sw j)
      (executeActions (doOutput runTables now) j.start.1 j.start.2 j.actions w) := by
  obtain ⟨hflat, has⟩ := actionItems_spec hval
  have hport : j.start.2.flow.inPort = j.inPort := packetFlow_inPort j.packet j.inPort
  rw [← hflat, executeActions_flatten has, executeList_eq_finishList, hport]
  have hdec := finishList_decides now htables j.inPort has
    (s := .init j.start.1 j.start.2 w) (framed_flowExtract j.packet j.inPort) hw
  refine hdec.congr ?_
  rw [allRoom_iff]
  constructor
  · rintro ⟨-, hroom, hasked⟩
    exact ⟨hroom, hasked⟩
  · rintro ⟨hroom, hasked⟩
    refine ⟨fun h => ?_, hroom, hasked⟩
    cases h

end Decide

/-! ### Runs through the tables -/

/-- The actions have been accepted. -/
def Accepted (actions : List Byte) : Prop := ∃ key, validateActions key actions = actValidationOk

/-- The entries of a reachable datapath have accepted actions. -/
theorem accepted_of_reachable {sizes : TableSizes} {dp : Datapath}
    (h : Datapath.Reachable sizes dp) : dp.chain.Valid ∧ dp.chain.AllActions Accepted := by
  obtain ⟨now, hrun⟩ := h
  refine hrun.invariant (fun dp => dp.chain.Valid ∧ dp.chain.AllActions Accepted)
    ⟨SwChain.valid_create sizes, SwChain.allActions_create sizes⟩ ?_
  rintro dp e _ ⟨hv, hacts⟩ - rfl
  refine ⟨hv.changes (Datapath.changes_next hv e), Datapath.allActions_next hv hacts ?_⟩
  cases e with
  | flowMod now ofm => exact fun _ hval => ⟨_, hval⟩
  | packet | toController | run | protection => trivial

section Tables

variable {sw : Switch} {now : BitVec 64}
  (hentries : ∀ key f, sw.chain.lookup key false = some f → Accepted f.actions)

include hentries

/-- A run through the tables decides whether there is room for all that the packet leads to. -/
theorem runFlowThroughTables_decides (fuel : ℕ) (packet : Ofpbuf) (p : Option SwPort) {w : Switch}
    (hw : SameRouting sw w) :
    Decides sw (sw.TablesRoom packet p)
      ((runFlowThroughTables now fuel packet p w).map Prod.fst) := by
  -- by induction on the number of nested runs
  induction fuel generalizing packet p w with
  | zero => exact .inl rfl
  | succ fuel ih =>
    obtain ⟨fragment, flow, b, hx⟩ : ∃ fragment flow b,
        flowExtract packet ((p.map SwPort.portNo).getD ofppNone) = (fragment, flow, b) :=
      ⟨_, _, _, rfl⟩
    rw [runFlowThroughTables_succ hx, hw.flags]
    have hnone : ∀ r : Bool, sw.job packet p = none →
        Decides sw (sw.TablesRoom packet p) ((Except.ok (w, r)).map Prod.fst) :=
      fun r hjob => ⟨hw, fun j hj => by rw [hjob] at hj; cases hj⟩
    have hjob : sw.job packet p =
        if fragment && sw.flags &&& ofpcFragMask == ofpcFragDrop then none
        else if p.any fun p => p.refuses flow.dlDst then none
        else (sw.chain.lookup (packetKey flow) false).map fun f =>
          ⟨packet, (p.map SwPort.portNo).getD ofppNone, f.actions⟩ := by
      unfold Switch.job
      simp only [hx]
    split
    next hfrag => exact hnone true (by rw [hjob, if_pos hfrag])
    next hfrag =>
      split
      next href => exact hnone true (by rw [hjob, if_neg hfrag, if_pos href])
      next href =>
        rw [if_neg hfrag, if_neg href] at hjob
        have hacts := hw.actions (packetKey flow)
        cases hf : w.chain.lookup (packetKey flow) false with
        | none =>
          rw [hf, Option.map_none, eq_comm, Option.map_eq_none_iff] at hacts
          exact hnone false (by rw [hjob, hacts, Option.map_none])
        | some f =>
          rw [hf, Option.map_some, eq_comm, Option.map_eq_some_iff] at hacts
          obtain ⟨f₀, hf₀, heq⟩ := hacts
          rw [hf₀, Option.map_some, heq] at hjob
          obtain ⟨key, hval⟩ := hentries _ _ hf₀
          rw [heq] at hval
          -- the entry's list, executed on the packet
          have hdec := Job.decides now (fun packet p w hw => ih packet p hw)
            ⟨packet, (p.map SwPort.portNo).getD ofppNone, f.actions⟩ hval
            (hw.trans (.flowUsed now flow b))
          rw [Job.start, packetFlow, hx] at hdec
          simp only
          cases hexec : executeActions (doOutput (runFlowThroughTables now fuel) now) b
              (packetKey flow) f.actions (w.flowUsed now flow b) with
          | error e =>
            rw [hexec] at hdec
            exact hdec.imp_right fun hfail => ⟨hfail.1, fun hall => hfail.2 (hall _ hjob)⟩
          | ok w' =>
            rw [hexec] at hdec
            refine ⟨hdec.1, fun j hj => ?_⟩
            rw [hjob] at hj
            rw [← Option.some.inj hj]
            exact hdec.2

end Tables

/-! ### Executions in a datapath -/

namespace Job

variable (j : Job) (now : BitVec 64) (fuel : ℕ)

/-- The execution of the list, with at most `fuel` nested runs through the tables. -/
def execute (sw : Switch) : Except ForwardFault Switch :=
  executeActions (doOutput (runFlowThroughTables now fuel) now) j.start.1 j.start.2 j.actions sw

/-- With the tables of a datapath, the execution of an accepted list decides whether there is room
for it and all that it leads to. -/
theorem execute_decides {sizes : TableSizes} {dp : Datapath} (hr : Datapath.Reachable sizes dp)
    {key : SwFlowKey} (hval : validateActions key j.actions = actValidationOk) {sw w : Switch}
    (hchain : sw.chain = dp.chain) (hw : SameRouting sw w) :
    Decides sw (AllRoom sw j) (j.execute now fuel w) := by
  obtain ⟨hv, hacts⟩ := accepted_of_reachable hr
  refine decides now (fun packet p w hw => runFlowThroughTables_decides ?_ fuel packet p hw) j hval
    hw
  intro key f hf
  rw [hchain] at hf
  exact hacts.working f (SwChain.mem_workingFlows_of_lookup hv hf)

/-- On a received packet there is room for every push of a list, unless the list sends the packet to
the controller before its end. -/
theorem hasRoom_received_iff (packet : List Byte) (inPort : BitVec 16) (actions : List Byte) :
    (Job.mk (received packet) inPort actions).HasRoom ↔
      ∀ pre a post, actionItems actions = pre ++ a :: post → outputsTo ofppController a = true →
        post = [] := by
  refine roomFor_iff_of_ample (.inl ?_) (actionItems actions)
  change 22 ≤ (flowExtract (received packet) inPort).2.2.headroom
  rw [headroom_flowExtract]
  exact (by decide : 22 ≤ 130)

end Job

/-- When an accepted list of actions is executed on a packet, the assertion of `ofpbuf_push_uninit`
is kept if there is room for the pushes of this list and of all the lists that it leads to through
the tables, each on the packet that it gets; and if the execution ends, then it is kept only if
there is room. -/
theorem headroom_iff {sizes : TableSizes} {sw : Switch}
    (hr : Datapath.Reachable sizes sw.toDatapath) (now : BitVec 64) (fuel : ℕ) (j : Job)
    {key : SwFlowKey} (hval : validateActions key j.actions = actValidationOk) :
    (AllRoom sw j → j.execute now fuel sw ≠ .error (.ofpbuf .headroom)) ∧
      (j.execute now fuel sw ≠ .error .endless →
        j.execute now fuel sw ≠ .error (.ofpbuf .headroom) → AllRoom sw j) := by
  have hdec := j.execute_decides now fuel hr hval rfl (.refl sw)
  cases hrun : j.execute now fuel sw with
  | ok sw' =>
    rw [hrun] at hdec
    refine ⟨fun _ h => ?_, fun _ _ => hdec.2⟩
    cases h
  | error e =>
    rw [hrun] at hdec
    rcases hdec with rfl | ⟨rfl, hno⟩
    · refine ⟨fun _ h => ?_, fun hend => absurd rfl hend⟩
      cases h
    · exact ⟨fun hall => absurd hall hno, fun _ hkept => absurd rfl hkept⟩

/-- A switch with an entry that matches every packet, and has the given actions. -/
def catchAllSwitch (actions : List Byte) (h : sizeofOfpFlowMod + actions.length < 2 ^ 16) :
    Switch :=
  onePortSwitch ((Datapath.init .source 0).runEvents [.flowMod 0 (catchAll actions h)])

/-- A received packet that goes to the tables, where an entry sends it out on port 2. -/
theorem headroom_iff_table :
    (Job.mk (received []) 1 tableAction).execute 0 3
      (catchAllSwitch outputAction (by decide)) ≠ .error (.ofpbuf .headroom) := by
  have hval : validateActions (flowExtractMatch { OfpMatch.zero with wildcards := ofpfwAll })
      tableAction = actValidationOk := by decide
  have hr : Datapath.Reachable .source
      (catchAllSwitch outputAction (by decide)).toDatapath := Datapath.reachable_runEvents _ _ _
  refine (headroom_iff hr 0 3 (Job.mk (received []) 1 tableAction) hval).1 ?_
  have hitems : actionItems tableAction = [tableAction] := by decide
  refine allRoom_iff.2 ⟨(Job.hasRoom_received_iff _ _ _).2 ?_, fun packet _ j hj => ?_⟩
  · rintro pre a post hsplit hout
    have hmem : a ∈ [tableAction] := by
      rw [← hitems, hsplit]
      simp
    rw [List.mem_singleton.1 hmem] at hout
    exact absurd hout (by decide)
  · -- the entry's list, which leads to no other one
    obtain ⟨key, f, hf, hf'⟩ := Switch.exists_lookup_of_job hj
    have hentries : ((Datapath.init .source 0).next
        (.flowMod 0 (catchAll outputAction (by decide)))).chain.AllActions (· = outputAction) :=
      Datapath.allActions_next (SwChain.valid_create _) (SwChain.allActions_create _) fun _ _ => rfl
    have hacts : j.actions = outputAction := hf' ▸ hentries.working f
      (SwChain.mem_workingFlows_of_lookup (accepted_of_reachable hr).1 hf)
    refine allRoom_iff.2 ⟨?_, fun packet' hp' => ?_⟩
    · rw [Job.HasRoom, hacts, (by decide : actionItems outputAction = [outputAction])]
      exact ⟨fun h => absurd h (by decide), fun h => absurd h (by decide), trivial⟩
    · rw [Job.asked, hacts] at hp'
      cases hp'

/-- An output to the controller without limit. -/
def controllerAction : List Byte := [0, 0, 0, 8, 0xff, 0xfd, 0xff, 0xff]

/-- An action that sets the VLAN id to 5. -/
def setVlanAction : List Byte := [0, 1, 0, 8, 0, 5, 0, 0]

/-- A received packet that goes to the controller and then out on a port violates the assertion, and
so does a packet taken out of its buffer that gets a tag. -/
theorem not_headroom :
    (¬ ∀ (sizes : TableSizes) (sw : Switch) (now : BitVec 64) (fuel : ℕ) (packet : List Byte)
        (inPort : BitVec 16) (key : SwFlowKey) (actions : List Byte),
      Datapath.Reachable sizes sw.toDatapath → validateActions key actions = actValidationOk →
      (Job.mk (received packet) inPort actions).execute now fuel sw ≠
        .error (.ofpbuf .headroom)) ∧
      ¬ ∀ (sizes : TableSizes) (sw : Switch) (now : BitVec 64) (fuel : ℕ) (packet : List Byte)
          (inPort : BitVec 16) (key : SwFlowKey) (actions : List Byte),
        Datapath.Reachable sizes sw.toDatapath → validateActions key actions = actValidationOk →
        (Job.mk (.cloneData packet) inPort actions).execute now fuel sw ≠
          .error (.ofpbuf .headroom) := by
  constructor
  · intro hall
    exact hall .source (onePortSwitch (.init .source 0)) 0 0 [] 1
      (flowExtractMatch { OfpMatch.zero with wildcards := ofpfwAll })
      (controllerAction ++ outputAction) ⟨0, .refl⟩ (by decide) rfl
  · intro hall
    exact hall .source (onePortSwitch (.init .source 0)) 0 0 [] 1
      (flowExtractMatch { OfpMatch.zero with wildcards := ofpfwAll })
      (setVlanAction ++ outputAction) ⟨0, .refl⟩ (by decide) rfl

example : (Job.mk (received []) 1 (setVlanAction ++ tableAction)).execute 0 3
    (catchAllSwitch (controllerAction ++ outputAction) (by decide)) =
      .error (.ofpbuf .headroom) := by
  rfl

end OfAgent
