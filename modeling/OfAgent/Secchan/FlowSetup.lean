import OfAgent.Chain.Protection
import OfAgent.Forward.Headroom
import OfAgent.Stats.Reported

/-!
# Flow modifications made of packets

The secure channel sets up and removes flows for single packets: it extracts the flow of a packet,
fills a match without wildcards from it, and sends the match to the datapath, which normalises it
again.

* `makeFlowMod`, `makeAddFlow`, `makeDelFlow`, `makeAddSimpleFlow`: the messages of `vconn.c`.
* `flowExtractMatch_makeFlowModMatch`: the key that the datapath gets of the flow of a packet. It is
  the key of the packet but for the type of service, which `make_flow_mod` does not copy.
* `SwChain.Valid.exists_mem_of_insert`: a chain holds the flow that it has taken.
* `Datapath.packet_finds_own_entry_iff`: a packet matches the entry that has been set up for it, and
  the entry that is removed for it is the one that it matches, exactly when its type of service is
  zero.
-/

namespace OfAgent

/-! ### The messages -/

/-- `OFPFC_ADD`: new flow. -/
def ofpfcAdd : BitVec 16 := 0

/-- `OFPFC_DELETE_STRICT`: strictly match wildcards and priority. -/
def ofpfcDeleteStrict : BitVec 16 := 4

/-- The match of `make_flow_mod`. The message starts out as zeros, and `nw_tos` is not among the
fields that are copied into it. -/
def makeFlowModMatch (flow : Flow) : OfpMatch :=
  { OfpMatch.zero with
    wildcards := 0
    inPort := flow.inPort
    dlSrc := flow.dlSrc
    dlDst := flow.dlDst
    dlVlan := flow.dlVlan
    dlType := flow.dlType
    dlVlanPcp := flow.dlVlanPcp
    nwSrc := flow.nwSrc
    nwDst := flow.nwDst
    nwProto := flow.nwProto
    tpSrc := flow.tpSrc
    tpDst := flow.tpDst }

/-- `make_flow_mod`, with the actions that its callers put behind the message. -/
def makeFlowMod (command : BitVec 16) (flow : Flow) (actions : List Byte)
    (length_lt : sizeofOfpFlowMod + actions.length < 2 ^ 16) : OfpFlowMod where
  ofpMatch := makeFlowModMatch flow
  cookie := 0
  command := command
  idleTimeout := 0
  hardTimeout := 0
  priority := 0
  bufferId := 0
  outPort := 0
  flags := 0
  actions := actions
  length_lt := length_lt

/-- `make_add_flow`, with the actions that its callers put behind the message. -/
def makeAddFlow (flow : Flow) (bufferId : BitVec 32) (idleTimeout : BitVec 16) (actions : List Byte)
    (length_lt : sizeofOfpFlowMod + actions.length < 2 ^ 16) : OfpFlowMod :=
  { makeFlowMod ofpfcAdd flow actions length_lt with
    idleTimeout := idleTimeout
    hardTimeout := ofpFlowPermanent
    bufferId := bufferId }

theorem length_noActions : sizeofOfpFlowMod + ([] : List Byte).length < 2 ^ 16 := by decide

/-- `make_del_flow`. -/
def makeDelFlow (flow : Flow) : OfpFlowMod :=
  { makeFlowMod ofpfcDeleteStrict flow [] length_noActions with outPort := ofppNone }

/-- The action of `make_add_simple_flow`, a `struct ofp_action_output`. The controller gets the
whole packet. -/
def simpleOutput (outPort : BitVec 16) : List Byte :=
  Memory.bytes16 ofpatOutput ++ Memory.bytes16 8 ++ Memory.bytes16 outPort ++
    Memory.bytes16 (if outPort = ofppController then 0xffff else 0)

theorem length_simpleOutput (outPort : BitVec 16) :
    sizeofOfpFlowMod + (simpleOutput outPort).length < 2 ^ 16 := by
  change 72 + 8 < 2 ^ 16
  decide

/-- `make_add_simple_flow`. -/
def makeAddSimpleFlow (flow : Flow) (bufferId : BitVec 32) (outPort idleTimeout : BitVec 16) :
    OfpFlowMod :=
  makeAddFlow flow bufferId idleTimeout (simpleOutput outPort) (length_simpleOutput outPort)

/-- The messages that set up the flow of a packet. -/
inductive OfpFlowMod.SetsUp (flow : Flow) : OfpFlowMod → Prop
  /-- With any actions. -/
  | addFlow (bufferId : BitVec 32) (idleTimeout : BitVec 16) (actions : List Byte)
      (length_lt : sizeofOfpFlowMod + actions.length < 2 ^ 16) :
      SetsUp flow (makeAddFlow flow bufferId idleTimeout actions length_lt)
  /-- With an output to one port. -/
  | addSimpleFlow (bufferId : BitVec 32) (outPort idleTimeout : BitVec 16) :
      SetsUp flow (makeAddSimpleFlow flow bufferId outPort idleTimeout)

/-- All of them are made by `make_add_flow`. -/
theorem OfpFlowMod.SetsUp.eq_makeAddFlow {flow : Flow} {ofm : OfpFlowMod} (h : ofm.SetsUp flow) :
    ∃ bufferId idleTimeout actions length_lt,
      ofm = makeAddFlow flow bufferId idleTimeout actions length_lt := by
  cases h with
  | addFlow bufferId idleTimeout actions length_lt =>
    exact ⟨bufferId, idleTimeout, actions, length_lt, rfl⟩
  | addSimpleFlow bufferId outPort idleTimeout => exact ⟨bufferId, idleTimeout, _, _, rfl⟩

/-- A message without flags is not for the emergency table. -/
theorem OfpFlowMod.hasFlag_of_flags_eq_zero {ofm : OfpFlowMod} (h : ofm.flags = 0)
    (flag : BitVec 16) :
    ofm.hasFlag flag = false := by
  simp [OfpFlowMod.hasFlag, h]

/-! ### The key that the datapath gets -/

/-- The key that the datapath gets of the flow of a packet: all that is lost is the type of
service. -/
theorem flowExtractMatch_makeFlowModMatch {flow : Flow} (h : flow.Layered) :
    flowExtractMatch (makeFlowModMatch flow) = packetKey { flow with nwTos := 0 } := by
  have hzero : (0 : BitVec 32) &&& ofpfwAll = 0 := by decide
  have hclear : (0 : BitVec 32) &&& ~~~ofpfwTp = 0 := by decide
  have htype : wild 0 ofpfwDlType = false := by decide
  have hproto : wild 0 ofpfwNwProto = false := by decide
  have htos : (0 : BitVec 8) &&& 0xfc = 0 := by decide
  -- what the datapath reads depends on the type of the frame and on the protocol, as in
  -- `flow_extract`
  have hfields : flowExtractFields (makeFlowModMatch flow) = ({ flow with nwTos := 0 }, 0) := by
    simp only [flowExtractFields, makeFlowModMatch, OfpMatch.zero, hzero, htype, hproto, hclear,
      htos, Bool.false_eq_true, if_false]
    by_cases hip : flow.dlType = ethTypeIp
    · rw [if_pos (beq_iff_eq.2 hip)]
      by_cases hports : hasPorts flow.nwProto = true
      · exact if_pos hports
      · obtain ⟨hsrc, hdst⟩ := h.transport fun hall => hports hall.2
        refine (if_neg hports).trans ?_
        simp only [hsrc, hdst]
    · obtain ⟨hsrc, hdst⟩ := h.transport fun hall => hip hall.1
      rw [if_neg fun heq => hip (beq_iff_eq.1 heq)]
      by_cases harp : flow.dlType = ethTypeArp
      · rw [if_pos (beq_iff_eq.2 harp)]
        simp only [hsrc, hdst]
      · obtain ⟨hnwSrc, hnwDst, hnwProto⟩ := h.network hip harp
        rw [if_neg fun heq => harp (beq_iff_eq.1 heq)]
        simp only [hsrc, hdst, hnwSrc, hnwDst, hnwProto]
  simp only [flowExtractMatch, hfields]
  rfl

/-- A packet matches this key exactly when it has no type of service that can be lost. -/
theorem packet_matches_makeFlowModMatch_iff {flow : Flow} (h : flow.Layered) :
    flowMatches1wild (packetKey flow) (flowExtractMatch (makeFlowModMatch flow)) = true ↔
      flow.nwTos = 0 := by
  have hw : (flowExtractMatch (makeFlowModMatch flow)).wildcards = 0 := by
    rw [flowExtractMatch_makeFlowModMatch h]
    rfl
  rw [(normal_flowExtractMatch _).flowMatches1wild_exact hw, flowExtractMatch_makeFlowModMatch h,
    beq_iff_eq]
  change flow = { flow with nwTos := 0 } ↔ _
  constructor
  · intro heq
    rw [heq]
  · intro htos
    rw [← htos]

/-! ### Set up and removed -/

/-- A linear table holds the flow that it has taken, under some serial number. -/
theorem SwTableLinear.exists_mem_of_insert {tl tl' : SwTableLinear} {flow : SwFlow}
    (hins : tl.insert flow = some tl') : ∃ serial, { flow with serial } ∈ tl'.flows := by
  unfold SwTableLinear.insert at hins
  cases hr : findReplaced flow tl.flows with
  | some f =>
    simp only [hr, Option.some.injEq] at hins
    subst hins
    obtain ⟨hmem, -⟩ := mem_of_findReplaced hr
    exact ⟨f.serial, List.mem_map.2 ⟨f, hmem, if_pos rfl⟩⟩
  | none =>
    simp only [hr] at hins
    split at hins
    next => cases hins
    next =>
      cases hins
      exact ⟨tl.nextSerial, (PriorityList.mem_insertBehind prio).2 (.inl rfl)⟩

/-- A chain holds the flow that it has taken, under some serial number. -/
theorem SwChain.Valid.exists_mem_of_insert {ch ch' : SwChain} (h : ch.Valid) {flow : SwFlow}
    (hwf : flow.WellFormed) (hins : ch.insert flow false = some ch') :
    ∃ serial, { flow with serial } ∈ ch'.workingFlows := by
  simp only [workingFlows, SwTableHash2.flows, List.mem_append]
  rcases insert_eq_some hins with ⟨th, h0, rfl⟩ | ⟨th, -, h1, rfl⟩ | ⟨tl, -, -, h2, rfl⟩
  · exact ⟨flow.serial, .inl (.inl (mem_of_insert_some h.subtable0 hwf h0))⟩
  · exact ⟨flow.serial, .inl (.inr (mem_of_insert_some h.subtable1 hwf h1))⟩
  · obtain ⟨serial, hmem⟩ := SwTableLinear.exists_mem_of_insert h2
    exact ⟨serial, .inr hmem⟩

namespace Datapath

variable {dp : Datapath} {now : BitVec 64} {ofm : OfpFlowMod}

/-- The datapath installs the flow of a message: it answers it with no error. -/
def Installs (dp : Datapath) (now : BitVec 64) (ofm : OfpFlowMod) : Prop :=
  ∀ error length, DpOutput.errorMsg error length ∉ (dp.recvFlowTables now ofm).2.1

/-- `add_flow` without an error has put the flow of the message into the tables. -/
theorem exists_mem_of_installs (hv : dp.chain.Valid) (hadd : ofm.knownCommand = some .add)
    (hemerg : ofm.hasFlag ofpffEmerg = false) (h : dp.Installs now ofm) :
    ∃ f ∈ (dp.recvFlowTables now ofm).1.chain.workingFlows, ofm.Makes f ∧
      f.actions = ofm.actions := by
  have hrecv : dp.recvFlowTables now ofm = dp.addFlow now ofm := by
    unfold recvFlowTables
    rw [hadd]
  have hinserted : ∀ flow chain, ofm.Makes flow → flow.actions = ofm.actions →
      dp.chain.insert flow false = some chain →
      ∃ f ∈ chain.workingFlows, ofm.Makes f ∧ f.actions = ofm.actions := by
    intro flow chain hmakes hactions hins
    obtain ⟨serial, hmem⟩ := hv.exists_mem_of_insert hmakes.wellFormed hins
    exact ⟨_, hmem, ⟨hmakes.key, hmakes.priority⟩, hactions⟩
  unfold Installs at h
  rw [hrecv] at h ⊢
  unfold addFlow at h ⊢
  rcases hbuffer : dp.takeBuffer ofm with ⟨buffer, dp'⟩
  cases herror : dp.addFlowError ofm with
  | some error =>
    simp only [hbuffer, herror] at h
    exact absurd List.mem_cons_self (h error ofm.length)
  | none =>
    simp only [hbuffer, herror, hemerg] at h ⊢
    split at h
    next => exact absurd List.mem_cons_self (h .allTablesFull ofm.length)
    next chain hins =>
      -- the flow that is inserted has counted the buffered packet, if there is one
      cases buffer with
      | none => exact hinserted _ _ ⟨rfl, rfl⟩ rfl hins
      | some b => exact hinserted _ _ ⟨rfl, rfl⟩ rfl hins

/-- What `make_del_flow` removes: the entries without wildcards that have the key of the message. -/
theorem mem_after_makeDelFlow {flow : Flow} (hv : dp.chain.Valid) (hflow : flow.Layered)
    {f : SwFlow} (hf : f ∈ dp.chain.workingFlows) :
    f ∉ (dp.recvFlowTables now (makeDelFlow flow)).1.chain.workingFlows ↔
      f.key.wildcards = 0 ∧ f.key.flow = { flow with nwTos := 0 } := by
  have hkey := flowExtractMatch_makeFlowModMatch hflow
  -- the entry that the message would make, with which a strict deletion compares
  have hmakes : (makeDelFlow flow).Makes ((makeDelFlow flow).newFlow 0) := ⟨rfl, rfl⟩
  have hnew : ((makeDelFlow flow).newFlow 0).key = packetKey { flow with nwTos := 0 } := hkey
  have hexact : ((makeDelFlow flow).newFlow 0).key.wildcards = 0 := by
    rw [hnew]
    rfl
  have hprio : SwChain.PriorityOfExact ((makeDelFlow flow).newFlow 0).key
      ((makeDelFlow flow).newFlow 0).priority true :=
    fun _ _ => hmakes.wellFormed.priority_of_exact hexact
  have hchain : (dp.recvFlowTables now (makeDelFlow flow)).1.chain =
      (dp.chain.delete ((makeDelFlow flow).newFlow 0).key ofppNone
        ((makeDelFlow flow).newFlow 0).priority true false).1 := by
    have hflag : (makeDelFlow flow).hasFlag ofpffEmerg = false :=
      OfpFlowMod.hasFlag_of_flags_eq_zero rfl _
    change (dp.chain.delete ((makeDelFlow flow).newFlow 0).key ofppNone
      ((makeDelFlow flow).newFlow 0).priority true
      ((makeDelFlow flow).hasFlag ofpffEmerg)).1 = _
    rw [hflag]
  rw [hchain, hv.delete_eq hmakes.wellFormed.normal ofppNone hprio,
    SwChain.workingFlows_filterTables, List.mem_filter,
    deletes_eq_identical (hv.wellFormed hf) hmakes.wellFormed]
  simp only [hf, true_and, Bool.not_eq_true', Bool.not_eq_false]
  by_cases hw : f.key.wildcards = 0
  · rw [(hv.wellFormed hf).identical_exact hmakes.wellFormed hw hexact, hnew, beq_iff_eq]
    exact ⟨fun heq => ⟨hw, heq⟩, And.right⟩
  · rw [SwFlow.identical_eq_false_of_wild hw hexact]
    exact iff_of_false Bool.false_ne_true fun hall => hw hall.1

/-- A packet of a flow matches the entry that a message has set up in one datapath, and of the
entries of another datapath `make_del_flow` removes the one without wildcards that it matches. -/
structure FindsOwnEntry (dp dp' : Datapath) (now : BitVec 64) (flow : Flow) (ofm : OfpFlowMod) :
    Prop where
  /-- The entry that is installed. -/
  installed : ∃ f ∈ (dp.recvFlowTables now ofm).1.chain.workingFlows,
    ofm.Makes f ∧ f.actions = ofm.actions ∧ flowMatches1wild (packetKey flow) f.key = true
  /-- The entry that is removed. -/
  removed : ∀ f ∈ dp'.chain.workingFlows,
    f ∉ (dp'.recvFlowTables now (makeDelFlow flow)).1.chain.workingFlows ↔
      f.key.wildcards = 0 ∧ flowMatches1wild (packetKey flow) f.key = true

/-- A packet finds the entry that has been set up for it, and the entry that is removed for it is
the one that it matches, exactly when the type of service of its flow is zero: `make_flow_mod` does
not copy it. -/
theorem packet_finds_own_entry_iff {sizes sizes' : TableSizes} {dp dp' : Datapath}
    (hdp : dp.Reachable sizes) (hdp' : dp'.Reachable sizes') (packet : Ofpbuf) (inPort : BitVec 16)
    {ofm : OfpFlowMod} (hsets : ofm.SetsUp (packetFlow packet inPort)) {now : BitVec 64}
    (hinst : dp.Installs now ofm) :
    dp.FindsOwnEntry dp' now (packetFlow packet inPort) ofm ↔
      (packetFlow packet inPort).nwTos = 0 := by
  have hlayered := layered_packetFlow packet inPort
  have hmatch := packet_matches_makeFlowModMatch_iff hlayered
  obtain ⟨bufferId, idleTimeout, actions, hlength, rfl⟩ := hsets.eq_makeAddFlow
  constructor
  · rintro ⟨⟨f, -, hmakes, -, hf⟩, -⟩
    rw [hmakes.key] at hf
    exact hmatch.1 hf
  · intro htos
    refine ⟨?_, fun f hf => ?_⟩
    · obtain ⟨f, hf, hmakes, hactions⟩ := exists_mem_of_installs (valid_of_reachable hdp) rfl
        (OfpFlowMod.hasFlag_of_flags_eq_zero rfl _) hinst
      refine ⟨f, hf, hmakes, hactions, ?_⟩
      rw [hmakes.key]
      exact hmatch.2 htos
    · have hv := valid_of_reachable hdp'
      rw [mem_after_makeDelFlow hv hlayered hf]
      refine and_congr_right fun hw => ?_
      -- without a type of service nothing is lost, and an entry without wildcards is matched by its
      -- own flow only
      rw [(hv.wellFormed hf).normal.flowMatches1wild_exact hw, beq_iff_eq, ← htos]
      exact eq_comm

/-- An IP packet with a type of service, which is otherwise a datagram. -/
def tosPacket (tos : Byte) : Ofpbuf :=
  received
    ([0, 0, 0, 0, 0, 2, 0, 0, 0, 0, 0, 1, 0x08, 0x00,
      0x45, tos, 0, 28, 0, 0, 0, 0, 64, 17, 0, 0, 10, 0, 0, 1, 10, 0, 0, 2,
      0x12, 0x34, 0, 53, 0, 8, 0, 0])

/-- The message of the learning switch for such a packet from port 1, which goes to port 2. -/
def tosFlowMod (tos : Byte) : OfpFlowMod :=
  makeAddSimpleFlow (packetFlow (tosPacket tos) 1) noBuffer 2 60

/-- An empty datapath installs the flow of such a message. -/
theorem installs_tosFlowMod (tos : Byte)
    (h : ((Datapath.init .source 0).recvFlowTables 0 (tosFlowMod tos)).2.1 = []) :
    (Datapath.init .source 0).Installs 0 (tosFlowMod tos) := by
  intro error length hmem
  rw [h] at hmem
  exact List.not_mem_nil hmem

/-- A packet without a type of service finds its entry. -/
theorem packet_finds_own_entry_udp :
    (Datapath.init .source 0).FindsOwnEntry (.init .source 0) 0 (packetFlow (tosPacket 0) 1)
      (tosFlowMod 0) :=
  (packet_finds_own_entry_iff (reachable_runEvents .source 0 []) (reachable_runEvents .source 0 [])
    (tosPacket 0) 1
    (.addSimpleFlow noBuffer 2 60) (installs_tosFlowMod 0 (by decide +kernel))).2 (by decide)

/-- A packet with a type of service does not: the entry that has been installed for it has none. -/
theorem packet_misses_own_entry :
    ¬ ∀ sizes dp dp', Reachable sizes dp → Reachable sizes dp' → ∀ packet inPort ofm now,
      ofm.SetsUp (packetFlow packet inPort) → dp.Installs now ofm →
        dp.FindsOwnEntry dp' now (packetFlow packet inPort) ofm := by
  intro hall
  have hr := reachable_runEvents .source 0 []
  obtain ⟨⟨f, -, hmakes, -, hf⟩, -⟩ := hall .source _ _ hr hr (tosPacket 0x10) 1 (tosFlowMod 0x10) 0
    (.addSimpleFlow noBuffer 2 60) (installs_tosFlowMod 0x10 (by decide +kernel))
  rw [hmakes.key] at hf
  have htos : (packetFlow (tosPacket 0x10) 1).nwTos = 0x10 := by decide
  have hzero := (packet_matches_makeFlowModMatch_iff (layered_packetFlow _ _)).1 hf
  rw [htos] at hzero
  exact absurd hzero (by decide)

end Datapath

end OfAgent
