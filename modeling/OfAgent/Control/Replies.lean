import Mathlib.Algebra.Order.BigOperators.Group.List
import Mathlib.Algebra.Order.Group.Nat
import OfAgent.Control.Assertions
import OfAgent.Control.Lengths
import OfAgent.Stats.Complete

/-!
# Lengths of statistics replies

The replies to statistics requests are short, apart from those to flow statistics requests: these
end with an entry that may be as long as a flow modification, when there are already up to 4095
bytes in front of it.

* `FlowStatsState.ReplyFits`: the next reply is short enough; `Control.Exact.runDump_iff`: a dump of
  flow statistics keeps the length fields right exactly then.
* `Control.saysLengths_iff`: the runs in which all length fields are right.
* `not_saysLengths`: an entry with 8182 actions.
-/

namespace OfAgent

open Monitored

/-! ### Dumps -/

section Dumps

open Control

variable {now : BitVec 64} {err2 : ℤ} {remote : Remote} {cb : StatsDumpCb} {ctl : Control}

/-- The next reply to a flow statistics request has a length of 16 bits: no entry that is put into
it takes it over. -/
def FlowStatsState.ReplyFits (ch : SwChain) (s : FlowStatsState) : Prop :=
  ∀ pre e post, statsRemaining ch s.rq s.cursor = pre ++ e :: post →
    sizeofOfpStatsReply + (pre.map flowStatsLength).sum < maxFlowStatsBytes →
    sizeofOfpStatsReply + (pre.map flowStatsLength).sum + flowStatsLength e ≤ 65535

/-- The reply has such a length exactly when it is not longer than that. -/
theorem FlowStatsState.replyFits_iff (ch : SwChain) (now : BitVec 64) (s : FlowStatsState) :
    s.ReplyFits ch ↔ (OfpBody.statsReply (statsDump ch now s).1.more
      (.flow (statsDump ch now s).1.body)).size ≤ 65535 := by
  have hbatch : (statsDump ch now s).1.entries = (Batching.fill flowStatsLength maxFlowStatsBytes
      sizeofOfpStatsReply (statsRemaining ch s.rq s.cursor)).1 :=
    (batches_statsDump ch s.rq fun _ => now).items_eq 0 s.cursor
  have hsize : ∀ (entries : List (ℕ × SwFlow)) (more : Bool),
      (OfpBody.statsReply more (.flow (StatsReply.body ⟨more, now, entries⟩))).size =
        sizeofOfpStatsReply + (entries.map flowStatsLength).sum := by
    intro entries more
    rw [OfpBody.size, OfpStats.size, StatsReply.body, List.map_map]
    rfl
  have hreply := hsize (statsDump ch now s).1.entries (statsDump ch now s).1.more
  rw [hbatch] at hreply
  refine (Batching.fill_le_iff (by decide) (by decide)).symm.trans ?_
  rw [← hreply, ← hbatch]
  exact Iff.rfl

/-- The length field of a message that is about to be sent is the size exactly when this has
16 bits. -/
theorem exact_iff (remote : Option Remote) (xid : BitVec 32) (more : Bool) (now : BitVec 64)
    (entries : List (ℕ × SwFlow)) :
    let body := OfpBody.statsReply more (.flow (StatsReply.body ⟨more, now, entries⟩))
    OfpOutgoing.Exact ⟨remote, xid, BitVec.ofNat 16 body.size, body⟩ ↔ body.size ≤ 65535 := by
  intro body
  have hsize : body.size = sizeofOfpStatsReply + (entries.map flowStatsLength).sum := by
    change sizeofOfpStatsReply + ((entries.map _).map OfpFlowStats.size).sum = _
    rw [List.map_map]
    rfl
  unfold OfpOutgoing.Exact
  simp only [BitVec.toNat_ofNat]
  constructor
  · rintro ⟨hlength, -⟩
    have hlt := Nat.mod_lt body.size (by decide : 0 < 2 ^ 16)
    omega
  · intro hle
    refine ⟨Nat.mod_eq_of_lt (by omega), fun ofs hmem => ?_⟩
    obtain ⟨e, he, rfl⟩ := List.mem_map.1 hmem
    -- an entry is no longer than the reply
    have hentry : flowStatsLength e ≤ (entries.map flowStatsLength).sum :=
      List.le_sum_of_mem (List.mem_map_of_mem he)
    change (BitVec.ofNat 16 (flowStatsLength e)).toNat = flowStatsLength e
    rw [BitVec.toNat_ofNat, Nat.mod_eq_of_lt (by omega)]

/-- A dump of flow statistics keeps what depends on the new message exactly when the next reply
fits. -/
theorem meets_statsDumpCallback_iff {s : FlowStatsState} (hdone : cb.done = false)
    (hstate : cb.state = .flow s) {Q : Control → Prop}
    (hQ : ∀ m cbDump, Q { ctl with cbDump, messages := ctl.messages ++ [m] } ↔ m.Exact) :
    Meets (statsDumpCallback now err2 remote cb) .any (fun _ => Q) ctl ↔
      s.ReplyFits ctl.chain := by
  rw [s.replyFits_iff ctl.chain now, statsDumpCallback, if_neg (hdone ▸ Bool.false_ne_true), hstate]
  have hlen : 8 ≤ sizeofOfpStatsReply ∧ sizeofOfpStatsReply ≤ 65535 := by decide
  -- whether the reply can be sent changes only the return value
  simp only [meets_bind, meets_putOpenflowXid, dumpState, meets_get, meets_pure, setDump,
    meets_modify, meets_sendOpenflowBuffer, meets_ite, hlen, and_self, true_imp_iff,
    not_true_eq_false, false_imp_iff, and_true, hQ]
  refine Iff.trans ?_ (exact_iff (some cb.sender.remote) cb.sender.xid _ now _)
  by_cases herr : err2 ≠ 0
  · rw [imp_iff_right herr, and_iff_left fun h => absurd herr h]
    exact Iff.rfl
  · rw [imp_iff_right herr, and_iff_right fun h => absurd h herr]
    exact Iff.rfl

end Dumps

/-! ### Runs -/

/-- A dump of flow statistics is carried on only when the next reply fits into a length of
16 bits. -/
def ControlEvent.ReplyFits (ctl : Control) : ControlEvent → Prop
  | dump _ _ remote => ∀ cb s, ctl.cbDump remote = some cb → cb.done = false →
      cb.state = .flow s → s.ReplyFits ctl.chain
  | _ => True

namespace Control

variable {ctl ctl' : Control} {e : ControlEvent}

theorem exact_fwdPortInput (env : Surroundings) {bytes : List Byte}
    (hle : bytes.length ≤ 18 + 1024) (p : SwPort) :
    Keeps Exact (forward (Switch.fwdPortInput env.now env.fuel (received bytes) p)) := by
  have hready := ready_bounded_iff.2 (Ofpbuf.fits_received hle)
  exact keeps_forward fun ctl sw h hrun =>
    ⟨h.messages, Switch.kept_sizes.fwdPortInput h.sizes hready hrun⟩

theorem exact_runTimeouts (env : Surroundings) : Keeps Exact (runTimeouts env) := by
  refine .get_bind fun ctl h => ?_
  have hbuffers : (ctl.toDatapath.dpRun env.now).1.buffers = ctl.buffers := by
    unfold Datapath.dpRun
    split <;> rfl
  exact exact_removals h hbuffers fun output hmem => Datapath.flowRemoved_of_mem_dpRun hmem

/-- One message more, and any dumps. -/
theorem Exact.append_iff (h : ctl.Exact) (m : OfpOutgoing) (cbDump : Remote → Option StatsDumpCb) :
    (Exact { ctl with cbDump, messages := ctl.messages ++ [m] } ↔ m.Exact) ∧
      (SaysLengths { ctl with cbDump, messages := ctl.messages ++ [m] } ↔ m.Exact) := by
  have hall : m.Exact → ∀ m' ∈ ctl.messages ++ [m], m'.Exact := by
    intro hm m' hm'
    rcases List.mem_append.1 hm' with hm' | hm'
    · exact h.messages m' hm'
    · exact List.mem_singleton.1 hm' ▸ hm
  exact ⟨⟨fun hend => hend.messages m (by simp), fun hm => ⟨hall hm, h.sizes⟩⟩,
    fun hend => hend.1 m (by simp), fun hm => ⟨hall hm, h.sizes.sent⟩⟩

/-- A dump of flow statistics that is carried on keeps the length fields right exactly when the next
reply fits. -/
theorem Exact.runDump_iff (h : ctl.Exact) (now : BitVec 64) (err2 : ℤ) {remote : Remote}
    {cb : StatsDumpCb} {s : FlowStatsState} (hcb : ctl.cbDump remote = some cb)
    (hdone : cb.done = false) (hstate : cb.state = .flow s) :
    (Meets (runDump now err2 remote) .any (fun _ => Exact) ctl ↔ s.ReplyFits ctl.chain) ∧
      (Meets (runDump now err2 remote) .any (fun _ => SaysLengths) ctl ↔
        s.ReplyFits ctl.chain) := by
  constructor
  · rw [meets_runDump_iff hcb fun _ _ => ⟨fun h => ⟨h.1, h.2⟩, fun h => ⟨h.1, h.2⟩⟩]
    exact meets_statsDumpCallback_iff hdone hstate fun m d => (h.append_iff m d).1
  · rw [meets_runDump_iff hcb fun _ _ => Iff.rfl]
    exact meets_statsDumpCallback_iff hdone hstate fun m d => (h.append_iff m d).2

/-- Every event keeps the length fields right, when a reply to a flow statistics request fits. -/
theorem Exact.run (h : ctl.Exact) (hen : e.Enabled ctl) (hfits : e.ReplyFits ctl) :
    Meets e.run .any (fun _ => Exact) ctl := by
  cases e with
  | message env remote msg =>
    exact (exact_receive remote msg).bind (fun _ => .pure _) ctl h
  | packet env portNo bytes =>
    refine Keeps.get_bind_all (fun ctl' => ?_) ctl h
    cases ctl'.dpLookupPort portNo with
    | none => exact .pure _
    | some p => exact exact_fwdPortInput env hen.2 p
  | timeouts env => exact exact_runTimeouts env ctl h
  | close remote =>
    exact (meets_modify _).2 (kept_exact.connections _ ctl.dpDesc h)
  | dump now err2 remote =>
    obtain ⟨cb, hcb⟩ := Option.isSome_iff_exists.1 hen
    by_cases hflow : cb.done = false ∧ ∃ s, cb.state = .flow s
    · obtain ⟨hdone, s, hstate⟩ := hflow
      exact (h.runDump_iff now err2 hcb hdone hstate).1.2 (hfits cb s hcb hdone hstate)
    · refine kept_exact.runDump (fun hdone s hs => ?_) hcb h
      exact absurd ⟨hdone, s, hs⟩ hflow

/-- A new datapath has sent nothing and saved no packets. -/
theorem Initial.exact {sizes : TableSizes} (h : Initial sizes ctl) : ctl.Exact := by
  cases h with
  | @start sw now hdp hsent id dpDesc =>
    constructor
    · intro m hm
      cases hm
    · constructor
      · intro i packet hi
        have hslot : (sw.buffers.slots i).buffer = some packet := hi
        rw [hdp] at hslot
        cases hslot
      · intro e he
        have hmem : e ∈ sw.sent := he
        rw [hsent] at hmem
        cases hmem

/-- In every run that carries a dump of flow statistics on only when the next reply fits into a
length of 16 bits, the length fields of everything that has been sent are the sizes; and the next
step keeps that only if it meets the condition, too. -/
theorem saysLengths_iff {sizes : TableSizes} {init : Control} (hinit : Initial sizes init)
    (hrun : Transition.ReachableVia Control.Step (fun s e => ControlEvent.ReplyFits s e) init ctl) :
    ctl.SaysLengths ∧ ∀ e ctl', Control.Step ctl e ctl' → (ctl'.SaysLengths ↔ e.ReplyFits ctl) := by
  have hexact : ctl.Exact := hrun.invariant Exact hinit.exact fun s e s' hs hfits hstep =>
    (hs.run hstep.1 hfits).of_result hstep.2
  refine ⟨hexact.saysLengths, fun e ctl' hstep => ⟨fun hsays => ?_, fun hfits => ?_⟩⟩
  · cases e with
    | dump now err2 remote =>
      intro cb s hcb hdone hstate
      refine (hexact.runDump_iff now err2 hcb hdone hstate).2.1 (meets_any_iff.2 fun _ s' hok => ?_)
      cases hstep.2.symm.trans hok
      exact hsays
    | message env remote msg => trivial
    | packet env portNo bytes => trivial
    | timeouts env => trivial
    | close remote => trivial
  · exact ((hexact.run hstep.1 hfits).of_result hstep.2).saysLengths

/-- A datapath without entries. -/
def emptyControl : Control := .start (onePortSwitch (.init .source 0)) 1 []

/-- After an echo request, one reply has been sent, whose length field is right. -/
theorem saysLengths_iff_echo : ∃ ctl,
    Control.Step emptyControl (.message .calm 0 echoRequest) ctl ∧ ctl.messages.length = 1 ∧
      ctl.SaysLengths := by
  have hinit : Initial .source emptyControl := .start rfl rfl 1 []
  obtain ⟨ctl, hstep, hone⟩ : ∃ ctl,
      Control.Step emptyControl (.message .calm 0 echoRequest) ctl ∧ ctl.messages.length = 1 :=
    ⟨_, ⟨⟨rfl, by decide⟩, rfl⟩, rfl⟩
  have hfits : ControlEvent.ReplyFits emptyControl (.message .calm 0 echoRequest) := trivial
  exact ⟨ctl, hstep, hone, (saysLengths_iff hinit (.tail .refl hfits hstep)).1⟩

/-! ### A long entry -/

/-- An entry that matches everything goes into the linear table of a new datapath. -/
theorem insert_anyMatch {flow : SwFlow} (hkey : flow.key = flowExtractMatch anyMatch) :
    ∃ chain, (chainCreate .source).insert flow false = some chain ∧
      statsRemaining chain linearRequest (statsStart linearRequest) =
        [(1, { flow with serial := 0 })] := by
  obtain ⟨chain, hins, hflows⟩ : ∃ chain, (chainCreate .source).insert flow false = some chain ∧
      chain.linear.iterFlows = [{ flow with serial := 0 }] := by
    cases flow
    cases hkey
    exact ⟨_, rfl, rfl⟩
  refine ⟨chain, hins, ?_⟩
  have hread : linearRequest.reads 1 := .inr rfl
  have hstart : statsStart linearRequest = (1, .zero) := rfl
  have hselect : statsSelect linearRequest.matchKey linearRequest.outPort
      { flow with serial := 0 } = true := by
    rw [statsSelect, hkey, Bool.and_eq_true]
    exact ⟨by decide, rfl⟩
  rw [hstart, statsRemaining_one chain (by decide) rfl, remainingTables_linear, if_pos hread,
    hflows, List.filter_cons_of_pos hselect]
  rfl

/-- The bytes of a flow modification that adds an entry for everything with 8182 output actions. The
message has 65528 bytes. -/
def longMemory : Memory := fun i =>
  if i < sizeofOfpFlowMod then
    ([1, 14, 0xff, 0xf8, 0, 0, 0, 0, 0, 0x3f, 0xff, 0xff] ++ List.replicate 52 0 ++
      [0xff, 0xff, 0xff, 0xff, 0xff, 0xff, 0, 0]).getD i 0
  else [0, 0, 0, 8, 0, 1, 0, 0].getD (i % 8) 0

/-- The bytes behind the structure are output actions. -/
theorem slice_longMemory (n : ℕ) : longMemory.slice sizeofOfpFlowMod (8 * n) =
    (List.replicate n [0, 0, 0, 8, 0, 1, 0, 0]).flatten := by
  have hperiod : ∀ m, longMemory.slice sizeofOfpFlowMod m =
      (List.range m).map fun i => [0, 0, 0, 8, 0, 1, 0, 0].getD (i % 8) 0 := by
    intro m
    refine List.map_congr_left fun i _ => ?_
    have hmod : (sizeofOfpFlowMod + i) % 8 = i % 8 := by
      rw [sizeofOfpFlowMod]
      omega
    rw [longMemory, if_neg (by omega), hmod]
  rw [hperiod]
  induction n with
  | zero => rfl
  | succ n ih =>
    rw [List.replicate_succ', List.flatten_append, ← ih, Nat.mul_succ, List.range_add,
      List.map_append, List.map_map]
    congr 1
    simp [List.range, List.range.loop]

/-- The message. -/
def longMessage : OfpMessage := ⟨longMemory, by decide⟩

theorem OfpFlowMod.actions_ofMemory (m : Memory) : (OfpFlowMod.ofMemory m).actions =
    m.slice sizeofOfpFlowMod ((m.get16 2).toNat - sizeofOfpFlowMod) := by
  simp only [OfpFlowMod.ofMemory]

/-- A flow modification that adds an entry for everything is accepted by a new datapath. -/
theorem Datapath.addInstalled_anyMatch {dp : Datapath} (hdp : dp.chain = chainCreate .source)
    {ofm : OfpFlowMod} (hmatch : ofm.ofpMatch = anyMatch) (hflags : ofm.flags = 0)
    (hbuffer : ofm.bufferId = noBuffer)
    (hval : validateActions (flowExtractMatch anyMatch) ofm.actions = actValidationOk) :
    ∃ flow chain, dp.addInstalled 0 ofm = some chain ∧
      statsRemaining chain linearRequest (statsStart linearRequest) = [(1, flow)] ∧
        flow.actions = ofm.actions := by
  have hflag : ∀ flag, ofm.hasFlag flag = false := by
    intro flag
    have hzero : (0 : BitVec 16) &&& flag = 0 := BitVec.zero_and
    rw [OfpFlowMod.hasFlag, hflags, hzero]
    rfl
  have herror : dp.addFlowError ofm = none := by
    rw [Datapath.addFlowError]
    simp only [hmatch, hval, hflag, ne_eq, not_true_eq_false, if_false, Bool.false_and,
      Bool.false_eq_true]
  have htake : (dp.takeBuffer ofm).1 = none := by rw [Datapath.takeBuffer, if_pos hbuffer]
  have hkey : (ofm.newFlow 0).key = flowExtractMatch anyMatch := congrArg flowExtractMatch hmatch
  obtain ⟨chain, hins, hstats⟩ := insert_anyMatch hkey
  refine ⟨_, chain, ?_, hstats, rfl⟩
  simp only [Datapath.addInstalled, herror, htake, hflag, hdp]
  exact hins

theorem acceptedAction_output :
    AcceptedAction (flowExtractMatch anyMatch) [0, 0, 0, 8, 0, 1, 0, 0] where
  length_eq := by decide
  pos := by decide
  dvd := by decide
  known := ⟨_, rfl, by decide, by decide, fun validate h => by
    cases h
    decide⟩

theorem validateActions_longMemory : validateActions (flowExtractMatch anyMatch)
    (OfpFlowMod.ofMemory longMemory).actions = actValidationOk := by
  have hlen : (longMemory.get16 2).toNat - sizeofOfpFlowMod = 8 * 8182 := by decide
  refine validateActions_eq_ok_iff.2
    ⟨List.replicate 8182 [0, 0, 0, 8, 0, 1, 0, 0], ?_, fun a ha => ?_⟩
  · rw [OfpFlowMod.actions_ofMemory, hlen, slice_longMemory]
  · rw [(List.mem_replicate.1 ha).2]
    exact acceptedAction_output


/-- A request for the statistics of all entries of the linear table. -/
def linearStatsMessage : OfpMessage :=
  .ofBytes ([1, 16, 0, 56, 0, 0, 0, 0, 0, 1, 0, 0, 0, 0x3f, 0xff, 0xff] ++ List.replicate 36 0 ++
    [1, 0, 0xff, 0xff]) (by decide)

/-- A flow modification that is accepted and has no packet. -/
theorem meets_recvFlow_of_installed {env : Surroundings} {sender : Sender} {oh : Memory}
    {ofm : OfpFlowMod} {ctl : Control} {chain : SwChain} (hofm : .ofMemory oh = ofm)
    (hinst : ofm.IsInstallation) (hbuffer : ofm.bufferId = noBuffer)
    (hins : ctl.toDatapath.installed env.now ofm = some chain) {c : Contract Access ControlFault}
    (hseen : ∀ o, c.seen o) {Q : ℤ → Control → Prop}
    (hQ : ∀ code dp, dp.chain = chain →
      Q code { ctl with toSwitch := { ctl.toSwitch with toDatapath := dp } }) :
    Meets (Control.recvFlow env sender oh) c Q ctl := by
  obtain ⟨-, hchain, houtputs⟩ :=
    (Datapath.answers_recvFlowTables ctl.toDatapath env.now hinst).accepted chain hins
  have hnone : (ctl.toDatapath.takeBuffer ofm).1 = none := by
    rw [Datapath.takeBuffer, if_pos hbuffer]
  rw [hnone] at houtputs
  simp only [Control.recvFlow, meets_bind, meets_observe, meets_readLength, meets_get, setDatapath,
    meets_modify, hseen, true_and, hofm, houtputs]
  exact (meets_pure _).2 ((meets_pure _).2 (hQ _ _ hchain))

/-- The long flow modification is accepted. -/
theorem exists_step_longMessage : ∃ ctl flow,
    Control.Step emptyControl (.message .calm 0 longMessage) ctl ∧ ctl.cbDump 0 = none ∧
      statsRemaining ctl.chain linearRequest (statsStart linearRequest) = [(1, flow)] ∧
        flow.actions.length = 65456 := by
  have hlen : (longMemory.get16 2).toNat - sizeofOfpFlowMod = 8 * 8182 := by decide
  have hmatch : (OfpFlowMod.ofMemory longMemory).ofpMatch = anyMatch := by decide
  have hflags : (OfpFlowMod.ofMemory longMemory).flags = 0 := by decide
  have hbuffer : (OfpFlowMod.ofMemory longMemory).bufferId = noBuffer := by decide
  have hcmd : (OfpFlowMod.ofMemory longMemory).knownCommand = some .add := by decide
  have hval := validateActions_longMemory
  have hlength : (OfpFlowMod.ofMemory longMemory).actions.length = 65456 := by
    rw [OfpFlowMod.actions_ofMemory, Memory.length_slice, hlen]
  have hmeets : Meets (ControlEvent.message .calm 0 longMessage).run
      ⟨fun _ => True, fun _ => False⟩ (fun _ ctl => ∃ flow, ctl.cbDump 0 = none ∧
        statsRemaining ctl.chain linearRequest (statsStart linearRequest) = [(1, flow)] ∧
          flow.actions.length = 65456) emptyControl := by
    simp only [ControlEvent.run, meets_bind, meets_pure]
    rw [meets_receive_of_handler (t := .flowMod) (fun _ _ _ => trivial) (by decide) (by decide) rfl
      (by decide)]
    -- the bytes are not needed any more
    generalize hofm : OfpFlowMod.ofMemory longMemory = ofm at *
    obtain ⟨flow, chain, hins, hstats, hactions⟩ := @Datapath.addInstalled_anyMatch
      emptyControl.toDatapath rfl ofm hmatch hflags hbuffer hval
    have hinstalled : emptyControl.toDatapath.installed Surroundings.calm.now ofm = some chain := by
      rw [Datapath.installed, hcmd]
      exact hins
    refine meets_recvFlow_of_installed hofm (.inl hcmd) hbuffer hinstalled (fun _ => trivial)
      fun code dp hdp => ⟨flow, rfl, ?_, hactions ▸ hlength⟩
    rw [← hstats, ← hdp]
  obtain ⟨⟨⟩, ctl, hrun, flow, hdump, hstats, hactions⟩ := hmeets.exists_ok
  exact ⟨ctl, flow, ⟨⟨rfl, by decide⟩, hrun⟩, hdump, hstats, hactions⟩

/-- A request for the statistics of the linear table starts a dump. -/
theorem exists_step_linearStatsMessage {ctl : Control} (hdump : ctl.cbDump 0 = none) :
    ∃ ctl', Control.Step ctl (.message .calm 0 linearStatsMessage) ctl' ∧ ctl'.chain = ctl.chain ∧
      ctl'.cbDump 0 = some ⟨false, ⟨0, 0⟩, .flow (flowStatsInit linearRequest)⟩ := by
  have hmeets : Meets (ControlEvent.message .calm 0 linearStatsMessage).run
      ⟨fun _ => True, fun _ => False⟩ (fun _ ctl' => ctl'.chain = ctl.chain ∧
        ctl'.cbDump 0 = some ⟨false, ⟨0, 0⟩, .flow (flowStatsInit linearRequest)⟩) ctl := by
    have htype : linearStatsMessage.mem.get16 8 = 1 := by decide
    have hlength : (linearStatsMessage.mem.get16 2).toNat = 56 := by decide
    have hrequest : OfpFlowStatsRequest.ofMemory linearStatsMessage.mem = linearRequest := by decide
    have hxid : linearStatsMessage.xid = 0 := by decide
    simp only [ControlEvent.run, meets_bind, meets_pure]
    rw [meets_receive_of_handler (t := .statsRequest) (fun _ _ _ => trivial) (by decide) (by decide)
      rfl (by decide)]
    have hone : (1 : BitVec 16).toNat = 1 := rfl
    have hsize : ¬ ((56 : ℕ) - (sizeofOfpStatsRequest : ℤ) < sizeofOfpFlowStatsRequest ∨
        (sizeofOfpFlowStatsRequest : ℤ) < (56 : ℕ) - (sizeofOfpStatsRequest : ℤ)) := by decide
    simp only [recvStatsRequest, meets_bind, meets_readLength, meets_read16, htype, hlength,
      statsType, hone, meets_readBytes, meets_observe, if_neg hsize, meets_pure, remoteStartDump,
      meets_get, hdump, Option.isSome_none, Bool.false_eq_true, if_false, meets_modify, hrequest,
      hxid, Function.update_self, and_self]
  obtain ⟨⟨⟩, ctl', hrun, hchain, hcb⟩ := hmeets.exists_ok
  exact ⟨ctl', ⟨⟨hdump, by decide⟩, hrun⟩, hchain, hcb⟩

/-- The reply to a request for the statistics of an entry with 8182 actions has a length of more
than 16 bits. -/
theorem not_saysLengths : ¬ ∀ (sizes : TableSizes) (init ctl : Control), Initial sizes init →
    Transition.Reachable Control.Step init ctl → ctl.SaysLengths := by
  intro hall
  obtain ⟨ctl, flow, hfirst, hdump, hstats, hactions⟩ := exists_step_longMessage
  obtain ⟨ctl', hsecond, hchain, hcb⟩ := exists_step_linearStatsMessage hdump
  have hinit : Initial .source emptyControl := .start rfl rfl 1 []
  have hexact : ctl'.Exact :=
    ((hinit.exact.run hfirst.1 trivial).of_result hfirst.2 |>.run hsecond.1 trivial).of_result
      hsecond.2
  -- the dump of the reply has no failure, so that it leads to a state
  have hnot : ¬ (flowStatsInit linearRequest).ReplyFits ctl'.chain := by
    intro hfits
    rw [hchain] at hfits
    have hle := hfits [] (1, flow) [] hstats (by decide)
    rw [flowStatsLength, hactions, sizeofOfpStatsReply, sizeofOfpFlowStats] at hle
    exact absurd hle (by decide)
  refine hnot ((hexact.runDump_iff 0 0 hcb rfl rfl).2.1 (meets_any_iff.2 fun _ ctl'' hok => ?_))
  have hthird : Control.Step ctl' (.dump 0 0 0) ctl'' :=
    ⟨Option.isSome_iff_exists.2 ⟨_, hcb⟩, hok⟩
  exact hall .source emptyControl ctl'' hinit
    (((Transition.Reachable.step .refl hfirst).step hsecond).step hthird)

end Control

end OfAgent
