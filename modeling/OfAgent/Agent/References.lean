import Mathlib.Algebra.Order.BigOperators.Group.List
import Mathlib.Algebra.Order.Group.Nat
import OfAgent.Agent.Rejection
import OfAgent.Agent.Services

/-!
# What the services of the Zyxel device are for

The agent does not follow the flows of the working tables. Its records go with the messages: an
addition makes a record, and a deletion whose twelve compared fields are those of the record
unapplies it. Each service with an address is there for a record that has not been unapplied.

* `potential`: how many withdrawals it takes until no service has an address; `demand`: how many
  withdrawals the records with the address will make.
* `potential_le_demand`: in every reachable state the records make enough withdrawals.
* `agent_follows`: what an event does to the records, and what the services are for.
* `not_services_follow_tables`: a strict deletion empties the tables and leaves the service.
-/

namespace OfAgent

open FirstMatch

/-! ### The potential of the services -/

/-- The number of withdrawals until the slot does not have the address any more. -/
def weight (wan : BitVec 32) (slot : ZyxelServiceParams) : ℕ :=
  if slot.holds wan then (max slot.flowCounter.toInt 1).toNat else 0

/-- The number of withdrawals until no slot has the address. -/
def potential (wan : BitVec 32) (slots : List ZyxelServiceParams) : ℕ :=
  (slots.map (weight wan)).sum

theorem weight_of_ne {wan : BitVec 32} {slot : ZyxelServiceParams} (h : slot.wanAddress ≠ wan) :
    weight wan slot = 0 := by
  simp [weight, ZyxelServiceParams.holds, Ne.symm h]

theorem weight_pos {wan : BitVec 32} {slot : ZyxelServiceParams} (h : slot.holds wan = true) :
    0 < weight wan slot := by
  simp only [weight, if_pos h]
  omega

/-- One flow more adds at most one to the weight: the counter can only wrap downwards. -/
theorem weight_countUp_le (wan : BitVec 32) (slot : ZyxelServiceParams) :
    weight wan slot.countUp ≤ weight wan slot + 1 := by
  have hwrap : slot.countUp.flowCounter.toInt ≤ slot.flowCounter.toInt + 1 := by
    rw [ZyxelServiceParams.countUp, toInt_add_one]
    split <;> omega
  have hholds : slot.countUp.holds wan = slot.holds wan := rfl
  simp only [weight, hholds]
  split <;> omega

/-- A withdrawal takes one off the weight. -/
theorem weight_withdrawn {wan : BitVec 32} (hwan : wan ≠ 0) {slot : ZyxelServiceParams}
    (h : slot.holds wan = true) : weight wan slot = weight wan slot.withdrawn + 1 := by
  unfold ZyxelServiceParams.withdrawn
  split
  next hcount =>
    have hdown : slot.countDown.flowCounter.toInt = slot.flowCounter.toInt - 1 :=
      toInt_sub_one (by omega)
    have hholds : slot.countDown.holds wan = slot.holds wan := rfl
    simp only [weight, hholds, if_pos h, hdown]
    omega
  next hcount =>
    have hcleared : weight wan slot.cleared = 0 := weight_of_ne (Ne.symm hwan)
    rw [hcleared, weight, if_pos h]
    omega

/-- A withdrawal from an address takes one off its potential. -/
theorem potential_withdraw {wan : BitVec 32} (hwan : wan ≠ 0) (slots : List ZyxelServiceParams) :
    potential wan (withdraw wan slots) = potential wan slots - 1 := by
  refine sum_map_modifyFirst (fun slot hslot => ?_) (fun slot hslot => ?_) slots
  · simp [weight, hslot]
  · exact weight_withdrawn hwan hslot

/-- A withdrawal from another address leaves the potential as it is. -/
theorem potential_withdraw_of_ne {wan wan' : BitVec 32} (hwan : wan ≠ 0) (hne : wan' ≠ wan)
    (slots : List ZyxelServiceParams) :
    potential wan (withdraw wan' slots) = potential wan slots := by
  unfold withdraw
  obtain ⟨-, heq⟩ | ⟨pre, slot, post, rfl, -, hholds, heq⟩ := modifyFirst_cases
    (ZyxelServiceParams.holds wan') ZyxelServiceParams.withdrawn slots
  · rw [heq]
  · rw [heq]
    have haddr : slot.wanAddress = wan' := by
      simp only [ZyxelServiceParams.holds, Bool.and_eq_true, beq_iff_eq] at hholds
      exact hholds.1.symm
    have hslot : slot.wanAddress ≠ wan := haddr ▸ hne
    have hwithdrawn : slot.withdrawn.wanAddress ≠ wan := by
      unfold ZyxelServiceParams.withdrawn
      split
      · exact hslot
      · exact Ne.symm hwan
    simp only [potential, List.map_append, List.map_cons, weight_of_ne hslot,
      weight_of_ne hwithdrawn]

/-- Several withdrawals. -/
theorem potential_iterate {wan : BitVec 32} (hwan : wan ≠ 0) (wan' : BitVec 32) (n : ℕ)
    (slots : List ZyxelServiceParams) :
    potential wan ((withdraw wan')^[n] slots) =
      if wan' = wan then potential wan slots - n else potential wan slots := by
  induction n with
  | zero => simp
  | succ n ih =>
    rw [Function.iterate_succ_apply']
    split at ih
    next heq =>
      subst heq
      rw [potential_withdraw hwan, ih, if_pos rfl]
      omega
    next hne => rw [potential_withdraw_of_ne hwan hne, ih, if_neg hne]

/-! ### The demand of the records -/

/-- The record has not been unapplied, and its actions are about the address. -/
def InsertedFlow.uses (wan : BitVec 32) (infl : InsertedFlow) : Bool :=
  !infl.released && !infl.isArp && infl.wanAddress == wan

/-- The number of withdrawals that records will make from an address. -/
def demand (wan : BitVec 32) (infls : List InsertedFlow) : ℕ :=
  (infls.map fun infl => if infl.uses wan then infl.outputs.length else 0).sum

/-- A deletion takes the demand of the selected records off. -/
theorem demand_deleted (wan : BitVec 32) (ofpMatch : OfpMatch) (infls : List InsertedFlow) :
    demand wan infls =
      demand wan (infls.map (InsertedFlow.deleted ofpMatch)) +
        demand wan (selectedFlows ofpMatch infls) := by
  induction infls with
  | nil => rfl
  | cons infl infls ih =>
    simp only [demand, selectedFlows, List.map_cons, List.sum_cons, List.filter_cons] at ih ⊢
    unfold InsertedFlow.deleted at ih ⊢
    by_cases hm : myFlowFieldsMatch infl.ofpMatch ofpMatch = true
    · have hrel : (infl.release).uses wan = false := rfl
      simp only [if_pos hm, hrel, List.map_cons, List.sum_cons]
      simp only [Bool.false_eq_true, if_false]
      omega
    · simp only [if_neg hm]
      omega

/-- The demand of selected records that have not been released. -/
theorem demand_selected {wan : BitVec 32} {ofm : OfpFlowMod} {infls : List InsertedFlow}
    (hlive : ∀ infl ∈ infls, myFlowFieldsMatch infl.ofpMatch ofm.ofpMatch = true →
      infl.released = false) :
    demand wan (selectedFlows ofm.ofpMatch infls) =
      if ofm.insertedFlow.isArp = false ∧ ofm.insertedFlow.wanAddress = wan then
        outputCount (selectedFlows ofm.ofpMatch infls) else 0 := by
  have huses : ∀ infl ∈ selectedFlows ofm.ofpMatch infls, (infl.uses wan = true ↔
      ofm.insertedFlow.isArp = false ∧ ofm.insertedFlow.wanAddress = wan) := by
    intro infl hmem
    obtain ⟨hmem, hm⟩ := List.mem_filter.1 hmem
    have hm' : myFlowFieldsMatch infl.ofpMatch ofm.insertedFlow.ofpMatch = true := hm
    simp [InsertedFlow.uses, hlive infl hmem hm, isArp_eq_of_match hm', wanAddress_eq_of_match hm']
  unfold demand outputCount
  split
  next h => exact congrArg List.sum (List.map_congr_left fun infl hmem =>
    if_pos ((huses infl hmem).2 h))
  next h =>
    refine List.sum_eq_zero fun n hn => ?_
    obtain ⟨infl, hmem, rfl⟩ := List.mem_map.1 hn
    exact if_neg fun hu => h ((huses infl hmem).1 hu)

/-! ### The records make enough withdrawals -/

section Runs

variable {exitValue : ℕ → ℤ} {wan : BitVec 32} {agent agent' : Agent ZyxelState}

/-- Each action of a record adds at most one withdrawal, and only for the address of the record. -/
theorem potential_configure (hexit : ∀ n, 0 ≤ exitValue n) (wan : BitVec 32)
    (infl : InsertedFlow) (k : ℕ) {s : ZyxelState} (hs : s.props.WellFormed) :
    potential wan (configureService exitValue infl k s).1.props.createdServices ≤
      potential wan s.props.createdServices +
        if infl.isArp = false ∧ infl.wanAddress = wan then 1 else 0 := by
  obtain ⟨-, heq⟩ | ⟨hskip, -, s', pre, slot, post, heq, hservices, hcase⟩ :=
    configureService_cases hexit infl k s
  · rw [heq]
    exact Nat.le_add_right _ _
  have harp : infl.isArp = false := by
    simp only [InsertedFlow.skips, Bool.or_eq_false_iff] at hskip
    exact hskip.1.1.1
  -- only one slot changes, and that slot has the address of the record
  have hchange : ∀ slot', slot'.wanAddress = infl.wanAddress →
      s'.props.createdServices = pre ++ slot' :: post →
      weight wan slot' ≤ weight wan slot + 1 →
      potential wan s'.props.createdServices ≤ potential wan s.props.createdServices +
        if infl.isArp = false ∧ infl.wanAddress = wan then 1 else 0 := by
    intro slot' haddr hservices' hle
    simp only [hservices, hservices', potential, List.map_append, List.map_cons, List.sum_append,
      List.sum_cons, harp, true_and]
    by_cases h : infl.wanAddress = wan
    · rw [if_pos h]
      omega
    · rw [if_neg h, weight_of_ne (haddr ▸ h)]
      omega
  rw [heq]
  obtain ⟨-, hserves, hservices', -⟩ | ⟨hpre, -, hservices', -⟩ := hcase
  · have haddr : slot.wanAddress = infl.wanAddress := by
      simp only [ZyxelServiceParams.serves, Bool.and_eq_true, beq_iff_eq] at hserves
      exact hserves.1.symm
    exact hchange slot.countUp haddr hservices' (weight_countUp_le wan slot)
  · -- the new slot was zero, so its counter is one
    have hslot : slot = .zero := hs.fresh pre.length slot (Nat.le_of_eq hpre.symm)
      (by rw [hservices]; simp)
    refine hchange _ rfl hservices' ?_
    have hone : (infl.newService k slot).flowCounter.toInt = 1 := by
      rw [hslot]
      exact (by decide : ((0 : BitVec 16) + 1).toInt = 1)
    simp only [weight, hone]
    split <;> simp

/-- The actions of an addition. -/
theorem potential_apply (hexit : ∀ n, 0 ≤ exitValue n) (wan : BitVec 32) (infl : InsertedFlow)
    (ks : List ℕ) {r : ZyxelState × List ℕ} (hr : r.1.props.WellFormed) :
    potential wan (ks.foldl (configureStep exitValue infl) r).1.props.createdServices ≤
      potential wan r.1.props.createdServices +
        if infl.isArp = false ∧ infl.wanAddress = wan then ks.length else 0 := by
  induction ks generalizing r with
  | nil => exact Nat.le_add_right _ _
  | cons k ks ih =>
    have hstep := potential_configure hexit wan infl k hr
    have hrest := ih (r := configureStep exitValue infl r k) (hr.configure exitValue infl k)
    have hfst : (configureStep exitValue infl r k).1 = (configureService exitValue infl k r.1).1 :=
      rfl
    rw [hfst] at hrest
    rw [List.foldl_cons, List.length_cons]
    split at hrest
    next h =>
      rw [if_pos h] at hstep ⊢
      omega
    next h =>
      rw [if_neg h] at hstep ⊢
      omega

/-- In every reachable state the records make enough withdrawals from each address. -/
theorem potential_le_demand (hexit : ∀ n, 0 ≤ exitValue n) (hwan : wan ≠ 0)
    (h : Agent.Reachable (some (zyxelProps exitValue)) .init agent) :
    potential wan agent.device.props.createdServices ≤ demand wan agent.insertedFlows := by
  refine h.invariant_of_reached (fun agent => potential wan agent.device.props.createdServices ≤
    demand wan agent.insertedFlows) ?_ fun agent ofm agent' hreach hle _ hstep => ?_
  · have hzero : weight wan .zero = 0 := weight_of_ne (Ne.symm hwan)
    have hinit : potential wan ZyxelState.init.props.createdServices = 0 := by
      refine List.sum_eq_zero fun n hn => ?_
      obtain ⟨slot, hslot, rfl⟩ := List.mem_map.1 hn
      rw [List.eq_of_mem_replicate hslot, hzero]
    exact Nat.le_of_eq hinit
  obtain ⟨rfl, -⟩ | ⟨-, -, device, applied, happly, rfl⟩ | ⟨-, -, hloop⟩ :=
    handleFlowMod_cases hstep
  · exact hle
  · -- an addition
    have hdevice := congrArg Prod.fst (applyActions_zyxel happly)
    have happlied := potential_apply hexit wan ofm.insertedFlow ofm.insertedFlow.outputs
      (r := (agent.device, [])) (wellFormed_of_reachable hreach)
    rw [← hdevice] at happlied
    have hnew : demand wan [{ ofm.insertedFlow with applied }] =
        if ofm.insertedFlow.isArp = false ∧ ofm.insertedFlow.wanAddress = wan then
          ofm.insertedFlow.outputs.length else 0 := by
      have huses : InsertedFlow.uses wan { ofm.insertedFlow with applied } = true ↔
          ofm.insertedFlow.isArp = false ∧ ofm.insertedFlow.wanAddress = wan := by
        simp [InsertedFlow.uses, OfpFlowMod.insertedFlow, InsertedFlow.isArp,
          InsertedFlow.wanAddress]
      simp only [demand, List.map_singleton, List.sum_singleton, huses]
      rfl
    calc potential wan device.props.createdServices
        ≤ potential wan agent.device.props.createdServices + _ := happlied
      _ ≤ demand wan agent.insertedFlows + demand wan [{ ofm.insertedFlow with applied }] :=
          hnew ▸ Nat.add_le_add_right hle _
      _ = demand wan (agent.insertedFlows ++ [{ ofm.insertedFlow with applied }]) := by
          simp only [demand, List.map_append, List.sum_append]
  · -- a deletion
    obtain ⟨hinfls, -, hlive, -⟩ := deleteLoop_ok hloop
    have hsplit := demand_deleted wan ofm.ofpMatch agent.insertedFlows
    rw [demand_selected hlive, ← hinfls] at hsplit
    rw [deleteLoop_zyxel hloop]
    split
    next harp =>
      rw [if_neg (by simp [harp])] at hsplit
      omega
    next harp =>
      rw [(iterate_unconfigureService _ _ _).1, potential_iterate hwan]
      have harp := Bool.eq_false_iff.2 harp
      simp only [harp, true_and] at hsplit
      split at hsplit
      next haddr =>
        rw [if_pos haddr]
        omega
      next haddr =>
        rw [if_neg haddr]
        omega

/-! ### What the agent follows -/

/-- The event is a deletion that the agent handles and whose compared fields are those of the
`i`-th record. -/
def Agent.Selects {σ : Type*} (agent : Agent σ) (e : DatapathEvent) (i : ℕ) : Prop :=
  ∃ now ofm infl, e = .flowMod now ofm ∧ agent.insertedFlows.length < maxNumberOfFlows ∧
    ofm.knownCommand = some .delete ∧ agent.insertedFlows[i]? = some infl ∧
    myFlowFieldsMatch infl.ofpMatch ofm.ofpMatch = true

/-- What an event does to the records. -/
structure Agent.Follows {σ : Type*} (agent : Agent σ) (e : DatapathEvent) (agent' : Agent σ) :
    Prop where
  /-- The records that are unapplied are those that the event selects. -/
  selects : ∃ l, agent'.unapplied = agent.unapplied ++ l ∧ ∀ i, i ∈ l ↔ agent.Selects e i
  /-- No record is unapplied twice. -/
  once : agent'.unapplied.Nodup
  /-- Only additions and deletions change anything. -/
  frame : (∀ now ofm, e = .flowMod now ofm →
    ofm.knownCommand ≠ some .add ∧ ofm.knownCommand ≠ some .delete) → agent' = agent

/-- What the handler does to the records. -/
theorem selects_of_handleFlowMod {σ : Type*} {dev : DevProperties σ} {agent agent' : Agent σ}
    {now : BitVec 64} {ofm : OfpFlowMod}
    (hstep : handleFlowMod (some dev) agent ofm = .ok agent') :
    ∃ l, agent'.unapplied = agent.unapplied ++ l ∧
      ∀ i, i ∈ l ↔ agent.Selects (.flowMod now ofm) i := by
  -- most messages select nothing
  have hnone : (∀ i, ¬ agent.Selects (.flowMod now ofm) i) → agent'.unapplied = agent.unapplied →
      ∃ l, agent'.unapplied = agent.unapplied ++ l ∧
        ∀ i, i ∈ l ↔ agent.Selects (.flowMod now ofm) i := by
    intro hsel heq
    exact ⟨[], by rw [heq, List.append_nil], fun i => iff_of_false List.not_mem_nil (hsel i)⟩
  obtain ⟨rfl, hwhy⟩ | ⟨-, hadd, device, applied, -, rfl⟩ | ⟨hlt, hdel, hloop⟩ :=
    handleFlowMod_cases hstep
  · refine hnone ?_ rfl
    rintro i ⟨_, _, _, heq, hlt, hdel, -⟩
    cases heq
    rcases hwhy with hfull | ⟨-, hne⟩
    · exact absurd hlt (Nat.not_lt.2 hfull)
    · exact hne hdel
  · refine hnone ?_ rfl
    rintro i ⟨_, _, _, heq, -, hdel, -⟩
    cases heq
    rw [hadd] at hdel
    cases hdel
  · refine ⟨_, (deleteLoop_ok hloop).2.1, fun i => ?_⟩
    rw [mem_selectedIndices]
    constructor
    · rintro ⟨k, infl, hk, hget, hm⟩
      obtain rfl : i = k := by omega
      exact ⟨now, ofm, infl, rfl, hlt, hdel, hget, hm⟩
    · rintro ⟨_, _, infl, heq, -, -, hget, hm⟩
      cases heq
      exact ⟨i, infl, by omega, hget, hm⟩

/-- What an event that does not fault does to the records of a reachable system. -/
theorem follows_of_exec {σ : Type*} {dev : DevProperties σ} {device : σ} {sizes : TableSizes}
    {s s' : System σ} {e : DatapathEvent} (hr : System.Reachable (some dev) sizes device s)
    (hstep : s.exec (some dev) e = .ok s') : s.agent.Follows e s'.agent := by
  have hsound := (System.agent_reachable hr).sound
  obtain ⟨-, ⟨now, ofm, rfl, hagent⟩ | ⟨hne, hagent⟩⟩ := System.exec_cases hstep
  · refine ⟨selects_of_handleFlowMod hagent, (hsound.next hagent).nodup, fun hother => ?_⟩
    obtain ⟨hadd, hdel⟩ := hother now ofm rfl
    obtain ⟨heq, -⟩ | ⟨-, h, -⟩ | ⟨-, h, -⟩ := handleFlowMod_cases hagent
    · exact heq
    · exact absurd h hadd
    · exact absurd h hdel
  · rw [hagent]
    refine ⟨⟨[], (List.append_nil _).symm, fun i => iff_of_false List.not_mem_nil ?_⟩,
      hsound.nodup, fun _ => rfl⟩
    rintro ⟨now, ofm, -, heq, -⟩
    exact hne now ofm heq

/-- In every reachable system an event unapplies the records that it selects, each once, and each
service with an address is there for a record with that address and with an action that configures
the device. -/
theorem agent_follows (hexit : ∀ n, 0 ≤ exitValue n) {sizes : TableSizes} {s : System ZyxelState}
    (hr : System.Reachable (some (zyxelProps exitValue)) sizes .init s) :
    (∀ e s', s.exec (some (zyxelProps exitValue)) e = .ok s' → s.agent.Follows e s'.agent) ∧
      ∀ slot ∈ s.agent.device.props.createdServices, slot.wanAddress ≠ 0 →
        ∃ infl ∈ s.agent.insertedFlows,
          infl.uses slot.wanAddress = true ∧ infl.outputs ≠ [] := by
  refine ⟨fun e s' hstep => follows_of_exec hr hstep, fun slot hslot hwan => ?_⟩
  have hreach := System.agent_reachable hr
  have hholds : slot.holds slot.wanAddress = true := by
    simp [ZyxelServiceParams.holds, (wellFormed_of_reachable hreach).mask slot hslot]
  have hpos : 0 < demand slot.wanAddress s.agent.insertedFlows :=
    calc 0 < weight slot.wanAddress slot := weight_pos hholds
      _ ≤ potential slot.wanAddress s.agent.device.props.createdServices :=
          List.le_sum_of_mem (List.mem_map_of_mem hslot)
      _ ≤ demand slot.wanAddress s.agent.insertedFlows := potential_le_demand hexit hwan hreach
  by_contra hnone
  push Not at hnone
  refine Nat.lt_irrefl 0 (hpos.trans_eq (List.sum_eq_zero fun n hn => ?_))
  obtain ⟨infl, hmem, rfl⟩ := List.mem_map.1 hn
  split
  next huses => rw [hnone infl hmem huses, List.length_nil]
  next => rfl

end Runs

/-- The address of the packets of a flow, read as the agent reads it. -/
def SwFlow.wanAddress (flow : SwFlow) : BitVec 32 :=
  if flow.key.flow.nwSrc = 0 then flow.key.flow.nwDst else flow.key.flow.nwSrc

/-- A system with one flow, which has a service. -/
def oneService : System ZyxelState :=
  newSystem.runEvents zyxelPlatform [.flowMod 0 (outputFlowMod 0 (wanMatch 1 10 1) 2)]

/-- The service of the flow is there for its record. -/
theorem agent_follows_oneService :
    (∃ slot ∈ oneService.agent.device.props.createdServices, slot.wanAddress ≠ 0) ∧
      ∀ slot ∈ oneService.agent.device.props.createdServices, slot.wanAddress ≠ 0 →
        ∃ infl ∈ oneService.agent.insertedFlows,
          infl.uses slot.wanAddress = true ∧ infl.outputs ≠ [] :=
  ⟨by decide +kernel, (agent_follows (fun _ => Int.le_refl 0)
    (System.reachable_runEvents (by decide +kernel))).2⟩

/-- A system whose only flow has been deleted strictly. -/
def strictlyDeleted : System ZyxelState :=
  newSystem.runEvents zyxelPlatform
    [.flowMod 0 (outputFlowMod 0 (wanMatch 1 10 1) 2),
      .flowMod 0 (plainFlowMod 4 (wanMatch 1 10 1) 1)]

/-- A strict deletion empties the working tables, and the service of the flow stays. -/
theorem not_services_follow_tables : ¬ ∀ (sizes : TableSizes) (s : System ZyxelState),
    System.Reachable zyxelPlatform sizes .init s →
      ∀ slot ∈ s.agent.device.props.createdServices, slot.inPort ≠ 0 →
        ∃ flow ∈ s.dp.chain.workingFlows, flow.wanAddress = slot.wanAddress := by
  intro hall
  have hr : System.Reachable zyxelPlatform .source .init strictlyDeleted :=
    System.reachable_runEvents (by decide +kernel)
  have hempty : strictlyDeleted.dp.chain.workingFlows = [] := by
    rw [SwChain.workingFlows, SwTableHash2.flows, SwTableHash.flows_of_forall_none fun _ => rfl,
      SwTableHash.flows_of_forall_none fun _ => rfl]
    decide +kernel
  have hactive : ∃ slot ∈ strictlyDeleted.agent.device.props.createdServices,
      slot.inPort ≠ 0 := by decide +kernel
  obtain ⟨slot, hslot, hactive⟩ := hactive
  obtain ⟨flow, hmem, -⟩ := hall .source _ hr slot hslot hactive
  rw [hempty] at hmem
  cases hmem

end OfAgent
