import Mathlib.Data.Finset.Card
import OfAgent.Agent.Ledger
import OfAgent.Agent.Rejection

/-!
# The counters of the services

The counter of a service is meant to be the number of actions of live records that have been
configured for its address and VLAN. The additions find a service by both, the deletions by the
address alone, so the counters are right only as long as the deletions take from each service what
they gave it.

* `references`: the number of configured actions of live records for an address and a VLAN.
* `Agent.Counted`: the counters are right.
* `TagsFit`, `Agent.StepCounts`: which additions and deletions keep them right.
* `Ledger.apply`: the actions of an addition.
* `counted_of_reachableVia`: in every run of such messages the counters are right.
* `not_counted`: a deletion of a record whose action has been skipped takes a flow from a service.
-/

namespace OfAgent

/-! ### References -/

/-- The number of configured actions of a record for an address and a VLAN, unless the record has
been released. -/
def InsertedFlow.references (infl : InsertedFlow) (wan : BitVec 32) (vlan : BitVec 16) : ℕ :=
  if infl.released = false ∧ infl.wanAddress = wan then
    infl.applied.countP fun k => infl.vlanTag k == vlan
  else 0

/-- The number of configured actions of records for an address and a VLAN. -/
def references (infls : List InsertedFlow) (wan : BitVec 32) (vlan : BitVec 16) : ℕ :=
  (infls.map fun infl => infl.references wan vlan).sum

/-- The counters are right: that of an active service is the number of the references to it, and
that of an inactive slot is zero. -/
structure Agent.Counted (agent : Agent ZyxelState) : Prop where
  /-- The active services. -/
  active : ∀ slot ∈ agent.device.props.createdServices, slot.inPort ≠ 0 →
    slot.flowCounter.toInt = references agent.insertedFlows slot.wanAddress slot.vlanTag
  /-- The inactive slots. -/
  inactive : ∀ slot ∈ agent.device.props.createdServices, slot.inPort = 0 → slot.flowCounter = 0

/-- A deletion gives up the references of the selected records. -/
theorem references_deleted (ofpMatch : OfpMatch) (infls : List InsertedFlow) (wan : BitVec 32)
    (vlan : BitVec 16) :
    references infls wan vlan =
      references (infls.map (InsertedFlow.deleted ofpMatch)) wan vlan +
        references (selectedFlows ofpMatch infls) wan vlan := by
  induction infls with
  | nil => rfl
  | cons infl infls ih =>
    simp only [references, selectedFlows, List.map_cons, List.sum_cons, List.filter_cons] at ih ⊢
    unfold InsertedFlow.deleted at ih ⊢
    by_cases hm : myFlowFieldsMatch infl.ofpMatch ofpMatch = true
    · have hrel : infl.release.references wan vlan = 0 := by
        simp [InsertedFlow.references, InsertedFlow.release]
      simp only [if_pos hm, hrel, List.map_cons, List.sum_cons]
      omega
    · simp only [if_neg hm]
      omega

/-! ### Which messages keep the counters right -/

/-- How many references a service can count: as many as its counter holds, but a single one when
its VLAN, which is compared unsigned, is negative as a `short`. -/
def capacity (vlan : BitVec 16) : ℕ := if vlan.toNat < 2 ^ 15 then 2 ^ 15 - 1 else 1

/-- The VLANs of actions that are configured one after the other fit: whenever the next slot of the
array is still there, the service of the next VLAN can count one reference more. A VLAN without
references takes a slot. -/
def TagsFit (refs : BitVec 16 → ℕ) (allocator : ℕ) (tags : List (BitVec 16)) : Prop :=
  ∀ pre vlan post, tags = pre ++ vlan :: post →
    allocator + (pre.toFinset.filter fun tag => refs tag = 0).card < maxServices →
      refs vlan + pre.count vlan < capacity vlan

/-- The VLANs of the actions of a record that are not skipped. -/
def InsertedFlow.tags (infl : InsertedFlow) (ks : List ℕ) : List (BitVec 16) :=
  (ks.filter fun k => !infl.skips k).map infl.vlanTag

/-- The number of withdrawals that a deletion makes. -/
def withdrawals (ofm : OfpFlowMod) (infls : List InsertedFlow) : ℕ :=
  if ofm.insertedFlow.isArp then 0 else outputCount (selectedFlows ofm.ofpMatch infls)

/-- The message keeps the counters right, or the agent does not handle it. The VLANs of an addition
fit. In a deletion each slot loses as many flows as the selected records have references to it. -/
def Agent.StepCounts (agent : Agent ZyxelState) (ofm : OfpFlowMod) : Prop :=
  agent.insertedFlows.length < maxNumberOfFlows →
    (ofm.knownCommand = some .add →
      TagsFit (references agent.insertedFlows ofm.insertedFlow.wanAddress)
        agent.device.props.serviceAllocatorIndex
        (ofm.insertedFlow.tags ofm.insertedFlow.outputs)) ∧
    (ofm.knownCommand = some .delete →
      agent.device.props.createdServices.map (fun slot =>
          references (selectedFlows ofm.ofpMatch agent.insertedFlows) slot.wanAddress
            slot.vlanTag) =
        loss ofm.insertedFlow.wanAddress (withdrawals ofm agent.insertedFlows)
          agent.device.props.createdServices)

/-- The first VLAN fits when there is a slot. -/
theorem TagsFit.head {refs : BitVec 16 → ℕ} {allocator : ℕ} {vlan : BitVec 16}
    {tags : List (BitVec 16)} (h : TagsFit refs allocator (vlan :: tags))
    (hlt : allocator < maxServices) : refs vlan < capacity vlan :=
  h [] vlan tags rfl (by simpa using hlt)

/-- The other VLANs fit when the first one has been counted. -/
theorem TagsFit.tail {refs : BitVec 16 → ℕ} {allocator : ℕ} {vlan : BitVec 16}
    {tags : List (BitVec 16)} (h : TagsFit refs allocator (vlan :: tags)) :
    TagsFit (fun tag => refs tag + if tag = vlan then 1 else 0)
      (if refs vlan = 0 then allocator + 1 else allocator) tags := by
  rintro pre tag post rfl hlt
  have hfit := h (vlan :: pre) tag post rfl
  rw [List.count_cons] at hfit
  have hfilter : (pre.toFinset.filter fun t => (refs t + if t = vlan then 1 else 0) = 0) =
      (pre.toFinset.filter fun t => refs t = 0).erase vlan := by
    ext t
    simp only [Finset.mem_filter, Finset.mem_erase]
    by_cases ht : t = vlan <;> simp [ht]
  rw [hfilter] at hlt
  rw [List.toFinset_cons, Finset.filter_insert] at hfit
  have hcount : (if (vlan == tag) = true then 1 else 0) = if tag = vlan then 1 else 0 := by
    by_cases htag : tag = vlan
    · simp [htag]
    · simp [htag, Ne.symm htag]
  rw [hcount, Nat.add_comm (pre.count tag), ← Nat.add_assoc] at hfit
  by_cases hnew : refs vlan = 0
  · -- the first VLAN takes a slot, whether it comes again or not
    have hcard := Finset.card_erase_add_one
      (Finset.mem_insert_self vlan (pre.toFinset.filter fun t => refs t = 0))
    rw [Finset.erase_insert_eq_erase] at hcard
    rw [if_pos hnew, ← hcard] at hfit
    rw [if_pos hnew] at hlt
    exact hfit (by omega)
  · rw [if_neg hnew] at hlt hfit
    rw [Finset.erase_eq_of_notMem (by simp [hnew])] at hlt
    exact hfit hlt

/-! ### Additions -/

section Configure

variable {exitValue : ℕ → ℤ} {refs : BitVec 32 → BitVec 16 → ℕ}

/-- An action that is configured adds a reference, and takes a slot when it is the first one for
its address and VLAN. -/
theorem Ledger.configure (hexit : ∀ n, 0 ≤ exitValue n) {s : ZyxelState}
    (hs : s.props.WellFormed) (h : Ledger s.props.createdServices refs) {infl : InsertedFlow}
    {k : ℕ} (hskip : infl.skips k = false) (hlt : s.props.serviceAllocatorIndex < maxServices)
    (hfit : refs infl.wanAddress (infl.vlanTag k) < capacity (infl.vlanTag k)) :
    ∃ s', configureService exitValue infl k s = (s', 0) ∧
      Ledger s'.props.createdServices (fun wan vlan => refs wan vlan +
        if wan = infl.wanAddress ∧ vlan = infl.vlanTag k then 1 else 0) ∧
      s'.props.serviceAllocatorIndex =
        if refs infl.wanAddress (infl.vlanTag k) = 0 then s.props.serviceAllocatorIndex + 1
        else s.props.serviceAllocatorIndex := by
  have hskips : infl.isArp = false ∧ infl.ofpMatch.inPort ≠ 0 ∧ infl.outPort k ≠ 0 ∧
      infl.vlanTag k ≠ 0 := by
    simpa [InsertedFlow.skips, and_assoc] using hskip
  obtain ⟨-, hport, -, hvlan⟩ := hskips
  obtain ⟨hwhy, -⟩ | ⟨-, -, s', pre, slot, post, heq, hservices, hcase⟩ :=
    configureService_cases hexit infl k s
  · rcases hwhy with hskip' | hfull
    · rw [hskip] at hskip'
      cases hskip'
    · omega
  refine ⟨s', heq, ?_⟩
  have hslot : slot ∈ s.props.createdServices := by
    rw [hservices]
    simp
  obtain ⟨-, hserves, hservices', halloc⟩ | ⟨hpre, hpre', hservices', halloc⟩ := hcase
  · -- a service that is found is active
    obtain ⟨hwan, htag⟩ := vlanTag_eq_of_serves hserves
    have hactive : slot.inPort ≠ 0 := fun h0 => by
      rw [(h.inactive slot hslot h0).2.1] at htag
      exact hvlan htag.symm
    obtain ⟨-, hpos, hcount⟩ := h.active slot hslot hactive
    rw [hservices] at h
    rw [hwan, htag] at hpos hcount
    refine ⟨?_, by rw [halloc, if_neg (Nat.ne_of_gt hpos)]⟩
    have hcap : capacity (infl.vlanTag k) ≤ 2 ^ 15 - 1 := by
      unfold capacity
      split <;> omega
    have hup : slot.countUp.flowCounter.toInt = slot.flowCounter.toInt + 1 := by
      rw [ZyxelServiceParams.countUp, toInt_add_one, if_neg (by omega)]
    have hother := fun x hx => h.ne_of_split hactive (x := x) hx
    have hnew := h.replace slot.countUp (htag ▸ hvlan) hactive
      (by rw [hup, hcount, ← hwan, ← htag]; rfl) hother fun _ => ⟨rfl, rfl⟩
    rw [hservices', ← hwan, ← htag]
    exact hnew
  · -- a service that is not found has no references
    have hnone : refs infl.wanAddress (infl.vlanTag k) = 0 := by
      by_contra hne
      have hsmall : (infl.vlanTag k).toNat < 2 ^ 15 := by
        by_contra hbig
        rw [capacity, if_neg hbig] at hfit
        omega
      obtain ⟨x, hx, hx0, hwan, htag⟩ := h.complete _ _ (Nat.pos_of_ne_zero hne)
      obtain ⟨i, hi⟩ := List.getElem?_of_mem hx
      have hlow : i < s.props.serviceAllocatorIndex := by
        by_contra hge
        exact hx0 (by rw [hs.fresh i x (Nat.not_lt.1 hge) hi]; rfl)
      rw [hservices, List.getElem?_append_left (hpre ▸ hlow)] at hi
      have hserves := hpre' x (List.mem_of_getElem? hi)
      rw [← hwan, ← htag, serves_of_eq (htag ▸ hsmall)] at hserves
      cases hserves
    have hzero : slot = .zero := hs.fresh pre.length slot (Nat.le_of_eq hpre.symm)
      (by rw [hservices]; simp)
    rw [hnone, if_pos rfl]
    refine ⟨?_, halloc⟩
    have hother : ∀ x ∈ pre ++ post, x.inPort ≠ 0 →
        ¬ (x.wanAddress = infl.wanAddress ∧ x.vlanTag = infl.vlanTag k) := by
      rintro x hx hx0 ⟨hwan, htag⟩
      have hx' : x ∈ s.props.createdServices := by
        rw [hservices]
        simp only [List.mem_append, List.mem_cons] at hx ⊢
        tauto
      have hpos := (h.active x hx' hx0).2.1
      rw [hwan, htag, hnone] at hpos
      exact Nat.lt_irrefl 0 hpos
    have hone : (infl.newService k slot).flowCounter.toInt = 1 := by
      rw [hzero]
      exact (by decide : ((0 : BitVec 16) + 1).toInt = 1)
    have hcount : (1 : ℤ) = refs infl.wanAddress (infl.vlanTag k) + 1 := by
      rw [hnone]
      rfl
    rw [hservices] at h
    have hnew := h.replace (infl.newService k slot) hvlan hport (hone.trans hcount) hother
      fun h0 => absurd (by rw [hzero]; rfl) h0
    rw [hservices']
    exact hnew

/-- The references while the actions of a record are being applied. -/
def refsWith (refs : BitVec 32 → BitVec 16 → ℕ) (infl : InsertedFlow) (applied : List ℕ)
    (wan : BitVec 32) (vlan : BitVec 16) : ℕ :=
  refs wan vlan +
    if infl.wanAddress = wan then applied.countP fun k => infl.vlanTag k == vlan else 0

/-- One action more. -/
theorem refsWith_append (infl : InsertedFlow) (applied : List ℕ) (k : ℕ) :
    refsWith refs infl (applied ++ [k]) = fun wan vlan => refsWith refs infl applied wan vlan +
      if wan = infl.wanAddress ∧ vlan = infl.vlanTag k then 1 else 0 := by
  funext wan vlan
  unfold refsWith
  by_cases hwan : infl.wanAddress = wan
  · by_cases hvlan : infl.vlanTag k = vlan
    · simp [hwan.symm, hvlan.symm, List.countP_append, Nat.add_assoc]
    · simp [hwan.symm, hvlan, Ne.symm hvlan, List.countP_append]
  · simp [hwan, Ne.symm hwan]

/-- The actions of an addition keep the ledger when their VLANs fit. -/
theorem Ledger.apply (hexit : ∀ n, 0 ≤ exitValue n) (infl : InsertedFlow) (ks : List ℕ)
    {r : ZyxelState × List ℕ} (hr : r.1.props.WellFormed)
    (h : Ledger r.1.props.createdServices (refsWith refs infl r.2))
    (hfit : TagsFit (refsWith refs infl r.2 infl.wanAddress) r.1.props.serviceAllocatorIndex
      (infl.tags ks)) :
    Ledger (ks.foldl (configureStep exitValue infl) r).1.props.createdServices
      (refsWith refs infl (ks.foldl (configureStep exitValue infl) r).2) := by
  induction ks generalizing r with
  | nil => exact h
  | cons k ks ih =>
    rw [List.foldl_cons]
    have hstay : configureService exitValue infl k r.1 = (r.1, -1) →
        configureStep exitValue infl r k = r := by
      intro heq
      simp [configureStep, heq]
    by_cases hskip : infl.skips k = true
    · have hsame : configureStep exitValue infl r k = r :=
        hstay (by simp only [configureService, hskip, if_true])
      have htags : infl.tags (k :: ks) = infl.tags ks := by simp [InsertedFlow.tags, hskip]
      rw [hsame]
      exact ih hr h (htags ▸ hfit)
    have hskip := Bool.eq_false_iff.2 hskip
    have htags : infl.tags (k :: ks) = infl.vlanTag k :: infl.tags ks := by
      simp [InsertedFlow.tags, hskip]
    rw [htags] at hfit
    by_cases hlt : r.1.props.serviceAllocatorIndex < maxServices
    · obtain ⟨s', heq, hledger, halloc⟩ :=
        Ledger.configure hexit hr h hskip hlt (hfit.head hlt)
      have hstep : configureStep exitValue infl r k = (s', r.2 ++ [k]) := by
        simp [configureStep, heq]
      have hwf := hr.configure exitValue infl k
      rw [heq] at hwf
      have htail := hfit.tail
      rw [← halloc] at htail
      rw [hstep]
      refine ih hwf ?_ ?_
      · rw [refsWith_append]
        exact hledger
      · rw [refsWith_append]
        simpa using htail
    · -- nothing is configured any more
      have hsame : configureStep exitValue infl r k = r := by
        refine hstay ?_
        have hfull : maxServices - 1 < r.1.props.serviceAllocatorIndex :=
          Nat.lt_of_lt_of_le (by decide) (Nat.not_lt.1 hlt)
        simp only [configureService, hskip, hfull, Bool.false_eq_true, if_false, if_true]
      rw [hsame]
      refine ih hr h fun pre vlan post _ hlt' => ?_
      omega

end Configure

/-! ### Runs -/

section Runs

variable {exitValue : ℕ → ℤ} {agent agent' : Agent ZyxelState} {ofm : OfpFlowMod}

/-- The ledger of a new agent. -/
theorem ledger_init : Ledger ZyxelState.init.props.createdServices (references []) where
  active slot hslot h0 := by
    rw [List.eq_of_mem_replicate hslot] at h0
    exact absurd rfl h0
  inactive slot hslot _ := by
    rw [List.eq_of_mem_replicate hslot]
    exact ⟨rfl, rfl, rfl⟩
  distinct := by decide
  complete wan vlan hpos := absurd hpos (Nat.lt_irrefl 0)

/-- The handler keeps the ledger on the messages that keep the counters right. -/
theorem Ledger.handleFlowMod (hexit : ∀ n, 0 ≤ exitValue n)
    (hs : agent.device.props.WellFormed)
    (h : Ledger agent.device.props.createdServices (references agent.insertedFlows))
    (hok : agent.StepCounts ofm)
    (hstep : handleFlowMod (some (zyxelProps exitValue)) agent ofm = .ok agent') :
    Ledger agent'.device.props.createdServices (references agent'.insertedFlows) := by
  obtain ⟨rfl, -⟩ | ⟨hlt, hadd, device, applied, happly, rfl⟩ | ⟨hlt, hdel, hloop⟩ :=
    handleFlowMod_cases hstep
  · exact h
  · -- an addition: one reference for each service that has been configured
    have hfold := applyActions_zyxel happly
    have hrefs : refsWith (references agent.insertedFlows) ofm.insertedFlow [] =
        references agent.insertedFlows := by
      funext wan vlan
      simp [refsWith]
    have hledger := Ledger.apply hexit ofm.insertedFlow ofm.insertedFlow.outputs
      (r := (agent.device, [])) hs (hrefs.symm ▸ h) (hrefs.symm ▸ (hok hlt).1 hadd)
    rw [← hfold] at hledger
    have hnew : refsWith (references agent.insertedFlows) ofm.insertedFlow applied =
        references (agent.insertedFlows ++ [{ ofm.insertedFlow with applied }]) := by
      funext wan vlan
      have hone : ({ ofm.insertedFlow with applied } : InsertedFlow).references wan vlan =
          if ofm.insertedFlow.wanAddress = wan then
            applied.countP fun k => ofm.insertedFlow.vlanTag k == vlan else 0 := by
        change (if false = false ∧ ofm.insertedFlow.wanAddress = wan then
          applied.countP fun k => ofm.insertedFlow.vlanTag k == vlan else 0) = _
        simp only [true_and]
      rw [references, List.map_append, List.sum_append, List.map_singleton, List.sum_singleton,
        hone]
      rfl
    exact hnew ▸ hledger
  · -- a deletion: one withdrawal for each reference of the records that are deleted
    obtain ⟨hinfls, -, -, -⟩ := deleteLoop_ok hloop
    have hdevice : agent'.device = (unconfigureService ofm.insertedFlow.wanAddress)^[
        withdrawals ofm agent.insertedFlows] agent.device := by
      rw [deleteLoop_zyxel hloop, withdrawals]
      split <;> rfl
    rw [hdevice, (iterate_unconfigureService _ _ _).1, hinfls]
    exact h.withdraw hs.mask (references_deleted ofm.ofpMatch agent.insertedFlows)
      ((hok hlt).2 hdel)

/-- In every run of messages that keep the counters right the counters are right. -/
theorem counted_of_reachableVia (hexit : ∀ n, 0 ≤ exitValue n)
    (h : Transition.ReachableVia
      (Transition.StepOf (OfAgent.handleFlowMod (some (zyxelProps exitValue)))) Agent.StepCounts
      (.init .init) agent) : agent.Counted := by
  have hledger : Ledger agent.device.props.createdServices (references agent.insertedFlows) :=
    h.invariant_of_reached
      (fun agent => Ledger agent.device.props.createdServices (references agent.insertedFlows))
      ledger_init fun agent ofm agent' hreach hledger hok hstep =>
        Ledger.handleFlowMod hexit (wellFormed_of_reachable hreach.reachable) hledger hok hstep
  exact ⟨fun slot hslot h0 => (hledger.active slot hslot h0).2.2,
    fun slot hslot h0 => (hledger.inactive slot hslot h0).2.2⟩

end Runs

theorem tagsFit_singleton {refs : BitVec 16 → ℕ} {allocator : ℕ} {vlan : BitVec 16}
    (h : refs vlan < capacity vlan) : TagsFit refs allocator [vlan] := by
  intro pre tag post heq _
  cases pre with
  | nil =>
    cases heq
    simpa using h
  | cons x pre => simp at heq

/-- A message that adds a flow with an output, from a port and with a VLAN. -/
def addFlow (inPort vlan : BitVec 16) : OfpFlowMod := outputFlowMod 0 (wanMatch inPort vlan 1) 2

/-- The deletion of such a flow. -/
def deleteFlow (inPort vlan : BitVec 16) : OfpFlowMod := plainFlowMod 3 (wanMatch inPort vlan 1) 0

/-- The agent of a new system after messages, when all commands succeed. -/
def agentAfter (ofms : List OfpFlowMod) : Agent ZyxelState :=
  Agent.runMessages zyxelPlatform (.init .init) ofms

/-- A single action that is not skipped, and whose service can count it, keeps the counters
right. -/
theorem stepCounts_addFlow {agent : Agent ZyxelState} {inPort vlan : BitVec 16}
    (htags : (addFlow inPort vlan).insertedFlow.tags (addFlow inPort vlan).insertedFlow.outputs =
      [vlan])
    (hfit : references agent.insertedFlows (addFlow inPort vlan).insertedFlow.wanAddress vlan <
      capacity vlan) : agent.StepCounts (addFlow inPort vlan) := by
  have hadd : (addFlow inPort vlan).knownCommand = some .add := rfl
  refine fun _ => ⟨fun _ => ?_, fun hdel => ?_⟩
  · rw [htags]
    exact tagsFit_singleton hfit
  · rw [hadd] at hdel
    cases hdel

/-- Two flows share a service, and one of them is deleted. -/
theorem counted_sharing : (agentAfter [addFlow 1 10, addFlow 3 10, deleteFlow 1 10]).Counted := by
  have hstep1 : Transition.StepOf (handleFlowMod zyxelPlatform) (.init .init) (addFlow 1 10)
      (agentAfter [addFlow 1 10]) := by
    unfold Transition.StepOf
    decide +kernel
  have hstep2 : Transition.StepOf (handleFlowMod zyxelPlatform) (agentAfter [addFlow 1 10])
      (addFlow 3 10) (agentAfter [addFlow 1 10, addFlow 3 10]) := by
    unfold Transition.StepOf
    decide +kernel
  have hstep3 : Transition.StepOf (handleFlowMod zyxelPlatform)
      (agentAfter [addFlow 1 10, addFlow 3 10]) (deleteFlow 1 10)
      (agentAfter [addFlow 1 10, addFlow 3 10, deleteFlow 1 10]) := by
    unfold Transition.StepOf
    decide +kernel
  have hok1 : (Agent.init ZyxelState.init).StepCounts (addFlow 1 10) :=
    stepCounts_addFlow (by decide +kernel) (by decide +kernel)
  have hok2 : (agentAfter [addFlow 1 10]).StepCounts (addFlow 3 10) :=
    stepCounts_addFlow (by decide +kernel) (by decide +kernel)
  have hok3 : (agentAfter [addFlow 1 10, addFlow 3 10]).StepCounts (deleteFlow 1 10) :=
    fun _ => ⟨fun hadd => absurd hadd (by decide), fun _ => by decide +kernel⟩
  generalize agentAfter [addFlow 1 10, addFlow 3 10, deleteFlow 1 10] = agent3 at *
  generalize agentAfter [addFlow 1 10, addFlow 3 10] = agent2 at *
  generalize agentAfter [addFlow 1 10] = agent1 at *
  exact counted_of_reachableVia (fun _ => Int.le_refl 0)
    (.tail (.tail (.tail .refl hok1 hstep1) hok2 hstep2) hok3 hstep3)

/-- The deletion of a flow without a VLAN, whose action has been skipped, takes a flow from the
service that two others share. -/
theorem not_counted : ¬ ∀ agent : Agent ZyxelState,
    Agent.Reachable zyxelPlatform .init agent → agent.Counted := by
  intro hall
  have hr : Agent.Reachable zyxelPlatform .init (Transition.runTo (handleFlowMod zyxelPlatform)
      (.init .init) [addFlow 1 10, addFlow 3 10, addFlow 1 0, deleteFlow 1 0]) :=
    Transition.reachable_runTo (by decide +kernel)
  have h := (hall _ hr).active
  exact absurd h (by decide +kernel)

end OfAgent
