import OfAgent.Agent.Release
import OfAgent.Lib.FirstMatch

/-!
# The services of the Zyxel device

What the two functions of the supported actions do to the array of services, and what additions
and deletions of flows do to it on the whole.

* `ConfigureOutcome`: an action is skipped, counted for a service, or gets a new slot, unless the
  command fails; `configureService_outcome`.
* `UnconfigureOutcome`: nothing is found, a flow is counted down, or a slot is cleared.
* `withdraw`: one flow less for the first slot with an address; `unconfigureService_services`.
* `deleteLoop_zyxel`: a deletion withdraws as many flows as the selected records have supported
  actions.
* `ZyxelProperties.WellFormed`: what holds of the array in every reachable state.
-/

namespace OfAgent

open FirstMatch

/-- The slot that `output_conf_zyxel` fills for an action. -/
def InsertedFlow.newService (infl : InsertedFlow) (auxInd : ℕ) (slot : ZyxelServiceParams) :
    ZyxelServiceParams :=
  { inPort := infl.ofpMatch.inPort
    wanAddress := infl.wanAddress
    wanMask := 0
    vlanTag := infl.vlanTag auxInd
    vlanPcp := infl.vlanPcp auxInd
    flowCounter := slot.flowCounter + 1 }

/-- The search of `output_conf_zyxel` goes through the allocated slots. -/
theorem exists_append_of_allocated {p : ZyxelProperties} {q : ZyxelServiceParams → Bool} {i : ℕ}
    (h : p.allocated.findIdx? q = some i) :
    ∃ pre slot post, p.createdServices = pre ++ slot :: post ∧ pre.length = i ∧
      pre.length < p.serviceAllocatorIndex ∧ q slot = true := by
  obtain ⟨pre, slot, post, heq, hlen, -, hq⟩ := exists_append_of_findIdx? h
  refine ⟨pre, slot, post ++ p.createdServices.drop p.serviceAllocatorIndex, ?_, hlen, ?_, hq⟩
  · rw [← List.cons_append, ← List.append_assoc, ← heq, ZyxelProperties.allocated,
      List.take_append_drop]
  · have hle : p.allocated.length ≤ p.serviceAllocatorIndex := List.length_take_le ..
    rw [heq, List.length_append, List.length_cons] at hle
    omega

/-- A service that the search finds has the VLAN of the action. -/
theorem vlanTag_eq_of_serves {wan : BitVec 32} {vlan : BitVec 16} {slot : ZyxelServiceParams}
    (h : slot.serves wan vlan = true) : slot.wanAddress = wan ∧ slot.vlanTag = vlan := by
  simp only [ZyxelServiceParams.serves, Bool.and_eq_true, beq_iff_eq] at h
  refine ⟨h.1.symm, BitVec.eq_of_toInt_eq ?_⟩
  have hlt := slot.vlanTag.isLt
  have heq := h.2
  simp only [BitVec.toInt_eq_toNat_cond] at heq ⊢
  split at heq <;> split <;> omega

/-- The search finds a service with the VLAN of the action when that is not negative. -/
theorem serves_of_eq {slot : ZyxelServiceParams} (h : slot.vlanTag.toNat < 2 ^ 15) :
    slot.serves slot.wanAddress slot.vlanTag = true := by
  simp only [ZyxelServiceParams.serves, beq_self_eq_true, Bool.true_and, beq_iff_eq,
    BitVec.toInt_eq_toNat_cond]
  rw [if_pos (by omega)]

section Configure

/-- The command for the service of an action. -/
def InsertedFlow.setwan (infl : InsertedFlow) (auxInd : ℕ) : DeviceCommand :=
  .setwan infl.wanAddress 0 (infl.vlanTag auxInd) (infl.vlanPcp auxInd)

/-- What a call of `output_conf_zyxel` does, with its return value. -/
inductive ConfigureOutcome (exitValue : ℕ → ℤ) (infl : InsertedFlow) (k : ℕ) (s : ZyxelState) :
    ZyxelState → ℤ → Prop
  /-- The action is skipped, or the array is full. -/
  | skipped (h : infl.skips k = true ∨ maxServices ≤ s.props.serviceAllocatorIndex) :
      ConfigureOutcome exitValue infl k s s (-1)
  /-- One flow more for a service that is found. -/
  | counted {s' : ZyxelState} {pre : List ZyxelServiceParams} {slot : ZyxelServiceParams}
      {post : List ZyxelServiceParams} (hskip : infl.skips k = false)
      (hlt : s.props.serviceAllocatorIndex < maxServices)
      (heq : s.props.createdServices = pre ++ slot :: post)
      (hpre : pre.length < s.props.serviceAllocatorIndex)
      (hserves : slot.serves infl.wanAddress (infl.vlanTag k) = true)
      (hservices : s'.props.createdServices = pre ++ slot.countUp :: post)
      (hcounter : s'.props.srvCounter = s.props.srvCounter)
      (halloc : s'.props.serviceAllocatorIndex = s.props.serviceAllocatorIndex)
      (hcommands : s'.commands = s.commands) : ConfigureOutcome exitValue infl k s s' 0
  /-- The command for a new service fails. -/
  | failed (hskip : infl.skips k = false) (hlt : s.props.serviceAllocatorIndex < maxServices)
      (hnone : ∀ x ∈ s.props.allocated, x.serves infl.wanAddress (infl.vlanTag k) = false)
      (hexit : exitValue s.commands.length < 0) :
      ConfigureOutcome exitValue infl k s
        { s with commands := s.commands ++ [infl.setwan k] } (-1)
  /-- A new service in the next slot. -/
  | added {s' : ZyxelState} {pre : List ZyxelServiceParams} {slot : ZyxelServiceParams}
      {post : List ZyxelServiceParams} (hskip : infl.skips k = false)
      (hlt : s.props.serviceAllocatorIndex < maxServices)
      (heq : s.props.createdServices = pre ++ slot :: post)
      (hpre : pre.length = s.props.serviceAllocatorIndex)
      (hnone : ∀ x ∈ pre, x.serves infl.wanAddress (infl.vlanTag k) = false)
      (hexit : 0 ≤ exitValue s.commands.length)
      (hservices : s'.props.createdServices = pre ++ infl.newService k slot :: post)
      (hcounter : s'.props.srvCounter = s.props.srvCounter + 1)
      (halloc : s'.props.serviceAllocatorIndex = s.props.serviceAllocatorIndex + 1)
      (hcommands : s'.commands = s.commands ++ [infl.setwan k]) :
      ConfigureOutcome exitValue infl k s s' 0

/-- Every call has one of these outcomes. -/
theorem configureService_outcome (exitValue : ℕ → ℤ) (infl : InsertedFlow) (k : ℕ)
    (s : ZyxelState) :
    ConfigureOutcome exitValue infl k s (configureService exitValue infl k s).1
      (configureService exitValue infl k s).2 := by
  by_cases hskip : infl.skips k = true
  · simp only [configureService, hskip, if_true]
    exact .skipped (.inl hskip)
  by_cases hfull : maxServices ≤ s.props.serviceAllocatorIndex
  · have hfull' : maxServices - 1 < s.props.serviceAllocatorIndex :=
      Nat.lt_of_lt_of_le (by decide) hfull
    simp only [configureService, if_neg hskip, if_pos hfull']
    exact .skipped (.inr hfull)
  have hskip := Bool.eq_false_iff.2 hskip
  have hlt := Nat.lt_of_not_le hfull
  have hroom : ¬ maxServices - 1 < s.props.serviceAllocatorIndex :=
    Nat.not_lt.2 (Nat.le_sub_one_of_lt hlt)
  cases hfind : s.props.allocated.findIdx?
      (ZyxelServiceParams.serves infl.wanAddress (infl.vlanTag k)) with
  | some i =>
    obtain ⟨pre, slot, post, heq, rfl, hpre, hserves⟩ := exists_append_of_allocated hfind
    simp only [configureService, hskip, hroom, hfind, Bool.false_eq_true, if_false]
    refine .counted hskip hlt heq hpre hserves ?_ rfl rfl rfl
    simp only [ZyxelProperties.modifySlot, heq, modify_append]
  | none =>
    have hnone := List.findIdx?_eq_none_iff.1 hfind
    by_cases hexit : exitValue s.commands.length < 0
    · simp only [configureService, hskip, hroom, hfind, hexit, Bool.false_eq_true, if_false,
        if_true]
      exact .failed hskip hlt hnone hexit
    · -- the array is cut in front of the slot that the allocator points to
      have hlen : s.props.serviceAllocatorIndex < s.props.createdServices.length := by
        rw [s.props.length_eq]
        exact hlt
      have heq := (List.take_append_drop s.props.serviceAllocatorIndex
        s.props.createdServices).symm
      rw [List.drop_eq_getElem_cons hlen] at heq
      have hpre : (s.props.createdServices.take s.props.serviceAllocatorIndex).length =
          s.props.serviceAllocatorIndex := List.length_take_of_le (Nat.le_of_lt hlen)
      simp only [configureService, hskip, hroom, hfind, hexit, Bool.false_eq_true, if_false]
      refine .added hskip hlt heq hpre hnone (Int.not_lt.1 hexit) ?_ rfl rfl rfl
      rw [← modify_append, ← heq, hpre]
      rfl

/-- What `output_conf_zyxel` does when the commands succeed: it skips the action, counts it for a
service that it finds, or puts a new service into the next slot. -/
theorem configureService_cases {exitValue : ℕ → ℤ} (hexit : ∀ n, 0 ≤ exitValue n)
    (infl : InsertedFlow) (k : ℕ) (s : ZyxelState) :
    ((infl.skips k = true ∨ maxServices ≤ s.props.serviceAllocatorIndex) ∧
        configureService exitValue infl k s = (s, -1)) ∨
      (infl.skips k = false ∧ s.props.serviceAllocatorIndex < maxServices ∧
        ∃ s' pre slot post, configureService exitValue infl k s = (s', 0) ∧
          s.props.createdServices = pre ++ slot :: post ∧
          ((pre.length < s.props.serviceAllocatorIndex ∧
              slot.serves infl.wanAddress (infl.vlanTag k) = true ∧
              s'.props.createdServices = pre ++ slot.countUp :: post ∧
              s'.props.serviceAllocatorIndex = s.props.serviceAllocatorIndex) ∨
            (pre.length = s.props.serviceAllocatorIndex ∧
              (∀ x ∈ pre, x.serves infl.wanAddress (infl.vlanTag k) = false) ∧
              s'.props.createdServices = pre ++ infl.newService k slot :: post ∧
              s'.props.serviceAllocatorIndex = s.props.serviceAllocatorIndex + 1))) := by
  have houtcome := configureService_outcome exitValue infl k s
  generalize configureService exitValue infl k s = r at houtcome
  obtain ⟨s', ret⟩ := r
  cases houtcome with
  | skipped h => exact .inl ⟨h, rfl⟩
  | counted hskip hlt heq hpre hserves hservices _ halloc _ =>
    exact .inr ⟨hskip, hlt, s', _, _, _, rfl, heq, .inl ⟨hpre, hserves, hservices, halloc⟩⟩
  | failed _ _ _ hneg => exact absurd hneg (Int.not_lt.2 (hexit _))
  | added hskip hlt heq hpre hnone _ hservices _ halloc _ =>
    exact .inr ⟨hskip, hlt, s', _, _, _, rfl, heq, .inr ⟨hpre, hnone, hservices, halloc⟩⟩

end Configure

/-! ### Withdrawals -/

/-- What `output_unconf_zyxel` does to the slot that it finds. -/
def ZyxelServiceParams.withdrawn (s : ZyxelServiceParams) : ZyxelServiceParams :=
  if 1 < s.flowCounter.toInt then s.countDown else s.cleared

/-- A slot that is not in use stays as it is. -/
@[simp]
theorem ZyxelServiceParams.withdrawn_zero : zero.withdrawn = zero := by decide

/-- One flow less for the first slot with the address. -/
def withdraw (wan : BitVec 32) : List ZyxelServiceParams → List ZyxelServiceParams :=
  modifyFirst (ZyxelServiceParams.holds wan) ZyxelServiceParams.withdrawn

/-- What a call of `output_unconf_zyxel` does to the device. -/
inductive UnconfigureOutcome (wan : BitVec 32) (s : ZyxelState) : ZyxelState → Prop
  /-- No slot has the address. -/
  | notFound (h : ∀ slot ∈ s.props.createdServices, slot.holds wan = false) :
      UnconfigureOutcome wan s s
  /-- One flow less for the first slot with the address. -/
  | counted {s' : ZyxelState} {pre : List ZyxelServiceParams} {slot : ZyxelServiceParams}
      {post : List ZyxelServiceParams} (heq : s.props.createdServices = pre ++ slot :: post)
      (hpre : ∀ x ∈ pre, x.holds wan = false) (hholds : slot.holds wan = true)
      (hmore : 1 < slot.flowCounter.toInt)
      (hservices : s'.props.createdServices = pre ++ slot.countDown :: post)
      (hcounter : s'.props.srvCounter = s.props.srvCounter)
      (halloc : s'.props.serviceAllocatorIndex = s.props.serviceAllocatorIndex)
      (hcommands : s'.commands = s.commands) : UnconfigureOutcome wan s s'
  /-- The first slot with the address is cleared. -/
  | cleared {s' : ZyxelState} {pre : List ZyxelServiceParams} {slot : ZyxelServiceParams}
      {post : List ZyxelServiceParams} (heq : s.props.createdServices = pre ++ slot :: post)
      (hpre : ∀ x ∈ pre, x.holds wan = false) (hholds : slot.holds wan = true)
      (hlast : ¬ 1 < slot.flowCounter.toInt)
      (hservices : s'.props.createdServices = pre ++ slot.cleared :: post)
      (hcounter : s'.props.srvCounter = s.props.srvCounter - 1)
      (halloc : s'.props.serviceAllocatorIndex = s.props.serviceAllocatorIndex)
      (hcommands : s'.commands = s.commands ++ [.delwan wan 0 slot.vlanTag slot.vlanPcp]) :
      UnconfigureOutcome wan s s'

/-- Every call has one of these outcomes. -/
theorem unconfigureService_outcome (wan : BitVec 32) (s : ZyxelState) :
    UnconfigureOutcome wan s (unconfigureService wan s) := by
  unfold unconfigureService
  cases hfind : s.props.createdServices.findIdx? (ZyxelServiceParams.holds wan) with
  | none => exact .notFound (List.findIdx?_eq_none_iff.1 hfind)
  | some i =>
    obtain ⟨pre, slot, post, heq, rfl, hpre, hholds⟩ := exists_append_of_findIdx? hfind
    have hget : s.props.createdServices.getD pre.length .zero = slot := by
      simp [heq, List.getD_eq_getElem?_getD]
    simp only [hget]
    split
    next hmore =>
      refine .counted heq hpre hholds hmore ?_ rfl rfl rfl
      simp only [ZyxelProperties.modifySlot, heq, modify_append]
    next hlast =>
      refine .cleared heq hpre hholds hlast ?_ rfl rfl rfl
      simp only [ZyxelProperties.modifySlot, heq, modify_append]

/-- What `output_unconf_zyxel` does to the array of services. -/
theorem unconfigureService_services (wan : BitVec 32) (s : ZyxelState) :
    (unconfigureService wan s).props.createdServices = withdraw wan s.props.createdServices := by
  have houtcome := unconfigureService_outcome wan s
  generalize unconfigureService wan s = s' at houtcome ⊢
  cases houtcome with
  | notFound h => exact (modifyFirst_of_forall h).symm
  | counted heq hpre hholds hmore hservices =>
    rw [hservices, heq, withdraw, modifyFirst_append hpre hholds, ZyxelServiceParams.withdrawn,
      if_pos hmore]
  | cleared heq hpre hholds hlast hservices =>
    rw [hservices, heq, withdraw, modifyFirst_append hpre hholds, ZyxelServiceParams.withdrawn,
      if_neg hlast]

theorem unconfigureService_allocator (wan : BitVec 32) (s : ZyxelState) :
    (unconfigureService wan s).props.serviceAllocatorIndex = s.props.serviceAllocatorIndex := by
  have houtcome := unconfigureService_outcome wan s
  generalize unconfigureService wan s = s' at houtcome ⊢
  cases houtcome with
  | notFound => rfl
  | counted _ _ _ _ _ _ halloc => exact halloc
  | cleared _ _ _ _ _ _ halloc => exact halloc

/-- Several withdrawals. -/
theorem iterate_unconfigureService (wan : BitVec 32) (n : ℕ) (s : ZyxelState) :
    ((unconfigureService wan)^[n] s).props.createdServices =
        (withdraw wan)^[n] s.props.createdServices ∧
      ((unconfigureService wan)^[n] s).props.serviceAllocatorIndex =
        s.props.serviceAllocatorIndex := by
  induction n generalizing s with
  | zero => exact ⟨rfl, rfl⟩
  | succ n ih =>
    obtain ⟨hservices, halloc⟩ := ih (unconfigureService wan s)
    simp only [Function.iterate_succ, Function.comp_apply]
    rw [hservices, halloc, unconfigureService_services, unconfigureService_allocator]
    exact ⟨rfl, rfl⟩

/-! ### Deletions -/

/-- The records that a deletion selects. -/
def selectedFlows (ofpMatch : OfpMatch) (infls : List InsertedFlow) : List InsertedFlow :=
  infls.filter fun infl => myFlowFieldsMatch infl.ofpMatch ofpMatch

/-- The number of supported actions in records. -/
def outputCount (infls : List InsertedFlow) : ℕ := (infls.map fun infl => infl.outputs.length).sum

/-- Selected records have the address of the message. -/
theorem wanAddress_eq_of_match {infl infl' : InsertedFlow}
    (h : myFlowFieldsMatch infl.ofpMatch infl'.ofpMatch = true) :
    infl.wanAddress = infl'.wanAddress := by
  simp only [myFlowFieldsMatch, Bool.and_eq_true, beq_iff_eq] at h
  unfold InsertedFlow.wanAddress
  rw [h.1.1.1.2, h.1.1.2]

/-- Selected records are about ARP when the message is. -/
theorem isArp_eq_of_match {infl infl' : InsertedFlow}
    (h : myFlowFieldsMatch infl.ofpMatch infl'.ofpMatch = true) : infl.isArp = infl'.isArp := by
  simp only [myFlowFieldsMatch, Bool.and_eq_true, beq_iff_eq] at h
  unfold InsertedFlow.isArp
  rw [h.1.1.1.1.1.1.2]

/-- A deletion withdraws as many flows from the address of the message as the selected records
have supported actions. -/
theorem deleteLoop_zyxel {exitValue : ℕ → ℤ} {ofm : OfpFlowMod} {i : ℕ}
    {infls infls' : List InsertedFlow} {device device' : ZyxelState} {unapplied unapplied' : List ℕ}
    (h : deleteLoop (zyxelProps exitValue) ofm.ofpMatch i infls device unapplied =
      .ok (infls', device', unapplied')) :
    device' = if ofm.insertedFlow.isArp then device
      else (unconfigureService ofm.insertedFlow.wanAddress)^[
        outputCount (selectedFlows ofm.ofpMatch infls)] device := by
  obtain ⟨-, -, -, hfold⟩ := deleteLoop_ok h
  have hmatch : ∀ infl ∈ selectedFlows ofm.ofpMatch infls,
      myFlowFieldsMatch infl.ofpMatch ofm.insertedFlow.ofpMatch = true :=
    fun infl hmem => (List.mem_filter.1 hmem).2
  change (selectedFlows ofm.ofpMatch infls).foldlM _ device = _ at hfold
  clear h
  generalize selectedFlows ofm.ofpMatch infls = sel at hmatch hfold ⊢
  induction sel generalizing device with
  | nil =>
    cases hfold
    simp [outputCount]
  | cons infl sel ih =>
    have hm := hmatch infl List.mem_cons_self
    rw [List.foldlM_cons] at hfold
    cases hun : unapplyActions (zyxelProps exitValue) infl.actions.length infl device with
    | error e => simp [hun, bind, Except.bind] at hfold
    | ok device₁ =>
      simp only [hun, bind, Except.bind] at hfold
      -- the record has the address of the message, since it is selected by it
      have hdev := unapplyActions_zyxel hun
      rw [isArp_eq_of_match hm, wanAddress_eq_of_match hm] at hdev
      rw [ih (fun x hx => hmatch x (List.mem_cons_of_mem _ hx)) hfold]
      by_cases harp : ofm.insertedFlow.isArp = true
      · simp only [if_pos harp] at hdev ⊢
        exact hdev
      · simp only [if_neg harp] at hdev ⊢
        rw [hdev, ← Function.iterate_add_apply, Nat.add_comm]
        rfl

/-! ### The array in every reachable state -/

/-- What holds of the array of services in every reachable state. -/
structure ZyxelProperties.WellFormed (p : ZyxelProperties) : Prop where
  /-- There are at most as many slots as the array has. -/
  allocator_le : p.serviceAllocatorIndex ≤ maxServices
  /-- No service has a mask. -/
  mask : ∀ slot ∈ p.createdServices, slot.wanMask = 0
  /-- The slots that have not been allocated are zero. -/
  fresh : ∀ i slot, p.serviceAllocatorIndex ≤ i → p.createdServices[i]? = some slot → slot = .zero

/-- A property of the device that both functions keep holds in every reachable state. -/
theorem device_invariant {exitValue : ℕ → ℤ} (P : ZyxelState → Prop) (hinit : P .init)
    (hconf : ∀ infl k s, P s → P (configureService exitValue infl k s).1)
    (hunconf : ∀ wan s, P s → P (unconfigureService wan s)) {agent : Agent ZyxelState}
    (h : Agent.Reachable (some (zyxelProps exitValue)) .init agent) : P agent.device := by
  refine h.invariant (fun agent => P agent.device) hinit fun agent ofm agent' hP _ hstep => ?_
  obtain ⟨rfl, -⟩ | ⟨-, -, device, applied, happly, rfl⟩ | ⟨-, -, hloop⟩ :=
    handleFlowMod_cases hstep
  · exact hP
  · have hfold := applyActions_zyxel happly
    -- the outputs of an addition, one after the other
    have hkeep : ∀ (ks : List ℕ) (r : ZyxelState × List ℕ), P r.1 →
        P (ks.foldl (configureStep exitValue ofm.insertedFlow) r).1 := by
      intro ks
      induction ks with
      | nil => exact fun _ hr => hr
      | cons k ks ih => exact fun r hr => ih _ (hconf _ k _ hr)
    have hdevice := congrArg Prod.fst hfold
    change P device
    rw [show device = _ from hdevice]
    exact hkeep _ _ hP
  · rw [deleteLoop_zyxel hloop]
    split
    · exact hP
    -- a deletion withdraws the service as often as there are outputs
    · generalize outputCount _ = n
      induction n with
      | zero => exact hP
      | succ n ih =>
        rw [Function.iterate_succ_apply']
        exact hunconf _ _ ih

namespace ZyxelProperties.WellFormed

theorem init : ZyxelState.init.props.WellFormed where
  allocator_le := by decide
  mask slot hslot := by
    rw [List.eq_of_mem_replicate hslot]
    rfl
  fresh i slot _ hslot := List.eq_of_mem_replicate (List.mem_of_getElem? hslot)

/-- `output_conf_zyxel` keeps the array well formed. -/
theorem configure {s : ZyxelState} (hs : s.props.WellFormed) (exitValue : ℕ → ℤ)
    (infl : InsertedFlow) (k : ℕ) : (configureService exitValue infl k s).1.props.WellFormed := by
  have houtcome := configureService_outcome exitValue infl k s
  generalize (configureService exitValue infl k s).1 = s' at houtcome ⊢
  generalize (configureService exitValue infl k s).2 = ret at houtcome
  have hmask := hs.mask
  have hfresh := hs.fresh
  cases houtcome with
  | skipped => exact hs
  | counted _ _ heq hpre _ hservices _ halloc =>
    simp only [heq] at hmask hfresh
    refine ⟨halloc ▸ hs.allocator_le, ?_, ?_⟩
    · simp only [hservices, List.forall_mem_append, List.forall_mem_cons] at hmask ⊢
      exact hmask
    · intro i x hi hx
      simp only [hservices, halloc] at hi hx
      rw [getElem?_append_cons_of_ne (by omega)] at hx
      exact hfresh i x hi hx
  | failed => exact hs
  | added _ hlt heq hpre _ _ hservices _ halloc =>
    simp only [heq] at hmask hfresh
    refine ⟨halloc ▸ hlt, ?_, ?_⟩
    · simp only [hservices, List.forall_mem_append, List.forall_mem_cons] at hmask ⊢
      exact ⟨hmask.1, rfl, hmask.2.2⟩
    · intro i x hi hx
      simp only [hservices, halloc] at hi hx
      rw [getElem?_append_cons_of_ne (by omega)] at hx
      exact hfresh i x (by omega) hx

/-- `output_unconf_zyxel` keeps the array well formed. -/
theorem unconfigure {s : ZyxelState} (hs : s.props.WellFormed) (wan : BitVec 32) :
    (unconfigureService wan s).props.WellFormed := by
  have hservices := unconfigureService_services wan s
  have halloc := unconfigureService_allocator wan s
  obtain ⟨-, heq⟩ | ⟨pre, slot, post, heq, -, -, hmod⟩ := modifyFirst_cases
    (ZyxelServiceParams.holds wan) ZyxelServiceParams.withdrawn s.props.createdServices
  · rw [withdraw, heq] at hservices
    exact ⟨halloc ▸ hs.allocator_le, hservices ▸ hs.mask, by rw [halloc, hservices]; exact hs.fresh⟩
  · rw [withdraw, hmod] at hservices
    have hmask := hs.mask
    have hfresh := hs.fresh
    simp only [heq] at hmask hfresh
    refine ⟨halloc ▸ hs.allocator_le, ?_, ?_⟩
    · simp only [hservices, List.forall_mem_append, List.forall_mem_cons] at hmask ⊢
      refine ⟨hmask.1, ?_, hmask.2.2⟩
      unfold ZyxelServiceParams.withdrawn
      split
      · exact hmask.2.1
      · rfl
    · intro i x hi hx
      rw [halloc] at hi
      rw [hservices] at hx
      -- a slot behind the allocator is empty, and withdrawing from an empty one changes nothing
      by_cases hne : i = pre.length
      · subst hne
        have hslot : slot = .zero := hfresh pre.length slot hi (by simp)
        rw [hslot, ZyxelServiceParams.withdrawn_zero] at hx
        simpa using hx.symm
      · rw [getElem?_append_cons_of_ne hne] at hx
        exact hfresh i x hi hx

end ZyxelProperties.WellFormed

/-- The array is well formed in every reachable state. -/
theorem wellFormed_of_reachable {exitValue : ℕ → ℤ} {agent : Agent ZyxelState}
    (h : Agent.Reachable (some (zyxelProps exitValue)) .init agent) :
    agent.device.props.WellFormed :=
  device_invariant (fun s => s.props.WellFormed) .init (fun infl k _ hs => hs.configure _ infl k)
    (fun wan _ hs => hs.unconfigure wan) h

end OfAgent
