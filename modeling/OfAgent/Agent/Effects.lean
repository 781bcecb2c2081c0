import OfAgent.Agent.Agreement
import OfAgent.Agent.Interpretation
import OfAgent.Agent.Isolation
import OfAgent.Agent.References
import OfAgent.Lib.Ranking

/-!
# The effects of two flows on the services

Two flows that are applied in the same state, or taken off in the same state, and when that makes
no difference. What a flow does to the device bears its address, so that flows with different
addresses have the same effect only if they have none.

* `ZyxelState.TouchesAddress`: the first command is for an address, or there is no command and
  nothing has changed but slots with the address; `TouchesAddress.eq_of_ne`.
* `ZyxelState.taken`: how many of several withdrawals do something.
* `iterate_eq_iff`: several withdrawals from two addresses.
* `ZyxelState.configured`: the device after a flow has been applied; `InsertedFlow.serviceActions`:
  the actions by which the flow asks for services.
* `configured_eq_iff`: two flows with the same actions, port and VLAN are applied.
-/

namespace OfAgent

open FirstMatch Transition

/-! ### What bears an address -/

/-- From `s` to `s'` there have been calls for an address only, up to the first command. -/
inductive ZyxelState.TouchesAddress (wan : BitVec 32) (s s' : ZyxelState) : Prop
  /-- The first command is for the address. -/
  | command {c : DeviceCommand} {issued : List DeviceCommand}
      (happend : s'.commands = s.commands ++ c :: issued) (haddr : c.service.1 = wan) :
      TouchesAddress wan s s'
  /-- There is no command, and the slots with other addresses are what they were. -/
  | counters (hcommands : s'.commands = s.commands)
      (hcounter : s'.props.srvCounter = s.props.srvCounter)
      (halloc : s'.props.serviceAllocatorIndex = s.props.serviceAllocatorIndex)
      (hothers : ∀ (i : ℕ) (slot : ZyxelServiceParams), s.props.createdServices[i]? = some slot →
        slot.wanAddress ≠ wan → s'.props.createdServices[i]? = some slot) :
      TouchesAddress wan s s'

namespace ZyxelState.TouchesAddress

variable {wan wan' : BitVec 32} {s s₁ s' : ZyxelState} {pre post : List ZyxelServiceParams}
  {slot slot' : ZyxelServiceParams}

theorem refl (wan : BitVec 32) (s : ZyxelState) : s.TouchesAddress wan s :=
  .counters rfl rfl rfl fun _ _ hslot _ => hslot

theorem commands_extend (h : s.TouchesAddress wan s') : s.commands <+: s'.commands := by
  cases h with
  | command happend => exact ⟨_, happend.symm⟩
  | counters hcommands => rw [hcommands]

/-- One after the other. -/
theorem trans (h : s.TouchesAddress wan s₁) (h' : s₁.TouchesAddress wan s') :
    s.TouchesAddress wan s' := by
  cases h with
  | @command c issued happend haddr =>
    obtain ⟨issued', hissued⟩ := h'.commands_extend
    have happend' : s'.commands = s.commands ++ c :: (issued ++ issued') := by
      rw [← hissued, happend, List.append_assoc, List.cons_append]
    exact .command happend' haddr
  | counters hcommands hcounter halloc hothers =>
    cases h' with
    | command happend haddr => exact .command (hcommands ▸ happend) haddr
    | counters hcommands' hcounter' halloc' hothers' =>
      exact .counters (hcommands'.trans hcommands) (hcounter'.trans hcounter)
        (halloc'.trans halloc) fun i slot hslot hne =>
          hothers' i slot (hothers i slot hslot hne) hne

/-- A slot with the address has changed. -/
theorem of_slot (hslot : slot.wanAddress = wan)
    (heq : s.props.createdServices = pre ++ slot :: post)
    (hservices : s'.props.createdServices = pre ++ slot' :: post)
    (hcounter : s'.props.srvCounter = s.props.srvCounter)
    (halloc : s'.props.serviceAllocatorIndex = s.props.serviceAllocatorIndex)
    (hcommands : s'.commands = s.commands) : s.TouchesAddress wan s' := by
  refine .counters hcommands hcounter halloc fun i x hx hne => ?_
  rw [heq] at hx
  rw [hservices]
  by_cases hi : i = pre.length
  · subst hi
    rw [getElem?_middle] at hx
    exact absurd (Option.some.inj hx ▸ hslot) hne
  · rwa [getElem?_append_cons_of_ne (y := slot') hi] at hx

/-- What bears two addresses has not happened. -/
theorem eq_of_ne (h : s.TouchesAddress wan s') (h' : s.TouchesAddress wan' s')
    (hne : wan ≠ wan') : s' = s := by
  cases h with
  | command happend haddr =>
    cases h' with
    | command happend' haddr' =>
      -- the first command is for both addresses
      rw [happend, List.append_cancel_left_eq, List.cons.injEq] at happend'
      exact absurd (haddr.symm.trans (happend'.1 ▸ haddr')) hne
    | counters hcommands =>
      rw [happend, List.append_right_eq_self] at hcommands
      cases hcommands
  | counters hcommands hcounter halloc hothers =>
    cases h' with
    | command happend =>
      rw [hcommands, List.self_eq_append_right] at happend
      cases happend
    | counters _ _ _ hothers' =>
      -- no slot has both addresses
      have hservices : s'.props.createdServices = s.props.createdServices := by
        refine List.ext_getElem? fun i => ?_
        cases hslot : s.props.createdServices[i]? with
        | none =>
          rw [List.getElem?_eq_none_iff, s.props.length_eq] at hslot
          rwa [List.getElem?_eq_none_iff, s'.props.length_eq]
        | some slot =>
          by_cases haddr : slot.wanAddress = wan
          · exact hothers' i slot hslot (haddr ▸ hne)
          · exact hothers i slot hslot haddr
      obtain ⟨props, commands⟩ := s
      obtain ⟨props', commands'⟩ := s'
      obtain ⟨createdServices, srvCounter, serviceAllocatorIndex, length_eq⟩ := props
      obtain ⟨createdServices', srvCounter', serviceAllocatorIndex', length_eq'⟩ := props'
      simp only at hcommands hcounter halloc hservices
      subst hcommands hcounter halloc hservices
      rfl

end ZyxelState.TouchesAddress

/-! ### Flows that are taken off -/

/-- A withdrawal bears its address. -/
theorem touchesAddress_unconfigure (wan : BitVec 32) (s : ZyxelState) :
    s.TouchesAddress wan (unconfigureService wan s) := by
  have houtcome := unconfigureService_outcome wan s
  generalize unconfigureService wan s = s' at houtcome ⊢
  cases houtcome with
  | notFound => exact .refl wan s
  | counted heq _ hholds _ hservices hcounter halloc hcommands =>
    exact .of_slot (congrArg Prod.fst (key_of_holds hholds)) heq hservices hcounter halloc hcommands
  | cleared _ _ _ _ _ _ _ hcommands => exact .command hcommands rfl

/-- Several withdrawals bear their address. -/
theorem touchesAddress_iterate (wan : BitVec 32) (n : ℕ) (s : ZyxelState) :
    s.TouchesAddress wan ((unconfigureService wan)^[n] s) := by
  induction n with
  | zero => exact .refl wan s
  | succ n ih =>
    rw [Function.iterate_succ_apply']
    exact ih.trans (touchesAddress_unconfigure wan _)

/-- A rank of the device: withdrawals add commands and take flows off the counters. -/
def ZyxelState.progress (s : ZyxelState) : ℤ :=
  s.commands.length -
    ((s.props.createdServices.map fun slot => slot.flowCounter.toNat).sum : ℕ)

/-- A withdrawal does something unless no slot has the address. -/
theorem unconfigure_cases (wan : BitVec 32) (s : ZyxelState) :
    ((∀ slot ∈ s.props.createdServices, slot.holds wan = false) ∧
        unconfigureService wan s = s) ∨
      ((∃ slot ∈ s.props.createdServices, slot.holds wan = true) ∧
        s.progress < (unconfigureService wan s).progress) := by
  have houtcome := unconfigureService_outcome wan s
  generalize unconfigureService wan s = s' at houtcome ⊢
  cases houtcome with
  | notFound hnone => exact .inl ⟨hnone, rfl⟩
  | @counted _ pre slot post heq _ hholds hmore hservices _ _ hcommands =>
    refine .inr ⟨⟨slot, by simp [heq], hholds⟩, ?_⟩
    -- more than one flow is left, so that the counter does not wrap
    have hdown : slot.countDown.flowCounter.toNat + 1 = slot.flowCounter.toNat := by
      rw [BitVec.toInt_eq_toNat_cond] at hmore
      rw [ZyxelServiceParams.countDown]
      split at hmore <;> bv_omega
    simp only [ZyxelState.progress, heq, hservices, hcommands, List.map_append, List.map_cons,
      List.sum_append, List.sum_cons]
    omega
  | @cleared _ pre slot post heq _ hholds _ hservices _ _ hcommands =>
    refine .inr ⟨⟨slot, by simp [heq], hholds⟩, ?_⟩
    have hclear : slot.cleared.flowCounter.toNat = 0 := rfl
    simp only [ZyxelState.progress, heq, hservices, hcommands, List.map_append, List.map_cons,
      List.sum_append, List.sum_cons, List.length_append, List.length_singleton, hclear]
    omega

/-- A withdrawal does nothing exactly if no slot has the address. -/
theorem unconfigure_eq_iff {wan : BitVec 32} {s : ZyxelState} :
    unconfigureService wan s = s ↔
      ∀ slot ∈ s.props.createdServices, slot.holds wan = false := by
  rcases unconfigure_cases wan s with ⟨hnone, heq⟩ | ⟨⟨slot, hslot, hholds⟩, hlt⟩
  · exact iff_of_true heq hnone
  · refine iff_of_false (fun heq => ?_) fun hnone => ?_
    · rw [heq] at hlt
      exact lt_irrefl _ hlt
    · rw [hnone slot hslot] at hholds
      cases hholds

/-- There is no end of withdrawals from the address: a slot that has been cleared has the address
zero. -/
def ZyxelState.endless (wan : BitVec 32) (s : ZyxelState) : Bool :=
  wan == 0 && s.props.createdServices.any (ZyxelServiceParams.holds wan)

/-- How many of several withdrawals do something. -/
def ZyxelState.taken (wan : BitVec 32) (n : ℕ) (s : ZyxelState) : ℕ :=
  if s.endless wan then n else min n (potential wan s.props.createdServices)

/-- There is nothing to withdraw exactly if no slot has the address. -/
theorem potential_eq_zero_iff {wan : BitVec 32} {slots : List ZyxelServiceParams} :
    potential wan slots = 0 ↔ ∀ slot ∈ slots, slot.holds wan = false := by
  simp only [potential, List.sum_eq_zero_iff, List.mem_map, forall_exists_index, and_imp,
    forall_apply_eq_imp_iff₂]
  refine forall₂_congr fun slot _ => ?_
  cases hholds : slot.holds wan with
  | true => simp [(weight_pos hholds).ne']
  | false => simp [weight, hholds]

/-- A withdrawal from the address zero leaves a slot with that address. -/
theorem endless_unconfigure (wan : BitVec 32) (s : ZyxelState) :
    (unconfigureService wan s).endless wan = s.endless wan := by
  unfold ZyxelState.endless
  rw [unconfigureService_services, withdraw]
  by_cases hwan : wan = 0
  · subst hwan
    obtain ⟨-, heq⟩ | ⟨pre, slot, post, hslots, -, hholds, heq⟩ := modifyFirst_cases
      (ZyxelServiceParams.holds 0) ZyxelServiceParams.withdrawn s.props.createdServices
    · rw [heq]
    · have hwithdrawn : slot.withdrawn.holds 0 = true := by
        unfold ZyxelServiceParams.withdrawn
        split
        · exact hholds
        · rfl
      rw [heq, hslots, List.any_append, List.any_append, List.any_cons, List.any_cons, hholds,
        hwithdrawn]
  · rw [beq_false_of_ne hwan, Bool.false_and, Bool.false_and]

/-- Several withdrawals are enough if there is an end of them and the services have no more flows
with the address. -/
theorem iterate_fixed_iff (wan : BitVec 32) (n : ℕ) (s : ZyxelState) :
    unconfigureService wan ((unconfigureService wan)^[n] s) = (unconfigureService wan)^[n] s ↔
      s.endless wan = false ∧ potential wan s.props.createdServices ≤ n := by
  rw [unconfigure_eq_iff]
  cases hendless : s.endless wan with
  | true =>
    have hkept : ((unconfigureService wan)^[n] s).endless wan = true := by
      induction n with
      | zero => exact hendless
      | succ n ih => rw [Function.iterate_succ_apply', endless_unconfigure, ih]
    obtain ⟨slot, hslot, hholds⟩ := List.any_eq_true.1 (Bool.and_eq_true_iff.1 hkept).2
    refine iff_of_false (fun hnone => ?_) fun h => Bool.noConfusion h.1
    rw [hnone slot hslot] at hholds
    cases hholds
  | false =>
    rw [and_iff_right rfl, ← potential_eq_zero_iff, (iterate_unconfigureService wan n s).1]
    by_cases hwan : wan = 0
    · -- no slot has the address
      have hnone : ∀ slot ∈ s.props.createdServices, slot.holds wan = false := by
        rw [ZyxelState.endless, beq_iff_eq.2 hwan, Bool.true_and] at hendless
        exact fun slot hslot => Bool.eq_false_iff.2 (List.any_eq_false.1 hendless slot hslot)
      have hfix : withdraw wan s.props.createdServices = s.props.createdServices :=
        modifyFirst_of_forall hnone
      rw [Function.iterate_fixed hfix, potential_eq_zero_iff.2 hnone]
      exact iff_of_true rfl (Nat.zero_le n)
    · rw [potential_iterate hwan, if_pos rfl, Nat.sub_eq_zero_iff_le]

/-- Repeated withdrawals from one address have the same result exactly if as many of them do
something. -/
theorem iterate_eq_iterate_iff_taken (wan : BitVec 32) (n n' : ℕ) (s : ZyxelState) :
    (unconfigureService wan)^[n] s = (unconfigureService wan)^[n'] s ↔
      s.taken wan n = s.taken wan n' := by
  wlog hle : n ≤ n' generalizing n n'
  · rw [eq_comm, this n' n (Nat.le_of_not_le hle), eq_comm]
  have hrank : ∀ s : ZyxelState, unconfigureService wan s = s ∨
      s.progress < (unconfigureService wan s).progress := fun s =>
    (unconfigure_cases wan s).imp And.right And.right
  rw [iterate_eq_iterate_iff hrank hle, iterate_fixed_iff]
  unfold ZyxelState.taken
  cases s.endless wan with
  | true => simp
  | false =>
    simp only [Bool.false_eq_true, if_false, true_and]
    omega

/-- Withdrawals change nothing exactly if none of them does anything. -/
theorem iterate_eq_self_iff {wan : BitVec 32} {n : ℕ} {s : ZyxelState} :
    (unconfigureService wan)^[n] s = s ↔ s.taken wan n = 0 := by
  have hzero : s.taken wan 0 = 0 := by
    unfold ZyxelState.taken
    split
    · rfl
    · exact Nat.zero_min _
  rw [← hzero]
  exact iterate_eq_iterate_iff_taken wan n 0 s

/-- Withdrawals from two addresses have the same result exactly if as many of them do something,
and they are from the same address unless none does. -/
theorem iterate_eq_iff (wan wan' : BitVec 32) (n n' : ℕ) (s : ZyxelState) :
    (unconfigureService wan)^[n] s = (unconfigureService wan')^[n'] s ↔
      s.taken wan n = s.taken wan' n' ∧ (s.taken wan n = 0 ∨ wan = wan') := by
  by_cases hwan : wan = wan'
  · subst hwan
    rw [iterate_eq_iterate_iff_taken]
    simp
  · simp only [hwan, or_false]
    constructor
    · intro h
      -- what bears both addresses has not happened
      have hself : (unconfigureService wan)^[n] s = s :=
        (touchesAddress_iterate wan n s).eq_of_ne (h ▸ touchesAddress_iterate wan' n' s) hwan
      have hself' : (unconfigureService wan')^[n'] s = s := h ▸ hself
      rw [iterate_eq_self_iff] at hself hself'
      exact ⟨hself.trans hself'.symm, hself⟩
    · rintro ⟨heq, hzero⟩
      rw [iterate_eq_self_iff.2 hzero, iterate_eq_self_iff.2 (heq ▸ hzero)]

/-! ### Flows that are applied -/

theorem InsertedFlow.pairwise_outputs (infl : InsertedFlow) : infl.outputs.Pairwise (· < ·) :=
  Tlv.pairwise_selected _ _ _ _

theorem InsertedFlow.length_outputs_le (infl : InsertedFlow) :
    infl.outputs.length ≤ infl.actions.length :=
  Tlv.length_selected_le _ _ _ _ _

/-- The device after a flow has been applied. -/
def ZyxelState.configured (exitValue : ℕ → ℤ) (infl : InsertedFlow) (s : ZyxelState) :
    ZyxelState :=
  infl.outputs.foldl (fun s k => (configureService exitValue infl k s).1) s

/-- It is the device behind `apply_actions`. -/
theorem fst_of_applyActions {exitValue : ℕ → ℤ} {infl : InsertedFlow} {s : ZyxelState}
    {r : ZyxelState × List ℕ}
    (h : applyActions (zyxelProps exitValue) infl.actions.length infl s = .ok r) :
    r.1 = s.configured exitValue infl := by
  have hfst : ∀ (ks : List ℕ) (q : ZyxelState × List ℕ),
      (ks.foldl (configureStep exitValue infl) q).1 =
        ks.foldl (fun s k => (configureService exitValue infl k s).1) q.1 := by
    intro ks
    induction ks with
    | nil => exact fun _ => rfl
    | cons k ks ih => exact fun q => ih _
  rw [applyActions_zyxel h]
  exact hfst _ _

section Configured

variable {exitValue : ℕ → ℤ} {infl infl' : InsertedFlow} {k : ℕ} {ks : List ℕ} {s : ZyxelState}

/-- An action that is skipped, or for which there is no room, does nothing. -/
theorem configureService_of_skipped
    (h : infl.skips k = true ∨ maxServices ≤ s.props.serviceAllocatorIndex) :
    (configureService exitValue infl k s).1 = s := by
  have houtcome := configureService_outcome exitValue infl k s
  generalize (configureService exitValue infl k s).1 = s' at houtcome ⊢
  generalize (configureService exitValue infl k s).2 = ret at houtcome
  have hnot : ∀ {P : Prop}, infl.skips k = false →
      s.props.serviceAllocatorIndex < maxServices → P := by
    intro P hskip hlt
    rcases h with h | h
    · rw [hskip] at h
      cases h
    · exact absurd h (Nat.not_le.2 hlt)
  cases houtcome with
  | skipped => rfl
  | counted hskip hlt => exact hnot hskip hlt
  | failed hskip hlt => exact hnot hskip hlt
  | added hskip hlt => exact hnot hskip hlt

/-- An action of a flow bears the address of the flow. -/
theorem touchesAddress_configure (exitValue : ℕ → ℤ) (infl : InsertedFlow) (k : ℕ)
    (s : ZyxelState) :
    s.TouchesAddress infl.wanAddress (configureService exitValue infl k s).1 := by
  have houtcome := configureService_outcome exitValue infl k s
  generalize (configureService exitValue infl k s).1 = s' at houtcome ⊢
  generalize (configureService exitValue infl k s).2 = ret at houtcome
  cases houtcome with
  | skipped => exact .refl _ s
  | counted _ _ heq _ hserves hservices hcounter halloc hcommands =>
    exact .of_slot (vlanTag_eq_of_serves hserves).1 heq hservices hcounter halloc hcommands
  | failed => exact .command rfl rfl
  | added _ _ _ _ _ _ _ _ _ hcommands => exact .command hcommands rfl

/-- Several actions of a flow bear its address. -/
theorem touchesAddress_foldl (ks : List ℕ) (s : ZyxelState) :
    s.TouchesAddress infl.wanAddress
      (ks.foldl (fun s k => (configureService exitValue infl k s).1) s) := by
  induction ks generalizing s with
  | nil => exact .refl _ s
  | cons k ks ih => exact (touchesAddress_configure exitValue infl k s).trans (ih _)

/-- The number of flows that the services count, up to wrapping. -/
def ZyxelState.total (s : ZyxelState) : BitVec 16 :=
  (s.props.createdServices.map ZyxelServiceParams.flowCounter).sum

/-- With room for a service, every action that is not skipped gives a command or is counted. -/
theorem configured_counts (ks : List ℕ) (hlt : s.props.serviceAllocatorIndex < maxServices) :
    let s' := ks.foldl (fun s k => (configureService exitValue infl k s).1) s
    s.commands.length < s'.commands.length ∨
      s'.total = s.total + BitVec.ofNat 16 (ks.countP fun k => !infl.skips k) := by
  induction ks generalizing s with
  | nil => exact .inr (by simp)
  | cons k ks ih =>
    have houtcome := configureService_outcome exitValue infl k s
    have hrest := (@touchesAddress_foldl exitValue infl ks
      (configureService exitValue infl k s).1).commands_extend.length_le
    rw [List.foldl_cons]
    generalize (configureService exitValue infl k s).1 = s₁ at houtcome hrest ⊢
    generalize (configureService exitValue infl k s).2 = ret at houtcome
    cases houtcome with
    | skipped h =>
      have hskip : infl.skips k = true := h.resolve_right (Nat.not_le.2 hlt)
      rw [List.countP_cons_of_neg (by simp [hskip])]
      exact ih hlt
    | @counted _ pre slot post hskip _ heq _ _ hservices _ halloc hcommands =>
      rw [List.countP_cons_of_pos (by simp [hskip])]
      rcases ih (halloc ▸ hlt) with hlonger | htotal
      · exact .inl (hcommands ▸ hlonger)
      · refine .inr ?_
        -- the flow is counted in the slot
        have hone : s₁.total = s.total + 1 := by
          have hup : slot.countUp.flowCounter = slot.flowCounter + 1 := rfl
          simp only [ZyxelState.total, heq, hservices, List.map_append, List.map_cons,
            List.sum_append, List.sum_cons, hup]
          ac_rfl
        have hsucc (n : ℕ) : BitVec.ofNat 16 (n + 1) = 1 + BitVec.ofNat 16 n := by
          rw [Nat.add_comm, BitVec.ofNat_add]
          rfl
        rw [htotal, hone, hsucc, BitVec.add_assoc]
    | failed _ _ _ _ =>
      rw [List.length_append, List.length_singleton] at hrest
      exact .inl hrest
    | added _ _ _ _ _ _ _ _ _ hcommands =>
      rw [hcommands, List.length_append, List.length_singleton] at hrest
      exact .inl hrest

/-- The flow is not skipped as a whole: it is not about ARP and comes from a port. -/
def InsertedFlow.passes (infl : InsertedFlow) : Bool := !infl.isArp && infl.ofpMatch.inPort != 0

/-- The actions by which the flow asks for services: they have a port and a VLAN. -/
def InsertedFlow.serviceActions (infl : InsertedFlow) : List ℕ :=
  infl.outputs.filter fun k => infl.outPort k != 0 && infl.vlanTag k != 0

/-- Actions are skipped for the flow or for themselves. -/
theorem skips_eq_false_iff : infl.skips k = false ↔
    infl.passes = true ∧ (infl.outPort k != 0 && infl.vlanTag k != 0) = true := by
  unfold InsertedFlow.skips InsertedFlow.passes
  cases infl.isArp <;> simp [bne, and_assoc]

/-- A flow that is skipped, that asks for no services, or for which there is no room does
nothing. -/
theorem configured_of_idle (h : infl.passes = false ∨ infl.serviceActions = [] ∨
    maxServices ≤ s.props.serviceAllocatorIndex) : s.configured exitValue infl = s := by
  have hnone : ∀ k ∈ infl.outputs,
      infl.skips k = true ∨ maxServices ≤ s.props.serviceAllocatorIndex := by
    intro k hk
    refine or_iff_not_imp_left.2 fun hskip => ?_
    obtain ⟨hpass, hask⟩ := skips_eq_false_iff.1 (Bool.eq_false_iff.2 hskip)
    rcases h with h | h | h
    · rw [hpass] at h
      cases h
    · exact absurd (List.mem_filter.2 ⟨hk, hask⟩) (h ▸ List.not_mem_nil)
    · exact h
  unfold ZyxelState.configured
  generalize infl.outputs = ks at hnone
  induction ks with
  | nil => rfl
  | cons k ks ih =>
    rw [List.foldl_cons, configureService_of_skipped (hnone k List.mem_cons_self)]
    exact ih fun x hx => hnone x (List.mem_cons_of_mem _ hx)

/-- Any other flow does something. -/
theorem configured_ne (hpass : infl.passes = true) (hask : infl.serviceActions ≠ [])
    (hlt : s.props.serviceAllocatorIndex < maxServices) (hsize : infl.actions.length < 2 ^ 16) :
    s.configured exitValue infl ≠ s := by
  intro heq
  have hcount : infl.outputs.countP (fun k => !infl.skips k) = infl.serviceActions.length := by
    rw [InsertedFlow.serviceActions, ← List.countP_eq_length_filter]
    refine List.countP_congr fun k _ => ?_
    rw [Bool.not_eq_true', skips_eq_false_iff, and_iff_right hpass]
  rcases @configured_counts exitValue infl _ infl.outputs hlt with hlonger | htotal
  · exact absurd (congrArg (fun s : ZyxelState => s.commands.length) heq) (Nat.ne_of_gt hlonger)
  · -- there are too few actions for the counters to come round
    have hle : infl.serviceActions.length < 2 ^ 16 :=
      (List.length_filter_le ..).trans_lt (infl.length_outputs_le.trans_lt hsize)
    have hpos : 0 < infl.serviceActions.length := List.length_pos_iff.2 hask
    change ZyxelState.total (s.configured exitValue infl) = _ at htotal
    rw [heq, hcount] at htotal
    bv_omega

end Configured

/-! ### Two flows with the same actions -/

/-- An `OFPAT_SET_VLAN_PCP` is among the headers that `output_conf_zyxel` reads. -/
def InsertedFlow.setsPcp (infl : InsertedFlow) (auxInd : ℕ) : Bool :=
  (List.range (auxInd + 1)).any fun i =>
    actionType (infl.actions.drop (sizeofOfpActionHeader * i)) == ofpatSetVlanPcp

/-- The port and the VLAN do not depend on the priority at the beginning, and the priority does
only if none of the headers sets it. -/
theorem scanCells_priority (actions : List Byte) (n : ℕ) (port vlan pcp : BitVec 16) :
    scanCells actions n (port, vlan, pcp) =
      ((scanCells actions n (port, vlan, 0)).1, (scanCells actions n (port, vlan, 0)).2.1,
        if (List.range n).any fun i => actionType (actions.drop (8 * i)) == ofpatSetVlanPcp then
          (scanCells actions n (port, vlan, 0)).2.2
        else pcp) := by
  induction n with
  | zero => rfl
  | succ n ih =>
    rw [scanCells_succ, scanCells_succ, ih, List.range_succ, List.any_append, List.any_cons,
      List.any_nil, Bool.or_false]
    generalize scanCells actions n (port, vlan, 0) = r
    generalize actions.drop (8 * n) = ah
    -- a header sets one of the three values at most
    unfold scanStep
    by_cases hout : actionType ah = ofpatOutput
    · have hne : (actionType ah == ofpatSetVlanPcp) = false := by rw [hout]; rfl
      rw [if_pos hout, if_pos hout, hne, Bool.or_false]
    by_cases hvid : actionType ah = ofpatSetVlanVid
    · have hne : (actionType ah == ofpatSetVlanPcp) = false := by rw [hvid]; rfl
      rw [if_neg hout, if_neg hout, if_pos hvid, if_pos hvid, hne, Bool.or_false]
    by_cases hpcp : actionType ah = ofpatSetVlanPcp
    · have heq : (actionType ah == ofpatSetVlanPcp) = true := beq_iff_eq.2 hpcp
      rw [if_neg hout, if_neg hout, if_neg hvid, if_neg hvid, if_pos hpcp, if_pos hpcp, heq,
        Bool.or_true, if_pos rfl]
    · have hne : (actionType ah == ofpatSetVlanPcp) = false := beq_false_of_ne hpcp
      rw [if_neg hout, if_neg hout, if_neg hvid, if_neg hvid, if_neg hpcp, if_neg hpcp, hne,
        Bool.or_false]

/-- Two flows have the same actions, and come from the same port with the same VLAN. -/
structure InsertedFlow.SameActions (infl infl' : InsertedFlow) : Prop where
  /-- The actions. -/
  actions : infl'.actions = infl.actions
  /-- The port. -/
  inPort : infl'.ofpMatch.inPort = infl.ofpMatch.inPort
  /-- The VLAN. -/
  dlVlan : infl'.ofpMatch.dlVlan = infl.ofpMatch.dlVlan

namespace InsertedFlow.SameActions

variable {infl infl' : InsertedFlow} {k : ℕ}

theorem outputs (h : infl.SameActions infl') : infl'.outputs = infl.outputs := by
  rw [InsertedFlow.outputs, InsertedFlow.outputs, h.actions]

theorem outPort (h : infl.SameActions infl') : infl'.outPort k = infl.outPort k := by
  rw [InsertedFlow.outPort, InsertedFlow.outPort, scanActions_eq, scanActions_eq,
    scanCells_priority, scanCells_priority infl.actions, h.actions, h.dlVlan]

theorem vlanTag (h : infl.SameActions infl') : infl'.vlanTag k = infl.vlanTag k := by
  rw [InsertedFlow.vlanTag, InsertedFlow.vlanTag, scanActions_eq, scanActions_eq,
    scanCells_priority, scanCells_priority infl.actions, h.actions, h.dlVlan]

/-- An action has the same priority exactly if it is set in front of the action, or the flows have
it. -/
theorem vlanPcp_eq_iff (h : infl.SameActions infl') : infl'.vlanPcp k = infl.vlanPcp k ↔
    infl.setsPcp k = true ∨ infl'.ofpMatch.dlVlanPcp = infl.ofpMatch.dlVlanPcp := by
  rw [InsertedFlow.vlanPcp, InsertedFlow.vlanPcp, scanActions_eq, scanActions_eq,
    scanCells_priority, scanCells_priority infl.actions, h.actions, h.dlVlan]
  have hset : ((List.range (k + 1)).any fun i =>
      actionType (infl.actions.drop (8 * i)) == ofpatSetVlanPcp) = infl.setsPcp k := rfl
  rw [hset]
  cases infl.setsPcp k with
  | true => simp
  | false =>
    simp only [Bool.false_eq_true, if_false, false_or]
    constructor
    · intro hwide
      have hnat := congrArg BitVec.toNat hwide
      refine BitVec.eq_of_toNat_eq ?_
      rwa [BitVec.toNat_setWidth_of_le (by decide), BitVec.toNat_setWidth_of_le (by decide)] at hnat
    · intro heq
      rw [heq]

theorem serviceActions (h : infl.SameActions infl') :
    infl'.serviceActions = infl.serviceActions := by
  simp only [InsertedFlow.serviceActions, h.outputs, h.outPort, h.vlanTag]

/-- Behind an action with the same priority every action has the same one. -/
theorem vlanPcp_eq_of_le (h : infl.SameActions infl') {k' : ℕ} (hle : k ≤ k')
    (heq : infl'.vlanPcp k = infl.vlanPcp k) : infl'.vlanPcp k' = infl.vlanPcp k' := by
  refine h.vlanPcp_eq_iff.2 ((h.vlanPcp_eq_iff.1 heq).imp_left fun hset => ?_)
  obtain ⟨i, hi, htype⟩ := List.any_eq_true.1 hset
  rw [List.mem_range] at hi
  exact List.any_eq_true.2 ⟨i, List.mem_range.2 (by omega), htype⟩

end InsertedFlow.SameActions

/-- There is a service with the VLAN of an action and the address of the flow. -/
def ZyxelState.servesAction (s : ZyxelState) (infl : InsertedFlow) (k : ℕ) : Bool :=
  s.props.allocated.any (ZyxelServiceParams.serves infl.wanAddress (infl.vlanTag k))

section Compare

variable {exitValue : ℕ → ℤ} {infl infl' : InsertedFlow} {k : ℕ} {ks : List ℕ} {s : ZyxelState}

/-- An action for which there is a service is counted, and leaves the services what they are. -/
theorem configure_of_served (h : s.servesAction infl k = true) :
    (∀ k', (configureService exitValue infl k s).1.servesAction infl k' = s.servesAction infl k') ∧
      (configureService exitValue infl k s).1.props.serviceAllocatorIndex =
        s.props.serviceAllocatorIndex := by
  obtain ⟨x, hx, hserves⟩ := List.any_eq_true.1 h
  have houtcome := configureService_outcome exitValue infl k s
  generalize (configureService exitValue infl k s).1 = s' at houtcome ⊢
  generalize (configureService exitValue infl k s).2 = ret at houtcome
  cases houtcome with
  | skipped => exact ⟨fun _ => rfl, rfl⟩
  | @counted _ pre slot post _ _ heq hpre _ hservices _ halloc =>
    refine ⟨fun k' => ?_, halloc⟩
    obtain ⟨d, hd⟩ := Nat.exists_eq_add_of_lt hpre
    rw [Nat.add_assoc] at hd
    -- the search does not look at the counters
    have hup : slot.countUp.serves infl.wanAddress (infl.vlanTag k') =
        slot.serves infl.wanAddress (infl.vlanTag k') := rfl
    rw [ZyxelState.servesAction, ZyxelState.servesAction, ZyxelProperties.allocated,
      ZyxelProperties.allocated, heq, hservices, halloc, hd, List.take_length_add_append,
      List.take_length_add_append, List.take_succ_cons, List.take_succ_cons, List.any_append,
      List.any_append, List.any_cons, List.any_cons, hup]
  | failed _ _ hnone =>
    rw [hnone x hx] at hserves
    cases hserves
  | @added _ pre slot post _ _ heq hpre hnone =>
    rw [ZyxelProperties.allocated, heq, ← hpre, List.take_left] at hx
    rw [hnone x hx] at hserves
    cases hserves

/-- An action for which there is no service gives a command. -/
theorem commands_of_not_served (h : s.servesAction infl k = false) (hskip : infl.skips k = false)
    (hlt : s.props.serviceAllocatorIndex < maxServices) :
    (configureService exitValue infl k s).1.commands = s.commands ++ [infl.setwan k] := by
  have houtcome := configureService_outcome exitValue infl k s
  generalize (configureService exitValue infl k s).1 = s' at houtcome ⊢
  generalize (configureService exitValue infl k s).2 = ret at houtcome
  cases houtcome with
  | skipped hno =>
    rcases hno with hno | hno
    · rw [hskip] at hno
      cases hno
    · exact absurd hno (Nat.not_le.2 hlt)
  | @counted _ pre slot post _ _ heq hpre hserves =>
    obtain ⟨d, hd⟩ := Nat.exists_eq_add_of_lt hpre
    rw [Nat.add_assoc] at hd
    rw [ZyxelState.servesAction, ZyxelProperties.allocated, heq, hd, List.take_length_add_append,
      List.take_succ_cons, List.any_append, List.any_cons, hserves, Bool.true_or,
      Bool.or_true] at h
    cases h
  | failed => rfl
  | added _ _ _ _ _ _ _ _ _ hcommands => exact hcommands

/-- Two flows that differ in their priority do the same by an action that is counted, and by an
action with the same priority. -/
theorem configure_congr (h : infl.SameActions infl')
    (hskips : infl'.skips k = infl.skips k) (hwan : infl'.wanAddress = infl.wanAddress)
    (hk : s.servesAction infl k = true ∨ infl'.vlanPcp k = infl.vlanPcp k) :
    (configureService exitValue infl' k s).1 = (configureService exitValue infl k s).1 := by
  rcases hk with hserved | hpcp
  · obtain ⟨x, hx, hserves⟩ := List.any_eq_true.1 hserved
    simp only [configureService, hskips, hwan, h.vlanTag]
    cases hfind : s.props.allocated.findIdx?
        (ZyxelServiceParams.serves infl.wanAddress (infl.vlanTag k)) with
    | none =>
      rw [List.findIdx?_eq_none_iff.1 hfind x hx] at hserves
      cases hserves
    | some i => rfl
  · simp only [configureService, hskips, hwan, h.vlanTag, h.inPort, hpcp]

/-- Two flows that differ in their priority do the same exactly if there is a service for every
action that is not skipped, or the action has the same priority. -/
theorem foldl_configure_eq_iff (h : infl.SameActions infl')
    (hskips : ∀ k, infl'.skips k = infl.skips k) (hwan : infl'.wanAddress = infl.wanAddress)
    (hlt : s.props.serviceAllocatorIndex < maxServices) (hks : ks.Pairwise (· < ·)) :
    ks.foldl (fun s k => (configureService exitValue infl' k s).1) s =
        ks.foldl (fun s k => (configureService exitValue infl k s).1) s ↔
      ∀ k ∈ ks, infl.skips k = false →
        s.servesAction infl k = true ∨ infl'.vlanPcp k = infl.vlanPcp k := by
  induction ks generalizing s with
  | nil => simp
  | cons k ks ih =>
    obtain ⟨hfirst, hks⟩ := List.pairwise_cons.1 hks
    rw [List.foldl_cons, List.foldl_cons, List.forall_mem_cons]
    by_cases hskip : infl.skips k = true
    · rw [configureService_of_skipped (.inl hskip),
        configureService_of_skipped (.inl ((hskips k).trans hskip)), ih hlt hks]
      simp [hskip]
    have hskip := Bool.eq_false_iff.2 hskip
    by_cases hserved : s.servesAction infl k = true
    · -- both flows are counted, and there is the same to do
      obtain ⟨hsame, halloc⟩ := @configure_of_served exitValue infl k s hserved
      rw [configure_congr h (hskips k) hwan (.inl hserved), ih (halloc ▸ hlt) hks]
      simp only [hsame, hserved, true_or, implies_true, true_and]
    · have hserved := Bool.eq_false_iff.2 hserved
      -- the first command tells whether the priority is the same, here and behind
      constructor
      · intro heq
        have hcommands := @commands_of_not_served exitValue infl k s hserved hskip hlt
        have hcommands' := @commands_of_not_served exitValue infl' k s
          (by rwa [ZyxelState.servesAction, hwan, h.vlanTag]) ((hskips k).trans hskip) hlt
        obtain ⟨issued, hissued⟩ := (@touchesAddress_foldl exitValue infl ks
          (configureService exitValue infl k s).1).commands_extend
        obtain ⟨issued', hissued'⟩ := (@touchesAddress_foldl exitValue infl' ks
          (configureService exitValue infl' k s).1).commands_extend
        rw [hcommands, List.append_assoc] at hissued
        rw [hcommands', List.append_assoc, heq, ← hissued, List.append_cancel_left_eq,
          List.singleton_append, List.singleton_append, List.cons.injEq] at hissued'
        have hpcp : infl'.vlanPcp k = infl.vlanPcp k := by
          have hcommand := hissued'.1
          simp only [InsertedFlow.setwan, DeviceCommand.setwan.injEq] at hcommand
          exact hcommand.2.2.2
        exact ⟨fun _ => .inr hpcp, fun x hx _ =>
          .inr (h.vlanPcp_eq_of_le (Nat.le_of_lt (hfirst x hx)) hpcp)⟩
      · rintro ⟨hk, -⟩
        have hpcp := (hk hskip).resolve_left (Bool.eq_false_iff.1 hserved)
        rw [configure_congr h (hskips k) hwan (.inr hpcp)]
        exact List.foldl_ext _ _ _ fun s' x hx => configure_congr h (hskips x) hwan
          (.inr (h.vlanPcp_eq_of_le (Nat.le_of_lt (hfirst x hx)) hpcp))

/-- When two flows with the same actions, port and VLAN do the same to the services: nothing, since
there is no room for a service, the flows have no port, no action asks for a service, or both flows
are about ARP; or they have the same address, and the same priority for each action that needs a
new service. -/
def InsertedFlow.SameServices (infl infl' : InsertedFlow) (s : ZyxelState) : Prop :=
  maxServices ≤ s.props.serviceAllocatorIndex ∨ infl.ofpMatch.inPort = 0 ∨
    infl.serviceActions = [] ∨ (infl.isArp = true ∧ infl'.isArp = true) ∨
    (infl.isArp = false ∧ infl'.isArp = false ∧ infl'.wanAddress = infl.wanAddress ∧
      (infl'.ofpMatch.dlVlanPcp = infl.ofpMatch.dlVlanPcp ∨ ∀ k ∈ infl.serviceActions,
        s.servesAction infl k = true ∨ infl.setsPcp k = true))

/-- Two flows with the same actions, port and VLAN that are not skipped as a whole do the same
exactly if they have the same address, and the same priority where it matters. -/
theorem configured_eq_iff_of_passes (h : infl.SameActions infl') (hpass : infl.passes = true)
    (hpass' : infl'.passes = true) (hask : infl.serviceActions ≠ [])
    (hlt : s.props.serviceAllocatorIndex < maxServices) (hsize : infl.actions.length < 2 ^ 16) :
    s.configured exitValue infl' = s.configured exitValue infl ↔
      infl'.wanAddress = infl.wanAddress ∧
        (infl'.ofpMatch.dlVlanPcp = infl.ofpMatch.dlVlanPcp ∨ ∀ k ∈ infl.serviceActions,
          s.servesAction infl k = true ∨ infl.setsPcp k = true) := by
  have hskips : ∀ k, infl'.skips k = infl.skips k := by
    intro k
    rw [Bool.eq_iff_iff, ← Bool.not_eq_false, ← Bool.not_eq_false, not_iff_not,
      skips_eq_false_iff, skips_eq_false_iff, hpass, hpass', h.outPort, h.vlanTag]
  by_cases hwan : infl'.wanAddress = infl.wanAddress
  · have hmem : ∀ {P : ℕ → Prop}, (∀ k ∈ infl.outputs, infl.skips k = false → P k) ↔
        ∀ k ∈ infl.serviceActions, P k := by
      intro P
      simp only [InsertedFlow.serviceActions, List.mem_filter, skips_eq_false_iff, hpass,
        true_and, and_imp]
    rw [ZyxelState.configured, ZyxelState.configured, h.outputs,
      foldl_configure_eq_iff h hskips hwan hlt infl.pairwise_outputs, hmem,
      and_iff_right hwan]
    simp only [h.vlanPcp_eq_iff]
    constructor
    · intro hall
      refine or_iff_not_imp_left.2 fun hpcp k hk => (hall k hk).imp_right fun hset =>
        hset.resolve_right hpcp
    · rintro (hpcp | hall)
      · exact fun k _ => .inr (.inr hpcp)
      · exact fun k hk => (hall k hk).imp_right .inl
  · -- what bears both addresses has not happened
    refine iff_of_false (fun heq => ?_) fun hand => hwan hand.1
    have htouch : s.TouchesAddress infl'.wanAddress (s.configured exitValue infl') :=
      touchesAddress_foldl infl'.outputs s
    exact configured_ne hpass hask hlt hsize ((touchesAddress_foldl infl.outputs s).eq_of_ne
      (heq ▸ htouch) (Ne.symm hwan))

/-- Two flows with the same actions, port and VLAN do the same to the services exactly if this is
so. -/
theorem configured_eq_iff (h : infl.SameActions infl') (hsize : infl.actions.length < 2 ^ 16) :
    s.configured exitValue infl' = s.configured exitValue infl ↔ infl.SameServices infl' s := by
  have hpasses : ∀ x : InsertedFlow, x.passes = true ↔
      x.isArp = false ∧ x.ofpMatch.inPort ≠ 0 := by
    intro x
    rw [InsertedFlow.passes, Bool.and_eq_true, Bool.not_eq_true', bne_iff_ne]
  unfold InsertedFlow.SameServices
  by_cases hfull : maxServices ≤ s.props.serviceAllocatorIndex
  · rw [configured_of_idle (.inr (.inr hfull)), configured_of_idle (.inr (.inr hfull))]
    exact iff_of_true rfl (.inl hfull)
  by_cases hport : infl.ofpMatch.inPort = 0
  · have hidle : ∀ x : InsertedFlow, x.ofpMatch.inPort = 0 → x.passes = false := fun x hx =>
      Bool.eq_false_iff.2 fun hpass => ((hpasses x).1 hpass).2 hx
    rw [configured_of_idle (.inl (hidle infl hport)),
      configured_of_idle (.inl (hidle infl' (h.inPort.trans hport)))]
    exact iff_of_true rfl (.inr (.inl hport))
  by_cases hask : infl.serviceActions = []
  · rw [configured_of_idle (.inr (.inl hask)),
      configured_of_idle (.inr (.inl (h.serviceActions.trans hask)))]
    exact iff_of_true rfl (.inr (.inr (.inl hask)))
  have hlt := Nat.lt_of_not_le hfull
  have hport' : infl'.ofpMatch.inPort ≠ 0 := h.inPort ▸ hport
  have hsize' : infl'.actions.length < 2 ^ 16 := h.actions ▸ hsize
  have harp : ∀ x : InsertedFlow, x.isArp = true → x.passes = false := fun x hx =>
    Bool.eq_false_iff.2 fun hpass => Bool.eq_false_iff.1 ((hpasses x).1 hpass).1 hx
  simp only [hfull, hport, hask, false_or]
  -- a flow about ARP does nothing, and any other one does something
  cases hx : infl.isArp with
  | true =>
    rw [configured_of_idle (.inl (harp infl hx))]
    cases hx' : infl'.isArp with
    | true =>
      rw [configured_of_idle (.inl (harp infl' hx'))]
      simp
    | false =>
      have hne := @configured_ne exitValue infl' s ((hpasses infl').2 ⟨hx', hport'⟩)
        (h.serviceActions ▸ hask) hlt hsize'
      simp [hne]
  | false =>
    have hpass := (hpasses infl).2 ⟨hx, hport⟩
    cases hx' : infl'.isArp with
    | true =>
      have hne := @configured_ne exitValue infl s hpass hask hlt hsize
      rw [configured_of_idle (.inl (harp infl' hx'))]
      simp [Ne.symm hne]
    | false =>
      rw [configured_eq_iff_of_passes h hpass ((hpasses infl').2 ⟨hx', hport'⟩) hask hlt hsize]
      simp

end Compare

end OfAgent
