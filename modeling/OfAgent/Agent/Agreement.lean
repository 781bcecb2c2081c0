import OfAgent.Agent.Slots

/-!
# The services and the device

Runs of the two functions in which commands fail. `system` returns the wait status of a command,
and a command has succeeded if and only if that is zero.

* `DeviceCommand.HeldBy`: the last command that sets up a service has succeeded, and no command
  that takes it down has succeeded since.
* `ZyxelState.Agrees`: the services in use are those that the device holds.
* `ServiceCall.KeepsAgreement`: the calls that keep it so; `agrees_iff`.
-/

namespace OfAgent

open FirstMatch Transition

namespace DeviceCommand

/-- The service that a command is about. -/
def service : DeviceCommand → BitVec 32 × BitVec 16
  | .setwan wanAddress _ vlanTag _ => (wanAddress, vlanTag)
  | .delwan wanAddress _ vlanTag _ => (wanAddress, vlanTag)

/-- The command sets up a service. -/
def isSetwan : DeviceCommand → Bool
  | .setwan .. => true
  | .delwan .. => false

/-- Of the commands for the service, the last one that sets it up has succeeded, and none that
takes it down has succeeded since. -/
def HeldBy (exitValue : ℕ → ℤ) (commands : List DeviceCommand) (svc : BitVec 32 × BitVec 16) :
    Prop :=
  Since (fun n c => c.service = svc ∧ c.isSetwan = true ∧ exitValue n = 0)
    (fun n c => c.service = svc ∧ (c.isSetwan = true ∨ exitValue n = 0)) commands

variable {exitValue : ℕ → ℤ} {commands : List DeviceCommand} {c : DeviceCommand}
  {svc : BitVec 32 × BitVec 16}

theorem heldBy_concat_of_ne (h : c.service ≠ svc) :
    HeldBy exitValue (commands ++ [c]) svc ↔ HeldBy exitValue commands svc := by
  simp [HeldBy, since_concat, h]

theorem heldBy_concat_setwan (h : c.service = svc) (hset : c.isSetwan = true) :
    HeldBy exitValue (commands ++ [c]) svc ↔ exitValue commands.length = 0 := by
  simp [HeldBy, since_concat, h, hset]

theorem heldBy_concat_delwan (h : c.service = svc) (hset : c.isSetwan = false) :
    HeldBy exitValue (commands ++ [c]) svc ↔
      exitValue commands.length ≠ 0 ∧ HeldBy exitValue commands svc := by
  simp [HeldBy, since_concat, h, hset]

end DeviceCommand

/-- The services in use are those that the device holds. -/
def ZyxelState.Agrees (exitValue : ℕ → ℤ) (s : ZyxelState) : Prop :=
  ∀ svc, svc ∈ activeKeys s.props.createdServices ↔ DeviceCommand.HeldBy exitValue s.commands svc

namespace ServiceCall

/-- The call keeps the services in agreement with the device. A command that sets up a service
fails only with a negative value, and not for a service in use; a command that takes down a
service succeeds if and only if its slot was the only one of the service. -/
def KeepsAgreement (exitValue : ℕ → ℤ) (s : ZyxelState) : ServiceCall → Prop
  | .conf infl k =>
      infl.skips k = true ∨ maxServices ≤ s.props.serviceAllocatorIndex ∨
        (∃ x ∈ s.props.allocated, x.serves infl.wanAddress (infl.vlanTag k) = true) ∨
        exitValue s.commands.length = 0 ∨
        (exitValue s.commands.length < 0 ∧
          (infl.wanAddress, infl.vlanTag k) ∉ activeKeys s.props.createdServices)
  | .unconf infl _ =>
      infl.isArp = true ∨ ∀ slot,
        s.props.createdServices.find? (ZyxelServiceParams.holds infl.wanAddress) = some slot →
          1 < slot.flowCounter.toInt ∨ slot.active = false ∨
            (exitValue s.commands.length = 0 ↔
              (activeKeys s.props.createdServices).count slot.key = 1)

/-- A call whose command fails to set up a service returns `-1` and leaves the services as they
are. -/
def ReportsFailure (exitValue : ℕ → ℤ) (s : ZyxelState) : ServiceCall → Prop
  | .conf infl k => ∀ s' ret, outputConfZyxel exitValue infl k s = .ok (s', ret) →
      s'.commands ≠ s.commands → exitValue s.commands.length ≠ 0 →
        ret = -1 ∧ s'.props = s.props
  | .unconf .. => True

end ServiceCall

section Steps

variable {exitValue : ℕ → ℤ} {infl : InsertedFlow} {k : ℕ} {s s' : ZyxelState}
  {pre post : List ZyxelServiceParams} {slot : ZyxelServiceParams}

/-- A call that gives no command and changes no service. -/
theorem agrees_of_same (hagree : s.Agrees exitValue)
    (hkeys : activeKeys s'.props.createdServices = activeKeys s.props.createdServices)
    (hcommands : s'.commands = s.commands) : s'.Agrees exitValue := by
  intro svc
  rw [hkeys, hcommands]
  exact hagree svc

/-- After one more command it is the service of the command that counts, when the others are left
as they are. -/
theorem agrees_concat_iff {c : DeviceCommand} (hagree : s.Agrees exitValue)
    (hcommands : s'.commands = s.commands ++ [c])
    (hothers : ∀ svc, svc ≠ c.service → (svc ∈ activeKeys s'.props.createdServices ↔
      svc ∈ activeKeys s.props.createdServices)) :
    s'.Agrees exitValue ↔ (c.service ∈ activeKeys s'.props.createdServices ↔
      DeviceCommand.HeldBy exitValue (s.commands ++ [c]) c.service) := by
  constructor
  · intro h
    have hsvc := h c.service
    rwa [hcommands] at hsvc
  · intro h svc
    rw [hcommands]
    by_cases hsvc : svc = c.service
    · rw [hsvc]
      exact h
    · rw [hothers svc hsvc, DeviceCommand.heldBy_concat_of_ne (Ne.symm hsvc)]
      exact hagree svc

variable (s') in
/-- After a command for a new service that leaves the other services as they are. -/
theorem agrees_setwan_iff (hagree : s.Agrees exitValue)
    (hcommands : s'.commands = s.commands ++ [infl.setwan k])
    (hothers : ∀ svc, svc ≠ (infl.wanAddress, infl.vlanTag k) →
      (svc ∈ activeKeys s'.props.createdServices ↔ svc ∈ activeKeys s.props.createdServices)) :
    s'.Agrees exitValue ↔
      ((infl.wanAddress, infl.vlanTag k) ∈ activeKeys s'.props.createdServices ↔
        exitValue s.commands.length = 0) := by
  rw [agrees_concat_iff hagree hcommands hothers,
    DeviceCommand.heldBy_concat_setwan rfl rfl]
  rfl

/-- Clearing a slot that is not in use. -/
theorem agrees_cleared_of_not_active (hs : s.props.Slotted) (hagree : s.Agrees exitValue)
    {wan : BitVec 32} (heq : s.props.createdServices = pre ++ slot :: post)
    (hactive : slot.active = false)
    (hservices : s'.props.createdServices = pre ++ slot.cleared :: post)
    (hcommands : s'.commands = s.commands ++ [.delwan wan 0 slot.vlanTag slot.vlanPcp]) :
    s'.Agrees exitValue := by
  have hcleared : slot.cleared.active = false := rfl
  have hkeys : activeKeys s'.props.createdServices = activeKeys s.props.createdServices := by
    rw [hservices, heq, activeKeys_of_not_active hcleared, activeKeys_of_not_active hactive]
  have hvlan : slot.vlanTag = 0 := ((hs.regular slot (by simp [heq])).1 hactive).2.1
  -- no service in use has the VLAN zero, so that the device does not hold the one of the slot
  have hnot : (wan, slot.vlanTag) ∉ activeKeys s.props.createdServices := by
    intro hmem
    obtain ⟨x, hx, hkey⟩ := List.mem_map.1 hmem
    obtain ⟨hx, hxactive⟩ := List.mem_filter.1 hx
    exact (hs.regular x hx).2 hxactive ((congrArg Prod.snd hkey).trans hvlan)
  rw [agrees_concat_iff hagree hcommands fun svc _ => by rw [hkeys], hkeys,
    DeviceCommand.heldBy_concat_delwan rfl rfl]
  exact iff_of_false hnot fun hheld => hnot ((hagree _).2 hheld.2)

/-- Clearing a slot in use: the command has to succeed if and only if no other slot in use has the
service. -/
theorem agrees_cleared_iff (hagree : s.Agrees exitValue)
    (heq : s.props.createdServices = pre ++ slot :: post) (hactive : slot.active = true)
    (hservices : s'.props.createdServices = pre ++ slot.cleared :: post)
    (hcommands : s'.commands =
      s.commands ++ [.delwan slot.wanAddress 0 slot.vlanTag slot.vlanPcp]) :
    s'.Agrees exitValue ↔ (exitValue s.commands.length = 0 ↔
      (activeKeys s.props.createdServices).count slot.key = 1) := by
  have hcleared : slot.cleared.active = false := rfl
  have hkeys : activeKeys s.props.createdServices =
      activeKeys pre ++ slot.key :: activeKeys post := by
    rw [heq, activeKeys_of_active hactive]
  have hkeys' : activeKeys s'.props.createdServices = activeKeys pre ++ activeKeys post := by
    rw [hservices, activeKeys_of_not_active hcleared]
  have hheld : DeviceCommand.HeldBy exitValue s.commands slot.key :=
    (hagree _).1 (by simp [hkeys])
  have hothers : ∀ svc, svc ≠ slot.key → (svc ∈ activeKeys s'.props.createdServices ↔
      svc ∈ activeKeys s.props.createdServices) := by
    intro svc hne
    simp [hkeys, hkeys', hne]
  -- the key is there once exactly if no other slot has it
  have hcount : (activeKeys s.props.createdServices).count slot.key = 1 ↔
      slot.key ∉ activeKeys s'.props.createdServices := by
    rw [← List.count_eq_zero, hkeys, hkeys', List.count_append, List.count_append,
      List.count_cons_self]
    omega
  rw [agrees_concat_iff hagree hcommands hothers, hcount,
    DeviceCommand.heldBy_concat_delwan rfl rfl]
  have hservice : (DeviceCommand.delwan slot.wanAddress 0 slot.vlanTag slot.vlanPcp).service =
      slot.key := rfl
  rw [hservice, and_iff_left hheld]
  tauto

/-- When the search finds nothing, it is the exit value that counts. -/
theorem keepsAgreement_conf_iff (hskip : infl.skips k = false)
    (hlt : s.props.serviceAllocatorIndex < maxServices)
    (hnone : ∀ x ∈ s.props.allocated, x.serves infl.wanAddress (infl.vlanTag k) = false) :
    (ServiceCall.conf infl k).KeepsAgreement exitValue s ↔
      exitValue s.commands.length = 0 ∨
        (exitValue s.commands.length < 0 ∧
          (infl.wanAddress, infl.vlanTag k) ∉ activeKeys s.props.createdServices) := by
  have hnot : ¬ ∃ x ∈ s.props.allocated, x.serves infl.wanAddress (infl.vlanTag k) = true := by
    rintro ⟨x, hx, hserves⟩
    rw [hnone x hx] at hserves
    cases hserves
  simp [ServiceCall.KeepsAgreement, hskip, Nat.not_le.2 hlt, hnot]

theorem allocated_eq_of_cut (heq : s.props.createdServices = pre ++ slot :: post)
    (hpre : pre.length = s.props.serviceAllocatorIndex) : s.props.allocated = pre := by
  rw [ZyxelProperties.allocated, heq, ← hpre, List.take_left]

/-- A slot in front of the one that the allocator points to is allocated. -/
theorem mem_allocated_of_cut (heq : s.props.createdServices = pre ++ slot :: post)
    (hpre : pre.length < s.props.serviceAllocatorIndex) : slot ∈ s.props.allocated := by
  refine List.mem_iff_getElem?.2 ⟨pre.length, ?_⟩
  rw [ZyxelProperties.allocated, List.getElem?_take_of_lt hpre, heq]
  simp

/-- The calls that keep the services in agreement with the device are exactly those that
`ServiceCall.KeepsAgreement` names. -/
theorem agrees_step_iff {call : ServiceCall} (hs : s.props.Slotted)
    (hagree : s.Agrees exitValue) (h : call.exec exitValue s = .ok s') :
    s'.Agrees exitValue ↔ call.KeepsAgreement exitValue s := by
  cases call with
  | conf infl k =>
    obtain ⟨ret, houtcome⟩ := ServiceCall.exec_conf h
    cases houtcome with
    | skipped hskip =>
      obtain hskip | hfull := hskip
      · exact iff_of_true hagree (Or.inl hskip)
      · exact iff_of_true hagree (Or.inr (Or.inl hfull))
    | counted _ _ heq hpre hserves hservices _ _ hcommands =>
      -- one more flow for a service that the device has: the keys and the commands are the same
      have hkeys : activeKeys s'.props.createdServices = activeKeys s.props.createdServices := by
        rw [hservices, heq]
        exact activeKeys_congr rfl rfl
      have hfound : ∃ x ∈ s.props.allocated,
          x.serves infl.wanAddress (infl.vlanTag k) = true :=
        ⟨_, mem_allocated_of_cut heq hpre, hserves⟩
      exact iff_of_true (agrees_of_same hagree hkeys hcommands) (Or.inr (Or.inr (Or.inl hfound)))
    | failed hskip hlt hnone hexit =>
      -- the command has failed, and no slot has been filled
      rw [keepsAgreement_conf_iff hskip hlt hnone]
      rw [agrees_setwan_iff { s with commands := s.commands ++ [infl.setwan k] } hagree rfl
        fun svc _ => Iff.rfl]
      have hne : exitValue s.commands.length ≠ 0 := Int.ne_of_lt hexit
      simp only [hne, hexit, iff_false, true_and, false_or]
    | added hskip hlt heq hpre hnone hexit hservices _ _ hcommands =>
      -- a free slot gets the service, and its key joins those of the device
      obtain ⟨hkeys, hnew⟩ := activeKeys_of_fresh hs heq hpre
      have hkeys' : activeKeys s'.props.createdServices =
          activeKeys s.props.createdServices ++ [(infl.wanAddress, infl.vlanTag k)] := by
        rw [hservices, hnew _ (InsertedFlow.active_newService hskip _), hkeys]
        rfl
      rw [keepsAgreement_conf_iff hskip hlt (allocated_eq_of_cut heq hpre ▸ hnone),
        agrees_setwan_iff _ hagree hcommands fun svc hne => by simp [hkeys', hne], hkeys']
      have hnonneg : ¬ exitValue s.commands.length < 0 := Int.not_lt.2 hexit
      simp only [List.mem_append, List.mem_singleton, or_true, true_iff, hnonneg, false_and,
        or_false]
  | unconf infl k =>
    obtain ⟨harp, rfl⟩ | ⟨harp, houtcome⟩ := ServiceCall.exec_unconf h
    · exact iff_of_true hagree (Or.inl harp)
    cases houtcome with
    | notFound hnone =>
      have hfind : s.props.createdServices.find? (ZyxelServiceParams.holds infl.wanAddress) =
          none := List.find?_eq_none.2 fun x hx => Bool.eq_false_iff.1 (hnone x hx)
      refine iff_of_true hagree (Or.inr fun slot hslot => ?_)
      rw [hfind] at hslot
      cases hslot
    | counted heq hpre hholds hmore hservices _ _ hcommands =>
      have hkeys : activeKeys s'.props.createdServices = activeKeys s.props.createdServices := by
        rw [hservices, heq]
        exact activeKeys_congr rfl rfl
      refine iff_of_true (agrees_of_same hagree hkeys hcommands) (Or.inr fun x hx => .inl ?_)
      rw [heq, find?_append_cons hpre hholds] at hx
      exact Option.some.inj hx ▸ hmore
    | @cleared _ _ slot _ heq hpre hholds hlast hservices _ _ hcommands =>
      -- the last flow of the service: the slot is cleared, and the device is told
      have hfind : s.props.createdServices.find? (ZyxelServiceParams.holds infl.wanAddress) =
          some slot := by rw [heq, find?_append_cons hpre hholds]
      have hcond : (ServiceCall.unconf infl k).KeepsAgreement exitValue s ↔
          slot.active = false ∨ (exitValue s.commands.length = 0 ↔
            (activeKeys s.props.createdServices).count slot.key = 1) := by
        simp [ServiceCall.KeepsAgreement, harp, hfind, hlast]
      rw [hcond]
      cases hactive : slot.active with
      | false =>
        exact iff_of_true
          (agrees_cleared_of_not_active hs hagree heq hactive hservices hcommands) (.inl rfl)
      | true =>
        have hwan : infl.wanAddress = slot.wanAddress := by
          simp only [ZyxelServiceParams.holds, Bool.and_eq_true, beq_iff_eq] at hholds
          exact hholds.1
        rw [hwan] at hcommands
        rw [agrees_cleared_iff hagree heq hactive hservices hcommands]
        simp only [Bool.true_eq_false, false_or]

/-- A call that keeps the agreement reports the failure of its command. -/
theorem reportsFailure_of_keepsAgreement {call : ServiceCall}
    (h : call.KeepsAgreement exitValue s) : call.ReportsFailure exitValue s := by
  cases call with
  | unconf => trivial
  | conf infl k =>
    intro s' ret hconf hissued hfails
    have houtcome := configureService_outcome exitValue infl k s
    have hret : configureService exitValue infl k s = (s', ret) := by
      rw [outputConfZyxel] at hconf
      split at hconf
      · cases hconf
      · exact Except.ok.inj hconf
    rw [hret] at houtcome
    cases houtcome with
    | skipped => exact absurd rfl hissued
    | counted _ _ _ _ _ _ _ _ hcommands => exact absurd hcommands hissued
    | failed => exact ⟨rfl, rfl⟩
    | added hskip hlt heq hpre hnone hexit =>
      rw [keepsAgreement_conf_iff hskip hlt (allocated_eq_of_cut heq hpre ▸ hnone)] at h
      omega

end Steps

/-- Nothing is in use and nothing has been commanded when the program starts. -/
theorem ZyxelState.agrees_init (exitValue : ℕ → ℤ) : ZyxelState.init.Agrees exitValue := by
  intro svc
  have hkeys : activeKeys ZyxelState.init.props.createdServices = [] := by decide
  rw [hkeys]
  exact iff_of_false List.not_mem_nil not_since_nil

/-- In a run whose calls keep the agreement the services in use are those that the device holds, in
every state; a failed command is reported; and the next call keeps the agreement exactly under
the same condition. -/
theorem agrees_iff {exitValue : ℕ → ℤ} {s : ZyxelState}
    (h : ReachableVia (StepOf (ServiceCall.exec exitValue))
      (fun s call => call.KeepsAgreement exitValue s) .init s) :
    s.Agrees exitValue ∧ ∀ (call : ServiceCall) (s' : ZyxelState),
      call.exec exitValue s = .ok s' →
        (s'.Agrees exitValue ∧ call.ReportsFailure exitValue s ↔
          call.KeepsAgreement exitValue s) := by
  have hagree : s.Agrees exitValue :=
    h.invariant_of_reached (ZyxelState.Agrees exitValue) (ZyxelState.agrees_init exitValue)
      fun s call s' hreach hs hok hstep =>
        (agrees_step_iff (slotted_of_reachableVia hreach) hs hstep).2 hok
  refine ⟨hagree, fun call s' hstep => ?_⟩
  rw [agrees_step_iff (slotted_of_reachableVia h) hagree hstep]
  exact ⟨And.left, fun hok => ⟨hok, reportsFailure_of_keepsAgreement hok⟩⟩

/-- The device after calls, when only the `n`-th command fails, with exit code 255. -/
def deviceAfterFailure (n : ℕ) (calls : List ServiceCall) : ZyxelState :=
  runTo (ServiceCall.exec fun i => if i = n then 65280 else 0) .init calls

/-- A service is set up and taken down. -/
theorem agrees_iff_taken_down : (deviceAfter [.conf (serviceRecord 10 1) 0,
    .unconf (serviceRecord 10 1) 0]).Agrees fun _ => 0 := by
  have hstep1 : StepOf (ServiceCall.exec fun _ => 0) .init (.conf (serviceRecord 10 1) 0)
      (deviceAfter [.conf (serviceRecord 10 1) 0]) := by
    unfold StepOf
    decide +kernel
  have hstep2 : StepOf (ServiceCall.exec fun _ => 0) (deviceAfter [.conf (serviceRecord 10 1) 0])
      (.unconf (serviceRecord 10 1) 0)
      (deviceAfter [.conf (serviceRecord 10 1) 0, .unconf (serviceRecord 10 1) 0]) := by
    unfold StepOf
    decide +kernel
  have hok1 : (ServiceCall.conf (serviceRecord 10 1) 0).KeepsAgreement (fun _ => 0) .init :=
    Or.inr (Or.inr (Or.inr (Or.inl rfl)))
  have hok2 : (ServiceCall.unconf (serviceRecord 10 1) 0).KeepsAgreement (fun _ => 0)
      (deviceAfter [.conf (serviceRecord 10 1) 0]) := by
    refine Or.inr fun slot hslot => .inr (.inr (iff_of_true rfl ?_))
    have hfind : (deviceAfter [.conf (serviceRecord 10 1) 0]).props.createdServices.find?
        (ZyxelServiceParams.holds (serviceRecord 10 1).wanAddress) =
          some ⟨1, 1, 0, 10, 0, 1⟩ := by decide +kernel
    rw [hfind] at hslot
    rw [← Option.some.inj hslot]
    decide +kernel
  generalize deviceAfter [.conf (serviceRecord 10 1) 0, .unconf (serviceRecord 10 1) 0] = s2 at *
  generalize deviceAfter [.conf (serviceRecord 10 1) 0] = s1 at *
  exact (agrees_iff (.tail (.tail .refl hok1 hstep1) hok2 hstep2)).1

/-- The client exits with 255 when it cannot reach the device. The service is in use all the
same, and the call returns zero. -/
theorem not_agrees : ¬ ∀ (exitValue : ℕ → ℤ) (s : ZyxelState),
    Reachable (StepOf (ServiceCall.exec exitValue)) .init s →
      s.Agrees exitValue ∧ ∀ call : ServiceCall, call.ReportsFailure exitValue s := by
  intro hall
  have hr : Reachable (StepOf (ServiceCall.exec fun i => if i = 0 then 65280 else 0)) .init
      (deviceAfterFailure 0 [.conf (serviceRecord 10 1) 0]) := reachable_runTo (by decide +kernel)
  have hmem : ((1, 10) : BitVec 32 × BitVec 16) ∈ activeKeys
      (deviceAfterFailure 0 [.conf (serviceRecord 10 1) 0]).props.createdServices := by
    decide +kernel
  have hcommands : (deviceAfterFailure 0 [.conf (serviceRecord 10 1) 0]).commands =
      [] ++ [.setwan 1 0 10 0] := by decide +kernel
  have hheld := (((hall _ _ hr).1 _).1 hmem)
  rw [hcommands] at hheld
  exact absurd ((DeviceCommand.heldBy_concat_setwan rfl rfl).1 hheld) (by decide)

end OfAgent
