import OfAgent.Agent.Services

/-!
# The slots of the services

Runs of the two functions of the supported actions, on any matches and any actions, and what holds
of the array of services and its counter in the states of such a run.

* `ServiceCall`: a call of `output_conf_zyxel` or `output_unconf_zyxel`.
* `activeKeys`: the address and the VLAN of every slot that is in use.
* `ZyxelProperties.Consistent`: `srv_counter` counts the slots in use, and no two of them have the
  same address and VLAN.
* `ZyxelProperties.Slotted`: what holds of the slots after any calls at all.
* `ServiceCall.KeepsConsistent`: the calls that keep the array consistent; `consistent_iff`.
-/

namespace OfAgent

open FirstMatch Transition

/-- A call of one of the two functions, with its record and the index of the action. -/
inductive ServiceCall
  /-- `output_conf_zyxel`. -/
  | conf (infl : InsertedFlow) (auxInd : ℕ)
  /-- `output_unconf_zyxel`. -/
  | unconf (infl : InsertedFlow) (auxInd : ℕ)
  deriving DecidableEq, Repr

/-- What the call does to the device, when the exit value of the `n`-th command is
`exitValue n`. -/
def ServiceCall.exec (exitValue : ℕ → ℤ) (s : ZyxelState) :
    ServiceCall → Except AgentFault ZyxelState
  | .conf infl auxInd => (outputConfZyxel exitValue infl auxInd s).map Prod.fst
  | .unconf infl auxInd => outputUnconfZyxel infl auxInd s

/-- A call that reads inside the actions has an outcome. -/
theorem ServiceCall.exec_conf {exitValue : ℕ → ℤ} {infl : InsertedFlow} {k : ℕ}
    {s s' : ZyxelState} (h : (ServiceCall.conf infl k).exec exitValue s = .ok s') :
    ∃ ret, ConfigureOutcome exitValue infl k s s' ret := by
  have houtcome := configureService_outcome exitValue infl k s
  simp only [ServiceCall.exec, outputConfZyxel] at h
  split at h
  · cases h
  · cases h
    exact ⟨_, houtcome⟩

/-- A call that removes a flow leaves the device as it is, when the flow is about ARP, or has an
outcome. -/
theorem ServiceCall.exec_unconf {exitValue : ℕ → ℤ} {infl : InsertedFlow} {k : ℕ}
    {s s' : ZyxelState} (h : (ServiceCall.unconf infl k).exec exitValue s = .ok s') :
    (infl.isArp = true ∧ s' = s) ∨
      (infl.isArp = false ∧ UnconfigureOutcome infl.wanAddress s s') := by
  have houtcome := unconfigureService_outcome infl.wanAddress s
  simp only [ServiceCall.exec, outputUnconfZyxel, Except.ok.injEq] at h
  by_cases harp : infl.isArp = true
  · rw [if_pos harp] at h
    exact .inl ⟨harp, h.symm⟩
  · rw [if_neg harp] at h
    exact .inr ⟨Bool.eq_false_iff.2 harp, h ▸ houtcome⟩

/-! ### The slots in use -/

namespace ZyxelServiceParams

/-- The slot is in use. -/
def active (s : ZyxelServiceParams) : Bool := s.inPort != 0

/-- The service of a slot: its address and VLAN. -/
def key (s : ZyxelServiceParams) : BitVec 32 × BitVec 16 := (s.wanAddress, s.vlanTag)

end ZyxelServiceParams

/-- The services of the slots that are in use. -/
def activeKeys (slots : List ZyxelServiceParams) : List (BitVec 32 × BitVec 16) :=
  (slots.filter ZyxelServiceParams.active).map ZyxelServiceParams.key

section Keys

variable {pre post : List ZyxelServiceParams} {slot slot' : ZyxelServiceParams}

theorem activeKeys_of_active (h : slot.active = true) :
    activeKeys (pre ++ slot :: post) = activeKeys pre ++ slot.key :: activeKeys post := by
  simp [activeKeys, List.filter_cons_of_pos h]

theorem activeKeys_of_not_active (h : slot.active = false) :
    activeKeys (pre ++ slot :: post) = activeKeys pre ++ activeKeys post := by
  have hneg : ¬ slot.active = true := Bool.eq_false_iff.1 h
  simp [activeKeys, List.filter_cons_of_neg hneg]

/-- The services depend on the address, the VLAN and the use of each slot only. -/
theorem activeKeys_congr (hactive : slot'.active = slot.active) (hkey : slot'.key = slot.key) :
    activeKeys (pre ++ slot' :: post) = activeKeys (pre ++ slot :: post) := by
  cases h : slot.active with
  | true => rw [activeKeys_of_active h, activeKeys_of_active (hactive.trans h), hkey]
  | false => rw [activeKeys_of_not_active h, activeKeys_of_not_active (hactive.trans h)]

theorem length_activeKeys_le (slots : List ZyxelServiceParams) :
    (activeKeys slots).length ≤ slots.length := by
  rw [activeKeys, List.length_map]
  exact List.length_filter_le ..

end Keys

namespace ZyxelProperties

/-- The counter and the services of the array fit. -/
structure Consistent (p : ZyxelProperties) : Prop where
  /-- The counter is the number of slots in use. -/
  counter : p.srvCounter.toInt = (p.createdServices.filter ZyxelServiceParams.active).length
  /-- It lies between zero and the number of slots. -/
  range : 0 ≤ p.srvCounter.toInt ∧ p.srvCounter.toInt ≤ maxServices
  /-- The slots in use differ in their address or VLAN. -/
  distinct :
    ((p.createdServices.filter ZyxelServiceParams.active).map ZyxelServiceParams.key).Nodup

/-- The range of the counter follows from the size of the array. -/
theorem consistent_iff_activeKeys {p : ZyxelProperties} :
    p.Consistent ↔ p.srvCounter.toInt = (activeKeys p.createdServices).length ∧
      (activeKeys p.createdServices).Nodup := by
  have hlen := length_activeKeys_le p.createdServices
  rw [p.length_eq] at hlen
  constructor
  · intro h
    refine ⟨?_, h.distinct⟩
    rw [activeKeys, List.length_map]
    exact h.counter
  · rintro ⟨hcounter, hdistinct⟩
    refine ⟨?_, by omega, hdistinct⟩
    rw [hcounter, activeKeys, List.length_map]

/-- It depends on the keys and the counter. -/
theorem Consistent.congr {p p' : ZyxelProperties} (h : p.Consistent)
    (hkeys : activeKeys p'.createdServices = activeKeys p.createdServices)
    (hcounter : p'.srvCounter = p.srvCounter) : p'.Consistent := by
  rw [consistent_iff_activeKeys] at h ⊢
  rwa [hkeys, hcounter]

theorem Consistent.init : ZyxelState.init.props.Consistent where
  counter := by decide
  range := by decide
  distinct := by decide

end ZyxelProperties

/-! ### The slots after any calls -/

/-- A slot that is not in use has no address, VLAN or flows, and a slot in use has a VLAN. -/
def ZyxelServiceParams.Regular (s : ZyxelServiceParams) : Prop :=
  (s.active = false → s.wanAddress = 0 ∧ s.vlanTag = 0 ∧ s.flowCounter = 0) ∧
    (s.active = true → s.vlanTag ≠ 0)

namespace ZyxelServiceParams.Regular

theorem cleared (s : ZyxelServiceParams) : s.cleared.Regular :=
  ⟨fun _ => ⟨rfl, rfl, rfl⟩, fun h => by cases h⟩

theorem zero : ZyxelServiceParams.zero.Regular := cleared .zero

variable {s : ZyxelServiceParams}

theorem active_of_vlanTag (h : s.Regular) (hvlan : s.vlanTag ≠ 0) : s.active = true := by
  by_contra hactive
  exact hvlan (h.1 (Bool.eq_false_iff.2 hactive)).2.1

theorem active_of_flows (h : s.Regular) (hflows : 1 < s.flowCounter.toInt) : s.active = true := by
  by_contra hactive
  rw [(h.1 (Bool.eq_false_iff.2 hactive)).2.2] at hflows
  exact absurd hflows (by decide)

/-- One flow more or less for a slot in use. -/
theorem of_active {s' : ZyxelServiceParams} (h : s.Regular) (hactive : s.active = true)
    (hport : s'.inPort = s.inPort) (hvlan : s'.vlanTag = s.vlanTag) : s'.Regular := by
  have hactive' : s'.active = true := by rw [ZyxelServiceParams.active, hport]; exact hactive
  refine ⟨fun hidle => ?_, fun _ => hvlan ▸ h.2 hactive⟩
  rw [hactive'] at hidle
  cases hidle

end ZyxelServiceParams.Regular

namespace InsertedFlow

variable {infl : InsertedFlow} {k : ℕ}

/-- An action that is not skipped comes from a flow with a port and has a VLAN. -/
theorem ne_zero_of_not_skips (h : infl.skips k = false) :
    infl.ofpMatch.inPort ≠ 0 ∧ infl.vlanTag k ≠ 0 := by
  simp only [skips, Bool.or_eq_false_iff, beq_eq_false_iff_ne] at h
  exact ⟨h.1.1.2, h.2⟩

theorem active_newService (h : infl.skips k = false) (slot : ZyxelServiceParams) :
    (infl.newService k slot).active = true :=
  bne_iff_ne.2 (ne_zero_of_not_skips h).1

/-- The slot of a new service is regular. -/
theorem regular_newService (h : infl.skips k = false) (slot : ZyxelServiceParams) :
    (infl.newService k slot).Regular := by
  refine ⟨fun hidle => ?_, fun _ => (ne_zero_of_not_skips h).2⟩
  rw [active_newService h] at hidle
  cases hidle

end InsertedFlow

/-- What holds of the array of services in every state. -/
structure ZyxelProperties.Slotted (p : ZyxelProperties) : Prop extends p.WellFormed where
  /-- Every slot is regular. -/
  regular : ∀ slot ∈ p.createdServices, slot.Regular

namespace ZyxelProperties.Slotted

theorem init : ZyxelState.init.props.Slotted where
  toWellFormed := .init
  regular slot hslot := by
    rw [List.eq_of_mem_replicate hslot]
    exact .zero

variable {s s' : ZyxelState}

/-- A slot that has not been allocated is not in use. -/
theorem fresh_cut {p : ZyxelProperties} (hp : p.Slotted) {pre post : List ZyxelServiceParams}
    {slot : ZyxelServiceParams} (heq : p.createdServices = pre ++ slot :: post)
    (hpre : pre.length = p.serviceAllocatorIndex) :
    slot = .zero ∧ ∀ x ∈ post, x = .zero := by
  have hfresh := hp.fresh
  simp only [heq] at hfresh
  constructor
  · exact hfresh pre.length slot (by omega) (by simp)
  · intro x hx
    obtain ⟨i, hi⟩ := List.mem_iff_getElem?.1 hx
    refine hfresh (pre.length + (i + 1)) x (by omega) ?_
    rw [List.getElem?_append_right (Nat.le_add_right ..), Nat.add_sub_cancel_left]
    exact hi

/-- `output_conf_zyxel` keeps the slots regular. -/
theorem configure (hs : s.props.Slotted) (exitValue : ℕ → ℤ) (infl : InsertedFlow) (k : ℕ) :
    (configureService exitValue infl k s).1.props.Slotted := by
  refine ⟨hs.toWellFormed.configure exitValue infl k, ?_⟩
  have houtcome := configureService_outcome exitValue infl k s
  generalize (configureService exitValue infl k s).1 = s' at houtcome ⊢
  generalize (configureService exitValue infl k s).2 = ret at houtcome
  have hregular := hs.regular
  cases houtcome with
  | skipped => exact hregular
  | @counted _ _ slot _ hskip _ heq _ hserves hservices =>
    simp only [heq, List.forall_mem_append, List.forall_mem_cons] at hregular
    obtain ⟨hpre, hslot, hpost⟩ := hregular
    -- the slot is in use, since it has the VLAN of the action
    have hvlan : slot.vlanTag ≠ 0 := by
      rw [(vlanTag_eq_of_serves hserves).2]
      exact (InsertedFlow.ne_zero_of_not_skips hskip).2
    have hup : slot.countUp.Regular :=
      hslot.of_active (hslot.active_of_vlanTag hvlan) rfl rfl
    rw [hservices]
    simp only [List.forall_mem_append, List.forall_mem_cons]
    exact ⟨hpre, hup, hpost⟩
  | failed => exact hregular
  | added hskip _ heq _ _ _ hservices =>
    simp only [heq, List.forall_mem_append, List.forall_mem_cons] at hregular
    rw [hservices]
    simp only [List.forall_mem_append, List.forall_mem_cons]
    exact ⟨hregular.1, InsertedFlow.regular_newService hskip _, hregular.2.2⟩

/-- `output_unconf_zyxel` keeps the slots regular. -/
theorem unconfigure (hs : s.props.Slotted) (wan : BitVec 32) :
    (unconfigureService wan s).props.Slotted := by
  refine ⟨hs.toWellFormed.unconfigure wan, ?_⟩
  have houtcome := unconfigureService_outcome wan s
  generalize unconfigureService wan s = s' at houtcome ⊢
  have hregular := hs.regular
  cases houtcome with
  | notFound => exact hregular
  | @counted _ _ slot _ heq _ _ hmore hservices =>
    simp only [heq, List.forall_mem_append, List.forall_mem_cons] at hregular
    obtain ⟨hpre, hslot, hpost⟩ := hregular
    have hdown : slot.countDown.Regular := hslot.of_active (hslot.active_of_flows hmore) rfl rfl
    rw [hservices]
    simp only [List.forall_mem_append, List.forall_mem_cons]
    exact ⟨hpre, hdown, hpost⟩
  | cleared heq _ _ _ hservices =>
    simp only [heq, List.forall_mem_append, List.forall_mem_cons] at hregular
    rw [hservices]
    simp only [List.forall_mem_append, List.forall_mem_cons]
    exact ⟨hregular.1, .cleared _, hregular.2.2⟩

/-- A call keeps the slots regular. -/
theorem exec {exitValue : ℕ → ℤ} {call : ServiceCall} (hs : s.props.Slotted)
    (h : call.exec exitValue s = .ok s') : s'.props.Slotted := by
  cases call with
  | conf infl k =>
    simp only [ServiceCall.exec, outputConfZyxel] at h
    split at h
    · cases h
    · cases h
      exact hs.configure exitValue infl k
  | unconf infl k =>
    simp only [ServiceCall.exec, outputUnconfZyxel, Except.ok.injEq] at h
    subst h
    split
    · exact hs
    · exact hs.unconfigure infl.wanAddress

end ZyxelProperties.Slotted

theorem slotted_of_reachableVia {exitValue : ℕ → ℤ} {ok : ZyxelState → ServiceCall → Prop}
    {s : ZyxelState} (h : ReachableVia (StepOf (ServiceCall.exec exitValue)) ok .init s) :
    s.props.Slotted :=
  h.invariant (fun s => s.props.Slotted) .init fun _ _ _ hs _ hstep => hs.exec hstep

/-! ### The calls that keep the array consistent -/

/-- The call keeps a consistent array consistent: it does not set up a service once more, which
only a VLAN from `2 ^ 15` on lets it do, and it does not take down a slot that is not in use. -/
def ServiceCall.KeepsConsistent (exitValue : ℕ → ℤ) (s : ZyxelState) : ServiceCall → Prop
  | .conf infl k =>
      infl.skips k = true ∨ maxServices ≤ s.props.serviceAllocatorIndex ∨
        exitValue s.commands.length < 0 ∨ (infl.vlanTag k).toNat < 2 ^ 15 ∨
        (infl.wanAddress, infl.vlanTag k) ∉ activeKeys s.props.createdServices
  | .unconf infl _ =>
      infl.isArp = true ∨ ∀ slot,
        s.props.createdServices.find? (ZyxelServiceParams.holds infl.wanAddress) = some slot →
          slot.active = true

/-- An action with a VLAN below `2 ^ 15` keeps the array consistent. -/
theorem keepsConsistent_of_vlanTag_lt {exitValue : ℕ → ℤ} {infl : InsertedFlow} {k : ℕ}
    (h : (infl.vlanTag k).toNat < 2 ^ 15) (s : ZyxelState) :
    (ServiceCall.conf infl k).KeepsConsistent exitValue s :=
  Or.inr (Or.inr (Or.inr (Or.inl h)))

section Steps

variable {exitValue : ℕ → ℤ} {infl : InsertedFlow} {k : ℕ} {s s' : ZyxelState}
  {pre post : List ZyxelServiceParams} {slot : ZyxelServiceParams}

/-- A service that is found has a VLAN below `2 ^ 15`. -/
theorem vlanTag_lt_of_serves {wan : BitVec 32} {vlan : BitVec 16}
    (h : slot.serves wan vlan = true) : vlan.toNat < 2 ^ 15 := by
  simp only [ZyxelServiceParams.serves, Bool.and_eq_true, beq_iff_eq, BitVec.toInt_eq_toNat_cond]
    at h
  have hlt := slot.vlanTag.isLt
  have heq := h.2
  split at heq <;> omega

/-- A service in use is found when its VLAN is below `2 ^ 15`. -/
theorem not_mem_activeKeys_of_none {slots : List ZyxelServiceParams} {wan : BitVec 32}
    {vlan : BitVec 16} (hvlan : vlan.toNat < 2 ^ 15)
    (hnone : ∀ x ∈ slots, x.serves wan vlan = false) : (wan, vlan) ∉ activeKeys slots := by
  intro hmem
  obtain ⟨x, hx, hkey⟩ := List.mem_map.1 hmem
  obtain ⟨rfl, rfl⟩ : x.wanAddress = wan ∧ x.vlanTag = vlan :=
    ⟨congrArg Prod.fst hkey, congrArg Prod.snd hkey⟩
  have hserves := hnone x (List.mem_filter.1 hx).1
  rw [serves_of_eq hvlan] at hserves
  cases hserves

/-- Behind the allocated slots nothing is in use. -/
theorem activeKeys_of_fresh (hs : s.props.Slotted)
    (heq : s.props.createdServices = pre ++ slot :: post)
    (hpre : pre.length = s.props.serviceAllocatorIndex) :
    activeKeys s.props.createdServices = activeKeys pre ∧
      ∀ x : ZyxelServiceParams, x.active = true →
        activeKeys (pre ++ x :: post) = activeKeys pre ++ [x.key] := by
  obtain ⟨rfl, hpost⟩ := hs.fresh_cut heq hpre
  have hidle : activeKeys post = [] := by
    rw [activeKeys, List.map_eq_nil_iff, List.filter_eq_nil_iff]
    intro x hx
    rw [hpost x hx]
    decide
  constructor
  · rw [heq, activeKeys_of_not_active rfl, hidle, List.append_nil]
  · intro x hx
    rw [activeKeys_of_active hx, hidle]

/-- Setting up a service keeps the array consistent if and only if the service is not in use. -/
theorem consistent_added_iff (hs : s.props.Slotted) (hcons : s.props.Consistent)
    (hskip : infl.skips k = false) (heq : s.props.createdServices = pre ++ slot :: post)
    (hpre : pre.length = s.props.serviceAllocatorIndex)
    (hlt : s.props.serviceAllocatorIndex < maxServices)
    (hservices : s'.props.createdServices = pre ++ infl.newService k slot :: post)
    (hcounter : s'.props.srvCounter = s.props.srvCounter + 1) :
    s'.props.Consistent ↔
      (infl.wanAddress, infl.vlanTag k) ∉ activeKeys s.props.createdServices := by
  obtain ⟨hkeys, hnew⟩ := activeKeys_of_fresh hs heq hpre
  obtain ⟨hcount, hnodup⟩ := ZyxelProperties.consistent_iff_activeKeys.1 hcons
  have hkeys' : activeKeys s'.props.createdServices =
      activeKeys pre ++ [(infl.wanAddress, infl.vlanTag k)] := by
    rw [hservices, hnew _ (InsertedFlow.active_newService hskip slot)]
    rfl
  -- there is a slot left, so that the counter does not wrap
  have hsmall : (activeKeys pre).length < maxServices := by
    have hle := length_activeKeys_le pre
    omega
  have hcount' : s'.props.srvCounter.toInt = (activeKeys s'.props.createdServices).length := by
    have hmax : maxServices = 7 := rfl
    rw [hkeys] at hcount
    rw [hcounter, toInt_add_one, if_neg (by omega), hkeys', List.length_append]
    simp only [List.length_singleton]
    omega
  rw [ZyxelProperties.consistent_iff_activeKeys, hkeys', hkeys]
  rw [hkeys'] at hcount'
  rw [hkeys] at hnodup
  constructor
  · rintro ⟨-, hnodup'⟩ hmem
    exact (List.nodup_append.1 hnodup').2.2 _ hmem _ List.mem_cons_self rfl
  · intro hfresh
    refine ⟨hcount', ?_⟩
    rw [← List.concat_eq_append]
    exact hnodup.concat hfresh

/-- Clearing a slot keeps the array consistent if and only if the slot is in use. -/
theorem consistent_cleared_iff (hcons : s.props.Consistent)
    (heq : s.props.createdServices = pre ++ slot :: post)
    (hservices : s'.props.createdServices = pre ++ slot.cleared :: post)
    (hcounter : s'.props.srvCounter = s.props.srvCounter - 1) :
    s'.props.Consistent ↔ slot.active = true := by
  obtain ⟨hcount, hnodup⟩ := ZyxelProperties.consistent_iff_activeKeys.1 hcons
  have hcleared : slot.cleared.active = false := rfl
  have hdown : s'.props.srvCounter.toInt = s.props.srvCounter.toInt - 1 := by
    rw [hcounter]
    exact toInt_sub_one (by omega)
  have hkeys' : activeKeys s'.props.createdServices = activeKeys pre ++ activeKeys post := by
    rw [hservices, activeKeys_of_not_active hcleared]
  rw [ZyxelProperties.consistent_iff_activeKeys, hkeys']
  cases hactive : slot.active with
  | true =>
    rw [heq, activeKeys_of_active hactive] at hcount hnodup
    refine iff_of_true ⟨?_, (List.nodup_middle.1 hnodup).of_cons⟩ rfl
    rw [hdown, hcount]
    simp only [List.length_append, List.length_cons]
    omega
  | false =>
    rw [heq, activeKeys_of_not_active hactive] at hcount
    refine iff_of_false (fun h => ?_) Bool.false_ne_true
    have heq' := h.1
    omega

/-- The calls that keep a consistent array consistent are exactly those that
`ServiceCall.KeepsConsistent` names. -/
theorem consistent_step_iff {call : ServiceCall} (hs : s.props.Slotted)
    (hcons : s.props.Consistent) (h : call.exec exitValue s = .ok s') :
    s'.props.Consistent ↔ call.KeepsConsistent exitValue s := by
  cases call with
  | conf infl k =>
    obtain ⟨ret, houtcome⟩ := ServiceCall.exec_conf h
    simp only [ServiceCall.KeepsConsistent]
    cases houtcome with
    -- ARP is not served, and a full array takes no further flow: nothing changes
    | skipped hskip =>
      obtain hskip | hfull := hskip
      · exact iff_of_true hcons (.inl hskip)
      · exact iff_of_true hcons (.inr (.inl hfull))
    | @counted _ _ slot _ _ _ heq _ hserves hservices hcounter =>
      -- one flow more for a service that is there, so its key stays
      have hkeys : activeKeys s'.props.createdServices = activeKeys s.props.createdServices := by
        rw [hservices, heq]
        exact activeKeys_congr rfl rfl
      exact iff_of_true (hcons.congr hkeys hcounter)
        (.inr (.inr (.inr (.inl (vlanTag_lt_of_serves hserves)))))
    | failed _ _ _ hexit => exact iff_of_true hcons (.inr (.inr (.inl hexit)))
    | added hskip hlt heq hpre hnone hexit hservices hcounter =>
      -- a new service: its VLAN must not be active yet
      rw [consistent_added_iff hs hcons hskip heq hpre hlt hservices hcounter]
      constructor
      · exact fun hfresh => .inr (.inr (.inr (.inr hfresh)))
      · rintro (hskip' | hfull | hneg | hvlan | hfresh)
        · rw [hskip] at hskip'
          cases hskip'
        · exact absurd hlt (Nat.not_lt.2 hfull)
        · exact absurd hneg (Int.not_lt.2 hexit)
        · rw [(activeKeys_of_fresh hs heq hpre).1]
          exact not_mem_activeKeys_of_none hvlan hnone
        · exact hfresh
  | unconf infl k =>
    simp only [ServiceCall.KeepsConsistent]
    obtain ⟨harp, rfl⟩ | ⟨harp, houtcome⟩ := ServiceCall.exec_unconf h
    · exact iff_of_true hcons (.inl harp)
    cases houtcome with
    | notFound hnone =>
      have hfind : s.props.createdServices.find? (ZyxelServiceParams.holds infl.wanAddress) =
          none := List.find?_eq_none.2 fun x hx => Bool.eq_false_iff.1 (hnone x hx)
      refine iff_of_true hcons (.inr fun slot hslot => ?_)
      rw [hfind] at hslot
      cases hslot
    | @counted _ _ slot _ heq hpre hholds hmore hservices hcounter =>
      -- one flow less, and the service has others
      have hkeys : activeKeys s'.props.createdServices = activeKeys s.props.createdServices := by
        rw [hservices, heq]
        exact activeKeys_congr rfl rfl
      have hslot : slot.Regular := hs.regular slot (by simp [heq])
      refine iff_of_true (hcons.congr hkeys hcounter) (.inr fun x hx => ?_)
      rw [heq, find?_append_cons hpre hholds] at hx
      exact Option.some.inj hx ▸ hslot.active_of_flows hmore
    | cleared heq hpre hholds _ hservices hcounter =>
      rw [consistent_cleared_iff hcons heq hservices hcounter, heq,
        find?_append_cons hpre hholds]
      simp [harp]

end Steps

/-- In a run whose calls keep the array consistent it is consistent in every state, and the next
call keeps it so exactly under the same condition. -/
theorem consistent_iff {exitValue : ℕ → ℤ} {s : ZyxelState}
    (h : ReachableVia (StepOf (ServiceCall.exec exitValue))
      (fun s call => call.KeepsConsistent exitValue s) .init s) :
    s.props.Consistent ∧ ∀ (call : ServiceCall) (s' : ZyxelState), call.exec exitValue s = .ok s' →
      (s'.props.Consistent ↔ call.KeepsConsistent exitValue s) := by
  have hcons : s.props.Consistent :=
    h.invariant_of_reached (fun s => s.props.Consistent) .init fun s call s' hreach hs hok hstep =>
      (consistent_step_iff (slotted_of_reachableVia hreach) hs hstep).2 hok
  exact ⟨hcons, fun call s' hstep =>
    consistent_step_iff (slotted_of_reachableVia h) hcons hstep⟩

/-- The record of a flow with a VLAN, an address and one output. -/
def serviceRecord (vlan : BitVec 16) (wanAddress : BitVec 32) : InsertedFlow :=
  (outputFlowMod 0 (wanMatch 1 vlan wanAddress) 2).insertedFlow

/-- The device after calls, when all commands succeed. -/
def deviceAfter (calls : List ServiceCall) : ZyxelState :=
  runTo (ServiceCall.exec fun _ => 0) .init calls

/-- Two flows share a service. -/
theorem consistent_iff_sharing :
    (deviceAfter
      [.conf (serviceRecord 10 1) 0, .conf (serviceRecord 10 1) 0]).props.Consistent := by
  have hstep1 : StepOf (ServiceCall.exec fun _ => 0) .init (.conf (serviceRecord 10 1) 0)
      (deviceAfter [.conf (serviceRecord 10 1) 0]) := by
    unfold StepOf
    decide +kernel
  have hstep2 : StepOf (ServiceCall.exec fun _ => 0) (deviceAfter [.conf (serviceRecord 10 1) 0])
      (.conf (serviceRecord 10 1) 0)
      (deviceAfter [.conf (serviceRecord 10 1) 0, .conf (serviceRecord 10 1) 0]) := by
    unfold StepOf
    decide +kernel
  have hok : ∀ s, (ServiceCall.conf (serviceRecord 10 1) 0).KeepsConsistent (fun _ => 0) s :=
    keepsConsistent_of_vlanTag_lt (by decide +kernel)
  generalize deviceAfter [.conf (serviceRecord 10 1) 0, .conf (serviceRecord 10 1) 0] = s2 at *
  generalize deviceAfter [.conf (serviceRecord 10 1) 0] = s1 at *
  exact (consistent_iff (.tail (.tail .refl (hok _) hstep1) (hok _) hstep2)).1

/-- The removal of a flow without addresses takes down a slot that is not in use, and the counter
gets negative; two flows without a VLAN tag get two slots for one service. -/
theorem not_consistent :
    ¬ (∀ s, Reachable (StepOf (ServiceCall.exec fun _ => 0)) .init s →
        s.props.srvCounter.toInt =
          (s.props.createdServices.filter ZyxelServiceParams.active).length) ∧
      ¬ (∀ s, Reachable (StepOf (ServiceCall.exec fun _ => 0)) .init s →
        ((s.props.createdServices.filter ZyxelServiceParams.active).map
          ZyxelServiceParams.key).Nodup) := by
  constructor
  · intro hall
    have hr : Reachable (StepOf (ServiceCall.exec fun _ => 0)) .init
        (deviceAfter [.unconf (serviceRecord 10 0) 0]) := reachable_runTo (by decide +kernel)
    exact absurd (hall _ hr) (by decide +kernel)
  · intro hall
    have hr : Reachable (StepOf (ServiceCall.exec fun _ => 0)) .init
        (deviceAfter [.conf (serviceRecord 0xffff 1) 0, .conf (serviceRecord 0xffff 1) 0]) :=
      reachable_runTo (by decide +kernel)
    exact absurd (hall _ hr) (by decide +kernel)

end OfAgent
