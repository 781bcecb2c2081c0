import OfAgent.Agent.Slots

/-!
# The capacity of the services

`output_conf_zyxel` is meant to set up a service for a flow whose address and VLAN have none, as
long as fewer than `MAX_SERVICES` are in use, and to count the flow for the service when there is
one. Slots are allocated one after the other and never again after they have been cleared, and a
full allocator stops the function before it looks for the service.

* `distinct_of_reachable`: in every state, no two slots in use have the same address and the same
  VLAN below `2 ^ 15`.
* `InsertedFlow.Configured`: what the function is for.
* `InsertedFlow.Fits`: a slot is left, and for a service in use the VLAN is not negative and the
  counter not at its end; `configured_iff`.
-/

namespace OfAgent

open FirstMatch Transition

/-! ### Services in use are distinct -/

/-- The VLAN of the service is not negative in a slot, so that the search can find it. -/
def searchable (svc : BitVec 32 × BitVec 16) : Bool := svc.2.toNat < 2 ^ 15

/-- The services in use that the search can find. -/
def searchableKeys (slots : List ZyxelServiceParams) : List (BitVec 32 × BitVec 16) :=
  (activeKeys slots).filter searchable

section Distinct

variable {exitValue : ℕ → ℤ} {s s' : ZyxelState}

/-- A call keeps the services in use with VLANs below `2 ^ 15` distinct. -/
theorem distinct_step {call : ServiceCall} (hs : s.props.Slotted)
    (hnodup : (searchableKeys s.props.createdServices).Nodup)
    (h : call.exec exitValue s = .ok s') : (searchableKeys s'.props.createdServices).Nodup := by
  cases call with
  | conf infl k =>
    obtain ⟨ret, houtcome⟩ := ServiceCall.exec_conf h
    cases houtcome with
    | skipped => exact hnodup
    | counted _ _ heq _ _ hservices =>
      have hkeys : activeKeys s'.props.createdServices = activeKeys s.props.createdServices := by
        rw [hservices, heq]
        exact activeKeys_congr rfl rfl
      rw [searchableKeys, hkeys]
      exact hnodup
    | failed => exact hnodup
    | @added _ pre slot post hskip hlt heq hpre hnone _ hservices =>
      obtain ⟨hkeys, hnew⟩ := activeKeys_of_fresh hs heq hpre
      rw [searchableKeys, hkeys] at hnodup
      rw [searchableKeys, hservices, hnew _ (InsertedFlow.active_newService hskip slot),
        List.filter_append]
      cases hvlan : searchable (infl.newService k slot).key with
      | true =>
        -- the search has found no slot with the VLAN
        have hfresh := not_mem_activeKeys_of_none (of_decide_eq_true hvlan) hnone
        refine List.nodup_append.2 ⟨hnodup, ?_, ?_⟩
        · exact (List.nodup_singleton _).filter _
        · intro a ha b hb hab
          have hb' := List.mem_singleton.1 (List.mem_of_mem_filter hb)
          rw [hab, hb'] at ha
          exact hfresh (List.mem_of_mem_filter ha)
      | false =>
        rw [List.filter_cons_of_neg (Bool.eq_false_iff.1 hvlan), List.filter_nil, List.append_nil]
        exact hnodup
  | unconf infl k =>
    obtain ⟨-, rfl⟩ | ⟨-, houtcome⟩ := ServiceCall.exec_unconf h
    · exact hnodup
    cases houtcome with
    | notFound => exact hnodup
    | counted heq _ _ _ hservices =>
      have hkeys : activeKeys s'.props.createdServices = activeKeys s.props.createdServices := by
        rw [hservices, heq]
        exact activeKeys_congr rfl rfl
      rw [searchableKeys, hkeys]
      exact hnodup
    | @cleared _ pre slot post heq _ _ _ hservices =>
      -- a service in use has gone, or none has
      have hcleared : slot.cleared.active = false := rfl
      have hsub : (activeKeys (pre ++ slot.cleared :: post)).Sublist
          (activeKeys (pre ++ slot :: post)) := by
        rw [activeKeys_of_not_active hcleared]
        cases hactive : slot.active with
        | true =>
          rw [activeKeys_of_active hactive]
          exact (List.Sublist.refl _).append (List.sublist_cons_self _ _)
        | false =>
          rw [activeKeys_of_not_active hactive]
      rw [searchableKeys, heq] at hnodup
      rw [searchableKeys, hservices]
      exact hnodup.sublist (hsub.filter _)

/-- In every state the services in use with VLANs below `2 ^ 15` are distinct. -/
theorem distinct_of_reachable
    (h : Reachable (StepOf (ServiceCall.exec exitValue)) .init s) :
    (searchableKeys s.props.createdServices).Nodup :=
  h.invariant_of_reached (fun s => (searchableKeys s.props.createdServices).Nodup)
    (by decide) fun _ _ _ hreach hnodup _ hstep =>
      distinct_step (slotted_of_reachableVia hreach) hnodup hstep

end Distinct

/-- Of distinct services, a slot in use is the only one with its address and VLAN. -/
theorem eq_of_key {pre post : List ZyxelServiceParams} {slot x : ZyxelServiceParams}
    (hnodup : (searchableKeys (pre ++ slot :: post)).Nodup) (hactive : slot.active = true)
    (hvlan : slot.vlanTag.toNat < 2 ^ 15) (hx : x ∈ pre ++ slot :: post)
    (hxactive : x.active = true) (hkey : x.key = slot.key) : x = slot := by
  have hsearch : searchable slot.key = true := decide_eq_true hvlan
  rw [searchableKeys, activeKeys_of_active hactive, List.filter_append,
    List.filter_cons_of_pos hsearch, List.nodup_middle] at hnodup
  have hnot := (List.nodup_cons.1 hnodup).1
  rw [← List.filter_append] at hnot
  have hmem : ∀ {l : List ZyxelServiceParams}, x ∈ l → slot.key ∈ activeKeys l := by
    intro l hl
    rw [← hkey]
    exact List.mem_map.2 ⟨x, List.mem_filter.2 ⟨hl, hxactive⟩, rfl⟩
  obtain hpre | hpost := List.mem_append.1 hx
  · exact absurd (List.mem_filter.2 ⟨List.mem_append_left _ (hmem hpre), hsearch⟩) hnot
  · obtain rfl | hpost := List.mem_cons.1 hpost
    · rfl
    · exact absurd (List.mem_filter.2 ⟨List.mem_append_right _ (hmem hpost), hsearch⟩) hnot

/-! ### What the function is for -/

namespace InsertedFlow

variable (infl : InsertedFlow) (k : ℕ)

/-- The service of an action. -/
def service : BitVec 32 × BitVec 16 := (infl.wanAddress, infl.vlanTag k)

/-- What `output_conf_zyxel` is for, when it does not skip the action. -/
structure Configured (s s' : ZyxelState) : Prop where
  /-- A service is set up unless it is in use or there are as many as the array has slots. -/
  created : infl.service k ∉ activeKeys s.props.createdServices →
    (activeKeys s.props.createdServices).length < maxServices →
      infl.service k ∈ activeKeys s'.props.createdServices
  /-- The flow is counted for a service that is in use. -/
  counted : infl.service k ∈ activeKeys s.props.createdServices →
    ∃ (i : ℕ) (slot : ZyxelServiceParams) (flows : BitVec 16),
      s.props.createdServices[i]? = some slot ∧ slot.active = true ∧ slot.key = infl.service k ∧
        s'.props.createdServices =
          s.props.createdServices.set i { slot with flowCounter := flows } ∧
        flows.toInt = slot.flowCounter.toInt + 1

/-- The condition under which it does what it is for. -/
def Fits (exitValue : ℕ → ℤ) (s : ZyxelState) : Prop :=
  (infl.service k ∈ activeKeys s.props.createdServices →
      s.props.serviceAllocatorIndex < maxServices ∧ (infl.vlanTag k).toNat < 2 ^ 15 ∧
        ∀ slot ∈ s.props.createdServices, slot.active = true → slot.key = infl.service k →
          slot.flowCounter.toInt < 2 ^ 15 - 1) ∧
    (infl.service k ∉ activeKeys s.props.createdServices →
      (activeKeys s.props.createdServices).length < maxServices →
        s.props.serviceAllocatorIndex < maxServices ∧ 0 ≤ exitValue s.commands.length)

variable {infl k} {exitValue : ℕ → ℤ} {s s' : ZyxelState} {pre post : List ZyxelServiceParams}
  {slot : ZyxelServiceParams}

/-- Counting a flow changes a slot that is in use for the service. -/
theorem Configured.changed (h : infl.Configured k s s')
    (hmem : infl.service k ∈ activeKeys s.props.createdServices) :
    ∃ (i : ℕ) (slot : ZyxelServiceParams), s.props.createdServices[i]? = some slot ∧
      slot.active = true ∧ s'.props.createdServices[i]? ≠ some slot := by
  obtain ⟨i, slot, flows, hslot, hactive, -, hset, hflows⟩ := h.counted hmem
  refine ⟨i, slot, hslot, hactive, fun hsame => ?_⟩
  have hlt := (List.getElem?_eq_some_iff.1 hslot).1
  rw [hset, List.getElem?_set_self hlt, Option.some.injEq] at hsame
  have heq : flows = slot.flowCounter := congrArg (·.flowCounter) hsame
  rw [heq] at hflows
  omega

/-- A call that leaves the slots as they are does what it is for when there is nothing to do. -/
theorem configured_same_iff (hsame : s'.props.createdServices = s.props.createdServices) :
    infl.Configured k s s' ↔ infl.service k ∉ activeKeys s.props.createdServices ∧
      ¬ (activeKeys s.props.createdServices).length < maxServices := by
  constructor
  · intro h
    have hnot : infl.service k ∉ activeKeys s.props.createdServices := by
      intro hmem
      obtain ⟨i, slot, hslot, -, hne⟩ := h.changed hmem
      exact hne (hsame ▸ hslot)
    exact ⟨hnot, fun hlt => hnot (hsame ▸ h.created hnot hlt)⟩
  · rintro ⟨hnot, hfull⟩
    exact ⟨fun _ hlt => absurd hlt hfull, fun hmem => absurd hmem hnot⟩

/-- Without a slot left the function does what it is for when there is nothing to do. -/
theorem fits_full_iff (hfull : maxServices ≤ s.props.serviceAllocatorIndex) :
    infl.Fits k exitValue s ↔ infl.service k ∉ activeKeys s.props.createdServices ∧
      ¬ (activeKeys s.props.createdServices).length < maxServices := by
  have hno := Nat.not_lt.2 hfull
  constructor
  · rintro ⟨hold, hnew⟩
    have hnot : infl.service k ∉ activeKeys s.props.createdServices := fun hmem =>
      hno (hold hmem).1
    exact ⟨hnot, fun hlt => hno (hnew hnot hlt).1⟩
  · rintro ⟨hnot, hlt⟩
    exact ⟨fun hmem => absurd hmem hnot, fun _ h => absurd h hlt⟩

/-- The array is cut in front of the slot that the allocator points to. -/
theorem exists_cut (h : s.props.serviceAllocatorIndex < maxServices) :
    ∃ pre slot post, s.props.createdServices = pre ++ slot :: post ∧
      pre.length = s.props.serviceAllocatorIndex ∧ pre = s.props.allocated := by
  have hlen : s.props.serviceAllocatorIndex < s.props.createdServices.length := by
    rw [s.props.length_eq]
    exact h
  refine ⟨s.props.allocated, s.props.createdServices[s.props.serviceAllocatorIndex],
    s.props.createdServices.drop (s.props.serviceAllocatorIndex + 1), ?_,
    List.length_take_of_le (Nat.le_of_lt hlen), rfl⟩
  rw [← List.drop_eq_getElem_cons hlen, ZyxelProperties.allocated, List.take_append_drop]

/-- When no allocated slot is found for an action, a service in use has a negative VLAN. -/
theorem not_lt_of_none (hs : s.props.Slotted) (h : s.props.serviceAllocatorIndex < maxServices)
    (hnone : ∀ x ∈ s.props.allocated, x.serves infl.wanAddress (infl.vlanTag k) = false)
    (hmem : infl.service k ∈ activeKeys s.props.createdServices) :
    ¬ (infl.vlanTag k).toNat < 2 ^ 15 := by
  obtain ⟨pre, slot, post, heq, hpre, hall⟩ := exists_cut h
  intro hvlan
  rw [(activeKeys_of_fresh hs heq hpre).1, hall] at hmem
  exact not_mem_activeKeys_of_none hvlan hnone hmem

/-- Setting up a service is what the function is for when the service is not in use. -/
theorem configured_added_iff (hs : s.props.Slotted) (hskip : infl.skips k = false)
    (heq : s.props.createdServices = pre ++ slot :: post)
    (hpre : pre.length = s.props.serviceAllocatorIndex)
    (hservices : s'.props.createdServices = pre ++ infl.newService k slot :: post) :
    infl.Configured k s s' ↔ infl.service k ∉ activeKeys s.props.createdServices := by
  constructor
  · intro h hmem
    obtain ⟨i, x, hx, hactive, hne⟩ := h.changed hmem
    rw [heq] at hx
    by_cases hi : i = pre.length
    · -- the slot that is filled was not in use
      rw [hi, getElem?_middle] at hx
      rw [← Option.some.inj hx, (hs.fresh_cut heq hpre).1] at hactive
      exact absurd hactive (by decide)
    · rw [hservices, getElem?_append_cons_of_ne (y := slot) hi] at hne
      exact hne hx
  · intro hnot
    refine ⟨fun _ _ => ?_, fun hmem => absurd hmem hnot⟩
    rw [hservices, (activeKeys_of_fresh hs heq hpre).2 _ (active_newService hskip slot)]
    exact List.mem_append_right _ (List.mem_singleton_self _)

/-- Counting a flow for a slot in use is what the function is for when the counter is not at its
end. -/
theorem configured_counted_iff (heq : s.props.createdServices = pre ++ slot :: post)
    (hactive : slot.active = true) (hkey : slot.key = infl.service k)
    (hservices : s'.props.createdServices = pre ++ slot.countUp :: post) :
    infl.Configured k s s' ↔ slot.flowCounter.toInt < 2 ^ 15 - 1 := by
  have hmem : infl.service k ∈ activeKeys s.props.createdServices := by
    rw [heq, activeKeys_of_active hactive, hkey]
    exact List.mem_append_right _ List.mem_cons_self
  have hle := slot.flowCounter.toInt_lt
  have hup : slot.countUp.flowCounter = slot.flowCounter + 1 := rfl
  constructor
  · intro h
    obtain ⟨i, x, flows, hx, -, -, hset, hflows⟩ := h.counted hmem
    have hi : i = pre.length := by
      by_contra hi
      -- elsewhere nothing has changed
      obtain ⟨j, y, hy, -, hne⟩ := h.changed hmem
      have hj : (s'.props.createdServices)[i]? = some { x with flowCounter := flows } := by
        rw [hset, List.getElem?_set_self (List.getElem?_eq_some_iff.1 hx).1]
      rw [hservices, getElem?_append_cons_of_ne (y := slot) hi, ← heq, hx,
        Option.some.injEq] at hj
      have hsame : x.flowCounter = flows := congrArg (·.flowCounter) hj
      rw [hsame] at hflows
      omega
    subst hi
    rw [heq, getElem?_middle, Option.some.injEq] at hx
    subst hx
    rw [hservices, heq] at hset
    have hslot := congrArg (·[pre.length]?) hset
    simp only [getElem?_middle] at hslot
    rw [List.getElem?_set_self (by simp), Option.some.injEq] at hslot
    have hsame : slot.flowCounter + 1 = flows := congrArg (·.flowCounter) hslot
    rw [← hsame, toInt_add_one] at hflows
    split at hflows <;> omega
  · intro hlt
    refine ⟨fun hnot => absurd hmem hnot, fun _ => ?_⟩
    refine ⟨pre.length, slot, slot.flowCounter + 1, ?_, hactive, hkey, ?_, ?_⟩
    · rw [heq, getElem?_middle]
    · rw [hservices, heq, List.set_append_right _ _ (Nat.le_refl _), Nat.sub_self,
        List.set_cons_zero]
      rfl
    · rw [toInt_add_one, if_neg (by omega)]

end InsertedFlow

/-- In every reachable state and for every action that is not skipped, `output_conf_zyxel` does what
it is for exactly when a slot is left, the command succeeds where one is needed, and for a service
in use the VLAN is below `2 ^ 15` and the counter not at the end of its type. -/
theorem configured_iff {exitValue : ℕ → ℤ} {infl : InsertedFlow} {k : ℕ} {s s' : ZyxelState}
    {ret : ℤ} (h : Reachable (StepOf (ServiceCall.exec exitValue)) .init s)
    (hvalid : infl.skips k = false) (hconf : outputConfZyxel exitValue infl k s = .ok (s', ret)) :
    infl.Configured k s s' ↔ infl.Fits k exitValue s := by
  have hs := slotted_of_reachableVia h
  have houtcome := configureService_outcome exitValue infl k s
  rw [outputConfZyxel] at hconf
  split at hconf
  · cases hconf
  rw [Except.ok.inj hconf] at houtcome
  cases houtcome with
  | skipped hskip =>
    have hfull := hskip.resolve_left (by rw [hvalid]; exact Bool.false_ne_true)
    rw [InsertedFlow.configured_same_iff rfl, InsertedFlow.fits_full_iff hfull]
  | @counted _ pre slot post _ hlt heq _ hserves hservices =>
    obtain ⟨hwan, hvlan⟩ := vlanTag_eq_of_serves hserves
    have hkey : slot.key = infl.service k := by
      rw [ZyxelServiceParams.key, hwan, hvlan, InsertedFlow.service]
    have hslot : slot.Regular := hs.regular slot (by simp [heq])
    have hactive : slot.active = true := hslot.active_of_vlanTag (by
      rw [hvlan]
      exact (InsertedFlow.ne_zero_of_not_skips hvalid).2)
    have hsmall := vlanTag_lt_of_serves hserves
    have hmem : infl.service k ∈ activeKeys s.props.createdServices := by
      rw [heq, activeKeys_of_active hactive, hkey]
      exact List.mem_append_right _ List.mem_cons_self
    rw [InsertedFlow.configured_counted_iff heq hactive hkey hservices]
    constructor
    · intro hcount
      refine ⟨fun _ => ⟨hlt, hsmall, fun x hx hxactive hxkey => ?_⟩,
        fun hnot => absurd hmem hnot⟩
      -- the slot that is found is the only one of the service
      have hnodup := distinct_of_reachable h
      rw [heq] at hnodup hx
      rw [eq_of_key hnodup hactive (hvlan ▸ hsmall) hx hxactive (hxkey.trans hkey.symm)]
      exact hcount
    · intro hfits
      exact (hfits.1 hmem).2.2 slot (by simp [heq]) hactive hkey
  | failed _ hlt hnone hexit =>
    refine Iff.trans (InsertedFlow.configured_same_iff rfl) ?_
    constructor
    · rintro ⟨hnot, hfull⟩
      exact ⟨fun hmem => absurd hmem hnot, fun _ h => absurd h hfull⟩
    · rintro ⟨hold, hnew⟩
      have hnot : infl.service k ∉ activeKeys s.props.createdServices := fun hmem =>
        InsertedFlow.not_lt_of_none hs hlt hnone hmem (hold hmem).2.1
      exact ⟨hnot, fun hfull => absurd hexit (Int.not_lt.2 (hnew hnot hfull).2)⟩
  | added _ hlt heq hpre hnone hexit hservices =>
    rw [InsertedFlow.configured_added_iff hs hvalid heq hpre hservices]
    constructor
    · exact fun hnot => ⟨fun hmem => absurd hmem hnot, fun _ _ => ⟨hlt, hexit⟩⟩
    · intro hfits hmem
      rw [(activeKeys_of_fresh hs heq hpre).1] at hmem
      have hmem' := hmem
      rw [← (activeKeys_of_fresh hs heq hpre).1] at hmem'
      exact not_mem_activeKeys_of_none (hfits.1 hmem').2.1 hnone hmem

/-- A service is set up and counted again after another one has been taken down. -/
theorem configured_iff_reused :
    (serviceRecord 10 1).Configured 0
      (deviceAfter [.conf (serviceRecord 20 2) 0, .unconf (serviceRecord 20 2) 0,
        .conf (serviceRecord 10 1) 0])
      (deviceAfter [.conf (serviceRecord 20 2) 0, .unconf (serviceRecord 20 2) 0,
        .conf (serviceRecord 10 1) 0, .conf (serviceRecord 10 1) 0]) := by
  have hr : Reachable (StepOf (ServiceCall.exec fun _ => 0)) .init
      (deviceAfter [.conf (serviceRecord 20 2) 0, .unconf (serviceRecord 20 2) 0,
        .conf (serviceRecord 10 1) 0]) := reachable_runTo (by decide +kernel)
  have hconf : outputConfZyxel (fun _ => 0) (serviceRecord 10 1) 0
      (deviceAfter [.conf (serviceRecord 20 2) 0, .unconf (serviceRecord 20 2) 0,
        .conf (serviceRecord 10 1) 0]) =
      .ok (deviceAfter [.conf (serviceRecord 20 2) 0, .unconf (serviceRecord 20 2) 0,
        .conf (serviceRecord 10 1) 0, .conf (serviceRecord 10 1) 0], 0) := by decide +kernel
  refine (configured_iff hr (by decide +kernel) hconf).2 ⟨fun _ => ?_, fun hnot => ?_⟩
  · exact ⟨by decide +kernel, by decide +kernel, by decide +kernel⟩
  · exact absurd (by decide +kernel) hnot

/-- Seven services that have been set up and taken down again. -/
def usedUp : List ServiceCall :=
  (List.range 7).flatMap fun i =>
    [.conf (serviceRecord 10 (BitVec.ofNat 32 (i + 1))) 0,
      .unconf (serviceRecord 10 (BitVec.ofNat 32 (i + 1))) 0]

/-- Seven services that are in use. -/
def inUse : List ServiceCall :=
  (List.range 7).map fun i => .conf (serviceRecord 10 (BitVec.ofNat 32 (i + 1))) 0

/-- After seven services no slot is left, although none is in use; and with seven services in use no
flow is counted for any of them. -/
theorem not_configured :
    ¬ (∀ (exitValue : ℕ → ℤ) (infl : InsertedFlow) (k : ℕ) (s s' : ZyxelState) (ret : ℤ),
        Reachable (StepOf (ServiceCall.exec exitValue)) .init s → infl.skips k = false →
        outputConfZyxel exitValue infl k s = .ok (s', ret) →
        infl.service k ∉ activeKeys s.props.createdServices →
        (activeKeys s.props.createdServices).length < maxServices →
          infl.service k ∈ activeKeys s'.props.createdServices) ∧
      ¬ (∀ (exitValue : ℕ → ℤ) (infl : InsertedFlow) (k : ℕ) (s s' : ZyxelState) (ret : ℤ),
        Reachable (StepOf (ServiceCall.exec exitValue)) .init s → infl.skips k = false →
        outputConfZyxel exitValue infl k s = .ok (s', ret) →
        infl.service k ∈ activeKeys s.props.createdServices →
          s'.props.createdServices ≠ s.props.createdServices) := by
  constructor
  · intro hall
    have hr : Reachable (StepOf (ServiceCall.exec fun _ => 0)) .init (deviceAfter usedUp) :=
      reachable_runTo (by decide +kernel)
    exact absurd (hall (fun _ => 0) (serviceRecord 10 9) 0 _ (deviceAfter usedUp) (-1) hr
      (by decide +kernel) (by decide +kernel) (by decide +kernel) (by decide +kernel))
      (by decide +kernel)
  · intro hall
    have hr : Reachable (StepOf (ServiceCall.exec fun _ => 0)) .init (deviceAfter inUse) :=
      reachable_runTo (by decide +kernel)
    exact hall (fun _ => 0) (serviceRecord 10 1) 0 _ (deviceAfter inUse) (-1) hr
      (by decide +kernel) (by decide +kernel) (by decide +kernel) rfl

end OfAgent
