import OfAgent.Agent.Slots

/-!
# What an unconfiguration touches

`output_unconf_zyxel` is called for an action of a flow that `output_conf_zyxel` has configured
before, and is meant to touch the service of that flow's address and VLAN only. It looks the service
up by the address alone.

* `ZyxelState.TouchesOnly`: every slot of another service stays as it is, and the commands take
  down nothing but the VLAN of the service.
* `touchesOnly_iff`: an unconfiguration of an action that has been configured before touches only
  its own service exactly when the first slot with the address of the flow, if there is one, has
  the VLAN that was used then.
-/

namespace OfAgent

open FirstMatch Transition

/-- From `s` to `s'` only the service `svc` has been touched: the slots of other services are what
they were, and the commands take down the VLAN of the service. -/
structure ZyxelState.TouchesOnly (svc : BitVec 32 × BitVec 16) (s s' : ZyxelState) : Prop where
  /-- The slots of other services. -/
  others : ∀ (i : ℕ) (slot : ZyxelServiceParams), s.props.createdServices[i]? = some slot →
    slot.key ≠ svc → s'.props.createdServices[i]? = some slot
  /-- The commands. -/
  commands : ∃ issued, s'.commands = s.commands ++ issued ∧ ∀ c ∈ issued,
    ∃ wanMask vlanPcp, c = .delwan svc.1 wanMask svc.2 vlanPcp

section Outcome

variable {wan : BitVec 32} {vlan : BitVec 16} {s s' : ZyxelState}
  {pre post : List ZyxelServiceParams} {slot slot' : ZyxelServiceParams}

theorem key_of_holds (h : slot.holds wan = true) : slot.key = (wan, slot.vlanTag) := by
  simp only [ZyxelServiceParams.holds, Bool.and_eq_true, beq_iff_eq] at h
  rw [ZyxelServiceParams.key, h.1]

theorem countDown_ne (slot : ZyxelServiceParams) : slot.countDown ≠ slot := by
  intro h
  have hflows : slot.flowCounter - 1 = slot.flowCounter := congrArg (·.flowCounter) h
  bv_omega

/-- A change of one slot leaves the slots of the other services alone when the slot is one of the
service. -/
theorem others_of_key (heq : s.props.createdServices = pre ++ slot :: post)
    (hservices : s'.props.createdServices = pre ++ slot' :: post) (hkey : slot.key = (wan, vlan))
    {i : ℕ} {x : ZyxelServiceParams} (hx : s.props.createdServices[i]? = some x)
    (hne : x.key ≠ (wan, vlan)) : s'.props.createdServices[i]? = some x := by
  rw [heq] at hx
  rw [hservices]
  by_cases hi : i = pre.length
  · subst hi
    rw [getElem?_middle] at hx
    exact absurd (Option.some.inj hx ▸ hkey) hne
  · rw [getElem?_append_cons_of_ne hi]
    rwa [getElem?_append_cons_of_ne (y := slot') hi] at hx

/-- A call of `output_unconf_zyxel` touches only the service of an address and a VLAN exactly
when the first slot with the address has the VLAN. -/
theorem UnconfigureOutcome.touchesOnly_iff_outcome (h : UnconfigureOutcome wan s s') :
    s.TouchesOnly (wan, vlan) s' ↔ ∀ slot,
      s.props.createdServices.find? (ZyxelServiceParams.holds wan) = some slot →
        slot.vlanTag = vlan := by
  cases h with
  | notFound hnone =>
    have hfind : s.props.createdServices.find? (ZyxelServiceParams.holds wan) = none :=
      List.find?_eq_none.2 fun x hx => Bool.eq_false_iff.1 (hnone x hx)
    rw [hfind]
    refine iff_of_true ⟨fun _ _ hx _ => hx, [], (List.append_nil _).symm, ?_⟩ ?_
    · intro c hc
      cases hc
    · intro x hx
      cases hx
  | @counted _ pre slot post heq hpre hholds _ hservices _ _ hcommands =>
    rw [heq, find?_append_cons hpre hholds]
    have hkey := key_of_holds hholds
    constructor
    · rintro ⟨hothers, -⟩ x hx
      rw [← Option.some.inj hx]
      by_contra hne
      -- the slot of another service has lost a flow
      have hother : slot.key ≠ (wan, vlan) := by
        rw [hkey]
        exact fun he => hne (congrArg Prod.snd he)
      have hsame := hothers _ slot (heq ▸ getElem?_middle pre slot post) hother
      rw [hservices, getElem?_middle, Option.some.injEq] at hsame
      exact countDown_ne slot hsame
    · intro hvlan
      have hkey' : slot.key = (wan, vlan) := by rw [hkey, hvlan slot rfl]
      refine ⟨fun i x hx hne => others_of_key heq hservices hkey' hx hne, [], ?_, ?_⟩
      · rw [hcommands, List.append_nil]
      · intro c hc
        cases hc
  | @cleared _ _ slot _ heq hpre hholds _ hservices _ _ hcommands =>
    rw [heq, find?_append_cons hpre hholds]
    have hkey := key_of_holds hholds
    constructor
    · rintro ⟨-, issued, happend, hissued⟩ x hx
      rw [← Option.some.inj hx]
      -- the command names the VLAN of the slot
      rw [hcommands, List.append_cancel_left_eq] at happend
      obtain ⟨wanMask, vlanPcp, hc⟩ := hissued _ (happend ▸ List.mem_singleton_self _)
      simp only [DeviceCommand.delwan.injEq] at hc
      exact hc.2.2.1
    · intro hvlan
      have hvlan' := hvlan slot rfl
      refine ⟨fun i x hx hne => others_of_key heq hservices (by rw [hkey, hvlan']) hx hne,
        _, hcommands, fun c hc => ?_⟩
      rw [List.mem_singleton] at hc
      exact ⟨0, slot.vlanPcp, by rw [hc, hvlan']⟩

end Outcome

/-- An action that `output_conf_zyxel` has accepted is none of a flow about ARP. -/
theorem isArp_of_configured {exitValue : ℕ → ℤ} {infl : InsertedFlow} {k : ℕ} {s s' : ZyxelState}
    (h : outputConfZyxel exitValue infl k s = .ok (s', 0)) : infl.isArp = false := by
  have houtcome := configureService_outcome exitValue infl k s
  rw [outputConfZyxel] at h
  split at h
  · cases h
  rw [Except.ok.inj h] at houtcome
  have hskip : infl.skips k = false := by
    cases houtcome with
    | counted hskip => exact hskip
    | added hskip => exact hskip
  simp only [InsertedFlow.skips, Bool.or_eq_false_iff] at hskip
  exact hskip.1.1.1

/-- Of an action that has been configured in some state, an unconfiguration in any state touches
only the service that was used then exactly when the first slot with the address of the flow, if
there is one, has the VLAN of that service. -/
theorem touchesOnly_iff {exitValue : ℕ → ℤ} {infl : InsertedFlow} {k : ℕ}
    {s₀ s₁ s s' : ZyxelState} (hconf : outputConfZyxel exitValue infl k s₀ = .ok (s₁, 0))
    (hunconf : outputUnconfZyxel infl k s = .ok s') :
    s.TouchesOnly (infl.wanAddress, infl.vlanTag k) s' ↔ ∀ slot,
      s.props.createdServices.find? (ZyxelServiceParams.holds infl.wanAddress) = some slot →
        slot.vlanTag = infl.vlanTag k := by
  have hstep : (ServiceCall.unconf infl k).exec exitValue s = .ok s' := hunconf
  obtain ⟨harp, -⟩ | ⟨-, houtcome⟩ := ServiceCall.exec_unconf hstep
  · rw [isArp_of_configured hconf] at harp
    cases harp
  · exact houtcome.touchesOnly_iff_outcome

/-- Two services with different addresses: each removal touches its own. -/
theorem touchesOnly_iff_addresses :
    let s := deviceAfter [.conf (serviceRecord 10 1) 0, .conf (serviceRecord 20 2) 0]
    s.TouchesOnly (2, 20) (unconfigureService 2 s) := by
  have hconf : outputConfZyxel (fun _ => 0) (serviceRecord 20 2) 0
      (deviceAfter [.conf (serviceRecord 10 1) 0]) =
        .ok (deviceAfter [.conf (serviceRecord 10 1) 0, .conf (serviceRecord 20 2) 0], 0) := by
    decide +kernel
  have hunconf : outputUnconfZyxel (serviceRecord 20 2) 0
      (deviceAfter [.conf (serviceRecord 10 1) 0, .conf (serviceRecord 20 2) 0]) =
        .ok (unconfigureService 2
          (deviceAfter [.conf (serviceRecord 10 1) 0, .conf (serviceRecord 20 2) 0])) := by
    decide +kernel
  have hfind : (deviceAfter [.conf (serviceRecord 10 1) 0, .conf (serviceRecord 20 2) 0]
      ).props.createdServices.find? (ZyxelServiceParams.holds 2) = some ⟨1, 2, 0, 20, 0, 1⟩ := by
    decide +kernel
  have hwan : (serviceRecord 20 2).wanAddress = 2 := by decide +kernel
  have hvlan : (serviceRecord 20 2).vlanTag 0 = 20 := by decide +kernel
  have hiff := touchesOnly_iff hconf hunconf
  rw [hwan, hvlan, hfind] at hiff
  refine hiff.2 fun slot hslot => ?_
  rw [← Option.some.inj hslot]

/-- Two services share an address: the removal of the second one takes down the VLAN of the
first. -/
theorem not_touchesOnly : ¬ ∀ (exitValue : ℕ → ℤ) (infl : InsertedFlow) (k : ℕ)
    (s₀ s₁ s s' : ZyxelState), Reachable (StepOf (ServiceCall.exec exitValue)) .init s₀ →
      outputConfZyxel exitValue infl k s₀ = .ok (s₁, 0) →
      Reachable (StepOf (ServiceCall.exec exitValue)) s₁ s →
      outputUnconfZyxel infl k s = .ok s' →
        s.TouchesOnly (infl.wanAddress, infl.vlanTag k) s' := by
  intro hall
  have hr : Reachable (StepOf (ServiceCall.exec fun _ => 0)) .init
      (deviceAfter [.conf (serviceRecord 10 1) 0]) := reachable_runTo (by decide +kernel)
  have htouch := hall (fun _ => 0) (serviceRecord 20 1) 0 _
    (deviceAfter [.conf (serviceRecord 10 1) 0, .conf (serviceRecord 20 1) 0]) _
    (unconfigureService 1
      (deviceAfter [.conf (serviceRecord 10 1) 0, .conf (serviceRecord 20 1) 0])) hr
    (by decide +kernel) .refl (by decide +kernel)
  have hother := htouch.others 0 ⟨1, 1, 0, 10, 0, 1⟩ (by decide +kernel) (by decide +kernel)
  exact absurd hother (by decide +kernel)

end OfAgent
