import OfAgent.Dhcp.Client
import OfAgent.Lib.Transition

/-!
# Leases

A client that is run once a second gives its address up when the lease ends, whatever timeouts the
server asks for and however often a renewal is forced. There are two exceptions. A short lease with
a T2 below its half, and no T1 below that, gets a T1 of one half: the timeout of `S_RENEWING` is
negative then, and wraps around. And a long deadline overflows an `int` in `do_force_renew`.

* `DhcpMsg.Orderly`, `Dhclient.DeadlineFits`: the exceptions.
* `Dhclient.Within`: the timeouts that are left end with the lease; `Sound.turn`, `Sound.run`: a
  turn of the loop of `dhclient_run` keeps this, and so does the loop.
* `LeaseRun.Kept`: the client is not bound a second after the end of its lease;
  `LeaseRun.lease_kept`: it is not, in every run without the exceptions.
-/

namespace OfAgent

/-! ### The exceptions -/

/-- The T2 of an acknowledgement does not come before half of a short lease, where T1 is then. -/
def DhcpMsg.Orderly (msg : DhcpMsg) : Prop :=
  let lease := (msg.getSecs dhcpCodeLeaseTime 0).getD 0
  let t1 := (msg.getSecs dhcpCodeT1 0).getD 0
  let t2 := (msg.getSecs dhcpCodeT2 0).getD 0
  60 ≤ lease ∨ t2 = 0 ∨ lease / 2 ≤ t2 ∨ 0 < t1 ∧ t1 < t2

instance (msg : DhcpMsg) : Decidable msg.Orderly :=
  inferInstanceAs (Decidable (_ ∨ _ ∨ _ ∨ _ ∧ _))

namespace Dhclient

/-- Three times the deadline of a forced renewal fit an `int`, where they are computed. -/
def DeadlineFits (cli : Dhclient) (now : ℕ) (deadline : ℤ) : Prop :=
  cli.state = .bound ∨ cli.state = .renewing →
    min (cli.leaseLeft now) (toUint deadline) * 3 < 2 ^ 31 ∨
      cli.state = .renewing ∧ cli.leaseLeft now ≤ toUint deadline

/-- The states in which an acknowledgement is waited for. -/
def Awaits (cli : Dhclient) : Prop :=
  cli.state = .rebooting ∨ cli.state = .requesting ∨ cli.state = .renewing ∨
    cli.state = .rebinding

/-- `S_BOUND` is not one of them. -/
theorem Awaits.bound_ne {cli : Dhclient} (h : cli.Awaits) : DhclientState.bound ≠ cli.state := by
  intro hbound
  rcases h with hs | hs | hs | hs <;> rw [hs] at hbound <;> cases hbound

/-- In this turn an acknowledgement is accepted. -/
structure Accepts (cli : Dhclient) (inp : DhclientInput) (msg : DhcpMsg) : Prop where
  /-- It is waited for. -/
  awaits : cli.Awaits
  /-- It is received. -/
  received : cli.ackReceived inp = some msg
  /-- It is not a refusal. -/
  type_ne : msg.type ≠ dhcpNak
  /-- It offers enough. -/
  valid : inp.validateOfferedOptions msg = true

/-- The acknowledgements that are accepted in a loop are orderly. -/
def AcksOrderly (now : ℕ) (cli : Dhclient) : List DhclientInput → Prop
  | [] => True
  | inp :: inps =>
      (∀ msg, cli.Accepts inp msg → msg.Orderly) ∧
        ((cli.turn now inp).state ≠ cli.state → (cli.turn now inp).AcksOrderly now inps)

/-! ### Times -/

theorem uintMax_eq : uintMax = 4294967295 := rfl

theorem satAdd_eq_min {x y : ℕ} (hx : x < 2 ^ 32) (hy : y < 2 ^ 32) :
    satAdd x y = min (x + y) uintMax := by
  rw [satAdd, uintMax_eq]
  split <;> omega

theorem toUint_natCast {n : ℕ} (h : n < 2 ^ 32) : toUint n = n := by
  rw [toUint]
  omega

/-- What `clamp` returns is not more than the bound. -/
theorem clamp_le {x hi : ℕ} : clamp x 0 hi ≤ hi := by
  rw [clamp]
  split
  · omega
  · split <;> omega

/-- T2 comes within the lease, and not before its half. -/
theorem calcT2_le {lease random : ℕ} (h : minAcceptableLease ≤ lease) :
    calcT2 lease random ≤ lease ∧ (lease < 60 → lease / 2 ≤ calcT2 lease random) := by
  rw [calcT2]
  split
  next hlong =>
    have := @clamp_le (fuzz (lease * 7 / 8) 10 random) (lease - 1)
    omega
  next => omega

theorem t2_le {msg : DhcpMsg} {lease random : ℕ} (h : minAcceptableLease ≤ lease) :
    msg.t2 lease random ≤ lease := by
  rw [DhcpMsg.t2]
  split
  · exact (calcT2_le h).1
  · omega

/-- The T1 and T2 that an acknowledgement leads to are in order when it is orderly. -/
theorem t1_le_t2_iff {msg : DhcpMsg} {lease random random' : ℕ}
    (hlease : (msg.getSecs dhcpCodeLeaseTime 0).getD 0 = lease) (h : minAcceptableLease ≤ lease) :
    msg.t1 lease (msg.t2 lease random) random' ≤ msg.t2 lease random ↔ msg.Orderly := by
  have hmin : minAcceptableLease = 15 := rfl
  have ht2 := @calcT2_le lease random h
  rw [DhcpMsg.Orderly, DhcpMsg.t1, DhcpMsg.t2, hlease]
  generalize (msg.getSecs dhcpCodeT1 0).getD 0 = t1
  generalize (msg.getSecs dhcpCodeT2 0).getD 0 = t2
  generalize ht : (if t2 = 0 ∨ lease ≤ t2 then calcT2 lease random else t2) = t
  by_cases ht1 : t1 = 0 ∨ t ≤ t1
  · rw [if_pos ht1, calcT1]
    by_cases hlong : 60 ≤ lease
    · have := @clamp_le (fuzz (lease / 2) 10 random') (t - 1)
      rw [if_pos hlong]
      omega
    · rw [if_neg hlong]
      split at ht <;> omega
  · rw [if_neg ht1]
    split at ht <;> omega

/-- The lease of an acknowledgement that is accepted. -/
theorem Accepts.lease {cli : Dhclient} {inp : DhclientInput} {msg : DhcpMsg}
    (h : cli.Accepts inp msg) :
    minAcceptableLease ≤ (msg.getSecs dhcpCodeLeaseTime 0).getD 0 ∧
      (msg.getSecs dhcpCodeLeaseTime 0).getD 0 < 2 ^ 32 := by
  have hvalid := h.valid
  unfold DhclientInput.validateOfferedOptions at hvalid
  split at hvalid
  next lease _ hlease _ =>
    rw [hlease]
    exact ⟨of_decide_eq_true (Bool.and_eq_true _ _ ▸ hvalid).1, DhcpMsg.lt_of_getSecs hlease⟩
  next => cases hvalid

/-- The timeouts that an acknowledgement leads to are in order and add up to the lease. -/
def InOrder (now : ℕ) (inp : DhclientInput) (msg : DhcpMsg) (cli : Dhclient) : Prop :=
  let lease := (msg.getSecs dhcpCodeLeaseTime 0).getD 0
  let t2 := msg.t2 lease inp.t2Random
  let bound := cli.bind now inp msg
  msg.t1 lease t2 inp.t1Random ≤ t2 ∧ t2 ≤ lease ∧
    bound.boundTimeout + bound.renewingTimeout + bound.rebindingTimeout = lease

variable {now : ℕ} {inp : DhclientInput} {inps : List DhclientInput} {msg : DhcpMsg}
  {cli cli' : Dhclient}

/-- The timeouts behind an orderly acknowledgement. -/
theorem Accepts.timeouts (h : cli.Accepts inp msg) (horderly : msg.Orderly) :
    (cli.bind now inp msg).boundTimeout + (cli.bind now inp msg).renewingTimeout +
      (cli.bind now inp msg).rebindingTimeout = (msg.getSecs dhcpCodeLeaseTime 0).getD 0 := by
  obtain ⟨hmin, hlt⟩ := h.lease
  have ht1 := (@t1_le_t2_iff msg _ inp.t2Random inp.t1Random rfl hmin).2 horderly
  have ht2 := @t2_le msg _ inp.t2Random hmin
  change msg.t1 _ _ _ + toUint _ + toUint _ = _
  rw [← Int.natCast_sub ht1, ← Int.natCast_sub ht2, toUint_natCast (by omega),
    toUint_natCast (by omega)]
  omega

/-- They are in order exactly behind an orderly one. -/
theorem Accepts.inOrder_iff (h : cli.Accepts inp msg) : cli.InOrder now inp msg ↔ msg.Orderly := by
  obtain ⟨hmin, -⟩ := h.lease
  constructor
  · intro hinorder
    exact (t1_le_t2_iff rfl hmin).1 hinorder.1
  · intro horderly
    exact ⟨(t1_le_t2_iff rfl hmin).2 horderly, t2_le hmin, h.timeouts horderly⟩

theorem toUint_lt (z : ℤ) : toUint z < 2 ^ 32 := by
  rw [toUint]
  omega

/-! ### What is left of a lease -/

/-- The timeout of the state. -/
def current (cli : Dhclient) : ℕ :=
  match cli.state with
  | .bound => cli.boundTimeout
  | .renewing => cli.renewingTimeout
  | .rebinding => cli.rebindingTimeout
  | .init | .initReboot | .rebooting | .selecting | .requesting | .released => 0

/-- The timeouts of the states that follow. -/
def later (cli : Dhclient) : ℕ :=
  match cli.state with
  | .bound => cli.renewingTimeout + cli.rebindingTimeout
  | .renewing => cli.rebindingTimeout
  | .init | .initReboot | .rebooting | .selecting | .requesting | .rebinding | .released => 0

/-- At `time` every timeout is over, or the timeouts that are left end with the lease, and the state
is not left before `soon`. -/
def Within (time soon : ℕ) (cli : Dhclient) : Prop :=
  uintMax ≤ time ∨
    (cli.current = 0 ∧ cli.later = 0 ∧ cli.stateEntered ≤ time) ∨
      (min uintMax (cli.stateEntered + cli.current + cli.later) ≤ cli.leaseExpiration ∧
        soon ≤ min uintMax (cli.stateEntered + cli.current))

/-- The times of a client that is bound. -/
structure Sound (time soon : ℕ) (cli : Dhclient) : Prop where
  /-- They fit. -/
  entered_lt : cli.stateEntered < 2 ^ 32
  /-- The timeout of `S_BOUND` does. -/
  bound_lt : cli.boundTimeout < 2 ^ 32
  /-- The timeout of `S_RENEWING` does. -/
  renewing_lt : cli.renewingTimeout < 2 ^ 32
  /-- The timeout of `S_REBINDING` does. -/
  rebinding_lt : cli.rebindingTimeout < 2 ^ 32
  /-- The end of the lease does. -/
  expiration_lt : cli.leaseExpiration < 2 ^ 32
  /-- The timeouts are within the lease. -/
  within : cli.Within time soon

theorem Sound.current_lt {time soon : ℕ} (h : cli.Sound time soon) : cli.current < 2 ^ 32 := by
  rw [current]
  split
  · exact h.bound_lt
  · exact h.renewing_lt
  · exact h.rebinding_lt
  all_goals decide

/-- When the state is left. -/
theorem Sound.timeout_iff {time soon : ℕ} (h : cli.Sound time soon) :
    cli.timeout now cli.current = true ↔ min uintMax (cli.stateEntered + cli.current) ≤ now := by
  rw [timeout, decide_eq_true_iff, satAdd_eq_min h.entered_lt h.current_lt, min_comm]

theorem Sound.mono {time time' soon soon' : ℕ} (h : cli.Sound time soon) (htime : time ≤ time')
    (hsoon : soon' ≤ soon) : cli.Sound time' soon' := by
  refine { h with within := ?_ }
  rcases h.within with hover | ⟨hcurrent, hlater, hentered⟩ | ⟨hlease, hleft⟩
  · exact .inl (hover.trans htime)
  · exact .inr (.inl ⟨hcurrent, hlater, hentered.trans htime⟩)
  · exact .inr (.inr ⟨hlease, hsoon.trans hleft⟩)

/-- A transition to the state whose timeout is next, when the timeout of the state is over. -/
theorem Sound.next {time soon : ℕ} {state : DhclientState} (h : cli.Sound time soon)
    (hsoon : soon = now) (htime : time = now) (hover : cli.timeout now cli.current = true)
    (hlater : (cli.stateTransition now state).current + (cli.stateTransition now state).later =
      cli.later) : (cli.stateTransition now state).Sound now now := by
  subst hsoon htime
  rw [h.timeout_iff] at hover
  refine ⟨Nat.mod_lt _ (by decide), h.bound_lt, h.renewing_lt, h.rebinding_lt, h.expiration_lt, ?_⟩
  have hentered : (cli.stateTransition time state).stateEntered = time % 2 ^ 32 := rfl
  have hleaseExpiration : (cli.stateTransition time state).leaseExpiration =
    cli.leaseExpiration := rfl
  rw [Within, hentered, hleaseExpiration, uintMax_eq]
  rw [uintMax_eq] at hover
  rcases h.within with hmax | ⟨hcurrent, hzero, hle⟩ | ⟨hlease, hleft⟩
  · exact .inl (uintMax_eq ▸ hmax)
  · omega
  · rw [uintMax_eq] at hlease hleft
    omega

/-! ### A turn -/

/-- Sending changes nothing that the lease is about. -/
theorem exists_sendReliably : ∃ delay retransmit,
    cli.sendReliably now inp = { cli with delay, retransmit } := by
  rw [sendReliably]
  split
  · exact ⟨_, _, rfl⟩
  · exact ⟨cli.delay, cli.retransmit, rfl⟩

/-- How a turn that waits for an acknowledgement ends. -/
inductive AckOutcome (now : ℕ) (inp : DhclientInput) (cli : Dhclient) (secs : ℕ)
    (next : DhclientState) : Dhclient → Prop
  | accepted (cli' : Dhclient) {msg : DhcpMsg} (h : cli.Accepts inp msg) :
      AckOutcome now inp cli secs next (cli'.bind now inp msg)
  | refused (cli' : Dhclient) : AckOutcome now inp cli secs next (cli'.stateTransition now .init)
  | expired (delay retransmit : ℕ) (h : cli.timeout now secs = true) :
      AckOutcome now inp cli secs next
        ({ cli with delay, retransmit }.stateTransition now next)
  | waiting (delay retransmit : ℕ) (h : cli.timeout now secs = false) :
      AckOutcome now inp cli secs next { cli with delay, retransmit }

/-- A turn that waits for an acknowledgement ends so. -/
theorem ackOutcome (hawaits : cli.Awaits) (secs : ℕ) (next : DhclientState) :
    AckOutcome now inp cli secs next (cli.awaitAck now inp secs next) := by
  obtain ⟨delay, retransmit, hsend⟩ := @exists_sendReliably now inp cli
  rw [awaitAck, hsend, receiveAck]
  have hreceived : ({ cli with delay, retransmit } : Dhclient).ackReceived inp =
    cli.ackReceived inp := rfl
  -- without an acknowledgement the timeout decides
  have hwaits : AckOutcome now inp cli secs next
      (if !false && ({ cli with delay, retransmit } : Dhclient).timeout now secs then
        { cli with delay, retransmit }.stateTransition now next
      else { cli with delay, retransmit }) := by
    split
    next h => exact .expired delay retransmit h
    next h => exact .waiting delay retransmit (eq_false_of_ne_true h)
  rw [hreceived]
  cases hack : cli.ackReceived inp with
  | none => exact hwaits
  | some msg =>
    dsimp only
    by_cases htype : msg.type = dhcpNak
    · rw [if_pos htype]
      exact .refused { cli with delay, retransmit }
    · rw [if_neg htype]
      by_cases hvalid : inp.validateOfferedOptions msg = true
      · rw [if_pos hvalid]
        exact .accepted { cli with delay, retransmit } ⟨hawaits, hack, htype, hvalid⟩
      · rw [if_neg hvalid]
        exact hwaits

/-- An orderly acknowledgement begins a lease. -/
theorem Accepts.sound (h : cli.Accepts inp msg) (horderly : msg.Orderly) (cli' : Dhclient) :
    (cli'.bind now inp msg).Sound now now := by
  have hsum := @Accepts.timeouts now inp msg cli h horderly
  obtain ⟨-, hlt⟩ := h.lease
  have hbound : (cli'.bind now inp msg).boundTimeout = (cli.bind now inp msg).boundTimeout := rfl
  have hrenewing : (cli'.bind now inp msg).renewingTimeout =
    (cli.bind now inp msg).renewingTimeout := rfl
  have hrebinding : (cli'.bind now inp msg).rebindingTimeout =
    (cli.bind now inp msg).rebindingTimeout := rfl
  have hcurrent : (cli'.bind now inp msg).current = (cli.bind now inp msg).boundTimeout := rfl
  have hlater : (cli'.bind now inp msg).later =
    (cli.bind now inp msg).renewingTimeout + (cli.bind now inp msg).rebindingTimeout := rfl
  have hentered : (cli'.bind now inp msg).stateEntered = now % 2 ^ 32 := rfl
  have hexpiration : (cli'.bind now inp msg).leaseExpiration =
    satAdd (now % 2 ^ 32) ((msg.getSecs dhcpCodeLeaseTime 0).getD 0) := rfl
  rw [satAdd_eq_min (Nat.mod_lt _ (by decide)) hlt, uintMax_eq] at hexpiration
  refine ⟨Nat.mod_lt _ (by decide), by omega, by omega, by omega, by omega, ?_⟩
  rw [Within, hcurrent, hlater, hentered, hexpiration, uintMax_eq]
  omega

/-- An acknowledgement that is accepted binds the address. -/
theorem Accepts.turn (h : cli.Accepts inp msg) :
    cli.turn now inp = (cli.sendReliably now inp).bind now inp msg := by
  obtain ⟨delay, retransmit, hsend⟩ := @exists_sendReliably now inp cli
  have hreceived : ({ cli with delay, retransmit } : Dhclient).ackReceived inp = some msg :=
    h.received
  have hawait : ∀ secs next, cli.awaitAck now inp secs next =
      (cli.sendReliably now inp).bind now inp msg := by
    intro secs next
    rw [awaitAck, hsend, receiveAck, hreceived]
    dsimp only
    rw [if_neg h.type_ne, if_pos h.valid]
    rfl
  rw [Dhclient.turn]
  rcases h.awaits with hs | hs | hs | hs <;> rw [hs] <;> exact hawait _ _

theorem Sound.of_sent {time soon : ℕ} (h : cli.Sound time soon) (delay retransmit : ℕ) :
    ({ cli with delay, retransmit } : Dhclient).Sound time soon :=
  ⟨h.entered_lt, h.bound_lt, h.renewing_lt, h.rebinding_lt, h.expiration_lt, h.within⟩

/-- A client that stays in its state has not timed out. -/
theorem Sound.lt_of_timeout {time soon : ℕ} (h : cli.Sound time soon)
    (hout : cli.timeout now cli.current = false) :
    now < min uintMax (cli.stateEntered + cli.current) := by
  refine Nat.lt_of_not_le fun hle => ?_
  rw [h.timeout_iff.2 hle] at hout
  cases hout

/-- What a turn leads to is sound when it is bound, and a turn that stays has not timed out. -/
def TurnSound (now : ℕ) (cli cli' : Dhclient) : Prop :=
  cli'.isBound = true → cli'.Sound now now ∧
    (cli'.state = cli.state → now < min uintMax (cli'.stateEntered + cli'.current))

theorem turnSound_of_not_isBound (h : cli'.isBound = false) : TurnSound now cli cli' :=
  fun hbound => absurd (h.symm.trans hbound) (by decide)

/-- A turn that waits for an acknowledgement. -/
theorem turnSound_awaitAck (h : cli.isBound = true → cli.Sound now now)
    (hacks : ∀ msg, cli.Accepts inp msg → msg.Orderly) (hawaits : cli.Awaits) {secs : ℕ}
    {next : DhclientState} (hsecs : cli.isBound = true → secs = cli.current)
    (hnext : next.isBound = true → cli.isBound = true ∧ next ≠ cli.state ∧
      (cli.stateTransition now next).current + (cli.stateTransition now next).later = cli.later) :
    TurnSound now cli (cli.awaitAck now inp secs next) := by
  generalize houtcome : cli.awaitAck now inp secs next = cli'
  cases houtcome ▸ ackOutcome hawaits secs next with
  | accepted cli'' haccepts =>
    intro _
    -- the state in which it has been waited for is another one
    exact ⟨haccepts.sound (hacks _ haccepts) cli'', fun hstate => absurd hstate hawaits.bound_ne⟩
  | refused => exact turnSound_of_not_isBound rfl
  | expired delay retransmit hout =>
    intro hbound
    obtain ⟨hcli, hne, hlater⟩ := hnext hbound
    have hout' : ({ cli with delay, retransmit } : Dhclient).timeout now cli.current = true :=
      hsecs hcli ▸ hout
    exact ⟨((h hcli).of_sent delay retransmit).next rfl rfl hout' hlater,
      fun hstate => absurd hstate hne⟩
  | waiting delay retransmit hout =>
    intro hbound
    have hout' : cli.timeout now cli.current = false := hsecs hbound ▸ hout
    exact ⟨(h hbound).of_sent delay retransmit, fun _ => (h hbound).lt_of_timeout hout'⟩

/-- `do_init` binds no address. -/
theorem isBound_doInit {next : DhclientState} (hcli : cli.isBound = false)
    (hnext : next.isBound = false) : (cli.doInit now inp next).isBound = false := by
  rw [doInit]
  split
  · split
    · exact hnext
    · exact hcli
  · split
    · exact hnext
    · exact hcli

/-- Offers bind no address. -/
theorem isBound_receiveOffers (hcli : cli.isBound = false) (msgs : List DhcpMsg) :
    (receiveOffers now inp cli msgs).isBound = false := by
  induction msgs with
  | nil => exact hcli
  | cons msg msgs ih =>
    rw [receiveOffers]
    split
    · split
      · exact ih
      · rfl
    · exact ih

/-- A client that looks for an address stays without one. -/
theorem isBound_runSelecting (hcli : cli.isBound = false) :
    (cli.runSelecting now inp).isBound = false := by
  obtain ⟨delay, retransmit, hsend⟩ := @exists_sendReliably now inp cli
  rw [runSelecting, hsend]
  refine isBound_receiveOffers ?_ _
  split
  · rfl
  · exact hcli

/-- A turn of the loop of `dhclient_run`. -/
theorem Sound.turn (h : cli.isBound = true → cli.Sound now now)
    (hacks : ∀ msg, cli.Accepts inp msg → msg.Orderly) :
    TurnSound now cli (cli.turn now inp) := by
  -- the timeouts depend on the state only
  have hcurrent : ∀ {state}, cli.state = state → cli.current =
      ({ cli with state } : Dhclient).current := fun hstate => hstate ▸ rfl
  have hlater : ∀ {state}, cli.state = state → cli.later =
      ({ cli with state } : Dhclient).later := fun hstate => hstate ▸ rfl
  have hbound : ∀ {state}, cli.state = state → cli.isBound = state.isBound :=
    fun hstate => congrArg DhclientState.isBound hstate
  cases hstate : cli.state with
  | init =>
    rw [Dhclient.turn, hstate]
    exact turnSound_of_not_isBound (isBound_doInit (hbound hstate) rfl)
  | initReboot =>
    rw [Dhclient.turn, hstate]
    exact turnSound_of_not_isBound (isBound_doInit (hbound hstate) rfl)
  | selecting =>
    rw [Dhclient.turn, hstate]
    exact turnSound_of_not_isBound (isBound_runSelecting (hbound hstate))
  | released =>
    rw [Dhclient.turn, hstate]
    exact turnSound_of_not_isBound (hbound hstate)
  | rebooting =>
    rw [Dhclient.turn, hstate]
    exact turnSound_awaitAck h hacks (.inl hstate)
      (fun hb => absurd ((hbound hstate).symm.trans hb) (by decide)) fun hn => by cases hn
  | requesting =>
    rw [Dhclient.turn, hstate]
    exact turnSound_awaitAck h hacks (.inr (.inl hstate))
      (fun hb => absurd ((hbound hstate).symm.trans hb) (by decide)) fun hn => by cases hn
  | bound =>
    rw [Dhclient.turn, hstate]
    dsimp only
    have hsound := h (hbound hstate)
    have hcur : cli.current = cli.boundTimeout := hcurrent hstate
    intro _
    rw [runBound, ← hcur]
    split
    next hout =>
      refine ⟨hsound.next rfl rfl hout (hlater hstate).symm, fun hs => ?_⟩
      have hrenewing : DhclientState.renewing = .bound := hs.trans hstate
      cases hrenewing
    next hout => exact ⟨hsound, fun _ => hsound.lt_of_timeout (eq_false_of_ne_true hout)⟩
  | renewing =>
    rw [Dhclient.turn, hstate]
    refine turnSound_awaitAck h hacks (.inr (.inr (.inl hstate)))
      (fun _ => (hcurrent hstate).symm) fun _ => ⟨hbound hstate, ?_, (hlater hstate).symm⟩
    rw [hstate]
    decide
  | rebinding =>
    rw [Dhclient.turn, hstate]
    exact turnSound_awaitAck h hacks (.inr (.inr (.inr hstate)))
      (fun _ => (hcurrent hstate).symm) fun hn => by cases hn

/-- The lease has not ended when a client has been run and is still bound. -/
theorem Sound.rest (h : cli.Sound now now)
    (hlt : now < min uintMax (cli.stateEntered + cli.current)) :
    now ≤ cli.leaseExpiration ∧ cli.Sound now (now + 1) := by
  rcases h.within with hmax | ⟨hcurrent, -, hentered⟩ | ⟨hlease, -⟩
  · omega
  · omega
  · exact ⟨by omega, { h with within := .inr (.inr ⟨hlease, hlt⟩) }⟩

/-- `dhclient_run`. -/
theorem Sound.run (h : cli.isBound = true → cli.Sound now now)
    (hacks : AcksOrderly now cli inps) (hrun : cli.run now inps = some cli')
    (hbound : cli'.isBound = true) : now ≤ cli'.leaseExpiration ∧ cli'.Sound now (now + 1) := by
  induction inps generalizing cli with
  | nil => cases hrun
  | cons inp inps ih =>
    have hturn := Sound.turn h hacks.1
    rw [Dhclient.run] at hrun
    split at hrun
    next hstate =>
      obtain rfl := Option.some.inj hrun
      obtain ⟨hsound, hlt⟩ := hturn hbound
      exact hsound.rest (hlt hstate)
    next hstate => exact ih (fun hb => (hturn hb).1) (hacks.2 hstate) hrun

/-! ### Forced renewals -/

/-- What is left of the lease, before time runs out of an `unsigned int`. -/
theorem leaseLeft_eq (hnow : now < uintMax) (hexp : cli.leaseExpiration < 2 ^ 32) :
    cli.leaseLeft now = cli.leaseExpiration - now := by
  rw [uintMax_eq] at hnow
  rw [leaseLeft, satSub, Nat.mod_eq_of_lt hexp, Nat.mod_eq_of_lt (by omega : now < 2 ^ 32)]
  split <;> omega

/-- The deadline of a forced renewal, as an `unsigned int`, when it fits. -/
theorem toUint_deadline {left : ℕ} {deadline : ℤ}
    (hfits : min left (toUint deadline) < 2 ^ 31) (hdeadline : -2 ^ 31 ≤ deadline)
    (hdeadline' : deadline < 2 ^ 31) :
    (if left ≤ toUint deadline then Int.bmod left (2 ^ 32) else deadline) =
      (min left (toUint deadline) : ℕ) := by
  split
  next hle =>
    rw [Nat.min_eq_left hle] at hfits ⊢
    rw [Int.bmod_def]
    omega
  next hgt =>
    rw [Nat.min_eq_right (by omega)] at hfits ⊢
    rw [toUint] at hfits ⊢
    omega

/-- The two timeouts of a forced renewal. -/
theorem toUint_quarters {d : ℕ} (h : d * 3 < 2 ^ 31) :
    toUint ((Int.bmod ((d : ℤ) * 3) (2 ^ 32)).tdiv 4) = d * 3 / 4 ∧
      toUint ((d : ℤ).tdiv 4) = d / 4 := by
  have hbmod : Int.bmod ((d : ℤ) * 3) (2 ^ 32) = (d * 3 : ℕ) := by
    rw [Int.bmod_def]
    omega
  have hthree : ((d * 3 : ℕ) : ℤ).tdiv 4 = (d * 3 / 4 : ℕ) := rfl
  have hone : (d : ℤ).tdiv 4 = (d / 4 : ℕ) := rfl
  rw [hbmod, hthree, hone, toUint_natCast (by omega), toUint_natCast (by omega)]
  exact ⟨rfl, rfl⟩

/-- A deadline within what is left of the lease. -/
theorem within_of_deadline {d polled : ℕ} (hd : d ≤ cli.leaseLeft now) (hpolled : polled ≤ now)
    (hexp : cli.leaseExpiration < 2 ^ 32) (hentered : cli'.stateEntered = now % 2 ^ 32)
    (hexpiration : cli'.leaseExpiration = cli.leaseExpiration)
    (hsum : cli'.current + cli'.later ≤ d)
    (hzero : cli'.current = 0 → cli'.later = 0) : cli'.Within now (polled + 1) := by
  rcases Nat.lt_or_ge now uintMax with hnow | hnow
  · rw [leaseLeft_eq hnow hexp] at hd
    rw [Within, hentered, hexpiration]
    rw [uintMax_eq] at hnow ⊢
    rcases Nat.eq_zero_or_pos cli'.current with hcurrent | hcurrent
    · have hlater := hzero hcurrent
      omega
    · omega
  · exact .inl hnow

/-- A renewal is forced within two timeouts. -/
theorem Sound.forceRenewing {time polled renewing rebinding : ℕ} (h : cli.Sound time (polled + 1))
    (hpolled : polled ≤ now) (hrenewing : renewing < 2 ^ 32) (hrebinding : rebinding < 2 ^ 32)
    (hsum : renewing + rebinding ≤ cli.leaseLeft now) (hzero : renewing = 0 → rebinding = 0) :
    ({ cli.stateTransition now .renewing with
      renewingTimeout := renewing, rebindingTimeout := rebinding } : Dhclient).Sound now
        (polled + 1) :=
  ⟨Nat.mod_lt _ (by decide), h.bound_lt, hrenewing, hrebinding, h.expiration_lt,
    within_of_deadline le_rfl hpolled h.expiration_lt rfl rfl hsum hzero⟩

theorem Sound.forceRebinding {time polled rebinding : ℕ} (h : cli.Sound time (polled + 1))
    (hpolled : polled ≤ now) (hrebinding : rebinding < 2 ^ 32)
    (hle : rebinding ≤ cli.leaseLeft now) :
    ({ cli.stateTransition now .rebinding with rebindingTimeout := rebinding } : Dhclient).Sound now
      (polled + 1) :=
  ⟨Nat.mod_lt _ (by decide), h.bound_lt, h.renewing_lt, hrebinding, h.expiration_lt,
    within_of_deadline le_rfl hpolled h.expiration_lt rfl rfl hle fun _ => rfl⟩

/-- `do_force_renew`. -/
theorem Sound.doForceRenew {time polled : ℕ} {deadline : ℤ} (h : cli.Sound time (polled + 1))
    (htime : time ≤ now) (hpolled : polled ≤ now) (hbound : cli.isBound = true)
    (hdeadline : -2 ^ 31 ≤ deadline) (hdeadline' : deadline < 2 ^ 31)
    (hfits : cli.DeadlineFits now deadline) :
    (cli.doForceRenew now deadline).Sound now (polled + 1) := by
  rw [Dhclient.doForceRenew]
  split
  next => exact h.mono htime le_rfl
  next hreturn =>
    dsimp only
    split
    next hstate =>
      have hlt : min (cli.leaseLeft now) (toUint deadline) * 3 < 2 ^ 31 := by
        rcases hfits hstate with hlt | hreturns
        · exact hlt
        · exact absurd ⟨hreturns.2, .inl hreturns.1⟩ hreturn
      rw [toUint_deadline (by omega) hdeadline hdeadline']
      obtain ⟨hthree, hone⟩ := toUint_quarters hlt
      rw [hthree, hone]
      have hle := Nat.min_le_left (cli.leaseLeft now) (toUint deadline)
      exact h.forceRenewing hpolled (by omega) (by omega) (by omega) (by omega)
    next hstate =>
      -- of the states with a lease only this one is left
      have hrebinding : cli.state = .rebinding := by
        have hb : cli.state.isBound = true := hbound
        revert hb hstate
        cases cli.state <;> decide
      have hgt : ¬ cli.leaseLeft now ≤ toUint deadline := fun hle =>
        hreturn ⟨hle, .inr hrebinding⟩
      rw [if_neg hgt]
      exact h.forceRebinding hpolled (toUint_lt deadline) (by omega)

/-- A forced renewal does not change when the lease ends. -/
theorem leaseExpiration_doForceRenew (deadline : ℤ) :
    (cli.doForceRenew now deadline).leaseExpiration = cli.leaseExpiration := by
  rw [Dhclient.doForceRenew]
  split
  · rfl
  · dsimp only
    split <;> rfl

theorem isBound_init (requestedIp : BitVec 32) : (cli.init now requestedIp).isBound = false := by
  change (if requestedIp ≠ 0 then DhclientState.initReboot else .init).isBound = false
  split <;> rfl

/-- A renewal is forced where an address is bound. -/
theorem forceRenew_cases (deadline : ℤ) :
    (cli.isBound = true ∧ cli.forceRenew now deadline = cli.doForceRenew now deadline) ∨
      (cli.forceRenew now deadline).isBound = false := by
  have hbound : ∀ {state}, cli.state = state → cli.isBound = state.isBound :=
    fun hstate => congrArg DhclientState.isBound hstate
  rw [Dhclient.forceRenew]
  cases hstate : cli.state with
  | init | initReboot | rebooting | selecting | requesting => exact .inr (hbound hstate)
  | bound | renewing | rebinding => exact .inl ⟨hbound hstate, rfl⟩
  | released => exact .inr (isBound_init 0)

end Dhclient

/-! ### Runs -/

/-- A client, when something has been done with it last, and when `dhclient_run` has. -/
structure LeaseRun where
  /-- The client. -/
  client : Dhclient
  /-- The time of the last call. -/
  time : ℕ
  /-- The time of the last call of `dhclient_run`. -/
  polled : ℕ

/-- The calls. -/
inductive LeaseEvent
  /-- `dhclient_run`. -/
  | run (now : ℕ) (inps : List DhclientInput)
  /-- `dhclient_force_renew`. -/
  | forceRenew (now : ℕ) (deadline : ℤ)
  /-- `dhclient_init`. -/
  | init (now : ℕ) (requestedIp : BitVec 32)
  /-- `dhclient_release`. -/
  | release (now : ℕ)

namespace LeaseRun

open Dhclient

/-- At this time `dhclient_run` has been called within the last second. -/
def InTime (s : LeaseRun) (now : ℕ) : Prop := s.time ≤ now ∧ now ≤ s.polled + 1

/-- A call. -/
def Step (s : LeaseRun) : LeaseEvent → LeaseRun → Prop
  | .run now inps, s' =>
    s.InTime now ∧ ∃ cli, s.client.run now inps = some cli ∧ s' = ⟨cli, now, now⟩
  | .forceRenew now deadline, s' => s.InTime now ∧ (-2 ^ 31 ≤ deadline ∧ deadline < 2 ^ 31) ∧
      s' = { s with client := s.client.forceRenew now deadline, time := now }
  | .init now requestedIp, s' => s.InTime now ∧
      s' = { s with client := s.client.init now requestedIp, time := now }
  | .release now, s' => s.InTime now ∧
      s' = { s with client := s.client.release now, time := now }

/-- The acknowledgements are orderly, and the deadlines fit. -/
def Fits (s : LeaseRun) : LeaseEvent → Prop
  | .run now inps => s.client.AcksOrderly now inps
  | .forceRenew now deadline => s.client.DeadlineFits now deadline
  | .init _ _ | .release _ => True

/-- The client is not bound later than one second after the end of its lease. -/
def Kept (s : LeaseRun) : Prop :=
  s.client.isBound = true → ∀ now, s.InTime now → now ≤ s.client.leaseExpiration + 1

/-- The lease has not ended when the client has been run, and will not before its timeouts. -/
def Inv (s : LeaseRun) : Prop :=
  s.client.isBound = true → s.polled ≤ s.client.leaseExpiration ∧ s.polled ≤ s.time ∧
    s.client.Sound s.time (s.polled + 1)

variable {s s' : LeaseRun} {e : LeaseEvent}

/-- A call keeps this. -/
theorem Inv.step (h : s.Inv) (hfits : s.Fits e) (hstep : s.Step e s') : s'.Inv := by
  cases e with
  | run now inps =>
    obtain ⟨⟨htime, hpolled⟩, cli, hrun, rfl⟩ := hstep
    intro hbound
    obtain ⟨hle, hsound⟩ := Sound.run (fun hb => (h hb).2.2.mono htime hpolled) hfits hrun hbound
    exact ⟨hle, le_rfl, hsound⟩
  | forceRenew now deadline =>
    obtain ⟨⟨htime, -⟩, ⟨hdeadline, hdeadline'⟩, rfl⟩ := hstep
    intro hbound
    rcases @forceRenew_cases now s.client deadline with ⟨hb, heq⟩ | hfree
    · obtain ⟨hle, hpolled, hsound⟩ := h hb
      dsimp only
      rw [heq, leaseExpiration_doForceRenew]
      exact ⟨hle, hpolled.trans htime,
        hsound.doForceRenew htime (hpolled.trans htime) hb hdeadline hdeadline' hfits⟩
    · exact absurd (hfree.symm.trans hbound) (by decide)
  | init now requestedIp =>
    obtain ⟨-, rfl⟩ := hstep
    intro hbound
    exact absurd ((isBound_init requestedIp).symm.trans hbound) (by decide)
  | release now =>
    obtain ⟨-, rfl⟩ := hstep
    intro hbound
    cases hbound

theorem Inv.kept (h : s.Inv) : s.Kept := by
  intro hbound now hnow
  obtain ⟨hle, -, -⟩ := h hbound
  exact hnow.2.trans (Nat.add_le_add_right hle 1)

/-- The timeouts behind an acknowledgement that is accepted are in order exactly when it is orderly.
In every run that follows on such a one, in which the other acknowledgements are orderly as well and
the deadlines fit, the client is not bound later than one second after the end of its lease. -/
theorem lease_kept {cli cli' : Dhclient} {now : ℕ} {inp : DhclientInput}
    {inps : List DhclientInput} {msg : DhcpMsg} (haccepts : cli.Accepts inp msg) :
    (cli.InOrder now inp msg ↔ msg.Orderly) ∧
      (cli.AcksOrderly now (inp :: inps) → cli.run now (inp :: inps) = some cli' →
        ∀ s, Transition.ReachableVia Step Fits ⟨cli', now, now⟩ s → s.Kept) := by
  refine ⟨haccepts.inOrder_iff, fun hacks hrun s hreach => ?_⟩
  have hsound := @Accepts.sound now inp msg cli haccepts (hacks.1 msg haccepts)
    (cli.sendReliably now inp)
  rw [← haccepts.turn] at hsound
  have hne : (cli.turn now inp).state ≠ cli.state := by
    rw [haccepts.turn]
    exact haccepts.awaits.bound_ne
  rw [Dhclient.run, if_neg hne] at hrun
  have hstart : Inv ⟨cli', now, now⟩ := by
    intro hbound
    obtain ⟨hle, hrest⟩ := Sound.run (fun _ => hsound) (hacks.2 hne) hrun hbound
    exact ⟨hle, le_rfl, hrest⟩
  exact (hreach.invariant Inv hstart fun _ _ _ hs hfits hstep => hs.step hfits hstep).kept

/-! ### A lease of twenty seconds -/

/-- A client that has requested an address. -/
def requestingClient : Dhclient :=
  { Dhclient.create 90 7 with state := .requesting }

/-- An acknowledgement with a lease of twenty seconds, and perhaps a T2 of five. -/
def acknowledgement (early : Bool) : DhcpMsg :=
  ⟨2, 7, 0, 0, 0, 0x0a000001, 0, 0, [], dhcpAck, fun code =>
    if code = dhcpCodeLeaseTime then some [0, 0, 0, 20]
    else if code = dhcpCodeSubnetMask then some [255, 255, 255, 0]
    else if code = dhcpCodeT2 ∧ early then some [0, 0, 0, 5]
    else none⟩

/-- A turn with these messages. -/
def input (messages : List DhcpMsg) : DhclientInput := ⟨messages, fun _ => true, 0, 0, 0⟩

theorem accepts_acknowledgement (early : Bool) :
    requestingClient.Accepts (input [acknowledgement early]) (acknowledgement early) := by
  have htype : dhcpAck ≠ dhcpNak := by decide
  refine ⟨.inr (.inl rfl), List.find?_cons_of_pos ?_, htype, ?_⟩
  · cases early <;> decide +kernel
  · cases early <;> decide +kernel

/-- Without a T2 the lease is kept. -/
theorem lease_kept_twenty : ∃ cli,
    requestingClient.run 100 [input [acknowledgement false], input []] = some cli ∧
      LeaseRun.Kept ⟨cli, 100, 100⟩ := by
  have hacks : requestingClient.AcksOrderly 100 [input [acknowledgement false], input []] := by
    refine ⟨fun msg haccepts => ?_, fun _ => ⟨fun msg haccepts => ?_, fun _ => trivial⟩⟩
    · obtain rfl := Option.some.inj haccepts.received
      exact .inr (.inl rfl)
    · cases haccepts.received
  exact ⟨_, rfl, (lease_kept (accepts_acknowledgement false)).2 hacks rfl _ .refl⟩

/-- A run of the client without messages. -/
def idle (s : LeaseRun) (now : ℕ) : Except Unit LeaseRun :=
  if s.time ≤ now ∧ now ≤ s.polled + 1 then
    match s.client.run now [input [], input []] with
    | some cli => .ok ⟨cli, now, now⟩
    | none => .error ()
  else .error ()

/-- It is a step. -/
theorem step_idle {now : ℕ} (h : idle s now = .ok s') :
    s.Step (.run now [input [], input []]) s' := by
  rw [idle] at h
  split at h
  next hnow =>
    split at h
    next cli hrun =>
      cases h
      exact ⟨hnow, cli, hrun, rfl⟩
    next => cases h
  next => cases h

/-- With a T2 of five seconds, a client that is run every second is still bound when the lease has
ended. -/
theorem not_lease_kept : ¬ ∀ (cli cli' : Dhclient) (now : ℕ) (inp : DhclientInput)
    (inps : List DhclientInput) (msg : DhcpMsg) (s : LeaseRun), cli.Accepts inp msg →
      cli.run now (inp :: inps) = some cli' →
        Transition.Reachable Step ⟨cli', now, now⟩ s → s.Kept := by
  intro hall
  have hrun : ∃ cli, requestingClient.run 100 [input [acknowledgement true],
      input []] = some cli ∧
        ((List.range' 101 21).foldlM idle ⟨cli, 100, 100⟩).toOption.isSome = true ∧
        (Transition.runTo idle ⟨cli, 100, 100⟩ (List.range' 101 21)).client.isBound = true ∧
        (Transition.runTo idle ⟨cli, 100, 100⟩ (List.range' 101 21)).client.leaseExpiration = 120 ∧
        (Transition.runTo idle ⟨cli, 100, 100⟩ (List.range' 101 21)).polled = 121 ∧
        (Transition.runTo idle ⟨cli, 100, 100⟩ (List.range' 101 21)).time = 121 :=
    ⟨_, rfl, by decide +kernel, by decide +kernel, by decide +kernel, by decide +kernel,
      by decide +kernel⟩
  obtain ⟨cli, hcli, hok, hbound, hexpiration, hpolled, htime⟩ := hrun
  have hreach : Transition.Reachable Step ⟨cli, 100, 100⟩
      (Transition.runTo idle ⟨cli, 100, 100⟩ (List.range' 101 21)) :=
    (Transition.reachable_runTo hok).simulation (f := id) fun _ _ _ _ hstep =>
      .tail .refl trivial (step_idle hstep)
  have hkept := hall _ _ _ _ _ _ _ (accepts_acknowledgement _) hcli hreach hbound 122
  rw [InTime, hpolled, htime, hexpiration] at hkept
  exact absurd (hkept ⟨by decide, by decide⟩) (by decide)

end LeaseRun

end OfAgent
