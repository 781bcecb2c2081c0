import OfAgent.Dhcp.Lease

/-!
# Bindings

The DHCP client keeps the acknowledgement that its address comes from, its binding, and remembers
whether the binding has changed since it was asked last.

* `BoundDhclient`: the client with its binding and the flag, through all the functions that change
  them.
* `BindingHistory`: what the client is asked about: the changes of its address since it was asked
  last.
* `BoundDhclient.turn_eq`: what a turn of the loop of `dhclient_run` does to the binding and the
  flag.
* `bindingKept`: there is a binding exactly in the bound states, and the flag is set exactly when
  there was a change, or nobody has asked yet.
-/

namespace OfAgent

/-! ### Bindings that are compared -/

/-- The codes of `same_binding`. -/
def sameBindingCodes : List ℕ := [
  dhcpCodeSubnetMask, dhcpCodeRouter,
  6,  -- DHCP_CODE_DNS_SERVER
  12,  -- DHCP_CODE_HOST_NAME
  15,  -- DHCP_CODE_DOMAIN_NAME
  23,  -- DHCP_CODE_IP_TTL
  26,  -- DHCP_CODE_MTU
  28,  -- DHCP_CODE_BROADCAST_ADDRESS
  33,  -- DHCP_CODE_STATIC_ROUTE
  35,  -- DHCP_CODE_ARP_CACHE_TIMEOUT
  36,  -- DHCP_CODE_ETHERNET_ENCAPSULATION
  37,  -- DHCP_CODE_TCP_TTL
  dhcpCodeServerIdentifier,
  257,  -- DHCP_CODE_OFP_CONTROLLER_VCONN
  258]  -- DHCP_CODE_OFP_PKI_URI

/-- `dhcp_option_equals`. -/
def dhcpOptionEquals (a b : Option (List Byte)) : Bool :=
  a.isSome == b.isSome && (a.getD []).length == (b.getD []).length && a.getD [] == b.getD []

/-- `same_binding`. -/
def sameBinding (old new : DhcpMsg) : Bool :=
  sameBindingCodes.foldl
    (fun same code =>
      if dhcpOptionEquals (old.options code) (new.options code) then same else false)
    (old.yiaddr == new.yiaddr)

/-! ### The client -/

/-- `struct dhclient`, with its binding. -/
structure BoundDhclient extends Dhclient where
  /-- `binding`. -/
  binding : Option DhcpMsg
  /-- `changed`. -/
  changed : Bool

namespace BoundDhclient

variable (now : ℕ) (inp : DhclientInput) (cli : BoundDhclient)

/-- `dhclient_create`. -/
def create (xid : BitVec 32) : BoundDhclient := ⟨Dhclient.create now xid, none, true⟩

/-- `state_transition`. Its assertion is that there is a binding when the address becomes bound. -/
def stateTransition (state : DhclientState) : BoundDhclient :=
  let wasBound := cli.isBound
  let cli := { cli with toDhclient := cli.toDhclient.stateTransition now state }
  if wasBound ≠ cli.isBound then
    { cli with changed := true, binding := if cli.isBound then cli.binding else none }
  else cli

/-- `dhclient_init`. -/
def init (requestedIp : BitVec 32) : BoundDhclient :=
  { cli.stateTransition now (if requestedIp ≠ 0 then .initReboot else .init) with
    ipaddr := requestedIp, initDelay := 0 }

/-- `dhclient_release`. -/
def release : BoundDhclient := cli.stateTransition now .released

/-- `do_force_renew`. -/
def doForceRenew (deadline : ℤ) : BoundDhclient :=
  if cli.leaseLeft now ≤ toUint deadline ∧ (cli.state = .renewing ∨ cli.state = .rebinding) then cli
  else
    let deadline :=
      if cli.leaseLeft now ≤ toUint deadline then Int.bmod (cli.leaseLeft now) (2 ^ 32)
      else deadline
    if cli.state = .bound ∨ cli.state = .renewing then
      { cli.stateTransition now .renewing with
        renewingTimeout := toUint ((Int.bmod (deadline * 3) (2 ^ 32)).tdiv 4)
        rebindingTimeout := toUint (deadline.tdiv 4) }
    else { cli.stateTransition now .rebinding with rebindingTimeout := toUint deadline }

/-- `dhclient_force_renew`. -/
def forceRenew (deadline : ℤ) : BoundDhclient :=
  match cli.state with
  | .init | .initReboot | .rebooting | .selecting | .requesting => cli
  | .bound | .renewing | .rebinding => cli.doForceRenew now deadline
  | .released => cli.init now 0

/-- `dhclient_changed`, with what it returns. -/
def dhclientChanged : BoundDhclient × Bool := ({ cli with changed := false }, cli.changed)

/-- The end of `receive_ack`. -/
def bind (msg : DhcpMsg) : BoundDhclient :=
  let changed :=
    match cli.binding with
    | some binding => if sameBinding binding msg then cli.changed else true
    | none => cli.changed
  let lease := (msg.getSecs dhcpCodeLeaseTime 0).getD 0
  let t2 := msg.t2 lease inp.t2Random
  let t1 := msg.t1 lease t2 inp.t1Random
  stateTransition now
    { cli with
      binding := some msg
      changed := changed
      leaseExpiration := satAdd (now % 2 ^ 32) lease
      boundTimeout := t1
      renewingTimeout := toUint (t2 - t1)
      rebindingTimeout := toUint (lease - t2)
      ipaddr := msg.yiaddr
      netmask := (msg.getIp dhcpCodeSubnetMask 0).getD cli.netmask
      router := (msg.getIp dhcpCodeRouter 0).getD 0 } .bound

/-- `receive_ack`, with what it returns. -/
def receiveAck : BoundDhclient × Bool :=
  match cli.ackReceived inp with
  | none => (cli, false)
  | some msg =>
      if msg.type = dhcpNak then (cli.stateTransition now .init, true)
      else if inp.validateOfferedOptions msg then (cli.bind now inp msg, true)
      else (cli, false)

/-- The loop of `dhclient_run_SELECTING`. -/
def receiveOffers (cli : BoundDhclient) : List DhcpMsg → BoundDhclient
  | [] => cli
  | msg :: msgs =>
      if cli.expects (1 <<< dhcpOffer) msg && inp.validateOfferedOptions msg then
        match msg.getIp dhcpCodeServerIdentifier 0 with
        | none => cli.receiveOffers msgs
        | some serverIp =>
            { cli with serverIp, ipaddr := msg.yiaddr }.stateTransition now .requesting
      else cli.receiveOffers msgs

/-- `send_reliably`. -/
def sendReliably : BoundDhclient := { cli with toDhclient := cli.toDhclient.sendReliably now inp }

/-- `do_init`. -/
def doInit (nextState : DhclientState) : BoundDhclient :=
  let cli :=
    if cli.initDelay = 0 then { cli with initDelay := Dhclient.fuzz 2 1 inp.delayRandom } else cli
  if cli.timeout now cli.initDelay then cli.stateTransition now nextState else cli

/-- A state that waits for an acknowledgement. -/
def awaitAck (timeout : ℕ) (nextState : DhclientState) : BoundDhclient :=
  let (cli, received) := (cli.sendReliably now inp).receiveAck now inp
  if !received && cli.timeout now timeout then cli.stateTransition now nextState else cli

/-- `dhclient_run_SELECTING`. -/
def runSelecting : BoundDhclient :=
  let cli := cli.sendReliably now inp
  let cli :=
    if cli.serverIp ≠ 0 ∧ cli.timeout now 60 then
      { cli with serverIp := 0 }.stateTransition now .init
    else cli
  receiveOffers now inp cli inp.messages

/-- `dhclient_run_BOUND`. -/
def runBound : BoundDhclient :=
  if cli.timeout now cli.boundTimeout then cli.stateTransition now .renewing else cli

/-- A turn of the loop of `dhclient_run`: the functions of the states. -/
def turn : BoundDhclient :=
  match cli.state with
  | .init => cli.doInit now inp .selecting
  | .initReboot => cli.doInit now inp .rebooting
  | .rebooting => cli.awaitAck now inp 60 .init
  | .selecting => cli.runSelecting now inp
  | .requesting => cli.awaitAck now inp 60 .init
  | .bound => cli.runBound now
  | .renewing => cli.awaitAck now inp cli.renewingTimeout .rebinding
  | .rebinding => cli.awaitAck now inp cli.rebindingTimeout .init
  | .released => cli

/-- `dhclient_run`, with the clock and what else its turns meet. It ends with a turn that stays in
its state. -/
def run (cli : BoundDhclient) : List (ℕ × DhclientInput) → Option BoundDhclient
  | [] => none
  | (now, inp) :: turns =>
      if (cli.turn now inp).state = cli.state then some (cli.turn now inp)
      else (cli.turn now inp).run turns

end BoundDhclient

/-- The calls. -/
inductive DhclientCall
  /-- `dhclient_init`. -/
  | init (now : ℕ) (requestedIp : BitVec 32)
  /-- `dhclient_release`. -/
  | release (now : ℕ)
  /-- `dhclient_force_renew`. -/
  | forceRenew (now : ℕ) (deadline : ℤ)
  /-- `dhclient_run`. -/
  | run (turns : List (ℕ × DhclientInput))
  /-- `dhclient_changed`. -/
  | changed

/-- A call, if it returns. -/
def BoundDhclient.call (cli : BoundDhclient) : DhclientCall → Option BoundDhclient
  | .init now requestedIp => some (cli.init now requestedIp)
  | .release now => some (cli.release now)
  | .forceRenew now deadline => some (cli.forceRenew now deadline)
  | .run turns => cli.run turns
  | .changed => some cli.dhclientChanged.1

/-! ### The history of an address -/

/-- Two acknowledgements differ in the address, or in an option that is compared. -/
def DhcpMsg.Differ (old new : DhcpMsg) : Prop :=
  old.yiaddr ≠ new.yiaddr ∨ ∃ code ∈ sameBindingCodes, old.options code ≠ new.options code

instance (old new : DhcpMsg) : Decidable (old.Differ new) :=
  inferInstanceAs (Decidable (_ ∨ ∃ code ∈ sameBindingCodes, old.options code ≠ new.options code))

/-- A change of the address that a client has. -/
inductive BindingChange
  /-- It has got one. -/
  | bound
  /-- It has lost it. -/
  | unbound
  /-- An acknowledgement differs from the one before. -/
  | renewed (old new : DhcpMsg)

/-- A client, and what has happened to its address. -/
structure BindingHistory where
  /-- The client. -/
  client : Dhclient
  /-- The last acknowledgement for the address that it has. -/
  ack : Option DhcpMsg
  /-- The changes since it was asked last. -/
  since : List BindingChange
  /-- It has been asked. -/
  asked : Bool

/-- The acknowledgement that is accepted in a turn. -/
def Dhclient.acceptedAck (inp : DhclientInput) (cli : Dhclient) : Option DhcpMsg :=
  match cli.state with
  | .rebooting | .requesting | .renewing | .rebinding =>
      (cli.ackReceived inp).filter fun msg => msg.type != dhcpNak && inp.validateOfferedOptions msg
  | .init | .initReboot | .selecting | .bound | .released => none

namespace BindingHistory

/-- Nothing has happened. -/
def create (now : ℕ) (xid : BitVec 32) : BindingHistory :=
  ⟨Dhclient.create now xid, none, [], false⟩

/-- The change of the address, if there is one. -/
def change (wasBound amBound : Bool) (old new : Option DhcpMsg) : List BindingChange :=
  match wasBound, amBound, old, new with
  | false, true, _, _ => [.bound]
  | true, false, _, _ => [.unbound]
  | _, _, some old, some new => if old.Differ new then [.renewed old new] else []
  | _, _, _, _ => []

/-- The client becomes another one, perhaps with an acknowledgement. -/
def follow (next : Dhclient) (ack : Option DhcpMsg) (h : BindingHistory) : BindingHistory :=
  { h with
    client := next
    ack := if next.isBound then ack.or h.ack else none
    since := h.since ++ change h.client.isBound next.isBound h.ack ack }

/-- `dhclient_run`. -/
def run (h : BindingHistory) : List (ℕ × DhclientInput) → Option BindingHistory
  | [] => none
  | (now, inp) :: turns =>
      let h' := h.follow (h.client.turn now inp) (h.client.acceptedAck inp)
      if h'.client.state = h.client.state then some h' else h'.run turns

/-- A call, if it returns. -/
def call (h : BindingHistory) : DhclientCall → Option BindingHistory
  | .init now requestedIp => some (h.follow (h.client.init now requestedIp) none)
  | .release now => some (h.follow (h.client.release now) none)
  | .forceRenew now deadline => some (h.follow (h.client.forceRenew now deadline) none)
  | .run turns => h.run turns
  | .changed => some { h with since := [], asked := true }

end BindingHistory

/-! ### What is compared -/

theorem dhcpOptionEquals_iff (a b : Option (List Byte)) : dhcpOptionEquals a b = true ↔ a = b := by
  cases a <;> cases b <;> simp [dhcpOptionEquals]
  rintro rfl
  rfl

/-- The loop over the codes keeps the answer only if all options are equal. -/
theorem foldl_same_iff (equal : ℕ → Bool) (codes : List ℕ) (same : Bool) :
    codes.foldl (fun same code => if equal code then same else false) same = true ↔
      same = true ∧ ∀ code ∈ codes, equal code = true := by
  induction codes generalizing same with
  | nil => simp
  | cons code codes ih =>
    rw [List.foldl_cons, ih, List.forall_mem_cons]
    cases equal code <;> simp

theorem sameBinding_eq_false_iff (old new : DhcpMsg) :
    sameBinding old new = false ↔ old.Differ new := by
  rw [← Bool.not_eq_true, sameBinding, foldl_same_iff, beq_iff_eq, DhcpMsg.Differ]
  simp only [dhcpOptionEquals_iff, not_and_or, not_forall, exists_prop, ne_eq]

/-! ### The binding and the flag -/

namespace BoundDhclient

variable {now : ℕ} {inp : DhclientInput} {cli : BoundDhclient} {next next' : Dhclient}
    {msg : DhcpMsg}

/-- The client becomes another one: the binding goes with the address, and the flag is set when
there is an address no longer, or now. -/
def enter (next : Dhclient) (cli : BoundDhclient) : BoundDhclient where
  toDhclient := next
  binding := if cli.isBound = true ∧ next.isBound = false then none else cli.binding
  changed := cli.changed || cli.isBound != next.isBound

/-- It becomes one that is bound by an acknowledgement. -/
def accept (msg : DhcpMsg) (next : Dhclient) (cli : BoundDhclient) : BoundDhclient where
  toDhclient := next
  binding := some msg
  changed := cli.changed || !cli.isBound || cli.binding.any fun old => !sameBinding old msg

theorem enter_self (cli : BoundDhclient) : cli.enter cli.toDhclient = cli := by
  have hbinding : ¬ (cli.isBound = true ∧ cli.isBound = false) := fun hand => by
    simp [hand.1] at hand
  rw [enter, if_neg hbinding, bne_self_eq_false, Bool.or_false]

theorem stateTransition_eq (cli : BoundDhclient) (state : DhclientState) :
    cli.stateTransition now state = cli.enter (cli.toDhclient.stateTransition now state) := by
  unfold stateTransition enter
  simp only
  cases cli.isBound <;> cases (cli.toDhclient.stateTransition now state).isBound <;> simp

/-- The fields of another client, without a transition. -/
theorem enter_of_isBound_eq (h : next.isBound = cli.isBound) :
    { cli with toDhclient := next } = cli.enter next := by
  have hbinding : ¬ (cli.isBound = true ∧ next.isBound = false) := fun hand => by
    simp [h, hand.1] at hand
  rw [enter, if_neg hbinding, h, bne_self_eq_false, Bool.or_false]

/-- Two clients, one after the other, of which the first is bound when the one before is. -/
theorem enter_enter (h : next.isBound = cli.isBound) :
    (cli.enter next).enter next' = cli.enter next' := by
  rw [← enter_of_isBound_eq h]
  unfold enter
  simp only [h]

/-! ### Functions without an acknowledgement -/

theorem init_eq (cli : BoundDhclient) (requestedIp : BitVec 32) :
    cli.init now requestedIp = cli.enter (cli.toDhclient.init now requestedIp) := by
  rw [init, stateTransition_eq]
  rfl

theorem release_eq (cli : BoundDhclient) :
    cli.release now = cli.enter (cli.toDhclient.release now) :=
  stateTransition_eq cli _

/-- `do_force_renew`. -/
theorem doForceRenew_eq (cli : BoundDhclient) (deadline : ℤ) :
    cli.doForceRenew now deadline = cli.enter (cli.toDhclient.doForceRenew now deadline) := by
  unfold doForceRenew Dhclient.doForceRenew
  simp only [stateTransition_eq]
  split
  next => exact cli.enter_self.symm
  next =>
    split
    next => rfl
    next => rfl

theorem forceRenew_eq (cli : BoundDhclient) (deadline : ℤ) :
    cli.forceRenew now deadline = cli.enter (cli.toDhclient.forceRenew now deadline) := by
  unfold forceRenew Dhclient.forceRenew
  cases cli.state with
  | init | initReboot | rebooting | selecting | requesting => exact cli.enter_self.symm
  | bound | renewing | rebinding => exact cli.doForceRenew_eq deadline
  | released => exact cli.init_eq 0

/-- `do_init`. -/
theorem doInit_eq (cli : BoundDhclient) (nextState : DhclientState) :
    cli.doInit now inp nextState = cli.enter (cli.toDhclient.doInit now inp nextState) := by
  unfold doInit Dhclient.doInit
  simp only [stateTransition_eq]
  split
  next =>
    split
    next => rfl
    next => exact enter_of_isBound_eq rfl
  next =>
    split
    next => rfl
    next => exact cli.enter_self.symm

/-- The loop of `dhclient_run_SELECTING`. -/
theorem receiveOffers_eq (cli : BoundDhclient) (msgs : List DhcpMsg) :
    cli.receiveOffers now inp msgs = cli.enter (cli.toDhclient.receiveOffers now inp msgs) := by
  induction msgs with
  | nil => exact cli.enter_self.symm
  | cons msg msgs ih =>
    unfold receiveOffers Dhclient.receiveOffers
    split
    next =>
      cases msg.getIp dhcpCodeServerIdentifier 0 with
      | none => exact ih
      | some serverIp =>
        -- an address that is offered is no binding yet
        exact stateTransition_eq { cli with serverIp, ipaddr := msg.yiaddr } .requesting
    next => exact ih

/-- `dhclient_run_SELECTING`. -/
theorem runSelecting_eq (hstate : cli.state = .selecting) :
    cli.runSelecting now inp = cli.enter (cli.toDhclient.runSelecting now inp) := by
  obtain ⟨delay, retransmit, hsend⟩ := @Dhclient.exists_sendReliably now inp cli.toDhclient
  have hfree : cli.isBound = false := by
    rw [Dhclient.isBound, hstate]
    rfl
  unfold runSelecting Dhclient.runSelecting sendReliably
  rw [hsend]
  simp only [receiveOffers_eq]
  split
  next =>
    rw [stateTransition_eq]
    exact enter_enter hfree.symm
  next => rfl

theorem runBound_eq (cli : BoundDhclient) :
    cli.runBound now = cli.enter (cli.toDhclient.runBound now) := by
  unfold runBound Dhclient.runBound
  split
  next => exact stateTransition_eq cli _
  next => exact cli.enter_self.symm

/-! ### Acknowledgements -/

/-- An acknowledgement that is accepted. -/
theorem acceptedAck_eq_some_iff {cli : Dhclient} :
    cli.acceptedAck inp = some msg ↔ cli.Accepts inp msg := by
  have hfilter : (cli.ackReceived inp).filter
      (fun msg => msg.type != dhcpNak && inp.validateOfferedOptions msg) = some msg ↔
      cli.ackReceived inp = some msg ∧ msg.type ≠ dhcpNak ∧
        inp.validateOfferedOptions msg = true := by
    rw [Option.filter_eq_some_iff, Bool.and_eq_true, bne_iff_ne]
  unfold Dhclient.acceptedAck
  cases hstate : cli.state with
  | rebooting | requesting | renewing | rebinding =>
    refine hfilter.trans
      ⟨fun ⟨hreceived, htype, hvalid⟩ => ⟨?_, hreceived, htype, hvalid⟩, fun h => ?_⟩
    · simp [Dhclient.Awaits, hstate]
    · exact ⟨h.received, h.type_ne, h.valid⟩
  | init | initReboot | selecting | bound | released =>
    refine ⟨nofun, fun h => ?_⟩
    have hawaits := h.awaits
    simp [Dhclient.Awaits, hstate] at hawaits

/-- The end of `receive_ack`. -/
theorem bind_eq (cli : BoundDhclient) (msg : DhcpMsg) :
    cli.bind now inp msg = cli.accept msg (cli.toDhclient.bind now inp msg) := by
  have hbound : (cli.toDhclient.bind now inp msg).isBound = true := rfl
  unfold bind
  simp only [stateTransition_eq]
  show enter (cli.toDhclient.bind now inp msg) _ = _
  -- the transition sets the flag when there was no address, and the comparison when there was one
  rw [enter, accept, hbound, BoundDhclient.mk.injEq]
  refine ⟨rfl, ?_, ?_⟩
  · simp
  · show (_ || cli.isBound != true) = _
    cases cli.binding with
    | none => simp
    | some old => simp [Bool.or_comm, Bool.or_left_comm, Bool.or_assoc]

/-- No acknowledgement is accepted: the timeout decides. -/
theorem waits_eq (cli : BoundDhclient) (secs : ℕ) (nextState : DhclientState) :
    (if !false && cli.timeout now secs then cli.stateTransition now nextState else cli) =
      cli.enter (if !false && cli.timeout now secs then cli.toDhclient.stateTransition now nextState
        else cli.toDhclient) := by
  split
  next => exact stateTransition_eq cli nextState
  next => exact cli.enter_self.symm

/-- A state that waits for an acknowledgement. -/
theorem awaitAck_eq (hawaits : cli.Awaits) (secs : ℕ) (nextState : DhclientState) :
    cli.awaitAck now inp secs nextState =
      match cli.acceptedAck inp with
      | none => cli.enter (cli.toDhclient.awaitAck now inp secs nextState)
      | some msg => cli.accept msg (cli.toDhclient.awaitAck now inp secs nextState) := by
  obtain ⟨delay, retransmit, hsend⟩ := @Dhclient.exists_sendReliably now inp cli.toDhclient
  have hreceived : ({ cli.toDhclient with delay, retransmit } : Dhclient).ackReceived inp =
      cli.ackReceived inp := rfl
  have hrefused : ∀ {msg}, cli.ackReceived inp = some msg →
      ¬ (msg.type ≠ dhcpNak ∧ inp.validateOfferedOptions msg = true) →
        cli.acceptedAck inp = none := by
    intro msg hack hbad
    refine Option.eq_none_iff_forall_ne_some.2 fun msg' hmsg' => ?_
    have h := acceptedAck_eq_some_iff.1 hmsg'
    obtain rfl : msg' = msg := Option.some.inj (h.received.symm.trans hack)
    exact hbad ⟨h.type_ne, h.valid⟩
  -- what is sent changes neither the address nor the state
  have henter : ∀ next' : Dhclient,
      ({ cli with toDhclient := { cli.toDhclient with delay, retransmit } }).enter next' =
      cli.enter next' := fun _ => rfl
  unfold awaitAck Dhclient.awaitAck sendReliably receiveAck Dhclient.receiveAck
  rw [hsend, hreceived]
  cases hack : cli.ackReceived inp with
  | none =>
    have hnone : cli.acceptedAck inp = none := by
      refine Option.eq_none_iff_forall_ne_some.2 fun msg' hmsg' => ?_
      have h := (acceptedAck_eq_some_iff.1 hmsg').received
      rw [hack] at h
      cases h
    rw [hnone]
    exact (waits_eq _ secs nextState).trans (henter _)
  | some msg =>
    simp only
    by_cases htype : msg.type = dhcpNak
    · rw [hrefused hack fun hand => hand.1 htype, if_pos htype, if_pos htype]
      exact stateTransition_eq { cli with toDhclient := { cli.toDhclient with delay, retransmit } }
        .init
    rw [if_neg htype, if_neg htype]
    by_cases hvalid : inp.validateOfferedOptions msg = true
    · rw [acceptedAck_eq_some_iff.2 ⟨hawaits, hack, htype, hvalid⟩, if_pos hvalid, if_pos hvalid]
      exact bind_eq { cli with toDhclient := { cli.toDhclient with delay, retransmit } } msg
    · rw [hrefused hack fun hand => hvalid hand.2, if_neg hvalid, if_neg hvalid]
      exact (waits_eq _ secs nextState).trans (henter _)

/-- A turn of the loop of `dhclient_run`. -/
theorem turn_eq (cli : BoundDhclient) :
    cli.turn now inp =
      match cli.acceptedAck inp with
      | none => cli.enter (cli.toDhclient.turn now inp)
      | some msg => cli.accept msg (cli.toDhclient.turn now inp) := by
  have hnone : ¬ cli.Awaits → cli.acceptedAck inp = none := fun h =>
    Option.eq_none_iff_forall_ne_some.2 fun msg hmsg => h (acceptedAck_eq_some_iff.1 hmsg).awaits
  unfold turn Dhclient.turn
  cases hstate : cli.state with
  | rebooting | requesting | renewing | rebinding =>
    exact awaitAck_eq (by simp [Dhclient.Awaits, hstate]) _ _
  | init | initReboot =>
    rw [hnone (by simp [Dhclient.Awaits, hstate])]
    exact doInit_eq cli _
  | selecting =>
    rw [hnone (by simp [Dhclient.Awaits, hstate])]
    exact runSelecting_eq hstate
  | bound =>
    rw [hnone (by simp [Dhclient.Awaits, hstate])]
    exact runBound_eq cli
  | released =>
    rw [hnone (by simp [Dhclient.Awaits, hstate])]
    exact cli.enter_self.symm

end BoundDhclient

/-! ### Addresses -/

namespace Dhclient

variable {now : ℕ} {inp : DhclientInput} {cli next : Dhclient}

/-- If the next client is bound, this one is, with the same address. -/
def Keeps (cli next : Dhclient) : Prop :=
  next.isBound = true → cli.isBound = true ∧ next.ipaddr = cli.ipaddr

theorem keeps_of_not_isBound (h : next.isBound = false) : cli.Keeps next := fun hbound =>
  absurd (h.symm.trans hbound) Bool.false_ne_true

theorem keeps_self (cli : Dhclient) : cli.Keeps cli := fun hbound => ⟨hbound, rfl⟩

/-- `dhclient_force_renew`. -/
theorem keeps_forceRenew (cli : Dhclient) (deadline : ℤ) :
    cli.Keeps (cli.forceRenew now deadline) := by
  obtain ⟨hbound, heq⟩ | hfree := @forceRenew_cases now cli deadline
  · rw [heq]
    refine fun _ => ⟨hbound, ?_⟩
    unfold doForceRenew
    split
    next => rfl
    next =>
      simp only
      split
      next => rfl
      next => rfl
  · exact keeps_of_not_isBound hfree

/-- A turn in which no acknowledgement is accepted. -/
theorem keeps_turn (cli : Dhclient) (h : cli.acceptedAck inp = none) :
    cli.Keeps (cli.turn now inp) := by
  have hawait : ∀ {secs nextState}, cli.Awaits → (nextState.isBound = true → cli.isBound = true) →
      cli.Keeps (cli.awaitAck now inp secs nextState) := by
    intro secs nextState hawaits hnext
    generalize houtcome : cli.awaitAck now inp secs nextState = cli'
    cases houtcome ▸ ackOutcome hawaits secs nextState with
    | accepted cli'' haccepts =>
      rw [BoundDhclient.acceptedAck_eq_some_iff.2 haccepts] at h
      cases h
    | refused => exact keeps_of_not_isBound rfl
    -- only `S_RENEWING` goes on with its address when the time is over
    | expired => exact fun hbound => ⟨hnext hbound, rfl⟩
    | waiting => exact fun hbound => ⟨hbound, rfl⟩
  unfold turn
  cases hstate : cli.state with
  | rebooting => exact hawait (by simp [Awaits, hstate]) nofun
  | requesting => exact hawait (by simp [Awaits, hstate]) nofun
  | renewing =>
    exact hawait (by simp [Awaits, hstate]) fun _ => by
      simp [isBound, hstate, DhclientState.isBound]
  | rebinding => exact hawait (by simp [Awaits, hstate]) nofun
  | init =>
    exact keeps_of_not_isBound
      (isBound_doInit (by simp [isBound, hstate, DhclientState.isBound]) rfl)
  | initReboot =>
    exact keeps_of_not_isBound
      (isBound_doInit (by simp [isBound, hstate, DhclientState.isBound]) rfl)
  | selecting =>
    exact keeps_of_not_isBound
      (isBound_runSelecting (by simp [isBound, hstate, DhclientState.isBound]))
  | bound =>
    show cli.Keeps (cli.runBound now)
    unfold runBound
    split
    next => exact fun _ => ⟨by simp [isBound, hstate, DhclientState.isBound], rfl⟩
    next => exact keeps_self cli
  | released => exact keeps_self cli

theorem turn_of_acceptedAck {msg : DhcpMsg} (h : cli.acceptedAck inp = some msg) :
    (cli.turn now inp).isBound = true ∧ (cli.turn now inp).ipaddr = msg.yiaddr := by
  rw [(BoundDhclient.acceptedAck_eq_some_iff.1 h).turn]
  exact ⟨rfl, rfl⟩

end Dhclient

/-! ### The client and the history -/

/-- The client has a binding exactly when it is bound, and the address is the one of the binding.
Both are as the history says, and the flag is set when there is a change in it that nobody has asked
about, or nobody has asked. -/
structure BoundDhclient.Follows (cli : BoundDhclient) (h : BindingHistory) : Prop where
  /-- The clients are the same. -/
  client_eq : cli.toDhclient = h.client
  /-- The binding is the last acknowledgement. -/
  binding_eq : cli.binding = h.ack
  /-- There is a binding exactly when the client is bound. -/
  isSome_eq : cli.binding.isSome = cli.isBound
  /-- The address is the one of the binding. -/
  ipaddr_eq : ∀ msg, cli.binding = some msg → cli.ipaddr = msg.yiaddr
  /-- The flag. -/
  changed_iff : cli.changed = true ↔ h.asked = false ∨ h.since ≠ []

namespace BoundDhclient.Follows

variable {now : ℕ} {cli : BoundDhclient} {h : BindingHistory}

/-- The flag behind a change, if there is one. -/
theorem changed_follow (hf : cli.Follows h) {next : Dhclient} {ack : Option DhcpMsg} {flag : Bool}
    (hflag : flag = true ↔ BindingHistory.change h.client.isBound next.isBound h.ack ack ≠ []) :
    (cli.changed || flag) = true ↔
      (h.follow next ack).asked = false ∨ (h.follow next ack).since ≠ [] := by
  show _ ↔ h.asked = false ∨ h.since ++ BindingHistory.change _ _ _ _ ≠ []
  rw [Bool.or_eq_true, hf.changed_iff, hflag, or_assoc, ne_eq, ne_eq, ne_eq, List.append_eq_nil_iff,
    not_and_or]

/-- The client becomes another one, without an acknowledgement. -/
theorem enter (hf : cli.Follows h) {next : Dhclient} (hkeeps : cli.Keeps next) :
    (cli.enter next).Follows (h.follow next none) := by
  have hsome := hf.isSome_eq
  cases hnext : next.isBound with
  | true =>
    -- the address stays, and the binding with it
    obtain ⟨hbound, hipaddr⟩ := hkeeps hnext
    have hbinding : (cli.enter next).binding = cli.binding := by simp [BoundDhclient.enter, hnext]
    refine ⟨rfl, ?_, ?_, fun msg hmsg => ?_, hf.changed_follow ?_⟩
    · rw [hbinding, hf.binding_eq]
      simp [BindingHistory.follow, hnext]
    · rw [hbinding, hsome, hbound]
      exact hnext.symm
    · rw [hbinding] at hmsg
      exact hipaddr.trans (hf.ipaddr_eq msg hmsg)
    · rw [← hf.client_eq, hbound, hnext]
      cases h.ack <;> simp [BindingHistory.change]
  | false =>
    -- there is no address any more, and no binding
    have hbinding : (cli.enter next).binding = none := by
      cases hbound : cli.isBound with
      | true => simp [BoundDhclient.enter, hbound, hnext]
      | false =>
        rw [hbound, Option.isSome_eq_false_iff, Option.isNone_iff_eq_none] at hsome
        simp [BoundDhclient.enter, hsome]
    refine ⟨rfl, ?_, ?_, fun msg hmsg => ?_, hf.changed_follow ?_⟩
    · rw [hbinding]
      simp [BindingHistory.follow, hnext]
    · rw [hbinding]
      exact hnext.symm
    · rw [hbinding] at hmsg
      cases hmsg
    · rw [← hf.client_eq, hnext]
      cases cli.isBound <;> cases h.ack <;> simp [BindingHistory.change]

/-- The client becomes one that is bound by an acknowledgement. -/
theorem accept (hf : cli.Follows h) {next : Dhclient} {msg : DhcpMsg} (hbound : next.isBound = true)
    (hipaddr : next.ipaddr = msg.yiaddr) :
    (cli.accept msg next).Follows (h.follow next (some msg)) := by
  refine ⟨rfl, ?_, hbound.symm, fun msg' hmsg' => ?_, ?_⟩
  · simp [BindingHistory.follow, BoundDhclient.accept, hbound]
  · obtain rfl : msg = msg' := Option.some.inj hmsg'
    exact hipaddr
  · have hsome := hf.isSome_eq
    rw [BoundDhclient.accept, Bool.or_assoc]
    refine hf.changed_follow ?_
    rw [← hf.client_eq, ← hf.binding_eq, hbound]
    cases hfree : cli.isBound with
    | false => simp [BindingHistory.change]
    | true =>
      -- a renewal: what is compared is what the history compares
      rw [hfree] at hsome
      obtain ⟨old, hold⟩ := Option.isSome_iff_exists.1 hsome
      simp only [hold, BindingHistory.change, Option.any_some, Bool.not_true, Bool.false_or,
        Bool.not_eq_true', sameBinding_eq_false_iff]
      split
      next hdiffer => simp [hdiffer]
      next hdiffer => simp [hdiffer]

/-- A turn of the loop of `dhclient_run`. -/
theorem turn (hf : cli.Follows h) (now : ℕ) (inp : DhclientInput) :
    (cli.turn now inp).Follows (h.follow (h.client.turn now inp) (h.client.acceptedAck inp)) := by
  rw [turn_eq, ← hf.client_eq]
  cases hack : cli.acceptedAck inp with
  | none => exact hf.enter (cli.keeps_turn hack)
  | some msg =>
    obtain ⟨hbound, hipaddr⟩ := @Dhclient.turn_of_acceptedAck now inp cli.toDhclient msg hack
    exact hf.accept hbound hipaddr

/-- The loop of `dhclient_run`: it ends for both, or for none. -/
theorem run (hf : cli.Follows h) (turns : List (ℕ × DhclientInput)) :
    Option.Rel BoundDhclient.Follows (cli.run turns) (h.run turns) := by
  induction turns generalizing cli h with
  | nil => exact .none
  | cons turn turns ih =>
    obtain ⟨now, inp⟩ := turn
    have hturn := hf.turn now inp
    unfold BoundDhclient.run BindingHistory.run
    simp only
    rw [← hturn.client_eq, ← hf.client_eq]
    split
    next => exact .some (hf.client_eq ▸ hturn)
    next => exact ih (hf.client_eq ▸ hturn)

/-- A call. -/
theorem call (hf : cli.Follows h) (c : DhclientCall) :
    Option.Rel BoundDhclient.Follows (cli.call c) (h.call c) := by
  cases c with
  | init now requestedIp =>
    refine .some ?_
    rw [init_eq, ← hf.client_eq]
    exact hf.enter (Dhclient.keeps_of_not_isBound (Dhclient.isBound_init requestedIp))
  | release now =>
    refine .some ?_
    rw [release_eq, ← hf.client_eq]
    exact hf.enter (Dhclient.keeps_of_not_isBound rfl)
  | forceRenew now deadline =>
    refine .some ?_
    rw [forceRenew_eq, ← hf.client_eq]
    exact hf.enter (cli.keeps_forceRenew deadline)
  | run turns => exact hf.run turns
  | changed =>
    exact .some ⟨hf.client_eq, hf.binding_eq, hf.isSome_eq, hf.ipaddr_eq, by simp [dhclientChanged]⟩

/-- Some calls, one after the other. -/
theorem calls (hf : cli.Follows h) (cs : List DhclientCall) :
    Option.Rel BoundDhclient.Follows (cs.foldlM BoundDhclient.call cli)
      (cs.foldlM BindingHistory.call h) := by
  induction cs generalizing cli h with
  | nil => exact .some hf
  | cons c cs ih =>
    have hcall := hf.call c
    rw [List.foldlM_cons, List.foldlM_cons]
    generalize cli.call c = cli' at hcall ⊢
    generalize h.call c = h' at hcall ⊢
    cases hcall with
    | none => exact .none
    | some hf' => exact ih hf'

end BoundDhclient.Follows

/-- Behind any calls, there is a binding exactly in the bound states, with the address of the
client, and the flag is set exactly when the address has changed since it was read last, or it has
never been read. -/
theorem bindingKept {now : ℕ} {xid : BitVec 32} {cs : List DhclientCall} {cli : BoundDhclient}
    (hcalls : cs.foldlM BoundDhclient.call (.create now xid) = some cli) :
    ∃ h, cs.foldlM BindingHistory.call (.create now xid) = some h ∧ cli.toDhclient = h.client ∧
      (cli.binding.isSome = true ↔ cli.state = .bound ∨ cli.state = .renewing ∨
        cli.state = .rebinding) ∧
      (∀ msg, cli.binding = some msg → cli.ipaddr = msg.yiaddr) ∧
      (cli.dhclientChanged.2 = true ↔ h.asked = false ∨ h.since ≠ []) := by
  have hcreate : (BoundDhclient.create now xid).Follows (.create now xid) :=
    ⟨rfl, rfl, rfl, nofun, by simp [BoundDhclient.create, BindingHistory.create]⟩
  have hrel := hcreate.calls cs
  rw [hcalls] at hrel
  generalize hhistory : cs.foldlM BindingHistory.call (.create now xid) = h at hrel
  cases hrel with
  | some hf =>
    refine ⟨_, rfl, hf.client_eq, ?_, hf.ipaddr_eq, hf.changed_iff⟩
    rw [hf.isSome_eq, Dhclient.isBound]
    cases cli.state <;> simp [DhclientState.isBound]

/-- An address is asked for, and acknowledged. -/
def rebootCalls : List DhclientCall :=
  [.init 0 1, .changed,
    .run [(5, LeaseRun.input []), (5, LeaseRun.input [LeaseRun.acknowledgement false]),
      (5, LeaseRun.input [])]]

/-- The client is bound, and says that something has changed. -/
theorem bindingKept_reboot : ∃ cli, rebootCalls.foldlM BoundDhclient.call (.create 0 7) = some cli ∧
    cli.binding.isSome = true ∧ cli.dhclientChanged.2 = true := by
  have hstate : (rebootCalls.foldlM BoundDhclient.call (.create 0 7)).map (fun cli => cli.state) =
      some .bound := by
    rfl
  have hsince : (rebootCalls.foldlM BindingHistory.call (.create 0 7)).map
      (fun h => h.since.isEmpty) = some false := by
    rfl
  obtain ⟨cli, hcalls, hbound⟩ := Option.map_eq_some_iff.1 hstate
  obtain ⟨h, hhistory, -, hbinding, -, hchanged⟩ := bindingKept hcalls
  refine ⟨cli, hcalls, hbinding.2 (.inl hbound), hchanged.2 (.inr ?_)⟩
  rw [hhistory] at hsince
  intro hnil
  simp [hnil] at hsince

/-- Nothing has happened yet, and the client says that something has changed. -/
theorem not_bindingKept :
    ¬ ∀ (now : ℕ) (xid : BitVec 32) (cs : List DhclientCall) (cli : BoundDhclient)
      (h : BindingHistory),
      cs.foldlM BoundDhclient.call (.create now xid) = some cli →
      cs.foldlM BindingHistory.call (.create now xid) = some h →
        (cli.dhclientChanged.2 = true ↔ h.since ≠ []) := by
  intro hall
  exact (hall 0 0 [] _ _ rfl rfl).1 rfl rfl

end OfAgent
