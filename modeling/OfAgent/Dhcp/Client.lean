import OfAgent.Conn.Rconn
import OfAgent.Dhcp.Message

/-!
# The DHCP client

`dhcp-client.c`: a client that obtains an address, renews its lease, and gives the address up when
the lease ends.

* `Dhclient`: `struct dhclient`, without the configuration, the packets and what only concerns them.
* `Dhclient.receiveAck`: an address is bound, and the lease is cut into three timeouts.
* `Dhclient.runBound` and the other functions of the states; `Dhclient.turn`: one turn of the loop
  of `dhclient_run`; `Dhclient.run`: the loop.
* `Dhclient.forceRenew`, `Dhclient.init`, `Dhclient.release`: the other operations.

A call reads the clock once. `time_t` has 64 bits.
-/

namespace OfAgent

/-! ### State -/

/-- `enum dhclient_state`. -/
inductive DhclientState
  | init
  | initReboot
  | rebooting
  | selecting
  | requesting
  | bound
  | renewing
  | rebinding
  | released
  deriving DecidableEq, Repr

/-- `S_BOUND | S_RENEWING | S_REBINDING`. -/
def DhclientState.isBound : DhclientState → Bool
  | bound | renewing | rebinding => true
  | init | initReboot | rebooting | selecting | requesting | released => false

/-- `struct dhclient`. -/
structure Dhclient where
  /-- The state. -/
  state : DhclientState
  /-- When it has been entered. -/
  stateEntered : ℕ
  /-- The transaction. -/
  xid : BitVec 32
  /-- The address. -/
  ipaddr : BitVec 32
  /-- Its netmask. -/
  netmask : BitVec 32
  /-- The default gateway. -/
  router : BitVec 32
  /-- The server whose offer has been accepted. -/
  serverIp : BitVec 32
  /-- Seconds in the state before the next transmission. -/
  retransmit : ℕ
  /-- Seconds between two transmissions. -/
  delay : ℕ
  /-- The most that they become. -/
  maxTimeout : ℕ
  /-- Seconds before an address is looked for. -/
  initDelay : ℕ
  /-- When the lease ends. -/
  leaseExpiration : ℕ
  /-- Seconds in `S_BOUND`. -/
  boundTimeout : ℕ
  /-- Seconds in `S_RENEWING`. -/
  renewingTimeout : ℕ
  /-- Seconds in `S_REBINDING`. -/
  rebindingTimeout : ℕ

/-- What a turn of the loop meets. -/
structure DhclientInput where
  /-- What `do_receive_msg` returns before it returns false. -/
  messages : List DhcpMsg
  /-- `validate_offer`. -/
  validateOffer : DhcpMsg → Bool
  /-- The random number for `delay` or `init_delay`. -/
  delayRandom : ℕ
  /-- The random number for T2. -/
  t2Random : ℕ
  /-- The random number for T1. -/
  t1Random : ℕ

/-- `MIN_ACCEPTABLE_LEASE`. -/
def minAcceptableLease : ℕ := 15

/-! ### Numbers -/

/-- `sat_sub`. -/
def satSub (x y : ℕ) : ℕ := if y ≤ x then x - y else 0

namespace Dhclient

/-- `fuzz`. -/
def fuzz (x maxFuzz random : ℕ) : ℕ :=
  let fuzz : ℤ := (random % (maxFuzz * 2 + 1) : ℕ) - maxFuzz
  let y := toUint (x + fuzz)
  if 0 ≤ fuzz then if x ≤ y then y else uintMax else if y ≤ x then y else 0

/-- `clamp`. -/
def clamp (x lo hi : ℕ) : ℕ := if x < lo then lo else if hi < x then hi else x

/-- `calc_t2`. -/
def calcT2 (lease random : ℕ) : ℕ :=
  let base := lease * 7 / 8
  if 60 ≤ lease then clamp (fuzz base 10 random) 0 (lease - 1) else base

/-- `calc_t1`. -/
def calcT1 (lease t2 random : ℕ) : ℕ :=
  let base := lease / 2
  if 60 ≤ lease then clamp (fuzz base 10 random) 0 (t2 - 1) else base

end Dhclient

/-- The T2 of `receive_ack`. -/
def DhcpMsg.t2 (msg : DhcpMsg) (lease random : ℕ) : ℕ :=
  let t2 := (msg.getSecs dhcpCodeT2 0).getD 0
  if t2 = 0 ∨ lease ≤ t2 then Dhclient.calcT2 lease random else t2

/-- The T1 of `receive_ack`. -/
def DhcpMsg.t1 (msg : DhcpMsg) (lease t2 random : ℕ) : ℕ :=
  let t1 := (msg.getSecs dhcpCodeT1 0).getD 0
  if t1 = 0 ∨ t2 ≤ t1 then Dhclient.calcT1 lease t2 random else t1

/-- `validate_offered_options`. -/
def DhclientInput.validateOfferedOptions (inp : DhclientInput) (msg : DhcpMsg) : Bool :=
  match msg.getSecs dhcpCodeLeaseTime 0, msg.getIp dhcpCodeSubnetMask 0 with
  | some lease, some _ => decide (minAcceptableLease ≤ lease) && inp.validateOffer msg
  | _, _ => false

namespace Dhclient

variable (now : ℕ) (inp : DhclientInput) (cli : Dhclient)

/-! ### Operations -/

/-- `dhclient_create`, with the random number of the transaction. -/
def create (xid : BitVec 32) : Dhclient :=
  ⟨.released, now % 2 ^ 32, xid, 0, 0, 0, 0, 0, 0, 64, 0, 0, 0, 0, 0⟩

/-- `dhclient_is_bound`. -/
def isBound : Bool := cli.state.isBound

/-- `timeout`. -/
def timeout (secs : ℕ) : Bool := satAdd cli.stateEntered secs ≤ now

/-- `state_transition`. -/
def stateTransition (state : DhclientState) : Dhclient :=
  { cli with state, stateEntered := now % 2 ^ 32, retransmit := 0, delay := 0 }

/-- `dhclient_init`. -/
def init (requestedIp : BitVec 32) : Dhclient :=
  { cli.stateTransition now (if requestedIp ≠ 0 then .initReboot else .init) with
    ipaddr := requestedIp, initDelay := 0 }

/-- `dhclient_release`. -/
def release : Dhclient := cli.stateTransition now .released

/-- `lease_left` of `do_force_renew`. -/
def leaseLeft : ℕ := satSub (cli.leaseExpiration % 2 ^ 32) (now % 2 ^ 32)

/-- `do_force_renew`. The deadline is compared as an `unsigned int`. Products that overflow an `int`
wrap around. -/
def doForceRenew (deadline : ℤ) : Dhclient :=
  if cli.leaseLeft now ≤ toUint deadline ∧ (cli.state = .renewing ∨ cli.state = .rebinding) then cli
  else
    let deadline :=
      if cli.leaseLeft now ≤ toUint deadline then Int.bmod (cli.leaseLeft now) (2 ^ 32)
      else deadline
    if cli.state = .bound ∨ cli.state = .renewing then
      { cli.stateTransition now .renewing with
        renewingTimeout := toUint ((Int.bmod (deadline * 3) (2 ^ 32)).tdiv 4)
        rebindingTimeout := toUint (deadline.tdiv 4) }
    else { cli.stateTransition now .rebinding with rebindingTimeout := toUint deadline }

/-- `dhclient_force_renew`. -/
def forceRenew (deadline : ℤ) : Dhclient :=
  match cli.state with
  | .init | .initReboot | .rebooting | .selecting | .requesting => cli
  | .bound | .renewing | .rebinding => cli.doForceRenew now deadline
  | .released => cli.init now 0

/-! ### Messages -/

/-- `send_reliably`, without the packet. -/
def sendReliably : Dhclient :=
  if cli.timeout now cli.retransmit then
    let delay := min cli.maxTimeout (max 4 (cli.delay * 2 % 2 ^ 32))
    { cli with delay, retransmit := (cli.retransmit + fuzz delay 1 inp.delayRandom) % 2 ^ 32 }
  else cli

/-- `dhcp_receive` passes a message on when its type is a bit of `msgs` and it belongs to the
transaction. -/
def expects (msgs : ℕ) (msg : DhcpMsg) : Bool :=
  msg.type ≤ 31 && msgs.testBit msg.type && msg.xid == cli.xid

/-- The message that `receive_ack` acts on. -/
def ackReceived : Option DhcpMsg :=
  inp.messages.find? (cli.expects (1 <<< dhcpAck ||| 1 <<< dhcpNak))

/-- The end of `receive_ack`. -/
def bind (msg : DhcpMsg) : Dhclient :=
  let lease := (msg.getSecs dhcpCodeLeaseTime 0).getD 0
  let t2 := msg.t2 lease inp.t2Random
  let t1 := msg.t1 lease t2 inp.t1Random
  stateTransition now
    { cli with
      leaseExpiration := satAdd (now % 2 ^ 32) lease
      boundTimeout := t1
      renewingTimeout := toUint (t2 - t1)
      rebindingTimeout := toUint (lease - t2)
      ipaddr := msg.yiaddr
      netmask := (msg.getIp dhcpCodeSubnetMask 0).getD cli.netmask
      router := (msg.getIp dhcpCodeRouter 0).getD 0 } .bound

/-- `receive_ack`, with what it returns. -/
def receiveAck : Dhclient × Bool :=
  match cli.ackReceived inp with
  | none => (cli, false)
  | some msg =>
      if msg.type = dhcpNak then (cli.stateTransition now .init, true)
      else if inp.validateOfferedOptions msg then (cli.bind now inp msg, true)
      else (cli, false)

/-- The loop of `dhclient_run_SELECTING`. -/
def receiveOffers (cli : Dhclient) : List DhcpMsg → Dhclient
  | [] => cli
  | msg :: msgs =>
      if cli.expects (1 <<< dhcpOffer) msg && inp.validateOfferedOptions msg then
        match msg.getIp dhcpCodeServerIdentifier 0 with
        | none => cli.receiveOffers msgs
        | some serverIp =>
            { cli with serverIp, ipaddr := msg.yiaddr }.stateTransition now .requesting
      else cli.receiveOffers msgs

/-! ### States -/

/-- `do_init`. -/
def doInit (nextState : DhclientState) : Dhclient :=
  let cli := if cli.initDelay = 0 then { cli with initDelay := fuzz 2 1 inp.delayRandom } else cli
  if cli.timeout now cli.initDelay then cli.stateTransition now nextState else cli

/-- A state that waits for an acknowledgement. -/
def awaitAck (timeout : ℕ) (nextState : DhclientState) : Dhclient :=
  let (cli, received) := (cli.sendReliably now inp).receiveAck now inp
  if !received && cli.timeout now timeout then cli.stateTransition now nextState else cli

/-- `dhclient_run_INIT`. -/
def runInit : Dhclient := cli.doInit now inp .selecting

/-- `dhclient_run_INIT_REBOOT`. -/
def runInitReboot : Dhclient := cli.doInit now inp .rebooting

/-- `dhclient_run_REBOOTING`. -/
def runRebooting : Dhclient := cli.awaitAck now inp 60 .init

/-- `dhclient_run_SELECTING`. -/
def runSelecting : Dhclient :=
  let cli := cli.sendReliably now inp
  let cli :=
    if cli.serverIp ≠ 0 ∧ cli.timeout now 60 then
      { cli with serverIp := 0 }.stateTransition now .init
    else cli
  receiveOffers now inp cli inp.messages

/-- `dhclient_run_REQUESTING`. -/
def runRequesting : Dhclient := cli.awaitAck now inp 60 .init

/-- `dhclient_run_BOUND`. -/
def runBound : Dhclient :=
  if cli.timeout now cli.boundTimeout then cli.stateTransition now .renewing else cli

/-- `dhclient_run_RENEWING`. -/
def runRenewing : Dhclient := cli.awaitAck now inp cli.renewingTimeout .rebinding

/-- `dhclient_run_REBINDING`. -/
def runRebinding : Dhclient := cli.awaitAck now inp cli.rebindingTimeout .init

/-- `dhclient_run_RELEASED`. -/
def runReleased : Dhclient := cli

/-- A turn of the loop of `dhclient_run`. -/
def turn : Dhclient :=
  match cli.state with
  | .init => cli.runInit now inp
  | .initReboot => cli.runInitReboot now inp
  | .rebooting => cli.runRebooting now inp
  | .selecting => cli.runSelecting now inp
  | .requesting => cli.runRequesting now inp
  | .bound => cli.runBound now
  | .renewing => cli.runRenewing now inp
  | .rebinding => cli.runRebinding now inp
  | .released => cli.runReleased

/-- `dhclient_run`, with what its turns meet. It ends with a turn that stays in its state. -/
def run (cli : Dhclient) : List DhclientInput → Option Dhclient
  | [] => none
  | inp :: inps =>
      if (cli.turn now inp).state = cli.state then some (cli.turn now inp)
      else (cli.turn now inp).run inps

end Dhclient

end OfAgent
