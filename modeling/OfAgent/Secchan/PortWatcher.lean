import OfAgent.Control.ReadOnly

/-!
# Port modifications

`port-watcher.c` of the secure channel keeps a copy of the ports of the datapath, and applies the
port modifications to it that go to the datapath.

* `PortWatcher`: the ports, and the calls that the watcher has made. The monitor of network devices
  is no part of this.
* `PortWatcher.localPacketCb`, `PortWatcher.remotePacketCb`: the callbacks for messages.
* `portMod_iff`: neither the datapath nor the watcher looks whether the port of a modification
  exists; exactly when it does the modification is as it should be.
-/

namespace OfAgent

open Monitored

/-! ### Ports -/

/-- `OFPPR_ADD`. -/
def ofpprAdd : BitVec 8 := 0

/-- `OFPPR_DELETE`. -/
def ofpprDelete : BitVec 8 := 1

/-- `OFPPR_MODIFY`. -/
def ofpprModify : BitVec 8 := 2

/-- `OFPPS_STP_MASK`. -/
def ofppsStpMask : BitVec 32 := 3 <<< 8

/-- `struct ofp_phy_port`, with all its fields. -/
structure OfpPhyPortDesc extends OfpPhyPort where
  /-- `hw_addr`. -/
  hwAddr : BitVec 48
  /-- `name`. -/
  name : List Byte
  /-- Current features. -/
  curr : BitVec 32
  /-- Features being advertised by the port. -/
  advertised : BitVec 32
  /-- Features supported by the port. -/
  supported : BitVec 32
  /-- Features advertised by peer. -/
  peer : BitVec 32
  deriving DecidableEq, Repr

/-- `struct ofp_phy_port` at an offset. -/
def OfpPhyPortDesc.ofMemory (m : Memory) (off : ℕ) : OfpPhyPortDesc where
  portNo := m.get16 off
  hwAddr := m.get48 (off + 2)
  name := m.slice (off + 8) 16
  config := m.get32 (off + 24)
  state := m.get32 (off + 28)
  curr := m.get32 (off + 32)
  advertised := m.get32 (off + 36)
  supported := m.get32 (off + 40)
  peer := m.get32 (off + 44)

/-- `sanitize_opp`. -/
def sanitizeOpp (opp : OfpPhyPortDesc) : OfpPhyPortDesc :=
  let printable := opp.name.map fun c => if c ≠ 0 ∧ (c < 0x20 ∨ 0x7e < c) then 0x2e else c
  { opp with name := printable.set (opp.name.length - 1) 0 }

/-! ### The watcher -/

/-- A call of another module, or of the operating system. -/
inductive PortWatcherCall
  /-- The callbacks for changes of ports. -/
  | portChanged (portNo : BitVec 16) (old new : Option OfpPhyPortDesc)
  /-- The callbacks for the local port, if there is one. -/
  | localPortChanged (port : Option OfpPhyPortDesc)
  /-- `bring_netdev_up_or_down`. -/
  | bringNetdev (name : List Byte) (down : Bool)

/-- `struct port_watcher`, as far as it is about ports. -/
structure PortWatcher where
  /-- `ports`: the port with a number, if it is known. -/
  ports : BitVec 16 → Option OfpPhyPortDesc
  /-- The calls that have been made: a history that the source does not keep. -/
  calls : List PortWatcherCall
  /-- A port is an element of the array at its number. -/
  portNo_eq : ∀ n opp, ports n = some opp → opp.portNo = n

namespace PortWatcher

/-- `port_watcher_start`. -/
def start : PortWatcher where
  ports := fun _ => none
  calls := []
  portNo_eq := fun _ _ h => by cases h

/-- A call. -/
def call (c : PortWatcherCall) (pw : PortWatcher) : PortWatcher :=
  { pw with calls := pw.calls ++ [c] }

/-- `port_array_set`. -/
def setPort (n : BitVec 16) (opp : Option OfpPhyPortDesc) (h : ∀ p, opp = some p → p.portNo = n)
    (pw : PortWatcher) : PortWatcher where
  ports := Function.update pw.ports n opp
  calls := pw.calls
  portNo_eq := by
    intro m p hp
    by_cases heq : m = n
    · rw [heq, Function.update_self] at hp
      exact (h p hp).trans heq.symm
    · rw [Function.update_of_ne heq] at hp
      exact pw.portNo_eq m p hp

/-- `call_local_port_changed_callbacks`. -/
def callLocalPortChangedCallbacks (pw : PortWatcher) : PortWatcher :=
  pw.call (.localPortChanged (pw.ports ofppLocal))

theorem ports_callLocal (pw : PortWatcher) :
    pw.callLocalPortChangedCallbacks.ports = pw.ports := rfl

/-- What a change of a port leaves of it: a state of the spanning tree is kept. -/
def keepStpState (old : Option OfpPhyPortDesc) (opp : OfpPhyPortDesc) : OfpPhyPortDesc :=
  match old with
  | none => opp
  | some old =>
      { opp with state := (opp.state &&& ~~~ofppsStpMask) ||| (old.state &&& ofppsStpMask) }

theorem portNo_keepStpState (old : Option OfpPhyPortDesc) (opp : OfpPhyPortDesc) :
    (keepStpState old opp).portNo = opp.portNo := by
  cases old <;> rfl

/-- `update_phy_port`. -/
def updatePhyPort (opp : OfpPhyPortDesc) (reason : BitVec 8) (pw : PortWatcher) : PortWatcher :=
  let portNo := opp.portNo
  let old := pw.ports portNo
  if reason = ofpprDelete ∧ old ≠ none then
    (pw.call (.portChanged portNo old none)).setPort portNo none fun _ h => by cases h
  else if reason = ofpprModify ∨ reason = ofpprAdd then
    let opp := keepStpState old opp
    if old ≠ some opp then
      let new := sanitizeOpp opp
      (pw.call (.portChanged portNo old (some new))).setPort portNo (some new) fun p h => by
        cases h
        exact portNo_keepStpState old _
    else pw
  else pw

/-- The ports in a description of the datapath. -/
def featuresPorts (msg : OfpMessage) : List OfpPhyPortDesc :=
  (List.range ((msg.length - sizeofOfpSwitchFeatures) / sizeofOfpPhyPort)).map fun i =>
    .ofMemory msg.mem (sizeofOfpSwitchFeatures + sizeofOfpPhyPort * i)

/-- The indices of `struct port_array`, in the order of `port_array_next`. -/
def portNumbers : List (BitVec 16) := (List.range (2 ^ 16)).map (BitVec.ofNat 16)

/-- One turn of the loop over all ports: the port is deleted, if it has not been seen. -/
def deleteUnseen (seen : List (BitVec 16)) (pw : PortWatcher) (n : BitVec 16) : PortWatcher :=
  match pw.ports n with
  | none => pw
  | some p => if n ∈ seen then pw else pw.updatePhyPort p ofpprDelete

/-- What is done about a description of the datapath, with a loop over ports of the given
numbers. -/
def updatePorts (listed : List OfpPhyPortDesc) (numbers : List (BitVec 16)) (pw : PortWatcher) :
    PortWatcher :=
  -- update each port included in the message
  let pw := listed.foldl (fun pw opp => pw.updatePhyPort opp ofpprModify) pw
  -- delete all the ports not included in the message
  let pw := numbers.foldl (deleteUnseen (listed.map fun opp => opp.portNo)) pw
  pw.callLocalPortChangedCallbacks

/-- `sizeof(struct ofp_port_status)`. -/
def sizeofOfpPortStatus : ℕ := 64

/-- `port_watcher_local_packet_cb`. -/
def localPacketCb (msg : OfpMessage) (pw : PortWatcher) : PortWatcher :=
  if msg.type = some .featuresReply ∧ sizeofOfpSwitchFeatures ≤ msg.length then
    pw.updatePorts (featuresPorts msg) portNumbers
  else if msg.type = some .portStatus ∧ sizeofOfpPortStatus ≤ msg.length then
    let desc := OfpPhyPortDesc.ofMemory msg.mem 16
    let pw := pw.updatePhyPort desc (msg.mem 8)
    if desc.portNo = ofppLocal then pw.callLocalPortChangedCallbacks else pw
  else pw

/-- `sizeof(struct ofp_port_mod)`. -/
def sizeofOfpPortMod : ℕ := 32

/-- A number in which the bits of a mask are those of another number. -/
def withMasked (config value mask : BitVec 32) : BitVec 32 :=
  (config &&& ~~~mask) ||| (value &&& mask)

/-- `port_watcher_remote_packet_cb`. -/
def remotePacketCb (msg : OfpMessage) (pw : PortWatcher) : Except ControlFault PortWatcher :=
  if msg.type = some .portMod ∧ sizeofOfpPortMod ≤ msg.length then
    let portNo := msg.mem.get16 8
    let config := msg.mem.get32 16
    let mask := msg.mem.get32 20
    match hold : pw.ports portNo with
    | none => .error .nullPointer
    | some old =>
        if old.portNo ≠ ofppNone then
          let opp := { old with config := withMasked old.config config mask }
          let pw := (pw.setPort portNo (some opp) fun p h => by
            cases h
            exact pw.portNo_eq portNo old hold).call (.portChanged portNo (some old) (some opp))
          let pw := if opp.portNo = ofppLocal then pw.callLocalPortChangedCallbacks else pw
          .ok (if mask &&& ofppcPortDown ≠ 0 then
            pw.call (.bringNetdev opp.name (config &&& ofppcPortDown != 0))
          else pw)
        else .ok pw
  else .ok pw

end PortWatcher

/-! ### Port modifications -/

namespace OfpMessage

variable (msg : OfpMessage)

/-- `port_no` of a port modification. -/
def portModPortNo : BitVec 16 := msg.mem.get16 8

/-- Its `config`. -/
def portModConfig : BitVec 32 := msg.mem.get32 16

/-- Its `mask`. -/
def portModMask : BitVec 32 := msg.mem.get32 20

end OfpMessage

/-- At most the bits of a mask are different. -/
def DifferWithin (mask config config' : BitVec 32) : Prop :=
  config' &&& ~~~mask = config &&& ~~~mask

/-- The bits outside of the mask are kept. -/
theorem differWithin_withMasked (mask config value : BitVec 32) :
    DifferWithin mask config (PortWatcher.withMasked config value mask) := by
  unfold DifferWithin PortWatcher.withMasked
  rw [BitVec.and_or_distrib_right, BitVec.and_assoc, BitVec.and_self, BitVec.and_assoc value,
    BitVec.and_not_self]
  simp

/-- The datapath handles a port modification without following a null pointer, and it changes at
most the bits of the mask of the port in use with the number. -/
def Control.ModifiesOnly (env : Surroundings) (remote : Remote) (msg : OfpMessage) (ctl : Control) :
    Prop :=
  ∃ code ctl', (receive env remote msg ctl).2 = .ok (code, ctl') ∧
    match portInUse ctl.toSwitch msg.portModPortNo with
    | none => ctl' = ctl
    | some p => ∃ config, DifferWithin msg.portModMask p.config config ∧
        ctl' = { ctl with
          toSwitch := ctl.toSwitch.modifyPort msg.portModPortNo fun p => { p with config } }

/-- The watcher handles it without following a null pointer, and it changes at most the bits of the
mask of the known port with the number. -/
def PortWatcher.ModifiesOnly (msg : OfpMessage) (pw : PortWatcher) : Prop :=
  ∃ pw', pw.remotePacketCb msg = .ok pw' ∧
    match pw.ports msg.portModPortNo with
    | none => pw' = pw
    | some opp => ∃ config, DifferWithin msg.portModMask opp.config config ∧
        pw'.ports = Function.update pw.ports msg.portModPortNo
          (some { opp with config := config })

section PortMod

variable {env : Surroundings} {remote : Remote} {msg : OfpMessage} {ctl : Control}
    {pw : PortWatcher}

/-- A computation without a failure, and its result. -/
theorem meets_total_iff {α : Type} {x : ControlM α} {Q : α → Control → Prop} :
    (∃ a ctl', (x ctl).2 = .ok (a, ctl') ∧ Q a ctl') ↔
      Meets x ⟨fun _ => True, fun _ => False⟩ Q ctl := by
  refine ⟨fun ⟨a, ctl', hx, hQ⟩ => ⟨fun _ _ => trivial, ?_⟩, Meets.exists_ok⟩
  rw [hx]
  exact hQ

/-- Only what is done to the port itself matters. -/
theorem Switch.modifyPort_congr {sw : Switch} {n : BitVec 16} {f g : SwPort → SwPort}
    (h : ∀ p, sw.dpLookupPort n = some p → f p = g p) : sw.modifyPort n f = sw.modifyPort n g := by
  unfold modifyPort
  unfold dpLookupPort at h
  split
  next hreal =>
    rw [dif_pos hreal] at h
    rw [h _ rfl]
  next hreal =>
    rw [dif_neg hreal] at h
    split
    next hlocal =>
      rw [if_pos hlocal] at h
      rw [Option.map_congr h]
    next => rfl

/-- A change of a port that is none. -/
theorem Switch.modifyPort_self {sw : Switch} {n : BitVec 16} {f : SwPort → SwPort}
    (h : ∀ p, sw.dpLookupPort n = some p → f p = p) : sw.modifyPort n f = sw := by
  rw [modifyPort_congr (g := id) h]
  unfold modifyPort
  split
  next => rw [id_eq, Function.update_eq_self]
  next =>
    split
    next => rw [Option.map_id_fun, id_eq]
    next => rfl

variable (env remote ctl) in
/-- What the datapath does with a message that is long enough. -/
theorem meets_portMod_iff {c : Contract Access ControlFault} (hseen : ∀ o, c.seen o)
    {Q : ℤ → Control → Prop} (hversion : msg.version = ofpVersion)
    (htype : msg.type = some .portMod) (hlen : 32 ≤ msg.length) :
    Meets (receive env remote msg) c Q ctl ↔
      if msg.portModMask = 0 then Q 0 ctl
      else match ctl.dpLookupPort msg.portModPortNo with
        | none => c.failed .nullPointer
        | some _ => Q 0 { ctl with
            toSwitch := ctl.toSwitch.modifyPort msg.portModPortNo fun p => { p with
              config := PortWatcher.withMasked p.config msg.portModConfig msg.portModMask } } := by
  rw [meets_receive_of_handler (fun _ _ _ => hseen _) hversion htype rfl hlen]
  simp only [recvPortMod, meets_bind, meets_read16, meets_get, meets_read32, hseen, true_and]
  change Meets (if msg.portModMask = 0 then _ else _) c Q ctl ↔ _
  split
  next => exact meets_pure 0
  next =>
    change Meets (match ctl.dpLookupPort msg.portModPortNo with | none => _ | some _ => _) c Q ctl ↔
      _
    cases ctl.dpLookupPort msg.portModPortNo with
    | none => exact meets_fail _
    | some p =>
      simp only [meets_bind, meets_read32, meets_modify, meets_pure, hseen, true_and]
      exact Iff.rfl

/-- A message that is too short changes nothing. -/
theorem receive_portMod_short (hversion : msg.version = ofpVersion)
    (htype : msg.type = some .portMod) (hlen : msg.length < 32) :
    ∃ code, (receive env remote msg ctl).2 = .ok (code, ctl) := by
  have hmeets : Meets (receive env remote msg) ⟨fun _ => True, fun _ => False⟩
      (fun _ ctl' => ctl' = ctl) ctl :=
    meets_receive_of_type (fun _ => trivial) (fun hne => absurd hversion hne) htype rfl
      (fun _ => rfl) fun hle => absurd hlen (Nat.not_lt.2 hle)
  obtain ⟨code, ctl', hok, heq⟩ := hmeets.exists_ok
  exact ⟨code, heq ▸ hok⟩

/-- What remains as it is has been modified only within the mask. -/
theorem modifiesOnly_of_unchanged
    (h : ∃ code, (receive env remote msg ctl).2 = .ok (code, ctl)) :
    ctl.ModifiesOnly env remote msg := by
  obtain ⟨code, hok⟩ := h
  refine ⟨code, ctl, hok, ?_⟩
  cases hport : portInUse ctl.toSwitch msg.portModPortNo with
  | none => rfl
  | some p =>
    refine ⟨p.config, rfl, ?_⟩
    have hlookup : ctl.dpLookupPort msg.portModPortNo = some p :=
      (Option.filter_eq_some_iff.1 hport).1
    rw [Switch.modifyPort_self fun p' hp' => ?_]
    rw [hlookup] at hp'
    cases hp'
    rfl

/-- The port modifications that the datapath handles as it should. -/
theorem Control.modifiesOnly_iff (hversion : msg.version = ofpVersion)
    (htype : msg.type = some .portMod) :
    ctl.ModifiesOnly env remote msg ↔
      msg.length < 32 ∨ msg.portModMask = 0 ∨
        ∃ p, ctl.dpLookupPort msg.portModPortNo = some p ∧ (p.used = true ∨
          PortWatcher.withMasked p.config msg.portModConfig msg.portModMask = p.config) := by
  by_cases hlen : msg.length < 32
  · exact ⟨fun _ => .inl hlen,
      fun _ => modifiesOnly_of_unchanged (receive_portMod_short hversion htype hlen)⟩
  rw [or_iff_right hlen]
  have hmeets := fun Q => meets_portMod_iff env remote ctl (c := ⟨fun _ => True, fun _ => False⟩)
    (Q := Q) (fun _ => trivial) hversion htype (Nat.not_lt.1 hlen)
  by_cases hmask : msg.portModMask = 0
  · refine ⟨fun _ => .inl hmask, fun _ => modifiesOnly_of_unchanged ?_⟩
    have hsame := (hmeets fun _ ctl' => ctl' = ctl).2 (by rw [if_pos hmask])
    obtain ⟨code, ctl', hok, heq⟩ := hsame.exists_ok
    exact ⟨code, heq ▸ hok⟩
  rw [or_iff_right hmask]
  unfold Control.ModifiesOnly
  rw [meets_total_iff, hmeets, if_neg hmask]
  cases hlookup : ctl.dpLookupPort msg.portModPortNo with
  | none =>
    refine ⟨False.elim, fun ⟨p, hp, _⟩ => by cases hp⟩
  | some p =>
    simp only [Option.some.injEq, exists_eq_left']
    cases hused : p.used with
    | true =>
      have hport : portInUse ctl.toSwitch msg.portModPortNo = some p :=
        Option.filter_eq_some_iff.2 ⟨hlookup, hused⟩
      rw [hport]
      refine ⟨fun _ => .inl rfl, fun _ => ⟨_, differWithin_withMasked _ _ msg.portModConfig, ?_⟩⟩
      rw [Switch.modifyPort_congr fun p' hp' => ?_]
      rw [hlookup] at hp'
      cases hp'
      rfl
    | false =>
      -- a port that is not in use keeps its configuration
      have hport : portInUse ctl.toSwitch msg.portModPortNo = none := by
        rw [portInUse, hlookup, Option.filter_some, hused, if_neg Bool.false_ne_true]
      rw [hport]
      simp only [Bool.false_eq_true, false_or]
      constructor
      · intro heq
        have hconfig := congrArg (fun c : Control => c.toSwitch.portConfig msg.portModPortNo) heq
        simp only [Switch.portConfig, Switch.dpLookupPort_modifyPort, if_true] at hconfig
        rw [hlookup] at hconfig
        exact Option.some.inj hconfig
      · intro hconfig
        rw [Switch.modifyPort_self fun p' hp' => ?_]
        rw [hlookup] at hp'
        cases hp'
        rw [hconfig]

theorem PortWatcher.ports_call (c : PortWatcherCall) (pw : PortWatcher) :
    (pw.call c).ports = pw.ports :=
  rfl

/-- What the watcher does to a port that it knows. -/
theorem PortWatcher.ports_remotePacketCb {opp : OfpPhyPortDesc}
    (hport : pw.ports msg.portModPortNo = some opp) :
    ∃ pw' config, pw.remotePacketCb msg = .ok pw' ∧
      DifferWithin msg.portModMask opp.config config ∧
      pw'.ports =
        Function.update pw.ports msg.portModPortNo (some { opp with config := config }) := by
  have hsame : pw.ports = Function.update pw.ports msg.portModPortNo (some opp) :=
    (Function.update_eq_self_iff.2 hport.symm).symm
  unfold remotePacketCb
  split
  next hlong =>
    dsimp only
    split
    next hnone => exact absurd (hport.symm.trans hnone) (Option.some_ne_none opp)
    next old hold =>
      obtain rfl : opp = old := Option.some.inj (hport.symm.trans hold)
      split
      next =>
        refine ⟨_, withMasked opp.config msg.portModConfig msg.portModMask, rfl,
          differWithin_withMasked _ _ _, ?_⟩
        simp only [apply_ite PortWatcher.ports, ports_call, ports_callLocal, ite_self]
        rfl
      next => exact ⟨pw, opp.config, rfl, rfl, hsame⟩
  next => exact ⟨pw, opp.config, rfl, rfl, hsame⟩

/-- The port modifications that the watcher handles as it should. -/
theorem PortWatcher.modifiesOnly_iff (htype : msg.type = some .portMod) :
    pw.ModifiesOnly msg ↔ msg.length < 32 ∨ pw.ports msg.portModPortNo ≠ none := by
  unfold ModifiesOnly
  cases hport : pw.ports msg.portModPortNo with
  | some opp =>
    obtain ⟨pw', config, hok, hconfig, hports⟩ := ports_remotePacketCb hport
    exact ⟨fun _ => .inr (Option.some_ne_none opp), fun _ => ⟨pw', hok, config, hconfig, hports⟩⟩
  | none =>
    simp only [ne_eq, not_true_eq_false, or_false, exists_eq_right]
    unfold remotePacketCb
    split
    next hlong =>
      dsimp only
      split
      next => exact ⟨fun h => (by cases h), fun hlt => absurd hlong.2 (Nat.not_le.2 hlt)⟩
      next old hold => exact absurd (hold.symm.trans hport) (Option.some_ne_none old)
    next hshort =>
      refine ⟨fun _ => Nat.lt_of_not_le fun hle => hshort ⟨htype, hle⟩, fun _ => rfl⟩

/-- A port modification is handled by the datapath as it should be exactly if it is too short or has
an empty mask, or the slot of its port is there, and is in use or does not change; by the watcher
exactly if it is too short or its port is known. -/
theorem portMod_iff (env : Surroundings) (remote : Remote) (ctl : Control) (pw : PortWatcher)
    (hversion : msg.version = ofpVersion) (htype : msg.type = some .portMod) :
    (ctl.ModifiesOnly env remote msg ↔
      msg.length < 32 ∨ msg.portModMask = 0 ∨
        ∃ p, ctl.dpLookupPort msg.portModPortNo = some p ∧ (p.used = true ∨
          PortWatcher.withMasked p.config msg.portModConfig msg.portModMask = p.config)) ∧
    (pw.ModifiesOnly msg ↔ msg.length < 32 ∨ pw.ports msg.portModPortNo ≠ none) :=
  ⟨Control.modifiesOnly_iff hversion htype, PortWatcher.modifiesOnly_iff htype⟩

end PortMod

/-- A description of port 1. -/
def portOneDesc : OfpPhyPortDesc where
  portNo := 1
  config := 0
  state := 0
  hwAddr := 2
  name := List.replicate 16 0
  curr := 0
  advertised := 0
  supported := 0
  peer := 0

/-- Port 1 is there, and the watcher knows it. -/
theorem portMod_iff_down :
    Control.oneControl.ModifiesOnly .calm 0 Control.downMessage ∧
      (PortWatcher.start.updatePhyPort portOneDesc ofpprAdd).ModifiesOnly Control.downMessage := by
  obtain ⟨hdatapath, hwatcher⟩ := @portMod_iff Control.downMessage .calm 0 Control.oneControl
    (PortWatcher.start.updatePhyPort portOneDesc ofpprAdd) (by decide) (by decide)
  refine ⟨hdatapath.2 (.inr (.inr ⟨_, rfl, .inl ?_⟩)), hwatcher.2 (.inr ?_)⟩
  · decide
  · decide

/-- A modification of `OFPP_ALL`, which is no port. -/
def allMessage : OfpMessage :=
  .ofBytes ([1, 15, 0, 32, 0, 0, 0, 0, 0xff, 0xfc] ++ List.replicate 6 0 ++
    [0, 0, 0, 1, 0, 0, 0, 1, 0, 0, 0, 0, 0, 0, 0, 0]) (by decide)

/-- Both follow a null pointer when the port does not exist. -/
theorem not_portMod :
    (¬ ∀ (env : Surroundings) (remote : Remote) (msg : OfpMessage) (ctl : Control),
      msg.version = ofpVersion → msg.type = some .portMod → ctl.ModifiesOnly env remote msg) ∧
    ¬ ∀ (msg : OfpMessage) (pw : PortWatcher), msg.type = some .portMod → pw.ModifiesOnly msg := by
  constructor
  · intro hall
    have hright := hall .calm 0 allMessage Control.oneControl (by decide) (by decide)
    obtain hshort | hmask | ⟨p, hp, -⟩ :=
      (Control.modifiesOnly_iff (by decide) (by decide)).1 hright
    · exact absurd hshort (by decide)
    · exact absurd hmask (by decide)
    · cases hp
  · intro hall
    have hright := hall allMessage .start (by decide)
    obtain hshort | hknown := (PortWatcher.modifiesOnly_iff (by decide)).1 hright
    · exact absurd hshort (by decide)
    · exact hknown rfl

end OfAgent
