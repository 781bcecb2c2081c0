import OfAgent.Forward.Headroom
import OfAgent.Forward.Nested

/-!
# Receiving packets

The loop of `dp_run` over the ports, which polls the network device of every port and hands the
packets to the tables. Two C locals are read before they are set: `netdev` in `new_port`, when the
port is the local one, and `error` in `dp_run`, when the port has no network device.

* `newPort`: what `new_port` makes of a port.
* `Pass`: what a pass has done so far; `Pass.turn`, `Pass.run`: a turn of the loop, and the loop.
* `Pass.Right`: the pass has handed over exactly what it has received, and has used opened devices
  only.
* `right_iff`: a pass is right exactly when every port has an opened device, or none while `error`
  is not zero by chance.
-/

namespace OfAgent

/-! ### The loop -/

theorem toNat_ofNat_lt (portNo : Fin dpMaxPorts) : (BitVec.ofNat 16 portNo).toNat < dpMaxPorts := by
  have hlt := portNo.isLt
  have hmod : (portNo : ℕ) % 2 ^ 16 = portNo := Nat.mod_eq_of_lt (Nat.lt_trans hlt (by decide))
  rw [BitVec.toNat_ofNat, hmod]
  exact hlt

/-- `new_port`, when its uninitialised `netdev` holds a pointer that is not null (`garbage`) or the
null pointer. -/
def newPort (garbage : Bool) (portNo : BitVec 16) (numQueues : Fin (netdevMaxQueues + 1))
    (real : portNo.toNat < dpMaxPorts ∨ portNo = ofppLocal) : SwPort where
  config := 0
  state := 0
  used := true
  portNo := portNo
  netdev := portNo == ofppLocal && garbage
  numQueues := numQueues
  queueList := []
  real := real
  numQueues_le := Nat.le_of_lt_succ numQueues.isLt
  classIds_nodup := SwPort.nodup_nil
  classId_lt := fun _ hq => by cases hq

/-- `ETH_TOTAL_MIN`. -/
def ethTotalMin : ℕ := 60

/-- What `netdev_recv` leaves behind of the bytes that it has read. -/
def padToMinimumLength (packet : List Byte) : List Byte :=
  packet ++ List.replicate (ethTotalMin - packet.length) 0

/-- The buffer with more bytes at its end. -/
def Ofpbuf.putTail (b : Ofpbuf) (bs : List Byte) : Ofpbuf :=
  { b with mem := b.mem.put (b.data + b.size) bs, size := b.size + bs.length }

/-- What the source leaves open in a pass. -/
structure PassEnv where
  /-- The value of `error` at the beginning of the port's turn. -/
  error : BitVec 16 → ℤ
  /-- What can be read from the port's device. Without anything, `netdev_recv` returns a positive
  error number. -/
  read : BitVec 16 → Option (List Byte)

/-- What `netdev_recv` returns in the turn of a port: a packet, or an error number. -/
def PassEnv.recv (env : PassEnv) (portNo : BitVec 16) : Option (List Byte) :=
  (env.read portNo).map padToMinimumLength

/-- A pass through the loop over the ports. -/
structure Pass where
  /-- The switch. -/
  sw : Switch
  /-- `buffer`. -/
  buffer : Option Ofpbuf
  /-- The calls of `netdev_recv` so far: a history that the source does not keep. -/
  calls : List (BitVec 16 × Option (List Byte))
  /-- The packets that have been handed to the tables, with their ports: a history as well. -/
  injected : List (BitVec 16 × List Byte)

namespace Pass

/-- The beginning of the loop. -/
def start (sw : Switch) : Pass := ⟨sw, none, [], []⟩

/-- The branch without an error: the packet goes to `fwd_port_input`, which takes the buffer
over. -/
def inject (now : BitVec 64) (fuel : ℕ) (buffer : Ofpbuf) (p : SwPort) (s : Pass) :
    Except ForwardFault Pass :=
  (s.sw.fwdPortInput now fuel buffer p).map fun sw =>
    { s with sw, buffer := none, injected := s.injected ++ [(p.portNo, buffer.bytes)] }

/-- One turn of the loop. -/
def turn (env : PassEnv) (now : BitVec 64) (fuel : ℕ) (s : Pass) (portNo : BitVec 16) :
    Except ForwardFault Pass :=
  match s.sw.dpLookupPort portNo with
  | none => .ok s
  | some p =>
      let buffer := s.buffer.getD (received [])
      if p.netdev then
        let s := { s with
          buffer := some buffer, calls := s.calls ++ [(p.portNo, env.recv p.portNo)] }
        match env.recv p.portNo with
        | some packet => s.inject now fuel (buffer.putTail packet) p
        | none => .ok s
      else if env.error p.portNo = 0 then s.inject now fuel buffer p
      else .ok { s with buffer := some buffer }

/-- The loop over `port_list`. -/
def run (env : PassEnv) (now : BitVec 64) (fuel : ℕ) (sw : Switch) : Except ForwardFault Pass :=
  sw.portList.foldlM (turn env now fuel) (start sw)

end Pass

/-! ### What a pass should do -/

/-- Every device belongs to a port of `port_list`, and the ports of the list have their numbers. -/
structure Switch.PortsListed (sw : Switch) : Prop where
  /-- The ports of the list. -/
  listed : ∀ n ∈ sw.portList, ∃ p, sw.dpLookupPort n = some p ∧ p.portNo = n
  /-- The ports with a device. -/
  device : ∀ n p, sw.dpLookupPort n = some p → p.netdev = true → n ∈ sw.portList

/-- A port of the list is found under its number. -/
theorem Switch.PortsListed.lookup_of_listed {sw : Switch} (h : sw.PortsListed) {p : SwPort}
    (hp : p ∈ sw.listedPorts) : sw.dpLookupPort p.portNo = some p := by
  obtain ⟨n, hn, hlookup⟩ := List.mem_filterMap.1 hp
  obtain ⟨q, hq, hno⟩ := h.listed n hn
  rw [hlookup, Option.some.injEq] at hq
  rw [hq, hno, hlookup, hq]

/-- `dp_add_port`, for a port that is not in the list. -/
def Switch.dpAddPort (garbage : Bool) (portNo : Fin dpMaxPorts)
    (numQueues : Fin (netdevMaxQueues + 1)) (sw : Switch)
    (h : BitVec.ofNat 16 portNo ∉ sw.portList) : Switch :=
  { sw with
    ports := Function.update sw.ports portNo
      (newPort garbage (BitVec.ofNat 16 portNo) numQueues (.inl (toNat_ofNat_lt portNo)))
    portList := sw.portList ++ [BitVec.ofNat 16 portNo]
    portList_nodup := List.nodup_append_comm.1 (List.nodup_cons.2 ⟨h, sw.portList_nodup⟩) }

/-- `dp_add_local_port`, for a datapath without a local port. -/
def Switch.dpAddLocalPort (garbage : Bool) (numQueues : Fin (netdevMaxQueues + 1)) (sw : Switch)
    (h : ofppLocal ∉ sw.portList) : Switch :=
  { sw with
    localPort := some (newPort garbage ofppLocal numQueues (.inr rfl))
    portList := sw.portList ++ [ofppLocal]
    portList_nodup := List.nodup_append_comm.1 (List.nodup_cons.2 ⟨h, sw.portList_nodup⟩) }

/-- The pass has done what it is for, when `opened` are the ports whose pointers come from a
successful open. -/
structure Pass.Right (opened : BitVec 16 → Bool) (sw : Switch) (s : Pass) : Prop where
  /-- The packets handed to the tables are those that `netdev_recv` has returned, in order. -/
  injected : s.injected = s.calls.filterMap fun c => c.2.map fun packet => (c.1, packet)
  /-- `netdev_recv` is called on opened devices. -/
  recv : ∀ c ∈ s.calls, opened c.1 = true
  /-- So is `netdev_send`. -/
  send : ∀ portNo classId packet,
    Emission.transmit portNo classId packet ∈ s.sw.sent.drop sw.sent.length →
      opened portNo = true

/-- The port has an opened device, or none while `error` is not zero. -/
def PassEnv.Ready (env : PassEnv) (opened : BitVec 16 → Bool) (p : SwPort) : Prop :=
  if p.netdev then opened p.portNo = true else env.error p.portNo ≠ 0

namespace Switch

variable {sw : Switch} {garbage : Bool} {numQueues : Fin (netdevMaxQueues + 1)}

section Added

variable {portNo : Fin dpMaxPorts} {hnew : BitVec.ofNat 16 portNo ∉ sw.portList}

/-- The port that has been added is found under its number, -/
theorem dpLookupPort_dpAddPort :
    (sw.dpAddPort garbage portNo numQueues hnew).dpLookupPort (BitVec.ofNat 16 portNo) =
      some (newPort garbage (BitVec.ofNat 16 portNo) numQueues (.inl (toNat_ofNat_lt portNo))) := by
  have hindex : (⟨(BitVec.ofNat 16 (portNo : ℕ)).toNat, toNat_ofNat_lt portNo⟩ : Fin dpMaxPorts) =
      portNo := by
    apply Fin.ext
    exact Nat.mod_eq_of_lt (Nat.lt_trans portNo.isLt (by decide))
  rw [dpLookupPort, dif_pos (toNat_ofNat_lt portNo), hindex]
  exact congrArg some (Function.update_self ..)

/-- and the others are found as before. -/
theorem dpLookupPort_dpAddPort_of_ne {n : BitVec 16} (hne : n ≠ BitVec.ofNat 16 portNo) :
    (sw.dpAddPort garbage portNo numQueues hnew).dpLookupPort n = sw.dpLookupPort n := by
  unfold dpLookupPort
  by_cases hn : n.toNat < dpMaxPorts
  · rw [dif_pos hn, dif_pos hn]
    refine congrArg some (Function.update_of_ne (fun heq => hne ?_) ..)
    rw [← heq, BitVec.ofNat_toNat, BitVec.setWidth_eq]
  · rw [dif_neg hn, dif_neg hn]
    rfl

theorem dpLookupPort_dpAddLocalPort_of_ne {hnew : ofppLocal ∉ sw.portList} {n : BitVec 16}
    (hne : n ≠ ofppLocal) :
    (sw.dpAddLocalPort garbage numQueues hnew).dpLookupPort n = sw.dpLookupPort n := by
  unfold dpLookupPort
  rw [if_neg hne, if_neg hne]
  rfl

end Added

namespace PortsListed

/-- A port that has been added under a number of its own is in the list. -/
theorem added {sw' : Switch} {m : BitVec 16} {q : SwPort} (h : sw.PortsListed)
    (hlist : sw'.portList = sw.portList ++ [m]) (hself : sw'.dpLookupPort m = some q)
    (hq : q.portNo = m) (hother : ∀ n, n ≠ m → sw'.dpLookupPort n = sw.dpLookupPort n) :
    sw'.PortsListed := by
  constructor
  · intro n hn
    by_cases hne : n = m
    · subst hne
      exact ⟨q, hself, hq⟩
    · rw [hlist] at hn
      rw [hother n hne]
      refine h.listed n ((List.mem_append.1 hn).resolve_right fun hmem => ?_)
      exact hne (List.mem_singleton.1 hmem)
  · intro n p hp hdevice
    rw [hlist]
    by_cases hne : n = m
    · exact List.mem_append_right _ (List.mem_singleton.2 hne)
    · rw [hother n hne] at hp
      exact List.mem_append_left _ (h.device n p hp hdevice)

theorem dpAddPort (h : sw.PortsListed) {portNo : Fin dpMaxPorts}
    (hnew : BitVec.ofNat 16 portNo ∉ sw.portList) :
    (sw.dpAddPort garbage portNo numQueues hnew).PortsListed :=
  h.added rfl dpLookupPort_dpAddPort rfl fun _ => dpLookupPort_dpAddPort_of_ne

theorem dpAddLocalPort (h : sw.PortsListed) (hnew : ofppLocal ∉ sw.portList) :
    (sw.dpAddLocalPort garbage numQueues hnew).PortsListed :=
  h.added rfl rfl rfl fun _ => dpLookupPort_dpAddLocalPort_of_ne

end PortsListed

end Switch

/-! ### What forwarding transmits on -/

/-- From `sw` to `sw'` packets have been transmitted on ports with a device only, and no route has
changed. -/
structure Switch.SentOnDevices (sw sw' : Switch) : Prop where
  /-- The routes, and with them the ports. -/
  routing : SameRouting sw sw'
  /-- The transmissions. -/
  sent : ∃ new, sw'.sent = sw.sent ++ new ∧ ∀ portNo classId packet,
    Emission.transmit portNo classId packet ∈ new →
      ∃ n p, sw.dpLookupPort n = some p ∧ p.netdev = true ∧ p.portNo = portNo

namespace Switch.SentOnDevices

variable {sw sw' sw'' : Switch}

theorem refl (sw : Switch) : SentOnDevices sw sw :=
  ⟨.refl sw, [], (List.append_nil _).symm, fun _ _ _ h => by cases h⟩

/-- One forwarding after another. -/
theorem trans (h : SentOnDevices sw sw') (h' : SentOnDevices sw' sw'') : SentOnDevices sw sw'' := by
  obtain ⟨new, heq, hnew⟩ := h.sent
  obtain ⟨new', heq', hnew'⟩ := h'.sent
  refine ⟨h.routing.trans h'.routing, new ++ new', by rw [heq', heq, List.append_assoc], ?_⟩
  intro portNo classId packet hmem
  rcases List.mem_append.1 hmem with hmem | hmem
  · exact hnew _ _ _ hmem
  · obtain ⟨n, p, hp, hdevice, hno⟩ := hnew' _ _ _ hmem
    exact ⟨n, p, (h.routing.dpLookupPort n).symm.trans hp, hdevice, hno⟩

/-- Forwarding transmits on ports with a device only. -/
theorem kept (sw : Switch) : KeptAt (SentOnDevices sw) fun _ _ => True where
  action _ _ := trivial
  ready _ _ := trivial
  clone _ _ := trivial
  transmit {w outPort p classId b} hP _ hp hdevice := by
    refine hP.trans ⟨⟨fun _ => rfl, rfl, rfl, rfl⟩, [_], rfl,
      fun portNo classId' packet hmem => ?_⟩
    rw [List.mem_singleton, Emission.transmit.injEq] at hmem
    exact ⟨outPort, p, hp, hdevice, hmem.1.symm⟩
  control {w w' now b inPort maxLen reason} hP _ hout := by
    refine hP.trans ⟨SameRouting.dpOutputControl hout, ?_⟩
    unfold Switch.dpOutputControl at hout
    simp only at hout
    split at hout
    next => cases hout
    next =>
      rw [← Except.ok.inj hout]
      refine ⟨[.packetIn _], rfl, fun portNo classId packet hmem => ?_⟩
      cases List.mem_singleton.1 hmem
  used hP _ := hP.trans ⟨SameRouting.flowUsed _ _ _, [], (List.append_nil _).symm,
    fun _ _ _ h => by cases h⟩

end Switch.SentOnDevices

/-! ### What a pass does -/

/-- The call of `netdev_recv` in the turn of a port. -/
def PassEnv.polled (env : PassEnv) (p : SwPort) : Option (BitVec 16 × Option (List Byte)) :=
  if p.netdev then some (p.portNo, env.recv p.portNo) else none

/-- The packet that the turn of a port hands to the tables. -/
def PassEnv.handed (env : PassEnv) (p : SwPort) : Option (BitVec 16 × List Byte) :=
  if p.netdev then (env.recv p.portNo).map fun packet => (p.portNo, packet)
  else if env.error p.portNo = 0 then some (p.portNo, [])
  else none

/-- Nothing is left in the buffer. -/
def Pass.Empty (s : Pass) : Prop := ∀ b, s.buffer = some b → b.size = 0

/-- The bytes that are read into an empty buffer. -/
theorem Ofpbuf.bytes_putTail {b : Ofpbuf} (h : b.size = 0) (bs : List Byte) :
    (b.putTail bs).bytes = bs := by
  apply List.ext_getElem
  · simp [Ofpbuf.bytes, Ofpbuf.putTail, h]
  · intro i h₁ h₂
    simp [Ofpbuf.bytes, Ofpbuf.putTail, h, Memory.slice, Memory.put, List.getD_eq_getElem?_getD, h₂]

theorem Ofpbuf.bytes_of_size_zero {b : Ofpbuf} (h : b.size = 0) : b.bytes = [] := by
  rw [Ofpbuf.bytes, h]
  rfl

namespace Pass

variable {env : PassEnv} {now : BitVec 64} {fuel : ℕ} {sw : Switch} {s s' : Pass}

/-- Handing a packet over. -/
theorem inject_eq_ok {buffer : Ofpbuf} {p : SwPort} (h : s.inject now fuel buffer p = .ok s') :
    (s.sw.SentOnDevices s'.sw ∧ s'.Empty) ∧ s'.calls = s.calls ∧
      s'.injected = s.injected ++ [(p.portNo, buffer.bytes)] := by
  unfold inject at h
  cases hrun : s.sw.fwdPortInput now fuel buffer p with
  | error e => simp [hrun, Except.map] at h
  | ok w =>
    rw [hrun] at h
    rw [← Except.ok.inj h]
    have hsent := (Switch.SentOnDevices.kept s.sw).fwdPortInput (.refl s.sw) (fun _ => trivial) hrun
    exact ⟨⟨hsent, fun b hb => by cases hb⟩, rfl, rfl⟩

/-- One turn of the loop, for a port that is there. -/
theorem turn_eq_ok {n : BitVec 16} {p : SwPort} (hsent : sw.SentOnDevices s.sw) (hempty : s.Empty)
    (hp : sw.dpLookupPort n = some p) (h : s.turn env now fuel n = .ok s') :
    (sw.SentOnDevices s'.sw ∧ s'.Empty) ∧ s'.calls = s.calls ++ (env.polled p).toList ∧
      s'.injected = s.injected ++ (env.handed p).toList := by
  -- the buffer that is left from the port before is empty
  have hbuffer : (s.buffer.getD (received [])).size = 0 := by
    cases hb : s.buffer with
    | none => rfl
    | some b => exact hempty b hb
  unfold turn at h
  rw [hsent.routing.dpLookupPort, hp] at h
  simp only at h
  split at h
  next hdevice =>
    have hpolled : env.polled p = some (p.portNo, env.recv p.portNo) := if_pos hdevice
    have hhanded : env.handed p = (env.recv p.portNo).map fun packet => (p.portNo, packet) :=
      if_pos hdevice
    rw [hpolled, hhanded]
    split at h
    next packet hrecv =>
      obtain ⟨⟨hsent', hempty'⟩, hcalls, hinjected⟩ := inject_eq_ok h
      refine ⟨⟨hsent.trans hsent', hempty'⟩, hcalls, ?_⟩
      rw [hinjected, hrecv, Ofpbuf.bytes_putTail hbuffer]
      rfl
    next hrecv =>
      rw [← Except.ok.inj h, hrecv]
      exact ⟨⟨hsent, fun b hb => Option.some.inj hb ▸ hbuffer⟩, rfl, (List.append_nil _).symm⟩
  next hdevice =>
    have hpolled : env.polled p = none := if_neg hdevice
    rw [hpolled]
    split at h
    next herror =>
      -- without a device the error of the driver passes for a packet
      have hhanded : env.handed p = some (p.portNo, []) := by
        rw [PassEnv.handed, if_neg hdevice, if_pos herror]
      obtain ⟨⟨hsent', hempty'⟩, hcalls, hinjected⟩ := inject_eq_ok h
      refine ⟨⟨hsent.trans hsent', hempty'⟩, hcalls.trans (List.append_nil _).symm, ?_⟩
      rw [hinjected, hhanded, Ofpbuf.bytes_of_size_zero hbuffer]
      rfl
    next herror =>
      have hhanded : env.handed p = none := by
        rw [PassEnv.handed, if_neg hdevice, if_neg herror]
      rw [← Except.ok.inj h, hhanded]
      exact ⟨⟨hsent, fun b hb => Option.some.inj hb ▸ hbuffer⟩, (List.append_nil _).symm,
        (List.append_nil _).symm⟩

/-- The rest of the loop. -/
theorem foldlM_eq_ok {ns : List (BitVec 16)} (hsent : sw.SentOnDevices s.sw) (hempty : s.Empty)
    (hns : ∀ n ∈ ns, ∃ p, sw.dpLookupPort n = some p ∧ p.portNo = n)
    (h : ns.foldlM (turn env now fuel) s = .ok s') :
    sw.SentOnDevices s'.sw ∧
      s'.calls = s.calls ++ ns.filterMap (fun n => (sw.dpLookupPort n).bind env.polled) ∧
      s'.injected = s.injected ++ ns.filterMap (fun n => (sw.dpLookupPort n).bind env.handed) := by
  induction ns generalizing s with
  | nil =>
    rw [List.foldlM_nil] at h
    rw [← Except.ok.inj h]
    exact ⟨hsent, (List.append_nil _).symm, (List.append_nil _).symm⟩
  | cons n ns ih =>
    obtain ⟨⟨p, hp, -⟩, hns⟩ := List.forall_mem_cons.1 hns
    rw [List.foldlM_cons] at h
    cases hturn : s.turn env now fuel n with
    | error e => simp [hturn, bind, Except.bind] at h
    | ok s₁ =>
      simp only [hturn, bind, Except.bind] at h
      obtain ⟨⟨hsent₁, hempty₁⟩, hcalls, hinjected⟩ := turn_eq_ok hsent hempty hp hturn
      obtain ⟨hsent', hcalls', hinjected'⟩ := ih hsent₁ hempty₁ hns h
      refine ⟨hsent', ?_, ?_⟩
      · rw [hcalls', hcalls, List.append_assoc, List.filterMap_cons, hp, Option.bind_some]
        cases env.polled p <;> rfl
      · rw [hinjected', hinjected, List.append_assoc, List.filterMap_cons, hp, Option.bind_some]
        cases env.handed p <;> rfl

end Pass

/-- The packet that `netdev_recv` has returned in a call. -/
def returned (c : BitVec 16 × Option (List Byte)) : Option (BitVec 16 × List Byte) :=
  c.2.map fun packet => (c.1, packet)

/-- In the turn of a port that is ready, the packet that is handed over is the one that has been
received. -/
theorem PassEnv.handed_of_ready {env : PassEnv} {opened : BitVec 16 → Bool} {p : SwPort}
    (h : env.Ready opened p) : env.handed p = (env.polled p).bind returned := by
  unfold PassEnv.Ready at h
  unfold PassEnv.handed PassEnv.polled
  split
  next => rfl
  next hdevice =>
    rw [if_neg hdevice] at h
    rw [if_neg h]
    rfl

theorem PassEnv.polled_eq_some {env : PassEnv} {p : SwPort} {c : BitVec 16 × Option (List Byte)}
    (h : env.polled p = some c) : p.netdev = true ∧ c = (p.portNo, env.recv p.portNo) := by
  unfold PassEnv.polled at h
  split at h
  next hdevice => exact ⟨hdevice, (Option.some.inj h).symm⟩
  next => cases h

/-- A pass that ends without a fault is right exactly when every port of the list has a device that
comes from a successful open, or none while the uninitialised `error` is not zero. -/
theorem right_iff {env : PassEnv} {now : BitVec 64} {fuel : ℕ} {sw : Switch}
    {opened : BitVec 16 → Bool} {s : Pass} (hports : sw.PortsListed)
    (h : Pass.run env now fuel sw = .ok s) :
    s.Right opened sw ↔ ∀ p ∈ sw.listedPorts, env.Ready opened p := by
  obtain ⟨hsent, hcalls, hinjected⟩ :=
    Pass.foldlM_eq_ok (.refl sw) (fun b hb => by cases hb) hports.listed h
  have hlisted : ∀ {β : Type} (f : SwPort → Option β),
      sw.portList.filterMap (fun n => (sw.dpLookupPort n).bind f) = sw.listedPorts.filterMap f :=
    fun f => (List.filterMap_filterMap ..).symm
  rw [hlisted] at hcalls hinjected
  change s.calls = sw.listedPorts.filterMap env.polled at hcalls
  change s.injected = sw.listedPorts.filterMap env.handed at hinjected
  constructor
  · intro hright p hp
    unfold PassEnv.Ready
    split
    next hdevice =>
      -- the device has been polled
      have hmem : (p.portNo, env.recv p.portNo) ∈ s.calls := by
        rw [hcalls]
        exact List.mem_filterMap.2 ⟨p, hp, if_pos hdevice⟩
      exact hright.recv _ hmem
    next hdevice =>
      intro herror
      -- a packet without bytes has been handed over, and no device of the port polled
      have hmem : (p.portNo, []) ∈ s.injected := by
        rw [hinjected]
        refine List.mem_filterMap.2 ⟨p, hp, ?_⟩
        rw [PassEnv.handed, if_neg hdevice, if_pos herror]
      rw [hright.injected] at hmem
      obtain ⟨c, hc, hret⟩ := List.mem_filterMap.1 hmem
      rw [hcalls] at hc
      obtain ⟨q, hq, hpolled⟩ := List.mem_filterMap.1 hc
      obtain ⟨hdevice', rfl⟩ := PassEnv.polled_eq_some hpolled
      have hno : q.portNo = p.portNo := by
        obtain ⟨packet, -, heq⟩ := Option.map_eq_some_iff.1 hret
        exact (Prod.mk.inj heq).1
      have hsame := hports.lookup_of_listed hq
      rw [hno, hports.lookup_of_listed hp, Option.some.injEq] at hsame
      exact hdevice (hsame ▸ hdevice')
  · intro hready
    refine ⟨?_, ?_, ?_⟩
    · rw [hinjected, hcalls, List.filterMap_filterMap]
      exact List.filterMap_congr fun p hp => PassEnv.handed_of_ready (hready p hp)
    · intro c hc
      rw [hcalls] at hc
      obtain ⟨p, hp, hpolled⟩ := List.mem_filterMap.1 hc
      obtain ⟨hdevice, rfl⟩ := PassEnv.polled_eq_some hpolled
      have hp' := hready p hp
      rw [PassEnv.Ready, if_pos hdevice] at hp'
      exact hp'
    · intro portNo classId packet hmem
      obtain ⟨new, heq, hnew⟩ := hsent.sent
      rw [heq, List.drop_left] at hmem
      obtain ⟨n, p, hp, hdevice, hno⟩ := hnew _ _ _ hmem
      have hp' := hready p (List.mem_filterMap.2 ⟨n, hports.device n p hp hdevice, hp⟩)
      rw [PassEnv.Ready, if_pos hdevice, hno] at hp'
      exact hp'

/-- A switch with port 1, whose device is null or not. -/
def polledSwitch (dp : Datapath) (netdev : Bool) : Switch :=
  { onePortSwitch dp with
    ports := fun i => { (onePortSwitch dp).ports i with
      netdev := ((onePortSwitch dp).ports i).used && netdev } }

/-- The ports of the switch are listed. -/
theorem portsListed_polledSwitch (dp : Datapath) (netdev : Bool) :
    (polledSwitch dp netdev).PortsListed := by
  constructor
  · intro n hn
    obtain rfl : n = 1 := List.mem_singleton.1 hn
    exact ⟨_, rfl, rfl⟩
  · intro n p hp hdevice
    unfold Switch.dpLookupPort at hp
    split at hp
    next hn =>
      rw [← Option.some.inj hp] at hdevice
      have hused : ((onePortSwitch dp).ports ⟨n.toNat, hn⟩).used = true :=
        (Bool.and_eq_true _ _ ▸ hdevice).1
      change (if (⟨n.toNat, hn⟩ : Fin dpMaxPorts) = 1 then SwPort.added else .unused).used =
        true at hused
      split at hused
      next heq =>
        have hone : n.toNat = 1 := congrArg Fin.val heq
        exact List.mem_singleton.2 (BitVec.eq_of_toNat_eq hone)
      next => cases hused
    next =>
      split at hp <;> cases hp

/-- A frame comes in on an opened device. -/
theorem right_iff_opened : ∃ s, Pass.run ⟨fun _ => 0, fun _ => some [1, 2, 3]⟩ 0 1
    (polledSwitch (.init ⟨4, 100⟩ 0) true) = .ok s ∧
      s.Right (fun _ => true) (polledSwitch (.init ⟨4, 100⟩ 0) true) := by
  have hok : (Pass.run ⟨fun _ => 0, fun _ => some [1, 2, 3]⟩ 0 1
      (polledSwitch (.init ⟨4, 100⟩ 0) true)).toOption.isSome = true := by decide +kernel
  cases hrun : Pass.run ⟨fun _ => 0, fun _ => some [1, 2, 3]⟩ 0 1
      (polledSwitch (.init ⟨4, 100⟩ 0) true) with
  | error e =>
    rw [hrun] at hok
    cases hok
  | ok s =>
    refine ⟨s, rfl, (right_iff (portsListed_polledSwitch _ true) hrun).2 fun p hp => ?_⟩
    unfold PassEnv.Ready
    rw [List.mem_singleton.1 (show p ∈ [{ SwPort.added with netdev := true }] from hp)]
    rfl

/-- When `error` is zero by chance, a port without a device hands over a packet that nobody has
sent. -/
theorem not_right : ¬ ∀ (env : PassEnv) (now : BitVec 64) (fuel : ℕ) (sw : Switch)
    (opened : BitVec 16 → Bool) (s : Pass), sw.PortsListed → Pass.run env now fuel sw = .ok s →
      s.Right opened sw := by
  intro hall
  have hrun : (Pass.run ⟨fun _ => 0, fun _ => none⟩ 0 1
      (polledSwitch (.init ⟨4, 100⟩ 0) false)).toOption.map
        (fun s => (s.injected, s.calls)) = some ([(1, [])], []) := by decide +kernel
  cases h : Pass.run ⟨fun _ => 0, fun _ => none⟩ 0 1
      (polledSwitch (.init ⟨4, 100⟩ 0) false) with
  | error e =>
    rw [h] at hrun
    cases hrun
  | ok s =>
    have hright := hall _ _ _ _ (fun _ => true) s (portsListed_polledSwitch _ false) h
    rw [h] at hrun
    obtain ⟨hinjected, hcalls⟩ := Prod.mk.inj (Option.some.inj hrun)
    have heq := hright.injected
    rw [hinjected, hcalls] at heq
    cases heq

end OfAgent
