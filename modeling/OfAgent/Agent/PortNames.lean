import OfAgent.Control.PortDescriptions
import OfAgent.Lib.Tokens
import OfAgent.Packet.Rewriting

/-!
# Names of ports

`add_ports` gives each name of a list to a port of the datapath and to the agent. The names are
copied into fields of fixed size, by `strcpy` into memory that goes on behind the field.

* `PortTables`: the memory of `ports_names` and of `ports`, the ports in `port_list`, and the copies
  that have been made.
* `dpAddPort`, `addPort`, `newPort`, `addPorts`: the functions of the source.
* `PortTables.Added`: what the tables are like after some names; `added_dpAddPort`: a name that fits
  into its field keeps them so.
* `AddsWell`: names are stored or refused, and nothing is written elsewhere. `addsWell_iff`: that is
  so exactly when there are at most 49 names of at most 199 bytes.
-/

namespace OfAgent

/-! ### Tables -/

/-- `MAX_PORTS_NAMES`. -/
def maxPortsNames : ℕ := 50

/-- `MAX_PORT_NAME_LEN`. -/
def maxPortNameLen : ℕ := 200

/-- Where the fields of `struct sw_port` are, which depends on the host. -/
structure SwPortLayout where
  /-- `sizeof(struct sw_port)`. -/
  sizeofSwPort : ℕ
  /-- The place of `netdev`. -/
  offsetofNetdev : ℕ
  /-- The size of a pointer. -/
  sizeofPointer : ℕ
  /-- The place of `port_no`. `netdev_name` and `num_queues` follow it. -/
  offsetofPortNo : ℕ
  /-- The order of bytes. -/
  host : HostOrder
  /-- `netdev` is in front of `port_no`. -/
  netdev_le : offsetofNetdev + sizeofPointer ≤ offsetofPortNo
  /-- The record is large enough. -/
  numQueues_le : offsetofPortNo + 2 + maxHwNameLen + 2 ≤ sizeofSwPort

/-- The field that a name is copied to. -/
inductive NameField
  /-- An element of `ports_names`. -/
  | portsNames (index : ℕ)
  /-- `netdev_name` of an element of `ports`. -/
  | netdevName (index : ℕ)
  deriving DecidableEq, Repr

/-- The elements of the table, and the size of the field. -/
def NameField.bounds : NameField → ℕ × ℕ × ℕ
  | portsNames index => (index, maxPortsNames, maxPortNameLen)
  | netdevName index => (index, dpMaxPorts, maxHwNameLen)

/-- A copy of a name and its terminator. -/
structure NameCopy where
  /-- The field. -/
  field : NameField
  /-- The name. -/
  name : List Byte
  deriving DecidableEq, Repr

/-- The copy stays inside its field. -/
def NameCopy.Inside (c : NameCopy) : Prop :=
  c.field.bounds.1 < c.field.bounds.2.1 ∧ c.name.length + 1 ≤ c.field.bounds.2.2

instance (c : NameCopy) : Decidable c.Inside := inferInstanceAs (Decidable (_ ∧ _))

/-- The tables of ports and names. -/
structure PortTables where
  /-- The memory from `ports_names` on. -/
  portsNames : Memory
  /-- The memory from `ports` of the datapath on. -/
  ports : Memory
  /-- The elements of `ports` in `port_list`. -/
  portList : List ℕ
  /-- The copies that have been made: a history that the source does not keep. -/
  copies : List NameCopy

/-- Why a port is not added. -/
inductive AddPortError
  /-- `EXFULL`. -/
  | exfull
  /-- There is no element of `ports` with the number. -/
  | outside
  deriving DecidableEq, Repr

namespace PortTables

variable (layout : SwPortLayout) (numQueues : BitVec 16)

/-- `init_port_list`: the empty string in every element. -/
def initPortList (t : PortTables) : PortTables :=
  { t with
    portsNames :=
      (List.range maxPortsNames).foldl (fun m i => m.put (i * maxPortNameLen) [0]) t.portsNames }

/-- The tables that `dp_new` leaves behind. Both have been zeroed before. -/
def init : PortTables := initPortList ⟨fun _ => 0, fun _ => 0, [], []⟩

/-- `strcpy` of a name to a field. -/
def strcpy (field : NameField) (name : List Byte) (t : PortTables) : PortTables :=
  match field with
  | .portsNames index =>
      { t with
        portsNames := t.portsNames.put (index * maxPortNameLen) (name ++ [0])
        copies := t.copies ++ [⟨field, name⟩] }
  | .netdevName index =>
      { t with
        ports := t.ports.put (index * layout.sizeofSwPort + layout.offsetofPortNo + 2) (name ++ [0])
        copies := t.copies ++ [⟨field, name⟩] }

/-- `add_port`. -/
def addPort (name : List Byte) (index : ℕ) (t : PortTables) : PortTables :=
  if index < maxPortsNames then t.strcpy layout (.portsNames index) name else t

/-- A number of 16 bits in a field of a record. -/
def store16 (off : ℕ) (v : BitVec 16) (t : PortTables) : PortTables :=
  { t with ports := t.ports.put16 off (layout.host.ofNet v) }

/-- `new_port` of an element of `ports`. Only the local port gets a network device. -/
def newPort (portNo : BitVec 16) (name : List Byte) (t : PortTables) : PortTables :=
  let port := portNo.toNat * layout.sizeofSwPort
  let t := { t with ports := t.ports.put port (List.replicate layout.sizeofSwPort 0) }
  let t := t.store16 layout (port + layout.offsetofPortNo) portNo
  let t := t.strcpy layout (.netdevName portNo.toNat) name
  let t := t.store16 layout (port + layout.offsetofPortNo + 2 + maxHwNameLen) numQueues
  { t with portList := t.portList ++ [portNo.toNat] }

/-- `port->netdev` is the null pointer. -/
def netdevNull (index : ℕ) (t : PortTables) : Bool :=
  (t.ports.slice (index * layout.sizeofSwPort + layout.offsetofNetdev) layout.sizeofPointer).all
    (· == 0)

/-- `dp_add_port`. -/
def dpAddPort (name : List Byte) (portNo : BitVec 16) (t : PortTables) :
    PortTables × Option AddPortError :=
  if portNo.toNat < dpMaxPorts then
    if t.netdevNull layout portNo.toNat then
      ((t.addPort layout name portNo.toNat).newPort layout numQueues portNo name, none)
    else (t, some .exfull)
  else (t, some .outside)

/-- The loop of `add_ports`, which an error ends. -/
def addPortsFrom : List (List Byte) → ℕ → PortTables → PortTables × Option AddPortError
  | [], _, t => (t, none)
  | name :: names, portNo, t =>
      match t.dpAddPort layout numQueues name (BitVec.ofNat 16 portNo) with
      | (t, none) => addPortsFrom names (portNo + 1) t
      | (t, some error) => (t, some error)

/-- The names of a list: what `strtok_r` returns, one after the other. -/
def portNames (portList : List Byte) : List (List Byte) := Tokens.all (· == 44) portList

/-- `add_ports`. -/
def addPorts (portList : List Byte) (t : PortTables) : PortTables × Option AddPortError :=
  t.addPortsFrom layout numQueues (portNames portList) 1

/-! ### What should be stored -/

variable (t : PortTables)

/-- `port_no` of an element of `ports`. -/
def portNo (index : ℕ) : BitVec 16 :=
  layout.host.ofNet (t.ports.get16 (index * layout.sizeofSwPort + layout.offsetofPortNo))

/-- The string in `netdev_name` of an element of `ports`. -/
def netdevName (index : ℕ) : Option (List Byte) :=
  nulTerminated
    (t.ports.slice (index * layout.sizeofSwPort + layout.offsetofPortNo + 2) maxHwNameLen)

/-- The string in an element of `ports_names`, if there is such an element. -/
def agentName (index : ℕ) : Option (List Byte) :=
  if index < maxPortsNames then
    nulTerminated (t.portsNames.slice (index * maxPortNameLen) maxPortNameLen)
  else none

/-- The names belong to the ports from 1 on. -/
structure Stored (names : List (List Byte)) : Prop where
  /-- Every port is listed once. -/
  listed : t.portList = List.range' 1 names.length
  /-- It has its number. -/
  numbered : ∀ k name, names[k]? = some name → t.portNo layout (k + 1) = BitVec.ofNat 16 (k + 1)
  /-- Its name is in its record. -/
  recorded : ∀ k name, names[k]? = some name → t.netdevName layout (k + 1) = some name
  /-- The agent has the name, too. -/
  named : ∀ k name, names[k]? = some name → t.agentName (k + 1) = some name

/-- Names fit into the tables: element 0 of each is not used. -/
def Fits (names : List (List Byte)) : Prop :=
  names.length ≤ maxPortsNames - 1 ∧ ∀ name ∈ names, name.length ≤ maxPortNameLen - 1

/-- The names of a list are stored, or the list is refused because they do not fit, and whatever
becomes of it, nothing is written outside the fields of the names. -/
structure AddsWell (portList : List Byte) : Prop where
  /-- An accepted list. -/
  stored : (init.addPorts layout numQueues portList).2 = none →
    (init.addPorts layout numQueues portList).1.Stored layout (portNames portList)
  /-- A refused list. -/
  refused : (init.addPorts layout numQueues portList).2 = some .exfull → ¬ Fits (portNames portList)
  /-- No record is made up. -/
  notOutside : (init.addPorts layout numQueues portList).2 ≠ some .outside
  /-- Every copy stays inside its field. -/
  inside : ∀ c ∈ (init.addPorts layout numQueues portList).1.copies, c.Inside

/-! ### One port -/

variable {layout numQueues t} {done names : List (List Byte)} {name : List Byte}

/-- A string that has been copied to a field that it fits into. -/
theorem nulTerminated_slice_put (m : Memory) {off n : ℕ} (hname : 0 ∉ name)
    (hlen : name.length < n) :
    nulTerminated ((m.put off (name ++ [0])).slice off n) = some name := by
  have hbyte : ∀ i < name.length + 1, ((m.put off (name ++ [0])).slice off n).getD i 0 =
      (name ++ [0]).getD i 0 := by
    intro i hi
    have hlt : i < n := Nat.lt_of_lt_of_le hi hlen
    have hinside := @Memory.put_of_inside m off i (name ++ [0])
      (by rw [List.length_append, List.length_singleton]; exact hi)
    rw [← hinside]
    simp [Memory.slice, List.getD_eq_getElem?_getD, hlt]
  -- the name, and the terminator behind it
  rw [nulTerminated_eq_some_iff hname, Memory.length_slice]
  refine ⟨hlen, ?_, fun i hi => ?_⟩
  · rw [hbyte _ (Nat.lt_succ_self _), List.getD_eq_getElem?_getD, List.getElem?_concat_length]
    rfl
  · rw [hbyte i (Nat.lt_succ_of_lt hi), List.getD_eq_getElem?_getD, List.getElem?_append_left hi,
      List.getD_eq_getElem?_getD]

/-- Different records have different places. -/
theorem record_apart {i j : ℕ} (h : i ≠ j) (size : ℕ) :
    i * size + size ≤ j * size ∨ j * size + size ≤ i * size := by
  rcases Nat.lt_or_gt_of_ne h with hlt | hlt
  · left
    rw [← Nat.succ_mul]
    exact Nat.mul_le_mul_right size hlt
  · right
    rw [← Nat.succ_mul]
    exact Nat.mul_le_mul_right size hlt

/-- `new_port` with a name that fits changes its own record only. -/
theorem newPort_ports_of_outside {portNo : BitVec 16} (hlen : name.length < maxHwNameLen) {a : ℕ}
    (ha : a < portNo.toNat * layout.sizeofSwPort ∨
      portNo.toNat * layout.sizeofSwPort + layout.sizeofSwPort ≤ a) :
    (t.newPort layout numQueues portNo name).ports a = t.ports a := by
  have hsize := layout.numQueues_le
  have hcopy : (name ++ [0]).length ≤ maxHwNameLen := by
    rw [List.length_append, List.length_singleton]
    exact hlen
  have hzeros : (List.replicate layout.sizeofSwPort (0 : Byte)).length = layout.sizeofSwPort :=
    List.length_replicate
  have htwo : ∀ v, (Memory.bytes16 v).length = 2 := fun _ => rfl
  change (((t.ports.put _ _).put _ _).put _ _).put _ _ a = _
  -- the four writes, from the last one back
  rw [Memory.put_of_outside, Memory.put_of_outside, Memory.put_of_outside, Memory.put_of_outside]
  · rw [hzeros]
    omega
  · rw [htwo]
    omega
  · omega
  · rw [htwo]
    omega

variable (layout numQueues t) in
/-- The number of a port that has been added. -/
theorem portNo_newPort (portNo : BitVec 16) (hlen : name.length < maxHwNameLen) :
    (t.newPort layout numQueues portNo name).portNo layout portNo.toNat = portNo := by
  change layout.host.ofNet ((((t.ports.put _ _).put16 _ _).put _ _).put _ _ |>.get16 _) = _
  rw [Memory.get16_put_of_outside _ (.inl (by omega)),
    Memory.get16_put_of_outside _ (.inl (by omega)), Memory.get16_put16, HostOrder.ofNet_ofNet]

variable (layout numQueues t) in
theorem netdevName_newPort (portNo : BitVec 16) (hname : 0 ∉ name)
    (hlen : name.length < maxHwNameLen) :
    (t.newPort layout numQueues portNo name).netdevName layout portNo.toNat = some name := by
  change nulTerminated (((((t.ports.put _ _).put16 _ _).put _ _).put _ _).slice _ _) = _
  rw [Memory.slice_put_of_outside _ (.inl (le_refl _))]
  exact nulTerminated_slice_put _ hname hlen

/-- A copy to an element of `ports_names` leaves the others alone, if it fits. -/
theorem agentName_addPort_of_ne {i j : ℕ} (hne : j ≠ i) (hlen : name.length < maxPortNameLen) :
    (t.addPort layout name i).agentName j = t.agentName j := by
  unfold addPort
  split
  next =>
    have hapart := record_apart hne maxPortNameLen
    have hcopy : (name ++ [0]).length ≤ maxPortNameLen := by
      rw [List.length_append, List.length_singleton]
      exact hlen
    change (if j < maxPortsNames then nulTerminated ((t.portsNames.put _ _).slice _ _) else none) =
      _
    rw [Memory.slice_put_of_outside _ (by omega)]
    rfl
  next => rfl

theorem ports_addPort (name : List Byte) (index : ℕ) :
    (t.addPort layout name index).ports = t.ports := by
  unfold addPort
  split <;> rfl

/-- The element that is copied to has the name. -/
theorem agentName_addPort {i : ℕ} (hi : i < maxPortsNames) (hname : 0 ∉ name)
    (hlen : name.length < maxPortNameLen) :
    (t.addPort layout name i).agentName i = some name := by
  rw [addPort, if_pos hi, agentName, if_pos hi]
  exact nulTerminated_slice_put _ hname hlen

/-! ### One port after another -/

/-- The tables after some names. -/
structure Added (layout : SwPortLayout) (done : List (List Byte)) (t : PortTables) : Prop where
  /-- Every port is listed once. -/
  listed : t.portList = List.range' 1 done.length
  /-- It has its number. -/
  numbered : ∀ k name, done[k]? = some name → t.portNo layout (k + 1) = BitVec.ofNat 16 (k + 1)
  /-- Its name is in its record. -/
  recorded : ∀ k name, done[k]? = some name → t.netdevName layout (k + 1) = some name
  /-- The agent has the names that there are elements for. -/
  named : ∀ k name, done[k]? = some name → k + 1 < maxPortsNames → t.agentName (k + 1) = some name
  /-- Nothing is stored behind the records of the ports. -/
  blank : ∀ a, (done.length + 1) * layout.sizeofSwPort ≤ a → t.ports a = 0

theorem added_init (layout : SwPortLayout) : init.Added layout [] := by
  refine ⟨rfl, ?_, ?_, ?_, fun _ _ => rfl⟩
  all_goals intro k name hk
  all_goals cases hk

/-- An element of `ports` that has not been written has no network device. -/
theorem Added.netdevNull (h : t.Added layout done) :
    t.netdevNull layout (done.length + 1) = true := by
  refine List.all_eq_true.2 fun b hb => ?_
  obtain ⟨i, -, rfl⟩ := List.mem_map.1 hb
  exact beq_iff_eq.2 (h.blank _ (by omega))

/-- The copies of a name. -/
def copiesOf (name : List Byte) (index : ℕ) : List NameCopy :=
  (if index < maxPortsNames then [⟨.portsNames index, name⟩] else []) ++ [⟨.netdevName index, name⟩]

/-- They stay inside the fields if there is a record for the port, and the name fits. -/
theorem inside_copiesOf_iff (name : List Byte) (index : ℕ) :
    (∀ c ∈ copiesOf name index, c.Inside) ↔ index < dpMaxPorts ∧ name.length < maxHwNameLen := by
  constructor
  · intro hall
    exact hall ⟨.netdevName index, name⟩ (List.mem_append_right _ (List.mem_singleton.2 rfl))
  · rintro ⟨hindex, hlen⟩ c hc
    rcases List.mem_append.1 hc with hc | hc
    · split at hc
      next hagent =>
        rw [List.mem_singleton.1 hc]
        exact ⟨hagent, hlen⟩
      next => cases hc
    · rw [List.mem_singleton.1 hc]
      exact ⟨hindex, hlen⟩

/-- The next port is added if there is a record for it, whatever its name. -/
theorem Added.dpAddPort_eq (h : t.Added layout done) (numQueues : BitVec 16)
    (hslot : done.length + 1 < dpMaxPorts) (name : List Byte) :
    ∃ t', t.dpAddPort layout numQueues name (BitVec.ofNat 16 (done.length + 1)) = (t', none) ∧
      t' = (t.addPort layout name (done.length + 1)).newPort layout numQueues
        (BitVec.ofNat 16 (done.length + 1)) name ∧
        t'.copies = t.copies ++ copiesOf name (done.length + 1) := by
  have hnat : (BitVec.ofNat 16 (done.length + 1)).toNat = done.length + 1 :=
    (BitVec.toNat_ofNat ..).trans (Nat.mod_eq_of_lt (Nat.lt_trans hslot (by decide)))
  refine ⟨_, ?_, rfl, ?_⟩
  · rw [dpAddPort, hnat, if_pos hslot, if_pos h.netdevNull]
  · change (t.addPort layout name (done.length + 1)).copies ++ [⟨.netdevName _, name⟩] = _
    rw [hnat, addPort, copiesOf]
    split
    next => exact List.append_assoc ..
    next => rfl

/-- The names that there are with one more. -/
theorem getElem?_concat_cases {name' : List Byte} (hk : (done ++ [name])[k]? = some name') :
    k < done.length ∧ done[k]? = some name' ∨ k = done.length ∧ name' = name := by
  rcases Nat.lt_or_ge k done.length with hlt | hge
  · rw [List.getElem?_append_left hlt] at hk
    exact .inl ⟨hlt, hk⟩
  · rw [List.getElem?_append_right hge, List.getElem?_singleton] at hk
    split at hk
    next hzero => exact .inr ⟨by omega, (Option.some.inj hk).symm⟩
    next => cases hk

/-- With a name that fits into its fields, the tables are as they should be with it, too. -/
theorem Added.concat (h : t.Added layout done) (hslot : done.length + 1 < dpMaxPorts)
    (hname : 0 ∉ name) (hlen : name.length < maxHwNameLen) :
    Added layout (done ++ [name])
      ((t.addPort layout name (done.length + 1)).newPort layout numQueues
        (BitVec.ofNat 16 (done.length + 1)) name) := by
  have hnat : (BitVec.ofNat 16 (done.length + 1)).toNat = done.length + 1 :=
    (BitVec.toNat_ofNat ..).trans (Nat.mod_eq_of_lt (Nat.lt_trans hslot (by decide)))
  have hsize := layout.numQueues_le
  have hlist : (t.addPort layout name (done.length + 1)).portList = t.portList := by
    unfold addPort
    split <;> rfl
  -- the record of a port that has been added before is left alone
  have hother : ∀ {k a : ℕ}, k < done.length → (k + 1) * layout.sizeofSwPort ≤ a →
      a < (k + 1) * layout.sizeofSwPort + layout.sizeofSwPort →
        ((t.addPort layout name (done.length + 1)).newPort layout numQueues
          (BitVec.ofNat 16 (done.length + 1)) name).ports a = t.ports a := by
    intro k a hk hlow hhigh
    have hapart := record_apart (i := k + 1) (j := done.length + 1) (by omega) layout.sizeofSwPort
    rw [newPort_ports_of_outside hlen, ports_addPort]
    rw [hnat]
    omega
  constructor
  · change (t.addPort layout name (done.length + 1)).portList ++ [_] = _
    rw [hlist, h.listed, hnat, List.length_append, List.length_singleton, List.range'_concat,
      Nat.one_mul, Nat.add_comm 1]
  · intro k name' hk
    rcases getElem?_concat_cases hk with ⟨hlt, hold⟩ | ⟨rfl, rfl⟩
    · rw [← h.numbered k name' hold, portNo, portNo]
      refine congrArg _ (Memory.get16_congr fun a hlow hhigh => hother hlt ?_ ?_)
      · omega
      · rw [maxHwNameLen] at hsize
        omega
    · have hnumber := portNo_newPort layout numQueues (t.addPort layout name' (done.length + 1))
        (BitVec.ofNat 16 (done.length + 1)) hlen
      rw [hnat] at hnumber
      exact hnumber
  · intro k name' hk
    rcases getElem?_concat_cases hk with ⟨hlt, hold⟩ | ⟨rfl, rfl⟩
    · rw [← h.recorded k name' hold, netdevName, netdevName]
      refine congrArg _ (Memory.slice_congr fun a hlow hhigh => hother hlt ?_ ?_)
      · omega
      · omega
    · have hrecord := netdevName_newPort layout numQueues (t.addPort layout name' (done.length + 1))
        (BitVec.ofNat 16 (done.length + 1)) hname hlen
      rw [hnat] at hrecord
      exact hrecord
  · intro k name' hk hagent
    -- the datapath comes after the agent, and writes to its own table only
    change (t.addPort layout name (done.length + 1)).agentName (k + 1) = _
    rcases getElem?_concat_cases hk with ⟨hlt, hold⟩ | ⟨rfl, rfl⟩
    · rw [agentName_addPort_of_ne (by omega) hlen]
      exact h.named k name' hold hagent
    · exact agentName_addPort hagent hname hlen
  · intro a ha
    rw [List.length_append, List.length_singleton, Nat.succ_mul] at ha
    rw [newPort_ports_of_outside hlen, ports_addPort]
    · exact h.blank a (by omega)
    · rw [hnat]
      exact .inr ha

/-! ### All ports -/

/-- A list that fits into the records is added, and its copies stay inside the fields if the agent
has elements for it. -/
theorem Added.addPortsFrom (h : t.Added layout done) (numQueues : BitVec 16)
    (hslots : done.length + names.length < dpMaxPorts)
    (hnames : ∀ name ∈ names, 0 ∉ name ∧ name.length < maxHwNameLen)
    (hinside : ∀ c ∈ t.copies, c.Inside) :
    (t.addPortsFrom layout numQueues names (done.length + 1)).2 = none ∧
      Added layout (done ++ names) (t.addPortsFrom layout numQueues names (done.length + 1)).1 ∧
        ∀ c ∈ (t.addPortsFrom layout numQueues names (done.length + 1)).1.copies, c.Inside := by
  induction names generalizing done t with
  | nil =>
    rw [List.append_nil]
    exact ⟨rfl, h, hinside⟩
  | cons name names ih =>
    obtain ⟨⟨hname, hlen⟩, hnames⟩ := List.forall_mem_cons.1 hnames
    rw [List.length_cons] at hslots
    obtain ⟨t', hadd, heq, hcopies⟩ := h.dpAddPort_eq numQueues (by omega) name
    have hnext : t'.Added layout (done ++ [name]) := heq ▸ h.concat (by omega) hname hlen
    have hcopies' : ∀ c ∈ t'.copies, c.Inside := by
      rw [hcopies]
      intro c hc
      rcases List.mem_append.1 hc with hc | hc
      · exact hinside c hc
      · exact (inside_copiesOf_iff name _).2 ⟨by omega, hlen⟩ c hc
    have hrest :=
      ih hnext (by rw [List.length_append, List.length_singleton]; omega) hnames hcopies'
    rw [List.length_append, List.length_singleton, List.append_assoc,
      List.singleton_append] at hrest
    rw [PortTables.addPortsFrom, hadd]
    exact hrest

/-- Copies that have been made stay in the history. -/
theorem copies_subset_addPortsFrom (names : List (List Byte)) (portNo : ℕ) (t : PortTables) :
    t.copies ⊆ (t.addPortsFrom layout numQueues names portNo).1.copies := by
  induction names generalizing portNo t with
  | nil => exact fun _ hc => hc
  | cons name names ih =>
    have hone : t.copies ⊆
        (t.dpAddPort layout numQueues name (BitVec.ofNat 16 portNo)).1.copies := by
      unfold dpAddPort
      split
      next =>
        split
        next =>
          change t.copies ⊆ (t.addPort layout name _).copies ++ _
          refine fun c hc => List.mem_append_left _ ?_
          unfold addPort
          split
          · exact List.mem_append_left _ hc
          · exact hc
        next => exact fun _ hc => hc
      next => exact fun _ hc => hc
    rw [addPortsFrom]
    rcases hadd : t.dpAddPort layout numQueues name (BitVec.ofNat 16 portNo) with ⟨t', _ | error⟩
    · rw [hadd] at hone
      exact List.Subset.trans hone (ih (portNo + 1) t')
    · rw [hadd] at hone
      exact hone

/-- If every copy stays inside its field, and no record is made up, there are records for all names,
and every name fits into its fields. -/
theorem Added.fits_of_inside (h : t.Added layout done) (hnames : ∀ name ∈ names, 0 ∉ name)
    (hinside : ∀ c ∈ (t.addPortsFrom layout numQueues names (done.length + 1)).1.copies, c.Inside)
    (hnot : (t.addPortsFrom layout numQueues names (done.length + 1)).2 ≠ some .outside)
    (hlt : done.length < dpMaxPorts) :
    done.length + names.length < dpMaxPorts ∧ ∀ name ∈ names, name.length < maxHwNameLen := by
  induction names generalizing done t with
  | nil => exact ⟨hlt, fun _ hname => by cases hname⟩
  | cons name names ih =>
    obtain ⟨hname, hnames⟩ := List.forall_mem_cons.1 hnames
    rw [PortTables.addPortsFrom] at hinside hnot
    by_cases hslot : done.length + 1 < dpMaxPorts
    · obtain ⟨t', hadd, heq, hcopies⟩ := h.dpAddPort_eq numQueues hslot name
      rw [hadd] at hinside hnot
      have hlen : name.length < maxHwNameLen := by
        refine ((inside_copiesOf_iff name (done.length + 1)).1 fun c hc => hinside c ?_).2
        exact copies_subset_addPortsFrom names _ t' (hcopies ▸ List.mem_append_right _ hc)
      have hnext : t'.Added layout (done ++ [name]) := heq ▸ h.concat hslot hname hlen
      have hone : (done ++ [name]).length = done.length + 1 := by
        rw [List.length_append, List.length_singleton]
      rw [← hone] at hinside hnot hslot
      obtain ⟨hslots, hlens⟩ := ih hnext hnames hinside hnot hslot
      rw [hone] at hslots
      exact ⟨by rw [List.length_cons]; omega, List.forall_mem_cons.2 ⟨hlen, hlens⟩⟩
    · -- the record that is made up is the first one behind the table
      have hlast : done.length = 254 := by
        have h255 : dpMaxPorts = 255 := rfl
        omega
      have houtside : t.dpAddPort layout numQueues name (BitVec.ofNat 16 (done.length + 1)) =
          (t, some .outside) := by
        rw [hlast]
        exact if_neg (by decide)
      rw [houtside] at hnot
      exact absurd rfl hnot

theorem zero_notMem_of_mem_portNames {portList : List Byte} (h : 0 ∉ portList)
    (hname : name ∈ portNames portList) : 0 ∉ name := fun hzero =>
  h (Tokens.subset_of_mem_all hname hzero)

/-- A list that is stored, or refused without damage, fits. -/
theorem AddsWell.fits {portList : List Byte} (hlist : 0 ∉ portList)
    (h : AddsWell layout numQueues portList) : Fits (portNames portList) := by
  have hzero : ∀ name ∈ portNames portList, 0 ∉ name :=
    fun name => zero_notMem_of_mem_portNames hlist
  have hinit := added_init layout
  obtain ⟨hslots, hlens⟩ := hinit.fits_of_inside hzero h.inside h.notOutside (by decide)
  obtain ⟨hok, -, -⟩ := hinit.addPortsFrom numQueues hslots
    (fun name hname => ⟨hzero name hname, hlens name hname⟩) fun c hc => by cases hc
  refine ⟨?_, fun name hname => Nat.le_pred_of_lt (hlens name hname)⟩
  -- otherwise the agent would have an element for the last name
  by_contra hmany
  rw [maxPortsNames] at hmany
  have hlong : 49 < (portNames portList).length := by omega
  have hlast := (h.stored hok).named 49 _ (List.getElem?_eq_getElem hlong)
  rw [agentName, if_neg (by decide)] at hlast
  cases hlast

/-- A list that fits is stored. -/
theorem addsWell_of_fits {portList : List Byte} (hlist : 0 ∉ portList)
    (h : Fits (portNames portList)) : AddsWell layout numQueues portList := by
  obtain ⟨hslots, hlens⟩ := h
  rw [maxPortsNames] at hslots
  have hnames : ∀ name ∈ portNames portList, 0 ∉ name ∧ name.length < maxHwNameLen :=
    fun name hname =>
      ⟨zero_notMem_of_mem_portNames hlist hname, Nat.lt_of_le_pred (by decide) (hlens name hname)⟩
  obtain ⟨hok, hadded, hinside⟩ := (added_init layout).addPortsFrom numQueues
    (by rw [List.length_nil, Nat.zero_add]; exact Nat.lt_of_le_of_lt hslots (by decide)) hnames
      fun c hc => by cases hc
  have hresult : (init.addPorts layout numQueues portList).2 = none := hok
  refine ⟨fun _ =>
    ⟨hadded.listed, hadded.numbered, hadded.recorded, fun k name hk => hadded.named k name hk ?_⟩,
    fun hrefused => ?_, fun houtside => ?_, hinside⟩
  · -- every port has an element of the table of the agent
    have hlt := (List.getElem?_eq_some_iff.1 hk).1
    rw [maxPortsNames]
    omega
  · rw [hresult] at hrefused
    cases hrefused
  · rw [hresult] at houtside
    cases houtside

/-- A list is stored, or refused without damage, exactly when there are at most 49 names of at most
199 bytes. -/
theorem addsWell_iff (layout : SwPortLayout) (numQueues : BitVec 16) (portList : PortName) :
    AddsWell layout numQueues portList.bytes ↔ Fits (portNames portList.bytes) :=
  ⟨fun h => h.fits portList.zero_notMem, addsWell_of_fits portList.zero_notMem⟩

/-- The fields of `struct sw_port` on a 64-bit host that stores the low byte first. -/
def hostLayout : SwPortLayout where
  sizeofSwPort := 840
  offsetofNetdev := 24
  sizeofPointer := 8
  offsetofPortNo := 104
  host := .little
  netdev_le := by decide
  numQueues_le := by decide

/-- A name of 200 bytes is neither stored nor refused, and no more are 50 names of one byte. -/
theorem not_addsWell : ¬ AddsWell hostLayout 8 (List.replicate 200 112) ∧
    ¬ AddsWell hostLayout 8 (List.replicate 50 [112, 44]).flatten := by
  constructor
  · intro h
    have hlong := (h.fits (by decide +kernel)).2 (List.replicate 200 112) (by decide +kernel)
    exact absurd hlong (by decide +kernel)
  · intro h
    exact absurd (h.fits (by decide +kernel)).1 (by decide +kernel)

end PortTables

end OfAgent
