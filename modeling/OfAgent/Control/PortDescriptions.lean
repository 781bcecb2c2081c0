import OfAgent.Forward.Receive
import OfAgent.Packet.Composed
import OfAgent.Secchan.PortWatcher

/-!
# Descriptions of ports

`fill_port_desc` as it stores bytes into a description of a port, and the ports that the command
line adds to a datapath, with their names. Only `new_port` of the local port gives a port a network
device: the one that its uninitialised `netdev` happens to point to.

* `NamedPort.stores`: the stores of `fill_port_desc`; `NamedPort.describe`: what they leave behind.
* `PortConfig.configure`: the ports of a command line, added one after the other.
* `PortConfig.Described`: whatever becomes of the ports, the reply to a request for features
  describes each of them once and rightly.
* `described_iff`: that is so exactly when the local port is the only one, if there is any, and
  `netdev` happens to point to a device of the same name.
* `nulTerminated_name_iff`: which names of ports without a device are readable at least.
-/

namespace OfAgent

/-! ### Names -/

/-- A string of C. -/
structure PortName where
  /-- The bytes in front of the terminator. -/
  bytes : List Byte
  /-- No byte of it is the terminator. -/
  zero_notMem : 0 ∉ bytes

/-- The name as it is shown. -/
def PortName.truncated (s : PortName) : List Byte := s.bytes.take 15

/-- `strncpy` of a string to a field: zeros fill up what is left of the field. -/
def PortName.copied (s : PortName) (size : ℕ) : List Byte :=
  (List.range size).map fun i => s.bytes.getD i 0

/-- The string in a field, if it is terminated there. -/
def nulTerminated : List Byte → Option (List Byte)
  | [] => none
  | b :: bs => if b = 0 then some [] else (nulTerminated bs).map (b :: ·)

/-! ### Descriptions -/

/-- `struct netdev`, as far as a description shows it. -/
structure Netdev where
  /-- `name`. -/
  name : PortName
  /-- `etheraddr`. -/
  etheraddr : BitVec 48
  /-- `NETDEV_FEAT_CURRENT`. -/
  current : BitVec 32
  /-- `NETDEV_FEAT_SUPPORTED`. -/
  supported : BitVec 32
  /-- `NETDEV_FEAT_ADVERTISED`. -/
  advertised : BitVec 32
  /-- `NETDEV_FEAT_PEER`. -/
  peer : BitVec 32

/-- `struct sw_port` with its name. -/
structure NamedPort extends SwPort where
  /-- `netdev_name`. -/
  netdevName : PortName
  /-- What `netdev` points to. -/
  device : Option Netdev
  /-- `netdev` is the null pointer if it points to nothing. -/
  netdev_eq : toSwPort.netdev = device.isSome

/-- The fields of `struct ofp_phy_port`. -/
inductive OfpPhyPortField
  | portNo
  | hwAddr
  | name
  | config
  | state
  | curr
  | advertised
  | supported
  | peer
  deriving DecidableEq, Repr

namespace OfpPhyPortField

/-- Where a field starts. -/
def offset : OfpPhyPortField → ℕ
  | portNo => 0
  | hwAddr => 2
  | name => 8
  | config => 24
  | state => 28
  | curr => 32
  | advertised => 36
  | supported => 40
  | peer => 44

/-- How many bytes a field has. -/
def size : OfpPhyPortField → ℕ
  | portNo => 2
  | hwAddr => 6
  | name => 16
  | _ => 4

end OfpPhyPortField

/-- Bytes that are stored by way of a field, from an index of it on. -/
structure FieldStore where
  /-- The field. -/
  field : OfpPhyPortField
  /-- The index of the first byte. -/
  index : ℕ
  /-- The bytes. -/
  bytes : List Byte

/-- The store, in the memory from the start of a description on. -/
def FieldStore.apply (m : Memory) (s : FieldStore) : Memory :=
  m.put (s.field.offset + s.index) s.bytes

/-- The store stays in its field. -/
def FieldStore.Inside (s : FieldStore) : Prop := s.index + s.bytes.length ≤ s.field.size

namespace NamedPort

variable (p : NamedPort)

/-- The stores of `fill_port_desc`, in order. -/
def stores : List FieldStore :=
  [⟨.portNo, 0, Memory.bytes16 p.portNo⟩] ++
    (match p.device with
      | some netdev =>
          [⟨.name, 0, netdev.name.copied 16⟩, ⟨.name, 15, [0]⟩,
            ⟨.hwAddr, 0, bytes48 netdev.etheraddr⟩,
            ⟨.curr, 0, Memory.bytes32 netdev.current⟩,
            ⟨.supported, 0, Memory.bytes32 netdev.supported⟩,
            ⟨.advertised, 0, Memory.bytes32 netdev.advertised⟩,
            ⟨.peer, 0, Memory.bytes32 netdev.peer⟩]
      | none =>
          -- six characters, and the number of the port where it does not belong
          [⟨.name, 0, p.netdevName.copied 16⟩, ⟨.hwAddr, 0, List.replicate 6 0x30⟩,
            ⟨.hwAddr, 15, [p.portNo.setWidth 8]⟩]) ++
    [⟨.config, 0, Memory.bytes32 p.toSwPort.fillFlags.config⟩,
      ⟨.state, 0, Memory.bytes32 p.toSwPort.fillFlags.state⟩]

/-- `fill_port_desc` on a zeroed description. -/
def describe : OfpPhyPortDesc :=
  .ofMemory (p.stores.foldl FieldStore.apply fun _ => 0) 0

/-- What does not change about a port. -/
def key : BitVec 16 × PortName × Option Netdev := (p.portNo, p.netdevName, p.device)

end NamedPort

/-! ### The ports of a datapath -/

/-- What is wrong with a port that is added. -/
inductive PortFault
  /-- There is no element of `ports` for the number. -/
  | noSlot
  /-- The port is in `port_list` already, and is zeroed there. -/
  | relinked
  /-- The name and its terminator do not fit into `netdev_name`. -/
  | nameTooLong
  deriving DecidableEq, Repr

/-- `MAX_HW_NAME_LEN`. -/
def maxHwNameLen : ℕ := 200

/-- The ports of a command line. -/
structure PortConfig where
  /-- The numbers and names of ports, in order. -/
  ports : List (BitVec 16 × PortName)
  /-- The name of the local port. -/
  localPort : Option PortName
  /-- What `netdev` of `new_port` happens to point to when the local port is added. -/
  netdev : Option Netdev
  /-- `num_queues`. -/
  numQueues : Fin (netdevMaxQueues + 1)

namespace PortConfig

variable (cfg : PortConfig)

/-- `new_port` with the name. -/
def newPort (portNo : BitVec 16) (name : PortName) (numQueues : Fin (netdevMaxQueues + 1))
    (real : portNo.toNat < dpMaxPorts ∨ portNo = ofppLocal) : Except PortFault NamedPort :=
  if name.bytes.length < maxHwNameLen then
    .ok { OfAgent.newPort cfg.netdev.isSome portNo numQueues real with
      netdevName := name
      device := if portNo = ofppLocal then cfg.netdev else none
      netdev_eq := by
        show (portNo == ofppLocal && cfg.netdev.isSome) = _
        by_cases h : portNo = ofppLocal <;> simp [h] }
  else .error .nameTooLong

/-- `dp_add_port`. An element of `ports` never has a network device. -/
def dpAddPort (ports : List NamedPort) (c : BitVec 16 × PortName) :
    Except PortFault (List NamedPort) :=
  if h : c.1.toNat < dpMaxPorts then
    if ∃ p ∈ ports, p.portNo = c.1 then .error .relinked
    else (cfg.newPort c.1 c.2 cfg.numQueues (.inl h)).map fun p => ports ++ [p]
  else .error .noSlot

theorem real_ofppLocal : ofppLocal.toNat < dpMaxPorts ∨ ofppLocal = ofppLocal := .inr rfl

/-- `dp_add_local_port`. -/
def dpAddLocalPort (ports : List NamedPort) (name : PortName) : Except PortFault (List NamedPort) :=
  (cfg.newPort ofppLocal name 0 real_ofppLocal).map fun p => ports ++ [p]

/-- The beginning of `udatapath_cmd`: all ports are added. -/
def configure : Except PortFault (List NamedPort) := do
  let ports ← cfg.ports.foldlM cfg.dpAddPort []
  match cfg.localPort with
  | some name => cfg.dpAddLocalPort ports name
  | none => pure ports

/-- The ports that there should be. -/
def expected : List (BitVec 16 × PortName) :=
  cfg.ports ++ (cfg.localPort.map fun name => (ofppLocal, name)).toList

/-- The descriptions of ports are those of the expected ones. -/
structure Describes (expected : List (BitVec 16 × PortName)) (ports : List NamedPort) : Prop where
  /-- Each port is described. -/
  complete : (ports.map fun p => p.describe.portNo) = expected.map fun c => c.1
  /-- None is described twice. -/
  nodup : (ports.map fun p => p.describe.portNo).Nodup
  /-- The names are terminated and are those of the ports, truncated. -/
  names : (ports.map fun p => nulTerminated p.describe.name) =
    expected.map fun c => some c.2.truncated
  /-- The addresses occupy only their field. -/
  inside : ∀ p ∈ ports, ∀ s ∈ p.stores, s.field = .hwAddr → s.Inside
  /-- They are different ones. -/
  distinct : (ports.map fun p => p.describe.hwAddr).Nodup

/-- The ports are added, and `dp_send_features_reply` describes them rightly whatever becomes of
their flags and queues. -/
def Described : Prop :=
  ∃ ports, cfg.configure = .ok ports ∧
    ∀ ports' : List NamedPort, ports'.map NamedPort.key = ports.map NamedPort.key →
      Describes cfg.expected ports'

end PortConfig

/-! ### Strings in fields -/

/-- A field holds a string if it has its bytes and then a terminator. -/
theorem nulTerminated_eq_some_iff {field s : List Byte} (hs : 0 ∉ s) :
    nulTerminated field = some s ↔
      s.length < field.length ∧ field.getD s.length 0 = 0 ∧
        ∀ i < s.length, field.getD i 0 = s.getD i 0 := by
  induction field generalizing s with
  | nil => simp [nulTerminated]
  | cons b field ih =>
    unfold nulTerminated
    cases s with
    | nil =>
      by_cases hb : b = 0 <;> simp [hb]
    | cons c s =>
      rw [List.mem_cons, not_or] at hs
      by_cases hb : b = 0
      · -- the string does not end here
        subst hb
        rw [if_pos rfl]
        refine iff_of_false (by simp) ?_
        rintro ⟨-, -, hall⟩
        exact hs.1 (hall 0 (Nat.zero_lt_succ _))
      · rw [if_neg hb]
        have hrest : (nulTerminated field).map (b :: ·) = some (c :: s) ↔
            b = c ∧ nulTerminated field = some s := by
          cases nulTerminated field with
          | none => simp
          | some t => simp
        rw [hrest, ih hs.2]
        constructor
        · rintro ⟨rfl, hlt, hend, hall⟩
          refine ⟨Nat.succ_lt_succ hlt, hend, fun i hi => ?_⟩
          cases i with
          | zero => rfl
          | succ i => exact hall i (Nat.lt_of_succ_lt_succ hi)
        · rintro ⟨hlt, hend, hall⟩
          exact ⟨hall 0 (Nat.zero_lt_succ _), Nat.lt_of_succ_lt_succ hlt, hend,
            fun i hi => hall (i + 1) (Nat.succ_lt_succ hi)⟩

namespace PortName

variable (s : PortName)

theorem zero_notMem_truncated : 0 ∉ s.truncated :=
  fun h => s.zero_notMem (List.mem_of_mem_take h)

theorem length_truncated : s.truncated.length = min 15 s.bytes.length := List.length_take

/-- A byte of a name is zero exactly behind its end. -/
theorem getD_eq_zero_iff (i : ℕ) : s.bytes.getD i 0 = 0 ↔ s.bytes.length ≤ i := by
  rw [List.getD_eq_getElem?_getD]
  by_cases hi : i < s.bytes.length
  · rw [List.getElem?_eq_getElem hi, Option.getD_some]
    refine iff_of_false (fun h => s.zero_notMem ?_) (by omega)
    rw [← h]
    exact List.getElem_mem hi
  · rw [List.getElem?_eq_none (not_lt.1 hi)]
    exact iff_of_true rfl (not_lt.1 hi)

theorem getD_truncated {i : ℕ} (hi : i < 15) : s.truncated.getD i 0 = s.bytes.getD i 0 := by
  simp [truncated, List.getD_eq_getElem?_getD, hi]

/-- A copy of the name in which one byte is overwritten. -/
theorem getD_copied_set {size i : ℕ} (hi : i < size) (j : ℕ) (b : Byte) :
    ((s.copied size).set j b).getD i 0 = if j = i then b else s.bytes.getD i 0 := by
  rw [List.getD_eq_getElem?_getD, List.getElem?_set]
  simp only [copied, List.length_map, List.length_range, List.getElem?_map]
  split_ifs with hj hsize
  · rfl
  · omega
  · simp [List.getElem?_range hi]

/-- A copy with a terminator as its last byte holds the truncated name. -/
theorem nulTerminated_copied : nulTerminated ((s.copied 16).set 15 0) = some s.truncated := by
  rw [nulTerminated_eq_some_iff s.zero_notMem_truncated]
  have hlen := s.length_truncated
  have hfield : ((s.copied 16).set 15 0).length = 16 := by simp [copied]
  refine ⟨by omega, ?_, fun i hi => ?_⟩
  · rw [s.getD_copied_set (by omega)]
    split_ifs with hend
    · rfl
    · rw [s.getD_eq_zero_iff]
      omega
  · rw [s.getD_copied_set (by omega), if_neg (by omega), s.getD_truncated (by omega)]

/-- A copy without one, in which the tenth byte is overwritten, holds the truncated name exactly if
this ends before, or has that byte there and ends in the field. -/
theorem nulTerminated_overwritten_iff (b : Byte) :
    nulTerminated ((s.copied 16).set 9 b) = some s.truncated ↔
      s.bytes.length ≤ 8 ∨ s.bytes.length ≤ 15 ∧ s.bytes.getD 9 0 = b := by
  rw [nulTerminated_eq_some_iff s.zero_notMem_truncated]
  have hlen := s.length_truncated
  have hfield : ((s.copied 16).set 9 b).length = 16 := by simp [copied]
  have hbyte : ∀ i < 16, ((s.copied 16).set 9 b).getD i 0 =
      if 9 = i then b else s.bytes.getD i 0 := fun i hi => s.getD_copied_set hi 9 b
  constructor
  · rintro ⟨-, hend, hall⟩
    rw [or_iff_not_imp_left, not_le]
    intro hlong
    rw [hbyte _ (by omega)] at hend
    -- the overwritten byte is the one that ends the name, or one of the name
    by_cases hnine : s.bytes.length = 9
    · rw [if_pos (by omega)] at hend
      exact ⟨by omega, ((s.getD_eq_zero_iff 9).2 (by omega)).trans hend.symm⟩
    · rw [if_neg (by omega), s.getD_eq_zero_iff] at hend
      have htenth := hall 9 (by omega)
      rw [hbyte 9 (by omega), if_pos rfl, s.getD_truncated (by omega)] at htenth
      exact ⟨by omega, htenth.symm⟩
  · intro hname
    have hbytes : ∀ i < 16, i ≤ s.bytes.length → s.bytes.length ≤ 15 →
        ((s.copied 16).set 9 b).getD i 0 = s.bytes.getD i 0 := by
      intro i hi hle hshort
      rw [hbyte i hi]
      split_ifs with hnine
      · rw [← hnine]
        exact (hname.resolve_left (by omega)).2.symm
      · rfl
    refine ⟨by omega, ?_, fun i hi => ?_⟩
    · rw [hbytes _ (by omega) (by omega) (by omega), s.getD_eq_zero_iff]
      omega
    · rw [hbytes i (by omega) (by omega) (by omega), s.getD_truncated (by omega)]

end PortName

/-! ### What is described -/

/-- A byte that is stored into an area. -/
theorem Memory.slice_put_singleton (m : Memory) (off n i : ℕ) (b : Byte) :
    (m.put (off + i) [b]).slice off n = (m.slice off n).set i b := by
  apply List.ext_getElem
  · simp
  · intro j h₁ h₂
    rw [List.getElem_set]
    simp only [Memory.slice, List.getElem_map, List.getElem_range]
    split_ifs with hij
    · rw [← hij]
      exact Memory.put_of_inside m (i := 0) Nat.zero_lt_one
    · exact Memory.put_of_outside m (by simp only [List.length_singleton]; omega)

/-- Stores elsewhere leave the bytes of an area alone. -/
theorem slice_foldl_apply {stores : List FieldStore} {off n : ℕ}
    (h : ∀ s ∈ stores, off + n ≤ s.field.offset + s.index ∨
      s.field.offset + s.index + s.bytes.length ≤ off) (m : Memory) :
    (stores.foldl FieldStore.apply m).slice off n = m.slice off n := by
  induction stores generalizing m with
  | nil => rfl
  | cons s stores ih =>
    rw [List.foldl_cons, ih (fun t ht => h t (List.mem_cons_of_mem _ ht)), FieldStore.apply]
    exact Memory.slice_put_of_outside m (h s List.mem_cons_self)

/-- What has been stored into an area stays there if nothing else is. -/
theorem slice_apply_foldl {s : FieldStore} {stores : List FieldStore}
    (h : ∀ t ∈ stores, s.field.offset + s.index + s.bytes.length ≤ t.field.offset + t.index ∨
      t.field.offset + t.index + t.bytes.length ≤ s.field.offset + s.index) (m : Memory) :
    ((s :: stores).foldl FieldStore.apply m).slice (s.field.offset + s.index) s.bytes.length =
      s.bytes := by
  rw [List.foldl_cons, slice_foldl_apply h]
  have hput : (m.put (s.field.offset + s.index) s.bytes).slice (s.field.offset + s.index + 0)
      s.bytes.length = (s.bytes.drop 0).take s.bytes.length :=
    Memory.slice_put_of_inside m (by omega)
  rw [Nat.add_zero, List.drop_zero, List.take_length] at hput
  exact hput

/-- A name that has been copied into a description, and of which one byte is overwritten later. -/
theorem slice_name_overwritten {s : PortName} {t : FieldStore} {i : ℕ} {b : Byte}
    (hindex : t.field.offset + t.index = 8 + i) (hbytes : t.bytes = [b]) {l l' : List FieldStore}
    (h : ∀ r ∈ l ++ l', 24 ≤ r.field.offset + r.index ∨
      r.field.offset + r.index + r.bytes.length ≤ 8) (m : Memory) :
    ((⟨.name, 0, s.copied 16⟩ :: (l ++ t :: l')).foldl FieldStore.apply m).slice 8 16 =
      (s.copied 16).set i b := by
  have hlen : (s.copied 16).length = 16 := by simp [PortName.copied]
  have hcopy : ((⟨.name, 0, s.copied 16⟩ :: l).foldl FieldStore.apply m).slice 8
      (s.copied 16).length = s.copied 16 := by
    refine slice_apply_foldl (s := ⟨.name, 0, s.copied 16⟩) (fun r hr => ?_) m
    simp only [hlen]
    exact h r (List.mem_append_left _ hr)
  rw [hlen] at hcopy
  rw [← List.cons_append, List.foldl_append, List.foldl_cons,
    slice_foldl_apply fun r hr => h r (List.mem_append_right _ hr), FieldStore.apply, hindex,
    hbytes, Memory.slice_put_singleton]
  exact congrArg (fun copy => copy.set i b) hcopy

namespace NamedPort

variable {p : NamedPort} {netdev : Netdev}

/-- All stores but the first are behind the number of the port. -/
theorem offset_of_mem_tail {t : FieldStore} (ht : t ∈ p.stores.tail) :
    2 ≤ t.field.offset + t.index := by
  -- the fields depend on the device alone, and the number of the port is the first of them
  have hfields : ∀ f ∈ p.stores.tail.map FieldStore.field, 2 ≤ f.offset := by
    unfold stores
    cases p.device with
    | none =>
      show ∀ f ∈ [OfpPhyPortField.name, .hwAddr, .hwAddr, .config, .state], 2 ≤ f.offset
      decide
    | some netdev =>
      show ∀ f ∈ [OfpPhyPortField.name, .name, .hwAddr, .curr, .supported, .advertised, .peer,
        .config, .state], 2 ≤ f.offset
      decide
  exact Nat.le_add_right_of_le (hfields _ (List.mem_map_of_mem ht))

theorem describe_portNo (p : NamedPort) : p.describe.portNo = p.portNo := by
  have hslice : Cursor.Holds (p.stores.foldl FieldStore.apply fun _ => 0) ⟨0, 2⟩
      (Memory.bytes16 p.portNo) := by
    refine slice_apply_foldl (s := ⟨.portNo, 0, Memory.bytes16 p.portNo⟩) ?_ _
    exact fun t ht => .inl (offset_of_mem_tail ht)
  exact hslice.get16 (i := 0) rfl

/-- The address and the name of a port with a network device. -/
theorem describe_of_some (h : p.device = some netdev) :
    p.describe.hwAddr = netdev.etheraddr ∧
      p.describe.name = (netdev.name.copied 16).set 15 0 := by
  unfold describe stores
  rw [h]
  simp only [List.cons_append, List.nil_append]
  constructor
  · -- nothing is stored behind the address but features and flags
    have haddr : ∀ m : Memory, Cursor.Holds
        ([⟨.hwAddr, 0, bytes48 netdev.etheraddr⟩, ⟨.curr, 0, Memory.bytes32 netdev.current⟩,
          ⟨.supported, 0, Memory.bytes32 netdev.supported⟩,
          ⟨.advertised, 0, Memory.bytes32 netdev.advertised⟩,
          ⟨.peer, 0, Memory.bytes32 netdev.peer⟩,
          ⟨.config, 0, Memory.bytes32 p.toSwPort.fillFlags.config⟩,
          ⟨.state, 0, Memory.bytes32 p.toSwPort.fillFlags.state⟩].foldl FieldStore.apply m)
        ⟨2, 6⟩ (bytes48 netdev.etheraddr) := by
      intro m
      refine slice_apply_foldl (s := ⟨.hwAddr, 0, bytes48 netdev.etheraddr⟩) ?_ m
      simp [OfpPhyPortField.offset, bytes48, Memory.bytes16, Memory.bytes32]
    exact (haddr _).get48 (i := 0) rfl
  · refine slice_name_overwritten (t := ⟨.name, 15, [0]⟩) (l := []) rfl rfl ?_ _
    simp [OfpPhyPortField.offset, bytes48, Memory.bytes16, Memory.bytes32]

/-- Those of a port without one. -/
theorem describe_of_none (h : p.device = none) :
    p.describe.hwAddr = 0x303030303030 ∧
      p.describe.name = (p.netdevName.copied 16).set 9 (p.portNo.setWidth 8) := by
  unfold describe stores
  rw [h]
  simp only [List.cons_append, List.nil_append]
  constructor
  · have haddr : ∀ m : Memory, Cursor.Holds
        ([⟨.hwAddr, 0, List.replicate 6 0x30⟩, ⟨.hwAddr, 15, [p.portNo.setWidth 8]⟩,
          ⟨.config, 0, Memory.bytes32 p.toSwPort.fillFlags.config⟩,
          ⟨.state, 0, Memory.bytes32 p.toSwPort.fillFlags.state⟩].foldl FieldStore.apply m)
        ⟨2, 6⟩ (bytes48 0x303030303030) := by
      intro m
      refine slice_apply_foldl (s := ⟨.hwAddr, 0, List.replicate 6 0x30⟩) ?_ m
      simp [OfpPhyPortField.offset]
    exact (haddr _).get48 (i := 0) rfl
  · refine slice_name_overwritten (t := ⟨.hwAddr, 15, [p.portNo.setWidth 8]⟩)
      (l := [⟨.hwAddr, 0, List.replicate 6 0x30⟩]) rfl rfl ?_ _
    simp [OfpPhyPortField.offset, Memory.bytes16, Memory.bytes32]

/-- Which names are readable: those of devices, and of ports without one if the number of the port
is written behind their end, or happens to agree with the byte that it is written over. -/
theorem nulTerminated_name_iff (p : NamedPort) :
    nulTerminated p.describe.name = some p.netdevName.truncated ↔
      match p.device with
      | some netdev => netdev.name.truncated = p.netdevName.truncated
      | none => p.netdevName.bytes.length ≤ 8 ∨
          p.netdevName.bytes.length ≤ 15 ∧ p.netdevName.bytes.getD 9 0 = p.portNo.setWidth 8 := by
  cases h : p.device with
  | some netdev =>
    rw [(describe_of_some h).2, PortName.nulTerminated_copied, Option.some.injEq]
  | none =>
    rw [(describe_of_none h).2]
    exact p.netdevName.nulTerminated_overwritten_iff _

/-- The address stays in its field exactly if it is that of a device. -/
theorem inside_iff (p : NamedPort) :
    (∀ s ∈ p.stores, s.field = .hwAddr → s.Inside) ↔ p.device.isSome := by
  cases h : p.device with
  | some netdev =>
    refine iff_of_true (fun s hs hfield => ?_) rfl
    unfold stores at hs
    rw [h] at hs
    have heq : s = ⟨.hwAddr, 0, bytes48 netdev.etheraddr⟩ := by
      simp only [List.cons_append, List.nil_append, List.mem_cons, List.not_mem_nil, or_false] at hs
      obtain rfl | rfl | rfl | rfl | rfl | rfl | rfl | rfl | rfl | rfl := hs <;>
        first | rfl | exact absurd hfield (by simp)
    rw [heq]
    exact le_of_eq rfl
  | none =>
    refine iff_of_false (fun hall => ?_) (by simp)
    have hmem : ⟨.hwAddr, 15, [p.portNo.setWidth 8]⟩ ∈ p.stores := by simp [stores, h]
    have hinside : 15 + 1 ≤ 6 := hall _ hmem rfl
    omega

end NamedPort

/-! ### The ports of a command line -/

namespace PortConfig

variable {cfg : PortConfig} {ports ports' : List NamedPort}

/-- What is kept of a port that is added. -/
theorem key_of_newPort {portNo : BitVec 16} {name : PortName}
    {numQueues : Fin (netdevMaxQueues + 1)} {real : portNo.toNat < dpMaxPorts ∨ portNo = ofppLocal}
    {p : NamedPort} (h : cfg.newPort portNo name numQueues real = .ok p) :
    p.key = (portNo, name, if portNo = ofppLocal then cfg.netdev else none) := by
  unfold newPort at h
  by_cases hlen : name.bytes.length < maxHwNameLen
  · rw [if_pos hlen] at h
    cases h
    rfl
  · rw [if_neg hlen] at h
    cases h

/-- A port with a number below the limit has no device. -/
theorem key_of_dpAddPort {c : BitVec 16 × PortName} (h : cfg.dpAddPort ports c = .ok ports') :
    ports'.map NamedPort.key = ports.map NamedPort.key ++ [(c.1, c.2, none)] := by
  unfold dpAddPort at h
  split_ifs at h with hslot hlinked
  cases hnew : cfg.newPort c.1 c.2 cfg.numQueues (.inl hslot) with
  | error e =>
    rw [hnew] at h
    cases h
  | ok p =>
    rw [hnew] at h
    cases h
    have hne : c.1 ≠ ofppLocal := by
      intro heq
      rw [heq] at hslot
      exact absurd hslot (by decide)
    rw [List.map_append, List.map_cons, key_of_newPort hnew, if_neg hne]
    rfl

/-- The ports of a command line are added in order. -/
theorem key_of_foldlM {cs : List (BitVec 16 × PortName)}
    (h : cs.foldlM cfg.dpAddPort ports = .ok ports') :
    ports'.map NamedPort.key = ports.map NamedPort.key ++ cs.map fun c => (c.1, c.2, none) := by
  induction cs generalizing ports with
  | nil =>
    cases h
    rw [List.map_nil, List.append_nil]
  | cons c cs ih =>
    rw [List.foldlM_cons] at h
    cases hc : cfg.dpAddPort ports c with
    | error e =>
      rw [hc] at h
      cases h
    | ok ports₁ =>
      rw [hc] at h
      rw [ih h, key_of_dpAddPort hc, List.append_assoc]
      rfl

/-- And the local port comes last. -/
theorem key_of_configure (h : cfg.configure = .ok ports) :
    ports.map NamedPort.key = (cfg.ports.map fun c => (c.1, c.2, none)) ++
      (cfg.localPort.map fun name => (ofppLocal, name, cfg.netdev)).toList := by
  unfold configure at h
  cases hports : cfg.ports.foldlM cfg.dpAddPort [] with
  | error e =>
    rw [hports] at h
    cases h
  | ok ports₀ =>
    rw [hports] at h
    -- the ports in front of it come in the order of the configuration
    have hkey := key_of_foldlM hports
    rw [List.map_nil, List.nil_append] at hkey
    rw [← hkey]
    cases hlocal : cfg.localPort with
    | none =>
      simp only [hlocal] at h
      cases h
      simp
    | some name =>
      simp only [hlocal] at h
      change (cfg.newPort ofppLocal name 0 (.inr rfl)).map (fun p => ports₀ ++ [p]) = _ at h
      cases hnew : cfg.newPort ofppLocal name 0 (.inr rfl) with
      | error e =>
        rw [hnew] at h
        cases h
      | ok p =>
        rw [hnew] at h
        cases h
        rw [List.map_append, List.map_cons, key_of_newPort hnew, if_pos rfl]
        rfl

/-- What is asked of the local port. -/
def LocalNamed (cfg : PortConfig) : Prop :=
  ∀ name, cfg.localPort = some name → name.bytes.length < maxHwNameLen ∧
    ∃ netdev, cfg.netdev = some netdev ∧ netdev.name.truncated = name.truncated

/-- A port alone is described rightly exactly if it has a device of the same name. -/
theorem describes_singleton_iff (p : NamedPort) :
    Describes [(p.portNo, p.netdevName)] [p] ↔
      ∃ netdev, p.device = some netdev ∧ netdev.name.truncated = p.netdevName.truncated := by
  constructor
  · intro h
    obtain ⟨netdev, hnetdev⟩ :=
      Option.isSome_iff_exists.1 (p.inside_iff.1 (h.inside p List.mem_cons_self))
    have hname := p.nulTerminated_name_iff.1 (List.singleton_inj.1 h.names)
    rw [hnetdev] at hname
    exact ⟨netdev, hnetdev, hname⟩
  · rintro ⟨netdev, hnetdev, hname⟩
    have hshown : nulTerminated p.describe.name = some p.netdevName.truncated := by
      rw [p.nulTerminated_name_iff, hnetdev]
      exact hname
    constructor
    · exact congrArg (fun n => [n]) p.describe_portNo
    · exact List.nodup_singleton _
    · exact congrArg (fun n => [n]) hshown
    · intro q hq
      rw [List.mem_singleton.1 hq, p.inside_iff, hnetdev]
      rfl
    · exact List.nodup_singleton _

/-- Only the local port can be described rightly. -/
theorem Described.ports_eq_nil (h : cfg.Described) : cfg.ports = [] := by
  obtain ⟨ports, hports, hall⟩ := h
  have hkey := key_of_configure hports
  cases hcs : cfg.ports with
  | nil => rfl
  | cons c cs =>
    have hmem : (c.1, c.2, none) ∈ ports.map NamedPort.key := by simp [hkey, hcs]
    obtain ⟨p, hp, hpkey⟩ := List.mem_map.1 hmem
    have hdevice : p.device = none := congrArg (fun key => key.2.2) hpkey
    have hinside := p.inside_iff.1 ((hall ports rfl).inside p hp)
    rw [hdevice] at hinside
    cases hinside

/-- Without other ports, the local port is added alone. -/
theorem configure_of_nil (hnil : cfg.ports = []) {name : PortName}
    (hname : cfg.localPort = some name) :
    cfg.configure = (cfg.newPort ofppLocal name 0 (.inr rfl)).map fun p => [p] := by
  unfold configure
  rw [hnil, hname]
  rfl

/-- It is described rightly only if the device has its name. -/
theorem Described.localNamed (h : cfg.Described) : cfg.LocalNamed := by
  intro name hname
  have hnil := h.ports_eq_nil
  obtain ⟨ports, hports, hall⟩ := h
  rw [configure_of_nil hnil hname] at hports
  by_cases hlen : name.bytes.length < maxHwNameLen
  · cases hnew : cfg.newPort ofppLocal name 0 (.inr rfl) with
    | error e =>
      rw [hnew] at hports
      cases hports
    | ok p =>
      rw [hnew] at hports
      cases hports
      have hkey := key_of_newPort hnew
      rw [if_pos rfl] at hkey
      obtain ⟨hno, rfl, hdevice⟩ : p.portNo = ofppLocal ∧ p.netdevName = name ∧
          p.device = cfg.netdev := by simpa [NamedPort.key] using hkey
      have hdescribes : Describes [(p.portNo, p.netdevName)] [p] := by
        have hall := hall [p] rfl
        rwa [expected, hnil, hname, hno.symm] at hall
      rw [describes_singleton_iff, hdevice] at hdescribes
      exact ⟨hlen, hdescribes⟩
  · rw [newPort, if_neg hlen] at hports
    cases hports

end PortConfig

/-- The reply to a request for features describes the ports of a command line rightly exactly when
there is no port but the local one, and this happens to get a device of the same name. -/
theorem described_iff (cfg : PortConfig) : cfg.Described ↔ cfg.ports = [] ∧ cfg.LocalNamed := by
  constructor
  · exact fun h => ⟨h.ports_eq_nil, h.localNamed⟩
  rintro ⟨hnil, hlocal⟩
  cases hname : cfg.localPort with
  | none =>
    refine ⟨[], by rw [PortConfig.configure, hnil, hname]; rfl, fun ports' hkey => ?_⟩
    rw [List.map_nil, List.map_eq_nil_iff] at hkey
    rw [hkey, PortConfig.expected, hnil, hname]
    exact ⟨rfl, List.nodup_nil, rfl, fun p hp => absurd hp List.not_mem_nil, List.nodup_nil⟩
  | some name =>
    obtain ⟨hlen, netdev, hnetdev, hsame⟩ := hlocal name hname
    rcases hnew : cfg.newPort ofppLocal name 0 (.inr rfl) with e | p
    · rw [PortConfig.newPort, if_pos hlen] at hnew
      cases hnew
    refine ⟨[p], by rw [PortConfig.configure_of_nil hnil hname, hnew]; rfl, fun ports' hkey => ?_⟩
    rw [List.map_singleton, PortConfig.key_of_newPort hnew, if_pos rfl, hnetdev,
      List.map_eq_singleton_iff] at hkey
    obtain ⟨q, rfl, hq⟩ := hkey
    obtain ⟨hno, rfl, hdevice⟩ : q.portNo = ofppLocal ∧ q.netdevName = name ∧
        q.device = some netdev := by simpa [NamedPort.key] using hq
    rw [PortConfig.expected, hnil, hname, ← hno]
    exact (PortConfig.describes_singleton_iff q).2 ⟨netdev, hdevice, hsame⟩

/-- Two ports with names of nine bytes: each name is overwritten with the number of its port, and
both have the same address. -/
theorem not_described : ¬ ∀ cfg : PortConfig, cfg.Described := by
  intro h
  have hnil := (h ⟨[(1, ⟨[0x65, 0x74, 0x68, 0x30, 0x2e, 0x31, 0x30, 0x30, 0x31], by decide⟩),
    (2, ⟨[0x65, 0x74, 0x68, 0x30, 0x2e, 0x31, 0x30, 0x30, 0x32], by decide⟩)],
    none, none, 8⟩).ports_eq_nil
  exact absurd hnil (List.cons_ne_nil _ _)

end OfAgent
