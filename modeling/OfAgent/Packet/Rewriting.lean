import OfAgent.Packet.Checksum
import OfAgent.Packet.Writes

/-!
# Checksums behind rewritten fields

`set_nw_addr`, `set_nw_tos` and `set_tp_port` change a field of an IP packet and the checksums over
it, which they do not compute again, but update.

* `putNwAddrOn`, `putNwTosOn`, `putTpPortOn`: the functions on a host of either byte order.
* `wordTotal_slice_put16`: what a write does to the sum that a checksum covers.
* `Ipv4Packet`: a packet with good checksums. `Rewritten`: what an action should make of it.
* `RewriteOk`: when it does; `rewritten_iff`.
-/

namespace OfAgent

open OnesComplement

/-! ### The functions on a host -/

/-- The number in host order that a number of 32 bits in network order is, `ntohl`. -/
def HostOrder.ofNet32 : HostOrder → BitVec 32 → BitVec 32
  | big, x => x
  | little, x => (swap (lowWord x) ++ swap (highWord x) : BitVec 32)

/-- `recalc_csum16` on numbers in network order. -/
def recalcCsum16On (host : HostOrder) (c old new : BitVec 16) : BitVec 16 :=
  host.ofNet (recalcCsum16 (host.ofNet c) (host.ofNet old) (host.ofNet new))

/-- `recalc_csum32` on numbers in network order. -/
def recalcCsum32On (host : HostOrder) (c : BitVec 16) (old new : BitVec 32) : BitVec 16 :=
  host.ofNet (recalcCsum32 (host.ofNet c) (host.ofNet32 old) (host.ofNet32 new))

/-- The transport checksum after a change of an address, as `set_nw_addr` puts it. -/
def putAddrCsumOn (host : HostOrder) (b : Ofpbuf) (nwProto : BitVec 8) (old new : BitVec 32) :
    Ofpbuf :=
  if nwProto = ipTypeTcp then
    b.put16 (b.l4Pos + 16) (recalcCsum32On host (b.mem.get16 (b.l4Pos + 16)) old new)
  else if nwProto = ipTypeUdp then
    let csum := b.mem.get16 (b.l4Pos + 6)
    if csum ≠ 0 then
      let csum := recalcCsum32On host csum old new
      b.put16 (b.l4Pos + 6) (if csum = 0 then 0xffff else csum)
    else b
  else b

/-- The buffer that `set_nw_addr` makes. -/
def putNwAddrOn (host : HostOrder) (b : Ofpbuf) (key : SwFlowKey) (ah : List Byte) : Ofpbuf :=
  if key.flow.dlType = ethTypeIp then
    let new := be32 ah 4
    let field := b.l3Pos + if actionType ah = ofpatSetNwSrc then 12 else 16
    let b := putAddrCsumOn host b key.flow.nwProto (b.mem.get32 field) new
    let b := b.put16 (b.l3Pos + 10)
      (recalcCsum32On host (b.mem.get16 (b.l3Pos + 10)) (b.mem.get32 field) new)
    b.put32 field new
  else b

/-- The buffer that `set_nw_tos` makes. The type of service goes through `htons` as a number of its
own. -/
def putNwTosOn (host : HostOrder) (b : Ofpbuf) (key : SwFlowKey) (ah : List Byte) : Ofpbuf :=
  if key.flow.dlType = ethTypeIp then
    let old := b.mem (b.l3Pos + 1)
    -- set only 6 bits
    let new := (ah.getD 4 0 &&& 0xfc) ||| (old &&& 0x03)
    let csum := recalcCsum32 (host.ofNet (b.mem.get16 (b.l3Pos + 10)))
      ((host.ofNet (old.setWidth 16)).setWidth 32) ((host.ofNet (new.setWidth 16)).setWidth 32)
    let b := b.put16 (b.l3Pos + 10) (host.ofNet csum)
    b.put (b.l3Pos + 1) [new]
  else b

/-- The change of a port with the checksum at the given distance behind the transport header. -/
def putPortAtOn (host : HostOrder) (b : Ofpbuf) (csum field : ℕ) (new : BitVec 16) : Ofpbuf :=
  let b' := b.put16 (b.l4Pos + csum)
    (recalcCsum16On host (b.mem.get16 (b.l4Pos + csum)) (b.mem.get16 (b.l4Pos + field)) new)
  b'.put16 (b.l4Pos + field) new

/-- The buffer that `set_tp_port` makes. -/
def putTpPortOn (host : HostOrder) (b : Ofpbuf) (key : SwFlowKey) (ah : List Byte) : Ofpbuf :=
  if key.flow.dlType = ethTypeIp then
    let field := if actionType ah = ofpatSetTpSrc then 0 else 2
    if key.flow.nwProto = ipTypeTcp then putPortAtOn host b 16 field (be16 ah 4)
    else if key.flow.nwProto = ipTypeUdp then putPortAtOn host b 6 field (be16 ah 4)
    else b
  else b

/-- The action sets a field of an IP packet or of what it carries. -/
def setsIpField (a : List Byte) : Bool :=
  setsNwAddr a || actionType a == ofpatSetNwTos || setsTpPort a

/-- The buffer that such an action makes. -/
def rewriteOn (host : HostOrder) (b : Ofpbuf) (key : SwFlowKey) (a : List Byte) : Ofpbuf :=
  if setsNwAddr a then putNwAddrOn host b key a
  else if actionType a = ofpatSetNwTos then putNwTosOn host b key a
  else putTpPortOn host b key a

/-- On a host with the order of the network, this is what the action does. -/
theorem execute_eq_rewriteOn {a : List Byte} (h : setsIpField a = true) (b : Ofpbuf)
    (key : SwFlowKey) : ∃ execute, ofActionsExecute.getD (actionType a).toNat none = some execute ∧
      execute b key a = .ok (rewriteOn .big b key a, key) := by
  unfold rewriteOn
  by_cases haddr : setsNwAddr a = true
  · rw [if_pos haddr]
    refine ⟨setNwAddr, ?_, rfl⟩
    rw [setsNwAddr, Bool.or_eq_true, beq_iff_eq, beq_iff_eq] at haddr
    rcases haddr with h | h <;> rw [h] <;> rfl
  · rw [if_neg haddr]
    by_cases htos : actionType a = ofpatSetNwTos
    · rw [if_pos htos]
      refine ⟨setNwTos, ?_, rfl⟩
      rw [htos]
      rfl
    · rw [if_neg htos]
      refine ⟨setTpPort, ?_, rfl⟩
      rw [setsIpField, Bool.or_eq_true, Bool.or_eq_true, beq_iff_eq] at h
      obtain (h | h) | h := h
      · exact absurd h haddr
      · exact absurd h htos
      · rw [setsTpPort, Bool.or_eq_true, beq_iff_eq, beq_iff_eq] at h
        rcases h with h | h <;> rw [h] <;> rfl

/-! ### When an update is right -/

/-- `recalc_csum16` loses no carry. -/
def NoLoss16 (host : HostOrder) (c old new : BitVec 16) : Prop :=
  (host.ofNet new).toNat ≠ (host.ofNet c).toNat + (host.ofNet old).toNat + 1

/-- `recalc_csum32` loses no carry, neither with the low words nor with the high ones. -/
def NoLoss32 (host : HostOrder) (c : BitVec 16) (old new : BitVec 32) : Prop :=
  let c := host.ofNet c
  let old := host.ofNet32 old
  let new := host.ofNet32 new
  (lowWord new).toNat ≠ c.toNat + (lowWord old).toNat + 1 ∧
    (highWord new).toNat ≠
      (replace c (lowWord old) (lowWord new)).toNat + (highWord old).toNat + 1

instance (host : HostOrder) (c old new : BitVec 16) : Decidable (NoLoss16 host c old new) :=
  inferInstanceAs (Decidable (_ ≠ _))

instance (host : HostOrder) (c : BitVec 16) (old new : BitVec 32) :
    Decidable (NoLoss32 host c old new) := inferInstanceAs (Decidable (_ ∧ _))

/-- The order of the bytes does not matter for equal sums. -/
theorem total_map_ofNet_mod_iff (host : HostOrder) (xs ys : List (BitVec 16)) :
    total (xs.map host.ofNet) % 65535 = total (ys.map host.ofNet) % 65535 ↔
      total xs % 65535 = total ys % 65535 := by
  cases host with
  | big =>
    have hid : HostOrder.ofNet .big = id := rfl
    rw [hid, List.map_id, List.map_id]
  | little => exact total_map_swap_mod_iff xs ys

/-- A number in network order, back from the host. -/
@[simp]
theorem HostOrder.ofNet_ofNet (host : HostOrder) (x : BitVec 16) :
    host.ofNet (host.ofNet x) = x := by
  cases host with
  | big => rfl
  | little => exact swap_swap x

theorem HostOrder.ofNet_eq_iff {host : HostOrder} {x y : BitVec 16} :
    host.ofNet x = y ↔ x = host.ofNet y := by
  constructor
  · rintro rfl
    exact (HostOrder.ofNet_ofNet host x).symm
  · rintro rfl
    exact HostOrder.ofNet_ofNet host y

/-- The new checksum and the new value make up for the old ones exactly if no carry is lost. -/
theorem recalcCsum16On_iff {host : HostOrder} {c old new : BitVec 16} :
    ((recalcCsum16On host c old new).toNat + new.toNat) % 65535 =
        (c.toNat + old.toNat) % 65535 ↔ NoLoss16 host c old new := by
  have h := total_map_ofNet_mod_iff host [recalcCsum16On host c old new, new] [c, old]
  simp only [List.map_cons, List.map_nil, total_cons, total_nil, Nat.add_zero, recalcCsum16On,
    HostOrder.ofNet_ofNet] at h
  rw [recalcCsum16On, ← h, ← equal_replace_iff]
  exact equal_recalcCsum16_iff

/-- The high word of two words. -/
@[simp]
theorem highWord_append (a b : BitVec 16) : highWord (a ++ b : BitVec 32) = a := by
  unfold highWord
  ext i hi
  rw [BitVec.getElem_setWidth, BitVec.getLsbD_ushiftRight, BitVec.getLsbD_append, if_neg (by omega),
    Nat.add_sub_cancel_left, BitVec.getLsbD_eq_getElem]

/-- The low word of two words. -/
@[simp]
theorem lowWord_append (a b : BitVec 16) : lowWord (a ++ b : BitVec 32) = b := by
  unfold lowWord
  ext i hi
  rw [BitVec.getElem_setWidth, BitVec.getLsbD_append, if_pos hi, BitVec.getLsbD_eq_getElem]

/-- The words of a number on a host are the words that it has in network order. -/
theorem total_ofNet32 (host : HostOrder) (x : BitVec 32) :
    total ([highWord (host.ofNet32 x), lowWord (host.ofNet32 x)].map host.ofNet) =
      (highWord x).toNat + (lowWord x).toNat := by
  cases host with
  | big =>
    have hid : HostOrder.ofNet .big = id := rfl
    rw [hid, List.map_id]
    simp [HostOrder.ofNet32]
  | little =>
    simp only [HostOrder.ofNet32, highWord_append, lowWord_append, List.map_cons, List.map_nil,
      HostOrder.ofNet,
      swap_swap, total_cons, total_nil, Nat.add_zero]
    exact Nat.add_comm _ _

/-- The same of a number of two words. -/
theorem recalcCsum32On_iff {host : HostOrder} {c : BitVec 16} {old new : BitVec 32} :
    ((recalcCsum32On host c old new).toNat + ((highWord new).toNat + (lowWord new).toNat)) % 65535 =
        (c.toNat + ((highWord old).toNat + (lowWord old).toNat)) % 65535 ↔
      NoLoss32 host c old new := by
  rw [← total_ofNet32 host new, ← total_ofNet32 host old]
  have h := total_map_ofNet_mod_iff host
    [recalcCsum32 (host.ofNet c) (host.ofNet32 old) (host.ofNet32 new), highWord (host.ofNet32 new),
      lowWord (host.ofNet32 new)]
    [host.ofNet c, highWord (host.ofNet32 old), lowWord (host.ofNet32 old)]
  simp only [List.map_cons, List.map_nil, total_cons, total_nil, Nat.add_zero,
    HostOrder.ofNet_ofNet] at h ⊢
  rw [recalcCsum32On, h]
  -- the low words first, then the high ones
  unfold NoLoss32
  generalize host.ofNet32 old = old
  generalize host.ofNet32 new = new
  generalize host.ofNet c = c
  have hlow : ((replace c (lowWord old) (lowWord new)).toNat + (lowWord new).toNat) % 65535 =
      (c.toNat + (lowWord old).toNat) % 65535 := equal_replace_iff.1 (equal_self _)
  simp only
  rw [← equal_recalcCsum32_iff, equal_replace_iff]
  omega

/-- A number of one word has that word and a high word of zero. -/
theorem lowWord_setWidth (x : BitVec 16) : lowWord (x.setWidth 32) = x := by
  unfold lowWord
  apply BitVec.eq_of_toNat_eq
  have hx := x.isLt
  rw [BitVec.toNat_setWidth, BitVec.toNat_setWidth]
  omega

/-- The high word of a number of one word. -/
theorem highWord_setWidth (x : BitVec 16) : highWord (x.setWidth 32) = 0 := by
  apply BitVec.eq_of_toNat_eq
  have hx := x.isLt
  rw [highWord, BitVec.toNat_setWidth, BitVec.toNat_ushiftRight, BitVec.toNat_setWidth,
    Nat.shiftRight_eq_div_pow]
  change x.toNat % 2 ^ 32 / 2 ^ 16 % 2 ^ 16 = 0
  omega

/-- The same of `recalc_csum32` on a number of one word: its high word loses no carry. -/
theorem recalcCsum32_word_iff {host : HostOrder} {c old new : BitVec 16} :
    ((host.ofNet (recalcCsum32 (host.ofNet c) ((host.ofNet old).setWidth 32)
        ((host.ofNet new).setWidth 32))).toNat + new.toNat) % 65535 =
        (c.toNat + old.toNat) % 65535 ↔ NoLoss16 host c old new := by
  have h := total_map_ofNet_mod_iff host [host.ofNet (recalcCsum32 (host.ofNet c)
    ((host.ofNet old).setWidth 32) ((host.ofNet new).setWidth 32)), new] [c, old]
  simp only [List.map_cons, List.map_nil, total_cons, total_nil, Nat.add_zero,
    HostOrder.ofNet_ofNet] at h
  rw [← h, NoLoss16]
  generalize host.ofNet old = old
  generalize host.ofNet new = new
  generalize host.ofNet c = c
  have hlow : ((replace c old new).toNat + new.toNat) % 65535 = (c.toNat + old.toNat) % 65535 :=
    equal_replace_iff.1 (equal_self _)
  have hzero : (0 : BitVec 16).toNat = 0 := rfl
  have hiff := @equal_recalcCsum32_iff c (old.setWidth 32) (new.setWidth 32)
  rw [lowWord_setWidth, lowWord_setWidth, highWord_setWidth, highWord_setWidth, equal_replace_iff]
    at hiff
  omega

/-! ### What a checksum covers -/

/-- The values of the words of some bytes, in the order of the network, added up. -/
def wordTotal (bs : List Byte) : ℕ := total (dataWords .big bs)

/-- The checksum of some bytes is zero when their words add up to the other zero. -/
theorem internetChecksum_eq_zero_iff (bs : List Byte) :
    internetChecksum bs = 0 ↔ wordTotal bs % 65535 = 0 ∧ 0 < wordTotal bs := by
  have hzero : (0 : BitVec 16).toNat = 0 := rfl
  have hle := reduce_le (wordTotal bs)
  rw [← BitVec.toNat_inj, internetChecksum, toNat_checksum, hzero]
  change 65535 - reduce (wordTotal bs) = 0 ↔ _
  unfold reduce at hle ⊢
  split <;> omega

/-- The sum of two parts, the first one of even length. -/
theorem wordTotal_append {xs : List Byte} (heven : xs.length % 2 = 0) (ys : List Byte) :
    wordTotal (xs ++ ys) = wordTotal xs + wordTotal ys := by
  unfold wordTotal
  induction xs using readTotal.induct with
  | case1 a b xs ih =>
    rw [List.length_cons, List.length_cons] at heven
    rw [List.cons_append, List.cons_append, dataWords, dataWords, total_cons, total_cons,
      ih (by omega), Nat.add_assoc]
  | case2 a => cases heven
  | case3 => exact (Nat.zero_add _).symm

theorem wordTotal_bytes16 (v : BitVec 16) : wordTotal (Memory.bytes16 v) = v.toNat :=
  congrArg BitVec.toNat (Memory.be16_bytes16 v [])

/-- A word that is written at an even distance changes the sum by the difference. -/
theorem wordTotal_slice_put16 (m : Memory) {off i n : ℕ} (v : BitVec 16) (more : List Byte)
    (h : 2 * i + 2 ≤ n) :
    wordTotal ((m.put16 (off + 2 * i) v).slice off n ++ more) + (m.get16 (off + 2 * i)).toNat =
      wordTotal (m.slice off n ++ more) + v.toNat := by
  obtain ⟨k, rfl⟩ := Nat.exists_eq_add_of_le h
  have hlen : (Memory.bytes16 v).length = 2 := rfl
  have hsplit : ∀ m : Memory, wordTotal (m.slice off (2 * i + 2 + k) ++ more) =
      wordTotal (m.slice off (2 * i)) + wordTotal (m.slice (off + 2 * i) 2) +
        wordTotal (m.slice (off + (2 * i + 2)) k ++ more) := by
    intro m
    rw [Memory.slice_add, Memory.slice_add, List.append_assoc, wordTotal_append (by simp),
      wordTotal_append (by simp)]
  have hword : ∀ m : Memory, wordTotal (m.slice (off + 2 * i) 2) =
    (m.get16 (off + 2 * i)).toNat := by
    intro m
    rw [← Memory.bytes16_get16, wordTotal_bytes16]
  have hnew : (m.put16 (off + 2 * i) v).get16 (off + 2 * i) = v :=
    Memory.get16_put16 m _ v
  have hbefore : (m.put16 (off + 2 * i) v).slice off (2 * i) = m.slice off (2 * i) :=
    Memory.slice_put_of_outside m (by omega)
  have hbehind : (m.put16 (off + 2 * i) v).slice (off + (2 * i + 2)) k =
      m.slice (off + (2 * i + 2)) k := Memory.slice_put_of_outside m (by omega)
  rw [hsplit, hsplit, hword, hword, hnew, hbefore, hbehind]
  omega

/-- The same, with the place of the word as a position. -/
theorem wordTotal_put16 (m : Memory) {off pos n : ℕ} (v : BitVec 16) (more : List Byte)
    (hle : off ≤ pos) (heven : (pos - off) % 2 = 0) (h : pos + 2 ≤ off + n) :
    wordTotal ((m.put16 pos v).slice off n ++ more) + (m.get16 pos).toNat =
      wordTotal (m.slice off n ++ more) + v.toNat := by
  obtain ⟨i, hi⟩ : ∃ i, pos = off + 2 * i := ⟨(pos - off) / 2, by omega⟩
  subst hi
  exact wordTotal_slice_put16 m v more (by omega)

/-- A word that is written elsewhere leaves the sum alone. -/
theorem wordTotal_put16_of_outside (m : Memory) {off pos n : ℕ} (v : BitVec 16) (more : List Byte)
    (h : pos + 2 ≤ off ∨ off + n ≤ pos) :
    wordTotal ((m.put16 pos v).slice off n ++ more) = wordTotal (m.slice off n ++ more) := by
  have hlen : (Memory.bytes16 v).length = 2 := rfl
  have hslice : (m.put16 pos v).slice off n = m.slice off n :=
    Memory.slice_put_of_outside m (by omega)
  rw [hslice]

/-- Writing bytes is writing them in two parts. -/
theorem put_append (m : Memory) (pos : ℕ) {xs : List Byte} {n : ℕ} (h : xs.length = n)
    (ys : List Byte) : m.put pos (xs ++ ys) = (m.put pos xs).put (pos + n) ys := by
  subst h
  funext i
  unfold Memory.put
  rw [List.length_append]
  by_cases hfirst : i < pos + xs.length
  · by_cases hle : pos ≤ i
    · rw [if_pos (by omega), if_neg (by omega), if_pos (by omega),
        getD_append_of_lt (by omega)]
    · rw [if_neg (by omega), if_neg (by omega), if_neg (by omega)]
  · by_cases hlast : i < pos + xs.length + ys.length
    · rw [if_pos (by omega), if_pos (by omega), List.getD_eq_getElem?_getD,
        List.getD_eq_getElem?_getD, List.getElem?_append_right (by omega)]
      congr 2
      omega
    · rw [if_neg (by omega), if_neg (by omega), if_neg (by omega)]

/-- Writing a number of 32 bits is writing its two words. -/
theorem put32_eq (m : Memory) (pos : ℕ) (v : BitVec 32) :
    m.put32 pos v = (m.put16 pos (highWord v)).put16 (pos + 2) (lowWord v) := by
  have hhigh : v.extractLsb' 16 16 = highWord v := by
    apply BitVec.eq_of_toNat_eq
    rw [BitVec.extractLsb'_toNat, highWord, BitVec.toNat_setWidth, BitVec.toNat_ushiftRight]
  have hlow : v.extractLsb' 0 16 = lowWord v := by
    apply BitVec.eq_of_toNat_eq
    rw [BitVec.extractLsb'_toNat, lowWord, BitVec.toNat_setWidth, Nat.shiftRight_zero]
  rw [Memory.put32, Memory.bytes32, hhigh, hlow]
  exact put_append m pos rfl _

theorem words_get32 (m : Memory) (pos : ℕ) :
    highWord (m.get32 pos) = m.get16 pos ∧ lowWord (m.get32 pos) = m.get16 (pos + 2) :=
  ⟨highWord_append _ _, lowWord_append _ _⟩

/-! ### Packets with good checksums -/

/-- `IP_FRAG_OFF_MASK`. -/
def ipFragOffMask : BitVec 16 := 0x1fff

namespace Ofpbuf

variable (b : Ofpbuf)

/-- The IP header of a packet. -/
def ipHeader : List Byte := b.mem.slice b.l3Pos (b.l4Pos - b.l3Pos)

/-- The protocol that the IP header names. -/
def ipProto : Byte := b.mem (b.l3Pos + 9)

/-- The end of the IP packet, by the length that its header gives. -/
def ipEnd : ℕ := b.l3Pos + (b.mem.get16 (b.l3Pos + 2)).toNat

/-- The packet is a fragment, and not the first one. -/
def laterFragment : Bool := b.mem.get16 (b.l3Pos + 6) &&& ipFragOffMask != 0

/-- What the transport checksum of a packet covers whose datagram goes on with more bytes in later
fragments: the addresses, the protocol, the length, and the payload. -/
def transportCovered (more : List Byte) : List Byte :=
  b.mem.slice (b.l3Pos + 12) 8 ++ ([0, b.ipProto] ++
    (Memory.bytes16 (BitVec.ofNat 16 (b.ipEnd - b.l4Pos + more.length)) ++
      (b.mem.slice b.l4Pos (b.ipEnd - b.l4Pos) ++ more)))

/-- The UDP checksum of a packet. -/
def udpCsum : BitVec 16 := b.mem.get16 (b.l4Pos + 6)

end Ofpbuf

/-- A packet with a whole IP header, and the payload that its length says, whose checksums are good.
A fragment other than the first has no transport header, and the first one has the checksum of the
whole datagram. -/
structure Ipv4Packet (more : List Byte) (b : Ofpbuf) : Prop where
  /-- The IP header is whole. -/
  whole : b.l4 ≠ none
  /-- The payload is whole. -/
  payload : b.l4Pos ≤ b.ipEnd ∧ b.ipEnd ≤ b.data + b.size
  /-- The header checksum is good. -/
  header : internetChecksum b.ipHeader = 0
  /-- A TCP header is whole, and the TCP checksum is good. -/
  tcp : b.laterFragment = false → b.ipProto = ipTypeTcp →
    (let len := tcpOffset (b.mem.get16 (b.l4Pos + 12)) * 4
    tcpHeaderLen ≤ len ∧ b.l4Pos + len ≤ b.ipEnd) ∧ internetChecksum (b.transportCovered more) = 0
  /-- A UDP header is whole, and the UDP checksum is good, or there is none. -/
  udp : b.laterFragment = false → b.ipProto = ipTypeUdp →
    b.l4Pos + udpHeaderLen ≤ b.ipEnd ∧
      (b.udpCsum ≠ 0 → internetChecksum (b.transportCovered more) = 0)

/-! ### What an action should make of them -/

/-- The place of the address that an action sets. -/
def addrPos (a : List Byte) (b : Ofpbuf) : ℕ :=
  b.l3Pos + if actionType a = ofpatSetNwSrc then 12 else 16

/-- The place of the port that an action sets. -/
def portPos (a : List Byte) (b : Ofpbuf) : ℕ :=
  b.l4Pos + if actionType a = ofpatSetTpSrc then 0 else 2

/-- The type of service that an action makes of another: only its upper six bits are set. -/
def newTos (a : List Byte) (old : Byte) : Byte := (a.getD 4 0 &&& 0xfc) ||| (old &&& 0x03)

/-- The packet has ports. -/
def HasTpHeader (b : Ofpbuf) : Prop :=
  b.laterFragment = false ∧ (b.ipProto = ipTypeTcp ∨ b.ipProto = ipTypeUdp)

/-- The bytes that an action may change: the field, and the checksums over it. -/
inductive Rewritable (a : List Byte) (b : Ofpbuf) : ℕ → Prop
  /-- The address. -/
  | addr {i : ℕ} : setsNwAddr a = true → addrPos a b ≤ i → i < addrPos a b + 4 → Rewritable a b i
  /-- The type of service. -/
  | tos : actionType a = ofpatSetNwTos → Rewritable a b (b.l3Pos + 1)
  /-- The port. -/
  | port {i : ℕ} : setsTpPort a = true → HasTpHeader b → portPos a b ≤ i → i < portPos a b + 2 →
      Rewritable a b i
  /-- The header checksum. -/
  | ipCsum {i : ℕ} : b.l3Pos + 10 ≤ i → i < b.l3Pos + 12 → Rewritable a b i
  /-- The TCP checksum. -/
  | tcpCsum {i : ℕ} : b.laterFragment = false → b.ipProto = ipTypeTcp → b.l4Pos + 16 ≤ i →
      i < b.l4Pos + 18 → Rewritable a b i
  /-- The UDP checksum. -/
  | udpCsum {i : ℕ} : b.laterFragment = false → b.ipProto = ipTypeUdp → b.l4Pos + 6 ≤ i →
      i < b.l4Pos + 8 → Rewritable a b i

/-- An action leaves a packet with the field set, good checksums and
all other bytes as they were. -/
structure Rewritten (more a : List Byte) (b b' : Ofpbuf) : Prop where
  /-- The packet and its headers stay where they are. -/
  same : b' = { b with mem := b'.mem }
  /-- The address is set. -/
  addr : setsNwAddr a = true → b'.mem.get32 (addrPos a b) = be32 a 4
  /-- The type of service is set. -/
  tos : actionType a = ofpatSetNwTos → b'.mem (b.l3Pos + 1) = newTos a (b.mem (b.l3Pos + 1))
  /-- The port is set. -/
  port : setsTpPort a = true → HasTpHeader b → b'.mem.get16 (portPos a b) = be16 a 4
  /-- The header checksum is good. -/
  header : internetChecksum b'.ipHeader = 0
  /-- The TCP checksum is good. -/
  tcp : b.laterFragment = false → b.ipProto = ipTypeTcp →
    internetChecksum (b'.transportCovered more) = 0
  /-- The UDP checksum is good, and not the mark of a packet without one. -/
  udp : b.laterFragment = false → b.ipProto = ipTypeUdp → b.udpCsum ≠ 0 →
    b'.udpCsum ≠ 0 ∧ internetChecksum (b'.transportCovered more) = 0
  /-- A packet without a UDP checksum does not get one. -/
  noCsum : b.laterFragment = false → b.ipProto = ipTypeUdp → b.udpCsum = 0 → b'.udpCsum = 0
  /-- The payload of a fragment other than the first is as it was. -/
  payload : b.laterFragment = true → ∀ i, b.l4Pos ≤ i → i < b.data + b.size → b'.mem i = b.mem i
  /-- So are all other bytes. -/
  others : ∀ i, b.data ≤ i → i < b.data + b.size → ¬ Rewritable a b i → b'.mem i = b.mem i

/-! ### When it does -/

/-- A word that is written leaves the bytes of the packet as they are. -/
def KeepsWord (b : Ofpbuf) (pos : ℕ) (v : BitVec 16) : Prop :=
  ∀ j < 2, pos + j < b.data + b.size → (Memory.bytes16 v).getD j 0 = b.mem (pos + j)

instance (b : Ofpbuf) (pos : ℕ) (v : BitVec 16) : Decidable (KeepsWord b pos v) :=
  inferInstanceAs (Decidable (∀ j < 2, _ → _))

/-- The transport checksum that a new address needs. The payload of a fragment other than the first
has to be one that does not change when it is taken for a transport header. -/
def AddrOk (host : HostOrder) (b : Ofpbuf) (old new : BitVec 32) : Prop :=
  if b.ipProto = ipTypeTcp then
    let csum := b.mem.get16 (b.l4Pos + 16)
    if b.laterFragment then KeepsWord b (b.l4Pos + 16) (recalcCsum32On host csum old new)
    else NoLoss32 host csum old new
  else if b.ipProto = ipTypeUdp ∧ b.udpCsum ≠ 0 then
    if b.laterFragment then
      let csum := recalcCsum32On host b.udpCsum old new
      KeepsWord b (b.l4Pos + 6) (if csum = 0 then 0xffff else csum)
    else NoLoss32 host b.udpCsum old new
  else True

instance (host : HostOrder) (b : Ofpbuf) (old new : BitVec 32) :
    Decidable (AddrOk host b old new) :=
  inferInstanceAs (Decidable (ite _ (ite _ _ _) (ite _ (ite _ _ _) True)))

/-- The transport checksum that a new port needs. No UDP checksum may become zero, or any other
number from zero. -/
def PortOk (host : HostOrder) (b : Ofpbuf) (pos : ℕ) (new : BitVec 16) : Prop :=
  let old := b.mem.get16 pos
  if b.ipProto = ipTypeTcp then
    let csum := b.mem.get16 (b.l4Pos + 16)
    if b.laterFragment then
      KeepsWord b (b.l4Pos + 16) (recalcCsum16On host csum old new) ∧ KeepsWord b pos new
    else NoLoss16 host csum old new
  else if b.ipProto = ipTypeUdp then
    if b.laterFragment then
      KeepsWord b (b.l4Pos + 6) (recalcCsum16On host b.udpCsum old new) ∧ KeepsWord b pos new
    else if b.udpCsum = 0 then Equal old new
    else NoLoss16 host b.udpCsum old new ∧
      ((b.udpCsum.toNat + old.toNat) % 65535 = new.toNat % 65535 →
        b.udpCsum.toNat + old.toNat = 131070 ∧ new = 0)
  else True

instance (host : HostOrder) (b : Ofpbuf) (pos : ℕ) (new : BitVec 16) :
    Decidable (PortOk host b pos new) :=
  inferInstanceAs (Decidable (ite _ (ite _ _ _) (ite _ (ite _ _ (ite _ (_ = _) _)) True)))

/-- No carry is lost when the checksums of a packet are updated, the UDP checksum does not start or
end as zero, and there is no transport header to look for in a fragment other than the first. -/
structure RewriteOk (host : HostOrder) (a : List Byte) (b : Ofpbuf) : Prop where
  /-- With a new address. -/
  addr : setsNwAddr a = true →
    (let old := b.mem.get32 (addrPos a b)
    NoLoss32 host (b.mem.get16 (b.l3Pos + 10)) old (be32 a 4) ∧ AddrOk host b old (be32 a 4))
  /-- With a new type of service. -/
  tos : actionType a = ofpatSetNwTos →
    (let old := b.mem (b.l3Pos + 1)
    NoLoss16 host (b.mem.get16 (b.l3Pos + 10)) (old.setWidth 16) ((newTos a old).setWidth 16))
  /-- With a new port. -/
  port : setsTpPort a = true → PortOk host b (portPos a b) (be16 a 4)

/-! ### The IP header that the extraction of the flow finds -/

/-- Only a whole IP header is followed by a transport header. -/
theorem extractNetwork_l4 {m : Memory} {flow : Flow} {b : Cursor}
    (h : (extractNetwork m flow b).l4 ≠ none) :
    flow.dlType = ethTypeIp ∧ ∃ l4, pullIp m b = some l4 ∧
      (extractNetwork m flow b).l4 = some l4 := by
  unfold extractNetwork at h ⊢
  by_cases hip : flow.dlType = ethTypeIp
  · rw [if_pos (beq_iff_eq.2 hip)] at h ⊢
    cases hpull : pullIp m b with
    | none =>
      rw [hpull] at h
      exact absurd rfl h
    | some l4 =>
      refine ⟨hip, l4, rfl, ?_⟩
      simp only
      split <;> rfl
  · rw [if_neg fun heq => hip (beq_iff_eq.1 heq)] at h
    exfalso
    apply h
    split
    · split <;> rfl
    · rfl

/-- The network header of an extracted IP packet and what is behind it. -/
theorem flowExtract_ip (packet : Ofpbuf) (inPort : BitVec 16)
    (hl4 : (flowExtract packet inPort).2.2.l4 ≠ none) :
    ∃ (flow : Flow) (b l4 : Cursor), flow.dlType = ethTypeIp ∧
      b.pos + b.left = packet.data + packet.size ∧ pullIp packet.mem b = some l4 ∧
      (flowExtract packet inPort).2.2 = { packet with
        l2 := some packet.data, l3 := some b.pos, l4 := some l4.pos
        l7 := (flowExtract packet inPort).2.2.l7 } ∧
      packetFlow packet inPort = (extractNetwork packet.mem flow b).flow := by
  unfold packetFlow
  obtain h | ⟨b0, dlType, b1, flow, b2, heth, hframe, hvlan, h⟩ := flowExtract_cases packet inPort
  · rw [h] at hl4
    exact absurd rfl hl4
  · have hb1 := (Cursor.restOf_of_extractFrame hframe).trans (Cursor.restOf_of_tryPull heth).2
    have hb2 := Cursor.restOf_extractVlan packet.mem { Flow.unset inPort with dlType } b1
    rw [hvlan] at hb2
    rw [h] at hl4 ⊢
    generalize ({ flow with
      dlSrc := packet.mem.get48 (packet.data + 6), dlDst := packet.mem.get48 packet.data } :
        Flow) = f at hl4 ⊢
    -- only a whole IP header is followed by a transport header
    have hl4' : (extractNetwork packet.mem f b2).l4 ≠ none :=
      fun hnone => hl4 (by rw [hnone]; rfl)
    obtain ⟨hfip, l4, hpull, hl4⟩ := extractNetwork_l4 hl4'
    refine ⟨f, b2, l4, hfip, (hb2.trans hb1).2, hpull, ?_, rfl⟩
    rw [hl4]
    rfl

/-- What the extraction of the flow says about a packet with good checksums. -/
structure IpParsed (b : Ofpbuf) (flow : Flow) : Prop where
  /-- It is an IP packet. -/
  dlType : flow.dlType = ethTypeIp
  /-- Its header is inside it. -/
  frame : b.data ≤ b.l3Pos
  /-- Its header has the fixed part. -/
  options : b.l3Pos + 20 ≤ b.l4Pos
  /-- Its header is made of words. -/
  even : (b.l4Pos - b.l3Pos) % 2 = 0
  /-- Its header does not start with a zero. -/
  start : b.mem b.l3Pos ≠ 0
  /-- The key has the protocol of the header, if that is TCP. -/
  tcp : flow.nwProto = ipTypeTcp ↔ b.ipProto = ipTypeTcp
  /-- The same of UDP. -/
  udp : flow.nwProto = ipTypeUdp ↔ b.ipProto = ipTypeUdp

/-- The protocol of a packet that is not a fragment is kept, unless its header is cut short. -/
theorem extractTransport_nwProto (m : Memory) (flow : Flow) (b : Cursor) :
    ((extractTransport m flow b).1.nwProto = flow.nwProto ∨
        (extractTransport m flow b).1.nwProto = 0) ∧
      (flow.nwProto = ipTypeTcp → pullTcp m b ≠ none →
        (extractTransport m flow b).1.nwProto = ipTypeTcp) ∧
      (flow.nwProto = ipTypeUdp → pullUdp b ≠ none →
        (extractTransport m flow b).1.nwProto = ipTypeUdp) := by
  have hne : ipTypeUdp ≠ ipTypeTcp := by decide
  unfold extractTransport
  by_cases htcp : flow.nwProto = ipTypeTcp
  · rw [if_pos (beq_iff_eq.2 htcp)]
    refine ⟨?_, fun _ hpull => ?_, fun hudp => absurd (hudp.symm.trans htcp) hne⟩
    · split
      · exact .inl rfl
      · exact .inr rfl
    · split
      · exact htcp
      · rename_i hnone
        exact absurd hnone hpull
  · rw [if_neg fun h => htcp (beq_iff_eq.1 h)]
    refine ⟨?_, fun h => absurd h htcp, fun hudp hpull => ?_⟩
    · repeat' split
      all_goals first | exact .inl rfl | exact .inr rfl
    · rw [if_pos (beq_iff_eq.2 hudp)]
      split
      · exact hudp
      · rename_i hnone
        exact absurd hnone hpull

/-- The extraction of the flow of a packet with good checksums. -/
theorem ipParsed_flowExtract {more : List Byte} {packet : Ofpbuf} {inPort : BitVec 16}
    (hdom : Ipv4Packet more (flowExtract packet inPort).2.2) :
    IpParsed (flowExtract packet inPort).2.2 (packetFlow packet inPort) := by
  obtain ⟨flow, b, l4, hip, hend, hpull, hp, hflow⟩ := flowExtract_ip packet inPort hdom.whole
  obtain ⟨hlen, hpos, hleft⟩ := pullIp_eq_some hpull
  have hl3 : (flowExtract packet inPort).2.2.l3Pos = b.pos := by rw [hp]; rfl
  have hl4 : (flowExtract packet inPort).2.2.l4Pos = l4.pos := by rw [hp]; rfl
  have hmem : (flowExtract packet inPort).2.2.mem = packet.mem := by rw [hp]
  have hdata : (flowExtract packet inPort).2.2.data = packet.data := by rw [hp]
  have hsize : (flowExtract packet inPort).2.2.size = packet.size := by rw [hp]
  -- the network layer
  have hnet : (extractNetwork packet.mem flow b).flow =
      (let flow := { flow with
        nwTos := packet.mem (b.pos + 1) &&& 0xfc, nwProto := packet.mem (b.pos + 9)
        nwSrc := packet.mem.get32 (b.pos + 12), nwDst := packet.mem.get32 (b.pos + 16) }
      if packet.mem.get16 (b.pos + 6) &&& ipFragmentMask == 0 then
        (extractTransport packet.mem flow l4).1
      else flow) := by
    unfold extractNetwork
    rw [if_pos (beq_iff_eq.2 hip), hpull]
    simp only
    split <;> rfl
  have hproto : (flowExtract packet inPort).2.2.ipProto = packet.mem (b.pos + 9) := by
    rw [Ofpbuf.ipProto, hl3, hmem]
  have hlater : packet.mem.get16 (b.pos + 6) &&& ipFragmentMask = 0 →
      (flowExtract packet inPort).2.2.laterFragment = false := by
    intro hzero
    have hmask : ipFragmentMask &&& ipFragOffMask = ipFragOffMask := by decide
    rw [Ofpbuf.laterFragment, hl3, hmem, ← hmask, ← BitVec.and_assoc, hzero]
    rfl
  have htype : (packetFlow packet inPort).dlType = ethTypeIp := by
    rw [hflow]
    exact (extractNetwork_dlType packet.mem flow b).trans hip
  obtain ⟨k, -, hframe⟩ := (framed_flowExtract packet inPort).network htype
  rw [(framed_flowExtract packet inPort).l2Pos_eq] at hframe
  refine ⟨htype, by omega, by omega, by omega, ?_, ?_, ?_⟩
  · rw [hl3, hmem]
    intro hzero
    rw [hzero] at hlen
    exact absurd hlen (by decide)
  · rw [hproto, hflow, hnet]
    simp only
    split
    next hwhole =>
      have hfirst := hlater (beq_iff_eq.1 hwhole)
      obtain ⟨hkeep, htcp, -⟩ := extractTransport_nwProto packet.mem { flow with
        nwTos := packet.mem (b.pos + 1) &&& 0xfc, nwProto := packet.mem (b.pos + 9)
        nwSrc := packet.mem.get32 (b.pos + 12), nwDst := packet.mem.get32 (b.pos + 16) } l4
      constructor
      · intro h
        rcases hkeep with hk | hk
        · exact hk.symm.trans h
        · rw [hk] at h
          exact absurd h (by decide)
      · intro h
        refine htcp h fun hnone => ?_
        -- the TCP header is whole
        obtain ⟨⟨hmin, hmax⟩, -⟩ := hdom.tcp hfirst (hproto.trans h)
        have hbound := hdom.payload.2
        rw [hl4, hmem] at hmin hmax
        rw [hdata, hsize] at hbound
        unfold tcpHeaderLen at hmin
        unfold pullTcp Cursor.tryPull tcpHeaderLen at hnone
        simp only at hnone
        rw [if_pos (by omega), if_pos hmin, if_pos (by omega)] at hnone
        cases hnone
    next => exact Iff.rfl
  · rw [hproto, hflow, hnet]
    simp only
    split
    next hwhole =>
      have hfirst := hlater (beq_iff_eq.1 hwhole)
      obtain ⟨hkeep, -, hudp⟩ := extractTransport_nwProto packet.mem { flow with
        nwTos := packet.mem (b.pos + 1) &&& 0xfc, nwProto := packet.mem (b.pos + 9)
        nwSrc := packet.mem.get32 (b.pos + 12), nwDst := packet.mem.get32 (b.pos + 16) } l4
      constructor
      · intro h
        rcases hkeep with hk | hk
        · exact hk.symm.trans h
        · rw [hk] at h
          exact absurd h (by decide)
      · intro h
        refine hudp h fun hnone => ?_
        have hmin := (hdom.udp hfirst (hproto.trans h)).1
        have hbound := hdom.payload.2
        rw [hl4] at hmin
        rw [hdata, hsize] at hbound
        unfold pullUdp Cursor.tryPull at hnone
        rw [if_pos (by omega)] at hnone
        cases hnone
    next => exact Iff.rfl

/-! ### What the writes do to the sums -/

/-- A number of 32 bits that is written at an even distance changes the sum by the difference of the
words. -/
theorem wordTotal_put32 (m : Memory) {off pos n : ℕ} (v : BitVec 32) (more : List Byte)
    (hle : off ≤ pos) (heven : (pos - off) % 2 = 0) (h : pos + 4 ≤ off + n) :
    wordTotal ((m.put32 pos v).slice off n ++ more) +
        ((highWord (m.get32 pos)).toNat + (lowWord (m.get32 pos)).toNat) =
      wordTotal (m.slice off n ++ more) + ((highWord v).toNat + (lowWord v).toNat) := by
  obtain ⟨hhigh, hlow⟩ := words_get32 m pos
  have hsecond := wordTotal_put16 (m.put16 pos (highWord v)) (lowWord v) more
    (Nat.le_add_right_of_le hle) (by omega) (by omega : pos + 2 + 2 ≤ off + n)
  have hfirst := wordTotal_put16 m (highWord v) more hle heven (by omega : pos + 2 ≤ off + n)
  have hkeep : (m.put16 pos (highWord v)).get16 (pos + 2) = m.get16 (pos + 2) :=
    Memory.get16_put_of_outside m (.inr (le_refl _))
  rw [hkeep] at hsecond
  rw [put32_eq, hhigh, hlow]
  omega

/-- The sum that a transport checksum covers. -/
theorem wordTotal_transportCovered (b : Ofpbuf) (more : List Byte) :
    wordTotal (b.transportCovered more) = wordTotal (b.mem.slice (b.l3Pos + 12) 8 ++ []) +
      (b.ipProto.toNat + (BitVec.ofNat 16 (b.ipEnd - b.l4Pos + more.length)).toNat +
        wordTotal (b.mem.slice b.l4Pos (b.ipEnd - b.l4Pos) ++ more)) := by
  have hproto : wordTotal [0, b.ipProto] = b.ipProto.toNat := by
    have hzero : (0 : Byte).toNat = 0 := rfl
    rw [wordTotal, dataWords, dataWords, total_cons, total_nil, HostOrder.load16,
      toNat_append_byte, hzero]
    omega
  have htwo : ([0, b.ipProto] : List Byte).length % 2 = 0 := by simp
  have hbytes : ∀ v, (Memory.bytes16 v).length % 2 = 0 := fun _ => by simp [Memory.bytes16]
  rw [Ofpbuf.transportCovered, wordTotal_append (by simp), wordTotal_append htwo,
    wordTotal_append (hbytes _), hproto, wordTotal_bytes16, List.append_nil]
  omega

theorem zero_iff_of_balance {s s' taken added : ℕ} (h : s' + taken = s + added)
    (hzero : s % 65535 = 0) : s' % 65535 = 0 ↔ added % 65535 = taken % 65535 := by
  omega

section Header

variable {b : Ofpbuf} {flow : Flow} {m' : Memory}

/-- A checksum stays good exactly if what is added to its sum is what is taken away, as long as the
sum is not nothing. -/
theorem checksum_zero_iff {bs bs' : List Byte} {taken added : ℕ} (hzero : internetChecksum bs = 0)
    (hpos : 0 < wordTotal bs') (h : wordTotal bs' + taken = wordTotal bs + added) :
    internetChecksum bs' = 0 ↔ added % 65535 = taken % 65535 := by
  rw [internetChecksum_eq_zero_iff, and_iff_left hpos]
  exact zero_iff_of_balance h ((internetChecksum_eq_zero_iff bs).1 hzero).1

/-- The sum of a header is not nothing. -/
theorem IpParsed.header_pos (h : IpParsed b flow) (hstart : m' b.l3Pos = b.mem b.l3Pos) :
    0 < wordTotal ({ b with mem := m' } : Ofpbuf).ipHeader := by
  have hopts := h.options
  obtain ⟨k, hk⟩ : ∃ k, b.l4Pos - b.l3Pos = 2 + k := ⟨b.l4Pos - b.l3Pos - 2, by omega⟩
  have hne : 0 < (m' b.l3Pos).toNat := by
    rw [hstart]
    refine Nat.pos_of_ne_zero fun hzero => h.start (BitVec.eq_of_toNat_eq hzero)
  change 0 < wordTotal (m'.slice b.l3Pos (b.l4Pos - b.l3Pos))
  rw [hk, Memory.slice_add, wordTotal_append (by simp), ← Memory.bytes16_get16, wordTotal_bytes16,
    Memory.get16, toNat_append_byte]
  omega

/-- The sum that a transport checksum covers is not nothing. -/
theorem transport_pos (more : List Byte) (hproto : m' (b.l3Pos + 9) = b.ipProto)
    (hne : b.ipProto = ipTypeTcp ∨ b.ipProto = ipTypeUdp) :
    0 < wordTotal (({ b with mem := m' } : Ofpbuf).transportCovered more) := by
  have hpos : 0 < (({ b with mem := m' } : Ofpbuf).ipProto).toNat := by
    change 0 < (m' (b.l3Pos + 9)).toNat
    rw [hproto]
    rcases hne with h | h <;> rw [h] <;> decide
  rw [wordTotal_transportCovered]
  omega

/-- What a transport checksum covers after writes that leave the protocol and the length alone. -/
theorem wordTotal_transportCovered_mem (more : List Byte) (hproto : m' (b.l3Pos + 9) = b.ipProto)
    (hlen : m'.get16 (b.l3Pos + 2) = b.mem.get16 (b.l3Pos + 2)) :
    wordTotal (({ b with mem := m' } : Ofpbuf).transportCovered more) +
        (wordTotal (b.mem.slice (b.l3Pos + 12) 8 ++ []) +
          wordTotal (b.mem.slice b.l4Pos (b.ipEnd - b.l4Pos) ++ more)) =
      wordTotal (b.transportCovered more) + (wordTotal (m'.slice (b.l3Pos + 12) 8 ++ []) +
        wordTotal (m'.slice b.l4Pos (b.ipEnd - b.l4Pos) ++ more)) := by
  have hend : ({ b with mem := m' } : Ofpbuf).ipEnd = b.ipEnd := by
    change b.l3Pos + (m'.get16 (b.l3Pos + 2)).toNat = _
    rw [hlen]
    rfl
  have hp : ({ b with mem := m' } : Ofpbuf).ipProto = b.ipProto := hproto
  rw [wordTotal_transportCovered, wordTotal_transportCovered, hend, hp]
  change wordTotal (m'.slice (b.l3Pos + 12) 8 ++ []) + (b.ipProto.toNat +
    (BitVec.ofNat 16 (b.ipEnd - b.l4Pos + more.length)).toNat +
    wordTotal (m'.slice b.l4Pos (b.ipEnd - b.l4Pos) ++ more)) + _ = _
  omega

end Header

/-! ### New addresses -/

/-- What is written to the header of a packet for a new address, when the bytes in front of the
transport header are still the ones of the packet. -/
structure AddrWritten (b : Ofpbuf) (w m' : Memory) (pos : ℕ) (csum : BitVec 16) (new : BitVec 32) :
    Prop where
  /-- The sum of the header. -/
  header : wordTotal (m'.slice b.l3Pos (b.l4Pos - b.l3Pos) ++ []) +
      ((b.mem.get16 (b.l3Pos + 10)).toNat +
        ((highWord (b.mem.get32 pos)).toNat + (lowWord (b.mem.get32 pos)).toNat)) =
    wordTotal (b.mem.slice b.l3Pos (b.l4Pos - b.l3Pos) ++ []) +
      (csum.toNat + ((highWord new).toNat + (lowWord new).toNat))
  /-- The sum of the addresses. -/
  addresses : wordTotal (m'.slice (b.l3Pos + 12) 8 ++ []) +
      ((highWord (b.mem.get32 pos)).toNat + (lowWord (b.mem.get32 pos)).toNat) =
    wordTotal (b.mem.slice (b.l3Pos + 12) 8 ++ []) +
      ((highWord new).toNat + (lowWord new).toNat)
  /-- The address. -/
  field : m'.get32 pos = new
  /-- The payload. -/
  payload : ∀ i, b.l4Pos ≤ i → m' i = w i
  /-- The rest of the header. -/
  others : ∀ i < b.l4Pos, ¬ (b.l3Pos + 10 ≤ i ∧ i < b.l3Pos + 12) → ¬ (pos ≤ i ∧ i < pos + 4) →
    m' i = b.mem i

/-- The writes of `set_nw_addr` to the header. -/
theorem IpParsed.addrWritten {b : Ofpbuf} {flow : Flow} (h : IpParsed b flow) {w : Memory}
    (hw : ∀ i < b.l4Pos, w i = b.mem i) {pos : ℕ}
    (hpos : pos = b.l3Pos + 12 ∨ pos = b.l3Pos + 16) (csum : BitVec 16) (new : BitVec 32) :
    AddrWritten b w ((w.put16 (b.l3Pos + 10) csum).put32 pos new) pos csum new := by
  have hopts := h.options
  have hget16 : ∀ i, i + 2 ≤ b.l4Pos → w.get16 i = b.mem.get16 i := by
    intro i hi
    exact Memory.get16_congr fun j _ hj => hw j (by omega)
  have hget32 : (w.put16 (b.l3Pos + 10) csum).get32 pos = b.mem.get32 pos := by
    have hfar : ∀ i, b.l3Pos + 12 ≤ i → i + 2 ≤ b.l4Pos →
        (w.put16 (b.l3Pos + 10) csum).get16 i = b.mem.get16 i := by
      intro i hle hi
      exact (Memory.get16_put_of_outside w (.inr hle)).trans (hget16 i hi)
    rw [Memory.get32, Memory.get32, hfar _ (by omega) (by omega), hfar _ (by omega) (by omega)]
  have hslice : ∀ off n, off + n ≤ b.l4Pos → w.slice off n = b.mem.slice off n :=
    fun off n hle => Memory.slice_congr fun i _ hi => hw i (by omega)
  have hcsum : ∀ i, ¬ (b.l3Pos + 10 ≤ i ∧ i < b.l3Pos + 12) →
      w.put16 (b.l3Pos + 10) csum i = w i := by
    intro i hi
    exact Memory.put_of_outside w (by change i < b.l3Pos + 10 ∨ b.l3Pos + 10 + 2 ≤ i; omega)
  have hfield : ∀ i, ¬ (pos ≤ i ∧ i < pos + 4) →
      (w.put16 (b.l3Pos + 10) csum).put32 pos new i = w.put16 (b.l3Pos + 10) csum i := by
    intro i hi
    exact Memory.put_of_outside _ (by change i < pos ∨ pos + 4 ≤ i; omega)
  refine ⟨?_, ?_, Memory.get32_put32 _ _ _, ?_, ?_⟩
  · -- the address is written behind the checksum, and both are in the header
    have hfirst := wordTotal_put32 (w.put16 (b.l3Pos + 10) csum) new [] (by omega : b.l3Pos ≤ pos)
      (by omega) (by omega : pos + 4 ≤ b.l3Pos + (b.l4Pos - b.l3Pos))
    have hsecond := wordTotal_put16 w csum [] (by omega : b.l3Pos ≤ b.l3Pos + 10) (by omega)
      (by omega : b.l3Pos + 10 + 2 ≤ b.l3Pos + (b.l4Pos - b.l3Pos))
    rw [hget32] at hfirst
    rw [hget16 _ (by omega), hslice _ _ (by omega)] at hsecond
    omega
  · have hfirst := wordTotal_put32 (w.put16 (b.l3Pos + 10) csum) new []
      (by omega : b.l3Pos + 12 ≤ pos) (by omega) (by omega : pos + 4 ≤ b.l3Pos + 12 + 8)
    have hsecond := wordTotal_put16_of_outside w csum []
      (by omega : b.l3Pos + 10 + 2 ≤ b.l3Pos + 12 ∨ b.l3Pos + 12 + 8 ≤ b.l3Pos + 10)
    rw [hget32, hsecond, hslice _ _ (by omega)] at hfirst
    exact hfirst
  · intro i hi
    rw [hfield i (by omega), hcsum i (by omega)]
  · intro i hi hne hne'
    rw [hfield i hne', hcsum i hne, hw i hi]

/-- A word of the payload that is written changes the sum of the payload by the difference. -/
theorem payloadTotal_put16 {b : Ofpbuf} {m' : Memory} {k : ℕ} {v : BitVec 16} (more : List Byte)
    (hpayload : ∀ i, b.l4Pos ≤ i → m' i = b.mem.put16 (b.l4Pos + k) v i) (heven : k % 2 = 0)
    (hk : b.l4Pos + k + 2 ≤ b.ipEnd) :
    wordTotal (m'.slice b.l4Pos (b.ipEnd - b.l4Pos) ++ more) +
        (b.mem.get16 (b.l4Pos + k)).toNat =
      wordTotal (b.mem.slice b.l4Pos (b.ipEnd - b.l4Pos) ++ more) + v.toNat := by
  have hslice : m'.slice b.l4Pos (b.ipEnd - b.l4Pos) =
      (b.mem.put16 (b.l4Pos + k) v).slice b.l4Pos (b.ipEnd - b.l4Pos) :=
    Memory.slice_congr fun i hle _ => hpayload i hle
  rw [hslice]
  exact wordTotal_put16 b.mem v more (Nat.le_add_right _ _) (by omega) (by omega)

/-- The writes to a header leave the protocol and the length alone. -/
theorem AddrWritten.kept {b : Ofpbuf} {flow : Flow} {w m' : Memory} {pos : ℕ} {csum : BitVec 16}
    {new : BitVec 32} (h : AddrWritten b w m' pos csum new) (hp : IpParsed b flow)
    (hpos : pos = b.l3Pos + 12 ∨ pos = b.l3Pos + 16) :
    m' b.l3Pos = b.mem b.l3Pos ∧ m' (b.l3Pos + 9) = b.ipProto ∧
      m'.get16 (b.l3Pos + 2) = b.mem.get16 (b.l3Pos + 2) := by
  have hopts := hp.options
  have hkeep : ∀ i, b.l3Pos ≤ i → i < b.l3Pos + 10 → m' i = b.mem i :=
    fun i hle hlt => h.others i (by omega) (by omega) (by omega)
  refine ⟨hkeep _ (le_refl _) (by omega), hkeep _ (by omega) (by omega), ?_⟩
  exact Memory.get16_congr fun i hle hlt => hkeep i (by omega) (by omega)

/-- The sum that a transport checksum covers, when the checksum is written along with an address. -/
theorem AddrWritten.covered {b : Ofpbuf} {flow : Flow} {m' : Memory} {pos k : ℕ}
    {csum v : BitVec 16}
    {new : BitVec 32} (h : AddrWritten b (b.mem.put16 (b.l4Pos + k) v) m' pos csum new)
    (hp : IpParsed b flow) (hpos : pos = b.l3Pos + 12 ∨ pos = b.l3Pos + 16) (more : List Byte)
    (heven : k % 2 = 0) (hk : b.l4Pos + k + 2 ≤ b.ipEnd) :
    wordTotal (({ b with mem := m' } : Ofpbuf).transportCovered more) +
        ((b.mem.get16 (b.l4Pos + k)).toNat +
          ((highWord (b.mem.get32 pos)).toNat + (lowWord (b.mem.get32 pos)).toNat)) =
      wordTotal (b.transportCovered more) +
        (v.toNat + ((highWord new).toNat + (lowWord new).toNat)) := by
  obtain ⟨-, hproto, hlen⟩ := h.kept hp hpos
  have htotal := wordTotal_transportCovered_mem more hproto hlen
  have haddr := h.addresses
  have hpayload := payloadTotal_put16 more h.payload heven hk
  omega

/-- The memory behind the transport checksum that `set_nw_addr` writes. -/
def addrCsumMem (host : HostOrder) (b : Ofpbuf) (nwProto : BitVec 8)
    (old new : BitVec 32) : Memory :=
  if nwProto = ipTypeTcp then
    b.mem.put16 (b.l4Pos + 16) (recalcCsum32On host (b.mem.get16 (b.l4Pos + 16)) old new)
  else if nwProto = ipTypeUdp ∧ b.udpCsum ≠ 0 then
    let csum := recalcCsum32On host b.udpCsum old new
    b.mem.put16 (b.l4Pos + 6) (if csum = 0 then 0xffff else csum)
  else b.mem

/-- The transport checksum that `set_nw_addr` writes. -/
theorem putAddrCsumOn_eq (host : HostOrder) (b : Ofpbuf) (nwProto : BitVec 8)
    (old new : BitVec 32) :
    putAddrCsumOn host b nwProto old new =
      { b with mem := addrCsumMem host b nwProto old new } := by
  unfold putAddrCsumOn addrCsumMem Ofpbuf.udpCsum
  by_cases htcp : nwProto = ipTypeTcp
  · rw [if_pos htcp, if_pos htcp]
    rfl
  · rw [if_neg htcp, if_neg htcp]
    by_cases hudp : nwProto = ipTypeUdp
    · by_cases hcsum : b.mem.get16 (b.l4Pos + 6) ≠ 0
      · rw [if_pos hudp, if_pos hcsum, if_pos ⟨hudp, hcsum⟩]
        rfl
      · rw [if_pos hudp, if_neg hcsum, if_neg fun h => hcsum h.2]
    · rw [if_neg hudp, if_neg fun h => hudp h.1]

/-- The transport checksum is behind the IP header. -/
theorem addrCsumMem_of_lt (host : HostOrder) (b : Ofpbuf) (nwProto : BitVec 8)
    (old new : BitVec 32) {i : ℕ} (h : i < b.l4Pos) :
    addrCsumMem host b nwProto old new i = b.mem i := by
  unfold addrCsumMem
  split
  · exact Memory.put_of_outside _ (.inl (by omega))
  · split
    · exact Memory.put_of_outside _ (.inl (by omega))
    · rfl

/-- The memory behind `set_nw_addr`. -/
def addrMem (host : HostOrder) (b : Ofpbuf) (a : List Byte) : Memory :=
  let old := b.mem.get32 (addrPos a b)
  let new := be32 a 4
  let csum := recalcCsum32On host (b.mem.get16 (b.l3Pos + 10)) old new
  ((addrCsumMem host b b.ipProto old new).put16 (b.l3Pos + 10) csum).put32 (addrPos a b) new

/-- An address is in the second half of the fixed header. -/
theorem addrPos_eq (a : List Byte) (b : Ofpbuf) :
    addrPos a b = b.l3Pos + 12 ∨ addrPos a b = b.l3Pos + 16 := by
  unfold addrPos
  split
  · exact .inl rfl
  · exact .inr rfl

/-- What `set_nw_addr` makes of a packet with good checksums. -/
theorem IpParsed.putNwAddrOn_eq {b : Ofpbuf} {flow : Flow} (h : IpParsed b flow) (host : HostOrder)
    (a : List Byte) :
    putNwAddrOn host b (packetKey flow) a = { b with mem := addrMem host b a } := by
  have hopts := h.options
  have hpos := addrPos_eq a b
  have hproto : addrCsumMem host b flow.nwProto = addrCsumMem host b b.ipProto := by
    funext old new
    unfold addrCsumMem
    have htcp := h.tcp
    have hudp := h.udp
    simp only [htcp, hudp]
  have hget16 : ∀ (w : Memory) i, (∀ j < b.l4Pos, w j = b.mem j) → i + 2 ≤ b.l4Pos →
      w.get16 i = b.mem.get16 i := by
    intro w i hw hi
    exact Memory.get16_congr fun j _ hj => hw j (by omega)
  have hip : (packetKey flow).flow.dlType = ethTypeIp := h.dlType
  unfold putNwAddrOn
  rw [if_pos hip]
  simp only [putAddrCsumOn_eq]
  change ({ b with mem :=
    ((addrCsumMem host b flow.nwProto (b.mem.get32 (addrPos a b)) (be32 a 4)).put16
    (b.l3Pos + 10) (recalcCsum32On host
      ((addrCsumMem host b flow.nwProto (b.mem.get32 (addrPos a b)) (be32 a 4)).get16
        (b.l3Pos + 10))
      ((addrCsumMem host b flow.nwProto (b.mem.get32 (addrPos a b)) (be32 a 4)).get32 (addrPos a b))
      (be32 a 4))).put32 (addrPos a b) (be32 a 4) } : Ofpbuf) = _
  rw [hproto, addrMem]
  generalize hw : addrCsumMem host b b.ipProto (b.mem.get32 (addrPos a b)) (be32 a 4) = w
  -- the transport checksum is behind the header, which is read afterwards
  have hbelow : ∀ j < b.l4Pos, w j = b.mem j := by
    intro j hj
    rw [← hw]
    exact addrCsumMem_of_lt host b _ _ _ hj
  have hold : w.get32 (addrPos a b) = b.mem.get32 (addrPos a b) := by
    rw [Memory.get32, Memory.get32, hget16 w _ hbelow (by omega), hget16 w _ hbelow (by omega)]
  rw [hget16 w _ hbelow (by omega), hold]

/-- What an action has to make of the bytes behind the IP header. -/
structure TransportKept (more a : List Byte) (b b' : Ofpbuf) : Prop where
  /-- The TCP checksum is good. -/
  tcp : b.laterFragment = false → b.ipProto = ipTypeTcp →
    internetChecksum (b'.transportCovered more) = 0
  /-- The UDP checksum is good, and not the mark of a packet without one. -/
  udp : b.laterFragment = false → b.ipProto = ipTypeUdp → b.udpCsum ≠ 0 →
    b'.udpCsum ≠ 0 ∧ internetChecksum (b'.transportCovered more) = 0
  /-- A packet without a UDP checksum does not get one. -/
  noCsum : b.laterFragment = false → b.ipProto = ipTypeUdp → b.udpCsum = 0 → b'.udpCsum = 0
  /-- The payload of a fragment other than the first is as it was. -/
  payload : b.laterFragment = true → ∀ i, b.l4Pos ≤ i → i < b.data + b.size → b'.mem i = b.mem i
  /-- So are all other bytes. -/
  behind : b.laterFragment = false → ∀ i, b.l4Pos ≤ i → i < b.data + b.size →
    ¬ Rewritable a b i → b'.mem i = b.mem i

section Kept

variable {more a : List Byte} {b : Ofpbuf} {m' : Memory}

/-- The other zero in the place of a UDP checksum of zero. -/
def nonzeroCsum (csum : BitVec 16) : BitVec 16 := if csum = 0 then 0xffff else csum

/-- It is none that says that there is no checksum. -/
theorem nonzeroCsum_ne_zero (csum : BitVec 16) : nonzeroCsum csum ≠ 0 := by
  unfold nonzeroCsum
  split
  · decide
  · assumption

theorem nonzeroCsum_mod (csum : BitVec 16) :
    (nonzeroCsum csum).toNat % 65535 = csum.toNat % 65535 := by
  unfold nonzeroCsum
  split
  next hzero =>
    rw [hzero]
    decide
  next => rfl

/-- A word of the payload that has been written. -/
theorem get16_of_payload {k : ℕ} {v : BitVec 16}
    (hpayload : ∀ i, b.l4Pos ≤ i → m' i = b.mem.put16 (b.l4Pos + k) v i) :
    m'.get16 (b.l4Pos + k) = v := by
  rw [Memory.get16_congr fun i hle _ => hpayload i (by omega)]
  exact Memory.get16_put16 _ _ _

/-- A payload is as it was exactly if the word that is written keeps its bytes. -/
theorem payload_iff_keepsWord {k : ℕ} {v : BitVec 16}
    (hpayload : ∀ i, b.l4Pos ≤ i → m' i = b.mem.put16 (b.l4Pos + k) v i) :
    (∀ i, b.l4Pos ≤ i → i < b.data + b.size → m' i = b.mem i) ↔ KeepsWord b (b.l4Pos + k) v := by
  have hput : ∀ j < 2, b.mem.put16 (b.l4Pos + k) v (b.l4Pos + k + j) =
      (Memory.bytes16 v).getD j 0 := fun j hj => Memory.put_of_inside b.mem hj
  constructor
  · intro h j hj hlt
    rw [← hput j hj, ← hpayload _ (by omega)]
    exact h _ (by omega) hlt
  · intro h i hle hlt
    rw [hpayload i hle]
    by_cases hin : b.l4Pos + k ≤ i ∧ i < b.l4Pos + k + 2
    · obtain ⟨j, rfl⟩ := Nat.exists_eq_add_of_le hin.1
      rw [hput j (by omega)]
      exact h j (by omega) hlt
    · exact Memory.put_of_outside b.mem (by change i < b.l4Pos + k ∨ b.l4Pos + k + 2 ≤ i; omega)

/-- A payload without a transport header of TCP or UDP has nothing to keep but its bytes. -/
theorem transportKept_of_same (hpayload : ∀ i, b.l4Pos ≤ i → m' i = b.mem i)
    (hnone : b.ipProto ≠ ipTypeTcp ∧ (b.ipProto = ipTypeUdp → b.udpCsum = 0)) :
    TransportKept more a b { b with mem := m' } where
  tcp _ htcp := absurd htcp hnone.1
  udp _ hudp hcsum := absurd (hnone.2 hudp) hcsum
  noCsum _ hudp hcsum := by
    change m'.get16 (b.l4Pos + 6) = 0
    rw [Memory.get16, hpayload _ (by omega), hpayload _ (by omega)]
    exact hcsum
  payload _ i hle _ := hpayload i hle
  behind _ i hle _ _ := hpayload i hle

theorem transportKept_of_later {b' : Ofpbuf} (hlater : b.laterFragment = true) :
    TransportKept more a b b' ↔
      ∀ i, b.l4Pos ≤ i → i < b.data + b.size → b'.mem i = b.mem i := by
  have hsecond : ∀ {P : Prop}, b.laterFragment = false → P := by
    intro P hfirst
    rw [hlater] at hfirst
    cases hfirst
  exact ⟨fun h => h.payload hlater, fun h => ⟨hsecond, hsecond, hsecond, fun _ => h, hsecond⟩⟩

/-- What a TCP packet has to keep: the checksum, or the payload of a
fragment other than the first. -/
theorem transportKept_tcp_iff {b' : Ofpbuf} {same good : Prop} (htcp : b.ipProto = ipTypeTcp)
    (hsame : b.laterFragment = true →
      ((∀ i, b.l4Pos ≤ i → i < b.data + b.size → b'.mem i = b.mem i) ↔ same))
    (hgood : b.laterFragment = false → (internetChecksum (b'.transportCovered more) = 0 ↔ good))
    (hbehind : b.laterFragment = false → ∀ i, b.l4Pos ≤ i → ¬ Rewritable a b i →
      b'.mem i = b.mem i) :
    TransportKept more a b b' ↔ if b.laterFragment then same else good := by
  have hne : b.ipProto ≠ ipTypeUdp := by
    rw [htcp]
    decide
  cases hlater : b.laterFragment with
  | true =>
    rw [if_pos rfl, ← hsame hlater]
    exact transportKept_of_later hlater
  | false =>
    rw [if_neg Bool.false_ne_true, ← hgood hlater]
    constructor
    · exact fun h => h.tcp hlater htcp
    · intro h
      refine ⟨fun _ _ => h, fun _ hudp => absurd hudp hne, fun _ hudp => absurd hudp hne,
        fun hsecond => ?_, fun _ i hle _ => hbehind hlater i hle⟩
      rw [hlater] at hsecond
      cases hsecond

/-- What a UDP packet has to keep: the checksum, whether there is one, or the payload of a fragment
other than the first. -/
theorem transportKept_udp_iff {b' : Ofpbuf} {same good : Prop} (hudp : b.ipProto = ipTypeUdp)
    (hsame : b.laterFragment = true →
      ((∀ i, b.l4Pos ≤ i → i < b.data + b.size → b'.mem i = b.mem i) ↔ same))
    (hgood : b.laterFragment = false →
      ((if b.udpCsum = 0 then b'.udpCsum = 0
        else b'.udpCsum ≠ 0 ∧ internetChecksum (b'.transportCovered more) = 0) ↔ good))
    (hbehind : b.laterFragment = false → ∀ i, b.l4Pos ≤ i → ¬ Rewritable a b i →
      b'.mem i = b.mem i) :
    TransportKept more a b b' ↔ if b.laterFragment then same else good := by
  have hne : b.ipProto ≠ ipTypeTcp := by
    rw [hudp]
    decide
  cases hlater : b.laterFragment with
  | true =>
    rw [if_pos rfl, ← hsame hlater]
    exact transportKept_of_later hlater
  | false =>
    rw [if_neg Bool.false_ne_true, ← hgood hlater]
    constructor
    · intro h
      split
      next hzero => exact h.noCsum hlater hudp hzero
      next hcsum => exact h.udp hlater hudp hcsum
    · intro h
      refine ⟨fun _ htcp => absurd htcp hne, fun _ _ hcsum => ?_, fun _ _ hzero => ?_,
        fun hsecond => ?_, fun _ i hle _ => hbehind hlater i hle⟩
      · rw [if_neg hcsum] at h
        exact h
      · rw [if_pos hzero] at h
        exact h
      · rw [hlater] at hsecond
        cases hsecond

end Kept

/-- The transport checksum behind a new address is good, or the payload of a fragment as it was,
exactly under the condition. -/
theorem IpParsed.addr_transport {more a : List Byte} {b : Ofpbuf} {flow : Flow}
    (h : IpParsed b flow) (hdom : Ipv4Packet more b) (host : HostOrder) :
    TransportKept more a b { b with mem := addrMem host b a } ↔
      AddrOk host b (b.mem.get32 (addrPos a b)) (be32 a 4) := by
  have hopts := h.options
  have hpos := addrPos_eq a b
  have haw : AddrWritten b (addrCsumMem host b b.ipProto (b.mem.get32 (addrPos a b)) (be32 a 4))
      (addrMem host b a) (addrPos a b)
      (recalcCsum32On host (b.mem.get16 (b.l3Pos + 10)) (b.mem.get32 (addrPos a b)) (be32 a 4))
      (be32 a 4) :=
    h.addrWritten (fun i hi => addrCsumMem_of_lt host b _ _ _ hi) hpos _ _
  generalize addrMem host b a = m' at haw
  obtain ⟨-, hproto, -⟩ := haw.kept h hpos
  unfold AddrOk
  -- the pseudo header has the address in it, so the checksum of TCP and of UDP is recalculated
  by_cases htcp : b.ipProto = ipTypeTcp
  · rw [if_pos htcp]
    have hw : ∀ old new, addrCsumMem host b b.ipProto old new = b.mem.put16 (b.l4Pos + 16)
        (recalcCsum32On host (b.mem.get16 (b.l4Pos + 16)) old new) := fun _ _ => if_pos htcp
    rw [hw] at haw
    refine transportKept_tcp_iff htcp (fun _ => payload_iff_keepsWord haw.payload)
      (fun hfirst => ?_)
      fun hfirst i hle hkeep => ?_
    · obtain ⟨⟨hmin, hmax⟩, hgood⟩ := hdom.tcp hfirst htcp
      unfold tcpHeaderLen at hmin
      rw [checksum_zero_iff hgood (transport_pos more hproto (.inl htcp))
        (haw.covered h hpos more rfl (by omega))]
      exact recalcCsum32On_iff
    · refine (haw.payload i hle).trans (Memory.put_of_outside b.mem ?_)
      change i < b.l4Pos + 16 ∨ b.l4Pos + 18 ≤ i
      by_contra hin
      exact hkeep (.tcpCsum hfirst htcp (by omega) (by omega))
  · rw [if_neg htcp]
    by_cases hudp : b.ipProto = ipTypeUdp ∧ b.udpCsum ≠ 0
    · rw [if_pos hudp]
      have hw : ∀ old new, addrCsumMem host b b.ipProto old new = b.mem.put16 (b.l4Pos + 6)
          (nonzeroCsum (recalcCsum32On host b.udpCsum old new)) := by
        intro old new
        rw [addrCsumMem, if_neg htcp, if_pos hudp]
        rfl
      rw [hw] at haw
      refine transportKept_udp_iff hudp.1 (fun _ => payload_iff_keepsWord haw.payload)
        (fun hfirst => ?_) fun hfirst i hle hkeep => ?_
      · obtain ⟨hmin, hgood⟩ := hdom.udp hfirst hudp.1
        unfold udpHeaderLen at hmin
        have hcsum := get16_of_payload haw.payload
        rw [if_neg hudp.2,
          checksum_zero_iff (hgood hudp.2) (transport_pos more hproto (.inr hudp.1))
          (haw.covered h hpos more rfl (by omega)), ← recalcCsum32On_iff]
        change m'.get16 (b.l4Pos + 6) ≠ 0 ∧ _ ↔ _
        rw [hcsum, and_iff_right (nonzeroCsum_ne_zero _), Nat.add_mod, nonzeroCsum_mod,
          ← Nat.add_mod]
        rfl
      · refine (haw.payload i hle).trans (Memory.put_of_outside b.mem ?_)
        change i < b.l4Pos + 6 ∨ b.l4Pos + 8 ≤ i
        by_contra hin
        exact hkeep (.udpCsum hfirst hudp.1 (by omega) (by omega))
    · rw [if_neg hudp]
      have hw : ∀ old new, addrCsumMem host b b.ipProto old new = b.mem := by
        intro old new
        rw [addrCsumMem, if_neg htcp, if_neg hudp]
      rw [hw] at haw
      exact iff_of_true (transportKept_of_same haw.payload
        ⟨htcp, fun h => by_contra fun hcsum => hudp ⟨h, hcsum⟩⟩) trivial

/-- `set_nw_addr` leaves a packet as it should exactly under the condition. -/
theorem IpParsed.rewritten_addr {more a : List Byte} {b : Ofpbuf} {flow : Flow}
    (h : IpParsed b flow) (hdom : Ipv4Packet more b) (host : HostOrder)
    (hset : setsNwAddr a = true) :
    Rewritten more a b (putNwAddrOn host b (packetKey flow) a) ↔ RewriteOk host a b := by
  have htype : actionType a = ofpatSetNwSrc ∨ actionType a = ofpatSetNwDst := by
    rw [setsNwAddr, Bool.or_eq_true, beq_iff_eq, beq_iff_eq] at hset
    exact hset
  have htos : actionType a ≠ ofpatSetNwTos := by
    rcases htype with h | h <;> rw [h] <;> decide
  have hport : ¬ setsTpPort a = true := by
    rw [setsTpPort]
    rcases htype with h | h <;> rw [h] <;> decide
  have hopts := h.options
  have hframe := h.frame
  have hpos := addrPos_eq a b
  have htransport := h.addr_transport hdom host (a := a)
  have haw : AddrWritten b (addrCsumMem host b b.ipProto (b.mem.get32 (addrPos a b)) (be32 a 4))
      (addrMem host b a) (addrPos a b)
      (recalcCsum32On host (b.mem.get16 (b.l3Pos + 10)) (b.mem.get32 (addrPos a b)) (be32 a 4))
      (be32 a 4) :=
    h.addrWritten (fun i hi => addrCsumMem_of_lt host b _ _ _ hi) hpos _ _
  rw [h.putNwAddrOn_eq]
  generalize addrMem host b a = m' at haw htransport
  obtain ⟨hstart, -, -⟩ := haw.kept h hpos
  have hheader : internetChecksum ({ b with mem := m' } : Ofpbuf).ipHeader = 0 ↔
      NoLoss32 host (b.mem.get16 (b.l3Pos + 10)) (b.mem.get32 (addrPos a b)) (be32 a 4) := by
    have hbalance := haw.header
    rw [List.append_nil, List.append_nil] at hbalance
    rw [checksum_zero_iff hdom.header (h.header_pos hstart) hbalance]
    exact recalcCsum32On_iff
  constructor
  · intro hr
    refine ⟨fun _ => ⟨hheader.1 hr.header,
        htransport.1 ⟨hr.tcp, hr.udp, hr.noCsum, hr.payload, ?_⟩⟩,
      fun h => absurd h htos, fun h => absurd h hport⟩
    exact fun _ i hle hlt hkeep => hr.others i (by omega) hlt hkeep
  · intro hok
    obtain ⟨hloss, haddr⟩ := hok.addr hset
    obtain ⟨htcp, hudp, hnoCsum, hpayload, hbehind⟩ := htransport.2 haddr
    refine ⟨rfl, fun _ => haw.field, fun h => absurd h htos, fun h => absurd h hport,
      hheader.2 hloss, htcp, hudp, hnoCsum, hpayload, fun i _ hlt hkeep => ?_⟩
    -- in front of the transport header two fields change; behind it the payload is kept
    by_cases hi : i < b.l4Pos
    · refine haw.others i hi (fun hin => hkeep (.ipCsum hin.1 hin.2)) fun hin => ?_
      exact hkeep (.addr hset hin.1 hin.2)
    · cases hlater : b.laterFragment with
      | true => exact hpayload hlater i (by omega) hlt
      | false => exact hbehind hlater i (by omega) hlt hkeep

/-! ### A new type of service -/

/-- The memory behind `set_nw_tos`. -/
def tosMem (host : HostOrder) (b : Ofpbuf) (a : List Byte) : Memory :=
  let old := b.mem (b.l3Pos + 1)
  let new := newTos a old
  let csum := recalcCsum32 (host.ofNet (b.mem.get16 (b.l3Pos + 10)))
    ((host.ofNet (old.setWidth 16)).setWidth 32) ((host.ofNet (new.setWidth 16)).setWidth 32)
  (b.mem.put16 (b.l3Pos + 10) (host.ofNet csum)).put (b.l3Pos + 1) [new]

/-- Writing the low byte of a word is writing the word. -/
theorem put_low_byte (m : Memory) (pos : ℕ) (x : Byte) :
    m.put (pos + 1) [x] = m.put16 pos (m pos ++ x) := by
  have hword : Memory.bytes16 (m pos ++ x) = [m pos] ++ [x] := by
    have hget : (Memory.ofBytes [m pos, x]).get16 0 = m pos ++ x := rfl
    rw [← hget, Memory.bytes16_get16]
    rfl
  have hhigh : m.put pos [m pos] = m := by
    funext i
    unfold Memory.put
    split
    next hin =>
      have hi : i = pos := by
        have hone : ([m pos] : List Byte).length = 1 := rfl
        omega
      rw [hi, Nat.sub_self]
      rfl
    next => rfl
  rw [Memory.put16, hword, put_append m pos rfl, hhigh]
  rfl

/-- What `set_nw_tos` does to the sum of a header. -/
theorem IpParsed.tos_balance {b : Ofpbuf} {flow : Flow} (h : IpParsed b flow) (host : HostOrder)
    (a : List Byte) :
    (let c := b.mem.get16 (b.l3Pos + 10)
    let old := (b.mem (b.l3Pos + 1)).setWidth 16
    let new := (newTos a (b.mem (b.l3Pos + 1))).setWidth 16
    wordTotal ({ b with mem := tosMem host b a } : Ofpbuf).ipHeader + (c.toNat + old.toNat) =
      wordTotal b.ipHeader + ((host.ofNet (recalcCsum32 (host.ofNet c)
        ((host.ofNet old).setWidth 32) ((host.ofNet new).setWidth 32))).toNat + new.toNat)) := by
  have hopts := h.options
  have hwidth : ∀ x : Byte, (x.setWidth 16 : BitVec 16).toNat = x.toNat := by
    intro x
    have hx := x.isLt
    rw [BitVec.toNat_setWidth]
    omega
  simp only
  generalize hr : host.ofNet (recalcCsum32 (host.ofNet (b.mem.get16 (b.l3Pos + 10)))
    ((host.ofNet ((b.mem (b.l3Pos + 1)).setWidth 16)).setWidth 32)
    ((host.ofNet ((newTos a (b.mem (b.l3Pos + 1))).setWidth 16)).setWidth 32)) = r
  have hmem : tosMem host b a = (b.mem.put16 (b.l3Pos + 10) r).put (b.l3Pos + 1)
      [newTos a (b.mem (b.l3Pos + 1))] := by
    rw [← hr]
    rfl
  have hsame : ∀ i, i < b.l3Pos + 10 → b.mem.put16 (b.l3Pos + 10) r i = b.mem i :=
    fun i hi => Memory.put_of_outside b.mem (.inl hi)
  have hfirst := wordTotal_put16 b.mem r [] (by omega : b.l3Pos ≤ b.l3Pos + 10) (by omega)
    (by omega : b.l3Pos + 10 + 2 ≤ b.l3Pos + (b.l4Pos - b.l3Pos))
  -- the field is the low byte of the first word of the header
  have hsecond := wordTotal_put16 (b.mem.put16 (b.l3Pos + 10) r)
    (b.mem.put16 (b.l3Pos + 10) r b.l3Pos ++ newTos a (b.mem (b.l3Pos + 1))) []
    (le_refl b.l3Pos) (by omega) (by omega : b.l3Pos + 2 ≤ b.l3Pos + (b.l4Pos - b.l3Pos))
  rw [← put_low_byte, ← hmem, Memory.get16, toNat_append_byte, toNat_append_byte,
    hsame _ (by omega), hsame _ (by omega)] at hsecond
  rw [List.append_nil, List.append_nil] at hfirst hsecond
  rw [hwidth, hwidth]
  change wordTotal ((tosMem host b a).slice b.l3Pos (b.l4Pos - b.l3Pos)) + _ =
    wordTotal (b.mem.slice b.l3Pos (b.l4Pos - b.l3Pos)) + _
  omega

/-- `set_nw_tos` leaves a packet as it should exactly under the condition. -/
theorem IpParsed.rewritten_tos {more a : List Byte} {b : Ofpbuf} {flow : Flow}
    (h : IpParsed b flow) (hdom : Ipv4Packet more b) (host : HostOrder)
    (htos : actionType a = ofpatSetNwTos) :
    Rewritten more a b (putNwTosOn host b (packetKey flow) a) ↔ RewriteOk host a b := by
  have haddr : ¬ setsNwAddr a = true := by
    rw [setsNwAddr, htos]
    decide
  have hport : ¬ setsTpPort a = true := by
    rw [setsTpPort, htos]
    decide
  have hopts := h.options
  have hframe := h.frame
  have hip : (packetKey flow).flow.dlType = ethTypeIp := h.dlType
  have hput : putNwTosOn host b (packetKey flow) a = { b with mem := tosMem host b a } := by
    unfold putNwTosOn
    rw [if_pos hip]
    rfl
  rw [hput]
  -- only the checksum of the header and the field are written
  have hcsum : ∀ i, ¬ (b.l3Pos + 10 ≤ i ∧ i < b.l3Pos + 12) → i ≠ b.l3Pos + 1 →
      tosMem host b a i = b.mem i := by
    intro i hi hne
    have hone : ([newTos a (b.mem (b.l3Pos + 1))] : List Byte).length = 1 := rfl
    refine (Memory.put_of_outside _ (by omega)).trans (Memory.put_of_outside b.mem ?_)
    change i < b.l3Pos + 10 ∨ b.l3Pos + 10 + 2 ≤ i
    omega
  have hfield : tosMem host b a (b.l3Pos + 1) = newTos a (b.mem (b.l3Pos + 1)) :=
    Memory.put_of_inside _ (i := 0) Nat.one_pos
  have hheader : internetChecksum ({ b with mem := tosMem host b a } : Ofpbuf).ipHeader = 0 ↔
      NoLoss16 host (b.mem.get16 (b.l3Pos + 10)) ((b.mem (b.l3Pos + 1)).setWidth 16)
        ((newTos a (b.mem (b.l3Pos + 1))).setWidth 16) := by
    have hbalance := h.tos_balance host a
    rw [checksum_zero_iff hdom.header (h.header_pos (hcsum _ (by omega) (by omega))) hbalance]
    exact recalcCsum32_word_iff
  -- the checksums of TCP and UDP do not cover the field
  have hcovered : internetChecksum (({ b with mem := tosMem host b a } : Ofpbuf).transportCovered
      more) = 0 ↔ internetChecksum (b.transportCovered more) = 0 := by
    have hslice : ∀ off n, b.l3Pos + 12 ≤ off →
        (tosMem host b a).slice off n = b.mem.slice off n :=
      fun off n hle => Memory.slice_congr fun i hi _ => hcsum i (by omega) (by omega)
    have hlen : (tosMem host b a).get16 (b.l3Pos + 2) = b.mem.get16 (b.l3Pos + 2) := by
      exact Memory.get16_congr fun i _ _ => hcsum i (by omega) (by omega)
    have htotal := wordTotal_transportCovered_mem more (hcsum _ (by omega) (by omega)) hlen
    rw [hslice _ _ (le_refl _), hslice b.l4Pos _ (by omega)] at htotal
    rw [internetChecksum_eq_zero_iff, internetChecksum_eq_zero_iff, Nat.add_right_cancel htotal]
  have hudpCsum : ({ b with mem := tosMem host b a } : Ofpbuf).udpCsum = b.udpCsum := by
    change (tosMem host b a).get16 (b.l4Pos + 6) = b.mem.get16 (b.l4Pos + 6)
    exact Memory.get16_congr fun i _ _ => hcsum i (by omega) (by omega)
  constructor
  · intro hr
    exact ⟨fun h => absurd h haddr, fun _ => hheader.1 hr.header, fun h => absurd h hport⟩
  · intro hok
    refine ⟨rfl, fun h => absurd h haddr, fun _ => hfield, fun h => absurd h hport,
      hheader.2 (hok.tos htos), fun hfirst htcp => hcovered.2 (hdom.tcp hfirst htcp).2,
      fun hfirst hudp hne => ?_, fun _ _ hzero => hudpCsum.trans hzero,
      fun _ i hle _ => hcsum i (by omega) (by omega), fun i _ _ hkeep => ?_⟩
    · rw [hudpCsum]
      exact ⟨hne, hcovered.2 ((hdom.udp hfirst hudp).2 hne)⟩
    · refine hcsum i (fun hin => hkeep (.ipCsum hin.1 hin.2)) fun heq => ?_
      rw [heq] at hkeep
      exact hkeep (.tos htos)

/-! ### New ports -/

/-- A checksum that loses no carry is zero only if the numbers that go away are the ones that come,
unless there was the other zero before. -/
theorem recalcCsum16On_eq_zero_iff {host : HostOrder} {c old new : BitVec 16}
    (h : NoLoss16 host c old new) : recalcCsum16On host c old new = 0 ↔
      (c.toNat + old.toNat) % 65535 = new.toNat % 65535 ∧
        ¬ (c.toNat + old.toNat = 131070 ∧ new = 0) := by
  have hmod := total_map_ofNet_mod_iff host [c, old] [new]
  simp only [List.map_cons, List.map_nil, total_cons, total_nil, Nat.add_zero] at hmod
  -- both zeros are the same in both orders
  have hzero : ∀ x, host.ofNet x = 0 ↔ x = 0 := by
    intro x
    have hsame : host.ofNet 0 = 0 := by cases host <;> rfl
    rw [HostOrder.ofNet_eq_iff, hsame]
  have hones : ∀ x, host.ofNet x = 65535 ↔ x = 65535 := by
    intro x
    have hsame : host.ofNet 65535 = 65535 := by cases host <;> rfl
    rw [HostOrder.ofNet_eq_iff, hsame]
  have hsum : ∀ x y : BitVec 16, x.toNat + y.toNat = 131070 ↔ x = 65535 ∧ y = 65535 := by
    intro x y
    have hx := x.isLt
    have hy := y.isLt
    have hval : (65535 : BitVec 16).toNat = 65535 := rfl
    rw [← BitVec.toNat_inj, ← BitVec.toNat_inj, hval]
    omega
  rw [recalcCsum16On, hzero, recalcCsum16_eq_replace h, hsum, ← hones c, ← hones old, ← hsum,
    ← hzero new, ← hmod]
  -- all numbers are in host order now
  generalize host.ofNet c = c
  generalize host.ofNet old = old
  generalize host.ofNet new = new
  have hc := c.isLt
  have hold := old.isLt
  have hnew := new.isLt
  have hval : (0 : BitVec 16).toNat = 0 := rfl
  rw [← BitVec.toNat_inj, ← BitVec.toNat_inj (x := new), toNat_replace, hval, reduce]
  split <;> omega

/-- A checksum of zero stays zero exactly if the port stays the same number. -/
theorem recalcCsum16On_zero_iff {host : HostOrder} {old new : BitVec 16} :
    recalcCsum16On host 0 old new = 0 ↔ Equal old new := by
  have hval : (0 : BitVec 16).toNat = 0 := rfl
  by_cases h : NoLoss16 host 0 old new
  · have hold := old.isLt
    rw [recalcCsum16On_eq_zero_iff h, hval, Equal, Nat.zero_add]
    omega
  · have hmod := mt recalcCsum16On_iff.1 h
    unfold NoLoss16 at h
    rw [not_not] at h
    have hones : recalcCsum16On host 0 old new = host.ofNet 0xffff :=
      congrArg host.ofNet (recalcCsum16_of_eq h).1
    have hid : host.ofNet 0xffff = (0xffff : BitVec 16) := by cases host <;> rfl
    have hvalOnes : (0xffff : BitVec 16).toNat = 65535 := rfl
    rw [hones, hid, hvalOnes, hval] at hmod
    rw [hones, hid]
    refine iff_of_false (by decide) fun hequal => hmod ?_
    unfold Equal at hequal
    omega

/-- The memory behind the change of a port with the checksum at the given distance. -/
def portMem (host : HostOrder) (b : Ofpbuf) (csum field : ℕ) (new : BitVec 16) : Memory :=
  (b.mem.put16 (b.l4Pos + csum) (recalcCsum16On host (b.mem.get16 (b.l4Pos + csum))
    (b.mem.get16 (b.l4Pos + field)) new)).put16 (b.l4Pos + field) new

/-- What is written to the payload of a packet for a new port. -/
structure PortWritten (b : Ofpbuf) (m' : Memory) (k f : ℕ) (csum new : BitVec 16) : Prop where
  /-- The sum of the payload. -/
  payload : ∀ more, b.l4Pos + k + 2 ≤ b.ipEnd →
    wordTotal (m'.slice b.l4Pos (b.ipEnd - b.l4Pos) ++ more) +
        ((b.mem.get16 (b.l4Pos + k)).toNat + (b.mem.get16 (b.l4Pos + f)).toNat) =
      wordTotal (b.mem.slice b.l4Pos (b.ipEnd - b.l4Pos) ++ more) + (csum.toNat + new.toNat)
  /-- The checksum. -/
  csum : m'.get16 (b.l4Pos + k) = csum
  /-- The port. -/
  field : m'.get16 (b.l4Pos + f) = new
  /-- The other bytes. -/
  others : ∀ i, ¬ (b.l4Pos + k ≤ i ∧ i < b.l4Pos + k + 2) →
    ¬ (b.l4Pos + f ≤ i ∧ i < b.l4Pos + f + 2) → m' i = b.mem i

/-- The writes of `set_tp_port`. -/
theorem portWritten (b : Ofpbuf) {k f : ℕ} (csum new : BitVec 16) (hk : k % 2 = 0) (hf : f % 2 = 0)
    (hle : f + 2 ≤ k) :
    PortWritten b ((b.mem.put16 (b.l4Pos + k) csum).put16 (b.l4Pos + f) new) k f csum new := by
  have hfar : ∀ i, i ≤ b.l4Pos + f →
      (b.mem.put16 (b.l4Pos + k) csum).get16 i = b.mem.get16 i :=
    fun i hi => Memory.get16_put_of_outside b.mem (.inl (by omega))
  refine ⟨fun more hend => ?_, ?_, Memory.get16_put16 _ _ _, fun i hi hi' => ?_⟩
  · have hfirst := wordTotal_put16 b.mem csum more (Nat.le_add_right b.l4Pos k) (by omega)
      (by omega : b.l4Pos + k + 2 ≤ b.l4Pos + (b.ipEnd - b.l4Pos))
    have hsecond := wordTotal_put16 (b.mem.put16 (b.l4Pos + k) csum) new more
      (Nat.le_add_right b.l4Pos f) (by omega)
      (by omega : b.l4Pos + f + 2 ≤ b.l4Pos + (b.ipEnd - b.l4Pos))
    rw [hfar _ (le_refl _)] at hsecond
    omega
  · exact (Memory.get16_put_of_outside _ (.inr (by
      change b.l4Pos + f + 2 ≤ b.l4Pos + k
      omega))).trans (Memory.get16_put16 _ _ _)
  · refine (Memory.put_of_outside _ ?_).trans (Memory.put_of_outside b.mem ?_)
    · change i < b.l4Pos + f ∨ b.l4Pos + f + 2 ≤ i
      omega
    · change i < b.l4Pos + k ∨ b.l4Pos + k + 2 ≤ i
      omega

/-- The bytes of a word that keeps them are the ones that were there. -/
theorem keepsWord_iff {b : Ofpbuf} {m' : Memory} {pos : ℕ} {v : BitVec 16} (h : m'.get16 pos = v) :
    KeepsWord b pos v ↔
      ∀ i, pos ≤ i → i < pos + 2 → i < b.data + b.size → m' i = b.mem i := by
  have hbytes : ∀ j < 2, (Memory.bytes16 v).getD j 0 = m' (pos + j) := by
    intro j hj
    rw [← h, Memory.bytes16_get16]
    obtain rfl | rfl : j = 0 ∨ j = 1 := by omega
    · rfl
    · rfl
  constructor
  · intro hkeeps i hle hlt hend
    obtain ⟨j, rfl⟩ := Nat.exists_eq_add_of_le hle
    rw [← hbytes j (by omega)]
    exact hkeeps j (by omega) hend
  · intro hsame j hj hend
    rw [hbytes j hj]
    exact hsame _ (by omega) (by omega) hend

/-- A payload is as it was exactly if both words keep their bytes. -/
theorem PortWritten.payload_iff {b : Ofpbuf} {m' : Memory} {k f : ℕ} {csum new : BitVec 16}
    (h : PortWritten b m' k f csum new) :
    (∀ i, b.l4Pos ≤ i → i < b.data + b.size → m' i = b.mem i) ↔
      KeepsWord b (b.l4Pos + k) csum ∧ KeepsWord b (b.l4Pos + f) new := by
  rw [keepsWord_iff h.csum, keepsWord_iff h.field]
  constructor
  · intro hsame
    exact ⟨fun i hle _ => hsame i (by omega), fun i hle _ => hsame i (by omega)⟩
  · rintro ⟨hcsum, hfield⟩ i hle hend
    by_cases hk : b.l4Pos + k ≤ i ∧ i < b.l4Pos + k + 2
    · exact hcsum i hk.1 hk.2 hend
    · by_cases hf : b.l4Pos + f ≤ i ∧ i < b.l4Pos + f + 2
      · exact hfield i hf.1 hf.2 hend
      · exact h.others i hk hf

theorem PortWritten.below {b : Ofpbuf} {m' : Memory} {k f : ℕ} {csum new : BitVec 16}
    (h : PortWritten b m' k f csum new) {i : ℕ} (hi : i < b.l4Pos) : m' i = b.mem i :=
  h.others i (by omega) (by omega)

/-- The sum that a transport checksum covers, when the checksum is written along with a port. -/
theorem PortWritten.covered {b : Ofpbuf} {flow : Flow} {m' : Memory} {k f : ℕ}
    {csum new : BitVec 16} (h : PortWritten b m' k f csum new) (hp : IpParsed b flow)
    (more : List Byte) (hk : b.l4Pos + k + 2 ≤ b.ipEnd) :
    wordTotal (({ b with mem := m' } : Ofpbuf).transportCovered more) +
        ((b.mem.get16 (b.l4Pos + k)).toNat + (b.mem.get16 (b.l4Pos + f)).toNat) =
      wordTotal (b.transportCovered more) + (csum.toNat + new.toNat) := by
  have hopts := hp.options
  have hlen : m'.get16 (b.l3Pos + 2) = b.mem.get16 (b.l3Pos + 2) := by
    exact Memory.get16_congr fun i _ _ => h.below (by omega)
  have htotal := wordTotal_transportCovered_mem more (h.below (by omega)) hlen
  have haddr : m'.slice (b.l3Pos + 12) 8 = b.mem.slice (b.l3Pos + 12) 8 :=
    Memory.slice_congr fun i _ hi => h.below (by omega)
  have hpayload := h.payload more hk
  rw [haddr] at htotal
  omega

/-- The place of a port is one of the first two words behind the IP header. -/
theorem portPos_eq (a : List Byte) (b : Ofpbuf) :
    ∃ f, (f = 0 ∨ f = 2) ∧ portPos a b = b.l4Pos + f ∧
      (if actionType a = ofpatSetTpSrc then 0 else 2) = f := by
  unfold portPos
  split
  · exact ⟨0, .inl rfl, rfl, rfl⟩
  · exact ⟨2, .inr rfl, rfl, rfl⟩

/-- The memory behind `set_tp_port`. -/
def tpPortMem (host : HostOrder) (b : Ofpbuf) (a : List Byte) : Memory :=
  let field := if actionType a = ofpatSetTpSrc then 0 else 2
  if b.ipProto = ipTypeTcp then portMem host b 16 field (be16 a 4)
  else if b.ipProto = ipTypeUdp then portMem host b 6 field (be16 a 4)
  else b.mem

/-- What `set_tp_port` makes of a packet with good checksums. -/
theorem IpParsed.putTpPortOn_eq {b : Ofpbuf} {flow : Flow} (h : IpParsed b flow) (host : HostOrder)
    (a : List Byte) :
    putTpPortOn host b (packetKey flow) a = { b with mem := tpPortMem host b a } := by
  have hip : (packetKey flow).flow.dlType = ethTypeIp := h.dlType
  have htcp : (packetKey flow).flow.nwProto = ipTypeTcp ↔ b.ipProto = ipTypeTcp := h.tcp
  have hudp : (packetKey flow).flow.nwProto = ipTypeUdp ↔ b.ipProto = ipTypeUdp := h.udp
  unfold putTpPortOn tpPortMem
  simp only [if_pos hip, htcp, hudp]
  by_cases h1 : b.ipProto = ipTypeTcp
  · rw [if_pos h1, if_pos h1]
    rfl
  · rw [if_neg h1, if_neg h1]
    by_cases h2 : b.ipProto = ipTypeUdp
    · rw [if_pos h2, if_pos h2]
      rfl
    · rw [if_neg h2, if_neg h2]

/-- The transport checksum behind a new port is good, or the payload of a fragment as it was,
exactly under the condition. -/
theorem IpParsed.port_transport {more a : List Byte} {b : Ofpbuf} {flow : Flow}
    (h : IpParsed b flow) (hdom : Ipv4Packet more b) (host : HostOrder)
    (hset : setsTpPort a = true) :
    TransportKept more a b { b with mem := tpPortMem host b a } ↔
      PortOk host b (portPos a b) (be16 a 4) := by
  have hopts := h.options
  obtain ⟨f, hf, hpos, hfield⟩ := portPos_eq a b
  unfold tpPortMem PortOk
  rw [hfield, hpos]
  -- the bytes that are not rewritten are neither of the port nor of the checksum
  have hbehind : ∀ {k m' csum}, PortWritten b m' k f csum (be16 a 4) → HasTpHeader b →
      (∀ i, b.l4Pos + k ≤ i → i < b.l4Pos + k + 2 → Rewritable a b i) → ∀ i, ¬ Rewritable a b i →
      m' i = b.mem i := by
    intro k m' csum hw htp hcsum i hkeep
    refine hw.others i (fun hin => hkeep (hcsum i hin.1 hin.2)) fun hin => hkeep ?_
    exact .port hset htp (hpos ▸ hin.1) (hpos ▸ hin.2)
  by_cases htcp : b.ipProto = ipTypeTcp
  · rw [if_pos htcp, if_pos htcp]
    have hw : PortWritten b (portMem host b 16 f (be16 a 4)) 16 f _ (be16 a 4) :=
      portWritten b _ _ rfl (by omega) (by omega)
    generalize portMem host b 16 f (be16 a 4) = m' at hw
    refine transportKept_tcp_iff htcp (fun _ => hw.payload_iff) (fun hfirst => ?_)
      fun hfirst i _ => hbehind hw ⟨hfirst, .inl htcp⟩
        (fun i hle hlt => .tcpCsum hfirst htcp hle hlt) i
    obtain ⟨⟨hmin, hmax⟩, hgood⟩ := hdom.tcp hfirst htcp
    unfold tcpHeaderLen at hmin
    rw [checksum_zero_iff hgood (transport_pos more (hw.below (by omega)) (.inl htcp))
      (hw.covered h more (by omega))]
    exact recalcCsum16On_iff
  · rw [if_neg htcp, if_neg htcp]
    by_cases hudp : b.ipProto = ipTypeUdp
    · rw [if_pos hudp, if_pos hudp]
      have hw : PortWritten b (portMem host b 6 f (be16 a 4)) 6 f
          (recalcCsum16On host b.udpCsum (b.mem.get16 (b.l4Pos + f)) (be16 a 4)) (be16 a 4) :=
        portWritten b _ _ rfl (by omega) (by omega)
      generalize portMem host b 6 f (be16 a 4) = m' at hw
      refine transportKept_udp_iff hudp (fun _ => hw.payload_iff) (fun hfirst => ?_)
        fun hfirst i _ => hbehind hw ⟨hfirst, .inr hudp⟩
          (fun i hle hlt => .udpCsum hfirst hudp hle hlt) i
      obtain ⟨hmin, hgood⟩ := hdom.udp hfirst hudp
      unfold udpHeaderLen at hmin
      have hcsum : ({ b with mem := m' } : Ofpbuf).udpCsum = _ := hw.csum
      rw [hcsum]
      by_cases hzero : b.udpCsum = 0
      · rw [if_pos hzero, if_pos hzero, hzero]
        exact recalcCsum16On_zero_iff
      · rw [if_neg hzero, if_neg hzero,
          checksum_zero_iff (hgood hzero) (transport_pos more (hw.below (by omega)) (.inr hudp))
            (hw.covered h more (by omega))]
        change _ ∧ (_ + _) % 65535 = (b.udpCsum.toNat + _) % 65535 ↔ _
        rw [recalcCsum16On_iff, and_comm]
        refine and_congr_right fun hloss => ?_
        rw [Ne, recalcCsum16On_eq_zero_iff hloss, not_and, not_not]
    · rw [if_neg hudp, if_neg hudp]
      exact iff_of_true (transportKept_of_same (fun _ _ => rfl) ⟨htcp, fun h => absurd h hudp⟩)
        trivial

/-- `set_tp_port` leaves a packet as it should exactly under the condition. -/
theorem IpParsed.rewritten_port {more a : List Byte} {b : Ofpbuf} {flow : Flow}
    (h : IpParsed b flow) (hdom : Ipv4Packet more b) (host : HostOrder)
    (hset : setsTpPort a = true) :
    Rewritten more a b (putTpPortOn host b (packetKey flow) a) ↔ RewriteOk host a b := by
  have htype : actionType a = ofpatSetTpSrc ∨ actionType a = ofpatSetTpDst := by
    rw [setsTpPort, Bool.or_eq_true, beq_iff_eq, beq_iff_eq] at hset
    exact hset
  have haddr : ¬ setsNwAddr a = true := by
    rw [setsNwAddr]
    rcases htype with h | h <;> rw [h] <;> decide
  have htos : actionType a ≠ ofpatSetNwTos := by
    rcases htype with h | h <;> rw [h] <;> decide
  have hopts := h.options
  have hframe := h.frame
  have htransport := h.port_transport hdom host hset
  obtain ⟨f, hf, hpos, hfield⟩ := portPos_eq a b
  -- the header stays as it is, and the port is set where there is one
  have hbelow : ∀ i < b.l4Pos, tpPortMem host b a i = b.mem i := by
    intro i hi
    unfold tpPortMem
    rw [hfield]
    split
    · exact (portWritten b _ _ rfl (by omega) (by omega) : PortWritten b _ 16 f _ _).below hi
    · split
      · exact (portWritten b _ _ rfl (by omega) (by omega) : PortWritten b _ 6 f _ _).below hi
      · rfl
  have hport : HasTpHeader b → (tpPortMem host b a).get16 (portPos a b) = be16 a 4 := by
    rintro ⟨-, hproto⟩
    rw [tpPortMem, hfield, hpos]
    by_cases htcp : b.ipProto = ipTypeTcp
    · rw [if_pos htcp]
      exact Memory.get16_put16 _ _ _
    · rw [if_neg htcp, if_pos (hproto.resolve_left htcp)]
      exact Memory.get16_put16 _ _ _
  rw [h.putTpPortOn_eq]
  generalize tpPortMem host b a = m' at htransport hbelow hport
  have hheader : ({ b with mem := m' } : Ofpbuf).ipHeader = b.ipHeader := by
    change m'.slice b.l3Pos (b.l4Pos - b.l3Pos) = b.mem.slice b.l3Pos (b.l4Pos - b.l3Pos)
    exact Memory.slice_congr fun i _ hi => hbelow i (by omega)
  constructor
  · intro hr
    refine ⟨fun h => absurd h haddr, fun h => absurd h htos,
      fun _ => htransport.1 ⟨hr.tcp, hr.udp, hr.noCsum, hr.payload, ?_⟩⟩
    exact fun _ i hle hlt hkeep => hr.others i (by omega) hlt hkeep
  · intro hok
    obtain ⟨htcp, hudp, hnoCsum, hpayload, hbehind⟩ := htransport.2 (hok.port hset)
    refine ⟨rfl, fun h => absurd h haddr, fun h => absurd h htos, fun _ => hport,
      hheader ▸ hdom.header, htcp, hudp, hnoCsum, hpayload, fun i _ hlt hkeep => ?_⟩
    by_cases hi : i < b.l4Pos
    · exact hbelow i hi
    · cases hlater : b.laterFragment with
      | true => exact hpayload hlater i (by omega) hlt
      | false => exact hbehind hlater i (by omega) hlt hkeep

/-! ### Every action on every packet -/

/-- An action on a field of an IP packet with good checksums leaves it with the field set, good
checksums and nothing else changed exactly if no carry is lost, no UDP checksum starts or ends as
zero, and the payload of a fragment other than the first does not change when it is taken for a
transport header. -/
theorem rewritten_iff (host : HostOrder) (packet : Ofpbuf) (inPort : BitVec 16)
    (more a : List Byte) (hset : setsIpField a = true)
    (hdom : Ipv4Packet more (flowExtract packet inPort).2.2) :
    (let p := (flowExtract packet inPort).2.2
    Rewritten more a p (rewriteOn host p (packetKey (packetFlow packet inPort)) a) ↔
      RewriteOk host a p) := by
  have h := ipParsed_flowExtract hdom
  intro p
  generalize packetFlow packet inPort = flow at h
  unfold rewriteOn
  by_cases haddr : setsNwAddr a = true
  · rw [if_pos haddr]
    exact h.rewritten_addr hdom host haddr
  · rw [if_neg haddr]
    by_cases htos : actionType a = ofpatSetNwTos
    · rw [if_pos htos]
      exact h.rewritten_tos hdom host htos
    · rw [if_neg htos]
      refine h.rewritten_port hdom host ?_
      rw [setsIpField, Bool.or_eq_true, Bool.or_eq_true, beq_iff_eq] at hset
      exact hset.resolve_left (not_or.2 ⟨haddr, htos⟩)

/-- A frame of a UDP packet without payload and with the given UDP checksum, from 10.0.0.1 port 1024
to 10.0.0.2 port 53. -/
def udpFrame (csum : BitVec 16) : List Byte :=
  [2, 0, 0, 0, 0, 1, 2, 0, 0, 0, 0, 2, 0x08, 0x00] ++
    [0x45, 0, 0, 28, 0, 1, 0, 0, 64, 17, 0x66, 0xce, 10, 0, 0, 1, 10, 0, 0, 2] ++
    [4, 0, 0, 53, 0, 8] ++ Memory.bytes16 csum

/-- The checksums of the frame are good, with a UDP checksum or without one. -/
theorem ipv4Packet_udpFrame {csum : BitVec 16} (h : csum = 0xe7a6 ∨ csum = 0) :
    Ipv4Packet [] (flowExtract (.cloneData (udpFrame csum)) 1).2.2 := by
  rcases h with rfl | rfl
  · refine ⟨by decide, by decide +kernel, by decide +kernel, fun _ htcp => ?_, fun _ _ => ?_⟩
    · exact absurd htcp (by decide +kernel)
    · exact ⟨by decide +kernel, fun _ => by decide +kernel⟩
  · refine ⟨by decide, by decide +kernel, by decide +kernel, fun _ htcp => ?_, fun _ _ => ?_⟩
    · exact absurd htcp (by decide +kernel)
    · exact ⟨by decide +kernel, fun hcsum => absurd hcsum (by decide +kernel)⟩

/-- A UDP checksum is updated for a new port. -/
theorem rewritten_udpFrame :
    (let packet := Ofpbuf.cloneData (udpFrame 0xe7a6)
    let p := (flowExtract packet 1).2.2
    Ipv4Packet [] p ∧ Rewritten [] setTpDstAction p
      (rewriteOn .little p (packetKey (packetFlow packet 1)) setTpDstAction)) := by
  have hdom := ipv4Packet_udpFrame (.inl rfl : (0xe7a6 : BitVec 16) = 0xe7a6 ∨ _)
  refine ⟨hdom, (rewritten_iff .little _ 1 [] setTpDstAction (by decide) hdom).2 ?_⟩
  exact ⟨fun h => absurd h (by decide), fun h => absurd h (by decide), fun _ => by decide +kernel⟩

/-- A packet without a UDP checksum gets one that is wrong. -/
theorem not_rewritten_udpFrame :
    ¬ ∀ (host : HostOrder) (packet : Ofpbuf) (inPort : BitVec 16) (more a : List Byte),
      setsIpField a = true → Ipv4Packet more (flowExtract packet inPort).2.2 →
        (let p := (flowExtract packet inPort).2.2
        Rewritten more a p (rewriteOn host p (packetKey (packetFlow packet inPort)) a)) := by
  intro hall
  have hr := hall .little (.cloneData (udpFrame 0)) 1 [] setTpDstAction (by decide)
    (ipv4Packet_udpFrame (.inr rfl))
  exact absurd (hr.noCsum (by decide +kernel) (by decide +kernel) (by decide +kernel))
    (by decide +kernel)

end OfAgent
