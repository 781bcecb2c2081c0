import OfAgent.OpenFlow

/-!
# Packet buffers

`struct ofpbuf` of `ofpbuf.h` and the functions of `ofpbuf.c` that packets go through. A buffer is
a part of a memory area; positions are distances from the start of the area, so the headroom of a
buffer is the position of its data.

* `Memory`: the bytes from `base` on, with reads and writes in network byte order.
* `Ofpbuf`: a buffer, and the headers that `flow_extract` has found in it.
* `clone`, `pushUninit`: copying a buffer, and making room in front of its data, which fails
  without headroom.
-/

namespace OfAgent

/-- The memory from the start of an area on. The area ends after the `allocated` bytes of its
buffer; what lies behind it belongs to somebody else. -/
abbrev Memory := ℕ → Byte

namespace Memory

variable (m : Memory)

/-- The 16-bit number in network byte order at a position. -/
def get16 (off : ℕ) : BitVec 16 := m off ++ m (off + 1)

/-- The 32-bit number in network byte order at a position. -/
def get32 (off : ℕ) : BitVec 32 := m.get16 off ++ m.get16 (off + 2)

/-- The Ethernet address at a position. -/
def get48 (off : ℕ) : BitVec 48 := m.get16 off ++ m.get32 (off + 2)

/-- The memory with bytes written at a position. -/
def put (off : ℕ) (bs : List Byte) : Memory := fun i =>
  if off ≤ i ∧ i < off + bs.length then bs.getD (i - off) 0 else m i

/-- The two bytes of a number in network byte order. -/
def bytes16 (v : BitVec 16) : List Byte := [v.extractLsb' 8 8, v.extractLsb' 0 8]

/-- The four bytes of a number in network byte order. -/
def bytes32 (v : BitVec 32) : List Byte :=
  bytes16 (v.extractLsb' 16 16) ++ bytes16 (v.extractLsb' 0 16)

/-- The memory with a 16-bit number written at a position. -/
def put16 (off : ℕ) (v : BitVec 16) : Memory := m.put off (bytes16 v)

/-- The memory with a 32-bit number written at a position. -/
def put32 (off : ℕ) (v : BitVec 32) : Memory := m.put off (bytes32 v)

/-- The `n` bytes at a position. -/
def slice (off n : ℕ) : List Byte := (List.range n).map fun i => m (off + i)

/-- A memory that holds the given bytes from its start on. -/
def ofBytes (bs : List Byte) : Memory := fun i => bs.getD i 0

/-- As many bytes as have been asked for. -/
@[simp]
theorem length_slice (off n : ℕ) : (m.slice off n).length = n := by simp [slice]

theorem put_of_outside {off i : ℕ} {bs : List Byte} (h : i < off ∨ off + bs.length ≤ i) :
    m.put off bs i = m i := by
  rw [put, if_neg (by omega)]

theorem put_of_inside {off i : ℕ} {bs : List Byte} (h : i < bs.length) :
    m.put off bs (off + i) = bs.getD i 0 := by
  rw [put, if_pos (by omega), Nat.add_sub_cancel_left]

theorem get16_put_of_outside {off i : ℕ} {bs : List Byte}
    (h : i + 2 ≤ off ∨ off + bs.length ≤ i) : (m.put off bs).get16 i = m.get16 i := by
  rw [get16, get16, put_of_outside _ (by omega), put_of_outside _ (by omega)]

/-- A number inside the bytes that have been written. -/
theorem get16_put_of_inside {off i : ℕ} {bs : List Byte} (h : i + 2 ≤ bs.length) :
    (m.put off bs).get16 (off + i) = be16 bs i := by
  rw [get16, Nat.add_assoc, put_of_inside _ (by omega), put_of_inside _ (by omega)]
  rfl

theorem get16_congr {m m' : Memory} {off : ℕ} (h : ∀ i, off ≤ i → i < off + 2 → m i = m' i) :
    m.get16 off = m'.get16 off := by
  rw [get16, get16, h _ (le_refl _) (by omega), h _ (by omega) (by omega)]

theorem slice_congr {m m' : Memory} {off n : ℕ} (h : ∀ i, off ≤ i → i < off + n → m i = m' i) :
    m.slice off n = m'.slice off n := by
  refine List.map_congr_left fun i hi => ?_
  have hlt := List.mem_range.1 hi
  exact h _ (by omega) (by omega)

theorem slice_put_of_outside {off i n : ℕ} {bs : List Byte}
    (h : i + n ≤ off ∨ off + bs.length ≤ i) : (m.put off bs).slice i n = m.slice i n :=
  slice_congr fun _ _ _ => put_of_outside _ (by omega)

/-- A slice of the bytes that have been written. -/
theorem slice_put_of_inside {off i n : ℕ} {bs : List Byte} (h : i + n ≤ bs.length) :
    (m.put off bs).slice (off + i) n = (bs.drop i).take n := by
  have hlen : ((bs.drop i).take n).length = n := by
    rw [List.length_take, List.length_drop]
    omega
  refine List.ext_getElem ((length_slice ..).trans hlen.symm) fun j h₁ h₂ => ?_
  rw [hlen] at h₂
  have hlt : i + j < bs.length := by omega
  simp [slice, Nat.add_assoc, put_of_inside m hlt, List.getD_eq_getElem?_getD, hlt]

theorem slice_add (off n k : ℕ) :
    m.slice off (n + k) = m.slice off n ++ m.slice (off + n) k := by
  simp [slice, List.range_add, Nat.add_assoc, Function.comp_def]

/-- The bytes of a number are the ones that it has been read from. -/
theorem bytes16_get16 (off : ℕ) :
    bytes16 (m.get16 off) = m.slice off 2 := by
  have hhigh : (m.get16 off).extractLsb' 8 8 = m off := by
    rw [get16]
    ext i hi
    rw [BitVec.getElem_extractLsb', BitVec.getLsbD_append, if_neg (by omega),
      Nat.add_sub_cancel_left, BitVec.getLsbD_eq_getElem]
  have hlow : (m.get16 off).extractLsb' 0 8 = m (off + 1) := by
    rw [get16]
    ext i hi
    rw [BitVec.getElem_extractLsb', BitVec.getLsbD_append, Nat.zero_add, if_pos hi,
      BitVec.getLsbD_eq_getElem]
  rw [bytes16, hhigh, hlow]
  rfl

theorem be16_bytes16 (v : BitVec 16) (c : List Byte) : be16 (bytes16 v ++ c) 0 = v := by
  change v.extractLsb' 8 8 ++ v.extractLsb' 0 8 = v
  exact (BitVec.extractLsb'_append_extractLsb'_eq_extractLsb' rfl).trans BitVec.extractLsb'_eq_self

theorem be32_bytes32 (v : BitVec 32) : be32 (bytes32 v) 0 = v := by
  have hhigh : be16 (bytes32 v) 0 = v.extractLsb' 16 16 := be16_bytes16 _ _
  have hlow : be16 (bytes32 v) 2 = v.extractLsb' 0 16 :=
    (be16_append_right (bytes16 (v.extractLsb' 16 16)) (bytes16 (v.extractLsb' 0 16)) 0).trans
      (be16_bytes16 _ [])
  rw [be32, hhigh, Nat.zero_add, hlow]
  exact (BitVec.extractLsb'_append_extractLsb'_eq_extractLsb' rfl).trans BitVec.extractLsb'_eq_self

/-- The number that has just been written. -/
theorem get16_put16 (pos : ℕ) (v : BitVec 16) : (m.put16 pos v).get16 pos = v := by
  have hlen : (bytes16 v).length = 2 := rfl
  exact (get16_put_of_inside m (i := 0) (by omega)).trans (be16_bytes16 v [])

theorem get32_put32 (pos : ℕ) (v : BitVec 32) : (m.put32 pos v).get32 pos = v := by
  have hlen : (bytes32 v).length = 4 := rfl
  have hhigh : (m.put32 pos v).get16 pos = be16 (bytes32 v) 0 :=
    get16_put_of_inside m (i := 0) (by omega)
  have hlow : (m.put32 pos v).get16 (pos + 2) = be16 (bytes32 v) 2 :=
    get16_put_of_inside m (by omega)
  rw [get32, hhigh, hlow]
  exact be32_bytes32 v

/-- A number written over itself. -/
theorem put16_get16 (off : ℕ) : m.put16 off (m.get16 off) = m := by
  have hput : ∀ i < 2, m.put16 off (m.get16 off) (off + i) =
      (bytes16 (m.get16 off)).getD i 0 := fun i hi => put_of_inside m hi
  rw [bytes16_get16] at hput
  funext j
  by_cases hj : off ≤ j ∧ j < off + 2
  · obtain rfl | rfl : j = off ∨ j = off + 1 := by omega
    · exact hput 0 Nat.two_pos
    · exact hput 1 Nat.one_lt_two
  · exact put_of_outside m (by change j < off ∨ off + 2 ≤ j; omega)

/-- The bytes of a memory that holds given bytes. -/
@[simp]
theorem slice_ofBytes (bs : List Byte) : (ofBytes bs).slice 0 bs.length = bs := by
  apply List.ext_getElem
  · simp
  · intro i h₁ h₂
    simp [slice, ofBytes, List.getD_eq_getElem?_getD, h₂]

end Memory

/-- `struct ofpbuf`. The buffers of packets are not linked, so `next` and `private` are left
out. -/
structure Ofpbuf where
  /-- The memory from `base` on. -/
  mem : Memory
  /-- Number of bytes allocated. -/
  allocated : ℕ
  /-- First byte actually in use. -/
  data : ℕ
  /-- Number of bytes in use. -/
  size : ℕ
  /-- Link-level header. -/
  l2 : Option ℕ
  /-- Network-level header. -/
  l3 : Option ℕ
  /-- Transport-level header. -/
  l4 : Option ℕ
  /-- Application data. -/
  l7 : Option ℕ

/-- What goes wrong when an assertion of `ofpbuf.c` fails. -/
inductive OfpbufFault
  /-- `ofpbuf_prealloc_headroom`: `size <= ofpbuf_headroom(b)`. -/
  | headroom
  deriving DecidableEq, Repr

namespace Ofpbuf

variable (b : Ofpbuf)

/-- The bytes in use. -/
def bytes : List Byte := b.mem.slice b.data b.size

/-- `ofpbuf_headroom`. -/
def headroom : ℕ := b.data

/-- A buffer that holds the given bytes and nothing else, as `ofpbuf_clone_data` makes it. -/
def cloneData (bs : List Byte) : Ofpbuf :=
  { mem := .ofBytes bs, allocated := bs.length, data := 0, size := bs.length,
    l2 := none, l3 := none, l4 := none, l7 := none }

/-- `ofpbuf_clone`: the copy has no headroom, and none of the headers is known. -/
def clone : Ofpbuf := cloneData b.bytes

/-- `ofpbuf_push_uninit`. -/
def pushUninit (size : ℕ) : Except OfpbufFault Ofpbuf :=
  -- ofpbuf_prealloc_headroom
  if size ≤ b.headroom then .ok { b with data := b.data - size, size := b.size + size }
  else .error .headroom

/-- A copy has no headroom. -/
@[simp]
theorem headroom_clone : b.clone.headroom = 0 := rfl

/-- A copy holds the same bytes. -/
@[simp]
theorem bytes_clone : b.clone.bytes = b.bytes := Memory.slice_ofBytes b.bytes

end Ofpbuf

end OfAgent
