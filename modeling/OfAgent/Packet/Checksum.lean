import OfAgent.Lib.OnesComplement
import OfAgent.Packet.Execute

/-!
# Checksums

`csum.c`: the Internet checksum of bytes, taken in pieces, and the change of a checksum with a field
under it. The functions work on numbers in host order, so what they compute depends on the host only
in the order of the bytes of a word, which is a parameter.

* `HostOrder`, `csum`, `CsumCall`: the host, the checksum of bytes, and one of the calls that take
  it in pieces.
* `internetChecksum`: the checksum that is asked for. `csum_internet_iff`: when `csum`, and any
  other way to take it in pieces, returns it.
* `Recomputes16`, `Recomputes32`: a checksum is what recomputing gives. `recalc_csum_iff`: when
  `recalc_csum16` and `recalc_csum32` return one.
-/

namespace OfAgent

open OnesComplement

/-! ### Checksums of bytes -/

/-- The order in which a host keeps the bytes of a number. -/
inductive HostOrder
  /-- The first byte is the high one. -/
  | big
  /-- The first byte is the low one. -/
  | little
  deriving DecidableEq, Repr

namespace HostOrder

/-- The 16-bit number in two bytes. -/
def load16 : HostOrder → Byte → Byte → BitVec 16
  | big, a, b => a ++ b
  | little, a, b => b ++ a

/-- The 32-bit number in four bytes. -/
def load32 : HostOrder → Byte → Byte → Byte → Byte → BitVec 32
  | big, a, b, c, d => (a ++ b ++ c ++ d : BitVec 32)
  | little, a, b, c, d => (d ++ c ++ b ++ a : BitVec 32)

/-- The number in host order that a number in network order is, `ntohs`. -/
def ofNet : HostOrder → BitVec 16 → BitVec 16
  | big, x => x
  | little, x => swap x

end HostOrder

/-- `csum_add16`. -/
def csumAdd16 (part : BitVec 32) (new : BitVec 16) : BitVec 32 := part + new.setWidth 32

/-- `csum_add32`. -/
def csumAdd32 (part new : BitVec 32) :
    BitVec 32 := part + new >>> 16 + (new &&& (0xffff : BitVec 32))

/-- `csum_continue`. -/
def csumContinue (host : HostOrder) (part : BitVec 32) : List Byte → BitVec 32
  | a :: b :: data => csumContinue host (csumAdd16 part (host.load16 a b)) data
  | [a] => part + a.setWidth 32
  | [] => part

/-- `csum_finish`. -/
def csumFinish (part : BitVec 32) : BitVec 16 :=
  let folded := (part &&& (0xffff : BitVec 32)) + part >>> 16
  ~~~folded.setWidth 16

/-- `csum`. -/
def csum (host : HostOrder) (data : List Byte) : BitVec 16 := csumFinish (csumContinue host 0 data)

/-- A call that adds bytes to a checksum. -/
inductive CsumCall
  /-- `csum_add16`, for the number in the next two bytes. -/
  | add16 (a b : Byte)
  /-- `csum_add32`, for the number in the next four bytes. -/
  | add32 (a b c d : Byte)
  /-- `csum_continue`. -/
  | run (data : List Byte)

namespace CsumCall

/-- The bytes that a call adds. -/
def bytes : CsumCall → List Byte
  | add16 a b => [a, b]
  | add32 a b c d => [a, b, c, d]
  | run data => data

/-- The checksum behind a call. -/
def step (host : HostOrder) (part : BitVec 32) : CsumCall → BitVec 32
  | add16 a b => csumAdd16 part (host.load16 a b)
  | add32 a b c d => csumAdd32 part (host.load32 a b c d)
  | run data => csumContinue host part data

/-- Calls that add the bytes of some data in their order, each one at an even offset. -/
inductive Splits : List CsumCall → List Byte → Prop
  /-- The last call. -/
  | last (call : CsumCall) : Splits [call] call.bytes
  /-- A call with others behind it. -/
  | more {call : CsumCall} {calls : List CsumCall} {data : List Byte} :
      call.bytes.length % 2 = 0 → Splits calls data → Splits (call :: calls) (call.bytes ++ data)

end CsumCall

/-- The words of some data, the last one filled up with a zero byte. -/
def dataWords (host : HostOrder) : List Byte → List (BitVec 16)
  | a :: b :: data => host.load16 a b :: dataWords host data
  | [a] => [host.load16 a 0]
  | [] => []

/-- The Internet checksum of some data, a number in network order. -/
def internetChecksum (data : List Byte) : BitVec 16 := checksum (dataWords .big data)

/-! ### The sum that the calls take -/

/-- The sum that `csum_continue` takes of some data: a byte left over counts as it is. -/
def readTotal (host : HostOrder) : List Byte → ℕ
  | a :: b :: data => (host.load16 a b).toNat + readTotal host data
  | [a] => a.toNat
  | [] => 0

variable {host : HostOrder}

/-- The sum is bounded by the length. -/
theorem readTotal_le (host : HostOrder) (data : List Byte) :
    readTotal host data ≤ 65535 * ((data.length + 1) / 2) := by
  induction data using readTotal.induct with
  | case1 a b data ih =>
    have hword := (host.load16 a b).isLt
    rw [readTotal, List.length_cons, List.length_cons]
    omega
  | case2 a =>
    have ha := a.isLt
    rw [readTotal, List.length_singleton]
    omega
  | case3 => exact Nat.zero_le _

/-- The sum of data in two pieces, the first one of even length. -/
theorem readTotal_append {xs : List Byte} (heven : xs.length % 2 = 0) (ys : List Byte) :
    readTotal host (xs ++ ys) = readTotal host xs + readTotal host ys := by
  induction xs using readTotal.induct with
  | case1 a b xs ih =>
    rw [List.length_cons, List.length_cons] at heven
    rw [List.cons_append, List.cons_append, readTotal, readTotal, ih (by omega), Nat.add_assoc]
  | case2 a => cases heven
  | case3 => exact (Nat.zero_add _).symm

/-- `csum_continue` takes the sum, if it fits. -/
theorem toNat_csumContinue {part : BitVec 32} {data : List Byte}
    (hfits : part.toNat + readTotal host data < 2 ^ 32) :
    (csumContinue host part data).toNat = part.toNat + readTotal host data := by
  induction part, data using csumContinue.induct host with
  | case1 part a b data ih =>
    have hword := (host.load16 a b).isLt
    rw [readTotal] at hfits ⊢
    have hadd : (csumAdd16 part (host.load16 a b)).toNat =
      part.toNat + (host.load16 a b).toNat := by
      rw [csumAdd16, BitVec.toNat_add, BitVec.toNat_setWidth]
      omega
    rw [csumContinue, ih (by omega), hadd, Nat.add_assoc]
  | case2 part a =>
    have ha := a.isLt
    rw [readTotal] at hfits ⊢
    rw [csumContinue, BitVec.toNat_add, BitVec.toNat_setWidth]
    omega
  | case3 part => exact (Nat.add_zero _).symm

/-- The value of a number in four bytes is made of the values of its two words. -/
theorem toNat_load32 (host : HostOrder) (a b c d : Byte) :
    (host.load32 a b c d).toNat / 65536 + (host.load32 a b c d).toNat % 65536 =
      (host.load16 a b).toNat + (host.load16 c d).toNat := by
  have happend : ∀ {w : ℕ} (x : BitVec w) (y : Byte), (x ++ y).toNat = x.toNat * 256 + y.toNat := by
    intro w x y
    rw [BitVec.toNat_append, ← Nat.shiftLeft_add_eq_or_of_lt y.isLt, Nat.shiftLeft_eq]
  have ha := a.isLt
  have hb := b.isLt
  have hc := c.isLt
  have hd := d.isLt
  cases host with
  | big =>
    simp only [HostOrder.load32, HostOrder.load16, happend]
    omega
  | little =>
    simp only [HostOrder.load32, HostOrder.load16, happend]
    omega

/-- Every call takes the sum of its bytes, if it fits. -/
theorem CsumCall.toNat_step {part : BitVec 32} (call : CsumCall)
    (hfits : part.toNat + readTotal host call.bytes < 2 ^ 32) :
    (call.step host part).toNat = part.toNat + readTotal host call.bytes := by
  cases call with
  | add16 a b =>
    have hword := (host.load16 a b).isLt
    simp only [CsumCall.bytes, readTotal] at hfits ⊢
    rw [CsumCall.step, csumAdd16, BitVec.toNat_add, BitVec.toNat_setWidth]
    omega
  | add32 a b c d =>
    have hsplit := toNat_load32 host a b c d
    have hword := (host.load32 a b c d).isLt
    have hlow : (host.load32 a b c d &&& 0xffff).toNat = (host.load32 a b c d).toNat % 65536 := by
      rw [BitVec.toNat_and]
      exact Nat.and_two_pow_sub_one_eq_mod _ 16
    simp only [CsumCall.bytes, readTotal] at hfits ⊢
    rw [CsumCall.step, csumAdd32, BitVec.toNat_add, BitVec.toNat_add, hlow,
      BitVec.toNat_ushiftRight,
      Nat.shiftRight_eq_div_pow]
    omega
  | run data => exact toNat_csumContinue hfits

/-- Calls that split some data take its sum, if it fits. -/
theorem CsumCall.Splits.toNat_foldl {calls : List CsumCall} {data : List Byte}
    (h : Splits calls data)
    {part : BitVec 32} (hfits : part.toNat + readTotal host data < 2 ^ 32) :
    (calls.foldl (CsumCall.step host) part).toNat = part.toNat + readTotal host data := by
  induction h generalizing part with
  | last call => exact call.toNat_step hfits
  | more heven _ ih =>
    rename_i call calls data _
    rw [readTotal_append heven] at hfits ⊢
    have hstep := @CsumCall.toNat_step host part call (by omega)
    rw [List.foldl_cons, ih (by omega), hstep, Nat.add_assoc]

/-! ### When the checksum is right -/

/-- The byte that is left over. -/
def oddTail : List Byte → Byte
  | _ :: _ :: data => oddTail data
  | [a] => a
  | [] => 0

theorem toNat_append_byte (a b : Byte) : (a ++ b : BitVec 16).toNat = a.toNat * 256 + b.toNat := by
  rw [BitVec.toNat_append, ← Nat.shiftLeft_add_eq_or_of_lt b.isLt, Nat.shiftLeft_eq]

/-- On a host that has the low byte first, a byte that is left over counts as it should. -/
theorem total_dataWords_little (data : List Byte) :
    total (dataWords .little data) = readTotal .little data := by
  induction data using readTotal.induct with
  | case1 a b data ih => rw [dataWords, total_cons, ih, readTotal]
  | case2 a =>
    rw [dataWords, total_cons, total_nil, readTotal, HostOrder.load16, toNat_append_byte]
    exact (Nat.add_zero _).trans (Nat.zero_add _)
  | case3 => rfl

/-- On a host that has the high byte first, it should count 256 times. -/
theorem total_dataWords_big (data : List Byte) :
    total (dataWords .big data) = readTotal .big data + 255 * (oddTail data).toNat := by
  induction data using readTotal.induct with
  | case1 a b data ih => rw [dataWords, total_cons, ih, readTotal, oddTail, Nat.add_assoc]
  | case2 a =>
    rw [dataWords, total_cons, total_nil, readTotal, HostOrder.load16, toNat_append_byte, oddTail]
    have hzero : (0 : Byte).toNat = 0 := rfl
    omega
  | case3 => rfl

/-- The words of some data on the other host have their bytes exchanged. -/
theorem map_swap_dataWords (data : List Byte) :
    (dataWords .big data).map swap = dataWords .little data := by
  have hswap : ∀ a b : Byte, swap (a ++ b) = b ++ a := by
    intro a b
    have ha := a.isLt
    have hb := b.isLt
    apply BitVec.eq_of_toNat_eq
    rw [toNat_swap, toNat_append_byte, toNat_append_byte]
    omega
  induction data using readTotal.induct with
  | case1 a b data ih =>
    rw [dataWords, List.map_cons, ih, HostOrder.load16, hswap, dataWords, HostOrder.load16]
  | case2 a => exact congrArg (fun w => [w]) (hswap a 0)
  | case3 => rfl

/-- The Internet checksum, as the host has it, is the checksum of the words that the host reads. -/
theorem ofNet_internetChecksum (host : HostOrder) (data : List Byte) :
    host.ofNet (internetChecksum data) = checksum (dataWords host data) := by
  cases host with
  | big => rfl
  | little => rw [HostOrder.ofNet, internetChecksum, swap_checksum, map_swap_dataWords]

/-- The condition under which the checksum of some data is right. -/
structure SumsRight (host : HostOrder) (data : List Byte) : Prop where
  /-- The sum of the words is a word after one end-around carry. -/
  carry_lt : carry (total (dataWords host data)) < 65536
  /-- On a host that has the high byte first, no byte is left over, or a zero byte. -/
  oddTail_eq : host = .big → oddTail data = 0

/-- The value of what `csum_finish` returns. -/
theorem toNat_csumFinish (part : BitVec 32) :
    (csumFinish part).toNat = 65535 - carry part.toNat % 65536 := by
  have hpart := part.isLt
  have hlow : (part &&& 0xffff).toNat = part.toNat % 65536 := by
    rw [BitVec.toNat_and]
    exact Nat.and_two_pow_sub_one_eq_mod _ 16
  rw [csumFinish, toNat_not, BitVec.toNat_setWidth, BitVec.toNat_add, hlow,
    BitVec.toNat_ushiftRight, Nat.shiftRight_eq_div_pow]
  unfold carry
  omega

/-- What the sum of some data finishes to is right under the condition only. -/
theorem csumFinish_eq_iff {part : BitVec 32} {data : List Byte}
    (hpart : part.toNat = readTotal host data) :
    csumFinish part = host.ofNet (internetChecksum data) ↔ SumsRight host data := by
  have hlt := part.isLt
  -- both sides in terms of sums of words
  have hfinish : csumFinish part = host.ofNet (internetChecksum data) ↔
      carry (readTotal host data) % 65536 = reduce (total (dataWords host data)) := by
    have hle := reduce_le (total (dataWords host data))
    have hmod : carry (readTotal host data) % 65536 < 65536 := Nat.mod_lt _ (by decide)
    rw [ofNet_internetChecksum, ← BitVec.toNat_inj, toNat_csumFinish, toNat_checksum, hpart]
    omega
  rw [hfinish]
  have hcarry : carry (readTotal host data) ≤ 131070 := by
    unfold carry
    omega
  have hkeeps := carry_mod (readTotal host data)
  have hreduced := reduce_mod (total (dataWords host data))
  constructor
  · intro heq
    cases host with
    | big =>
      have htotal := total_dataWords_big data
      -- an odd byte counts for less than it should on a big-endian host, so it has to be zero
      have htail := (oddTail data).isLt
      have hzero : (oddTail data).toNat = 0 := by omega
      refine ⟨?_, fun _ => BitVec.eq_of_toNat_eq hzero⟩
      rw [hzero, Nat.mul_zero, Nat.add_zero] at htotal
      rw [htotal] at heq hreduced ⊢
      omega
    | little =>
      rw [total_dataWords_little] at heq hreduced
      refine ⟨?_, fun h => by cases h⟩
      rw [total_dataWords_little]
      omega
  · rintro ⟨hfits, htail⟩
    have hread : total (dataWords host data) = readTotal host data := by
      cases host with
      | big =>
        rw [total_dataWords_big, htail rfl]
        rfl
      | little => exact total_dataWords_little data
    rw [← hread, ← carry_eq_reduce hfits, Nat.mod_eq_of_lt hfits]

/-- For data of less than `2 ^ 17` bytes, `csum` and any calls that take the data in pieces at even
offsets return the Internet checksum, as the host has it, exactly when the sum of the words is a
word after one end-around carry and, on a host that has the high byte first, no byte other than zero
is left over. -/
theorem csum_internet_iff (host : HostOrder) (data : List Byte) (hlen : data.length < 2 ^ 17) :
    (csum host data = host.ofNet (internetChecksum data) ↔ SumsRight host data) ∧
      ∀ calls, CsumCall.Splits calls data →
        (csumFinish (calls.foldl (CsumCall.step host) 0) = host.ofNet (internetChecksum data) ↔
          SumsRight host data) := by
  have hbound := readTotal_le host data
  have hfits : (0 : BitVec 32).toNat + readTotal host data < 2 ^ 32 := by
    change 0 + _ < _
    omega
  refine ⟨?_, fun calls hcalls => ?_⟩
  · exact csumFinish_eq_iff ((toNat_csumContinue hfits).trans (Nat.zero_add _))
  · exact csumFinish_eq_iff ((hcalls.toNat_foldl hfits).trans (Nat.zero_add _))

/-- The first bytes of an IP header, in two calls. -/
theorem csum_internet_iff_calls :
    csumFinish ([.add16 0x45 0, .run [0, 0x54, 0]].foldl (CsumCall.step .little) 0) =
      HostOrder.little.ofNet (internetChecksum [0x45, 0, 0, 0x54, 0]) :=
  ((csum_internet_iff .little [0x45, 0, 0, 0x54, 0] (by decide)).2
    [.add16 0x45 0, .run [0, 0x54, 0]]
    (.more rfl (.last (.run [0, 0x54, 0])))).2 ⟨by decide, fun h => by cases h⟩

/-- Words whose sum needs a second end-around carry, on either host,
and a byte that is left over. -/
theorem not_csum_internet :
    csum .big [0xff, 0xff, 0xff, 0xff, 0, 1] ≠
        HostOrder.big.ofNet (internetChecksum [0xff, 0xff, 0xff, 0xff, 0, 1]) ∧
      csum .little [0xff, 0xff, 0xff, 0xff, 1, 0] ≠
        HostOrder.little.ofNet (internetChecksum [0xff, 0xff, 0xff, 0xff, 1, 0]) ∧
      csum .big [1] ≠ HostOrder.big.ofNet (internetChecksum [1]) := by
  decide

/-! ### Checksums that change with a field -/

/-- The low word of a number. -/
def lowWord (x : BitVec 32) : BitVec 16 := x.setWidth 16

/-- The high word of a number. -/
def highWord (x : BitVec 32) : BitVec 16 := (x >>> 16).setWidth 16

/-- For all words with the checksum `c`, the checksum is `r` after a word `old` of them has been
replaced by `new`. -/
def Recomputes16 (c old new r : BitVec 16) : Prop :=
  ∀ ws i, ws[i]? = some old → Equal (checksum ws) c → Equal (checksum (ws.set i new)) r

/-- For all words with the checksum `c`, the checksum is `r` after the two words of a number `old`
among them have been replaced by those of `new`. -/
def Recomputes32 (c : BitVec 16) (old new : BitVec 32) (r : BitVec 16) : Prop :=
  ∀ ws i j, i ≠ j → ws[i]? = some (lowWord old) → ws[j]? = some (highWord old) →
    Equal (checksum ws) c →
    Equal (checksum ((ws.set i (lowWord new)).set j (highWord new))) r

/-- There are words with a given checksum and two given words among them. -/
theorem exists_checksum_eq (c a b : BitVec 16) : ∃ w, Equal (checksum [a, b, w]) c := by
  have ha := a.isLt
  have hb := b.isLt
  have hc := c.isLt
  refine ⟨BitVec.ofNat 16 ((196605 - c.toNat - a.toNat - b.toNat) % 65535), ?_⟩
  rw [equal_checksum_iff, total_cons, total_cons, total_cons, total_nil, BitVec.toNat_ofNat]
  omega

/-- Recomputing gives the checksum of the arithmetic. -/
theorem recomputes16_iff {c old new r : BitVec 16} :
    Recomputes16 c old new r ↔ Equal (replace c old new) r := by
  constructor
  · intro h
    obtain ⟨w, hw⟩ := exists_checksum_eq c old 0
    have hset := h [old, 0, w] 0 rfl hw
    have hreplace := checksum_set (i := 0) rfl hw new
    exact hreplace.symm.trans hset
  · intro h ws i hget hc
    exact (checksum_set hget hc new).trans h

/-- Recomputing with a number of two words gives the checksum of the arithmetic. -/
theorem recomputes32_iff {c r : BitVec 16} {old new : BitVec 32} : Recomputes32 c old new r ↔
    Equal (replace (replace c (lowWord old) (lowWord new)) (highWord old) (highWord new)) r := by
  constructor
  · intro h
    obtain ⟨w, hw⟩ := exists_checksum_eq c (lowWord old) (highWord old)
    have hset := h [lowWord old, highWord old, w] 0 1 (by decide) rfl rfl hw
    have hlow := checksum_set (i := 0) rfl hw (lowWord new)
    have hreplace := checksum_set (i := 1) rfl hlow (highWord new)
    exact hreplace.symm.trans hset
  · intro h ws i j hij hlow hhigh hc
    have hset := checksum_set hlow hc (lowWord new)
    have hhigh' : (ws.set i (lowWord new))[j]? = some (highWord old) := by
      rw [List.getElem?_set_ne hij, hhigh]
    exact (checksum_set hhigh' hset (highWord new)).trans h

/-- The value of what `recalc_csum16` returns: there is one end-around carry only. -/
theorem toNat_recalcCsum16 (c old new : BitVec 16) : (recalcCsum16 c old new).toNat =
    65535 - carry (65535 - c.toNat + (65535 - old.toNat) + new.toNat) % 65536 := by
  have hc := c.isLt
  have hold := old.isLt
  have hnew := new.isLt
  rw [recalcCsum16]
  simp only [toNat_not, BitVec.toNat_setWidth, BitVec.toNat_add, BitVec.toNat_ushiftRight,
    Nat.shiftRight_eq_div_pow]
  unfold carry
  omega

/-- Unless the new value is one more than the checksum and the old value together, one carry is
enough. -/
theorem recalcCsum16_eq_replace {c old new : BitVec 16} (h : new.toNat ≠ c.toNat + old.toNat + 1) :
    recalcCsum16 c old new = replace c old new := by
  have hc := c.isLt
  have hold := old.isLt
  have hnew := new.isLt
  have hfits : carry (65535 - c.toNat + (65535 - old.toNat) + new.toNat) < 65536 := by
    unfold carry
    omega
  apply BitVec.eq_of_toNat_eq
  rw [toNat_recalcCsum16, toNat_replace, Nat.mod_eq_of_lt hfits, carry_eq_reduce hfits]

/-- Otherwise the carry is lost, and the checksum is one too large. -/
theorem recalcCsum16_of_eq {c old new : BitVec 16} (h : new.toNat = c.toNat + old.toNat + 1) :
    recalcCsum16 c old new = 0xffff ∧ replace c old new = 0xfffe := by
  have hnew := new.isLt
  have hsum : 65535 - c.toNat + (65535 - old.toNat) + new.toNat = 131071 := by omega
  constructor <;> apply BitVec.eq_of_toNat_eq
  · rw [toNat_recalcCsum16, hsum]
    rfl
  · rw [toNat_replace, hsum]
    rfl

/-- When `recalc_csum16` returns the checksum of the arithmetic. -/
theorem equal_recalcCsum16_iff {c old new : BitVec 16} :
    Equal (replace c old new) (recalcCsum16 c old new) ↔ new.toNat ≠ c.toNat + old.toNat + 1 := by
  constructor
  · intro hequal heq
    obtain ⟨hcode, harith⟩ := recalcCsum16_of_eq heq
    rw [hcode, harith] at hequal
    exact absurd hequal (by decide)
  · intro hne
    rw [recalcCsum16_eq_replace hne]
    exact equal_self _

/-- When `recalc_csum32` returns the checksum of the arithmetic. -/
theorem equal_recalcCsum32_iff {c : BitVec 16} {old new : BitVec 32} :
    Equal (replace (replace c (lowWord old) (lowWord new)) (highWord old) (highWord new))
        (recalcCsum32 c old new) ↔
      (lowWord new).toNat ≠ c.toNat + (lowWord old).toNat + 1 ∧
        (highWord new).toNat ≠
          (replace c (lowWord old) (lowWord new)).toNat + (highWord old).toNat + 1 := by
  change Equal _ (recalcCsum16 (recalcCsum16 c (lowWord old) (lowWord new)) (highWord old)
    (highWord new)) ↔ _
  by_cases hlow : (lowWord new).toNat = c.toNat + (lowWord old).toNat + 1
  · -- the low words are one too large, and the high words cannot make up for it
    obtain ⟨hcode, harith⟩ := recalcCsum16_of_eq hlow
    have hhigh : (highWord new).toNat ≠ (0xffff : BitVec 16).toNat + (highWord old).toNat + 1 := by
      have hnew := (highWord new).isLt
      have hones : (0xffff : BitVec 16).toNat = 65535 := rfl
      omega
    rw [hcode, harith, recalcCsum16_eq_replace hhigh, equal_replace_iff]
    have hreplace : ((replace 0xffff (highWord old) (highWord new)).toNat +
        (highWord new).toNat) % 65535 =
        ((0xffff : BitVec 16).toNat + (highWord old).toNat) % 65535 :=
      equal_replace_iff.1 (equal_self _)
    have hones : (0xffff : BitVec 16).toNat = 65535 := rfl
    have hless : (0xfffe : BitVec 16).toNat = 65534 := rfl
    constructor
    · intro heq
      omega
    · exact fun h => absurd hlow h.1
  · rw [recalcCsum16_eq_replace hlow, equal_recalcCsum16_iff]
    exact (and_iff_right hlow).symm

/-- `recalc_csum16` returns what recomputing gives unless the new value is one more than the
checksum and the old value together. `recalc_csum32` does unless the same holds of the low words, or
of the high words and the checksum behind the replacement of the low ones. -/
theorem recalc_csum_iff (c u v : BitVec 16) (old new : BitVec 32) :
    (Recomputes16 c u v (recalcCsum16 c u v) ↔ v.toNat ≠ c.toNat + u.toNat + 1) ∧
      (Recomputes32 c old new (recalcCsum32 c old new) ↔
        (lowWord new).toNat ≠ c.toNat + (lowWord old).toNat + 1 ∧
          (highWord new).toNat ≠
            (replace c (lowWord old) (lowWord new)).toNat + (highWord old).toNat + 1) :=
  ⟨recomputes16_iff.trans equal_recalcCsum16_iff, recomputes32_iff.trans equal_recalcCsum32_iff⟩

/-- A field that goes from 0 to 1 under the checksum 0. -/
theorem not_recomputes : ¬ Recomputes16 0 0 1 (recalcCsum16 0 0 1) ∧
    ¬ Recomputes32 0 0 1 (recalcCsum32 0 0 1) := by
  rw [recomputes16_iff, recomputes32_iff]
  decide

end OfAgent
