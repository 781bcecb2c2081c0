import OfAgent.Control.Dispatch
import OfAgent.Packet.Extract

/-!
# Reading messages

The reads of a received message, in the functions of the secure channel that look at it, and those
of the packet in it, in `flow_extract`.

* `InspectM`: computations that read a message.
* `ReadsWithin`: a computation reads only the first bytes of the message, and its value is as it
  should be; there is a rule for each operation.
* `Inspect.flowExtract`: `flow_extract` again, with its reads. `readsWithin_flowExtract`: it reads
  only the packet, and its value is that of `packetFlow`.
-/

namespace OfAgent

open Monitored

/-- What stops the secure channel while it looks at a message. -/
inductive InspectFault
  /-- A null pointer is followed. -/
  | nullPointer
  /-- `ofpbuf_at_assert`: `offset + size <= b->size`. -/
  | atAssert
  /-- A loop does not end. -/
  | endless
  deriving DecidableEq, Repr

/-- The functions of the secure channel that look at messages. -/
abbrev InspectM : Type → Type := Monitored Access InspectFault PUnit

/-- The computation reads only the first `size` bytes of a message, and its value satisfies `P`. It
may stop. -/
def ReadsWithin {α : Type} (size : ℕ) (x : InspectM α) (P : α → Prop) : Prop :=
  Meets x ⟨Access.Within size, fun _ => True⟩ (fun a _ => P a) ⟨⟩

namespace Inspect

variable (m : Memory)

/-! ### Operations -/

/-- The byte at an offset of a message. -/
def read8 (off : ℕ) : InspectM Byte := do
  observe (.read off 1)
  pure (m off)

/-- The 16-bit number at an offset of a message. -/
def read16 (off : ℕ) : InspectM (BitVec 16) := do
  observe (.read off 2)
  pure (m.get16 off)

/-- The 32-bit number at an offset of a message. -/
def read32 (off : ℕ) : InspectM (BitVec 32) := do
  observe (.read off 4)
  pure (m.get32 off)

/-- The Ethernet address at an offset of a message. -/
def read48 (off : ℕ) : InspectM (BitVec 48) := do
  observe (.read off 6)
  pure (m.get48 off)

/-- The bytes from an offset of a message on. -/
def readBytes (off n : ℕ) : InspectM (List Byte) := do
  observe (.read off n)
  pure (m.slice off n)

/-- A comparison with bytes that ends at the first one that differs. -/
def eqBytes (off : ℕ) : List Byte → InspectM Bool
  | [] => pure true
  | c :: cs => do
      let b ← read8 m off
      if b = c then eqBytes (off + 1) cs else pure false

/-- The length in the header, less the size of a structure. -/
def lengthWithout (size : ℕ) : InspectM ℕ := do
  let length ← read16 m 2
  observe (.length (length.toNat - size))
  pure (length.toNat - size)

/-! ### `flow_extract` -/

/-- `pull_ip`. -/
def pullIp (b : Cursor) : InspectM (Option Cursor) :=
  if ipHeaderLen ≤ b.left then do
    let ipIhlVer ← read8 m b.pos
    let ipLen := ipIhl ipIhlVer * 4
    pure (if ipHeaderLen ≤ ipLen then b.tryPull ipLen else none)
  else pure none

/-- `pull_tcp`. -/
def pullTcp (b : Cursor) : InspectM (Option Cursor) :=
  if tcpHeaderLen ≤ b.left then do
    let tcpCtl ← read16 m (b.pos + 12)
    let tcpLen := tcpOffset tcpCtl * 4
    pure (if tcpHeaderLen ≤ tcpLen then b.tryPull tcpLen else none)
  else pure none

/-- The type in an 802.2 frame behind its Ethernet header, and what is left of it. -/
def extractLlc (b : Cursor) : InspectM (BitVec 16 × Cursor) :=
  let other : InspectM (BitVec 16 × Cursor) :=
    pure (ofpDlTypeNotEthType, b.pull llcHeaderLen)
  if b.has llcHeaderLen 5 then do
    if ← eqBytes m b.pos [0xaa, 0xaa, 3] then do
      let snapOrg ← readBytes m (b.pos + 3) 3
      if snapOrg = [0, 0, 0] then do
        let snapType ← read16 m (b.pos + 6)
        pure (snapType, b.pull llcSnapHeaderLen)
      else other
    else other
  else other

/-- The Ethernet type of the frame behind its Ethernet header, which starts at `eth`, and what is
left of it. -/
def extractFrame (eth : ℕ) (b : Cursor) : InspectM (Option (BitVec 16 × Cursor)) := do
  let ethType ← read16 m (eth + 12)
  if ofpDlTypeEth2Cutoff ≤ ethType then pure (some (ethType, b))
  else if b.has 0 llcHeaderLen then do
    let frame ← extractLlc m b
    pure (some frame)
  else pure none

/-- The VLAN tag of a frame. -/
def extractVlan (flow : Flow) (b : Cursor) : InspectM (Flow × Cursor) :=
  if flow.dlType = ethTypeVlan then
    match pullVlan b with
    | some b' => do
        let dlType ← read16 m (b.pos + 2)
        let tci ← read16 m b.pos
        pure ({ flow with dlType, dlVlan := vlanVid tci, dlVlanPcp := vlanPcp tci }, b')
    | none => pure (flow, b)
  else pure (flow, b)

/-- The ports of a transport header. -/
def extractPorts (flow : Flow) (b l7 : Cursor) : InspectM (Flow × Option Cursor) := do
  let tpSrc ← read16 m b.pos
  let tpDst ← read16 m (b.pos + 2)
  pure ({ flow with tpSrc, tpDst }, some l7)

/-- The transport header of an IP packet that is not a fragment, and what follows it. -/
def extractTransport (flow : Flow) (b : Cursor) : InspectM (Flow × Option Cursor) :=
  if flow.nwProto = ipTypeTcp then do
    match ← pullTcp m b with
    | some l7 => extractPorts m flow b l7
    | none => pure ({ flow with nwProto := 0 }, none)
  else if flow.nwProto = ipTypeUdp then
    match pullUdp b with
    | some l7 => extractPorts m flow b l7
    | none => pure ({ flow with nwProto := 0 }, none)
  else if flow.nwProto = ipTypeIcmp then
    match pullIcmp b with
    | some l7 => do
        let icmpType ← read8 m b.pos
        let icmpCode ← read8 m (b.pos + 1)
        pure ({ flow with tpSrc := icmpType.setWidth 16, tpDst := icmpCode.setWidth 16 }, some l7)
    | none => pure ({ flow with nwProto := 0 }, none)
  else pure (flow, none)

/-- The IP header of a frame, which has been pulled, and the transport header behind it. -/
def extractIp (flow : Flow) (b l4 : Cursor) : InspectM NetworkLayers := do
  let ipTos ← read8 m (b.pos + 1)
  let nwProto ← read8 m (b.pos + 9)
  let nwSrc ← read32 m (b.pos + 12)
  let nwDst ← read32 m (b.pos + 16)
  let flow := { flow with nwTos := ipTos &&& 0xfc, nwProto, nwSrc, nwDst }
  let ipFragOff ← read16 m (b.pos + 6)
  if ipFragOff &&& ipFragmentMask = 0 then do
    let (flow, l7) ← extractTransport m flow l4
    pure ⟨flow, some l4, l7, false⟩
  else pure ⟨flow, some l4, none, true⟩

/-- The ARP header of a frame, which has been pulled. -/
def extractArp (flow : Flow) (b : Cursor) : InspectM NetworkLayers := do
  let arPro ← read16 m (b.pos + 2)
  let flow ← if arPro = 0x0800 then do
      let arPln ← read8 m (b.pos + 5)
      if arPln = 4 then do
        let nwSrc ← read32 m (b.pos + 14)
        let nwDst ← read32 m (b.pos + 24)
        pure { flow with nwSrc, nwDst }
      else pure flow
    else pure flow
  let arOp ← read16 m (b.pos + 6)
  pure ⟨{ flow with nwProto := arOp.setWidth 8 }, none, none, false⟩

/-- The network header of a frame and what it carries. -/
def extractNetwork (flow : Flow) (b : Cursor) : InspectM NetworkLayers :=
  if flow.dlType = ethTypeIp then do
    match ← pullIp m b with
    | some l4 => extractIp m flow b l4
    | none => pure ⟨flow, none, none, false⟩
  else if flow.dlType = ethTypeArp then
    match pullArp b with
    | some _ => extractArp m flow b
    | none => pure ⟨flow, none, none, false⟩
  else pure ⟨flow, none, none, false⟩

/-- `flow_extract`: the flow of the packet. -/
def flowExtract (packet : Ofpbuf) (inPort : BitVec 16) : InspectM Flow :=
  let m := packet.mem
  let flow := Flow.unset inPort
  match pullEth ⟨packet.data, packet.size⟩ with
  | none => pure flow
  | some b => do
      match ← extractFrame m packet.data b with
      | none => pure flow
      | some (dlType, b) => do
          let (flow, b) ← extractVlan m { flow with dlType } b
          let dlSrc ← read48 m (packet.data + 6)
          let dlDst ← read48 m packet.data
          let net ← extractNetwork m { flow with dlSrc, dlDst } b
          pure net.flow

/-- The packet in an `OFPT_PACKET_IN`, of which a buffer is filled in by hand. -/
def packetInPayload (size : ℕ) : Ofpbuf where
  mem := m
  allocated := offsetofOfpPacketInData + size
  data := offsetofOfpPacketInData
  size := size
  l2 := none
  l3 := none
  l4 := none
  l7 := none

end Inspect

/-! ### Rules -/

section Rules

variable {α β : Type} {size off : ℕ} {m : Memory} {x : InspectM α} {f : α → InspectM β}
  {P Q : α → Prop} {R : β → Prop}

/-- A value alone. -/
@[simp]
theorem readsWithin_pure (a : α) : ReadsWithin size (pure a) P ↔ P a := by simp [ReadsWithin]

/-- A computation and what follows it. -/
@[simp]
theorem readsWithin_bind :
    ReadsWithin size (x >>= f) R ↔ ReadsWithin size x fun a => ReadsWithin size (f a) R := by
  simp [ReadsWithin]

/-- A stop. -/
@[simp]
theorem readsWithin_fail (e : InspectFault) : ReadsWithin size (fail e : InspectM α) P := by
  simp [ReadsWithin]

theorem readsWithin_ite {p : Prop} [Decidable p] {y : InspectM α} :
    ReadsWithin size (if p then x else y) P ↔
      (p → ReadsWithin size x P) ∧ (¬ p → ReadsWithin size y P) := meets_ite

theorem ReadsWithin.mono (h : ReadsWithin size x P) (hP : ∀ a, P a → Q a) : ReadsWithin size x Q :=
  Meets.mono h fun a _ => hP a

/-- A computation with a known value, and what follows it. -/
theorem ReadsWithin.bind_eq {a : α} (h : ReadsWithin size x (· = a))
    (hf : ReadsWithin size (f a) R) : ReadsWithin size (x >>= f) R := by
  rw [readsWithin_bind]
  refine h.mono fun b hb => ?_
  rw [hb]
  exact hf

namespace Inspect

variable {P : Byte → Prop}

/-- One byte. -/
@[simp]
theorem readsWithin_read8 : ReadsWithin size (read8 m off) P ↔ off + 1 ≤ size ∧ P (m off) := by
  simp [ReadsWithin, read8, Access.Within]

/-- A 16-bit number. -/
@[simp]
theorem readsWithin_read16 {P : BitVec 16 → Prop} :
    ReadsWithin size (read16 m off) P ↔ off + 2 ≤ size ∧ P (m.get16 off) := by
  simp [ReadsWithin, read16, Access.Within]

/-- A 32-bit number. -/
@[simp]
theorem readsWithin_read32 {P : BitVec 32 → Prop} :
    ReadsWithin size (read32 m off) P ↔ off + 4 ≤ size ∧ P (m.get32 off) := by
  simp [ReadsWithin, read32, Access.Within]

/-- An Ethernet address. -/
@[simp]
theorem readsWithin_read48 {P : BitVec 48 → Prop} :
    ReadsWithin size (read48 m off) P ↔ off + 6 ≤ size ∧ P (m.get48 off) := by
  simp [ReadsWithin, read48, Access.Within]

/-- Some bytes. -/
@[simp]
theorem readsWithin_readBytes {P : List Byte → Prop} (n : ℕ) :
    ReadsWithin size (readBytes m off n) P ↔ off + n ≤ size ∧ P (m.slice off n) := by
  simp [ReadsWithin, readBytes, Access.Within]

/-- The length in the header, which must be that of the structure at least. -/
@[simp]
theorem readsWithin_lengthWithout {P : ℕ → Prop} (n : ℕ) :
    ReadsWithin size (lengthWithout m n) P ↔
      4 ≤ size ∧ n ≤ (m.get16 2).toNat ∧ P ((m.get16 2).toNat - n) := by
  simp [ReadsWithin, lengthWithout, read16, Access.Within]

/-- A comparison reads no more than the bytes that it is with. -/
theorem readsWithin_eqBytes {bs : List Byte} (h : off + bs.length ≤ size) :
    ReadsWithin size (eqBytes m off bs) (· = decide (m.slice off bs.length = bs)) := by
  induction bs generalizing off with
  | nil => simp [eqBytes, Memory.slice]
  | cons c cs ih =>
    have hslice : m.slice off (cs.length + 1) = m off :: m.slice (off + 1) cs.length := by
      simp [Memory.slice, List.range_succ_eq_map, Function.comp_def, Nat.add_assoc, Nat.add_comm 1]
    rw [List.length_cons] at h
    simp only [eqBytes, readsWithin_bind, readsWithin_read8, readsWithin_ite, readsWithin_pure,
      List.length_cons, hslice, List.cons.injEq]
    refine ⟨by omega, fun hc => ?_, fun hc => by simp [hc]⟩
    refine (ih (by omega)).mono fun b hb => ?_
    simp [hb, hc]

end Inspect

end Rules

/-! ### The reads of `flow_extract` -/

namespace Cursor

/-- What is left of the packet ends before the message does. -/
def Inside (size : ℕ) (b : Cursor) : Prop := b.pos + b.left ≤ size

variable {size : ℕ} {b b' : Cursor}

theorem RestOf.inside (h : b'.RestOf b) (hb : b.Inside size) : b'.Inside size :=
  h.2.trans_le hb

end Cursor

namespace Inspect

variable {size : ℕ} {m : Memory} {b : Cursor} {flow : Flow}

/-- The length of an IP header is read only if the smallest header is there. -/
theorem readsWithin_pullIp (h : b.Inside size) :
    ReadsWithin size (pullIp m b) (· = OfAgent.pullIp m b) := by
  unfold Cursor.Inside at h
  unfold pullIp OfAgent.pullIp
  rw [readsWithin_ite]
  refine ⟨fun hmin => ?_, fun hmin => by simp [hmin]⟩
  have hlen : ipHeaderLen = 20 := rfl
  simp only [readsWithin_bind, readsWithin_read8, readsWithin_pure, if_pos hmin, and_true]
  omega

/-- The same holds of a TCP header. -/
theorem readsWithin_pullTcp (h : b.Inside size) :
    ReadsWithin size (pullTcp m b) (· = OfAgent.pullTcp m b) := by
  unfold Cursor.Inside at h
  unfold pullTcp OfAgent.pullTcp
  rw [readsWithin_ite]
  refine ⟨fun hmin => ?_, fun hmin => by simp [hmin]⟩
  have hlen : tcpHeaderLen = 20 := rfl
  simp only [readsWithin_bind, readsWithin_read16, readsWithin_pure, if_pos hmin, and_true]
  omega

/-- The comparisons with the header of an 802.2 frame, as a comparison of bytes. -/
theorem slice_three_eq_iff {off : ℕ} {x y z : Byte} :
    m.slice off 3 = [x, y, z] ↔ m off = x ∧ m (off + 1) = y ∧ m (off + 2) = z := by
  simp [Memory.slice, List.range_succ]

/-- The type in an 802.2 frame. -/
theorem readsWithin_extractLlc (h : b.Inside size) :
    ReadsWithin size (extractLlc m b) (· =
      if b.has llcHeaderLen 5 && m b.pos == 0xaa && m (b.pos + 1) == 0xaa && m (b.pos + 2) == 3
          && m.slice (b.pos + 3) 3 == [0, 0, 0] then
        (m.get16 (b.pos + 6), b.pull llcSnapHeaderLen)
      else (ofpDlTypeNotEthType, b.pull llcHeaderLen)) := by
  unfold Cursor.Inside at h
  unfold extractLlc
  simp only [readsWithin_ite, readsWithin_pure]
  refine ⟨fun hsnap => ?_, fun hsnap => by simp [hsnap]⟩
  -- the SNAP header is read only when it is there
  have hleft : 8 ≤ b.left := of_decide_eq_true hsnap
  have hbytes : b.pos + [(0xaa : Byte), 0xaa, 3].length ≤ size := by
    change b.pos + 3 ≤ size
    omega
  rw [readsWithin_bind]
  refine (readsWithin_eqBytes hbytes).mono fun same hsame => ?_
  replace hsame : same = true ↔ m b.pos = 0xaa ∧ m (b.pos + 1) = 0xaa ∧ m (b.pos + 2) = 3 := by
    rw [hsame, decide_eq_true_eq]
    exact slice_three_eq_iff
  simp only [readsWithin_ite, readsWithin_bind, readsWithin_readBytes, readsWithin_read16,
    readsWithin_pure, hsame]
  refine ⟨fun heq => ⟨by omega, fun horg => ⟨by omega, ?_⟩, fun horg => ?_⟩, fun hne => ?_⟩
  · rw [if_pos]
    simp only [Bool.and_eq_true, beq_iff_eq]
    exact ⟨⟨⟨⟨hsnap, heq.1⟩, heq.2.1⟩, heq.2.2⟩, horg⟩
  · rw [if_neg]
    simp only [Bool.and_eq_true, beq_iff_eq]
    exact fun hall => horg hall.2
  · rw [if_neg]
    simp only [Bool.and_eq_true, beq_iff_eq]
    rintro ⟨⟨⟨⟨-, hdsap⟩, hssap⟩, hcntl⟩, -⟩
    exact hne ⟨hdsap, hssap, hcntl⟩

/-- The type and the rest of a frame, of which the Ethernet header has been pulled. -/
theorem readsWithin_extractFrame {eth : ℕ} (heth : eth + 14 ≤ size) (h : b.Inside size) :
    ReadsWithin size (extractFrame m eth b) (· = OfAgent.extractFrame m eth b) := by
  unfold extractFrame OfAgent.extractFrame
  simp only [readsWithin_bind, readsWithin_read16, readsWithin_ite, readsWithin_pure]
  refine ⟨by omega, fun hge => by simp [hge],
    fun hlt => ⟨fun hllc => ?_, fun hllc => by simp [hlt, hllc]⟩⟩
  rw [if_neg hlt, if_pos hllc]
  refine (readsWithin_extractLlc h).mono fun frame hframe => ?_
  rw [hframe]
  split <;> rfl

/-- The tag of a frame. -/
theorem readsWithin_extractVlan (h : b.Inside size) :
    ReadsWithin size (extractVlan m flow b) (· = OfAgent.extractVlan m flow b) := by
  unfold extractVlan OfAgent.extractVlan
  by_cases hvlan : flow.dlType = ethTypeVlan
  · rw [if_pos hvlan, if_pos (beq_iff_eq.2 hvlan)]
    cases hpull : pullVlan b with
    | none => simp
    | some b' =>
      have hleft := (Cursor.restOf_of_tryPull hpull).1
      have hlen : vlanHeaderLen = 4 := rfl
      unfold Cursor.Inside at h
      simp only [readsWithin_bind, readsWithin_read16, readsWithin_pure, and_true]
      omega
  · rw [if_neg hvlan, if_neg (by simpa using hvlan)]
    simp

/-- The ports of a transport header that is there. -/
theorem readsWithin_extractPorts (h : b.Inside size) (hleft : 4 ≤ b.left) (l7 : Cursor) :
    ReadsWithin size (extractPorts m flow b l7)
      (· = ({ flow with tpSrc := m.get16 b.pos, tpDst := m.get16 (b.pos + 2) }, some l7)) := by
  unfold Cursor.Inside at h
  simp only [extractPorts, readsWithin_bind, readsWithin_read16, readsWithin_pure, and_true]
  omega

/-- The transport header of a packet. -/
theorem readsWithin_extractTransport (h : b.Inside size) :
    ReadsWithin size (extractTransport m flow b) (· = OfAgent.extractTransport m flow b) := by
  unfold extractTransport OfAgent.extractTransport
  simp only [readsWithin_ite, readsWithin_pure, beq_iff_eq]
  refine ⟨fun htcp => ?_, fun htcp => ⟨fun hudp => ?_, fun hudp =>
    ⟨fun hicmp => ?_, fun hicmp => ?_⟩⟩⟩
  · rw [if_pos htcp]
    refine (readsWithin_pullTcp h).bind_eq ?_
    cases hpull : OfAgent.pullTcp m b with
    | none => simp
    | some l7 =>
      -- the ports are in the header, which is there
      have hleft : 20 ≤ b.left := (Cursor.restOf_of_pullTcp hpull).1
      exact readsWithin_extractPorts h (by omega) l7
  · rw [if_neg htcp, if_pos hudp]
    cases hpull : pullUdp b with
    | none => simp
    | some l7 =>
      have hleft : 8 ≤ b.left := (Cursor.restOf_of_tryPull hpull).1
      exact readsWithin_extractPorts h (by omega) l7
  · rw [if_neg htcp, if_neg hudp, if_pos hicmp]
    cases hpull : pullIcmp b with
    | none => simp
    | some l7 =>
      have hleft : 4 ≤ b.left := (Cursor.restOf_of_tryPull hpull).1
      unfold Cursor.Inside at h
      simp only [readsWithin_bind, readsWithin_read8, readsWithin_pure, and_true]
      omega
  · simp only [if_neg htcp, if_neg hudp, if_neg hicmp]

/-- The IP header of a packet. -/
theorem readsWithin_extractIp {l4 : Cursor} (h : b.Inside size)
    (hpull : OfAgent.pullIp m b = some l4) (hip : flow.dlType = ethTypeIp) :
    ReadsWithin size (extractIp m flow b l4) (· = OfAgent.extractNetwork m flow b) := by
  obtain ⟨hleft, hrest⟩ := Cursor.restOf_of_pullIp hpull
  have hl4 := hrest.inside h
  have hlen : ipHeaderLen = 20 := rfl
  unfold Cursor.Inside at h
  unfold extractIp OfAgent.extractNetwork
  rw [if_pos (beq_iff_eq.2 hip), hpull]
  simp only [readsWithin_bind, readsWithin_read8, readsWithin_read32, readsWithin_read16,
    readsWithin_ite, readsWithin_pure, beq_iff_eq]
  refine ⟨by omega, by omega, by omega, by omega, by omega, fun hfrag => ?_, fun hfrag => ?_⟩
  · refine (readsWithin_extractTransport hl4).mono fun r hr => ?_
    rw [if_pos hfrag, hr]
  · rw [if_neg hfrag]

/-- The ARP header of a packet. -/
theorem readsWithin_extractArp (h : b.Inside size) (hleft : arpEthHeaderLen ≤ b.left) :
    ReadsWithin size (extractArp m flow b) (· =
      let flow := if m.get16 (b.pos + 2) == 0x0800 && m (b.pos + 5) == 4 then
        { flow with nwSrc := m.get32 (b.pos + 14), nwDst := m.get32 (b.pos + 24) } else flow
      ⟨{ flow with nwProto := (m.get16 (b.pos + 6)).setWidth 8 }, none, none, false⟩) := by
  have hlen : arpEthHeaderLen = 28 := rfl
  unfold Cursor.Inside at h
  simp only [extractArp, readsWithin_bind, readsWithin_read16, readsWithin_read8,
    readsWithin_read32, readsWithin_ite, readsWithin_pure]
  refine ⟨by omega, fun hpro => ⟨by omega, fun hpln => ?_, fun hpln => ?_⟩, fun hpro => ?_⟩
  · have hcond : (m.get16 (b.pos + 2) == 0x0800 && m (b.pos + 5) == 4) = true := by
      rw [Bool.and_eq_true, beq_iff_eq, beq_iff_eq]
      exact ⟨hpro, hpln⟩
    refine ⟨by omega, by omega, by omega, ?_⟩
    simp only [if_pos hcond]
  · have hcond : ¬ (m.get16 (b.pos + 2) == 0x0800 && m (b.pos + 5) == 4) = true := by
      rw [Bool.and_eq_true, beq_iff_eq, beq_iff_eq]
      exact fun heq => hpln heq.2
    refine ⟨by omega, ?_⟩
    simp only [if_neg hcond]
  · have hcond : ¬ (m.get16 (b.pos + 2) == 0x0800 && m (b.pos + 5) == 4) = true := by
      rw [Bool.and_eq_true, beq_iff_eq, beq_iff_eq]
      exact fun heq => hpro heq.1
    refine ⟨by omega, ?_⟩
    simp only [if_neg hcond]

/-- The network header of a packet. -/
theorem readsWithin_extractNetwork (h : b.Inside size) :
    ReadsWithin size (extractNetwork m flow b) (· = OfAgent.extractNetwork m flow b) := by
  unfold extractNetwork
  rw [readsWithin_ite]
  refine ⟨fun hip => ?_, fun hip => ?_⟩
  · refine (readsWithin_pullIp h).bind_eq ?_
    cases hpull : OfAgent.pullIp m b with
    | none =>
      rw [readsWithin_pure, OfAgent.extractNetwork, if_pos (beq_iff_eq.2 hip), hpull]
    | some l4 => exact readsWithin_extractIp h hpull hip
  · have hip' : ¬ (flow.dlType == ethTypeIp) = true := fun heq => hip (beq_iff_eq.1 heq)
    rw [readsWithin_ite]
    refine ⟨fun harp => ?_, fun harp => ?_⟩
    · cases hpull : pullArp b with
      | none =>
        rw [readsWithin_pure, OfAgent.extractNetwork, if_neg hip', if_pos (beq_iff_eq.2 harp),
          hpull]
      | some b' =>
        have hleft := (Cursor.restOf_of_tryPull hpull).1
        refine (readsWithin_extractArp h hleft).mono fun net hnet => ?_
        rw [hnet, OfAgent.extractNetwork, if_neg hip', if_pos (beq_iff_eq.2 harp), hpull]
    · have harp' : ¬ (flow.dlType == ethTypeArp) = true := fun heq => harp (beq_iff_eq.1 heq)
      rw [readsWithin_pure, OfAgent.extractNetwork, if_neg hip', if_neg harp']

/-- `flow_extract` reads only the packet, and its value is the flow of the packet. -/
theorem readsWithin_flowExtract {packet : Ofpbuf} (h : packet.data + packet.size ≤ size)
    (inPort : BitVec 16) :
    ReadsWithin size (flowExtract packet inPort) (· = packetFlow packet inPort) := by
  unfold flowExtract packetFlow OfAgent.flowExtract
  simp only
  have hpacket : Cursor.Inside size ⟨packet.data, packet.size⟩ := h
  cases heth : pullEth ⟨packet.data, packet.size⟩ with
  | none => simp
  | some b =>
    obtain ⟨hleft, hrest⟩ := Cursor.restOf_of_tryPull heth
    have hb := hrest.inside hpacket
    change 14 ≤ packet.size at hleft
    refine (readsWithin_extractFrame (by omega) hb).bind_eq ?_
    cases hframe : OfAgent.extractFrame packet.mem packet.data b with
    | none => simp only [readsWithin_pure, hframe]
    | some frame =>
      obtain ⟨dlType, b'⟩ := frame
      have hb' := (Cursor.restOf_of_extractFrame hframe).inside hb
      refine (readsWithin_extractVlan hb').bind_eq ?_
      have hb'' :=
        (Cursor.restOf_extractVlan packet.mem { Flow.unset inPort with dlType } b').inside hb'
      simp only [readsWithin_bind, readsWithin_read48, readsWithin_pure]
      refine ⟨by omega, by omega, ?_⟩
      refine (readsWithin_extractNetwork hb'').mono fun net hnet => ?_
      simp only [hframe, hnet]

/-- The packet in a message ends with it. -/
theorem packetInPayload_end_le (h : offsetofOfpPacketInData ≤ size) :
    (packetInPayload m (size - offsetofOfpPacketInData)).data +
      (packetInPayload m (size - offsetofOfpPacketInData)).size ≤ size := by
  change offsetofOfpPacketInData + (size - offsetofOfpPacketInData) ≤ size
  omega

end Inspect

end OfAgent
