import OfAgent.Packet.Composed
import OfAgent.Secchan.Reading

/-!
# Parsing packets

`flow_extract` on composed packets, and on bytes that nobody has composed.

* `HeadersInside`: headers are inside a packet. `headersInside_flowExtract`: the ones that are found
  are.
* `ReadsInside`: a computation reads only between two positions, and does not stop.
  `readsInside_flowExtract`: `flow_extract` reads only the packet.
* `flowExtract_spec`: both, and the fields of composed packets.
-/

namespace OfAgent

open Monitored

/-! ### Positions -/

/-- The headers that have been found behind the Ethernet header are inside a packet. -/
structure HeadersInside (packet p : Ofpbuf) : Prop where
  /-- The network header. -/
  l3 : ∀ pos, p.l3 = some pos → packet.data ≤ pos ∧ pos ≤ packet.data + packet.size
  /-- The transport header. -/
  l4 : ∀ pos, p.l4 = some pos → packet.data ≤ pos ∧ pos ≤ packet.data + packet.size
  /-- The application data. -/
  l7 : ∀ pos, p.l7 = some pos → packet.data ≤ pos ∧ pos ≤ packet.data + packet.size

/-- The headers that `flow_extract` finds are inside the packet, whatever it is. -/
theorem headersInside_flowExtract (packet : Ofpbuf) (inPort : BitVec 16) :
    HeadersInside packet (flowExtract packet inPort).2.2 := by
  have hnone : ∀ pos, (none : Option ℕ) = some pos →
      packet.data ≤ pos ∧ pos ≤ packet.data + packet.size := by
    intro pos h
    cases h
  have hrest : ∀ b : Cursor, b.RestOf ⟨packet.data, packet.size⟩ →
      packet.data ≤ b.pos ∧ b.pos ≤ packet.data + packet.size := by
    rintro b ⟨hpos, hend⟩
    exact ⟨hpos, hend ▸ Nat.le_add_right _ _⟩
  obtain h | ⟨b0, dlType, b1, flow, b2, heth, hframe, hvlan, h⟩ := flowExtract_cases packet inPort
  · rw [h]
    exact ⟨hnone, hnone, hnone⟩
  · have hb1 := (Cursor.restOf_of_extractFrame hframe).trans (Cursor.restOf_of_tryPull heth).2
    have hb2 := Cursor.restOf_extractVlan packet.mem { Flow.unset inPort with dlType } b1
    rw [hvlan] at hb2
    have hb2 := hb2.trans hb1
    obtain ⟨hl4, hl7⟩ := Cursor.restOf_extractNetwork packet.mem { flow with
      dlSrc := packet.mem.get48 (packet.data + 6), dlDst := packet.mem.get48 packet.data } b2
    rw [h]
    refine ⟨fun pos h => ?_, fun pos h => ?_, fun pos h => ?_⟩
    · exact Option.some.inj h ▸ hrest _ hb2
    · obtain ⟨l4, heq, rfl⟩ := Option.map_eq_some_iff.1 h
      exact hrest _ ((hl4 l4 heq).trans hb2)
    · obtain ⟨l7, heq, rfl⟩ := Option.map_eq_some_iff.1 h
      exact hrest _ ((hl7 l7 heq).trans hb2)

/-! ### Reads -/

/-- The bytes are behind a position. -/
def Access.From (lo : ℕ) : Access → Prop
  | read off _ => lo ≤ off
  | length _ => True

/-- The computation reads nothing in front of a position, and does not stop. Its value satisfies
`P`. -/
def ReadsFrom {α : Type} (lo : ℕ) (x : InspectM α) (P : α → Prop) : Prop :=
  Meets x ⟨Access.From lo, fun _ => False⟩ (fun a _ => P a) ⟨⟩

/-- The computation reads only between two positions, and does not stop. Its value satisfies `P`. -/
def ReadsInside {α : Type} (lo hi : ℕ) (x : InspectM α) (P : α → Prop) : Prop :=
  Meets x ⟨fun o => o.From lo ∧ o.Within hi, fun _ => False⟩ (fun a _ => P a) ⟨⟩

section Rules

variable {α β : Type} {lo hi off : ℕ} {m : Memory} {x : InspectM α} {f : α → InspectM β}
  {P Q : α → Prop} {R : β → Prop}

/-- A value alone. -/
@[simp]
theorem readsFrom_pure (a : α) : ReadsFrom lo (pure a) P ↔ P a := by simp [ReadsFrom]

/-- A computation and what follows it. -/
@[simp]
theorem readsFrom_bind :
    ReadsFrom lo (x >>= f) R ↔ ReadsFrom lo x fun a => ReadsFrom lo (f a) R := by
  simp [ReadsFrom]

theorem readsFrom_ite {p : Prop} [Decidable p] {y : InspectM α} :
    ReadsFrom lo (if p then x else y) P ↔
      (p → ReadsFrom lo x P) ∧ (¬ p → ReadsFrom lo y P) := meets_ite

/-- What is known of the value, with the reads on either side. -/
theorem ReadsFrom.inside (h : ReadsFrom lo x Q) (hw : ReadsWithin hi x P) :
    ReadsInside lo hi x P := by
  refine ⟨fun o ho => ⟨h.1 o ho, hw.1 o ho⟩, ?_⟩
  have hfrom := h.2
  have hwithin := hw.2
  rcases hx : (x ⟨⟩).2 with e | ⟨a, s⟩
  · rw [hx] at hfrom
    exact hfrom
  · rw [hx] at hwithin
    exact hwithin

theorem ReadsFrom.of_within (h : ReadsFrom lo x Q) (hw : ReadsWithin hi x P) :
    ReadsFrom lo x P :=
  ⟨h.1, (h.inside hw).2⟩

theorem ReadsFrom.mono (h : ReadsFrom lo x P) (hP : ∀ a, P a → Q a) : ReadsFrom lo x Q :=
  Meets.mono h fun a _ => hP a

namespace Inspect

/-- One byte. -/
@[simp]
theorem readsFrom_read8 {P : Byte → Prop} :
    ReadsFrom lo (read8 m off) P ↔ lo ≤ off ∧ P (m off) := by
  simp [ReadsFrom, read8, Access.From]

/-- A 16-bit number. -/
@[simp]
theorem readsFrom_read16 {P : BitVec 16 → Prop} :
    ReadsFrom lo (read16 m off) P ↔ lo ≤ off ∧ P (m.get16 off) := by
  simp [ReadsFrom, read16, Access.From]

/-- A 32-bit number. -/
@[simp]
theorem readsFrom_read32 {P : BitVec 32 → Prop} :
    ReadsFrom lo (read32 m off) P ↔ lo ≤ off ∧ P (m.get32 off) := by
  simp [ReadsFrom, read32, Access.From]

/-- An Ethernet address. -/
@[simp]
theorem readsFrom_read48 {P : BitVec 48 → Prop} :
    ReadsFrom lo (read48 m off) P ↔ lo ≤ off ∧ P (m.get48 off) := by
  simp [ReadsFrom, read48, Access.From]

/-- Some bytes. -/
@[simp]
theorem readsFrom_readBytes {P : List Byte → Prop} (n : ℕ) :
    ReadsFrom lo (readBytes m off n) P ↔ lo ≤ off ∧ P (m.slice off n) := by
  simp [ReadsFrom, readBytes, Access.From]

theorem readsFrom_eqBytes {bs : List Byte} (h : lo ≤ off) :
    ReadsFrom lo (eqBytes m off bs) fun _ => True := by
  induction bs generalizing off with
  | nil => exact (readsFrom_pure _).2 trivial
  | cons c cs ih =>
    rw [eqBytes, readsFrom_bind, readsFrom_read8, readsFrom_ite]
    exact ⟨h, fun _ => ih (by omega), fun _ => (readsFrom_pure _).2 trivial⟩

end Inspect

end Rules

namespace Inspect

variable {lo : ℕ} {m : Memory} {b : Cursor} {flow : Flow}

theorem readsFrom_pullIp (h : lo ≤ b.pos) :
    ReadsFrom lo (pullIp m b) (· = OfAgent.pullIp m b) := by
  refine ReadsFrom.of_within (Q := fun _ => True) ?_ (readsWithin_pullIp (le_refl (b.pos + b.left)))
  unfold pullIp
  simp only [readsFrom_ite, readsFrom_bind, readsFrom_read8, readsFrom_pure]
  exact ⟨fun _ => ⟨h, trivial⟩, fun _ => trivial⟩

theorem readsFrom_pullTcp (h : lo ≤ b.pos) :
    ReadsFrom lo (pullTcp m b) (· = OfAgent.pullTcp m b) := by
  refine ReadsFrom.of_within (Q := fun _ => True) ?_
    (readsWithin_pullTcp (le_refl (b.pos + b.left)))
  unfold pullTcp
  simp only [readsFrom_ite, readsFrom_bind, readsFrom_read16, readsFrom_pure]
  exact ⟨fun _ => ⟨by omega, trivial⟩, fun _ => trivial⟩

/-- The reads of a frame behind its Ethernet header. -/
theorem readsFrom_extractFrame {eth : ℕ} (heth : lo ≤ eth) (h : lo ≤ b.pos) :
    ReadsFrom lo (extractFrame m eth b) fun _ => True := by
  unfold extractFrame extractLlc
  simp only [readsFrom_ite, readsFrom_bind, readsFrom_read16, readsFrom_readBytes, readsFrom_pure]
  refine ⟨by omega, fun _ => trivial, fun _ => ⟨fun _ => ⟨fun _ => ?_, fun _ => trivial⟩,
    fun _ => trivial⟩⟩
  refine (readsFrom_eqBytes h).mono fun snap _ => ?_
  exact ⟨fun _ => ⟨by omega, fun _ => ⟨by omega, trivial⟩, fun _ => trivial⟩, fun _ => trivial⟩

/-- The reads of a tag. -/
theorem readsFrom_extractVlan (h : lo ≤ b.pos) :
    ReadsFrom lo (extractVlan m flow b) fun _ => True := by
  unfold extractVlan
  rw [readsFrom_ite]
  refine ⟨fun _ => ?_, fun _ => (readsFrom_pure _).2 trivial⟩
  split
  · simp only [readsFrom_bind, readsFrom_read16, readsFrom_pure]
    exact ⟨by omega, h, trivial⟩
  · exact (readsFrom_pure _).2 trivial

theorem readsFrom_extractPorts (h : lo ≤ b.pos) (l7 : Cursor) :
    ReadsFrom lo (extractPorts m flow b l7) fun _ => True := by
  simp only [extractPorts, readsFrom_bind, readsFrom_read16, readsFrom_pure]
  exact ⟨h, by omega, trivial⟩

/-- The reads of a transport header. -/
theorem readsFrom_extractTransport (h : lo ≤ b.pos) :
    ReadsFrom lo (extractTransport m flow b) fun _ => True := by
  unfold extractTransport
  simp only [readsFrom_ite, readsFrom_bind, readsFrom_pure]
  refine ⟨fun _ => (readsFrom_pullTcp h).mono fun l7 _ => ?_, fun _ => ⟨fun _ => ?_,
    fun _ => ⟨fun _ => ?_, fun _ => trivial⟩⟩⟩
  · split
    · exact readsFrom_extractPorts h _
    · exact (readsFrom_pure _).2 trivial
  · split
    · exact readsFrom_extractPorts h _
    · exact (readsFrom_pure _).2 trivial
  · split
    · simp only [readsFrom_bind, readsFrom_read8, readsFrom_pure]
      exact ⟨h, by omega, trivial⟩
    · exact (readsFrom_pure _).2 trivial

/-- The reads of an IP header and of what is behind it. -/
theorem readsFrom_extractIp {l4 : Cursor} (h : lo ≤ b.pos) (hl4 : lo ≤ l4.pos) :
    ReadsFrom lo (extractIp m flow b l4) fun _ => True := by
  simp only [extractIp, readsFrom_ite, readsFrom_bind, readsFrom_read8, readsFrom_read16,
    readsFrom_read32, readsFrom_pure]
  refine ⟨by omega, by omega, by omega, by omega, by omega, fun _ => ?_, fun _ => trivial⟩
  exact (readsFrom_extractTransport hl4).mono fun _ _ => trivial

theorem readsFrom_extractArp (h : lo ≤ b.pos) :
    ReadsFrom lo (extractArp m flow b) fun _ => True := by
  simp only [extractArp, readsFrom_ite, readsFrom_bind, readsFrom_read8, readsFrom_read16,
    readsFrom_read32, readsFrom_pure]
  refine ⟨by omega, fun _ => ⟨by omega, fun _ => ⟨by omega, by omega, by omega, trivial⟩,
    fun _ => ⟨by omega, trivial⟩⟩, fun _ => ⟨by omega, trivial⟩⟩

/-- The reads of a network header and of what is behind it. -/
theorem readsFrom_extractNetwork (h : lo ≤ b.pos) :
    ReadsFrom lo (extractNetwork m flow b) fun _ => True := by
  unfold extractNetwork
  simp only [readsFrom_ite, readsFrom_bind]
  refine ⟨fun _ => (readsFrom_pullIp h).mono fun l4 hpull => ?_, fun _ => ⟨fun _ => ?_,
    fun _ => (readsFrom_pure _).2 trivial⟩⟩
  · cases l4 with
    | none => exact (readsFrom_pure _).2 trivial
    | some l4 => exact readsFrom_extractIp h (h.trans (Cursor.restOf_of_pullIp hpull.symm).2.1)
  · split
    · exact readsFrom_extractArp h
    · exact (readsFrom_pure _).2 trivial

/-- `flow_extract` reads only the packet, and its value is the flow of the packet. -/
theorem readsInside_flowExtract (packet : Ofpbuf) (inPort : BitVec 16) :
    ReadsInside packet.data (packet.data + packet.size) (flowExtract packet inPort)
      (· = packetFlow packet inPort) := by
  refine ReadsFrom.inside (Q := fun _ => True) ?_ (readsWithin_flowExtract (le_refl _) inPort)
  unfold flowExtract
  cases heth : pullEth ⟨packet.data, packet.size⟩ with
  | none => exact (readsFrom_pure _).2 trivial
  | some b0 =>
    obtain ⟨hleft, hb0⟩ := Cursor.restOf_of_tryPull heth
    have hinside : b0.Inside (packet.data + packet.size) := hb0.2.le
    change 14 ≤ packet.size at hleft
    have hlo : packet.data ≤ b0.pos := hb0.1
    simp only [readsFrom_bind]
    refine ((readsFrom_extractFrame (le_refl _) hlo).of_within
      (readsWithin_extractFrame (by omega) hinside)).mono fun frame hframe => ?_
    cases frame with
    | none => exact (readsFrom_pure _).2 trivial
    | some frame =>
      obtain ⟨dlType, b1⟩ := frame
      have hb1 := Cursor.restOf_of_extractFrame hframe.symm
      have hlo1 := hlo.trans hb1.1
      -- the reads behind the start of the packet; those in front of its end are known already
      have hvlan := @readsFrom_extractVlan packet.data packet.mem b1
        { Flow.unset inPort with dlType } hlo1
      have hwithin := @readsWithin_extractVlan (b1.pos + b1.left) packet.mem b1
        { Flow.unset inPort with dlType } (le_refl _)
      simp only [readsFrom_bind]
      refine (hvlan.of_within hwithin).mono fun vlan heq => ?_
      have hb2 := Cursor.restOf_extractVlan packet.mem { Flow.unset inPort with dlType } b1
      rw [← heq] at hb2
      simp only [readsFrom_read48, readsFrom_pure]
      refine ⟨by omega, le_refl _, ?_⟩
      exact (readsFrom_extractNetwork (hlo1.trans hb2.1)).mono fun _ _ => trivial

end Inspect

/-! ### `flow_extract` as a whole -/

/-- `flow_extract` finds exactly the fields that a packet has been composed of. Of any packet it
reads only the bytes that there are, and the headers that it finds are inside it. -/
theorem flowExtract_spec (packet : Ofpbuf) (inPort : BitVec 16) :
    (∀ f : ComposedFrame, packet.bytes = f.bytes → packetFlow packet inPort = f.flow inPort) ∧
      ReadsInside packet.data (packet.data + packet.size) (Inspect.flowExtract packet inPort)
        (· = packetFlow packet inPort) ∧
      HeadersInside packet (flowExtract packet inPort).2.2 :=
  ⟨fun _ h => packetFlow_composed h inPort, Inspect.readsInside_flowExtract packet inPort,
    headersInside_flowExtract packet inPort⟩

/-- The TCP header with an option that `flowgen.pl` composes. -/
def flowgenSegment : TcpSegment where
  tcpSrc := 6667
  tcpDst := 9998
  tcpSeq := 87123455
  tcpAck := 712378912
  offset := 6
  flags := 0x012
  tcpWinsz := 5823
  tcpCsum := 18923
  tcpUrg := 12893
  options := [2, 4, 0x07, 0xb7]
  data := [0x70, 0x61, 0x79, 0x6c, 0x6f, 0x61, 0x64]
  whole := rfl

/-- The IP packet with an option that carries it. -/
def flowgenPacket : IpPacket where
  ihl := 8
  dscp := 0
  ecn := 0
  ipTotLen := 63
  ipId := 65432
  ipFragOff := ⟨0, 0, 0, 0⟩
  ipTtl := 64
  ipCsum := 0
  ipSrc := 0x0a00020f
  ipDst := 0xc0a80114
  options := [130, 11, 0x6b, 0xc5, 0xab, 0xcd, 0x12, 0x34, 1, 2, 3, 0]
  payload := .tcp flowgenSegment
  whole := rfl
  known := trivial

/-- It is carried by an 802.2 frame with a SNAP header and a tag. -/
def flowgenFrame : ComposedFrame := .typed
  { ethDst := 0x001a9240ac05, ethSrc := 0x0002e30f80a4, framing := .snap 89
    tag := some ⟨0, 0, 0x123⟩, payload := .ip flowgenPacket, padding := []
    marked := by decide
    untagged := fun h => by cases h }

/-- The fields of the packet. -/
theorem packetFlow_flowgenFrame :
    packetFlow (.cloneData flowgenFrame.bytes) 0 =
      { inPort := 0, dlSrc := 0x0002e30f80a4, dlDst := 0x001a9240ac05, dlVlan := 0x123
        dlVlanPcp := 0, dlType := 0x0800, nwTos := 0, nwProto := 6, nwSrc := 0x0a00020f
        nwDst := 0xc0a80114, tpSrc := 6667, tpDst := 9998 } :=
  ((flowExtract_spec (.cloneData flowgenFrame.bytes) 0).1 flowgenFrame
    (Memory.slice_ofBytes _)).trans (by decide)

end OfAgent
