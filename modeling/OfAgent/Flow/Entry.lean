import OfAgent.Flow.Key
import OfAgent.Lib.Tlv

/-!
# Flow entries

`struct sw_flow` of `switch-flow.h` and the functions of `switch-flow.c` on it: the timeouts,
the counters, and the output port filter of deletions and statistics.
-/

namespace OfAgent

/-- `enum ofp_flow_removed_reason`. -/
inductive OfpFlowRemovedReason
  /-- Flow idle time exceeded `idle_timeout`. -/
  | idleTimeout
  /-- Time exceeded `hard_timeout`. -/
  | hardTimeout
  /-- Evicted by a DELETE flow mod. -/
  | delete
  deriving DecidableEq, Repr

/-- `struct sw_flow`. The times are in milliseconds. The list nodes are the positions of the
entry in the lists of its table. -/
structure SwFlow where
  /-- The key that packets are compared with. -/
  key : SwFlowKey
  /-- Opaque controller-issued identifier. -/
  cookie : BitVec 64
  /-- Only used on entries with wildcards. -/
  priority : BitVec 16
  /-- Idle time before discarding (seconds). -/
  idleTimeout : BitVec 16
  /-- Hard expiration time (seconds). -/
  hardTimeout : BitVec 16
  /-- Last used time. -/
  used : BitVec 64
  /-- When the flow was created. -/
  created : BitVec 64
  /-- Number of packets seen. -/
  packetCount : BitVec 64
  /-- Number of bytes seen. -/
  byteCount : BitVec 64
  /-- Send a flow removed to the controller. -/
  sendFlowRem : Bool
  /-- Emergency flow indicator. -/
  emergFlow : Bool
  /-- The bytes of `sf_acts`. -/
  actions : List Byte
  /-- The number that a linear table gives its entries. -/
  serial : ℕ
  deriving DecidableEq, Repr

namespace SwFlow

/-- `flow_replace_acts`. -/
def replaceActs (flow : SwFlow) (actions : List Byte) : SwFlow := { flow with actions }

/-- `flow_used`: `size` is the size of the packet. -/
def flowUsed (now : BitVec 64) (size : ℕ) (flow : SwFlow) : SwFlow :=
  { flow with
    used := now
    packetCount := flow.packetCount + 1
    byteCount := flow.byteCount + BitVec.ofNat 64 size }

/-- A timeout of `seconds` counted from `since` is over. -/
def timedOut (now since : BitVec 64) (seconds : BitVec 16) : Bool :=
  seconds != ofpFlowPermanent && since + seconds.setWidth 64 * 1000 < now

/-- `flow_timeout`: the reason for which the entry has timed out, if it has. -/
def flowTimeout (now : BitVec 64) (flow : SwFlow) : Option OfpFlowRemovedReason :=
  if timedOut now flow.used flow.idleTimeout then some .idleTimeout
  else if timedOut now flow.created flow.hardTimeout then some .hardTimeout
  else none

/-- `flow_has_out_port`: the entry contains an output action to `outPort`, or `outPort` is
`OFPP_NONE`. -/
def flowHasOutPort (flow : SwFlow) (outPort : BitVec 16) : Bool :=
  outPort == ofppNone ||
    (Tlv.items actionLen flow.actions.length 0 flow.actions).any fun i =>
      actionType i.2 == ofpatOutput && be16 i.2 4 == outPort

/-- The condition under which the `modify` functions of the tables change an entry. -/
def modifiedBy (key : SwFlowKey) (priority : BitVec 16) (strict : Bool) (flow : SwFlow) : Bool :=
  flowMatchesDesc flow.key key strict && (!strict || flow.priority == priority)

/-- The condition under which the `has_conflict` functions of the tables report an entry. -/
def conflictsWith (key : SwFlowKey) (priority : BitVec 16) (strict : Bool) (flow : SwFlow) :
    Bool :=
  flowMatches2desc flow.key key strict && flow.priority == priority

/-- `OFPP_NONE` passes every entry. -/
@[simp]
theorem flowHasOutPort_none (flow : SwFlow) : flow.flowHasOutPort ofppNone = true := by
  simp [flowHasOutPort]

/-- An entry with other actions keeps its key. -/
@[simp]
theorem replaceActs_key (flow : SwFlow) (actions : List Byte) :
    (flow.replaceActs actions).key = flow.key := rfl

/-- Counting a packet keeps the key. -/
@[simp]
theorem flowUsed_key (now : BitVec 64) (size : ℕ) (flow : SwFlow) :
    (flow.flowUsed now size).key = flow.key := rfl

/-- The entries `f` and `flow` are the same flow for `table_linear_insert`: equal priority, equal
wildcards, and equal fields modulo wildcards. -/
def identical (f flow : SwFlow) : Bool :=
  f.priority == flow.priority && f.key.wildcards == flow.key.wildcards
    && flowMatches2wild f.key flow.key

/-- An entry is the same flow as itself. -/
@[simp]
theorem identical_self (flow : SwFlow) : flow.identical flow = true := by simp [identical]

/-- Being the same flow does not depend on the order of the entries. -/
theorem identical_comm (f g : SwFlow) : f.identical g = g.identical f := by
  rw [Bool.eq_iff_iff]
  simp only [identical, Bool.and_eq_true, beq_iff_eq, flowMatches2wild_comm f.key]
  constructor <;> rintro ⟨⟨h1, h2⟩, h3⟩ <;> exact ⟨⟨h1.symm, h2.symm⟩, h3⟩

/-- Not being the same flow is symmetric. -/
instance : Std.Symm fun f g : SwFlow => f.identical g = false :=
  ⟨fun f g h => (identical_comm g f).trans h⟩

/-- Being the same flow depends on the key and the priority only. -/
theorem identical_congr {f f' g g' : SwFlow} (hk : f.key = f'.key) (hp : f.priority = f'.priority)
    (hk' : g.key = g'.key) (hp' : g.priority = g'.priority) :
    f.identical g = f'.identical g' := by
  rw [identical, identical, hk, hp, hk', hp']

/-- What every entry of a table satisfies: its key is normalised, and an entry without wildcards
has the highest priority. -/
structure WellFormed (flow : SwFlow) : Prop where
  /-- The key is normalised. -/
  normal : flow.key.Normal
  /-- Without wildcards the priority is the highest one. -/
  priority_of_exact : flow.key.wildcards = 0 → flow.priority = -1

theorem WellFormed.congr {f g : SwFlow} (h : f.WellFormed) (hk : g.key = f.key)
    (hp : g.priority = f.priority) : g.WellFormed :=
  ⟨hk ▸ h.normal, fun hw => hp.trans (h.priority_of_exact (hk ▸ hw))⟩

/-- Well-formed entries without wildcards are the same flow exactly when their keys are equal. -/
theorem WellFormed.identical_exact {f g : SwFlow} (hf : f.WellFormed) (hg : g.WellFormed)
    (hwf : f.key.wildcards = 0) (hwg : g.key.wildcards = 0) :
    f.identical g = (f.key.flow == g.key.flow) := by
  rw [identical, hf.normal.flowMatches2wild_exact hg.normal hwf hwg, hf.priority_of_exact hwf,
    hg.priority_of_exact hwg, hwf, hwg]
  simp

/-- Well-formed entries that are the same flow as a third one compare alike. -/
theorem WellFormed.identical_congr_right {f g h : SwFlow} (hf : f.WellFormed)
    (hg : g.WellFormed) (hh : h.WellFormed) (hfg : f.identical g = true) :
    h.identical f = h.identical g := by
  simp only [identical, Bool.and_eq_true, beq_iff_eq] at hfg
  obtain ⟨⟨hp, hw⟩, hm⟩ := hfg
  rw [identical, identical, hp, hw]
  cases hhw : h.key.wildcards == g.key.wildcards with
  | false => simp
  | true =>
    -- all three keys compare the same bits
    rw [beq_iff_eq] at hhw
    congr 1
    exact SwFlowKey.Normal.flowMatches2wild_congr_right hf.normal hg.normal hh.normal hw hhw hm

/-- An entry with wildcards is not the same flow as one without. -/
theorem identical_eq_false_of_wild {f g : SwFlow} (hf : f.key.wildcards ≠ 0)
    (hg : g.key.wildcards = 0) : f.identical g = false := by
  have h : (f.key.wildcards == g.key.wildcards) = false := by
    rw [hg]
    exact beq_false_of_ne hf
  simp [identical, h]

end SwFlow

end OfAgent
