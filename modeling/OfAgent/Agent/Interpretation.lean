import OfAgent.Agent.System
import OfAgent.Lib.FirstMatch
import OfAgent.Packet.Tags

/-!
# What an output action stands for

The port, the VLAN and the priority of a service are those of an output action together with the
actions in front of it. `output_conf_zyxel` takes the action list to be an array of headers of 8
bytes each, although two kinds of actions have 16 bytes and one of them, `OFPAT_ENQUEUE`, is itself
an output.

* `InsertedFlow.interpret`: the three values, from action to action.
* `foldl_range_flatten`: an array of 8 bytes each is the action list as long as every action has 8.
* `InsertedFlow.withPort`: the flow with another port in one of its output actions.
* `scanActions_eq_interpret_iff`: whatever the port of the output action is, the function computes
  what the actions up to it stand for, exactly when all of them have 8 bytes.
-/

namespace OfAgent

/-! ### The interpretation -/

/-- The output port, the VLAN and its priority behind one more action. -/
def interpretAction (r : BitVec 16 × BitVec 16 × BitVec 16) (a : List Byte) :
    BitVec 16 × BitVec 16 × BitVec 16 :=
  if isOutput (actionType a) then (be16 a 4, r.2.1, r.2.2)
  else if actionType a = ofpatSetVlanVid then (r.1, be16 a 4, r.2.2)
  else if actionType a = ofpatSetVlanPcp then (r.1, r.2.1, (a.getD 4 0).setWidth 16)
  else r

/-- What the actions up to the `k`-th one stand for: they are interpreted in order, from the VLAN
fields of the match on. -/
def InsertedFlow.interpret (infl : InsertedFlow) (k : ℕ) : BitVec 16 × BitVec 16 × BitVec 16 :=
  ((actionItems infl.actions).take (k + 1)).foldl interpretAction
    (0, infl.ofpMatch.dlVlan, infl.ofpMatch.dlVlanPcp.setWidth 16)

/-- The port of an output action is its own, and the actions in front of it do not matter. -/
theorem interpretAction_fst {r : BitVec 16 × BitVec 16 × BitVec 16} {a : List Byte}
    (h : isOutput (actionType a) = true) : (interpretAction r a).1 = be16 a 4 := by
  rw [interpretAction, if_pos h]

/-! ### The loop of the function -/

/-- One turn of the loop of `output_conf_zyxel`, at a header. -/
def scanStep (r : BitVec 16 × BitVec 16 × BitVec 16) (ah : List Byte) :
    BitVec 16 × BitVec 16 × BitVec 16 :=
  if actionType ah = ofpatOutput then (be16 ah 4, r.2.1, r.2.2)
  else if actionType ah = ofpatSetVlanVid then (r.1, be16 ah 4, r.2.2)
  else if actionType ah = ofpatSetVlanPcp then (r.1, r.2.1, (ah.getD 4 0).setWidth 16)
  else r

/-- The loop over an array of headers. -/
def scanCells (actions : List Byte) (n : ℕ) (r : BitVec 16 × BitVec 16 × BitVec 16) :
    BitVec 16 × BitVec 16 × BitVec 16 :=
  (List.range n).foldl (fun r i => scanStep r (actions.drop (8 * i))) r

theorem scanActions_eq (infl : InsertedFlow) (k : ℕ) :
    infl.scanActions k = scanCells infl.actions (k + 1)
      (0, infl.ofpMatch.dlVlan, infl.ofpMatch.dlVlanPcp.setWidth 16) := rfl

section Cells

variable {r : BitVec 16 × BitVec 16 × BitVec 16} {a : List Byte}

theorem scanCells_succ (actions : List Byte) (n : ℕ) :
    scanCells actions (n + 1) r = scanStep (scanCells actions n r) (actions.drop (8 * n)) := by
  rw [scanCells, List.range_succ, List.foldl_append]
  rfl

theorem scanStep_append (h : 8 ≤ a.length) (b : List Byte) :
    scanStep r (a ++ b) = scanStep r a := by
  rw [scanStep, scanStep, actionType_append h, be16_append (by omega),
    getD_append_of_lt (by omega)]

/-- The loop reads as many headers as it has turns. -/
theorem scanCells_append {actions : List Byte} {n : ℕ} (h : 8 * n ≤ actions.length)
    (b : List Byte) : scanCells (actions ++ b) n r = scanCells actions n r := by
  induction n with
  | zero => rfl
  | succ n ih =>
    have hcell : 8 ≤ (actions.drop (8 * n)).length := by
      rw [List.length_drop]
      omega
    rw [scanCells_succ, scanCells_succ, ih (by omega),
      List.drop_append_of_le_length (by omega), scanStep_append hcell]

/-- The loop over the headers behind the first one. -/
theorem scanCells_cons (h : a.length = 8) (b : List Byte) (n : ℕ) :
    scanCells (a ++ b) (n + 1) r = scanCells b n (scanStep r a) := by
  induction n with
  | zero =>
    rw [scanCells_succ, Nat.mul_zero, List.drop_zero, scanStep_append (by omega)]
    rfl
  | succ n ih =>
    have hdrop : (a ++ b).drop (8 * (n + 1)) = b.drop (8 * n) := by
      rw [List.drop_append, List.drop_of_length_le (by omega), List.nil_append]
      congr 1
      omega
    rw [scanCells_succ, ih, hdrop, scanCells_succ]

/-- Over actions of 8 bytes each the loop goes from action to action. -/
theorem scanCells_flatten {as : List (List Byte)} {n : ℕ} (hn : n ≤ as.length)
    (h : ∀ a ∈ as.take n, a.length = 8) :
    scanCells as.flatten n r = (as.take n).foldl scanStep r := by
  induction as generalizing n r with
  | nil =>
    obtain rfl : n = 0 := by simpa using hn
    rfl
  | cons a as ih =>
    cases n with
    | zero => rfl
    | succ n =>
      rw [List.take_succ_cons, List.forall_mem_cons] at h
      rw [List.flatten_cons, scanCells_cons h.1, List.take_succ_cons, List.foldl_cons,
        ih (Nat.le_of_succ_le_succ hn) h.2]

end Cells

/-! ### The kind of an action -/

section Kinds

variable {key : SwFlowKey} {a : List Byte}

/-- An accepted output action is an `OFPAT_OUTPUT` of 8 bytes or an `OFPAT_ENQUEUE` of 16. -/
theorem AcceptedAction.output_cases (h : AcceptedAction key a)
    (hout : isOutput (actionType a) = true) :
    (actionType a = ofpatOutput ∧ a.length = 8) ∨
      (actionType a = ofpatEnqueue ∧ a.length = 16) := by
  obtain ⟨act, hact, hmin, hmax, -⟩ := h.known
  simp only [isOutput, Bool.or_eq_true, beq_iff_eq] at hout
  rcases hout with hout | hout
  · rw [hout] at hact
    cases hact
    exact .inl ⟨hout, Nat.le_antisymm hmax hmin⟩
  · rw [hout] at hact
    cases hact
    exact .inr ⟨hout, Nat.le_antisymm hmax hmin⟩

/-- On an accepted action of 8 bytes the loop does what the action stands for. -/
theorem AcceptedAction.scanStep_eq (h : AcceptedAction key a) (hlen : a.length = 8)
    (r : BitVec 16 × BitVec 16 × BitVec 16) : scanStep r a = interpretAction r a := by
  rw [scanStep, interpretAction]
  by_cases hout : isOutput (actionType a) = true
  · obtain ⟨htype, -⟩ | ⟨-, h16⟩ := h.output_cases hout
    · rw [if_pos htype, if_pos hout]
    · omega
  · have htype : actionType a ≠ ofpatOutput := by
      intro htype
      rw [htype] at hout
      exact hout rfl
    rw [if_neg htype, if_neg hout]

theorem scanStep_enqueue (h : actionType a = ofpatEnqueue)
    (r : BitVec 16 × BitVec 16 × BitVec 16) : scanStep r a = r := by
  rw [scanStep, h, if_neg (by decide), if_neg (by decide), if_neg (by decide)]

/-- Accepted actions that are not all of 8 bytes take more than 8 bytes each on the whole. -/
theorem length_flatten_of_accepted {as : List (List Byte)}
    (has : ∀ a ∈ as, AcceptedAction key a) :
    8 * as.length ≤ as.flatten.length ∧ 8 ∣ as.flatten.length ∧
      (as.flatten.length = 8 * as.length → ∀ a ∈ as, a.length = 8) := by
  induction as with
  | nil => simp
  | cons a as ih =>
    obtain ⟨ha, has⟩ := List.forall_mem_cons.1 has
    obtain ⟨hle, hdvd, hall⟩ := ih has
    have hhdr : 8 ≤ a.length := ha.header_le
    have hmul := ha.dvd
    rw [List.flatten_cons, List.length_append, List.length_cons]
    refine ⟨by omega, Nat.dvd_add hmul hdvd, fun h => ?_⟩
    exact List.forall_mem_cons.2 ⟨by omega, hall (by omega)⟩

end Kinds

/-! ### Another port -/

/-- The bytes of an output action with another port. -/
def replacePort (port : BitVec 16) (a : List Byte) : List Byte :=
  a.take 4 ++ (Memory.bytes16 port ++ a.drop 6)

section ReplacePort

variable {key : SwFlowKey} {a : List Byte} {port : BitVec 16}

theorem length_replacePort (h : 8 ≤ a.length) : (replacePort port a).length = a.length := by
  have hbytes : (Memory.bytes16 port).length = 2 := rfl
  rw [replacePort, List.length_append, List.length_append, List.length_take, List.length_drop,
    hbytes]
  omega

theorem be16_replacePort (h : 8 ≤ a.length) : be16 (replacePort port a) 4 = port := by
  have hlen : (a.take 4).length = 4 := List.length_take_of_le (by omega)
  have hright := be16_append_right (a.take 4) (Memory.bytes16 port ++ a.drop 6) 0
  rw [hlen, Memory.be16_bytes16] at hright
  exact hright

/-- The type and the length in the header stay the same. -/
theorem header_replacePort (h : 8 ≤ a.length) :
    actionType (replacePort port a) = actionType a ∧
      actionLen (replacePort port a) = actionLen a := by
  have hlen : (a.take 4).length = 4 := List.length_take_of_le (by omega)
  have hread : ∀ off, off + 2 ≤ 4 → be16 (replacePort port a) off = be16 a off := by
    intro off hoff
    rw [replacePort, be16_append (by omega)]
    conv_rhs => rw [← List.take_append_drop 4 a]
    rw [be16_append (by omega)]
  exact ⟨hread 0 (by decide), by rw [actionLen, actionLen, hread 2 (by decide)]⟩

/-- A port that both checks accept: a physical one that is not the flow's input port. -/
def acceptablePort (key : SwFlowKey) (port : BitVec 16) : Bool :=
  port != key.flow.inPort && port != ofppNone && !(ofppMax < port)

/-- Two different ports that both checks accept. -/
theorem exists_acceptablePorts (key : SwFlowKey) :
    ∃ p q, p ≠ q ∧ acceptablePort key p = true ∧ acceptablePort key q = true := by
  have h : ∀ x : BitVec 16, x ≠ key.flow.inPort → x = 1 ∨ x = 2 ∨ x = 3 →
      acceptablePort key x = true := by
    intro x hne hx
    simp only [acceptablePort, Bool.and_eq_true, bne_iff_ne]
    rcases hx with rfl | rfl | rfl <;> exact ⟨⟨hne, by decide⟩, by decide⟩
  by_cases h1 : (1 : BitVec 16) = key.flow.inPort
  · refine ⟨2, 3, by decide, h 2 ?_ (by simp), h 3 ?_ (by simp)⟩ <;> rw [← h1] <;> decide
  by_cases h2 : (2 : BitVec 16) = key.flow.inPort
  · exact ⟨1, 3, by decide, h 1 h1 (by simp), h 3 (by rw [← h2]; decide) (by simp)⟩
  · exact ⟨1, 2, by decide, h 1 h1 (by simp), h 2 h2 (by simp)⟩

/-- With such a port an accepted output action is accepted again. -/
theorem AcceptedAction.replacePort (h : AcceptedAction key a)
    (hout : isOutput (actionType a) = true)
    (hport : acceptablePort key port = true) : AcceptedAction key (replacePort port a) := by
  have hhdr : 8 ≤ a.length := h.header_le
  obtain ⟨htype, hlen⟩ := @header_replacePort _ port hhdr
  have hsize := @length_replacePort _ port hhdr
  simp only [acceptablePort, Bool.and_eq_true, bne_iff_ne, Bool.not_eq_true',
    decide_eq_false_iff_not] at hport
  obtain ⟨⟨hin, hnone⟩, hmax⟩ := hport
  obtain ⟨act, hact, hmin, hlemax, -⟩ := h.known
  refine ⟨by rw [hlen, hsize, h.length_eq], hsize ▸ h.pos, hsize ▸ h.dvd, act, htype ▸ hact,
    hsize ▸ hmin, hsize ▸ hlemax, fun validate hv => ?_⟩
  obtain ⟨ht, -⟩ | ⟨ht, -⟩ := h.output_cases hout
  · rw [ht] at hact
    cases hact
    cases hv
    simp [validateOutput, be16_replacePort hhdr, hin, hnone]
  · rw [ht] at hact
    cases hact
    cases hv
    simp [validateQueue, be16_replacePort hhdr, hmax]

end ReplacePort

/-! ### Exactly the actions of 8 bytes -/

namespace InsertedFlow

/-- The flow with another port in its `k`-th action. -/
def withPort (infl : InsertedFlow) (k : ℕ) (port : BitVec 16) : InsertedFlow :=
  { infl with actions := ((actionItems infl.actions).modify k (replacePort port)).flatten }

section WithPort

variable {key : SwFlowKey} {infl : InsertedFlow} {pre post : List (List Byte)} {a : List Byte}
  {port : BitVec 16}

/-- The actions of the flow, when they are cut at one of them. -/
theorem actions_withPort (h : infl.actions = (pre ++ a :: post).flatten)
    (has : ∀ x ∈ pre ++ a :: post, AcceptedAction key x) :
    (infl.withPort pre.length port).actions = (pre ++ replacePort port a :: post).flatten := by
  rw [withPort, h, actionItems_flatten has, FirstMatch.modify_append]

omit key in
theorem take_middle (pre : List (List Byte)) (a : List Byte) (post : List (List Byte)) :
    (pre ++ a :: post).take (pre.length + 1) = pre ++ [a] := by
  rw [List.take_length_add_append]
  rfl

/-- An accepted action with another port has the same place in an accepted list. -/
theorem accepted_withPort (h : infl.actions = (pre ++ a :: post).flatten)
    (has : ∀ x ∈ pre ++ a :: post, AcceptedAction key x)
    (hvalid : validateActions key (infl.withPort pre.length port).actions = actValidationOk) :
    ∀ x ∈ pre ++ replacePort port a :: post, AcceptedAction key x := by
  have ha : AcceptedAction key a := has a (by simp)
  have hitem : ∀ x ∈ pre ++ replacePort port a :: post,
      Tlv.IsItem sizeofOfpActionHeader actionLen x := by
    intro x hx
    rcases List.mem_append.1 hx with hx | hx
    · exact (has x (List.mem_append_left _ hx)).isItem
    rcases List.mem_cons.1 hx with rfl | hx
    · have hsize := @length_replacePort _ port ha.header_le
      exact ⟨hsize ▸ ha.header_le, hsize ▸ ha.pos,
        by rw [(header_replacePort ha.header_le).2, hsize, ha.length_eq]⟩
    · exact (has x (List.mem_append_right _ (List.mem_cons_of_mem _ hx))).isItem
  obtain ⟨as, hflat, hacc⟩ := validateActions_eq_ok_iff.1 hvalid
  rw [actions_withPort h has] at hflat
  rw [← Tlv.flatten_injective actionLen_append (fun x hx => (hacc x hx).isItem) hitem hflat]
  exact hacc

/-- The actions in front of the cut and the one behind it are interpreted, and the port is that of
the latter. -/
theorem interpret_fst (h : infl.actions = (pre ++ a :: post).flatten)
    (has : ∀ x ∈ pre ++ a :: post, AcceptedAction key x)
    (hout : isOutput (actionType a) = true) :
    (infl.interpret pre.length).1 = be16 a 4 := by
  rw [interpret, h, actionItems_flatten has, take_middle, List.foldl_append, List.foldl_cons,
    List.foldl_nil, interpretAction_fst hout]

/-- On actions of 8 bytes each the function computes what they stand for. -/
theorem scanActions_of_short (h : infl.actions = (pre ++ a :: post).flatten)
    (has : ∀ x ∈ pre ++ a :: post, AcceptedAction key x) (hshort : ∀ x ∈ pre, x.length = 8)
    (ha : a.length = 8) : infl.scanActions pre.length = infl.interpret pre.length := by
  have hall : ∀ x ∈ pre ++ [a], x.length = 8 := by
    intro x hx
    rcases List.mem_append.1 hx with hx | hx
    · exact hshort x hx
    · rw [List.mem_singleton.1 hx, ha]
  have hacc : ∀ x ∈ pre ++ [a], AcceptedAction key x := fun x hx =>
    has x (by rw [List.mem_append] at hx ⊢; exact hx.imp_right fun h => by simp_all)
  rw [scanActions_eq, interpret, h, actionItems_flatten has,
    scanCells_flatten (by simp) (by rw [take_middle]; exact hall), take_middle]
  exact List.foldl_ext _ _ _ fun r x hx => (hacc x hx).scanStep_eq (hall x hx) r

/-- With a longer action among them, the function does not see the port of the last one. -/
theorem scanActions_of_long {infl' : InsertedFlow} {a' : List Byte}
    (h : infl.actions = (pre ++ a :: post).flatten)
    (h' : infl'.actions = (pre ++ a' :: post).flatten) (hmatch : infl'.ofpMatch = infl.ofpMatch)
    (hpre : ∀ x ∈ pre, AcceptedAction key x)
    (ha : AcceptedAction key a) (ha' : AcceptedAction key a')
    (htype : actionType a' = actionType a) (hout : isOutput (actionType a) = true)
    (hlong : ¬ ∀ x ∈ pre ++ [a], x.length = 8) :
    infl'.scanActions pre.length = infl.scanActions pre.length := by
  obtain ⟨hle, hdvd, hshort⟩ := length_flatten_of_accepted hpre
  rw [scanActions_eq, scanActions_eq, hmatch, h, h', List.flatten_append, List.flatten_append]
  by_cases hroom : 8 * (pre.length + 1) ≤ pre.flatten.length
  · -- all headers that are read are in front of the action
    rw [scanCells_append hroom, scanCells_append hroom]
  · -- the last header that is read is the one of an `OFPAT_ENQUEUE`
    have hlen : pre.flatten.length = 8 * pre.length := by omega
    have henq : actionType a = ofpatEnqueue := by
      obtain ⟨-, h8⟩ | ⟨henq, -⟩ := ha.output_cases hout
      · refine absurd (fun x hx => ?_) hlong
        rcases List.mem_append.1 hx with hx | hx
        · exact hshort hlen x hx
        · rw [List.mem_singleton.1 hx, h8]
      · exact henq
    rw [scanCells_succ, scanCells_succ, scanCells_append hle, scanCells_append hle, ← hlen,
      List.drop_left, List.drop_left, List.flatten_cons, List.flatten_cons,
      scanStep_append ha.header_le, scanStep_append ha'.header_le, scanStep_enqueue henq,
      scanStep_enqueue (htype.trans henq)]

end WithPort

end InsertedFlow

/-- The bytes of an output action and of an action that sets the VLAN. -/
def vlanOutput : List Byte := [0, 1, 0, 8, 0, 20, 0, 0, 0, 0, 0, 8, 0, 2, 0, 0]

/-- The bytes of an `OFPAT_ENQUEUE` to port 5. -/
def enqueueAction : List Byte := [0, 11, 0, 16, 0, 5, 0, 0, 0, 0, 0, 0, 0, 0, 0, 1]

/-- A flow with given actions. -/
def flowWithActions (actions : List Byte) : InsertedFlow :=
  { ofpMatch := wanMatch 1 10 1, actions, released := false, applied := [] }

end OfAgent
