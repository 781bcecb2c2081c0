import OfAgent.Lib.CopyOnWrite
import OfAgent.Lib.Scan
import Mathlib.Algebra.GroupWithZero.Nat
import Mathlib.Data.List.Induction
import Mathlib.Data.List.Basic
import Mathlib.Data.Nat.Basic
import Mathlib.Tactic.SplitIfs

/-!
# Port arrays

The sparse arrays of `port-array.c`: tries of three levels, whose nodes are shared until they are
written.

* `PortArray`: an array, the nodes of the tries and the sentinels; `PortArray.set`, `PortArray.get`,
  `PortArray.first`, `PortArray.next`: the operations.
* `PortArray.Sound`: the sentinels are empty, and nothing else is shared; `PortArray.sound_set`:
  then setting an element leaves the others alone.
* `PortArray.firstFrom_scanL1`: the loops of `next` find the first element from an index on.
* `portArray_get_and_visit`: elements are what they were set to last, and the loops over the array
  visit those that are not null, in order.
-/

namespace OfAgent

/-! ### The array -/

/-- `port_array_extract_bits__`. -/
def portArrayExtractBits (data : BitVec 16) (start count : ℕ) : BitVec 16 :=
  (data >>> start) &&& BitVec.ofNat 16 ((1 <<< count) - 1)

theorem toNat_portArrayExtractBits_lt (data : BitVec 16) (start count : ℕ) :
    (portArrayExtractBits data start count).toNat < 2 ^ count := by
  rw [portArrayExtractBits, BitVec.toNat_and, BitVec.toNat_ofNat, Nat.one_shiftLeft]
  calc (data >>> start).toNat &&& (2 ^ count - 1) % 2 ^ 16
    _ ≤ (2 ^ count - 1) % 2 ^ 16 := Nat.and_le_right
    _ ≤ 2 ^ count - 1 := Nat.mod_le _ _
    _ < 2 ^ count := Nat.sub_lt (Nat.two_pow_pos count) Nat.one_pos

/-- `PORT_ARRAY_L1`: the most significant bits, below `PORT_ARRAY_L1_SIZE`. -/
def portArrayL1 (idx : BitVec 16) : Fin 32 :=
  ⟨(portArrayExtractBits idx 11 5).toNat, toNat_portArrayExtractBits_lt idx 11 5⟩

/-- `PORT_ARRAY_L2`: the middle bits, below `PORT_ARRAY_L2_SIZE`. -/
def portArrayL2 (idx : BitVec 16) : Fin 32 :=
  ⟨(portArrayExtractBits idx 6 5).toNat, toNat_portArrayExtractBits_lt idx 6 5⟩

/-- `PORT_ARRAY_L3`: the least significant bits, below `PORT_ARRAY_L3_SIZE`. -/
def portArrayL3 (idx : BitVec 16) : Fin 64 :=
  ⟨(portArrayExtractBits idx 0 6).toNat, toNat_portArrayExtractBits_lt idx 0 6⟩

/-- The address of `l2_sentinel` among the nodes of level 2, and of `l3_sentinel` among those of
level 3. The null pointer is 0, and copies have the addresses behind. -/
def portArraySentinel : ℕ := 1

/-- `struct port_array`, with the memory in which its nodes are. -/
structure PortArray (V : Type*) where
  /-- `l1`. -/
  l1 : Fin 32 → ℕ
  /-- The nodes of type `struct port_array_l2`, by their addresses. -/
  l2 : ℕ → Fin 32 → ℕ
  /-- The nodes of type `struct port_array_l3`, by their addresses. -/
  l3 : ℕ → Fin 64 → Option V
  /-- The address of the next copy of `l2_sentinel`. -/
  freshL2 : ℕ
  /-- The address of the next copy of `l3_sentinel`. -/
  freshL3 : ℕ
  /-- `inited`. -/
  inited : Bool

namespace PortArray

variable {V : Type*} (pa : PortArray V)

/-- The memory in front of the first call: all of it is 0. -/
def start : PortArray V where
  l1 := fun _ => 0
  l2 := fun _ _ => 0
  l3 := fun _ _ => none
  freshL2 := portArraySentinel + 1
  freshL3 := portArraySentinel + 1
  inited := false

/-- `port_array_init`. -/
def init : PortArray V :=
  let pa :=
    if pa.inited then pa
    else { pa with
      inited := true
      l2 := Function.update pa.l2 portArraySentinel fun _ => portArraySentinel }
  { pa with l1 := fun _ => portArraySentinel }

/-- Level 1 of `port_array_set`: the pointer gets a copy of `l2_sentinel`, unless it has one. -/
def copyL2 (l1Idx : Fin 32) : PortArray V :=
  if pa.l1 l1Idx = portArraySentinel then
    { pa with
      l1 := Function.update pa.l1 l1Idx pa.freshL2
      l2 := Function.update pa.l2 pa.freshL2 (pa.l2 portArraySentinel)
      freshL2 := pa.freshL2 + 1 }
  else pa

/-- Level 2 of `port_array_set`: the pointer gets a copy of `l3_sentinel`, unless it has one. -/
def copyL3 (l2 : ℕ) (l2Idx : Fin 32) : PortArray V :=
  if pa.l2 l2 l2Idx = portArraySentinel then
    { pa with
      l2 := Function.update pa.l2 l2 (Function.update (pa.l2 l2) l2Idx pa.freshL3)
      l3 := Function.update pa.l3 pa.freshL3 (pa.l3 portArraySentinel)
      freshL3 := pa.freshL3 + 1 }
  else pa

/-- Level 3 of `port_array_set`. -/
def setL3 (l3 : ℕ) (l3Idx : Fin 64) (p : Option V) : PortArray V :=
  { pa with l3 := Function.update pa.l3 l3 (Function.update (pa.l3 l3) l3Idx p) }

/-- `port_array_set`. -/
def set (idx : BitVec 16) (p : Option V) : PortArray V :=
  -- traverse level 1
  let pa := pa.copyL2 (portArrayL1 idx)
  let l2 := pa.l1 (portArrayL1 idx)
  -- traverse level 2
  let pa := pa.copyL3 l2 (portArrayL2 idx)
  let l3 := pa.l2 l2 (portArrayL2 idx)
  -- set level 3
  pa.setL3 l3 (portArrayL3 idx) p

/-- The element at a place of the trie. -/
def elem (l1Idx l2Idx : Fin 32) (l3Idx : Fin 64) : Option V :=
  pa.l3 (pa.l2 (pa.l1 l1Idx) l2Idx) l3Idx

/-- `port_array_get`. -/
def get (idx : BitVec 16) : Option V :=
  pa.elem (portArrayL1 idx) (portArrayL2 idx) (portArrayL3 idx)

/-- The innermost loop of `next`: the element that is not null, and where it is. -/
def scanL3 (l3 : Fin 64 → Option V) (l3Idx : ℕ) : Option (V × ℕ) :=
  if h : l3Idx < 64 then
    match l3 ⟨l3Idx, h⟩ with
    | some p => some (p, l3Idx)
    | none => scanL3 l3 (l3Idx + 1)
  else none
termination_by 64 - l3Idx

/-- The innermost loop, if the node of level 3 is not the sentinel. -/
def enterL3 (l3 l3Idx : ℕ) : Option (V × ℕ) :=
  if l3 ≠ portArraySentinel then scanL3 (pa.l3 l3) l3Idx else none

/-- The loop of `next` over a node of level 2. -/
def scanL2 (l2 : Fin 32 → ℕ) (l2Idx l3Idx : ℕ) : Option (V × ℕ × ℕ) :=
  if h : l2Idx < 32 then
    match pa.enterL3 (l2 ⟨l2Idx, h⟩) l3Idx with
    | some (p, l3Idx) => some (p, l2Idx, l3Idx)
    | none => scanL2 l2 (l2Idx + 1) 0
  else none
termination_by 32 - l2Idx

/-- The loop over a node of level 2, if it is not the sentinel. -/
def enterL2 (l2 l2Idx l3Idx : ℕ) : Option (V × ℕ × ℕ) :=
  if l2 ≠ portArraySentinel then pa.scanL2 (pa.l2 l2) l2Idx l3Idx else none

/-- The outermost loop of `next`. -/
def scanL1 (l1Idx l2Idx l3Idx : ℕ) : Option (V × ℕ × ℕ × ℕ) :=
  if h : l1Idx < 32 then
    match pa.enterL2 (pa.l1 ⟨l1Idx, h⟩) l2Idx l3Idx with
    | some (p, l2Idx, l3Idx) => some (p, l1Idx, l2Idx, l3Idx)
    | none => scanL1 (l1Idx + 1) 0 0
  else none
termination_by 32 - l1Idx

/-- `next`: the element, and the index behind the call. -/
def nextFrom (idx : BitVec 32) : Option V × BitVec 32 :=
  -- the index is too big for level 1 when it is too big
  match pa.scanL1 (idx >>> 11).toNat (portArrayL2 (idx.setWidth 16))
      (portArrayL3 (idx.setWidth 16)) with
  | some (p, l1Idx, l2Idx, l3Idx) =>
      (some p, BitVec.ofNat 32 l1Idx <<< 11 ||| BitVec.ofNat 32 l2Idx <<< 6 |||
        BitVec.ofNat 32 l3Idx <<< 0)
  | none => (none, 65536)

/-- `port_array_first`. -/
def first : Option V × BitVec 32 := pa.nextFrom 0

/-- `port_array_next`. -/
def next (idx : BitVec 32) : Option V × BitVec 32 := pa.nextFrom (idx + 1)

/-- The loop of the callers, which calls `port_array_next` until an element is null: the elements
with their indices, and the index behind. Nothing, when this takes too many turns. -/
def visit : ℕ → Option V × BitVec 32 → Option (List (BitVec 32 × V) × BitVec 32)
  | 0, _ => none
  | _ + 1, (none, idx) => some ([], idx)
  | fuel + 1, (some p, idx) =>
      (visit fuel (pa.next idx)).map fun r => ((idx, p) :: r.1, r.2)

end PortArray

/-! ### Places -/

/-- The bits that are extracted are digits. -/
theorem toNat_portArrayExtractBits (data : BitVec 16) (start : ℕ) {count : ℕ} (h : count ≤ 16) :
    (portArrayExtractBits data start count).toNat = data.toNat / 2 ^ start % 2 ^ count := by
  have hmask : (2 ^ count - 1) % 2 ^ 16 = 2 ^ count - 1 :=
    Nat.mod_eq_of_lt (lt_of_lt_of_le (Nat.sub_lt (Nat.two_pow_pos count) Nat.one_pos)
      (Nat.pow_le_pow_right Nat.two_pos h))
  rw [portArrayExtractBits, BitVec.toNat_and, BitVec.toNat_ofNat, Nat.one_shiftLeft, hmask,
    Nat.and_two_pow_sub_one_eq_mod, BitVec.toNat_ushiftRight, Nat.shiftRight_eq_div_pow]

theorem portArrayL1_val (idx : BitVec 16) : (portArrayL1 idx : ℕ) = idx.toNat / 2048 % 32 :=
  toNat_portArrayExtractBits idx 11 (Nat.le_of_ble_eq_true rfl)

theorem portArrayL2_val (idx : BitVec 16) : (portArrayL2 idx : ℕ) = idx.toNat / 64 % 32 :=
  toNat_portArrayExtractBits idx 6 (Nat.le_of_ble_eq_true rfl)

theorem portArrayL3_val (idx : BitVec 16) : (portArrayL3 idx : ℕ) = idx.toNat % 64 := by
  have h := toNat_portArrayExtractBits idx 0 (Nat.le_of_ble_eq_true rfl : 6 ≤ 16)
  rwa [Nat.pow_zero, Nat.div_one] at h

/-- Elements with different indices are at different places. -/
theorem portArray_place_inj {i j : BitVec 16} (h1 : portArrayL1 i = portArrayL1 j)
    (h2 : portArrayL2 i = portArrayL2 j) (h3 : portArrayL3 i = portArrayL3 j) : i = j := by
  have h1 := congrArg Fin.val h1
  have h2 := congrArg Fin.val h2
  have h3 := congrArg Fin.val h3
  rw [portArrayL1_val, portArrayL1_val] at h1
  rw [portArrayL2_val, portArrayL2_val] at h2
  rw [portArrayL3_val, portArrayL3_val] at h3
  apply BitVec.eq_of_toNat_eq
  have hi := i.isLt
  have hj := j.isLt
  omega

namespace PortArray

variable {V : Type*} {pa : PortArray V} {idx : BitVec 16} {p : Option V} {x y : Fin 32} {z : Fin 64}

/-- The pointers of level 1. -/
def level1 (pa : PortArray V) : CopyOnWrite.Table (Fin 32) (Fin 32 → ℕ) :=
  ⟨pa.l1, pa.l2, pa.freshL2⟩

/-- The pointers in the nodes of level 2. -/
def level2 (pa : PortArray V) : CopyOnWrite.Table (ℕ × Fin 32) (Fin 64 → Option V) :=
  ⟨Function.uncurry pa.l2, pa.l3, pa.freshL3⟩

/-- The sentinels are empty, and nodes of level 2 share no other node. -/
structure Nodes (pa : PortArray V) : Prop where
  /-- The sentinels are initialized. -/
  inited : pa.inited = true
  /-- A sentinel is no copy. -/
  freshL2 : portArraySentinel < pa.freshL2
  /-- The nodes of level 2 share the sentinel alone. -/
  separate2 : pa.level2.Separate portArraySentinel
  /-- No pointer in a node of level 2 is null. -/
  l2_ne_null : ∀ a, portArraySentinel ≤ a → a < pa.freshL2 → ∀ y, portArraySentinel ≤ pa.l2 a y
  /-- `l2_sentinel` points to `l3_sentinel`. -/
  l2_sentinel : pa.l2 portArraySentinel = fun _ => portArraySentinel
  /-- `l3_sentinel` is empty. -/
  l3_sentinel : pa.l3 portArraySentinel = fun _ => none

/-- Moreover, level 1 shares no other node. -/
structure Sound (pa : PortArray V) : Prop extends Nodes pa where
  /-- Level 1 shares the sentinel alone. -/
  separate1 : pa.level1.Separate portArraySentinel
  /-- No pointer of level 1 is null. -/
  l1_ne_null : ∀ x, portArraySentinel ≤ pa.l1 x

/-! ### Setting elements -/

theorem level1_copyL2 (x : Fin 32) :
    (pa.copyL2 x).level1 = pa.level1.touch portArraySentinel x := by
  unfold copyL2 CopyOnWrite.Table.touch
  exact apply_ite level1 _ _ _

theorem level2_copyL3 (a : ℕ) (y : Fin 32) :
    (pa.copyL3 a y).level2 = pa.level2.touch portArraySentinel (a, y) := by
  unfold copyL3 CopyOnWrite.Table.touch
  rw [apply_ite level2]
  refine if_congr Iff.rfl ?_ rfl
  show CopyOnWrite.Table.mk _ _ _ = CopyOnWrite.Table.mk _ _ _
  congr 1
  exact Function.uncurry_update_update pa.l2 a y pa.freshL3

theorem sound_copyL2 (h : pa.Sound) (x : Fin 32) : (pa.copyL2 x).Sound := by
  have hseparate := h.separate1.touch x
  have hsentinel := CopyOnWrite.Table.node_touch portArraySentinel x h.separate1.sentinel
  rw [← level1_copyL2] at hseparate hsentinel
  unfold copyL2 at hseparate hsentinel ⊢
  by_cases hx : pa.l1 x = portArraySentinel
  · rw [if_pos hx] at hseparate hsentinel ⊢
    -- the copy points to `l3_sentinel`
    have hcopy : ∀ a y, Function.update pa.l2 pa.freshL2 (pa.l2 portArraySentinel) a y =
        pa.l2 a y ∨ Function.update pa.l2 pa.freshL2 (pa.l2 portArraySentinel) a y =
        portArraySentinel := fun a y => by
      by_cases ha : a = pa.freshL2
      · rw [ha, Function.update_self, h.l2_sentinel]
        exact .inr rfl
      · rw [Function.update_of_ne ha]
        exact .inl rfl
    refine ⟨⟨h.inited, Nat.lt_succ_of_lt h.freshL2, h.separate2.of_ptr rfl fun k => hcopy k.1 k.2,
      fun a ha hfresh y => ?_, hsentinel.trans h.l2_sentinel, h.l3_sentinel⟩, hseparate,
      fun y => ?_⟩
    · show portArraySentinel ≤ Function.update pa.l2 pa.freshL2 (pa.l2 portArraySentinel) a y
      by_cases ha' : a = pa.freshL2
      · rw [ha', Function.update_self, h.l2_sentinel]
      · rw [Function.update_of_ne ha']
        exact h.l2_ne_null a ha (lt_of_le_of_ne (Nat.le_of_lt_succ hfresh) ha') y
    · show portArraySentinel ≤ Function.update pa.l1 x pa.freshL2 y
      by_cases hy : y = x
      · rw [hy, Function.update_self]
        exact le_of_lt h.freshL2
      · rw [Function.update_of_ne hy]
        exact h.l1_ne_null y
  · rw [if_neg hx]
    exact h

/-- A copy of `l2_sentinel` has its elements. -/
theorem elem_copyL2 (h : pa.Sound) (x : Fin 32) : (pa.copyL2 x).elem = pa.elem := by
  have hview := CopyOnWrite.Table.view_touch h.separate1 x
  have hl3 : (pa.copyL2 x).l3 = pa.l3 := by
    unfold copyL2
    split
    next => rfl
    next => rfl
  rw [← level1_copyL2] at hview
  funext x' y z
  show (pa.copyL2 x).l3 ((pa.copyL2 x).level1.view x' y) z = pa.l3 (pa.level1.view x' y) z
  rw [hview, hl3]

/-- What a copy of `l3_sentinel` leaves alone. -/
theorem copyL3_same (pa : PortArray V) (a : ℕ) (y : Fin 32) :
    (pa.copyL3 a y).inited = pa.inited ∧ (pa.copyL3 a y).l1 = pa.l1 ∧
      (pa.copyL3 a y).freshL2 = pa.freshL2 ∧ ∀ b, b ≠ a → (pa.copyL3 a y).l2 b = pa.l2 b := by
  unfold copyL3
  split
  next => exact ⟨rfl, rfl, rfl, fun b hb => Function.update_of_ne hb _ _⟩
  next => exact ⟨rfl, rfl, rfl, fun _ _ => rfl⟩

theorem sound_copyL3 (h : pa.Sound) {a : ℕ} (ha : portArraySentinel < a) (hfresh : a < pa.freshL2)
    (y : Fin 32) : (pa.copyL3 a y).Sound ∧ portArraySentinel < (pa.copyL3 a y).l2 a y := by
  have htouched := h.separate2.touch (a, y)
  have hsentinel :=
    CopyOnWrite.Table.node_touch portArraySentinel (a, y) h.separate2.sentinel
  have hown := CopyOnWrite.Table.lt_ptr_touch h.separate2 (k := (a, y))
    (h.l2_ne_null a (le_of_lt ha) hfresh y)
  have hother : ∀ k, k ≠ (a, y) →
      (pa.level2.touch portArraySentinel (a, y)).ptr k = pa.level2.ptr k := fun _ hk =>
    CopyOnWrite.Table.ptr_touch_of_ne portArraySentinel hk
  rw [← level2_copyL3] at htouched hsentinel hown hother
  obtain ⟨hinited, hl1, hfreshL2, hl2⟩ := pa.copyL3_same a y
  have hseparate : (pa.copyL3 a y).level1.Separate portArraySentinel :=
    h.separate1.of_ptr hfreshL2 fun x => .inl (congrFun hl1 x)
  refine ⟨⟨⟨hinited.trans h.inited, hfreshL2 ▸ h.freshL2, htouched, fun b hb hbfresh w => ?_, ?_,
    hsentinel.trans h.l3_sentinel⟩, hseparate, fun x => ?_⟩, hown⟩
  · by_cases hk : (b, w) = (a, y)
    · obtain ⟨rfl, rfl⟩ := Prod.mk.inj hk
      exact le_of_lt hown
    · exact le_of_le_of_eq (h.l2_ne_null b hb (hfreshL2 ▸ hbfresh) w) (hother (b, w) hk).symm
  · rw [hl2 _ (ne_of_lt ha)]
    exact h.l2_sentinel
  · rw [hl1]
    exact h.l1_ne_null x

/-- A copy of `l3_sentinel` has its elements. -/
theorem elem_copyL3 (h : pa.Sound) (a : ℕ) (y : Fin 32) : (pa.copyL3 a y).elem = pa.elem := by
  have hview := CopyOnWrite.Table.view_touch h.separate2 (a, y)
  rw [← level2_copyL3] at hview
  funext x w z
  show (pa.copyL3 a y).level2.view ((pa.copyL3 a y).l1 x, w) z = pa.level2.view (pa.l1 x, w) z
  rw [hview, (pa.copyL3_same a y).2.1]

/-- Writing a node of level 3 changes one element. -/
theorem elem_setL3 (h : pa.Sound) (h1 : portArraySentinel < pa.l1 x)
    (h2 : portArraySentinel < pa.l2 (pa.l1 x) y) (z : Fin 64) (p : Option V) (x' y' : Fin 32)
    (z' : Fin 64) :
    (pa.setL3 (pa.l2 (pa.l1 x) y) z p).elem x' y' z' =
      if x' = x ∧ y' = y ∧ z' = z then p else pa.elem x' y' z' := by
  have hview := CopyOnWrite.Table.view_write h.separate2 (k := (pa.l1 x, y)) h2
    (Function.update (pa.l3 (pa.l2 (pa.l1 x) y)) z p)
  show (pa.level2.write (pa.level2.ptr (pa.l1 x, y)) _).view (pa.l1 x', y') z' = _
  rw [hview]
  by_cases hnode : x' = x ∧ y' = y
  · obtain ⟨rfl, rfl⟩ := hnode
    rw [Function.update_self, Function.update_apply]
    exact if_congr (by simp) rfl rfl
  · have hne : (pa.l1 x', y') ≠ (pa.l1 x, y) := fun heq => by
      obtain ⟨hl1, hl2⟩ := Prod.mk.inj heq
      exact hnode ⟨(h.separate1.inj x x' h1 hl1.symm).symm, hl2⟩
    rw [Function.update_of_ne hne, if_neg fun hall => hnode ⟨hall.1, hall.2.1⟩]
    rfl

theorem sound_setL3 (h : pa.Sound) {b : ℕ} (hb : portArraySentinel < b) (z : Fin 64)
    (p : Option V) : (pa.setL3 b z p).Sound where
  inited := h.inited
  freshL2 := h.freshL2
  separate2 := h.separate2.write b _
  l2_ne_null := h.l2_ne_null
  l2_sentinel := h.l2_sentinel
  l3_sentinel := (Function.update_of_ne (ne_of_lt hb) _ _).trans h.l3_sentinel
  separate1 := h.separate1
  l1_ne_null := h.l1_ne_null

/-- `port_array_set` sets one element. -/
theorem sound_set (h : pa.Sound) (idx : BitVec 16) (p : Option V) :
    (pa.set idx p).Sound ∧ (pa.set idx p).get = Function.update pa.get idx p := by
  have hown1 := CopyOnWrite.Table.lt_ptr_touch h.separate1 (h.l1_ne_null (portArrayL1 idx))
  rw [← level1_copyL2] at hown1
  have h1 := sound_copyL2 h (portArrayL1 idx)
  have helem1 := elem_copyL2 h (portArrayL1 idx)
  replace hown1 : portArraySentinel < (pa.copyL2 (portArrayL1 idx)).l1 (portArrayL1 idx) := hown1
  unfold set
  dsimp only
  generalize pa.copyL2 (portArrayL1 idx) = pa1 at h1 helem1 hown1 ⊢
  obtain ⟨h2, hown2⟩ := sound_copyL3 h1 hown1 (h1.separate1.below _) (portArrayL2 idx)
  have helem2 := elem_copyL3 h1 (pa1.l1 (portArrayL1 idx)) (portArrayL2 idx)
  have hl1 := (pa1.copyL3_same (pa1.l1 (portArrayL1 idx)) (portArrayL2 idx)).2.1
  -- the node of level 2 is the one that level 1 points to
  generalize hnode : pa1.l1 (portArrayL1 idx) = a at hown1 h2 hown2 helem2 hl1 ⊢
  generalize pa1.copyL3 a (portArrayL2 idx) = pa2 at h2 hown2 helem2 hl1 ⊢
  obtain rfl : pa2.l1 (portArrayL1 idx) = a := by rw [hl1, hnode]
  refine ⟨sound_setL3 h2 hown2 _ p, ?_⟩
  funext i
  rw [get, elem_setL3 h2 hown1 hown2, helem2, helem1, Function.update_apply]
  refine if_congr ⟨fun hi => ?_, fun hi => hi ▸ ⟨rfl, rfl, rfl⟩⟩ rfl rfl
  exact portArray_place_inj hi.1 hi.2.1 hi.2.2

/-! ### New arrays -/

/-- An array whose pointers point to the sentinel is empty. -/
theorem sound_sentinels (h : pa.Nodes) :
    { pa with l1 := fun _ => portArraySentinel }.Sound ∧
      { pa with l1 := fun _ => portArraySentinel }.get = fun _ => none := by
  refine ⟨⟨⟨h.inited, h.freshL2, h.separate2, h.l2_ne_null, h.l2_sentinel, h.l3_sentinel⟩,
    .of_le h.freshL2 fun _ => le_refl _, fun _ => le_refl _⟩, ?_⟩
  funext idx
  show pa.l3 (pa.l2 portArraySentinel _) _ = none
  rw [h.l2_sentinel, h.l3_sentinel]

theorem sound_init (h : pa.Sound) : pa.init.Sound ∧ pa.init.get = fun _ => none := by
  unfold init
  rw [if_pos h.inited]
  exact sound_sentinels h.toNodes

theorem sound_init_start :
    (start : PortArray V).init.Sound ∧ (start : PortArray V).init.get = fun _ => none := by
  have hinited : ¬ (start : PortArray V).inited = true := Bool.false_ne_true
  -- the sentinel of level 2, and the memory behind it, which is 0 still
  let l2 : ℕ → Fin 32 → ℕ :=
    Function.update (fun _ _ => 0) portArraySentinel fun _ => portArraySentinel
  have hself : l2 portArraySentinel = fun _ => portArraySentinel := Function.update_self _ _ _
  have hle : ∀ a y, l2 a y ≤ portArraySentinel := fun a y => by
    by_cases ha : a = portArraySentinel
    · rw [ha, hself]
    · exact le_of_eq_of_le (congrFun (Function.update_of_ne ha _ _) y) (Nat.zero_le _)
  unfold init
  rw [if_neg hinited]
  refine sound_sentinels ⟨rfl, Nat.lt_succ_self _,
    .of_le (Nat.lt_succ_self _) fun k => hle k.1 k.2, fun a ha hfresh y => ?_, hself, rfl⟩
  obtain rfl : a = portArraySentinel := Nat.le_antisymm (Nat.le_of_lt_succ hfresh) ha
  exact le_of_eq (congrFun hself y).symm

end PortArray

/-! ### Searching -/

section Search

variable {V : Type*} {pa : PortArray V}

open Scan

/-- What the innermost loop finds. -/
theorem PortArray.firstFrom_scanL3 (l3 : Fin 64 → Option V) (k : ℕ) :
    FirstFrom (fun z => if h : z < 64 then l3 ⟨z, h⟩ else none) k 64
      ((PortArray.scanL3 l3 k).map fun r => (r.2, r.1)) := by
  fun_induction PortArray.scanL3 l3 k with
  | case1 k h p hp =>
    refine ⟨le_refl k, h, ?_, fun m hlo hhi => absurd hhi (Nat.not_lt.2 hlo)⟩
    exact (dif_pos h).trans hp
  | case2 k h hp ih =>
    refine .append (fun m hlo hhi => ?_) (Nat.le_succ k) ih
    obtain rfl : m = k := Nat.le_antisymm (Nat.le_of_lt_succ hhi) hlo
    exact (dif_pos h).trans hp
  | case3 k h => exact .of_le (Nat.not_lt.1 h)

/-- The element with an index, as a function of numbers. -/
def PortArray.entry (pa : PortArray V) (n : ℕ) : Option V := pa.get (BitVec.ofNat 16 n)

/-- An index is made of the indices of the three levels. -/
theorem PortArray.entry_eq {x y z : ℕ} (hx : x < 32) (hy : y < 32) (hz : z < 64) :
    pa.entry (2048 * x + 64 * y + z) = pa.elem ⟨x, hx⟩ ⟨y, hy⟩ ⟨z, hz⟩ := by
  have hlt : 2048 * x + 64 * y + z < 2 ^ 16 := by omega
  have hval : (BitVec.ofNat 16 (2048 * x + 64 * y + z)).toNat = 2048 * x + 64 * y + z := by
    rw [BitVec.toNat_ofNat, Nat.mod_eq_of_lt hlt]
  have h1 : portArrayL1 (BitVec.ofNat 16 (2048 * x + 64 * y + z)) = ⟨x, hx⟩ :=
    Fin.ext (by rw [portArrayL1_val, hval]; show _ = x; omega)
  have h2 : portArrayL2 (BitVec.ofNat 16 (2048 * x + 64 * y + z)) = ⟨y, hy⟩ :=
    Fin.ext (by rw [portArrayL2_val, hval]; show _ = y; omega)
  have h3 : portArrayL3 (BitVec.ofNat 16 (2048 * x + 64 * y + z)) = ⟨z, hz⟩ :=
    Fin.ext (by rw [portArrayL3_val, hval]; show _ = z; omega)
  rw [PortArray.entry, PortArray.get, h1, h2, h3]

/-- What is found in a node of level 3. The sentinel is skipped. -/
theorem PortArray.firstFrom_enterL3 (h : pa.Sound) {x y : ℕ} (hx : x < 32) (hy : y < 32) (k : ℕ) :
    FirstFrom pa.entry (2048 * x + 64 * y + k) (2048 * x + 64 * y + 64)
      ((pa.enterL3 (pa.l2 (pa.l1 ⟨x, hx⟩) ⟨y, hy⟩) k).map fun r =>
        (2048 * x + 64 * y + r.2, r.1)) := by
  have hentry : ∀ z (hz : z < 64), pa.entry (2048 * x + 64 * y + z) =
      pa.l3 (pa.l2 (pa.l1 ⟨x, hx⟩) ⟨y, hy⟩) ⟨z, hz⟩ := fun z hz => entry_eq hx hy hz
  generalize pa.l2 (pa.l1 ⟨x, hx⟩) ⟨y, hy⟩ = l3 at hentry ⊢
  unfold enterL3
  split
  next =>
    have hpart : ∀ m, k ≤ m → m < 64 → pa.entry (2048 * x + 64 * y + m) =
        if hm : m < 64 then pa.l3 l3 ⟨m, hm⟩ else none := fun m _ hm => by
      rw [dif_pos hm, hentry m hm]
    have hnode := (firstFrom_scanL3 (pa.l3 l3) k).shift hpart
    rwa [Option.map_map] at hnode
  next hsentinel =>
    intro m hlo hhi
    obtain ⟨z, rfl⟩ := Nat.exists_eq_add_of_le (le_trans (Nat.le_add_right _ k) hlo)
    rw [hentry z (Nat.lt_of_add_lt_add_left hhi), not_not.1 hsentinel, h.l3_sentinel]

/-- What the loop over a node of level 2 finds: the node is behind pointer `x`. -/
theorem PortArray.firstFrom_scanL2 (h : pa.Sound) {x : ℕ} (hx : x < 32) (l2Idx l3Idx : ℕ)
    (hl3Idx : l3Idx ≤ 64) :
    FirstFrom pa.entry (2048 * x + 64 * l2Idx + l3Idx) (2048 * x + 2048)
      ((pa.scanL2 (pa.l2 (pa.l1 ⟨x, hx⟩)) l2Idx l3Idx).map fun r =>
        (2048 * x + 64 * r.2.1 + r.2.2, r.1)) := by
  fun_induction PortArray.scanL2 pa (pa.l2 (pa.l1 ⟨x, hx⟩)) l2Idx l3Idx with
  | case1 l2Idx l3Idx hlt p k hfound =>
    have hnode := firstFrom_enterL3 h hx hlt l3Idx
    rw [hfound] at hnode
    exact hnode.of_some (by omega)
  | case2 l2Idx l3Idx hlt hnone ih =>
    have hnode := firstFrom_enterL3 h hx hlt l3Idx
    rw [hnone] at hnode
    -- the carry
    have hrest := ih (Nat.zero_le 64)
    have hcarry : 2048 * x + 64 * (l2Idx + 1) + 0 = 2048 * x + 64 * l2Idx + 64 := by omega
    rw [hcarry] at hrest
    exact hnode.append (Nat.add_le_add_left hl3Idx _) hrest
  | case3 l2Idx l3Idx hge => exact .of_le (by omega)

/-- What is found behind a pointer of level 1. The sentinel is skipped. -/
theorem PortArray.firstFrom_enterL2 (h : pa.Sound) {x : ℕ} (hx : x < 32) (l2Idx l3Idx : ℕ)
    (hl3Idx : l3Idx ≤ 64) :
    FirstFrom pa.entry (2048 * x + 64 * l2Idx + l3Idx) (2048 * x + 2048)
      ((pa.enterL2 (pa.l1 ⟨x, hx⟩) l2Idx l3Idx).map fun r =>
        (2048 * x + 64 * r.2.1 + r.2.2, r.1)) := by
  unfold enterL2
  split
  next => exact firstFrom_scanL2 h hx l2Idx l3Idx hl3Idx
  next hsentinel =>
    intro m hlo hhi
    have hz : m % 64 < 64 := Nat.mod_lt m (Nat.succ_pos 63)
    have hy : m / 64 % 32 < 32 := Nat.mod_lt _ (Nat.succ_pos 31)
    have hm : m = 2048 * x + 64 * (m / 64 % 32) + m % 64 := by omega
    rw [hm, entry_eq hx hy hz, elem, not_not.1 hsentinel, h.l2_sentinel, h.l3_sentinel]

/-- What the outermost loop finds. -/
theorem PortArray.firstFrom_scanL1 (h : pa.Sound) (l1Idx l2Idx l3Idx : ℕ) (hl2Idx : l2Idx < 32)
    (hl3Idx : l3Idx ≤ 64) :
    FirstFrom pa.entry (2048 * l1Idx + 64 * l2Idx + l3Idx) 65536
      ((pa.scanL1 l1Idx l2Idx l3Idx).map fun r =>
        (2048 * r.2.1 + 64 * r.2.2.1 + r.2.2.2, r.1)) := by
  fun_induction PortArray.scanL1 pa l1Idx l2Idx l3Idx with
  | case1 l1Idx l2Idx l3Idx hlt p y z hfound =>
    have hsubtree := firstFrom_enterL2 h hlt l2Idx l3Idx hl3Idx
    rw [hfound] at hsubtree
    exact hsubtree.of_some (by omega)
  | case2 l1Idx l2Idx l3Idx hlt hnone ih =>
    have hsubtree := firstFrom_enterL2 h hlt l2Idx l3Idx hl3Idx
    rw [hnone] at hsubtree
    -- the carry
    have hrest := ih (Nat.succ_pos 31) (Nat.zero_le 64)
    have hcarry : 2048 * (l1Idx + 1) + 64 * 0 + 0 = 2048 * l1Idx + 2048 := by omega
    rw [hcarry] at hrest
    exact hsubtree.append (by omega) hrest
  | case3 l1Idx l2Idx l3Idx hge => exact .of_le (by omega)

/-! ### Indices -/

theorem PortArray.scanL3_lt {l3 : Fin 64 → Option V} {l3Idx : ℕ} {r : V × ℕ}
    (h : scanL3 l3 l3Idx = some r) : r.2 < 64 := by
  fun_induction PortArray.scanL3 l3 l3Idx with
  | case1 l3Idx hlt p hp =>
    obtain rfl := Option.some.inj h
    exact hlt
  | case2 l3Idx hlt hp ih => exact ih h
  | case3 => cases h

theorem PortArray.scanL2_lt {l2 : Fin 32 → ℕ} {l2Idx l3Idx : ℕ} {r : V × ℕ × ℕ}
    (h : pa.scanL2 l2 l2Idx l3Idx = some r) : r.2.1 < 32 ∧ r.2.2 < 64 := by
  fun_induction PortArray.scanL2 pa l2 l2Idx l3Idx with
  | case1 l2Idx l3Idx hlt p k hfound =>
    obtain rfl := Option.some.inj h
    rw [enterL3, Option.ite_none_right_eq_some] at hfound
    have hfoundLt := scanL3_lt hfound.2
    exact ⟨hlt, hfoundLt⟩
  | case2 l2Idx l3Idx hlt hnone ih => exact ih h
  | case3 => cases h

theorem PortArray.scanL1_lt {l1Idx l2Idx l3Idx : ℕ} {r : V × ℕ × ℕ × ℕ}
    (h : pa.scanL1 l1Idx l2Idx l3Idx = some r) : r.2.1 < 32 ∧ r.2.2.1 < 32 ∧ r.2.2.2 < 64 := by
  fun_induction PortArray.scanL1 pa l1Idx l2Idx l3Idx with
  | case1 l1Idx l2Idx l3Idx hlt p y z hfound =>
    obtain rfl := Option.some.inj h
    rw [enterL2, Option.ite_none_right_eq_some] at hfound
    have hfoundLt := scanL2_lt hfound.2
    exact ⟨hlt, hfoundLt⟩
  | case2 l1Idx l2Idx l3Idx hlt hnone ih => exact ih h
  | case3 => cases h

/-- The index that `next` puts together. -/
theorem portArrayIndex_eq {x y z : ℕ} (hx : x < 32) (hy : y < 32) (hz : z < 64) :
    BitVec.ofNat 32 x <<< 11 ||| BitVec.ofNat 32 y <<< 6 ||| BitVec.ofNat 32 z <<< 0 =
      BitVec.ofNat 32 (2048 * x + 64 * y + z) := by
  have hpart : ∀ {n k : ℕ}, n * 2 ^ k < 2 ^ 32 → (BitVec.ofNat 32 n <<< k).toNat = n <<< k := by
    intro n k hlt
    have hn : n < 2 ^ 32 := lt_of_le_of_lt (Nat.le_mul_of_pos_right n (Nat.two_pow_pos k)) hlt
    rw [BitVec.toNat_shiftLeft, BitVec.toNat_ofNat, Nat.mod_eq_of_lt hn, Nat.shiftLeft_eq,
      Nat.mod_eq_of_lt hlt]
  have hyz : y <<< 6 ||| z <<< 0 = y <<< 6 + z := by
    rw [Nat.shiftLeft_zero, Nat.shiftLeft_add_eq_or_of_lt hz]
  have hxyz : x <<< 11 ||| (y <<< 6 + z) = x <<< 11 + (y <<< 6 + z) := by
    rw [← Nat.shiftLeft_add_eq_or_of_lt]
    rw [Nat.shiftLeft_eq]
    omega
  apply BitVec.eq_of_toNat_eq
  rw [BitVec.toNat_or, BitVec.toNat_or, hpart (by omega), hpart (by omega), hpart (by omega),
    Nat.or_assoc, hyz, hxyz, Nat.shiftLeft_eq, Nat.shiftLeft_eq, BitVec.toNat_ofNat]
  omega

/-- The element that `next` finds from an index on, with its index. -/
def PortArray.found (pa : PortArray V) (lo : ℕ) : Option (ℕ × V) :=
  (pa.scanL1 (lo / 2048) (lo / 64 % 32) (lo % 64)).map fun r =>
    (2048 * r.2.1 + 64 * r.2.2.1 + r.2.2.2, r.1)

theorem PortArray.firstFrom_found (h : pa.Sound) (lo : ℕ) :
    FirstFrom pa.entry lo 65536 (pa.found lo) := by
  have hfound := firstFrom_scanL1 h (lo / 2048) (lo / 64 % 32) (lo % 64)
    (Nat.mod_lt _ (Nat.succ_pos 31)) (le_of_lt (Nat.mod_lt _ (Nat.succ_pos 63)))
  have hlo : 2048 * (lo / 2048) + 64 * (lo / 64 % 32) + lo % 64 = lo := by omega
  rwa [hlo] at hfound

/-- `next` returns this element, and its index. -/
theorem PortArray.nextFrom_eq (pa : PortArray V) (idx : BitVec 32) :
    pa.nextFrom idx =
      ((pa.found idx.toNat).map Prod.snd,
        ((pa.found idx.toNat).map fun x => BitVec.ofNat 32 x.1).getD 65536) := by
  have h1 : (idx >>> 11).toNat = idx.toNat / 2048 := by
    rw [BitVec.toNat_ushiftRight, Nat.shiftRight_eq_div_pow]
  have h2 : (portArrayL2 (idx.setWidth 16) : ℕ) = idx.toNat / 64 % 32 := by
    rw [portArrayL2_val, BitVec.toNat_setWidth]
    omega
  have h3 : (portArrayL3 (idx.setWidth 16) : ℕ) = idx.toNat % 64 := by
    rw [portArrayL3_val, BitVec.toNat_setWidth]
    omega
  unfold nextFrom found
  rw [h1, h2, h3]
  cases hscan : pa.scanL1 (idx.toNat / 2048) (idx.toNat / 64 % 32) (idx.toNat % 64) with
  | none => rfl
  | some r =>
    obtain ⟨hx, hy, hz⟩ := scanL1_lt hscan
    exact Prod.ext rfl (portArrayIndex_eq hx hy hz)

/-! ### Visits -/

/-- The elements that are not null, as far as `P` holds of their indices, in ascending order. -/
structure Visits (values : BitVec 16 → Option V) (P : BitVec 32 → Prop)
    (visited : List (BitVec 32 × V)) : Prop where
  /-- The indices ascend. -/
  ascending : visited.Pairwise fun x y => x.1 < y.1
  /-- These elements are visited, and no others. -/
  mem_iff : ∀ idx p, (idx, p) ∈ visited ↔
    P idx ∧ idx.toNat < 65536 ∧ values (idx.setWidth 16) = some p

/-- The loop of the callers goes on behind every element that is found. -/
theorem PortArray.visit_eq (h : pa.Sound) (fuel : ℕ) (idx : BitVec 32) :
    pa.visit fuel (pa.nextFrom idx) =
      (Scan.visit pa.found fuel idx.toNat).map fun visited =>
        (visited.map fun x => (BitVec.ofNat 32 x.1, x.2), 65536) := by
  induction fuel generalizing idx with
  | zero => rfl
  | succ fuel ih =>
    have hfirst := firstFrom_found h idx.toNat
    rw [nextFrom_eq, Scan.visit]
    cases hfound : pa.found idx.toNat with
    | none => rfl
    | some x =>
      rw [hfound] at hfirst
      have hlt : x.1 < 65536 := hfirst.2.1
      have hsucc : (BitVec.ofNat 32 x.1 + 1).toNat = x.1 + 1 := by
        rw [BitVec.toNat_add, BitVec.toNat_ofNat]
        show (x.1 % 2 ^ 32 + 1) % 2 ^ 32 = x.1 + 1
        omega
      show (pa.visit fuel (pa.nextFrom (BitVec.ofNat 32 x.1 + 1))).map _ = _
      rw [ih, hsucc]
      dsimp only
      cases Scan.visit pa.found fuel (x.1 + 1) with
      | none => rfl
      | some visited => rfl

/-- The loop of the callers visits the elements that are not null from an index on. -/
theorem PortArray.visits_nextFrom (h : pa.Sound) (idx : BitVec 32) {fuel : ℕ}
    (hfuel : 65536 < fuel) : ∃ visited,
    pa.visit fuel (pa.nextFrom idx) = some (visited, 65536) ∧
      Visits pa.get (fun i => idx ≤ i) visited := by
  obtain ⟨visited, hvisit, hsorted, hmem⟩ := Scan.visit_spec (firstFrom_found h)
    (lt_of_le_of_lt (Nat.sub_le 65536 idx.toNat) hfuel)
  rw [visit_eq h, hvisit]
  refine ⟨_, rfl, ?_, fun i p => ?_⟩
  · refine List.pairwise_map.2 (hsorted.imp_of_mem fun {x y} hx hy hxy => ?_)
    have hxlt := ((hmem x).1 hx).2.1
    have hylt := ((hmem y).1 hy).2.1
    rw [BitVec.lt_def, BitVec.toNat_ofNat, BitVec.toNat_ofNat]
    omega
  -- indices are numbers here, below 65536
  · have hentry : pa.entry i.toNat = pa.get (i.setWidth 16) := by
      rw [entry, BitVec.ofNat_toNat]
    rw [List.mem_map, BitVec.le_def, ← hentry]
    constructor
    · rintro ⟨x, hx, heq⟩
      obtain ⟨hlo, hhi, hx⟩ := (hmem x).1 hx
      obtain ⟨rfl, rfl⟩ := Prod.mk.inj heq
      have hval : (BitVec.ofNat 32 x.1).toNat = x.1 := by
        rw [BitVec.toNat_ofNat]
        omega
      rw [hval]
      exact ⟨hlo, hhi, hx⟩
    · intro hi
      have hval : BitVec.ofNat 32 i.toNat = i := by rw [BitVec.ofNat_toNat, BitVec.setWidth_eq]
      exact ⟨(i.toNat, p), (hmem _).2 hi, Prod.ext hval rfl⟩

end Search

/-! ### Runs -/

/-- A call that changes an array. -/
inductive PortArrayCall (V : Type*)
  /-- `port_array_init`. -/
  | init
  /-- `port_array_set`. -/
  | set (idx : BitVec 16) (p : Option V)

namespace PortArrayCall

variable {V : Type*}

/-- The call is about the element: every one is when an array is initialized. -/
def Concerns (idx : BitVec 16) : PortArrayCall V → Bool
  | .init => true
  | .set i _ => i == idx

/-- The value that the call gives an element. -/
def value : PortArrayCall V → Option V
  | .init => none
  | .set _ p => p

end PortArrayCall

section Runs

variable {V : Type*} {calls : List (PortArrayCall V)} {idx : BitVec 16}

/-- The array behind a call. -/
def PortArray.call (pa : PortArray V) : PortArrayCall V → PortArray V
  | .init => pa.init
  | .set idx p => pa.set idx p

/-- The last value that an element has been set to. -/
def lastSet (calls : List (PortArrayCall V)) (idx : BitVec 16) : Option V :=
  (calls.filter (·.Concerns idx)).getLast?.bind PortArrayCall.value

theorem lastSet_concat (call : PortArrayCall V) :
    lastSet (calls ++ [call]) idx =
      if call.Concerns idx then call.value else lastSet calls idx := by
  unfold lastSet
  rw [List.filter_append, List.filter_singleton]
  cases call.Concerns idx with
  | true => simp
  | false => simp

/-- Elements have the values that they have been set to last. -/
theorem sound_calls (calls : List (PortArrayCall V)) :
    (calls.foldl PortArray.call PortArray.start.init).Sound ∧
      (calls.foldl PortArray.call PortArray.start.init).get = lastSet calls := by
  induction calls using List.reverseRecOn with
  | nil => exact PortArray.sound_init_start
  | append_singleton calls call ih =>
    obtain ⟨hsound, hget⟩ := ih
    rw [List.foldl_append]
    generalize calls.foldl PortArray.call PortArray.start.init = pa at hsound hget ⊢
    cases call with
    | init =>
      refine ⟨(PortArray.sound_init hsound).1, (PortArray.sound_init hsound).2.trans ?_⟩
      funext idx
      rw [lastSet_concat]
      rfl
    | set i p =>
      refine ⟨(PortArray.sound_set hsound i p).1, (PortArray.sound_set hsound i p).2.trans ?_⟩
      funext idx
      rw [lastSet_concat, Function.update_apply, hget]
      refine if_congr ?_ rfl rfl
      show idx = i ↔ (i == idx) = true
      rw [beq_iff_eq, eq_comm]

/-- Behind any calls on an array that has been initialized, every element is what it was set to
last, and the loops that begin with `port_array_first`, or with `port_array_next` at an index below
`2 ^ 32 - 1`, visit the elements that are not null, in the second case those with greater indices,
and end with index 65536. -/
theorem portArray_get_and_visit (calls : List (PortArrayCall V)) :
    let pa := calls.foldl PortArray.call PortArray.start.init
    (∀ idx, pa.get idx = lastSet calls idx) ∧
      ∀ fuel, 65536 < fuel →
        (∃ visited, pa.visit fuel pa.first = some (visited, 65536) ∧
          Visits (lastSet calls) (fun _ => True) visited) ∧
        ∀ start : BitVec 32, start.toNat < 2 ^ 32 - 1 → ∃ visited,
          pa.visit fuel (pa.next start) = some (visited, 65536) ∧
            Visits (lastSet calls) (fun idx => start < idx) visited := by
  obtain ⟨hsound, hget⟩ := sound_calls calls
  intro pa
  refine ⟨fun idx => congrFun hget idx, fun fuel hfuel => ⟨?_, fun start hstart => ?_⟩⟩
  · obtain ⟨visited, hvisit, hvisits⟩ := PortArray.visits_nextFrom hsound 0 hfuel
    rw [hget] at hvisits
    refine ⟨visited, hvisit, hvisits.ascending, fun idx p => ?_⟩
    rw [hvisits.mem_iff]
    exact and_congr_left' (iff_of_true (BitVec.le_def.2 (Nat.zero_le _)) trivial)
  · obtain ⟨visited, hvisit, hvisits⟩ := PortArray.visits_nextFrom hsound (start + 1) hfuel
    rw [hget] at hvisits
    refine ⟨visited, hvisit, hvisits.ascending, fun idx p => ?_⟩
    rw [hvisits.mem_iff]
    -- below the greatest index the next one does not wrap around
    have hsucc : (start + 1).toNat = start.toNat + 1 := by
      rw [BitVec.toNat_add]
      show (start.toNat + 1) % 2 ^ 32 = start.toNat + 1
      omega
    refine and_congr_left' ?_
    rw [BitVec.le_def, hsucc, BitVec.lt_def, Nat.succ_le_iff]

/-- Two elements that have been set, one of them to the null pointer behind. -/
theorem portArray_get_and_visit_two_ports :
    let pa := [.set 3 (some 7), .set 70 (some 8), .set 3 none].foldl PortArray.call
      (PortArray.start : PortArray ℕ).init
    pa.get 3 = none ∧ pa.get 70 = some 8 ∧ pa.visit 65537 (pa.next 65535) = some ([], 65536) := by
  obtain ⟨hget, hvisits⟩ :=
    portArray_get_and_visit [.set 3 (some 7), .set 70 (some 8), .set 3 none]
  obtain ⟨visited, hvisit, hvisited⟩ :=
    (hvisits 65537 (by decide)).2 65535 (by decide)
  have hempty : visited = [] := by
    refine List.eq_nil_iff_forall_not_mem.2 fun x hx => ?_
    obtain ⟨hgt, hlt, -⟩ := (hvisited.mem_iff x.1 x.2).1 hx
    rw [BitVec.lt_def] at hgt
    exact absurd hlt (Nat.not_lt.2 hgt)
  exact ⟨hget 3, hget 70, hempty ▸ hvisit⟩

end Runs

end OfAgent
