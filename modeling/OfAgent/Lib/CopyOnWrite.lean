import Mathlib.Data.Nat.Notation
import Mathlib.Logic.Function.Basic

/-!
# Nodes that are copied when they are first written

A table of pointers to nodes. All pointers begin at one shared node, the sentinel, which is never
written: a pointer that is about to be written through gets a node of its own first, with the same
contents.

* `Table`: the pointers, the nodes and the next free address; `Table.view`: what the pointers point
  at.
* `Table.touch`: a pointer gets a node of its own; `Table.write`: a node is written.
* `Table.Separate`: no two pointers share a node other than the sentinel, and no node is free.
* `Table.view_touch`, `Table.view_write`: the first changes no contents, and the second those behind
  one pointer.
-/

namespace CopyOnWrite

/-- Pointers to nodes. -/
structure Table (κ ν : Type*) where
  /-- The pointers: the addresses of nodes. -/
  ptr : κ → ℕ
  /-- The nodes at the addresses. -/
  node : ℕ → ν
  /-- The next address for a copy. -/
  fresh : ℕ

namespace Table

variable {κ ν : Type*} [DecidableEq κ] {s : ℕ} {t : Table κ ν} {k j : κ}

/-- What a pointer points at. -/
def view (t : Table κ ν) (k : κ) : ν := t.node (t.ptr k)

/-- A pointer to the sentinel `s` gets a copy of it. -/
def touch (s : ℕ) (k : κ) (t : Table κ ν) : Table κ ν :=
  if t.ptr k = s then
    ⟨Function.update t.ptr k t.fresh, Function.update t.node t.fresh (t.node s), t.fresh + 1⟩
  else t

/-- The node at an address is written. -/
def write (a : ℕ) (n : ν) (t : Table κ ν) : Table κ ν :=
  { t with node := Function.update t.node a n }

/-- Addresses of copies are above the sentinel, no copy is free, and no two pointers share one. -/
structure Separate (s : ℕ) (t : Table κ ν) : Prop where
  /-- The sentinel is no copy. -/
  sentinel : s < t.fresh
  /-- Nodes are not free. -/
  below : ∀ k, t.ptr k < t.fresh
  /-- Copies are not shared. -/
  inj : ∀ k j, s < t.ptr k → t.ptr k = t.ptr j → k = j

/-! ### Copies -/

theorem ptr_touch_of_ne (s : ℕ) (hne : j ≠ k) : (t.touch s k).ptr j = t.ptr j := by
  unfold touch
  split
  next => exact Function.update_of_ne hne _ _
  next => rfl

/-- The pointer is no longer one to the sentinel. -/
theorem lt_ptr_touch (h : t.Separate s) (hk : s ≤ t.ptr k) : s < (t.touch s k).ptr k := by
  unfold touch
  split
  next =>
    show s < Function.update t.ptr k t.fresh k
    rw [Function.update_self]
    exact h.sentinel
  next hne => exact Nat.lt_of_le_of_ne hk (Ne.symm hne)

theorem node_touch (s : ℕ) (k : κ) {a : ℕ} (ha : a < t.fresh) :
    (t.touch s k).node a = t.node a := by
  unfold touch
  split
  next => exact Function.update_of_ne (Nat.ne_of_lt ha) _ _
  next => rfl

/-- A copy has the contents of the sentinel. -/
theorem view_touch (h : t.Separate s) (k : κ) : (t.touch s k).view = t.view := by
  funext j
  by_cases heq : j = k ∧ t.ptr k = s
  · obtain ⟨rfl, hs⟩ := heq
    have hcopy : Function.update t.node t.fresh (t.node s) (Function.update t.ptr j t.fresh j) =
        t.node s := by
      rw [Function.update_self, Function.update_self]
    rw [touch, if_pos hs, view, view, hs]
    exact hcopy
  · have hptr : (t.touch s k).ptr j = t.ptr j := by
      by_cases hs : t.ptr k = s
      · exact ptr_touch_of_ne s fun hj => heq ⟨hj, hs⟩
      · rw [touch, if_neg hs]
    rw [view, hptr, node_touch s k (h.below j), view]

theorem Separate.touch (h : t.Separate s) (k : κ) : (t.touch s k).Separate s := by
  unfold Table.touch
  split
  next hs =>
    -- the address of the copy is that of no other pointer
    have hother : ∀ j, j ≠ k → Function.update t.ptr k t.fresh j = t.ptr j := fun j hne =>
      Function.update_of_ne hne _ _
    have hself : Function.update t.ptr k t.fresh k = t.fresh := Function.update_self _ _ _
    refine ⟨Nat.lt_succ_of_lt h.sentinel, fun j => ?_, fun i j hi hij => ?_⟩
    · show Function.update t.ptr k t.fresh j < t.fresh + 1
      by_cases hj : j = k
      · rw [hj, hself]
        exact Nat.lt_succ_self _
      · rw [hother j hj]
        exact Nat.lt_succ_of_lt (h.below j)
    · replace hi : s < Function.update t.ptr k t.fresh i := hi
      replace hij : Function.update t.ptr k t.fresh i = Function.update t.ptr k t.fresh j := hij
      by_cases hik : i = k
      · by_cases hjk : j = k
        · rw [hik, hjk]
        · rw [hik, hself, hother j hjk] at hij
          exact absurd hij.symm (Nat.ne_of_lt (h.below j))
      · rw [hother i hik] at hi hij
        by_cases hjk : j = k
        · rw [hjk, hself] at hij
          exact absurd hij (Nat.ne_of_lt (h.below i))
        · rw [hother j hjk] at hij
          exact h.inj i j hi hij
  next => exact h

omit [DecidableEq κ] in
theorem Separate.of_le (hfresh : s < t.fresh) (hptr : ∀ k, t.ptr k ≤ s) : t.Separate s where
  sentinel := hfresh
  below k := Nat.lt_of_le_of_lt (hptr k) hfresh
  inj k _ hk _ := absurd hk (Nat.not_lt.2 (hptr k))

omit [DecidableEq κ] in
/-- Pointers that are made pointers to the sentinel share no copy. -/
theorem Separate.of_ptr {t' : Table κ ν} (h : t.Separate s) (hfresh : t'.fresh = t.fresh)
    (hptr : ∀ k, t'.ptr k = t.ptr k ∨ t'.ptr k = s) : t'.Separate s where
  sentinel := hfresh ▸ h.sentinel
  below k := by
    rw [hfresh]
    obtain hk | hk := hptr k
    · exact hk ▸ h.below k
    · exact hk ▸ h.sentinel
  inj k j hk hkj := by
    obtain hk' | hk' := hptr k
    · obtain hj | hj := hptr j
      · rw [hk', hj] at hkj
        exact h.inj k j (hk' ▸ hk) hkj
      · exact absurd (hkj.trans hj) (Nat.ne_of_gt hk)
    · exact absurd hk' (Nat.ne_of_gt hk)

/-! ### Writing -/

omit [DecidableEq κ] in
theorem Separate.write (h : t.Separate s) (a : ℕ) (n : ν) : (t.write a n).Separate s :=
  ⟨h.sentinel, h.below, h.inj⟩

/-- Writing a copy changes what one pointer points at. -/
theorem view_write (h : t.Separate s) (hk : s < t.ptr k) (n : ν) :
    (t.write (t.ptr k) n).view = Function.update t.view k n := by
  funext j
  show Function.update t.node (t.ptr k) n (t.ptr j) = _
  by_cases hj : j = k
  · rw [hj, Function.update_self, Function.update_self]
  · have hptr : t.ptr j ≠ t.ptr k := fun heq => hj (h.inj k j hk heq.symm).symm
    rw [Function.update_of_ne hptr, Function.update_of_ne hj, view]

end Table

end CopyOnWrite
