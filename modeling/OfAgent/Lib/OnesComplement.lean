import Mathlib.Algebra.BigOperators.Group.List.Basic
import Mathlib.Algebra.GroupWithZero.Nat

/-!
# One's-complement arithmetic on 16-bit words

Addition with end-around carry, the checksum that is made of it, and how the checksum changes with
the words. Words are compared as numbers of the arithmetic, in which all zeros and all ones are the
same zero.

* `Equal`: equality of the numbers.
* `carry`: one end-around carry. `add`, `sum`, `checksum`.
* `toNat_sum`: the sum of words is the sum of their values, carried around until it is a word.
* `replace`, `checksum_set`: the checksum after one word has been replaced, from the one before.
* `swap_checksum`: the arithmetic does not depend on the order of the bytes in a word.
-/

namespace OnesComplement

/-! ### Equality -/

/-- The words are the same number. -/
def Equal (a b : BitVec 16) : Prop := a.toNat % 65535 = b.toNat % 65535

instance (a b : BitVec 16) : Decidable (Equal a b) := inferInstanceAs (Decidable (_ = _))

/-- Every word is the same number as itself. -/
@[simp]
theorem equal_self (a : BitVec 16) : Equal a a := rfl

/-! ### Carrying around -/

/-- One end-around carry: what does not fit a word is added to its low end. -/
def carry (n : ℕ) : ℕ := n % 65536 + n / 65536

theorem carry_mod (n : ℕ) : carry n % 65535 = n % 65535 := by
  unfold carry
  omega

/-- The word with the value of a number, carried around as often as need be. -/
def reduce (n : ℕ) : ℕ := if n = 0 then 0 else (n - 1) % 65535 + 1

theorem reduce_le (n : ℕ) : reduce n ≤ 65535 := by
  unfold reduce
  split <;> omega

theorem reduce_mod (n : ℕ) : reduce n % 65535 = n % 65535 := by
  unfold reduce
  split <;> omega

/-- Two values that fit a word are equal when they are the same number and none of them alone is the
first zero. -/
theorem eq_of_mod_eq {a b : ℕ} (ha : a ≤ 65535) (hb : b ≤ 65535) (hmod : a % 65535 = b % 65535)
    (hzero : a = 0 ↔ b = 0) : a = b := by
  omega

/-- If one carry is enough, it gives the reduced value. -/
theorem carry_eq_reduce {n : ℕ} (h : carry n < 65536) : carry n = reduce n := by
  refine eq_of_mod_eq (Nat.le_of_lt_succ h) (reduce_le n)
    ((carry_mod n).trans (reduce_mod n).symm) ?_
  unfold carry reduce
  split <;> omega

/-! ### Sums -/

/-- The sum of two words. -/
def add (a b : BitVec 16) : BitVec 16 := BitVec.ofNat 16 (carry (a.toNat + b.toNat))

theorem toNat_add (a b : BitVec 16) : (add a b).toNat = reduce (a.toNat + b.toNat) := by
  have ha := a.isLt
  have hb := b.isLt
  have hfits : carry (a.toNat + b.toNat) < 65536 := by
    unfold carry
    omega
  rw [add, BitVec.toNat_ofNat, Nat.mod_eq_of_lt hfits, carry_eq_reduce hfits]

/-- The values of the words, added up. -/
def total (ws : List (BitVec 16)) : ℕ := (ws.map BitVec.toNat).sum

/-- The values of no words. -/
@[simp]
theorem total_nil : total [] = 0 := rfl

/-- The values of one more word. -/
@[simp]
theorem total_cons (w : BitVec 16) (ws : List (BitVec 16)) :
    total (w :: ws) = w.toNat + total ws := by
  rw [total, List.map_cons, List.sum_cons, total]

/-- The sum of words. -/
def sum (ws : List (BitVec 16)) : BitVec 16 := ws.foldr add 0

/-- The value of a sum of words. -/
theorem toNat_sum (ws : List (BitVec 16)) : (sum ws).toNat = reduce (total ws) := by
  induction ws with
  | nil => rfl
  | cons w ws ih =>
    change (add w (sum ws)).toNat = _
    rw [toNat_add, ih, total_cons]
    refine eq_of_mod_eq (reduce_le _) (reduce_le _) ?_ ?_
    · rw [reduce_mod, reduce_mod, Nat.add_mod, reduce_mod, ← Nat.add_mod]
    · unfold reduce
      split <;> split <;> split <;> omega

/-! ### Checksums -/

/-- The complement of the sum of words. -/
def checksum (ws : List (BitVec 16)) : BitVec 16 := ~~~sum ws

theorem toNat_not (a : BitVec 16) : (~~~a).toNat = 65535 - a.toNat := by
  rw [BitVec.toNat_not]

theorem toNat_checksum (ws : List (BitVec 16)) :
    (checksum ws).toNat = 65535 - reduce (total ws) := by
  rw [checksum, toNat_not, toNat_sum]

/-- The checksum `c` after a word `old` under it has been replaced by `new`. -/
def replace (c old new : BitVec 16) : BitVec 16 := ~~~add (add (~~~c) (~~~old)) new

/-- The value of a checksum after a replacement. -/
theorem toNat_replace (c old new : BitVec 16) :
    (replace c old new).toNat =
      65535 - reduce (65535 - c.toNat + (65535 - old.toNat) + new.toNat) := by
  rw [replace, toNat_not, toNat_add, toNat_add, toNat_not, toNat_not]
  congr 1
  refine eq_of_mod_eq (reduce_le _) (reduce_le _) ?_ ?_
  · rw [reduce_mod, reduce_mod, Nat.add_mod, reduce_mod, ← Nat.add_mod]
  · unfold reduce
    split <;> split <;> split <;> omega

/-- What a word is the checksum of, it is the checksum of after a replacement. -/
theorem equal_replace_iff {c old new r : BitVec 16} :
    Equal (replace c old new) r ↔ (r.toNat + new.toNat) % 65535 =
      (c.toNat + old.toNat) % 65535 := by
  have hle := reduce_le (65535 - c.toNat + (65535 - old.toNat) + new.toNat)
  have hmod := reduce_mod (65535 - c.toNat + (65535 - old.toNat) + new.toNat)
  have hc := c.isLt
  have hold := old.isLt
  have hnew := new.isLt
  rw [Equal, toNat_replace]
  omega

/-- The values of the words after one has been replaced. -/
theorem total_set {ws : List (BitVec 16)} {i : ℕ} {old : BitVec 16} (hget : ws[i]? = some old)
    (new : BitVec 16) :
    total (ws.set i new) + old.toNat = total ws + new.toNat := by
  induction ws generalizing i with
  | nil => cases hget
  | cons w ws ih =>
    cases i with
    | zero =>
      rw [List.getElem?_cons_zero, Option.some.injEq] at hget
      subst hget
      rw [List.set_cons_zero, total_cons, total_cons]
      omega
    | succ i =>
      have hrest := ih (i := i) hget
      rw [List.set_cons_succ, total_cons, total_cons]
      omega

/-- Whether a word is the checksum of words. -/
theorem equal_checksum_iff {ws : List (BitVec 16)} {c : BitVec 16} :
    Equal (checksum ws) c ↔ (c.toNat + total ws) % 65535 = 0 := by
  have hle := reduce_le (total ws)
  have hmod := reduce_mod (total ws)
  have hc := c.isLt
  rw [Equal, toNat_checksum]
  omega

/-- The checksum of words of which one has been replaced. -/
theorem checksum_set {ws : List (BitVec 16)} {i : ℕ} {old c : BitVec 16} (hget : ws[i]? = some old)
    (hc : Equal (checksum ws) c) (new : BitVec 16) :
    Equal (checksum (ws.set i new)) (replace c old new) := by
  have htotal := total_set hget new
  have hreplace : ((replace c old new).toNat + new.toNat) % 65535 = (c.toNat + old.toNat) % 65535 :=
    equal_replace_iff.1 (equal_self _)
  rw [equal_checksum_iff] at hc ⊢
  omega

/-! ### The order of the bytes -/

/-- The word with its bytes exchanged. -/
def swap (x : BitVec 16) : BitVec 16 := x.extractLsb' 0 8 ++ x.extractLsb' 8 8

/-- The value of a word with its bytes exchanged. -/
theorem toNat_swap (x : BitVec 16) : (swap x).toNat = x.toNat % 256 * 256 + x.toNat / 256 := by
  have hx := x.isLt
  rw [swap, BitVec.toNat_append, BitVec.extractLsb'_toNat, BitVec.extractLsb'_toNat,
    Nat.shiftLeft_eq,
    Nat.shiftRight_eq_div_pow, Nat.shiftRight_eq_div_pow, Nat.or_comm]
  have hlow : x.toNat / 2 ^ 8 % 2 ^ 8 < 2 ^ 8 := Nat.mod_lt _ (by decide)
  rw [Nat.or_comm, ← Nat.shiftLeft_eq, ← Nat.shiftLeft_add_eq_or_of_lt hlow, Nat.shiftLeft_eq]
  omega

/-- Exchanging the bytes twice changes nothing. -/
@[simp]
theorem swap_swap (x : BitVec 16) : swap (swap x) = x := by
  have hx := x.isLt
  apply BitVec.eq_of_toNat_eq
  rw [toNat_swap, toNat_swap]
  omega

/-- Exchanging the bytes of the words multiplies the number by 256. -/
theorem total_map_swap (ws : List (BitVec 16)) :
    total (ws.map swap) % 65535 = 256 * total ws % 65535 := by
  induction ws with
  | nil => rfl
  | cons w ws ih =>
    have hw := w.isLt
    rw [List.map_cons, total_cons, total_cons, toNat_swap]
    omega

/-- Sums that are the same number are so for either order of the bytes. -/
theorem total_map_swap_mod_iff (xs ys : List (BitVec 16)) :
    total (xs.map swap) % 65535 = total (ys.map swap) % 65535 ↔
      total xs % 65535 = total ys % 65535 := by
  rw [total_map_swap, total_map_swap]
  omega

/-- Only zeros add up to zero, whatever the order of their bytes. -/
theorem total_map_swap_eq_zero_iff (ws : List (BitVec 16)) :
    total (ws.map swap) = 0 ↔ total ws = 0 := by
  induction ws with
  | nil => exact Iff.rfl
  | cons w ws ih =>
    have hw := w.isLt
    rw [List.map_cons, total_cons, total_cons, toNat_swap]
    omega

/-- The sum does not depend on the order of the bytes in a word. -/
theorem swap_sum (ws : List (BitVec 16)) : swap (sum ws) = sum (ws.map swap) := by
  have hmod := total_map_swap ws
  have hzero := total_map_swap_eq_zero_iff ws
  have hle := reduce_le (total ws)
  have hred := reduce_mod (total ws)
  apply BitVec.eq_of_toNat_eq
  rw [toNat_swap, toNat_sum, toNat_sum]
  refine eq_of_mod_eq (by omega) (reduce_le _) ?_ ?_
  · rw [reduce_mod]
    omega
  · have hiff : ∀ n, reduce n = 0 ↔ n = 0 := fun n => by
      unfold reduce
      split <;> omega
    rw [hiff, hzero, ← hiff (total ws)]
    omega

/-- Complementing exchanges with exchanging the bytes. -/
theorem swap_not (x : BitVec 16) : swap (~~~x) = ~~~swap x := by
  have hx := x.isLt
  apply BitVec.eq_of_toNat_eq
  rw [toNat_not, toNat_swap, toNat_swap, toNat_not]
  omega

/-- The checksum does not depend on the order of the bytes in a word. -/
theorem swap_checksum (ws : List (BitVec 16)) : swap (checksum ws) = checksum (ws.map swap) := by
  rw [checksum, swap_not, swap_sum, checksum]

end OnesComplement
