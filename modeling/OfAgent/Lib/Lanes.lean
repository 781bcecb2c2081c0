import Mathlib.Algebra.BigOperators.Group.Finset.Piecewise
import Mathlib.Algebra.Order.BigOperators.Group.Finset
import Mathlib.Algebra.BigOperators.Group.Multiset.Basic
import Mathlib.Algebra.BigOperators.Ring.Finset
import Mathlib.Data.Fintype.Basic

/-!
# Queues side by side

A family of queues, of which one at a time is changed at an end.

* `contents`: all elements together, without their order.
* `contents_push`, `contents_pop`: an element is put behind one of the queues, or taken from its
  front; `sum_length_push`, `sum_length_pop`: the lengths of the queues then.
* `round`: all indices in turn; `roundRobin`: the first queue with an element, going round;
  `exists_roundRobin`.
* `longest`: the scan for a longest queue, with a choice among those of one length;
  `length_le_longest`.
-/

open scoped BigOperators

namespace Lanes

theorem coe_concat {α : Type*} (l : List α) (a : α) :
    ((l ++ [a] : List α) : Multiset α) = a ::ₘ (l : Multiset α) :=
  Multiset.coe_eq_coe.2 (List.perm_append_singleton a l)

variable {ι α : Type*} {lanes : ι → List α}

section Contents

variable [Fintype ι] [DecidableEq ι]

/-- All elements of the queues. -/
def contents (lanes : ι → List α) : Multiset α := ∑ i, (lanes i : Multiset α)

omit [DecidableEq ι] in
theorem card_contents (lanes : ι → List α) :
    (contents lanes).card = ∑ i, (lanes i).length := by
  simp [contents]

/-- The elements after a change of one queue, with those that it had before. -/
theorem contents_update (lanes : ι → List α) (i : ι) (l : List α) :
    contents (Function.update lanes i l) + lanes i = l + contents lanes := by
  have hupdate : (fun j => (Function.update lanes i l j : Multiset α)) =
      Function.update (fun j => (lanes j : Multiset α)) i l := by
    funext j
    by_cases hj : j = i
    · subst hj
      simp
    · simp [Function.update_of_ne hj]
  have hrest : (∑ j ∈ Finset.univ \ {i}, (lanes j : Multiset α)) + lanes i =
      ∑ j, (lanes j : Multiset α) := by
    rw [Finset.sdiff_singleton_eq_erase]
    exact Finset.sum_erase_add _ _ (Finset.mem_univ i)
  rw [contents, contents, hupdate, Finset.sum_update_of_mem (Finset.mem_univ i), add_assoc, hrest]

theorem contents_push (lanes : ι → List α) (i : ι) (a : α) :
    contents (Function.update lanes i (lanes i ++ [a])) = a ::ₘ contents lanes := by
  have h := contents_update lanes i (lanes i ++ [a])
  rw [coe_concat, Multiset.cons_add, ← Multiset.add_cons, add_comm] at h
  exact add_left_cancel h

/-- An element is taken from the front of a queue. -/
theorem contents_pop {i : ι} {a : α} {rest : List α} (h : lanes i = a :: rest) :
    contents lanes = a ::ₘ contents (Function.update lanes i rest) := by
  have hupdate := contents_update lanes i rest
  rw [h, ← Multiset.cons_coe, Multiset.add_cons, add_comm, ← Multiset.add_cons] at hupdate
  exact (add_left_cancel hupdate).symm

omit [DecidableEq ι] in
theorem sum_length_eq (lanes : ι → List α) :
    ∑ i, ((lanes i).length : ℤ) = ((contents lanes).card : ℤ) := by
  rw [card_contents, Nat.cast_sum]

/-- The lengths when an element is put behind a queue. -/
theorem sum_length_push (lanes : ι → List α) (i : ι) (a : α) :
    ∑ j, ((Function.update lanes i (lanes i ++ [a]) j).length : ℤ) =
      (∑ j, ((lanes j).length : ℤ)) + 1 := by
  rw [sum_length_eq, sum_length_eq, contents_push, Multiset.card_cons, Nat.cast_succ]

theorem sum_length_pop {i : ι} {a : α} {rest : List α} (h : lanes i = a :: rest) :
    ∑ j, ((Function.update lanes i rest j).length : ℤ) = (∑ j, ((lanes j).length : ℤ)) - 1 := by
  rw [sum_length_eq, sum_length_eq, contents_pop h, Multiset.card_cons, Nat.cast_succ]
  exact (add_sub_cancel_right _ _).symm

omit [DecidableEq ι] in
theorem exists_ne_nil (h : 0 < ∑ i, ((lanes i).length : ℤ)) : ∃ i, lanes i ≠ [] := by
  obtain ⟨i, -, hi⟩ := Finset.exists_lt_of_sum_lt (f := fun _ => (0 : ℤ)) (by simpa using h)
  exact ⟨i, List.ne_nil_of_length_pos (Int.natCast_pos.1 hi)⟩

end Contents

/-- The indices in turn, beginning with `start`. -/
def round {n : ℕ} (start : Fin n) : List (Fin n) :=
  (List.range' start n).map fun i => ⟨i % n, Nat.mod_lt i start.pos⟩

theorem mem_round {n : ℕ} (start j : Fin n) : j ∈ round start := by
  have hstart := start.isLt
  have hj := j.isLt
  by_cases hle : (start : ℕ) ≤ j
  · exact List.mem_map.2 ⟨j, List.mem_range'_1.2 ⟨hle, by omega⟩, Fin.ext (Nat.mod_eq_of_lt hj)⟩
  · have hmod : ((j : ℕ) + n) % n = j := by rw [Nat.add_mod_right, Nat.mod_eq_of_lt hj]
    exact List.mem_map.2 ⟨j + n, List.mem_range'_1.2 ⟨by omega, by omega⟩, Fin.ext hmod⟩

/-- The first queue with an element, going round from `start`. -/
def roundRobin {n : ℕ} (lanes : Fin n → List α) (start : Fin n) : Option (Fin n) :=
  (round start).find? fun j => (lanes j).length ≠ 0

/-- If some queue has an element, one is found that has. -/
theorem exists_roundRobin {n : ℕ} {lanes : Fin n → List α} {j : Fin n} (h : lanes j ≠ [])
    (start : Fin n) : ∃ k, roundRobin lanes start = some k ∧ lanes k ≠ [] := by
  cases hfind : roundRobin lanes start with
  | none =>
    rw [roundRobin, List.find?_eq_none] at hfind
    have hempty := hfind j (mem_round start j)
    simp [List.length_eq_zero_iff, h] at hempty
  | some k =>
    refine ⟨k, rfl, fun hnil => ?_⟩
    have hlength := List.find?_some hfind
    simp [hnil] at hlength

/-- The scan for a longest queue: `best` is the longest one so far, and `ties` says how many there
are of its length. -/
def longest (lanes : ι → List α) (choose : ι → ℕ → Bool) : List ι → ι → ℕ → ι
  | [], best, _ => best
  | i :: is, best, ties =>
      if (lanes best).length < (lanes i).length then longest lanes choose is i 1
      else if (lanes best).length = (lanes i).length then
        longest lanes choose is (if choose i (ties + 1) then i else best) (ties + 1)
      else longest lanes choose is best ties

/-- No queue is longer than the one that is found. -/
theorem length_le_longest (lanes : ι → List α) (choose : ι → ℕ → Bool) (is : List ι) (best : ι)
    (ties : ℕ) :
    (lanes best).length ≤ (lanes (longest lanes choose is best ties)).length ∧
      ∀ i ∈ is, (lanes i).length ≤ (lanes (longest lanes choose is best ties)).length := by
  induction is generalizing best ties with
  | nil => exact ⟨le_rfl, fun i hi => absurd hi List.not_mem_nil⟩
  | cons i is ih =>
    rw [longest]
    split
    next hlt =>
      obtain ⟨hbest, hrest⟩ := ih i 1
      refine ⟨hlt.le.trans hbest, fun j hj => ?_⟩
      rcases List.mem_cons.1 hj with rfl | hj
      · exact hbest
      · exact hrest j hj
    next hle =>
      split
      next heq =>
        obtain ⟨hbest, hrest⟩ := ih (if choose i (ties + 1) then i else best) (ties + 1)
        -- either choice has the same length
        have hlength : (lanes (if choose i (ties + 1) then i else best)).length =
            (lanes best).length := by
          split
          · exact heq.symm
          · rfl
        rw [hlength] at hbest
        refine ⟨hbest, fun j hj => ?_⟩
        rcases List.mem_cons.1 hj with rfl | hj
        · exact heq ▸ hbest
        · exact hrest j hj
      next hne =>
        obtain ⟨hbest, hrest⟩ := ih best ties
        refine ⟨hbest, fun j hj => ?_⟩
        rcases List.mem_cons.1 hj with rfl | hj
        · exact (not_lt.1 hle).trans hbest
        · exact hrest j hj

end Lanes
