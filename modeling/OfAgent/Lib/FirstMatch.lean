import Mathlib.Algebra.BigOperators.Group.List.Basic
import Mathlib.Algebra.GroupWithZero.Nat
import Mathlib.Order.Lattice

/-!
# Loops that stop at the first match

An array is searched from the front, and the first element that fits is changed. The index that
the search finds cuts the list in two.

* `exists_append_of_findIdx?`: the two parts around the element that the search finds.
* `find?_eq_some_iff_of_ascending`: the search through an ascending list.
* `modifyFirst`: the list with its first fitting element changed; `modifyFirst_append`: the same
  in terms of the two parts.
* `sum_map_modifyFirst`: a weight that every change lowers by one.
-/

namespace FirstMatch

variable {α : Type*} {p : α → Bool} {f : α → α}

/-- A search that succeeds cuts the list in two. -/
theorem exists_append_of_findIdx? {l : List α} {i : ℕ} (h : l.findIdx? p = some i) :
    ∃ pre x post, l = pre ++ x :: post ∧ pre.length = i ∧ (∀ y ∈ pre, p y = false) ∧
      p x = true := by
  obtain ⟨hi, hp, hbefore⟩ := List.findIdx?_eq_some_iff_getElem.1 h
  refine ⟨l.take i, l[i], l.drop (i + 1), ?_, List.length_take_of_le (Nat.le_of_lt hi), ?_, hp⟩
  · rw [← List.drop_eq_getElem_cons hi, List.take_append_drop]
  · intro y hy
    obtain ⟨j, hj, rfl⟩ := List.mem_iff_getElem.1 hy
    rw [List.length_take_of_le (Nat.le_of_lt hi)] at hj
    simpa using hbefore j hj

/-- The search finds the element between the two parts. -/
theorem find?_append_cons {pre : List α} {x : α} {post : List α} (hpre : ∀ y ∈ pre, p y = false)
    (hx : p x = true) : (pre ++ x :: post).find? p = some x := by
  have hnone : pre.find? p = none :=
    List.find?_eq_none.2 fun y hy => Bool.eq_false_iff.1 (hpre y hy)
  rw [List.find?_append, hnone, Option.none_or, List.find?_cons_of_pos hx]

/-- A search through an ascending list finds the least element that fits. -/
theorem find?_eq_some_iff_of_ascending [LinearOrder α] {l : List α} (hl : l.Pairwise (· < ·))
    {x : α} : l.find? p = some x ↔ x ∈ l ∧ p x = true ∧ ∀ y ∈ l, y < x → p y = false := by
  constructor
  · intro h
    obtain ⟨hx, pre, post, rfl, hpre⟩ := List.find?_eq_some_iff_append.1 h
    refine ⟨by simp, hx, fun y hy hlt => ?_⟩
    obtain ⟨-, hpost, -⟩ := List.pairwise_append.1 hl
    obtain hy | hy := List.mem_append.1 hy
    · exact Bool.not_eq_true' .. ▸ hpre y hy
    · obtain rfl | hy := List.mem_cons.1 hy
      · exact absurd hlt (lt_irrefl _)
      · exact absurd hlt (not_lt_of_gt ((List.pairwise_cons.1 hpost).1 y hy))
  · rintro ⟨hmem, hx, hbefore⟩
    obtain ⟨pre, post, rfl⟩ := List.append_of_mem hmem
    refine find?_append_cons (fun y hy => hbefore y (by simp [hy]) ?_) hx
    exact (List.pairwise_append.1 hl).2.2 y hy x List.mem_cons_self

/-- Changing the element between the two parts. -/
theorem modify_append (pre : List α) (x : α) (post : List α) :
    (pre ++ x :: post).modify pre.length f = pre ++ f x :: post := by
  induction pre with
  | nil => rfl
  | cons y pre ih => rw [List.cons_append, List.length_cons, List.modify_succ_cons, ih]; rfl

variable (p f) in
/-- The list with its first element that satisfies `p` changed by `f`. -/
def modifyFirst : List α → List α
  | [] => []
  | x :: xs => if p x then f x :: xs else x :: modifyFirst xs

/-- The elements in front of the first match stay as they are. -/
theorem modifyFirst_append {pre : List α} {x : α} {post : List α} (hpre : ∀ y ∈ pre, p y = false)
    (hx : p x = true) : modifyFirst p f (pre ++ x :: post) = pre ++ f x :: post := by
  induction pre with
  | nil => simp [modifyFirst, hx]
  | cons y pre ih =>
    have hy : p y = false := hpre y List.mem_cons_self
    simp only [List.cons_append, modifyFirst, hy, Bool.false_eq_true, if_false]
    rw [ih fun z hz => hpre z (List.mem_cons_of_mem _ hz)]

/-- Without a match the list stays as it is. -/
theorem modifyFirst_of_forall {l : List α} (h : ∀ x ∈ l, p x = false) :
    modifyFirst p f l = l := by
  induction l with
  | nil => rfl
  | cons x l ih =>
    have hx : p x = false := h x List.mem_cons_self
    simp only [modifyFirst, hx, Bool.false_eq_true, if_false]
    rw [ih fun y hy => h y (List.mem_cons_of_mem _ hy)]

/-- Either nothing fits, or the first element that fits is changed. -/
theorem modifyFirst_cases (p : α → Bool) (f : α → α) (l : List α) :
    ((∀ x ∈ l, p x = false) ∧ modifyFirst p f l = l) ∨
      ∃ pre x post, l = pre ++ x :: post ∧ (∀ y ∈ pre, p y = false) ∧ p x = true ∧
        modifyFirst p f l = pre ++ f x :: post := by
  cases hfind : l.findIdx? p with
  | none =>
    have hall := List.findIdx?_eq_none_iff.1 hfind
    exact .inl ⟨hall, modifyFirst_of_forall hall⟩
  | some i =>
    obtain ⟨pre, x, post, rfl, -, hpre, hx⟩ := exists_append_of_findIdx? hfind
    exact .inr ⟨pre, x, post, rfl, hpre, hx, modifyFirst_append hpre hx⟩

theorem getElem?_middle (pre : List α) (x : α) (post : List α) :
    (pre ++ x :: post)[pre.length]? = some x := by
  rw [List.getElem?_append_right (Nat.le_refl _), Nat.sub_self, List.getElem?_cons_zero]

/-- Behind a change of one element the others are where they were. -/
theorem getElem?_append_cons_of_ne {pre post : List α} {x y : α} {i : ℕ} (hi : i ≠ pre.length) :
    (pre ++ x :: post)[i]? = (pre ++ y :: post)[i]? := by
  rcases Nat.lt_or_gt_of_ne hi with hlt | hgt
  · rw [List.getElem?_append_left hlt, List.getElem?_append_left hlt]
  · rw [List.getElem?_append_right (Nat.le_of_lt hgt),
      List.getElem?_append_right (Nat.le_of_lt hgt)]
    obtain ⟨j, hj⟩ := Nat.exists_eq_succ_of_ne_zero (Nat.sub_ne_zero_of_lt hgt)
    rw [hj]
    rfl

/-- A weight that only fitting elements have, and that a change lowers by one. -/
theorem sum_map_modifyFirst {weight : α → ℕ} (hout : ∀ x, p x = false → weight x = 0)
    (hin : ∀ x, p x = true → weight x = weight (f x) + 1) (l : List α) :
    ((modifyFirst p f l).map weight).sum = (l.map weight).sum - 1 := by
  induction l with
  | nil => rfl
  | cons x l ih =>
    rw [modifyFirst]
    split
    next hx =>
      have hw := hin x hx
      simp only [List.map_cons, List.sum_cons]
      omega
    next hx =>
      have hw := hout x (Bool.eq_false_iff.2 hx)
      simp only [List.map_cons, List.sum_cons]
      omega

end FirstMatch
