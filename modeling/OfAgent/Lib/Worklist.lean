import Mathlib.Data.Finset.Filter
import Mathlib.Data.Fintype.Card
import Mathlib.Data.List.FinRange
import Mathlib.Logic.Function.Basic

/-!
# Worklists

Marks on the numbers below a bound, with a cursor in front of all of them, and the loop that takes
one mark after the other and does something about it.

* `Worklist`: the marks and the cursor; `Worklist.mark`, `Worklist.take`: the operations.
* `Worklist.Valid`: no mark is behind the cursor; both operations keep this, and then `take` finds a
  mark if there is one.
* `drain`: the loop; `drain_ends`: it ends when what is done about a mark makes no new ones, and an
  invariant that every turn keeps holds behind it.
* `collect`: the loop that only notes the marks; `collect_ends`: it notes every mark once.
-/

/-- Marks on numbers, and a cursor. -/
structure Worklist (n : ℕ) where
  /-- The numbers that are marked. -/
  marked : Fin n → Bool
  /-- The cursor. -/
  first : ℕ

namespace Worklist

variable {n : ℕ} {w : Worklist n} {i j : Fin n}

/-- A number is marked, if it is not marked yet. -/
def mark (i : Fin n) (w : Worklist n) : Worklist n :=
  if w.marked i then w
  else ⟨Function.update w.marked i true, if i < w.first then i else w.first⟩

/-- The first mark from the cursor on. -/
def next (w : Worklist n) : Option (Fin n) :=
  (List.finRange n).find? fun i => decide (w.first ≤ i.val) && w.marked i

/-- The first mark from the cursor on is taken away, and the cursor moves behind it. -/
def take (w : Worklist n) : Worklist n :=
  match w.next with
  | some i => ⟨Function.update w.marked i false, i + 1⟩
  | none => { w with first := n }

/-- No mark is behind the cursor. -/
def Valid (w : Worklist n) : Prop := ∀ i, w.marked i = true → w.first ≤ i

/-- How many numbers are marked. -/
def count (w : Worklist n) : ℕ := (Finset.univ.filter fun i => w.marked i = true).card

/-! ### Marks -/

theorem marked_mark (i j : Fin n) (w : Worklist n) :
    (w.mark i).marked j = if j = i then true else w.marked j := by
  unfold mark
  by_cases hi : w.marked i
  · rw [if_pos hi]
    split
    next heq => rw [heq, hi]
    next => rfl
  · rw [if_neg hi, ← Function.update_apply]

theorem Valid.mark (h : w.Valid) (i : Fin n) : (w.mark i).Valid := by
  intro j hj
  rw [marked_mark] at hj
  unfold Worklist.mark
  by_cases hi : w.marked i
  · rw [if_pos hi]
    split at hj
    next heq => exact h j (heq ▸ hi)
    next => exact h j hj
  · rw [if_neg hi]
    show (if (i : ℕ) < w.first then (i : ℕ) else w.first) ≤ j
    split at hj
    next heq =>
      rw [heq]
      split_ifs <;> omega
    next =>
      have hfirst := h j hj
      split_ifs <;> omega

/-! ### The next mark -/

theorem marked_of_next (h : w.next = some i) : w.marked i = true := by
  have hfound := List.find?_some h
  rw [Bool.and_eq_true] at hfound
  exact hfound.2

theorem Valid.unmarked (h : w.Valid) (hnext : w.next = none) (i : Fin n) : w.marked i = false := by
  have hnone := List.find?_eq_none.1 hnext i (List.mem_finRange i)
  rw [Bool.and_eq_true, decide_eq_true_eq, not_and, Bool.not_eq_true] at hnone
  by_contra hmarked
  rw [Bool.not_eq_false] at hmarked
  exact absurd hmarked (Bool.eq_false_iff.1 (hnone (h i hmarked)))

/-- The next mark is the first one from the cursor on. -/
theorem le_of_next (h : w.next = some i) (hj : w.marked j = true) (hfirst : w.first ≤ j) :
    i ≤ j := by
  obtain ⟨-, before, after, hsplit, hbefore⟩ := List.find?_eq_some_iff_append.1 h
  have hsorted : List.Pairwise (· < ·) (before ++ i :: after) := by
    rw [← hsplit]
    exact List.pairwise_lt_finRange n
  have hmem : j ∈ before ++ i :: after := by
    rw [← hsplit]
    exact List.mem_finRange j
  obtain hin | hin := List.mem_append.1 hmem
  · have hnot := hbefore j hin
    simp [hj, hfirst] at hnot
  · obtain rfl | hin := List.mem_cons.1 hin
    · exact le_refl j
    · exact le_of_lt (List.rel_of_pairwise_cons (List.pairwise_append.1 hsorted).2.1 hin)

theorem marked_take (h : w.next = some i) (j : Fin n) :
    w.take.marked j = if j = i then false else w.marked j := by
  unfold take
  rw [h, ← Function.update_apply]

theorem Valid.take (h : w.Valid) : w.take.Valid := by
  intro j hj
  cases hnext : w.next with
  | none =>
    have hj : w.marked j = true := by
      rw [Worklist.take, hnext] at hj
      exact hj
    exact absurd hj (Bool.eq_false_iff.1 (h.unmarked hnext j))
  | some i =>
    rw [marked_take hnext] at hj
    have hne : j ≠ i := fun heq => by simp [heq] at hj
    rw [if_neg hne] at hj
    have hle : i < j := lt_of_le_of_ne (le_of_next hnext hj (h j hj)) (Ne.symm hne)
    rw [Worklist.take, hnext]
    exact hle

/-- A mark less. -/
theorem count_take_lt (h : w.next = some i) : w.take.count < w.count := by
  refine Finset.card_lt_card (Finset.ssubset_iff_of_subset ?_ |>.2 ⟨i, ?_, ?_⟩)
  · intro j hj
    rw [Finset.mem_filter, marked_take h] at hj
    rw [Finset.mem_filter]
    split at hj
    next => exact absurd hj.2 Bool.false_ne_true
    next => exact hj
  · exact Finset.mem_filter.2 ⟨Finset.mem_univ i, marked_of_next h⟩
  · rw [Finset.mem_filter, marked_take h, if_pos rfl]
    exact fun hi => Bool.false_ne_true hi.2

theorem count_le (w : Worklist n) : w.count ≤ n := by
  calc w.count ≤ (Finset.univ : Finset (Fin n)).card :=
    Finset.card_le_card (Finset.filter_subset _ _)
    _ = n := Finset.card_fin n

/-! ### The loop -/

variable {σ : Type*} {take : σ → σ × Option (Fin n)} {body : Fin n → σ → σ}

/-- One mark after the other is taken, and something is done about it. Nothing, when this takes too
many turns. -/
def drain (take : σ → σ × Option (Fin n)) (body : Fin n → σ → σ) : ℕ → σ → Option σ
  | 0, _ => none
  | fuel + 1, s =>
    match take s with
    | (s, none) => some s
    | (s, some i) => drain take body fuel (body i s)

/-- The loop ends when its body makes no marks, and keeps what every turn of it keeps. -/
theorem drain_ends {work : σ → Worklist n} {I : σ → Prop}
    (htake : ∀ s, (take s).2 = (work s).next ∧ work (take s).1 = (work s).take)
    (hbody : ∀ s i, I s → (work s).next = some i →
      I (body i (take s).1) ∧ work (body i (take s).1) = (work s).take)
    {s : σ} {fuel : ℕ} (hs : I s) (hfuel : (work s).count < fuel) :
    ∃ s', I s' ∧ (work s').next = none ∧ drain take body fuel s = some (take s').1 := by
  induction fuel generalizing s with
  | zero => exact absurd hfuel (Nat.not_lt_zero _)
  | succ fuel ih =>
    obtain ⟨hnext, hwork⟩ := htake s
    unfold drain
    cases htaken : take s with
    | mk taken mark =>
      rw [htaken] at hnext
      cases mark with
      | none => exact ⟨s, hs, hnext.symm, by rw [htaken]⟩
      | some i =>
        obtain ⟨hI, hkept⟩ := hbody s i hs hnext.symm
        rw [htaken] at hI hkept
        refine ih hI ?_
        rw [hkept]
        have hless := count_take_lt hnext.symm
        omega

/-! ### Collecting the marks -/

/-- The loop that only notes the marks it takes: the state behind it, and the marks. -/
def collect (take : σ → σ × Option (Fin n)) (fuel : ℕ) (s : σ) : Option (σ × List (Fin n)) :=
  drain (fun t => (((take t.1).1, t.2), (take t.1).2)) (fun i t => (t.1, t.2 ++ [i])) fuel (s, [])

/-- The loop ends, and every mark is noted once. -/
theorem collect_ends {work : σ → Worklist n}
    (htake : ∀ s, (take s).2 = (work s).next ∧ work (take s).1 = (work s).take)
    {s : σ} {fuel : ℕ} (hs : (work s).Valid) (hfuel : (work s).count < fuel) :
    ∃ s' marks, collect take fuel s = some (s', marks) ∧ marks.Nodup ∧
      ∀ i, i ∈ marks ↔ (work s).marked i = true := by
  -- what is noted and what is left are the marks of the beginning, and nothing is both
  let I : σ × List (Fin n) → Prop := fun t =>
    (work t.1).Valid ∧ t.2.Nodup ∧ (∀ i ∈ t.2, (work t.1).marked i = false) ∧
      ∀ i, (i ∈ t.2 ∨ (work t.1).marked i = true) ↔ (work s).marked i = true
  have hI : I (s, []) := ⟨hs, List.nodup_nil, fun i hi => absurd hi List.not_mem_nil,
    fun i => or_iff_right List.not_mem_nil⟩
  have hturn : ∀ (t : σ × List (Fin n)) i, I t → (work t.1).next = some i →
      I ((take t.1).1, t.2 ++ [i]) := by
    rintro ⟨s, noted⟩ i ⟨hvalid, hnodup, hnoted, hall⟩ hnext
    have hmarked : ∀ j, (work (take s).1).marked j = if j = i then false else (work s).marked j :=
      fun j => by rw [(htake s).2, Worklist.marked_take hnext]
    have hi := marked_of_next hnext
    have hnew : i ∉ noted := fun hmem => Bool.false_ne_true ((hnoted i hmem).symm.trans hi)
    refine ⟨?_, ?_, fun j hj => ?_, fun j => ?_⟩
    · show (work (take s).1).Valid
      rw [(htake s).2]
      exact hvalid.take
    · exact List.nodup_append.2 ⟨hnodup, List.nodup_singleton i, fun a ha b hb heq =>
        hnew (List.mem_singleton.1 hb ▸ heq ▸ ha)⟩
    · show (work (take s).1).marked j = false
      rw [hmarked]
      split
      next => rfl
      next hne =>
        obtain hj | hj := List.mem_append.1 hj
        · exact hnoted j hj
        · exact absurd (List.mem_singleton.1 hj) hne
    · show (j ∈ noted ++ [i] ∨ (work (take s).1).marked j = true) ↔ _
      rw [hmarked, List.mem_append, List.mem_singleton, ← hall j]
      by_cases heq : j = i
      · rw [heq]
        exact iff_of_true (.inl (.inr rfl)) (.inr hi)
      · rw [if_neg heq, or_iff_left heq]
  obtain ⟨t, ⟨hvalid, hnodup, -, hall⟩, hnone, hrun⟩ :=
    @drain_ends n (σ × List (Fin n)) (fun t => (((take t.1).1, t.2), (take t.1).2))
      (fun i t => (t.1, t.2 ++ [i])) (fun t => work t.1) I (fun t => htake t.1)
      (fun t i ht hnext => ⟨hturn t i ht hnext, (htake t.1).2⟩) (s, []) fuel hI hfuel
  refine ⟨(take t.1).1, t.2, hrun, hnodup, fun i => ?_⟩
  rw [← hall i, hvalid.unmarked hnone i]
  exact (or_iff_left Bool.false_ne_true).symm

end Worklist
