import Mathlib.Data.Int.Notation
import Mathlib.Data.List.Basic

/-!
# Visits that a callback can stop

A visit hands the elements of a list to a callback, in order, until the callback returns a
nonzero error. A cursor makes such a visit resumable: the elements that are still to come are a
function of the cursor.

* `visit`: the loop; it returns the final state and, if it was stopped, where.
* `visit_append_of_none`, `visit_append_of_some`, `visit_map`, `visit_of_forall_zero`: how visits
  compose, and what a callback without errors computes.
* `visit_prefix_invariant`, `visit_complete`, `visit_invariant`: what every callback keeps.
* `Resumes`: an iteration from a cursor visits the remaining elements, and where it is stopped it
  leaves a cursor at which a known list remains.
-/

namespace Visit

variable {α β σ ρ : Type*}

/-- Where a visit was stopped: the element at which the callback failed, the elements behind it,
and the error. -/
structure Stop (α : Type*) where
  /-- The element at which the callback failed. -/
  elem : α
  /-- The elements that were not visited. -/
  rest : List α
  /-- The error of the callback. -/
  error : ℤ

/-- Hand the elements to the callback until it returns a nonzero error. -/
def visit (callback : σ → α → σ × ℤ) : List α → σ → σ × Option (Stop α)
  | [], s => (s, none)
  | a :: as, s =>
      if (callback s a).2 = 0 then visit callback as (callback s a).1
      else ((callback s a).1, some ⟨a, as, (callback s a).2⟩)

variable {callback : σ → α → σ × ℤ}

/-- A visit is stopped by an error only. -/
theorem error_ne_zero {l : List α} {s : σ} {st : Stop α} (h : (visit callback l s).2 = some st) :
    st.error ≠ 0 := by
  induction l generalizing s with
  | nil => cases h
  | cons a as ih =>
    rw [visit] at h
    split at h
    next => exact ih h
    next hne =>
      cases h
      exact hne

/-- The element that stops a visit is in the list, in front of the rest. -/
theorem suffix_of_stop {l : List α} {s : σ} {st : Stop α}
    (h : (visit callback l s).2 = some st) : ∃ pre, l = pre ++ st.elem :: st.rest := by
  induction l generalizing s with
  | nil => cases h
  | cons a as ih =>
    rw [visit] at h
    split at h
    next =>
      obtain ⟨pre, rfl⟩ := ih h
      exact ⟨a :: pre, rfl⟩
    next =>
      cases h
      exact ⟨[], rfl⟩

/-- A callback that never fails folds over the whole list. -/
theorem visit_of_forall_zero (h : ∀ s a, (callback s a).2 = 0) (l : List α) (s : σ) :
    visit callback l s = (l.foldl (fun s a => (callback s a).1) s, none) := by
  induction l generalizing s with
  | nil => rfl
  | cons a as ih => rw [visit, if_pos (h s a), ih, List.foldl_cons]

/-- A visit of two lists in sequence, when the first one runs to the end. -/
theorem visit_append_of_none {l l' : List α} {s : σ} (h : (visit callback l s).2 = none) :
    visit callback (l ++ l') s = visit callback l' (visit callback l s).1 := by
  induction l generalizing s with
  | nil => rfl
  | cons a as ih =>
    rw [visit] at h
    rw [List.cons_append, visit, visit]
    split
    next hz =>
      rw [if_pos hz] at h
      exact ih h
    next hz =>
      rw [if_neg hz] at h
      cases h

/-- A visit of two lists in sequence, when it is stopped in the first one. -/
theorem visit_append_of_some {l l' : List α} {s : σ} {st : Stop α}
    (h : (visit callback l s).2 = some st) :
    visit callback (l ++ l') s =
      ((visit callback l s).1, some { st with rest := st.rest ++ l' }) := by
  induction l generalizing s with
  | nil => cases h
  | cons a as ih =>
    rw [visit] at h
    rw [List.cons_append, visit, visit]
    split
    next hz =>
      rw [if_pos hz] at h
      exact ih h
    next hz =>
      rw [if_neg hz] at h
      cases h
      rfl

/-- Visiting the images of the elements is visiting the elements with a callback that takes the
images itself. -/
theorem visit_map {g : α → β} {callback : σ → β → σ × ℤ} (l : List α) (s : σ) :
    visit callback (l.map g) s =
      ((visit (fun s a => callback s (g a)) l s).1,
        (visit (fun s a => callback s (g a)) l s).2.map fun st =>
          ⟨g st.elem, st.rest.map g, st.error⟩) := by
  induction l generalizing s with
  | nil => rfl
  | cons a as ih =>
    rw [List.map_cons, visit, visit]
    split
    · exact ih _
    · rfl

variable (callback) in
/-- An invariant that speaks about the elements visited so far holds, at the end, of some prefix of
the list. -/
theorem visit_prefix_invariant (P : List α → σ → Prop) {l : List α}
    (h : ∀ pre a s, (pre ++ [a]) <+: l → P pre s → P (pre ++ [a]) (callback s a).1) {s : σ}
    (hs : P [] s) : ∃ pre, pre <+: l ∧ P pre (visit callback l s).1 := by
  -- the induction goes over what is left of the list behind the prefix
  have main : ∀ rest pre s, pre ++ rest = l → P pre s →
      ∃ pre', pre' <+: l ∧ P pre' (visit callback rest s).1 := by
    intro rest
    induction rest with
    | nil =>
      intro pre s hl hp
      rw [List.append_nil] at hl
      exact ⟨pre, hl ▸ List.prefix_rfl, hp⟩
    | cons a as ih =>
      intro pre s hl hp
      have hpre : (pre ++ [a]) <+: l := ⟨as, by rw [← hl, List.append_assoc]; rfl⟩
      have ha := h pre a s hpre hp
      rw [visit]
      split
      · exact ih (pre ++ [a]) _ (by rw [← hl, List.append_assoc]; rfl) ha
      · exact ⟨pre ++ [a], hpre, ha⟩
  exact main l [] s rfl hs

variable (callback) in
/-- When such an invariant excludes errors, the visit runs to the end of the list. -/
theorem visit_complete (P : List α → σ → Prop) {l : List α}
    (h : ∀ pre a s, (pre ++ [a]) <+: l → P pre s →
      (callback s a).2 = 0 ∧ P (pre ++ [a]) (callback s a).1) {s : σ} (hs : P [] s) :
    (visit callback l s).2 = none ∧ P l (visit callback l s).1 := by
  have main : ∀ rest pre s, pre ++ rest = l → P pre s →
      (visit callback rest s).2 = none ∧ P l (visit callback rest s).1 := by
    intro rest
    induction rest with
    | nil =>
      intro pre s hl hp
      rw [List.append_nil] at hl
      exact ⟨rfl, hl ▸ hp⟩
    | cons a as ih =>
      intro pre s hl hp
      obtain ⟨hzero, ha⟩ := h pre a s ⟨as, by rw [← hl, List.append_assoc]; rfl⟩ hp
      rw [visit, if_pos hzero]
      exact ih (pre ++ [a]) _ (by rw [← hl, List.append_assoc]; rfl) ha
  exact main l [] s rfl hs

variable (callback) in
/-- An invariant of the callback is an invariant of the visit. -/
theorem visit_invariant (P : σ → Prop) {l : List α}
    (h : ∀ s, ∀ a ∈ l, P s → P (callback s a).1) {s : σ} (hs : P s) :
    P (visit callback l s).1 := by
  obtain ⟨-, -, hp⟩ := visit_prefix_invariant callback (fun _ s => P s)
    (fun _ a s hpre hp => h s a (hpre.subset (by simp)) hp) hs
  exact hp

/-! ### Resumable iterations -/

/-- An iteration from a cursor visits the elements that remain there. Stopped at an element `a` in
front of a list `l`, it leaves a cursor at which `after a l` remains; a good cursor makes this `l`
itself. -/
structure Resumes (remaining : ρ → List α) (after : α → List α → List α)
    (iterate : (σ → α → σ × ℤ) → ρ → σ → σ × ρ × ℤ) : Prop where
  /-- The state is the one of the visit. -/
  state : ∀ callback p s, (iterate callback p s).1 = (visit callback (remaining p) s).1
  /-- Without a stop there is no error. -/
  complete : ∀ callback p s, (visit callback (remaining p) s).2 = none →
    (iterate callback p s).2.2 = 0
  /-- The error is the one of the callback. -/
  error : ∀ callback p s st, (visit callback (remaining p) s).2 = some st →
    (iterate callback p s).2.2 = st.error
  /-- What remains behind the element at which the iteration was stopped. -/
  rest : ∀ callback p s st, (visit callback (remaining p) s).2 = some st →
    remaining (iterate callback p s).2.1 = after st.elem st.rest

end Visit
