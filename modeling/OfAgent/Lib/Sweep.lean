import Mathlib.Data.List.MinMax
import Mathlib.Data.List.Nodup

/-!
# Sweeps

Loops over the indices of a state.

* `RewritesEntry rest get act f`: the action `act` at an index rewrites the entry there by `f`, and
  leaves the other entries and the part `rest` of the state alone.
* `RewritesEntry.get_foldl`: a sweep over distinct indices rewrites each of their entries once.
* `foldl_keepBetter`: a loop that keeps the better one of two admissible indices finds the first
  best one.
-/

namespace Sweep

variable {σ κ α β : Type*}

/-- The action at an index rewrites the entry at this index by a function that may look at a part of
the state that no action changes. -/
structure RewritesEntry (rest : σ → β) (get : σ → κ → α) (act : σ → κ → σ) (f : β → κ → α → α) :
    Prop where
  /-- No action changes this part. -/
  rest_act (s : σ) (i : κ) : rest (act s i) = rest s
  /-- The entry at the index is rewritten. -/
  get_act_self (s : σ) (i : κ) : get (act s i) i = f (rest s) i (get s i)
  /-- The other entries stay. -/
  get_act_of_ne (s : σ) {i j : κ} : j ≠ i → get (act s i) j = get s j

namespace RewritesEntry

variable {rest : σ → β} {get : σ → κ → α} {act : σ → κ → σ} {f : β → κ → α → α}
  (h : RewritesEntry rest get act f)

include h

theorem rest_foldl (l : List κ) (s : σ) : rest (l.foldl act s) = rest s := by
  induction l generalizing s with
  | nil => rfl
  | cons i l ih => rw [List.foldl_cons, ih, h.rest_act]

/-- A sweep leaves the entries alone whose index it does not visit. -/
theorem get_foldl_of_notMem {l : List κ} {j : κ} (hj : j ∉ l) (s : σ) :
    get (l.foldl act s) j = get s j := by
  induction l generalizing s with
  | nil => rfl
  | cons i l ih =>
    obtain ⟨hne, hmem⟩ := List.ne_and_not_mem_of_not_mem_cons hj
    rw [List.foldl_cons, ih hmem, h.get_act_of_ne s hne]

/-- A sweep over distinct indices rewrites the entry at each of them once. -/
theorem get_foldl {l : List κ} (hl : l.Nodup) {j : κ} (hj : j ∈ l) (s : σ) :
    get (l.foldl act s) j = f (rest s) j (get s j) := by
  induction l generalizing s with
  | nil => cases hj
  | cons i l ih =>
    obtain ⟨hi, hl⟩ := List.nodup_cons.mp hl
    rw [List.foldl_cons]
    rcases List.mem_cons.mp hj with rfl | hj
    · rw [h.get_foldl_of_notMem hi, h.get_act_self]
    · have hne : j ≠ i := fun he => hi (he ▸ hj)
      rw [ih hl hj, h.rest_act, h.get_act_of_ne s hne]

end RewritesEntry

/-- One round of a loop that keeps the better one of two admissible indices. -/
def keepBetter (admissible : κ → Bool) (better : κ → κ → Bool) (best : Option κ)
    (i : κ) : Option κ :=
  if admissible i then
    match best with
    | none => some i
    | some r => if better i r then some i else some r
  else best

/-- When one index is better than another if its rank is smaller, the loop finds the first
admissible index of the least rank. -/
theorem foldl_keepBetter [LinearOrder β] {admissible : κ → Bool} {better : κ → κ → Bool}
    {rank : κ → β} (hbetter : ∀ i r, better i r = true ↔ rank i < rank r) (l : List κ) :
    l.foldl (keepBetter admissible better) none = (l.filter admissible).argmin rank := by
  have hround : ∀ best i, keepBetter admissible better best i =
      if admissible i then List.argAux (fun i r => rank i < rank r) best i else best := by
    intro best i
    cases best <;> simp [keepBetter, List.argAux, hbetter]
  rw [List.argmin, List.foldl_filter]
  congr 1
  funext best i
  exact hround best i

/-- The loop finds nothing when no index is admissible. -/
theorem foldl_keepBetter_eq_none [LinearOrder β] {admissible : κ → Bool} {better : κ → κ → Bool}
    {rank : κ → β} (hbetter : ∀ i r, better i r = true ↔ rank i < rank r) {l : List κ} :
    l.foldl (keepBetter admissible better) none = none ↔ ∀ i ∈ l, admissible i = false := by
  simp [foldl_keepBetter hbetter, List.argmin_eq_none, List.filter_eq_nil_iff]

/-- What the loop finds is admissible, and no admissible index has a smaller rank. -/
theorem of_foldl_keepBetter_eq_some [LinearOrder β] {admissible : κ → Bool}
    {better : κ → κ → Bool} {rank : κ → β} (hbetter : ∀ i r, better i r = true ↔ rank i < rank r)
    {l : List κ} {r : κ} (h : l.foldl (keepBetter admissible better) none = some r) :
    (r ∈ l ∧ admissible r = true) ∧ ∀ i ∈ l, admissible i = true → rank r ≤ rank i := by
  rw [foldl_keepBetter hbetter] at h
  refine ⟨List.mem_filter.mp (List.argmin_mem h), fun i hi hadm => ?_⟩
  exact List.le_of_mem_argmin (List.mem_filter.mpr ⟨hi, hadm⟩) h

end Sweep
