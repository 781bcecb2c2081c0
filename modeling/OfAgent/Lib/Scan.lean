import Mathlib.Data.List.Pairwise
import Mathlib.Data.Nat.Notation
import Mathlib.Order.Basic

/-!
# Scans of sparse arrays

An array with entries at some of its indices, and searches for the first entry from an index on.

* `FirstFrom f lo hi r`: `r` is the first entry of `f` with an index from `lo` on and below `hi`.
* `FirstFrom.append`, `FirstFrom.of_some`, `FirstFrom.shift`: how searches of parts compose.
* `visit`: the loop that goes on behind every entry that a search finds; `visit_spec`: it visits all
  entries in order.
-/

namespace Scan

variable {α : Type*} {f g : ℕ → Option α} {lo mid hi : ℕ} {r : Option (ℕ × α)}

/-- The first entry with an index from `lo` on and below `hi`, if there is one. -/
def FirstFrom (f : ℕ → Option α) (lo hi : ℕ) : Option (ℕ × α) → Prop
  | some (n, a) => lo ≤ n ∧ n < hi ∧ f n = some a ∧ ∀ m, lo ≤ m → m < n → f m = none
  | none => ∀ m, lo ≤ m → m < hi → f m = none

theorem FirstFrom.of_le (h : hi ≤ lo) : FirstFrom f lo hi none := fun _ hlo hhi =>
  absurd (Nat.lt_of_lt_of_le hhi h) (Nat.not_lt.2 hlo)

/-- Nothing is found in front of `mid`. -/
theorem FirstFrom.append (h : FirstFrom f lo mid none) (hle : lo ≤ mid)
    (h' : FirstFrom f mid hi r) : FirstFrom f lo hi r := by
  have hbefore : ∀ {m}, lo ≤ m → m < mid → f m = none := fun hlo hmid => h _ hlo hmid
  cases r with
  | none =>
    intro m hlo hhi
    obtain hm | hm := Nat.lt_or_ge m mid
    · exact hbefore hlo hm
    · exact h' m hm hhi
  | some r =>
    obtain ⟨hmid, hhi, hentry, hfirst⟩ := h'
    refine ⟨Nat.le_trans hle hmid, hhi, hentry, fun m hlo hn => ?_⟩
    obtain hm | hm := Nat.lt_or_ge m mid
    · exact hbefore hlo hm
    · exact hfirst m hm hn

theorem FirstFrom.of_some {x : ℕ × α} (h : FirstFrom f lo mid (some x)) (hle : mid ≤ hi) :
    FirstFrom f lo hi (some x) := by
  obtain ⟨hlo, hmid, hentry, hfirst⟩ := h
  exact ⟨hlo, Nat.lt_of_lt_of_le hmid hle, hentry, hfirst⟩

/-- A search in a part of an array that begins at `base`. -/
theorem FirstFrom.shift {base : ℕ} (hpart : ∀ m, lo ≤ m → m < hi → f (base + m) = g m)
    (h : FirstFrom g lo hi r) :
    FirstFrom f (base + lo) (base + hi) (r.map fun x => (base + x.1, x.2)) := by
  cases r with
  | none =>
    intro m hlo hhi
    obtain ⟨k, rfl⟩ := Nat.exists_eq_add_of_le (Nat.le_trans (Nat.le_add_right base lo) hlo)
    have hlo := Nat.le_of_add_le_add_left hlo
    have hhi := Nat.lt_of_add_lt_add_left hhi
    rw [hpart k hlo hhi]
    exact h k hlo hhi
  | some x =>
    obtain ⟨hlo, hhi, hentry, hfirst⟩ := h
    refine ⟨Nat.add_le_add_left hlo base, Nat.add_lt_add_left hhi base, ?_, fun m hm hn => ?_⟩
    · rw [hpart _ hlo hhi]
      exact hentry
    · obtain ⟨k, rfl⟩ := Nat.exists_eq_add_of_le (Nat.le_trans (Nat.le_add_right base lo) hm)
      have hm := Nat.le_of_add_le_add_left hm
      have hn : k < x.1 := Nat.lt_of_add_lt_add_left hn
      rw [hpart k hm (Nat.lt_trans hn hhi)]
      exact hfirst k hm hn

/-! ### Visits -/

/-- The loop over the entries that a search `find` finds from an index on. Nothing, when this takes
too many turns. -/
def visit (find : ℕ → Option (ℕ × α)) : ℕ → ℕ → Option (List (ℕ × α))
  | 0, _ => none
  | fuel + 1, lo =>
    match find lo with
    | none => some []
    | some x => (visit find fuel (x.1 + 1)).map fun visited => x :: visited

/-- The loop visits the entries from an index on, in order. -/
theorem visit_spec {find : ℕ → Option (ℕ × α)} (hfind : ∀ lo, FirstFrom f lo hi (find lo))
    {fuel : ℕ} (hfuel : hi - lo < fuel) :
    ∃ visited, visit find fuel lo = some visited ∧ visited.Pairwise (fun x y => x.1 < y.1) ∧
      ∀ x, x ∈ visited ↔ lo ≤ x.1 ∧ x.1 < hi ∧ f x.1 = some x.2 := by
  induction fuel generalizing lo with
  | zero => exact absurd hfuel (Nat.not_lt_zero _)
  | succ fuel ih =>
    have hfirst := hfind lo
    unfold visit
    cases hfound : find lo with
    | none =>
      rw [hfound] at hfirst
      refine ⟨[], rfl, List.Pairwise.nil, fun x => iff_of_false List.not_mem_nil ?_⟩
      rintro ⟨hlo, hhi, hentry⟩
      rw [hfirst _ hlo hhi] at hentry
      cases hentry
    | some y =>
      rw [hfound] at hfirst
      obtain ⟨hlo, hhi, hentry, hbefore⟩ := hfirst
      -- what is left to be searched gets shorter by the entry and all in front of it
      have hless : hi - (y.1 + 1) < fuel := by omega
      obtain ⟨visited, hvisit, hsorted, hmem⟩ := ih hless
      refine ⟨y :: visited, ?_, List.pairwise_cons.2 ⟨fun x hx => ((hmem x).1 hx).1, hsorted⟩,
        fun x => ?_⟩
      · simp only [hvisit, Option.map_some]
      · rw [List.mem_cons, hmem]
        constructor
        · rintro (rfl | ⟨hx, hrest⟩)
          · exact ⟨hlo, hhi, hentry⟩
          · exact ⟨Nat.le_trans hlo (Nat.le_of_lt hx), hrest⟩
        · rintro ⟨hx, hxhi, hxentry⟩
          -- nothing is in front of the entry that was found
          obtain hlt | heq | hgt := Nat.lt_trichotomy x.1 y.1
          · rw [hbefore _ hx hlt] at hxentry
            cases hxentry
          · rw [heq, hentry] at hxentry
            exact .inl (Prod.ext heq (Option.some.inj hxentry).symm)
          · exact .inr ⟨hgt, hxhi, hxentry⟩

end Scan
