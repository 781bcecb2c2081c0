import Mathlib.Data.List.Induction
import Mathlib.Order.Lattice

/-!
# Dictionaries that are filled from a list

A dictionary as a list of pairs in which a key that is set again loses its old value, and what is
left of a list of pairs that are set one after the other.

* `set`, `ofPairs`: the operation and the filled dictionary.
* `mem_ofPairs_iff`: when the values of the list ascend, a pair stays if and only if no other pair
  of its key has a greater value.
* `lookup_iff`, `lookup_ofPairs_iff`: the keys are distinct, so that a lookup finds every pair.
-/

namespace Dict

variable {κ ν : Type*} [DecidableEq κ]

/-- The dictionary with a value for a key. -/
def set (k : κ) (v : ν) (d : List (κ × ν)) : List (κ × ν) := (k, v) :: d.filter fun p => p.1 ≠ k

/-- The dictionary in which the pairs have been set from the front. -/
def ofPairs (l : List (κ × ν)) : List (κ × ν) := l.foldl (fun d p => set p.1 p.2 d) []

theorem ofPairs_concat (l : List (κ × ν)) (p : κ × ν) :
    ofPairs (l ++ [p]) = set p.1 p.2 (ofPairs l) := by
  rw [ofPairs, List.foldl_append]
  rfl

theorem mem_set_iff {k : κ} {v : ν} {d : List (κ × ν)} {p : κ × ν} :
    p ∈ set k v d ↔ p = (k, v) ∨ (p ∈ d ∧ p.1 ≠ k) := by
  simp [set, List.mem_filter]

/-- The keys stay distinct when one is set. -/
theorem pairwise_set {d : List (κ × ν)} (h : d.Pairwise fun p q => p.1 ≠ q.1) (k : κ) (v : ν) :
    (set k v d).Pairwise fun p q => p.1 ≠ q.1 := by
  refine List.pairwise_cons.2 ⟨fun q hq => ?_, h.filter _⟩
  have hne := (List.mem_filter.1 hq).2
  exact Ne.symm (of_decide_eq_true hne)

/-- The keys of a filled dictionary are distinct. -/
theorem pairwise_ofPairs (l : List (κ × ν)) : (ofPairs l).Pairwise fun p q => p.1 ≠ q.1 := by
  induction l using List.reverseRecOn with
  | nil => exact .nil
  | append_singleton l p ih =>
    rw [ofPairs_concat]
    exact pairwise_set ih p.1 p.2

/-- A key that is set stays in the dictionary. -/
theorem exists_mem_ofPairs {l : List (κ × ν)} {k : κ} {v : ν} (h : (k, v) ∈ l) :
    ∃ w, (k, w) ∈ ofPairs l := by
  induction l using List.reverseRecOn with
  | nil => exact absurd h List.not_mem_nil
  | append_singleton l p ih =>
    simp only [ofPairs_concat, mem_set_iff]
    by_cases hkey : k = p.1
    · exact ⟨p.2, .inl (by rw [hkey])⟩
    · obtain hmem | hlast := List.mem_append.1 h
      · obtain ⟨w, hw⟩ := ih hmem
        exact ⟨w, .inr ⟨hw, hkey⟩⟩
      · exact absurd (congrArg Prod.fst (List.mem_singleton.1 hlast)) hkey

omit [DecidableEq κ] in
/-- A lookup finds every pair, when the keys are distinct. -/
theorem lookup_iff [BEq κ] [LawfulBEq κ] {d : List (κ × ν)} (hd : d.Pairwise fun p q => p.1 ≠ q.1)
    {k : κ} {v : ν} : d.lookup k = some v ↔ (k, v) ∈ d := by
  constructor
  · intro h
    obtain ⟨pre, post, heq, -⟩ := List.lookup_eq_some_iff.1 h
    rw [heq]
    exact List.mem_append_right _ List.mem_cons_self
  · intro h
    obtain ⟨pre, post, heq⟩ := List.append_of_mem h
    refine List.lookup_eq_some_iff.2 ⟨pre, post, heq, fun q hq => ?_⟩
    rw [heq, List.pairwise_append] at hd
    exact bne_iff_ne.2 (Ne.symm (hd.2.2 q hq _ List.mem_cons_self))

theorem lookup_ofPairs_iff [BEq κ] [LawfulBEq κ] {l : List (κ × ν)} {k : κ} {v : ν} :
    (ofPairs l).lookup k = some v ↔ (k, v) ∈ ofPairs l := lookup_iff (pairwise_ofPairs l)

/-- All pairs stay when their keys are distinct. -/
theorem mem_ofPairs_of_distinct {l : List (κ × ν)} (hl : l.Pairwise fun p q => p.1 ≠ q.1)
    {p : κ × ν} : p ∈ ofPairs l ↔ p ∈ l := by
  induction l using List.reverseRecOn with
  | nil => exact Iff.rfl
  | append_singleton l x ih =>
    obtain ⟨hl, -, hlast⟩ := List.pairwise_append.1 hl
    have hne : p ∈ l → p.1 ≠ x.1 := fun hp => hlast p hp x List.mem_cons_self
    rw [ofPairs_concat, mem_set_iff, ih hl, and_iff_left_of_imp hne, List.mem_append,
      List.mem_singleton, or_comm]

/-- Of each key the pair with the greatest value is left, when the values ascend. -/
theorem mem_ofPairs_iff [LinearOrder ν] {l : List (κ × ν)}
    (hl : l.Pairwise fun p q => p.2 < q.2) {p : κ × ν} :
    p ∈ ofPairs l ↔ p ∈ l ∧ ∀ q ∈ l, q.1 = p.1 → q.2 ≤ p.2 := by
  induction l using List.reverseRecOn generalizing p with
  | nil => exact iff_of_false List.not_mem_nil fun h => List.not_mem_nil h.1
  | append_singleton l x ih =>
    obtain ⟨hl, -, hlast⟩ := List.pairwise_append.1 hl
    -- every earlier pair has a smaller value than the last one
    have hlt : ∀ q ∈ l, q.2 < x.2 := fun q hq => hlast q hq x List.mem_cons_self
    rw [ofPairs_concat, mem_set_iff, ih hl]
    simp only [List.mem_append, List.mem_singleton]
    constructor
    · rintro (rfl | ⟨⟨hp, hmax⟩, hne⟩)
      · refine ⟨.inr rfl, ?_⟩
        rintro q (hq | rfl) -
        · exact le_of_lt (hlt q hq)
        · exact le_refl _
      · refine ⟨.inl hp, ?_⟩
        rintro q (hq | rfl) hkey
        · exact hmax q hq hkey
        · exact absurd hkey.symm hne
    · rintro ⟨hp | rfl, hmax⟩
      · refine .inr ⟨⟨hp, fun q hq hkey => hmax q (.inl hq) hkey⟩, fun hkey => ?_⟩
        exact absurd (hmax x (.inr rfl) hkey.symm) (not_le_of_gt (hlt p hp))
      · exact .inl rfl

end Dict
