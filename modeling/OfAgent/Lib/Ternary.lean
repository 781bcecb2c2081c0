import Mathlib.Data.BitVec

/-!
# Ternary matching

A ternary pattern gives, for each field of a word, a value and a mask; a word matches when it
agrees with the value on every bit the mask keeps. A bit outside the mask is a wildcard.

* `Pattern.Matches`, `Pattern.Covers`, `Pattern.Overlaps`: matching, inclusion of the matched
  sets, and a common matched word.
* `covers_iff`: one pattern covers another exactly when it matches the other's value and keeps
  no bit that the other wildcards.
* `overlaps_iff`: two patterns overlap exactly when their values agree on the bits both keep.
* `Pattern.StaleAt`: a bit that one pattern keeps and the other wildcards, on which the values
  differ; `overlaps_not_matches_iff` shows that this is all that separates overlapping from
  matching the value.
* `xor_and_dropLow_iff`: agreement under the mask of a prefix.
-/

namespace Ternary

variable {ι : Type*} {w : ι → ℕ}

/-- A word: one bit vector for each field. -/
abbrev Word (w : ι → ℕ) := ∀ i, BitVec (w i)

/-- A ternary pattern: the value and the mask of each field. -/
structure Pattern (w : ι → ℕ) where
  /-- The value of each field; only its bits under the mask count. -/
  value : Word w
  /-- The bits of each field that are compared. -/
  mask : Word w

/-- Two vectors agree under a mask exactly when they agree on every bit of the mask. -/
theorem xor_and_eq_zero_iff {n : ℕ} (a b m : BitVec n) :
    (a ^^^ b) &&& m = 0 ↔ ∀ i : ℕ, m.getLsbD i = true → a.getLsbD i = b.getLsbD i := by
  constructor
  · intro h i hm
    have hi := congrArg (fun v : BitVec n => v.getLsbD i) h
    simpa [hm] using hi
  · intro h
    refine BitVec.eq_of_getLsbD_eq fun i _ => ?_
    cases hm : m.getLsbD i with
    | false => simp [hm]
    | true => simp [h i hm, hm]

/-- Every bit of `a` is a bit of `b`. -/
theorem and_not_eq_zero_iff {n : ℕ} (a b : BitVec n) :
    a &&& ~~~b = 0 ↔ ∀ i : ℕ, a.getLsbD i = true → b.getLsbD i = true := by
  constructor
  · intro h i ha
    have hi := congrArg (fun v : BitVec n => v.getLsbD i) h
    have hlt := BitVec.lt_of_getLsbD ha
    simpa [ha, hlt] using hi
  · intro h
    refine BitVec.eq_of_getLsbD_eq fun i hi => ?_
    cases ha : a.getLsbD i with
    | false => simp [ha]
    | true => simp [h i ha]

/-- Two vectors agree under a mask that drops the lowest `k` bits exactly when they have the same
bits from `k` on. -/
theorem xor_and_dropLow_iff {n : ℕ} (a b : BitVec n) (k : ℕ) :
    (a ^^^ b) &&& ~~~(BitVec.ofNat n (2 ^ k - 1)) = 0 ↔ a >>> k = b >>> k := by
  have hmask : ∀ i : ℕ, (~~~(BitVec.ofNat n (2 ^ k - 1))).getLsbD i = (decide (i < n) &&
      decide (k ≤ i)) := by
    intro i
    rw [BitVec.getLsbD_not, BitVec.getLsbD_ofNat, Nat.testBit_two_pow_sub_one]
    by_cases hi : i < n
    · by_cases hk : i < k
      · simp [hi, hk]
      · simp [hi, hk, Nat.not_lt.1 hk]
    · simp [hi]
  rw [xor_and_eq_zero_iff]
  constructor
  · intro h
    refine BitVec.eq_of_getLsbD_eq fun i _ => ?_
    rw [BitVec.getLsbD_ushiftRight, BitVec.getLsbD_ushiftRight]
    by_cases hi : k + i < n
    · apply h
      rw [hmask, decide_eq_true hi, decide_eq_true (Nat.le_add_right k i)]
      rfl
    · rw [BitVec.getLsbD_of_ge _ _ (Nat.not_lt.1 hi), BitVec.getLsbD_of_ge _ _ (Nat.not_lt.1 hi)]
  · intro h i hi
    rw [hmask, Bool.and_eq_true, decide_eq_true_eq, decide_eq_true_eq] at hi
    have hbit := congrArg (fun v : BitVec n => v.getLsbD (i - k)) h
    simp only [BitVec.getLsbD_ushiftRight, Nat.add_sub_cancel' hi.2] at hbit
    exact hbit

namespace Pattern

/-- The word agrees with the pattern's value under its mask. -/
def Matches (p : Pattern w) (k : Word w) : Prop :=
  ∀ i, (k i ^^^ p.value i) &&& p.mask i = 0

/-- Every word that `t` matches is matched by `d`. -/
def Covers (d t : Pattern w) : Prop := ∀ k, t.Matches k → d.Matches k

/-- Some word is matched by both patterns. -/
def Overlaps (a b : Pattern w) : Prop := ∃ k, a.Matches k ∧ b.Matches k

/-- `d` keeps a bit that `t` wildcards. -/
def NarrowerAt (d t : Pattern w) : Prop := ∃ i, d.mask i &&& ~~~t.mask i ≠ 0

/-- `d` keeps a bit that `t` wildcards and on which the two values differ. -/
def StaleAt (d t : Pattern w) : Prop :=
  ∃ i, (t.value i ^^^ d.value i) &&& (d.mask i &&& ~~~t.mask i) ≠ 0

theorem matches_value (p : Pattern w) : p.Matches p.value := fun i => by simp

/-- The word that takes `t`'s value where `t` compares, and the opposite of `d`'s value
elsewhere: `t` matches it, and `d` does so only if it keeps no bit that `t` wildcards. -/
def opposite (d t : Pattern w) : Word w :=
  fun i => (t.value i &&& t.mask i) ||| (~~~d.value i &&& ~~~t.mask i)

theorem getLsbD_opposite (d t : Pattern w) (i : ι) {j : ℕ} (hj : j < w i) :
    (opposite d t i).getLsbD j =
      if (t.mask i).getLsbD j then (t.value i).getLsbD j else !(d.value i).getLsbD j := by
  simp only [opposite, BitVec.getLsbD_or, BitVec.getLsbD_and, BitVec.getLsbD_not, hj]
  cases (t.mask i).getLsbD j <;> simp

theorem matches_opposite (d t : Pattern w) : t.Matches (opposite d t) := by
  intro i
  rw [xor_and_eq_zero_iff]
  intro j hj
  rw [getLsbD_opposite d t i (BitVec.lt_of_getLsbD hj), if_pos hj]

/-- `d` covers `t` exactly when it matches `t`'s value and keeps no bit that `t` wildcards. -/
theorem covers_iff (d t : Pattern w) :
    d.Covers t ↔ d.Matches t.value ∧ ∀ i, d.mask i &&& ~~~t.mask i = 0 := by
  constructor
  · intro h
    refine ⟨h _ t.matches_value, fun i => ?_⟩
    rw [and_not_eq_zero_iff]
    intro j hd
    have hopp := (xor_and_eq_zero_iff _ _ _).1 (h _ (matches_opposite d t) i) j hd
    rw [getLsbD_opposite d t i (BitVec.lt_of_getLsbD hd)] at hopp
    by_contra ht
    simp [ht] at hopp
  · rintro ⟨hval, hmask⟩ k hk i
    rw [xor_and_eq_zero_iff]
    intro j hd
    have ht := (and_not_eq_zero_iff _ _).1 (hmask i) j hd
    have h1 := (xor_and_eq_zero_iff _ _ _).1 (hk i) j ht
    have h2 := (xor_and_eq_zero_iff _ _ _).1 (hval i) j hd
    exact h1.trans h2

/-- Matching the value without covering means keeping a bit that the other wildcards. -/
theorem matches_not_covers_iff (d t : Pattern w) :
    d.Matches t.value ∧ ¬ d.Covers t ↔ d.Matches t.value ∧ d.NarrowerAt t := by
  refine and_congr_right fun hval => ?_
  rw [covers_iff, NarrowerAt, not_and, not_forall]
  exact ⟨fun h => h hval, fun h _ => h⟩

/-- Two patterns overlap exactly when their values agree on the bits that both keep. -/
theorem overlaps_iff (a b : Pattern w) :
    a.Overlaps b ↔ ∀ i, (a.value i ^^^ b.value i) &&& (a.mask i &&& b.mask i) = 0 := by
  constructor
  · rintro ⟨k, ha, hb⟩ i
    rw [xor_and_eq_zero_iff]
    intro j hj
    simp only [BitVec.getLsbD_and, Bool.and_eq_true] at hj
    have h1 := (xor_and_eq_zero_iff _ _ _).1 (ha i) j hj.1
    have h2 := (xor_and_eq_zero_iff _ _ _).1 (hb i) j hj.2
    exact h1.symm.trans h2
  · intro h
    -- the common word follows `a` where `a` compares and `b` elsewhere
    refine ⟨fun i => (a.value i &&& a.mask i) ||| (b.value i &&& ~~~a.mask i),
      fun i => ?_, fun i => ?_⟩
    · rw [xor_and_eq_zero_iff]
      intro j hj
      simp [hj]
    · rw [xor_and_eq_zero_iff]
      intro j hj
      have hlt := BitVec.lt_of_getLsbD hj
      simp only [BitVec.getLsbD_or, BitVec.getLsbD_and, BitVec.getLsbD_not, hlt]
      cases ha : (a.mask i).getLsbD j with
      | false => simp
      | true =>
        have := (xor_and_eq_zero_iff _ _ _).1 (h i) j (by simp [ha, hj])
        simp [this]

/-- Matching a pattern's value implies overlapping with it. -/
theorem overlaps_of_matches {d t : Pattern w} (h : d.Matches t.value) : d.Overlaps t :=
  ⟨t.value, h, t.matches_value⟩

/-- Overlapping patterns fail to match by value exactly at a stale bit. -/
theorem overlaps_not_matches_iff (d t : Pattern w) :
    d.Overlaps t ∧ ¬ d.Matches t.value ↔ d.Overlaps t ∧ d.StaleAt t := by
  refine and_congr_right fun hov => ?_
  rw [overlaps_iff] at hov
  unfold Matches StaleAt
  rw [not_forall]
  refine exists_congr fun i => not_congr ?_
  rw [xor_and_eq_zero_iff, xor_and_eq_zero_iff]
  constructor
  · intro h j hj
    simp only [BitVec.getLsbD_and, Bool.and_eq_true] at hj
    exact h j hj.1
  · intro h j hj
    -- a bit under both masks agrees by the overlap, one under `d`'s alone by hypothesis
    cases ht : (t.mask i).getLsbD j with
    | true => exact ((xor_and_eq_zero_iff _ _ _).1 (hov i) j (by simp [hj, ht])).symm
    | false =>
      refine h j ?_
      simp only [BitVec.getLsbD_and, BitVec.getLsbD_not, hj, ht, BitVec.lt_of_getLsbD hj]
      rfl

end Pattern

end Ternary
