import Mathlib.Algebra.Group.Nat.Defs
import Mathlib.Data.Int.Notation
import Mathlib.Data.List.TakeWhile

/-!
# Decimal numbers

Integers as they are printed in decimal, and the number at the front of a text.

* `ofInt`: the text of an integer; `scan`: the number that a text begins with, and what follows.
* `scan_eq_some_iff`: what is read; `scan_ofInt_append`: an integer is read back from its text,
  unless a digit follows.
-/

namespace Decimal

/-- An integer in decimal. -/
def ofInt (z : ℤ) : List Char :=
  if z < 0 then '-' :: Nat.toDigits 10 z.natAbs else Nat.toDigits 10 z.natAbs

/-- The characters that may stand in front of a number. -/
def isSpace (c : Char) : Bool :=
  c == ' ' || c == '\t' || c == '\n' || c == '\r' || c.toNat == 11 || c.toNat == 12

/-- The sign of a number, if it has one. -/
def scanSign : List Char → ℤ × List Char
  | '-' :: text => (-1, text)
  | '+' :: text => (1, text)
  | text => (1, text)

/-- The number at the front of a text, behind spaces, and what follows. -/
def scan (text : List Char) : Option (ℤ × List Char) :=
  let (sign, text) := scanSign (text.dropWhile isSpace)
  if text.takeWhile Char.isDigit = [] then none
  else some (sign * ((Nat.ofDigitChars 10 (text.takeWhile Char.isDigit) 0 : ℕ) : ℤ),
    text.dropWhile Char.isDigit)

theorem ofInt_ne_nil (z : ℤ) : ofInt z ≠ [] := by
  unfold ofInt
  split
  · exact List.cons_ne_nil _ _
  · exact Nat.toDigits_ne_nil

/-- A digit is no space. -/
theorem isSpace_of_isDigit {c : Char} (h : c.isDigit = true) : isSpace c = false := by
  have hge : 48 ≤ c.toNat := by
    have hdigit := h
    unfold Char.isDigit at hdigit
    simp only [Bool.and_eq_true, decide_eq_true_eq] at hdigit
    exact hdigit.1
  rw [Bool.eq_false_iff]
  intro hspace
  simp only [isSpace, Bool.or_eq_true, beq_iff_eq] at hspace
  obtain ((((rfl | rfl) | rfl) | rfl) | hcode) | hcode := hspace
  · exact absurd h (by decide)
  · exact absurd h (by decide)
  · exact absurd h (by decide)
  · exact absurd h (by decide)
  · omega
  · omega

/-- The texts of a sign, and what they do. -/
inductive IsSign : List Char → ℤ → Prop
  | none : IsSign [] 1
  | plus : IsSign ['+'] 1
  | minus : IsSign ['-'] (-1)

/-- A number is read exactly from digits behind spaces and a sign, unless a digit follows. -/
theorem scan_eq_some_iff {text rest : List Char} {z : ℤ} :
    scan text = some (z, rest) ↔ ∃ spaces sign digits factor,
      text = spaces ++ (sign ++ (digits ++ rest)) ∧ (∀ c ∈ spaces, isSpace c = true) ∧
      IsSign sign factor ∧ digits ≠ [] ∧ (∀ c ∈ digits, c.isDigit = true) ∧
      (∀ c ∈ rest.head?, c.isDigit = false) ∧
      z = factor * ((Nat.ofDigitChars 10 digits 0 : ℕ) : ℤ) := by
  constructor
  · intro h
    have hsign : ∀ behind, ∃ sign, IsSign sign (scanSign behind).1 ∧
        behind = sign ++ (scanSign behind).2 := by
      intro behind
      unfold scanSign
      split
      · exact ⟨_, .minus, rfl⟩
      · exact ⟨_, .plus, rfl⟩
      · exact ⟨_, .none, rfl⟩
    obtain ⟨sign, hsign, hbehind⟩ := hsign (text.dropWhile isSpace)
    unfold scan at h
    dsimp only at h
    split at h
    · cases h
    next hdigits =>
      obtain ⟨rfl, rfl⟩ := Prod.mk.inj (Option.some.inj h)
      refine ⟨text.takeWhile isSpace, sign, _, _, ?_, fun c hc => List.mem_takeWhile_imp hc, hsign,
        hdigits, fun c hc => List.mem_takeWhile_imp hc, fun c hc => ?_, rfl⟩
      · rw [List.takeWhile_append_dropWhile, ← hbehind, List.takeWhile_append_dropWhile]
      · have hhead := List.head?_dropWhile_not Char.isDigit (scanSign (text.dropWhile isSpace)).2
        rw [hc] at hhead
        exact hhead
  · rintro ⟨spaces, sign, digits, factor, rfl, hspaces, hsign, hne, hdigits, hrest, rfl⟩
    obtain ⟨d, ds, rfl⟩ := List.exists_cons_of_ne_nil hne
    have hd : d.isDigit = true := hdigits d List.mem_cons_self
    have hspace : ¬ isSpace d = true := by
      rw [isSpace_of_isDigit hd]
      exact Bool.false_ne_true
    -- neither a sign nor a digit is a space
    have hbehind : (spaces ++ (sign ++ (d :: ds ++ rest))).dropWhile isSpace =
        sign ++ (d :: ds ++ rest) := by
      rw [List.dropWhile_append_of_pos hspaces]
      cases hsign with
      | none => exact List.dropWhile_cons_of_neg hspace
      | plus | minus => exact List.dropWhile_cons_of_neg (by decide)
    have hscan : scanSign (sign ++ (d :: ds ++ rest)) = (factor, d :: ds ++ rest) := by
      cases hsign with
      | none =>
        unfold scanSign
        split
        next heq =>
          cases heq
          cases hd
        next heq =>
          cases heq
          cases hd
        next => rfl
      | plus | minus => rfl
    have hend : rest.takeWhile Char.isDigit = [] ∧ rest.dropWhile Char.isDigit = rest := by
      cases rest with
      | nil => exact ⟨rfl, rfl⟩
      | cons c rest =>
        have hc : ¬ c.isDigit = true := by
          rw [hrest c rfl]
          exact Bool.false_ne_true
        exact ⟨List.takeWhile_cons_of_neg hc, List.dropWhile_cons_of_neg hc⟩
    unfold scan
    simp only [hbehind, hscan]
    rw [List.takeWhile_append_of_pos hdigits, List.dropWhile_append_of_pos hdigits, hend.1, hend.2,
      List.append_nil, if_neg hne]

/-- An integer is read back from its text, unless a digit follows. -/
theorem scan_ofInt_append (z : ℤ) {rest : List Char} (h : ∀ c ∈ rest.head?, c.isDigit = false) :
    scan (ofInt z ++ rest) = some (z, rest) := by
  have hdigits : ∀ c ∈ Nat.toDigits 10 z.natAbs, c.isDigit = true := fun c hc =>
    Nat.isDigit_of_mem_toDigits (by decide) (by decide) hc
  have hvalue := Nat.ofDigitChars_ten_toDigits (n := z.natAbs)
  refine scan_eq_some_iff.2 ?_
  unfold ofInt
  split
  · exact ⟨[], ['-'], _, -1, rfl, List.forall_mem_nil _, .minus, Nat.toDigits_ne_nil, hdigits, h,
      by rw [hvalue]; omega⟩
  · exact ⟨[], [], _, 1, rfl, List.forall_mem_nil _, .none, Nat.toDigits_ne_nil, hdigits, h,
      by rw [hvalue]; omega⟩

theorem suffix_of_scan {text rest : List Char} {z : ℤ} (h : scan text = some (z, rest)) :
    rest <:+ text := by
  obtain ⟨spaces, sign, digits, -, rfl, -⟩ := scan_eq_some_iff.1 h
  exact ((List.suffix_append _ _).trans (List.suffix_append _ _)).trans (List.suffix_append _ _)

/-- More of a text is read as more behind the number, unless it goes on with a digit. -/
theorem scan_append {text rest behind : List Char} {z : ℤ} (h : scan text = some (z, rest))
    (hbehind : ∀ c ∈ behind.head?, c.isDigit = false) :
    scan (text ++ behind) = some (z, rest ++ behind) := by
  obtain ⟨spaces, sign, digits, factor, rfl, hspaces, hsign, hne, hdigits, hrest, hz⟩ :=
    scan_eq_some_iff.1 h
  refine scan_eq_some_iff.2 ⟨spaces, sign, digits, factor, by simp, hspaces, hsign, hne, hdigits,
    fun c hc => ?_, hz⟩
  cases rest with
  | nil => exact hbehind c hc
  | cons d rest => exact hrest c hc

/-- A space at the end follows the number. -/
theorem scan_concat (text : List Char) {c : Char} (hc : isSpace c = true) :
    scan (text ++ [c]) = (scan text).map fun number => (number.1, number.2 ++ [c]) := by
  have hdigit : c.isDigit = false := by
    by_contra hd
    rw [isSpace_of_isDigit (Bool.not_eq_false _ ▸ hd)] at hc
    cases hc
  cases hscan : scan text with
  | some number =>
    refine scan_append hscan fun d hd => ?_
    rwa [← Option.some.inj hd]
  | none =>
    rw [Option.map_none, Option.eq_none_iff_forall_ne_some]
    rintro ⟨z, rest⟩ hsome
    obtain ⟨spaces, sign, digits, factor, heq, hspaces, hsign, hne, hdigits, hrest, hz⟩ :=
      scan_eq_some_iff.1 hsome
    rcases List.eq_nil_or_concat rest with rfl | ⟨rest, d, rfl⟩
    · -- the space is no digit
      obtain ⟨init, d, rfl⟩ := (List.eq_nil_or_concat digits).resolve_left hne
      have hlast : c = d := by
        have hconcat : text ++ [c] = (spaces ++ (sign ++ init)) ++ [d] := by simpa using heq
        exact List.head_eq_of_cons_eq (List.append_inj' hconcat rfl).2
      have hd := hdigits d (by simp)
      rw [← hlast, hdigit] at hd
      cases hd
    · have hconcat : text ++ [c] = (spaces ++ (sign ++ (digits ++ rest))) ++ [d] := by
        simpa using heq
      have hhead : ∀ x ∈ rest.head?, x.isDigit = false := fun x hx => by
        cases rest with
        | nil => cases hx
        | cons y rest => exact hrest x hx
      have hscan' : scan text = some (z, rest) := scan_eq_some_iff.2 ⟨spaces, sign, digits, factor,
        (List.append_inj' hconcat rfl).1, hspaces, hsign, hne, hdigits, hhead, hz⟩
      rw [hscan] at hscan'
      cases hscan'

end Decimal
