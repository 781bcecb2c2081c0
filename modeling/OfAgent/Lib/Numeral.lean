import Mathlib.Data.List.Basic
import OfAgent.Lib.Decimal

/-!
# Numbers in the notation of C

Natural numbers are printed in a base up to sixteen, and numbers are read from the front of a text
as `strtoul` and `scanf` read them, in a given base or in the one that the text tells.

* `ofNat`: the digits of a number, padded with zeros.
* `digits`, `value`: the digits at the front of a text, and what they stand for.
  `value_ofNat`: what the printed digits stand for.
* `scan`: the number at the front of a text. `scan_append`, `scan_zero_decimal`, `scan_zero_hex`:
  the number that has been printed is read again.
* `scanFields`: numbers between separators; `scanFields_intercalate`.
-/

namespace Numeral

/-! ### Digits -/

/-- What a digit stands for. A character that is none stands for nothing below sixteen. -/
def digitValue (c : Char) : ℕ :=
  if c.isDigit then c.toNat - '0'.toNat
  else if 'a'.toNat ≤ c.toNat ∧ c.toNat ≤ 'f'.toNat then c.toNat - 'a'.toNat + 10
  else if 'A'.toNat ≤ c.toNat ∧ c.toNat ≤ 'F'.toNat then c.toNat - 'A'.toNat + 10
  else 16

/-- A character is a digit of a base. -/
def isDigit (base : ℕ) (c : Char) : Bool := decide (digitValue c < base)

/-- What digits stand for. -/
def value (base : ℕ) (ds : List Char) : ℕ := ds.foldl (fun n c => base * n + digitValue c) 0

/-- A number with at least `width` digits. -/
def ofNat (base width n : ℕ) : List Char := (Nat.toDigits base n).leftpad width '0'

variable {base width n : ℕ}

theorem digitValue_digitChar {d : ℕ} (h : d < 16) : digitValue (Nat.digitChar d) = d := by
  revert d
  decide +kernel

theorem value_append_singleton (ds : List Char) (c : Char) :
    value base (ds ++ [c]) = base * value base ds + digitValue c := by
  simp [value]

theorem value_replicate_append (k : ℕ) (ds : List Char) :
    value base (List.replicate k '0' ++ ds) = value base ds := by
  have hzeros : (List.replicate k '0').foldl (fun n c => base * n + digitValue c) 0 = 0 := by
    induction k with
    | zero => rfl
    | succ k ih => exact ih
  rw [value, List.foldl_append, hzeros, value]

/-- The printed digits stand for the number. -/
theorem value_toDigits (h : 1 < base) (h16 : base ≤ 16) (n : ℕ) :
    value base (Nat.toDigits base n) = n := by
  induction n using Nat.base_induction base h with
  | single m hm =>
    have hdigit := digitValue_digitChar (Nat.lt_of_lt_of_le hm h16)
    rw [Nat.toDigits_of_lt_base hm]
    simp [value, hdigit]
  | digit m k hk hm ih =>
    -- the last digit is `k`, and the digits of `m` stand in front of it
    rw [← Nat.toDigits_append_toDigits h hm hk, Nat.toDigits_of_lt_base hk, value_append_singleton,
      ih, digitValue_digitChar (Nat.lt_of_lt_of_le hk h16)]

theorem value_ofNat (h : 1 < base) (h16 : base ≤ 16) (width n : ℕ) :
    value base (ofNat base width n) = n := by
  rw [ofNat, List.leftpad, value_replicate_append, value_toDigits h h16]

/-- What is printed consists of digits. -/
theorem isDigit_of_mem_toDigits (h : 1 < base) (h16 : base ≤ 16) {c : Char}
    (hc : c ∈ Nat.toDigits base n) : isDigit base c = true := by
  have hchar : ∀ d < base, isDigit base (Nat.digitChar d) = true := fun d hd => by
    rw [isDigit, digitValue_digitChar (Nat.lt_of_lt_of_le hd h16)]
    exact decide_eq_true hd
  induction n using Nat.base_induction base h with
  | single m hm =>
    rw [Nat.toDigits_of_lt_base hm, List.mem_singleton] at hc
    rw [hc]
    exact hchar m hm
  | digit m k hk hm ih =>
    rw [← Nat.toDigits_append_toDigits h hm hk, Nat.toDigits_of_lt_base hk] at hc
    obtain hc | hc := List.mem_append.1 hc
    · exact ih hc
    · rw [List.mem_singleton.1 hc]
      exact hchar k hk

theorem isDigit_of_mem_ofNat (h : 1 < base) (h16 : base ≤ 16) {c : Char}
    (hc : c ∈ ofNat base width n) : isDigit base c = true := by
  obtain hc | hc := List.mem_append.1 hc
  · rw [List.eq_of_mem_replicate hc, isDigit]
    exact decide_eq_true (show digitValue '0' < base from Nat.lt_trans Nat.zero_lt_one h)
  · exact isDigit_of_mem_toDigits h h16 hc

theorem ofNat_ne_nil : ofNat base width n ≠ [] :=
  List.append_ne_nil_of_right_ne_nil _ Nat.toDigits_ne_nil

theorem exists_ofNat_eq_cons (base width n : ℕ) : ∃ c ds, ofNat base width n = c :: ds :=
  List.exists_cons_of_ne_nil ofNat_ne_nil

/-- A positive number is not printed with a zero in front. -/
theorem head_toDigits_ne_zero (h : 1 < base) (hn : 0 < n) :
    ∃ c ds, Nat.toDigits base n = c :: ds ∧ c ≠ '0' := by
  induction n using Nat.base_induction base h with
  | single m hm =>
    refine ⟨m.digitChar, [], Nat.toDigits_of_lt_base hm, fun hzero => ?_⟩
    exact Nat.ne_of_gt hn (Nat.digitChar_eq_zero.1 hzero)
  | digit m k hk hm ih =>
    obtain ⟨c, ds, hds, hc⟩ := ih hm
    refine ⟨c, ds ++ Nat.toDigits base k, ?_, hc⟩
    rw [← Nat.toDigits_append_toDigits h hm hk, hds, List.cons_append]

/-! ### Reading -/

/-- What stands behind the prefix of a number in base sixteen, if a digit does. -/
def hexPrefix : List Char → Option (List Char)
  | '0' :: x :: c :: cs =>
    if (x = 'x' ∨ x = 'X') ∧ isDigit 16 c = true then some (c :: cs) else none
  | _ => none

/-- The base of a number, and the text without the prefix. The base `0` leaves it to the prefix,
and in base sixteen the prefix may stand there. -/
def radix (base : ℕ) (text : List Char) : ℕ × List Char :=
  match hexPrefix text with
  | some digits => if base = 0 ∨ base = 16 then (16, digits) else (base, text)
  | none =>
    if base ≠ 0 then (base, text) else if text.head? = some '0' then (8, text) else (10, text)

/-- The number at the front of a text, behind spaces and with a sign, and what follows. -/
def scan (base : ℕ) (text : List Char) : Option (ℤ × List Char) :=
  let (sign, text) := Decimal.scanSign (text.dropWhile Decimal.isSpace)
  let (base, text) := radix base text
  if text.takeWhile (isDigit base) = [] then none
  else some (sign * ((value base (text.takeWhile (isDigit base)) : ℕ) : ℤ),
    text.dropWhile (isDigit base))

/-- Numbers with a character between them, at most so many. -/
def scanFields (base : ℕ) (sep : Char) : ℕ → List Char → List ℤ
  | 0, _ => []
  | k + 1, text =>
    match scan base text with
    | none => []
    | some (z, rest) =>
      z :: if rest.head? = some sep then scanFields base sep k rest.tail else []

/-- A text that does not go on with the number in front of it. -/
def Ends (base : ℕ) (rest : List Char) : Prop :=
  ∀ c ∈ rest.head?, isDigit base c = false ∧ c ≠ 'x' ∧ c ≠ 'X'

theorem ends_nil : Ends base [] := by
  intro c hc
  cases hc

/-- A character that is neither a digit nor an `x`. -/
theorem ends_cons {c : Char} (rest : List Char) (hdigit : isDigit base c = false)
    (hx : c ≠ 'x' ∧ c ≠ 'X') : Ends base (c :: rest) := by
  intro d hd
  obtain rfl : c = d := Option.some.inj hd
  exact ⟨hdigit, hx⟩

theorem isDigit_mono {b : ℕ} (h : base ≤ b) {c : Char} (hc : isDigit base c = true) :
    isDigit b c = true :=
  decide_eq_true (Nat.lt_of_lt_of_le (of_decide_eq_true hc) h)

/-- The digits come behind the spaces and the signs in the order of the characters. -/
theorem le_toNat_of_isDigit {c : Char} (h : isDigit 16 c = true) : 48 ≤ c.toNat := by
  have hlt : digitValue c < 16 := of_decide_eq_true h
  unfold digitValue at hlt
  split at hlt
  next hdigit =>
    simp only [Char.isDigit, Bool.and_eq_true, decide_eq_true_eq] at hdigit
    exact hdigit.1
  next =>
    split at hlt
    next hlower => exact Nat.le_trans (by decide) hlower.1
    next =>
      split at hlt
      next hupper => exact Nat.le_trans (by decide) hupper.1
      next => exact absurd hlt (Nat.lt_irrefl 16)

/-- A text that begins with a digit has no spaces and no sign in front. -/
theorem scanSign_of_isDigit {c : Char} (h : isDigit 16 c = true) (cs : List Char) :
    Decimal.scanSign ((c :: cs).dropWhile Decimal.isSpace) = (1, c :: cs) := by
  have hge := le_toNat_of_isDigit h
  have hspace : ¬ Decimal.isSpace c = true := by
    intro hspace
    simp only [Decimal.isSpace, Bool.or_eq_true, beq_iff_eq] at hspace
    obtain ((((rfl | rfl) | rfl) | rfl) | hcode) | hcode := hspace
    -- the spaces with an escape are decided, the others are named by their codes
    all_goals first | omega | exact absurd hge (by decide)
  rw [List.dropWhile_cons_of_neg hspace]
  unfold Decimal.scanSign
  split
  next heq =>
    cases heq
    exact absurd hge (by decide)
  next heq =>
    cases heq
    exact absurd hge (by decide)
  next => rfl

/-- What is read when the digits and their base are known. -/
theorem scan_of_radix {text ds rest : List Char} {b : ℕ}
    (hhead : ∃ c cs, text = c :: cs ∧ isDigit 16 c = true)
    (hradix : radix base text = (b, ds ++ rest)) (hds : ds ≠ [])
    (hdigits : ∀ c ∈ ds, isDigit b c = true) (hrest : ∀ c ∈ rest.head?, isDigit b c = false) :
    scan base text = some (((value b ds : ℕ) : ℤ), rest) := by
  obtain ⟨c, cs, rfl, hc⟩ := hhead
  have htake : (ds ++ rest).takeWhile (isDigit b) = ds ∧
      (ds ++ rest).dropWhile (isDigit b) = rest := by
    rw [List.takeWhile_append_of_pos hdigits, List.dropWhile_append_of_pos hdigits]
    cases rest with
    | nil => exact ⟨List.append_nil _, rfl⟩
    | cons d rest =>
      have hd : ¬ isDigit b d = true := by
        rw [hrest d rfl]
        exact Bool.false_ne_true
      rw [List.takeWhile_cons_of_neg hd, List.dropWhile_cons_of_neg hd]
      exact ⟨List.append_nil _, rfl⟩
  unfold scan
  simp only [scanSign_of_isDigit hc, hradix, htake.1, htake.2, if_neg hds, Int.one_mul]

/-- Without an `x` behind the first character there is no prefix. -/
theorem hexPrefix_eq_none {c : Char} {cs : List Char}
    (h : ∀ x ∈ cs.head?, x ≠ 'x' ∧ x ≠ 'X') : hexPrefix (c :: cs) = none := by
  unfold hexPrefix
  split
  next x d ds heq =>
    obtain ⟨-, rfl⟩ := List.cons.inj heq
    have hx := h x rfl
    rw [if_neg (by simp [hx.1, hx.2])]
  next => rfl

theorem hexPrefix_eq_none_of_ne {c : Char} (cs : List Char) (h : c ≠ '0') :
    hexPrefix (c :: cs) = none := by
  unfold hexPrefix
  split
  next heq => exact absurd (List.cons.inj heq).1 h
  next => rfl

/-- No `x` follows the first digit of a number. -/
theorem second_ne_x {ds rest : List Char} (hds : ∀ d ∈ ds, isDigit 16 d = true)
    (hrest : ∀ x ∈ rest.head?, x ≠ 'x' ∧ x ≠ 'X') :
    ∀ x ∈ (ds ++ rest).head?, x ≠ 'x' ∧ x ≠ 'X' := by
  intro x hx
  cases ds with
  | nil => exact hrest x hx
  | cons d ds =>
    obtain rfl : d = x := Option.some.inj hx
    have hd := hds d List.mem_cons_self
    constructor
    · rintro rfl
      exact absurd hd (by decide)
    · rintro rfl
      exact absurd hd (by decide)

/-- A number is read again in the base in which it has been printed. -/
theorem scan_append (h : 1 < base) (h16 : base ≤ 16) (width n : ℕ) {rest : List Char}
    (hrest : Ends base rest) : scan base (ofNat base width n ++ rest) = some ((n : ℤ), rest) := by
  have hdigits : ∀ d ∈ ofNat base width n, isDigit base d = true := fun d hd =>
    isDigit_of_mem_ofNat h h16 hd
  obtain ⟨c, ds, hds⟩ := exists_ofNat_eq_cons base width n
  have hc : isDigit 16 c = true :=
    isDigit_mono h16 (hdigits c (hds ▸ List.mem_cons_self))
  have hprefix : hexPrefix (ofNat base width n ++ rest) = none := by
    rw [hds, List.cons_append]
    apply hexPrefix_eq_none
    apply second_ne_x
    · exact fun d hd => isDigit_mono h16 (hdigits d (hds ▸ List.mem_cons_of_mem _ hd))
    · exact fun x hx => (hrest x hx).2
  have hradix : radix base (ofNat base width n ++ rest) = (base, ofNat base width n ++ rest) := by
    simp only [radix, hprefix]
    rw [if_pos (by omega)]
  rw [scan_of_radix ⟨c, ds ++ rest, by rw [hds, List.cons_append], hc⟩ hradix ofNat_ne_nil hdigits
    fun x hx => (hrest x hx).1, value_ofNat h h16]

/-- With the prefix it is also read when the base is left open. -/
theorem scan_zero_hex (width n : ℕ) {rest : List Char} (hrest : Ends 16 rest) :
    scan 0 ('0' :: 'x' :: (ofNat 16 width n ++ rest)) = some ((n : ℤ), rest) := by
  have hdigits : ∀ d ∈ ofNat 16 width n, isDigit 16 d = true := fun d hd =>
    isDigit_of_mem_ofNat (by decide) (by decide) hd
  obtain ⟨c, ds, hds⟩ := exists_ofNat_eq_cons 16 width n
  have hc : isDigit 16 c = true := hdigits c (hds ▸ List.mem_cons_self)
  have hradix : radix 0 ('0' :: 'x' :: (ofNat 16 width n ++ rest)) =
      (16, ofNat 16 width n ++ rest) := by
    rw [hds, List.cons_append]
    simp [radix, hexPrefix, hc]
  rw [scan_of_radix ⟨'0', _, rfl, by decide⟩ hradix ofNat_ne_nil hdigits fun x hx => (hrest x hx).1,
    value_ofNat (by decide) (by decide)]

/-- A number in decimal is read again when the base is left open: only zero begins with the digit
that tells base eight. -/
theorem scan_zero_decimal (n : ℕ) {rest : List Char} (hrest : Ends 10 rest) :
    scan 0 (Nat.toDigits 10 n ++ rest) = some ((n : ℤ), rest) := by
  have hdigits : ∀ d ∈ Nat.toDigits 10 n, isDigit 10 d = true := fun d hd =>
    isDigit_of_mem_toDigits (by decide) (by decide) hd
  obtain rfl | hn := Nat.eq_zero_or_pos n
  -- zero is read in base eight, in which it is zero as well
  · have hradix : radix 0 (Nat.toDigits 10 0 ++ rest) = (8, ['0'] ++ rest) := by
      have hprefix : hexPrefix ('0' :: rest) = none :=
        hexPrefix_eq_none fun x hx => (hrest x hx).2
      rw [Nat.toDigits_zero, List.cons_append, List.nil_append]
      simp [radix, hprefix]
    have hoctal : ∀ x ∈ rest.head?, isDigit 8 x = false := fun x hx => by
      rw [Bool.eq_false_iff]
      intro hx8
      have hx10 : isDigit 10 x = true := isDigit_mono (by decide) hx8
      rw [(hrest x hx).1] at hx10
      exact Bool.false_ne_true hx10
    have hzero : ∀ c ∈ ['0'], isDigit 8 c = true := fun c hc => by
      rw [List.mem_singleton.1 hc]
      decide
    exact scan_of_radix ⟨'0', rest, by rw [Nat.toDigits_zero]; rfl, by decide⟩ hradix
      (List.cons_ne_nil _ _) hzero hoctal
  · obtain ⟨c, ds, hds, hc⟩ := head_toDigits_ne_zero (show 1 < 10 by decide) hn
    -- the first digit is not 0
    have hradix : radix 0 (Nat.toDigits 10 n ++ rest) = (10, Nat.toDigits 10 n ++ rest) := by
      have hprefix := hexPrefix_eq_none_of_ne (ds ++ rest) hc
      rw [hds, List.cons_append]
      simp [radix, hprefix, hc]
    have hhead : isDigit 16 c = true :=
      isDigit_mono (by decide) (hdigits c (hds ▸ List.mem_cons_self))
    rw [scan_of_radix ⟨c, ds ++ rest, by rw [hds, List.cons_append], hhead⟩ hradix
      Nat.toDigits_ne_nil hdigits fun x hx => (hrest x hx).1,
      value_toDigits (by decide) (by decide)]

/-- Numbers with a character between them are all read again. -/
theorem scanFields_intercalate (h : 1 < base) (h16 : base ≤ 16) (width : ℕ) {sep : Char}
    (hsep : isDigit base sep = false) (hx : sep ≠ 'x' ∧ sep ≠ 'X') (ns : List ℕ) :
    scanFields base sep ns.length ([sep].intercalate (ns.map (ofNat base width))) =
      ns.map (Nat.cast : ℕ → ℤ) := by
  induction ns with
  | nil => rfl
  | cons n ns ih =>
    cases ns with
    | nil =>
      have hscan := scan_append h h16 width n ends_nil
      rw [List.append_nil] at hscan
      simp [scanFields, hscan]
    | cons n' ns =>
      have hscan := scan_append h h16 width n
        (ends_cons ([sep].intercalate ((n' :: ns).map (ofNat base width))) hsep hx)
      have htext : [sep].intercalate ((n :: n' :: ns).map (ofNat base width)) =
          ofNat base width n ++ sep :: [sep].intercalate ((n' :: ns).map (ofNat base width)) := by
        simp [List.intercalate]
      rw [htext, List.length_cons, scanFields, hscan]
      simp only [List.head?_cons, if_true, List.tail_cons, ih]
      rfl

end Numeral
