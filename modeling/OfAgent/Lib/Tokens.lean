import Mathlib.Data.List.TakeWhile

/-!
# Tokens of a text

A text is taken apart at delimiters, and each token may be taken with delimiters of its own.

* `next`: the token that comes next, and what is left behind the delimiter that ends it.
* `next_append_cons`, `next_of_plain`: the token in front of a delimiter, and the one that ends the
  text.
* `length_next_lt`: a token leaves less than there was.
* `all`: the tokens of a text, one after the other; `subset_of_mem_all`: they are made of its
  characters. `all_intercalate`: the tokens of which a text has been made.
* `cut`: a text in front of and behind a separator.
-/

namespace Tokens

variable {α : Type*} {delim : α → Bool} {tok rest text : List α}

/-- The next token of a text: what is left when the delimiters in front are skipped, up to the next
delimiter. With it, what follows that delimiter. -/
def next (delim : α → Bool) (text : List α) : Option (List α × List α) :=
  match text.dropWhile delim with
  | [] => none
  | c :: cs =>
    some ((c :: cs).takeWhile fun d => !delim d, ((c :: cs).dropWhile fun d => !delim d).tail)

/-- A token: it has a character, and none that is a delimiter. -/
structure Plain (delim : α → Bool) (tok : List α) : Prop where
  /-- It has a character. -/
  ne_nil : tok ≠ []
  /-- There is no delimiter in it. -/
  not_delim : ∀ c ∈ tok, delim c = false

@[simp]
theorem next_nil : next delim ([] : List α) = none := rfl

/-- A token in front of something else: nothing is skipped. -/
theorem next_append_of_plain (h : Plain delim tok) :
    next delim (tok ++ rest) =
      some ((tok ++ rest).takeWhile fun d => !delim d,
        ((tok ++ rest).dropWhile fun d => !delim d).tail) := by
  obtain ⟨c, cs, rfl⟩ := List.exists_cons_of_ne_nil h.ne_nil
  have hc : ¬ delim c = true := by simp [h.not_delim c List.mem_cons_self]
  have hskip : (c :: cs ++ rest).dropWhile delim = c :: (cs ++ rest) :=
    List.dropWhile_cons_of_neg hc
  rw [next, hskip]
  rfl

/-- The token in front of a delimiter, and what is behind the delimiter. -/
theorem next_append_cons (h : Plain delim tok) {d : α} (hd : delim d = true) :
    next delim (tok ++ d :: rest) = some (tok, rest) := by
  have htok : ∀ c ∈ tok, (!delim c) = true := fun c hc => by rw [h.not_delim c hc]; rfl
  rw [next_append_of_plain h, List.takeWhile_append_of_pos htok, List.dropWhile_append_of_pos htok,
    List.takeWhile_cons_of_neg (by simp [hd]), List.dropWhile_cons_of_neg (by simp [hd]),
    List.append_nil, List.tail_cons]

theorem next_of_plain (h : Plain delim tok) : next delim tok = some (tok, []) := by
  have htok : ∀ c ∈ tok, (!delim c) = true := fun c hc => by rw [h.not_delim c hc]; rfl
  have hnext : next delim (tok ++ []) = _ := next_append_of_plain h
  rw [List.takeWhile_append_of_pos htok, List.dropWhile_append_of_pos htok,
    List.append_nil] at hnext
  rw [hnext]
  simp

/-- A token leaves less than there was. -/
theorem length_next_lt (h : next delim text = some (tok, rest)) : rest.length < text.length := by
  unfold next at h
  split at h
  next => cases h
  next c cs hskip =>
    have hle : (c :: cs).length ≤ text.length := by
      rw [← hskip]
      exact (List.dropWhile_sublist _).length_le
    have hrest : rest.length ≤ cs.length := by
      obtain ⟨-, rfl⟩ := Prod.mk.inj (Option.some.inj h)
      rw [List.length_tail]
      have hdrop : ((c :: cs).dropWhile fun d => !delim d).length ≤ (c :: cs).length :=
        (List.dropWhile_sublist _).length_le
      rw [List.length_cons] at hdrop
      omega
    rw [List.length_cons] at hle
    omega

/-- At most so many tokens of a text. -/
def upTo (delim : α → Bool) : ℕ → List α → List (List α)
  | 0, _ => []
  | n + 1, text =>
    match next delim text with
    | none => []
    | some (tok, rest) => tok :: upTo delim n rest

/-- The tokens of a text, one after the other. There are no more of them than characters. -/
def all (delim : α → Bool) (text : List α) : List (List α) := upTo delim text.length text

/-- A token and what it leaves are made of the characters of the text. -/
theorem subset_of_next (h : next delim text = some (tok, rest)) : tok ⊆ text ∧ rest ⊆ text := by
  unfold next at h
  split at h
  next => cases h
  next c cs hskip =>
    have hsub : (c :: cs) ⊆ text := by
      rw [← hskip]
      exact (List.dropWhile_sublist _).subset
    obtain ⟨rfl, rfl⟩ := Prod.mk.inj (Option.some.inj h)
    constructor
    · exact fun d hd => hsub ((List.takeWhile_sublist _).subset hd)
    · exact fun d hd => hsub ((List.dropWhile_sublist _).subset (List.mem_of_mem_tail hd))

/-- Tokens are made of the characters of the text. -/
theorem subset_of_mem_upTo {n : ℕ} (h : tok ∈ upTo delim n text) : tok ⊆ text := by
  induction n generalizing text with
  | zero => cases h
  | succ n ih =>
    rw [upTo] at h
    cases hnext : next delim text with
    | none =>
      rw [hnext] at h
      cases h
    | some next =>
      obtain ⟨tok', rest⟩ := next
      obtain ⟨htok, hrest⟩ := subset_of_next hnext
      rw [hnext] at h
      rcases List.mem_cons.1 h with rfl | hmem
      · exact htok
      · exact List.Subset.trans (ih hmem) hrest

/-- So are those that it is taken apart into. -/
theorem subset_of_mem_all (h : tok ∈ all delim text) : tok ⊆ text := subset_of_mem_upTo h

/-- So many tokens with a delimiter between them. -/
theorem upTo_intercalate {d : α} (hd : delim d = true) {toks : List (List α)}
    (htoks : ∀ tok ∈ toks, Plain delim tok) {n : ℕ} (hn : toks.length ≤ n) :
    upTo delim n ([d].intercalate toks) = toks := by
  induction toks generalizing n with
  | nil => cases n <;> rfl
  | cons tok toks ih =>
    obtain ⟨n, rfl⟩ : ∃ m, n = m + 1 :=
      Nat.exists_eq_add_one.2 (Nat.lt_of_lt_of_le (Nat.succ_pos _) hn)
    have htok := htoks tok List.mem_cons_self
    have ih := ih (fun t ht => htoks t (List.mem_cons_of_mem _ ht)) (Nat.le_of_succ_le_succ hn)
    cases toks with
    | nil =>
      -- there is no delimiter behind the last token: the text ends with it
      rw [List.intercalate_singleton, upTo, next_of_plain htok]
      exact congrArg _ ih
    | cons tok' toks =>
      rw [List.intercalate_cons_cons, List.append_assoc, List.singleton_append, upTo,
        next_append_cons htok hd]
      exact congrArg _ ih

/-- Tokens with a delimiter between them have at least as many characters as there are. -/
theorem length_le_length_intercalate {d : α} {toks : List (List α)}
    (htoks : ∀ tok ∈ toks, tok ≠ []) :
    toks.length ≤ ([d].intercalate toks).length := by
  induction toks with
  | nil => exact Nat.le_refl 0
  | cons tok toks ih =>
    have hpos := List.length_pos_iff.2 (htoks tok List.mem_cons_self)
    have ih := ih fun t ht => htoks t (List.mem_cons_of_mem _ ht)
    cases toks with
    | nil =>
      rw [List.intercalate_singleton]
      exact hpos
    | cons tok' toks =>
      rw [List.intercalate_cons_cons]
      simp only [List.length_append, List.length_cons, List.length_nil] at ih ⊢
      omega

theorem all_intercalate {d : α} (hd : delim d = true) {toks : List (List α)}
    (htoks : ∀ tok ∈ toks, Plain delim tok) : all delim ([d].intercalate toks) = toks :=
  upTo_intercalate hd htoks (length_le_length_intercalate fun tok htok => (htoks tok htok).ne_nil)

/-! ### Separators -/

section Cut

variable [DecidableEq α] {sep : α}

/-- What is in front of the first separator, and what is behind it, if there is one. -/
def cut (sep : α) (text : List α) : List α × Option (List α) :=
  match text.dropWhile (· ≠ sep) with
  | [] => (text, none)
  | _ :: rest => (text.takeWhile (· ≠ sep), some rest)

theorem cut_append_cons (h : sep ∉ tok) (rest : List α) :
    cut sep (tok ++ sep :: rest) = (tok, some rest) := by
  have htok : ∀ c ∈ tok, decide (c ≠ sep) = true :=
    fun c hc => decide_eq_true fun heq => h (heq ▸ hc)
  rw [cut, List.dropWhile_append_of_pos htok, List.takeWhile_append_of_pos htok,
    List.dropWhile_cons_of_neg (by simp), List.takeWhile_cons_of_neg (by simp), List.append_nil]

theorem cut_of_not_mem (h : sep ∉ tok) : cut sep tok = (tok, none) := by
  have htok : ∀ c ∈ tok, decide (c ≠ sep) = true :=
    fun c hc => decide_eq_true fun heq => h (heq ▸ hc)
  rw [cut, List.dropWhile_eq_nil_iff.2 htok]

end Cut

end Tokens
