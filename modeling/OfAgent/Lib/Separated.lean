import Mathlib.Data.List.Basic

/-!
# Separated values

Texts that consist of lines, whose fields stand between separators without any escapes.

* `encode`: the text for rows of fields; `decode`: the rows of a text.
* `decode_encode`: what comes back when no field has a separator or an end of a line in it.
* `plain_of_mem_decode`: nothing else ever comes back.
-/

namespace Separated

variable {α : Type*} [DecidableEq α] (sep nl : α)

/-! ### Encoding and decoding -/

/-- A line with the given fields. -/
def line (fields : List (List α)) : List α := [sep].intercalate fields ++ [nl]

/-- The lines for the given rows. -/
def encode (rows : List (List (List α))) : List α := (rows.map (line sep nl)).flatten

/-- The lines of a text without their ends. There is nothing behind the end of the last one. -/
def lines (text : List α) : List (List α) :=
  if (text.splitOn nl).getLast? = some [] then (text.splitOn nl).dropLast else text.splitOn nl

/-- The rows of a text. -/
def decode (text : List α) : List (List (List α)) := (lines nl text).map (·.splitOn sep)

/-- A field can stand between separators. -/
def Plain (field : List α) : Prop := sep ∉ field ∧ nl ∉ field

instance (field : List α) : Decidable (Plain sep nl field) := inferInstanceAs (Decidable (_ ∧ _))

variable {sep nl}

/-! ### Pieces -/

/-- What stands between the separators has no separators. -/
theorem not_mem_of_mem_splitOn {x : α} {xs l : List α} (h : l ∈ xs.splitOn x) : x ∉ l := by
  induction xs generalizing l with
  | nil =>
    rw [List.splitOn_nil, List.mem_singleton] at h
    rw [h]
    exact List.not_mem_nil
  | cons hd tl ih =>
    obtain ⟨first, rest, hsplit⟩ := List.exists_cons_of_ne_nil (List.splitOn_ne_nil x tl)
    rw [List.splitOn_cons_eq_if_modifyHead] at h
    rw [hsplit] at h ih
    split at h
    next =>
      obtain rfl | h := List.mem_cons.1 h
      · exact List.not_mem_nil
      · exact ih h
    next hne =>
      obtain rfl | h := List.mem_cons.1 h
      · intro hmem
        obtain heq | hmem := List.mem_cons.1 hmem
        · exact hne (beq_iff_eq.2 heq.symm)
        · exact ih List.mem_cons_self hmem
      · exact ih (List.mem_cons_of_mem _ h)

/-- It has only what the whole has. -/
theorem mem_of_mem_splitOn {x a : α} {xs l : List α} (h : l ∈ xs.splitOn x) (ha : a ∈ l) :
    a ∈ xs := by
  induction xs generalizing l with
  | nil =>
    rw [List.splitOn_nil, List.mem_singleton] at h
    rw [h] at ha
    cases ha
  | cons hd tl ih =>
    obtain ⟨first, rest, hsplit⟩ := List.exists_cons_of_ne_nil (List.splitOn_ne_nil x tl)
    rw [List.splitOn_cons_eq_if_modifyHead] at h
    rw [hsplit] at h ih
    split at h
    next =>
      obtain rfl | h := List.mem_cons.1 h
      · cases ha
      · exact List.mem_cons_of_mem _ (ih h ha)
    next =>
      obtain rfl | h := List.mem_cons.1 h
      · obtain rfl | ha := List.mem_cons.1 ha
        · exact List.mem_cons_self
        · exact List.mem_cons_of_mem _ (ih List.mem_cons_self ha)
      · exact List.mem_cons_of_mem _ (ih (List.mem_cons_of_mem _ h) ha)

/-! ### Lines -/

theorem lines_append_cons {l : List α} (h : nl ∉ l) (text : List α) :
    lines nl (l ++ nl :: text) = l :: lines nl text := by
  obtain ⟨first, rest, hsplit⟩ := List.exists_cons_of_ne_nil (List.splitOn_ne_nil nl text)
  unfold lines
  rw [List.splitOn_append_cons_self_of_not_mem h, hsplit, List.getLast?_cons_cons]
  split <;> rfl

theorem lines_nil : lines nl ([] : List α) = [] := rfl

theorem lines_of_not_mem {l : List α} (h : nl ∉ l) (hne : l ≠ []) : lines nl l = [l] := by
  unfold lines
  rw [List.splitOn_eq_singleton h, List.getLast?_singleton,
    if_neg fun heq => hne (Option.some.inj heq)]

/-- A text that is not empty begins with a line. -/
theorem exists_lines_eq_cons (nl : α) {text : List α} (h : text ≠ []) :
    ∃ l rest, nl ∉ l ∧ lines nl text = l :: lines nl rest ∧
      (text = l ++ nl :: rest ∨ text = l ∧ rest = []) := by
  by_cases hmem : nl ∈ text
  · obtain ⟨l, rest, heq, hl⟩ := List.eq_append_cons_of_mem hmem
    refine ⟨l, rest, hl, ?_, .inl heq⟩
    rw [heq]
    exact lines_append_cons hl rest
  · exact ⟨text, [], hmem, lines_of_not_mem hmem h, .inr ⟨rfl, rfl⟩⟩

theorem not_mem_of_mem_lines {l text : List α} (h : l ∈ lines nl text) : nl ∉ l := by
  unfold lines at h
  split at h
  · exact not_mem_of_mem_splitOn ((List.dropLast_sublist _).subset h)
  · exact not_mem_of_mem_splitOn h

/-! ### Rows -/

omit [DecidableEq α] in
/-- A character between fields is a separator or one of a field. -/
theorem mem_intercalate {a : α} {fields : List (List α)} (h : a ∈ [sep].intercalate fields) :
    a = sep ∨ ∃ f ∈ fields, a ∈ f := by
  induction fields with
  | nil => simp at h
  | cons f fields ih =>
    cases fields with
    | nil =>
      rw [List.intercalate_singleton] at h
      exact .inr ⟨f, List.mem_cons_self, h⟩
    | cons g fields =>
      rw [List.intercalate_cons_cons, List.mem_append, List.mem_append, List.mem_singleton] at h
      obtain (h | h) | h := h
      · exact .inr ⟨f, List.mem_cons_self, h⟩
      · exact .inl h
      · obtain h | ⟨g', hg', h⟩ := ih h
        · exact .inl h
        · exact .inr ⟨g', List.mem_cons_of_mem _ hg', h⟩

/-- The lines of an encoded text. -/
theorem lines_encode (hne : sep ≠ nl) {rows : List (List (List α))}
    (h : ∀ row ∈ rows, ∀ f ∈ row, nl ∉ f) :
    lines nl (encode sep nl rows) = rows.map fun row => [sep].intercalate row := by
  induction rows with
  | nil => rfl
  | cons row rows ih =>
    have hline : nl ∉ [sep].intercalate row := fun hmem => by
      obtain heq | ⟨f, hf, hmem⟩ := mem_intercalate hmem
      · exact hne heq.symm
      · exact h row List.mem_cons_self f hf hmem
    have hrest := ih fun r hr => h r (List.mem_cons_of_mem _ hr)
    have hencode : encode sep nl (row :: rows) =
        [sep].intercalate row ++ nl :: encode sep nl rows := by
      simp [encode, line]
    rw [hencode, lines_append_cons hline, hrest, List.map_cons]

/-- What comes back when no field has a separator or an end of a line in it. -/
theorem decode_encode (hne : sep ≠ nl) {rows : List (List (List α))}
    (h : ∀ row ∈ rows, row ≠ [] ∧ ∀ f ∈ row, Plain sep nl f) :
    decode sep nl (encode sep nl rows) = rows := by
  rw [decode, lines_encode hne fun row hrow f hf => ((h row hrow).2 f hf).2, List.map_map]
  conv_rhs => rw [← List.map_id rows]
  refine List.map_congr_left fun row hrow => ?_
  exact List.splitOn_intercalate sep (fun f hf => ((h row hrow).2 f hf).1) (h row hrow).1

/-- Nothing comes back that has a separator or an end of a line in it. -/
theorem plain_of_mem_decode {text field : List α} {row : List (List α)}
    (hrow : row ∈ decode sep nl text) (hfield : field ∈ row) : Plain sep nl field := by
  obtain ⟨l, hl, rfl⟩ := List.mem_map.1 hrow
  exact ⟨not_mem_of_mem_splitOn hfield,
    fun hmem => not_mem_of_mem_lines hl (mem_of_mem_splitOn hfield hmem)⟩

end Separated
