import Mathlib.Data.List.Basic
import Mathlib.Order.Lattice

/-!
# Lists kept in priority order

A list whose elements never rise in priority, an insertion that puts a new element behind all
elements of the same priority, and what the first match of such a list is.

* `insertBehind`: insertion in front of the first element of lower priority.
* `Sorted.insertBehind`, `perm_insertBehind`: the order is kept and only the element is added.
* `Sorted.find?_maximal`: the first match has maximal priority among all matches.
* `Stable`: elements of the same priority stand in the order in which they have come;
  `Stable.insertBehind`: an insertion of a newcomer keeps it.
* `find?_eq_or_sublist`, `not_sublist_of_find?`: any other match stands behind the first one.
-/

namespace PriorityList

variable {α β : Type*} [LinearOrder β] (prio : α → β)

/-- The priorities of the list never rise. -/
def Sorted (l : List α) : Prop := l.Pairwise fun a b => prio b ≤ prio a

/-- Insert `x` in front of the first element of lower priority. -/
def insertBehind (x : α) : List α → List α
  | [] => [x]
  | y :: ys => if prio y < prio x then x :: y :: ys else y :: insertBehind x ys

/-- The insertion adds `x` and nothing else. -/
theorem perm_insertBehind (x : α) (l : List α) : (insertBehind prio x l).Perm (x :: l) := by
  induction l with
  | nil => exact .refl _
  | cons y ys ih =>
    rw [insertBehind]
    split
    · exact .refl _
    · exact (ih.cons y).trans (.swap x y ys)

/-- The members after an insertion. -/
@[simp]
theorem mem_insertBehind {x a : α} {l : List α} :
    a ∈ insertBehind prio x l ↔ a = x ∨ a ∈ l := by
  rw [(perm_insertBehind prio x l).mem_iff, List.mem_cons]

variable {prio}

/-- The insertion keeps the list sorted. -/
theorem Sorted.insertBehind {l : List α} (h : Sorted prio l) (x : α) :
    Sorted prio (insertBehind prio x l) := by
  induction l with
  | nil => exact List.pairwise_singleton _ _
  | cons y ys ih =>
    obtain ⟨hy, hys⟩ := List.pairwise_cons.1 h
    rw [PriorityList.insertBehind]
    split
    next hlt =>
      refine List.pairwise_cons.2 ⟨fun a ha => ?_, h⟩
      rcases List.mem_cons.1 ha with rfl | ha
      · exact hlt.le
      · exact (hy a ha).trans hlt.le
    next hge =>
      refine List.pairwise_cons.2 ⟨fun a ha => ?_, ih hys⟩
      rcases (mem_insertBehind prio).1 ha with rfl | ha
      · exact not_lt.1 hge
      · exact hy a ha

theorem Sorted.sublist {l l' : List α} (h : Sorted prio l) (hs : l'.Sublist l) :
    Sorted prio l' :=
  List.Pairwise.sublist hs h

/-- Changing elements without changing their priorities keeps the list sorted. -/
theorem Sorted.map {l : List α} (h : Sorted prio l) {f : α → α}
    (hf : ∀ a ∈ l, prio (f a) = prio a) : Sorted prio (l.map f) := by
  rw [Sorted, List.pairwise_map]
  refine List.Pairwise.imp_of_mem (fun {a b} ha hb hab => ?_) h
  rw [hf a ha, hf b hb]
  exact hab

/-- The first match of a sorted list has maximal priority among all matches. -/
theorem Sorted.find?_maximal {l : List α} (h : Sorted prio l) {p : α → Bool} {x : α}
    (hx : l.find? p = some x) {y : α} (hy : y ∈ l) (hpy : p y = true) : prio y ≤ prio x := by
  induction l with
  | nil => cases hy
  | cons a l ih =>
    obtain ⟨ha, hl⟩ := List.pairwise_cons.1 h
    rw [List.find?_cons] at hx
    cases hpa : p a with
    | true =>
      simp only [hpa, Option.some.injEq] at hx
      subst hx
      rcases List.mem_cons.1 hy with rfl | hy
      · exact le_rfl
      · exact ha y hy
    | false =>
      simp only [hpa] at hx
      rcases List.mem_cons.1 hy with rfl | hy
      · rw [hpy] at hpa
        cases hpa
      · exact ih hl hx hy

/-- Every match is the first match or stands behind it. -/
theorem find?_eq_or_sublist {l : List α} {p : α → Bool} {x y : α}
    (hx : l.find? p = some x) (hy : y ∈ l) (hpy : p y = true) : y = x ∨ [x, y].Sublist l := by
  induction l with
  | nil => cases hy
  | cons a l ih =>
    rw [List.find?_cons] at hx
    cases hpa : p a with
    | true =>
      simp only [hpa, Option.some.injEq] at hx
      subst hx
      rcases List.mem_cons.1 hy with rfl | hy
      · exact Or.inl rfl
      · exact Or.inr ((List.singleton_sublist.2 hy).cons_cons a)
    | false =>
      simp only [hpa] at hx
      rcases List.mem_cons.1 hy with rfl | hy
      · rw [hpy] at hpa
        cases hpa
      · exact (ih hx hy).imp_right fun hs => hs.cons a

/-- In a list without duplicates no match stands in front of the first one. -/
theorem not_sublist_of_find? {l : List α} (hn : l.Nodup) {p : α → Bool} {x y : α}
    (hx : l.find? p = some x) (hpy : p y = true) : ¬ [y, x].Sublist l := by
  induction l with
  | nil => cases hx
  | cons a l ih =>
    obtain ⟨ha, hl⟩ := List.nodup_cons.1 hn
    rw [List.find?_cons] at hx
    intro hs
    cases hpa : p a with
    | true =>
      simp only [hpa, Option.some.injEq] at hx
      subst hx
      -- the second element of the pair is the head of the list once more
      cases hs with
      | cons _ hs => exact ha (hs.subset (by simp))
      | cons_cons _ hs => exact ha (hs.subset (by simp))
    | false =>
      simp only [hpa] at hx
      cases hs with
      | cons _ hs => exact ih hl hx hs
      | cons_cons _ hs => exact absurd hpy (by simp [hpa])

/-! ### The order of arrival -/

section Stable

variable {γ : Type*} [LinearOrder γ] (prio) (arrival : α → γ)

/-- The priorities of the list never rise, and where they stay the arrivals do not go back. -/
def Stable (l : List α) : Prop :=
  l.Pairwise fun a b => prio b < prio a ∨ prio b = prio a ∧ arrival a < arrival b

variable {prio arrival}

theorem Stable.sorted {l : List α} (h : Stable prio arrival l) : Sorted prio l :=
  List.Pairwise.imp (fun hab => hab.elim le_of_lt fun hab => hab.1.le) h

theorem Stable.sublist {l l' : List α} (h : Stable prio arrival l) (hs : l'.Sublist l) :
    Stable prio arrival l' :=
  List.Pairwise.sublist hs h

/-- Changing elements without changing their priorities and arrivals keeps the list stable. -/
theorem Stable.map {l : List α} (h : Stable prio arrival l) {f : α → α}
    (hf : ∀ a ∈ l, prio (f a) = prio a ∧ arrival (f a) = arrival a) :
    Stable prio arrival (l.map f) := by
  rw [Stable, List.pairwise_map]
  refine List.Pairwise.imp_of_mem (fun {a b} ha hb hab => ?_) h
  rw [(hf a ha).1, (hf a ha).2, (hf b hb).1, (hf b hb).2]
  exact hab

/-- The insertion of an element that comes after all others keeps the list stable. -/
theorem Stable.insertBehind {l : List α} (h : Stable prio arrival l) {x : α}
    (hx : ∀ a ∈ l, arrival a < arrival x) : Stable prio arrival (insertBehind prio x l) := by
  induction l with
  | nil => exact List.pairwise_singleton _ _
  | cons y ys ih =>
    obtain ⟨hy, hys⟩ := List.pairwise_cons.1 h
    rw [PriorityList.insertBehind]
    split
    next hlt =>
      refine List.pairwise_cons.2 ⟨fun a ha => Or.inl ?_, h⟩
      rcases List.mem_cons.1 ha with rfl | ha
      · exact hlt
      · exact ((hy a ha).elim le_of_lt fun hab => hab.1.le).trans_lt hlt
    next hge =>
      refine List.pairwise_cons.2
        ⟨fun a ha => ?_, ih hys fun a ha => hx a (List.mem_cons_of_mem y ha)⟩
      rcases (mem_insertBehind prio).1 ha with rfl | ha
      · rcases (not_lt.1 hge).lt_or_eq with hlt | heq
        · exact Or.inl hlt
        · exact Or.inr ⟨heq, hx y List.mem_cons_self⟩
      · exact hy a ha

end Stable

end PriorityList
