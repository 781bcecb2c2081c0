import Mathlib.Algebra.GroupWithZero.Nat
import OfAgent.Lib.Visit

/-!
# Greedy batches

A long list is sent in batches: elements are put into a batch until its size reaches a limit, the
batch is sent, and the next one starts with the size of an empty batch.

* `fill`: the elements of the next batch and, when the batch has become full, the rest.
* `boundaries`: the elements that fill a batch, each with the rest behind it.
* `visit_collect`: a visit whose callback fails when the batch is full computes `fill`.
* `run`: calls that each send a batch, until one says that there is no more.
* `Batches`: each call sends the next batch of what remains at its cursor, and what remains behind
  a full batch is a function of the element that filled it.
* `Batches.exists_finished`: if behind each boundary the rest remains, the calls end and their
  batches are the list.
* `Batches.after_eq_of_finished`, `Batches.select_eq_of_finished`: the converse, for cursors that
  select what remains from one list.
* `Batches.exists_prefix`: calls whose cursors go wrong only behind the last element still send
  the list first.
-/

namespace Batching

open Visit

variable {α β ρ : Type*} (size : α → ℕ) (limit header : ℕ)

/-- The elements that are put into a batch of size `n`, and the rest when it has become full. -/
def fill : ℕ → List α → List α × Option (List α)
  | _, [] => ([], none)
  | n, a :: as =>
      if limit ≤ n + size a then ([a], some as)
      else (a :: (fill (n + size a) as).1, (fill (n + size a) as).2)

/-- The elements that fill a batch, each with the rest behind it, when the first batch already has
size `n` and every other one starts with size `header`. -/
def boundaries : ℕ → List α → List (α × List α)
  | _, [] => []
  | n, a :: as =>
      if limit ≤ n + size a then (a, as) :: boundaries header as else boundaries (n + size a) as

/-- The callback that puts an element into a batch and fails when the batch is full. -/
def collect (s : List α × ℕ) (a : α) : (List α × ℕ) × ℤ :=
  ((s.1 ++ [a], s.2 + size a), if limit ≤ s.2 + size a then 1 else 0)

variable {size limit header}

/-- A batch that has not become full takes everything. -/
theorem fill_of_none {n : ℕ} {l : List α} (h : (fill size limit n l).2 = none) :
    (fill size limit n l).1 = l := by
  induction l generalizing n with
  | nil => rfl
  | cons a as ih =>
    rw [fill] at h ⊢
    split at h
    next => cases h
    next hlt => rw [if_neg hlt, ih h]

/-- A batch that has become full and the rest are the list, and the batch is not empty. -/
theorem fill_of_some {n : ℕ} {l rest : List α} (h : (fill size limit n l).2 = some rest) :
    (fill size limit n l).1 ++ rest = l ∧ (fill size limit n l).1 ≠ [] := by
  induction l generalizing n with
  | nil => cases h
  | cons a as ih =>
    rw [fill] at h ⊢
    split at h
    next hle =>
      cases h
      rw [if_pos hle]
      exact ⟨rfl, List.cons_ne_nil _ _⟩
    next hlt =>
      rw [if_neg hlt]
      exact ⟨by rw [List.cons_append, (ih h).1], List.cons_ne_nil _ _⟩

/-- A batch stays within a bound exactly when none of the elements that are put into it takes it
over. -/
theorem fill_le_iff {n bound : ℕ} {l : List α} (hn : n ≤ bound) (hlim : n < limit) :
    n + ((fill size limit n l).1.map size).sum ≤ bound ↔
      ∀ pre a post, l = pre ++ a :: post → n + (pre.map size).sum < limit →
        n + (pre.map size).sum + size a ≤ bound := by
  induction l generalizing n with
  | nil =>
    refine iff_of_true hn fun pre a post h => ?_
    exact absurd (List.append_eq_nil_iff.1 h.symm).2 (List.cons_ne_nil a post)
  | cons b bs ih =>
    -- the condition on the first element, and the one on those behind it
    have hfirst : (∀ pre a post, b :: bs = pre ++ a :: post → n + (pre.map size).sum < limit →
        n + (pre.map size).sum + size a ≤ bound) ↔ n + size b ≤ bound ∧
          ∀ pre a post, bs = pre ++ a :: post → n + size b + (pre.map size).sum < limit →
            n + size b + (pre.map size).sum + size a ≤ bound := by
      constructor
      · intro h
        refine ⟨h [] b bs rfl hlim, fun pre a post heq hlt => ?_⟩
        have hle := h (b :: pre) a post (by rw [heq]; rfl)
        rw [List.map_cons, List.sum_cons, ← Nat.add_assoc] at hle
        exact hle hlt
      · rintro ⟨hb, hrest⟩ pre a post heq hlt
        cases pre with
        | nil =>
          obtain ⟨rfl, -⟩ := List.cons.inj heq
          exact hb
        | cons c pre =>
          obtain ⟨rfl, htail⟩ := List.cons.inj heq
          rw [List.map_cons, List.sum_cons, ← Nat.add_assoc] at hlt ⊢
          exact hrest pre a post htail hlt
    rw [hfirst, fill]
    by_cases hfull : limit ≤ n + size b
    · rw [if_pos hfull, List.map_singleton, List.sum_singleton, iff_self_and]
      exact fun _ pre a post _ hlt => by omega
    · rw [if_neg hfull, List.map_cons, List.sum_cons, ← Nat.add_assoc]
      by_cases hb : n + size b ≤ bound
      · rw [ih hb (by omega), and_iff_right hb]
      · exact iff_of_false (by omega) fun h => hb h.1

/-- A batch that does not become full has no boundary. -/
theorem boundaries_of_none {n : ℕ} {l : List α} (h : (fill size limit n l).2 = none) :
    boundaries size limit header n l = [] := by
  induction l generalizing n with
  | nil => rfl
  | cons a as ih =>
    rw [fill] at h
    split at h
    next => cases h
    next hlt => rw [boundaries, if_neg hlt, ih h]

variable (header) in
/-- The first boundary is the last element of a batch that has become full. -/
theorem boundaries_of_some {n : ℕ} {l rest : List α} (h : (fill size limit n l).2 = some rest) :
    ∃ init a, (fill size limit n l).1 = init ++ [a] ∧
      boundaries size limit header n l = (a, rest) :: boundaries size limit header header rest := by
  induction l generalizing n with
  | nil => cases h
  | cons a as ih =>
    rw [fill] at h ⊢
    rw [boundaries]
    split at h
    next hle =>
      cases h
      rw [if_pos hle, if_pos hle]
      exact ⟨[], a, rfl, rfl⟩
    next hlt =>
      rw [if_neg hlt, if_neg hlt]
      obtain ⟨init, b, hinit, hb⟩ := ih h
      exact ⟨a :: init, b, by rw [hinit, List.cons_append], hb⟩

/-- A boundary splits the list. -/
theorem split_of_mem_boundaries {n : ℕ} {l : List α} {b : α × List α}
    (h : b ∈ boundaries size limit header n l) : ∃ pre, l = pre ++ b.1 :: b.2 := by
  induction l generalizing n with
  | nil => cases h
  | cons a as ih =>
    rw [boundaries] at h
    split at h
    next =>
      rcases List.mem_cons.1 h with rfl | h
      · exact ⟨[], rfl⟩
      · obtain ⟨pre, rfl⟩ := ih h
        exact ⟨a :: pre, rfl⟩
    next =>
      obtain ⟨pre, rfl⟩ := ih h
      exact ⟨a :: pre, rfl⟩

variable (size limit) in
/-- A visit that collects a batch puts the same elements into it as `fill`, stops at the last of
them where it is full, and leaves it full exactly when it has been stopped. -/
theorem visit_collect (l acc : List α) {n : ℕ} (hn : n < limit) :
    (visit (collect size limit) l (acc, n)).1.1 = acc ++ (fill size limit n l).1 ∧
      (visit (collect size limit) l (acc, n)).2.map Stop.rest = (fill size limit n l).2 ∧
      (∀ st ∈ (visit (collect size limit) l (acc, n)).2,
        (fill size limit n l).1.getLast? = some st.elem) ∧
      (limit ≤ (visit (collect size limit) l (acc, n)).1.2 ↔
        (visit (collect size limit) l (acc, n)).2.isSome = true) := by
  induction l generalizing acc n with
  | nil => simp [visit, fill, hn]
  | cons a as ih =>
    by_cases hle : limit ≤ n + size a
    · simp [visit, fill, collect, hle]
    · have hstep : visit (collect size limit) (a :: as) (acc, n) =
          visit (collect size limit) as (acc ++ [a], n + size a) := by
        simp [visit, collect, hle]
      obtain ⟨h1, h2, h3, h4⟩ := ih (acc ++ [a]) (Nat.lt_of_not_le hle)
      rw [hstep, fill, if_neg hle]
      refine ⟨?_, h2, fun st hst => ?_, h4⟩
      · rw [h1, List.append_assoc]
        rfl
      · rw [List.getLast?_cons, h3 st hst]
        rfl

/-! ### Sending all batches -/

variable (call : ℕ → ρ → β × ρ) (more : β → Bool)

/-- The replies of at most `fuel` calls, the first of which is call number `k`; the calls end with
the first reply that says that there is no more. -/
def run : ℕ → ℕ → ρ → List β
  | 0, _, _ => []
  | fuel + 1, k, p =>
      (call k p).1 :: if more (call k p).1 then run fuel (k + 1) (call k p).2 else []

/-- The replies are all there: the last one and only the last one says that there is no more. -/
def Finished (replies : List β) : Prop :=
  ∃ init last, replies = init ++ [last] ∧ (∀ r ∈ init, more r = true) ∧ more last = false

variable {call more} {items : β → List α} {remaining : ρ → List α} {after : α → List α → List α}

variable (size limit header call more items remaining after) in
/-- Each call sends the next batch of what remains at its cursor. -/
structure Batches : Prop where
  /-- The reply holds the next batch. -/
  items_eq : ∀ k p, items (call k p).1 = (fill size limit header (remaining p)).1
  /-- The reply says that there is more exactly when the batch is full. -/
  more_eq : ∀ k p, more (call k p).1 = (fill size limit header (remaining p)).2.isSome
  /-- What remains behind a full batch. -/
  rest : ∀ k p l, (fill size limit header (remaining p)).2 = some l →
    ∀ a ∈ (fill size limit header (remaining p)).1.getLast?, remaining (call k p).2 = after a l

variable (size limit header after) in
/-- Behind each boundary of a list, the rest remains. -/
def Resumable (l : List α) : Prop :=
  ∀ b ∈ boundaries size limit header header l, after b.1 b.2 = b.2

/-- Calls on the images of cursors send what the calls on the cursors send. -/
theorem run_map {ρ' : Type*} {call' : ℕ → ρ' → β × ρ'} {g : ρ' → ρ}
    (h : ∀ k c, call k (g c) = ((call' k c).1, g (call' k c).2)) (fuel k : ℕ) (c : ρ') :
    run call more fuel k (g c) = run call' more fuel k c := by
  induction fuel generalizing k c with
  | zero => rfl
  | succ fuel ih => rw [run, run, h, ih]

theorem finished_cons_of_not_more {r : β} (h : more r = false) : Finished more [r] :=
  ⟨[], r, rfl, by simp, h⟩

/-- A reply with more in front. -/
theorem finished_cons_iff {r : β} {rs : List β} (h : more r = true) :
    Finished more (r :: rs) ↔ Finished more rs := by
  constructor
  · rintro ⟨init, last, heq, hinit, hlast⟩
    cases init with
    | nil =>
      cases heq
      rw [h] at hlast
      cases hlast
    | cons b init =>
      cases heq
      exact ⟨init, last, rfl, fun r hr => hinit r (List.mem_cons_of_mem _ hr), hlast⟩
  · rintro ⟨init, last, rfl, hinit, hlast⟩
    refine ⟨r :: init, last, rfl, fun b hb => ?_, hlast⟩
    rcases List.mem_cons.1 hb with rfl | hb
    · exact h
    · exact hinit b hb

theorem not_finished_nil : ¬ Finished more ([] : List β) := by
  rintro ⟨init, last, heq, -⟩
  simp at heq

/-- Splitting a list without repetitions at an element of it. -/
theorem eq_of_append_cons_eq {a : α} {xs ys xs' ys' : List α} (hnd : (xs ++ a :: ys).Nodup)
    (h : xs ++ a :: ys = xs' ++ a :: ys') : ys = ys' := by
  obtain ⟨-, hys, hdisj⟩ := List.nodup_append.1 hnd
  have hxs : a ∉ xs := fun hmem => hdisj a hmem a List.mem_cons_self rfl
  exact ((List.append_cons_inj_of_notMem hxs (List.nodup_cons.1 hys).1).1 h).2.2

namespace Batches

variable (h : Batches size limit header call more items remaining after)
include h

/-- A call that sends everything that remains ends the run. -/
theorem run_of_none (fuel k : ℕ) {p : ρ} (hn : (fill size limit header (remaining p)).2 = none) :
    run call more (fuel + 1) k p = [(call k p).1] ∧ more (call k p).1 = false ∧
      items (call k p).1 = remaining p := by
  have hmore : more (call k p).1 = false := by rw [h.more_eq, hn]; rfl
  refine ⟨?_, hmore, ?_⟩
  · rw [run, hmore]
    rfl
  · rw [h.items_eq, fill_of_none hn]

/-- A call that sends a full batch is followed by the next one. -/
theorem run_of_some (fuel k : ℕ) {p : ρ} {l : List α}
    (hs : (fill size limit header (remaining p)).2 = some l) :
    run call more (fuel + 1) k p = (call k p).1 :: run call more fuel (k + 1) (call k p).2 ∧
      more (call k p).1 = true ∧ items (call k p).1 ++ l = remaining p ∧
      items (call k p).1 ≠ [] := by
  have hmore : more (call k p).1 = true := by rw [h.more_eq, hs]; rfl
  obtain ⟨happ, hne⟩ := fill_of_some hs
  refine ⟨?_, hmore, by rw [h.items_eq, happ], by rw [h.items_eq]; exact hne⟩
  rw [run, hmore]
  rfl

/-- The boundary behind a full batch. -/
theorem boundary_of_some (k : ℕ) {p : ρ} {l : List α}
    (hs : (fill size limit header (remaining p)).2 = some l) :
    ∃ init a, items (call k p).1 = init ++ [a] ∧ remaining (call k p).2 = after a l ∧
      boundaries size limit header header (remaining p) =
        (a, l) :: boundaries size limit header header l := by
  obtain ⟨init, a, hinit, hb⟩ := boundaries_of_some header hs
  refine ⟨init, a, by rw [h.items_eq, hinit], h.rest k p l hs a ?_, hb⟩
  rw [hinit, List.getLast?_append, List.getLast?_singleton]
  rfl

/-- The rest behind a full batch is shorter than what remained. -/
theorem length_rest_lt (k : ℕ) {p : ρ} {l : List α}
    (hs : (fill size limit header (remaining p)).2 = some l) :
    l.length < (remaining p).length := by
  obtain ⟨-, -, happ, hne⟩ := h.run_of_some 0 k hs
  have := List.length_pos_iff.2 hne
  rw [← happ, List.length_append]
  omega

/-- If behind each boundary the rest remains, the calls end and their batches are the list. -/
theorem exists_finished (k : ℕ) {p : ρ}
    (hres : Resumable size limit header after (remaining p)) :
    ∃ fuel, Finished more (run call more fuel k p) ∧
      (run call more fuel k p).flatMap items = remaining p := by
  -- every full batch takes at least one element, so the rest is shorter
  induction hlen : (remaining p).length using Nat.strongRecOn generalizing k p with
  | ind len ih =>
    cases hfill : (fill size limit header (remaining p)).2 with
    | none =>
      obtain ⟨hrun, hmore, hitems⟩ := h.run_of_none 0 k hfill
      refine ⟨1, ?_, ?_⟩
      · rw [hrun]
        exact finished_cons_of_not_more hmore
      · rw [hrun, List.flatMap_cons, List.flatMap_nil, List.append_nil, hitems]
    | some l =>
      obtain ⟨init, a, -, hnext, hb⟩ := h.boundary_of_some k hfill
      rw [Resumable, hb] at hres
      have hl : remaining (call k p).2 = l := hnext.trans (hres _ List.mem_cons_self)
      have hlt := h.length_rest_lt k hfill
      obtain ⟨fuel, hfin, hflat⟩ := ih l.length (by omega) (k + 1)
        (fun b hmem => hres b (List.mem_cons_of_mem _ (hl ▸ hmem))) (by rw [hl])
      obtain ⟨hrun, hmore, happ, -⟩ := h.run_of_some fuel k hfill
      refine ⟨fuel + 1, ?_, ?_⟩
      · rw [hrun, finished_cons_iff hmore]
        exact hfin
      · rw [hrun, List.flatMap_cons, hflat, hl, happ]

/-- If the calls end and their batches are the list, behind each boundary the rest remains,
provided that calls behind an element send the rest only where it remains. -/
theorem after_eq_of_finished {all : List α}
    (hexact : ∀ fuel k p pre a l, all = pre ++ a :: l → remaining p = after a l →
      Finished more (run call more fuel k p) → (run call more fuel k p).flatMap items = l →
      after a l = l)
    {fuel k : ℕ} {p : ρ} {pre : List α} (hall : all = pre ++ remaining p)
    (hfin : Finished more (run call more fuel k p))
    (hflat : (run call more fuel k p).flatMap items = remaining p) :
    Resumable size limit header after (remaining p) := by
  induction fuel generalizing k p pre with
  | zero => exact absurd hfin not_finished_nil
  | succ fuel ih =>
    -- the last batch has no boundary; any other one ends at one
    cases hfill : (fill size limit header (remaining p)).2 with
    | none =>
      rw [Resumable, boundaries_of_none hfill]
      simp
    | some l =>
      obtain ⟨init, a, hinit, hnext, hb⟩ := h.boundary_of_some k hfill
      obtain ⟨hrun, hmore, happ, -⟩ := h.run_of_some fuel k hfill
      rw [hrun, finished_cons_iff hmore] at hfin
      rw [hrun, List.flatMap_cons, ← happ, List.append_cancel_left_eq] at hflat
      have hsplit : all = (pre ++ init) ++ a :: l := by
        rw [hall, ← happ, hinit, List.append_assoc, List.append_assoc, List.singleton_append]
      have hafter : after a l = l := hexact fuel (k + 1) _ _ a l hsplit hnext hfin hflat
      have hl : remaining (call k p).2 = l := hnext.trans hafter
      have hall' : all = (pre ++ items (call k p).1) ++ remaining (call k p).2 := by
        rw [hl, List.append_assoc, happ, hall]
      have hrest := ih hall' hfin (hflat.trans hl.symm)
      rw [hl] at hrest
      rw [Resumable, hb]
      intro b hmem
      rcases List.mem_cons.1 hmem with rfl | hmem
      · exact hafter
      · exact hrest b hmem

/-- When the cursors select what remains from one list, and each selects less than the one before
it or starts over, calls behind an element send the rest only where it is selected. -/
theorem select_eq_of_finished {all : List α} (hnd : all.Nodup) (sel : α → α → Bool)
    (hafter : ∀ a ∈ all, ∀ l, after a l = all.filter (sel a))
    (hsel : ∀ a b, sel a b = true →
      (∀ x, sel b x = true → sel a x = true) ∨ ∀ x, sel b x = true)
    {fuel k : ℕ} {p : ρ} {pre rest : List α} {a : α} (hall : all = pre ++ a :: rest)
    (hp : remaining p = all.filter (sel a)) (hfin : Finished more (run call more fuel k p))
    (hflat : (run call more fuel k p).flatMap items = rest) : all.filter (sel a) = rest := by
  induction fuel generalizing k p pre a rest with
  | zero => exact absurd hfin not_finished_nil
  | succ fuel ih =>
    cases hfill : (fill size limit header (remaining p)).2 with
    | none =>
      obtain ⟨hrun, -, hitems⟩ := h.run_of_none fuel k hfill
      rw [hrun, List.flatMap_cons, List.flatMap_nil, List.append_nil, hitems] at hflat
      exact hp.symm.trans hflat
    | some l =>
      obtain ⟨init, b, hinit, hnext, -⟩ := h.boundary_of_some k hfill
      obtain ⟨hrun, hmore, happ, -⟩ := h.run_of_some fuel k hfill
      rw [hrun, finished_cons_iff hmore] at hfin
      rw [hrun, List.flatMap_cons, hinit, List.append_assoc, List.singleton_append] at hflat
      rw [hinit, List.append_assoc, List.singleton_append, hp] at happ
      have hball : b ∈ all.filter (sel a) := by
        rw [← happ]
        exact List.mem_append_right _ List.mem_cons_self
      obtain ⟨hmem, hb⟩ := List.mem_filter.1 hball
      -- the calls behind `b` send what is behind `b` in the whole list
      have hsplit : all = (pre ++ a :: init) ++
          b :: (run call more fuel (k + 1) (call k p).2).flatMap items := by
        rw [hall, ← hflat, List.append_assoc, List.cons_append]
      have hrest := ih hsplit (hnext.trans (hafter b hmem l)) hfin rfl
      rcases hsel a b hb with hsub | hover
      · have hl : l = (run call more fuel (k + 1) (call k p).2).flatMap items := by
          have hfilter := congrArg (List.filter (sel a)) hsplit
          rw [List.filter_append, List.filter_cons_of_pos hb, ← happ] at hfilter
          rw [eq_of_append_cons_eq (happ ▸ hnd.filter _) hfilter, List.filter_eq_self]
          intro x hx
          rw [← hrest] at hx
          exact hsub x (List.mem_filter.1 hx).2
        rw [← happ, hl, hflat]
      · -- starting over sends the whole list, which is longer than what is behind `b`
        rw [List.filter_eq_self.2 fun x _ => hover x] at hrest
        have := congrArg List.length hsplit
        rw [← hrest, List.length_append, List.length_cons] at this
        omega

/-- Calls whose cursors go wrong only where nothing should remain begin by sending the list. -/
theorem exists_prefix (k : ℕ) {p : ρ}
    (hres : ∀ b ∈ boundaries size limit header header (remaining p),
      after b.1 b.2 = b.2 ∨ b.2 = []) :
    ∃ fuel, remaining p <+: (run call more fuel k p).flatMap items := by
  induction hlen : (remaining p).length using Nat.strongRecOn generalizing k p with
  | ind len ih =>
    cases hfill : (fill size limit header (remaining p)).2 with
    | none =>
      obtain ⟨hrun, -, hitems⟩ := h.run_of_none 0 k hfill
      have hall : (run call more 1 k p).flatMap items = remaining p := by
        rw [hrun, List.flatMap_cons, List.flatMap_nil, List.append_nil, hitems]
      exact ⟨1, hall ▸ List.prefix_rfl⟩
    | some l =>
      obtain ⟨init, a, -, hnext, hb⟩ := h.boundary_of_some k hfill
      rw [hb] at hres
      have happ := (h.run_of_some 0 k hfill).2.2.1
      have hlt := h.length_rest_lt k hfill
      rcases hres _ List.mem_cons_self with hafter | hnil
      · have hl : remaining (call k p).2 = l := hnext.trans hafter
        -- the cursor is right, and the rest is sent by the next calls
        obtain ⟨fuel, hpre⟩ := ih l.length (by omega) (k + 1)
          (fun b hmem => hres b (List.mem_cons_of_mem _ (hl ▸ hmem))) (by rw [hl])
        refine ⟨fuel + 1, ?_⟩
        rw [(h.run_of_some fuel k hfill).1, List.flatMap_cons, ← happ]
        exact (List.prefix_append_right_inj _).2 (hl ▸ hpre)
      -- it may be wrong, since all has been sent
      · obtain rfl : l = [] := hnil
        refine ⟨1, ?_⟩
        rw [(h.run_of_some 0 k hfill).1, List.flatMap_cons, ← happ, List.append_nil]
        exact List.prefix_append _ _

/-- Every element that is sent remained at some cursor. -/
theorem mem_of_mem_run {fuel k : ℕ} {p : ρ} {r : β} (hr : r ∈ run call more fuel k p) {a : α}
    (ha : a ∈ items r) : ∃ q, a ∈ remaining q := by
  induction fuel generalizing k p with
  | zero => cases hr
  | succ fuel ih =>
    cases hfill : (fill size limit header (remaining p)).2 with
    | none =>
      obtain ⟨hrun, -, hitems⟩ := h.run_of_none fuel k hfill
      rw [hrun, List.mem_singleton] at hr
      subst hr
      exact ⟨p, hitems ▸ ha⟩
    | some l =>
      obtain ⟨hrun, -, happ, -⟩ := h.run_of_some fuel k hfill
      rw [hrun] at hr
      rcases List.mem_cons.1 hr with rfl | hr
      · exact ⟨p, happ ▸ List.mem_append_left _ ha⟩
      · exact ih hr

end Batches

end Batching
