import Mathlib.Data.List.Basic

/-!
# Walks over type-length-value lists

A walk reads a header at the front of what is left of a byte area, hands the item to a body,
and skips as many bytes as the header's length field says, until nothing is left. The length is
taken from the data, so the walk can leave the area, skip more than is left, or stay where it
is.

* `walk`: the loop, with fuel; it stops with a `Fault` instead of reading outside the area,
  taking more than is left, or running out of fuel.
* `Delimited`: from every header on, a whole header is left and its length is positive and at
  most what is left.
* `walk_ok_iff`: with some fuel the walk ends without a fault exactly on a delimited area, and
  then as much fuel as the area has bytes is enough (`walk_length_of_delimited`).
* `items`, `foldlM_items_of_walk`: the items that a walk visits, and the walk as a fold over
  them; `selected`, `foldl_selected_of_walk`: the ordinals of the items that a body reacts to, which
  ascend.
* `IsItem`, `split_flatten`: a concatenation of items can be cut into them again, and so is the one
  of a single list (`flatten_injective`); `walk_flatten`: a walk over a concatenation goes from item
  to item.
-/

namespace Tlv

variable {α σ ε : Type*}

/-- What can go wrong in a walk. -/
inductive Fault
  /-- Less than a header is left. -/
  | headerOutside
  /-- The length of an item exceeds what is left. -/
  | lengthWraps
  /-- The fuel is used up before the area is. -/
  | endless
  deriving DecidableEq, Repr

variable (hdr : ℕ) (len : List α → ℕ)

/-- The walk: `body k rest s` handles the `k`-th item, which starts at the front of `rest`. -/
def walk (fault : Fault → ε) (body : ℕ → List α → σ → Except ε σ) :
    ℕ → ℕ → List α → σ → Except ε σ
  | _, _, [], s => .ok s
  | 0, _, _ :: _, _ => .error (fault .endless)
  | fuel + 1, k, b :: bs, s =>
      if (b :: bs).length < hdr then .error (fault .headerOutside)
      else
        match body k (b :: bs) s with
        | .error e => .error e
        | .ok s' =>
            if (b :: bs).length < len (b :: bs) then .error (fault .lengthWraps)
            else walk fault body fuel (k + 1) ((b :: bs).drop (len (b :: bs))) s'

/-- From the `k`-th header on, whole headers with fitting positive lengths divide the area, and
every item satisfies `ok`. -/
inductive Delimited (ok : ℕ → List α → Prop) : ℕ → List α → Prop
  | nil {k : ℕ} : Delimited ok k []
  | cons {k : ℕ} {rest : List α} :
      hdr ≤ rest.length → 0 < len rest → len rest ≤ rest.length → ok k rest →
      Delimited ok (k + 1) (rest.drop (len rest)) → Delimited ok k rest

variable {hdr len} {fault : Fault → ε} {body : ℕ → List α → σ → Except ε σ}
  {ok ok' : ℕ → List α → Prop}

theorem Delimited.mono (himp : ∀ k rest, ok k rest → ok' k rest) {k : ℕ} {rest : List α}
    (h : Delimited hdr len ok k rest) : Delimited hdr len ok' k rest := by
  induction h with
  | nil => exact .nil
  | cons h1 h2 h3 h4 _ ih => exact .cons h1 h2 h3 (himp _ _ h4) ih

/-- The walk over an area that is used up. -/
@[simp]
theorem walk_nil (fuel k : ℕ) (s : σ) : walk hdr len fault body fuel k [] s = .ok s := by
  cases fuel <;> rfl

/-- One turn of the walk that ends well: the header is inside, the body succeeds, the length
fits, and the rest of the walk ends well. -/
theorem walk_ok_step {fuel k : ℕ} {rest : List α} {s s' : σ} (hne : rest ≠ [])
    (h : walk hdr len fault body fuel k rest s = .ok s') :
    ∃ fuel' s₁, fuel = fuel' + 1 ∧ hdr ≤ rest.length ∧ body k rest s = .ok s₁ ∧
      len rest ≤ rest.length ∧
      walk hdr len fault body fuel' (k + 1) (rest.drop (len rest)) s₁ = .ok s' := by
  cases rest with
  | nil => exact absurd rfl hne
  | cons b bs =>
    cases fuel with
    | zero => simp [walk] at h
    | succ fuel =>
      rw [walk] at h
      split at h
      next => cases h
      next hhdr =>
        cases hb : body k (b :: bs) s with
        | error e => simp [hb] at h
        | ok s₁ =>
          simp only [hb] at h
          split at h
          next => cases h
          next hlen => exact ⟨fuel, s₁, rfl, Nat.not_lt.1 hhdr, rfl, Nat.not_lt.1 hlen, h⟩

/-- The only faults of a walk are its own and those of its body. -/
theorem walk_ne_error {e : ε} (hfault : ∀ f, fault f ≠ e)
    (hbody : ∀ k rest s, body k rest s ≠ .error e) (fuel k : ℕ) (rest : List α) (s : σ) :
    walk hdr len fault body fuel k rest s ≠ .error e := by
  induction fuel generalizing k rest s with
  | zero =>
    cases rest with
    | nil => simp
    | cons b bs => simpa [walk] using hfault .endless
  | succ fuel ih =>
    cases rest with
    | nil => simp
    | cons b bs =>
      rw [walk]
      split
      next => simpa using hfault .headerOutside
      next =>
        split
        next e' hb =>
          intro h
          exact hbody _ _ _ (hb.trans h)
        next =>
          split
          next => simpa using hfault .lengthWraps
          next => exact ih _ _ _

/-- A header of length zero keeps the walk where it is, so no fuel is enough. -/
theorem walk_ne_ok_of_len_zero {rest : List α} (hne : rest ≠ []) (hlen : len rest = 0)
    (fuel k : ℕ) (s s' : σ) : walk hdr len fault body fuel k rest s ≠ .ok s' := by
  induction fuel generalizing k s with
  | zero =>
    intro h
    obtain ⟨fuel', -, hf, -⟩ := walk_ok_step hne h
    omega
  | succ fuel ih =>
    intro h
    obtain ⟨fuel', s₁, hf, -, -, -, hw⟩ := walk_ok_step hne h
    obtain rfl : fuel = fuel' := by omega
    rw [hlen, List.drop_zero] at hw
    exact ih _ _ hw

/-- A walk that ends well has passed a delimited area. -/
theorem delimited_of_walk (hbody : ∀ k rest s s', body k rest s = .ok s' → ok k rest)
    {fuel k : ℕ} {rest : List α} {s s' : σ}
    (h : walk hdr len fault body fuel k rest s = .ok s') : Delimited hdr len ok k rest := by
  induction fuel generalizing k rest s with
  | zero =>
    by_cases hne : rest = []
    · exact hne ▸ .nil
    · obtain ⟨_, -, hf, -⟩ := walk_ok_step hne h
      omega
  | succ fuel ih =>
    by_cases hne : rest = []
    · exact hne ▸ .nil
    · have hpos : 0 < len rest := by
        rcases Nat.eq_zero_or_pos (len rest) with h0 | hpos
        · exact absurd h (walk_ne_ok_of_len_zero hne h0 _ _ _ _)
        · exact hpos
      obtain ⟨fuel', s₁, hf, hhdr, hb, hlen, hw⟩ := walk_ok_step hne h
      obtain rfl : fuel = fuel' := by omega
      exact .cons hhdr hpos hlen (hbody _ _ _ _ hb) (ih hw)

variable (fault) in
/-- On a delimited area the walk ends well with as much fuel as there are bytes. -/
theorem walk_length_of_delimited
    (hbody : ∀ k rest s, hdr ≤ rest.length → ok k rest → ∃ s', body k rest s = .ok s')
    {k : ℕ} {rest : List α} (h : Delimited hdr len ok k rest) (fuel : ℕ)
    (hfuel : rest.length ≤ fuel) (s : σ) :
    ∃ s', walk hdr len fault body fuel k rest s = .ok s' := by
  induction h generalizing fuel s with
  | nil => exact ⟨s, walk_nil ..⟩
  | @cons k rest hhdr hpos hlen hok _ ih =>
    cases rest with
    | nil => simp only [List.length_nil] at hlen; omega
    | cons b bs =>
      cases fuel with
      | zero => simp at hfuel
      | succ fuel =>
        obtain ⟨s₁, hs₁⟩ := hbody k (b :: bs) s hhdr hok
        have hdrop : ((b :: bs).drop (len (b :: bs))).length ≤ fuel := by
          rw [List.length_drop]
          omega
        obtain ⟨s', hs'⟩ := ih fuel hdrop s₁
        refine ⟨s', ?_⟩
        rw [walk, if_neg (Nat.not_lt.2 hhdr), hs₁]
        simp only
        rw [if_neg (Nat.not_lt.2 hlen), hs']

/-- With some fuel the walk ends without a fault exactly on a delimited area. -/
theorem walk_ok_iff
    (hbody : ∀ k rest s, hdr ≤ rest.length → (ok k rest ↔ ∃ s', body k rest s = .ok s'))
    (hok : ∀ k rest s s', body k rest s = .ok s' → ok k rest) (k : ℕ) (rest : List α) (s : σ) :
    (∃ fuel s', walk hdr len fault body fuel k rest s = .ok s') ↔
      Delimited hdr len ok k rest := by
  constructor
  · rintro ⟨fuel, s', h⟩
    exact delimited_of_walk hok h
  · intro h
    obtain ⟨s', hs'⟩ := walk_length_of_delimited fault
      (fun k rest s hh => (hbody k rest s hh).1) h rest.length (Nat.le_refl _) s
    exact ⟨rest.length, s', hs'⟩

variable (len) in
/-- The items of an area with their ordinals: each is given by the bytes from its header on. -/
def items : ℕ → ℕ → List α → List (ℕ × List α)
  | _, _, [] => []
  | 0, _, _ :: _ => []
  | fuel + 1, k, b :: bs =>
      (k, b :: bs) :: items fuel (k + 1) ((b :: bs).drop (len (b :: bs)))

variable (len) in
/-- The bytes of the items of an area, each as long as its header says. -/
def split (fuel : ℕ) (rest : List α) : List (List α) :=
  (items len fuel 0 rest).map fun i => i.2.take (len i.2)

/-- The items of an area that is used up. -/
@[simp]
theorem items_nil (fuel k : ℕ) : items len fuel k ([] : List α) = [] := by
  cases fuel <;> rfl

/-- The items of an area that is not used up, with fuel left. -/
theorem items_succ {fuel k : ℕ} {rest : List α} (hne : rest ≠ []) :
    items len (fuel + 1) k rest =
      (k, rest) :: items len fuel (k + 1) (rest.drop (len rest)) := by
  cases rest with
  | nil => exact absurd rfl hne
  | cons b bs => rfl

/-- A walk that ends well is the fold of its body over the items. -/
theorem foldlM_items_of_walk {fuel k : ℕ} {rest : List α} {s s' : σ}
    (h : walk hdr len fault body fuel k rest s = .ok s') :
    (items len fuel k rest).foldlM (fun s i => body i.1 i.2 s) s = .ok s' := by
  induction fuel generalizing k rest s with
  | zero =>
    by_cases hne : rest = []
    · subst hne
      rw [walk_nil] at h
      rw [items_nil, List.foldlM_nil]
      exact h
    · obtain ⟨_, -, hf, -⟩ := walk_ok_step hne h
      omega
  | succ fuel ih =>
    by_cases hne : rest = []
    · subst hne
      rw [walk_nil] at h
      rw [items_nil, List.foldlM_nil]
      exact h
    · obtain ⟨fuel', s₁, hf, -, hb, -, hw⟩ := walk_ok_step hne h
      obtain rfl : fuel = fuel' := by omega
      rw [items_succ hne, List.foldlM_cons, hb]
      exact ih hw

variable (len) in
/-- The ordinals of the items that satisfy `p`. -/
def selected (p : List α → Bool) (fuel k : ℕ) (rest : List α) : List ℕ :=
  ((items len fuel k rest).filter fun i => p i.2).map Prod.fst

/-- The ordinals of the items are counted up. -/
theorem map_fst_items (fuel k : ℕ) (rest : List α) :
    (items len fuel k rest).map Prod.fst = List.range' k (items len fuel k rest).length := by
  induction fuel generalizing k rest with
  | zero => cases rest <;> rfl
  | succ fuel ih =>
    cases rest with
    | nil => rfl
    | cons b bs => rw [items, List.map_cons, List.length_cons, List.range'_succ, ih]

/-- The ordinals that are selected are some of those of the items, in order. -/
theorem selected_sublist (p : List α → Bool) (fuel k : ℕ) (rest : List α) :
    (selected len p fuel k rest).Sublist (List.range' k (items len fuel k rest).length) := by
  rw [← map_fst_items]
  exact List.filter_sublist.map Prod.fst

theorem pairwise_selected (p : List α → Bool) (fuel k : ℕ) (rest : List α) :
    (selected len p fuel k rest).Pairwise (· < ·) :=
  List.Pairwise.sublist (selected_sublist p fuel k rest) List.pairwise_lt_range'

variable (len) in
/-- There are no more items than fuel. -/
theorem length_selected_le (p : List α → Bool) (fuel k : ℕ) (rest : List α) :
    (selected len p fuel k rest).length ≤ fuel := by
  have hitems : (items len fuel k rest).length ≤ fuel := by
    induction fuel generalizing k rest with
    | zero => cases rest <;> exact Nat.le_refl _
    | succ fuel ih =>
      cases rest with
      | nil => exact Nat.zero_le _
      | cons b bs => exact Nat.succ_le_succ (ih _ _)
  calc (selected len p fuel k rest).length
      ≤ (List.range' k (items len fuel k rest).length).length :=
        (selected_sublist p fuel k rest).length_le
    _ = (items len fuel k rest).length := List.length_range'
    _ ≤ fuel := hitems

/-- A walk that ends well, when the body only reacts to the items that satisfy `p`. -/
theorem foldl_selected_of_walk {p : List α → Bool} {step : σ → ℕ → σ}
    (hbody : ∀ k rest s s', body k rest s = .ok s' → s' = if p rest then step s k else s)
    {fuel k : ℕ} {rest : List α} {s s' : σ}
    (h : walk hdr len fault body fuel k rest s = .ok s') :
    s' = (selected len p fuel k rest).foldl step s := by
  have hfold := foldlM_items_of_walk h
  unfold selected
  clear h
  generalize items len fuel k rest = l at hfold
  induction l generalizing s with
  | nil => exact (Except.ok.inj hfold).symm
  | cons i l ih =>
    rw [List.foldlM_cons] at hfold
    cases hb : body i.1 i.2 s with
    | error e => simp [hb, bind, Except.bind] at hfold
    | ok s₁ =>
      simp only [hb, bind, Except.bind] at hfold
      rw [List.filter_cons]
      have hs₁ := hbody _ _ _ _ hb
      split at hs₁
      next hp =>
        rw [if_pos hp, List.map_cons, List.foldl_cons, ← hs₁]
        exact ih hfold
      next hp =>
        rw [if_neg hp, ← hs₁]
        exact ih hfold

/-! ### Concatenations of items -/

variable (hdr len) in
/-- The bytes of one item: a whole header, and as many bytes as it says. -/
structure IsItem (a : List α) : Prop where
  /-- The header is whole. -/
  header : hdr ≤ a.length
  /-- The item is not empty. -/
  pos : 0 < a.length
  /-- The header says how long the item is. -/
  length_eq : len a = a.length

section Concatenation

variable {items : List (List α)}

theorem IsItem.len_append (hlocal : ∀ a b : List α, hdr ≤ a.length → len (a ++ b) = len a)
    {a : List α} (h : IsItem hdr len a) (b : List α) : len (a ++ b) = a.length :=
  (hlocal a b h.header).trans h.length_eq

/-- The items of a concatenation, with fuel left: the first one is at the front. -/
theorem items_flatten_cons (hlocal : ∀ a b : List α, hdr ≤ a.length → len (a ++ b) = len a)
    {a : List α} (ha : IsItem hdr len a) (fuel k : ℕ) :
    Tlv.items len (fuel + 1) k (a :: items).flatten =
      (k, a ++ items.flatten) :: Tlv.items len fuel (k + 1) items.flatten := by
  have hne : a ++ items.flatten ≠ [] := by
    have hpos := ha.pos
    intro h
    rw [(List.append_eq_nil_iff.1 h).1, List.length_nil] at hpos
    omega
  rw [List.flatten_cons, items_succ hne, ha.len_append hlocal, List.drop_left]

/-- Cutting a concatenation gives back its items. -/
theorem split_flatten (hlocal : ∀ a b : List α, hdr ≤ a.length → len (a ++ b) = len a)
    (hitem : ∀ a ∈ items, IsItem hdr len a) {fuel : ℕ} (hfuel : items.length ≤ fuel) :
    split len fuel items.flatten = items := by
  -- the ordinals play no part
  suffices h : ∀ k, (Tlv.items len fuel k items.flatten).map (fun i => i.2.take (len i.2)) =
      items from h 0
  intro k
  induction items generalizing fuel k with
  | nil => rw [List.flatten_nil, items_nil, List.map_nil]
  | cons a items ih =>
    obtain ⟨fuel, rfl⟩ : ∃ n, fuel = n + 1 :=
      Nat.exists_eq_add_one.2 (by rw [List.length_cons] at hfuel; omega)
    have ha := hitem a List.mem_cons_self
    rw [items_flatten_cons hlocal ha, List.map_cons, ha.len_append hlocal, List.take_left,
      ih (fun x hx => hitem x (List.mem_cons_of_mem _ hx)) (Nat.le_of_succ_le_succ hfuel)]

/-- An area is a concatenation of items in one way only. -/
theorem flatten_injective (hlocal : ∀ a b : List α, hdr ≤ a.length → len (a ++ b) = len a)
    {items' : List (List α)} (hitem : ∀ a ∈ items, IsItem hdr len a)
    (hitem' : ∀ a ∈ items', IsItem hdr len a) (h : items.flatten = items'.flatten) :
    items = items' := by
  have hsplit := split_flatten hlocal hitem (Nat.le_add_right items.length items'.length)
  have hsplit' := split_flatten hlocal hitem' (Nat.le_add_left items'.length items.length)
  rw [← hsplit, h, hsplit']

/-- A walk over a concatenation of items handles one item after the other, when its body reads no
more than the item. -/
theorem walk_flatten (hlocal : ∀ a b : List α, hdr ≤ a.length → len (a ++ b) = len a)
    {bodyItem : List α → σ → Except ε σ} (hitem : ∀ a ∈ items, IsItem hdr len a)
    (hbody : ∀ a ∈ items, ∀ k b s, body k (a ++ b) s = bodyItem a s) {fuel : ℕ}
    (hfuel : items.length ≤ fuel) (k : ℕ) (s : σ) :
    walk hdr len fault body fuel k items.flatten s =
      items.foldlM (fun s a => bodyItem a s) s := by
  induction items generalizing fuel k s with
  | nil =>
    rw [List.flatten_nil, walk_nil]
    rfl
  | cons a items ih =>
    obtain ⟨fuel, rfl⟩ : ∃ n, fuel = n + 1 :=
      Nat.exists_eq_add_one.2 (by rw [List.length_cons] at hfuel; omega)
    have ha := hitem a List.mem_cons_self
    -- the item is in front of the others, and its length is its own
    have hlen := ha.len_append hlocal items.flatten
    have hsize : (a ++ items.flatten).length = a.length + items.flatten.length :=
      List.length_append
    have hhdr := ha.header
    have hstep := hbody a List.mem_cons_self k items.flatten s
    have ih := fun s₁ => ih (fun x hx => hitem x (List.mem_cons_of_mem _ hx))
      (fun x hx => hbody x (List.mem_cons_of_mem _ hx)) (Nat.le_of_succ_le_succ hfuel) (k + 1) s₁
    rw [List.flatten_cons, List.foldlM_cons]
    have hdrop : (a ++ items.flatten).drop (len (a ++ items.flatten)) = items.flatten := by
      rw [hlen, List.drop_left]
    generalize hrest : a ++ items.flatten = rest at *
    cases rest with
    | nil =>
      have hpos := ha.pos
      rw [List.length_nil] at hsize
      omega
    | cons x xs =>
      rw [walk, if_neg (by omega), hstep]
      cases bodyItem a s with
      | error e => rfl
      | ok s₁ =>
        simp only
        rw [if_neg (by omega), hdrop]
        exact ih s₁

/-- Whether some item of a concatenation satisfies a condition that reads no more than the item. -/
theorem any_items_flatten (hlocal : ∀ a b : List α, hdr ≤ a.length → len (a ++ b) = len a)
    (hitem : ∀ a ∈ items, IsItem hdr len a) {p : List α → Bool}
    (hp : ∀ a ∈ items, ∀ b, p (a ++ b) = p a) {fuel : ℕ} (hfuel : items.length ≤ fuel) (k : ℕ) :
    (Tlv.items len fuel k items.flatten).any (fun i => p i.2) = items.any p := by
  induction items generalizing fuel k with
  | nil => rw [List.flatten_nil, items_nil, List.any_nil, List.any_nil]
  | cons a items ih =>
    obtain ⟨fuel, rfl⟩ : ∃ n, fuel = n + 1 :=
      Nat.exists_eq_add_one.2 (by rw [List.length_cons] at hfuel; omega)
    have ha := hitem a List.mem_cons_self
    rw [items_flatten_cons hlocal ha, List.any_cons, List.any_cons, hp a List.mem_cons_self]
    rw [ih (fun x hx => hitem x (List.mem_cons_of_mem _ hx))
      (fun x hx => hp x (List.mem_cons_of_mem _ hx)) (Nat.le_of_succ_le_succ hfuel)]

end Concatenation

end Tlv
