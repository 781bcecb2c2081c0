import Mathlib.Data.Finset.Card
import Mathlib.Data.List.Nodup

/-!
# Least recently used entries

A table with room for some entries, as the list of them from the least to the most recently used
one. To use a key puts its entry to the end; where there is no room for one more, the first entry
goes. The first entries may also be dropped.

* `use`: an entry is used; `find`: the value of a key.
* `Recent used e l`: the entry is in the table, and only keys of `used` have been used since.
* `Recent.use`: if another entry is used, then it stays so, or it goes, after the table has seen as
  many other keys as there is room for. `Recent.suffix`: the same if entries are dropped.
* `touch`: the keys in the order of their last uses; `keys_use_sublist`: the entries are in it.
-/

namespace Lru

variable {κ ν : Type*}

/-- The keys of entries. -/
def keys (l : List (κ × ν)) : List κ := l.map Prod.fst

/-- The entry is there, and the keys behind it are among the given ones. -/
def Recent (used : Finset κ) (e : κ × ν) (l : List (κ × ν)) : Prop :=
  ∃ pre post, l = pre ++ e :: post ∧ ∀ x ∈ post, x.1 ∈ used

section Keys

variable {k : κ} {e x : κ × ν} {l l' : List (κ × ν)} {used : Finset κ}

theorem mem_keys_of_mem (h : x ∈ l) : x.1 ∈ keys l := List.mem_map_of_mem h

theorem mem_keys_append : k ∈ keys (l ++ l') ↔ k ∈ keys l ∨ k ∈ keys l' := by
  simp [keys]

theorem Recent.mem (h : Recent used e l) : e ∈ l := by
  obtain ⟨pre, post, rfl, -⟩ := h
  simp

theorem eq_of_mem (hl : (keys l).Nodup) (he : e ∈ l) (hx : x ∈ l) (h : e.1 = x.1) : e = x :=
  List.inj_on_of_nodup_map hl he hx h

/-- If the first entries are dropped, then an entry stays or is one of them. -/
theorem Recent.suffix (h : Recent used e l) (hl : (keys l).Nodup) (hsuffix : l' <:+ l) :
    Recent used e l' ∨ e.1 ∉ keys l' := by
  obtain ⟨pre, post, rfl, hpost⟩ := h
  obtain ⟨dropped, hdropped⟩ := hsuffix
  obtain ⟨a, rfl, hrest⟩ | ⟨b, rfl, hrest⟩ := List.append_eq_append_iff.1 hdropped
  · exact .inl ⟨a, post, hrest, hpost⟩
  · cases b with
    | nil => exact .inl ⟨[], post, hrest.symm, hpost⟩
    | cons y b =>
      obtain ⟨rfl, hbehind⟩ := List.cons.inj (hrest.trans (List.cons_append ..))
      -- the entry is among those that are dropped
      right
      intro hmem
      rw [keys, List.map_append, List.map_cons, List.nodup_append] at hl
      refine (List.nodup_cons.1 hl.2.1).1 ?_
      rw [hbehind, List.map_append]
      exact List.mem_append_right _ hmem

end Keys

variable [DecidableEq κ]

/-- The value of a key. -/
def find (k : κ) (l : List (κ × ν)) : Option ν := (l.find? fun x => x.1 = k).map Prod.snd

/-- The entries with other keys. -/
def others (k : κ) (l : List (κ × ν)) : List (κ × ν) := l.filter fun x => x.1 ≠ k

/-- The entries that stay when a key is used, in a table with room for `cap` entries. -/
def kept (cap : ℕ) (k : κ) (l : List (κ × ν)) : List (κ × ν) :=
  if (others k l).length < cap then others k l else (others k l).tail

/-- An entry is used. -/
def use (cap : ℕ) (e : κ × ν) (l : List (κ × ν)) : List (κ × ν) := kept cap e.1 l ++ [e]

/-- The keys in the order of their last uses, after one more use. -/
def touch (k : κ) (order : List κ) : List κ := (order.filter fun k' => k' ≠ k) ++ [k]

variable {cap : ℕ} {k : κ} {v : ν} {e x : κ × ν} {l l' : List (κ × ν)} {used : Finset κ}

/-! ### Values -/

/-- Where keys are different ones, the value of a key is that of its entry. -/
theorem find_eq_some_iff (hl : (keys l).Nodup) : find k l = some v ↔ (k, v) ∈ l := by
  rw [find, Option.map_eq_some_iff]
  constructor
  · rintro ⟨x, hx, rfl⟩
    have hkey : x.1 = k := by simpa using List.find?_some hx
    rw [← hkey]
    exact List.mem_of_find?_eq_some hx
  · intro hmem
    have hsome : (l.find? fun x => x.1 = k).isSome := by
      rw [List.find?_isSome]
      exact ⟨(k, v), hmem, decide_eq_true rfl⟩
    obtain ⟨y, hy⟩ := Option.isSome_iff_exists.1 hsome
    have hkey : y.1 = k := by simpa using List.find?_some hy
    have heq := eq_of_mem hl (List.mem_of_find?_eq_some hy) hmem hkey
    exact ⟨y, hy, congrArg Prod.snd heq⟩

theorem find_eq_none_iff : find k l = none ↔ k ∉ keys l := by
  simp only [find, Option.map_eq_none_iff, List.find?_eq_none, decide_eq_true_eq, keys,
    List.mem_map, not_exists, not_and]

/-! ### Uses -/

/-- Without an entry of a key, all entries have other keys. -/
theorem others_of_notMem (h : k ∉ keys l) : others k l = l := by
  refine List.filter_eq_self.2 fun x hx => decide_eq_true ?_
  rintro rfl
  exact h (mem_keys_of_mem hx)

/-- The entries that stay are a part of those with other keys. -/
theorem kept_sublist_others : (kept cap k l).Sublist (others k l) := by
  unfold kept
  split_ifs
  · exact List.Sublist.refl _
  · exact List.tail_sublist _

theorem kept_sublist : (kept cap k l).Sublist l := kept_sublist_others.trans List.filter_sublist

/-- No entry with the key that is used stays. -/
theorem notMem_keys_kept : k ∉ keys (kept cap k l) := by
  intro hmem
  obtain ⟨x, hx, rfl⟩ := List.mem_map.1 hmem
  have hne := (List.mem_filter.1 (kept_sublist_others.subset hx)).2
  exact of_decide_eq_true hne rfl

theorem nodup_keys_use (h : (keys l).Nodup) : (keys (use cap e l)).Nodup := by
  rw [use, keys, List.map_append, List.nodup_append]
  refine ⟨h.sublist (kept_sublist.map _), List.nodup_singleton _, ?_⟩
  rintro k hk k' hk' rfl
  rw [List.map_singleton, List.mem_singleton] at hk'
  rw [hk'] at hk
  exact notMem_keys_kept hk

/-- There is still room for all entries. -/
theorem length_use_le (hcap : 0 < cap) (h : l.length ≤ cap) : (use cap e l).length ≤ cap := by
  have hothers : (others e.1 l).length ≤ l.length := List.length_filter_le _ _
  rw [use, List.length_append, List.length_singleton, kept]
  split_ifs
  · omega
  · rw [List.length_tail]
    omega

theorem recent_use : Recent used e (use cap e l) := ⟨kept cap e.1 l, [], rfl, by simp⟩

theorem find_use_self (h : (keys l).Nodup) : find k (use cap (k, v) l) = some v :=
  (find_eq_some_iff (nodup_keys_use h)).2 (List.mem_append_right _ List.mem_cons_self)

/-- If another one is used, an entry stays, or the table has seen many other keys since. -/
theorem Recent.use (h : Recent used e l) (hl : (keys l).Nodup) (hne : x.1 ≠ e.1) :
    Recent (insert x.1 used) e (use cap x l) ∨
      e.1 ∉ keys (Lru.use cap x l) ∧ cap ≤ ((insert x.1 used).erase e.1).card := by
  obtain ⟨pre, post, rfl, hpost⟩ := h
  have hothers : others x.1 (pre ++ e :: post) = others x.1 pre ++ e :: others x.1 post := by
    unfold others
    simp [hne.symm]
  have hbehind : ∀ y ∈ others x.1 post ++ [x], y.1 ∈ insert x.1 used := by
    intro y hy
    rw [Finset.mem_insert]
    obtain hy | hy := List.mem_append.1 hy
    · exact .inr (hpost y (List.mem_of_mem_filter hy))
    · exact .inl (congrArg Prod.fst (List.mem_singleton.1 hy))
  unfold Lru.use kept
  rw [hothers]
  by_cases hroom : (others x.1 pre ++ e :: others x.1 post).length < cap
  · rw [if_pos hroom, List.append_assoc]
    exact .inl ⟨_, _, rfl, hbehind⟩
  rw [if_neg hroom]
  cases hpre : others x.1 pre with
  | cons y pre' =>
    rw [List.cons_append, List.tail_cons, List.append_assoc]
    exact .inl ⟨_, _, rfl, hbehind⟩
  | nil =>
    -- it is the first entry, and goes: all those behind it have been used since
    rw [hpre, List.nil_append, List.length_cons] at hroom
    rw [List.nil_append, List.tail_cons]
    have hpostkeys : e.1 ∉ keys post ∧ (keys post).Nodup := by
      rw [keys, List.map_append, List.map_cons, List.nodup_append] at hl
      exact List.nodup_cons.1 hl.2.1
    have hgone : e.1 ∉ keys (others x.1 post ++ [x]) := by
      rw [mem_keys_append, not_or]
      refine ⟨fun hmem => hpostkeys.1 ((List.filter_sublist.map _).subset hmem), fun hmem => ?_⟩
      exact hne (List.mem_singleton.1 hmem).symm
    refine .inr ⟨hgone, ?_⟩
    have hnodup : (keys (others x.1 post ++ [x])).Nodup := by
      rw [keys, List.map_append, List.nodup_append]
      refine ⟨hpostkeys.2.sublist (List.filter_sublist.map _), List.nodup_singleton _, ?_⟩
      rintro k hk k' hk' rfl
      obtain ⟨y, hy, rfl⟩ := List.mem_map.1 hk
      exact of_decide_eq_true (List.mem_filter.1 hy).2 (List.mem_singleton.1 hk')
    calc cap ≤ (keys (others x.1 post ++ [x])).length := by
          rw [keys, List.length_map, List.length_append, List.length_singleton]
          omega
      _ = (keys (others x.1 post ++ [x])).toFinset.card :=
          (List.toFinset_card_of_nodup hnodup).symm
      _ ≤ ((insert x.1 used).erase e.1).card := by
          refine Finset.card_le_card fun k hk => ?_
          rw [List.mem_toFinset] at hk
          rw [Finset.mem_erase]
          refine ⟨fun heq => hgone (heq ▸ hk), ?_⟩
          obtain ⟨y, hy, rfl⟩ := List.mem_map.1 hk
          exact hbehind y hy

/-! ### Orders -/

/-- The entries are in the order of their last uses. -/
theorem keys_use_sublist {order : List κ} (h : (keys l).Sublist order) :
    (keys (use cap e l)).Sublist (touch e.1 order) := by
  have hothers : keys (others e.1 l) = (keys l).filter fun k => k ≠ e.1 := by
    rw [keys, keys, List.filter_map]
    rfl
  rw [use, keys, List.map_append]
  refine List.Sublist.append ?_ (List.Sublist.refl _)
  refine (kept_sublist_others.map Prod.fst).trans ?_
  show (keys (others e.1 l)).Sublist _
  rw [hothers]
  exact h.filter _

/-- Entries in some order stay in it if the one that is used may stand behind all. -/
theorem pairwise_use {r : κ × ν → κ × ν → Prop} (h : l.Pairwise r) (he : ∀ x ∈ l, r x e) :
    (use cap e l).Pairwise r := by
  rw [use, List.pairwise_append]
  refine ⟨h.sublist kept_sublist, List.pairwise_singleton _ _, fun x hx y hy => ?_⟩
  rw [List.mem_singleton.1 hy]
  exact he x (kept_sublist.subset hx)

end Lru
