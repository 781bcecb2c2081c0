import Mathlib.Combinatorics.SimpleGraph.Acyclic
import Mathlib.Data.Finset.Max

/-!
# Forests given by parents

Graphs whose edges lead from a node to its parent.

* `ParentMap`: parents, with a rank that is less at the parent; `ParentMap.graph`: the edges.
* `ParentMap.isAcyclic_graph`: there are no cycles.
* `ParentMap.Ancestor`, `ParentMap.exists_root`: parents of parents lead to a node without one.
* `ParentMap.reachable_of_reachable`: when the ends of every edge of another graph have a common
  ancestor, the forest connects what that graph connects.
-/

/-- A parent for some nodes. Ranks become less towards the parents. -/
structure ParentMap (V : Type*) where
  /-- The parent of a node. -/
  parent : V → Option V
  /-- The rank of a node. -/
  rank : V → ℕ
  /-- The rank of a parent is less. -/
  rank_lt : ∀ {x y}, parent x = some y → rank y < rank x

namespace ParentMap

variable {V : Type*} (m : ParentMap V)

/-- The edges between nodes and their parents. -/
def graph : SimpleGraph V where
  Adj x y := m.parent x = some y ∨ m.parent y = some x
  symm := ⟨fun _ _ h => h.symm⟩
  loopless := ⟨fun _ h => absurd (m.rank_lt (h.elim id id)) (lt_irrefl _)⟩

/-- Parents of parents lead from a node to another one. -/
def Ancestor : V → V → Prop := Relation.ReflTransGen fun x y => m.parent x = some y

variable {m} {x y r : V}

theorem parent_of_adj (h : m.graph.Adj x y) (hle : m.rank y ≤ m.rank x) : m.parent x = some y :=
  h.resolve_right fun hparent => absurd (m.rank_lt hparent) (Nat.not_lt.2 hle)

/-- There are no cycles. -/
theorem isAcyclic_graph (m : ParentMap V) : m.graph.IsAcyclic := by
  classical
  intro v c hc
  -- both neighbours of a node of the greatest rank are its parent
  obtain ⟨top, htop, hmax⟩ := c.support.toFinset.exists_max_image m.rank
    ⟨v, List.mem_toFinset.2 c.start_mem_support⟩
  have htop := List.mem_toFinset.1 htop
  have hcycle : (c.rotate top htop).IsCycle := hc.rotate htop
  have hmem : ∀ z ∈ (c.rotate top htop).support, m.rank z ≤ m.rank top := fun z hz =>
    hmax z (List.mem_toFinset.2 ((c.mem_support_rotate_iff top htop).1 hz))
  have hnil := hcycle.not_nil
  have hsnd : m.parent top = some (c.rotate top htop).snd :=
    parent_of_adj ((c.rotate top htop).adj_snd hnil)
      (hmem _ ((c.rotate top htop).getVert_mem_support 1))
  have hpenultimate : m.parent top = some (c.rotate top htop).penultimate :=
    parent_of_adj ((c.rotate top htop).adj_penultimate hnil).symm
      (hmem _ ((c.rotate top htop).getVert_mem_support _))
  exact hcycle.snd_ne_penultimate (Option.some.inj (hsnd.symm.trans hpenultimate))

theorem Ancestor.reachable (h : m.Ancestor x r) : m.graph.Reachable x r := by
  induction h with
  | refl => exact .refl x
  | tail _ hparent ih => exact ih.trans (SimpleGraph.Adj.reachable (.inl hparent))

/-- What a parent shares with its children, it shares with all nodes below it. -/
theorem Ancestor.eq {α : Type*} {f : V → α} (h : m.Ancestor x r)
    (hf : ∀ {x y}, m.parent x = some y → f y = f x) : f r = f x := by
  induction h with
  | refl => rfl
  | tail _ hparent ih => exact (hf hparent).trans ih

variable (m) in
theorem exists_root (x : V) : ∃ r, m.Ancestor x r ∧ m.parent r = none := by
  induction hrank : m.rank x using Nat.strong_induction_on generalizing x with
  | _ n ih =>
    cases hparent : m.parent x with
    | none => exact ⟨x, .refl, hparent⟩
    | some y =>
      obtain ⟨r, hr, hroot⟩ := ih _ (hrank ▸ m.rank_lt hparent) y rfl
      exact ⟨r, .head hparent hr, hroot⟩

/-- When the ends of the edges of another graph have common ancestors, the forest connects what that
graph connects. -/
theorem reachable_of_reachable {G : SimpleGraph V}
    (hG : ∀ {x y}, G.Adj x y → ∃ r, m.Ancestor x r ∧ m.Ancestor y r) (h : G.Reachable x y) :
    m.graph.Reachable x y := by
  obtain ⟨walk⟩ := h
  induction walk with
  | nil => exact .refl _
  | cons hadj _ ih =>
    obtain ⟨r, hx, hy⟩ := hG hadj
    exact hx.reachable.trans (hy.reachable.symm.trans ih)

end ParentMap
