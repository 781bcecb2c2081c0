import OfAgent.Datapath

/-!
# Deletions, modifications and subsumption

A description without strictness is meant to select the entries that are equal to it or more
specific. The comparison of `flow_matches_desc` looks at the values stored in the entry and not at
the entry's wildcards, so it also selects an entry that is less specific when the values left
behind in its wildcarded fields happen to fit.

* `Subsumes`: every packet that the entry matches is matched by the description.
* `deleteRemoves_iff`, `modifyRewrites_iff`: which entries a deletion removes and a modification
  rewrites.
* `select_iff_subsumes`: both select what they are meant to exactly when it is not the case that
  the stored values fit and the description compares a bit which the entry wildcards.
-/

namespace OfAgent

/-- Every packet that an entry with key `t` matches is matched by the description `d`. -/
def Subsumes (d t : SwFlowKey) : Prop :=
  ∀ flow : Flow, flowMatches1wild (packetKey flow) t = true →
    flowMatches1wild (packetKey flow) d = true

/-- The description compares a bit that the entry wildcards. -/
def ComparesWildcarded (d t : SwFlowKey) : Prop := d.pattern.NarrowerAt t.pattern

/-- Subsumption of keys is inclusion of patterns. -/
theorem subsumes_iff_covers (d t : SwFlowKey) : Subsumes d t ↔ d.pattern.Covers t.pattern := by
  simp only [Subsumes, flowMatches1wild_iff]
  constructor
  · intro h k hk
    have := h (Flow.ofWord k)
    simp only [packetKey, Flow.word_ofWord] at this
    exact this hk
  · intro h flow hflow
    exact h _ hflow

/-- An entry whose stored values fit is subsumed exactly when the description compares no bit that
the entry wildcards. -/
theorem subsumes_iff_of_matches {d t : SwFlowKey} (h : flowMatches1wild t d = true) :
    Subsumes d t ↔ ¬ ComparesWildcarded d t := by
  have hval := (flowMatches1wild_iff t d).1 h
  have hiff := Ternary.Pattern.matches_not_covers_iff d.pattern t.pattern
  rw [subsumes_iff_covers, ComparesWildcarded]
  constructor
  · exact fun hc hn => (hiff.2 ⟨hval, hn⟩).2 hc
  · exact fun hn => by_contra fun hc => hn (hiff.1 ⟨hval, hc⟩).2

theorem matches_of_subsumes {d t : SwFlowKey} (h : Subsumes d t) : flowMatches1wild t d = true :=
  (flowMatches1wild_iff t d).2
    ((Ternary.Pattern.covers_iff _ _).1 ((subsumes_iff_covers d t).1 h)).1

namespace SwChain

/-- A deletion with the description `d` and without an output port removes the entry `t` from the
working tables. -/
def DeleteRemoves (ch : SwChain) (d : SwFlowKey) (t : SwFlow) : Prop :=
  t ∉ (ch.delete d ofppNone 0 false false).1.workingFlows

/-- A modification with the description `d` gives the entry `t` the new actions. -/
def ModifyRewrites (ch : SwChain) (d : SwFlowKey) (t : SwFlow) : Prop :=
  ∀ (priority : BitVec 16) (actions : List Byte), actions ≠ t.actions →
    let ch' := (ch.modify d priority false actions false).1
    t ∉ ch'.workingFlows ∧ t.replaceActs actions ∈ ch'.workingFlows

variable {ch : SwChain} {d : SwFlowKey} {t : SwFlow}

/-- A deletion removes the entries whose stored values fit. -/
theorem Valid.deleteRemoves_iff (h : ch.Valid) (hd : d.Normal) (ht : t ∈ ch.workingFlows) :
    ch.DeleteRemoves d t ↔ flowMatches1wild t.key d = true := by
  rw [DeleteRemoves, h.delete_eq hd ofppNone (priorityOfExact_of_not_strict d 0)]
  simp only [workingFlows_filterTables, List.mem_filter, ht, true_and, SwTableLinear.deletes,
    flowMatchesDesc, SwFlow.flowHasOutPort_none, Bool.false_and, Bool.false_eq_true, if_false,
    Bool.not_false, Bool.true_or, Bool.and_true, Bool.not_eq_true', Bool.not_eq_false]

/-- A modification rewrites the entries whose stored values fit. -/
theorem Valid.modifyRewrites_iff (h : ch.Valid) (hd : d.Normal) (ht : t ∈ ch.workingFlows) :
    ch.ModifyRewrites d t ↔ flowMatches1wild t.key d = true := by
  have hsel : ∀ (priority : BitVec 16) (f : SwFlow),
      f.modifiedBy d priority false = flowMatches1wild f.key d := fun priority f => by
    simp [SwFlow.modifiedBy, flowMatchesDesc]
  simp only [ModifyRewrites, h.modify_eq hd, workingFlows_mapTables, hsel]
  constructor
  · intro hall
    by_contra hno
    -- with other actions than its own the entry would be gone, but it is not selected
    have hne : (0 : Byte) :: t.actions ≠ t.actions := List.cons_ne_self _ _
    exact (hall 0 _ hne).1 (List.mem_map.2 ⟨t, ht, if_neg hno⟩)
  · intro hm priority actions hne
    refine ⟨fun hmem => ?_, List.mem_map.2 ⟨t, ht, if_pos hm⟩⟩
    obtain ⟨f, -, hf⟩ := List.mem_map.1 hmem
    split at hf
    next =>
      subst hf
      exact hne rfl
    next hno =>
      subst hf
      exact hno hm

end SwChain

/-- In every reachable datapath and for every entry, deletions and modifications select the entry
exactly when the description subsumes it, unless the stored values of the entry fit the
description while it compares a bit that the entry wildcards. -/
theorem select_iff_subsumes {sizes : TableSizes} {dp : Datapath}
    (hr : Datapath.Reachable sizes dp) {t : SwFlow} (ht : t ∈ dp.chain.workingFlows)
    (m : OfpMatch) :
    let d := flowExtractMatch m
    ((dp.chain.DeleteRemoves d t ↔ Subsumes d t.key) ∧
        (dp.chain.ModifyRewrites d t ↔ Subsumes d t.key)) ↔
      ¬ (flowMatches1wild t.key d = true ∧ ComparesWildcarded d t.key) := by
  intro d
  have h := Datapath.valid_of_reachable hr
  have hd : d.Normal := normal_flowExtractMatch m
  rw [h.deleteRemoves_iff hd ht, h.modifyRewrites_iff hd ht, and_self]
  by_cases hm : flowMatches1wild t.key d = true
  · simp only [hm, true_iff, true_and]
    exact subsumes_iff_of_matches hm
  · have hs : ¬ Subsumes d t.key := fun hs => hm (matches_of_subsumes hs)
    simp [hm, hs]

/-- A match that wildcards everything but the input port. -/
def inPortMatch (inPort : BitVec 16) : OfpMatch :=
  { OfpMatch.zero with inPort, wildcards := ofpfwAll &&& ~~~ofpfwInPort }

/-- A flow that wildcards everything but was sent with an input port. -/
def staleFlow : SwFlow :=
  (plainFlowMod 0 { OfpMatch.zero with wildcards := ofpfwAll, inPort := 5 } 1).newFlow 0

/-- A datapath with this flow in its linear table. -/
def staleDatapath : Datapath :=
  (Datapath.init .source 0).runEvents
    [.flowMod 0 (plainFlowMod 0 { OfpMatch.zero with wildcards := ofpfwAll, inPort := 5 } 1)]

theorem staleFlow_mem : staleFlow ∈ staleDatapath.chain.workingFlows :=
  List.mem_append_right _ (by decide +kernel : staleFlow ∈ staleDatapath.chain.linear.flows)

/-- A description with another input port selects the flow as it is meant to. -/
theorem select_iff_subsumes_stale :
    let d := flowExtractMatch (inPortMatch 6)
    (staleDatapath.chain.DeleteRemoves d staleFlow ↔ Subsumes d staleFlow.key) ∧
      (staleDatapath.chain.ModifyRewrites d staleFlow ↔ Subsumes d staleFlow.key) :=
  (select_iff_subsumes (Datapath.reachable_runEvents .source 0 _) staleFlow_mem
    (inPortMatch 6)).2 (by rw [not_and]; exact fun h => absurd h (by decide))

/-- A description with the input port left behind in the flow removes it, although packets from
other ports match the flow and not the description. -/
theorem not_select_iff_subsumes : ¬ ∀ (sizes : TableSizes) (dp : Datapath),
    Datapath.Reachable sizes dp → ∀ t ∈ dp.chain.workingFlows, ∀ m : OfpMatch,
      (dp.chain.DeleteRemoves (flowExtractMatch m) t ↔ Subsumes (flowExtractMatch m) t.key) ∧
        (dp.chain.ModifyRewrites (flowExtractMatch m) t ↔ Subsumes (flowExtractMatch m) t.key) := by
  intro hall
  have hr := Datapath.reachable_runEvents .source 0
    [.flowMod 0 (plainFlowMod 0 { OfpMatch.zero with wildcards := ofpfwAll, inPort := 5 } 1)]
  have hdel := (hall .source staleDatapath hr staleFlow staleFlow_mem (inPortMatch 5)).1
  have hrem : staleDatapath.chain.DeleteRemoves (flowExtractMatch (inPortMatch 5)) staleFlow :=
    ((Datapath.valid_of_reachable hr).deleteRemoves_iff (normal_flowExtractMatch _)
      staleFlow_mem).2 (by decide)
  have hsub := hdel.1 hrem (flowExtractMatch (inPortMatch 6)).flow (by decide)
  exact absurd hsub (by decide)

end OfAgent
