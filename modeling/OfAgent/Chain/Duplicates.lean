import OfAgent.Datapath

/-!
# Copies of a flow

`chain_insert` is meant to replace a duplicate of the flow it inserts. It stops at the first table
that takes the flow, and only that table looks for the duplicate.

* `SwChain.Distinct`: no two entries of the working tables are the same flow; in particular
  (`UniqueTriples`) no two have the same key, wildcards and priority.
* `SwChain.LaterCopy`: a table accepts the flow while a copy of it is in a later table.
* `Valid.distinct_insert_iff`: an insertion keeps the entries distinct exactly when there is no
  later copy.
* `distinct_of_reachableVia`: in every run whose additions meet no later copy, the entries are
  distinct. Modifications, deletions, timeouts, packets and the protection message need no
  condition.
-/

namespace OfAgent

namespace SwChain

/-- No two entries of the working tables are the same flow: of equal priority, equal wildcards,
and equal in every bit of the key that is not wildcarded. -/
def Distinct (ch : SwChain) : Prop := ch.workingFlows.Pairwise fun f g => f.identical g = false

/-- No two entries of the working tables have the same key, wildcards and priority. -/
def UniqueTriples (ch : SwChain) : Prop :=
  ch.workingFlows.Pairwise fun f g =>
    (f.key, f.key.wildcards, f.priority) ≠ (g.key, g.key.wildcards, g.priority)

/-- The first table that accepts the flow is in front of a table that holds a copy of it. -/
def LaterCopy (ch : SwChain) (flow : SwFlow) : Prop :=
  flow.key.wildcards = 0 ∧
    ((ch.hash2.subtable0.Accepts flow ∧
        ∃ f ∈ ch.hash2.subtable1.flows ++ ch.linear.flows, f.identical flow = true) ∨
      (¬ ch.hash2.subtable0.Accepts flow ∧ ch.hash2.subtable1.Accepts flow ∧
        ∃ f ∈ ch.linear.flows, f.identical flow = true))

instance (ch : SwChain) (flow : SwFlow) : Decidable (ch.LaterCopy flow) :=
  inferInstanceAs (Decidable (_ ∧ _))

variable {ch ch' : SwChain} {flow : SwFlow}

/-- Entries with the same key, wildcards and priority are the same flow. -/
theorem Distinct.uniqueTriples (hd : ch.Distinct) : ch.UniqueTriples := by
  refine hd.imp fun {f g} hfg heq => ?_
  simp only [Prod.mk.injEq] at heq
  rw [SwFlow.identical_congr heq.1 heq.2.2 rfl rfl, SwFlow.identical_self] at hfg
  cases hfg

/-- In a valid chain the entries are distinct when no two tables share a flow. -/
theorem Valid.distinct_iff (h : ch.Valid) :
    ch.Distinct ↔
      (∀ f ∈ ch.hash2.subtable0.flows, ∀ g ∈ ch.hash2.subtable1.flows, f.identical g = false) ∧
        ∀ f ∈ ch.hash2.flows, ∀ g ∈ ch.linear.flows, f.identical g = false := by
  rw [Distinct, workingFlows, List.pairwise_append, SwTableHash2.flows, List.pairwise_append]
  simp only [h.subtable0.distinct, h.subtable1.distinct, h.linear.distinct, true_and]

/-- A copy of a flow that a hash table refuses is not in that table. -/
theorem not_identical_of_insert_none {th : SwTableHash} (h : th.Valid) (hwf : flow.WellFormed)
    (hins : th.insert flow = none) {f : SwFlow} (hf : f ∈ th.flows) :
    f.identical flow = false := by
  have hb := h.mem_flows.1 hf
  by_cases hw : flow.key.wildcards = 0
  · rw [(h.wellFormed hb).identical_exact hwf (h.exact hb) hw]
    refine beq_false_of_ne fun hk => ?_
    exact (SwTableHash.insert_eq_none hins).elim (fun hne => hne hw)
      fun hna => hna (h.accepts_of_mem hf hk)
  · rw [SwFlow.identical_comm]
    exact SwFlow.identical_eq_false_of_wild hw (h.exact hb)

/-- The flow that a hash table has taken is in it. -/
theorem mem_of_insert_some {th th' : SwTableHash} (h : th.Valid) (hwf : flow.WellFormed)
    (hins : th.insert flow = some th') : flow ∈ th'.flows := by
  rw [(h.insert hwf hins).mem_flows]
  obtain ⟨-, rfl, -⟩ := SwTableHash.insert_eq_some hins
  rw [SwTableHash.setBucket_buckets]
  exact if_pos rfl

/-- What a hash table holds after it has taken a flow compares with another entry as before,
except for the flow itself. -/
theorem forall_of_insert_hash {th th' : SwTableHash} (h : th.Valid) (hwf : flow.WellFormed)
    (hins : th.insert flow = some th') {g : SwFlow}
    (hold : ∀ f ∈ th.flows, f.identical g = false) (hnew : flow.identical g = false) :
    ∀ f ∈ th'.flows, f.identical g = false := by
  intro f hf
  rcases h.mem_flows_insert hwf hins hf with rfl | ⟨hf, -⟩
  · exact hnew
  · exact hold f hf

/-- An insertion without a later copy keeps the entries distinct. -/
theorem Valid.distinct_insert (h : ch.Valid) (hd : ch.Distinct) (hwf : flow.WellFormed)
    (hins : ch.insert flow false = some ch') (hno : ¬ ch.LaterCopy flow) : ch'.Distinct := by
  have hv' : ch'.Valid := h.change (.insert hwf hins)
  rw [h.distinct_iff] at hd
  obtain ⟨h01, h2⟩ := hd
  rw [hv'.distinct_iff]
  rcases insert_eq_some hins with ⟨th, h0, rfl⟩ | ⟨th, h0, h1, rfl⟩ | ⟨tl, h0, h1, hl, rfl⟩
  · -- the flow is in the first hash table, so no other table holds a copy
    obtain ⟨hw, -, hacc⟩ := SwTableHash.insert_eq_some h0
    have hcopy : ∀ g ∈ ch.hash2.subtable1.flows ++ ch.linear.flows, flow.identical g = false := by
      intro g hg
      rw [← Bool.not_eq_true, SwFlow.identical_comm]
      exact fun hid => hno ⟨hw, .inl ⟨hacc, g, hg, hid⟩⟩
    refine ⟨fun f hf g hg => ?_, fun f hf g hg => ?_⟩
    · exact forall_of_insert_hash h.subtable0 hwf h0 (fun f hf => h01 f hf g hg)
        (hcopy g (List.mem_append_left _ hg)) f hf
    · rcases List.mem_append.1 hf with hf | hf
      · exact forall_of_insert_hash h.subtable0 hwf h0
          (fun f hf => h2 f (List.mem_append_left _ hf) g hg)
          (hcopy g (List.mem_append_right _ hg)) f hf
      · exact h2 f (List.mem_append_right _ hf) g hg
  · -- the flow is in the second hash table: the first one has refused it
    obtain ⟨hw, -, hacc⟩ := SwTableHash.insert_eq_some h1
    have hna : ¬ ch.hash2.subtable0.Accepts flow :=
      (SwTableHash.insert_eq_none h0).resolve_left (not_not.2 hw)
    refine ⟨fun f hf g hg => ?_, fun f hf g hg => ?_⟩
    · rcases h.subtable1.mem_flows_insert hwf h1 hg with rfl | ⟨hg, -⟩
      · exact not_identical_of_insert_none h.subtable0 hwf h0 hf
      · exact h01 f hf g hg
    · rcases List.mem_append.1 hf with hf | hf
      · exact h2 f (List.mem_append_left _ hf) g hg
      · refine forall_of_insert_hash h.subtable1 hwf h1
          (fun f hf => h2 f (List.mem_append_right _ hf) g hg) ?_ f hf
        rw [← Bool.not_eq_true, SwFlow.identical_comm]
        exact fun hid => hno ⟨hw, .inr ⟨hna, hacc, g, hg, hid⟩⟩
  · -- the flow is in the linear table: both hash tables have refused it
    refine ⟨h01, fun f hf g hg => ?_⟩
    rcases h.linear.mem_flows_insert hwf hl hg with ⟨serial, rfl⟩ | ⟨hg, -⟩
    · rw [SwTableLinear.identical_with_serial]
      rcases List.mem_append.1 hf with hf | hf
      · exact not_identical_of_insert_none h.subtable0 hwf h0 hf
      · exact not_identical_of_insert_none h.subtable1 hwf h1 hf
    · exact h2 f hf g hg

/-- An insertion in front of a later copy leaves two entries of the same flow. -/
theorem Valid.not_distinct_insert (h : ch.Valid) (hwf : flow.WellFormed)
    (hins : ch.insert flow false = some ch') (hlater : ch.LaterCopy flow) : ¬ ch'.Distinct := by
  have hv' : ch'.Valid := h.change (.insert hwf hins)
  rw [hv'.distinct_iff]
  rintro ⟨h01, h2⟩
  obtain ⟨hw, ⟨hacc, f, hf, hid⟩ | ⟨hna, hacc, f, hf, hid⟩⟩ := hlater
  · rcases insert_eq_some hins with ⟨th, h0, rfl⟩ | ⟨th, h0, -, rfl⟩ | ⟨tl, h0, -, -, rfl⟩
    · have hmem := mem_of_insert_some h.subtable0 hwf h0
      rw [SwFlow.identical_comm] at hid
      rcases List.mem_append.1 hf with hf | hf
      · exact absurd hid (by rw [h01 flow hmem f hf]; decide)
      · exact absurd hid (by rw [h2 flow (List.mem_append_left _ hmem) f hf]; decide)
    · exact (SwTableHash.insert_eq_none h0).elim (fun hne => hne hw) fun hna => hna hacc
    · exact (SwTableHash.insert_eq_none h0).elim (fun hne => hne hw) fun hna => hna hacc
  · rcases insert_eq_some hins with ⟨th, h0, rfl⟩ | ⟨th, -, h1, rfl⟩ | ⟨tl, -, h1, -, rfl⟩
    · exact hna (SwTableHash.insert_eq_some h0).2.2
    · have hmem := mem_of_insert_some h.subtable1 hwf h1
      rw [SwFlow.identical_comm] at hid
      exact absurd hid (by rw [h2 flow (List.mem_append_right _ hmem) f hf]; decide)
    · exact (SwTableHash.insert_eq_none h1).elim (fun hne => hne hw) fun hna => hna hacc

/-- An insertion keeps the entries distinct exactly when there is no later copy. -/
theorem Valid.distinct_insert_iff (h : ch.Valid) (hd : ch.Distinct) (hwf : flow.WellFormed)
    (hins : ch.insert flow false = some ch') : ch'.Distinct ↔ ¬ ch.LaterCopy flow :=
  ⟨fun hd' hlater => h.not_distinct_insert hwf hins hlater hd',
    h.distinct_insert hd hwf hins⟩

/-- Without a copy in any table there is no later copy. -/
theorem not_laterCopy_of_forall (hno : ∀ f ∈ ch.workingFlows, f.identical flow = false) :
    ¬ ch.LaterCopy flow := by
  rintro ⟨-, ⟨-, f, hf, hid⟩ | ⟨-, -, f, hf, hid⟩⟩
  · have hmem : f ∈ ch.workingFlows := by
      rcases List.mem_append.1 hf with hf | hf
      · exact List.mem_append_left _ (List.mem_append_right _ hf)
      · exact List.mem_append_right _ hf
    rw [hno f hmem] at hid
    cases hid
  · rw [hno f (List.mem_append_right _ hf)] at hid
    cases hid

theorem Distinct.filter (hd : ch.Distinct) (p p3 : SwFlow → Bool) :
    (ch.filterTables p p p p3).Distinct := by
  rw [Distinct, workingFlows_filterTables]
  exact List.Pairwise.filter p hd

/-- Rewriting entries keeps them distinct. -/
theorem Distinct.map (hd : ch.Distinct) {g0 g1 g2 g3 : SwFlow → SwFlow} (h0 : Rewrites g0)
    (h1 : Rewrites g1) (h2 : Rewrites g2) : (ch.mapTables g0 g1 g2 g3).Distinct := by
  -- whether two entries are the same flow depends on keys and priorities, which are kept
  have hkeys : (ch.mapTables g0 g1 g2 g3).workingFlows.map (fun f => (f.key, f.priority)) =
      ch.workingFlows.map fun f => (f.key, f.priority) := by
    simp only [workingFlows, mapTables, SwTableHash2.flows, SwTableHash.flows_mapBuckets,
      SwTableLinear.mapFlows, List.map_append, List.map_map, Function.comp_def, h0.key,
      h0.priority, h1.key, h1.priority, h2.key, h2.priority]
  let differ : SwFlowKey × BitVec 16 → SwFlowKey × BitVec 16 → Prop := fun a b =>
    (a.2 == b.2 && a.1.wildcards == b.1.wildcards && flowMatches2wild a.1 b.1) = false
  have hiff : ∀ c : SwChain, c.Distinct ↔
      (c.workingFlows.map fun f => (f.key, f.priority)).Pairwise differ := fun c => by
    rw [List.pairwise_map]
    exact Iff.rfl
  rw [hiff, hkeys, ← hiff]
  exact hd

end SwChain

namespace Datapath

open SwChain

variable {dp : Datapath} {ofm : OfpFlowMod}

/-- The condition on an event: an addition of a working flow that passes the checks meets no later
copy. -/
def NoLaterCopy (dp : Datapath) : DatapathEvent → Prop
  | .flowMod now ofm =>
      ofm.knownCommand = some .add → ofm.hasFlag ofpffEmerg = false →
        dp.addFlowError ofm = none → ¬ dp.chain.LaterCopy (ofm.newFlow now)
  | _ => True

theorem laterCopy_congr {ch : SwChain} {f g : SwFlow} (hk : f.key = g.key)
    (hp : f.priority = g.priority) : ch.LaterCopy f ↔ ch.LaterCopy g := by
  simp only [LaterCopy, SwTableHash.Accepts, SwFlow.identical, hk, hp]

/-- `add_flow` keeps the entries distinct when there is no later copy. -/
theorem distinct_addFlow {now : BitVec 64} (h : dp.chain.Valid) (hd : dp.chain.Distinct)
    (hok : ofm.hasFlag ofpffEmerg = false → dp.addFlowError ofm = none →
      ¬ dp.chain.LaterCopy (ofm.newFlow now)) : (dp.addFlow now ofm).1.chain.Distinct := by
  rcases addFlow_chain dp now ofm with heq | ⟨herr, flow, hmk, -, hins⟩
  · rw [heq]
    exact hd
  · cases hem : ofm.hasFlag ofpffEmerg with
    | true =>
      rw [hem] at hins
      obtain ⟨tl, -, heq⟩ := insert_emerg_eq_some hins
      rw [heq]
      exact hd
    | false =>
      rw [hem] at hins
      refine h.distinct_insert hd hmk.wellFormed hins ?_
      rw [laterCopy_congr (g := ofm.newFlow now) hmk.key hmk.priority]
      exact hok hem herr

/-- An entry that is the same flow as an exact flow of the message is modified by it. -/
theorem modifiedBy_of_identical {f flow : SwFlow} (hf : f.WellFormed) (hflow : flow.WellFormed)
    (hw : flow.key.wildcards = 0) (hid : f.identical flow = true) (strict : Bool) :
    f.modifiedBy flow.key flow.priority strict = true := by
  have hwf : f.key.wildcards = 0 := by
    simp only [SwFlow.identical, Bool.and_eq_true, beq_iff_eq] at hid
    exact hid.1.2.trans hw
  rw [hf.identical_exact hflow hwf hw] at hid
  rw [SwFlow.modifiedBy, flowMatchesDesc, hwf, hw,
    hflow.normal.flowMatches1wild_exact hw, hf.priority_of_exact hwf, hflow.priority_of_exact hw]
  simpa using hid

/-- `mod_flow` keeps the entries distinct: it inserts a flow only when it has modified none, and
then there is no copy of an exact flow. -/
theorem distinct_modFlow {now : BitVec 64} {strict : Bool} (h : dp.chain.Valid)
    (hd : dp.chain.Distinct) : (dp.modFlow now ofm strict).1.chain.Distinct := by
  have hkey := normal_flowExtractMatch ofm.ofpMatch
  have hg := (rewrites_replaceActs ofm.actions).ite
    (SwFlow.modifiedBy (flowExtractMatch ofm.ofpMatch)
      (ofm.flowPriority (flowExtractMatch ofm.ofpMatch)) strict)
  cases hem : ofm.hasFlag ofpffEmerg with
  | true =>
    rcases modFlow_chain dp now ofm strict
      with heq | ⟨-, heq | ⟨-, flow, -, -, hins⟩⟩
    · rw [heq]
      exact hd
    · rw [heq, hem]
      exact hd
    · rw [hem] at hins
      obtain ⟨tl, -, heq⟩ := insert_emerg_eq_some hins
      rw [heq]
      exact hd
  | false =>
    have hv := h.change (h.change_modify hkey (ofm.flowPriority (flowExtractMatch ofm.ofpMatch))
      strict ofm.actions false)
    have hdm : (dp.chain.modify (flowExtractMatch ofm.ofpMatch)
        (ofm.flowPriority (flowExtractMatch ofm.ofpMatch)) strict ofm.actions
          false).1.Distinct := by
      rw [h.modify_eq hkey]
      exact hd.map hg hg hg
    rcases modFlow_chain dp now ofm strict
      with heq | ⟨-, heq | ⟨hcount, flow, hmk, -, hins⟩⟩
    · rw [heq]
      exact hd
    · rw [heq, hem]
      exact hdm
    · rw [hem] at hcount hins
      refine hv.distinct_insert hdm hmk.wellFormed hins fun hlater => ?_
      refine not_laterCopy_of_forall (fun f hf => ?_) hlater
      -- a copy after the modification comes from a copy before it, which would have been counted
      rw [← Bool.not_eq_true]
      intro hid
      simp only [h.modify_eq hkey, workingFlows_mapTables, List.mem_map] at hf
      obtain ⟨f0, hf0, rfl⟩ := hf
      rw [SwFlow.identical_congr (hg.key f0) (hg.priority f0) rfl rfl] at hid
      have hmod := modifiedBy_of_identical (h.wellFormed hf0) hmk.wellFormed hlater.1 hid strict
      rw [hmk.key, hmk.priority] at hmod
      rw [h.modify_eq hkey, List.length_eq_zero_iff, List.filter_eq_nil_iff] at hcount
      exact hcount f0 hf0 hmod

/-- The key that wildcards everything matches every key. -/
theorem flowMatches1wild_allKey (key : SwFlowKey) : flowMatches1wild key allKey = true := by
  have hmask : ∀ i, allKey.pattern.mask i = 0 := fun i => by cases i <;> decide
  refine (flowMatches1wild_iff _ _).2 fun i => ?_
  rw [hmask]
  exact BitVec.and_zero

theorem deletes_allKey (f : SwFlow) :
    SwTableLinear.deletes allKey ofppNone 0 false f = true := by
  simp [SwTableLinear.deletes, flowMatchesDesc, flowMatches1wild_allKey]

/-- `flush_working` empties the working tables. -/
theorem workingFlows_flushWorking (h : dp.chain.Valid) (now : BitVec 64) :
    (dp.flushWorking now).1.chain.workingFlows = [] := by
  change (dp.chain.delete allKey ofppNone 0 false false).1.workingFlows = []
  rw [h.delete_eq normal_allKey ofppNone (priorityOfExact_of_not_strict _ 0),
    workingFlows_filterTables, List.filter_eq_nil_iff]
  intro f _
  rw [deletes_allKey]
  decide

/-- The protection message keeps the entries distinct: it starts from empty working tables, and no
two emergency flows are the same flow. -/
theorem distinct_doProtection {now : BitVec 64} (h : dp.chain.Valid)
    (hnil : dp.chain.workingFlows = []) : (dp.doProtection now).chain.Distinct := by
  let l := dp.chain.emergTable.candidates allKey ofppNone (~~~SwTablePosition.zero.private0)
  have hdist : l.Pairwise fun f g => f.identical g = false := by
    refine List.Pairwise.filter _ ?_
    rw [h.emergTable.perm.pairwise_iff fun hab => by rw [SwFlow.identical_comm, hab]]
    exact h.emergTable.distinct
  -- every working flow is a copy of an emergency flow that has been visited
  let P : List SwFlow → SwChain → Prop := fun pre chain =>
    chain.Valid ∧ chain.Distinct ∧
      ∀ f ∈ chain.workingFlows, ∃ e ∈ pre, f.key = e.key ∧ f.priority = e.priority
  have hP : ∀ pre a chain, (pre ++ [a]) <+: l → P pre chain →
      P (pre ++ [a]) (protectionCallback now chain a).1 := by
    rintro pre a chain hpre ⟨hv, hd, hcopies⟩
    have ha : a.WellFormed :=
      h.emergTable.wellFormed a (mem_of_mem_candidates h.emergTable (hpre.subset (by simp)))
    have hcopies' : ∀ f ∈ chain.workingFlows, ∃ e ∈ pre ++ [a],
        f.key = e.key ∧ f.priority = e.priority := fun f hf => by
      obtain ⟨e, he, hk⟩ := hcopies f hf
      exact ⟨e, List.mem_append_left _ he, hk⟩
    unfold protectionCallback
    split
    next chain' hins =>
      have hwf : (protectionFlow now a).WellFormed := protectionFlow_wellFormed ha
      refine ⟨hv.change (.insert hwf hins), hv.distinct_insert hd hwf hins ?_, fun f hf => ?_⟩
      · refine not_laterCopy_of_forall fun f hf => ?_
        obtain ⟨e, he, hk, hp⟩ := hcopies f hf
        rw [SwFlow.identical_congr hk hp (protectionFlow_key ha) rfl]
        exact (List.pairwise_append.1 (hdist.sublist hpre.sublist)).2.2 e he a (by simp)
      · rcases hv.mem_workingFlows_insert hwf hins hf with ⟨serial, rfl⟩ | hf
        · exact ⟨a, by simp, @protectionFlow_key now a ha, rfl⟩
        · exact hcopies' f hf
    next => exact ⟨hv, hd, hcopies'⟩
  have h0 : P [] dp.chain := by
    refine ⟨h, ?_, fun f hf => ?_⟩
    · rw [SwChain.Distinct, hnil]
      exact .nil
    · rw [hnil] at hf
      cases hf
  obtain ⟨pre, -, -, hd, -⟩ := Visit.visit_prefix_invariant (protectionCallback now) P hP h0
  unfold doProtection SwTableLinear.iterate
  split
  next s _ heq =>
    rw [heq] at hd
    exact hd
  next s _ heq =>
    rw [heq] at hd
    exact hd

/-- Every event that meets the condition keeps the entries distinct. -/
theorem distinct_next (h : dp.chain.Valid) (hd : dp.chain.Distinct) {e : DatapathEvent}
    (hok : dp.NoLaterCopy e) : (dp.next e).chain.Distinct := by
  cases e with
  | flowMod now ofm =>
    -- a deletion filters the tables, so that it makes no copies
    have hdel : ∀ strict, (dp.deleteFlow now ofm strict).1.chain.Distinct := fun strict => by
      change (dp.chain.delete (flowExtractMatch ofm.ofpMatch) ofm.outPort _ strict
        (ofm.hasFlag ofpffEmerg)).1.Distinct
      cases ofm.hasFlag ofpffEmerg with
      | true => exact hd
      | false =>
        rw [h.delete_eq (normal_flowExtractMatch _) _ (ofm.priorityOfExact _ strict)]
        exact hd.filter _ _
    change (dp.recvFlowTables now ofm).1.chain.Distinct
    unfold recvFlowTables
    split
    next hc => exact distinct_addFlow h hd (hok hc)
    next => exact distinct_modFlow h hd
    next => exact distinct_modFlow h hd
    next => exact hdel false
    next => exact hdel true
    next => exact hd
  | packet now flow buffer =>
    rcases fwdPortInput_chain dp now flow buffer
      with heq | heq
    · exact heq ▸ hd
    · obtain ⟨g0, g1, g2, h0, h1, h2, hup⟩ :=
        h.updateLookup_eq (packetKey flow) (rewrites_flowUsed now buffer.length)
      change (dp.fwdPortInput now flow buffer).1.chain.Distinct
      rw [heq, hup]
      exact hd.map h0 h1 h2
  | toController now buffer => exact hd
  | run now =>
    change (dp.dpRun now).1.chain.Distinct
    rcases dpRun_chain dp now with heq | heq
    · rw [heq]
      exact hd
    · rw [heq, timeout_fst]
      exact hd.filter _ _
  | protection now =>
    exact distinct_doProtection
      (h.change (h.change_delete normal_allKey ofppNone (priorityOfExact_of_not_strict _ 0) false))
      (workingFlows_flushWorking h now)

end Datapath

/-- In every run whose additions meet no later copy, no two entries of the working tables are the
same flow in any state that the run reaches. -/
theorem distinct_of_reachableVia {sizes : TableSizes} {now : BitVec 64} {dp : Datapath}
    (h : Transition.ReachableVia Datapath.Step Datapath.NoLaterCopy (.init sizes now) dp) :
    dp.chain.Distinct ∧ dp.chain.UniqueTriples := by
  suffices hd : dp.chain.Distinct from ⟨hd, hd.uniqueTriples⟩
  refine h.invariant_of_reached (fun dp => dp.chain.Distinct) ?_ ?_
  · exact ((SwChain.valid_create sizes).distinct_iff).2
      ⟨fun f hf => absurd hf (by simp [chainCreate, tableHash2Create,
        tableHashCreate, SwTableHash.flows]),
      fun f _ g hg => absurd hg (by simp [chainCreate, tableLinearCreate])⟩
  · rintro s e s' hs hd hok rfl
    exact Datapath.distinct_next (Datapath.valid_of_reachable ⟨now, hs.reachable⟩) hd hok

/-- A message that adds one flow. -/
def addFrame : DatapathEvent := .flowMod 0 (plainFlowMod 0 (frameMatch 0) 0)

/-- Adding one flow twice is such a run. -/
theorem distinct_of_adding_twice :
    let dp := ((Datapath.init ⟨0, 4⟩ 0).next addFrame).next addFrame
    dp.chain.Distinct ∧ dp.chain.UniqueTriples := by
  have h1 : (Datapath.init ⟨0, 4⟩ 0).NoLaterCopy addFrame := fun _ _ _ => by decide +kernel
  have h2 : ((Datapath.init ⟨0, 4⟩ 0).next addFrame).NoLaterCopy addFrame :=
    fun _ _ _ => by decide +kernel
  exact distinct_of_reachableVia ((Transition.ReachableVia.refl.tail h1 rfl).tail h2 rfl)

/-- Two flows that share a bucket; the first is deleted before the second is added again. -/
def duplicatingRun : List DatapathEvent :=
  [.flowMod 0 (plainFlowMod 0 (frameMatch 0) 0),
   .flowMod 0 (plainFlowMod 0 (frameMatch 0x109247213) 0),
   .flowMod 0 (plainFlowMod 3 (frameMatch 0) 0),
   .flowMod 0 (plainFlowMod 0 (frameMatch 0x109247213) 0)]

/-- After this run, both sub-tables of the double-hashing table hold the second flow. -/
theorem not_uniqueTriples : ¬ ∀ (sizes : TableSizes) (dp : Datapath),
    Datapath.Reachable sizes dp → dp.chain.UniqueTriples := by
  intro hall
  let dp := (Datapath.init .source 0).runEvents duplicatingRun
  let f := (plainFlowMod 0 (frameMatch 0x109247213) 0).newFlow 0
  have hr : Datapath.Reachable .source dp := Datapath.reachable_runEvents _ _ _
  have hv := Datapath.valid_of_reachable hr
  have h0 : f ∈ dp.chain.hash2.subtable0.flows := hv.subtable0.mem_flows.2 (by decide +kernel)
  have h1 : f ∈ dp.chain.hash2.subtable1.flows := hv.subtable1.mem_flows.2 (by decide +kernel)
  have hpw := (List.pairwise_append.1 (hall _ dp hr)).1
  exact (List.pairwise_append.1 hpw).2.2 f h0 f h1 rfl

end OfAgent
