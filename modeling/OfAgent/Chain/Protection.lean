import OfAgent.Chain.Duplicates
import OfAgent.Chain.Lookup

/-!
# Emergency flow protection

The secure channel asks for the emergency flows when it has lost its controller: the working tables
are flushed, and every entry of the emergency table is put into them as an ordinary entry without
timeouts. Both lists have the same capacity, so that there is room for all of them.

* `SwFlow.IsCopyOf`: what a copy has in common with the emergency entry.
* `SwChain.Restores`: the working tables hold one copy of each entry and nothing else.
* `protection_restores`: so they do after the message, and a packet finds the copy of the emergency
  entry that it would find.
-/

namespace OfAgent

/-- A permanent entry of the working tables that does what an emergency entry does. -/
structure SwFlow.IsCopyOf (f e : SwFlow) : Prop where
  /-- The key and its wildcards are the same. -/
  key : f.key = e.key
  /-- So is the priority. -/
  priority : f.priority = e.priority
  /-- So are the actions. -/
  actions : f.actions = e.actions
  /-- The copy does not time out when it is idle. -/
  idleTimeout : f.idleTimeout = ofpFlowPermanent
  /-- Nor does it otherwise. -/
  hardTimeout : f.hardTimeout = ofpFlowPermanent
  /-- It is no emergency entry. -/
  emergFlow : f.emergFlow = false

/-- What `protection_callback` inserts is a copy, whatever its serial number. -/
theorem SwFlow.WellFormed.isCopyOf {now : BitVec 64} {e : SwFlow} (h : e.WellFormed) (serial : ℕ) :
    SwFlow.IsCopyOf { Datapath.protectionFlow now e with serial } e :=
  ⟨@Datapath.protectionFlow_key now e h, rfl, rfl, rfl, rfl, rfl⟩

/-! ### Room -/

namespace SwTableLinear

variable {tl tl' : SwTableLinear} {flow : SwFlow}

/-- A table with room takes every flow. -/
theorem Valid.insert_ne_none (h : tl.Valid) (hroom : tl.flows.length < tl.maxFlows) :
    tl.insert flow ≠ none := by
  have hlt : ¬ tl.maxFlows ≤ tl.nFlows := by
    rw [h.nFlows_eq]
    exact Nat.not_le.2 hroom
  unfold SwTableLinear.insert
  cases findReplaced flow tl.flows with
  | some f => exact Option.some_ne_none _
  | none =>
    simp only [if_neg hlt]
    exact Option.some_ne_none _

/-- An insertion keeps the capacity and stays within it. -/
theorem Valid.length_insert (h : tl.Valid) (hins : tl.insert flow = some tl') :
    tl'.maxFlows = tl.maxFlows ∧ tl'.flows.length ≤ tl.flows.length + 1 ∧
      (tl.flows.length ≤ tl.maxFlows → tl'.flows.length ≤ tl.maxFlows) := by
  unfold SwTableLinear.insert at hins
  cases hr : findReplaced flow tl.flows with
  | some f =>
    simp only [hr, Option.some.injEq] at hins
    subst hins
    simp only [updateSerial, List.length_map]
    exact ⟨trivial, Nat.le_succ _, id⟩
  | none =>
    simp only [hr] at hins
    split at hins
    next => cases hins
    next hroom =>
      cases hins
      have hlen := (PriorityList.perm_insertBehind prio { flow with serial := tl.nextSerial }
        tl.flows).length_eq
      rw [List.length_cons] at hlen
      rw [h.nFlows_eq] at hroom
      exact ⟨rfl, hlen.le, fun _ => by simp only [hlen]; omega⟩

/-- An insertion that replaces nothing adds the flow. -/
theorem mem_flows_insert_iff (hins : tl.insert flow = some tl')
    (hno : ∀ f ∈ tl.flows, f.identical flow = false) (g : SwFlow) :
    g ∈ tl'.flows ↔ g = { flow with serial := tl.nextSerial } ∨ g ∈ tl.flows := by
  unfold SwTableLinear.insert at hins
  cases hr : findReplaced flow tl.flows with
  | some f =>
    obtain ⟨hmem, hid⟩ := mem_of_findReplaced hr
    rw [hno f hmem] at hid
    cases hid
  | none =>
    simp only [hr] at hins
    split at hins
    next => cases hins
    next =>
      cases hins
      exact PriorityList.mem_insertBehind prio

end SwTableLinear

namespace SwTableHash

variable {th th' : SwTableHash} {flow : SwFlow}

/-- An insertion that replaces nothing adds the flow. -/
theorem Valid.mem_flows_insert_iff (h : th.Valid) (hwf : flow.WellFormed)
    (hins : th.insert flow = some th') (hno : ∀ f ∈ th.flows, f.identical flow = false)
    (g : SwFlow) : g ∈ th'.flows ↔ g = flow ∨ g ∈ th.flows := by
  refine ⟨fun hg => (h.mem_flows_insert hwf hins hg).imp id And.left, fun hg => ?_⟩
  obtain ⟨hw, rfl, haccepts⟩ := insert_eq_some hins
  rw [(h.setBucket hwf hw).mem_flows, setBucket_buckets]
  change (if th.findBucket g.key.flow = th.findBucket flow.key.flow then some flow
    else th.buckets (th.findBucket g.key.flow)) = some g
  rcases hg with rfl | hg
  · exact if_pos rfl
  · have hbucket := h.mem_flows.1 hg
    rw [if_neg, hbucket]
    -- an entry in the bucket of the flow would be the same flow
    intro heq
    rw [Accepts, ← heq, hbucket] at haccepts
    have hid := (h.wellFormed hbucket).identical_exact hwf (h.exact hbucket) hw
    rw [hno g hg] at hid
    exact Bool.false_ne_true (hid.trans haccepts)

end SwTableHash

namespace SwChain

variable {ch ch' : SwChain} {flow : SwFlow}

/-- The emergency entries fit in the linear table. -/
structure Room (ch : SwChain) : Prop where
  /-- Both tables have the same capacity. -/
  maxFlows : ch.emergTable.maxFlows = ch.linear.maxFlows
  /-- The emergency table stays within it. -/
  length_le : ch.emergTable.flows.length ≤ ch.emergTable.maxFlows

/-- Every change of a valid chain leaves the room. -/
theorem Room.change (h : ch.Room) (hv : ch.Valid) (hc : Change ch ch') : ch'.Room := by
  cases hc with
  | filter p0 p1 p2 p3 =>
    exact ⟨h.maxFlows, (List.length_filter_le _ _).trans h.length_le⟩
  | map h0 h1 h2 h3 =>
    refine ⟨h.maxFlows, ?_⟩
    simp only [mapTables, SwTableLinear.mapFlows, List.length_map]
    exact h.length_le
  | @insert _ flow emerg hwf hins =>
    cases emerg with
    | true =>
      obtain ⟨tl, htl, rfl⟩ := insert_emerg_eq_some hins
      obtain ⟨hmax, -, hle⟩ := hv.emergTable.length_insert htl
      refine ⟨hmax.trans h.maxFlows, ?_⟩
      simp only [hmax]
      exact hle h.length_le
    | false =>
      rcases insert_eq_some hins with ⟨th, -, rfl⟩ | ⟨th, -, -, rfl⟩ | ⟨tl, -, -, htl, rfl⟩
      · exact ⟨h.maxFlows, h.length_le⟩
      · exact ⟨h.maxFlows, h.length_le⟩
      · exact ⟨h.maxFlows.trans (hv.linear.length_insert htl).1.symm, h.length_le⟩

theorem Room.changes (h : ch.Room) (hv : ch.Valid) (hc : Relation.ReflTransGen Change ch ch') :
    ch'.Room := by
  induction hc with
  | refl => exact h
  | tail hcs hc ih => exact ih.change (hv.changes hcs) hc

/-- A chain with room in its linear table takes every flow. -/
theorem Valid.insert_ne_none (h : ch.Valid) (hroom : ch.linear.flows.length < ch.linear.maxFlows) :
    ch.insert flow false ≠ none := by
  unfold SwChain.insert
  cases ch.hash2.insert flow with
  | some t2 => exact Option.some_ne_none _
  | none =>
    have htl := @SwTableLinear.Valid.insert_ne_none _ flow h.linear hroom
    exact fun hnone => htl (Option.map_eq_none_iff.1 hnone)

/-- An insertion that replaces nothing adds the flow. -/
theorem Valid.mem_workingFlows_insert_iff (h : ch.Valid) (hwf : flow.WellFormed)
    (hins : ch.insert flow false = some ch')
    (hno : ∀ f ∈ ch.workingFlows, f.identical flow = false) :
    ∃ serial, ∀ g, g ∈ ch'.workingFlows ↔ g = { flow with serial } ∨ g ∈ ch.workingFlows := by
  simp only [workingFlows, SwTableHash2.flows, List.mem_append] at hno ⊢
  rcases insert_eq_some hins with ⟨th, h0, rfl⟩ | ⟨th, -, h1, rfl⟩ | ⟨tl, -, -, h2, rfl⟩
  · refine ⟨flow.serial, fun g => ?_⟩
    simp only [h.subtable0.mem_flows_insert_iff hwf h0 (fun f hf => hno f (.inl (.inl hf))) g,
      or_assoc]
  · refine ⟨flow.serial, fun g => ?_⟩
    simp only [h.subtable1.mem_flows_insert_iff hwf h1 (fun f hf => hno f (.inl (.inr hf))) g]
    tauto
  · refine ⟨ch.linear.nextSerial, fun g => ?_⟩
    simp only [SwTableLinear.mem_flows_insert_iff h2 (fun f hf => hno f (.inr hf)) g]
    tauto

/-- An insertion into the working tables leaves the emergency table alone. -/
theorem insert_emergTable (hins : ch.insert flow false = some ch') :
    ch'.emergTable = ch.emergTable := by
  rcases insert_eq_some hins with ⟨th, -, rfl⟩ | ⟨th, -, -, rfl⟩ | ⟨tl, -, -, -, rfl⟩
  all_goals rfl

/-- It leaves the capacity alone, too, and makes the linear table longer by one entry at most. -/
theorem Valid.insert_linear (h : ch.Valid) (hins : ch.insert flow false = some ch') :
    ch'.linear.maxFlows = ch.linear.maxFlows ∧
      ch'.linear.flows.length ≤ ch.linear.flows.length + 1 := by
  rcases insert_eq_some hins with ⟨th, -, rfl⟩ | ⟨th, -, -, rfl⟩ | ⟨tl, -, -, htl, rfl⟩
  · exact ⟨rfl, Nat.le_succ _⟩
  · exact ⟨rfl, Nat.le_succ _⟩
  · obtain ⟨hmax, hle, -⟩ := h.linear.length_insert htl
    exact ⟨hmax, hle⟩

/-- The working tables hold one copy of each of the given entries, and nothing else. -/
structure Restores (ch : SwChain) (emerg : List SwFlow) : Prop where
  /-- No two entries are the same flow. -/
  distinct : ch.Distinct
  /-- There is nothing else. -/
  isCopy : ∀ f ∈ ch.workingFlows, ∃ e ∈ emerg, f.IsCopyOf e
  /-- Every entry has a copy. -/
  exists_copy : ∀ e ∈ emerg, ∃ f ∈ ch.workingFlows, f.IsCopyOf e

/-- One more copy. -/
theorem Restores.insert {now : BitVec 64} {emerg : List SwFlow} {e : SwFlow}
    (h : ch.Restores emerg) (hv : ch.Valid) (he : e.WellFormed)
    (hdist : ∀ e' ∈ emerg, e'.identical e = false)
    (hins : ch.insert (Datapath.protectionFlow now e) false = some ch') :
    ch'.Restores (emerg ++ [e]) := by
  have hwf := @Datapath.protectionFlow_wellFormed now e he
  have hno : ∀ f ∈ ch.workingFlows, f.identical (Datapath.protectionFlow now e) = false := by
    intro f hf
    obtain ⟨e', he', hcopy⟩ := h.isCopy f hf
    rw [SwFlow.identical_congr hcopy.key hcopy.priority (Datapath.protectionFlow_key he) rfl]
    exact hdist e' he'
  obtain ⟨serial, hmem⟩ := hv.mem_workingFlows_insert_iff hwf hins hno
  refine ⟨hv.distinct_insert h.distinct hwf hins (not_laterCopy_of_forall hno), fun f hf => ?_,
    fun e' he' => ?_⟩
  · rcases (hmem f).1 hf with rfl | hf
    · exact ⟨e, List.mem_append_right _ List.mem_cons_self, he.isCopyOf serial⟩
    · obtain ⟨e', he', hcopy⟩ := h.isCopy f hf
      exact ⟨e', List.mem_append_left _ he', hcopy⟩
  · rcases List.mem_append.1 he' with he' | he'
    · obtain ⟨f, hf, hcopy⟩ := h.exists_copy e' he'
      exact ⟨f, (hmem f).2 (.inr hf), hcopy⟩
    · obtain rfl := List.mem_singleton.1 he'
      exact ⟨_, (hmem _).2 (.inl rfl), he.isCopyOf serial⟩

end SwChain

/-! ### The message -/

namespace Datapath

open SwChain

variable {dp : Datapath} {now : BitVec 64}

/-- The room of a new datapath is left by every run. -/
theorem room_of_reachable {sizes : TableSizes} (h : Reachable sizes dp) : dp.chain.Room := by
  obtain ⟨start, hrun⟩ := h
  have hboth : dp.chain.Valid ∧ dp.chain.Room := by
    refine hrun.invariant (fun s : Datapath => s.chain.Valid ∧ s.chain.Room)
      ⟨valid_create sizes, rfl, Nat.zero_le _⟩ fun s e s' hs _ hstep => ?_
    rw [hstep]
    have hchanges := changes_next hs.1 e
    exact ⟨hs.1.changes hchanges, hs.2.changes hs.1 hchanges⟩
  exact hboth.2

/-- The protection visits every emergency entry. -/
theorem candidates_allKey (tl : SwTableLinear) :
    tl.candidates allKey ofppNone (~~~SwTablePosition.zero.private0) = tl.iterFlows := by
  refine List.filter_eq_self.2 fun f _ => ?_
  have hmatch : flowMatches2wild allKey f.key = true :=
    (flowMatches2wild_iff _ _).2 ⟨f.key.pattern.value,
      (flowMatches1wild_iff _ _).1 (flowMatches1wild_allKey f.key), f.key.pattern.matches_value⟩
  have hle : SwTableLinear.serialWord f ≤ ~~~SwTablePosition.zero.private0 :=
    BitVec.le_def.2 (Nat.le_of_lt_succ (SwTableLinear.serialWord f).isLt)
  rw [hmatch, decide_eq_true hle, SwFlow.flowHasOutPort_none]
  rfl

/-- `do_protection` puts a copy of every emergency entry into empty working tables with room. -/
theorem restores_doProtection (hv : dp.chain.Valid) (hroom : dp.chain.Room)
    (hnil : dp.chain.workingFlows = []) :
    (dp.doProtection now).chain.Restores dp.chain.emergTable.iterFlows := by
  have hperm := hv.emergTable.perm
  have hdist : dp.chain.emergTable.iterFlows.Pairwise fun f g => f.identical g = false := by
    rw [hperm.pairwise_iff fun hab => by rw [SwFlow.identical_comm, hab]]
    exact hv.emergTable.distinct
  -- so many entries of the linear table are taken at most
  let P : List SwFlow → SwChain → Prop := fun pre chain =>
    chain.Valid ∧ chain.Restores pre ∧ chain.linear.flows.length ≤ pre.length ∧
      chain.linear.maxFlows = dp.chain.linear.maxFlows
  have hP : ∀ pre e chain, (pre ++ [e]) <+: dp.chain.emergTable.iterFlows → P pre chain →
      (protectionCallback now chain e).2 = 0 ∧
        P (pre ++ [e]) (protectionCallback now chain e).1 := by
    rintro pre e chain hpre ⟨hchain, hrestores, hlength, hmax⟩
    have he : e.WellFormed := hv.emergTable.wellFormed e (hperm.mem_iff.1 (hpre.subset (by simp)))
    have hlt : chain.linear.flows.length < chain.linear.maxFlows := by
      have hle := hpre.length_le
      have hcap := hroom.length_le
      rw [List.length_append, List.length_singleton] at hle
      rw [hperm.length_eq] at hle
      rw [hmax, ← hroom.maxFlows]
      omega
    have hsome : chain.insert (protectionFlow now e) false ≠ none := hchain.insert_ne_none hlt
    obtain ⟨chain', hins⟩ := Option.ne_none_iff_exists'.1 hsome
    simp only [protectionCallback, hins]
    obtain ⟨hmax', hlength'⟩ := hchain.insert_linear hins
    have hdiste : ∀ e' ∈ pre, e'.identical e = false := fun e' he' =>
      (List.pairwise_append.1 (hdist.sublist hpre.sublist)).2.2 e' he' e (by simp)
    refine ⟨trivial, hchain.change (.insert (protectionFlow_wellFormed he) hins),
      hrestores.insert hchain he hdiste hins, ?_, hmax'.trans hmax⟩
    rw [List.length_append, List.length_singleton]
    omega
  have h0 : P [] dp.chain := by
    have hempty : ∀ f, f ∉ dp.chain.workingFlows := by
      rw [hnil]
      exact fun f => List.not_mem_nil
    refine ⟨hv, ⟨?_, fun f hf => absurd hf (hempty f), fun e he => absurd he List.not_mem_nil⟩,
      ?_, rfl⟩
    · rw [SwChain.Distinct, hnil]
      exact .nil
    · rw [(List.append_eq_nil_iff.1 hnil).2]
  obtain ⟨hnone, -, hrestores, -⟩ := Visit.visit_complete (protectionCallback now) P hP h0
  unfold doProtection SwTableLinear.iterate
  rw [candidates_allKey]
  generalize Visit.visit (protectionCallback now) dp.chain.emergTable.iterFlows dp.chain = r
    at hnone hrestores ⊢
  obtain ⟨chain, stop⟩ := r
  cases hnone
  exact hrestores

/-- The message leaves the emergency table alone. -/
theorem emergTable_emergFlowProtection (dp : Datapath) (now : BitVec 64) :
    (dp.emergFlowProtection now).1.chain.emergTable = dp.chain.emergTable := by
  have hvisit : ∀ l chain, (Visit.visit (protectionCallback now) l chain).1.emergTable =
      chain.emergTable := fun l chain => by
    refine Visit.visit_invariant (protectionCallback now)
      (fun chain' => chain'.emergTable = chain.emergTable) (fun chain' e _ hchain' => ?_) rfl
    unfold protectionCallback
    split
    next hins => exact (insert_emergTable hins).trans hchain'
    next => exact hchain'
  unfold emergFlowProtection doProtection SwTableLinear.iterate
  simp only
  split
  next heq => exact (congrArg (fun r => SwChain.emergTable r.1) heq).symm.trans (hvisit _ _)
  next heq => exact (congrArg (fun r => SwChain.emergTable r.1) heq).symm.trans (hvisit _ _)

/-- After the message, the working tables hold one copy of each emergency entry and nothing else. -/
theorem restores_emergFlowProtection {sizes : TableSizes} (hr : Reachable sizes dp) :
    (dp.emergFlowProtection now).1.chain.Restores dp.chain.emergTable.flows := by
  have hv := valid_of_reachable hr
  have hflush : Change dp.chain (dp.flushWorking now).1.chain :=
    hv.change_delete normal_allKey ofppNone (priorityOfExact_of_not_strict _ 0) false
  have hrestores := @restores_doProtection _ now (hv.change hflush)
    ((room_of_reachable hr).change hv hflush) (workingFlows_flushWorking hv now)
  have hmem : ∀ e, e ∈ dp.chain.emergTable.iterFlows ↔ e ∈ dp.chain.emergTable.flows := fun _ =>
    hv.emergTable.perm.mem_iff
  refine ⟨hrestores.distinct, fun f hf => ?_, fun e he => ?_⟩
  · obtain ⟨e, he, hcopy⟩ := hrestores.isCopy f hf
    exact ⟨e, (hmem e).1 he, hcopy⟩
  · exact hrestores.exists_copy e ((hmem e).2 he)

end Datapath

/-! ### Lookups -/

/-- Of the entries, `e` alone has the highest priority among those that match the packet. -/
structure SwFlow.IsBestOf (e : SwFlow) (entries : List SwFlow) (flow : Flow) : Prop where
  /-- It is one of them. -/
  mem : e ∈ entries
  /-- It matches the packet. -/
  matches_self : flowMatches1wild (packetKey flow) e.key = true
  /-- Any other one that matches has a lower priority. -/
  lt : ∀ e' ∈ entries, flowMatches1wild (packetKey flow) e'.key = true →
    e' = e ∨ e'.priority < e.priority

namespace SwChain

variable {ch : SwChain} {flow : Flow} {emerg : List SwFlow} {e : SwFlow}

/-- An entry that matches the packet is a copy of the best one, or of a lower one with wildcards. -/
theorem Restores.isCopyOf_or_lt (h : ch.Restores emerg) (hbest : e.IsBestOf emerg flow)
    {f : SwFlow} (hf : f ∈ ch.workingFlows)
    (hmatch : flowMatches1wild (packetKey flow) f.key = true) :
    f.IsCopyOf e ∨ f.priority < e.priority := by
  obtain ⟨e', he', hcopy⟩ := h.isCopy f hf
  rw [hcopy.key] at hmatch
  rcases hbest.lt e' he' hmatch with rfl | hlt
  · exact .inl hcopy
  · exact .inr (hcopy.priority ▸ hlt)

/-- A packet finds the copy of the best entry. -/
theorem Restores.lookup_isCopyOf (h : ch.Restores emerg) (hv : ch.Valid)
    (hbest : e.IsBestOf emerg flow) :
    ∃ f, ch.lookup (packetKey flow) false = some f ∧ f.IsCopyOf e := by
  rw [lookup, if_neg Bool.false_ne_true]
  cases hhash : ch.hash2.lookup (packetKey flow) with
  | some f =>
    -- an entry without wildcards has the highest priority
    obtain ⟨hf, hflow⟩ := hv.hash2_lookup_some hhash
    have hwork : f ∈ ch.workingFlows := List.mem_append_left _ hf
    obtain ⟨hwf, hw⟩ := hv.hash2_exact hf
    refine ⟨f, rfl,
      (h.isCopyOf_or_lt hbest hwork ((hv.matches_exact hwork hw).2 hflow)).resolve_right
      fun hlt => ?_⟩
    rw [hwf.priority_of_exact hw, BitVec.lt_def] at hlt
    exact absurd hlt (Nat.not_lt.2 (Nat.le_of_lt_succ e.priority.isLt))
  | none =>
    have hno := hv.hash2_lookup_none hhash
    -- so the copy of the best entry is in the linear table
    obtain ⟨c, hc, hcopy⟩ := h.exists_copy e hbest.mem
    have hcmatch : flowMatches1wild (packetKey flow) c.key = true := hcopy.key ▸ hbest.matches_self
    have hclinear : c ∈ ch.linear.flows := (List.mem_append.1 hc).resolve_left fun hhash2 =>
      hno c hhash2 ((hv.matches_exact hc (hv.hash2_exact hhash2).2).1 hcmatch)
    cases hlinear : ch.linear.lookup (packetKey flow) with
    | none => exact absurd hcmatch (List.find?_eq_none.1 hlinear c hclinear)
    | some f =>
      obtain ⟨hf, hmatch⟩ := SwTableLinear.lookup_eq_some hlinear
      refine ⟨f, rfl, (h.isCopyOf_or_lt hbest (List.mem_append_right _ hf) hmatch).resolve_right
        fun hlt => ?_⟩
      have hle : c.priority.toNat ≤ f.priority.toNat :=
        hv.linear.sorted.find?_maximal hlinear hclinear hcmatch
      rw [← hcopy.priority, BitVec.lt_def] at hlt
      exact absurd hlt (Nat.not_lt.2 hle)

/-- An entry has one copy. -/
theorem Restores.existsUnique (h : ch.Restores emerg) (he : e ∈ emerg) :
    ∃! f, f ∈ ch.workingFlows ∧ f.IsCopyOf e := by
  obtain ⟨f, hf, hcopy⟩ := h.exists_copy e he
  refine ⟨f, ⟨hf, hcopy⟩, fun g hg => ?_⟩
  by_contra hne
  have : Std.Symm fun a b : SwFlow => a.identical b = false :=
    ⟨fun a b hab => by rw [SwFlow.identical_comm, hab]⟩
  have hdist := List.Pairwise.forall h.distinct hg.1 hf hne
  rw [SwFlow.identical_congr (hg.2.key.trans hcopy.key.symm)
    (hg.2.priority.trans hcopy.priority.symm) rfl rfl, SwFlow.identical_self] at hdist
  cases hdist

theorem Restores.nodup (h : ch.Restores emerg) : ch.workingFlows.Nodup := by
  refine List.Pairwise.imp (fun {a b} hab heq => ?_) h.distinct
  rw [heq, SwFlow.identical_self] at hab
  cases hab

end SwChain

/-- After the protection message, the working tables hold exactly one copy of each emergency entry
and nothing else, and every packet for which one emergency entry is the best finds the copy of
it. -/
theorem protection_restores {sizes : TableSizes} {dp : Datapath}
    (hr : Datapath.Reachable sizes dp) (now : BitVec 64) :
    let ch := (dp.emergFlowProtection now).1.chain
    (ch.workingFlows.Nodup ∧
      (∀ f ∈ ch.workingFlows, ∃ e ∈ dp.chain.emergTable.flows, f.IsCopyOf e) ∧
      ∀ e ∈ dp.chain.emergTable.flows, ∃! f, f ∈ ch.workingFlows ∧ f.IsCopyOf e) ∧
    ∀ flow e, e.IsBestOf dp.chain.emergTable.flows flow →
      ∃ f, ch.lookup (packetKey flow) false = some f ∧ f.IsCopyOf e := by
  have hrestores := @Datapath.restores_emergFlowProtection dp now _ hr
  have hv : (dp.emergFlowProtection now).1.chain.Valid :=
    (Datapath.valid_of_reachable hr).changes
      (Datapath.changes_next (Datapath.valid_of_reachable hr) (.protection now))
  exact ⟨⟨hrestores.nodup, hrestores.isCopy, fun e he => hrestores.existsUnique he⟩,
    fun flow e hbest => hrestores.lookup_isCopyOf hv hbest⟩

/-- A datapath with one emergency entry. -/
def emergencyDatapath : Datapath :=
  (Datapath.init .source 0).runEvents
    [.flowMod 0 { plainFlowMod 0 (frameMatch 0) 0 with flags := ofpffEmerg }]

/-- After the protection message, the packets of the entry find the copy of it. -/
theorem protection_restores_one : ∃ e ∈ emergencyDatapath.chain.emergTable.flows,
    ∃ f, (emergencyDatapath.emergFlowProtection 0).1.chain.lookup
      (packetKey (frameFlow 0)) false = some f ∧ f.IsCopyOf e := by
  obtain ⟨e, hflows, hmatch⟩ : ∃ e, emergencyDatapath.chain.emergTable.flows = [e] ∧
      flowMatches1wild (packetKey (frameFlow 0)) e.key = true := ⟨_, rfl, by decide +kernel⟩
  have hmem : e ∈ emergencyDatapath.chain.emergTable.flows := hflows ▸ List.mem_cons_self
  have hbest : e.IsBestOf emergencyDatapath.chain.emergTable.flows (frameFlow 0) :=
    ⟨hmem, hmatch, fun e' he' _ => .inl (List.mem_singleton.1 (hflows ▸ he'))⟩
  exact ⟨e, hmem, (protection_restores (Datapath.reachable_runEvents .source 0 _) 0).2 _ e hbest⟩

end OfAgent
