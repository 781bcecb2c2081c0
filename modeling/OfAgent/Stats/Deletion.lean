import OfAgent.Chain.Subsumption
import OfAgent.Stats.Complete

/-!
# Statistics and deletions

A statistics request and a deletion with the same match and output port are meant to be about the
same entries. The iterations of the linear table compare with the wildcards of both sides, and the
deletion with those of the description alone. They differ on an entry that overlaps with the
description and stores, in a bit that it wildcards and the description compares, another value.

* `Reported`: an entry is in the body of some reply.
* `StatsAgreeWithDelete`: the reported entries are the deleted ones, and the aggregate statistics
  are their totals.
* `statsAgreeWithDelete_iff`: this holds exactly when there is no such entry with the output port.
-/

namespace OfAgent

open Batching

variable {ch : SwChain} {rq : OfpFlowStatsRequest}

/-- A request for the working tables. -/
def allTablesRequest (m : OfpMatch) (outPort : BitVec 16) : OfpFlowStatsRequest :=
  ⟨m, allTablesForStats, outPort⟩

/-- The entry is in one of the replies to a request for the working tables. -/
def Reported (ch : SwChain) (nows : ℕ → BitVec 64) (m : OfpMatch) (outPort : BitVec 16)
    (flow : SwFlow) : Prop :=
  ∃ fuel, ∃ r ∈ flowStatsReplies ch nows (allTablesRequest m outPort) fuel,
    flow ∈ r.entries.map Prod.snd

/-- The entries that a deletion without strictness removes from the working tables. -/
def deletedEntries (ch : SwChain) (m : OfpMatch) (outPort : BitVec 16) : List SwFlow :=
  (ch.delete (flowExtractMatch m) outPort 0 false false).2

/-- The reported entries are the ones that a deletion removes, and the aggregate statistics count
these. -/
def StatsAgreeWithDelete (ch : SwChain) (nows : ℕ → BitVec 64) (m : OfpMatch)
    (outPort : BitVec 16) : Prop :=
  (∀ flow, Reported ch nows m outPort flow ↔ flow ∈ deletedEntries ch m outPort) ∧
    aggregateStatsDump ch (allTablesRequest m outPort) = totals (deletedEntries ch m outPort)

/-- Some packet matches both the description and the entry, and in a bit that the description
compares and the entry wildcards, the entry stores another value. -/
def StaleOverlap (d t : SwFlowKey) : Prop :=
  d.pattern.Overlaps t.pattern ∧ d.pattern.StaleAt t.pattern

/-- The comparisons of statistics and of deletions differ at a stale overlap. -/
theorem staleOverlap_iff (d t : SwFlowKey) :
    StaleOverlap d t ↔ flowMatches2wild d t = true ∧ ¬ flowMatches1wild t d = true := by
  rw [flowMatches2wild_iff, flowMatches1wild_iff]
  exact (Ternary.Pattern.overlaps_not_matches_iff _ _).symm

/-- A deletion without strictness selects fewer entries than statistics do. -/
theorem deletes_iff (key : SwFlowKey) (outPort : BitVec 16) (flow : SwFlow) :
    SwTableLinear.deletes key outPort 0 false flow = true ↔
      statsSelect key outPort flow = true ∧ ¬ StaleOverlap key flow.key := by
  have himp : flowMatches1wild flow.key key = true → flowMatches2wild key flow.key = true := by
    rw [flowMatches1wild_iff, flowMatches2wild_iff]
    exact fun h => Ternary.Pattern.overlaps_of_matches h
  rw [staleOverlap_iff]
  simp only [SwTableLinear.deletes, flowMatchesDesc, statsSelect, Bool.and_eq_true,
    Bool.false_and, Bool.false_eq_true, if_false, Bool.not_false, Bool.true_or, and_true, not_and,
    not_not]
  constructor
  · rintro ⟨h1, ho⟩
    exact ⟨⟨himp h1, ho⟩, fun _ => h1⟩
  · rintro ⟨⟨h2, ho⟩, h⟩
    exact ⟨h h2, ho⟩

/-- The entries that a request for the working tables selects, up to their order. -/
theorem SwChain.Valid.perm_matchingEntries (h : ch.Valid) (m : OfpMatch) (outPort : BitVec 16) :
    ((matchingEntries ch (allTablesRequest m outPort)).map Prod.snd).Perm
      (ch.workingFlows.filter (statsSelect (flowExtractMatch m) outPort)) := by
  have he : (allTablesRequest m outPort).tableId ≠ emergTableIdForStats := by
    change allTablesForStats ≠ emergTableIdForStats
    decide
  have hreads : ∀ i, (allTablesRequest m outPort).reads i := fun i => .inl rfl
  rw [matchingEntries, if_neg he, if_pos (hreads 0), if_pos (hreads 1), List.map_append,
    List.map_map, List.map_map, SwChain.workingFlows, List.filter_append]
  simp only [Function.comp_def, List.map_id']
  exact (h.linear.perm.filter _).append_left _

/-- Permuted entries have the same totals. -/
theorem totals_perm {l l' : List SwFlow} (h : l.Perm l') : totals l = totals l' := by
  have hsum : ∀ g : SwFlow → BitVec 64, (l.map g).sum = (l'.map g).sum := by
    have : LeftCommutative fun a b : BitVec 64 => a + b := 
      ⟨fun a b c => by rw [← BitVec.add_assoc, BitVec.add_comm a b, BitVec.add_assoc]⟩
    exact fun g => (h.map g).foldr_eq 0
  rw [totals, totals, hsum, hsum, h.length_eq]

/-- Every entry that remains somewhere is a matching entry. -/
theorem SwChain.Valid.mem_of_mem_remaining (h : ch.Valid) {m : OfpMatch} {outPort : BitVec 16}
    {c : ℕ × SwTablePosition} {e : ℕ × SwFlow}
    (he : e ∈ statsRemaining ch (allTablesRequest m outPort) c) :
    e.2 ∈ ch.workingFlows.filter (statsSelect (flowExtractMatch m) outPort) := by
  have hemerg : (allTablesRequest m outPort).tableId ≠ emergTableIdForStats := by
    change allTablesForStats ≠ emergTableIdForStats
    decide
  -- what remains of the tables remains of one of them
  have hloop : ∀ (ts : List SwTable) (c : ℕ × SwTablePosition),
      e ∈ remainingTables (allTablesRequest m outPort) ts c →
      ∃ t ∈ ts, ∃ p, e.2 ∈ t.remaining (flowExtractMatch m) outPort p := by
    intro ts
    induction ts with
    | nil => exact fun c hc => absurd hc List.not_mem_nil
    | cons t ts ih =>
      rintro ⟨i, p⟩ hc
      rw [remainingTables, if_pos (.inl rfl)] at hc
      rcases List.mem_append.1 hc with hc | hc
      · obtain ⟨f, hf, rfl⟩ := List.mem_map.1 hc
        exact ⟨t, List.mem_cons_self, p, hf⟩
      · obtain ⟨t', ht, q, hq⟩ := ih _ hc
        exact ⟨t', List.mem_cons_of_mem _ ht, q, hq⟩
  rw [statsRemaining, if_neg hemerg] at he
  obtain ⟨t, ht, p, hp⟩ := hloop _ _ he
  rw [SwChain.workingFlows, List.filter_append]
  have hmem := List.mem_of_mem_drop ht
  simp only [SwChain.tables, List.mem_cons, List.not_mem_nil, or_false] at hmem
  rcases hmem with rfl | rfl
  · exact List.mem_append_left _ (SwTableHash2.mem_of_mem_remaining h.subtable0 h.subtable1
      (normal_flowExtractMatch m) hp)
  · refine List.mem_append_right _ ((h.linear.perm.filter _).mem_iff.1 ?_)
    rw [SwTable.remaining, SwTableLinear.remaining, SwTableLinear.candidates_eq_filter] at hp
    exact List.mem_of_mem_filter hp

/-- While the serial numbers have not wrapped around, the replies report the matching entries. -/
theorem SwChain.Valid.reported_iff (h : ch.Valid) (hfit : ch.linear.nextSerial ≤ 2 ^ 64)
    (nows : ℕ → BitVec 64) (m : OfpMatch) (outPort : BitVec 16) (flow : SwFlow) :
    Reported ch nows m outPort flow ↔
      flow ∈ ch.workingFlows.filter (statsSelect (flowExtractMatch m) outPort) := by
  have hbatches := batches_statsDump ch (allTablesRequest m outPort) nows
  have hstart := statsRemaining_start h (allTablesRequest m outPort)
  have hemerg : (allTablesRequest m outPort).tableId ≠ emergTableIdForStats := by
    change allTablesForStats ≠ emergTableIdForStats
    decide
  simp only [Reported, flowStatsReplies_eq]
  constructor
  · rintro ⟨fuel, r, hr, hmem⟩
    obtain ⟨e, he, rfl⟩ := List.mem_map.1 hmem
    obtain ⟨c, hc⟩ := hbatches.mem_of_mem_run hr he
    exact h.mem_of_mem_remaining hc
  · intro hmem
    -- only the entry with serial number 0 spoils its position, and nothing is behind it
    have hends : ∀ b ∈ boundaries flowStatsLength maxFlowStatsBytes sizeofOfpStatsReply
        sizeofOfpStatsReply (statsRemaining ch (allTablesRequest m outPort)
          (statsStart (allTablesRequest m outPort))),
        statsAfter ch (allTablesRequest m outPort) b.1 b.2 = b.2 ∨ b.2 = [] := by
      intro b hb
      rw [hstart] at hb
      by_cases he : fromHash (allTablesRequest m outPort) b.1
      · exact .inl (if_pos he)
      obtain ⟨pre, hpre⟩ := split_of_mem_boundaries hb
      obtain ⟨pre', rest, hlin, hrest⟩ := split_linearMatching hpre he
      have hlin' := hlin
      rw [linearMatching, statsLinear, if_neg hemerg] at hlin'
      by_cases hz : b.1.2.serial = 0
      · right
        have hpw := hlin' ▸ h.linear.descending.filter _
        have hnil := (List.pairwise_cons.1 (List.pairwise_append.1 hpw).2.1).1
        rw [hrest, List.map_eq_nil_iff, List.eq_nil_iff_forall_not_mem]
        intro f hf
        have := hnil f hf
        omega
      · left
        rw [statsAfter_of_not_fromHash he, linearMatching, statsLinear, if_neg hemerg,
          h.linear.filter_behind hfit hlin' hz, hrest]
    obtain ⟨fuel, hpre⟩ := hbatches.exists_prefix 0 hends
    obtain ⟨e, he, rfl⟩ := List.mem_map.1 ((h.perm_matchingEntries m outPort).mem_iff.2 hmem)
    rw [hstart] at hpre
    obtain ⟨r, hr, her⟩ := List.mem_flatMap.1 (hpre.subset he)
    exact ⟨fuel, r, hr, List.mem_map.2 ⟨e, her, rfl⟩⟩

theorem SwChain.Valid.deletedEntries_eq (h : ch.Valid) (m : OfpMatch) (outPort : BitVec 16) :
    deletedEntries ch m outPort =
      ch.workingFlows.filter (SwTableLinear.deletes (flowExtractMatch m) outPort 0 false) := by
  rw [deletedEntries, h.delete_eq (normal_flowExtractMatch m) outPort
    (priorityOfExact_of_not_strict _ 0)]

/-- In every reachable datapath whose serial numbers have not wrapped around, statistics and
deletions are about the same entries exactly when no entry with the output port overlaps with the
description and stores another value in a bit that it wildcards and the description compares. -/
theorem statsAgreeWithDelete_iff {sizes : TableSizes} {dp : Datapath}
    (hr : Datapath.Reachable sizes dp) (hfit : dp.chain.linear.nextSerial ≤ 2 ^ 64)
    (nows : ℕ → BitVec 64) (m : OfpMatch) (outPort : BitVec 16) :
    StatsAgreeWithDelete dp.chain nows m outPort ↔
      ¬ ∃ t ∈ dp.chain.workingFlows, t.flowHasOutPort outPort = true ∧
        StaleOverlap (flowExtractMatch m) t.key := by
  have h := Datapath.valid_of_reachable hr
  constructor
  · rintro ⟨hset, -⟩ ⟨t, ht, ho, hst⟩
    have hsel : statsSelect (flowExtractMatch m) outPort t = true := by
      rw [statsSelect, ((staleOverlap_iff _ _).1 hst).1, ho]
      rfl
    have hdel :=
      (hset t).1 ((h.reported_iff hfit nows m outPort t).2 (List.mem_filter.2 ⟨ht, hsel⟩))
    rw [h.deletedEntries_eq, List.mem_filter, deletes_iff] at hdel
    exact hdel.2.2 hst
  · intro hno
    -- the two selections differ in the stale overlaps alone
    have hcongr : dp.chain.workingFlows.filter (statsSelect (flowExtractMatch m) outPort) =
        dp.chain.workingFlows.filter
          (SwTableLinear.deletes (flowExtractMatch m) outPort 0 false) := by
      refine List.filter_congr fun t ht => ?_
      rw [Bool.eq_iff_iff, deletes_iff]
      refine ⟨fun hsel => ⟨hsel, fun hst => hno ⟨t, ht, ?_, hst⟩⟩, fun hdel => hdel.1⟩
      rw [statsSelect, Bool.and_eq_true] at hsel
      exact hsel.2
    refine ⟨fun flow => ?_, ?_⟩
    · rw [h.reported_iff hfit, hcongr, h.deletedEntries_eq]
    · rw [aggregateStatsDump_eq h, totals_perm (h.perm_matchingEntries m outPort), hcongr,
        h.deletedEntries_eq]

/-- A request with the input port that is left behind in a flow reports what a deletion removes. -/
theorem statsAgreeWithDelete_fitting :
    let dp := (Datapath.init ⟨0, 100⟩ 0).runEvents
      [.flowMod 0 (plainFlowMod 0 { anyMatch with inPort := 5 } 1)]
    StatsAgreeWithDelete dp.chain (fun _ => 0) (inPortMatch 5) ofppNone := by
  refine (statsAgreeWithDelete_iff (Datapath.reachable_runEvents ⟨0, 100⟩ 0 _)
    (by decide +kernel) (fun _ => 0) (inPortMatch 5) ofppNone).2 ?_
  simp only [staleOverlap_iff]
  decide +kernel

/-- A request with another input port reports the flow, and a deletion leaves it alone. -/
theorem not_statsAgreeWithDelete : ¬ ∀ (sizes : TableSizes) (dp : Datapath),
    Datapath.Reachable sizes dp → ∀ (nows : ℕ → BitVec 64) (m : OfpMatch) (outPort : BitVec 16),
      StatsAgreeWithDelete dp.chain nows m outPort := by
  intro hall
  have hr : Datapath.Reachable .source staleDatapath := Datapath.reachable_runEvents .source 0 _
  have h := Datapath.valid_of_reachable hr
  have hset := (hall .source staleDatapath hr (fun _ => 0) (inPortMatch 6) ofppNone).1 staleFlow
  have hrep : Reported staleDatapath.chain (fun _ => 0) (inPortMatch 6) ofppNone staleFlow :=
    (h.reported_iff (by decide +kernel) _ _ _ _).2 (List.mem_filter.2 ⟨staleFlow_mem, by decide⟩)
  have hdel := hset.1 hrep
  rw [h.deletedEntries_eq, List.mem_filter] at hdel
  exact absurd hdel.2 (by decide)

end OfAgent
