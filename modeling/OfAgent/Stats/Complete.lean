import OfAgent.Stats.Resume

/-!
# Completeness of flow statistics

The replies to a flow statistics request are meant to list every matching entry once. A full reply
that ends with an entry of a linear table saves the serial number of that entry, less one. Behind
the entry with serial number 0 this is the largest number, so the iteration starts over and the
entries of the table are sent again; with equally long entries and no others in the table, for
ever.

* `FlowStatsComplete`: the replies end and list the matching entries, and the aggregate statistics
  agree with them.
* `PositionsHold`: behind every full reply, the saved position selects the entries that follow.
* `flowStatsComplete_iff`: the first holds exactly when the second does.
* `SwTableLinear.Valid.positionsHold_iff`: while the serial numbers have not wrapped around, this
  means that no full reply ends with the entry with serial number 0.
-/

namespace OfAgent

open Batching

variable {ch : SwChain} {rq : OfpFlowStatsRequest}

/-- The entries of the linear table that a request selects. -/
def linearMatching (ch : SwChain) (rq : OfpFlowStatsRequest) : List SwFlow :=
  (statsLinear ch rq).iterFlows.filter (statsSelect rq.matchKey rq.outPort)

/-- The entries at which a reply to the request becomes full when the matching entries are put into
replies one after the other, each with the matching entries behind it. -/
def replyEnds (ch : SwChain) (rq : OfpFlowStatsRequest) :
    List ((ℕ × SwFlow) × List (ℕ × SwFlow)) :=
  boundaries flowStatsLength maxFlowStatsBytes sizeofOfpStatsReply sizeofOfpStatsReply
    (matchingEntries ch rq)

/-- Where a reply becomes full at an entry of a linear table, the matching entries whose serial
numbers are at most one less than that of the entry, modulo `2 ^ 64`, are the ones behind it. -/
def PositionsHold (ch : SwChain) (rq : OfpFlowStatsRequest) : Prop :=
  ∀ b ∈ replyEnds ch rq, ¬ fromHash rq b.1 →
    (linearMatching ch rq).filter (SwTableLinear.behind b.1.2) = b.2.map Prod.snd

/-- The replies to a request, made while the tables do not change, come to an end; all but the last
one announce more; their bodies list every matching entry once, in the order of the iteration; and
the aggregate statistics are the totals over their bodies. -/
def FlowStatsComplete (ch : SwChain) (nows : ℕ → BitVec 64) (rq : OfpFlowStatsRequest) : Prop :=
  ∃ fuel, let replies := flowStatsReplies ch nows rq fuel
    Finished StatsReply.more replies ∧
      replies.flatMap StatsReply.entries = matchingEntries ch rq ∧
      let body := replies.flatMap StatsReply.body
      aggregateStatsDump ch rq =
        { packetCount := (body.map OfpFlowStats.packetCount).sum
          byteCount := (body.map OfpFlowStats.byteCount).sum
          flowCount := BitVec.ofNat 32 body.length }

/-- The matching entries are those of the hash tables and behind them those of a linear table. -/
theorem exists_matchingEntries_eq (ch : SwChain) (rq : OfpFlowStatsRequest) :
    ∃ (hash : List (ℕ × SwFlow)) (lin : List SwFlow) (i : ℕ),
      matchingEntries ch rq = hash ++ lin.map (fun flow => (i, flow)) ∧
      (∀ e ∈ hash, fromHash rq e) ∧ (lin = [] ∨ lin = linearMatching ch rq) := by
  unfold matchingEntries linearMatching statsLinear
  by_cases he : rq.tableId = emergTableIdForStats
  · rw [if_pos he, if_pos he]
    exact ⟨[], _, _, rfl, by simp, .inr rfl⟩
  · rw [if_neg he, if_neg he]
    have hhash : ∀ e ∈ (if rq.reads 0 then
        (ch.hash2.flows.filter (statsSelect rq.matchKey rq.outPort)).map fun flow => (0, flow)
        else []), fromHash rq e := by
      intro e hmem
      split at hmem
      · obtain ⟨f, -, rfl⟩ := List.mem_map.1 hmem
        exact ⟨he, rfl⟩
      · cases hmem
    by_cases h1 : rq.reads 1
    · rw [if_pos h1]
      exact ⟨_, _, _, rfl, hhash, .inr rfl⟩
    · rw [if_neg h1]
      exact ⟨_, [], 1, rfl, hhash, .inl rfl⟩

/-- Where an entry of a linear table stands among the matching entries. -/
theorem split_linearMatching {pre l : List (ℕ × SwFlow)} {e : ℕ × SwFlow}
    (h : matchingEntries ch rq = pre ++ e :: l) (he : ¬ fromHash rq e) :
    ∃ pre' rest, linearMatching ch rq = pre' ++ e.2 :: rest ∧
      l = rest.map fun flow => (e.1, flow) := by
  obtain ⟨hash, lin, i, heq, hhash, hlin⟩ := exists_matchingEntries_eq ch rq
  rw [heq] at h
  -- the entry does not stand among those of the hash tables
  have hsplit : ∃ mid, lin.map (fun flow => (i, flow)) = mid ++ e :: l := by
    rcases List.append_eq_append_iff.1 h with ⟨mid, -, hmid⟩ | ⟨mid, hpre, hmid⟩
    · exact ⟨mid, hmid⟩
    · cases mid with
      | nil => exact ⟨[], hmid.symm⟩
      | cons a mid =>
        obtain ⟨rfl, -⟩ := List.cons.inj hmid
        exact absurd (hhash e (by rw [hpre]; simp)) he
  obtain ⟨mid, hmid⟩ := hsplit
  obtain ⟨pre', rest', rfl, -, hrest⟩ := List.map_eq_append_iff.1 hmid
  obtain ⟨f, rest, rfl, rfl, rfl⟩ := List.map_eq_cons_iff.1 hrest
  rcases hlin with hnil | hlin
  · simp at hnil
  · exact ⟨pre', rest, hlin.symm, rfl⟩

/-- Behind an entry of a linear table, the entries that its saved position selects remain. -/
theorem statsAfter_of_not_fromHash {e : ℕ × SwFlow} (he : ¬ fromHash rq e)
    (l : List (ℕ × SwFlow)) : statsAfter ch rq e l =
      ((linearMatching ch rq).filter (SwTableLinear.behind e.2)).map fun flow => (e.1, flow) :=
  if_neg he

/-- The saved positions select the entries that follow exactly when the replies can be resumed. -/
theorem positionsHold_iff_resumable :
    PositionsHold ch rq ↔ Resumable flowStatsLength maxFlowStatsBytes sizeofOfpStatsReply
      (statsAfter ch rq) (matchingEntries ch rq) := by
  refine forall₂_congr fun b hb => ?_
  by_cases he : fromHash rq b.1
  · rw [statsAfter, if_pos he]
    exact ⟨fun _ => rfl, fun _ hne => absurd he hne⟩
  · obtain ⟨pre, hpre⟩ := split_of_mem_boundaries hb
    obtain ⟨pre', rest, -, hrest⟩ := split_linearMatching hpre he
    rw [statsAfter_of_not_fromHash he, hrest, List.map_map]
    have hinj : Function.Injective fun flow : SwFlow => (b.1.1, flow) :=
      fun f g hfg => congrArg Prod.snd hfg
    rw [(List.map_injective_iff.2 hinj).eq_iff]
    simp [he, Function.comp_def]

/-- No linear table holds an entry twice. -/
theorem SwChain.Valid.nodup_linearMatching (h : ch.Valid) : (linearMatching ch rq).Nodup := by
  have hnodup : ∀ {tl : SwTableLinear}, tl.Valid → tl.iterFlows.Nodup := fun htl =>
    htl.descending.imp fun hlt heq => by
      subst heq
      exact absurd hlt (lt_irrefl _)
  unfold linearMatching statsLinear
  split
  · exact (hnodup h.emergTable).filter _
  · exact (hnodup h.linear).filter _

/-- The totals over a list of entries are those over the bodies that are made of it. -/
theorem totals_eq_of_body (replies : List StatsReply) :
    let body := replies.flatMap StatsReply.body
    totals ((replies.flatMap StatsReply.entries).map Prod.snd) =
      { packetCount := (body.map OfpFlowStats.packetCount).sum
        byteCount := (body.map OfpFlowStats.byteCount).sum
        flowCount := BitVec.ofNat 32 body.length } := by
  simp only [totals, StatsReply.body, List.map_flatMap, List.map_map, List.length_flatMap,
    List.length_map]
  rfl

/-- Complete replies have good saved positions. -/
theorem SwChain.Valid.positionsHold_of_complete (h : ch.Valid) {nows : ℕ → BitVec 64}
    (hcomplete : FlowStatsComplete ch nows rq) : PositionsHold ch rq := by
  have hbatches := batches_statsDump ch rq nows
  have hstart := statsRemaining_start h rq
  obtain ⟨fuel, hfin, hflat, -⟩ := hcomplete
  rw [flowStatsReplies_eq] at hfin hflat
  rw [positionsHold_iff_resumable]
  rw [← hstart] at hflat ⊢
  refine hbatches.after_eq_of_finished (fun fuel k p pre e l hall hp hfin hflat => ?_)
    (List.nil_append _).symm hfin hflat
  -- a position in the hash tables is exact; one in the linear table has to be looked at
  by_cases he : fromHash rq e
  · exact if_pos he
  · rw [hstart] at hall
    obtain ⟨pre', rest, hlin, rfl⟩ := split_linearMatching hall he
    have hafter : ∀ x : ℕ × SwFlow, ¬ fromHash rq x → ∀ l', statsAfter ch rq x l' =
        ((linearMatching ch rq).map fun flow => (x.1, flow)).filter
          fun y => SwTableLinear.behind x.2 y.2 := fun x hx l' => by
      rw [statsAfter_of_not_fromHash hx, List.filter_map]
      rfl
    have hinj : Function.Injective fun flow : SwFlow => (e.1, flow) :=
      fun f g hfg => congrArg Prod.snd hfg
    have hsplit : (linearMatching ch rq).map (fun flow => (e.1, flow)) =
        pre'.map (fun flow => (e.1, flow)) ++ e :: rest.map fun flow => (e.1, flow) := by
      rw [hlin, List.map_append, List.map_cons]
    rw [hafter e he]
    refine hbatches.select_eq_of_finished (h.nodup_linearMatching.map hinj)
      (fun x y => SwTableLinear.behind x.2 y.2) (fun x hx l' => ?_) (fun x y hxy => ?_) hsplit
      (hp.trans (hafter e he _)) hfin hflat
    · obtain ⟨g, -, rfl⟩ := List.mem_map.1 hx
      exact hafter (e.1, g) he l'
    · rcases SwTableLinear.behind_trans hxy with hsub | hover
      · exact .inl fun z => hsub z.2
      · exact .inr fun z => hover z.2

/-- With good saved positions, the replies are complete. -/
theorem SwChain.Valid.complete_of_positionsHold (h : ch.Valid) (nows : ℕ → BitVec 64)
    (hpos : PositionsHold ch rq) : FlowStatsComplete ch nows rq := by
  have hstart := statsRemaining_start h rq
  rw [positionsHold_iff_resumable, ← hstart] at hpos
  obtain ⟨fuel, hfin, hflat⟩ := (batches_statsDump ch rq nows).exists_finished 0 hpos
  rw [← flowStatsReplies_eq] at hfin hflat
  refine ⟨fuel, hfin, hflat.trans hstart, ?_⟩
  rw [aggregateStatsDump_eq h, ← hstart, ← hflat]
  exact totals_eq_of_body _

/-- While the serial numbers of the linear table have not wrapped around, the saved positions
select the entries that follow exactly when no reply becomes full at the entry with serial number
0. -/
theorem SwChain.Valid.positionsHold_iff (h : ch.Valid)
    (hfit : (statsLinear ch rq).nextSerial ≤ 2 ^ 64) :
    PositionsHold ch rq ↔ ∀ b ∈ replyEnds ch rq, ¬ fromHash rq b.1 → b.1.2.serial ≠ 0 := by
  have hvalid : (statsLinear ch rq).Valid := by
    unfold statsLinear
    split
    · exact h.emergTable
    · exact h.linear
  refine forall₃_congr fun b hb he => ?_
  obtain ⟨pre, hpre⟩ := split_of_mem_boundaries hb
  obtain ⟨pre', rest, hlin, hrest⟩ := split_linearMatching hpre he
  have hsnd : b.2.map Prod.snd = rest := by
    rw [hrest, List.map_map]
    exact List.map_id _
  rw [hsnd]
  constructor
  · -- behind serial number 0 everything remains, the entry itself included
    rintro hfilter hzero
    have hword : SwTableLinear.serialWord b.1.2 = 0 := by
      rw [SwTableLinear.serialWord, hzero]
      rfl
    have hall := List.filter_eq_self.2 fun f (_ : f ∈ linearMatching ch rq) =>
      SwTableLinear.behind_of_serialWord_zero hword f
    have := congrArg List.length (hall.symm.trans hfilter)
    rw [hlin, List.length_append, List.length_cons] at this
    omega
  · intro hne
    exact hvalid.filter_behind hfit hlin hne

/-- The replies to a flow statistics request are complete exactly when every saved position selects
the entries that follow. -/
theorem flowStatsComplete_iff (h : ch.Valid) (nows : ℕ → BitVec 64) (rq : OfpFlowStatsRequest) :
    FlowStatsComplete ch nows rq ↔ PositionsHold ch rq :=
  ⟨h.positionsHold_of_complete, h.complete_of_positionsHold nows⟩

/-- A match that wildcards everything. -/
def anyMatch : OfpMatch := { OfpMatch.zero with wildcards := ofpfwAll }

/-- A message with 500 output actions, so that the statistics of its flow fill a reply. -/
def longFlowMod : OfpFlowMod :=
  { plainFlowMod 0 anyMatch 1 with
    actions := (List.replicate 500 [0, 0, 0, 8, 0, 1, 0, 0]).flatten
    length_lt := by decide +kernel }

/-- A request for all entries of the linear working table. -/
def linearRequest : OfpFlowStatsRequest := ⟨anyMatch, 1, ofppNone⟩

/-- A datapath with a short flow and a long one in its linear table. -/
def shortAndLong : Datapath :=
  (Datapath.init .source 0).runEvents
    [.flowMod 0 (plainFlowMod 0 anyMatch 2), .flowMod 0 longFlowMod]

/-- The long flow fills the first reply and the short one comes in the second. -/
theorem flowStatsComplete_shortAndLong :
    FlowStatsComplete shortAndLong.chain (fun _ => 0) linearRequest :=
  (flowStatsComplete_iff (Datapath.valid_of_reachable (Datapath.reachable_runEvents .source 0 _))
    (fun _ => 0) linearRequest).2 (by unfold PositionsHold; decide +kernel)

/-- With the long flow alone, which has serial number 0, the first reply is full and the iteration
starts over. -/
theorem not_flowStatsComplete : ¬ ∀ (sizes : TableSizes) (dp : Datapath),
    Datapath.Reachable sizes dp → ∀ (nows : ℕ → BitVec 64) (rq : OfpFlowStatsRequest),
      FlowStatsComplete dp.chain nows rq := by
  intro hall
  have hr := Datapath.reachable_runEvents .source 0 [.flowMod 0 longFlowMod]
  have h := Datapath.valid_of_reachable hr
  have hpos := h.positionsHold_of_complete (hall _ _ hr (fun _ => 0) linearRequest)
  rw [h.positionsHold_iff (by decide +kernel)] at hpos
  exact absurd hpos (by decide +kernel)

end OfAgent
