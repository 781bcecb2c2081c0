import OfAgent.Stats.Dump

/-!
# Resuming statistics

What remains at the table and position that a full reply leaves behind.

* `resumes_statsIterate`: the loop over the tables visits what remains, and behind a stop the
  entries of `statsAfter` remain.
* `batches_statsDump`: each reply holds the next greedy batch of what remains.
* `matchingEntries`, `statsRemaining_start`: at the beginning, the matching entries remain, in the
  order of the iteration.
* `aggregateStatsDump_eq`: the totals are those of the matching entries.
-/

namespace OfAgent

open Visit

variable {σ : Type*} {ch : SwChain} {rq : OfpFlowStatsRequest}

/-! ### One table -/

namespace SwTable

variable (key : SwFlowKey) (outPort : BitVec 16)

/-- The entries of a table that an iteration from a position passes to its callback. -/
def remaining (position : SwTablePosition) : SwTable → List SwFlow
  | .hash2 t2 => t2.remaining key outPort position
  | .linear tl => tl.remaining key outPort position

/-- The entries that remain behind an entry at which an iteration was stopped. -/
def after (flow : SwFlow) (rest : List SwFlow) : SwTable → List SwFlow
  | .hash2 _ => rest
  | .linear tl =>
      (tl.iterFlows.filter (statsSelect key outPort)).filter (SwTableLinear.behind flow)

/-- An iteration over a table can be resumed. -/
theorem resumes_iterate (t : SwTable) :
    Resumes (fun p => t.remaining key outPort p) (fun f l => t.after key outPort f l)
      fun callback p (s : σ) => t.iterate key outPort callback p s := by
  cases t with
  | hash2 t2 => exact t2.resumes_iterate key outPort
  | linear tl => exact tl.resumes_iterate key outPort

end SwTable

/-! ### All tables -/

/-- The entries that the loop over the tables passes to its callback. -/
def remainingTables (rq : OfpFlowStatsRequest) :
    List SwTable → ℕ × SwTablePosition → List (ℕ × SwFlow)
  | [], _ => []
  | table :: tables, (tableIdx, position) =>
      if rq.reads tableIdx then
        (table.remaining rq.matchKey rq.outPort position).map (fun flow => (tableIdx, flow)) ++
          remainingTables rq tables (tableIdx + 1, .zero)
      else []

/-- The entries that the iteration of a request passes to its callback. -/
def statsRemaining (ch : SwChain) (rq : OfpFlowStatsRequest) (c : ℕ × SwTablePosition) :
    List (ℕ × SwFlow) :=
  if rq.tableId = emergTableIdForStats then
    (ch.emergTable.remaining rq.matchKey rq.outPort c.2).map fun flow => (c.1, flow)
  else remainingTables rq (ch.tables.drop c.1) c

/-- The linear table that a request reads last: the emergency table, or the linear working
table. -/
def statsLinear (ch : SwChain) (rq : OfpFlowStatsRequest) : SwTableLinear :=
  if rq.tableId = emergTableIdForStats then ch.emergTable else ch.linear

/-- The entry comes from a hash table. -/
def fromHash (rq : OfpFlowStatsRequest) (e : ℕ × SwFlow) : Prop :=
  rq.tableId ≠ emergTableIdForStats ∧ e.1 = 0

instance (rq : OfpFlowStatsRequest) (e : ℕ × SwFlow) : Decidable (fromHash rq e) :=
  inferInstanceAs (Decidable (_ ∧ _))

/-- The entries that remain when the iteration was stopped at an entry `e` in front of `l`: behind
an entry of a hash table `l`, and behind an entry of a linear table the matching entries whose
serial numbers are at most one less than that of `e`. -/
def statsAfter (ch : SwChain) (rq : OfpFlowStatsRequest) (e : ℕ × SwFlow)
    (l : List (ℕ × SwFlow)) : List (ℕ × SwFlow) :=
  if fromHash rq e then l
  else
    (((statsLinear ch rq).iterFlows.filter (statsSelect rq.matchKey rq.outPort)).filter
      (SwTableLinear.behind e.2)).map fun flow => (e.1, flow)

/-- The loop over the tables, in front of a table that the request reads. -/
theorem iterateTables_cons (callback : σ → ℕ × SwFlow → σ × ℤ) (t : SwTable) (ts : List SwTable)
    {i : ℕ} (hi : rq.reads i) (p : SwTablePosition) (s : σ) :
    let v := visit callback
      ((t.remaining rq.matchKey rq.outPort p).map fun flow => (i, flow)) s
    (v.2 = none →
        iterateTables rq callback (t :: ts) (i, p) s =
          iterateTables rq callback ts (i + 1, .zero) v.1) ∧
      ∀ st, v.2 = some st → ∃ f rest p',
        st.elem = (i, f) ∧ st.rest = rest.map (fun flow => (i, flow)) ∧
        t.remaining rq.matchKey rq.outPort p' = t.after rq.matchKey rq.outPort f rest ∧
        iterateTables rq callback (t :: ts) (i, p) s = (v.1, (i, p'), st.error) := by
  have ht := t.resumes_iterate (σ := σ) rq.matchKey rq.outPort
  simp only [iterateTables, if_pos hi, visit_map]
  have hstate := ht.state (fun s flow => callback s (i, flow)) p s
  cases hv : (visit (fun s flow => callback s (i, flow))
      (t.remaining rq.matchKey rq.outPort p) s).2 with
  | none =>
    refine ⟨fun _ => ?_, fun st h => absurd h.symm (Option.some_ne_none st)⟩
    rw [ht.complete _ _ _ hv, if_neg (not_not.2 rfl), hstate]
  | some st =>
    refine ⟨fun h => absurd h (Option.some_ne_none _), fun st' h => ?_⟩
    cases h
    have herr := error_ne_zero hv
    refine ⟨st.elem, st.rest, _, rfl, rfl, ht.rest _ _ _ _ hv, ?_⟩
    rw [ht.error _ _ _ _ hv, if_pos herr, hstate]

/-- Tables that the request does not read. -/
theorem iterateTables_of_not_reads (callback : σ → ℕ × SwFlow → σ × ℤ) (ts : List SwTable) {i : ℕ}
    (hi : ¬ rq.reads i) (p : SwTablePosition) (s : σ) :
    iterateTables rq callback ts (i, p) s = (s, (i, p), 0) ∧ remainingTables rq ts (i, p) = [] := by
  cases ts with
  | nil => exact ⟨rfl, rfl⟩
  | cons t ts => exact ⟨if_neg hi, if_neg hi⟩

variable (rq) in
/-- The loop over the linear table alone. -/
theorem iterateTables_linear (callback : σ → ℕ × SwFlow → σ × ℤ) (tl : SwTableLinear) (i : ℕ)
    (p : SwTablePosition) (s : σ) :
    let r := iterateTables rq callback [.linear tl] (i, p) s
    let v := visit callback (remainingTables rq [.linear tl] (i, p)) s
    r.1 = v.1 ∧ (v.2 = none → r.2.2 = 0) ∧ ∀ st, v.2 = some st → r.2.2 = st.error ∧
      r.2.1.1 = i ∧ st.elem.1 = i ∧ remainingTables rq [.linear tl] r.2.1 =
        ((tl.iterFlows.filter (statsSelect rq.matchKey rq.outPort)).filter
          (SwTableLinear.behind st.elem.2)).map fun flow => (i, flow) := by
  by_cases hi : rq.reads i
  · obtain ⟨hnone, hsome⟩ := iterateTables_cons callback (.linear tl) [] hi p s
    -- what remains of the linear table alone
    have hrem : ∀ p, remainingTables rq [.linear tl] (i, p) =
        (tl.remaining rq.matchKey rq.outPort p).map fun flow => (i, flow) := fun p => by
      rw [remainingTables, if_pos hi, remainingTables, List.append_nil]
      rfl
    simp only [hrem]
    cases hv : (visit callback
        ((tl.remaining rq.matchKey rq.outPort p).map fun flow => (i, flow)) s).2 with
    | none =>
      rw [hnone hv]
      exact ⟨rfl, fun _ => rfl, fun st h => absurd h.symm (Option.some_ne_none st)⟩
    | some st =>
      obtain ⟨f, rest, p', helem, -, hp', heq⟩ := hsome st hv
      rw [heq]
      refine ⟨rfl, fun h => absurd h (Option.some_ne_none _), fun st' h => ?_⟩
      cases h
      refine ⟨rfl, rfl, congrArg Prod.fst helem, ?_⟩
      rw [hrem, helem]
      exact congrArg _ hp'
  · obtain ⟨heq, hrem⟩ := iterateTables_of_not_reads callback [.linear tl] hi p s
    rw [heq, hrem]
    exact ⟨rfl, fun _ => rfl, fun st h => absurd h.symm (Option.some_ne_none st)⟩

variable (ch) in
theorem statsRemaining_one (he : rq.tableId ≠ emergTableIdForStats) {c : ℕ × SwTablePosition}
    (hc : c.1 = 1) : statsRemaining ch rq c = remainingTables rq [.linear ch.linear] c := by
  rw [statsRemaining, if_neg he, hc]
  rfl

/-- What remains behind an entry of the linear working table. -/
theorem statsAfter_one (he : rq.tableId ≠ emergTableIdForStats) {e : ℕ × SwFlow} (h : e.1 = 1)
    (l : List (ℕ × SwFlow)) : statsAfter ch rq e l =
      ((ch.linear.iterFlows.filter (statsSelect rq.matchKey rq.outPort)).filter
        (SwTableLinear.behind e.2)).map fun flow => (1, flow) := by
  have hhash : ¬ fromHash rq e := fun hh => absurd (h.symm.trans hh.2) (by decide)
  rw [statsAfter, if_neg hhash, statsLinear, if_neg he, h]

/-- The iteration of a request, and what it leaves behind. -/
theorem statsIterate_spec (callback : σ → ℕ × SwFlow → σ × ℤ) (c : ℕ × SwTablePosition) (s : σ) :
    let r := statsIterate ch rq callback c s
    let v := visit callback (statsRemaining ch rq c) s
    r.1 = v.1 ∧ (v.2 = none → r.2.2 = 0) ∧ ∀ st, v.2 = some st → r.2.2 = st.error ∧
      statsRemaining ch rq r.2.1 = statsAfter ch rq st.elem st.rest := by
  obtain ⟨i, p⟩ := c
  by_cases he : rq.tableId = emergTableIdForStats
  · have ht := ch.emergTable.resumes_iterate (σ := σ) rq.matchKey rq.outPort
    have hrem : ∀ q, statsRemaining ch rq (i, q) =
        (ch.emergTable.remaining rq.matchKey rq.outPort q).map fun flow => (i, flow) :=
      fun q => if_pos he
    have hiter : statsIterate ch rq callback (i, p) s =
        (let r := ch.emergTable.iterate rq.matchKey rq.outPort
            (fun s flow => callback s (i, flow)) p s
        (r.1, (i, r.2.1), r.2.2)) := if_pos he
    simp only [hiter, hrem, visit_map]
    refine ⟨ht.state _ _ _, fun h => ht.complete _ _ _ (Option.map_eq_none_iff.1 h),
      fun st h => ?_⟩
    obtain ⟨st', hst, rfl⟩ := Option.map_eq_some_iff.1 h
    refine ⟨ht.error _ _ _ _ hst, ?_⟩
    rw [ht.rest _ _ _ _ hst, statsAfter, if_neg fun hh => hh.1 he, statsLinear, if_pos he]
  · have hiter : ∀ c, statsIterate ch rq callback c s =
        iterateTables rq callback (ch.tables.drop c.1) c s := fun c => if_neg he
    have hlin : ∀ q s', let r := iterateTables rq callback [.linear ch.linear] (1, q) s'
        let v := visit callback (remainingTables rq [.linear ch.linear] (1, q)) s'
        r.1 = v.1 ∧ (v.2 = none → r.2.2 = 0) ∧ ∀ st, v.2 = some st → r.2.2 = st.error ∧
          st.elem.1 = 1 ∧ statsRemaining ch rq r.2.1 = statsAfter ch rq st.elem st.rest := by
      intro q s'
      obtain ⟨h1, h2, h3⟩ := iterateTables_linear rq callback ch.linear 1 q s'
      refine ⟨h1, h2, fun st hst => ?_⟩
      obtain ⟨herr, hidx, helem, hrem⟩ := h3 st hst
      refine ⟨herr, helem, ?_⟩
      rw [statsRemaining_one ch he hidx, statsAfter_one he helem, hrem]
    rcases i with _ | _ | i
    · -- the hash table first
      have hstep : statsIterate ch rq callback (0, p) s =
          iterateTables rq callback [.hash2 ch.hash2, .linear ch.linear] (0, p) s := hiter _
      by_cases hi : rq.reads 0
      · have hrem : ∀ q, statsRemaining ch rq (0, q) =
            (((SwTable.hash2 ch.hash2).remaining rq.matchKey rq.outPort q).map fun flow =>
              (0, flow)) ++ remainingTables rq [.linear ch.linear] (1, .zero) :=
          fun q => (if_neg he).trans (if_pos hi)
        obtain ⟨hnone, hsome⟩ :=
          iterateTables_cons callback (.hash2 ch.hash2) [.linear ch.linear] hi p s
        simp only [hstep, hrem]
        cases hv : (visit callback (((SwTable.hash2 ch.hash2).remaining rq.matchKey rq.outPort
            p).map fun flow => (0, flow)) s).2 with
        | none =>
          rw [hnone hv, visit_append_of_none hv]
          obtain ⟨h1, h2, h3⟩ := hlin .zero (visit callback (((SwTable.hash2 ch.hash2).remaining
            rq.matchKey rq.outPort p).map fun flow => (0, flow)) s).1
          exact ⟨h1, h2, fun st hst => ⟨(h3 st hst).1, (h3 st hst).2.2⟩⟩
        | some st =>
          obtain ⟨f, rest, p', helem, hrest, hp', heq⟩ := hsome st hv
          rw [heq, visit_append_of_some hv]
          refine ⟨rfl, fun h => absurd h (Option.some_ne_none _), fun st' h => ?_⟩
          cases h
          have hhash : fromHash rq st.elem := ⟨he, congrArg Prod.fst helem⟩
          refine ⟨rfl, ?_⟩
          rw [statsAfter, if_pos hhash, hrem, hp', hrest]
          rfl
      · have hrem : statsRemaining ch rq (0, p) =
            remainingTables rq [.hash2 ch.hash2, .linear ch.linear] (0, p) := if_neg he
        obtain ⟨heq, hnil⟩ := iterateTables_of_not_reads callback
          [.hash2 ch.hash2, .linear ch.linear] hi p s
        rw [hstep, hrem, heq, hnil]
        exact ⟨rfl, fun _ => rfl, fun st h => absurd h.symm (Option.some_ne_none st)⟩
    · have hrem := statsRemaining_one ch he (rfl : ((1, p) : ℕ × SwTablePosition).1 = 1)
      have hstep : statsIterate ch rq callback (1, p) s =
          iterateTables rq callback [.linear ch.linear] (1, p) s := hiter _
      obtain ⟨h1, h2, h3⟩ := hlin p s
      simp only [Nat.zero_add, hrem, hstep]
      exact ⟨h1, h2, fun st hst => ⟨(h3 st hst).1, (h3 st hst).2.2⟩⟩
    · -- there is no third table
      have hdrop : ch.tables.drop (i + 1 + 1) = [] := List.drop_nil
      have hrem : statsRemaining ch rq (i + 1 + 1, p) = [] := by
        rw [statsRemaining, if_neg he, hdrop, remainingTables]
      have hstep : statsIterate ch rq callback (i + 1 + 1, p) s = (s, (i + 1 + 1, p), 0) := by
        rw [hiter, hdrop, iterateTables]
      rw [hrem, hstep]
      exact ⟨rfl, fun _ => rfl, fun st h => absurd h.symm (Option.some_ne_none st)⟩

variable (ch rq) in
/-- The iteration of a request can be resumed. -/
theorem resumes_statsIterate :
    Resumes (statsRemaining ch rq) (statsAfter ch rq) (statsIterate (σ := σ) ch rq) :=
  ⟨fun c p s => (statsIterate_spec c p s).1, fun c p s => (statsIterate_spec c p s).2.1,
    fun c p s st h => ((statsIterate_spec c p s).2.2 st h).1,
    fun c p s st h => ((statsIterate_spec c p s).2.2 st h).2⟩

/-! ### Replies -/

/-- One reply, with the cursor in place of the state. -/
def replyAt (ch : SwChain) (nows : ℕ → BitVec 64) (rq : OfpFlowStatsRequest) (k : ℕ)
    (c : ℕ × SwTablePosition) : StatsReply × (ℕ × SwTablePosition) :=
  let r := statsDump ch (nows k) ⟨c, rq⟩
  (r.1, r.2.cursor)

/-- The replies to a request, with the cursor in place of the state. -/
theorem flowStatsReplies_eq (nows : ℕ → BitVec 64) (fuel : ℕ) :
    flowStatsReplies ch nows rq fuel =
      Batching.run (replyAt ch nows rq) StatsReply.more fuel 0 (statsStart rq) :=
  Batching.run_map (g := fun c => FlowStatsState.mk c rq) (fun _ _ => rfl) fuel 0 (statsStart rq)

variable (ch rq) in
/-- Each reply holds the next batch of what remains. -/
theorem batches_statsDump (nows : ℕ → BitVec 64) :
    Batching.Batches flowStatsLength maxFlowStatsBytes sizeofOfpStatsReply (replyAt ch nows rq)
      StatsReply.more StatsReply.entries (statsRemaining ch rq) (statsAfter ch rq) := by
  have hres := resumes_statsIterate (σ := StatsBuffer) ch rq
  have hcollect : flowStatsDumpCallback = Batching.collect flowStatsLength maxFlowStatsBytes := rfl
  -- the buffer of a reply is what the visit has collected
  have hbuffer : ∀ c, (statsIterate ch rq flowStatsDumpCallback c ([], sizeofOfpStatsReply)).1 =
      (visit (Batching.collect flowStatsLength maxFlowStatsBytes) (statsRemaining ch rq c)
        ([], sizeofOfpStatsReply)).1 := fun c => hres.state _ _ _
  have hvisit := fun c => Batching.visit_collect flowStatsLength maxFlowStatsBytes
    (statsRemaining ch rq c) [] (by decide : sizeofOfpStatsReply < maxFlowStatsBytes)
  constructor
  · intro k c
    exact (congrArg Prod.fst (hbuffer c)).trans (hvisit c).1
  · intro k c
    change decide (maxFlowStatsBytes ≤
      (statsIterate ch rq flowStatsDumpCallback c ([], sizeofOfpStatsReply)).1.2) = _
    rw [hbuffer, Bool.eq_iff_iff, decide_eq_true_eq, (hvisit c).2.2.2, ← (hvisit c).2.1,
      Option.isSome_map]
  · intro k c l hl e he
    obtain ⟨-, hstop, hlast, -⟩ := hvisit c
    rw [hl] at hstop
    obtain ⟨st, hst, rfl⟩ := Option.map_eq_some_iff.1 hstop
    rw [hlast st hst] at he
    cases he
    exact hres.rest _ _ _ _ hst

/-! ### The matching entries -/

/-- The entries that a request selects, each with the number of its table, in the order of the
iteration. -/
def matchingEntries (ch : SwChain) (rq : OfpFlowStatsRequest) : List (ℕ × SwFlow) :=
  let select := statsSelect rq.matchKey rq.outPort
  if rq.tableId = emergTableIdForStats then
    (ch.emergTable.iterFlows.filter select).map fun flow => (rq.tableId.toNat, flow)
  else
    (if rq.reads 0 then (ch.hash2.flows.filter select).map fun flow => (0, flow) else []) ++
      if rq.reads 1 then (ch.linear.iterFlows.filter select).map fun flow => (1, flow) else []

/-- What a linear table contributes at its beginning. -/
theorem remainingTables_linear (tl : SwTableLinear) (i : ℕ) :
    remainingTables rq [.linear tl] (i, .zero) =
      if rq.reads i then (tl.iterFlows.filter (statsSelect rq.matchKey rq.outPort)).map
        fun flow => (i, flow) else [] := by
  rw [remainingTables, remainingTables, List.append_nil, SwTable.remaining,
    SwTableLinear.remaining_zero]

/-- At the beginning, the matching entries remain. -/
theorem statsRemaining_start (h : ch.Valid) (rq : OfpFlowStatsRequest) :
    statsRemaining ch rq (statsStart rq) = matchingEntries ch rq := by
  have hkey : rq.matchKey.Normal := normal_flowExtractMatch rq.ofpMatch
  unfold statsRemaining matchingEntries statsStart
  by_cases he : rq.tableId = emergTableIdForStats
  · have hall : rq.tableId ≠ allTablesForStats := by rw [he]; decide
    rw [if_pos he, if_pos he, if_neg hall, SwTableLinear.remaining_zero]
  · rw [if_neg he, if_neg he]
    -- a position of zeros is in front of every entry of a table
    have hhash : ∀ ts, remainingTables rq (.hash2 ch.hash2 :: ts) (0, .zero) =
        if rq.reads 0 then
          ((ch.hash2.flows.filter (statsSelect rq.matchKey rq.outPort)).map fun flow =>
            (0, flow)) ++ remainingTables rq ts (1, .zero)
        else [] := fun ts => by
      rw [remainingTables, SwTable.remaining,
        SwTableHash2.remaining_zero h.subtable0 h.subtable1 hkey]
    by_cases hall : rq.tableId = allTablesForStats
    · have h0 : rq.reads 0 := .inl hall
      have h1 : rq.reads 1 := .inl hall
      rw [if_pos hall]
      simp only [SwChain.tables, List.drop_zero, hhash, remainingTables_linear, if_pos h0,
        if_pos h1]
    · rw [if_neg hall]
      have hreads : ∀ i, rq.reads i ↔ rq.tableId.toNat = i := fun i => or_iff_right hall
      generalize hn : rq.tableId.toNat = n at hreads
      -- a single table: the hash tables, the linear table, or none at all
      rcases n with _ | _ | n
      · have h0 : rq.reads 0 := (hreads 0).2 rfl
        have h1 : ¬ rq.reads 1 := fun hr => absurd ((hreads 1).1 hr) (by decide)
        simp only [SwChain.tables, List.drop_zero, hhash, remainingTables_linear, if_pos h0,
          if_neg h1]
      · have h0 : ¬ rq.reads 0 := fun hr => absurd ((hreads 0).1 hr) (by decide)
        have h1 : rq.reads 1 := (hreads 1).2 rfl
        simp only [SwChain.tables, List.drop_one, List.tail_cons, remainingTables_linear,
          if_neg h0, if_pos h1, Nat.zero_add, List.nil_append]
      · have h0 : ¬ rq.reads 0 := fun hr => absurd ((hreads 0).1 hr) (by omega)
        have h1 : ¬ rq.reads 1 := fun hr => absurd ((hreads 1).1 hr) (by omega)
        have hdrop : ch.tables.drop (n + 1 + 1) = [] := List.drop_nil
        rw [hdrop, remainingTables, if_neg h0, if_neg h1, List.append_nil]

/-- The totals over a list of entries. -/
def totals (l : List SwFlow) : OfpAggregateStatsReply where
  packetCount := (l.map SwFlow.packetCount).sum
  byteCount := (l.map SwFlow.byteCount).sum
  flowCount := BitVec.ofNat 32 l.length

/-- Counting one entry after the other gives the totals. -/
theorem foldl_aggregate (l : List (ℕ × SwFlow)) (rpy : OfpAggregateStatsReply) :
    l.foldl (fun rpy e => (aggregateStatsDumpCallback rpy e).1) rpy =
      (let t := totals (l.map Prod.snd)
      ⟨rpy.packetCount + t.packetCount, rpy.byteCount + t.byteCount,
        rpy.flowCount + t.flowCount⟩) := by
  induction l generalizing rpy with
  | nil => simp [totals]
  | cons e l ih =>
    rw [List.foldl_cons, ih]
    simp only [aggregateStatsDumpCallback, totals, List.map_cons, List.sum_cons, List.length_cons,
      BitVec.add_assoc, BitVec.ofNat_add, List.length_map,
      BitVec.add_comm (BitVec.ofNat 32 l.length)]
    rfl

/-- The aggregate statistics are the totals of the matching entries. -/
theorem aggregateStatsDump_eq (h : ch.Valid) (rq : OfpFlowStatsRequest) :
    aggregateStatsDump ch rq = totals ((matchingEntries ch rq).map Prod.snd) := by
  have hres := resumes_statsIterate (σ := OfpAggregateStatsReply) ch rq
  rw [aggregateStatsDump, hres.state, visit_of_forall_zero fun _ _ => rfl, foldl_aggregate,
    statsRemaining_start h rq]
  simp

end OfAgent
