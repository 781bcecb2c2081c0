import OfAgent.Stats.Resume

/-!
# Progress of statistics

However the tables change between two replies, a full reply leaves a position behind the one at
which it has begun, unless it ends at an entry of a linear table with serial number 0.

* `SwTablePosition.rank`, `cursorRank`: the order of the positions.
* `SwTable.rank_lt_iterate`: one table; `cursorRank_lt_statsIterate`: all of them.
* `FlowStatsState.Advances`: the exception; `FlowStatsState.rank_lt_statsDump`: one reply.
-/

namespace OfAgent

open Visit

variable {σ : Type*} {key : SwFlowKey} {outPort : BitVec 16}

/-- The positions of a table in the order in which an iteration comes to them. -/
def SwTablePosition.rank (position : SwTablePosition) : ℕ :=
  position.private1.toNat * 2 ^ 64 + position.private0.toNat

theorem SwTablePosition.rank_lt (position : SwTablePosition) : position.rank < 2 ^ 128 := by
  have h0 := position.private0.isLt
  have h1 := position.private1.isLt
  unfold SwTablePosition.rank
  omega

/-! ### One table -/

/-- An iteration that is stopped in a hash table has advanced. -/
theorem SwTableHash.private0_lt_iterate {th : SwTableHash} {callback : σ → SwFlow → σ × ℤ}
    {position : SwTablePosition} {s : σ} {st : Stop SwFlow}
    (hst : (visit callback (th.remaining key outPort position) s).2 = some st) :
    position.private0.toNat < (th.iterate key outPort callback position s).2.1.private0.toNat := by
  have hmask := th.bucketMask_lt
  by_cases hlt : th.bucketMask < position.private0.toNat
  · rw [remaining_of_lt hlt] at hst
    cases hst
  by_cases hw : key.wildcards = 0
  · -- without wildcards there is one candidate, and the position is the last one behind it
    have hlast : (th.iterate key outPort callback position s).2.1.private0 = -1 := by
      rw [iterate, if_neg hlt, if_pos hw]
      simp only
      split
      · split <;> rfl
      · rfl
    rw [hlast]
    show position.private0.toNat < 2 ^ 64 - 1
    omega
  · rw [remaining, if_neg hlt, if_neg hw, visit_map] at hst
    obtain ⟨c, hc, -⟩ := Option.map_eq_some_iff.1 hst
    obtain ⟨pre, hpre⟩ := suffix_of_stop hc
    have hmem : c.elem ∈ th.candidates key outPort position.private0.toNat :=
      hpre ▸ List.mem_append_right pre List.mem_cons_self
    -- the entry at which it is stopped is in no earlier bucket
    have hbucket := bucket_of_mem_candidates hmem
    have hnext : (th.iterate key outPort callback position s).2.1.private0 =
        BitVec.ofNat 64 (c.elem.1 + 1) := by
      rw [iterate, if_neg hlt, if_neg hw]
      cases hv : visit (fun s (c : ℕ × SwFlow) => callback s c.2)
          (th.candidates key outPort position.private0.toNat) s with
      | mk s' stop =>
        rw [hv] at hc
        cases hc
        rfl
    rw [hnext, BitVec.toNat_ofNat, Nat.mod_eq_of_lt (by omega)]
    omega

/-- So has one that is stopped in a double-hashing table. -/
theorem SwTableHash2.rank_lt_iterateLoop {callback : σ → SwFlow → σ × ℤ}
    {ths : List SwTableHash} {position : SwTablePosition} {s : σ} {st : Stop SwFlow}
    (hlen : position.private1.toNat + ths.length ≤ 2)
    (hst : (visit callback (remainingLoop key outPort ths position) s).2 = some st) :
    position.rank < (iterateLoop key outPort callback ths position s).2.1.rank := by
  induction ths generalizing position s with
  | nil => cases hst
  | cons th ths ih =>
    have hth := th.resumes_iterate key outPort (σ := σ)
    have hsame := th.iterate_private1 key outPort callback position s
    rw [List.length_cons] at hlen
    rw [iterateLoop]
    cases hv : (visit callback (th.remaining key outPort position) s).2 with
    | some st' =>
      -- it is stopped in this sub-table
      have hless := SwTableHash.private0_lt_iterate hv
      simp only
      rw [hth.error _ _ _ _ hv, if_pos (error_ne_zero hv)]
      simp only [SwTablePosition.rank, hsame]
      exact Nat.add_lt_add_left hless _
    | none =>
      rw [remainingLoop, visit_append_of_none hv, ← hth.state] at hst
      have hword : (position.private1 + 1).toNat = position.private1.toNat + 1 := by
        rw [BitVec.toNat_add]
        show (position.private1.toNat + 1) % 2 ^ 64 = _
        omega
      have hrest : (⟨0, position.private1 + 1⟩ : SwTablePosition).private1.toNat +
          ths.length ≤ 2 := by
        show (position.private1 + 1).toNat + ths.length ≤ 2
        rw [hword]
        omega
      have hnext := ih hrest hst
      simp only
      rw [hth.complete _ _ _ hv, if_neg (not_not.2 rfl), hsame]
      refine Nat.lt_trans ?_ hnext
      have h0 := position.private0.isLt
      show _ < (position.private1 + 1).toNat * 2 ^ 64 + 0
      rw [hword]
      unfold SwTablePosition.rank
      omega

namespace SwTable

/-- An iteration that is stopped in a table has advanced, unless it is a linear table and the entry
has serial number 0. -/
theorem rank_lt_iterate {t : SwTable} {callback : σ → SwFlow → σ × ℤ} {position : SwTablePosition}
    {s : σ} {st : Stop SwFlow}
    (hst : (visit callback (t.remaining key outPort position) s).2 = some st)
    (hserial : ∀ tl, t = .linear tl → SwTableLinear.serialWord st.elem ≠ 0) :
    position.rank < (t.iterate key outPort callback position s).2.1.rank := by
  cases t with
  | hash2 t2 =>
    refine SwTableHash2.rank_lt_iterateLoop ?_ hst
    -- the position behind the second subtable has nothing left
    have hsome : position.private1.toNat < 2 := by
      by_contra hge
      have hnil : t2.remaining key outPort position = [] := by
        rw [SwTableHash2.remaining, List.drop_of_length_le (Nat.not_lt.1 hge)]
        rfl
      rw [remaining, hnil] at hst
      cases hst
    rw [List.length_drop]
    show position.private1.toNat + (2 - position.private1.toNat) ≤ 2
    omega
  | linear tl =>
    have hne := hserial tl rfl
    obtain ⟨pre, hpre⟩ := suffix_of_stop hst
    have hmem : st.elem ∈ tl.candidates key outPort (~~~position.private0) := by
      show st.elem ∈ (SwTable.linear tl).remaining key outPort position
      rw [hpre]
      exact List.mem_append_right _ List.mem_cons_self
    rw [SwTableLinear.candidates_eq_filter, List.mem_filter, decide_eq_true_eq, BitVec.le_def,
      BitVec.toNat_not] at hmem
    have hnext : ((SwTable.linear tl).iterate key outPort callback position s).2.1 =
        { position with private0 := ~~~(SwTableLinear.serialWord st.elem - 1) } := by
      show (tl.iterate key outPort callback position s).2.1 = _
      rw [SwTableLinear.iterate]
      have hv : (visit callback (tl.candidates key outPort (~~~position.private0)) s).2 = some st :=
        hst
      cases hvisit : visit callback (tl.candidates key outPort (~~~position.private0)) s with
      | mk s' stop =>
        rw [hvisit] at hv
        cases hv
        rfl
    -- the subtraction does not wrap around
    have hword : (SwTableLinear.serialWord st.elem - 1).toNat =
        (SwTableLinear.serialWord st.elem).toNat - 1 := by
      have hpos : (SwTableLinear.serialWord st.elem).toNat ≠ 0 := fun h0 =>
        hne (BitVec.eq_of_toNat_eq h0)
      have hlt := (SwTableLinear.serialWord st.elem).isLt
      rw [BitVec.toNat_sub]
      show (2 ^ 64 - 1 + (SwTableLinear.serialWord st.elem).toNat) % 2 ^ 64 = _
      omega
    have hpos : (SwTableLinear.serialWord st.elem).toNat ≠ 0 := fun h0 =>
      hne (BitVec.eq_of_toNat_eq h0)
    have h0 := position.private0.isLt
    rw [hnext]
    unfold SwTablePosition.rank
    simp only [BitVec.toNat_not, hword]
    omega

end SwTable

/-! ### All tables -/

/-- The cursors in the order in which an iteration comes to them. -/
def cursorRank (c : ℕ × SwTablePosition) : ℕ := c.1 * 2 ^ 128 + c.2.rank

section Tables

variable {ch : SwChain} {rq : OfpFlowStatsRequest} {callback : σ → ℕ × SwFlow → σ × ℤ} {s : σ}
  {st : Stop (ℕ × SwFlow)}

/-- The loop over the tables advances, and stays among the tables. -/
theorem cursorRank_lt_iterateTables {ts : List SwTable} {i : ℕ} {p : SwTablePosition}
    (hlinear : ∀ k tl, ts[k]? = some (.linear tl) → i + k ≠ 0)
    (hst : (visit callback (remainingTables rq ts (i, p)) s).2 = some st)
    (hserial : st.elem.1 ≠ 0 → SwTableLinear.serialWord st.elem.2 ≠ 0) :
    cursorRank (i, p) < cursorRank (iterateTables rq callback ts (i, p) s).2.1 ∧
      (iterateTables rq callback ts (i, p) s).2.1.1 < i + ts.length := by
  induction ts generalizing i p s with
  | nil => cases hst
  | cons t ts ih =>
    by_cases hi : rq.reads i
    swap
    · rw [(iterateTables_of_not_reads callback (t :: ts) hi p s).2] at hst
      cases hst
    have ht := t.resumes_iterate (σ := σ) rq.matchKey rq.outPort
    rw [remainingTables, if_pos hi] at hst
    rw [iterateTables, if_pos hi, List.length_cons]
    simp only
    cases hv : (visit callback ((t.remaining rq.matchKey rq.outPort p).map fun flow => (i, flow))
        s).2 with
    | some st' =>
      -- it is stopped in this table
      rw [visit_append_of_some hv] at hst
      cases hst
      rw [visit_map] at hv
      obtain ⟨stop, hstop, rfl⟩ := Option.map_eq_some_iff.1 hv
      have hless := SwTable.rank_lt_iterate hstop fun tl htl => hserial (by
        exact hlinear 0 tl (congrArg some htl))
      rw [ht.error _ _ _ _ hstop, if_pos (error_ne_zero hstop)]
      exact ⟨Nat.add_lt_add_left hless _, by simp only; omega⟩
    | none =>
      have hnone := hv
      rw [visit_map] at hnone
      have hcomplete := ht.complete _ _ _ (Option.map_eq_none_iff.1 hnone)
      rw [visit_append_of_none hv, visit_map, ← ht.state] at hst
      obtain ⟨hless, hlt⟩ := ih (fun k tl hk => by
        have hne := hlinear (k + 1) tl hk
        omega) hst
      rw [hcomplete, if_neg (not_not.2 rfl)]
      refine ⟨Nat.lt_trans ?_ hless, by omega⟩
      have hp := p.rank_lt
      unfold cursorRank
      simp only
      omega

/-- The iteration of a request that is stopped has advanced, unless the entry is in a linear table
and has serial number 0. -/
theorem cursorRank_lt_statsIterate {c : ℕ × SwTablePosition} (hc : c.1 < 256)
    (hst : (visit callback (statsRemaining ch rq c) s).2 = some st)
    (hserial : ¬ fromHash rq st.elem → SwTableLinear.serialWord st.elem.2 ≠ 0) :
    cursorRank c < cursorRank (statsIterate ch rq callback c s).2.1 ∧
      (statsIterate ch rq callback c s).2.1.1 < 256 := by
  obtain ⟨i, p⟩ := c
  by_cases he : rq.tableId = emergTableIdForStats
  · rw [statsRemaining, if_pos he, visit_map] at hst
    obtain ⟨stop, hstop, rfl⟩ := Option.map_eq_some_iff.1 hst
    have hless :=
      @SwTable.rank_lt_iterate σ rq.matchKey rq.outPort (.linear ch.emergTable) _ p s stop
      hstop fun _ _ => hserial fun hhash => hhash.1 he
    rw [statsIterate, if_pos he]
    exact ⟨Nat.add_lt_add_left hless _, hc⟩
  · rw [statsRemaining, if_neg he] at hst
    rw [statsIterate, if_neg he]
    have hserial' : st.elem.1 ≠ 0 → SwTableLinear.serialWord st.elem.2 ≠ 0 := fun hne =>
      hserial fun hhash => hne hhash.2
    -- the linear table is not the first one
    have hlinear : ∀ k tl, (ch.tables.drop i)[k]? = some (.linear tl) → i + k ≠ 0 := by
      intro k tl hk hzero
      rw [List.getElem?_drop, hzero] at hk
      cases hk
    obtain ⟨hless, hlt⟩ := cursorRank_lt_iterateTables hlinear hst hserial'
    refine ⟨hless, hlt.trans_le ?_⟩
    have hlen : (ch.tables.drop i).length = 2 - i := List.length_drop
    show i + (ch.tables.drop i).length ≤ 256
    rw [hlen]
    omega

end Tables

/-! ### One reply -/

/-- The next reply does not become full at an entry of a linear table with serial number 0, modulo
`2 ^ 64`. -/
def FlowStatsState.Advances (ch : SwChain) (s : FlowStatsState) : Prop :=
  ∀ rest, (Batching.fill flowStatsLength maxFlowStatsBytes sizeofOfpStatsReply
      (statsRemaining ch s.rq s.cursor)).2 = some rest →
    ∀ e ∈ (Batching.fill flowStatsLength maxFlowStatsBytes sizeofOfpStatsReply
        (statsRemaining ch s.rq s.cursor)).1.getLast?,
      ¬ fromHash s.rq e → SwTableLinear.serialWord e.2 ≠ 0

/-- A full reply leaves a cursor behind the one at which it has begun. -/
theorem FlowStatsState.rank_lt_statsDump {ch : SwChain} {s : FlowStatsState} {now : BitVec 64}
    (hadvances : s.Advances ch) (hc : s.cursor.1 < 256)
    (hmore : (statsDump ch now s).1.more = true) :
    cursorRank s.cursor < cursorRank (statsDump ch now s).2.cursor ∧
      (statsDump ch now s).2.cursor.1 < 256 := by
  have hvisit := Batching.visit_collect flowStatsLength maxFlowStatsBytes
    (statsRemaining ch s.rq s.cursor) [] (by decide : sizeofOfpStatsReply < maxFlowStatsBytes)
  have hres := resumes_statsIterate (σ := StatsBuffer) ch s.rq
  have hfull : maxFlowStatsBytes ≤ (visit (Batching.collect flowStatsLength maxFlowStatsBytes)
      (statsRemaining ch s.rq s.cursor) ([], sizeofOfpStatsReply)).1.2 := by
    have hbuffer := congrArg Prod.snd
      (hres.state flowStatsDumpCallback s.cursor ([], sizeofOfpStatsReply))
    exact (of_decide_eq_true hmore).trans_eq hbuffer
  obtain ⟨-, hrest, hlast, hstopped⟩ := hvisit
  obtain ⟨st, hst⟩ := Option.isSome_iff_exists.1 (hstopped.1 hfull)
  refine cursorRank_lt_statsIterate hc hst ?_
  rw [hst] at hrest
  exact hadvances st.rest hrest.symm st.elem (hlast st hst)

end OfAgent
