import OfAgent.Table.Chain

/-!
# Iterations over a table

The `iterate` functions of the tables visit the entries that a description selects, and save a
position when the callback stops them. What remains at a position is a list of entries, and a
resumed iteration visits it.

* `SwTableHash.resumes_iterate`, `SwTableHash2.resumes_iterate`: in a hash table, the entries
  behind the one at which an iteration was stopped remain.
* `SwTableLinear.resumes_iterate`: in a linear table, the entries whose serial numbers are at most
  one less than that of the stopping entry remain, modulo `2 ^ 64`.
* `SwTable`: a working table of either kind.
* `Valid.remaining_zero`: at the beginning, the entries that match the description with the
  wildcards of both sides remain.
-/

namespace OfAgent

open Visit

variable {σ : Type*} {key : SwFlowKey} {outPort : BitVec 16}

/-- The condition of statistics on an entry: it matches the description, with the wildcards of
both sides, and has the output port. -/
def statsSelect (key : SwFlowKey) (outPort : BitVec 16) (flow : SwFlow) : Bool :=
  flowMatches2wild key flow.key && flow.flowHasOutPort outPort

/-! ### Hash tables -/

namespace SwTableHash

variable {th : SwTableHash}

variable (th key outPort) in
/-- The entries that an iteration from a position passes to its callback. -/
def remaining (position : SwTablePosition) : List SwFlow :=
  if th.bucketMask < position.private0.toNat then []
  else if key.wildcards = 0 then
    ((th.lookup key).filter fun flow => flow.flowHasOutPort outPort).toList
  else (th.candidates key outPort position.private0.toNat).map Prod.snd

/-- The buckets of the candidates are in the range of the iteration. -/
theorem bucket_of_mem_candidates {start : ℕ} {c : ℕ × SwFlow}
    (h : c ∈ th.candidates key outPort start) : start ≤ c.1 ∧ c.1 ≤ th.bucketMask := by
  obtain ⟨i, hi, hc⟩ := List.mem_filterMap.1 h
  obtain ⟨flow, -, rfl⟩ := Option.map_eq_some_iff.1 hc
  rw [List.mem_range'_1] at hi
  omega

variable (th key outPort) in
/-- The candidates come in the order of their buckets. -/
theorem pairwise_candidates (start : ℕ) :
    (th.candidates key outPort start).Pairwise fun c d => c.1 < d.1 := by
  rw [candidates, List.pairwise_filterMap]
  refine (List.pairwise_lt_range' 1).imp fun {i j} hij c hc d hd => ?_
  obtain ⟨-, -, rfl⟩ := Option.map_eq_some_iff.1 hc
  obtain ⟨-, -, rfl⟩ := Option.map_eq_some_iff.1 hd
  exact hij

/-- Behind a candidate are the candidates from the next bucket on. -/
theorem candidates_of_append {start : ℕ} {pre rest : List (ℕ × SwFlow)} {c : ℕ × SwFlow}
    (h : th.candidates key outPort start = pre ++ c :: rest) :
    th.candidates key outPort (c.1 + 1) = rest := by
  have hc : c ∈ th.candidates key outPort start := by
    rw [h]
    exact List.mem_append_right _ List.mem_cons_self
  obtain ⟨hstart, hmask⟩ := bucket_of_mem_candidates hc
  -- the buckets up to that of `c` and the ones behind it
  have hrange : List.range' start (th.bucketMask + 1 - start) =
      List.range' start (c.1 + 1 - start) ++
        List.range' (c.1 + 1) (th.bucketMask + 1 - (c.1 + 1)) := by
    have hsum : th.bucketMask + 1 - start =
        (c.1 + 1 - start) + (th.bucketMask + 1 - (c.1 + 1)) := by omega
    have hnext : c.1 + 1 = start + (c.1 + 1 - start) := by omega
    rw [hsum, ← List.range'_append_1, ← hnext]
  have hpw := h ▸ pairwise_candidates key outPort th start
  obtain ⟨-, hrest, hpre⟩ := List.pairwise_append.1 hpw
  have hfilter := congrArg (List.filter fun d : ℕ × SwFlow => decide (c.1 < d.1)) h
  rw [candidates, hrange, List.filterMap_append, List.filter_append, List.filter_append,
    List.filter_eq_nil_iff.2, List.filter_eq_self.2, List.filter_eq_nil_iff.2,
    List.filter_cons_of_neg (by simp), List.filter_eq_self.2, List.nil_append,
    List.nil_append] at hfilter
  · exact hfilter
  · intro d hd
    exact decide_eq_true ((List.pairwise_cons.1 hrest).1 d hd)
  · intro d hd
    have := hpre d hd c List.mem_cons_self
    simp only [decide_eq_true_eq]
    omega
  · intro d hd
    exact decide_eq_true (bucket_of_mem_candidates hd).1
  · intro d hd
    obtain ⟨i, hi, hd⟩ := List.mem_filterMap.1 hd
    obtain ⟨-, -, rfl⟩ := Option.map_eq_some_iff.1 hd
    rw [List.mem_range'_1] at hi
    simp only [decide_eq_true_eq]
    omega

theorem remaining_of_lt {position : SwTablePosition}
    (h : th.bucketMask < position.private0.toNat) : th.remaining key outPort position = [] :=
  if_pos h

/-- What remains behind a candidate. -/
theorem remaining_next {position : SwTablePosition} (hw : key.wildcards ≠ 0)
    {pre rest : List (ℕ × SwFlow)} {c : ℕ × SwFlow}
    (h : th.candidates key outPort position.private0.toNat = pre ++ c :: rest) :
    th.remaining key outPort { position with private0 := BitVec.ofNat 64 (c.1 + 1) } =
      rest.map Prod.snd := by
  have hc : c ∈ th.candidates key outPort position.private0.toNat := by
    rw [h]
    exact List.mem_append_right _ List.mem_cons_self
  have hmask := (bucket_of_mem_candidates hc).2
  have hword : (BitVec.ofNat 64 (c.1 + 1)).toNat = c.1 + 1 := by
    have := th.bucketMask_lt
    rw [BitVec.toNat_ofNat]
    omega
  rw [remaining, hword, if_neg hw, candidates_of_append h]
  split
  next hlt =>
    have hnone : th.candidates key outPort (c.1 + 1) = [] := by
      rw [List.eq_nil_iff_forall_not_mem]
      intro d hd
      have := bucket_of_mem_candidates hd
      omega
    rw [← candidates_of_append h, hnone]
    rfl
  next => rfl

variable (th key outPort) in
/-- `table_hash_iterate` can be resumed: the entries behind the stopping one remain. -/
theorem resumes_iterate :
    Resumes (th.remaining key outPort) (fun _ rest => rest) (th.iterate (σ := σ) key outPort) := by
  have main : ∀ (callback : σ → SwFlow → σ × ℤ) position s,
      let r := th.iterate key outPort callback position s
      let v := visit callback (th.remaining key outPort position) s
      r.1 = v.1 ∧ (v.2 = none → r.2.2 = 0) ∧
        ∀ st, v.2 = some st → r.2.2 = st.error ∧ th.remaining key outPort r.2.1 = st.rest := by
    intro callback position s
    simp only
    unfold iterate
    by_cases hlt : th.bucketMask < position.private0.toNat
    · rw [if_pos hlt, remaining_of_lt hlt]
      simp [visit]
    rw [if_neg hlt]
    by_cases hw : key.wildcards = 0
    -- an exact key has one entry at most, and the position behind it is beyond the last bucket
    · have hend : th.remaining key outPort { position with private0 := -1 } = [] :=
        remaining_of_lt (lt_trans th.bucketMask_lt (by decide : 2 ^ 31 < (-1 : BitVec 64).toNat))
      rw [if_pos hw, remaining, if_neg hlt, if_pos hw]
      cases hl : th.lookup key with
      | none => simp [visit]
      | some flow =>
        cases ho : flow.flowHasOutPort outPort with
        | false => simp [visit, ho, Option.filter_some]
        | true =>
          by_cases he : (callback s flow).2 = 0
          · simp [visit, ho, he, Option.filter_some]
          · simp only [Option.filter_some, ho, if_true, Option.toList_some, visit, he, if_false]
            refine ⟨trivial, fun h => absurd h (Option.some_ne_none _), fun st hst => ?_⟩
            cases hst
            exact ⟨rfl, hend⟩
    · rw [if_neg hw, remaining, if_neg hlt, if_neg hw, visit_map]
      cases hv : visit (fun s (c : ℕ × SwFlow) => callback s c.2)
          (th.candidates key outPort position.private0.toNat) s with
      | mk s' stop =>
        cases stop with
        | none => simp
        | some st =>
          obtain ⟨pre, hpre⟩ := suffix_of_stop (congrArg Prod.snd hv)
          simp [remaining_next hw hpre]
  exact ⟨fun c p s => (main c p s).1, fun c p s => (main c p s).2.1,
    fun c p s st h => ((main c p s).2.2 st h).1, fun c p s st h => ((main c p s).2.2 st h).2⟩

variable (th key outPort) in
/-- An iteration over one table does not touch the second word of the position. -/
theorem iterate_private1 (callback : σ → SwFlow → σ × ℤ) (position : SwTablePosition) (s : σ) :
    (th.iterate key outPort callback position s).2.1.private1 = position.private1 := by
  unfold iterate
  split
  · rfl
  split
  · simp only
    split
    · split <;> rfl
    · rfl
  · split <;> rfl

/-- On an entry of a valid table, the condition of statistics compares with the wildcards of the
description alone. -/
theorem Valid.statsSelect_eq (h : th.Valid) {i : ℕ} {flow : SwFlow}
    (hi : th.buckets i = some flow) : statsSelect key outPort flow =
      (flowMatches1wild flow.key key && flow.flowHasOutPort outPort) := by
  rw [statsSelect, flowMatches2wild_comm,
    (h.wellFormed hi).normal.flowMatches2wild_eq (h.exact hi)]

/-- In a valid table, at the beginning the entries that match remain. -/
theorem Valid.remaining_zero (h : th.Valid) (hkey : key.Normal) (position : SwTablePosition)
    (hp : position.private0 = 0) :
    th.remaining key outPort position = th.flows.filter (statsSelect key outPort) := by
  have hzero : position.private0.toNat = 0 := by rw [hp]; rfl
  rw [remaining, hzero, if_neg (Nat.not_lt_zero _)]
  split
  next hw =>
    -- an exact key matches the entry in its own bucket at most
    have hexact : ∀ i f, th.buckets i = some f → statsSelect key outPort f =
        (f.key.flow == key.flow && f.flowHasOutPort outPort) := fun i f hi => by
      rw [h.statsSelect_eq hi, hkey.flowMatches1wild_exact hw]
    rw [h.filter_flows fun i f hi hf => ?_, lookup]
    · cases hb : th.buckets (th.findBucket key.flow) with
      | none => rfl
      | some f =>
        rw [Option.filter_some, Option.filter_some, hexact _ f hb]
        cases f.key.flow == key.flow with
        | true => rfl
        | false => rfl
    · rw [hexact i f hi, Bool.and_eq_true, beq_iff_eq] at hf
      exact hf.1
  next hw =>
    rw [candidates, List.map_filterMap, flows, List.filter_filterMap, Nat.sub_zero,
      ← List.range_eq_range']
    refine List.filterMap_congr fun i hi => ?_
    cases hb : th.buckets i with
    | none => rfl
    | some f =>
      rw [Option.filter_some, Option.filter_some, h.statsSelect_eq hb]
      split <;> rfl

/-- In a valid table, only entries that match remain. -/
theorem Valid.mem_of_mem_remaining (h : th.Valid) (hkey : key.Normal) {position : SwTablePosition}
    {flow : SwFlow} (hf : flow ∈ th.remaining key outPort position) :
    flow ∈ th.flows.filter (statsSelect key outPort) := by
  rw [← h.remaining_zero hkey .zero rfl]
  have hzero : ¬ th.bucketMask < SwTablePosition.zero.private0.toNat := Nat.not_lt_zero _
  rw [remaining] at hf
  rw [remaining, if_neg hzero]
  split at hf
  next => cases hf
  next =>
    split at hf
    next hw =>
      rw [if_pos hw]
      exact hf
    next hw =>
      rw [if_neg hw]
      obtain ⟨c, hc, rfl⟩ := List.mem_map.1 hf
      obtain ⟨i, hi, hci⟩ := List.mem_filterMap.1 hc
      rw [List.mem_range'_1] at hi
      refine List.mem_map.2 ⟨c, List.mem_filterMap.2 ⟨i, ?_, hci⟩, rfl⟩
      rw [List.mem_range'_1]
      exact ⟨Nat.zero_le i, by change i < 0 + (th.bucketMask + 1 - 0); omega⟩

end SwTableHash

/-! ### The double-hashing table -/

namespace SwTableHash2

variable {t2 : SwTableHash2}

variable (key outPort) in
/-- The entries that the loop over sub-tables passes to its callback. -/
def remainingLoop : List SwTableHash → SwTablePosition → List SwFlow
  | [], _ => []
  | th :: ths, position =>
      th.remaining key outPort position ++ remainingLoop ths ⟨0, position.private1 + 1⟩

variable (t2 key outPort) in
/-- The entries that an iteration from a position passes to its callback. -/
def remaining (position : SwTablePosition) : List SwFlow :=
  remainingLoop key outPort ([t2.subtable0, t2.subtable1].drop position.private1.toNat) position

/-- The number of the next sub-table. -/
theorem toNat_private1_succ {all ths : List SwTableHash} {th : SwTableHash} {i : BitVec 64}
    (hlen : all.length < 2 ^ 64) (h : all.drop i.toNat = th :: ths) :
    all.drop (i + 1).toNat = ths := by
  have hlt : i.toNat < all.length := by
    by_contra hge
    rw [List.drop_of_length_le (by omega)] at h
    cases h
  have hsucc : (i + 1).toNat = i.toNat + 1 := by
    rw [BitVec.toNat_add]
    exact Nat.mod_eq_of_lt (by change i.toNat + 1 < 2 ^ 64; omega)
  rw [hsucc, ← List.tail_drop, h, List.tail_cons]

variable (key outPort) in
/-- The loop of `table_hash2_iterate` can be resumed. -/
theorem iterateLoop_spec (all : List SwTableHash) (hlen : all.length < 2 ^ 64)
    (callback : σ → SwFlow → σ × ℤ) (ths : List SwTableHash) (position : SwTablePosition) (s : σ)
    (hdrop : all.drop position.private1.toNat = ths) :
    let r := iterateLoop key outPort callback ths position s
    let v := visit callback (remainingLoop key outPort ths position) s
    r.1 = v.1 ∧ (v.2 = none → r.2.2 = 0) ∧ ∀ st, v.2 = some st → r.2.2 = st.error ∧
      remainingLoop key outPort (all.drop r.2.1.private1.toNat) r.2.1 = st.rest := by
  induction ths generalizing position s with
  | nil => simp [iterateLoop, remainingLoop, visit]
  | cons th ths ih =>
    have hth := th.resumes_iterate key outPort (σ := σ)
    have hnext := toNat_private1_succ hlen hdrop
    have h1 := hth.state callback position s
    have hp1 := th.iterate_private1 key outPort callback position s
    simp only [iterateLoop, remainingLoop]
    cases hv : (visit callback (th.remaining key outPort position) s).2 with
    | none =>
      rw [hth.complete _ _ _ hv, if_neg (not_not.2 rfl), visit_append_of_none hv, h1, hp1]
      exact ih ⟨0, position.private1 + 1⟩ _ hnext
    | some st =>
      have herr : st.error ≠ 0 := error_ne_zero hv
      have hrest := hth.rest _ _ _ _ hv
      rw [hth.error _ _ _ _ hv, if_pos herr, visit_append_of_some hv]
      refine ⟨h1, fun h => absurd h (Option.some_ne_none _), fun st' hst => ?_⟩
      cases hst
      refine ⟨rfl, ?_⟩
      rw [hp1, hdrop, remainingLoop, hrest, hp1]

variable (t2 key outPort) in
/-- `table_hash2_iterate` can be resumed: the entries behind the stopping one remain. -/
theorem resumes_iterate :
    Resumes (t2.remaining key outPort) (fun _ rest => rest) (t2.iterate (σ := σ) key outPort) := by
  have main := fun (callback : σ → SwFlow → σ × ℤ) position s =>
    iterateLoop_spec key outPort [t2.subtable0, t2.subtable1] (by simp) callback _ position s rfl
  exact ⟨fun c p s => (main c p s).1, fun c p s => (main c p s).2.1,
    fun c p s st h => ((main c p s).2.2 st h).1, fun c p s st h => ((main c p s).2.2 st h).2⟩

/-- In valid sub-tables, at the beginning the entries that match remain. -/
theorem remaining_zero (h0 : t2.subtable0.Valid) (h1 : t2.subtable1.Valid) (hkey : key.Normal) :
    t2.remaining key outPort .zero = t2.flows.filter (statsSelect key outPort) := by
  rw [flows, List.filter_append, ← h0.remaining_zero hkey .zero rfl,
    ← h1.remaining_zero hkey ⟨0, 1⟩ rfl]
  exact congrArg _ (List.append_nil _)

/-- In valid sub-tables, only entries that match remain. -/
theorem mem_of_mem_remaining (h0 : t2.subtable0.Valid) (h1 : t2.subtable1.Valid)
    (hkey : key.Normal) {position : SwTablePosition} {flow : SwFlow}
    (hf : flow ∈ t2.remaining key outPort position) :
    flow ∈ t2.flows.filter (statsSelect key outPort) := by
  have hloop : ∀ (ths : List SwTableHash) (p : SwTablePosition),
      flow ∈ remainingLoop key outPort ths p →
        ∃ th ∈ ths, ∃ q, flow ∈ th.remaining key outPort q := by
    intro ths
    induction ths with
    | nil => exact fun p hp => absurd hp List.not_mem_nil
    | cons th ths ih =>
      intro p hp
      rcases List.mem_append.1 hp with hp | hp
      · exact ⟨th, List.mem_cons_self, p, hp⟩
      · obtain ⟨th', hth, q, hq⟩ := ih _ hp
        exact ⟨th', List.mem_cons_of_mem _ hth, q, hq⟩
  obtain ⟨th, hth, q, hq⟩ := hloop _ _ hf
  rw [flows, List.filter_append]
  have hmem := List.mem_of_mem_drop hth
  simp only [List.mem_cons, List.not_mem_nil, or_false] at hmem
  rcases hmem with rfl | rfl
  · exact List.mem_append_left _ (h0.mem_of_mem_remaining hkey hq)
  · exact List.mem_append_right _ (h1.mem_of_mem_remaining hkey hq)

end SwTableHash2

/-! ### Linear tables -/

namespace SwTableLinear

variable {tl : SwTableLinear}

variable (tl key outPort) in
/-- The entries that an iteration from a position passes to its callback. -/
def remaining (position : SwTablePosition) : List SwFlow :=
  tl.candidates key outPort (~~~position.private0)

/-- At the position that is saved at `flow`, the entry `f` has not been visited. -/
def behind (flow f : SwFlow) : Bool := decide (serialWord f ≤ serialWord flow - 1)

/-- What remains is selected by serial numbers. -/
theorem candidates_eq_filter (start : BitVec 64) :
    tl.candidates key outPort start =
      (tl.iterFlows.filter (statsSelect key outPort)).filter
        fun flow => decide (serialWord flow ≤ start) := by
  rw [candidates, List.filter_filter]
  refine List.filter_congr fun f _ => ?_
  rw [statsSelect, Bool.and_assoc]

variable (tl key outPort) in
/-- `table_linear_iterate` can be resumed: the entries behind the saved position remain. -/
theorem resumes_iterate :
    Resumes (tl.remaining key outPort)
      (fun flow _ => (tl.iterFlows.filter (statsSelect key outPort)).filter (behind flow))
      (tl.iterate (σ := σ) key outPort) := by
  have main : ∀ (callback : σ → SwFlow → σ × ℤ) position s,
      let r := tl.iterate key outPort callback position s
      let v := visit callback (tl.remaining key outPort position) s
      r.1 = v.1 ∧ (v.2 = none → r.2.2 = 0) ∧ ∀ st, v.2 = some st → r.2.2 = st.error ∧
        tl.remaining key outPort r.2.1 =
          (tl.iterFlows.filter (statsSelect key outPort)).filter (behind st.elem) := by
    intro callback position s
    simp only
    unfold iterate
    cases hv : visit callback (tl.remaining key outPort position) s with
    | mk s' stop =>
      rw [remaining] at hv
      rw [hv]
      cases stop with
      | none => simp
      | some st =>
        refine ⟨rfl, fun h => absurd h (Option.some_ne_none _), fun st' hst => ?_⟩
        cases hst
        refine ⟨rfl, ?_⟩
        rw [remaining, BitVec.not_not, candidates_eq_filter]
        rfl
  exact ⟨fun c p s => (main c p s).1, fun c p s => (main c p s).2.1,
    fun c p s st h => ((main c p s).2.2 st h).1, fun c p s st h => ((main c p s).2.2 st h).2⟩

/-- At the beginning, the entries that match remain. -/
theorem remaining_zero :
    tl.remaining key outPort .zero = tl.iterFlows.filter (statsSelect key outPort) := by
  rw [remaining, candidates_eq_filter, List.filter_eq_self]
  intro f _
  have := (serialWord f).isLt
  rw [decide_eq_true_eq, BitVec.le_def]
  change (serialWord f).toNat ≤ 2 ^ 64 - 1
  omega

/-- The position saved at serial number 0 selects everything. -/
theorem behind_of_serialWord_zero {g : SwFlow} (h : serialWord g = 0) (x : SwFlow) :
    behind g x = true := by
  have := (serialWord x).isLt
  rw [behind, decide_eq_true_eq, BitVec.le_def, h]
  change (serialWord x).toNat ≤ 2 ^ 64 - 1
  omega

/-- The position saved at an entry that has not been visited selects less, or everything. -/
theorem behind_trans {f g : SwFlow} (h : behind f g = true) :
    (∀ x, behind g x = true → behind f x = true) ∨ ∀ x, behind g x = true := by
  by_cases hz : serialWord g = 0
  · exact .inr (behind_of_serialWord_zero hz)
  · left
    intro x hx
    simp only [behind, decide_eq_true_eq, BitVec.le_def] at h hx ⊢
    have hsub : (serialWord g - 1).toNat = (serialWord g).toNat - 1 := by
      have hpos : (serialWord g).toNat ≠ 0 := fun h0 => hz (BitVec.eq_of_toNat_eq h0)
      rw [BitVec.toNat_sub]
      change (2 ^ 64 - 1 + (serialWord g).toNat) % 2 ^ 64 = _
      have := (serialWord g).isLt
      omega
    omega

/-- While the serial numbers have not wrapped around, the entries behind the saved position are the
entries behind the stopping one, unless that has serial number 0. -/
theorem Valid.filter_behind (h : tl.Valid) (hfit : tl.nextSerial ≤ 2 ^ 64) {f : SwFlow}
    {pre rest : List SwFlow}
    (heq : tl.iterFlows.filter (statsSelect key outPort) = pre ++ f :: rest) (hf : f.serial ≠ 0) :
    (tl.iterFlows.filter (statsSelect key outPort)).filter (behind f) = rest := by
  -- no serial number is cut off
  have hword : ∀ g ∈ pre ++ f :: rest, (serialWord g).toNat = g.serial := by
    intro g hg
    rw [← heq] at hg
    have := h.serial_lt g (List.mem_of_mem_filter hg)
    rw [serialWord, BitVec.toNat_ofNat]
    exact Nat.mod_eq_of_lt (by omega)
  have hsub : (serialWord f - 1).toNat = f.serial - 1 := by
    have hf' := hword f (List.mem_append_right _ List.mem_cons_self)
    rw [BitVec.toNat_sub, hf']
    change (2 ^ 64 - 1 + f.serial) % 2 ^ 64 = _
    have := (serialWord f).isLt
    omega
  have hbehind : ∀ g ∈ pre ++ f :: rest, behind f g = decide (g.serial < f.serial) := by
    intro g hg
    rw [behind, decide_eq_decide, BitVec.le_def, hsub, hword g hg]
    omega
  -- the entries are in the order of their serial numbers
  have hpw : (pre ++ f :: rest).Pairwise fun a b => b.serial < a.serial :=
    heq ▸ h.descending.filter _
  obtain ⟨-, hrest, hpre⟩ := List.pairwise_append.1 hpw
  rw [heq, List.filter_congr hbehind, List.filter_append, List.filter_eq_nil_iff.2,
    List.filter_cons_of_neg (by simp), List.filter_eq_self.2, List.nil_append]
  · intro g hg
    exact decide_eq_true ((List.pairwise_cons.1 hrest).1 g hg)
  · intro g hg
    have := hpre g hg f List.mem_cons_self
    simp only [decide_eq_true_eq]
    omega

end SwTableLinear

end OfAgent
