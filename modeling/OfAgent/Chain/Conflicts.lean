import OfAgent.Datapath

/-!
# Conflicts are overlaps

What the conflict check of a flow modification is for: some entry of the working tables has the
priority of the new flow and shares a packet with it.

* `flowMatches2wild_iff_exists`: two keys compare equal modulo the wildcards of both exactly when
  one packet matches both. The packet is put together field by field, with the values of the
  first key under its mask and the values of the second elsewhere.
* `SwTableHash.Valid.hasConflict_iff`: a description without wildcards is looked up in one bucket
  only, and no entry in another bucket shares a packet with it.
* `chain_hasConflict_iff`: `chain_has_conflict` in every reachable datapath.
-/

namespace OfAgent

/-- Some packet is matched by both keys. -/
def SharePacket (a b : SwFlowKey) : Prop :=
  ∃ flow : Flow, flowMatches1wild (packetKey flow) a = true ∧
    flowMatches1wild (packetKey flow) b = true

/-- The overlap test of the source finds out whether two keys share a packet. -/
theorem flowMatches2wild_iff_exists (a b : SwFlowKey) :
    flowMatches2wild a b = true ↔ SharePacket a b := by
  simp only [flowMatches2wild_iff, SharePacket, flowMatches1wild_iff, packetKey]
  constructor
  · rintro ⟨k, ha, hb⟩
    refine ⟨Flow.ofWord k, ?_, ?_⟩
    · rw [Flow.word_ofWord]
      exact ha
    · rw [Flow.word_ofWord]
      exact hb
  · rintro ⟨flow, ha, hb⟩
    exact ⟨flow.word, ha, hb⟩

/-- What a `has_conflict` function reports an entry for. A strict description must also have the
entry's wildcards. -/
def SwFlow.Conflicts (key : SwFlowKey) (priority : BitVec 16) (strict : Bool) (f : SwFlow) :
    Prop :=
  f.priority = priority ∧ (strict = true → key.wildcards = f.key.wildcards) ∧
    SharePacket f.key key

/-- The condition of the `has_conflict` functions. -/
theorem SwFlow.conflictsWith_iff (key : SwFlowKey) (priority : BitVec 16) (strict : Bool)
    (f : SwFlow) :
    f.conflictsWith key priority strict = true ↔ f.Conflicts key priority strict := by
  rw [SwFlow.conflictsWith, Bool.and_eq_true, beq_iff_eq, SwFlow.Conflicts,
    ← flowMatches2wild_iff_exists, flowMatches2desc, and_comm, and_congr_right_iff]
  intro _
  cases strict with
  | false => simp
  | true => by_cases hw : key.wildcards = f.key.wildcards <;> simp [hw]

/-- `table_hash_has_conflict`, on a valid table, looks at every entry that could be reported. -/
theorem SwTableHash.Valid.hasConflict_iff {th : SwTableHash} (h : th.Valid) {key : SwFlowKey}
    (hkey : key.Normal) (priority : BitVec 16) (strict : Bool) :
    th.hasConflict key priority strict = true ↔
      ∃ f ∈ th.flows, f.Conflicts key priority strict := by
  simp only [← SwFlow.conflictsWith_iff]
  unfold SwTableHash.hasConflict
  split
  next hw =>
    -- an entry that shares a packet with the description has the description's flow
    have hp : ∀ i f, th.buckets i = some f → f.conflictsWith key priority strict = true →
        f.key.flow = key.flow := by
      intro i f hi hf
      obtain ⟨-, -, hshare⟩ := (SwFlow.conflictsWith_iff _ _ _ _).1 hf
      rw [← flowMatches2wild_iff_exists,
        (h.wellFormed hi).normal.flowMatches2wild_exact hkey (h.exact hi) hw] at hshare
      exact beq_iff_eq.1 hshare
    constructor
    · intro hany
      obtain ⟨f, hb, hf⟩ := (Option.any_eq_true _ _).1 hany
      exact ⟨f, h.mem_flows.2 (by rw [h.findBucket_eq hb, hb]), hf⟩
    · rintro ⟨f, hmem, hf⟩
      have hb := h.mem_flows.1 hmem
      rw [hp _ _ hb hf] at hb
      rw [hb]
      exact hf
  next => exact List.any_eq_true

/-- `table_linear_has_conflict` looks at every entry. -/
theorem SwTableLinear.hasConflict_iff (tl : SwTableLinear) (key : SwFlowKey)
    (priority : BitVec 16) (strict : Bool) :
    tl.hasConflict key priority strict = true ↔
      ∃ f ∈ tl.flows, f.Conflicts key priority strict := by
  simp only [← SwFlow.conflictsWith_iff]
  exact List.any_eq_true

/-- `chain_has_conflict`, on a valid chain, looks at every entry of the working tables that could
be reported. -/
theorem SwChain.Valid.hasConflict_iff {ch : SwChain} (h : ch.Valid) {key : SwFlowKey}
    (hkey : key.Normal) (priority : BitVec 16) (strict : Bool) :
    ch.hasConflict key priority strict = true ↔
      ∃ f ∈ ch.workingFlows, f.Conflicts key priority strict := by
  simp only [SwChain.hasConflict, SwTableHash2.hasConflict, Bool.or_eq_true,
    h.subtable0.hasConflict_iff hkey, h.subtable1.hasConflict_iff hkey,
    SwTableLinear.hasConflict_iff, SwChain.workingFlows, SwTableHash2.flows, List.mem_append,
    or_and_right, exists_or]

/-- In every reachable datapath, `chain_has_conflict` reports a description and a priority exactly
when some entry of the working tables has the priority and shares a packet with the description;
with `strict` the entry must have the same wildcards as well. -/
theorem chain_hasConflict_iff {sizes : TableSizes} {dp : Datapath}
    (hr : Datapath.Reachable sizes dp) (m : OfpMatch) (priority : BitVec 16) (strict : Bool) :
    let key := flowExtractMatch m
    dp.chain.hasConflict key priority strict = true ↔
      ∃ f ∈ dp.chain.workingFlows, f.priority = priority ∧
        (strict = true → key.wildcards = f.key.wildcards) ∧
        ∃ flow : Flow, flowMatches1wild (packetKey flow) f.key = true ∧
          flowMatches1wild (packetKey flow) key = true :=
  (Datapath.valid_of_reachable hr).hasConflict_iff (normal_flowExtractMatch m) priority strict

/-- IP packets from an address, of which the last `wildBits` bits are wildcarded. -/
def sourceMatch (nwSrc : BitVec 32) (wildBits : ℕ) : OfpMatch :=
  { OfpMatch.zero with
    dlType := ethTypeIp
    nwSrc
    wildcards := (ofpfwAll &&& ~~~(ofpfwDlType ||| ofpfwNwSrcMask))
      ||| (BitVec.ofNat 32 wildBits <<< ofpfwNwSrcShift) }

/-- A flow for 10.0.0.0/8, in tables of sixteen buckets, shares a packet with a description for
10.1.0.0/16. -/
theorem chain_hasConflict_iff_prefixes :
    ∃ f ∈ ((Datapath.init ⟨4, 100⟩ 0).runEvents
        [.flowMod 0 (plainFlowMod 0 (sourceMatch 0x0a000000 24) 7)]).chain.workingFlows,
      f.priority = 7 ∧
        (false = true → (flowExtractMatch (sourceMatch 0x0a010000 16)).wildcards =
          f.key.wildcards) ∧
        ∃ flow : Flow, flowMatches1wild (packetKey flow) f.key = true ∧
          flowMatches1wild (packetKey flow) (flowExtractMatch (sourceMatch 0x0a010000 16)) = true :=
  (chain_hasConflict_iff (Datapath.reachable_runEvents ⟨4, 100⟩ 0 _) (sourceMatch 0x0a010000 16) 7
    false).1 (by decide +kernel)

end OfAgent
