import OfAgent.Datapath

/-!
# Lookups find the best entry

What a packet lookup is for: an entry without wildcards that equals the packet's flow comes first,
otherwise an entry of the highest priority among those that match, and only when no entry matches
the lookup finds nothing.

* `LookupSpec`: this statement, over the entries of the working tables.
* `ShadowedExact`: an entry without wildcards that has overflowed into the linear table stands
  there behind an entry with wildcards that matches the same packet.
* `lookup_spec_iff`: in every reachable datapath, a lookup does what it is for exactly when no
  entry for the packet is shadowed.
-/

namespace OfAgent

/-- The entry has no wildcards and equals the flow of the packet. -/
def SwFlow.ExactFor (flow : Flow) (f : SwFlow) : Prop := f.key.wildcards = 0 ∧ f.key.flow = flow

/-- The entry has wildcards and matches the flow of the packet. -/
def SwFlow.WildFor (flow : Flow) (f : SwFlow) : Prop :=
  f.key.wildcards ≠ 0 ∧ flowMatches1wild (packetKey flow) f.key = true

/-- What a lookup is for. -/
structure LookupSpec (entries : List SwFlow) (flow : Flow) (result : Option SwFlow) : Prop where
  /-- An entry without wildcards that equals the packet's flow comes first. -/
  exactFirst : (∃ f ∈ entries, f.ExactFor flow) → ∃ f ∈ entries, f.ExactFor flow ∧ result = some f
  /-- Otherwise the result is an entry of maximal priority among all that match. -/
  maximal : (¬ ∃ f ∈ entries, f.ExactFor flow) → ∀ f, result = some f →
    f ∈ entries ∧ f.WildFor flow ∧ ∀ g ∈ entries, g.WildFor flow → g.priority ≤ f.priority
  /-- Without a result no entry matches. -/
  complete : result = none → ∀ f ∈ entries, flowMatches1wild (packetKey flow) f.key = false

/-- No hash table holds the packet's flow, and in the linear table an entry for it stands behind
an entry with wildcards that matches. -/
def SwChain.ShadowedExact (ch : SwChain) (flow : Flow) : Prop :=
  (∀ f ∈ ch.hash2.flows, f.key.flow ≠ flow) ∧
    ∃ w e, [w, e].Sublist ch.linear.flows ∧ w.WildFor flow ∧ e.ExactFor flow

namespace SwChain.Valid

variable {ch : SwChain} (h : ch.Valid) {flow : Flow}
include h

/-- A packet matches an entry without wildcards exactly when the flows are equal. -/
theorem matches_exact {f : SwFlow} (hf : f ∈ ch.workingFlows) (hw : f.key.wildcards = 0) :
    flowMatches1wild (packetKey flow) f.key = true ↔ f.key.flow = flow := by
  rw [(h.wellFormed hf).normal.flowMatches1wild_exact hw, beq_iff_eq]
  exact eq_comm

/-- The result of a lookup in the double-hashing table. -/
theorem hash2_lookup_some {f : SwFlow} (hf : ch.hash2.lookup (packetKey flow) = some f) :
    f ∈ ch.hash2.flows ∧ f.key.flow = flow := by
  rcases Option.or_eq_some_iff.1 hf with h0 | ⟨-, h1⟩
  · obtain ⟨hmem, hk⟩ := h.subtable0.lookup_eq_some_iff.1 h0
    exact ⟨List.mem_append_left _ hmem, hk⟩
  · obtain ⟨hmem, hk⟩ := h.subtable1.lookup_eq_some_iff.1 h1
    exact ⟨List.mem_append_right _ hmem, hk⟩

/-- Without a result in the double-hashing table, no entry there has the packet's flow. -/
theorem hash2_lookup_none (hn : ch.hash2.lookup (packetKey flow) = none) :
    ∀ f ∈ ch.hash2.flows, f.key.flow ≠ flow := by
  obtain ⟨h0, h1⟩ := Option.or_eq_none_iff.1 hn
  intro f hf heq
  rcases List.mem_append.1 hf with hf | hf
  · exact Option.eq_none_iff_forall_ne_some.1 h0 f (h.subtable0.lookup_eq_some_iff.2 ⟨hf, heq⟩)
  · exact Option.eq_none_iff_forall_ne_some.1 h1 f (h.subtable1.lookup_eq_some_iff.2 ⟨hf, heq⟩)

/-- A lookup that the double-hashing table answers does what it is for. -/
theorem lookupSpec_of_hash2 {f : SwFlow} (hf : f ∈ ch.hash2.flows) (hk : f.key.flow = flow) :
    LookupSpec ch.workingFlows flow (some f) := by
  have hmem : f ∈ ch.workingFlows := List.mem_append_left _ hf
  have hex : f.ExactFor flow := ⟨(h.hash2_exact hf).2, hk⟩
  exact ⟨fun _ => ⟨f, hmem, hex, rfl⟩, fun hno => absurd ⟨f, hmem, hex⟩ hno,
    fun hn => absurd hn (Option.some_ne_none f)⟩

/-- A lookup that no table answers does what it is for. -/
theorem lookupSpec_of_none (hno : ∀ f ∈ ch.hash2.flows, f.key.flow ≠ flow)
    (hn : ch.linear.lookup (packetKey flow) = none) : LookupSpec ch.workingFlows flow none := by
  have hnone : ∀ f ∈ ch.workingFlows, flowMatches1wild (packetKey flow) f.key = false := by
    intro f hf
    rcases List.mem_append.1 hf with hf' | hf'
    · rw [← Bool.not_eq_true, h.matches_exact hf (h.hash2_exact hf').2]
      exact hno f hf'
    · exact Bool.eq_false_iff.2 (List.find?_eq_none.1 hn f hf')
  refine ⟨?_, fun _ f hf => absurd hf.symm (Option.some_ne_none f), fun _ => hnone⟩
  rintro ⟨f, hf, hw, hk⟩
  have := (h.matches_exact hf hw).2 hk
  rw [hnone f hf] at this
  cases this

theorem linear_nodup : ch.linear.flows.Nodup := by
  refine h.linear.distinct.imp fun {a b} hab heq => ?_
  rw [heq, SwFlow.identical_self] at hab
  cases hab

omit h in
theorem mem_linear_of_exactFor (hno : ∀ f ∈ ch.hash2.flows, f.key.flow ≠ flow) {e : SwFlow}
    (he : e ∈ ch.workingFlows) (hex : e.ExactFor flow) : e ∈ ch.linear.flows :=
  (List.mem_append.1 he).resolve_left fun hh => hno e hh hex.2

/-- The linear table answers with an entry without wildcards: the lookup does what it is for, and
no entry is shadowed. -/
theorem lookupSpec_of_linear_exact {x : SwFlow}
    (hx : ch.linear.lookup (packetKey flow) = some x) (hex : x.ExactFor flow) :
    LookupSpec ch.workingFlows flow (some x) ∧ ¬ ch.ShadowedExact flow := by
  have hxl : x ∈ ch.linear.flows := List.mem_of_find?_eq_some hx
  have hxw : x ∈ ch.workingFlows := List.mem_append_right _ hxl
  refine ⟨⟨fun _ => ⟨x, hxw, hex, rfl⟩, fun hn => absurd ⟨x, hxw, hex⟩ hn,
    fun hn => absurd hn (Option.some_ne_none x)⟩, ?_⟩
  rintro ⟨-, w, e, hs, hwild, hexe⟩
  have hel : e ∈ ch.linear.flows := hs.subset (by simp)
  have hid : e.identical x = true := by
    rw [(h.linear.wellFormed e hel).identical_exact (h.linear.wellFormed x hxl) hexe.1 hex.1,
      hexe.2, hex.2, beq_self_eq_true]
  have heq : e = x := by
    by_contra hne
    have := h.linear.distinct.forall hel hxl hne
    rw [hid] at this
    cases this
  subst heq
  exact PriorityList.not_sublist_of_find? h.linear_nodup hx hwild.2 hs

/-- The linear table answers with an entry with wildcards: the lookup does what it is for exactly
when there is no entry without wildcards for the packet. -/
theorem lookupSpec_iff_of_linear_wild {x : SwFlow}
    (hx : ch.linear.lookup (packetKey flow) = some x) (hwild : x.WildFor flow) :
    LookupSpec ch.workingFlows flow (some x) ↔ ¬ ∃ e ∈ ch.workingFlows, e.ExactFor flow := by
  have hxl : x ∈ ch.linear.flows := List.mem_of_find?_eq_some hx
  constructor
  · intro hspec hexists
    obtain ⟨f, -, hexf, hxf⟩ := hspec.exactFirst hexists
    rw [Option.some.injEq] at hxf
    subst hxf
    exact hwild.1 hexf.1
  · intro hnone
    refine ⟨fun hex => absurd hex hnone, fun _ f hf => ?_,
      fun hn => absurd hn (Option.some_ne_none x)⟩
    rw [Option.some.injEq] at hf
    subst hf
    refine ⟨List.mem_append_right _ hxl, hwild, fun g hg hgw => ?_⟩
    have hgl : g ∈ ch.linear.flows :=
      (List.mem_append.1 hg).resolve_left fun hh => hgw.1 (h.hash2_exact hh).2
    have hle : g.priority.toNat ≤ x.priority.toNat :=
      h.linear.sorted.find?_maximal hx hgl hgw.2
    exact BitVec.le_def.2 hle

/-- The linear table answers with an entry with wildcards: an entry is shadowed exactly when there
is one without wildcards for the packet. -/
theorem shadowedExact_iff_of_linear_wild (hno : ∀ f ∈ ch.hash2.flows, f.key.flow ≠ flow)
    {x : SwFlow} (hx : ch.linear.lookup (packetKey flow) = some x) (hwild : x.WildFor flow) :
    ch.ShadowedExact flow ↔ ∃ e ∈ ch.workingFlows, e.ExactFor flow := by
  constructor
  · rintro ⟨-, w, e, hs, -, hex⟩
    exact ⟨e, List.mem_append_right _ (hs.subset (by simp)), hex⟩
  · rintro ⟨e, he, hex⟩
    have hne : e ≠ x := by
      rintro rfl
      exact hwild.1 hex.1
    have hs := (PriorityList.find?_eq_or_sublist hx (mem_linear_of_exactFor hno he hex)
      ((h.matches_exact he hex.1).2 hex.2)).resolve_left hne
    exact ⟨hno, x, e, hs, hwild, hex⟩

/-- A lookup that the linear table answers does what it is for exactly when no entry for the
packet is shadowed. -/
theorem lookupSpec_iff_of_linear (hno : ∀ f ∈ ch.hash2.flows, f.key.flow ≠ flow) {x : SwFlow}
    (hx : ch.linear.lookup (packetKey flow) = some x) :
    LookupSpec ch.workingFlows flow (some x) ↔ ¬ ch.ShadowedExact flow := by
  obtain ⟨hxl, hxm⟩ := SwTableLinear.lookup_eq_some hx
  have hxw : x ∈ ch.workingFlows := List.mem_append_right _ hxl
  by_cases hw : x.key.wildcards = 0
  · obtain ⟨hspec, hnot⟩ :=
      h.lookupSpec_of_linear_exact hx ⟨hw, (h.matches_exact hxw hw).1 hxm⟩
    exact iff_of_true hspec hnot
  · rw [h.lookupSpec_iff_of_linear_wild hx ⟨hw, hxm⟩,
      h.shadowedExact_iff_of_linear_wild hno hx ⟨hw, hxm⟩]

end SwChain.Valid

/-- In every reachable datapath, a lookup does what it is for exactly when no entry for the
packet is shadowed. -/
theorem lookup_spec_iff {sizes : TableSizes} {dp : Datapath} (hr : Datapath.Reachable sizes dp)
    (flow : Flow) :
    LookupSpec dp.chain.workingFlows flow (dp.chain.lookup (packetKey flow) false) ↔
      ¬ dp.chain.ShadowedExact flow := by
  have h := Datapath.valid_of_reachable hr
  rw [SwChain.lookup, if_neg (by decide)]
  cases h2 : dp.chain.hash2.lookup (packetKey flow) with
  | some f =>
    obtain ⟨hf, hk⟩ := h.hash2_lookup_some h2
    exact iff_of_true (h.lookupSpec_of_hash2 hf hk) fun hs => hs.1 f hf hk
  | none =>
    have hno := h.hash2_lookup_none h2
    cases hl : dp.chain.linear.lookup (packetKey flow) with
    | some x => exact h.lookupSpec_iff_of_linear hno hl
    | none =>
      refine iff_of_true (h.lookupSpec_of_none hno hl) ?_
      rintro ⟨-, w, e, hs, hwild, -⟩
      exact List.find?_eq_none.1 hl w (hs.subset (by simp)) hwild.2

/-- Three flows that fall into one bucket under both polynomials, and a flow that wildcards
everything at the highest priority before the third of them. -/
def shadowingRun : List DatapathEvent :=
  [.flowMod 0 (plainFlowMod 0 (frameMatch 0) 0),
   .flowMod 0 (plainFlowMod 0 (frameMatch 0x109247213) 0),
   .flowMod 0 (plainFlowMod 0 { OfpMatch.zero with wildcards := ofpfwAll } 0xffff),
   .flowMod 0 (plainFlowMod 0 (frameMatch 0x4724bd99f) 0)]

/-- The datapath after `shadowingRun`, with tables of the sizes of the source. -/
def shadowedDatapath : Datapath := (Datapath.init .source 0).runEvents shadowingRun

/-- With only the first flow in the tables, a lookup of its packets does what it is for. -/
theorem lookup_spec_first :
    let dp := (Datapath.init .source 0).runEvents (shadowingRun.take 1)
    LookupSpec dp.chain.workingFlows (frameFlow 0)
      (dp.chain.lookup (packetKey (frameFlow 0)) false) := by
  refine (lookup_spec_iff (Datapath.reachable_runEvents .source 0 _) _).2 ?_
  rintro ⟨-, w, e, hs, -⟩
  have hlen := hs.length_le
  have hnil : ((Datapath.init .source 0).runEvents (shadowingRun.take 1)).chain.linear.flows.length
      = 0 := by decide +kernel
  rw [hnil] at hlen
  cases hlen

/-- After `shadowingRun`, packets of the third flow are handled by the flow that wildcards
everything. -/
theorem not_lookup_spec : ¬ ∀ (sizes : TableSizes) (dp : Datapath),
    Datapath.Reachable sizes dp → ∀ flow,
      LookupSpec dp.chain.workingFlows flow (dp.chain.lookup (packetKey flow) false) := by
  intro hall
  have hspec := hall .source shadowedDatapath (Datapath.reachable_runEvents _ _ _)
    (frameFlow 0x4724bd99f)
  have hmem : ∃ e ∈ shadowedDatapath.chain.linear.flows,
      e.key.wildcards = 0 ∧ e.key.flow = frameFlow 0x4724bd99f := by decide +kernel
  have hres : (shadowedDatapath.chain.lookup (packetKey (frameFlow 0x4724bd99f)) false).map
      (fun f => f.key.wildcards) = some ofpfwAll := by decide +kernel
  obtain ⟨e, he, hex⟩ := hmem
  obtain ⟨f, -, hexf, hf⟩ := hspec.exactFirst ⟨e, List.mem_append_right _ he, hex⟩
  rw [hf, Option.map_some, hexf.1] at hres
  exact absurd hres (by decide)

end OfAgent
