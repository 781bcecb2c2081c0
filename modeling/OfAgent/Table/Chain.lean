import Mathlib.Logic.Relation
import OfAgent.Table.Linear

/-!
# The chain of tables

`chain.c`: the working tables, a double-hashing table followed by a linear table, and the
emergency table, which is linear as well.

* `SwChain`: the chain with its `lookup`, `insert`, `modify`, `hasConflict`, `delete` and
  `timeout`. The loops over the two working tables are unrolled.
* `SwChain.Valid`: every table is valid.
* `SwChain.Change`: what the functions do to the tables, namely to remove entries, to rewrite
  entries in place, or to insert one flow. `Valid.change`: every change keeps a chain valid.
* `Valid.delete_eq`, `Valid.modify_eq`: a deletion is one filter of the working tables and a
  modification one map.
-/

namespace OfAgent

/-- The sizes of the tables: `TABLE_HASH_MAX_FLOWS`, which is a power of two, and
`TABLE_LINEAR_MAX_FLOWS`. -/
structure TableSizes where
  /-- The logarithm of `TABLE_HASH_MAX_FLOWS`. -/
  hashBits : Fin 32
  /-- `TABLE_LINEAR_MAX_FLOWS`. -/
  linearMaxFlows : ℕ

/-- The sizes of `chain.h`. -/
def TableSizes.source : TableSizes := ⟨16, 100⟩

/-- `struct sw_chain`. -/
structure SwChain where
  /-- `tables[0]`. -/
  hash2 : SwTableHash2
  /-- `tables[1]`. -/
  linear : SwTableLinear
  /-- The emergency table. -/
  emergTable : SwTableLinear

/-- `chain_create`. -/
def chainCreate (sizes : TableSizes) : SwChain where
  hash2 := tableHash2Create 0x1EDC6F41 sizes.hashBits 0x741B8CD7 sizes.hashBits
  linear := tableLinearCreate sizes.linearMaxFlows
  emergTable := tableLinearCreate sizes.linearMaxFlows

namespace SwChain

variable (ch : SwChain)

/-- The entries of the working tables, table by table. -/
def workingFlows : List SwFlow := ch.hash2.flows ++ ch.linear.flows

/-- `chain_lookup`. -/
def lookup (key : SwFlowKey) (emerg : Bool) : Option SwFlow :=
  if emerg then ch.emergTable.lookup key else (ch.hash2.lookup key).or (ch.linear.lookup key)

/-- The chain after `g` has been applied to the entry that a lookup in the working tables points
to. -/
def updateLookup (key : SwFlowKey) (g : SwFlow → SwFlow) : SwChain :=
  match ch.hash2.lookup key with
  | some _ => { ch with hash2 := ch.hash2.updateLookup key g }
  | none => { ch with linear := ch.linear.updateLookup key g }

/-- `chain_insert`: the chain with the flow, or `none` for `-ENOBUFS`. -/
def insert (flow : SwFlow) (emerg : Bool) : Option SwChain :=
  if emerg then (ch.emergTable.insert flow).map fun tl => { ch with emergTable := tl }
  else
    match ch.hash2.insert flow with
    | some t2 => some { ch with hash2 := t2 }
    | none => (ch.linear.insert flow).map fun tl => { ch with linear := tl }

/-- `chain_modify`: the chain and the number of modified entries. -/
def modify (key : SwFlowKey) (priority : BitVec 16) (strict : Bool) (actions : List Byte)
    (emerg : Bool) : SwChain × ℕ :=
  if emerg then
    let m := ch.emergTable.modify key priority strict actions
    ({ ch with emergTable := m.1 }, m.2)
  else
    let m0 := ch.hash2.modify key priority strict actions
    let m1 := ch.linear.modify key priority strict actions
    ({ ch with hash2 := m0.1, linear := m1.1 }, m0.2 + m1.2)

/-- `chain_has_conflict`. -/
def hasConflict (key : SwFlowKey) (priority : BitVec 16) (strict : Bool) : Bool :=
  ch.hash2.hasConflict key priority strict || ch.linear.hasConflict key priority strict

/-- `chain_delete`: the chain and the deleted entries. -/
def delete (key : SwFlowKey) (outPort priority : BitVec 16) (strict emerg : Bool) :
    SwChain × List SwFlow :=
  if emerg then
    let d := ch.emergTable.delete key outPort priority strict
    ({ ch with emergTable := d.1 }, d.2)
  else
    let d0 := ch.hash2.delete key outPort strict
    let d1 := ch.linear.delete key outPort priority strict
    ({ ch with hash2 := d0.1, linear := d1.1 }, d0.2 ++ d1.2)

/-- `chain_timeout`: the chain and the expired entries with their reasons. -/
def timeout (now : BitVec 64) : SwChain × List (SwFlow × OfpFlowRemovedReason) :=
  let d0 := ch.hash2.timeout now
  let d1 := ch.linear.timeout now
  ({ ch with hash2 := d0.1, linear := d1.1 }, d0.2 ++ d1.2)

/-! ### Valid chains -/

/-- Every table of the chain is valid. -/
structure Valid : Prop where
  /-- `subtable[0]` of the double-hashing table. -/
  subtable0 : ch.hash2.subtable0.Valid
  /-- `subtable[1]` of the double-hashing table. -/
  subtable1 : ch.hash2.subtable1.Valid
  /-- The linear table. -/
  linear : ch.linear.Valid
  /-- The emergency table. -/
  emergTable : ch.emergTable.Valid

/-- The chain with the entries of each table filtered. -/
def filterTables (p0 p1 p2 p3 : SwFlow → Bool) : SwChain where
  hash2 := ⟨ch.hash2.subtable0.filterBuckets p0, ch.hash2.subtable1.filterBuckets p1⟩
  linear := ch.linear.filterFlows p2
  emergTable := ch.emergTable.filterFlows p3

/-- The chain with the entries of each table rewritten. -/
def mapTables (g0 g1 g2 g3 : SwFlow → SwFlow) : SwChain where
  hash2 := ⟨ch.hash2.subtable0.mapBuckets g0, ch.hash2.subtable1.mapBuckets g1⟩
  linear := ch.linear.mapFlows g2
  emergTable := ch.emergTable.mapFlows g3

/-- Rewriting an entry in place keeps its key, its priority and its serial number. -/
structure Rewrites (g : SwFlow → SwFlow) : Prop where
  /-- The key is kept. -/
  key : ∀ f, (g f).key = f.key
  /-- The priority is kept. -/
  priority : ∀ f, (g f).priority = f.priority
  /-- The serial number is kept. -/
  serial : ∀ f, (g f).serial = f.serial

/-- What one call of a chain function can do to the tables. -/
inductive Change : SwChain → SwChain → Prop
  | filter {ch : SwChain} (p0 p1 p2 p3 : SwFlow → Bool) : Change ch (ch.filterTables p0 p1 p2 p3)
  | map {ch : SwChain} {g0 g1 g2 g3 : SwFlow → SwFlow} :
      Rewrites g0 → Rewrites g1 → Rewrites g2 → Rewrites g3 → Change ch (ch.mapTables g0 g1 g2 g3)
  | insert {ch ch' : SwChain} {flow : SwFlow} {emerg : Bool} :
      flow.WellFormed → ch.insert flow emerg = some ch' → Change ch ch'

variable {ch} {ch' : SwChain}

theorem valid_create (sizes : TableSizes) : (chainCreate sizes).Valid :=
  ⟨SwTableHash.valid_create _ _, SwTableHash.valid_create _ _, SwTableLinear.valid_create _,
    SwTableLinear.valid_create _⟩

theorem rewrites_id : Rewrites fun f => f := ⟨fun _ => rfl, fun _ => rfl, fun _ => rfl⟩

/-- Rewriting some of the entries is rewriting. -/
theorem Rewrites.ite {g : SwFlow → SwFlow} (hg : Rewrites g) (p : SwFlow → Bool) :
    Rewrites fun f => if p f then g f else f := by
  constructor <;> intro f <;> split
  · exact hg.key f
  · rfl
  · exact hg.priority f
  · rfl
  · exact hg.serial f
  · rfl

/-- Rewriting entries or leaving them alone is rewriting. -/
theorem Rewrites.of_either {g g' : SwFlow → SwFlow} (hg : Rewrites g)
    (h : ∀ f, g' f = f ∨ g' f = g f) : Rewrites g' := by
  constructor <;> intro f <;> rcases h f with heq | heq <;> rw [heq]
  · exact hg.key f
  · exact hg.priority f
  · exact hg.serial f

theorem rewrites_replaceActs (actions : List Byte) :
    Rewrites fun f => f.replaceActs actions :=
  ⟨fun _ => rfl, fun _ => rfl, fun _ => rfl⟩

theorem rewrites_flowUsed (now : BitVec 64) (size : ℕ) : Rewrites (SwFlow.flowUsed now size) :=
  ⟨fun _ => rfl, fun _ => rfl, fun _ => rfl⟩

/-- Where a flow has been put. -/
theorem insert_eq_some {flow : SwFlow} (h : ch.insert flow false = some ch') :
    (∃ th, ch.hash2.subtable0.insert flow = some th ∧
        ch' = { ch with hash2 := { ch.hash2 with subtable0 := th } }) ∨
      (∃ th, ch.hash2.subtable0.insert flow = none ∧
        ch.hash2.subtable1.insert flow = some th ∧
        ch' = { ch with hash2 := { ch.hash2 with subtable1 := th } }) ∨
      ∃ tl, ch.hash2.subtable0.insert flow = none ∧ ch.hash2.subtable1.insert flow = none ∧
        ch.linear.insert flow = some tl ∧ ch' = { ch with linear := tl } := by
  unfold SwChain.insert SwTableHash2.insert at h
  cases h0 : ch.hash2.subtable0.insert flow with
  | some th => exact .inl ⟨th, rfl, by simpa [h0] using h.symm⟩
  | none =>
    cases h1 : ch.hash2.subtable1.insert flow with
    | some th => exact .inr (.inl ⟨th, rfl, rfl, by simpa [h0, h1] using h.symm⟩)
    | none =>
      simp only [h0, h1, Bool.false_eq_true, if_false, Option.map_none,
        Option.map_eq_some_iff] at h
      obtain ⟨tl, htl, rfl⟩ := h
      exact .inr (.inr ⟨tl, rfl, rfl, htl, rfl⟩)

/-- Where an emergency flow has been put. -/
theorem insert_emerg_eq_some {flow : SwFlow} (h : ch.insert flow true = some ch') :
    ∃ tl, ch.emergTable.insert flow = some tl ∧ ch' = { ch with emergTable := tl } := by
  simp only [SwChain.insert, if_true, Option.map_eq_some_iff] at h
  obtain ⟨tl, htl, rfl⟩ := h
  exact ⟨tl, htl, rfl⟩

/-- Every change keeps a chain valid. -/
theorem Valid.change (h : ch.Valid) (hc : Change ch ch') : ch'.Valid := by
  cases hc with
  | filter p0 p1 p2 p3 =>
    exact ⟨h.subtable0.filterBuckets p0, h.subtable1.filterBuckets p1, h.linear.filterFlows p2,
      h.emergTable.filterFlows p3⟩
  | map h0 h1 h2 h3 =>
    exact ⟨h.subtable0.mapBuckets h0.key h0.priority, h.subtable1.mapBuckets h1.key h1.priority,
      h.linear.mapFlows_of_key_eq h2.key h2.priority h2.serial,
      h.emergTable.mapFlows_of_key_eq h3.key h3.priority h3.serial⟩
  | insert hwf hins =>
    rename_i flow emerg
    cases emerg with
    | true =>
      obtain ⟨tl, htl, rfl⟩ := insert_emerg_eq_some hins
      exact { h with emergTable := h.emergTable.insert hwf htl }
    | false =>
      rcases insert_eq_some hins with ⟨th, h0, rfl⟩ | ⟨th, -, h1, rfl⟩ | ⟨tl, -, -, h2, rfl⟩
      · exact { h with subtable0 := h.subtable0.insert hwf h0 }
      · exact { h with subtable1 := h.subtable1.insert hwf h1 }
      · exact { h with linear := h.linear.insert hwf h2 }

theorem Valid.changes (h : ch.Valid) (hc : Relation.ReflTransGen Change ch ch') : ch'.Valid := by
  induction hc with
  | refl => exact h
  | tail _ hstep ih => exact ih.change hstep

/-- Every entry of the double-hashing table is well formed and has no wildcards. -/
theorem Valid.hash2_exact (h : ch.Valid) {f : SwFlow} (hf : f ∈ ch.hash2.flows) :
    f.WellFormed ∧ f.key.wildcards = 0 := by
  rcases List.mem_append.1 hf with hf | hf
  · have hb := h.subtable0.mem_flows.1 hf
    exact ⟨h.subtable0.wellFormed hb, h.subtable0.exact hb⟩
  · have hb := h.subtable1.mem_flows.1 hf
    exact ⟨h.subtable1.wellFormed hb, h.subtable1.exact hb⟩

/-- Every entry of the working tables is well formed. -/
theorem Valid.wellFormed (h : ch.Valid) {f : SwFlow} (hf : f ∈ ch.workingFlows) : f.WellFormed := by
  rcases List.mem_append.1 hf with hf | hf
  · exact (h.hash2_exact hf).1
  · exact h.linear.wellFormed f hf

/-- A chain that has taken a flow holds it, under some serial number, and otherwise only what it
held. -/
theorem Valid.mem_workingFlows_insert (h : ch.Valid) {flow : SwFlow} (hwf : flow.WellFormed)
    (hins : ch.insert flow false = some ch') {f : SwFlow} (hf : f ∈ ch'.workingFlows) :
    (∃ serial, f = { flow with serial }) ∨ f ∈ ch.workingFlows := by
  rcases insert_eq_some hins with ⟨th, h0, rfl⟩ | ⟨th, -, h1, rfl⟩ | ⟨tl, -, -, h2, rfl⟩
  · rcases List.mem_append.1 hf with hf | hf
    · rcases List.mem_append.1 hf with hf | hf
      · rcases h.subtable0.mem_flows_insert hwf h0 hf with rfl | ⟨hf, -⟩
        · exact .inl ⟨f.serial, rfl⟩
        · exact .inr (List.mem_append_left _ (List.mem_append_left _ hf))
      · exact .inr (List.mem_append_left _ (List.mem_append_right _ hf))
    · exact .inr (List.mem_append_right _ hf)
  · rcases List.mem_append.1 hf with hf | hf
    · rcases List.mem_append.1 hf with hf | hf
      · exact .inr (List.mem_append_left _ (List.mem_append_left _ hf))
      · rcases h.subtable1.mem_flows_insert hwf h1 hf with rfl | ⟨hf, -⟩
        · exact .inl ⟨f.serial, rfl⟩
        · exact .inr (List.mem_append_left _ (List.mem_append_right _ hf))
    · exact .inr (List.mem_append_right _ hf)
  · rcases List.mem_append.1 hf with hf | hf
    · exact .inr (List.mem_append_left _ hf)
    · rcases h.linear.mem_flows_insert hwf h2 hf with hnew | ⟨hf, -⟩
      · exact .inl hnew
      · exact .inr (List.mem_append_right _ hf)

theorem filterFlows_true (tl : SwTableLinear) : tl.filterFlows (fun _ => true) = tl := by
  simp [SwTableLinear.filterFlows]

theorem filterBuckets_true (th : SwTableHash) : th.filterBuckets (fun _ => true) = th := by
  unfold SwTableHash.filterBuckets
  congr 1
  funext i
  cases th.buckets i <;> rfl

theorem mapFlows_id (tl : SwTableLinear) : tl.mapFlows (fun f => f) = tl := by
  simp [SwTableLinear.mapFlows]

theorem mapBuckets_id (th : SwTableHash) : th.mapBuckets (fun f => f) = th := by
  simp [SwTableHash.mapBuckets]

theorem workingFlows_filterTables (p p3 : SwFlow → Bool) :
    (ch.filterTables p p p p3).workingFlows = ch.workingFlows.filter p := by
  simp [workingFlows, filterTables, SwTableHash2.flows, SwTableLinear.filterFlows]

theorem workingFlows_mapTables (g g3 : SwFlow → SwFlow) :
    (ch.mapTables g g g g3).workingFlows = ch.workingFlows.map g := by
  simp [workingFlows, mapTables, SwTableHash2.flows, SwTableLinear.mapFlows]

/-- `chain_modify` rewrites, in a valid chain, the entries that the description selects. -/
theorem Valid.modify_eq (h : ch.Valid) {key : SwFlowKey} (hkey : key.Normal)
    (priority : BitVec 16) (strict : Bool) (actions : List Byte) :
    ch.modify key priority strict actions false =
      (let g := fun f : SwFlow =>
        if f.modifiedBy key priority strict then f.replaceActs actions else f
      ch.mapTables g g g fun f => f,
      (ch.workingFlows.filter (SwFlow.modifiedBy key priority strict)).length) := by
  simp only [SwChain.modify, SwTableHash2.modify, h.subtable0.modify_eq hkey,
    h.subtable1.modify_eq hkey, SwTableLinear.modify, mapTables, mapFlows_id, workingFlows,
    SwTableHash2.flows, List.filter_append, List.length_append, Bool.false_eq_true, if_false]

/-- The priority of a description says nothing about entries without wildcards: without
wildcards, the description has the highest priority as well. -/
def PriorityOfExact (key : SwFlowKey) (priority : BitVec 16) (strict : Bool) : Prop :=
  strict = true → key.wildcards = 0 → priority = -1

/-- In a valid hash table, ignoring the priority in a deletion makes no difference. -/
theorem deletes_eq_of_hash {th : SwTableHash} (h : th.Valid) {key : SwFlowKey}
    {outPort priority : BitVec 16} {strict : Bool} (hp : PriorityOfExact key priority strict)
    {i : ℕ} {f : SwFlow} (hf : th.buckets i = some f) :
    (flowMatchesDesc f.key key strict && f.flowHasOutPort outPort) =
      SwTableLinear.deletes key outPort priority strict f := by
  rw [SwTableLinear.deletes]
  cases hs : strict with
  | false => simp
  | true =>
    cases hw : key.wildcards == f.key.wildcards with
    | false => simp [flowMatchesDesc, bne, hw]
    | true =>
      rw [beq_iff_eq, h.exact hf] at hw
      rw [(h.wellFormed hf).priority_of_exact (h.exact hf), hp hs hw]
      simp

/-- `chain_delete` removes, from a valid chain, the entries that the description selects. -/
theorem Valid.delete_eq (h : ch.Valid) {key : SwFlowKey} (hkey : key.Normal)
    (outPort : BitVec 16) {priority : BitVec 16} {strict : Bool}
    (hp : PriorityOfExact key priority strict) :
    ch.delete key outPort priority strict false =
      (let p := fun f => !SwTableLinear.deletes key outPort priority strict f
      ch.filterTables p p p fun _ => true,
      ch.workingFlows.filter (SwTableLinear.deletes key outPort priority strict)) := by
  -- a hash table does not look at priorities, which are those of exact entries
  have hfilter : ∀ {th : SwTableHash}, th.Valid →
      th.filterBuckets (fun flow =>
        !(flowMatchesDesc flow.key key strict && flow.flowHasOutPort outPort)) =
        th.filterBuckets fun flow =>
          !SwTableLinear.deletes key outPort priority strict flow := by
    intro th hth
    unfold SwTableHash.filterBuckets
    congr 1
    funext i
    cases hi : th.buckets i with
    | none => rfl
    | some f => rw [Option.filter_some, Option.filter_some, deletes_eq_of_hash hth hp hi]
  have hlist : ∀ {th : SwTableHash}, th.Valid →
      (th.flows.filter fun flow =>
        flowMatchesDesc flow.key key strict && flow.flowHasOutPort outPort) =
        th.flows.filter (SwTableLinear.deletes key outPort priority strict) := by
    intro th hth
    exact List.filter_congr fun f hf => deletes_eq_of_hash hth hp (hth.mem_flows.1 hf)
  simp only [SwChain.delete, SwTableHash2.delete, h.subtable0.delete_eq hkey,
    h.subtable1.delete_eq hkey, hfilter h.subtable0, hfilter h.subtable1, hlist h.subtable0,
    hlist h.subtable1, SwTableLinear.delete, filterTables, filterFlows_true, workingFlows,
    SwTableHash2.flows, List.filter_append, Bool.false_eq_true, if_false]

/-- `chain_modify` is a change. -/
theorem Valid.change_modify (h : ch.Valid) {key : SwFlowKey} (hkey : key.Normal)
    (priority : BitVec 16) (strict : Bool) (actions : List Byte) (emerg : Bool) :
    Change ch (ch.modify key priority strict actions emerg).1 := by
  have hg := (rewrites_replaceActs actions).ite (SwFlow.modifiedBy key priority strict)
  cases emerg with
  | true =>
    have : Change ch (ch.mapTables _ _ _ _) := .map rewrites_id rewrites_id rewrites_id hg
    simp only [mapTables, mapBuckets_id, mapFlows_id] at this
    exact this
  | false =>
    rw [h.modify_eq hkey]
    exact .map hg hg hg rewrites_id

/-- `chain_delete` is a change. -/
theorem Valid.change_delete (h : ch.Valid) {key : SwFlowKey} (hkey : key.Normal)
    (outPort : BitVec 16) {priority : BitVec 16} {strict : Bool}
    (hp : PriorityOfExact key priority strict) (emerg : Bool) :
    Change ch (ch.delete key outPort priority strict emerg).1 := by
  cases emerg with
  | true =>
    have : Change ch (ch.filterTables _ _ _ _) :=
      .filter (fun _ => true) (fun _ => true) (fun _ => true)
        fun f => !SwTableLinear.deletes key outPort priority strict f
    simp only [filterTables, filterBuckets_true, filterFlows_true] at this
    exact this
  | false =>
    rw [h.delete_eq hkey outPort hp]
    exact .filter _ _ _ _

/-- `chain_timeout` removes the expired entries of the working tables. -/
theorem timeout_fst (now : BitVec 64) :
    (ch.timeout now).1 =
      (let p := fun f : SwFlow => (f.flowTimeout now).isNone
      ch.filterTables p p p fun _ => true) := by
  simp only [SwChain.timeout, SwTableHash2.timeout, SwTableHash.timeout, SwTableLinear.timeout,
    filterTables, filterFlows_true]

/-- Changing the entry that a lookup points to changes some entries of each table. -/
theorem Valid.updateLookup_either (h : ch.Valid) (key : SwFlowKey) (g : SwFlow → SwFlow) :
    ∃ g0 g1 g2, (∀ f, g0 f = f ∨ g0 f = g f) ∧ (∀ f, g1 f = f ∨ g1 f = g f) ∧
      (∀ f, g2 f = f ∨ g2 f = g f) ∧ ch.updateLookup key g = ch.mapTables g0 g1 g2 fun f => f := by
  have hid : ∀ f : SwFlow, f = f ∨ f = g f := fun f => .inl rfl
  have hite : ∀ (p : SwFlow → Bool) (f : SwFlow),
      (if p f then g f else f) = f ∨ (if p f then g f else f) = g f := by
    intro p f
    split
    · exact .inr rfl
    · exact .inl rfl
  have hexact := hite fun f => f.key.flow == key.flow
  unfold SwChain.updateLookup SwTableHash2.updateLookup SwTableHash2.lookup
  -- the first table that has the entry is the one that changes
  cases h0 : ch.hash2.subtable0.lookup key with
  | some f =>
    refine ⟨_, _, _, hexact, hid, hid, ?_⟩
    simp only [mapTables, mapBuckets_id, mapFlows_id, h.subtable0.updateLookup_eq, Option.some_or]
  | none =>
    cases h1 : ch.hash2.subtable1.lookup key with
    | some f =>
      refine ⟨_, _, _, hid, hexact, hid, ?_⟩
      simp only [mapTables, mapBuckets_id, mapFlows_id, h.subtable1.updateLookup_eq,
        Option.none_or]
    | none =>
      simp only [Option.none_or]
      unfold SwTableLinear.updateLookup
      cases h2 : ch.linear.lookup key with
      | some f =>
        refine ⟨_, _, _, hid, hid, hite fun a => decide (a.serial = f.serial), ?_⟩
        simp only [mapTables, mapBuckets_id, mapFlows_id, decide_eq_true_eq]
        rfl
      | none =>
        refine ⟨_, _, _, hid, hid, hid, ?_⟩
        simp only [mapTables, mapBuckets_id, mapFlows_id]

/-- Changing the entry that a lookup points to rewrites one entry of one table. -/
theorem Valid.updateLookup_eq (h : ch.Valid) (key : SwFlowKey) {g : SwFlow → SwFlow}
    (hg : Rewrites g) : ∃ g0 g1 g2, Rewrites g0 ∧ Rewrites g1 ∧ Rewrites g2 ∧
      ch.updateLookup key g = ch.mapTables g0 g1 g2 fun f => f := by
  obtain ⟨g0, g1, g2, h0, h1, h2, heq⟩ := h.updateLookup_either key g
  exact ⟨g0, g1, g2, hg.of_either h0, hg.of_either h1, hg.of_either h2, heq⟩

/-- Changing the entry that a lookup points to is a change. -/
theorem Valid.change_updateLookup (h : ch.Valid) (key : SwFlowKey) {g : SwFlow → SwFlow}
    (hg : Rewrites g) : Change ch (ch.updateLookup key g) := by
  obtain ⟨g0, g1, g2, h0, h1, h2, heq⟩ := h.updateLookup_eq key hg
  exact heq ▸ .map h0 h1 h2 rewrites_id

end SwChain

end OfAgent
