import Mathlib.Data.List.Nodup
import OfAgent.Table.Hash

/-!
# The buckets and the counter of a hash table

A hash table together with `n_flows`, over whole runs of its operations, with any polynomial and any
number of buckets.

* `HashEvent`, `CountedHash.step`: an operation on the table. `CountedHash.after`: the table behind
  operations on a new one.
* `SwTableHash.Placed`: every entry is without wildcards and in the bucket of its key. No more is
  asked of the entries, which need not have come from a flow modification.
* `SwTableHash.occupied`: the number of taken buckets. `CountedHash.Sound`: the counter is this
  number.
* `CountedHash.hash_sound`: all of it behind any operations, and what a lookup finds there.
-/

namespace OfAgent

/-- In a list without duplicates the count moves with the one place that changes. -/
theorem countP_of_eq_off {l : List ℕ} (hl : l.Nodup) {i : ℕ} (hi : i ∈ l) {p q : ℕ → Bool}
    (hpq : ∀ j, j ≠ i → p j = q j) :
    l.countP q + (if p i then 1 else 0) = l.countP p + if q i then 1 else 0 := by
  have hperm := List.perm_cons_erase hi
  have hrest : (l.erase i).countP q = (l.erase i).countP p := by
    refine List.countP_congr fun j hj => ?_
    rw [hpq j fun heq => hl.not_mem_erase (heq ▸ hj)]
  rw [hperm.countP_eq q, hperm.countP_eq p, List.countP_cons, List.countP_cons, hrest]
  omega

namespace SwTableHash

variable {th : SwTableHash}

/-! ### Where the entries are -/

/-- Every entry is without wildcards and in the bucket of its key. -/
structure Placed (th : SwTableHash) : Prop where
  /-- An entry has no wildcards. -/
  exact : ∀ {i : ℕ} {flow : SwFlow}, th.buckets i = some flow → flow.key.wildcards = 0
  /-- An entry is in the bucket of its key. -/
  findBucket_eq : ∀ {i : ℕ} {flow : SwFlow}, th.buckets i = some flow →
    th.findBucket flow.key.flow = i

namespace Placed

theorem create (polynomial : BitVec 32) (k : Fin 32) : (tableHashCreate polynomial k).Placed := by
  constructor <;> intro i flow h <;> cases h

/-- Freeing a bucket keeps the entries in place. -/
theorem clear (h : th.Placed) (i : ℕ) : (th.setBucket i none).Placed := by
  have hsub : ∀ {j flow}, (th.setBucket i none).buckets j = some flow →
    th.buckets j = some flow := by
    intro j flow hj
    rw [setBucket_buckets] at hj
    split at hj
    next => cases hj
    next => exact hj
  exact ⟨fun hj => h.exact (hsub hj), fun hj => h.findBucket_eq (hsub hj)⟩

/-- Writing an entry without wildcards into the bucket of its key keeps the entries in place. -/
theorem place (h : th.Placed) {flow : SwFlow} (hw : flow.key.wildcards = 0) {i : ℕ}
    (hi : th.findBucket flow.key.flow = i) : (th.setBucket i (some flow)).Placed := by
  have hsub : ∀ {j f}, (th.setBucket i (some flow)).buckets j = some f →
      (j = i ∧ f = flow) ∨ th.buckets j = some f := by
    intro j f hj
    rw [setBucket_buckets] at hj
    split at hj
    next heq => exact .inl ⟨heq, (Option.some.inj hj).symm⟩
    next => exact .inr hj
  constructor <;> intro j f hj <;> rcases hsub hj with ⟨rfl, rfl⟩ | hj'
  · exact hw
  · exact h.exact hj'
  · exact hi
  · exact h.findBucket_eq hj'

theorem filterBuckets (h : th.Placed) (p : SwFlow → Bool) : (th.filterBuckets p).Placed := by
  have hsub : ∀ {i flow}, (th.filterBuckets p).buckets i = some flow → th.buckets i = some flow :=
    fun hi => (Option.filter_eq_some_iff.1 hi).1
  exact ⟨fun hi => h.exact (hsub hi), fun hi => h.findBucket_eq (hsub hi)⟩

/-- Changing entries without changing their keys keeps them in place. -/
theorem mapBuckets (h : th.Placed) {g : SwFlow → SwFlow} (hg : ∀ flow, (g flow).key = flow.key) :
    (th.mapBuckets g).Placed := by
  constructor <;> intro i flow hi <;> obtain ⟨f, hf, rfl⟩ := Option.map_eq_some_iff.1 hi
  · rw [hg]
    exact h.exact hf
  · rw [hg]
    exact h.findBucket_eq hf

/-- An entry is stored where its key says. -/
theorem mem_flows (h : th.Placed) {flow : SwFlow} :
    flow ∈ th.flows ↔ th.buckets (th.findBucket flow.key.flow) = some flow := by
  rw [flows, List.mem_filterMap]
  constructor
  · rintro ⟨i, -, hi⟩
    rw [h.findBucket_eq hi, hi]
  · intro hf
    exact ⟨_, List.mem_range.2 (Nat.lt_succ_of_le (findBucket_le _)), hf⟩

/-- A lookup finds the stored entry with the key, and nothing else. -/
theorem lookup_eq_some_iff (h : th.Placed) {key : SwFlowKey} {flow : SwFlow} :
    th.lookup key = some flow ↔ flow ∈ th.flows ∧ flow.key.flow = key.flow := by
  rw [lookup, Option.filter_eq_some_iff, h.mem_flows, beq_iff_eq]
  constructor
  · rintro ⟨hb, hk⟩
    exact ⟨hk ▸ hb, hk⟩
  · rintro ⟨hb, hk⟩
    exact ⟨hk ▸ hb, hk⟩

end Placed

/-! ### The taken buckets -/

/-- The number of taken buckets. -/
def occupied (th : SwTableHash) : ℕ :=
  (List.range (th.bucketMask + 1)).countP fun i => (th.buckets i).isSome

theorem length_flows (th : SwTableHash) : th.flows.length = th.occupied :=
  List.length_filterMap_eq_countP

/-- The number of taken buckets fits the counter. -/
theorem occupied_lt (th : SwTableHash) : th.occupied < 2 ^ 32 := by
  have hle : th.occupied ≤ (List.range (th.bucketMask + 1)).length := List.countP_le_length
  have hmask := th.bucketMask_lt
  rw [List.length_range] at hle
  omega

/-- Writing a bucket moves the number by what is in the bucket. -/
theorem occupied_setBucket {i : ℕ} (hi : i ≤ th.bucketMask) (o : Option SwFlow) :
    (th.setBucket i o).occupied + (if (th.buckets i).isSome then 1 else 0) =
      th.occupied + if o.isSome then 1 else 0 := by
  have hcount := countP_of_eq_off (List.nodup_range (n := th.bucketMask + 1))
    (List.mem_range.2 (Nat.lt_succ_of_le hi)) (p := fun j => (th.buckets j).isSome)
    (q := fun j => ((th.setBucket i o).buckets j).isSome) fun j hj => by
      rw [setBucket_buckets, if_neg hj]
  rwa [setBucket_buckets, if_pos rfl] at hcount

theorem occupied_mapBuckets (th : SwTableHash) (g : SwFlow → SwFlow) :
    (th.mapBuckets g).occupied = th.occupied := by
  unfold occupied SwTableHash.mapBuckets
  simp only [Option.isSome_map]

/-- Removing entries frees their buckets. -/
theorem occupied_filterBuckets (th : SwTableHash) (p : SwFlow → Bool) :
    (th.filterBuckets p).occupied + (th.flows.filter fun flow => !p flow).length = th.occupied := by
  have hflows : (th.filterBuckets p).flows = th.flows.filter p := (List.filter_filterMap ..).symm
  rw [← length_flows, ← length_flows, hflows]
  exact (List.length_eq_length_filter_add p).symm

/-- Changing the entry in a bucket without changing its key keeps the entries in place and takes and
frees no bucket. -/
theorem Placed.replace (h : th.Placed) {key : Flow} {flow flow' : SwFlow}
    (hb : th.buckets (th.findBucket key) = some flow) (hkey : flow'.key = flow.key) :
    (th.setBucket (th.findBucket key) (some flow')).Placed ∧
      (th.setBucket (th.findBucket key) (some flow')).occupied = th.occupied := by
  have hset := occupied_setBucket (th.findBucket_le key) (some flow')
  rw [hb] at hset
  refine ⟨h.place ?_ ?_, Nat.add_right_cancel hset⟩
  · rw [hkey]
    exact h.exact hb
  · rw [hkey]
    exact h.findBucket_eq hb

end SwTableHash

/-! ### The counter -/

/-- An operation on a hash table. The others, `table_hash_has_conflict` and `table_hash_iterate`,
read only. -/
inductive HashEvent
  /-- `table_hash_insert`. -/
  | insert (flow : SwFlow)
  /-- `table_hash_modify`. -/
  | modify (key : SwFlowKey) (priority : BitVec 16) (strict : Bool) (actions : List Byte)
  /-- `table_hash_delete`. -/
  | delete (key : SwFlowKey) (outPort : BitVec 16) (strict : Bool)
  /-- `table_hash_timeout`. -/
  | timeout (now : BitVec 64)
  /-- `table_hash_lookup`, and `flow_used` on what it finds. -/
  | lookup (key : SwFlowKey) (now : BitVec 64) (size : ℕ)

/-- A hash table with its counter. -/
structure CountedHash where
  /-- The buckets. -/
  table : SwTableHash
  /-- `n_flows`. -/
  nFlows : BitVec 32

namespace CountedHash

/-- `table_hash_create` with `2 ^ k` buckets. -/
def create (polynomial : BitVec 32) (k : Fin 32) : CountedHash where
  table := tableHashCreate polynomial k
  nFlows := 0

/-- `table_hash_insert`: only a flow that takes a free bucket counts. -/
def insert (ct : CountedHash) (flow : SwFlow) : Option CountedHash :=
  (ct.table.insert flow).map fun table =>
    { table
      nFlows := if (ct.table.buckets (ct.table.findBucket flow.key.flow)).isSome then ct.nFlows
        else ct.nFlows + 1 }

/-- `table_hash_delete`. -/
def delete (ct : CountedHash) (key : SwFlowKey) (outPort : BitVec 16) (strict : Bool) :
    CountedHash where
  table := (ct.table.delete key outPort strict).1
  nFlows := ct.nFlows - BitVec.ofNat 32 (ct.table.delete key outPort strict).2.length

/-- `table_hash_timeout`. -/
def timeout (ct : CountedHash) (now : BitVec 64) : CountedHash where
  table := (ct.table.timeout now).1
  nFlows := ct.nFlows - BitVec.ofNat 32 (ct.table.timeout now).2.length

/-- The table behind an operation. A flow that is not taken leaves it alone. -/
def step (ct : CountedHash) : HashEvent → CountedHash
  | .insert flow => (ct.insert flow).getD ct
  | .modify key priority strict actions =>
      { ct with table := (ct.table.modify key priority strict actions).1 }
  | .delete key outPort strict => ct.delete key outPort strict
  | .timeout now => ct.timeout now
  | .lookup key now size =>
    { ct with table := ct.table.updateLookup key (SwFlow.flowUsed now size) }

/-- The table behind operations on a new one. -/
def after (polynomial : BitVec 32) (k : Fin 32) (events : List HashEvent) : CountedHash :=
  events.foldl step (create polynomial k)

/-- The entries are in their places, and the counter is the number of taken buckets. -/
structure Sound (ct : CountedHash) : Prop where
  /-- The entries are in their places. -/
  placed : ct.table.Placed
  /-- The counter is the number of taken buckets. -/
  nFlows_eq : ct.nFlows.toNat = ct.table.occupied

variable {ct : CountedHash}

/-- The counter follows when buckets become free. -/
theorem toNat_sub_ofNat {n : BitVec 32} {removed rest : ℕ} (h : rest + removed = n.toNat) :
    (n - BitVec.ofNat 32 removed).toNat = rest := by
  have hlt := n.isLt
  rw [BitVec.toNat_sub, BitVec.toNat_ofNat]
  omega

namespace Sound

/-- `table_hash_insert` keeps a table sound. -/
theorem insert (h : ct.Sound) {flow : SwFlow} {ct' : CountedHash}
    (hins : ct.insert flow = some ct') :
    ct'.Sound := by
  obtain ⟨th', hth, rfl⟩ := Option.map_eq_some_iff.1 hins
  obtain ⟨hw, rfl, -⟩ := SwTableHash.insert_eq_some hth
  refine ⟨h.placed.place hw rfl, ?_⟩
  have hnew := SwTableHash.occupied_setBucket (ct.table.findBucket_le flow.key.flow) (some flow)
  have hold := h.nFlows_eq
  change BitVec.toNat
      (if (ct.table.buckets (ct.table.findBucket flow.key.flow)).isSome then _ else _) =
    SwTableHash.occupied (ct.table.setBucket _ _)
  rw [Option.isSome_some, if_pos rfl] at hnew
  split at hnew
  next htaken =>
    rw [if_pos htaken]
    omega
  next hfree =>
    -- one more bucket is taken, and there are fewer than the counter can count
    have hlt := (ct.table.setBucket (ct.table.findBucket flow.key.flow) (some flow)).occupied_lt
    rw [if_neg hfree, BitVec.toNat_add, hold]
    change (_ + 1) % _ = _
    omega

/-- Another table with the entries in their places and as many of them
goes with the same counter. -/
theorem congr (h : ct.Sound) {th : SwTableHash}
    (hth : th.Placed ∧ th.occupied = ct.table.occupied) :
    Sound { ct with table := th } :=
  ⟨hth.1, h.nFlows_eq.trans hth.2.symm⟩

/-- `table_hash_modify` keeps a table sound. -/
theorem modify (h : ct.Sound) (key : SwFlowKey) (priority : BitVec 16) (strict : Bool)
    (actions : List Byte) :
    Sound { ct with table := (ct.table.modify key priority strict actions).1 } := by
  apply h.congr
  unfold SwTableHash.modify
  split
  next =>
    dsimp only
    split
    next flow hb =>
      split
      next => exact h.placed.replace hb (flow.replaceActs_key actions)
      next => exact ⟨h.placed, rfl⟩
    next => exact ⟨h.placed, rfl⟩
  next =>
    refine ⟨h.placed.mapBuckets fun flow => ?_, SwTableHash.occupied_mapBuckets _ _⟩
    split <;> rfl

/-- `table_hash_delete` keeps a table sound. -/
theorem delete (h : ct.Sound) (key : SwFlowKey) (outPort : BitVec 16) (strict : Bool) :
    (ct.delete key outPort strict).Sound := by
  have hsplit : (ct.table.delete key outPort strict).1.Placed ∧
      (ct.table.delete key outPort strict).1.occupied +
        (ct.table.delete key outPort strict).2.length =
        ct.table.occupied := by
    unfold SwTableHash.delete
    split
    next =>
      dsimp only
      split
      next flow hb =>
        split
        next =>
          have hset := SwTableHash.occupied_setBucket (ct.table.findBucket_le key.flow) none
          rw [hb] at hset
          exact ⟨h.placed.clear _, hset⟩
        next => exact ⟨h.placed, rfl⟩
      next => exact ⟨h.placed, rfl⟩
    next =>
      refine ⟨h.placed.filterBuckets _, ?_⟩
      have hfilter := ct.table.occupied_filterBuckets
        fun flow => !(flowMatchesDesc flow.key key strict && flow.flowHasOutPort outPort)
      simpa only [Bool.not_not] using hfilter
  exact ⟨hsplit.1, toNat_sub_ofNat (hsplit.2.trans h.nFlows_eq.symm)⟩

/-- `table_hash_timeout` keeps a table sound. -/
theorem timeout (h : ct.Sound) (now : BitVec 64) : (ct.timeout now).Sound := by
  have hfilter := ct.table.occupied_filterBuckets fun flow => (flow.flowTimeout now).isNone
  have hexpired : (ct.table.timeout now).2.length =
      (ct.table.flows.filter fun flow => !(flow.flowTimeout now).isNone).length := by
    rw [SwTableHash.timeout, List.length_filterMap_eq_countP, List.countP_eq_length_filter]
    simp only [Option.isSome_map, Option.not_isNone]
  refine ⟨h.placed.filterBuckets _, toNat_sub_ofNat ?_⟩
  rw [hexpired]
  exact hfilter.trans h.nFlows_eq.symm

theorem updateLookup (h : ct.Sound) (key : SwFlowKey) {g : SwFlow → SwFlow}
    (hg : ∀ flow, (g flow).key = flow.key) :
    Sound { ct with table := ct.table.updateLookup key g } := by
  apply h.congr
  unfold SwTableHash.updateLookup
  split
  next flow hl => exact h.placed.replace (Option.filter_eq_some_iff.1 hl).1 (hg flow)
  next => exact ⟨h.placed, rfl⟩

/-- Every operation keeps a table sound. -/
theorem step (h : ct.Sound) (e : HashEvent) : (ct.step e).Sound := by
  cases e with
  | insert flow =>
    cases hins : ct.insert flow with
    | none => rwa [CountedHash.step, hins]
    | some ct' =>
      rw [CountedHash.step, hins]
      exact h.insert hins
  | modify key priority strict actions => exact h.modify key priority strict actions
  | delete key outPort strict => exact h.delete key outPort strict
  | timeout now => exact h.timeout now
  | lookup key now size => exact h.updateLookup key fun flow => SwFlow.flowUsed_key now size flow

end Sound

/-- A table is sound behind all operations. -/
theorem sound_after (polynomial : BitVec 32) (k : Fin 32) (events : List HashEvent) :
    (after polynomial k events).Sound := by
  have hrun : ∀ ct : CountedHash, ct.Sound → (events.foldl CountedHash.step ct).Sound := by
    induction events with
    | nil => exact fun ct h => h
    | cons e events ih => exact fun ct h => ih _ (h.step e)
  refine hrun _ ⟨SwTableHash.Placed.create polynomial k, ?_⟩
  exact (List.countP_eq_zero.2 fun i _ => Bool.false_ne_true).symm

/-- Behind all operations on a new table every stored flow is without wildcards and in the bucket of
its key, the counter is the number of taken buckets, and a lookup finds the stored flow with its
key, if there is one. -/
theorem hash_sound (polynomial : BitVec 32) (k : Fin 32) (events : List HashEvent) :
    (after polynomial k events).table.Placed ∧
      (after polynomial k events).nFlows.toNat = (after polynomial k events).table.occupied ∧
      ∀ key flow, (after polynomial k events).table.lookup key = some flow ↔
        flow ∈ (after polynomial k events).table.flows ∧ flow.key.flow = key.flow := by
  have hsound := sound_after polynomial k events
  exact ⟨hsound.placed, hsound.nFlows_eq, fun key flow => hsound.placed.lookup_eq_some_iff⟩

end CountedHash

end OfAgent
