import Mathlib.Logic.Function.Iterate
import OfAgent.Flow.Entry
import OfAgent.Lib.Visit

/-!
# Hash tables

`crc32.c` and `table-hash.c`: a table of exact-match entries with one entry in a bucket, and the
double-hashing table of two of them. A bucket array is a function from bucket numbers; the loops
run over the numbers up to `bucketMask`.

* `SwTableHash`: the table with its `lookup`, `insert`, `modify`, `hasConflict`, `delete`,
  `timeout` and `iterate`; `SwTableHash2`: the same functions over two tables.
* `SwTableHash.Valid`: every entry is in the bucket of its key and has no wildcards.
* `SwTableHash.delete_eq`, `SwTableHash.modify_eq`: on a valid table the two branches of each
  function, one bucket or all of them, are the same filter and the same map.
-/

namespace OfAgent

/-! ### CRC-32 -/

/-- One turn of the inner loop of `crc32_init`. -/
def crc32Shift (polynomial reg : BitVec 32) : BitVec 32 :=
  let topBit := reg &&& 0x80000000 != 0
  if topBit then reg <<< 1 ^^^ polynomial else reg <<< 1

/-- `crc->table[i]`, as `crc32_init` fills it. -/
def crc32Table (polynomial : BitVec 32) (i : Byte) : BitVec 32 :=
  (crc32Shift polynomial)^[8] (i.setWidth 32 <<< 24)

/-- `crc32_calculate`. -/
def crc32Calculate (polynomial : BitVec 32) (data : List Byte) : BitVec 32 :=
  data.foldl (fun result b =>
    let top := (result >>> 24).setWidth 8 ^^^ b
    result <<< 8 ^^^ crc32Table polynomial top) 0

/-- The `n` low bytes of a number in network byte order. -/
def netBytes {w : ℕ} (n : ℕ) (x : BitVec w) : List Byte :=
  (List.range n).map fun i => (x >>> (8 * (n - 1 - i))).setWidth 8

/-- The 36 bytes of `struct flow`: the part of the key before the wildcards. -/
def Flow.bytes (f : Flow) : List Byte :=
  netBytes 4 f.nwSrc ++ netBytes 4 f.nwDst ++ netBytes 2 f.inPort ++ netBytes 2 f.dlVlan
    ++ netBytes 2 f.dlType ++ netBytes 2 f.tpSrc ++ netBytes 2 f.tpDst ++ netBytes 6 f.dlSrc
    ++ netBytes 6 f.dlDst ++ [f.dlVlanPcp, f.nwTos, f.nwProto, 0, 0, 0]

/-! ### The table -/

/-- `struct sw_table_position`: the two words that the tables use. -/
structure SwTablePosition where
  /-- A bucket number, or a complemented serial number. -/
  private0 : BitVec 64
  /-- The sub-table of a double-hashing table. -/
  private1 : BitVec 64
  deriving DecidableEq, Repr

/-- The position that `memset` leaves behind: the beginning of the table. -/
def SwTablePosition.zero : SwTablePosition := ⟨0, 0⟩

/-- `struct sw_table_hash`. -/
structure SwTableHash where
  /-- The polynomial of the hash function. -/
  polynomial : BitVec 32
  /-- Number of buckets minus 1. -/
  bucketMask : ℕ
  /-- The entry in each bucket. -/
  buckets : ℕ → Option SwFlow
  /-- The loops count buckets in an `int`. -/
  bucketMask_lt : bucketMask < 2 ^ 31

/-- `table_hash_create` with `2 ^ k` buckets: the number of buckets is a power of two. -/
def tableHashCreate (polynomial : BitVec 32) (k : Fin 32) : SwTableHash where
  polynomial := polynomial
  bucketMask := 2 ^ (k : ℕ) - 1
  buckets := fun _ => none
  bucketMask_lt := by
    have h : 2 ^ (k : ℕ) ≤ 2 ^ 31 := Nat.pow_le_pow_right (by decide) (by omega)
    omega

namespace SwTableHash

variable {σ : Type*} (th : SwTableHash)

/-- `find_bucket`: the number of the bucket. -/
def findBucket (flow : Flow) : ℕ :=
  (crc32Calculate th.polynomial flow.bytes).toNat &&& th.bucketMask

/-- The table with another entry in a bucket. -/
def setBucket (i : ℕ) (flow : Option SwFlow) : SwTableHash :=
  { th with buckets := Function.update th.buckets i flow }

/-- The table with only the entries that satisfy `p`. -/
def filterBuckets (p : SwFlow → Bool) : SwTableHash :=
  { th with buckets := fun i => (th.buckets i).filter p }

/-- The table with `g` applied to every entry. -/
def mapBuckets (g : SwFlow → SwFlow) : SwTableHash :=
  { th with buckets := fun i => (th.buckets i).map g }

/-- The entries in the order of their buckets. -/
def flows : List SwFlow := (List.range (th.bucketMask + 1)).filterMap th.buckets

/-- `table_hash_lookup`. -/
def lookup (key : SwFlowKey) : Option SwFlow :=
  (th.buckets (th.findBucket key.flow)).filter fun flow => flow.key.flow == key.flow

/-- The table after `g` has been applied to the entry that `lookup` points to. -/
def updateLookup (key : SwFlowKey) (g : SwFlow → SwFlow) : SwTableHash :=
  match th.lookup key with
  | some flow => th.setBucket (th.findBucket key.flow) (some (g flow))
  | none => th

/-- `table_hash_insert`: the table with the flow, if it takes it. -/
def insert (flow : SwFlow) : Option SwTableHash :=
  if flow.key.wildcards ≠ 0 then none
  else
    let bucket := th.findBucket flow.key.flow
    match th.buckets bucket with
    | none => some (th.setBucket bucket (some flow))
    | some oldFlow =>
        if oldFlow.key.flow = flow.key.flow then some (th.setBucket bucket (some flow))
        else none

/-- `table_hash_modify`: the table and the number of modified entries. -/
def modify (key : SwFlowKey) (priority : BitVec 16) (strict : Bool) (actions : List Byte) :
    SwTableHash × ℕ :=
  if key.wildcards = 0 then
    let bucket := th.findBucket key.flow
    match th.buckets bucket with
    | some flow =>
        if flow.modifiedBy key priority strict then
          (th.setBucket bucket (some (flow.replaceActs actions)), 1)
        else (th, 0)
    | none => (th, 0)
  else
    (th.mapBuckets fun flow =>
      if flow.modifiedBy key priority strict then flow.replaceActs actions else flow,
      (th.flows.filter (SwFlow.modifiedBy key priority strict)).length)

/-- `table_hash_has_conflict`. -/
def hasConflict (key : SwFlowKey) (priority : BitVec 16) (strict : Bool) : Bool :=
  if key.wildcards = 0 then
    (th.buckets (th.findBucket key.flow)).any (SwFlow.conflictsWith key priority strict)
  else th.flows.any (SwFlow.conflictsWith key priority strict)

/-- `table_hash_delete`: the table and the deleted entries. The priority is ignored. -/
def delete (key : SwFlowKey) (outPort : BitVec 16) (strict : Bool) :
    SwTableHash × List SwFlow :=
  if key.wildcards = 0 then
    let bucket := th.findBucket key.flow
    match th.buckets bucket with
    | some flow =>
        if flow.key.flow == key.flow && flow.flowHasOutPort outPort then
          (th.setBucket bucket none, [flow])
        else (th, [])
    | none => (th, [])
  else
    (th.filterBuckets fun flow =>
      !(flowMatchesDesc flow.key key strict && flow.flowHasOutPort outPort),
      th.flows.filter fun flow =>
        flowMatchesDesc flow.key key strict && flow.flowHasOutPort outPort)

/-- `table_hash_timeout`: the table and the expired entries with their reasons. -/
def timeout (now : BitVec 64) : SwTableHash × List (SwFlow × OfpFlowRemovedReason) :=
  (th.filterBuckets fun flow => (flow.flowTimeout now).isNone,
    th.flows.filterMap fun flow => (flow.flowTimeout now).map fun reason => (flow, reason))

/-- The entries from bucket `start` on that an iteration passes to its callback, with their
bucket numbers. -/
def candidates (key : SwFlowKey) (outPort : BitVec 16) (start : ℕ) : List (ℕ × SwFlow) :=
  (List.range' start (th.bucketMask + 1 - start)).filterMap fun i =>
    ((th.buckets i).filter fun flow =>
      flowMatches1wild flow.key key && flow.flowHasOutPort outPort).map fun flow => (i, flow)

/-- `table_hash_iterate`: the state of the callback, the position, and the error. -/
def iterate (key : SwFlowKey) (outPort : BitVec 16) (callback : σ → SwFlow → σ × ℤ)
    (position : SwTablePosition) (s : σ) : σ × SwTablePosition × ℤ :=
  if th.bucketMask < position.private0.toNat then (s, position, 0)
  else if key.wildcards = 0 then
    let position := { position with private0 := -1 }
    match th.lookup key with
    | some flow =>
        if flow.flowHasOutPort outPort then ((callback s flow).1, position, (callback s flow).2)
        else (s, position, 0)
    | none => (s, position, 0)
  else
    match Visit.visit (fun s (c : ℕ × SwFlow) => callback s c.2)
        (th.candidates key outPort position.private0.toNat) s with
    | (s, none) => (s, position, 0)
    | (s, some stop) =>
        (s, { position with private0 := BitVec.ofNat 64 (stop.elem.1 + 1) }, stop.error)

/-! ### Valid tables -/

/-- What holds of every table that the functions above build: an entry is in the bucket of its
key and has no wildcards. -/
structure Valid : Prop where
  /-- An entry is in the bucket of its key. -/
  findBucket_eq : ∀ {i : ℕ} {flow : SwFlow}, th.buckets i = some flow →
    th.findBucket flow.key.flow = i
  /-- An entry has no wildcards. -/
  exact : ∀ {i : ℕ} {flow : SwFlow}, th.buckets i = some flow → flow.key.wildcards = 0
  /-- An entry is well formed. -/
  wellFormed : ∀ {i : ℕ} {flow : SwFlow}, th.buckets i = some flow → flow.WellFormed

variable {th}

theorem setBucket_buckets (i j : ℕ) (flow : Option SwFlow) :
    (th.setBucket i flow).buckets j = if j = i then flow else th.buckets j :=
  Function.update_apply ..

theorem findBucket_le (flow : Flow) : th.findBucket flow ≤ th.bucketMask := Nat.and_le_right

theorem Valid.mem_flows (h : th.Valid) {flow : SwFlow} :
    flow ∈ th.flows ↔ th.buckets (th.findBucket flow.key.flow) = some flow := by
  rw [flows, List.mem_filterMap]
  constructor
  · rintro ⟨i, -, hi⟩
    rw [h.findBucket_eq hi, hi]
  · intro hf
    exact ⟨_, List.mem_range.2 (Nat.lt_succ_of_le (findBucket_le _)), hf⟩

theorem valid_create (polynomial : BitVec 32) (k : Fin 32) :
    (tableHashCreate polynomial k).Valid := by
  constructor <;> intro i flow h <;> cases h

theorem flows_of_forall_none (h : ∀ i, th.buckets i = none) : th.flows = [] :=
  List.filterMap_eq_nil_iff.2 fun i _ => h i

/-- The entries that are left when only those with `p` are kept. -/
@[simp]
theorem flows_filterBuckets (p : SwFlow → Bool) : (th.filterBuckets p).flows = th.flows.filter p :=
  List.filter_filterMap.symm

/-- The entries when all are changed by `g`. -/
@[simp]
theorem flows_mapBuckets (g : SwFlow → SwFlow) : (th.mapBuckets g).flows = th.flows.map g :=
  List.map_filterMap.symm

/-- Removing entries keeps a table valid. -/
theorem Valid.filterBuckets (h : th.Valid) (p : SwFlow → Bool) : (th.filterBuckets p).Valid := by
  have hsub : ∀ {i flow}, (th.filterBuckets p).buckets i = some flow →
      th.buckets i = some flow := fun hi => (Option.filter_eq_some_iff.1 hi).1
  exact ⟨fun hi => h.findBucket_eq (hsub hi), fun hi => h.exact (hsub hi),
    fun hi => h.wellFormed (hsub hi)⟩

/-- Changing entries without changing their keys and priorities keeps a table valid. -/
theorem Valid.mapBuckets (h : th.Valid) {g : SwFlow → SwFlow} (hk : ∀ f, (g f).key = f.key)
    (hp : ∀ f, (g f).priority = f.priority) : (th.mapBuckets g).Valid := by
  have hsub : ∀ {i flow}, (th.mapBuckets g).buckets i = some flow →
      ∃ f, th.buckets i = some f ∧ g f = flow := fun hi => Option.map_eq_some_iff.1 hi
  constructor <;> intro i flow hi <;> obtain ⟨f, hf, rfl⟩ := hsub hi
  · rw [hk]
    exact h.findBucket_eq hf
  · rw [hk]
    exact h.exact hf
  · exact (h.wellFormed hf).congr (hk f) (hp f)

/-- Putting a well-formed exact entry into its bucket keeps a table valid. -/
theorem Valid.setBucket (h : th.Valid) {flow : SwFlow} (hwf : flow.WellFormed)
    (hw : flow.key.wildcards = 0) :
    (th.setBucket (th.findBucket flow.key.flow) (some flow)).Valid := by
  have hsub : ∀ {i f}, (th.setBucket (th.findBucket flow.key.flow) (some flow)).buckets i = some f →
      (i = th.findBucket flow.key.flow ∧ f = flow) ∨ th.buckets i = some f := by
    intro i f hi
    rw [setBucket_buckets] at hi
    split at hi
    next heq => exact .inl ⟨heq, (Option.some.inj hi).symm⟩
    next => exact .inr hi
  constructor <;> intro i f hi <;> rcases hsub hi with ⟨rfl, rfl⟩ | hi'
  · rfl
  · exact h.findBucket_eq hi'
  · exact hw
  · exact h.exact hi'
  · exact hwf
  · exact h.wellFormed hi'

/-- No two entries of a valid table are the same flow. -/
theorem Valid.distinct (h : th.Valid) :
    th.flows.Pairwise fun f g => f.identical g = false := by
  rw [flows, List.pairwise_filterMap]
  refine List.pairwise_lt_range.imp fun {i j} hij f hf g hg => ?_
  rw [(h.wellFormed hf).identical_exact (h.wellFormed hg) (h.exact hf) (h.exact hg)]
  refine beq_false_of_ne fun heq => ?_
  have := h.findBucket_eq hf
  rw [heq, h.findBucket_eq hg] at this
  omega

/-- On a valid table, what the description without wildcards selects is in its bucket. -/
theorem Valid.flowMatchesDesc_exact (h : th.Valid) {i : ℕ} {flow : SwFlow}
    (hi : th.buckets i = some flow) {key : SwFlowKey} (hkey : key.Normal)
    (hw : key.wildcards = 0) (strict : Bool) :
    flowMatchesDesc flow.key key strict = (flow.key.flow == key.flow) := by
  rw [flowMatchesDesc, hw, h.exact hi, hkey.flowMatches1wild_exact hw]
  simp

/-- Reading one place of a range. -/
private theorem filterMap_range_single {α : Type*} (o : Option α) (j n : ℕ) :
    (List.range n).filterMap (fun i => if i = j then o else none) =
      if j < n then o.toList else [] := by
  induction n with
  | zero => simp
  | succ n ih =>
    rw [List.range_succ, List.filterMap_append, ih]
    rcases lt_trichotomy j n with hlt | rfl | hgt
    · have hne : ¬ n = j := by omega
      simp [hlt, hne, Nat.lt_succ_of_lt hlt]
    · cases o <;> simp
    · have hne : ¬ n = j := by omega
      have hle : ¬ j < n + 1 := by omega
      have hle' : ¬ j < n := by omega
      simp [hne, hle, hle']

/-- On a valid table, a condition that implies a given key is met in that key's bucket only. -/
theorem Valid.filter_eq_none (h : th.Valid) {k : Flow} {p : SwFlow → Bool}
    (hp : ∀ i f, th.buckets i = some f → p f = true → f.key.flow = k) {i : ℕ}
    (hi : i ≠ th.findBucket k) : (th.buckets i).filter p = none := by
  rw [Option.filter_eq_none_iff]
  intro f hf hpf
  exact hi ((h.findBucket_eq hf).symm.trans (by rw [hp i f hf hpf]))

/-- On a valid table, the entries with a condition that implies a given key are the ones of that
key's bucket. -/
theorem Valid.filter_flows (h : th.Valid) {k : Flow} {p : SwFlow → Bool}
    (hp : ∀ i f, th.buckets i = some f → p f = true → f.key.flow = k) :
    th.flows.filter p = ((th.buckets (th.findBucket k)).filter p).toList := by
  have hsingle : ∀ i, (th.buckets i).filter p =
      if i = th.findBucket k then (th.buckets (th.findBucket k)).filter p else none := by
    intro i
    split
    next heq => rw [heq]
    next hne => exact h.filter_eq_none hp hne
  rw [flows, List.filter_filterMap, funext hsingle, filterMap_range_single,
    if_pos (Nat.lt_succ_of_le (findBucket_le k))]

/-- On a valid table, removing the entries with a condition that implies a given key changes
that key's bucket only. -/
theorem Valid.filterBuckets_eq (h : th.Valid) {k : Flow} {p : SwFlow → Bool}
    (hp : ∀ i f, th.buckets i = some f → p f = true → f.key.flow = k) :
    th.filterBuckets (fun f => !p f) =
      th.setBucket (th.findBucket k) ((th.buckets (th.findBucket k)).filter fun f => !p f) := by
  unfold SwTableHash.filterBuckets SwTableHash.setBucket
  congr 1
  funext i
  rw [Function.update_apply]
  split
  next heq => rw [heq]
  next hne =>
    have hnone := h.filter_eq_none hp hne
    cases hi : th.buckets i with
    | none => rfl
    | some f =>
      rw [hi, Option.filter_some] at hnone
      cases hpf : p f <;> simp_all

/-- On a valid table, changing the entries with a condition that implies a given key changes
that key's bucket only. -/
theorem Valid.mapBuckets_eq (h : th.Valid) {k : Flow} {p : SwFlow → Bool}
    (hp : ∀ i f, th.buckets i = some f → p f = true → f.key.flow = k) (g : SwFlow → SwFlow) :
    th.mapBuckets (fun f => if p f then g f else f) =
      th.setBucket (th.findBucket k)
        ((th.buckets (th.findBucket k)).map fun f => if p f then g f else f) := by
  unfold SwTableHash.mapBuckets SwTableHash.setBucket
  congr 1
  funext i
  rw [Function.update_apply]
  split
  next heq => rw [heq]
  next hne =>
    have hnone := h.filter_eq_none hp hne
    cases hi : th.buckets i with
    | none => rfl
    | some f =>
      rw [hi, Option.filter_some] at hnone
      cases hpf : p f <;> simp_all

/-- Writing back what a bucket holds changes nothing. -/
theorem setBucket_eq_self {i : ℕ} {flow : Option SwFlow} (h : th.buckets i = flow) :
    th.setBucket i flow = th := by
  subst h
  rw [SwTableHash.setBucket, Function.update_eq_self]

/-- `table_hash_lookup` finds the entry of the packet's flow. -/
theorem Valid.lookup_eq_some_iff (h : th.Valid) {key : SwFlowKey} {flow : SwFlow} :
    th.lookup key = some flow ↔ flow ∈ th.flows ∧ flow.key.flow = key.flow := by
  rw [lookup, Option.filter_eq_some_iff, h.mem_flows, beq_iff_eq]
  constructor
  · rintro ⟨hb, hk⟩
    exact ⟨hk ▸ hb, hk⟩
  · rintro ⟨hb, hk⟩
    exact ⟨hk ▸ hb, hk⟩

/-- `table_hash_delete` removes, on a valid table, the entries that the description selects. -/
theorem Valid.delete_eq (h : th.Valid) {key : SwFlowKey} (hkey : key.Normal)
    (outPort : BitVec 16) (strict : Bool) :
    th.delete key outPort strict =
      (th.filterBuckets fun flow =>
        !(flowMatchesDesc flow.key key strict && flow.flowHasOutPort outPort),
        th.flows.filter fun flow =>
          flowMatchesDesc flow.key key strict && flow.flowHasOutPort outPort) := by
  unfold delete
  split
  next hw =>
    have hp : ∀ i f, th.buckets i = some f →
        (flowMatchesDesc f.key key strict && f.flowHasOutPort outPort) = true →
        f.key.flow = key.flow := by
      intro i f hi hf
      rw [h.flowMatchesDesc_exact hi hkey hw, Bool.and_eq_true, beq_iff_eq] at hf
      exact hf.1
    rw [h.filterBuckets_eq hp, h.filter_flows hp]
    cases hb : th.buckets (th.findBucket key.flow) with
    | none => simp [hb, setBucket_eq_self hb]
    | some f =>
      simp only [hb, Option.filter_some, h.flowMatchesDesc_exact hb hkey hw]
      cases f.key.flow == key.flow && f.flowHasOutPort outPort with
      | true => rfl
      | false => simp [setBucket_eq_self hb]
  next => rfl

/-- `table_hash_modify` changes, on a valid table, the entries that the description selects. -/
theorem Valid.modify_eq (h : th.Valid) {key : SwFlowKey} (hkey : key.Normal)
    (priority : BitVec 16) (strict : Bool) (actions : List Byte) :
    th.modify key priority strict actions =
      (th.mapBuckets fun flow =>
        if flow.modifiedBy key priority strict then flow.replaceActs actions else flow,
        (th.flows.filter (SwFlow.modifiedBy key priority strict)).length) := by
  unfold modify
  split
  next hw =>
    have hp : ∀ i f, th.buckets i = some f → f.modifiedBy key priority strict = true →
        f.key.flow = key.flow := by
      intro i f hi hf
      rw [SwFlow.modifiedBy, h.flowMatchesDesc_exact hi hkey hw, Bool.and_eq_true,
        beq_iff_eq] at hf
      exact hf.1
    rw [h.mapBuckets_eq hp, h.filter_flows hp]
    cases hb : th.buckets (th.findBucket key.flow) with
    | none => simp [hb, setBucket_eq_self hb]
    | some f =>
      simp only [hb, Option.filter_some, Option.map_some]
      cases f.modifiedBy key priority strict with
      | true => rfl
      | false => simp [setBucket_eq_self hb]
  next => rfl

/-- Changing the entry that a lookup points to changes, on a valid table, the entry of the
packet's flow. -/
theorem Valid.updateLookup_eq (h : th.Valid) (key : SwFlowKey) (g : SwFlow → SwFlow) :
    th.updateLookup key g = th.mapBuckets fun f => if f.key.flow == key.flow then g f else f := by
  have hp : ∀ i f, th.buckets i = some f → (f.key.flow == key.flow) = true →
      f.key.flow = key.flow := fun _ _ _ => beq_iff_eq.1
  rw [h.mapBuckets_eq hp, updateLookup, lookup]
  cases hb : th.buckets (th.findBucket key.flow) with
  | none => simp [setBucket_eq_self hb]
  | some f =>
    simp only [Option.filter_some, Option.map_some]
    cases f.key.flow == key.flow with
    | true => rfl
    | false => simp [setBucket_eq_self hb]

/-- The bucket of the flow is free or holds the same flow. -/
def Accepts (th : SwTableHash) (flow : SwFlow) : Prop :=
  (th.buckets (th.findBucket flow.key.flow)).all (fun f => f.key.flow == flow.key.flow) = true

instance (flow : SwFlow) : Decidable (th.Accepts flow) := inferInstanceAs (Decidable (_ = true))

/-- What `table_hash_insert` has done when it has taken a flow. -/
theorem insert_eq_some {flow : SwFlow} {th' : SwTableHash} (h : th.insert flow = some th') :
    flow.key.wildcards = 0 ∧ th' = th.setBucket (th.findBucket flow.key.flow) (some flow) ∧
      th.Accepts flow := by
  unfold Accepts
  unfold insert at h
  split at h
  next => cases h
  next hw =>
    refine ⟨not_not.1 hw, ?_⟩
    cases hb : th.buckets (th.findBucket flow.key.flow) with
    | none =>
      simp only [hb, Option.some.injEq] at h
      exact ⟨h.symm, rfl⟩
    | some f =>
      simp only [hb] at h
      split at h
      next heq => exact ⟨(Option.some.inj h).symm, beq_iff_eq.2 heq⟩
      next => cases h

/-- `table_hash_insert` refuses a flow with wildcards and a flow whose bucket is taken by
another one. -/
theorem insert_eq_none {flow : SwFlow} (h : th.insert flow = none) :
    flow.key.wildcards ≠ 0 ∨ ¬ th.Accepts flow := by
  unfold Accepts
  unfold insert at h
  split at h
  next hw => exact .inl hw
  next =>
    cases hb : th.buckets (th.findBucket flow.key.flow) with
    | none => simp [hb] at h
    | some f =>
      simp only [hb] at h
      split at h
      next => cases h
      next hne => exact .inr fun hall => hne (beq_iff_eq.1 hall)

/-- A valid table accepts a flow that it holds. -/
theorem Valid.accepts_of_mem (h : th.Valid) {flow f : SwFlow} (hf : f ∈ th.flows)
    (hk : f.key.flow = flow.key.flow) : th.Accepts flow := by
  rw [h.mem_flows, hk] at hf
  rw [Accepts, hf]
  exact beq_iff_eq.2 hk

/-- The members after a bucket has been written. -/
theorem Valid.mem_flows_setBucket (h : th.Valid) {flow : SwFlow} (hwf : flow.WellFormed)
    (hw : flow.key.wildcards = 0) {g : SwFlow}
    (hg : g ∈ (th.setBucket (th.findBucket flow.key.flow) (some flow)).flows) :
    g = flow ∨ g ∈ th.flows ∧ g.key.flow ≠ flow.key.flow := by
  rw [(h.setBucket hwf hw).mem_flows, setBucket_buckets] at hg
  change (if th.findBucket g.key.flow = th.findBucket flow.key.flow then some flow
    else th.buckets (th.findBucket g.key.flow)) = some g at hg
  split at hg
  next => exact .inl (Option.some.inj hg).symm
  next hne => exact .inr ⟨h.mem_flows.2 hg, fun heq => hne (by rw [heq])⟩

/-- A table that has taken a flow holds it and otherwise only what it held of other flows. -/
theorem Valid.mem_flows_insert (h : th.Valid) {flow : SwFlow} (hwf : flow.WellFormed)
    {th' : SwTableHash} (hins : th.insert flow = some th') {g : SwFlow} (hg : g ∈ th'.flows) :
    g = flow ∨ g ∈ th.flows ∧ g.key.flow ≠ flow.key.flow := by
  obtain ⟨hw, rfl, -⟩ := insert_eq_some hins
  exact h.mem_flows_setBucket hwf hw hg

theorem Valid.insert (h : th.Valid) {flow : SwFlow} (hwf : flow.WellFormed) {th' : SwTableHash}
    (hins : th.insert flow = some th') : th'.Valid := by
  obtain ⟨hw, rfl, -⟩ := insert_eq_some hins
  exact h.setBucket hwf hw

end SwTableHash

/-! ### The double-hashing table -/

/-- `struct sw_table_hash2`. -/
structure SwTableHash2 where
  /-- `subtable[0]`. -/
  subtable0 : SwTableHash
  /-- `subtable[1]`. -/
  subtable1 : SwTableHash

/-- `table_hash2_create` with `2 ^ k0` and `2 ^ k1` buckets. -/
def tableHash2Create (poly0 : BitVec 32) (k0 : Fin 32) (poly1 : BitVec 32) (k1 : Fin 32) :
    SwTableHash2 :=
  ⟨tableHashCreate poly0 k0, tableHashCreate poly1 k1⟩

namespace SwTableHash2

variable {σ : Type*} (t2 : SwTableHash2)

/-- The entries in the order of the sub-tables and of their buckets. -/
def flows : List SwFlow := t2.subtable0.flows ++ t2.subtable1.flows

/-- `table_hash2_lookup`. -/
def lookup (key : SwFlowKey) : Option SwFlow :=
  (t2.subtable0.lookup key).or (t2.subtable1.lookup key)

/-- The table after `g` has been applied to the entry that `lookup` points to. -/
def updateLookup (key : SwFlowKey) (g : SwFlow → SwFlow) : SwTableHash2 :=
  match t2.subtable0.lookup key with
  | some _ => { t2 with subtable0 := t2.subtable0.updateLookup key g }
  | none => { t2 with subtable1 := t2.subtable1.updateLookup key g }

/-- `table_hash2_insert`. -/
def insert (flow : SwFlow) : Option SwTableHash2 :=
  match t2.subtable0.insert flow with
  | some th => some { t2 with subtable0 := th }
  | none => (t2.subtable1.insert flow).map fun th => { t2 with subtable1 := th }

/-- `table_hash2_modify`. -/
def modify (key : SwFlowKey) (priority : BitVec 16) (strict : Bool) (actions : List Byte) :
    SwTableHash2 × ℕ :=
  let m0 := t2.subtable0.modify key priority strict actions
  let m1 := t2.subtable1.modify key priority strict actions
  (⟨m0.1, m1.1⟩, m0.2 + m1.2)

/-- `table_hash2_has_conflict`. -/
def hasConflict (key : SwFlowKey) (priority : BitVec 16) (strict : Bool) : Bool :=
  t2.subtable0.hasConflict key priority strict || t2.subtable1.hasConflict key priority strict

/-- `table_hash2_delete`. -/
def delete (key : SwFlowKey) (outPort : BitVec 16) (strict : Bool) :
    SwTableHash2 × List SwFlow :=
  let d0 := t2.subtable0.delete key outPort strict
  let d1 := t2.subtable1.delete key outPort strict
  (⟨d0.1, d1.1⟩, d0.2 ++ d1.2)

/-- `table_hash2_timeout`. -/
def timeout (now : BitVec 64) : SwTableHash2 × List (SwFlow × OfpFlowRemovedReason) :=
  let d0 := t2.subtable0.timeout now
  let d1 := t2.subtable1.timeout now
  (⟨d0.1, d1.1⟩, d0.2 ++ d1.2)

/-- The loop of `table_hash2_iterate` over the remaining sub-tables. -/
def iterateLoop (key : SwFlowKey) (outPort : BitVec 16) (callback : σ → SwFlow → σ × ℤ) :
    List SwTableHash → SwTablePosition → σ → σ × SwTablePosition × ℤ
  | [], position, s => (s, position, 0)
  | th :: ths, position, s =>
      match th.iterate key outPort callback position s with
      | (s, position, error) =>
          if error ≠ 0 then (s, position, error)
          else iterateLoop key outPort callback ths ⟨0, position.private1 + 1⟩ s

/-- `table_hash2_iterate`. -/
def iterate (key : SwFlowKey) (outPort : BitVec 16) (callback : σ → SwFlow → σ × ℤ)
    (position : SwTablePosition) (s : σ) : σ × SwTablePosition × ℤ :=
  iterateLoop key outPort callback
    ([t2.subtable0, t2.subtable1].drop position.private1.toNat) position s

end SwTableHash2

end OfAgent
