import OfAgent.Agent.Rejection

/-!
# Modifications without an entry

A modification that finds no entry adds one, in `mod_flow` and not in `add_flow`. The agent does not
handle modifications at all. What the two functions do to the tables differs in the counters of the
new entry: `add_flow` counts the packet that a buffer id names, `mod_flow` does not.

* `SwChain.Related`: chains of the same shape, entry by entry in a relation.
* `Datapath.ModifiesNone`: a modification finds no entry.
* `modification_acts_like_addition`: what such a message has in common with the addition.
-/

namespace OfAgent

/-! ### Chains of the same shape -/

variable {R : SwFlow → SwFlow → Prop} {flow flow' : SwFlow}

namespace SwTableHash

/-- The same buckets, entry by entry in the relation. -/
structure Related (R : SwFlow → SwFlow → Prop) (th th' : SwTableHash) : Prop where
  /-- The hash functions are the same. -/
  polynomial : th.polynomial = th'.polynomial
  /-- So are the numbers of buckets. -/
  bucketMask : th.bucketMask = th'.bucketMask
  /-- The entries are related. -/
  buckets : ∀ i, Option.Rel R (th.buckets i) (th'.buckets i)

theorem Related.refl (hR : ∀ f, R f f) (th : SwTableHash) : th.Related R th where
  polynomial := rfl
  bucketMask := rfl
  buckets i := by
    cases th.buckets i with
    | none => exact .none
    | some f => exact .some (hR f)

/-- Related entries in one bucket. -/
theorem related_setBucket (hR : ∀ f, R f f) (th : SwTableHash) (i : ℕ) (h : R flow flow') :
    (th.setBucket i (some flow)).Related R (th.setBucket i (some flow')) where
  polynomial := rfl
  bucketMask := rfl
  buckets j := by
    rw [setBucket_buckets, setBucket_buckets]
    split
    · exact .some h
    · exact (Related.refl hR th).buckets j

/-- Where a flow is put does not depend on its counters. -/
theorem related_insert (hR : ∀ f, R f f) (th : SwTableHash) (hk : flow.key = flow'.key)
    (h : R flow flow') : Option.Rel (Related R) (th.insert flow) (th.insert flow') := by
  have hset := related_setBucket hR th (th.findBucket flow'.key.flow) h
  unfold insert
  simp only [hk]
  split
  next => exact .none
  next =>
    cases th.buckets (th.findBucket flow'.key.flow) with
    | none => exact .some hset
    | some old =>
      simp only
      split
      next => exact .some hset
      next => exact .none

/-- A rewriting that changes no entry. -/
theorem Valid.mapBuckets_of_forall {th : SwTableHash} (h : th.Valid) {g : SwFlow → SwFlow}
    (hg : ∀ f ∈ th.flows, g f = f) : th.mapBuckets g = th := by
  unfold SwTableHash.mapBuckets
  congr 1
  funext i
  cases hi : th.buckets i with
  | none => rfl
  | some f =>
    have hf : f ∈ th.flows := h.mem_flows.2 (by rw [h.findBucket_eq hi, hi])
    exact congrArg some (hg f hf)

end SwTableHash

namespace SwTableLinear

/-- A rewriting that changes no entry. -/
theorem Valid.mapFlows_of_forall {tl : SwTableLinear} (h : tl.Valid) {g : SwFlow → SwFlow}
    (hg : ∀ f ∈ tl.flows, g f = f) : tl.mapFlows g = tl := by
  have hmap : ∀ l : List SwFlow, (∀ f ∈ l, f ∈ tl.flows) → l.map g = l := fun l hl =>
    (List.map_congr_left fun f hf => hg f (hl f hf)).trans (List.map_id l)
  unfold SwTableLinear.mapFlows
  rw [hmap tl.flows fun f hf => hf, hmap tl.iterFlows fun f hf => h.perm.mem_iff.1 hf]

/-- The same list, entry by entry in the relation. -/
structure Related (R : SwFlow → SwFlow → Prop) (tl tl' : SwTableLinear) : Prop where
  /-- The capacities are the same. -/
  maxFlows : tl.maxFlows = tl'.maxFlows
  /-- So are the numbers of entries. -/
  nFlows : tl.nFlows = tl'.nFlows
  /-- The entries are related. -/
  flows : List.Forall₂ R tl.flows tl'.flows
  /-- So they are in the order of iterations. -/
  iterFlows : List.Forall₂ R tl.iterFlows tl'.iterFlows
  /-- The next serial numbers are the same. -/
  nextSerial : tl.nextSerial = tl'.nextSerial

theorem forall₂_refl (hR : ∀ f, R f f) (l : List SwFlow) : List.Forall₂ R l l :=
  List.forall₂_same.2 fun f _ => hR f

/-- The entry that a flow replaces does not depend on its counters. -/
theorem findReplaced_congr (hk : flow.key = flow'.key) (hp : flow.priority = flow'.priority)
    (l : List SwFlow) : findReplaced flow l = findReplaced flow' l := by
  induction l with
  | nil => rfl
  | cons f fs ih => rw [findReplaced, findReplaced, SwFlow.identical_congr rfl rfl hk hp, hp, ih]

/-- Neither does the place of a new entry. -/
theorem forall₂_insertBehind (hR : ∀ f, R f f) (hp : flow.priority = flow'.priority)
    (h : R flow flow') (l : List SwFlow) :
    List.Forall₂ R (PriorityList.insertBehind prio flow l)
      (PriorityList.insertBehind prio flow' l) := by
  induction l with
  | nil => exact .cons h .nil
  | cons f fs ih =>
    rw [PriorityList.insertBehind, PriorityList.insertBehind, prio, prio, prio, hp]
    split
    · exact .cons h (forall₂_refl hR _)
    · exact .cons (hR f) ih

/-- Related flows in the place of an entry. -/
theorem related_updateSerial (hR : ∀ f, R f f) (tl : SwTableLinear) (serial : ℕ)
    (h : R flow flow') :
    (tl.updateSerial serial fun _ => flow).Related R (tl.updateSerial serial fun _ => flow') := by
  have hmap : ∀ l : List SwFlow, List.Forall₂ R
      (l.map fun f => if f.serial = serial then flow else f)
      (l.map fun f => if f.serial = serial then flow' else f) := by
    intro l
    rw [List.forall₂_map_left_iff, List.forall₂_map_right_iff]
    refine List.forall₂_same.2 fun f _ => ?_
    split
    · exact h
    · exact hR f
  exact ⟨rfl, rfl, hmap _, hmap _, rfl⟩

/-- Where a flow is put does not depend on its counters. -/
theorem related_insert (hR : ∀ f, R f f) (tl : SwTableLinear) (hk : flow.key = flow'.key)
    (hp : flow.priority = flow'.priority)
    (h : ∀ serial, R { flow with serial } { flow' with serial }) :
    Option.Rel (Related R) (tl.insert flow) (tl.insert flow') := by
  unfold insert
  rw [findReplaced_congr hk hp]
  cases findReplaced flow' tl.flows with
  | some f => exact .some (related_updateSerial hR tl f.serial (h f.serial))
  | none =>
    simp only
    split
    next => exact .none
    next =>
      refine .some ⟨rfl, rfl, ?_, .cons (h _) (forall₂_refl hR _), rfl⟩
      refine forall₂_insertBehind hR ?_ (h tl.nextSerial) tl.flows
      exact hp

end SwTableLinear

namespace SwChain

/-- The same tables, entry by entry in the relation. -/
structure Related (R : SwFlow → SwFlow → Prop) (ch ch' : SwChain) : Prop where
  /-- `subtable[0]` of the double-hashing table. -/
  subtable0 : ch.hash2.subtable0.Related R ch'.hash2.subtable0
  /-- `subtable[1]` of the double-hashing table. -/
  subtable1 : ch.hash2.subtable1.Related R ch'.hash2.subtable1
  /-- The linear table. -/
  linear : ch.linear.Related R ch'.linear
  /-- The emergency table. -/
  emergTable : ch.emergTable.Related R ch'.emergTable

theorem Related.refl (hR : ∀ f, R f f) (ch : SwChain) : ch.Related R ch where
  subtable0 := .refl hR _
  subtable1 := .refl hR _
  linear := ⟨rfl, rfl, SwTableLinear.forall₂_refl hR _, SwTableLinear.forall₂_refl hR _, rfl⟩
  emergTable := ⟨rfl, rfl, SwTableLinear.forall₂_refl hR _, SwTableLinear.forall₂_refl hR _, rfl⟩

/-- Where a flow is put does not depend on its counters. -/
theorem related_insert (hR : ∀ f, R f f) (ch : SwChain) (hk : flow.key = flow'.key)
    (hp : flow.priority = flow'.priority)
    (h : ∀ serial, R { flow with serial } { flow' with serial }) (hself : R flow flow')
    (emerg : Bool) : Option.Rel (Related R) (ch.insert flow emerg) (ch.insert flow' emerg) := by
  have hrefl := Related.refl hR ch
  have hemerg := ch.emergTable.related_insert hR hk hp h
  have h0 := ch.hash2.subtable0.related_insert hR hk hself
  have h1 := ch.hash2.subtable1.related_insert hR hk hself
  have hlinear := ch.linear.related_insert hR hk hp h
  unfold insert SwTableHash2.insert
  -- which tables have room is the same for both flows
  generalize ch.emergTable.insert flow = e, ch.emergTable.insert flow' = e',
    ch.hash2.subtable0.insert flow = t0, ch.hash2.subtable0.insert flow' = t0',
    ch.hash2.subtable1.insert flow = t1, ch.hash2.subtable1.insert flow' = t1',
    ch.linear.insert flow = l, ch.linear.insert flow' = l' at *
  split
  next =>
    cases hemerg with
    | none => exact .none
    | some htl => exact .some { hrefl with emergTable := htl }
  next =>
    cases h0 with
    | some hth => exact .some { hrefl with subtable0 := hth }
    | none =>
      cases h1 with
      | some hth => exact .some { hrefl with subtable1 := hth }
      | none =>
        cases hlinear with
        | none => exact .none
        | some htl => exact .some { hrefl with linear := htl }

end SwChain

/-! ### The message -/

/-- The message asks for a modification. -/
def OfpFlowMod.IsModification (ofm : OfpFlowMod) (strict : Bool) : Prop :=
  ofm.knownCommand = some (if strict then .modifyStrict else .modify)

/-- The same message with the command `OFPFC_ADD`. -/
def OfpFlowMod.asAddition (ofm : OfpFlowMod) : OfpFlowMod := { ofm with command := 0 }

/-- The entries that a flow modification is about. -/
def SwChain.flowsOf (ch : SwChain) (emerg : Bool) : List SwFlow :=
  if emerg then ch.emergTable.flows else ch.workingFlows

/-- A modification finds no entry. -/
def Datapath.ModifiesNone (dp : Datapath) (ofm : OfpFlowMod) (strict : Bool) : Prop :=
  ∀ flow ∈ dp.chain.flowsOf (ofm.hasFlag ofpffEmerg),
    flow.modifiedBy (flowExtractMatch ofm.ofpMatch)
      (ofm.flowPriority (flowExtractMatch ofm.ofpMatch)) strict = false

/-- The entries are the same, but for the counters of one that a message has made, on which the
second counts a packet. -/
def OfpFlowMod.SameButCount (ofm : OfpFlowMod) (now : BitVec 64) (f f' : SwFlow) : Prop :=
  f' = f ∨ ∃ size serial, f = { ofm.newFlow now with serial } ∧ f' = f.flowUsed now size

/-! ### What the datapath does -/

namespace Datapath

variable {dp : Datapath} {ofm : OfpFlowMod} {strict : Bool} {now : BitVec 64}

/-- A modification that finds no entry leaves the chain alone. -/
theorem ModifiesNone.modify_eq (h : dp.ModifiesNone ofm strict) (hv : dp.chain.Valid) :
    dp.chain.modify (flowExtractMatch ofm.ofpMatch)
      (ofm.flowPriority (flowExtractMatch ofm.ofpMatch)) strict ofm.actions
      (ofm.hasFlag ofpffEmerg) = (dp.chain, 0) := by
  have hkey := normal_flowExtractMatch ofm.ofpMatch
  unfold ModifiesNone at h
  generalize flowExtractMatch ofm.ofpMatch = key at h hkey ⊢
  generalize ofm.flowPriority key = priority at h ⊢
  -- no entry of a list is selected, so that none is rewritten and none counted
  have hg : ∀ {l : List SwFlow}, (∀ f ∈ l, f.modifiedBy key priority strict = false) → ∀ f ∈ l,
      (if f.modifiedBy key priority strict then f.replaceActs ofm.actions else f) = f :=
    fun hl f hf => by rw [hl f hf, if_neg Bool.false_ne_true]
  have hcount : ∀ {l : List SwFlow}, (∀ f ∈ l, f.modifiedBy key priority strict = false) →
      (l.filter (SwFlow.modifiedBy key priority strict)).length = 0 := fun hl => by
    rw [List.filter_eq_nil_iff.2 fun f hf => Bool.eq_false_iff.1 (hl f hf), List.length_nil]
  cases hem : ofm.hasFlag ofpffEmerg with
  | true =>
    rw [hem] at h
    have hflows : ∀ f ∈ dp.chain.emergTable.flows, f.modifiedBy key priority strict = false := h
    simp only [SwChain.modify, SwTableLinear.modify, hcount hflows, if_true,
      hv.emergTable.mapFlows_of_forall (hg hflows)]
  | false =>
    rw [hem] at h
    have hflows : ∀ f ∈ dp.chain.workingFlows, f.modifiedBy key priority strict = false := h
    rw [hv.modify_eq hkey, hcount hflows]
    have hsub := hg hflows
    simp only [SwChain.workingFlows, SwTableHash2.flows, List.mem_append] at hsub
    simp only [SwChain.mapTables, SwChain.mapFlows_id,
      hv.subtable0.mapBuckets_of_forall fun f hf => hsub f (.inl (.inl hf)),
      hv.subtable1.mapBuckets_of_forall fun f hf => hsub f (.inl (.inr hf)),
      hv.linear.mapFlows_of_forall fun f hf => hsub f (.inr hf)]

/-- What a modification that finds no entry has in common with the addition: what is sent, the
return code and the buffers, and the tables but for the counters of the new entry. These differ only
when a packet has been taken out of its buffer. -/
structure SameButCount (ofm : OfpFlowMod) (now : BitVec 64) (buffer : Option (List Byte))
    (r r' : Datapath × List DpOutput × ℤ) : Prop where
  /-- What is sent, with the error messages, and the return code. -/
  sent : r.2 = r'.2
  /-- The packet buffers. -/
  buffers : r.1.buffers = r'.1.buffers
  /-- The time of the last timeout. -/
  lastTimeout : r.1.lastTimeout = r'.1.lastTimeout
  /-- The tables, but for the counters of the new entry. -/
  related : r.1.chain.Related (ofm.SameButCount now) r'.1.chain
  /-- The tables, when there is no packet. -/
  chain : buffer = none → r.1.chain = r'.1.chain

theorem SameButCount.of_eq {buffer : Option (List Byte)} {r r' : Datapath × List DpOutput × ℤ}
    (h : r = r') : SameButCount ofm now buffer r r' where
  sent := by rw [h]
  buffers := by rw [h]
  lastTimeout := by rw [h]
  related := h ▸ .refl (fun _ => .inl rfl) _
  chain _ := by rw [h]

/-- The checks of `add_flow`, when two of them do not fail. -/
theorem addFlowError_of_ne (hoverlap : dp.addFlowError ofm ≠ some .overlap)
    (htimeout : dp.addFlowError ofm ≠ some .badEmergTimeout) :
    dp.addFlowError ofm =
      if validateActions (flowExtractMatch ofm.ofpMatch) ofm.actions ≠ actValidationOk then
        some (.badAction (validateActions (flowExtractMatch ofm.ofpMatch) ofm.actions))
      else none := by
  unfold addFlowError at hoverlap htimeout ⊢
  simp only at hoverlap htimeout ⊢
  split
  next => rfl
  next hval =>
    rw [if_neg hval] at hoverlap htimeout
    split
    next hconflict => exact absurd (if_pos hconflict) hoverlap
    next hconflict =>
      rw [if_neg hconflict] at htimeout
      split
      next hemerg => exact absurd (if_pos hemerg) htimeout
      next => rfl

/-- The fall-through of `mod_flow` does what `add_flow` does, but for its checks and the count. -/
theorem ModifiesNone.sameButCount (h : dp.ModifiesNone ofm strict) (hv : dp.chain.Valid)
    (hoverlap : dp.addFlowError ofm ≠ some .overlap)
    (htimeout : dp.addFlowError ofm ≠ some .badEmergTimeout) :
    SameButCount ofm now (dp.takeBuffer ofm).1 (dp.modFlow now ofm strict)
      (dp.addFlow now ofm) := by
  have hbuffer := takeBuffer_chain dp ofm
  unfold modFlow addFlow
  rw [addFlowError_of_ne hoverlap htimeout]
  simp only [h.modify_eq hv]
  generalize dp.takeBuffer ofm = taken at hbuffer ⊢
  obtain ⟨buffer, dp'⟩ := taken
  have hdp' : { dp' with chain := dp.chain } = dp' := by rw [← hbuffer]
  by_cases hval : validateActions (flowExtractMatch ofm.ofpMatch) ofm.actions = actValidationOk
  · simp only [hval, ne_eq, not_true_eq_false, if_false, hdp']
    cases buffer with
    | none => exact .of_eq rfl
    | some b =>
      -- the entry of `add_flow` has the packet counted on it
      have hself : ∀ serial, ofm.SameButCount now { ofm.newFlow now with serial }
          { (ofm.newFlow now).flowUsed now b.length with serial } :=
        fun serial => .inr ⟨b.length, serial, rfl, rfl⟩
      have hkey : (ofm.newFlow now).key = ((ofm.newFlow now).flowUsed now b.length).key := rfl
      have hrel := SwChain.related_insert (R := ofm.SameButCount now) (fun _ => .inl rfl)
        dp.chain hkey rfl hself (hself 0) (ofm.hasFlag ofpffEmerg)
      simp only
      generalize dp.chain.insert (ofm.newFlow now) (ofm.hasFlag ofpffEmerg) = o,
        dp.chain.insert ((ofm.newFlow now).flowUsed now b.length) (ofm.hasFlag ofpffEmerg) = o'
        at hrel ⊢
      cases hrel with
      | none => exact .of_eq rfl
      | some hchain =>
        exact {
          sent := rfl
          buffers := rfl
          lastTimeout := rfl
          related := hchain
          chain := fun hnone => by cases hnone }
  · simp only [hval, ne_eq, not_false_eq_true, if_true]
    exact .of_eq rfl

end Datapath

/-! ### What the agent does -/

variable {σ : Type*} {platform : Option (DevProperties σ)} {agent : Agent σ} {ofm : OfpFlowMod}
  {strict : Bool}

/-- The agent does not handle modifications. -/
theorem handleFlowMod_of_isModification (h : ofm.IsModification strict) :
    handleFlowMod platform agent ofm = .ok agent := by
  cases platform with
  | none => rfl
  | some dev =>
    by_cases hfull : maxNumberOfFlows ≤ agent.insertedFlows.length
    · exact handleFlowMod_of_full hfull
    · rw [handleFlowMod_of_not_full hfull]
      unfold OfpFlowMod.IsModification at h
      cases strict <;> simp only [h] <;> rfl

/-- Both halves of the handling of a flow modification. -/
theorem recvFlow_of_handleFlowMod {agent : Agent σ} {s : System σ} {now : BitVec 64}
    (h : handleFlowMod platform s.agent ofm = .ok agent) :
    recvFlow platform now s ofm =
      .ok (⟨(s.dp.recvFlowTables now ofm).1, agent⟩, (s.dp.recvFlowTables now ofm).2) := by
  unfold recvFlow
  rw [h]

/-- A modification that finds no entry leaves the agent as it is. When the addition would not fail
the checks for overlap and for timeouts of emergency flows, it does to the datapath what the
addition does, but for the count of the packet that the buffer id names. -/
theorem modification_acts_like_addition {sizes : TableSizes} {device : σ} {s : System σ}
    (hr : System.Reachable platform sizes device s) (now : BitVec 64)
    (hmod : ofm.IsModification strict) (hnone : s.dp.ModifiesNone ofm strict) :
    recvFlow platform now s ofm =
        .ok (⟨(s.dp.recvFlowTables now ofm).1, s.agent⟩, (s.dp.recvFlowTables now ofm).2) ∧
      (s.dp.addFlowError ofm ≠ some .overlap → s.dp.addFlowError ofm ≠ some .badEmergTimeout →
        Datapath.SameButCount ofm now (s.dp.takeBuffer ofm).1 (s.dp.recvFlowTables now ofm)
          (s.dp.recvFlowTables now ofm.asAddition)) := by
  constructor
  · exact recvFlow_of_handleFlowMod (handleFlowMod_of_isModification hmod)
  · intro hoverlap htimeout
    have hv := Datapath.valid_of_reachable (System.dp_reachable hr)
    have hrecv : s.dp.recvFlowTables now ofm = s.dp.modFlow now ofm strict := by
      unfold OfpFlowMod.IsModification at hmod
      unfold Datapath.recvFlowTables
      cases strict <;> simp only [hmod] <;> rfl
    rw [hrecv]
    exact hnone.sameButCount hv hoverlap htimeout

/-- A modification that outputs the packets of an address to port 2. -/
def outputModification : OfpFlowMod := outputFlowMod 1 (wanMatch 1 10 1) 2

/-- It finds no entry on a new system. -/
theorem modifiesNone_outputModification :
    newSystem.dp.ModifiesNone outputModification false := by
  have hempty : newSystem.dp.chain.workingFlows = [] := by
    rw [SwChain.workingFlows, SwTableHash2.flows, SwTableHash.flows_of_forall_none fun _ => rfl,
      SwTableHash.flows_of_forall_none fun _ => rfl]
    rfl
  intro flow hflow
  have hmem : flow ∈ newSystem.dp.chain.workingFlows := hflow
  rw [hempty] at hmem
  cases hmem

/-- On a new system, such a modification leaves the tables that the addition leaves. -/
theorem modification_acts_like_addition_new :
    (newSystem.dp.recvFlowTables 0 outputModification).1.chain =
      (newSystem.dp.recvFlowTables 0 outputModification.asAddition).1.chain := by
  have hmod : outputModification.IsModification false := rfl
  have hr : System.Reachable zyxelPlatform .source .init newSystem := ⟨0, .refl⟩
  exact ((modification_acts_like_addition hr 0 hmod modifiesNone_outputModification).2
    (by decide +kernel) (by decide +kernel)).chain rfl

/-- A message has the effect of the addition: the same tables, buffers, agent and error messages. -/
def ActsLikeAddition (platform : Option (DevProperties σ)) (now : BitVec 64) (s : System σ)
    (ofm : OfpFlowMod) : Prop :=
  ∀ r r', recvFlow platform now s ofm = .ok r → recvFlow platform now s ofm.asAddition = .ok r' →
    r.1.dp.chain = r'.1.dp.chain ∧ r.1.dp.buffers = r'.1.dp.buffers ∧ r.1.agent = r'.1.agent ∧
      ∀ error length, .errorMsg error length ∈ r.2.1 ↔ .errorMsg error length ∈ r'.2.1

/-- The addition sets up a service for the address, and the modification does not. -/
theorem not_modification_acts_like_addition : ¬ ∀ (sizes : TableSizes) (s : System ZyxelState)
    (now : BitVec 64) (ofm : OfpFlowMod) (strict : Bool),
    System.Reachable zyxelPlatform sizes .init s → ofm.IsModification strict →
      s.dp.ModifiesNone ofm strict → ActsLikeAddition zyxelPlatform now s ofm := by
  intro hall
  obtain ⟨agent, hadd, hlength⟩ : ∃ agent,
      handleFlowMod zyxelPlatform newSystem.agent outputModification.asAddition = .ok agent ∧
        agent.insertedFlows.length = 1 := ⟨_, rfl, rfl⟩
  have hmod : outputModification.IsModification false := rfl
  have hsame := hall .source newSystem 0 outputModification false ⟨0, .refl⟩ hmod
    modifiesNone_outputModification _ _
    (recvFlow_of_handleFlowMod (handleFlowMod_of_isModification hmod))
    (recvFlow_of_handleFlowMod hadd)
  have hagent : newSystem.agent = agent := hsame.2.2.1
  rw [← hagent] at hlength
  exact absurd hlength (by decide)

end OfAgent
