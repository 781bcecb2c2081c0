import Mathlib.Data.List.Pairwise
import OfAgent.Lib.PriorityList
import OfAgent.Table.Hash

/-!
# Linear tables

`table-linear.c`: a table of entries with wildcards, in a list that lookups search in the order
of priorities and in a second list that iterations follow. An entry is a node of both lists; the
model keeps a copy in each, and the serial number says which copies belong together.

* `SwTableLinear`: the table with its `lookup`, `insert`, `modify`, `hasConflict`, `delete`,
  `timeout` and `iterate`.
* `SwTableLinear.Valid`: the lists hold the same entries, the first in the order of priorities
  and without two copies of a flow, the second in falling order of serial numbers.
* `Valid.insert`, `Valid.filterFlows`, `Valid.mapFlows`: the functions keep a table valid.
-/

namespace OfAgent

/-- `struct sw_table_linear`. -/
structure SwTableLinear where
  /-- The capacity. -/
  maxFlows : ℕ
  /-- The number of entries. -/
  nFlows : ℕ
  /-- The entries in the order in which lookups try them. -/
  flows : List SwFlow
  /-- The entries in the order in which iterations visit them. -/
  iterFlows : List SwFlow
  /-- The serial number of the next new entry; the source keeps it modulo `2 ^ 64`. -/
  nextSerial : ℕ

/-- `table_linear_create`. -/
def tableLinearCreate (maxFlows : ℕ) : SwTableLinear :=
  { maxFlows, nFlows := 0, flows := [], iterFlows := [], nextSerial := 0 }

namespace SwTableLinear

variable {σ : Type*} (tl : SwTableLinear)

/-- The priority that orders the list of lookups. -/
abbrev prio (flow : SwFlow) : ℕ := flow.priority.toNat

/-- `table_linear_lookup`. -/
def lookup (key : SwFlowKey) : Option SwFlow :=
  tl.flows.find? fun flow => flowMatches1wild key flow.key

/-- The table with `g` applied to the entry with the given serial number. -/
def updateSerial (serial : ℕ) (g : SwFlow → SwFlow) : SwTableLinear :=
  let update flow := if flow.serial = serial then g flow else flow
  { tl with flows := tl.flows.map update, iterFlows := tl.iterFlows.map update }

/-- The table after `g` has been applied to the entry that `lookup` points to. -/
def updateLookup (key : SwFlowKey) (g : SwFlow → SwFlow) : SwTableLinear :=
  match tl.lookup key with
  | some flow => tl.updateSerial flow.serial g
  | none => tl

/-- The loop of `table_linear_insert`: the entry that `flow` replaces, if it meets one before the
first entry of lower priority. -/
def findReplaced (flow : SwFlow) : List SwFlow → Option SwFlow
  | [] => none
  | f :: fs =>
      if f.identical flow then some f
      else if f.priority < flow.priority then none
      else findReplaced flow fs

/-- `table_linear_insert`: the table with the flow, if there is room for it. -/
def insert (flow : SwFlow) : Option SwTableLinear :=
  match findReplaced flow tl.flows with
  | some f => some (tl.updateSerial f.serial fun _ => { flow with serial := f.serial })
  | none =>
      -- make sure there's room in the table
      if tl.maxFlows ≤ tl.nFlows then none
      else
        let flow := { flow with serial := tl.nextSerial }
        some { tl with
          nFlows := tl.nFlows + 1
          flows := PriorityList.insertBehind prio flow tl.flows
          iterFlows := flow :: tl.iterFlows
          nextSerial := tl.nextSerial + 1 }

/-- The table with `g` applied to every entry. -/
def mapFlows (g : SwFlow → SwFlow) : SwTableLinear :=
  { tl with flows := tl.flows.map g, iterFlows := tl.iterFlows.map g }

/-- `table_linear_modify`: the table and the number of modified entries. -/
def modify (key : SwFlowKey) (priority : BitVec 16) (strict : Bool) (actions : List Byte) :
    SwTableLinear × ℕ :=
  (tl.mapFlows fun flow =>
    if flow.modifiedBy key priority strict then flow.replaceActs actions else flow,
    (tl.flows.filter (SwFlow.modifiedBy key priority strict)).length)

/-- `table_linear_has_conflict`. -/
def hasConflict (key : SwFlowKey) (priority : BitVec 16) (strict : Bool) : Bool :=
  tl.flows.any (SwFlow.conflictsWith key priority strict)

/-- The table with only the entries that satisfy `p`. -/
def filterFlows (p : SwFlow → Bool) : SwTableLinear :=
  { tl with
    nFlows := tl.nFlows - (tl.flows.filter fun flow => !p flow).length
    flows := tl.flows.filter p
    iterFlows := tl.iterFlows.filter p }

/-- The condition under which `table_linear_delete` deletes an entry. -/
def deletes (key : SwFlowKey) (outPort priority : BitVec 16) (strict : Bool) (flow : SwFlow) :
    Bool :=
  flowMatchesDesc flow.key key strict && flow.flowHasOutPort outPort
    && (!strict || flow.priority == priority)

/-- `table_linear_delete`: the table and the deleted entries. -/
def delete (key : SwFlowKey) (outPort priority : BitVec 16) (strict : Bool) :
    SwTableLinear × List SwFlow :=
  (tl.filterFlows fun flow => !deletes key outPort priority strict flow,
    tl.flows.filter (deletes key outPort priority strict))

/-- `table_linear_timeout`: the table and the expired entries with their reasons. -/
def timeout (now : BitVec 64) : SwTableLinear × List (SwFlow × OfpFlowRemovedReason) :=
  (tl.filterFlows fun flow => (flow.flowTimeout now).isNone,
    tl.flows.filterMap fun flow => (flow.flowTimeout now).map fun reason => (flow, reason))

/-- `flow->serial`. -/
def serialWord (flow : SwFlow) : BitVec 64 := BitVec.ofNat 64 flow.serial

/-- The entries that an iteration from serial number `start` down passes to its callback. -/
def candidates (key : SwFlowKey) (outPort : BitVec 16) (start : BitVec 64) : List SwFlow :=
  tl.iterFlows.filter fun flow =>
    serialWord flow ≤ start && flowMatches2wild key flow.key && flow.flowHasOutPort outPort

/-- `table_linear_iterate`: the state of the callback, the position, and the error. -/
def iterate (key : SwFlowKey) (outPort : BitVec 16) (callback : σ → SwFlow → σ × ℤ)
    (position : SwTablePosition) (s : σ) : σ × SwTablePosition × ℤ :=
  match Visit.visit callback (tl.candidates key outPort (~~~position.private0)) s with
  | (s, none) => (s, position, 0)
  | (s, some stop) =>
      (s, { position with private0 := ~~~(serialWord stop.elem - 1) }, stop.error)

/-! ### Valid tables -/

/-- What holds of every table that the functions above build. -/
structure Valid : Prop where
  /-- Lookups try the entries in the order of their priorities. -/
  sorted : PriorityList.Sorted prio tl.flows
  /-- No two entries are the same flow. -/
  distinct : tl.flows.Pairwise fun f g => f.identical g = false
  /-- Iterations visit the same entries. -/
  perm : tl.iterFlows.Perm tl.flows
  /-- Iterations visit the entries in falling order of serial numbers. -/
  descending : tl.iterFlows.Pairwise fun f g => g.serial < f.serial
  /-- The next serial number is not in use. -/
  serial_lt : ∀ f ∈ tl.iterFlows, f.serial < tl.nextSerial
  /-- The number of entries is the length of the list. -/
  nFlows_eq : tl.nFlows = tl.flows.length
  /-- Every entry is well formed. -/
  wellFormed : ∀ f ∈ tl.flows, f.WellFormed

variable {tl}

theorem valid_create (maxFlows : ℕ) : (tableLinearCreate maxFlows).Valid := by
  constructor <;> simp [tableLinearCreate, PriorityList.Sorted]

/-- The part of this that does not depend on how lookups try the entries. -/
structure Listed (tl : SwTableLinear) : Prop where
  /-- Both lists have the same entries. -/
  perm : tl.iterFlows.Perm tl.flows
  /-- The serial numbers fall. -/
  descending : tl.iterFlows.Pairwise fun f g => g.serial < f.serial
  /-- The next one is not in use. -/
  serial_lt : ∀ f ∈ tl.iterFlows, f.serial < tl.nextSerial
  /-- The entries are counted. -/
  nFlows_eq : tl.nFlows = tl.flows.length

theorem Valid.listed (h : tl.Valid) : tl.Listed := { h with }

namespace Listed

/-- Two entries with one serial number are one entry. -/
theorem eq_of_serial_eq (h : tl.Listed) {f g : SwFlow} (hf : f ∈ tl.flows) (hg : g ∈ tl.flows)
    (heq : f.serial = g.serial) : f = g := by
  by_contra hne
  have : Std.Symm fun a b : SwFlow => a.serial ≠ b.serial := ⟨fun _ _ => Ne.symm⟩
  have hpw : tl.iterFlows.Pairwise fun a b => a.serial ≠ b.serial :=
    h.descending.imp fun hab => hab.ne'
  exact hpw.forall (h.perm.mem_iff.2 hf) (h.perm.mem_iff.2 hg) hne heq

theorem filterFlows (h : tl.Listed) (p : SwFlow → Bool) : (tl.filterFlows p).Listed where
  perm := h.perm.filter p
  descending := h.descending.filter p
  serial_lt := fun f hf => h.serial_lt f (List.mem_of_mem_filter hf)
  nFlows_eq := by
    change tl.nFlows - _ = (tl.flows.filter p).length
    have := List.length_eq_length_filter_add (l := tl.flows) p
    rw [h.nFlows_eq]
    omega

/-- The serial numbers must stay. -/
theorem mapFlows (h : tl.Listed) {g : SwFlow → SwFlow}
    (hser : ∀ f ∈ tl.flows, (g f).serial = f.serial) : (tl.mapFlows g).Listed where
  perm := h.perm.map g
  descending := by
    change (tl.iterFlows.map g).Pairwise _
    rw [List.pairwise_map]
    refine h.descending.imp_of_mem fun {a b} ha hb hab => ?_
    rw [hser a (h.perm.mem_iff.1 ha), hser b (h.perm.mem_iff.1 hb)]
    exact hab
  serial_lt := fun f hf => by
    obtain ⟨a, ha, rfl⟩ := List.mem_map.1 hf
    rw [hser a (h.perm.mem_iff.1 ha)]
    exact h.serial_lt a ha
  nFlows_eq := h.nFlows_eq.trans (List.length_map g).symm

/-- A new entry gets the next serial number. -/
theorem insertBehind (h : tl.Listed) {flow : SwFlow} (hser : flow.serial = tl.nextSerial) :
    Listed { tl with
      nFlows := tl.nFlows + 1
      flows := PriorityList.insertBehind prio flow tl.flows
      iterFlows := flow :: tl.iterFlows
      nextSerial := tl.nextSerial + 1 } := by
  have hperm := PriorityList.perm_insertBehind prio flow tl.flows
  refine ⟨(h.perm.cons _).trans hperm.symm, ?_, ?_, ?_⟩
  · exact List.pairwise_cons.2 ⟨fun a ha => hser ▸ h.serial_lt a ha, h.descending⟩
  · intro a ha
    rcases List.mem_cons.1 ha with rfl | ha
    · exact hser ▸ Nat.lt_succ_self _
    · exact Nat.lt_succ_of_lt (h.serial_lt a ha)
  · rw [hperm.length_eq, List.length_cons, ← h.nFlows_eq]

end Listed

/-- Removing entries keeps a table valid. -/
theorem Valid.filterFlows (h : tl.Valid) (p : SwFlow → Bool) : (tl.filterFlows p).Valid :=
  { h.listed.filterFlows p with
    sorted := h.sorted.sublist List.filter_sublist
    distinct := h.distinct.filter p
    wellFormed := fun f hf => h.wellFormed f (List.mem_of_mem_filter hf) }

/-- Changing entries into entries of the same flow and serial number keeps a table valid. -/
theorem Valid.mapFlows (h : tl.Valid) {g : SwFlow → SwFlow}
    (hwf : ∀ f ∈ tl.flows, (g f).WellFormed)
    (hid : ∀ f ∈ tl.flows, (g f).identical f = true)
    (hser : ∀ f ∈ tl.flows, (g f).serial = f.serial) : (tl.mapFlows g).Valid :=
  { h.listed.mapFlows hser with
    sorted := by
      refine h.sorted.map fun f hf => ?_
      have := hid f hf
      simp only [SwFlow.identical, Bool.and_eq_true, beq_iff_eq] at this
      exact congrArg BitVec.toNat this.1.1
    distinct := by
      change (tl.flows.map g).Pairwise _
      rw [List.pairwise_map]
      refine h.distinct.imp_of_mem fun {a b} ha hb hab => ?_
      -- both flows are replaced by identical ones, on one side after the other
      rw [(hwf b hb).identical_congr_right (h.wellFormed b hb) (hwf a ha) (hid b hb),
        SwFlow.identical_comm,
        (hwf a ha).identical_congr_right (h.wellFormed a ha) (h.wellFormed b hb) (hid a ha),
        SwFlow.identical_comm, hab]
    wellFormed := fun f hf => by
      obtain ⟨a, ha, rfl⟩ := List.mem_map.1 hf
      exact hwf a ha }

/-- Changing entries without changing keys, priorities and serial numbers keeps a table valid. -/
theorem Valid.mapFlows_of_key_eq (h : tl.Valid) {g : SwFlow → SwFlow}
    (hk : ∀ f, (g f).key = f.key) (hp : ∀ f, (g f).priority = f.priority)
    (hser : ∀ f, (g f).serial = f.serial) : (tl.mapFlows g).Valid := by
  refine h.mapFlows (fun f hf => (h.wellFormed f hf).congr (hk f) (hp f)) (fun f _ => ?_)
    fun f _ => hser f
  rw [SwFlow.identical_congr (hk f) (hp f) rfl rfl, SwFlow.identical_self]

/-- `table_linear_lookup` finds an entry that matches. -/
theorem lookup_eq_some {key : SwFlowKey} {f : SwFlow} (h : tl.lookup key = some f) :
    f ∈ tl.flows ∧ flowMatches1wild key f.key = true := by
  unfold lookup at h
  exact ⟨List.mem_of_find?_eq_some h, by simpa using List.find?_some h⟩

/-- The entry that an insertion replaces is in the list and is the same flow. -/
theorem mem_of_findReplaced {flow f : SwFlow} {l : List SwFlow}
    (h : findReplaced flow l = some f) : f ∈ l ∧ f.identical flow = true := by
  induction l with
  | nil => cases h
  | cons a l ih =>
    rw [findReplaced] at h
    split at h
    next hid =>
      cases h
      exact ⟨List.mem_cons_self, hid⟩
    next =>
      split at h
      next => cases h
      next =>
        obtain ⟨hmem, hid⟩ := ih h
        exact ⟨List.mem_cons_of_mem a hmem, hid⟩

/-- If an insertion finds nothing to replace in a sorted list, no entry is the same flow. -/
theorem findReplaced_eq_none {flow : SwFlow} {l : List SwFlow}
    (hsort : PriorityList.Sorted prio l) (h : findReplaced flow l = none) :
    ∀ f ∈ l, f.identical flow = false := by
  induction l with
  | nil => simp
  | cons a l ih =>
    obtain ⟨ha, hl⟩ := List.pairwise_cons.1 hsort
    rw [findReplaced] at h
    split at h
    next => cases h
    next hid =>
      split at h
      next hlt =>
        -- every entry from here on has a lower priority than the flow
        intro f hf
        have hle : f.priority.toNat ≤ a.priority.toNat := by
          rcases List.mem_cons.1 hf with rfl | hf
          · exact le_rfl
          · exact ha f hf
        have hne : f.priority ≠ flow.priority := by
          rintro heq
          rw [heq] at hle
          exact absurd hlt (by rw [BitVec.lt_def]; omega)
        simp [SwFlow.identical, hne]
      next =>
        intro f hf
        rcases List.mem_cons.1 hf with rfl | hf
        · exact Bool.eq_false_iff.2 hid
        · exact ih hl h f hf

/-- The serial number of an entry does not count in comparisons. -/
theorem identical_with_serial (f flow : SwFlow) (serial : ℕ) :
    f.identical { flow with serial } = f.identical flow := rfl

/-- `table_linear_insert` keeps a table valid. -/
theorem Valid.insert (h : tl.Valid) {flow : SwFlow} (hwf : flow.WellFormed)
    {tl' : SwTableLinear} (hins : tl.insert flow = some tl') : tl'.Valid := by
  have hwf' : ∀ serial, ({ flow with serial } : SwFlow).WellFormed := fun _ => hwf.congr rfl rfl
  unfold SwTableLinear.insert at hins
  cases hr : findReplaced flow tl.flows with
  | some f =>
    simp only [hr, Option.some.injEq] at hins
    subst hins
    -- the flow takes the place and the serial number of the one it replaces
    obtain ⟨hmem, hid⟩ := mem_of_findReplaced hr
    refine h.mapFlows (fun a ha => ?_) (fun a ha => ?_) fun a ha => ?_
    · split
      · exact hwf' _
      · exact h.wellFormed a ha
    · split
      next heq =>
        obtain rfl := h.listed.eq_of_serial_eq ha hmem heq
        rw [SwFlow.identical_comm, identical_with_serial, hid]
      next => exact SwFlow.identical_self a
    · split
      next heq => exact heq.symm
      next => rfl
  | none =>
    simp only [hr] at hins
    split at hins
    next => cases hins
    next =>
      cases hins
      -- the flow is a new one, behind those of its priority
      have hnew := findReplaced_eq_none h.sorted hr
      have hperm :=
        PriorityList.perm_insertBehind prio { flow with serial := tl.nextSerial } tl.flows
      refine { h.listed.insertBehind rfl with
        sorted := h.sorted.insertBehind _, distinct := ?_, wellFormed := ?_ }
      · rw [hperm.pairwise_iff fun hab => by rw [SwFlow.identical_comm, hab]]
        refine List.pairwise_cons.2 ⟨fun a ha => ?_, h.distinct⟩
        rw [SwFlow.identical_comm, identical_with_serial]
        exact hnew a ha
      · intro a ha
        rcases (PriorityList.mem_insertBehind prio).1 ha with rfl | ha
        · exact hwf' _
        · exact h.wellFormed a ha

/-- A table that has taken a flow holds it, under some serial number, and otherwise only what it
held. -/
theorem Valid.mem_flows_insert (h : tl.Valid) {flow : SwFlow} (hwf : flow.WellFormed)
    {tl' : SwTableLinear} (hins : tl.insert flow = some tl') {g : SwFlow} (hg : g ∈ tl'.flows) :
    (∃ serial, g = { flow with serial }) ∨ g ∈ tl.flows ∧ g.identical flow = false := by
  unfold SwTableLinear.insert at hins
  cases hr : findReplaced flow tl.flows with
  | some f =>
    simp only [hr, Option.some.injEq] at hins
    subst hins
    obtain ⟨hmem, hid⟩ := mem_of_findReplaced hr
    obtain ⟨a, ha, rfl⟩ := List.mem_map.1 hg
    simp only
    split
    next => exact .inl ⟨_, rfl⟩
    next hne =>
      refine .inr ⟨ha, ?_⟩
      rw [← (h.wellFormed f hmem).identical_congr_right hwf (h.wellFormed a ha) hid]
      exact h.distinct.forall ha hmem fun heq => hne (by rw [heq])
  | none =>
    simp only [hr] at hins
    split at hins
    next => cases hins
    next =>
      cases hins
      rcases (PriorityList.mem_insertBehind prio).1 hg with rfl | hg
      · exact .inl ⟨_, rfl⟩
      · exact .inr ⟨hg, findReplaced_eq_none h.sorted hr g hg⟩

end SwTableLinear

end OfAgent
