import OfAgent.Table.Linear

/-!
# The order of a linear table

The two lists of a linear table over whole runs of its operations.

* `LinearEvent`, `SwTableLinear.step`: an operation on the table. `SwTableLinear.after`: the table
  behind operations on a new one.
* `SwTableLinear.Ordered`: the lookup list is in the order of priorities and, among equal ones, of
  insertion; the iteration list holds the same entries, the newest first; the counter counts them
  and keeps to the capacity. `ordered_after`: this holds behind all operations.
* `SwTableLinear.FindsBest`: what a lookup finds.
* `SwTableLinear.linear_ordered`: all of it, and that the serial numbers of the iteration list fall,
  as the words they are, until the counter for them has gone once around. `not_descending_wrapped`:
  not behind that.
-/

namespace OfAgent

/-- An operation on a linear table. -/
inductive LinearEvent
  /-- `table_linear_insert`. -/
  | insert (flow : SwFlow)
  /-- `table_linear_modify`. -/
  | modify (key : SwFlowKey) (priority : BitVec 16) (strict : Bool) (actions : List Byte)
  /-- `table_linear_delete`. -/
  | delete (key : SwFlowKey) (outPort priority : BitVec 16) (strict : Bool)
  /-- `table_linear_timeout`. -/
  | timeout (now : BitVec 64)

/-- The operation is an insertion. -/
def LinearEvent.isInsert : LinearEvent → Bool
  | insert _ => true
  | _ => false

namespace SwTableLinear

/-- The table behind an operation. A flow that is not taken leaves it alone. -/
def step (tl : SwTableLinear) : LinearEvent → SwTableLinear
  | .insert flow => (tl.insert flow).getD tl
  | .modify key priority strict actions => (tl.modify key priority strict actions).1
  | .delete key outPort priority strict => (tl.delete key outPort priority strict).1
  | .timeout now => (tl.timeout now).1

/-- The table behind operations on a new one. -/
def after (maxFlows : ℕ) (events : List LinearEvent) : SwTableLinear :=
  events.foldl step (tableLinearCreate maxFlows)

/-! ### The invariant -/

/-- The lists and the counter of a table. -/
structure Ordered (tl : SwTableLinear) : Prop where
  /-- Lookups try the entries by their priorities, and the older ones of a priority first. -/
  stable : PriorityList.Stable prio SwFlow.serial tl.flows
  /-- Iterations visit the same entries. -/
  perm : tl.iterFlows.Perm tl.flows
  /-- Iterations visit the newest entries first. -/
  descending : tl.iterFlows.Pairwise fun f g => g.serial < f.serial
  /-- The next serial number is not in use. -/
  serial_lt : ∀ f ∈ tl.iterFlows, f.serial < tl.nextSerial
  /-- The counter counts the entries. -/
  nFlows_eq : tl.nFlows = tl.flows.length
  /-- There are no more of them than there may be. -/
  nFlows_le : tl.nFlows ≤ tl.maxFlows

variable {tl tl' : SwTableLinear}

theorem ordered_create (maxFlows : ℕ) : (tableLinearCreate maxFlows).Ordered where
  stable := List.Pairwise.nil
  perm := List.Perm.refl _
  descending := List.Pairwise.nil
  serial_lt := fun f hf => by cases hf
  nFlows_eq := rfl
  nFlows_le := Nat.zero_le _

namespace Ordered

theorem listed (h : tl.Ordered) : tl.Listed := { h with }

theorem filterFlows (h : tl.Ordered) (p : SwFlow → Bool) : (tl.filterFlows p).Ordered :=
  { h.listed.filterFlows p with
    stable := h.stable.sublist List.filter_sublist
    nFlows_le := (Nat.sub_le _ _).trans h.nFlows_le }

/-- Changing entries without changing priorities and serial numbers keeps a table in order. -/
theorem mapFlows (h : tl.Ordered) {g : SwFlow → SwFlow}
    (hprio : ∀ f ∈ tl.flows, (g f).priority = f.priority)
    (hserial : ∀ f ∈ tl.flows, (g f).serial = f.serial) : (tl.mapFlows g).Ordered :=
  { h.listed.mapFlows hserial with
    stable := h.stable.map fun f hf => ⟨congrArg BitVec.toNat (hprio f hf), hserial f hf⟩
    nFlows_le := h.nFlows_le }

/-- `table_linear_insert` keeps a table in order. -/
theorem insert (h : tl.Ordered) {flow : SwFlow} (hins : tl.insert flow = some tl') :
    tl'.Ordered := by
  unfold SwTableLinear.insert at hins
  cases hr : findReplaced flow tl.flows with
  | some f =>
    simp only [hr, Option.some.injEq] at hins
    subst hins
    obtain ⟨hmem, hid⟩ := mem_of_findReplaced hr
    simp only [SwFlow.identical, Bool.and_eq_true, beq_iff_eq] at hid
    -- the flow takes the place of `f` in both lists, and its serial number
    refine h.mapFlows (fun a ha => ?_) fun a ha => ?_
    · split
      next heq =>
        obtain rfl := h.listed.eq_of_serial_eq ha hmem heq
        exact hid.1.1.symm
      next => rfl
    · split
      next heq => exact heq.symm
      next => rfl
  | none =>
    simp only [hr] at hins
    split at hins
    next => cases hins
    next hroom =>
      cases hins
      exact { h.listed.insertBehind rfl with
        stable := h.stable.insertBehind fun a ha => h.serial_lt a (h.perm.mem_iff.2 ha)
        nFlows_le := Nat.lt_of_not_le hroom }

/-- Every operation keeps a table in order. -/
theorem step (h : tl.Ordered) (e : LinearEvent) : (tl.step e).Ordered := by
  cases e with
  | insert flow =>
    cases hins : tl.insert flow with
    | none => rwa [SwTableLinear.step, hins]
    | some tl' =>
      rw [SwTableLinear.step, hins]
      exact h.insert hins
  | modify key priority strict actions =>
    refine h.mapFlows (fun f _ => ?_) fun f _ => ?_ <;> split <;> rfl
  | delete key outPort priority strict => exact h.filterFlows _
  | timeout now => exact h.filterFlows _

end Ordered

/-- A table is in order behind all operations. -/
theorem ordered_after (maxFlows : ℕ) (events : List LinearEvent) :
    (after maxFlows events).Ordered := by
  have hrun : ∀ tl : SwTableLinear, tl.Ordered → (events.foldl step tl).Ordered := by
    induction events with
    | nil => exact fun tl h => h
    | cons e events ih => exact fun tl h => ih _ (h.step e)
  exact hrun _ (ordered_create maxFlows)

/-- No operation changes the capacity. -/
@[simp]
theorem maxFlows_step (tl : SwTableLinear) (e : LinearEvent) :
    (tl.step e).maxFlows = tl.maxFlows := by
  cases e with
  | insert flow =>
    rw [SwTableLinear.step, SwTableLinear.insert]
    cases findReplaced flow tl.flows with
    | some f => rfl
    | none =>
      by_cases hroom : tl.maxFlows ≤ tl.nFlows
      · simp only [if_pos hroom, Option.getD_none]
      · simp only [if_neg hroom, Option.getD_some]
  | modify key priority strict actions => rfl
  | delete key outPort priority strict => rfl
  | timeout now => rfl

/-- An operation takes at most one serial number, and only an insertion takes one. -/
theorem nextSerial_step_le (tl : SwTableLinear) (e : LinearEvent) :
    (tl.step e).nextSerial ≤ tl.nextSerial + if e.isInsert then 1 else 0 := by
  cases e with
  | insert flow =>
    rw [SwTableLinear.step, SwTableLinear.insert]
    cases findReplaced flow tl.flows with
    | some f => exact Nat.le_succ _
    | none =>
      by_cases hroom : tl.maxFlows ≤ tl.nFlows
      · simp only [if_pos hroom, Option.getD_none]
        exact Nat.le_succ _
      · simp only [if_neg hroom, Option.getD_some]
        exact le_rfl
  | modify key priority strict actions => exact le_rfl
  | delete key outPort priority strict => exact le_rfl
  | timeout now => exact le_rfl

/-- The capacity is the one that the table has been made with. -/
theorem maxFlows_after (maxFlows : ℕ) (events : List LinearEvent) :
    (after maxFlows events).maxFlows = maxFlows := by
  have hrun : ∀ tl : SwTableLinear, (events.foldl SwTableLinear.step tl).maxFlows =
    tl.maxFlows := by
    induction events with
    | nil => exact fun tl => rfl
    | cons e events ih => exact fun tl => (ih _).trans (maxFlows_step tl e)
  exact hrun _

/-- The insertions bound the serial numbers. -/
theorem nextSerial_after_le (maxFlows : ℕ) (events : List LinearEvent) :
    (after maxFlows events).nextSerial ≤ events.countP LinearEvent.isInsert := by
  have hrun : ∀ tl : SwTableLinear,
      (events.foldl SwTableLinear.step tl).nextSerial ≤
        tl.nextSerial + events.countP LinearEvent.isInsert := by
    induction events with
    | nil => exact fun tl => le_rfl
    | cons e events ih =>
      intro tl
      have hstep := nextSerial_step_le tl e
      have hrest := ih (tl.step e)
      rw [List.countP_cons]
      change (events.foldl SwTableLinear.step (tl.step e)).nextSerial ≤ _
      omega
  have hall := hrun (tableLinearCreate maxFlows)
  rwa [show (tableLinearCreate maxFlows).nextSerial = 0 from rfl, Nat.zero_add] at hall

/-! ### What lookups find -/

/-- What `table_linear_lookup` makes of a key: no entry, if none matches it, and otherwise a
matching entry of maximal priority. -/
def FindsBest (tl : SwTableLinear) (key : SwFlowKey) : Prop :=
  match tl.lookup key with
  | none => ∀ g ∈ tl.flows, flowMatches1wild key g.key = false
  | some f => f ∈ tl.flows ∧ flowMatches1wild key f.key = true ∧
      ∀ g ∈ tl.flows, flowMatches1wild key g.key = true → prio g ≤ prio f

/-- Lookups in a table that is in order find the best entry. -/
theorem Ordered.findsBest (h : tl.Ordered) (key : SwFlowKey) : tl.FindsBest key := by
  rw [FindsBest]
  cases hlookup : tl.lookup key with
  | none =>
    intro g hg
    rw [SwTableLinear.lookup, List.find?_eq_none] at hlookup
    exact Bool.eq_false_iff.2 (hlookup g hg)
  | some f =>
    obtain ⟨hf, hmatch⟩ := lookup_eq_some hlookup
    exact ⟨hf, hmatch, fun g hg hmg => h.stable.sorted.find?_maximal hlookup hg hmg⟩

/-! ### Serial numbers as words -/

/-- The serial numbers of the iteration list fall, as `unsigned long`s of `w` bits. -/
def SerialsFall (tl : SwTableLinear) (w : ℕ) : Prop :=
  tl.iterFlows.Pairwise fun f g => BitVec.ofNat w g.serial < BitVec.ofNat w f.serial

/-- They fall while the counter for them has not gone around. -/
theorem Ordered.serialsFall (h : tl.Ordered) {w : ℕ} (hw : tl.nextSerial ≤ 2 ^ w) :
    tl.SerialsFall w := by
  refine h.descending.imp_of_mem fun {f g} hf hg hfg => ?_
  have hf' := (h.serial_lt f hf).trans_le hw
  rw [BitVec.lt_def, BitVec.toNat_ofNat, BitVec.toNat_ofNat, Nat.mod_eq_of_lt hf',
    Nat.mod_eq_of_lt (hfg.trans hf')]
  exact hfg

/-- Behind all operations on a new table its two lists hold the same entries in their orders, the
counter counts them and keeps to the capacity, every lookup finds a matching entry of maximal
priority, and while there have been at most `2 ^ w` insertions, the serial numbers fall as words of
`w` bits. -/
theorem linear_ordered (maxFlows : ℕ) (events : List LinearEvent) :
    (after maxFlows events).Ordered ∧ (after maxFlows events).nFlows ≤ maxFlows ∧
      (∀ key, (after maxFlows events).FindsBest key) ∧
      ∀ w, events.countP LinearEvent.isInsert ≤ 2 ^ w → (after maxFlows events).SerialsFall w := by
  have hord := ordered_after maxFlows events
  refine ⟨hord, ?_, hord.findsBest, fun w hw => ?_⟩
  · exact hord.nFlows_le.trans (maxFlows_after maxFlows events).le
  · exact hord.serialsFall ((nextSerial_after_le maxFlows events).trans hw)

/-- An entry without wildcards for the packets that come in at a port. -/
def portFlow (inPort : BitVec 16) : SwFlow where
  key := packetKey
    { nwSrc := 0, nwDst := 0, inPort, dlVlan := 0, dlType := 0, tpSrc := 0, tpDst := 0, dlSrc := 0,
      dlDst := 0,
      dlVlanPcp := 0, nwTos := 0, nwProto := 0 }
  cookie := 0
  priority := 0
  idleTimeout := 0
  hardTimeout := 0
  used := 0
  created := 0
  packetCount := 0
  byteCount := 0
  sendFlowRem := false
  emergFlow := false
  actions := []
  serial := 0

/-- Three insertions in a table for two entries. -/
theorem linear_ordered_three :
    (after 2 [.insert (portFlow 1), .insert (portFlow 2), .insert (portFlow 3)]).SerialsFall 32 :=
  (linear_ordered 2 [.insert (portFlow 1), .insert (portFlow 2),
    .insert (portFlow 3)]).2.2.2 32 (by decide)

/-! ### A counter that has gone around -/

/-- An entry that stays, and another one that comes and goes so often that the counter for serial
numbers of `w` bits comes back to the first entry's number. -/
def wrapping (w : ℕ) : List LinearEvent :=
  .insert (portFlow 1) ::
    (List.replicate (2 ^ w - 1)
      [LinearEvent.insert (portFlow 2), .delete (portFlow 2).key ofppNone 0 true]).flatten ++
    [.insert (portFlow 2)]

/-- The table that holds the first entry only. -/
def holding (serial : ℕ) : SwTableLinear :=
  { maxFlows := 2, nFlows := 1, flows := [portFlow 1], iterFlows := [portFlow 1],
    nextSerial := serial }

theorem step_holding (serial : ℕ) : (holding serial).step (.insert (portFlow 2)) =
    { maxFlows := 2, nFlows := 2, flows := [portFlow 1, { portFlow 2 with serial }],
      iterFlows := [{ portFlow 2 with serial }, portFlow 1], nextSerial := serial + 1 } := rfl

/-- The second entry comes and goes. -/
theorem turn_holding (serial : ℕ) :
    [LinearEvent.insert (portFlow 2), .delete (portFlow 2).key ofppNone 0 true].foldl step
        (holding serial) =
      holding (serial + 1) := by
  have hfirst : deletes (portFlow 2).key ofppNone 0 true (portFlow 1) = false := by decide
  have hsecond : deletes (portFlow 2).key ofppNone 0 true { portFlow 2 with serial } = true :=
    show deletes (portFlow 2).key ofppNone 0 true (portFlow 2) = true by decide
  change ((holding serial).step (.insert (portFlow 2))).step
    (.delete (portFlow 2).key ofppNone 0 true) = _
  rw [step_holding]
  simp only [SwTableLinear.step, SwTableLinear.delete, SwTableLinear.filterFlows, holding,
    List.filter_cons,
    hfirst, hsecond, List.filter_nil]
  rfl

/-- The second entry comes and goes any number of times. -/
theorem turns_holding (n serial : ℕ) :
    (List.replicate n
        [LinearEvent.insert (portFlow 2), .delete (portFlow 2).key ofppNone 0 true]).flatten.foldl
      step (holding serial) = holding (serial + n) := by
  induction n generalizing serial with
  | zero => rfl
  | succ n ih =>
    rw [List.replicate_succ, List.flatten_cons, List.foldl_append, turn_holding, ih]
    congr 1
    omega

/-- Once the counter has gone around, two entries have the same serial number. -/
theorem not_serialsFall_wrapping (w : ℕ) : ¬ (after 2 (wrapping w)).SerialsFall w := by
  have hpos := Nat.two_pow_pos w
  have hrun : after 2 (wrapping w) = (holding (2 ^ w)).step (.insert (portFlow 2)) := by
    rw [after, wrapping, List.cons_append, List.foldl_cons, List.foldl_append]
    change List.foldl _ (List.foldl _ (holding 1) _) _ = _
    rw [turns_holding, Nat.add_sub_cancel' hpos]
    rfl
  rw [hrun, step_holding]
  intro hfall
  obtain ⟨hlt, -⟩ := List.pairwise_cons.1 hfall
  have hzero := hlt (portFlow 1) (List.mem_singleton.2 rfl)
  rw [BitVec.lt_def, BitVec.toNat_ofNat, BitVec.toNat_ofNat, Nat.mod_self] at hzero
  exact Nat.not_lt_zero _ hzero

/-- With an `unsigned long` of 64 bits as with one of 32 bits, there are operations behind which the
serial numbers do not fall. -/
theorem not_descending_wrapped :
    ¬ (after 2 (wrapping 64)).SerialsFall 64 ∧ ¬ (after 2 (wrapping 32)).SerialsFall 32 :=
  ⟨not_serialsFall_wrapping 64, not_serialsFall_wrapping 32⟩

end SwTableLinear

end OfAgent
