import OfAgent.Flow.Entry
import OfAgent.Lib.Transition
import OfAgent.Packet.Execute

/-!
# The boundaries of actions

Three functions walk over the bytes of an action list. `validate_actions` checks every step;
`execute_actions` and `flow_has_out_port` rely on it.

* `AcceptedAction`: what `validate_actions` asks of a single action; `actionItems`: the actions of a
  list.
* `validateActions_eq_ok_iff`: an accepted list is a concatenation of such actions.
* `hasOutPort`: `flow_has_out_port` with its reads checked.
* `executeActions_flatten`, `hasOutPort_flatten`: on an accepted list the other two functions go
  from action to action and read nothing else; `validateActions_boundaries` for all three.
-/

namespace OfAgent

/-- An action that `validate_actions` accepts for a key: a known one, of the size that its type
asks for and a multiple of 64 bits, with arguments that pass their check. -/
structure AcceptedAction (key : SwFlowKey) (a : List Byte) : Prop where
  /-- The header says how long the action is. -/
  length_eq : actionLen a = a.length
  /-- The action is not empty. -/
  pos : 0 < a.length
  /-- Its length is a multiple of 64 bits. -/
  dvd : 8 ∣ a.length
  /-- It has a known type, whose size and check it meets. -/
  known : ∃ act, ofActions[(actionType a).toNat]? = some act ∧
    act.minSize ≤ a.length ∧ a.length ≤ act.maxSize ∧
    ∀ validate, act.validate = some validate → validate key a = actValidationOk

namespace AcceptedAction

variable {key : SwFlowKey} {a : List Byte}

theorem header_le (h : AcceptedAction key a) : sizeofOfpActionHeader ≤ a.length :=
  Nat.le_of_dvd h.pos h.dvd

theorem isItem (h : AcceptedAction key a) : Tlv.IsItem sizeofOfpActionHeader actionLen a :=
  ⟨h.header_le, h.pos, h.length_eq⟩

end AcceptedAction

/-! ### Validation -/

/-- The checks of the arguments read the port of the action only. -/
theorem validate_append {act : OpenflowAction} (hact : act ∈ ofActions)
    {validate : SwFlowKey → List Byte → BitVec 16} (hv : act.validate = some validate)
    (key : SwFlowKey) {a : List Byte} (ha : sizeofOfpActionHeader ≤ a.length) (b : List Byte) :
    validate key (a ++ b) = validate key a := by
  have hport : be16 (a ++ b) 4 = be16 a 4 :=
    be16_append (by rw [sizeofOfpActionHeader] at ha; omega) b
  simp only [ofActions, List.mem_cons, List.not_mem_nil, or_false] at hact
  rcases hact with rfl | rfl | rfl | rfl | rfl | rfl | rfl | rfl | rfl | rfl | rfl | rfl <;>
    cases hv
  · rw [validateOutput, validateOutput, hport]
  · rw [validateQueue, validateQueue, hport]

/-- What `validate_actions` asks of the action at the front, apart from its multiple of 8. -/
theorem validateAction_eq_ok_iff {key : SwFlowKey} {ah : List Byte} {len : ℕ} :
    validateAction key ah len = actValidationOk ↔
      ∃ act, ofActions[(actionType ah).toNat]? = some act ∧ act.minSize ≤ len ∧
        len ≤ act.maxSize ∧ ∀ validate, act.validate = some validate →
          validate key ah = actValidationOk := by
  have hlen : ofpbacBadLen ≠ actValidationOk := by decide
  have htype : ofpbacBadType ≠ actValidationOk := by decide
  have hvendor : ofpbacBadVendor ≠ actValidationOk := by decide
  unfold validateAction
  cases hact : ofActions[(actionType ah).toNat]? with
  | none =>
    -- a type that is not in the table is refused, and so is every vendor
    simp only [reduceCtorEq, false_and, exists_false, iff_false]
    split
    · unfold validateVendor
      split
      · exact hlen
      · exact hvendor
    · exact htype
  | some act =>
    simp only [Option.some.injEq, exists_eq_left', validateOfpat]
    split
    next hbad =>
      simp only [Bool.or_eq_true, decide_eq_true_eq] at hbad
      exact ⟨fun h => absurd h hlen, fun h => by omega⟩
    next hgood =>
      simp only [Bool.or_eq_true, decide_eq_true_eq, not_or, Nat.not_lt] at hgood
      cases hv : act.validate with
      | none => simp [hgood.1, hgood.2]
      | some validate => simp [hgood.1, hgood.2]

/-- The loop of `validate_actions` accepts concatenations of accepted actions, whatever its
fuel. -/
theorem validateActionsLoop_flatten {key : SwFlowKey} {as : List (List Byte)}
    (has : ∀ a ∈ as, AcceptedAction key a) {fuel : ℕ} (hfuel : as.length ≤ fuel) :
    validateActionsLoop key fuel as.flatten = actValidationOk := by
  induction as generalizing fuel with
  | nil => cases fuel <;> rfl
  | cons a as ih =>
    obtain ⟨fuel, rfl⟩ : ∃ n, fuel = n + 1 :=
      Nat.exists_eq_add_one.2 (by rw [List.length_cons] at hfuel; omega)
    have ha := has a List.mem_cons_self
    have hhdr := ha.header_le
    have hlen := ha.isItem.len_append actionLen_append as.flatten
    have hmul : a.length % 8 = 0 := Nat.mod_eq_zero_of_dvd ha.dvd
    have hsize : (a ++ as.flatten).length = a.length + as.flatten.length := List.length_append
    -- the check of the action does not see what follows it
    have hcheck : validateAction key (a ++ as.flatten) a.length = actValidationOk := by
      obtain ⟨act, hact, hmin, hmax, hval⟩ := ha.known
      rw [validateAction_eq_ok_iff, actionType_append hhdr]
      refine ⟨act, hact, hmin, hmax, fun validate hv => ?_⟩
      rw [validate_append (List.mem_of_getElem? hact) hv key hhdr]
      exact hval validate hv
    rw [List.flatten_cons, validateActionsLoop, if_neg (by omega)]
    simp only [hlen]
    rw [if_neg (by omega), if_neg (not_not.2 hcheck), List.drop_left]
    exact ih (fun x hx => has x (List.mem_cons_of_mem _ hx)) (Nat.le_of_succ_le_succ hfuel)

/-- What the loop of `validate_actions` accepts is a concatenation of accepted actions. -/
theorem exists_flatten_of_validateActionsLoop {key : SwFlowKey} {fuel : ℕ} {rest : List Byte}
    (h : validateActionsLoop key fuel rest = actValidationOk) :
    ∃ as : List (List Byte), as.flatten = rest ∧ ∀ a ∈ as, AcceptedAction key a := by
  have hbad : ofpbacBadLen ≠ actValidationOk := by decide
  have hnil : ∀ rest : List Byte,
      (if rest.length ≠ 0 then ofpbacBadLen else actValidationOk) = actValidationOk →
      ∃ as : List (List Byte), as.flatten = rest ∧ ∀ a ∈ as, AcceptedAction key a := by
    intro rest h
    split at h
    next => exact absurd h hbad
    next hzero =>
      rw [not_not, List.length_eq_zero_iff] at hzero
      exact ⟨[], hzero.symm, by simp⟩
  induction fuel generalizing rest with
  | zero => exact hnil rest h
  | succ fuel ih =>
    rw [validateActionsLoop] at h
    split at h
    next => exact hnil rest h
    next hhdr =>
      simp only at h
      split at h
      next => exact absurd h hbad
      next hlen =>
        rw [not_or, not_not, Nat.not_lt] at hlen
        split at h
        next herr => exact absurd h herr
        next herr =>
          rw [not_not, validateAction_eq_ok_iff] at herr
          obtain ⟨as, hflat, has⟩ := ih h
          obtain ⟨act, hact, hmin, hmax, hval⟩ := herr
          have hmem := List.mem_of_getElem? hact
          have h8 := (le_minSize_of_mem_ofActions hmem).trans hmin
          have hsize : (rest.take (actionLen rest)).length = actionLen rest :=
            List.length_take_of_le hlen.1
          have hhdr' : sizeofOfpActionHeader ≤ (rest.take (actionLen rest)).length := by
            rw [hsize]
            exact h8
          have hsplit := List.take_append_drop (actionLen rest) rest
          have htype : actionType (rest.take (actionLen rest)) = actionType rest := by
            rw [← actionType_append hhdr' (rest.drop (actionLen rest)), hsplit]
          -- the first action is what its header claims
          have hfirst : AcceptedAction key (rest.take (actionLen rest)) := by
            refine ⟨?_, ?_, ?_, act, htype ▸ hact, ?_, ?_, fun validate hv => ?_⟩
            · rw [← actionLen_append _ (rest.drop (actionLen rest)) hhdr', hsplit, hsize]
            · rw [sizeofOfpActionHeader] at hhdr'
              omega
            · rw [hsize]
              exact Nat.dvd_of_mod_eq_zero hlen.2
            · rw [hsize]
              exact hmin
            · rw [hsize]
              exact hmax
            · rw [← validate_append hmem hv key hhdr' (rest.drop (actionLen rest)), hsplit]
              exact hval validate hv
          refine ⟨rest.take (actionLen rest) :: as, ?_, ?_⟩
          · rw [List.flatten_cons, hflat, hsplit]
          · intro a ha
            rcases List.mem_cons.1 ha with rfl | ha
            · exact hfirst
            · exact has a ha

/-- There are at most as many actions as bytes. -/
theorem length_le_length_flatten {key : SwFlowKey} {as : List (List Byte)}
    (has : ∀ a ∈ as, AcceptedAction key a) : as.length ≤ as.flatten.length := by
  induction as with
  | nil => exact Nat.le_refl 0
  | cons a as ih =>
    have hpos := (has a List.mem_cons_self).pos
    have ih := ih fun x hx => has x (List.mem_cons_of_mem _ hx)
    rw [List.flatten_cons, List.length_append, List.length_cons]
    omega

/-- `validate_actions` accepts exactly the concatenations of accepted actions. -/
theorem validateActions_eq_ok_iff {key : SwFlowKey} {actions : List Byte} :
    validateActions key actions = actValidationOk ↔
      ∃ as : List (List Byte), as.flatten = actions ∧ ∀ a ∈ as, AcceptedAction key a := by
  constructor
  · exact exists_flatten_of_validateActionsLoop
  · rintro ⟨as, rfl, has⟩
    exact validateActionsLoop_flatten has (length_le_length_flatten has)

/-- The actions of a list, one by one. -/
def actionItems (actions : List Byte) : List (List Byte) :=
  Tlv.split actionLen actions.length actions

theorem actionItems_flatten {key : SwFlowKey} {as : List (List Byte)}
    (has : ∀ a ∈ as, AcceptedAction key a) : actionItems as.flatten = as :=
  Tlv.split_flatten actionLen_append (fun a ha => (has a ha).isItem) (length_le_length_flatten has)

/-- The actions of an accepted list are accepted, and make up the list. -/
theorem actionItems_spec {key : SwFlowKey} {actions : List Byte}
    (h : validateActions key actions = actValidationOk) :
    (actionItems actions).flatten = actions ∧ ∀ a ∈ actionItems actions, AcceptedAction key a := by
  obtain ⟨as, rfl, has⟩ := validateActions_eq_ok_iff.1 h
  rw [actionItems_flatten has]
  exact ⟨rfl, has⟩

/-! ### Execution -/

/-- The functions that execute an action read no more than the action. -/
theorem execute_append {n : ℕ} {act : OpenflowAction} (hact : ofActions[n]? = some act)
    {execute : Ofpbuf → SwFlowKey → List Byte → Except OfpbufFault (Ofpbuf × SwFlowKey)}
    (hex : ofActionsExecute.getD n none = some execute) (b : Ofpbuf) (key : SwFlowKey)
    {a : List Byte} (ha : act.minSize ≤ a.length) (c : List Byte) :
    execute b key (a ++ c) = execute b key a := by
  have h8 : 8 ≤ a.length := (le_minSize_of_mem_ofActions (List.mem_of_getElem? hact)).trans ha
  have htype := actionType_append h8 c
  -- what the functions read of an action: its type, its argument and six bytes of an address
  have h16 : be16 (a ++ c) 4 = be16 a 4 := be16_append (by omega) c
  have h32 : be32 (a ++ c) 4 = be32 a 4 := be32_append (by omega) c
  have hbyte : (a ++ c).getD 4 0 = a.getD 4 0 := getD_append_of_lt (by omega) c
  match n with
  | 0 => cases hex
  | 1 =>
    cases hex
    rw [setVlanVid, setVlanVid, h16]
  | 2 =>
    cases hex
    rw [setVlanPcp, setVlanPcp, hbyte]
  | 3 =>
    cases hex
    rfl
  | 4 | 5 =>
    cases hact
    cases hex
    have haddr : (a ++ c).extract 4 10 = a.extract 4 10 := by
      simp only [List.extract_eq_take_drop]
      rw [List.drop_append_of_le_length (by omega), List.take_append_of_le_length]
      rw [List.length_drop]
      simp only at ha
      omega
    rw [setDlAddr, setDlAddr, putDlAddr, putDlAddr, htype, haddr]
  | 6 | 7 =>
    cases hex
    rw [setNwAddr, setNwAddr, putNwAddr, putNwAddr, htype, h32]
  | 8 =>
    cases hex
    rw [setNwTos, setNwTos, putNwTos, putNwTos, hbyte]
  | 9 | 10 =>
    cases hex
    rw [setTpPort, setTpPort, putTpPort, putTpPort, htype, h16]
  | 11 => cases hex
  | n + 12 => cases hact

/-- The action has a function that reads outside it, or a walk leaves the list. -/
def ForwardFault.ReadsOutside : ForwardFault → Prop
  | walk _ | argument => True
  | ofpbuf _ | endless => False

theorem ForwardFault.ReadsOutside.ne_ofpbuf {e : ForwardFault} (h : e.ReadsOutside)
    (fault : OfpbufFault) : e ≠ .ofpbuf fault := by
  rintro rfl
  exact h

section Execute

variable {σ : Type*} {doOutput : OutputCall → σ → Except ForwardFault σ} {inPort : BitVec 16}
  {key key' : SwFlowKey} {a : List Byte} {as : List (List Byte)}

/-- The size of an accepted output action. -/
theorem AcceptedAction.length_of_enqueue (h : AcceptedAction key a)
    (htype : actionType a = ofpatEnqueue) : 16 ≤ a.length := by
  obtain ⟨act, hact, hmin, -⟩ := h.known
  rw [htype] at hact
  cases hact
  exact hmin

/-- A turn of the loop reads no more than the action. -/
theorem executeTurn_append (h : AcceptedAction key a) (k : ℕ) (c : List Byte) (s : ExecState σ) :
    executeTurn doOutput inPort k (a ++ c) s = executeTurn doOutput inPort 0 a s := by
  have h8 : 8 ≤ a.length := h.header_le
  have htype := actionType_append h8 c
  have hlen : a.length ≤ (a ++ c).length := by simp
  unfold executeTurn
  cases flushOutput doOutput inPort s with
  | error e => rfl
  | ok s =>
    change executeAction (a ++ c) s = executeAction a s
    unfold executeAction
    rw [htype]
    split
    next =>
      -- the fields of an output are in its first eight bytes
      rw [if_neg (by omega), if_neg (by omega), be16_append (by omega), be16_append (by omega)]
    next =>
      split
      next henq =>
        -- and those of a queue in its first sixteen
        have h16 := h.length_of_enqueue henq
        rw [if_neg (by omega), if_neg (by omega), be16_append (by omega), be32_append (by omega)]
      next =>
        obtain ⟨act, hact, hmin, -⟩ := h.known
        unfold executeOther
        rw [htype, hact]
        simp only
        rw [if_neg (by omega), if_neg (by omega)]
        cases hex : ofActionsExecute.getD (actionType a).toNat none with
        | none => rfl
        | some execute => simp only [execute_append hact hex s.buffer s.key hmin c]

/-- A turn of the loop on an accepted action meets no fault but one of the packet buffer, unless
the output function does. -/
theorem executeTurn_ne_error (h : AcceptedAction key a) {e : ForwardFault}
    (he : ∀ fault, e ≠ .ofpbuf fault) (hout : ∀ call w, doOutput call w ≠ .error e)
    (s : ExecState σ) :
    executeTurn doOutput inPort 0 a s ≠ .error e := by
  have h8 : 8 ≤ a.length := h.header_le
  -- the output that the turn before has put off
  have hflush : flushOutput doOutput inPort s ≠ .error e := by
    unfold flushOutput
    cases s.prevPort with
    | none => exact fun h => by cases h
    | some port =>
      simp only
      split
      next e' heq =>
        intro h
        cases h
        exact hout _ _ heq
      next => exact fun h => by cases h
  unfold executeTurn
  cases hs : flushOutput doOutput inPort s with
  | error e' => exact fun h => hflush (hs.trans h)
  | ok s =>
    change executeAction a s ≠ .error e
    unfold executeAction
    split
    next =>
      rw [if_neg (by omega)]
      exact fun h => by cases h
    next =>
      split
      next henq =>
        have h16 := h.length_of_enqueue henq
        rw [if_neg (by omega)]
        exact fun h => by cases h
      next =>
        -- the asserted length is that of an accepted action
        obtain ⟨act, hact, hmin, -⟩ := h.known
        unfold executeOther
        rw [hact]
        simp only
        rw [if_neg (by omega)]
        split
        next => exact fun h => by cases h
        next =>
          split
          next =>
            intro h
            exact he _ (Except.error.inj h).symm
          next => exact fun h => by cases h

/-- The reference: the actions are executed one after the other. -/
def executeList (doOutput : OutputCall → σ → Except ForwardFault σ) (buffer : Ofpbuf)
    (key : SwFlowKey) (as : List (List Byte)) (world : σ) : Except ForwardFault σ :=
  match as.foldlM (fun s a => executeTurn doOutput key.flow.inPort 0 a s)
      (.init buffer key world) with
  | .error e => .error e
  | .ok s => finishActions doOutput key.flow.inPort s

/-- On an accepted list `execute_actions` goes from action to action. -/
theorem executeActions_flatten (has : ∀ a ∈ as, AcceptedAction key a) (buffer : Ofpbuf)
    (world : σ) :
    executeActions doOutput buffer key' as.flatten world =
      executeList doOutput buffer key' as world := by
  have hwalk : Tlv.walk sizeofOfpActionHeader actionLen .walk
      (executeTurn doOutput key'.flow.inPort) as.flatten.length 0 as.flatten
      (.init buffer key' world) =
        as.foldlM (fun s a => executeTurn doOutput key'.flow.inPort 0 a s)
          (.init buffer key' world) :=
    Tlv.walk_flatten actionLen_append (fun a ha => (has a ha).isItem)
      (fun a ha k c s => executeTurn_append (has a ha) k c s) (length_le_length_flatten has) 0 _
  cases hrun : as.foldlM (fun s a => executeTurn doOutput key'.flow.inPort 0 a s)
      (.init buffer key' world) with
  | error e => simp only [executeActions, executeList, hwalk, hrun]
  | ok s => simp only [executeActions, executeList, hwalk, hrun]

/-- On an accepted list `execute_actions` meets no fault but one of the packet buffer, unless the
output function does. -/
theorem executeList_ne_error (has : ∀ a ∈ as, AcceptedAction key a) {e : ForwardFault}
    (he : ∀ fault, e ≠ .ofpbuf fault) (hout : ∀ call w, doOutput call w ≠ .error e)
    (buffer : Ofpbuf) (world : σ) : executeList doOutput buffer key' as world ≠ .error e := by
  unfold executeList
  split
  next e' hfold =>
    -- a turn that fails handles an action of the list
    obtain ⟨pre, a, post, s, rfl, -, hturn⟩ := Transition.foldlM_eq_error_iff.1 hfold
    intro h
    cases h
    exact executeTurn_ne_error (has a (by simp)) he hout s hturn
  next s _ =>
    unfold finishActions
    split
    next => exact fun h => by cases h
    next => exact hout _ _

end Execute

/-! ### The output port filter -/

/-- The loop of `flow_has_out_port`, with its reads checked. -/
def hasOutPortLoop (outPort : BitVec 16) : ℕ → List Byte → Except Tlv.Fault Bool
  | _, [] => .ok false
  | 0, _ :: _ => .error .endless
  | fuel + 1, b :: bs =>
      let ah := b :: bs
      if ah.length < sizeofOfpActionHeader then .error .headerOutside
      -- the port of an output action lies inside the structure of the header
      else if actionType ah = ofpatOutput ∧ be16 ah 4 = outPort then .ok true
      else if ah.length < actionLen ah then .error .lengthWraps
      else hasOutPortLoop outPort fuel (ah.drop (actionLen ah))

/-- `flow_has_out_port`. -/
def hasOutPort (outPort : BitVec 16) (actions : List Byte) : Except Tlv.Fault Bool :=
  if outPort = ofppNone then .ok true else hasOutPortLoop outPort actions.length actions

/-- The action is an output to the port. -/
def outputsTo (outPort : BitVec 16) (a : List Byte) : Bool :=
  actionType a == ofpatOutput && be16 a 4 == outPort

/-- On an accepted list `flow_has_out_port` goes from action to action until it has found an output
to the port. -/
theorem hasOutPort_flatten {key : SwFlowKey} {as : List (List Byte)}
    (has : ∀ a ∈ as, AcceptedAction key a) (outPort : BitVec 16) :
    hasOutPort outPort as.flatten = .ok (outPort == ofppNone || as.any (outputsTo outPort)) := by
  -- the loop needs a turn for each action, so that any larger number of turns is enough
  have loop : ∀ fuel, as.length ≤ fuel →
      hasOutPortLoop outPort fuel as.flatten = .ok (as.any (outputsTo outPort)) := by
    induction as with
    | nil =>
      intro fuel _
      cases fuel <;> rfl
    | cons a as ih =>
      intro fuel hfuel
      obtain ⟨fuel, rfl⟩ : ∃ n, fuel = n + 1 :=
        Nat.exists_eq_add_one.2 (by rw [List.length_cons] at hfuel; omega)
      have ha := has a List.mem_cons_self
      have hhdr := ha.header_le
      have hlen := ha.isItem.len_append actionLen_append as.flatten
      have hsize : (a ++ as.flatten).length = a.length + as.flatten.length :=
        List.length_append
      have hport : be16 (a ++ as.flatten) 4 = be16 a 4 :=
        be16_append (by rw [sizeofOfpActionHeader] at hhdr; omega) _
      have htype := actionType_append hhdr as.flatten
      have hdrop : (a ++ as.flatten).drop (actionLen (a ++ as.flatten)) = as.flatten := by
        rw [hlen, List.drop_left]
      have ih := ih (fun x hx => has x (List.mem_cons_of_mem _ hx)) fuel
        (Nat.le_of_succ_le_succ hfuel)
      rw [List.flatten_cons, List.any_cons]
      generalize hrest : a ++ as.flatten = rest at *
      cases rest with
      | nil =>
        have hpos := ha.pos
        rw [List.length_nil] at hsize
        omega
      | cons x xs =>
        rw [hasOutPortLoop, if_neg (by omega), htype, hport]
        by_cases hout : actionType a = ofpatOutput ∧ be16 a 4 = outPort
        · rw [if_pos hout]
          simp [outputsTo, hout.1, hout.2]
        · have hfalse : outputsTo outPort a = false := by
            rw [outputsTo, ← Bool.not_eq_true, Bool.and_eq_true, beq_iff_eq, beq_iff_eq]
            exact hout
          rw [if_neg hout, if_neg (by omega), hdrop, hfalse, Bool.false_or]
          exact ih
  unfold hasOutPort
  split
  next hnone => simp [hnone]
  next hnone =>
    rw [loop _ (length_le_length_flatten has), beq_false_of_ne hnone, Bool.false_or]

/-- The filter of deletions and statistics is `flow_has_out_port`, on entries whose actions have
been accepted. -/
theorem hasOutPort_eq_flowHasOutPort {key : SwFlowKey} {flow : SwFlow}
    (h : validateActions key flow.actions = actValidationOk) (outPort : BitVec 16) :
    hasOutPort outPort flow.actions = .ok (flow.flowHasOutPort outPort) := by
  obtain ⟨as, hflat, has⟩ := validateActions_eq_ok_iff.1 h
  have hlocal : ∀ a ∈ as, ∀ b, outputsTo outPort (a ++ b) = outputsTo outPort a := by
    intro a ha b
    have hhdr := (has a ha).header_le
    have hport : be16 (a ++ b) 4 = be16 a 4 :=
      be16_append (by rw [sizeofOfpActionHeader] at hhdr; omega) b
    rw [outputsTo, outputsTo, actionType_append hhdr, hport]
  rw [SwFlow.flowHasOutPort, ← hflat, hasOutPort_flatten has]
  congr 2
  exact (Tlv.any_items_flatten actionLen_append (fun a ha => (has a ha).isItem) hlocal
    (length_le_length_flatten has) 0).symm

/-! ### The three walks -/

/-- `validate_actions` accepts exactly the concatenations of accepted actions, and on every list
that it accepts the two functions that rely on it step over the same actions, end, and read
nothing outside them. -/
theorem validateActions_boundaries (key : SwFlowKey) (actions : List Byte) :
    (validateActions key actions = actValidationOk ↔
        ∃ as : List (List Byte), as.flatten = actions ∧ ∀ a ∈ as, AcceptedAction key a) ∧
      ∀ as : List (List Byte), as.flatten = actions → (∀ a ∈ as, AcceptedAction key a) →
        (∀ (σ : Type) (doOutput : OutputCall → σ → Except ForwardFault σ) (buffer : Ofpbuf)
            (key' : SwFlowKey) (world : σ),
          executeActions doOutput buffer key' actions world =
              executeList doOutput buffer key' as world ∧
            ∀ e : ForwardFault, e.ReadsOutside → (∀ call w, doOutput call w ≠ .error e) →
              executeActions doOutput buffer key' actions world ≠ .error e) ∧
        ∀ outPort, hasOutPort outPort actions =
          .ok (outPort == ofppNone || as.any (outputsTo outPort)) := by
  refine ⟨validateActions_eq_ok_iff, ?_⟩
  rintro as rfl has
  refine ⟨fun σ doOutput buffer key' world => ?_, hasOutPort_flatten has⟩
  have hexec : executeActions doOutput buffer key' as.flatten world =
      executeList doOutput buffer key' as world := executeActions_flatten has buffer world
  refine ⟨hexec, fun e he hout => ?_⟩
  rw [hexec]
  exact executeList_ne_error has he.ne_ofpbuf hout buffer world

/-- An output to port 2 without limit. -/
def outputAction : List Byte := [0, 0, 0, 8, 0, 2, 0, 0]

/-- A key that wildcards every field accepts it. -/
theorem acceptedAction_outputAction :
    AcceptedAction (flowExtractMatch { OfpMatch.zero with wildcards := ofpfwAll })
      outputAction where
  length_eq := by decide
  pos := by decide
  dvd := by decide
  known := by
    refine ⟨⟨8, 8, some validateOutput⟩, rfl, by decide, by decide, fun validate hv => ?_⟩
    cases hv
    decide

/-- A list with this action alone is accepted, and its only port is found. -/
theorem validateActions_boundaries_output :
    (let key := flowExtractMatch { OfpMatch.zero with wildcards := ofpfwAll }
    validateActions key outputAction = actValidationOk ∧
      hasOutPort 2 outputAction = .ok true) := by
  have hone : ∀ a ∈ [outputAction],
      AcceptedAction (flowExtractMatch { OfpMatch.zero with wildcards := ofpfwAll }) a := by
    intro a ha
    rw [List.mem_singleton.1 ha]
    exact acceptedAction_outputAction
  obtain ⟨hiff, hwalks⟩ := validateActions_boundaries
    (flowExtractMatch { OfpMatch.zero with wildcards := ofpfwAll }) outputAction
  exact ⟨hiff.2 ⟨[outputAction], by simp, hone⟩, (hwalks [outputAction] (by simp) hone).2 2⟩

end OfAgent
