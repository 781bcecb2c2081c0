import OfAgent.Flow.Key
import OfAgent.Lib.Tlv

/-!
# Validation of action lists

The table `of_actions` and the function `validate_actions` of `dp_act.c`.
-/

namespace OfAgent

/-- `ACT_VALIDATION_OK`. -/
def actValidationOk : BitVec 16 := -1

/-- `validate_output`. -/
def validateOutput (key : SwFlowKey) (ah : List Byte) : BitVec 16 :=
  let port := be16 ah 4
  if port == ofppNone || (!wild key.wildcards ofpfwInPort && port == key.flow.inPort) then
    ofpbacBadOutPort
  else actValidationOk

/-- `validate_queue`. -/
def validateQueue (_key : SwFlowKey) (ah : List Byte) : BitVec 16 :=
  let port := be16 ah 4
  if ofppMax < port && port != ofppInPort then ofpbacBadOutPort else actValidationOk

/-- `struct openflow_action`, without the function that executes the action. -/
structure OpenflowAction where
  /-- The minimum size of the action. -/
  minSize : ℕ
  /-- The maximum size of the action. -/
  maxSize : ℕ
  /-- The check of the arguments. -/
  validate : Option (SwFlowKey → List Byte → BitVec 16)

/-- `of_actions`, indexed by the action type. -/
def ofActions : List OpenflowAction :=
  [⟨8, 8, some validateOutput⟩,  -- OFPAT_OUTPUT
   ⟨8, 8, none⟩,  -- OFPAT_SET_VLAN_VID
   ⟨8, 8, none⟩,  -- OFPAT_SET_VLAN_PCP
   ⟨8, 8, none⟩,  -- OFPAT_STRIP_VLAN
   ⟨16, 16, none⟩,  -- OFPAT_SET_DL_SRC
   ⟨16, 16, none⟩,  -- OFPAT_SET_DL_DST
   ⟨8, 8, none⟩,  -- OFPAT_SET_NW_SRC
   ⟨8, 8, none⟩,  -- OFPAT_SET_NW_DST
   ⟨8, 8, none⟩,  -- OFPAT_SET_NW_TOS
   ⟨8, 8, none⟩,  -- OFPAT_SET_TP_SRC
   ⟨8, 8, none⟩,  -- OFPAT_SET_TP_DST
   ⟨16, 16, some validateQueue⟩]  -- OFPAT_ENQUEUE

/-- `validate_ofpat`. -/
def validateOfpat (act : OpenflowAction) (key : SwFlowKey) (ah : List Byte) (len : ℕ) :
    BitVec 16 :=
  if len < act.minSize || act.maxSize < len then ofpbacBadLen
  else
    match act.validate with
    | some validate => validate key ah
    | none => actValidationOk

/-- `validate_vendor`. -/
def validateVendor (len : ℕ) : BitVec 16 := if len < 8 then ofpbacBadLen else ofpbacBadVendor

/-- The check of the action at the front of the bytes, after its length has been checked. -/
def validateAction (key : SwFlowKey) (ah : List Byte) (len : ℕ) : BitVec 16 :=
  match ofActions[(actionType ah).toNat]? with
  | some act => validateOfpat act key ah len
  | none => if actionType ah == ofpatVendor then validateVendor len else ofpbacBadType

/-- The loop of `validate_actions`. Every turn that does not return takes at least one byte, so
the length of the area is enough fuel. -/
def validateActionsLoop (key : SwFlowKey) : ℕ → List Byte → BitVec 16
  | 0, rest => if rest.length ≠ 0 then ofpbacBadLen else actValidationOk
  | fuel + 1, rest =>
      if rest.length < sizeofOfpActionHeader then
        -- check if there's any trailing garbage
        if rest.length ≠ 0 then ofpbacBadLen else actValidationOk
      else
        let len := actionLen rest
        if rest.length < len ∨ len % 8 ≠ 0 then ofpbacBadLen
        else
          let err := validateAction key rest len
          if err ≠ actValidationOk then err else validateActionsLoop key fuel (rest.drop len)

/-- `validate_actions`. -/
def validateActions (key : SwFlowKey) (actions : List Byte) : BitVec 16 :=
  validateActionsLoop key actions.length actions

/-- No action type is shorter than the action header. -/
theorem le_minSize_of_mem_ofActions {act : OpenflowAction} (h : act ∈ ofActions) :
    sizeofOfpActionHeader ≤ act.minSize := by
  simp only [ofActions, List.mem_cons, List.not_mem_nil, or_false] at h
  rcases h with rfl | rfl | rfl | rfl | rfl | rfl | rfl | rfl | rfl | rfl | rfl | rfl <;>
    simp [sizeofOfpActionHeader]

/-- An action that passes its check is at least as long as its header. -/
theorem le_len_of_validateAction {key : SwFlowKey} {ah : List Byte} {len : ℕ}
    (h : validateAction key ah len = actValidationOk) : sizeofOfpActionHeader ≤ len := by
  unfold validateAction at h
  split at h
  next act hact =>
    have hmin := le_minSize_of_mem_ofActions (List.mem_of_getElem? hact)
    unfold validateOfpat at h
    split at h
    next => exact absurd h (by decide)
    next hlen =>
      simp only [Bool.or_eq_true, decide_eq_true_eq, not_or, Nat.not_lt] at hlen
      exact hmin.trans hlen.1
  next =>
    unfold validateVendor at h
    split at h
    · split at h <;> exact absurd h (by decide)
    · exact absurd h (by decide)

/-- An accepted action list is delimited: from every header on a whole header is left, and the
length is a positive multiple of 8 that fits. -/
theorem delimited_of_validateActions {key : SwFlowKey} {actions : List Byte}
    (h : validateActions key actions = actValidationOk) (k : ℕ) :
    Tlv.Delimited sizeofOfpActionHeader actionLen
      (fun _ rest => sizeofOfpActionHeader ≤ actionLen rest) k actions := by
  have loop : ∀ fuel k rest, validateActionsLoop key fuel rest = actValidationOk →
      Tlv.Delimited sizeofOfpActionHeader actionLen
        (fun _ rest => sizeofOfpActionHeader ≤ actionLen rest) k rest := by
    -- the loop goes through the list as `Tlv.Delimited` does
    intro fuel
    induction fuel with
    | zero =>
      intro k rest h
      rw [validateActionsLoop] at h
      split at h
      next => exact absurd h (by decide)
      next hnil =>
        rw [not_not, List.length_eq_zero_iff] at hnil
        exact hnil ▸ .nil
    | succ fuel ih =>
      intro k rest h
      rw [validateActionsLoop] at h
      split at h
      next =>
        split at h
        next => exact absurd h (by decide)
        next hnil =>
          rw [not_not, List.length_eq_zero_iff] at hnil
          exact hnil ▸ .nil
      next hhdr =>
        simp only at h
        split at h
        next => exact absurd h (by decide)
        next hlen =>
          split at h
          next herr => exact absurd h herr
          next herr =>
            -- the action has been accepted, so that its length is at least that of a header
            have h8 := le_len_of_validateAction (not_not.1 herr)
            rw [not_or, not_not, Nat.not_lt] at hlen
            have hpos : 0 < actionLen rest := by
              unfold sizeofOfpActionHeader at h8
              omega
            exact .cons (Nat.not_lt.1 hhdr) hpos hlen.1 h8 (ih _ _ h)
  exact loop _ _ _ h

end OfAgent
