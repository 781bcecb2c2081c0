import OfAgent.Dpctl.ActionText
import OfAgent.Packet.Boundaries

/-!
# Actions that are printed and read

What `str_to_action` makes of the text that `ofp_print_actions` makes of a list of actions. It does
not know all names that are printed, and takes no number for the length of what the controller gets.

* `SameAction`, `SameActions`: actions and lists that are the same up to what does not matter.
* `readAction_text`: the text of an action, and what is read of it.
* `actionRoundTrip_iff`: a list is read as it has been printed exactly when all its actions are
  `Readable`.
-/

namespace OfAgent.Dpctl

open Memory (bytes16 bytes32)

/-! ### The same actions -/

/-- The arguments of two actions of a type are the same, apart from the padding, and from the
`max_len` of an output that does not go to the controller. -/
def SameArguments (a b : List Byte) : Prop :=
  if actionType a = ofpatOutput then be16 a 4 = be16 b 4 ∧
    (be16 a 4 = ofppController → be16 a 6 = be16 b 6)
  else if actionType a = ofpatEnqueue then be16 a 4 = be16 b 4 ∧ be32 a 12 = be32 b 12
  else if actionType a = ofpatSetVlanVid ∨ setsTpPort a = true then be16 a 4 = be16 b 4
  else if actionType a = ofpatSetVlanPcp ∨ actionType a = ofpatSetNwTos then a.getD 4 0 = b.getD 4 0
  else if actionType a = ofpatSetDlSrc ∨ actionType a = ofpatSetDlDst then dlAddr a = dlAddr b
  else if setsNwAddr a = true then be32 a 4 = be32 b 4
  else if actionType a = ofpatStripVlan then True
  else a = b

/-- Two actions are the same, apart from what does not matter. -/
structure SameAction (a b : List Byte) : Prop where
  /-- The types. -/
  type_eq : actionType a = actionType b
  /-- The lengths in the headers. -/
  len_eq : actionLen a = actionLen b
  /-- The lengths. -/
  length_eq : a.length = b.length
  /-- The arguments. -/
  arguments : SameArguments a b

/-- Two lists have the same actions, one after the other. -/
structure SameActions (actions actions' : List Byte) : Prop where
  /-- They are equally long. -/
  length_eq : actions.length = actions'.length
  /-- The actions. -/
  actions : List.Forall₂ SameAction (actionItems actions) (actionItems actions')

/-- An action that `str_to_action` knows by the name with which it is printed, with the argument. -/
def Readable (a : List Byte) : Prop :=
  setsNwAddr a = false ∧ setsTpPort a = false ∧
    (actionType a = ofpatOutput → be16 a 4 ≠ ofppInPort ∧
      (be16 a 4 = ofppController → be16 a 6 = 0))

/-- A list is read as it has been printed. -/
def RoundTrips (p : Platform) (actions : List Byte) : Prop :=
  ∃ text actions', ofpPrintActions actions = some ("actions=".toList ++ text) ∧
    strToAction p text = .ok actions' ∧ SameActions actions actions'

/-! ### Actions that have been put -/

section PutAction

variable {size : ℕ} {type : BitVec 16} {args : List Byte}

theorem actionType_putAction : actionType (putAction size type args) = type :=
  Memory.be16_bytes16 type _

theorem actionLen_putAction (hsize : size < 2 ^ 16) :
    actionLen (putAction size type args) = size := by
  have hlen : be16 (putAction size type args) 2 = .ofNat 16 size :=
    Memory.be16_bytes16 (.ofNat 16 size) (args ++ List.replicate (size - 4 - args.length) 0)
  rw [actionLen, hlen, BitVec.toNat_ofNat, Nat.mod_eq_of_lt hsize]

/-- Its length. -/
theorem length_putAction (type : BitVec 16) (hargs : 4 + args.length ≤ size) :
    (putAction size type args).length = size := by
  have hheader : ∀ v : BitVec 16, (bytes16 v).length = 2 := fun _ => rfl
  simp only [putAction, List.length_append, List.length_replicate, hheader]
  omega

/-- It is one item of a list. -/
theorem isItem_putAction (hargs : 4 + args.length ≤ size) (hle : 8 ≤ size) (hsize : size < 2 ^ 16) :
    Tlv.IsItem sizeofOfpActionHeader actionLen (putAction size type args) := by
  have hlength := length_putAction type hargs
  refine ⟨?_, ?_, ?_⟩
  · rw [hlength]
    exact hle
  · rw [hlength]
    omega
  · rw [hlength, actionLen_putAction hsize]

end PutAction

/-! ### Printed actions -/

section Printed

variable {key : SwFlowKey} {a : List Byte}

/-- The text of an action of a known type. -/
def actionText (a : List Byte) : List Char :=
  ((printedActions[(actionType a).toNat]?).map fun act => act.text a).getD []

/-- The known types, with the lengths of their actions. -/
def knownTypes : List (BitVec 16 × ℕ) := [
  (ofpatOutput, 8), (ofpatSetVlanVid, 8), (ofpatSetVlanPcp, 8), (ofpatStripVlan, 8),
  (ofpatSetDlSrc, 16), (ofpatSetDlDst, 16), (ofpatSetNwSrc, 8), (ofpatSetNwDst, 8),
  (ofpatSetNwTos, 8), (ofpatSetTpSrc, 8), (ofpatSetTpDst, 8), (ofpatEnqueue, 16)]

/-- An accepted action has one of them. -/
theorem mem_knownTypes (h : AcceptedAction key a) : (actionType a, a.length) ∈ knownTypes := by
  obtain ⟨act, hact, hmin, hmax, -⟩ := h.known
  have htype : actionType a = .ofNat 16 (actionType a).toNat := by
    rw [BitVec.ofNat_toNat, BitVec.setWidth_eq]
  have hsize : act.minSize = act.maxSize := by
    have hall : ∀ act ∈ ofActions, act.minSize = act.maxSize := by simp [ofActions]
    exact hall act (List.mem_of_getElem? hact)
  have hlen : a.length = act.minSize := Nat.le_antisymm (hsize ▸ hmax) hmin
  have hknown : ∀ p ∈ ofActions.zipIdx, (BitVec.ofNat 16 p.2, p.1.minSize) ∈ knownTypes := by decide
  rw [htype, hlen]
  exact hknown (act, (actionType a).toNat) (List.mem_zipIdx_iff_getElem?.2 hact)

/-- What is printed of an action does not depend on what follows it. -/
theorem text_append {n : ℕ} {act : PrintedAction} (hact : printedActions[n]? = some act)
    (hlen : act.minSize ≤ a.length) (b : List Byte) : act.text (a ++ b) = act.text a := by
  have h8 : 8 ≤ a.length := by
    have hall : ∀ act ∈ printedActions, 8 ≤ act.minSize := by simp [printedActions]
    exact (hall act (List.mem_of_getElem? hact)).trans hlen
  have h4 : be16 (a ++ b) 4 = be16 a 4 := be16_append (by omega) b
  have h6 : be16 (a ++ b) 6 = be16 a 6 := be16_append (by omega) b
  have h32 : be32 (a ++ b) 4 = be32 a 4 := be32_append (by omega) b
  have hbyte : (a ++ b).getD 4 0 = a.getD 4 0 := getD_append_of_lt (by omega) b
  -- the numbers of the types whose texts read the same fields stand together
  match n with
  | 0 =>
    cases hact
    simp only [printOutput, h4, h6]
  | 1 | 9 | 10 =>
    cases hact
    simp only [h4]
  | 2 | 8 =>
    cases hact
    simp only [hbyte]
  | 3 =>
    cases hact
    rfl
  | 4 | 5 =>
    cases hact
    simp only at hlen
    have h6 : be32 (a ++ b) 6 = be32 a 6 := be32_append (by omega) b
    simp only [dlAddr, h4, h6]
  | 6 | 7 =>
    cases hact
    simp only [h32]
  | 11 =>
    cases hact
    simp only at hlen
    have h12 : be32 (a ++ b) 12 = be32 a 12 := be32_append (by omega) b
    simp only [h4, h12]
  | n + 12 => cases hact

/-- What is printed of an accepted action. -/
theorem ofpPrintAction_append (h : AcceptedAction key a) (b : List Byte) :
    ofpPrintAction (a ++ b) = (actionText a, some a.length) := by
  have hheader := h.header_le
  have hlen := h.isItem.len_append actionLen_append b
  have htype := actionType_append hheader b
  have hmod : a.length % 8 = 0 := Nat.mod_eq_zero_of_dvd h.dvd
  obtain ⟨act, hact, hmin, hmax⟩ : ∃ act, printedActions[(actionType a).toNat]? = some act ∧
      act.minSize ≤ a.length ∧ a.length ≤ act.maxSize := by
    have hmem := mem_knownTypes h
    generalize a.length = n at hmem
    generalize actionType a = type at hmem
    simp only [knownTypes, List.mem_cons, List.not_mem_nil, or_false, Prod.mk.injEq] at hmem
    rcases hmem with
      ⟨rfl, rfl⟩ | ⟨rfl, rfl⟩ | ⟨rfl, rfl⟩ | ⟨rfl, rfl⟩ | ⟨rfl, rfl⟩ | ⟨rfl, rfl⟩ | ⟨rfl, rfl⟩ |
      ⟨rfl, rfl⟩ | ⟨rfl, rfl⟩ | ⟨rfl, rfl⟩ | ⟨rfl, rfl⟩ | ⟨rfl, rfl⟩ <;>
        exact ⟨_, rfl, by decide, by decide⟩
  have hlong : ¬ (a ++ b).length < sizeofOfpActionHeader := by
    rw [List.length_append]
    omega
  have hwhole : ¬ (a ++ b).length < a.length := by
    rw [List.length_append]
    omega
  unfold ofpPrintAction
  rw [if_neg hlong]
  simp only [hlen, htype, hact, if_neg hwhole, hmod, ne_eq, not_true_eq_false, if_false]
  rw [if_neg (by omega), actionText, hact, text_append hact hmin]
  rfl

/-- The loop prints the actions of an accepted list, with commas between them. -/
theorem ofpPrintActionsLoop_flatten {as : List (List Byte)} (has : ∀ a ∈ as, AcceptedAction key a)
    {fuel : ℕ} (hfuel : as.length ≤ fuel) (len : ℕ) :
    ofpPrintActionsLoop fuel len as.flatten =
      some
        ((if len ≠ 0 ∧ as ≠ [] then [','] else []) ++ [','].intercalate (as.map actionText)) := by
  induction as generalizing fuel len with
  | nil =>
    cases fuel <;> simp [ofpPrintActionsLoop]
  | cons a as ih =>
    obtain ⟨fuel, rfl⟩ : ∃ n, fuel = n + 1 :=
      Nat.exists_eq_add_one.2 (Nat.lt_of_lt_of_le (Nat.succ_pos _) hfuel)
    have ha := has a List.mem_cons_self
    have hpos := ha.pos
    have ih :=
      ih (fun x hx => has x (List.mem_cons_of_mem _ hx)) (Nat.le_of_succ_le_succ hfuel) a.length
    have hne : ¬ (a ++ as.flatten).length = 0 := by
      rw [List.length_append]
      omega
    rw [List.flatten_cons, ofpPrintActionsLoop, if_neg hne, ofpPrintAction_append ha]
    simp only [List.drop_left, ih, Option.map_some]
    cases as with
    | nil => simp [List.intercalate]
    | cons a' as => simp [List.intercalate, hpos.ne']

theorem ofpPrintActions_flatten {as : List (List Byte)} (has : ∀ a ∈ as, AcceptedAction key a) :
    ofpPrintActions as.flatten =
      some ("actions=".toList ++ [','].intercalate (as.map actionText)) := by
  rw [ofpPrintActions, ofpPrintActionsLoop_flatten has (length_le_length_flatten has),
    Option.map_some]
  simp

end Printed

/-! ### Arguments that are read -/

section Arguments

variable (p : Platform)

theorem argToU32_decimal {w : ℕ} (v : BitVec w) (hw : w ≤ 32) :
    argToU32 p (some (decimal v.toNat)) = .ok (v.setWidth 32) := by
  rw [argToU32,
    strToU32_decimal p (Nat.lt_of_lt_of_le v.isLt (Nat.pow_le_pow_right (by decide) hw))]
  exact congrArg Except.ok (BitVec.ofNat_toNat 32 v)

/-- A number with the prefix of base sixteen. -/
theorem argToU32_hexadecimal {w : ℕ} (v : BitVec w) (hw : w ≤ 32) (width : ℕ) :
    argToU32 p (some (hexadecimal width v.toNat)) = .ok (v.setWidth 32) := by
  rw [argToU32,
    strToU32_hexadecimal p width (Nat.lt_of_lt_of_le v.isLt (Nat.pow_le_pow_right (by decide) hw))]
  exact congrArg Except.ok (BitVec.ofNat_toNat 32 v)

theorem argToMac_ethAddr (ea : BitVec 48) : argToMac (some (ethAddr ea)) = .ok ea := by
  rw [argToMac, strToMac_ethAddr]
  rfl

theorem setWidth_setWidth_self {w : ℕ} (v : BitVec w) (hw : w ≤ 32) :
    (v.setWidth 32).setWidth w = v := by
  rw [BitVec.setWidth_setWidth_of_le v hw, BitVec.setWidth_eq]

theorem colon_not_mem_decimal (n : ℕ) : ':' ∉ decimal n := fun hmem =>
  absurd (Nat.isDigit_of_mem_toDigits (by decide) (by decide) hmem) (by decide)

theorem isNumeric_decimal (n : ℕ) : isNumeric (decimal n) = true :=
  List.all_eq_true.2 fun _ hc => Nat.isDigit_of_mem_toDigits (by decide) (by decide) hc

/-- A number is none of the names. -/
theorem find?_decimal (n : ℕ) :
    (actionReaders.find? fun r => strcasecmp (decimal n) r.name) = none := by
  have hnames : actionReaders.all (fun r => !isNumeric (r.name.map Char.toLower)) = true := by
    decide
  rw [List.find?_eq_none]
  intro r hr hsame
  have hname := List.all_eq_true.1 hnames r hr
  have hlower : (decimal n).map Char.toLower = decimal n := by
    conv_rhs => rw [← List.map_id (decimal n)]
    refine List.map_congr_left fun c hc => ?_
    have hdigit : c.isDigit = true := Nat.isDigit_of_mem_toDigits (by decide) (by decide) hc
    simp only [Char.isDigit, Bool.and_eq_true, decide_eq_true_eq] at hdigit
    have hupper : ¬ (c.val ≥ 'A'.val ∧ c.val ≤ 'Z'.val) := fun hand =>
      absurd (UInt32.le_trans hand.1 hdigit.2) (by decide)
    exact dif_neg hupper
  rw [strcasecmp, beq_iff_eq, hlower] at hsame
  rw [← hsame, isNumeric_decimal] at hname
  exact absurd hname (by decide)

theorem readAction_decimal (port : BitVec 16) :
    readAction p (decimal port.toNat) = .ok (putOutputAction port 0) := by
  unfold readAction
  rw [Tokens.cut_of_not_mem (colon_not_mem_decimal _)]
  simp only [find?_decimal, isNumeric_decimal, if_true, argToU32_decimal p port (by decide),
    Except.map, setWidth_setWidth_self port (by decide)]

end Arguments

/-! ### Single actions -/

section Single

variable {p : Platform} {key : SwFlowKey} {a b : List Byte}

/-- A text is read as an action. -/
def ReadsAs (p : Platform) (a : List Byte) : Prop :=
  ∃ b, readAction p (actionText a) = .ok b ∧ SameAction a b

/-- An action that has been put, with the arguments of another one. -/
theorem sameAction_putAction {size : ℕ} {type : BitVec 16} {args : List Byte}
    (h : AcceptedAction key a) (htype : actionType a = type) (hsize : a.length = size)
    (hlt : size < 2 ^ 16) (hargs : 4 + args.length ≤ size)
    (hsame : SameArguments a (putAction size type args)) :
    SameAction a (putAction size type args) := by
  refine ⟨?_, ?_, ?_, hsame⟩
  · rw [htype, actionType_putAction]
  · rw [h.length_eq, hsize, actionLen_putAction hlt]
  · rw [hsize, length_putAction _ hargs]

/-- An output action that has been put. -/
theorem sameAction_putOutputAction_iff (h : AcceptedAction key a)
    (htype : actionType a = ofpatOutput) (hsize : a.length = 8) :
    SameAction a (putOutputAction (be16 a 4) 0) ↔ (be16 a 4 = ofppController → be16 a 6 = 0) := by
  have hport : be16 (putOutputAction (be16 a 4) 0) 4 = be16 a 4 := Memory.be16_bytes16 _ (bytes16 0)
  have hmaxLen : be16 (putOutputAction (be16 a 4) 0) 6 = 0 := Memory.be16_bytes16 0 []
  have hsame : SameArguments a (putOutputAction (be16 a 4) 0) ↔
      (be16 a 4 = ofppController → be16 a 6 = 0) := by
    rw [SameArguments, if_pos htype, hport, hmaxLen]
    exact and_iff_right rfl
  rw [← hsame]
  exact ⟨SameAction.arguments,
    sameAction_putAction h htype hsize (by decide) (show 4 + 4 ≤ 8 by decide)⟩

/-- What has been read of a text decides. -/
theorem readsAs_iff (hread : readAction p (actionText a) = .ok b) :
    ReadsAs p a ↔ SameAction a b := by
  rw [ReadsAs, hread]
  exact ⟨fun ⟨b', hb, hsame⟩ => Except.ok.inj hb ▸ hsame, fun hsame => ⟨b, rfl, hsame⟩⟩

theorem not_readsAs {fault : ActionFault} (hread : readAction p (actionText a) = .error fault) :
    ¬ ReadsAs p a := by
  rintro ⟨b, hb, -⟩
  rw [hread] at hb
  cases hb

/-- The names of ports that are read as they have been printed. -/
theorem readAction_portName {port : BitVec 16} (hinPort : port ≠ ofppInPort)
    (hnone : port ≠ ofppNone) :
    readAction p (ofpPrintPortName port) = .ok (putOutputAction port 0) := by
  unfold ofpPrintPortName
  rw [if_neg hinPort]
  split
  next heq => exact heq ▸ rfl
  split
  next heq => exact heq ▸ rfl
  split
  next heq => exact heq ▸ rfl
  split
  next heq => exact heq ▸ rfl
  split
  next heq => exact heq ▸ rfl
  split
  next heq => exact heq ▸ rfl
  exact readAction_decimal p port

/-- The text of an output action, and what is read of it. -/
theorem readsAs_output (h : AcceptedAction key a) (htype : actionType a = ofpatOutput)
    (hsize : a.length = 8) :
    ReadsAs p a ↔ Readable a := by
  have hreadable : Readable a ↔ be16 a 4 ≠ ofppInPort ∧
      (be16 a 4 = ofppController → be16 a 6 = 0) := by
    simp +decide [Readable, setsNwAddr, setsTpPort, htype]
  have htext : actionText a = printOutput a := by
    rw [actionText, htype]
    rfl
  -- `OFPP_NONE` is no port of an accepted action
  have hnone : be16 a 4 ≠ ofppNone := by
    obtain ⟨act, hact, -, -, hvalidate⟩ := h.known
    rw [htype] at hact
    cases hact
    have hok := hvalidate validateOutput rfl
    intro hport
    rw [validateOutput, hport, beq_self_eq_true, Bool.true_or, if_pos rfl] at hok
    exact absurd hok (by decide)
  rw [hreadable, ← sameAction_putOutputAction_iff h htype hsize]
  by_cases hinPort : be16 a 4 = ofppInPort
  · refine ⟨fun hreads => absurd hreads ?_, fun hand => absurd hinPort hand.1⟩
    apply not_readsAs
    rw [htext, printOutput, hinPort]
    rfl
  · rw [and_iff_right hinPort]
    refine readsAs_iff ?_
    rw [htext]
    unfold printOutput
    simp only
    split
    next =>
      show Except.map _ (argToU32 p (some (decimal (be16 a 4).toNat))) = _
      rw [argToU32_decimal p _ (by decide), Except.map, setWidth_setWidth_self _ (by decide)]
    next =>
      split
      next hcontroller =>
        rw [hcontroller]
        split
        next => rfl
        next => rfl
      next =>
        rw [List.append_nil]
        exact readAction_portName hinPort hnone

/-- The text of an action with the address of a network, or with a port. -/
theorem not_readsAs_of_unknown (h : setsNwAddr a = true ∨ setsTpPort a = true) : ¬ ReadsAs p a := by
  simp only [setsNwAddr, setsTpPort, Bool.or_eq_true, beq_iff_eq] at h
  obtain (htype | htype) | htype | htype := h
  all_goals
    -- no reader has the name
    apply not_readsAs
    rw [actionText, htype]
    rfl

/-- What is read of a name with an argument. -/
theorem readAction_named {name arg : List Char} {r : ActionReader} (hcolon : ':' ∉ name)
    (hfind : (actionReaders.find? fun r => strcasecmp name r.name) = some r) :
    readAction p (name ++ ':' :: arg) = r.read p name (some arg) := by
  rw [readAction, Tokens.cut_append_cons hcolon]
  simp only [hfind]

/-- An action that sets a number of 16 bits. -/
theorem readsAs_vlanVid (h : AcceptedAction key a) (htype : actionType a = ofpatSetVlanVid)
    (hsize : a.length = 8) :
    ReadsAs p a := by
  have hread : readAction p (actionText a) =
      .ok (putAction 8 ofpatSetVlanVid (bytes16 (be16 a 4))) := by
    rw [actionText, htype]
    show readAction p ("mod_vlan_vid".toList ++ ':' :: decimal (be16 a 4).toNat) = _
    rw [readAction_named (by decide) rfl]
    dsimp only
    rw [argToU32_decimal p _ (by decide), Except.map, setWidth_setWidth_self _ (by decide)]
  refine (readsAs_iff hread).2
    (sameAction_putAction h htype hsize (by decide) (show 4 + 2 ≤ 8 by decide) ?_)
  simp +decide only [SameArguments, htype, if_true, if_false, true_or]
  exact (Memory.be16_bytes16 (be16 a 4) [0, 0]).symm

/-- An action that sets a number of 8 bits, which is printed in decimal. -/
theorem readsAs_vlanPcp (h : AcceptedAction key a) (htype : actionType a = ofpatSetVlanPcp)
    (hsize : a.length = 8) :
    ReadsAs p a := by
  have hread : readAction p (actionText a) = .ok (putAction 8 ofpatSetVlanPcp [a.getD 4 0]) := by
    rw [actionText, htype]
    show readAction p ("mod_vlan_pcp".toList ++ ':' :: decimal (a.getD 4 0).toNat) = _
    rw [readAction_named (by decide) rfl]
    dsimp only
    rw [argToU32_decimal p _ (by decide), Except.map, setWidth_setWidth_self _ (by decide)]
  refine (readsAs_iff hread).2
    (sameAction_putAction h htype hsize (by decide) (show 4 + 1 ≤ 8 by decide) ?_)
  simp +decide only [SameArguments, setsTpPort, htype, if_true, if_false, true_or]
  rfl

/-- An action that sets a number of 8 bits, which is printed in base sixteen. -/
theorem readsAs_nwTos (h : AcceptedAction key a) (htype : actionType a = ofpatSetNwTos)
    (hsize : a.length = 8) :
    ReadsAs p a := by
  have hread : readAction p (actionText a) = .ok (putAction 8 ofpatSetNwTos [a.getD 4 0]) := by
    rw [actionText, htype]
    show readAction p ("mod_nw_tos".toList ++ ':' :: hexadecimal 1 (a.getD 4 0).toNat) = _
    rw [readAction_named (by decide) rfl]
    dsimp only
    rw [argToU32_hexadecimal p _ (by decide), Except.map, setWidth_setWidth_self _ (by decide)]
  refine (readsAs_iff hread).2
    (sameAction_putAction h htype hsize (by decide) (show 4 + 1 ≤ 8 by decide) ?_)
  simp +decide only [SameArguments, setsTpPort, htype, if_true, if_false, or_true]
  rfl

theorem readsAs_stripVlan (h : AcceptedAction key a) (htype : actionType a = ofpatStripVlan)
    (hsize : a.length = 8) :
    ReadsAs p a := by
  have hread : readAction p (actionText a) = .ok (putAction 8 ofpatStripVlan []) := by
    rw [actionText, htype]
    rfl
  refine (readsAs_iff hread).2 (sameAction_putAction h htype hsize (by decide) (by decide) ?_)
  simp +decide only [SameArguments, setsTpPort, setsNwAddr, htype, if_true, if_false]

theorem dlAddr_putAction (type : BitVec 16) (ea : BitVec 48) :
    dlAddr (putAction 16 type (bytes48 ea)) = ea :=
  get48_ofBytes_bytes48 ea

/-- An action that sets an Ethernet address. -/
theorem readsAs_dlAddr (h : AcceptedAction key a)
    (htype : actionType a = ofpatSetDlSrc ∨ actionType a = ofpatSetDlDst) (hsize : a.length = 16) :
    ReadsAs p a := by
  have hread : readAction p (actionText a) =
      .ok (putAction 16 (actionType a) (bytes48 (dlAddr a))) := by
    obtain htype | htype := htype
    · rw [actionText, htype]
      show readAction p ("mod_dl_src".toList ++ ':' :: ethAddr (dlAddr a)) = _
      rw [readAction_named (by decide) rfl]
      dsimp only
      rw [argToMac_ethAddr]
      rfl
    · rw [actionText, htype]
      show readAction p ("mod_dl_dst".toList ++ ':' :: ethAddr (dlAddr a)) = _
      rw [readAction_named (by decide) rfl]
      dsimp only
      rw [argToMac_ethAddr]
      rfl
  refine (readsAs_iff hread).2
    (sameAction_putAction h rfl hsize (by decide) (show 4 + 6 ≤ 16 by decide) ?_)
  unfold SameArguments
  rw [dlAddr_putAction]
  obtain htype | htype := htype
  all_goals simp +decide only [setsTpPort, htype, if_true, if_false, true_or, or_true]

/-- An action that puts the packet into a queue. -/
theorem readsAs_enqueue (h : AcceptedAction key a) (htype : actionType a = ofpatEnqueue)
    (hsize : a.length = 16) :
    ReadsAs p a := by
  have hread : readAction p (actionText a) = .ok (putEnqueueAction (be16 a 4) (be32 a 12)) := by
    rw [actionText, htype]
    show readAction p ("enqueue".toList ++ ':' ::
      (decimal (be16 a 4).toNat ++ ':' :: decimal (be32 a 12).toNat)) = _
    rw [readAction_named (by decide) rfl]
    dsimp only
    rw [readEnqueue, Tokens.cut_append_cons (colon_not_mem_decimal _)]
    simp only [argToU32_decimal p (be16 a 4) (by decide),
      argToU32_decimal p (be32 a 12) (by decide)]
    show Except.ok
      (putEnqueueAction (((be16 a 4).setWidth 32).setWidth 16) ((be32 a 12).setWidth 32)) = _
    rw [setWidth_setWidth_self _ (by decide), BitVec.setWidth_eq]
  refine (readsAs_iff hread).2
    (sameAction_putAction h htype hsize (by decide) (show 4 + 12 ≤ 16 by decide) ?_)
  simp +decide only [SameArguments, htype, if_true, if_false]
  exact ⟨(Memory.be16_bytes16 (be16 a 4) []).symm, (Memory.be32_bytes32 (be32 a 12)).symm⟩

/-- The text of an accepted action, and what is read of it. -/
theorem readsAs_iff_readable (h : AcceptedAction key a) : ReadsAs p a ↔ Readable a := by
  have hknown := mem_knownTypes h
  simp only [knownTypes, List.mem_cons, List.not_mem_nil, or_false, Prod.mk.injEq] at hknown
  -- the names with which these are printed are not among the names that are read
  by_cases hunknown : setsNwAddr a = true ∨ setsTpPort a = true
  · refine iff_of_false (not_readsAs_of_unknown hunknown) fun hreadable => ?_
    obtain hnw | htp := hunknown
    · exact Bool.false_ne_true (hreadable.1.symm.trans hnw)
    · exact Bool.false_ne_true (hreadable.2.1.symm.trans htp)
  by_cases hout : actionType a = ofpatOutput
  · have hsize : a.length = 8 := by
      rw [hout] at hknown
      simpa +decide using hknown
    exact readsAs_output h hout hsize
  have hreadable : Readable a := by
    rw [not_or, Bool.not_eq_true, Bool.not_eq_true] at hunknown
    exact ⟨hunknown.1, hunknown.2, fun htype => absurd htype hout⟩
  -- every other type is read back with all its arguments
  refine iff_of_true ?_ hreadable
  simp only [setsNwAddr, setsTpPort, Bool.or_eq_true, beq_iff_eq, not_or] at hunknown
  obtain ⟨⟨hnwSrc, hnwDst⟩, htpSrc, htpDst⟩ := hunknown
  rcases hknown with
    ⟨htype, hsize⟩ | ⟨htype, hsize⟩ | ⟨htype, hsize⟩ | ⟨htype, hsize⟩ | ⟨htype, hsize⟩ |
    ⟨htype, hsize⟩ | ⟨htype, hsize⟩ | ⟨htype, hsize⟩ | ⟨htype, hsize⟩ | ⟨htype, hsize⟩ |
    ⟨htype, hsize⟩ | ⟨htype, hsize⟩
  · exact absurd htype hout
  · exact readsAs_vlanVid h htype hsize
  · exact readsAs_vlanPcp h htype hsize
  · exact readsAs_stripVlan h htype hsize
  · exact readsAs_dlAddr h (.inl htype) hsize
  · exact readsAs_dlAddr h (.inr htype) hsize
  · exact absurd htype hnwSrc
  · exact absurd htype hnwDst
  · exact readsAs_nwTos h htype hsize
  · exact absurd htype htpSrc
  · exact absurd htype htpDst
  · exact readsAs_enqueue h htype hsize

end Single

/-! ### Lists -/

section Lists

variable {p : Platform} {key : SwFlowKey}

theorem not_valueDelim_of_any {name : List Char} (hname : name.any valueDelim = false) :
    ∀ c ∈ name, valueDelim c = false := fun c hc =>
  Bool.not_eq_true _ ▸ List.any_eq_false.1 hname c hc

theorem plain_append (name : List Char) {value : List Char} (hname : name.any valueDelim = false)
    (hvalue : IsWord value) : Tokens.Plain valueDelim (name ++ value) := by
  refine ⟨List.append_ne_nil_of_right_ne_nil _ hvalue.ne_nil, fun c hc => ?_⟩
  obtain hc | hc := List.mem_append.1 hc
  · exact not_valueDelim_of_any hname c hc
  · exact hvalue.plain.not_delim c hc

theorem isWord_dottedQuad (ip : BitVec 32) : IsWord (dottedQuad ip) := by
  have hword := isWord_addressText ip 0
  rwa [addressText, if_neg (not_not.2 rfl), List.append_nil] at hword

theorem plain_portName (port : BitVec 16) : Tokens.Plain valueDelim (ofpPrintPortName port) := by
  unfold ofpPrintPortName
  repeat' split
  all_goals
    first | exact (isWord_decimal _).plain | exact ⟨by decide, not_valueDelim_of_any (by decide)⟩

/-- What is printed of an output action is a token. -/
theorem plain_printOutput (a : List Byte) : Tokens.Plain valueDelim (printOutput a) := by
  unfold printOutput
  simp only
  split
  next => exact plain_append _ (by decide) (isWord_decimal _)
  next =>
    have hport := plain_portName (be16 a 4)
    refine ⟨List.append_ne_nil_of_left_ne_nil hport.ne_nil _, fun c hc => ?_⟩
    obtain hc | hc := List.mem_append.1 hc
    · exact hport.not_delim c hc
    · split at hc
      next =>
        split at hc
        next => exact (plain_append ":".toList (by decide) (isWord_decimal _)).not_delim c hc
        next =>
          exact not_valueDelim_of_any (show ":all".toList.any valueDelim = false by decide) c hc
      next => cases hc

/-- Anything that is printed of an accepted action is a token. -/
theorem plain_actionText {a : List Byte} (h : AcceptedAction key a) :
    Tokens.Plain valueDelim (actionText a) := by
  -- the colon between the port and the queue is no delimiter
  have hqueue : IsWord (decimal (be16 a 4).toNat ++ ':' :: decimal (be32 a 12).toNat) := by
    refine ⟨List.append_ne_nil_of_left_ne_nil (isWord_decimal _).ne_nil _, fun c hc => ?_⟩
    obtain hc | hc := List.mem_append.1 hc
    · exact (isWord_decimal _).isWordChar_of_mem c hc
    obtain rfl | hc := List.mem_cons.1 hc
    · decide
    · exact (isWord_decimal _).isWordChar_of_mem c hc
  have hknown := mem_knownTypes h
  simp only [knownTypes, List.mem_cons, List.not_mem_nil, or_false, Prod.mk.injEq] at hknown
  unfold actionText
  rcases hknown with
    ⟨htype, -⟩ | ⟨htype, -⟩ | ⟨htype, -⟩ | ⟨htype, -⟩ | ⟨htype, -⟩ | ⟨htype, -⟩ | ⟨htype, -⟩ |
    ⟨htype, -⟩ | ⟨htype, -⟩ | ⟨htype, -⟩ | ⟨htype, -⟩ | ⟨htype, -⟩
  all_goals rw [htype]
  · exact plain_printOutput a
  · exact plain_append "mod_vlan_vid:".toList (by decide) (isWord_decimal _)
  · exact plain_append "mod_vlan_pcp:".toList (by decide) (isWord_decimal _)
  · show Tokens.Plain valueDelim "strip_vlan".toList
    exact ⟨by decide, not_valueDelim_of_any (by decide)⟩
  · exact plain_append "mod_dl_src:".toList (by decide) (isWord_ethAddr _)
  · exact plain_append "mod_dl_dst:".toList (by decide) (isWord_ethAddr _)
  · exact plain_append "mod_nw_src:".toList (by decide) (isWord_dottedQuad _)
  · exact plain_append "mod_nw_dst:".toList (by decide) (isWord_dottedQuad _)
  · exact plain_append "mod_nw_tos:".toList (by decide) (isWord_hexadecimal _ _)
  · exact plain_append "mod_tp_src:".toList (by decide) (isWord_decimal _)
  · exact plain_append "mod_tp_dst:".toList (by decide) (isWord_decimal _)
  · exact plain_append "enqueue:".toList (by decide) hqueue

/-- If something is put, it is one item of a list. -/
def Puts (x : Except ActionFault (List Byte)) : Prop :=
  ∀ b, x = .ok b → Tlv.IsItem sizeofOfpActionHeader actionLen b

/-- An action with an argument. -/
theorem puts_map {α : Type} {f : α → List Byte}
    (hf : ∀ v, Tlv.IsItem sizeofOfpActionHeader actionLen (f v)) (x : Except ActionFault α) :
    Puts (x.map f) := by
  intro b hb
  cases x with
  | error fault => cases hb
  | ok v =>
    cases hb
    exact hf v

theorem puts_ok {b : List Byte} (hb : Tlv.IsItem sizeofOfpActionHeader actionLen b) :
    Puts (.ok b) := by
  rintro _ heq
  exact Except.ok.inj heq ▸ hb

theorem isItem_putOutputAction (port maxLen : BitVec 16) :
    Tlv.IsItem sizeofOfpActionHeader actionLen (putOutputAction port maxLen) :=
  isItem_putAction (show 4 + 4 ≤ 8 by decide) (by decide) (by decide)

/-- What is put for a name. -/
theorem puts_read {r : ActionReader} (hr : r ∈ actionReaders) (act : List Char)
    (arg : Option (List Char)) :
    Puts (r.read p act arg) := by
  simp only [actionReaders, List.mem_cons, List.not_mem_nil, or_false] at hr
  rcases hr with rfl | rfl | rfl | rfl | rfl | rfl | rfl | rfl | rfl | rfl | rfl | rfl | rfl | rfl
  · exact puts_map (fun v => isItem_putAction (show 4 + 1 ≤ 8 by decide) (by decide) (by decide)) _
  · exact puts_map (fun v => isItem_putAction (show 4 + 2 ≤ 8 by decide) (by decide) (by decide)) _
  · exact puts_map (fun v => isItem_putAction (show 4 + 1 ≤ 8 by decide) (by decide) (by decide)) _
  · exact puts_map (fun v => isItem_putAction (show 4 + 6 ≤ 16 by decide) (by decide) (by decide)) _
  · exact puts_map (fun v => isItem_putAction (show 4 + 6 ≤ 16 by decide) (by decide) (by decide)) _
  · exact puts_ok (isItem_putAction (by decide) (by decide) (by decide))
  -- the queue: the port is read first, and either number may be wrong
  · cases arg with
    | none =>
      intro b hb
      cases hb
    | some arg =>
      simp only [readEnqueue]
      cases argToU32 p (some (Tokens.cut ':' arg).1) with
      | error fault =>
        intro b hb
        cases hb
      | ok port =>
        exact puts_map
          (fun v => isItem_putAction (show 4 + 12 ≤ 16 by decide) (by decide) (by decide)) _
  · exact puts_map (fun v => isItem_putOutputAction _ _) _
  · exact puts_ok (isItem_putOutputAction _ _)
  · exact puts_ok (isItem_putOutputAction _ _)
  · exact puts_ok (isItem_putOutputAction _ _)
  · exact puts_ok (isItem_putOutputAction _ _)
  · simp only [readController]
    split
    next => exact puts_map (fun v => isItem_putOutputAction _ _) _
    next => exact puts_ok (isItem_putOutputAction _ _)
  · exact puts_ok (isItem_putOutputAction _ _)

/-- What is put for a token. -/
theorem puts_readAction (p : Platform) (token : List Char) : Puts (readAction p token) := by
  unfold readAction
  simp only
  split
  next r hr => exact puts_read (List.mem_of_find?_eq_some hr) _ _
  next =>
    split
    next => exact puts_map (fun v => isItem_putOutputAction _ _) _
    next =>
      intro b hb
      cases hb

/-- What is read of a token and of others. -/
theorem readActions_cons_eq_ok_iff {token : List Char} {tokens : List (List Char)}
    {actions : List Byte} :
    readActions p (token :: tokens) = .ok actions ↔
      ∃ b rest, readAction p token = .ok b ∧ readActions p tokens = .ok rest ∧
        b ++ rest = actions := by
  rw [readActions]
  cases readAction p token with
  | error fault => simp [bind, Except.bind]
  | ok b =>
    cases readActions p tokens with
    | error fault => simp [bind, Except.bind]
    | ok rest => simp [bind, Except.bind, pure, Except.pure]

/-- What is read of tokens is what is read of each, one after the other. -/
theorem readActions_eq_ok_iff {tokens : List (List Char)} {actions : List Byte} :
    readActions p tokens = .ok actions ↔
      ∃ bs, List.Forall₂ (fun token b => readAction p token = .ok b) tokens bs ∧
        bs.flatten = actions := by
  induction tokens generalizing actions with
  | nil =>
    rw [readActions, Except.ok.injEq]
    constructor
    · rintro rfl
      exact ⟨[], .nil, rfl⟩
    · rintro ⟨bs, hbs, rfl⟩
      cases hbs
      rfl
  | cons token tokens ih =>
    rw [readActions_cons_eq_ok_iff]
    constructor
    · rintro ⟨b, rest, hb, hrest, rfl⟩
      obtain ⟨bs, hbs, rfl⟩ := ih.1 hrest
      exact ⟨b :: bs, .cons hb hbs, rfl⟩
    · rintro ⟨bs, hbs, rfl⟩
      cases hbs with
      | cons hb hbs => exact ⟨_, _, hb, ih.2 ⟨_, hbs, rfl⟩, rfl⟩

/-- What is put for tokens can be taken apart again. -/
theorem actionItems_of_readActions {tokens : List (List Char)} {bs : List (List Byte)}
    (hbs : List.Forall₂ (fun token b => readAction p token = .ok b) tokens bs) :
    actionItems bs.flatten = bs := by
  have hitems : ∀ b ∈ bs, Tlv.IsItem sizeofOfpActionHeader actionLen b := by
    induction hbs with
    | nil => exact fun b hb => by cases hb
    | cons htoken _ ih => exact List.forall_mem_cons.2 ⟨puts_readAction p _ _ htoken, ih⟩
  refine Tlv.split_flatten actionLen_append hitems ?_
  -- no item is empty, so there are not more items than bytes
  clear hbs
  induction bs with
  | nil => exact Nat.le_refl 0
  | cons b bs ih =>
    have hpos := (hitems b List.mem_cons_self).pos
    have ih := ih fun x hx => hitems x (List.mem_cons_of_mem _ hx)
    simp only [List.flatten_cons, List.length_append, List.length_cons]
    omega

/-- Lists of the same actions are equally long. -/
theorem length_flatten_eq {as bs : List (List Byte)} (h : List.Forall₂ SameAction as bs) :
    as.flatten.length = bs.flatten.length := by
  induction h with
  | nil => rfl
  | cons hsame _ ih =>
    rw [List.flatten_cons, List.flatten_cons, List.length_append, List.length_append, ih,
      hsame.length_eq]

/-- All texts are read as their actions exactly when each is. -/
theorem forall₂_readsAs_iff (as : List (List Byte)) :
    (∃ bs, List.Forall₂ (fun a b => readAction p (actionText a) = .ok b) as bs ∧
      List.Forall₂ SameAction as bs) ↔
      ∀ a ∈ as, ReadsAs p a := by
  induction as with
  | nil =>
    refine ⟨fun _ a ha => ?_, fun _ => ⟨[], .nil, .nil⟩⟩
    cases ha
  | cons a as ih =>
    rw [List.forall_mem_cons, ← ih]
    constructor
    · rintro ⟨bs, hread, hsame⟩
      cases hread with
      | cons hb hread =>
        cases hsame with
        | cons hbsame hsame => exact ⟨⟨_, hb, hbsame⟩, _, hread, hsame⟩
    · rintro ⟨⟨b, hb, hbsame⟩, bs, hread, hsame⟩
      exact ⟨b :: bs, .cons hb hread, .cons hbsame hsame⟩

/-- What is printed of an accepted list is read as the same list exactly when each text is read as
its action. -/
theorem roundTrips_iff_readsAs {as : List (List Byte)} (has : ∀ a ∈ as, AcceptedAction key a) :
    RoundTrips p as.flatten ↔ ∀ a ∈ as, ReadsAs p a := by
  -- the commas between the texts are delimiters, and none of the texts has one in it
  have htokens : Tokens.all valueDelim ([','].intercalate (as.map actionText)) =
      as.map actionText := by
    refine Tokens.all_intercalate (by decide) fun token htoken => ?_
    obtain ⟨a, ha, rfl⟩ := List.mem_map.1 htoken
    exact plain_actionText (has a ha)
  rw [← forall₂_readsAs_iff]
  constructor
  · rintro ⟨text, actions', htext, hread, hsame⟩
    rw [ofpPrintActions_flatten has, Option.some.injEq, List.append_cancel_left_eq] at htext
    rw [← htext, strToAction, htokens, readActions_eq_ok_iff] at hread
    obtain ⟨bs, hbs, rfl⟩ := hread
    have hactions := hsame.actions
    rw [actionItems_flatten has, actionItems_of_readActions hbs] at hactions
    exact ⟨bs, List.forall₂_map_left_iff.1 hbs, hactions⟩
  · rintro ⟨bs, hread, hsame⟩
    have hbs : List.Forall₂ (fun token b => readAction p token = .ok b) (as.map actionText) bs :=
      List.forall₂_map_left_iff.2 hread
    refine ⟨_, bs.flatten, ofpPrintActions_flatten has, ?_, length_flatten_eq hsame, ?_⟩
    · rw [strToAction, htokens, readActions_eq_ok_iff]
      exact ⟨bs, hbs, rfl⟩
    · rw [actionItems_flatten has, actionItems_of_readActions hbs]
      exact hsame

theorem roundTrips_single_iff {a : List Byte} (h : AcceptedAction key a) :
    RoundTrips p a ↔ Readable a := by
  have hsingle := roundTrips_iff_readsAs (p := p) (List.forall_mem_singleton.2 h)
  rw [List.forall_mem_singleton, readsAs_iff_readable h] at hsingle
  simpa using hsingle

end Lists

/-- A list that is accepted is read as it has been printed exactly when `str_to_action` knows all
its actions by the names with which they are printed, with their arguments. -/
theorem actionRoundTrip_iff {key : SwFlowKey} {actions : List Byte} (p : Platform)
    (hval : validateActions key actions = actValidationOk) :
    RoundTrips p actions ↔ ∀ a ∈ actionItems actions, Readable a := by
  obtain ⟨as, rfl, has⟩ := validateActions_eq_ok_iff.1 hval
  rw [roundTrips_iff_readsAs has, actionItems_flatten has]
  exact forall₂_congr fun a ha => readsAs_iff_readable (has a ha)

/-- A platform without host names. -/
def plainPlatform : Platform := ⟨32, Nat.le_refl 32, fun _ => none⟩

/-- A tag is taken away, and the packet goes to the controller. -/
theorem actionRoundTrip_iff_strip :
    RoundTrips plainPlatform [0, 3, 0, 8, 0, 0, 0, 0, 0, 0, 0, 8, 0xff, 0xfd, 0, 0] := by
  refine (@actionRoundTrip_iff (flowExtractMatch { OfpMatch.zero with wildcards := ofpfwAll })
    [0, 3, 0, 8, 0, 0, 0, 0, 0, 0, 0, 8, 0xff, 0xfd, 0, 0] plainPlatform (by decide)).2 ?_
  unfold Readable
  decide

/-- The first 128 bytes of a packet go to the controller: the number is not read. -/
theorem not_actionRoundTrip :
    ¬ ∀ (key : SwFlowKey) (actions : List Byte) (p : Platform), validateActions key actions =
      actValidationOk →
      RoundTrips p actions := by
  intro hall
  have hval : validateActions (flowExtractMatch { OfpMatch.zero with wildcards := ofpfwAll })
      [0, 0, 0, 8, 0xff, 0xfd, 0, 128] = actValidationOk := by decide
  have haccepted : AcceptedAction (flowExtractMatch { OfpMatch.zero with wildcards := ofpfwAll })
      [0, 0, 0, 8, 0xff, 0xfd, 0, 128] := by
    refine ⟨by decide, by decide, by decide, _, rfl, by decide, by decide, ?_⟩
    rintro _ ⟨⟩
    decide
  have hreadable := (roundTrips_single_iff haccepted).1 (hall _ _ plainPlatform hval)
  exact absurd (hreadable.2.2 (by decide)).2 (by decide)

end OfAgent.Dpctl
