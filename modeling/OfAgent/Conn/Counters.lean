import Mathlib.Logic.Function.Basic
import OfAgent.Control.Message

/-!
# Counters of messages

`ofpstat.c`: how many messages of each class a connection has seen.

* `OfpStatField`, `OfpStat`: `struct ofpstat`.
* `OfpStat.incProtocolStat`: a message is counted. The type and the code of an error and the command
  of a flow modification are read from where they should be, whatever the size of the message.
* `OfpMessage.InClass`: the messages that a counter is meant for, by the numbers of the protocol.
* `OfpStat.incProtocolStat_apply`: the counters of its classes go up by one, when the message is
  `Complete`.
-/

namespace OfAgent

/-! ### The counters -/

/-- `ofps_error_type`. -/
inductive OfpErrorTypeField
  | helloFail
  | badRequest
  | badAction
  | flowModFail
  | unknown
  deriving DecidableEq, Repr

/-- `ofps_error_code`. -/
inductive OfpErrorCodeField
  | hfIncompat
  | hfEperm
  | brBadVersion
  | brBadType
  | brBadStat
  | brBadVendor
  | brEperm
  | baBadType
  | baBadLen
  | baBadVendor
  | baBadVendorType
  | baBadOutPort
  | baBadArgument
  | baEperm
  | fmfAllTablesFull
  | fmfOverlap
  | fmfEperm
  | fmfEmerg
  | unknown
  deriving DecidableEq, Repr

/-- `ofps_flow_mod_ops`. -/
inductive OfpFlowModOpsField
  | add
  | modify
  | modifyStrict
  | delete
  | deleteStrict
  | unknown
  deriving DecidableEq, Repr

/-- The fields of `struct ofpstat`. -/
inductive OfpStatField
  | total
  | unknown
  | hello
  | error
  | errorType (tag : OfpErrorTypeField)
  | errorCode (tag : OfpErrorCodeField)
  | echoRequest
  | echoReply
  | vendor
  | featsRequest
  | featsReply
  | getConfigRequest
  | getConfigReply
  | setConfig
  | packetIn
  | flowRemoved
  | portStatus
  | packetOut
  | flowMod
  | flowModOps (tag : OfpFlowModOpsField)
  | portMod
  | statsRequest
  | statsReply
  | barrierRequest
  | barrierReply
  deriving DecidableEq, Repr

/-- `struct ofpstat`. -/
abbrev OfpStat : Type := OfpStatField → BitVec 64

/-- All counters are zero. -/
def OfpStat.zero : OfpStat := fun _ => 0

/-- `INC_IFP_STAT`. -/
def OfpStat.inc (ifps : OfpStat) (tag : OfpStatField) : OfpStat :=
  Function.update ifps tag (ifps tag + 1)

/-! ### Counting -/

/-- The counter that `inc_protocol_message` increments. -/
def protocolMessageTag : Option OfpType → OfpStatField
  | some .hello => .hello
  | some .error => .error
  | some .echoRequest => .echoRequest
  | some .echoReply => .echoReply
  | some .vendor => .vendor
  | some .featuresRequest => .featsRequest
  | some .featuresReply => .featsReply
  | some .getConfigRequest => .getConfigRequest
  | some .getConfigReply => .getConfigReply
  | some .setConfig => .setConfig
  | some .packetIn => .packetIn
  | some .flowRemoved => .flowRemoved
  | some .portStatus => .portStatus
  | some .packetOut => .packetOut
  | some .flowMod => .flowMod
  | some .portMod => .portMod
  | some .statsRequest => .statsRequest
  | some .statsReply => .statsReply
  | some .barrierRequest => .barrierRequest
  | some .barrierReply => .barrierReply
  | some .queueGetConfigRequest | some .queueGetConfigReply | none => .unknown

/-- The counter that `inc_error_notification` increments for the type. -/
def errorTypeTag : ℕ → OfpErrorTypeField
  | 0 => .helloFail
  | 1 => .badRequest
  | 2 => .badAction
  | 3 => .flowModFail
  | _ => .unknown

/-- The counter that `inc_error_notification` increments for the code, if it knows the type. -/
def errorCodeTag (errtype errcode : ℕ) : Option OfpErrorCodeField :=
  match errtype with
  | 0 => some <|
      match errcode with
      | 0 => .hfIncompat
      | 1 => .hfEperm
      | _ => .unknown
  | 1 => some <|
      match errcode with
      | 0 => .brBadVersion
      | 1 => .brBadType
      | 2 => .brBadStat
      | 3 => .brBadVendor
      | 5 => .brEperm
      | _ => .unknown
  | 2 => some <|
      match errcode with
      | 0 => .baBadType
      | 1 => .baBadLen
      | 2 => .baBadVendor
      | 3 => .baBadVendorType
      | 4 => .baBadOutPort
      | 5 => .baBadArgument
      | 6 => .baEperm
      | _ => .unknown
  | 3 => some <|
      match errcode with
      | 0 => .fmfAllTablesFull
      | 1 => .fmfOverlap
      | 2 => .fmfEperm
      | 3 => .fmfEmerg
      | _ => .unknown
  | _ => none

/-- The counter that `inc_flow_manipulation` increments. -/
def flowManipulationTag : ℕ → OfpFlowModOpsField
  | 0 => .add
  | 1 => .modify
  | 2 => .modifyStrict
  | 3 => .delete
  | 4 => .deleteStrict
  | _ => .unknown

namespace OfpMessage

variable (msg : OfpMessage)

/-- `type` of `struct ofp_error_msg`. -/
def errtype : ℕ := (msg.mem.get16 8).toNat

/-- `code` of `struct ofp_error_msg`. -/
def errcode : ℕ := (msg.mem.get16 10).toNat

/-- `command` of `struct ofp_flow_mod`. -/
def flowmodops : ℕ := (msg.mem.get16 56).toNat

/-- The counters that are incremented for an error or a flow modification. -/
def detailTags : List OfpStatField :=
  match msg.type with
  | some .error =>
      .errorType (errorTypeTag msg.errtype) ::
        ((errorCodeTag msg.errtype msg.errcode).map OfpStatField.errorCode).toList
  | some .flowMod => [.flowModOps (flowManipulationTag msg.flowmodops)]
  | _ => []

/-- The counters that `ofpstat_inc_protocol_stat` increments, one after the other. -/
def statTags : List OfpStatField := .total :: protocolMessageTag msg.type :: msg.detailTags

end OfpMessage

/-- `ofpstat_inc_protocol_stat`. -/
def OfpStat.incProtocolStat (ifps : OfpStat) (hdr : OfpMessage) : OfpStat :=
  hdr.statTags.foldl OfpStat.inc ifps

/-! ### Classes of messages -/

/-- The message type that a counter is for. -/
def OfpStatField.ofpType : OfpStatField → Option OfpType
  | .hello => some .hello
  | .error => some .error
  | .echoRequest => some .echoRequest
  | .echoReply => some .echoReply
  | .vendor => some .vendor
  | .featsRequest => some .featuresRequest
  | .featsReply => some .featuresReply
  | .getConfigRequest => some .getConfigRequest
  | .getConfigReply => some .getConfigReply
  | .setConfig => some .setConfig
  | .packetIn => some .packetIn
  | .flowRemoved => some .flowRemoved
  | .portStatus => some .portStatus
  | .packetOut => some .packetOut
  | .flowMod => some .flowMod
  | .portMod => some .portMod
  | .statsRequest => some .statsRequest
  | .statsReply => some .statsReply
  | .barrierRequest => some .barrierRequest
  | .barrierReply => some .barrierReply
  | .total | .unknown | .errorType _ | .errorCode _ | .flowModOps _ => none

/-- A value stands for a number: for its own one or, when it has none, for those that no value
has. -/
def StandsFor {α κ : Type*} (number : α → Option κ) (x : α) (k : κ) : Prop :=
  match number x with
  | some n => k = n
  | none => ∀ y, number y ≠ some k

/-- The number of an error type (`enum ofp_error_type`). -/
def OfpErrorTypeField.number : OfpErrorTypeField → Option ℕ
  | .helloFail => some 0
  | .badRequest => some 1
  | .badAction => some 2
  | .flowModFail => some 3
  | .unknown => none

/-- The numbers of an error type and of a code of this type. -/
def OfpErrorCodeField.numbers : OfpErrorCodeField → Option (ℕ × ℕ)
  | .hfIncompat => some (0, 0)
  | .hfEperm => some (0, 1)
  | .brBadVersion => some (1, 0)
  | .brBadType => some (1, 1)
  | .brBadStat => some (1, 2)
  | .brBadVendor => some (1, 3)
  | .brEperm => some (1, 5)
  | .baBadType => some (2, 0)
  | .baBadLen => some (2, 1)
  | .baBadVendor => some (2, 2)
  | .baBadVendorType => some (2, 3)
  | .baBadOutPort => some (2, 4)
  | .baBadArgument => some (2, 5)
  | .baEperm => some (2, 6)
  | .fmfAllTablesFull => some (3, 0)
  | .fmfOverlap => some (3, 1)
  | .fmfEperm => some (3, 2)
  | .fmfEmerg => some (3, 3)
  | .unknown => none

/-- The number of a command (`enum ofp_flow_mod_command`). -/
def OfpFlowModOpsField.number : OfpFlowModOpsField → Option ℕ
  | .add => some 0
  | .modify => some 1
  | .modifyStrict => some 2
  | .delete => some 3
  | .deleteStrict => some 4
  | .unknown => none

/-- The end of `command` in `struct ofp_flow_mod`. -/
def endOfCommand : ℕ := 58

namespace OfpMessage

variable (msg : OfpMessage)

/-- The counter is meant for the message. The codes of errors of an unknown type have no
counter. -/
def InClass : OfpStatField → Prop
  | .total => True
  | .unknown => ∀ tag : OfpStatField, tag.ofpType ≠ none → tag.ofpType ≠ msg.type
  | .errorType tag =>
      (msg.type = some .error ∧ sizeofOfpErrorMsg ≤ msg.length) ∧
        StandsFor OfpErrorTypeField.number tag msg.errtype
  | .errorCode tag =>
      (msg.type = some .error ∧ sizeofOfpErrorMsg ≤ msg.length) ∧
        (∃ tag : OfpErrorTypeField, tag.number = some msg.errtype) ∧
          StandsFor OfpErrorCodeField.numbers tag (msg.errtype, msg.errcode)
  | .flowModOps tag =>
      (msg.type = some .flowMod ∧ endOfCommand ≤ msg.length) ∧
        StandsFor OfpFlowModOpsField.number tag msg.flowmodops
  | tag => msg.type = tag.ofpType

/-- What decides the classes of the message is inside it. -/
structure Complete : Prop where
  /-- The type and the code of an error. -/
  error : msg.type = some .error → sizeofOfpErrorMsg ≤ msg.length
  /-- The command of a flow modification. -/
  flowMod : msg.type = some .flowMod → endOfCommand ≤ msg.length

end OfpMessage

/-! ### The counters of a message -/

/-- When every other value is chosen for its own number only, the last one is chosen for the numbers
that none of them has. -/
theorem eq_iff_standsFor {α κ : Type*} {number : α → Option κ} {chosen unknown : α} {k : κ}
    (h : ∀ x, x ≠ unknown → (chosen = x ↔ number x = some k))
    (hunknown : ∀ x, number x = none ↔ x = unknown) (x : α) :
    chosen = x ↔ StandsFor number x k := by
  unfold StandsFor
  cases hx : number x with
  | some n =>
    have hne : x ≠ unknown := fun heq => by
      rw [(hunknown x).2 heq] at hx
      cases hx
    rw [h x hne, hx, Option.some_inj]
    exact eq_comm
  | none =>
    obtain rfl := (hunknown x).1 hx
    constructor
    · rintro rfl y hy
      by_cases heq : y = chosen
      · rw [heq, hx] at hy
        cases hy
      · exact heq ((h y heq).2 hy).symm
    · intro hall
      by_contra hne
      exact hall chosen ((h chosen hne).1 rfl)

/-- The counter for an error type. -/
theorem errorTypeTag_eq_iff {t : ℕ} {tag : OfpErrorTypeField} (htag : tag ≠ .unknown) :
    errorTypeTag t = tag ↔ tag.number = some t := by
  constructor
  · rintro rfl
    revert htag
    unfold errorTypeTag
    split <;> intro htag <;> first | rfl | exact absurd rfl htag
  · intro h
    cases tag <;> cases h <;> rfl

/-- The counter for an error code. -/
theorem errorCodeTag_eq_iff {t c : ℕ} {tag : OfpErrorCodeField} (htag : tag ≠ .unknown) :
    errorCodeTag t c = some tag ↔ tag.numbers = some (t, c) := by
  constructor
  · intro h
    unfold errorCodeTag at h
    split at h
    case h_5 => cases h
    all_goals
      obtain rfl := Option.some.inj h
      clear h
      revert htag
      split <;> intro htag <;> first | rfl | exact absurd rfl htag
  · intro h
    cases tag <;> cases h <;> rfl

/-- The counter for a command. -/
theorem flowManipulationTag_eq_iff {c : ℕ} {tag : OfpFlowModOpsField} (htag : tag ≠ .unknown) :
    flowManipulationTag c = tag ↔ tag.number = some c := by
  constructor
  · rintro rfl
    revert htag
    unfold flowManipulationTag
    split <;> intro htag <;> first | rfl | exact absurd rfl htag
  · intro h
    cases tag <;> cases h <;> rfl

/-- The counter for a message type. -/
theorem protocolMessageTag_eq_iff {t : Option OfpType} {tag : OfpStatField}
    (htag : tag.ofpType ≠ none) : protocolMessageTag t = tag ↔ tag.ofpType = t := by
  constructor
  · rintro rfl
    revert htag
    unfold protocolMessageTag
    split <;> intro htag <;> first | rfl | exact absurd rfl htag
  · rintro rfl
    cases tag <;> first | rfl | exact absurd rfl htag

/-- It is one of those that are for a message type, or for the unknown types. -/
theorem ofpType_protocolMessageTag {t : Option OfpType} (h : protocolMessageTag t ≠ .unknown) :
    (protocolMessageTag t).ofpType ≠ none := by
  revert h
  unfold protocolMessageTag
  split <;> intro h <;> first | exact absurd rfl h | exact Option.some_ne_none _

/-- The codes of an error are told apart when its type is known. -/
theorem errorCodeTag_eq_none_iff {t c : ℕ} :
    errorCodeTag t c = none ↔ errorTypeTag t = .unknown := by
  unfold errorCodeTag errorTypeTag
  split <;> simp

theorem errorTypeTag_eq_iff_standsFor {t : ℕ} {tag : OfpErrorTypeField} :
    errorTypeTag t = tag ↔ StandsFor OfpErrorTypeField.number tag t :=
  eq_iff_standsFor (fun _ => errorTypeTag_eq_iff) (fun tag => by cases tag <;> decide) tag

theorem flowManipulationTag_eq_iff_standsFor {c : ℕ} {tag : OfpFlowModOpsField} :
    flowManipulationTag c = tag ↔ StandsFor OfpFlowModOpsField.number tag c :=
  eq_iff_standsFor (fun _ => flowManipulationTag_eq_iff) (fun tag => by cases tag <;> decide) tag

theorem errorCodeTag_eq_iff_standsFor {t c : ℕ} {tag : OfpErrorCodeField} :
    errorCodeTag t c = some tag ↔
      (∃ tag : OfpErrorTypeField, tag.number = some t) ∧
        StandsFor OfpErrorCodeField.numbers tag (t, c) := by
  have hknown : (∃ tag : OfpErrorTypeField, tag.number = some t) ↔ errorCodeTag t c ≠ none := by
    rw [ne_eq, errorCodeTag_eq_none_iff, errorTypeTag_eq_iff_standsFor]
    exact not_forall_not.symm
  rw [hknown]
  cases hchosen : errorCodeTag t c with
  | some chosen =>
    have hiff : ∀ x : OfpErrorCodeField, x ≠ .unknown → (chosen = x ↔ x.numbers = some (t, c)) := by
      intro x hx
      rw [← errorCodeTag_eq_iff hx, hchosen, Option.some_inj]
    rw [Option.some_inj, eq_iff_standsFor hiff (fun tag => by cases tag <;> decide) tag]
    exact (and_iff_right (Option.some_ne_none _)).symm
  | none => exact iff_of_false (fun h => by cases h) fun h => h.1 rfl

namespace OfpMessage

variable {msg : OfpMessage}

theorem errorType_mem_detailTags {tag : OfpErrorTypeField} :
    .errorType tag ∈ msg.detailTags ↔ msg.type = some .error ∧ errorTypeTag msg.errtype = tag := by
  unfold detailTags
  split
  next h => simp [h, eq_comm]
  next h => simp [h]
  next h _ => exact ⟨fun hmem => absurd hmem List.not_mem_nil, fun hall => (h hall.1).elim⟩

theorem errorCode_mem_detailTags {tag : OfpErrorCodeField} :
    .errorCode tag ∈ msg.detailTags ↔
      msg.type = some .error ∧ errorCodeTag msg.errtype msg.errcode = some tag := by
  unfold detailTags
  split
  next h => simp [h]
  next h => simp [h]
  next h _ => exact ⟨fun hmem => absurd hmem List.not_mem_nil, fun hall => (h hall.1).elim⟩

theorem flowModOps_mem_detailTags {tag : OfpFlowModOpsField} :
    .flowModOps tag ∈ msg.detailTags ↔
      msg.type = some .flowMod ∧ flowManipulationTag msg.flowmodops = tag := by
  unfold detailTags
  split
  next h => simp [h]
  next h => simp [h, eq_comm]
  next _ h => exact ⟨fun hmem => absurd hmem List.not_mem_nil, fun hall => (h hall.1).elim⟩

/-- The details have counters of their own. -/
theorem eq_of_mem_detailTags {tag : OfpStatField} (h : tag ∈ msg.detailTags) :
    (∃ t, tag = .errorType t) ∨ (∃ c, tag = .errorCode c) ∨ ∃ f, tag = .flowModOps f := by
  unfold detailTags at h
  split at h
  next =>
    rcases List.mem_cons.1 h with h | h
    · exact .inl ⟨_, h⟩
    · obtain ⟨c, -, hc⟩ := Option.map_eq_some_iff.1 (Option.mem_toList.1 h)
      exact .inr (.inl ⟨c, hc.symm⟩)
  next => exact .inr (.inr ⟨_, List.mem_singleton.1 h⟩)
  next => cases h

/-- The counter for the type is none of the others. -/
theorem protocolMessageTag_ne (t : Option OfpType) :
    protocolMessageTag t ≠ .total ∧ (∀ tag, protocolMessageTag t ≠ .errorType tag) ∧
      (∀ tag, protocolMessageTag t ≠ .errorCode tag) ∧
        ∀ tag, protocolMessageTag t ≠ .flowModOps tag := by
  unfold protocolMessageTag
  split <;> simp

/-- No counter is incremented twice. -/
theorem nodup_statTags : msg.statTags.Nodup := by
  have hdetails : msg.detailTags.Nodup := by
    unfold detailTags
    split
    next => cases errorCodeTag msg.errtype msg.errcode <;> simp
    next => simp
    next => exact List.nodup_nil
  obtain ⟨htotal, herrorType, herrorCode, hflowModOps⟩ := protocolMessageTag_ne msg.type
  have hmem : protocolMessageTag msg.type ∉ msg.detailTags := by
    intro h
    rcases eq_of_mem_detailTags h with ⟨t, h⟩ | ⟨c, h⟩ | ⟨f, h⟩
    · exact herrorType t h
    · exact herrorCode c h
    · exact hflowModOps f h
  refine List.nodup_cons.2 ⟨fun h => ?_, List.nodup_cons.2 ⟨hmem, hdetails⟩⟩
  rcases List.mem_cons.1 h with h | h
  · exact htotal h.symm
  · rcases eq_of_mem_detailTags h with ⟨_, h⟩ | ⟨_, h⟩ | ⟨_, h⟩ <;> cases h

/-- The counters for a type, and the one for unknown types. -/
theorem mem_statTags_of_ofpType {tag : OfpStatField} (htag : tag.ofpType ≠ none ∨ tag = .unknown) :
    tag ∈ msg.statTags ↔ protocolMessageTag msg.type = tag := by
  have hdetail : tag ∉ msg.detailTags := by
    intro h
    rcases eq_of_mem_detailTags h with ⟨_, rfl⟩ | ⟨_, rfl⟩ | ⟨_, rfl⟩ <;>
      rcases htag with htag | htag <;> first | exact htag rfl | cases htag
  have htotal : tag ≠ .total := by
    rintro rfl
    rcases htag with htag | htag
    · exact htag rfl
    · cases htag
  simp [statTags, htotal, hdetail, eq_comm]

theorem mem_statTags_of_type {tag : OfpStatField} (htag : tag.ofpType ≠ none) :
    tag ∈ msg.statTags ↔ msg.type = tag.ofpType := by
  rw [mem_statTags_of_ofpType (.inl htag), protocolMessageTag_eq_iff htag]
  exact eq_comm

theorem mem_statTags_of_detail {tag : OfpStatField}
    (htag : (∃ t, tag = .errorType t) ∨ (∃ c, tag = .errorCode c) ∨ ∃ f, tag = .flowModOps f) :
    tag ∈ msg.statTags ↔ tag ∈ msg.detailTags := by
  obtain ⟨-, herrorType, herrorCode, hflowModOps⟩ := protocolMessageTag_ne msg.type
  rcases htag with ⟨t, rfl⟩ | ⟨c, rfl⟩ | ⟨f, rfl⟩
  · simp [statTags, (herrorType t).symm]
  · simp [statTags, (herrorCode c).symm]
  · simp [statTags, (hflowModOps f).symm]

/-- The counters that a complete message increments are those that are meant for it. -/
theorem mem_statTags_iff (hmsg : msg.Complete) (tag : OfpStatField) :
    tag ∈ msg.statTags ↔ msg.InClass tag := by
  -- a complete message has what the counters read of it
  have herror : msg.type = some .error ↔
      msg.type = some .error ∧ sizeofOfpErrorMsg ≤ msg.length :=
    ⟨fun h => ⟨h, hmsg.error h⟩, And.left⟩
  have hflowMod : msg.type = some .flowMod ↔ msg.type = some .flowMod ∧ endOfCommand ≤ msg.length :=
    ⟨fun h => ⟨h, hmsg.flowMod h⟩, And.left⟩
  cases tag with
  | total => simp [statTags, InClass]
  | unknown =>
    rw [mem_statTags_of_ofpType (.inr rfl)]
    constructor
    · intro h tag htag heq
      rw [(protocolMessageTag_eq_iff htag).2 heq] at h
      exact htag (by rw [h]; rfl)
    · intro hall
      by_contra hne
      exact hall _ (ofpType_protocolMessageTag hne)
        ((protocolMessageTag_eq_iff (ofpType_protocolMessageTag hne)).1 rfl)
  | errorType tag =>
    rw [mem_statTags_of_detail (.inl ⟨tag, rfl⟩), errorType_mem_detailTags]
    exact and_congr herror errorTypeTag_eq_iff_standsFor
  | errorCode tag =>
    rw [mem_statTags_of_detail (.inr (.inl ⟨tag, rfl⟩)), errorCode_mem_detailTags]
    exact and_congr herror errorCodeTag_eq_iff_standsFor
  | flowModOps tag =>
    rw [mem_statTags_of_detail (.inr (.inr ⟨tag, rfl⟩)), flowModOps_mem_detailTags]
    exact and_congr hflowMod flowManipulationTag_eq_iff_standsFor
  | _ => exact mem_statTags_of_type fun h => by cases h

end OfpMessage

/-! ### What counting does -/

namespace OfpStat

variable (ifps : OfpStat)

/-- Counters that are incremented one after the other. -/
theorem foldl_inc_apply (tags : List OfpStatField) (tag : OfpStatField) :
    tags.foldl inc ifps tag = ifps tag + BitVec.ofNat 64 (tags.count tag) := by
  induction tags generalizing ifps with
  | nil => exact (BitVec.add_zero _).symm
  | cons t tags ih =>
    rw [List.foldl_cons, ih, inc]
    by_cases h : t = tag
    · subst h
      rw [Function.update_self, List.count_cons_self, BitVec.ofNat_add,
        add_comm _ (BitVec.ofNat 64 1), ← add_assoc]
      rfl
    · rw [Function.update_of_ne (Ne.symm h), List.count_cons_of_ne h]

/-- A message goes into the counters of its list. -/
theorem incProtocolStat_apply (hdr : OfpMessage) (tag : OfpStatField) :
    ifps.incProtocolStat hdr tag = ifps tag + if tag ∈ hdr.statTags then 1 else 0 := by
  rw [incProtocolStat, foldl_inc_apply]
  split
  next h =>
    rw [List.count_eq_one_of_mem hdr.nodup_statTags h]
    rfl
  next h =>
    rw [List.count_eq_zero_of_not_mem h]
    rfl

end OfpStat

end OfAgent
