import OfAgent.Secchan.PortWatcher

/-!
# Histories of ports

The port watcher against what it is for: a map from numbers to the last descriptions, and a record
of its changes. The watcher looks for a change before it has replaced the characters of a name that
cannot be printed, so that a description with such characters always seems to be a new one.

* `PortHistory`: the map and its changes; `PortHistory.message`: what a message from the datapath
  does to them.
* `IndexedWatcher`: the watcher with the records that its array points to, and the index
  `port_by_name` of the records.
* `Follows`: the watcher has the map, and calls its callbacks for the changes, and for others that
  are none.
* `watchesWell_iff`: the calls are the changes exactly when no description differs from the known
  one in nothing but characters that are replaced.
-/

namespace OfAgent

/-! ### The map of ports -/

/-- A change of what is known about a port. -/
structure PortChange where
  /-- The number. -/
  portNo : BitVec 16
  /-- What was known. -/
  old : Option OfpPhyPortDesc
  /-- What is known now. -/
  new : Option OfpPhyPortDesc
  deriving DecidableEq

/-- What is known about ports, and how it has changed. -/
structure PortHistory where
  /-- The ports that there are. -/
  ports : BitVec 16 → Option OfpPhyPortDesc
  /-- The changes. -/
  changes : List PortChange

namespace PortHistory

open PortWatcher

/-- Nothing is known. -/
def start : PortHistory := ⟨fun _ => none, []⟩

/-- Something is known about a port, or nothing any more. -/
def set (n : BitVec 16) (new : Option OfpPhyPortDesc) (h : PortHistory) : PortHistory where
  ports := Function.update h.ports n new
  changes := if h.ports n = new then h.changes else h.changes ++ [⟨n, h.ports n, new⟩]

/-- A description: its name is made printable, and the state of the spanning tree is the one
before. -/
def describe (opp : OfpPhyPortDesc) (h : PortHistory) : PortHistory :=
  h.set opp.portNo (some (sanitizeOpp (keepStpState (h.ports opp.portNo) opp)))

/-- All ports of a description of the datapath, and no others. -/
def describeAll (listed : List OfpPhyPortDesc) (numbers : List (BitVec 16)) (h : PortHistory) :
    PortHistory :=
  let h := listed.foldl (fun h opp => h.describe opp) h
  numbers.foldl
    (fun h n => if (listed.map fun opp => opp.portNo).contains n then h else h.set n none) h

/-- A message from the datapath. -/
def message (h : PortHistory) (msg : OfpMessage) : PortHistory :=
  if msg.type = some .featuresReply ∧ sizeofOfpSwitchFeatures ≤ msg.length then
    h.describeAll (featuresPorts msg) portNumbers
  else if msg.type = some .portStatus ∧ sizeofOfpPortStatus ≤ msg.length then
    let desc := OfpPhyPortDesc.ofMemory msg.mem 16
    if msg.mem 8 = ofpprDelete then h.set desc.portNo none
    else if msg.mem 8 = ofpprModify ∨ msg.mem 8 = ofpprAdd then h.describe desc
    else h
  else h

/-- A description that differs from the known one, but not any more when its name has been made
printable. -/
def Redundant (h : PortHistory) (opp : OfpPhyPortDesc) : Prop :=
  ∃ old, h.ports opp.portNo = some old ∧ keepStpState (some old) opp ≠ old ∧
    sanitizeOpp (keepStpState (some old) opp) = old

/-- No description of a list is redundant, one after the other. -/
def Telling : List OfpPhyPortDesc → PortHistory → Prop
  | [], _ => True
  | opp :: opps, h => ¬ h.Redundant opp ∧ Telling opps (h.describe opp)

/-- No description of a message is redundant. -/
def TellingMessage (h : PortHistory) (msg : OfpMessage) : Prop :=
  if msg.type = some .featuresReply ∧ sizeofOfpSwitchFeatures ≤ msg.length then
    Telling (featuresPorts msg) h
  else if msg.type = some .portStatus ∧ sizeofOfpPortStatus ≤ msg.length then
    msg.mem 8 = ofpprModify ∨ msg.mem 8 = ofpprAdd → ¬ h.Redundant (.ofMemory msg.mem 16)
  else True

/-- No description of some messages is redundant, one after the other. -/
def TellingRun : List OfpMessage → PortHistory → Prop
  | [], _ => True
  | msg :: msgs, h => h.TellingMessage msg ∧ TellingRun msgs (h.message msg)

end PortHistory

/-! ### The watcher with its records -/

/-- The port watcher, the records that its array points to, and the index of names. The records are
numbered in the order in which they are allocated. -/
structure IndexedWatcher extends PortWatcher where
  /-- The record that `ports` points to. -/
  records : BitVec 16 → Option ℕ
  /-- How many records have been allocated. -/
  allocated : ℕ
  /-- `port_by_name`. -/
  portByName : List (List Byte × ℕ)

namespace IndexedWatcher

/-- `port_watcher_start`. -/
def start : IndexedWatcher :=
  { PortWatcher.start with records := fun _ => none, allocated := 0, portByName := [] }

/-- `update_phy_port`. -/
def updatePhyPort (opp : OfpPhyPortDesc) (reason : BitVec 8) (iw : IndexedWatcher) :
    IndexedWatcher :=
  let pw := iw.toPortWatcher.updatePhyPort opp reason
  if reason = ofpprDelete ∧ iw.ports opp.portNo ≠ none then
    -- free
    { iw with toPortWatcher := pw, records := Function.update iw.records opp.portNo none }
  else if (reason = ofpprModify ∨ reason = ofpprAdd) ∧ iw.ports opp.portNo = none then
    -- xmemdup
    { iw with
      toPortWatcher := pw
      records := Function.update iw.records opp.portNo (some iw.allocated)
      allocated := iw.allocated + 1 }
  else { iw with toPortWatcher := pw }

/-- The name of a port, as a string. -/
def nameOf (opp : OfpPhyPortDesc) : List Byte := opp.name.takeWhile (· ≠ 0)

/-- `update_netdev_monitor_devices`, as far as it is about the index. -/
def updateNetdevMonitorDevices (iw : IndexedWatcher) : IndexedWatcher :=
  { iw with portByName := PortWatcher.portNumbers.filterMap fun n =>
      (iw.ports n).bind fun opp => (iw.records n).map fun record => (nameOf opp, record) }

/-- One turn of the loop over all ports. -/
def deleteUnseen (seen : List (BitVec 16)) (iw : IndexedWatcher) (n : BitVec 16) : IndexedWatcher :=
  match iw.ports n with
  | none => iw
  | some p => if seen.contains n then iw else iw.updatePhyPort p ofpprDelete

/-- `call_local_port_changed_callbacks`. -/
def callLocalPortChangedCallbacks (iw : IndexedWatcher) : IndexedWatcher :=
  { iw with toPortWatcher := iw.toPortWatcher.callLocalPortChangedCallbacks }

/-- `port_watcher_local_packet_cb`. -/
def localPacketCb (iw : IndexedWatcher) (msg : OfpMessage) : IndexedWatcher :=
  if msg.type = some .featuresReply ∧ sizeofOfpSwitchFeatures ≤ msg.length then
    let listed := PortWatcher.featuresPorts msg
    let iw := listed.foldl (fun iw opp => iw.updatePhyPort opp ofpprModify) iw
    let iw := PortWatcher.portNumbers.foldl (deleteUnseen (listed.map fun opp => opp.portNo)) iw
    iw.updateNetdevMonitorDevices.callLocalPortChangedCallbacks
  else if msg.type = some .portStatus ∧ PortWatcher.sizeofOfpPortStatus ≤ msg.length then
    let desc := OfpPhyPortDesc.ofMemory msg.mem 16
    let iw := iw.updatePhyPort desc (msg.mem 8)
    let iw := if desc.portNo = ofppLocal then iw.callLocalPortChangedCallbacks else iw
    -- the second operand is a constant that is not zero
    if msg.mem 8 = ofpprAdd ∨ ofpprDelete ≠ 0 then iw.updateNetdevMonitorDevices else iw
  else iw

/-- The watcher behind some messages. -/
def run (msgs : List OfpMessage) : IndexedWatcher := msgs.foldl localPacketCb start

end IndexedWatcher

/-! ### The watcher follows the map -/

/-- The change that a call of the callbacks is about. -/
def PortWatcherCall.change : PortWatcherCall → Option PortChange
  | portChanged portNo old new => some ⟨portNo, old, new⟩
  | localPortChanged _ | bringNetdev _ _ => none

/-- What the callbacks for changes of ports have been called with. -/
def PortWatcher.portChanges (pw : PortWatcher) : List PortChange :=
  pw.calls.filterMap PortWatcherCall.change

/-- The call is about a change. -/
def PortChange.isReal (c : PortChange) : Bool := c.old ≠ c.new

/-- The names of descriptions that have been made printable stay as they are. -/
theorem sanitizeOpp_idem (opp : OfpPhyPortDesc) :
    sanitizeOpp (sanitizeOpp opp) = sanitizeOpp opp := by
  unfold sanitizeOpp
  simp only [List.length_set, List.length_map, OfpPhyPortDesc.mk.injEq, true_and, and_true]
  apply List.ext_getElem
  · simp
  · intro i h₁ h₂
    simp only [List.getElem_set, List.getElem_map]
    split
    next => rfl
    next =>
      split
      next => rfl
      next => rfl

/-- The watcher has the ports of the map, and calls its callbacks for the changes, and for nothing
else unless old and new are the same. -/
structure Follows (pw : PortWatcher) (h : PortHistory) : Prop where
  /-- The ports. -/
  ports : pw.ports = h.ports
  /-- The changes. -/
  changes : pw.portChanges.filter PortChange.isReal = h.changes
  /-- The names of the ports are printable. -/
  sanitized : ∀ n p, pw.ports n = some p → sanitizeOpp p = p

namespace PortWatcher

theorem ne_delete_of_describe {reason : BitVec 8} (h : reason = ofpprModify ∨ reason = ofpprAdd) :
    reason ≠ ofpprDelete := by
  rcases h with rfl | rfl <;> decide

theorem portChanges_callLocal (pw : PortWatcher) :
    pw.callLocalPortChangedCallbacks.portChanges = pw.portChanges := by
  rw [portChanges, callLocalPortChangedCallbacks, call, List.filterMap_append]
  exact List.append_nil _

/-- The callbacks are called, and a port is set. -/
theorem portChanges_callSet (pw : PortWatcher) (n : BitVec 16) (old new : Option OfpPhyPortDesc)
    (hnew : ∀ p, new = some p → p.portNo = n) :
    ((pw.call (.portChanged n old new)).setPort n new hnew).portChanges =
      pw.portChanges ++ [⟨n, old, new⟩] := by
  change (pw.calls ++ [_]).filterMap _ = _
  rw [List.filterMap_append]
  rfl

end PortWatcher

namespace Follows

open PortWatcher PortHistory

variable {pw : PortWatcher} {h : PortHistory} {n : BitVec 16} {reason : BitVec 8}

/-- A call with what is known before and after, and the new record. -/
theorem callSet (hf : Follows pw h) (n : BitVec 16) (new : Option OfpPhyPortDesc)
    (hnew : ∀ p, new = some p → p.portNo = n) (hsanitized : ∀ p, new = some p → sanitizeOpp p = p) :
    Follows ((pw.call (.portChanged n (pw.ports n) new)).setPort n new hnew) (h.set n new) := by
  refine ⟨?_, ?_, fun m p hp => ?_⟩
  · show Function.update pw.ports n new = Function.update h.ports n new
    rw [hf.ports]
  · rw [portChanges_callSet, List.filter_append, hf.changes, hf.ports, PortHistory.set]
    -- a call that is about no change is not counted on either side
    by_cases hsame : h.ports n = new
    · rw [if_pos hsame, List.filter_singleton, PortChange.isReal, hsame]
      simp
    · rw [if_neg hsame, List.filter_singleton, PortChange.isReal]
      simp [hsame]
  · change Function.update pw.ports n new m = some p at hp
    by_cases heq : m = n
    · rw [heq, Function.update_self] at hp
      exact hsanitized p hp
    · rw [Function.update_of_ne heq] at hp
      exact hf.sanitized m p hp

/-- Nothing is done where nothing changes. -/
theorem set_of_eq (hf : Follows pw h) {new : Option OfpPhyPortDesc} (heq : h.ports n = new) :
    Follows pw (h.set n new) := by
  refine ⟨?_, ?_, hf.sanitized⟩
  · rw [hf.ports, PortHistory.set, ← heq, Function.update_eq_self]
  · rw [hf.changes, PortHistory.set, if_pos heq]

/-- A description that changes or adds a port. -/
theorem describe (hf : Follows pw h) (opp : OfpPhyPortDesc)
    (hreason : reason = ofpprModify ∨ reason = ofpprAdd) :
    Follows (pw.updatePhyPort opp reason) (h.describe opp) := by
  have hdelete : ¬ (reason = ofpprDelete ∧ pw.ports opp.portNo ≠ none) := fun hand =>
    ne_delete_of_describe hreason hand.1
  unfold updatePhyPort PortHistory.describe
  rw [if_neg hdelete, if_pos hreason, ← hf.ports]
  simp only
  split
  next =>
    refine hf.callSet _ _ _ fun p hp => ?_
    rw [← Option.some.inj hp]
    exact sanitizeOpp_idem _
  next hsame =>
    -- the description is the known one, whose name is printable
    rw [not_not] at hsame
    refine hf.set_of_eq ?_
    rw [← hf.ports, hf.sanitized _ _ hsame]
    exact hsame

/-- A description of a port that is gone. -/
theorem delete (hf : Follows pw h) (opp : OfpPhyPortDesc) :
    Follows (pw.updatePhyPort opp ofpprDelete) (h.set opp.portNo none) := by
  unfold updatePhyPort
  by_cases hknown : pw.ports opp.portNo = none
  · rw [if_neg fun hand => hand.2 hknown, if_neg (by decide)]
    exact hf.set_of_eq (hf.ports ▸ hknown)
  · rw [if_pos ⟨rfl, hknown⟩]
    exact hf.callSet _ none _ fun p hp => by cases hp

/-- One turn of the loop over all ports. -/
theorem deleteUnseen (hf : Follows pw h) (seen : List (BitVec 16)) (n : BitVec 16) :
    Follows (PortWatcher.deleteUnseen seen pw n) (if seen.contains n then h else h.set n none) := by
  unfold PortWatcher.deleteUnseen
  by_cases hseen : n ∈ seen
  · simp only [List.contains_iff_mem, if_pos hseen]
    split
    next => exact hf
    next => exact hf
  · simp only [List.contains_iff_mem, if_neg hseen]
    split
    next hknown => exact hf.set_of_eq (hf.ports ▸ hknown)
    next p hknown =>
      have hdeleted := hf.delete p
      rwa [pw.portNo_eq n p hknown] at hdeleted

/-- Several descriptions that change or add ports. -/
theorem describe_foldl (hf : Follows pw h) (listed : List OfpPhyPortDesc) :
    Follows (listed.foldl (fun pw opp => pw.updatePhyPort opp ofpprModify) pw)
      (listed.foldl (fun h opp => h.describe opp) h) := by
  induction listed generalizing pw h with
  | nil => exact hf
  | cons opp listed ih => exact ih (hf.describe opp (.inl rfl))

theorem deleteUnseen_foldl (hf : Follows pw h) (seen numbers : List (BitVec 16)) :
    Follows (numbers.foldl (PortWatcher.deleteUnseen seen) pw)
      (numbers.foldl (fun h n => if seen.contains n then h else h.set n none) h) := by
  induction numbers generalizing pw h with
  | nil => exact hf
  | cons n numbers ih => exact ih (hf.deleteUnseen seen n)

theorem callLocal (hf : Follows pw h) : Follows pw.callLocalPortChangedCallbacks h :=
  ⟨hf.ports, (congrArg _ (portChanges_callLocal pw)).trans hf.changes, hf.sanitized⟩

/-- A message from the datapath. -/
theorem message (hf : Follows pw h) (msg : OfpMessage) :
    Follows (pw.localPacketCb msg) (h.message msg) := by
  unfold localPacketCb PortHistory.message
  split
  next => exact ((hf.describe_foldl _).deleteUnseen_foldl _ _).callLocal
  next =>
    split
    next =>
      have hupdated : Follows (pw.updatePhyPort (.ofMemory msg.mem 16) (msg.mem 8))
          (if msg.mem 8 = ofpprDelete then h.set (OfpPhyPortDesc.ofMemory msg.mem 16).portNo none
            else if msg.mem 8 = ofpprModify ∨ msg.mem 8 = ofpprAdd then
              h.describe (.ofMemory msg.mem 16)
            else h) := by
        split
        next hdelete => exact hdelete ▸ hf.delete _
        next hdelete =>
          split
          next hreason => exact hf.describe _ hreason
          next hreason =>
            -- an unknown reason changes nothing
            unfold updatePhyPort
            rw [if_neg fun hand => hdelete hand.1, if_neg hreason]
            exact hf
      show Follows (if _ then _ else _) _
      split
      next => exact hupdated.callLocal
      next => exact hupdated
    next => exact hf

end Follows

/-! ### Calls that are about changes -/

namespace PortWatcher

open PortHistory

variable {pw : PortWatcher} {h : PortHistory} {n : BitVec 16} {reason : BitVec 8}

/-- The callbacks have been called for changes only. -/
def AllReal (pw : PortWatcher) : Prop := ∀ c ∈ pw.portChanges, c.isReal = true

/-- A call with what is known before and after. -/
theorem allReal_callSet {new : Option OfpPhyPortDesc} (hnew : ∀ p, new = some p → p.portNo = n) :
    AllReal ((pw.call (.portChanged n (pw.ports n) new)).setPort n new hnew) ↔
      pw.AllReal ∧ pw.ports n ≠ new := by
  unfold AllReal
  rw [portChanges_callSet, List.forall_mem_append, List.forall_mem_singleton, PortChange.isReal,
    decide_eq_true_iff]

theorem allReal_callLocal : pw.callLocalPortChangedCallbacks.AllReal ↔ pw.AllReal := by
  unfold AllReal
  rw [portChanges_callLocal]

/-- A description. -/
theorem allReal_describe (hf : Follows pw h) (opp : OfpPhyPortDesc)
    (hreason : reason = ofpprModify ∨ reason = ofpprAdd) :
    (pw.updatePhyPort opp reason).AllReal ↔ pw.AllReal ∧ ¬ h.Redundant opp := by
  have hdelete : ¬ (reason = ofpprDelete ∧ pw.ports opp.portNo ≠ none) := fun hand =>
    ne_delete_of_describe hreason hand.1
  unfold updatePhyPort Redundant
  rw [if_neg hdelete, if_pos hreason, ← hf.ports]
  simp only
  split
  next hdiffers =>
    rw [allReal_callSet]
    refine and_congr_right fun _ => not_congr ⟨fun heq => ?_, ?_⟩
    · -- the call is about no change: old and new are both the record with a printable name
      refine ⟨_, heq, fun hkeep => hdiffers ?_, ?_⟩
      · rw [heq, hkeep]
      · rw [← heq]
    · rintro ⟨old, hold, -, hsame⟩
      rw [hold, hsame]
  next hsame =>
    -- no callback is called, and the description is the known one
    rw [not_not] at hsame
    refine (and_iff_left ?_).symm
    rintro ⟨old, hold, hdiffers, -⟩
    rw [hold] at hsame
    exact hdiffers (Option.some.inj hsame).symm

/-- A description of a port that is gone. -/
theorem allReal_delete (opp : OfpPhyPortDesc) :
    (pw.updatePhyPort opp ofpprDelete).AllReal ↔ pw.AllReal := by
  unfold updatePhyPort
  by_cases hknown : pw.ports opp.portNo = none
  · rw [if_neg fun hand => hand.2 hknown, if_neg (by decide)]
  · rw [if_pos ⟨rfl, hknown⟩, allReal_callSet]
    exact and_iff_left hknown

/-- One turn of the loop over all ports. -/
theorem allReal_deleteUnseen (seen : List (BitVec 16)) (n : BitVec 16) :
    (deleteUnseen seen pw n).AllReal ↔ pw.AllReal := by
  unfold deleteUnseen
  split
  next => rfl
  next p _ =>
    split
    next => rfl
    next => exact allReal_delete p

theorem allReal_deleteUnseen_foldl (seen numbers : List (BitVec 16)) (pw : PortWatcher) :
    (numbers.foldl (deleteUnseen seen) pw).AllReal ↔ pw.AllReal := by
  induction numbers generalizing pw with
  | nil => rfl
  | cons n numbers ih => exact (ih _).trans (allReal_deleteUnseen seen n)

/-- Several descriptions. -/
theorem allReal_describe_foldl (hf : Follows pw h) (listed : List OfpPhyPortDesc) :
    (listed.foldl (fun pw opp => pw.updatePhyPort opp ofpprModify) pw).AllReal ↔
      pw.AllReal ∧ Telling listed h := by
  induction listed generalizing pw h with
  | nil => exact (and_iff_left trivial).symm
  | cons opp listed ih =>
    rw [List.foldl_cons, ih (hf.describe opp (.inl rfl)), allReal_describe hf opp (.inl rfl),
      and_assoc]
    rfl

/-- A message from the datapath. -/
theorem allReal_message (hf : Follows pw h) (msg : OfpMessage) :
    (pw.localPacketCb msg).AllReal ↔ pw.AllReal ∧ h.TellingMessage msg := by
  unfold localPacketCb TellingMessage
  split
  next =>
    rw [← allReal_describe_foldl hf, updatePorts, allReal_callLocal]
    exact allReal_deleteUnseen_foldl _ _ _
  next =>
    split
    next =>
      -- a deletion only makes ports null, and other reasons change nothing
      have hupdated : (pw.updatePhyPort (.ofMemory msg.mem 16) (msg.mem 8)).AllReal ↔ pw.AllReal ∧
          (msg.mem 8 = ofpprModify ∨ msg.mem 8 = ofpprAdd →
            ¬ h.Redundant (.ofMemory msg.mem 16)) := by
        by_cases hreason : msg.mem 8 = ofpprModify ∨ msg.mem 8 = ofpprAdd
        · rw [allReal_describe hf _ hreason, forall_prop_of_true hreason]
        · rw [forall_prop_of_false hreason, and_true]
          by_cases hdelete : msg.mem 8 = ofpprDelete
          · rw [hdelete]
            exact allReal_delete _
          · unfold updatePhyPort
            rw [if_neg fun hand => hdelete hand.1, if_neg hreason]
      rw [← hupdated]
      show AllReal (if _ then _ else _) ↔ _
      split
      next => exact allReal_callLocal
      next => rfl
    next => exact (and_iff_left trivial).symm

end PortWatcher

/-! ### The records and their index -/

namespace IndexedWatcher

variable {iw : IndexedWatcher}

/-- The watcher of ports in it does what it does by itself: a description. -/
theorem toPortWatcher_updatePhyPort (iw : IndexedWatcher) (opp : OfpPhyPortDesc)
    (reason : BitVec 8) :
    (iw.updatePhyPort opp reason).toPortWatcher = iw.toPortWatcher.updatePhyPort opp reason := by
  unfold updatePhyPort
  simp only
  split
  next => rfl
  next =>
    split
    next => rfl
    next => rfl

/-- One turn of the loop over all ports. -/
theorem toPortWatcher_deleteUnseen (seen : List (BitVec 16)) (iw : IndexedWatcher) (n : BitVec 16) :
    (deleteUnseen seen iw n).toPortWatcher = iw.toPortWatcher.deleteUnseen seen n := by
  unfold deleteUnseen PortWatcher.deleteUnseen
  cases iw.ports n with
  | none => rfl
  | some p =>
    by_cases hseen : n ∈ seen
    · simp only [List.contains_iff_mem, if_pos hseen]
    · simp only [List.contains_iff_mem, if_neg hseen]
      exact toPortWatcher_updatePhyPort iw p ofpprDelete

theorem toPortWatcher_update (iw : IndexedWatcher) :
    iw.updateNetdevMonitorDevices.toPortWatcher = iw.toPortWatcher := by
  simp only [updateNetdevMonitorDevices]

theorem toPortWatcher_callLocal (iw : IndexedWatcher) :
    iw.callLocalPortChangedCallbacks.toPortWatcher =
      iw.toPortWatcher.callLocalPortChangedCallbacks := rfl

/-- A message from the datapath. -/
theorem toPortWatcher_localPacketCb (iw : IndexedWatcher) (msg : OfpMessage) :
    (iw.localPacketCb msg).toPortWatcher = iw.toPortWatcher.localPacketCb msg := by
  unfold localPacketCb PortWatcher.localPacketCb PortWatcher.updatePorts
  split
  next =>
    simp only [toPortWatcher_callLocal, toPortWatcher_update]
    rw [List.foldl_hom toPortWatcher fun iw opp =>
      (toPortWatcher_updatePhyPort iw opp ofpprModify).symm,
      List.foldl_hom toPortWatcher fun iw n => (toPortWatcher_deleteUnseen _ iw n).symm]
  next =>
    split
    next =>
      simp only [if_pos (Or.inr (show ofpprDelete ≠ 0 by decide)), toPortWatcher_update]
      split
      next => rw [toPortWatcher_callLocal, toPortWatcher_updatePhyPort]
      next => exact toPortWatcher_updatePhyPort _ _ _
    next => rfl

/-- An entry of the index is the name of a record of the map. -/
def Indexed (iw : IndexedWatcher) : Prop :=
  ∀ e ∈ iw.portByName, ∃ n opp, iw.records n = some e.2 ∧ iw.ports n = some opp ∧ e.1 = nameOf opp

theorem Indexed.callLocal (hindexed : iw.Indexed) : iw.callLocalPortChangedCallbacks.Indexed :=
  hindexed

theorem indexed_updateNetdevMonitorDevices (iw : IndexedWatcher) :
    iw.updateNetdevMonitorDevices.Indexed := by
  intro e he
  simp only [updateNetdevMonitorDevices, List.mem_filterMap] at he
  obtain ⟨n, -, hn⟩ := he
  obtain ⟨opp, hopp, hn⟩ := Option.bind_eq_some_iff.1 hn
  obtain ⟨record, hrecord, rfl⟩ := Option.map_eq_some_iff.1 hn
  exact ⟨n, opp, hrecord, hopp, rfl⟩

/-- A message from the datapath. -/
theorem indexed_localPacketCb (hindexed : iw.Indexed) (msg : OfpMessage) :
    (iw.localPacketCb msg).Indexed := by
  unfold localPacketCb
  split
  next => exact (indexed_updateNetdevMonitorDevices _).callLocal
  next =>
    split
    next =>
      -- the index is made anew, whatever the reason
      simp only [if_pos (Or.inr (show ofpprDelete ≠ 0 by decide))]
      apply indexed_updateNetdevMonitorDevices
    next => exact hindexed

end IndexedWatcher

/-! ### Runs -/

/-- Behind some messages, the watcher has the ports of the map, has called its callbacks for the
changes, and its index has records of the map only. -/
def WatchesWell (msgs : List OfpMessage) : Prop :=
  let iw := IndexedWatcher.run msgs
  let h := msgs.foldl PortHistory.message .start
  iw.ports = h.ports ∧ iw.portChanges = h.changes ∧ iw.Indexed

/-- Some messages, from any watcher that follows a map. -/
theorem follows_foldl (msgs : List OfpMessage) {iw : IndexedWatcher} {h : PortHistory}
    (hf : Follows iw.toPortWatcher h) (hindexed : iw.Indexed) :
    let iw' := msgs.foldl IndexedWatcher.localPacketCb iw
    Follows iw'.toPortWatcher (msgs.foldl PortHistory.message h) ∧ iw'.Indexed ∧
      (iw'.AllReal ↔ iw.AllReal ∧ PortHistory.TellingRun msgs h) := by
  induction msgs generalizing iw h with
  | nil => exact ⟨hf, hindexed, (and_iff_left trivial).symm⟩
  | cons msg msgs ih =>
    have hwatcher := IndexedWatcher.toPortWatcher_localPacketCb iw msg
    obtain ⟨hfollows, hindexed', hreal⟩ := @ih (iw.localPacketCb msg) (h.message msg)
      (hwatcher ▸ hf.message msg) (IndexedWatcher.indexed_localPacketCb hindexed msg)
    refine ⟨hfollows, hindexed', hreal.trans ?_⟩
    rw [hwatcher, PortWatcher.allReal_message hf msg, and_assoc]
    rfl

theorem follows_start : Follows IndexedWatcher.start.toPortWatcher .start :=
  ⟨rfl, rfl, fun _ _ hp => by cases hp⟩

/-- The calls are about the changes exactly when no description is redundant. -/
theorem portChanges_run_iff (msgs : List OfpMessage) :
    (IndexedWatcher.run msgs).portChanges = (msgs.foldl PortHistory.message .start).changes ↔
      PortHistory.TellingRun msgs .start := by
  obtain ⟨hfollows, -, hreal⟩ := follows_foldl msgs follows_start fun e he => by cases he
  have hstart : IndexedWatcher.start.AllReal := fun c hc => by cases hc
  rw [← hfollows.changes, eq_comm, ← hreal.trans (and_iff_right hstart)]
  exact List.filter_eq_self

/-- The watcher does as it should exactly when no description differs from the known one in nothing
but characters that are replaced. -/
theorem watchesWell_iff (msgs : List OfpMessage) :
    WatchesWell msgs ↔ PortHistory.TellingRun msgs .start := by
  obtain ⟨hfollows, hindexed, -⟩ := follows_foldl msgs follows_start fun e he => by cases he
  rw [← portChanges_run_iff]
  exact ⟨fun hwell => hwell.2.1, fun hchanges => ⟨hfollows.ports, hchanges, hindexed⟩⟩

/-- Port 1 has been added, and its name has a character that cannot be printed. -/
def unprintableMessage : OfpMessage :=
  .ofBytes
    ([1, 12, 0, 64] ++ List.replicate 12 0 ++ [0, 1] ++ List.replicate 6 0 ++ [1] ++
      List.replicate 39 0)
    (by decide)

/-- The description in it. -/
def unprintableDesc : OfpPhyPortDesc :=
  { portOneDesc with hwAddr := 0, name := 1 :: List.replicate 15 0 }

/-- The description is redundant when it comes once more. -/
theorem not_watchesWell : ¬ ∀ msgs, WatchesWell msgs := by
  intro hall
  have hdesc : OfpPhyPortDesc.ofMemory unprintableMessage.mem 16 = unprintableDesc := by decide
  have hstatus : unprintableMessage.type = some .portStatus ∧
      PortWatcher.sizeofOfpPortStatus ≤ unprintableMessage.length := by decide
  have hfeatures : ¬ (unprintableMessage.type = some .featuresReply ∧
      sizeofOfpSwitchFeatures ≤ unprintableMessage.length) := by decide
  have hreason : unprintableMessage.mem 8 = ofpprAdd := by decide
  obtain ⟨-, hsecond, -⟩ :=
    (portChanges_run_iff [unprintableMessage, unprintableMessage]).1 (hall _).2.1
  unfold PortHistory.message PortHistory.TellingMessage at hsecond
  rw [if_neg hfeatures, if_pos hstatus, if_neg hfeatures, if_pos hstatus, hdesc, hreason] at hsecond
  refine hsecond (.inr rfl) ⟨sanitizeOpp unprintableDesc, ?_, ?_, ?_⟩
  -- it is known, with another name, which the name in the message becomes
  all_goals decide

end OfAgent
