import OfAgent.Forward.Switch

/-!
# Ports and their queues

The functions of `datapath.c` and `of_ext_msg.c` that change a port of the switch.

* `Switch.modifyPort`: a change of the port with a number.
* `freeQueueNo`, `newQueue`, `changeQueue`, `portDeleteQueue`: the queues of a port. The class ids
  stay the positions of the queues in an array, so that a port has at most seven.
* `length_listedPorts_le`: there are at most 256 ports.
-/

namespace OfAgent

namespace SwPort

variable (p : SwPort)

/-- The loop of `port_add_queue`: the first element of `queues`, from the second on, that is not
used. -/
def freeQueueNo : Option ℕ :=
  (List.range' 1 (p.numQueues - 1)).find? fun queueNo =>
    p.queueList.all fun q => q.classId.toNat != queueNo

variable {p}

/-- A free element is one of the array. -/
theorem freeQueueNo_spec {queueNo : ℕ} (h : p.freeQueueNo = some queueNo) :
    0 < queueNo ∧ queueNo < p.numQueues ∧ (BitVec.ofNat 16 queueNo).toNat = queueNo ∧
      BitVec.ofNat 16 queueNo ∉ p.queueList.map SwQueue.classId := by
  have hrange := List.mem_range'_1.1 (List.mem_of_find?_eq_some h)
  have hfree := List.find?_some h
  have hle : p.numQueues ≤ 8 := p.numQueues_le
  have hnat : (BitVec.ofNat 16 queueNo).toNat = queueNo :=
    (BitVec.toNat_ofNat ..).trans (Nat.mod_eq_of_lt (by omega))
  refine ⟨by omega, by omega, hnat, fun hmem => ?_⟩
  obtain ⟨q, hq, hid⟩ := List.mem_map.1 hmem
  have hne := List.all_eq_true.1 hfree q hq
  rw [hid, hnat] at hne
  simp at hne

/-- `new_queue` on a free element of `queues`. -/
def newQueue (p : SwPort) (queueNo : ℕ) (h : p.freeQueueNo = some queueNo) (queueId : BitVec 32)
    (property minRate : BitVec 16) : SwPort :=
  { p with
    queueList := p.queueList ++ [⟨queueId, BitVec.ofNat 16 queueNo, property, minRate⟩]
    classIds_nodup := by
      have hfree := (freeQueueNo_spec h).2.2.2
      rw [List.map_append, List.nodup_append]
      refine ⟨p.classIds_nodup, List.nodup_singleton _, fun a ha b hb heq => hfree ?_⟩
      rw [List.map_singleton, List.mem_singleton] at hb
      rwa [heq, hb] at ha
    classId_lt := by
      obtain ⟨hpos, hlt, hnat, -⟩ := freeQueueNo_spec h
      intro q hq
      rcases List.mem_append.1 hq with hq | hq
      · exact p.classId_lt q hq
      · rw [List.mem_singleton.1 hq, hnat]
        exact ⟨hpos, hlt⟩ }

/-- The new values of the queue that `recv_of_exp_queue_modify` has found. -/
def changeQueue (p : SwPort) (classId property minRate : BitVec 16) : SwPort :=
  { p with
    queueList := p.queueList.map fun q =>
      if q.classId = classId then { q with property, minRate } else q
    classIds_nodup := by
      have hids : (p.queueList.map fun q => if q.classId = classId then
          ({ q with property, minRate } : SwQueue) else q).map SwQueue.classId =
          p.queueList.map SwQueue.classId := by
        rw [List.map_map]
        refine List.map_congr_left fun q _ => ?_
        simp only [Function.comp_apply]
        split <;> rfl
      rw [hids]
      exact p.classIds_nodup
    classId_lt := by
      intro q hq
      obtain ⟨q', hq', rfl⟩ := List.mem_map.1 hq
      have hlt := p.classId_lt q' hq'
      split <;> exact hlt }

/-- `port_delete_queue`. -/
def portDeleteQueue (p : SwPort) (q : SwQueue) : SwPort :=
  { p with
    queueList := p.queueList.erase q
    classIds_nodup := p.classIds_nodup.sublist (List.erase_sublist.map _)
    classId_lt := fun q' hq' => p.classId_lt q' (List.mem_of_mem_erase hq') }

/-- A port has at most seven queues. -/
theorem length_queueList_le (p : SwPort) : p.queueList.length ≤ 7 := by
  have hsub : p.queueList.map (fun q => q.classId.toNat) ⊆ List.range' 1 7 := by
    intro n hn
    obtain ⟨q, hq, rfl⟩ := List.mem_map.1 hn
    obtain ⟨hpos, hlt⟩ := p.classId_lt q hq
    have hle : p.numQueues ≤ 8 := p.numQueues_le
    exact List.mem_range'_1.2 ⟨hpos, by omega⟩
  have hnodup : (p.queueList.map fun q => q.classId.toNat).Nodup := by
    have h := p.classIds_nodup.map (f := BitVec.toNat) fun _ _ heq => BitVec.eq_of_toNat_eq heq
    rwa [List.map_map] at h
  have hlen := (hnodup.subperm hsub).length_le
  rwa [List.length_map, List.length_range'] at hlen

end SwPort

namespace Switch

/-- A change of the port with a number. -/
def modifyPort (portNo : BitVec 16) (f : SwPort → SwPort) (sw : Switch) : Switch :=
  if h : portNo.toNat < dpMaxPorts then
    { sw with ports := Function.update sw.ports ⟨portNo.toNat, h⟩ (f (sw.ports ⟨portNo.toNat, h⟩)) }
  else if portNo = ofppLocal then { sw with localPort := sw.localPort.map f }
  else sw

/-- A change of a port leaves the tables and the buffers alone, and what has been sent. -/
@[simp]
theorem modifyPort_rest (portNo : BitVec 16) (f : SwPort → SwPort) (sw : Switch) :
    (sw.modifyPort portNo f).toDatapath = sw.toDatapath ∧
      (sw.modifyPort portNo f).sent = sw.sent := by
  unfold modifyPort
  split
  · exact ⟨rfl, rfl⟩
  · split <;> exact ⟨rfl, rfl⟩

/-- So does it leave the configuration alone. -/
@[simp]
theorem modifyPort_config (portNo : BitVec 16) (f : SwPort → SwPort) (sw : Switch) :
    (sw.modifyPort portNo f).flags = sw.flags ∧
      (sw.modifyPort portNo f).missSendLen = sw.missSendLen := by
  unfold modifyPort
  split
  · exact ⟨rfl, rfl⟩
  · split <;> exact ⟨rfl, rfl⟩

/-- What changes of a port leave alone is left alone by changes of several ports. -/
theorem foldl_modifyPort {α : Type*} {f : SwPort → SwPort} (g : Switch → α)
    (hg : ∀ portNo (sw : Switch), g (sw.modifyPort portNo f) = g sw) (portNos : List (BitVec 16))
    (sw : Switch) : g (portNos.foldl (fun sw portNo => sw.modifyPort portNo f) sw) = g sw := by
  induction portNos generalizing sw with
  | nil => rfl
  | cons portNo portNos ih => exact (ih _).trans (hg portNo sw)

/-- `dp_lookup_port` after a change of a port. -/
theorem dpLookupPort_modifyPort (portNo n : BitVec 16) (f : SwPort → SwPort) (sw : Switch) :
    (sw.modifyPort portNo f).dpLookupPort n =
      if n = portNo then (sw.dpLookupPort n).map f else sw.dpLookupPort n := by
  unfold modifyPort
  by_cases hreal : portNo.toNat < dpMaxPorts
  · rw [dif_pos hreal]
    by_cases hn : n.toNat < dpMaxPorts
    · simp only [dpLookupPort, dif_pos hn, Function.update_apply, Fin.mk.injEq]
      -- different numbers have different places
      by_cases heq : n = portNo
      · subst heq
        rw [if_pos rfl, if_pos rfl]
        rfl
      · rw [if_neg heq, if_neg fun hnat => heq (BitVec.eq_of_toNat_eq hnat)]
    · have hne : n ≠ portNo := fun heq => hn (heq ▸ hreal)
      simp only [dpLookupPort, dif_neg hn, if_neg hne]
  · rw [dif_neg hreal]
    by_cases hlocal : portNo = ofppLocal
    · rw [if_pos hlocal]
      by_cases hn : n.toNat < dpMaxPorts
      · have hne : n ≠ portNo := fun heq => hreal (heq ▸ hn)
        simp only [dpLookupPort, dif_pos hn, if_neg hne]
      · simp only [dpLookupPort, dif_neg hn, hlocal]
        split <;> rfl
    · rw [if_neg hlocal]
      split
      next heq =>
        subst heq
        simp only [dpLookupPort, dif_neg hreal, if_neg hlocal, Option.map_none]
      next => rfl

/-- There are at most 256 ports. -/
theorem length_listedPorts_le (sw : Switch) : sw.listedPorts.length ≤ 256 := by
  have hsub : (sw.portList.filter fun n => (sw.dpLookupPort n).isSome) ⊆
      (List.range dpMaxPorts).map (BitVec.ofNat 16) ++ [ofppLocal] := by
    intro n hn
    have hsome := (List.mem_filter.1 hn).2
    unfold dpLookupPort at hsome
    split at hsome
    next hlt =>
      refine List.mem_append_left _ (List.mem_map.2 ⟨n.toNat, List.mem_range.2 hlt, ?_⟩)
      exact BitVec.ofNat_toNat 16 n ▸ BitVec.setWidth_eq n
    next =>
      split at hsome
      next hlocal => exact List.mem_append_right _ (List.mem_singleton.2 hlocal)
      next => cases hsome
  have hlen := ((sw.portList_nodup.filter _).subperm hsub).length_le
  have hlisted : sw.listedPorts.length =
      (sw.portList.filter fun n => (sw.dpLookupPort n).isSome).length := by
    unfold listedPorts
    rw [List.length_filterMap_eq_countP, List.countP_eq_length_filter]
  rw [hlisted]
  simpa using hlen

end Switch

end OfAgent
