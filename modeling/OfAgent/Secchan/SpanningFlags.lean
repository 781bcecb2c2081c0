import OfAgent.Secchan.SpanningHook

/-!
# Ports and their spanning tree states

The spanning tree entity and the records of the port watcher, in every run of the hook: a port is
enabled exactly if its last description says so, and its record has the flags of its state behind a
tick. The hook forgets the byte order of the features, and writes the flags of a port only when its
state has changed.

* `StpData.FollowsPorts`, `StpData.Flagged`, `StpData.RunsWell`: what a run should be like.
* `Watching`: what holds in every run, on every host; `Suited`: what moreover holds in runs of
  suitable events.
* `turn_spec`: one turn of the loop over the changed ports, with the callback that it calls again.
* `StpData.Suits`: the events that are suitable; `runsWell_of_suits`: runs of them are as they
  should be.
-/

namespace OfAgent

/-! ### What should hold -/

/-- The port has the flags of a state: its bits, and `OFPPC_NO_FLOOD` if it does not forward. -/
def OfpPhyPortDesc.HasFlags (opp : OfpPhyPortDesc) (state : StpState) : Prop :=
  opp.state &&& ofppsStpMask = state.portBits ∧
    (opp.config &&& ofppcNoFlood ≠ 0 ↔ state.forwards = false)

/-- What the last call of the callbacks for a port has described. -/
def PortWatcher.lastNotified (pw : PortWatcher) (portNo : BitVec 16) : Option OfpPhyPortDesc :=
  ((pw.portChanges.filter fun c => c.portNo = portNo).getLast?).bind PortChange.new

namespace StpData

/-- The entity follows the descriptions of the ports. -/
structure FollowsPorts (d : StpData) : Prop where
  /-- A port is enabled exactly if its last description is that of a port that is up. -/
  enabled : ∀ i, d.stp.Enabled i ↔ ∃ opp, d.pw.lastNotified (portNoOf i) = some opp ∧ opp.Up
  /-- The cost of its path is the one for its lowest speed. -/
  pathCost : ∀ i opp, d.stp.Enabled i → d.pw.lastNotified (portNoOf i) = some opp →
    (d.stp.ports i).pathCost = costOfCurr opp.curr

/-- Every port without `OFPPC_NO_STP` has the flags of its state. -/
def Flagged (d : StpData) : Prop :=
  ∀ i opp, d.pw.ports (portNoOf i) = some opp → opp.config &&& ofppcNoStp = 0 →
    opp.HasFlags (d.stp.ports i).state

/-- The event is a periodic callback that ticks. -/
def Ticks (d : StpData) : StpDataEvent → Prop
  | .periodic now => d.gotFeatureReply = true ∧ d.lastTick < now
  | _ => False

/-- Every event of a run leads to a state, the entity follows the descriptions in every state, and
behind every tick the ports have their flags. -/
def RunsWell (fuel : ℕ) : List StpDataEvent → StpData → Prop
  | [], d => d.FollowsPorts
  | e :: es, d =>
    d.FollowsPorts ∧ ∃ d', d.next fuel e = some d' ∧ (d.Ticks e → d'.Flagged) ∧ RunsWell fuel es d'

end StpData

/-! ### Numbers and flags -/

theorem portNoOf_toNat (i : StpPortNo) : (portNoOf i).toNat = i := by
  have hi : (i : ℕ) < 255 := i.isLt
  rw [portNoOf, BitVec.toNat_ofNat, Nat.mod_eq_of_lt (by omega)]

theorem portNoOf_inj {i j : StpPortNo} : portNoOf i = portNoOf j ↔ i = j := by
  refine ⟨fun h => Fin.ext ?_, fun h => h ▸ rfl⟩
  rw [← portNoOf_toNat, h, portNoOf_toNat]

theorem stpPortChangedCb_portNoOf (i : StpPortNo) (new : Option OfpPhyPortDesc) (stp : Stp) :
    stpPortChangedCb (portNoOf i) new stp = stpPortChanged i new stp := by
  have hi : (portNoOf i).toNat < stpMaxPorts := (portNoOf_toNat i).symm ▸ i.isLt
  rw [stpPortChangedCb, dif_pos hi]
  congr 1
  exact Fin.ext (portNoOf_toNat i)

theorem stpPortChangedCb_of_ne {portNo : BitVec 16} (h : ∀ i, portNoOf i ≠ portNo)
    (new : Option OfpPhyPortDesc) (stp : Stp) : stpPortChangedCb portNo new stp = stp := by
  refine dif_neg fun hlt => h ⟨portNo.toNat, hlt⟩ (BitVec.eq_of_toNat_eq ?_)
  exact portNoOf_toNat _

namespace PortWatcher

/-- The bits of the mask are those of the value. -/
theorem withMasked_and_mask (config value mask : BitVec 32) :
    withMasked config value mask &&& mask = value &&& mask := by
  rw [withMasked, BitVec.and_or_distrib_right, BitVec.and_assoc, BitVec.and_assoc, BitVec.and_self,
    BitVec.and_comm (~~~mask), BitVec.and_not_self]
  simp

/-- Other bits stay. -/
theorem withMasked_and_of_disjoint {flags mask : BitVec 32} (h : mask &&& flags = 0)
    (config value : BitVec 32) :
    withMasked config value mask &&& flags = config &&& flags := by
  have hnot : ~~~mask &&& flags = flags := by
    apply BitVec.eq_of_getLsbD_eq
    intro i hi
    have hbit := congrArg (·.getLsbD i) h
    simp only [BitVec.getLsbD_and, BitVec.getLsbD_not, hi] at hbit ⊢
    cases hmask : mask.getLsbD i with
    | false => simp
    | true => simpa [hmask] using hbit.symm
  rw [withMasked, BitVec.and_or_distrib_right, BitVec.and_assoc, BitVec.and_assoc, hnot, h]
  simp

end PortWatcher

/-- The masked bits of two numbers are the same. -/
theorem xor_and_eq_zero_iff {x y mask : BitVec 32} :
    (x ^^^ y) &&& mask = 0 ↔ x &&& mask = y &&& mask := by
  have hdistrib : (x ^^^ y) &&& mask = (x &&& mask) ^^^ (y &&& mask) := by
    apply BitVec.eq_of_getLsbD_eq
    intro i _
    rw [BitVec.getLsbD_and, BitVec.getLsbD_xor, BitVec.getLsbD_xor, BitVec.getLsbD_and,
      BitVec.getLsbD_and, Bool.and_xor_distrib_right]
  rw [hdistrib]
  exact BitVec.xor_eq_zero_iff

/-- The flags that the hook writes are those of the state. -/
theorem hasFlags_of_masked {opp : OfpPhyPortDesc} {state : StpState}
    (hstate : opp.state &&& ofppsStpMask = state.portBits &&& ofppsStpMask)
    (hconfig : opp.config &&& ofppcNoFlood =
      (if state.forwards then 0 else ofppcNoFlood) &&& ofppcNoFlood) :
    opp.HasFlags state := by
  rw [OfpPhyPortDesc.HasFlags, hstate, hconfig]
  cases state <;> decide

/-! ### In every run -/

/-- The entity follows the records, as the host reads them, and the records are the last
descriptions. -/
structure Watching (stp : Stp) (pw : PortWatcher) : Prop where
  /-- The entity finds every port that has changed. -/
  valid : stp.worklist.Valid
  /-- The ports that are up are enabled. -/
  enabled : ∀ i, stp.Enabled i ↔ ∃ opp, pw.ports (portNoOf i) = some opp ∧ opp.Up
  /-- Their costs. -/
  pathCost : ∀ i opp, pw.ports (portNoOf i) = some opp → opp.Up →
    (stp.ports i).pathCost = costOfCurr (stp.host.ofNet32 opp.curr)
  /-- The records are the last descriptions. -/
  last : ∀ portNo, pw.ports portNo = pw.lastNotified portNo

/-- Moreover, the costs are right, and the flags are, or will be. -/
structure Suited (stp : Stp) (pw : PortWatcher) : Prop extends Watching stp pw where
  /-- The features have the same cost in either byte order. -/
  cost : ∀ i opp, pw.ports (portNoOf i) = some opp → opp.Up →
    costOfCurr (stp.host.ofNet32 opp.curr) = costOfCurr opp.curr
  /-- A port without `OFPPC_NO_STP` has changed, or has the flags of its state. -/
  flags : ∀ i opp, pw.ports (portNoOf i) = some opp → opp.config &&& ofppcNoStp = 0 →
    stp.worklist.marked i = true ∨ opp.HasFlags (stp.ports i).state

section Invariants

variable {stp stp' : Stp} {pw : PortWatcher} {i : StpPortNo} {portNo : BitVec 16}
    {new : Option OfpPhyPortDesc}

theorem Stp.Marks.host (h : stp.Marks stp') : stp'.host = stp.host := by
  rw [Stp.host, Stp.host, h.bigEndian]

theorem Stp.host_getChangedPort (stp : Stp) : stp.getChangedPort.1.host = stp.host := by
  rw [Stp.host, Stp.host, (stp.getChangedPort_same ⟨0, by decide⟩).1]

theorem marks_stpPortChangedCb (portNo : BitVec 16) (new : Option OfpPhyPortDesc) (stp : Stp) :
    stp.Marks (stpPortChangedCb portNo new stp) := by
  unfold stpPortChangedCb
  split
  next => exact (followsChange_stpPortChanged _ new stp).toMarks
  next => exact .refl stp

/-- Flags that are right stay so until the port has changed. -/
theorem Stp.Marks.flags (h : stp.Marks stp') {opp : OfpPhyPortDesc}
    (hflags : stp.worklist.marked i = true ∨ opp.HasFlags (stp.ports i).state) :
    stp'.worklist.marked i = true ∨ opp.HasFlags (stp'.ports i).state := by
  by_cases hmarked : stp'.worklist.marked i = true
  · exact .inl hmarked
  · rw [h.state i (Bool.not_eq_true _ ▸ hmarked)]
    exact .inr (hflags.resolve_left fun hi => hmarked (h.marked i hi))

theorem Watching.keeps (hw : Watching stp pw) (h : stp.Keeps stp') : Watching stp' pw where
  valid := h.valid hw.valid
  enabled i := (h.enabled i).trans (hw.enabled i)
  pathCost i opp hport hup := by
    rw [h.pathCost, h.toMarks.host]
    exact hw.pathCost i opp hport hup
  last := hw.last

theorem Suited.keeps (hs : Suited stp pw) (h : stp.Keeps stp') : Suited stp' pw where
  toWatching := hs.toWatching.keeps h
  cost i opp hport hup := by
    rw [h.toMarks.host]
    exact hs.cost i opp hport hup
  flags i opp hport hstp := h.toMarks.flags (hs.flags i opp hport hstp)

/-- The record and the last description behind a notification. -/
theorem ports_notified (pw : PortWatcher) (hnew : ∀ p, new = some p → p.portNo = portNo)
    (n : BitVec 16) :
    ((pw.call (.portChanged portNo (pw.ports portNo) new)).setPort portNo new hnew).ports n =
      if n = portNo then new else pw.ports n :=
  Function.update_apply _ _ _ _

theorem lastNotified_notified (pw : PortWatcher) (hnew : ∀ p, new = some p → p.portNo = portNo)
    (n : BitVec 16) :
    ((pw.call (.portChanged portNo (pw.ports portNo) new)).setPort portNo new hnew).lastNotified n =
      if n = portNo then new else pw.lastNotified n := by
  rw [PortWatcher.lastNotified, PortWatcher.portChanges_callSet, List.filter_append,
    List.filter_singleton]
  by_cases heq : n = portNo
  · rw [if_pos heq, heq, decide_eq_true rfl]
    simp
  · rw [if_neg heq, decide_eq_false (Ne.symm heq), cond_false, List.append_nil]
    rfl

/-- A notification. -/
theorem Watching.notify (hw : Watching stp pw) (hnew : ∀ p, new = some p → p.portNo = portNo) :
    Watching (stpPortChangedCb portNo new stp)
      ((pw.call (.portChanged portNo (pw.ports portNo) new)).setPort portNo new hnew) := by
  have hlast : ∀ n,
      ((pw.call (.portChanged portNo (pw.ports portNo) new)).setPort portNo new hnew).ports n =
        ((pw.call (.portChanged portNo (pw.ports portNo) new)).setPort portNo new
          hnew).lastNotified n := fun n => by
    rw [ports_notified, lastNotified_notified, hw.last]
  by_cases hport : ∃ i, portNoOf i = portNo
  · obtain ⟨i, rfl⟩ := hport
    have hchange := followsChange_stpPortChanged i new stp
    rw [stpPortChangedCb_portNoOf]
    refine ⟨hchange.valid hw.valid, fun j => ?_, fun j opp hopp hup => ?_, hlast⟩
    · rw [ports_notified, if_congr portNoOf_inj rfl rfl]
      split
      next heq => exact heq ▸ hchange.enabled_self
      next hne => exact (hchange.enabled_other j hne).trans (hw.enabled j)
    · rw [ports_notified, if_congr portNoOf_inj rfl rfl] at hopp
      rw [hchange.toMarks.host]
      split at hopp
      next heq => exact heq ▸ hchange.pathCost_self opp hopp hup
      next hne => exact (hchange.pathCost_other j hne).trans (hw.pathCost j opp hopp hup)
  · -- the local port, for example, is none of the entity
    have hne : ∀ i, portNoOf i ≠ portNo := fun i heq => hport ⟨i, heq⟩
    rw [stpPortChangedCb_of_ne hne]
    refine ⟨hw.valid, fun j => ?_, fun j opp hopp hup => ?_, hlast⟩
    · rw [ports_notified, if_neg (hne j)]
      exact hw.enabled j
    · rw [ports_notified, if_neg (hne j)] at hopp
      exact hw.pathCost j opp hopp hup

/-- A notification about a port that is none, or whose description has the same cost in either byte
order, and whose flags are right, or will be. -/
theorem Suited.notify (hs : Suited stp pw) (hnew : ∀ p, new = some p → p.portNo = portNo)
    (hcost : ∀ i opp, portNoOf i = portNo → new = some opp → opp.Up →
      costOfCurr (stp.host.ofNet32 opp.curr) = costOfCurr opp.curr)
    (hflags : ∀ i opp, portNoOf i = portNo → new = some opp → opp.config &&& ofppcNoStp = 0 →
      stp.worklist.marked i = true ∨ ¬ (stp.Enabled i ↔ opp.Up) ∨
        opp.HasFlags (stp.ports i).state) :
    Suited (stpPortChangedCb portNo new stp)
      ((pw.call (.portChanged portNo (pw.ports portNo) new)).setPort portNo new hnew) := by
  have hw := hs.toWatching.notify hnew
  have hmarks := marks_stpPortChangedCb portNo new stp
  refine ⟨hw, fun j opp hopp hup => ?_, fun j opp hopp hstp => ?_⟩
  · rw [ports_notified] at hopp
    rw [hmarks.host]
    split at hopp
    next heq => exact hcost j opp heq hopp hup
    next => exact hs.cost j opp hopp hup
  · have henabled := hw.enabled j
    rw [ports_notified] at hopp henabled
    split at hopp
    next heq =>
      rw [if_pos heq] at henabled
      obtain hmarked | hchanged | hflagged := hflags j opp heq hopp hstp
      · exact .inl (hmarks.marked j hmarked)
      · -- the port becomes enabled or disabled
        have hup : (stpPortChangedCb portNo new stp).Enabled j ↔ opp.Up := by
          rw [henabled, hopp]
          exact ⟨fun ⟨_, h, hup⟩ => Option.some.inj h ▸ hup, fun hup => ⟨opp, rfl, hup⟩⟩
        exact .inl (hmarks.marked_of_not_iff fun hiff => hchanged (hiff.symm.trans hup))
      · exact hmarks.flags (.inr hflagged)
    next => exact hmarks.flags (hs.flags j opp hopp hstp)

end Invariants

/-! ### The loop over the changed ports -/

namespace StpData

/-- The flags of a state are written into the record of a port, and nothing else changes. -/
structure Writes (i : StpPortNo) (state : StpState) (d d' : StpData) : Prop where
  /-- The entity stays as it is, although its callback is called. -/
  stp_eq : d'.stp = d.stp
  /-- It still follows the records. -/
  watching : Watching d'.stp d'.pw
  /-- So does the time. -/
  rest : d'.gotFeatureReply = d.gotFeatureReply ∧ d'.lastTick = d.lastTick
  /-- The other records stay. -/
  other : ∀ portNo, portNo ≠ portNoOf i → d'.pw.ports portNo = d.pw.ports portNo
  /-- The record has the flags. -/
  flags : ∀ opp, d'.pw.ports (portNoOf i) = some opp → opp.config &&& ofppcNoStp = 0 →
    opp.HasFlags state
  /-- The rest of it stays. -/
  same : ∀ opp', d'.pw.ports (portNoOf i) = some opp' →
    ∃ opp, d.pw.ports (portNoOf i) = some opp ∧ opp'.curr = opp.curr ∧ (opp'.Up ↔ opp.Up)

variable {d d' : StpData} {i : StpPortNo} {fuel : ℕ} {e : StpDataEvent}

theorem Writes.refl (hw : Watching d.stp d.pw) {state : StpState}
    (hflags : ∀ opp, d.pw.ports (portNoOf i) = some opp → opp.config &&& ofppcNoStp = 0 →
      opp.HasFlags state) :
    Writes i state d d :=
  ⟨rfl, hw, ⟨rfl, rfl⟩, fun _ _ => rfl, hflags, fun opp hport => ⟨opp, hport, rfl, Iff.rfl⟩⟩

/-- `port_watcher_set_flags` writes the flags. -/
theorem writes_setFlags (hw : Watching d.stp d.pw) (i : StpPortNo) (state : StpState) :
    Writes i state d
      (d.setFlags (portNoOf i) (if state.forwards then 0 else ofppcNoFlood) ofppcNoFlood
        state.portBits ofppsStpMask) := by
  generalize hconfig : (if state.forwards then 0 else ofppcNoFlood) = config
  unfold setFlags
  split
  next hport => exact .refl hw fun opp hopp => by rw [hport] at hopp; cases hopp
  next p hport =>
    split
    next hsame =>
      -- the record has the flags already
      refine .refl hw fun opp hopp _ => ?_
      obtain rfl := Option.some.inj (hport.symm.trans hopp)
      exact hasFlags_of_masked (xor_and_eq_zero_iff.1 hsame.1)
        (hconfig ▸ xor_and_eq_zero_iff.1 hsame.2)
    next =>
      extract_lets new
      have hup : new.Up ↔ p.Up := by
        unfold OfpPhyPortDesc.Up
        rw [PortWatcher.withMasked_and_of_disjoint (by decide),
          PortWatcher.withMasked_and_of_disjoint (by decide),
          PortWatcher.withMasked_and_of_disjoint (by decide)]
      have hnew : ∀ q, some new = some q → q.portNo = portNoOf i := fun q hq => by
        cases hq
        exact d.pw.portNo_eq (portNoOf i) p hport
      have hrecord := ports_notified d.pw hnew
      -- the callback finds the port as it is
      have hstp : stpPortChangedCb (portNoOf i) (some new) d.stp = d.stp := by
        rw [stpPortChangedCb_portNoOf]
        refine stpPortChanged_same i d.stp ?_ fun hnewUp => hw.pathCost i p hport (hup.1 hnewUp)
        rw [hw.enabled i, hport, hup]
        exact ⟨fun ⟨_, h, hp⟩ => Option.some.inj h ▸ hp, fun hp => ⟨p, rfl, hp⟩⟩
      refine ⟨hstp, hw.notify hnew, ⟨rfl, rfl⟩, fun n hn => (hrecord n).trans (if_neg hn),
        fun opp hopp _ => ?_, fun opp hopp => ?_⟩
      · obtain rfl := Option.some.inj (((hrecord _).trans (if_pos rfl)).symm.trans hopp)
        exact hasFlags_of_masked (PortWatcher.withMasked_and_mask _ _ _)
          (hconfig ▸ PortWatcher.withMasked_and_mask _ _ _)
      · obtain rfl := Option.some.inj (((hrecord _).trans (if_pos rfl)).symm.trans hopp)
        exact ⟨p, hport, rfl, hup⟩

/-- So does a turn of the loop. -/
theorem writes_portStateChanged (hw : Watching d.stp d.pw) (i : StpPortNo) :
    Writes i (d.stp.ports i).state d (portStateChanged i d) := by
  unfold portStateChanged
  dsimp only
  split
  next => exact writes_setFlags hw i _
  next hstp =>
    refine .refl hw fun opp hopp hnone => absurd ?_ hstp
    rw [Inspect.portWatcherGetConfig, hopp]
    exact hnone

/-- The entity follows the records behind `stp_get_changed_port`. -/
theorem watching_getChangedPort (hw : Watching d.stp d.pw) :
    Watching d.getChangedPort.1.stp d.getChangedPort.1.pw := by
  have hsame := d.stp.getChangedPort_same
  refine ⟨?_, fun j => ?_, fun j opp hport hup => ?_, hw.last⟩
  · show d.stp.getChangedPort.1.worklist.Valid
    rw [d.stp.worklist_getChangedPort.2]
    exact hw.valid.take
  · refine Iff.trans ?_ (hw.enabled j)
    show (d.stp.getChangedPort.1.ports j).state ≠ _ ↔ (d.stp.ports j).state ≠ _
    rw [(hsame j).2.1]
  · refine (hsame j).2.2.trans ((hw.pathCost j opp hport hup).trans ?_)
    show _ = costOfCurr (d.stp.getChangedPort.1.host.ofNet32 _)
    rw [d.stp.host_getChangedPort]

/-- The turn for a changed port: its record has the flags of its state behind it, and the other
records stay. -/
theorem writes_turn (hw : Watching d.stp d.pw) (i : StpPortNo) :
    Writes i (d.stp.ports i).state d.getChangedPort.1 (portStateChanged i d.getChangedPort.1) := by
  have hwrites := writes_portStateChanged (watching_getChangedPort hw) i
  have hsame : (d.getChangedPort.1.stp.ports i).state = (d.stp.ports i).state :=
    (d.stp.getChangedPort_same i).2.1
  rwa [hsame] at hwrites

/-- The loop ends, and keeps what every turn of it keeps. -/
theorem drain_ends {I : StpData → Prop} (hI : ∀ d, I d → Watching d.stp d.pw)
    (hturn : ∀ d i, I d → d.stp.worklist.next = some i → I (portStateChanged i d.getChangedPort.1))
    (hd : I d) (hfuel : stpMaxPorts < fuel) :
    ∃ d', I d' ∧ d'.stp.worklist.next = none ∧
      Worklist.drain getChangedPort portStateChanged fuel d = some d'.getChangedPort.1 := by
  have hwork : ∀ d : StpData, d.getChangedPort.2 = d.stp.worklist.next ∧
      d.getChangedPort.1.stp.worklist = d.stp.worklist.take :=
        fun d => d.stp.worklist_getChangedPort
  refine Worklist.drain_ends hwork (fun d i hId hnext => ?_) hd ?_
  · refine ⟨hturn d i hId hnext, ?_⟩
    show (portStateChanged i d.getChangedPort.1).stp.worklist = _
    rw [(writes_turn (hI d hId) i).stp_eq]
    exact d.stp.worklist_getChangedPort.2
  · exact lt_of_le_of_lt (Worklist.count_le _) hfuel

/-- A turn keeps that the costs are right, and that the flags are, or will be. -/
theorem suited_turn (hs : Suited d.stp d.pw) (hnext : d.stp.worklist.next = some i) :
    Suited (portStateChanged i d.getChangedPort.1).stp
      (portStateChanged i d.getChangedPort.1).pw := by
  have hwrites := writes_turn hs.toWatching i
  have hsame := d.stp.getChangedPort_same
  have hstp : (portStateChanged i d.getChangedPort.1).stp = d.stp.getChangedPort.1 := hwrites.stp_eq
  -- the port of the turn has its flags now, and the marks of the others are as they were
  refine ⟨hwrites.watching, fun j opp hport hup => ?_, fun j opp hport hnone => ?_⟩
  · rw [hstp, d.stp.host_getChangedPort]
    by_cases heq : j = i
    · obtain ⟨opp', hport', hcurr, hiff⟩ := hwrites.same opp (heq ▸ hport)
      rw [hcurr]
      exact hs.cost i opp' hport' (hiff.1 hup)
    · rw [hwrites.other _ fun h => heq (portNoOf_inj.1 h)] at hport
      exact hs.cost j opp hport hup
  · rw [hstp, (hsame j).2.1, d.stp.worklist_getChangedPort.2, Worklist.marked_take hnext]
    by_cases heq : j = i
    · subst heq
      exact .inr (hwrites.flags opp hport hnone)
    · rw [if_neg heq]
      rw [hwrites.other _ fun h => heq (portNoOf_inj.1 h)] at hport
      exact hs.flags j opp hport hnone

/-! ### Runs -/

/-- The event is suitable. A description of a port that is up has the same cost in either byte
order, on a host that is not big-endian. The description of a port without `OFPPC_NO_STP` has the
flags of its state, unless the state has changed and has not been written yet, or changes as the
port becomes enabled or disabled. -/
def Suits (d : StpData) : StpDataEvent → Prop
  | .portDescribed opp => ∀ i, portNoOf i = opp.portNo →
      (opp.Up → costOfCurr (d.stp.host.ofNet32 opp.curr) = costOfCurr opp.curr) ∧
      (opp.config &&& ofppcNoStp = 0 → d.stp.worklist.marked i = true ∨
        ¬ (d.stp.Enabled i ↔ opp.Up) ∨ opp.HasFlags (d.stp.ports i).state)
  | _ => True

/-- The events of a run are suitable. -/
def SuitsRun (fuel : ℕ) : List StpDataEvent → StpData → Prop
  | [], _ => True
  | e :: es, d => d.Suits e ∧ ∀ d', d.next fuel e = some d' → SuitsRun fuel es d'

theorem followsPorts_of_suited (hs : Suited d.stp d.pw) : d.FollowsPorts where
  enabled i := by
    rw [← hs.last]
    exact hs.enabled i
  pathCost i opp henabled hopp := by
    rw [← hs.last] at hopp
    have hup : opp.Up := by
      obtain ⟨opp', hopp', hup⟩ := (hs.enabled i).1 henabled
      exact Option.some.inj (hopp'.symm.trans hopp) ▸ hup
    exact (hs.pathCost i opp hopp hup).trans (hs.cost i opp hopp hup)

/-- The entity behind the time that has passed. -/
def ticked (d : StpData) (now : ℤ) : StpData :=
  { d with stp := d.stp.tick (min 2147483647 (now - d.lastTick)), lastTick := now }

theorem stpPeriodicCb_of_ticks {now : ℤ} (h : d.Ticks (.periodic now)) :
    d.stpPeriodicCb fuel now =
      Worklist.drain getChangedPort portStateChanged fuel (d.ticked now) := by
  have hpassed : ¬ now - d.lastTick ≤ 0 := by
    have hlast := h.2
    omega
  rw [stpPeriodicCb, if_neg (not_not.2 h.1), if_neg hpassed]
  rfl

theorem stpPeriodicCb_of_not {now : ℤ} (h : ¬ d.Ticks (.periodic now)) :
    d.stpPeriodicCb fuel now = some d := by
  unfold stpPeriodicCb
  dsimp only
  split
  next => rfl
  next hready =>
    refine if_pos ?_
    by_contra hpassed
    exact h ⟨not_not.1 hready, by omega⟩

/-- The periodic callback. -/
theorem suited_periodic (hs : Suited d.stp d.pw) (hfuel : stpMaxPorts < fuel) (now : ℤ) :
    ∃ d', d.stpPeriodicCb fuel now = some d' ∧ Suited d'.stp d'.pw ∧
      (d.Ticks (.periodic now) → d'.Flagged) := by
  by_cases hticks : d.Ticks (.periodic now)
  · have hticked : Suited (d.ticked now).stp (d.ticked now).pw := hs.keeps (d.stp.keeps_tick _)
    obtain ⟨d', hd', hnext, hdrained⟩ :=
      drain_ends (I := fun d => Suited d.stp d.pw) (fun _ h => h.toWatching)
        (fun _ _ h hnext => suited_turn h hnext) hticked hfuel
    have hsame := fun i => (d'.stp.getChangedPort_same i).2.1
    have hflags : ∀ i opp, d'.pw.ports (portNoOf i) = some opp → opp.config &&& ofppcNoStp = 0 →
        opp.HasFlags (d'.stp.getChangedPort.1.ports i).state := fun i opp hopp hnone => by
      rw [hsame]
      -- the loop has left no mark
      refine (hd'.flags i opp hopp hnone).resolve_left fun hmarked => ?_
      rw [hd'.valid.unmarked hnext i] at hmarked
      cases hmarked
    refine ⟨_, (stpPeriodicCb_of_ticks hticks).trans hdrained,
      ⟨watching_getChangedPort hd'.toWatching, ?_, ?_⟩, fun _ => ?_⟩
    · intro i opp hopp hup
      show costOfCurr (d'.stp.getChangedPort.1.host.ofNet32 _) = _
      rw [d'.stp.host_getChangedPort]
      exact hd'.cost i opp hopp hup
    · exact fun i opp hopp hnone => .inr (hflags i opp hopp hnone)
    · exact hflags
  · exact ⟨d, stpPeriodicCb_of_not hticks, hs, fun h => absurd h hticks⟩

/-- A suitable event. -/
theorem suited_next (hs : Suited d.stp d.pw) (hfuel : stpMaxPorts < fuel) (hsuits : d.Suits e) :
    ∃ d', d.next fuel e = some d' ∧ Suited d'.stp d'.pw ∧ (d.Ticks e → d'.Flagged) := by
  cases e with
  | portDescribed opp =>
    -- the hook is told of the port as it is described
    have hnew : ∀ p, some opp = some p → p.portNo = opp.portNo := fun _ hp => by cases hp; rfl
    refine ⟨_, rfl, hs.notify hnew (fun i opp' hi hopp' hup => ?_) fun i opp' hi hopp' hnone => ?_,
      False.elim⟩
    · cases hopp'
      exact (hsuits i hi).1 hup
    · cases hopp'
      exact (hsuits i hi).2 hnone
  | portDeleted portNo =>
    exact ⟨_, rfl, hs.notify (portNo_of_none portNo) (fun _ _ _ h => by cases h)
      (fun _ _ _ h => by cases h), False.elim⟩
  | gotFeatureReply => exact ⟨_, rfl, hs, False.elim⟩
  | localPortChanged port =>
    refine ⟨_, rfl, ?_, False.elim⟩
    cases port with
    | none => exact hs
    | some port => exact hs.keeps (d.stp.moves_setBridgeId _).keeps
  | receivedBpdu portNo bpdu =>
    refine ⟨_, rfl, ?_, False.elim⟩
    unfold receivedBpdu
    split
    next =>
      split
      next => exact hs.keeps (d.stp.moves_receivedBpdu _ bpdu).keeps
      next => exact hs
    next => exact hs
  | periodic now => exact suited_periodic hs hfuel now

theorem runsWell_of_suited (hfuel : stpMaxPorts < fuel) {es : List StpDataEvent}
    (hs : Suited d.stp d.pw) (hsuits : SuitsRun fuel es d) : RunsWell fuel es d := by
  induction es generalizing d with
  | nil => exact followsPorts_of_suited hs
  | cons e es ih =>
    obtain ⟨d', hnext, hs', hflagged⟩ := suited_next hs hfuel hsuits.1
    exact ⟨followsPorts_of_suited hs, d', hnext, hflagged, ih hs' (hsuits.2 d' hnext)⟩

/-- In the beginning no port is known, and none is enabled. -/
theorem suited_start (bigEndian : Bool) (dpid : StpIdentifier) (now : ℤ) :
    Suited (start bigEndian dpid now).stp (start bigEndian dpid now).pw := by
  have hunknown : ∀ n opp, PortWatcher.start.ports n ≠ some opp := fun _ _ h => by cases h
  have hdisabled : ∀ i, ¬ (stpCreate bigEndian dpid).Enabled i := fun i h => by
    rw [← Stp.info_enabled, info_stpCreate] at h
    exact h rfl
  have hvalid := (Stp.valid_stpCreate bigEndian dpid).2
  unfold start
  dsimp only
  generalize stpCreate bigEndian dpid = created at hdisabled hvalid ⊢
  refine ⟨⟨hvalid, fun i => ?_, fun i opp h => absurd h (hunknown _ opp), fun _ => rfl⟩,
    fun i opp h => absurd h (hunknown _ opp), fun i opp h => absurd h (hunknown _ opp)⟩
  exact ⟨fun h => absurd h (hdisabled i), fun ⟨opp, h, _⟩ => absurd h (hunknown _ opp)⟩

/-- In every run of suitable events, from the start of the hook on a host of either byte order,
every periodic callback ends; the enabled ports are those whose last descriptions are up, at the
costs for their lowest speeds; and behind every tick the ports without `OFPPC_NO_STP` have the flags
of their states. -/
theorem runsWell_of_suits (hfuel : stpMaxPorts < fuel) (bigEndian : Bool) (dpid : StpIdentifier)
    (now : ℤ) {es : List StpDataEvent} (hsuits : SuitsRun fuel es (start bigEndian dpid now)) :
    RunsWell fuel es (start bigEndian dpid now) :=
  runsWell_of_suited hfuel (suited_start bigEndian dpid now) hsuits

/-- A port that is up, and a tick. -/
theorem runsWell_of_suits_portOne :
    RunsWell 256 [.portDescribed portOneDesc, .gotFeatureReply, .periodic 1000]
      (start false 1 0) := by
  refine runsWell_of_suits (by decide) false 1 0
    ⟨fun i _ => ⟨fun _ => ?_, fun _ => .inr (.inl fun hiff => ?_)⟩, ?_⟩
  · have hcost : ∀ host : HostOrder, costOfCurr (host.ofNet32 portOneDesc.curr) =
        costOfCurr portOneDesc.curr := by
      intro host
      cases host <;> decide
    exact hcost _
  · -- the port becomes enabled
    obtain ⟨opp, hopp, -⟩ := ((suited_start false 1 0).enabled i).1 (hiff.2 (by decide))
    cases hopp
  · exact fun _ _ => ⟨trivial, fun _ _ => ⟨trivial, fun _ _ => trivial⟩⟩

/-! ### Runs that are not as they should be -/

/-- What a tick does on every host: no change is left, and nothing is written for ports that are not
there, or are disabled and have not changed. -/
structure Ticked (now : ℤ) (d d' : StpData) : Prop where
  /-- The entity follows the records. -/
  watching : Watching d'.stp d'.pw
  /-- No change is left. -/
  unmarked : ∀ i, d'.stp.worklist.marked i = false
  /-- The time. -/
  rest : d'.gotFeatureReply = d.gotFeatureReply ∧ d'.lastTick = now
  /-- No port is added. -/
  unknown : ∀ i, d.pw.ports (portNoOf i) = none → d'.pw.ports (portNoOf i) = none
  /-- The record of a port that is disabled and has not changed. -/
  disabled : ∀ i, ¬ d.stp.Enabled i → d.stp.worklist.marked i = false →
    d'.pw.ports (portNoOf i) = d.pw.ports (portNoOf i)

theorem exists_ticked (hw : Watching d.stp d.pw) (hfuel : stpMaxPorts < fuel) {now : ℤ}
    (hticks : d.Ticks (.periodic now)) :
    ∃ d', d.next fuel (.periodic now) = some d' ∧ Ticked now d d' := by
  have hkeeps : d.stp.Keeps (d.ticked now).stp := d.stp.keeps_tick _
  let I : StpData → Prop := fun d' => Watching d'.stp d'.pw ∧
    (d'.gotFeatureReply = d.gotFeatureReply ∧ d'.lastTick = now) ∧
    (∀ i, d.pw.ports (portNoOf i) = none → d'.pw.ports (portNoOf i) = none) ∧
    ∀ i, ¬ d.stp.Enabled i → d.stp.worklist.marked i = false →
      d'.stp.worklist.marked i = false ∧ d'.pw.ports (portNoOf i) = d.pw.ports (portNoOf i)
  have hturn : ∀ d' j, I d' → d'.stp.worklist.next = some j →
      I (portStateChanged j d'.getChangedPort.1) := by
    rintro d' j ⟨hw', hrest, hunknown, hdisabled⟩ hnext
    have hwrites := writes_turn hw' j
    refine ⟨hwrites.watching, ⟨hwrites.rest.1.trans hrest.1, hwrites.rest.2.trans hrest.2⟩,
      fun i hi => ?_, fun i hi hmarked => ?_⟩
    · by_cases heq : i = j
      · subst heq
        by_contra hsome
        obtain ⟨opp, hopp⟩ := Option.ne_none_iff_exists'.1 hsome
        obtain ⟨opp', hopp', -⟩ := hwrites.same opp hopp
        exact absurd ((hunknown i hi).symm.trans hopp') (Option.some_ne_none _).symm
      · rw [hwrites.other _ fun h => heq (portNoOf_inj.1 h)]
        exact hunknown i hi
    · obtain ⟨hunmarked, hsame⟩ := hdisabled i hi hmarked
      -- the port of the turn has a mark
      have hne : i ≠ j := fun heq => by
        rw [heq, Worklist.marked_of_next hnext] at hunmarked
        cases hunmarked
      refine ⟨?_, (hwrites.other _ fun h => hne (portNoOf_inj.1 h)).trans hsame⟩
      rw [hwrites.stp_eq]
      show d'.stp.getChangedPort.1.worklist.marked i = false
      rw [d'.stp.worklist_getChangedPort.2, Worklist.marked_take hnext, if_neg hne, hunmarked]
  have hticked : I (d.ticked now) :=
    ⟨hw.keeps hkeeps, ⟨rfl, rfl⟩, fun _ h => h, fun i hi hmarked =>
      ⟨(hkeeps.disabled i hi).trans hmarked, rfl⟩⟩
  obtain ⟨d', ⟨hw', hrest, hunknown, hdisabled⟩, hnext, hdrained⟩ :=
    drain_ends (fun _ (h : I _) => h.1) hturn hticked hfuel
  refine ⟨_, (stpPeriodicCb_of_ticks hticks).trans hdrained, watching_getChangedPort hw',
    fun i => ?_, hrest, hunknown, fun i hi hmarked => (hdisabled i hi hmarked).2⟩
  show d'.stp.getChangedPort.1.worklist.marked i = false
  rw [d'.stp.worklist_getChangedPort.2, Worklist.take, hnext]
  exact hw'.valid.unmarked hnext i

theorem one_lt_stpMaxPorts : 1 < stpMaxPorts := by decide

/-- Port 1 of the entity. -/
def portOne : StpPortNo := ⟨1, one_lt_stpMaxPorts⟩

/-- Port 1, at 10 Mb/s. -/
def slowPort : OfpPhyPortDesc := { portOneDesc with curr := 1 }

/-- Port 1, without a link. -/
def downPort : OfpPhyPortDesc := { portOneDesc with state := ofppsLinkDown }

/-- On a host that is not big-endian the speed of the port is not found. -/
theorem not_runsWell_slowPort (hw : Watching d.stp d.pw) (hhost : d.stp.host = .little) :
    ¬ RunsWell fuel [.portDescribed slowPort] d := by
  rintro ⟨-, d', hnext, -, hfollows⟩
  obtain rfl := Option.some.inj hnext
  have hnew : ∀ p, some slowPort = some p → p.portNo = portNoOf portOne := fun p hp => by
    cases hp; decide
  have hw' := hw.notify hnew
  have hport := (ports_notified d.pw hnew _).trans (if_pos rfl)
  have hread := hw'.pathCost portOne slowPort hport (by decide)
  have hright := hfollows.pathCost portOne slowPort
    ((hw'.enabled portOne).2 ⟨slowPort, hport, by decide⟩) ((hw'.last _).symm.trans hport)
  rw [(marks_stpPortChangedCb _ _ _).host, hhost] at hread
  exact absurd (hread.symm.trans hright) (by decide)

/-- On every host, the port has other flags behind the second tick than those of its state: it is
disabled and stays so. -/
theorem not_runsWell_downPort (hw : Watching d.stp d.pw)
    (hunknown : d.pw.ports (portNoOf portOne) = none) (hlast : d.lastTick < 1)
    (hfuel : stpMaxPorts < fuel) :
    ¬ RunsWell fuel [.gotFeatureReply, .periodic 1, .portDescribed downPort, .periodic 2] d := by
  rintro ⟨-, d₁, h₁, -, -, d₂, h₂, -, -, d₃, h₃, -, -, d₄, h₄, hflagged, -⟩
  obtain rfl := Option.some.inj h₁
  have hticks₁ : ({ d with gotFeatureReply := true } : StpData).Ticks (.periodic 1) := ⟨rfl, hlast⟩
  obtain ⟨d₂', h₂', hticked₂⟩ :=
    @exists_ticked { d with gotFeatureReply := true } fuel hw hfuel 1 hticks₁
  obtain rfl := Option.some.inj (h₂'.symm.trans h₂)
  obtain rfl := Option.some.inj h₃
  have hnone : d₂'.pw.ports (portNoOf portOne) = none := hticked₂.unknown _ hunknown
  have hdisabled : ¬ d₂'.stp.Enabled portOne := fun h => by
    obtain ⟨opp, hopp, -⟩ := (hticked₂.watching.enabled _).1 h
    exact absurd (hnone.symm.trans hopp) (Option.some_ne_none _).symm
  have hnew : ∀ p, some downPort = some p → p.portNo = portNoOf portOne := fun p hp => by
    cases hp; decide
  have hport := (ports_notified d₂'.pw hnew _).trans (if_pos rfl)
  -- the port stays disabled, so its state does not change, and nothing is written
  have hstp : (d₂'.notify (portNoOf portOne) (some downPort) hnew).stp = d₂'.stp := by
    show stpPortChangedCb (portNoOf portOne) (some downPort) d₂'.stp = d₂'.stp
    rw [stpPortChangedCb_portNoOf]
    exact stpPortChanged_same _ _ ⟨fun h => absurd h hdisabled, fun h => absurd h (by decide)⟩
      fun h => absurd h (by decide)
  have hticks : (d₂'.notify (portNoOf portOne) (some downPort) hnew).Ticks (.periodic 2) :=
    ⟨hticked₂.rest.1, lt_of_eq_of_lt hticked₂.rest.2 (by decide)⟩
  obtain ⟨d₄', h₄', hticked₄⟩ := exists_ticked (hticked₂.watching.notify hnew) hfuel hticks
  obtain rfl := Option.some.inj (h₄'.symm.trans h₄)
  have hkept :=
    (hticked₄.disabled portOne (by rwa [hstp]) (by rw [hstp, hticked₂.unmarked])).trans hport
  have hstate : (d₄'.stp.ports portOne).state = .disabled := by
    by_contra henabled
    obtain ⟨opp, hopp, hup⟩ := (hticked₄.watching.enabled portOne).1 henabled
    obtain rfl := Option.some.inj (hopp.symm.trans hkept)
    exact absurd hup (by decide)
  have hflags := (hflagged hticks portOne downPort hkept (by decide)).1
  rw [hstate] at hflags
  exact absurd hflags (by decide)

/-- Runs that are not as they should be: with a port whose speed is not found, on a host that is not
big-endian, and with a port that comes without a link, on every host. -/
theorem not_runsWell :
    ¬ RunsWell 256 [.portDescribed slowPort] (start false 1 0) ∧
      ∀ bigEndian,
        ¬ RunsWell 256 [.gotFeatureReply, .periodic 1, .portDescribed downPort, .periodic 2]
          (start bigEndian 1 0) := by
  constructor
  · refine not_runsWell_slowPort (suited_start false 1 0).toWatching ?_
    unfold start
    rw [Stp.host, (Stp.valid_stpCreate false 1).1]
    rfl
  · intro bigEndian
    exact not_runsWell_downPort (suited_start bigEndian 1 0).toWatching rfl Int.zero_lt_one
      (by decide)

end StpData

end OfAgent
