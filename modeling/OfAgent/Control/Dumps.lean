import OfAgent.Control.Invariants

/-!
# Dumps

What `remote_run` does when it carries a dump of statistics on: nothing more when the dump is done,
and one reply otherwise.

* `StatsState.type`, `OfpStats.type`: the type of a dump and that of a reply.
* `Control.queuePorts`: the ports whose queues a dump walks through; `meets_dumpState`: a dump
  faults only there, and leaves the datapath alone.
* `DumpTurn`: what is sent, and what is left of the dump; `meets_runDump`.
-/

namespace OfAgent

open Monitored

/-- `s->type` of a dump. -/
def StatsState.type : StatsState → BitVec 16
  | desc => 0
  | flow _ => 1
  | aggregate _ => 2
  | table => 3
  | port _ => 4
  | queue _ _ => 5

/-- `type` of `struct ofp_stats_reply`. -/
def OfpStats.type : OfpStats → BitVec 16
  | desc _ => 0
  | flow _ => 1
  | aggregate _ => 2
  | table _ => 3
  | port _ => 4
  | queue _ => 5

/-- The ports whose queues `queue_stats_dump` walks through. -/
def Control.queuePorts (ctl : Control) (portNo : BitVec 16) : List SwPort :=
  if portNo = ofppAll then ctl.listedPorts.filter fun p => p.portNo < ofppMax
  else (ctl.dpLookupPort portNo).toList

section Dumps

variable {c : Contract Access ControlFault} {ctl : Control} {now : BitVec 64} {err2 : ℤ}
  {remote : Remote} {cb : StatsDumpCb}

/-! ### Queues -/

/-- The walk through the queues of one port. -/
theorem meets_dumpQueueStats (queueId : BitVec 32) {p : SwPort}
    (hfault : p.used = false → c.failed .nullPointer) :
    Meets (dumpQueueStats queueId p) c (fun _ ctl' => ctl' = ctl) ctl := by
  rw [dumpQueueStats, meets_bind, walkQueues, meets_ite, meets_fail]
  refine ⟨fun _ => ?_, fun hunused => hfault (Bool.not_eq_true _ ▸ hunused)⟩
  simp only [meets_pure]

/-- The walk through the queues of all ports. -/
theorem meets_dumpAllQueueStats (queueId : BitVec 32) (ps : List SwPort)
    (hfault : ∀ p ∈ ps, p.portNo < ofppMax → p.used = false → c.failed .nullPointer) :
    Meets (dumpAllQueueStats queueId ps) c (fun _ ctl' => ctl' = ctl) ctl := by
  induction ps with
  | nil => exact (meets_pure _).2 rfl
  | cons p ps ih =>
    have hrest : ∀ entries : List OfpQueueStats,
        Meets (do let rest ← dumpAllQueueStats queueId ps; pure (entries ++ rest)) c
          (fun _ ctl' => ctl' = ctl) ctl := by
      intro entries
      rw [meets_bind]
      refine (ih fun p' hp' => hfault p' (List.mem_cons_of_mem p hp')).mono fun rest ctl' heq => ?_
      exact (meets_pure _).2 heq
    rw [dumpAllQueueStats, meets_ite]
    refine ⟨fun hnumber => ?_, fun _ => hrest []⟩
    rw [meets_bind]
    refine (meets_dumpQueueStats queueId (hfault p List.mem_cons_self hnumber)).mono ?_
    rintro entries ctl' rfl
    exact hrest entries

/-- `queue_stats_dump`. -/
theorem meets_queueStatsDump {portNo : BitVec 16} (queueId : BitVec 32)
    (hfault : ∀ p ∈ ctl.queuePorts portNo, p.used = false → c.failed .nullPointer) :
    Meets (queueStatsDump portNo queueId) c (fun _ ctl' => ctl' = ctl) ctl := by
  rw [queueStatsDump, meets_bind, meets_get, meets_ite]
  unfold Control.queuePorts at hfault
  refine ⟨fun hall => ?_, fun hone => ?_⟩
  · rw [if_pos hall] at hfault
    exact meets_dumpAllQueueStats queueId _ fun p hp hnumber =>
      hfault p (List.mem_filter.2 ⟨hp, decide_eq_true hnumber⟩)
  · rw [if_neg hone] at hfault
    cases hp : ctl.dpLookupPort portNo with
    | none => exact (meets_pure _).2 rfl
    | some p =>
      rw [hp] at hfault
      exact meets_dumpQueueStats queueId (hfault p List.mem_cons_self)

/-! ### Turns -/

/-- A dump leaves the datapath alone, puts what it is about into the reply, and has more to say only
about flows. -/
theorem meets_dumpState {state : StatsState}
    (hfault : ∀ portNo queueId, state = .queue portNo queueId →
      ∀ p ∈ ctl.queuePorts portNo, p.used = false → c.failed .nullPointer) :
    Meets (dumpState now state) c (fun r ctl' => ctl' = ctl ∧ r.1.type = state.type ∧
      r.2.1.type = state.type ∧ (r.2.2 = true → ∃ s, state = .flow s ∧
        r.2.1 = .flow (statsDump ctl.chain now s).2 ∧ (statsDump ctl.chain now s).1.more = true))
      ctl := by
  cases state with
  | flow s =>
    simp only [dumpState, meets_bind, meets_get, meets_pure, true_and]
    exact ⟨rfl, rfl, fun hmore => ⟨s, rfl, rfl, hmore⟩⟩
  | queue portNo queueId =>
    rw [dumpState, meets_bind]
    refine (meets_queueStatsDump queueId (hfault portNo queueId rfl)).mono ?_
    rintro entries ctl' rfl
    exact (meets_pure _).2 ⟨rfl, rfl, rfl, fun hmore => absurd hmore Bool.false_ne_true⟩
  | desc | aggregate rq | table | port portNo =>
    simp only [dumpState, meets_bind, meets_get]
    exact (meets_pure _).2 ⟨rfl, rfl, rfl, fun hmore => absurd hmore Bool.false_ne_true⟩

/-- One call of `stats_dump`: what is left of the dump, and what is sent. -/
inductive DumpTurn (ctl : Control) (now : BitVec 64) (err2 : ℤ) (cb : StatsDumpCb) :
    Option StatsDumpCb → List OfpOutgoing → Prop
  /-- The last reply has been sent before. -/
  | finished (hdone : cb.done = true) : DumpTurn ctl now err2 cb none []
  /-- A reply. -/
  | reply {next : Option StatsDumpCb} {m : OfpOutgoing} {more : Bool} {stats : OfpStats}
      {state : StatsState} (hdone : cb.done = false) (hremote : m.remote = some cb.sender.remote)
      (hxid : m.xid = cb.sender.xid) (hbody : m.body = .statsReply more stats)
      (hstats : stats.type = cb.state.type) (hstate : state.type = cb.state.type)
      (hmore : more = true → ∃ s, cb.state = .flow s ∧
        state = .flow (statsDump ctl.chain now s).2 ∧ (statsDump ctl.chain now s).1.more = true)
      (hnext : next = some { cb with state, done := !more } ∨
        next = none ∧ (0 ≤ err2 → more = false)) :
      DumpTurn ctl now err2 cb next [m]

/-- What is left of a dump answers the same sender. -/
theorem DumpTurn.sender_eq {next : Option StatsDumpCb} {sent : List OfpOutgoing}
    (h : DumpTurn ctl now err2 cb next sent) :
    (∀ cb' ∈ next, cb'.sender = cb.sender) ∧ ∀ m ∈ sent, m.remote = some cb.sender.remote := by
  cases h with
  | finished hdone =>
    constructor
    · intro cb' hcb'
      cases hcb'
    · intro m hm
      cases hm
  | reply hdone hremote hxid hbody hstats hstate hmore hnext =>
    refine ⟨fun cb' hcb' => ?_, fun m' hm' => List.mem_singleton.1 hm' ▸ hremote⟩
    obtain rfl | ⟨rfl, -⟩ := hnext
    · cases hcb'
      rfl
    · cases hcb'

/-- The part of `remote_run` that carries on with a dump. -/
theorem meets_runDump (hcb : ctl.cbDump remote = some cb)
    (hfault : ∀ portNo queueId, cb.done = false → cb.state = .queue portNo queueId →
      ∀ p ∈ ctl.queuePorts portNo, p.used = false → c.failed .nullPointer) :
    Meets (runDump now err2 remote) c
      (fun _ ctl' => ∃ next sent, DumpTurn ctl now err2 cb next sent ∧
      ctl' = { ctl with
        cbDump := Function.update ctl.cbDump remote next, messages := ctl.messages ++ sent })
          ctl := by
  rw [runDump, meets_bind, meets_get, hcb, meets_bind, statsDumpCallback, meets_ite]
  refine ⟨fun hdone => ?_, fun hdone => ?_⟩
  · simp only [meets_pure, meets_ite, setDump, meets_modify]
    refine ⟨fun _ => ⟨none, [], .finished hdone, ?_⟩, fun h => absurd (le_refl 0) h⟩
    rw [List.append_nil]
  · have hundone : cb.done = false := Bool.not_eq_true _ ▸ hdone
    have hlen : 8 ≤ sizeofOfpStatsReply ∧ sizeofOfpStatsReply ≤ 65535 := by decide
    rw [meets_bind, meets_putOpenflowXid]
    refine ⟨fun _ => ?_, fun hbad => absurd hlen hbad⟩
    rw [meets_bind]
    refine (meets_dumpState fun portNo queueId => hfault portNo queueId hundone).mono ?_
    rintro ⟨stats, state, more⟩ ctl' ⟨rfl, hstats, hstate, hmore⟩
    -- the turn leaves the dump to the next one, or ends it
    have hturn : ∀ next, (next = some { cb with state, done := !more } ∨
        next = none ∧ (0 ≤ err2 → more = false)) →
          DumpTurn ctl' now err2 cb next [⟨some cb.sender.remote,
          cb.sender.xid, BitVec.ofNat 16 (OfpBody.statsReply more stats).size,
            .statsReply more stats⟩] :=
      fun next => .reply hundone rfl rfl rfl hstats hstate hmore
    simp only [meets_bind, setDump, meets_modify, meets_sendOpenflowBuffer, meets_ite, meets_pure,
      Function.update_idem]
    refine ⟨fun herr => ⟨fun hneg => ?_, fun _ => ⟨_, _, hturn _ (.inl rfl), rfl⟩⟩,
      fun _ => ⟨fun hlast => ?_, fun _ => ⟨_, _, hturn _ (.inl rfl), rfl⟩⟩⟩
    · exact ⟨_, _, hturn _ (.inr ⟨rfl, fun hpos => absurd (le_antisymm hneg hpos) herr⟩), rfl⟩
    · refine ⟨_, _, hturn _ (.inr ⟨rfl, fun _ => ?_⟩), rfl⟩
      cases more with
      | false => rfl
      | true => exact absurd hlast (by decide)

end Dumps

end OfAgent
