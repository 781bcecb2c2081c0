import OfAgent.Control.Frames
import OfAgent.Control.Replies
import OfAgent.Lib.Ranking
import OfAgent.Stats.Progress

/-!
# Answers to statistics requests

A statistics request starts a dump, and the dump sends the replies, one after the other, while the
datapath goes on with other things.

* `OfpMessage.CompleteAnswer`: replies of the type of the request, all but the last one with
  `OFPSF_REPLY_MORE`, or one error message.
* `Control.AnswersStatsRequest`: a request is answered in every run.
* `OfpMessage.StatsAccepted`: the requests that start a dump; `statsRequest_answered_iff`: these are
  the ones that are answered, if no dump follows a null pointer and no reply to it ends where the
  next one would begin at the beginning of the table again.
* `not_statsRequest_answered`: a request of an unknown type.
-/

namespace OfAgent

open Monitored Transition

/-! ### Requests and answers -/

/-- `OFPST_VENDOR`. -/
def ofpstVendor : BitVec 16 := 0xffff

namespace OfpMessage

variable (msg : OfpMessage)

/-- `type` of `struct ofp_stats_request`. -/
def statsRequestType : BitVec 16 := msg.mem.get16 8

/-- The type is that of statistics of the datapath itself, and the body has a length that this type
has. -/
def StatsAccepted : Prop :=
  msg.statsRequestType ≠ ofpstVendor ∧ ∃ st, statsType msg.statsRequestType = some st ∧
    sizeofOfpStatsRequest + st.minBody ≤ msg.length ∧
    msg.length ≤ sizeofOfpStatsRequest + st.maxBody

/-- A reply to the request. -/
def IsStatsReply (more : Bool) (m : OfpOutgoing) : Prop :=
  m.xid = msg.xid ∧ ∃ stats, m.body = .statsReply more stats ∧ stats.type = msg.statsRequestType

/-- An error message about the request. -/
def IsErrorReply (m : OfpOutgoing) : Prop :=
  m.xid = msg.xid ∧ ∃ type code data, m.body = .error type code data

/-- Replies of which only the last one says that there are no more, or one error message. -/
def CompleteAnswer (answer : List OfpOutgoing) : Prop :=
  (∃ init last, answer = init ++ [last] ∧ (∀ m ∈ init, msg.IsStatsReply true m) ∧
    msg.IsStatsReply false last) ∨
  ∃ m, answer = [m] ∧ msg.IsErrorReply m

end OfpMessage

/-! ### Runs -/

/-- What can happen while a connection waits for an answer: it sends nothing and is not destroyed,
and it takes the replies. -/
def ControlEvent.Waits (remote : Remote) : ControlEvent → Prop
  | message _ r _ | close r => r ≠ remote
  | dump _ err2 r => r = remote → err2 = 0
  | packet _ _ _ | timeouts _ => True

/-- The dump of the connection is carried on. -/
def ControlEvent.dumps (remote : Remote) : ControlEvent → Bool
  | dump _ _ r => r == remote
  | _ => false

/-- The dump can be carried on with a reply that brings it nearer to its end: the ports whose queues
it walks through are in use, and a full reply does not end at an entry of a linear table with serial
number 0. -/
def StatsState.Dumpable (ctl : Control) : StatsState → Prop
  | flow s => s.Advances ctl.chain
  | queue portNo _ => ∀ p ∈ ctl.queuePorts portNo, p.used = true
  | _ => True

/-- When the dump of the connection is carried on, this is possible. -/
def ControlEvent.Dumpable (remote : Remote) (ctl : Control) (e : ControlEvent) : Prop :=
  e.dumps remote = true → ∀ cb, ctl.cbDump remote = some cb → cb.done = false →
    cb.state.Dumpable ctl

namespace Control

/-- Since the state `ctl`, in which the connection sent the request, the replies have been sent that
are there in the state `ctl'`: an answer that is complete, or goes on. -/
structure Answering (ctl : Control) (remote : Remote) (msg : OfpMessage)
    (ctl' : Control) : Prop where
  /-- What has been sent. -/
  sent : ∃ answer, ctl'.sentTo remote = ctl.sentTo remote ++ answer ∧
    (msg.CompleteAnswer answer ∨
      (∀ m ∈ answer, msg.IsStatsReply true m) ∧ (ctl'.cbDump remote).isSome = true)
  /-- A dump that goes on can be carried on. -/
  goesOn : ∀ now err2, (ControlEvent.dump now err2 remote).Dumpable remote ctl' →
    (ctl'.cbDump remote).isSome = true → ∃ ctl'', Step ctl' (.dump now err2 remote) ctl''

/-- The request is handled, and there is a number such that in every run that follows the dump is
carried on at most so many times, and is being answered. -/
def AnswersStatsRequest (ctl : Control) (env : Surroundings) (remote : Remote) (msg : OfpMessage) :
    Prop :=
  ∃ ctl₁, Step ctl (.message env remote msg) ctl₁ ∧ ∃ n, ∀ es ctl₂,
    RunVia Step (fun s e => e.Waits remote ∧ e.Dumpable remote s) ctl₁ es ctl₂ →
      es.countP (ControlEvent.dumps remote) ≤ n ∧ ctl.Answering remote msg ctl₂

end Control

/-! ### Requests that are handled -/

section Request

variable {c : Contract Access ControlFault} {ctl : Control} {remote : Remote} {msg : OfpMessage}
  {env : Surroundings}

/-- The dump of flow statistics is at one of the 256 tables that a request can name. -/
def StatsState.AtTable (state : StatsState) : Prop := ∀ s, state = .flow s → s.cursor.1 < 256

/-- The initialization of a dump gives it the type of the request, but for vendors it fails. -/
theorem meets_init {type : BitVec 16} {st : StatsType} (hst : statsType type = some st)
    (hseen : ∀ o, c.seen o) (oh : Memory) :
    Meets (st.init oh) c (fun state ctl' => ctl' = ctl ∧ (type = ofpstVendor → state = none) ∧
      (type ≠ ofpstVendor → ∃ state', state = some state' ∧ state'.type = type ∧ state'.AtTable))
      ctl := by
  have htype : ∀ {n : ℕ}, type.toNat = n → n < 2 ^ 16 → type = BitVec.ofNat 16 n := by
    rintro n rfl -
    exact (BitVec.ofNat_toNat 16 type).symm ▸ (BitVec.setWidth_eq type).symm
  -- what holds of every kind of statistics but those of a vendor
  have hknown : ∀ {state : StatsState} {n : ℕ}, type.toNat = n → n < 0xffff →
      state.type = BitVec.ofNat 16 n → state.AtTable →
        ctl = ctl ∧ (type = ofpstVendor → some state = none) ∧ (type ≠ ofpstVendor →
          ∃ state', some state = some state' ∧ state'.type = type ∧ state'.AtTable) := by
    intro state n hn hlt hstate htable
    refine ⟨rfl, fun hvendor => ?_, fun _ => ⟨state, rfl, ?_, htable⟩⟩
    · rw [hvendor] at hn
      exact absurd hlt (hn ▸ by decide)
    · exact hstate.trans (htype hn (by omega)).symm
  have hflow : ∀ rq : OfpFlowStatsRequest, (StatsState.flow (flowStatsInit rq)).AtTable := by
    rintro rq s ⟨⟩
    have hlt := rq.tableId.isLt
    show (if rq.tableId = allTablesForStats then 0 else rq.tableId.toNat) < 256
    split
    · decide
    · exact hlt
  unfold statsType at hst
  split at hst
  case h_1 hn =>
    cases hst
    exact (meets_pure _).2 (hknown hn (by decide) rfl fun s hs => by cases hs)
  case h_2 hn =>
    cases hst
    simp only [meets_bind, meets_observe, hseen, true_and]
    exact (meets_pure _).2 (hknown hn (by decide) rfl (hflow _))
  case h_3 hn =>
    cases hst
    simp only [meets_bind, meets_observe, hseen, true_and]
    exact (meets_pure _).2 (hknown hn (by decide) rfl fun s hs => by cases hs)
  case h_4 hn =>
    cases hst
    exact (meets_pure _).2 (hknown hn (by decide) rfl fun s hs => by cases hs)
  case h_5 hn =>
    cases hst
    simp only [meets_bind, meets_read16, hseen, true_and]
    exact (meets_pure _).2 (hknown hn (by decide) rfl fun s hs => by cases hs)
  case h_6 hn =>
    cases hst
    simp only [meets_bind, meets_read16, meets_read32, hseen, true_and]
    exact (meets_pure _).2 (hknown hn (by decide) rfl fun s hs => by cases hs)
  case h_7 hn =>
    cases hst
    simp only [meets_bind, meets_read32, hseen, true_and]
    have hvendor : type = ofpstVendor := htype hn (by decide)
    exact (meets_pure _).2 ⟨rfl, fun _ => rfl, fun hne => absurd hvendor hne⟩
  case h_8 => cases hst

/-- What the handling of a request leaves behind: a new dump, or the datapath as it was. -/
def Control.AfterStatsRequest (ctl : Control) (remote : Remote) (msg : OfpMessage)
    (ctl' : Control) :
    Prop :=
  (msg.StatsAccepted → ∃ state, state.type = msg.statsRequestType ∧ state.AtTable ∧
    ctl' = { ctl with
      cbDump := Function.update ctl.cbDump remote (some ⟨false, ⟨remote, msg.xid⟩, state⟩) }) ∧
  (¬ msg.StatsAccepted → ctl' = ctl)

/-- The handling of a request starts a dump for the requests that are accepted, and does nothing for
the others. -/
theorem meets_receive_statsRequest (hversion : msg.version = ofpVersion)
    (htype : msg.type = some .statsRequest) (hlen : sizeofOfpStatsRequest ≤ msg.length)
    (hdump : ctl.cbDump remote = none) :
    Meets (ControlEvent.message env remote msg).run ⟨fun _ => True, fun _ => False⟩
      (fun _ => ctl.AfterStatsRequest remote msg) ctl := by
  refine meets_bind.2 (Meets.mono (Q := fun _ => ctl.AfterStatsRequest remote msg) ?_
    fun _ _ h => (meets_pure _).2 h)
  have hsize : (msg.mem.get16 2).toNat = msg.length := rfl
  refine meets_receive_of_type (fun _ => trivial) (fun hne => absurd hversion hne) htype rfl
    (fun hshort => absurd hlen (Nat.not_le.2 hshort)) fun _ => ?_
  simp only [recvStatsRequest, meets_bind, meets_readLength, meets_read16, true_and, hsize]
  unfold Control.AfterStatsRequest OfpMessage.StatsAccepted OfpMessage.statsRequestType
  cases hst : statsType (msg.mem.get16 8) with
  | none =>
    refine (meets_pure _).2 ⟨fun hgood => ?_, fun _ => rfl⟩
    obtain ⟨-, st, hst', -⟩ := hgood
    cases hst'
  | some st =>
    simp only [meets_bind, meets_readBytes, meets_observe, true_and, Option.some.injEq,
      exists_eq_left']
    rw [meets_ite, meets_pure]
    -- a body of the wrong length is an error before the dump is initialized
    refine ⟨fun hbad => ⟨fun hgood => ?_, fun _ => rfl⟩, fun hbody => ?_⟩
    · omega
    · rw [meets_bind]
      refine (meets_init hst (fun _ => trivial) msg.mem).mono ?_
      rintro state ctl' ⟨rfl, hvendor, hother⟩
      by_cases hv : msg.mem.get16 8 = ofpstVendor
      · rw [hvendor hv]
        exact (meets_pure _).2 ⟨fun hgood => absurd hv hgood.1, fun _ => rfl⟩
      · obtain ⟨state', rfl, hstate, htable⟩ := hother hv
        simp only [remoteStartDump, meets_bind, meets_get, hdump, Option.isSome_none,
          Bool.false_eq_true, if_false, meets_modify, meets_pure]
        refine ⟨fun _ => ⟨state', hstate, htable, rfl⟩, fun hbad => absurd ⟨hv, ?_⟩ hbad⟩
        omega

end Request

/-! ### Dumps that go on -/

/-- How far a cursor is from the last one. -/
def StatsState.rank : StatsState → ℕ
  | flow s => 2 ^ 136 - cursorRank s.cursor
  | _ => 0

/-- How many turns a dump has in front of it at most. -/
def dumpRank : Option StatsDumpCb → ℕ
  | none => 0
  | some cb => if cb.done then 1 else 2 + cb.state.rank

/-- A turn brings the dump nearer to its end. -/
theorem DumpTurn.rank_lt {ctl : Control} {now : BitVec 64} {err2 : ℤ} {cb : StatsDumpCb}
    {next : Option StatsDumpCb} {sent : List OfpOutgoing} (h : DumpTurn ctl now err2 cb next sent)
    (hdumpable : cb.done = false → cb.state.Dumpable ctl) (htable : cb.state.AtTable) :
    dumpRank next < dumpRank (some cb) ∧ ∀ cb' ∈ next, cb'.done = false → cb'.state.AtTable := by
  cases h with
  | finished hdone =>
    refine ⟨?_, fun cb' hcb' => by cases hcb'⟩
    rw [dumpRank, dumpRank, if_pos hdone]
    decide
  | @reply _ m more stats state hdone _ _ _ _ _ hmore hnext =>
    have hrank : dumpRank (some cb) = 2 + cb.state.rank := by
      rw [dumpRank, hdone]
      rfl
    rw [hrank]
    cases more with
    | false =>
      obtain rfl | ⟨rfl, -⟩ := hnext
      · refine ⟨Nat.lt_of_lt_of_le (by decide : 1 < 2) (Nat.le_add_right ..), fun cb' hcb' hgoes =>
          ?_⟩
        cases hcb'
        cases hgoes
      · exact ⟨Nat.lt_of_lt_of_le (by decide : 0 < 2) (Nat.le_add_right ..),
          fun cb' hcb' => by cases hcb'⟩
    | true =>
      -- a full reply about flows
      obtain ⟨s, hs, hstate, hfull⟩ := hmore rfl
      have hadvances : s.Advances ctl.chain := by
        have hd := hdumpable hdone
        rw [hs] at hd
        exact hd
      obtain ⟨hless, hnear⟩ := s.rank_lt_statsDump hadvances (htable s hs) hfull
      have hbound : cursorRank (statsDump ctl.chain now s).2.cursor < 2 ^ 136 := by
        have hword := (statsDump ctl.chain now s).2.cursor.2.rank_lt
        unfold cursorRank
        omega
      have hstate' : state.AtTable := by
        rw [hstate]
        rintro s' ⟨⟩
        exact hnear
      have hnextrank : state.rank < cb.state.rank := by
        rw [hstate, hs]
        show 2 ^ 136 - _ < 2 ^ 136 - _
        omega
      obtain rfl | ⟨rfl, -⟩ := hnext
      · refine ⟨Nat.add_lt_add_left hnextrank 2, fun cb' hcb' _ => ?_⟩
        cases hcb'
        exact hstate'
      · exact ⟨Nat.lt_of_lt_of_le (by decide : 0 < 2) (Nat.le_add_right ..),
          fun cb' hcb' => by cases hcb'⟩

/-! ### The requester -/

/-- What holds while the request is being answered. -/
structure Control.Dumping (ctl : Control) (remote : Remote) (msg : OfpMessage) (ctl' : Control) :
    Prop where
  /-- Every dump answers the connection whose dump it is. -/
  ownDumps : ctl'.OwnDumps
  /-- The answer is complete, or the dump answers the request. -/
  sent : ∃ answer, ctl'.sentTo remote = ctl.sentTo remote ++ answer ∧
    ((msg.CompleteAnswer answer ∧ ∀ cb, ctl'.cbDump remote = some cb → cb.done = true) ∨
      (∀ m ∈ answer, msg.IsStatsReply true m) ∧ ∃ cb, ctl'.cbDump remote = some cb ∧
        cb.done = false ∧ cb.sender = ⟨remote, msg.xid⟩ ∧ cb.state.type = msg.statsRequestType ∧
        cb.state.AtTable)

namespace Control.Dumping

variable {ctl s s' : Control} {remote : Remote} {msg : OfpMessage} {e : ControlEvent}

/-- Anything else leaves the answer alone. -/
theorem frame (h : Dumping ctl remote msg s) (hstep : Step s e s') (hframe : Frame remote s s') :
    Dumping ctl remote msg s' := by
  refine ⟨hstep.ownDumps h.ownDumps, ?_⟩
  rw [hframe.sentTo_eq, hframe.cbDump_eq]
  exact h.sent

/-- A turn that is not the last one, or the last one. -/
theorem turn (h : Dumping ctl remote msg s) {now : BitVec 64} {err2 : ℤ} (herr : 0 ≤ err2)
    {cb : StatsDumpCb} (hcb : s.cbDump remote = some cb)
    (hdumpable : cb.done = false → cb.state.Dumpable s) {next : Option StatsDumpCb}
    {sent : List OfpOutgoing} (hturn : DumpTurn s now err2 cb next sent)
    (hs' : s' = { s with
      cbDump := Function.update s.cbDump remote next, messages := s.messages ++ sent })
    (hown : s'.OwnDumps) : Dumping ctl remote msg s' ∧ dumpRank next < dumpRank (some cb) := by
  obtain ⟨answer, hsent, hanswer⟩ := h.sent
  have hcbDump : s'.cbDump remote = next := by
    rw [hs']
    exact Function.update_self ..
  have hsentTo : s'.sentTo remote = s.sentTo remote ++ sent := by
    have hall : sent.filter (fun m => m.remote = some remote) = sent :=
      List.filter_eq_self.2 fun m hm => decide_eq_true (by
        rw [hturn.sender_eq.2 m hm, h.ownDumps remote cb hcb])
    rw [hs']
    unfold sentTo
    rw [List.filter_append, hall]
  rw [hsent, List.append_assoc] at hsentTo
  obtain ⟨hcomplete, hdone⟩ | ⟨hreplies, cb', hcb', hgoes, hsender, htype, htable⟩ := hanswer
  · -- the answer is complete: the dump is over
    have hover := hdone cb hcb
    cases hturn with
    | finished _ =>
      refine ⟨⟨hown, answer ++ [], hsentTo, .inl ⟨?_, fun cb' hcb' => ?_⟩⟩, ?_⟩
      · rw [List.append_nil]
        exact hcomplete
      · rw [hcbDump] at hcb'
        cases hcb'
      · rw [dumpRank, dumpRank, if_pos hover]
        decide
    | reply hgoes => exact absurd (hover.symm.trans hgoes) (by decide)
  · obtain rfl : cb = cb' := Option.some.inj (hcb.symm.trans hcb')
    obtain ⟨hrank, hnear⟩ := hturn.rank_lt hdumpable htable
    refine ⟨⟨hown, _, hsentTo, ?_⟩, hrank⟩
    cases hturn with
    | finished hdone => exact absurd (hdone.symm.trans hgoes) (by decide)
    | @reply _ m more stats state _ _ hxid hbody hstats hstate _ hnext =>
      have hreply : msg.IsStatsReply more m :=
        ⟨by rw [hxid, hsender], stats, hbody, hstats.trans htype⟩
      cases more with
      | false =>
        refine .inl ⟨.inl ⟨answer, m, rfl, hreplies, hreply⟩, fun cb' hcb' => ?_⟩
        rw [hcbDump] at hcb'
        obtain rfl | ⟨rfl, -⟩ := hnext
        · cases hcb'
          rfl
        · cases hcb'
      | true =>
        obtain rfl | ⟨-, hlast⟩ := hnext
        · refine .inr
            ⟨fun m' hm' => ?_, _, hcbDump, rfl, hsender, hstate.trans htype, hnear _ rfl rfl⟩
          obtain hm' | hm' := List.mem_append.1 hm'
          · exact hreplies m' hm'
          · exact List.mem_singleton.1 hm' ▸ hreply
        · exact absurd (hlast herr) (by decide)

/-- What happens keeps the answer going, and turns bring the dump nearer to its end. -/
theorem step (h : Dumping ctl remote msg s) (hwaits : e.Waits remote)
    (hdumpable : e.Dumpable remote s)
    (hstep : Step s e s') : Dumping ctl remote msg s' ∧
      (if e.dumps remote then 1 else 0) + dumpRank (s'.cbDump remote) ≤
        dumpRank (s.cbDump remote) := by
  by_cases hdumps : e.dumps remote = true
  · cases e with
    | dump now err2 r =>
      obtain rfl : r = remote := beq_iff_eq.1 hdumps
      obtain ⟨cb, hcb⟩ := Option.isSome_iff_exists.1 hstep.1
      obtain ⟨next, sent, hturn, hs'⟩ :=
        (meets_runDump (c := .any) hcb fun _ _ _ _ _ _ _ => trivial).of_result hstep.2
      -- a turn of the dump of this controller
      obtain ⟨hdumping, hrank⟩ := h.turn (hwaits rfl).ge hcb (hdumpable hdumps cb hcb) hturn hs'
        (hstep.ownDumps h.ownDumps)
      refine ⟨hdumping, ?_⟩
      have hnext : s'.cbDump r = next := by
        rw [hs']
        exact Function.update_self ..
      rw [if_pos hdumps, hnext, hcb, Nat.add_comm]
      exact hrank
    | message env r msg' | packet env portNo bytes | timeouts env | close r => cases hdumps
  -- anything else does not touch the dump
  · have helse : e.IsElsewhere remote := by
      cases e with
      | message env r msg' | close r => exact hwaits
      | packet env portNo bytes | timeouts env => trivial
      | dump now err2 r => exact fun heq => hdumps (beq_iff_eq.2 heq)
    have hframe := hstep.frame h.ownDumps helse
    refine ⟨h.frame hstep hframe, ?_⟩
    rw [if_neg hdumps, Nat.zero_add, hframe.cbDump_eq]

/-- The request is being answered. -/
theorem answering (h : Dumping ctl remote msg s) : ctl.Answering remote msg s := by
  obtain ⟨answer, hsent, hanswer⟩ := h.sent
  constructor
  · refine ⟨answer, hsent, ?_⟩
    obtain ⟨hcomplete, -⟩ | ⟨hreplies, cb, hcb, -⟩ := hanswer
    · exact .inl hcomplete
    · exact .inr ⟨hreplies, Option.isSome_iff_exists.2 ⟨cb, hcb⟩⟩
  · intro now err2 hdumpable hsome
    obtain ⟨cb, hcb⟩ := Option.isSome_iff_exists.1 hsome
    have hmeets := @meets_runDump ⟨fun _ => True, fun _ => False⟩ s now err2 remote cb hcb
      fun portNo queueId hdone hstate p hp hunused => by
        have hused := hdumpable (beq_self_eq_true remote) cb hcb hdone
        rw [hstate] at hused
        exact absurd ((hused p hp).symm.trans hunused) (by decide)
    obtain ⟨⟨⟩, s', hok, -⟩ := hmeets.exists_ok
    exact ⟨s', hsome, hok⟩

end Control.Dumping

/-! ### Answers -/

section Answers

open Control

theorem OfpMessage.not_completeAnswer_nil (msg : OfpMessage) : ¬ msg.CompleteAnswer [] := by
  rintro (⟨init, last, hnil, -⟩ | ⟨m, hnil, -⟩)
  · exact absurd hnil.symm (by simp)
  · cases hnil

variable {ctl : Control} {env : Surroundings} {remote : Remote} {msg : OfpMessage}

/-- What the handling of a request that a connection hands over leaves behind. -/
theorem meets_statsRequest (henabled : (ControlEvent.message env remote msg).Enabled ctl)
    (htype : msg.type = some .statsRequest) (hlen : sizeofOfpStatsRequest ≤ msg.length) :
    Meets (ControlEvent.message env remote msg).run ⟨fun _ => True, fun _ => False⟩
      (fun _ => ctl.AfterStatsRequest remote msg) ctl := by
  obtain ⟨hdump, hrecv⟩ := henabled
  unfold doRecv at hrecv
  rw [htype, Bool.or_eq_true_iff, beq_iff_eq] at hrecv
  exact meets_receive_statsRequest (hrecv.resolve_right (by decide)) htype hlen hdump

/-- Requests that start no dump are not answered. -/
theorem accepted_of_answersStatsRequest
    (henabled : (ControlEvent.message env remote msg).Enabled ctl)
    (htype : msg.type = some .statsRequest) (hlen : sizeofOfpStatsRequest ≤ msg.length)
    (hanswers : ctl.AnswersStatsRequest env remote msg) : msg.StatsAccepted := by
  obtain ⟨ctl₁, hstep, n, hall⟩ := hanswers
  by_contra hbad
  have hsame : ctl₁ = ctl := ((meets_statsRequest henabled htype hlen).of_result hstep.2).2 hbad
  obtain ⟨answer, hsent, hanswer⟩ := (hall [] ctl₁ .refl).2.sent
  rw [hsame] at hsent hanswer
  obtain rfl : answer = [] := List.self_eq_append_right.1 hsent
  obtain hcomplete | ⟨-, hgoes⟩ := hanswer
  · exact msg.not_completeAnswer_nil hcomplete
  · rw [henabled.1] at hgoes
    cases hgoes

/-- Requests that start a dump are answered. -/
theorem answersStatsRequest_of_accepted (hown : ctl.OwnDumps)
    (henabled : (ControlEvent.message env remote msg).Enabled ctl)
    (htype : msg.type = some .statsRequest) (hlen : sizeofOfpStatsRequest ≤ msg.length)
    (haccepted : msg.StatsAccepted) : ctl.AnswersStatsRequest env remote msg := by
  obtain ⟨⟨⟩, ctl₁, hok, hstart, -⟩ := (meets_statsRequest henabled htype hlen).exists_ok
  obtain ⟨state, hstate, htable, rfl⟩ := hstart haccepted
  have hstep : Step ctl (.message env remote msg) { ctl with
      cbDump := Function.update ctl.cbDump remote (some ⟨false, ⟨remote, msg.xid⟩, state⟩) } :=
    ⟨henabled, hok⟩
  have hstarted : Dumping ctl remote msg { ctl with
      cbDump := Function.update ctl.cbDump remote (some ⟨false, ⟨remote, msg.xid⟩, state⟩) } := by
    refine ⟨hstep.ownDumps hown, [], (List.append_nil _).symm, .inr ⟨?_, ?_⟩⟩
    · intro m hm
      cases hm
    · exact ⟨_, Function.update_self .., rfl, rfl, hstate, htable⟩
  refine ⟨_, hstep, dumpRank (some ⟨false, ⟨remote, msg.xid⟩, state⟩), fun es ctl₂ hes => ?_⟩
  have hkeeps := fun s e s' (h : Dumping ctl remote msg s)
    (hok : e.Waits remote ∧ e.Dumpable remote s) (hstep : Step s e s') => h.step hok.1 hok.2 hstep
  have hcount := hes.countP_add_le (Dumping ctl remote msg) (fun s => dumpRank (s.cbDump remote))
    (ControlEvent.dumps remote) hstarted (fun s e s' h hok hs => (hkeeps s e s' h hok hs).1)
    fun s e s' h hok hs => (hkeeps s e s' h hok hs).2
  have hend := hes.invariant (Dumping ctl remote msg) hstarted fun s e s' h hok hs =>
    (hkeeps s e s' h hok hs).1
  refine ⟨?_, hend.answering⟩
  simp only [Function.update_self] at hcount
  exact (Nat.le_add_right _ _).trans hcount

/-- A statistics request is answered exactly if its type is known and not that of vendors, and the
length of its body is one that the type has: the datapath does nothing about any other. The runs are
those in which the dump follows no null pointer and no reply to a flow statistics request becomes
full at an entry of a linear table with serial number 0. -/
theorem statsRequest_answered_iff {sizes : TableSizes} {init : Control}
    (hinit : Initial sizes init) (hrun : Reachable Step init ctl)
    (henabled : (ControlEvent.message env remote msg).Enabled ctl)
    (htype : msg.type = some .statsRequest) (hlen : sizeofOfpStatsRequest ≤ msg.length) :
    ctl.AnswersStatsRequest env remote msg ↔ msg.StatsAccepted := by
  have hown : ctl.OwnDumps := hrun.invariant OwnDumps hinit.ownDumps fun _ _ _ h _ hstep =>
    hstep.ownDumps h
  exact ⟨accepted_of_answersStatsRequest henabled htype hlen,
    answersStatsRequest_of_accepted hown henabled htype hlen⟩

/-- A request for the description. -/
def descRequest : OfpMessage := .ofBytes [1, 16, 0, 12, 0, 0, 0, 7, 0, 0, 0, 0] (by decide)

/-- It is answered. -/
theorem statsRequest_answered_iff_desc : emptyControl.AnswersStatsRequest .calm 0 descRequest :=
  (statsRequest_answered_iff (.start rfl rfl 1 []) .refl ⟨rfl, by decide⟩ (by decide) (by decide)).2
    ⟨by decide, _, rfl, by decide, by decide⟩

/-- A request for statistics of type 6, which there are not. -/
def unknownStatsRequest : OfpMessage :=
  .ofBytes [1, 16, 0, 12, 0, 0, 0, 7, 0, 6, 0, 0] (by decide)

/-- A request of an unknown type is not answered. -/
theorem not_statsRequest_answered : ¬ ∀ (sizes : TableSizes) (init ctl : Control),
    Initial sizes init → Reachable Step init ctl →
      ∀ env remote msg, (ControlEvent.message env remote msg).Enabled ctl →
        msg.type = some .statsRequest → sizeofOfpStatsRequest ≤ msg.length →
          ctl.AnswersStatsRequest env remote msg := by
  intro hall
  have hanswers := hall .source emptyControl emptyControl (.start rfl rfl 1 []) .refl .calm 0
    unknownStatsRequest ⟨rfl, by decide⟩ (by decide) (by decide)
  obtain ⟨-, st, hst, -⟩ := accepted_of_answersStatsRequest ⟨rfl, by decide⟩ (by decide) (by decide)
    hanswers
  have hnone : statsType unknownStatsRequest.statsRequestType = none := rfl
  rw [hnone] at hst
  cases hst

end Answers

end OfAgent
