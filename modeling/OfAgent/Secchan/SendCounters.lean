import OfAgent.Secchan.ProtocolStat

/-!
# Counting what is sent

Messages are counted in two layers: those of the callers by `try_send` of the `rconn`, and those of
the handshake by the functions of the `vconn` that send them. `try_send` counts a message before
every attempt to send it, and `vcs_send_error` counts its message when it has not been accepted.

* `VconnRun.attempts`: what a call of `vconn_connect` hands over to the transport, with the results.
* `StatRun.CountsSends`: a step counts what has been accepted and what has failed, once each.
* `StatRun.Smooth`: no message of a caller has to be tried again, and the handshake does not fail
  for what it sends.
* `StatRun.countsSends_iff`: these are the same; `StatRun.sends_counted_iff`: in runs, too.
-/

namespace OfAgent

/-- The counters for the message of `vcs_send_error`. -/
def sendErrorTags : List OfpStatField :=
  [.total, .error, .errorType .helloFail, .errorCode .hfIncompat]

/-- They are the classes of this message. -/
theorem OfpMessage.statTags_helloFailedMessage (xid : BitVec 32) (minVersion version : ℤ) :
    (helloFailedMessage xid minVersion version).statTags = sendErrorTags := by
  have hzero : ((0#16).extractLsb' 8 8 ++ (0#16).extractLsb' 0 8).toNat = 0 := by decide
  have herrtype : (helloFailedMessage xid minVersion version).errtype = 0 := hzero
  have herrcode : (helloFailedMessage xid minVersion version).errcode = 0 := hzero
  rw [OfpMessage.statTags, OfpMessage.detailTags, type_helloFailedMessage, herrtype, herrcode]
  rfl

namespace VconnRun

variable {τ : Type*} (cls : VconnClass τ)

/-! ### Attempts of the handshake -/

/-- The message that a turn of the loop of `vconn_connect` hands over to the transport, if any, and
what the transport returns. -/
def attempt (v : VconnRun τ) : List (OfpMessage × ℤ) :=
  let (xid, transport) := cls.allocXid v.transport
  match v.state with
  | .sendHello => [(helloMessage xid, (cls.send transport (helloMessage xid)).1)]
  | .sendError =>
      let msg := helloFailedMessage xid v.minVersion v.version
      [(msg, (cls.send transport msg).1)]
  | .connecting | .recvHello | .connected | .disconnected => []

/-- Those of the turns of the loop. -/
def attempts (fuel : ℕ) : ℕ → VconnRun τ → List (OfpMessage × ℤ)
  | 0, _ => []
  | turns + 1, v =>
      match vcs cls v fuel with
      | none => attempt cls v
      | some v' => attempt cls v ++ if v'.state ≠ v.state then attempts fuel turns v' else []

/-- The messages that the transport accepts. -/
def acceptedOf (as : List (OfpMessage × ℤ)) : List OfpMessage :=
  (as.filter fun a => a.2 = 0).map Prod.fst

/-- The messages that the `vconn` counts: a HELLO that is accepted, and an error that is not. -/
def countedOf (as : List (OfpMessage × ℤ)) : List OfpMessage :=
  (as.filter fun a => if a.1.type = some .hello then a.2 = 0 else a.2 ≠ 0).map Prod.fst

/-- The messages that the transport refuses for good. -/
def failedOf (as : List (OfpMessage × ℤ)) : ℕ := as.countP fun a => a.2 ≠ 0 ∧ a.2 ≠ eAgain

variable {cls} {v v' : VconnRun τ} {fuel : ℕ}

/-- What is attempted is a HELLO, or the error in its state. -/
theorem mem_attempt {a : OfpMessage × ℤ} (h : a ∈ attempt cls v) :
    a.1.type = some .hello ∨ v.state = .sendError ∧ a.1.statTags = sendErrorTags := by
  unfold attempt at h
  dsimp only at h
  split at h
  · exact .inl (List.mem_singleton.mp h ▸ type_helloMessage _)
  next hstate =>
    rw [List.mem_singleton.mp h]
    exact .inr ⟨hstate, OfpMessage.statTags_helloFailedMessage _ _ _⟩
  all_goals exact absurd h List.not_mem_nil

/-- The record and the counters of the `vconn` behind some attempts. -/
structure Attempted (v : VconnRun τ) (as : List (OfpMessage × ℤ)) (v' : VconnRun τ) : Prop where
  /-- The transport has accepted some of the messages. -/
  accepted : v'.accepted = v.accepted ++ (acceptedOf as).map fun m => (m, true)
  /-- Some of them have been counted. -/
  ofpsSent : v'.ofpsSent = (countedOf as).foldl OfpStat.incProtocolStat v.ofpsSent

theorem Attempted.of_eq (haccepted : v'.accepted = v.accepted) (hsent : v'.ofpsSent = v.ofpsSent) :
    Attempted v [] v' where
  accepted := haccepted.trans (List.append_nil _).symm
  ofpsSent := hsent

theorem Attempted.trans {as as' : List (OfpMessage × ℤ)} {v'' : VconnRun τ}
    (h : Attempted v as v') (h' : Attempted v' as' v'') : Attempted v (as ++ as') v'' where
  accepted := by
    rw [h'.accepted, h.accepted, acceptedOf, acceptedOf, acceptedOf, List.filter_append,
      List.map_append, List.map_append, List.append_assoc]
  ofpsSent := by
    rw [h'.ofpsSent, h.ofpsSent, countedOf, countedOf, countedOf, List.filter_append,
      List.map_append, List.foldl_append]

/-- `vcs_send_hello` counts a HELLO that is accepted. -/
theorem attempted_vcsSendHello (hstate : v.state = .sendHello) :
    Attempted v (attempt cls v) (vcsSendHello cls v) := by
  unfold vcsSendHello attempt doSend
  rw [hstate]
  dsimp only
  have hhello := type_helloMessage (cls.allocXid v.transport).1
  split_ifs with hzero
  · constructor
    · simp [acceptedOf, hzero]
    · simp only [countedOf, hzero, hhello, List.filter_cons, List.filter_nil, decide_true, if_true]
      exact (OfpStat.incProtocolStat_of_hello _ hhello).symm
  all_goals constructor <;> simp [acceptedOf, countedOf, hzero, hhello, giveUp]

/-- `vcs_send_error` counts an error that is not accepted. -/
theorem attempted_vcsSendError (hstate : v.state = .sendError) :
    Attempted v (attempt cls v) (vcsSendError cls v) := by
  unfold vcsSendError attempt doSend
  rw [hstate]
  dsimp only
  have herror := type_helloFailedMessage (cls.allocXid v.transport).1 v.minVersion v.version
  have htags :=
    OfpMessage.statTags_helloFailedMessage (cls.allocXid v.transport).1 v.minVersion v.version
  generalize helloFailedMessage (cls.allocXid v.transport).1 v.minVersion v.version = msg
    at herror htags ⊢
  have hcount : ∀ ifps : OfpStat, (((ifps.inc .total).inc .error).inc (.errorType .helloFail)).inc
      (.errorCode .hfIncompat) = ifps.incProtocolStat msg := by
    intro ifps
    rw [OfpStat.incProtocolStat, htags]
    rfl
  by_cases hzero : (cls.send (cls.allocXid v.transport).2 msg).1 = 0
  · have hagain : (0 : ℤ) ≠ eAgain := by decide
    constructor <;> simp [acceptedOf, countedOf, hzero, herror, giveUp, hagain]
  · constructor <;> split_ifs <;> simp [acceptedOf, countedOf, hzero, herror, giveUp, hcount]

/-- A turn of the loop, by its state. -/
theorem attempted_vcs (hrun : vcs cls v fuel = some v') : Attempted v (attempt cls v) v' := by
  unfold vcs at hrun
  split at hrun
  next hstate =>
    -- only the states that send something attempt anything
    have hattempt : attempt cls v = [] := by rw [attempt, hstate]
    rw [hattempt, ← Option.some.inj hrun]
    unfold vcsConnecting
    dsimp only
    split_ifs <;> exact .of_eq rfl rfl
  next hstate => exact Option.some.inj hrun ▸ attempted_vcsSendHello hstate
  next hstate =>
    have hattempt : attempt cls v = [] := by rw [attempt, hstate]
    rw [hattempt]
    unfold vcsRecvHello at hrun
    split at hrun
    next => cases hrun
    next b v₁ hrecv =>
      obtain ⟨transport, dropped, -, rfl⟩ := doRecv_spec hrecv
      split_ifs at hrun <;> exact Option.some.inj hrun ▸ .of_eq rfl rfl
    next retval v₁ hrecv =>
      obtain ⟨transport, dropped, -, rfl⟩ := doRecv_spec hrecv
      split_ifs at hrun <;> exact Option.some.inj hrun ▸ .of_eq rfl rfl
  next hstate => exact Option.some.inj hrun ▸ attempted_vcsSendError hstate
  all_goals
    next hstate =>
    have hattempt : attempt cls v = [] := by rw [attempt, hstate]
    rw [hattempt, ← Option.some.inj hrun]
    exact .of_eq rfl rfl

/-- A connection that is up or has been given up attempts nothing. -/
theorem attempts_of_settled {turns : ℕ} (h : v.state = .connected ∨ v.state = .disconnected) :
    attempts cls fuel turns v = [] := by
  have hattempt : attempt cls v = [] := by rcases h with h | h <;> rw [attempt, h]
  have hvcs : vcs cls v fuel = some v := by rcases h with h | h <;> rw [vcs, h]
  cases turns with
  | zero => rfl
  | succ turns => simp [attempts, hvcs, hattempt]

/-- The loop of `vconn_connect`, by induction on its turns. -/
theorem attempted_connectLoop {turns : ℕ} {retval : ℤ}
    (hrun : connectLoop cls fuel turns v = some (retval, v')) :
    Attempted v (attempts cls fuel turns v) v' := by
  induction turns generalizing v with
  | zero => cases hrun
  | succ turns ih =>
    rw [connectLoop] at hrun
    split at hrun
    next hstate =>
      rw [attempts_of_settled (.inl hstate), ← (Prod.mk.inj (Option.some.inj hrun)).2]
      exact .of_eq rfl rfl
    next hstate =>
      rw [attempts_of_settled (.inr hstate), ← (Prod.mk.inj (Option.some.inj hrun)).2]
      exact .of_eq rfl rfl
    all_goals
      split at hrun
      next => cases hrun
      next v₁ hvcs =>
        -- one turn, and then the rest of them
        have hturn := attempted_vcs hvcs
        rw [attempts, hvcs]
        dsimp only
        split at hrun
        next hne =>
          rw [if_pos hne]
          exact hturn.trans (ih hrun)
        next heq =>
          rw [if_neg heq, List.append_nil, ← (Prod.mk.inj (Option.some.inj hrun)).2]
          exact hturn

theorem attempted_vconnConnect {retval : ℤ} (hrun : vconnConnect cls v fuel = some (retval, v')) :
    Attempted v (attempts cls fuel 6 v) v' := by
  unfold vconnConnect at hrun
  split at hrun
  next => cases hrun
  next => exact attempted_connectLoop hrun

theorem length_attempt_le : (attempt cls v).length ≤ 1 := by
  unfold attempt
  dsimp only
  split <;> simp

/-- The error is attempted at most once: behind it the loop ends. -/
theorem countP_attempts_le {turns : ℕ} :
    (attempts cls fuel turns v).countP (fun a => a.1.type ≠ some .hello) ≤ 1 := by
  induction turns generalizing v with
  | zero => exact Nat.zero_le 1
  | succ turns ih =>
    have hlength : (attempt cls v).countP (fun a => a.1.type ≠ some .hello) ≤ 1 :=
      List.countP_le_length.trans length_attempt_le
    rw [attempts]
    cases hvcs : vcs cls v fuel with
    | none => exact hlength
    | some v' =>
      dsimp only
      split_ifs with hne
      · rw [List.countP_append]
        by_cases hstate : v.state = .sendError
        · -- the state is left for `disconnected`
          have hv' : v'.state = .disconnected := by
            rw [vcs, hstate] at hvcs
            obtain rfl := Option.some.inj hvcs
            rw [hstate] at hne
            revert hne
            unfold vcsSendError doSend giveUp
            dsimp only
            split_ifs <;> intro hne <;> first | rfl | exact absurd hstate hne
          rw [attempts_of_settled (.inr hv'), List.countP_nil]
          exact hlength
        · have hnone : (attempt cls v).countP (fun a => a.1.type ≠ some .hello) = 0 := by
            refine List.countP_eq_zero.mpr fun a ha => ?_
            rcases mem_attempt ha with hhello | ⟨herror, -⟩
            · simp [hhello]
            · exact absurd herror hstate
          rw [hnone, Nat.zero_add]
          exact ih
      · rw [List.append_nil]
        exact hlength

/-- The classes of what is attempted. -/
theorem mem_attempts {turns : ℕ} {a : OfpMessage × ℤ} (h : a ∈ attempts cls fuel turns v) :
    a.1.type = some .hello ∨ a.1.statTags = sendErrorTags := by
  induction turns generalizing v with
  | zero => exact absurd h List.not_mem_nil
  | succ turns ih =>
    have hattempt : a ∈ attempt cls v → a.1.type = some .hello ∨ a.1.statTags = sendErrorTags :=
      fun ha => (mem_attempt ha).imp id And.right
    rw [attempts] at h
    cases hvcs : vcs cls v fuel with
    | none =>
      rw [hvcs] at h
      exact hattempt h
    | some v' =>
      rw [hvcs] at h
      rcases List.mem_append.mp h with ha | ha
      · exact hattempt ha
      · split_ifs at ha
        · exact ih ha
        · exact absurd ha List.not_mem_nil

/-- A loop attempts no more messages than it has turns. -/
theorem length_attempts_le {turns : ℕ} : (attempts cls fuel turns v).length ≤ turns := by
  induction turns generalizing v with
  | zero => exact le_refl 0
  | succ turns ih =>
    have hlength : (attempt cls v).length ≤ 1 := length_attempt_le
    rw [attempts]
    cases vcs cls v fuel with
    | none => exact hlength.trans (Nat.le_add_left 1 turns)
    | some v' =>
      dsimp only
      rw [List.length_append]
      split_ifs
      · have hrest := @ih v'
        omega
      · rw [List.length_nil]
        omega

/-! ### When the attempts are counted right -/

/-- The handshake gets through with what it sends, so far: it has not come to the error, and its
HELLO has been accepted or is to be tried again. -/
def Unopposed (as : List (OfpMessage × ℤ)) : Prop :=
  ∀ a ∈ as, a.1.type = some .hello ∧ (a.2 = 0 ∨ a.2 = eAgain)

/-- Attempts are counted right: what is accepted is counted once, and what fails is counted once as
an error. `failures` is what has failed besides. -/
structure CountedRight (as : List (OfpMessage × ℤ)) (failures : ℕ) : Prop where
  /-- The counters tell what has been accepted. -/
  accepted : ∀ tag, tagCount tag (countedOf as) = tagCount tag (acceptedOf as)
  /-- Those of errors tell what has failed. -/
  failed : ∀ tag ∈ sendErrorTags.tail, tagCount tag (countedOf as) = failedOf as + failures

/-- The messages among some attempts that a counter is incremented for. -/
theorem tagCount_filter (tag : OfpStatField) (p : OfpMessage × ℤ → Bool)
    (as : List (OfpMessage × ℤ)) :
    tagCount tag ((as.filter p).map Prod.fst) =
      as.countP fun a => decide (tag ∈ a.1.statTags) && p a := by
  rw [tagCount, List.countP_map, List.countP_filter]
  rfl

theorem notMem_statTags_of_hello {msg : OfpMessage} (h : msg.type = some .hello)
    {tag : OfpStatField} (htag : tag ∈ sendErrorTags.tail) : tag ∉ msg.statTags := by
  rw [OfpMessage.statTags_of_hello h]
  revert htag
  simp only [sendErrorTags, List.tail_cons, List.mem_cons, List.not_mem_nil, or_false]
  rintro (rfl | rfl | rfl) <;> decide

/-- Attempts with one error at most are counted right exactly when the handshake is not opposed and
nothing else has failed. -/
theorem countedRight_iff {as : List (OfpMessage × ℤ)} {failures : ℕ}
    (hclass : ∀ a ∈ as, a.1.type = some .hello ∨ a.1.statTags = sendErrorTags)
    (hone : as.countP (fun a => a.1.type ≠ some .hello) ≤ 1) :
    CountedRight as failures ↔ Unopposed as ∧ failures = 0 := by
  have herror : OfpStatField.error ∈ sendErrorTags.tail := by decide
  constructor
  · rintro ⟨haccepted, hfailed⟩
    -- the errors that are counted and those that are accepted
    have hcounted := haccepted .error
    simp only [countedOf, acceptedOf, tagCount_filter] at hcounted
    have hsum : as.countP (fun a => decide (OfpStatField.error ∈ a.1.statTags) &&
          if a.1.type = some .hello then decide (a.2 = 0) else decide (a.2 ≠ 0)) +
        as.countP (fun a => decide (OfpStatField.error ∈ a.1.statTags) && decide (a.2 = 0)) =
          as.countP fun a => a.1.type ≠ some .hello := by
      clear hone haccepted hfailed hcounted
      induction as with
      | nil => rfl
      | cons a as ih =>
        obtain ⟨ha, has⟩ := List.forall_mem_cons.mp hclass
        rw [List.countP_cons, List.countP_cons, List.countP_cons, ← ih has]
        by_cases hhello : a.1.type = some .hello
        · simp [hhello, notMem_statTags_of_hello hhello herror]
        · have hmem : OfpStatField.error ∈ a.1.statTags := by
            rw [ha.resolve_left hhello]
            decide
          by_cases hzero : a.2 = 0 <;> simp [hhello, hmem, hzero] <;> omega
    have hnone : as.countP (fun a => a.1.type ≠ some .hello) = 0 := by omega
    have hhellos : ∀ a ∈ as, a.1.type = some .hello := by
      intro a ha
      simpa using List.countP_eq_zero.mp hnone a ha
    -- then no error has been counted, and nothing may have failed
    have hzero := hfailed .error herror
    simp only [countedOf, tagCount_filter] at hzero
    have hfailures : failedOf as = 0 ∧ failures = 0 := by omega
    refine ⟨fun a ha => ⟨hhellos a ha, ?_⟩, hfailures.2⟩
    have hnot := List.countP_eq_zero.mp hfailures.1 a ha
    simp only [decide_eq_true_eq, not_and, not_not] at hnot
    by_cases hresult : a.2 = 0
    · exact .inl hresult
    · exact .inr (hnot hresult)
  · rintro ⟨hunopposed, rfl⟩
    have hsame : countedOf as = acceptedOf as := by
      unfold countedOf acceptedOf
      congr 1
      refine List.filter_congr fun a ha => ?_
      rw [if_pos (hunopposed a ha).1]
    refine ⟨fun tag => by rw [hsame], fun tag htag => ?_⟩
    have hcount : tagCount tag (countedOf as) = 0 := by
      rw [hsame, acceptedOf, tagCount_filter]
      refine List.countP_eq_zero.mpr fun a ha => ?_
      simp [notMem_statTags_of_hello (hunopposed a ha).1 htag]
    have hfailed : failedOf as = 0 := by
      refine List.countP_eq_zero.mpr fun a ha => ?_
      simp only [decide_eq_true_eq]
      rintro ⟨hne, hne'⟩
      exact (hunopposed a ha).2.elim hne hne'
    rw [hcount, hfailed]

/-! ### Messages of the callers -/

/-- `vconn_recv` attempts what `vconn_connect` does. -/
theorem attempted_vconnRecv {r : Except ℤ OfpMessage} (hrun : vconnRecv cls v fuel = some (r, v')) :
    Attempted v (attempts cls fuel 6 v) v' := by
  unfold vconnRecv at hrun
  split at hrun
  next => cases hrun
  next retval v₁ hconnect =>
    have hattempted := attempted_vconnConnect hconnect
    split at hrun
    next =>
      rw [← (Prod.mk.inj (Option.some.inj hrun)).2]
      exact hattempted
    next =>
      split at hrun
      next => cases hrun
      all_goals
        next hrecv =>
        obtain ⟨transport, dropped, -, rfl⟩ := doRecv_spec hrecv
        rw [← (Prod.mk.inj (Option.some.inj hrun)).2]
        exact ⟨hattempted.accepted, hattempted.ofpsSent⟩

/-- `vconn_send` goes on with the message of the caller, which is accepted when it returns 0. -/
theorem attempted_vconnSend {msg : OfpMessage} {retval : ℤ}
    (hrun : vconnSend cls v fuel msg = some (retval, v')) :
    v'.accepted = v.accepted ++ ((acceptedOf (attempts cls fuel 6 v)).map (fun m => (m, true)) ++
        if retval = 0 then [(msg, false)] else []) ∧
      v'.ofpsSent =
        (countedOf (attempts cls fuel 6 v)).foldl OfpStat.incProtocolStat v.ofpsSent := by
  unfold vconnSend at hrun
  split at hrun
  next => cases hrun
  next result v₁ hconnect =>
    have hattempted := attempted_vconnConnect hconnect
    have hrun := Option.some.inj hrun
    split_ifs at hrun with hresult
    · obtain ⟨rfl, rfl⟩ := Prod.mk.inj hrun
      rw [if_neg hresult, List.append_nil]
      exact ⟨hattempted.accepted, hattempted.ofpsSent⟩
    · obtain ⟨retval', transport, hsend⟩ := doSend_spec cls v₁ msg false
      rw [hsend] at hrun
      obtain ⟨rfl, rfl⟩ := Prod.mk.inj hrun
      refine ⟨?_, hattempted.ofpsSent⟩
      rw [← List.append_assoc, ← hattempted.accepted]
      dsimp only
      split_ifs
      · rfl
      · exact (List.append_nil _).symm

/-- The messages that have been accepted between two states, of the connection itself or of its
callers. -/
def newly (own : Bool) (v v' : VconnRun τ) : List OfpMessage :=
  ((v'.accepted.drop v.accepted.length).filter fun m => m.2 == own).map Prod.fst

end VconnRun

/-! ### Steps -/

namespace StatRun

variable {τ : Type*} (cls : VconnClass τ)

/-- A step of a run. -/
structure StatStep (τ : Type*) where
  /-- The fuel for messages that are dropped. -/
  fuel : ℕ
  /-- What happens. -/
  event : Event τ
  /-- The state behind it. -/
  after : StatRun τ

/-- The messages of callers that an event hands over. -/
def Event.handed : Event τ → List OfpMessage
  | .trySend h => [h]
  | _ => []

/-- The event calls a function of the `vconn` that may send. -/
def Event.MaySend : Event τ → Prop
  | .runConnecting | .rconnRecv | .trySend _ => True
  | .vconnOpen _ _ _ | .vconnClose | .hook _ | .transport _ => False

/-- What `vconn_send` returns, if the event calls it. -/
def sendResult (v : VconnRun τ) (fuel : ℕ) : Event τ → ℤ
  | .trySend h => ((v.vconnSend cls fuel h).map Prod.fst).getD 0
  | _ => 0

/-- How many messages an event has tried in vain: those of the handshake, and the one of a
caller. -/
def failures (v : VconnRun τ) (fuel : ℕ) (e : Event τ) : ℕ :=
  VconnRun.failedOf (v.attempts cls fuel 6) +
    if sendResult cls v fuel e ≠ 0 ∧ sendResult cls v fuel e ≠ eAgain then 1 else 0

/-- The step counts messages right: the counters of the `rconn` tell what the transport has accepted
of its callers, those of the `vconn` what it has accepted of the handshake, and the counters of
errors in sending what has failed. -/
def CountsSends (s : StatRun τ) (t : StatStep τ) : Prop :=
  t.event.MaySend → ∀ v v', s.vconn = some v → t.after.vconn = some v' →
    (∀ tag, t.after.ofpsSent tag =
        s.ofpsSent tag + BitVec.ofNat 64 (tagCount tag (v.newly false v'))) ∧
      (∀ tag, v'.ofpsSent tag =
        v.ofpsSent tag + BitVec.ofNat 64 (tagCount tag (v.newly true v'))) ∧
      ∀ tag ∈ sendErrorTags.tail,
        v'.ofpsSent tag = v.ofpsSent tag + BitVec.ofNat 64 (failures cls v t.fuel t.event)

/-- The messages of a step go through: those of the handshake are not opposed, and the one of a
caller is accepted at once. -/
def Smooth (s : StatRun τ) (t : StatStep τ) : Prop :=
  t.event.MaySend → ∀ v, s.vconn = some v →
    VconnRun.Unopposed (v.attempts cls t.fuel 6) ∧ sendResult cls v t.fuel t.event = 0

variable {cls} {s s' : StatRun τ} {fuel : ℕ} {e : Event τ}

/-- A step that may send, by what it attempts. -/
theorem next_spec (hsend : e.MaySend) (hrun : next cls s fuel e = some s') :
    ∃ v v', s.vconn = some v ∧ s'.vconn = some v' ∧
      v'.accepted = v.accepted ++
        ((VconnRun.acceptedOf (v.attempts cls fuel 6)).map (fun m => (m, true)) ++
          (if sendResult cls v fuel e = 0 then e.handed else []).map fun m => (m, false)) ∧
      v'.ofpsSent =
        (VconnRun.countedOf (v.attempts cls fuel 6)).foldl OfpStat.incProtocolStat v.ofpsSent ∧
      s'.ofpsSent = e.handed.foldl OfpStat.incProtocolStat s.ofpsSent ∧
      s'.pastSent = s.pastSent := by
  cases e with
  | runConnecting =>
    unfold next runConnecting at hrun
    dsimp only at hrun
    split at hrun
    next => cases hrun
    next v hs =>
      split at hrun
      next => cases hrun
      next retval v' hconnect =>
        obtain rfl := Option.some.inj hrun
        have hattempted := VconnRun.attempted_vconnConnect hconnect
        exact ⟨v, v', hs, rfl, hattempted.accepted.trans (by simp [Event.handed]),
          hattempted.ofpsSent, rfl, rfl⟩
  | rconnRecv =>
    unfold next rconnRecv at hrun
    dsimp only at hrun
    split at hrun
    next => cases hrun
    next v hs =>
      split at hrun
      next => cases hrun
      all_goals
        next v' hrecv =>
        obtain rfl := Option.some.inj hrun
        have hattempted := VconnRun.attempted_vconnRecv hrecv
        exact ⟨v, v', hs, rfl, hattempted.accepted.trans (by simp [Event.handed]),
          hattempted.ofpsSent, rfl, rfl⟩
  | trySend h =>
    unfold next trySend at hrun
    dsimp only at hrun
    split at hrun
    next => cases hrun
    next v hs =>
      split at hrun
      next => cases hrun
      next retval v' hvsend =>
        obtain rfl := Option.some.inj hrun
        obtain ⟨haccepted, hsent⟩ := VconnRun.attempted_vconnSend hvsend
        -- the message has been handed over only if sending it has not failed
        have hresult : sendResult cls v fuel (.trySend h) = retval := by
          rw [sendResult, hvsend]
          rfl
        refine ⟨v, v', hs, rfl, ?_, hsent, rfl, rfl⟩
        rw [hresult, haccepted]
        split_ifs <;> rfl
  | vconnOpen _ _ _ => exact hsend.elim
  | vconnClose => exact hsend.elim
  | hook _ => exact hsend.elim
  | transport _ => exact hsend.elim

/-- What has been accepted between two states, by whose it is. -/
theorem newly_eq {v v' : VconnRun τ} {ms ms' : List OfpMessage}
    (h : v'.accepted = v.accepted ++ (ms.map (fun m => (m, true)) ++ ms'.map fun m => (m, false))) :
    v.newly true v' = ms ∧ v.newly false v' = ms' := by
  have hfilter : ∀ (own own' : Bool) (ms : List OfpMessage),
      ((ms.map fun m => (m, own)).filter fun m => m.2 == own').map Prod.fst =
        if own = own' then ms else [] := by
    intro own own' ms
    induction ms with
    | nil => simp
    | cons m ms ih =>
      rw [List.map_cons, List.filter_cons]
      by_cases hown : own = own'
      · simpa [hown] using ih
      · simp [hown]
  unfold VconnRun.newly
  rw [h, List.drop_left, List.filter_append, List.filter_append, List.map_append, List.map_append,
    hfilter, hfilter, hfilter, hfilter]
  exact ⟨List.append_nil _, rfl⟩

theorem counter_eq_iff (n : BitVec 64) {a b : ℕ} (ha : a ≤ 7) (hb : b ≤ 7) :
    n + BitVec.ofNat 64 a = n + BitVec.ofNat 64 b ↔ a = b := by
  rw [BitVec.add_right_inj, ← BitVec.toNat_inj, BitVec.toNat_ofNat, BitVec.toNat_ofNat,
    Nat.mod_eq_of_lt (by omega), Nat.mod_eq_of_lt (by omega)]

/-- A message of a caller is counted right exactly when it is accepted at once. -/
theorem handed_counted_iff (v : VconnRun τ) (n : OfpStat) :
    (∀ tag, e.handed.foldl OfpStat.incProtocolStat n tag = n tag + BitVec.ofNat 64
        (tagCount tag (if sendResult cls v fuel e = 0 then e.handed else []))) ↔
      sendResult cls v fuel e = 0 := by
  constructor
  · intro h
    by_contra hne
    have htotal := h .total
    rw [OfpStat.foldl_incProtocolStat_apply, if_neg hne] at htotal
    cases e with
    | trySend msg =>
      have hone : tagCount .total [msg] = 1 := by simp [tagCount, OfpMessage.statTags]
      rw [Event.handed, hone, counter_eq_iff _ (by decide) (by decide)] at htotal
      cases htotal
    | _ => exact hne rfl
  · intro hzero tag
    rw [if_pos hzero, OfpStat.foldl_incProtocolStat_apply]

/-- A step counts messages right exactly when they go through. -/
theorem countsSends_iff {t : StatStep τ} (hrun : next cls s t.fuel t.event = some t.after) :
    CountsSends cls s t ↔ Smooth cls s t := by
  by_cases hsend : t.event.MaySend
  · obtain ⟨v, v', hs, hafter, haccepted, hvsent, hsent, -⟩ := next_spec hsend hrun
    obtain ⟨hown, hcallers⟩ := newly_eq haccepted
    have hlength : (v.attempts cls t.fuel 6).length ≤ 6 := VconnRun.length_attempts_le
    have hfew : ∀ (tag : OfpStatField) (p : OfpMessage × ℤ → Bool),
        tagCount tag (((v.attempts cls t.fuel 6).filter p).map Prod.fst) ≤ 7 := by
      intro tag p
      refine List.countP_le_length.trans ?_
      rw [List.length_map]
      exact (List.length_filter_le p _).trans (hlength.trans (by decide))
    have hfailures : failures cls v t.fuel t.event ≤ 7 := by
      have hle : VconnRun.failedOf (v.attempts cls t.fuel 6) ≤ 6 :=
        List.countP_le_length.trans hlength
      unfold failures
      split_ifs <;> omega
    have hright : VconnRun.CountedRight (v.attempts cls t.fuel 6)
        (if sendResult cls v t.fuel t.event ≠ 0 ∧ sendResult cls v t.fuel t.event ≠ eAgain then 1
          else 0) ↔ _ :=
      VconnRun.countedRight_iff (fun a ha => VconnRun.mem_attempts ha) VconnRun.countP_attempts_le
    -- what the counters of the `vconn` should tell, by what has been attempted
    have hvconn : (∀ tag, v'.ofpsSent tag =
          v.ofpsSent tag + BitVec.ofNat 64 (tagCount tag (v.newly true v'))) ∧
        (∀ tag ∈ sendErrorTags.tail, v'.ofpsSent tag =
          v.ofpsSent tag + BitVec.ofNat 64 (failures cls v t.fuel t.event)) ↔
        VconnRun.CountedRight (v.attempts cls t.fuel 6)
          (if sendResult cls v t.fuel t.event ≠ 0 ∧ sendResult cls v t.fuel t.event ≠ eAgain then 1
            else 0) := by
      rw [hown, hvsent]
      simp only [OfpStat.foldl_incProtocolStat_apply]
      constructor
      · rintro ⟨haccepted, hfailed⟩
        exact ⟨fun tag => (counter_eq_iff _ (hfew tag _) (hfew tag _)).mp (haccepted tag),
          fun tag htag => (counter_eq_iff _ (hfew tag _) hfailures).mp (hfailed tag htag)⟩
      · rintro ⟨haccepted, hfailed⟩
        exact ⟨fun tag => (counter_eq_iff _ (hfew tag _) (hfew tag _)).mpr (haccepted tag),
          fun tag htag => (counter_eq_iff _ (hfew tag _) hfailures).mpr (hfailed tag htag)⟩
    have hcaller := @handed_counted_iff _ cls t.fuel t.event v s.ofpsSent
    rw [← hcallers, ← hsent] at hcaller
    constructor
    · intro hcounts _ v₁ hv₁
      obtain rfl := Option.some.inj (hs.symm.trans hv₁)
      obtain ⟨hrconn, haccepted, hfailed⟩ := hcounts hsend v v' hs hafter
      exact ⟨(hright.mp (hvconn.mp ⟨haccepted, hfailed⟩)).1, hcaller.mp hrconn⟩
    · intro hsmooth _ v₁ v₁' hv₁ hv₁'
      obtain rfl := Option.some.inj (hs.symm.trans hv₁)
      obtain rfl := Option.some.inj (hafter.symm.trans hv₁')
      obtain ⟨hunopposed, hzero⟩ := hsmooth hsend v hs
      obtain ⟨haccepted, hfailed⟩ :=
        hvconn.mpr (hright.mpr ⟨hunopposed, if_neg fun h => h.1 hzero⟩)
      exact ⟨hcaller.mpr hzero, haccepted, hfailed⟩
  · exact iff_of_true (fun h => absurd h hsend) fun h => absurd h hsend

/-! ### Runs -/

variable (cls) in
/-- A run from a state. -/
def IsRun : StatRun τ → List (StatStep τ) → Prop
  | _, [] => True
  | s, t :: ts => next cls s t.fuel t.event = some t.after ∧ IsRun t.after ts

/-- What every step of a run satisfies. -/
def EachStep (P : StatRun τ → StatStep τ → Prop) : StatRun τ → List (StatStep τ) → Prop
  | _, [] => True
  | s, t :: ts => P s t ∧ EachStep P t.after ts

/-- The state behind a run. -/
def lastOf : StatRun τ → List (StatStep τ) → StatRun τ
  | s, [] => s
  | _, t :: ts => lastOf t.after ts

/-- What the counters of both layers tell together. -/
def counted (s : StatRun τ) (tag : OfpStatField) : BitVec 64 := s.ofpsSent tag + s.vconnSent tag

/-- What they lose: the counters of a `vconn` that is closed. -/
def lost (s : StatRun τ) (tag : OfpStatField) : Event τ → BitVec 64
  | .vconnClose => s.vconnSent tag
  | _ => 0

/-- What they lose in a run. -/
def lostIn (tag : OfpStatField) : StatRun τ → List (StatStep τ) → BitVec 64
  | _, [] => 0
  | s, t :: ts => s.lost tag t.event + lostIn tag t.after ts

theorem tagCount_append (tag : OfpStatField) (ms ms' : List OfpMessage) :
    tagCount tag (ms ++ ms') = tagCount tag ms + tagCount tag ms' := List.countP_append

/-- A step that may send counts what it sends when its messages go through. -/
theorem counted_of_maySend {t : StatStep τ} (hrun : next cls s t.fuel t.event = some t.after)
    (hsmooth : Smooth cls s t) (hsend : t.event.MaySend) :
    ∃ ms, t.after.sent = s.sent ++ ms ∧ ∀ tag,
      t.after.counted tag = s.counted tag + BitVec.ofNat 64 (tagCount tag ms) := by
  have hcounts := (countsSends_iff hrun).mpr hsmooth
  obtain ⟨v, v', hs, hafter, haccepted, -, -, hpast⟩ := next_spec hsend hrun
  obtain ⟨hown, hcallers⟩ := newly_eq haccepted
  obtain ⟨hrconn, hvconn, -⟩ := hcounts hsend v v' hs hafter
  refine ⟨v.newly true v' ++ v.newly false v', ?_, fun tag => ?_⟩
  · unfold StatRun.sent
    rw [hs, hafter, hpast, hown, hcallers]
    simp only [Option.map_some, Option.getD_some]
    rw [haccepted, List.append_assoc, List.map_append, List.map_append]
    simp [Function.comp_def]
  · unfold counted vconnSent
    rw [hs, hafter]
    simp only [Option.map_some, Option.getD_some]
    rw [hrconn, hvconn, tagCount_append, BitVec.ofNat_add]
    ac_rfl

/-- The hook moves counters, and no messages. -/
theorem counted_hook (s : StatRun τ) (qbuf : OfpMessage) (tag : OfpStatField) :
    (s.protocolStatRemotePacketCb qbuf).2.2.sent = s.sent ∧
      (s.protocolStatRemotePacketCb qbuf).2.2.counted tag = s.counted tag := by
  have hmerge : s.rconnUpdateProtocolStat.counted tag = s.counted tag := by
    unfold rconnUpdateProtocolStat
    cases hs : s.vconn with
    | none => rfl
    | some v =>
      unfold counted vconnSent
      rw [hs]
      simp only [Option.map_some, Option.getD_some]
      unfold OfpStat.merge
      dsimp only
      split_ifs
      · exact BitVec.add_zero _
      · rfl
  unfold StatRun.protocolStatRemotePacketCb
  split_ifs
  · exact ⟨rfl, rfl⟩
  · exact ⟨rfl, rfl⟩
  · exact ⟨rfl, rfl⟩
  · exact ⟨rfl, rfl⟩
  · exact ⟨(messages_rconnUpdateProtocolStat s).2, hmerge⟩

/-- The other steps send nothing, and lose what `vconn_close` does. -/
theorem counted_of_not_maySend (hrun : next cls s fuel e = some s') (hsend : ¬ e.MaySend) :
    s'.sent = s.sent ∧ ∀ tag, s'.counted tag + s.lost tag e = s.counted tag := by
  cases e with
  | vconnOpen connectStatus minVersion transport =>
    unfold next at hrun
    dsimp only at hrun
    split at hrun
    next hnone =>
      obtain rfl := Option.some.inj hrun
      have hs := Option.isNone_iff_eq_none.mp hnone
      constructor
      · simp [StatRun.sent, StatRun.vconnOpen, hs, VconnRun.init]
      · intro tag
        simp [counted, vconnSent, StatRun.vconnOpen, hs, VconnRun.init, lost]
    next => cases hrun
  | vconnClose =>
    obtain rfl := Option.some.inj hrun
    -- the counters of the connection are lost
    unfold StatRun.vconnClose
    cases hs : s.vconn with
    | none => exact ⟨rfl, fun tag => by simp [counted, vconnSent, hs, lost, OfpStat.zero]⟩
    | some v =>
      constructor
      · simp [StatRun.sent, hs]
      · intro tag
        simp [counted, vconnSent, hs, lost, OfpStat.zero]
  | hook qbuf =>
    obtain rfl := Option.some.inj hrun
    exact ⟨(counted_hook s qbuf .total).1, fun tag =>
      (BitVec.add_zero _).trans (counted_hook s qbuf tag).2⟩
  | transport transport =>
    obtain rfl := Option.some.inj hrun
    constructor
    · unfold StatRun.sent
      cases s.vconn <;> rfl
    · intro tag
      unfold counted vconnSent
      cases s.vconn <;> exact BitVec.add_zero _
  | runConnecting => exact absurd trivial hsend
  | rconnRecv => exact absurd trivial hsend
  | trySend h => exact absurd trivial hsend

/-- A step whose messages go through counts what it sends, apart from what is lost. -/
theorem counted_step {t : StatStep τ} (hrun : next cls s t.fuel t.event = some t.after)
    (hsmooth : Smooth cls s t) :
    ∃ ms, t.after.sent = s.sent ++ ms ∧ ∀ tag,
      t.after.counted tag + s.lost tag t.event =
        s.counted tag + BitVec.ofNat 64 (tagCount tag ms) := by
  by_cases hsend : t.event.MaySend
  · obtain ⟨ms, hsent, hcounted⟩ := counted_of_maySend hrun hsmooth hsend
    refine ⟨ms, hsent, fun tag => ?_⟩
    have hlost : s.lost tag t.event = 0 := by
      cases he : t.event <;> first | rfl | exact absurd hsend (by rw [he]; exact id)
    rw [hlost, ← hcounted tag]
    exact BitVec.add_zero _
  · obtain ⟨hsent, hcounted⟩ := counted_of_not_maySend hrun hsend
    refine ⟨[], hsent.trans (List.append_nil _).symm, fun tag => ?_⟩
    exact (hcounted tag).trans (BitVec.add_zero _).symm

/-- What a run counts when its messages go through, by induction on its steps. -/
theorem counted_run {s : StatRun τ} {ts : List (StatStep τ)} (hrun : IsRun cls s ts)
    (hsmooth : EachStep (Smooth cls) s ts) {tag : OfpStatField} {n : BitVec 64}
    (hn : s.counted tag + n = BitVec.ofNat 64 (tagCount tag s.sent)) :
    (lastOf s ts).counted tag + (n + lostIn tag s ts) =
      BitVec.ofNat 64 (tagCount tag (lastOf s ts).sent) := by
  induction ts generalizing s n with
  | nil => exact (congrArg _ (BitVec.add_zero n)).trans hn
  | cons t ts ih =>
    obtain ⟨ms, hsent, hcounted⟩ := counted_step hrun.1 hsmooth.1
    have hnext : t.after.counted tag + (n + s.lost tag t.event) =
        BitVec.ofNat 64 (tagCount tag t.after.sent) := by
      rw [hsent, tagCount_append, BitVec.ofNat_add, ← hn, add_comm n, ← add_assoc, hcounted tag]
      ac_rfl
    have hlast := ih hrun.2 hsmooth.2 hnext
    rw [add_assoc] at hlast
    exact hlast

/-- **Counters of what is sent.** In every run every step counts its messages right exactly when in
every step they go through; and when they do, the counters tell at every time how many messages of a
class have been sent, apart from those of closed connections. -/
theorem sends_counted_iff {ts : List (StatStep τ)} (hrun : IsRun cls start ts) :
    (EachStep (CountsSends cls) start ts ↔ EachStep (Smooth cls) start ts) ∧
      (EachStep (Smooth cls) start ts → ∀ tag,
        (lastOf start ts).counted tag + lostIn tag start ts =
          BitVec.ofNat 64 (tagCount tag (lastOf start ts).sent)) := by
  have heach : ∀ (s : StatRun τ) (ts : List (StatStep τ)), IsRun cls s ts →
      (EachStep (CountsSends cls) s ts ↔ EachStep (Smooth cls) s ts) := by
    intro s ts hrun
    induction ts generalizing s with
    | nil => exact Iff.rfl
    | cons t ts ih => exact and_congr (countsSends_iff hrun.1) (ih t.after hrun.2)
  refine ⟨heach start ts hrun, fun hsmooth tag => ?_⟩
  have hstart : (start (τ := τ)).counted tag + 0 =
      BitVec.ofNat 64 (tagCount tag (start (τ := τ)).sent) := rfl
  have htotal := counted_run hrun hsmooth hstart
  rwa [zero_add] at htotal

/-- A transport with a list of what it returns next for what is sent. Its peer says HELLO. -/
def slowClass : VconnClass (List ℤ) where
  connect rs := (0, rs)
  recv rs := (.ok (helloMessage 7), rs)
  send rs _ := (rs.headD 0, rs.tail)
  allocXid rs := (1, rs)

/-- A connection is opened and made, and then a message is sent. -/
theorem slowRun_states (result : ℤ) : ∃ s₁ s₂ v, IsRun slowClass start
    [⟨1, .vconnOpen 0 1 [0, result], start.vconnOpen 0 1 [0, result]⟩, ⟨1, .runConnecting, s₁⟩,
      ⟨1, .trySend statsRequest, s₂⟩] ∧
    s₁.vconn = some v ∧ sendResult slowClass v 1 (.trySend statsRequest) = result :=
  ⟨_, _, _, ⟨rfl, rfl, rfl, trivial⟩, rfl, rfl⟩

/-- The counters of a run in which everything is accepted. -/
theorem sends_counted_iff_accepted : ∃ ts, IsRun slowClass start ts ∧ ts.length = 3 ∧
    (EachStep (CountsSends slowClass) start ts ↔ EachStep (Smooth slowClass) start ts) ∧
      (EachStep (Smooth slowClass) start ts → ∀ tag,
        (lastOf start ts).counted tag + lostIn tag start ts =
          BitVec.ofNat 64 (tagCount tag (lastOf start ts).sent)) := by
  obtain ⟨s₁, s₂, v, hrun, -⟩ := slowRun_states 0
  exact ⟨_, hrun, rfl, sends_counted_iff hrun⟩

/-- A message that the transport does not take at once is counted all the same. -/
theorem not_sends_counted : ¬ ∀ (cls : VconnClass (List ℤ)) (ts : List (StatStep (List ℤ))),
    IsRun cls start ts → EachStep (CountsSends cls) start ts := by
  intro h
  obtain ⟨s₁, s₂, v, hrun, hv, hresult⟩ := slowRun_states eAgain
  have hcounts := (h slowClass _ hrun).2.2.1
  have hsmooth := (countsSends_iff hrun.2.2.1).mp hcounts trivial v hv
  exact absurd (hresult.symm.trans hsmooth.2) (by decide)

end StatRun

end OfAgent
