import OfAgent.Forward.Switch
import OfAgent.Lib.Lanes
import OfAgent.Lib.Transition

/-!
# The rate limiter

`ratelimit.c` of the secure channel: packets for the controller pass a token bucket, and those that
do not are put into queues, one for each port, from which a periodic callback sends them later.

* `LimitSettings`: the limits, as `parse_options` makes them.
* `RateLimiter`: `struct rate_limiter`; `LimiterRun`: a record of what has become of the packets and
  the tokens beside it.
* `LimiterRun.localPacketCb`, `LimiterRun.periodicCb` and what they call.
* `LimiterEvent`, `LimiterRun.Step`: the callbacks, at times that do not go back.
* `LimiterRun.Change`: the changes that callbacks are made of; `LimiterRun.changes_next`: each of
  them is.
-/

namespace OfAgent

/-! ### Settings -/

/-- `INT_MAX`. -/
def intMax : ℤ := 2 ^ 31 - 1

/-- The settings of a secure channel with a rate limit. -/
structure LimitSettings where
  /-- Tokens added to bucket per second. -/
  rateLimit : ℤ
  /-- Maximum number token bucket size. -/
  burstLimit : ℤ
  /-- `parse_options` refuses smaller ones. -/
  rateLimit_pos : 1 ≤ rateLimit
  /-- It is an `int`. -/
  rateLimit_le : rateLimit ≤ intMax
  /-- `parse_options` does not leave a smaller one. -/
  burstLimit_pos : 1 ≤ burstLimit
  /-- In thousandths it is an `int` as well. -/
  burstLimit_le : burstLimit ≤ intMax / 1000

/-- The end of `parse_options`. There may be no `--burst-limit`. -/
def LimitSettings.parseOptions (rateLimit : ℤ) (burst : Option ℤ) (hpos : 1 ≤ rateLimit)
    (hle : rateLimit ≤ intMax) : LimitSettings where
  rateLimit := rateLimit
  burstLimit := min (max (burst.getD (rateLimit / 4)) 1) (intMax / 1000)
  rateLimit_pos := hpos
  rateLimit_le := hle
  burstLimit_pos := le_min (le_max_right _ _) (by decide)
  burstLimit_le := min_le_right _ _

/-! ### State -/

/-- The queues are numbered by the physical ports. -/
abbrev LimiterPort : Type := Fin ofppMax.toNat

/-- The queue of a port number. -/
def LimiterPort.of (n : ℕ) : LimiterPort := ⟨n % ofppMax.toNat, Nat.mod_lt n (by decide)⟩

/-- `struct rate_limiter`, without `n_txq`, which belongs to the connection. -/
structure RateLimiter where
  /-- One queue per physical port. -/
  queues : LimiterPort → List OfpPacketIn
  /-- Sum over `queues[*].n`. -/
  nQueued : ℤ
  /-- Next port to check in round-robin. -/
  nextTxPort : LimiterPort
  /-- Time at which we last added tokens. -/
  lastFill : ℤ
  /-- Current number of tokens. -/
  tokens : ℤ
  /-- # txed w/o rate limit queuing. -/
  nNormal : ℕ
  /-- # queued for rate limiting. -/
  nLimited : ℕ
  /-- # dropped due to queue overflow. -/
  nQueueDropped : ℕ
  /-- # dropped due to tx overflow. -/
  nTxDropped : ℕ

/-- A rate limiter with a record of packets and tokens. -/
structure LimiterRun extends RateLimiter where
  /-- The time. -/
  now : ℤ
  /-- The packets that have been received while limiting. -/
  limited : List OfpPacketIn
  /-- Those that have been handed to `rconn_send_with_limit`. -/
  handed : List OfpPacketIn
  /-- Those of which it has returned an error. -/
  refused : List OfpPacketIn
  /-- Those that have been dropped from a queue. -/
  dropped : List OfpPacketIn
  /-- The tokens that have been removed from the bucket. -/
  removed : ℤ
  /-- The times at which packets have been let through. -/
  through : List ℤ

namespace LimiterRun

/-! ### Functions -/

/-- `queue_pop_head`: the packet, and the queues without it. -/
def queuePopHead (w : LimiterRun) (port : LimiterPort) : Option (OfpPacketIn × LimiterRun) :=
  match w.queues port with
  -- the head of an empty queue is a null pointer
  | [] => none
  | b :: rest => some (b, { w with queues := Function.update w.queues port rest })

/-- `drop_packet`, with the values of `random_uint32`. -/
def dropPacket (random : LimiterPort → ℕ) (w : LimiterRun) : Option LimiterRun :=
  let longest := Lanes.longest w.queues (fun q nLongest => random q % nLongest = 0)
    (Lanes.round (LimiterPort.of 0)) (.of 0) 1
  match queuePopHead w longest with
  | none => none
  | some (b, w) => some { w with nQueued := w.nQueued - 1, dropped := w.dropped ++ [b] }

/-- The loop of `dequeue_packet`: the first port from `next_tx_port` on with a packet in its
queue. -/
def nextQueued (w : LimiterRun) : Option LimiterPort := Lanes.roundRobin w.queues w.nextTxPort

/-- `dequeue_packet`. -/
def dequeuePacket (w : LimiterRun) : Option (OfpPacketIn × LimiterRun) :=
  match nextQueued w with
  -- NOT_REACHED
  | none => none
  | some port =>
      queuePopHead { w with nextTxPort := .of (port + 1), nQueued := w.nQueued - 1 } port

/-- `refill_bucket`, which computes with 64 bits. -/
def refillBucket (s : LimitSettings) (w : LimiterRun) : LimiterRun :=
  let tokens := Int.bmod ((w.now - w.lastFill) * s.rateLimit + w.tokens) (2 ^ 64)
  if 1000 ≤ tokens then
    { w with lastFill := w.now, tokens := min tokens (s.burstLimit * 1000) }
  else w

/-- `get_token`. -/
def getToken (w : LimiterRun) : Bool × LimiterRun :=
  if 1000 ≤ w.tokens then
    (true, { w with tokens := w.tokens - 1000, removed := w.removed + 1000 })
  else (false, w)

/-- The packet is queued up for the periodic callback to drain out. -/
def enqueue (opi : OfpPacketIn) (w : LimiterRun) : LimiterRun :=
  let port := LimiterPort.of opi.inPort.toNat
  { w with
    queues := Function.update w.queues port (w.queues port ++ [opi])
    nQueued := w.nQueued + 1
    nLimited := w.nLimited + 1
    limited := w.limited ++ [opi] }

/-- `rate_limit_local_packet_cb`, with what `get_ofp_packet_in` returns: whether the packet is
taken, and the rate limiter. -/
def localPacketCb (s : LimitSettings) (random : LimiterPort → ℕ) (opi : Option OfpPacketIn)
    (w : LimiterRun) : Option (Bool × LimiterRun) :=
  match opi with
  | none => some (false, w)
  | some opi =>
      -- packets of flows that the controller set up are not limited
      if opi.reason = .action then some (false, w)
      else
        match if w.nQueued = 0 then getToken w else (false, w) with
        | (true, w) =>
            some (false, { w with nNormal := w.nNormal + 1, through := w.through ++ [w.now] })
        | (false, w) =>
            (if s.burstLimit ≤ w.nQueued then dropPacket random w else some w).map fun w =>
              (true, enqueue opi w)

/-- The packet is handed to `rconn_send_with_limit`, which may return an error. -/
def transmit (error : Bool) (b : OfpPacketIn) (w : LimiterRun) : LimiterRun :=
  let w := { w with handed := w.handed ++ [b], through := w.through ++ [w.now] }
  if error then { w with nTxDropped := w.nTxDropped + 1, refused := w.refused ++ [b] } else w

/-- The loop of `rate_limit_periodic_cb`, of which `n` turns are left. -/
def drain (errors : ℕ → Bool) : ℕ → LimiterRun → Option LimiterRun
  -- the token is taken before the turns are counted
  | 0, w => if w.nQueued = 0 then some w else some (getToken w).2
  | n + 1, w =>
      if w.nQueued = 0 then some w
      else
        match getToken w with
        | (false, w) => some w
        | (true, w) =>
            match dequeuePacket w with
            | none => none
            | some (b, w) => drain errors n (transmit (errors n) b w)

/-- `rate_limit_periodic_cb`. -/
def periodicCb (s : LimitSettings) (errors : ℕ → Bool) (w : LimiterRun) : Option LimiterRun :=
  drain errors 50 (refillBucket s w)

/-- `rate_limit_start`, at a time. -/
def start (s : LimitSettings) (now : ℤ) : LimiterRun where
  queues := fun _ => []
  nQueued := 0
  nextTxPort := .of 0
  lastFill := now
  tokens := Int.bmod (s.rateLimit * 100) (2 ^ 32)
  nNormal := 0
  nLimited := 0
  nQueueDropped := 0
  nTxDropped := 0
  now := now
  limited := []
  handed := []
  refused := []
  dropped := []
  removed := 0
  through := []

end LimiterRun

/-! ### Runs -/

/-- A call of a callback. -/
inductive LimiterEvent
  /-- A message has been received from the datapath. -/
  | localPacket (now : ℤ) (random : LimiterPort → ℕ) (opi : Option OfpPacketIn)
  /-- The periodic callback runs. -/
  | periodic (now : ℤ) (errors : ℕ → Bool)

/-- The time of a call. -/
def LimiterEvent.now : LimiterEvent → ℤ
  | localPacket now _ _ | periodic now _ => now

namespace LimiterRun

/-- The rate limiter behind a call. -/
def next (s : LimitSettings) (w : LimiterRun) : LimiterEvent → Option LimiterRun
  | .localPacket now random opi => (localPacketCb s random opi { w with now }).map Prod.snd
  | .periodic now errors => periodicCb s errors { w with now }

/-- The step relation. The clock does not go back, and a crash ends the run. -/
def Step (s : LimitSettings) (w : LimiterRun) (e : LimiterEvent) (w' : LimiterRun) : Prop :=
  w.now ≤ e.now ∧ w.next s e = some w'

/-! ### What callbacks are made of -/

/-- The tokens, with those that the time since the last fill is worth. -/
def credit (s : LimitSettings) (w : LimiterRun) : ℤ :=
  w.tokens + s.rateLimit * (w.now - w.lastFill)

/-- A change of a rate limiter. If `fresh`, a packet is let through only on a credit of at most one
packet more than the bucket holds. -/
inductive Change (s : LimitSettings) (fresh : Prop) (w : LimiterRun) : LimiterRun → Prop
  /-- Time goes by. -/
  | tick (now : ℤ) : w.now ≤ now → Change s fresh w { w with now }
  /-- The bucket is refilled. -/
  | refill : Change s fresh w (refillBucket s w)
  /-- A packet takes the normal path. -/
  | normal : w.nQueued = 0 → 1000 ≤ w.tokens →
      (fresh → w.credit s ≤ 1000 * (s.burstLimit + 1)) →
      Change s fresh w
        { w with
          tokens := w.tokens - 1000
          removed := w.removed + 1000
          nNormal := w.nNormal + 1
          through := w.through ++ [w.now] }
  /-- A packet is dropped from a queue. -/
  | drop {port : LimiterPort} {b : OfpPacketIn} {rest : List OfpPacketIn} :
      s.burstLimit ≤ w.nQueued → w.queues port = b :: rest →
      Change s fresh w
        { w with
          queues := Function.update w.queues port rest
          nQueued := w.nQueued - 1
          dropped := w.dropped ++ [b] }
  /-- One is put into a queue. -/
  | push (opi : OfpPacketIn) : w.nQueued < s.burstLimit → Change s fresh w (enqueue opi w)
  /-- One is taken from a queue and handed over. -/
  | send (error : Bool) (nextTxPort : LimiterPort) {port : LimiterPort} {b : OfpPacketIn}
      {rest : List OfpPacketIn} :
      1000 ≤ w.tokens → w.queues port = b :: rest →
      (fresh → w.credit s ≤ 1000 * (s.burstLimit + 1)) →
      Change s fresh w (transmit error b
        { w with
          tokens := w.tokens - 1000
          removed := w.removed + 1000
          nextTxPort
          nQueued := w.nQueued - 1
          queues := Function.update w.queues port rest })
  /-- A token is taken for none. -/
  | waste : 1000 ≤ w.tokens → w.nQueued ≠ 0 →
      Change s fresh w { w with tokens := w.tokens - 1000, removed := w.removed + 1000 }

/-- Some changes, one after the other. -/
abbrev Changes (s : LimitSettings) (fresh : Prop) : LimiterRun → LimiterRun → Prop :=
  Relation.ReflTransGen (Change s fresh)

variable {s : LimitSettings} {fresh : Prop} {w w' : LimiterRun}

/-- What every change keeps, several keep. -/
theorem Changes.invariant (Inv : LimiterRun → Prop)
    (hchange : ∀ w w', Inv w → Change s fresh w w' → Inv w') (hw : Inv w)
    (h : Changes s fresh w w') : Inv w' := by
  induction h with
  | refl => exact hw
  | tail _ hlast ih => exact hchange _ _ ih hlast

/-- `queue_pop_head`. -/
theorem queuePopHead_eq_some {port : LimiterPort} {b : OfpPacketIn}
    (h : queuePopHead w port = some (b, w')) :
    ∃ rest, w.queues port = b :: rest ∧
      w' = { w with queues := Function.update w.queues port rest } := by
  unfold queuePopHead at h
  split at h
  next => cases h
  next b' rest hqueue =>
    cases h
    exact ⟨rest, hqueue, rfl⟩

/-- `drop_packet`. -/
theorem dropPacket_eq_some {random : LimiterPort → ℕ} (h : dropPacket random w = some w') :
    ∃ port b rest, w.queues port = b :: rest ∧
      w' = { w with
        queues := Function.update w.queues port rest
        nQueued := w.nQueued - 1
        dropped := w.dropped ++ [b] } := by
  unfold dropPacket at h
  simp only at h
  split at h
  next => cases h
  next b w₁ hpop =>
    obtain ⟨rest, hqueue, rfl⟩ := queuePopHead_eq_some hpop
    cases h
    exact ⟨_, b, rest, hqueue, rfl⟩

/-- `dequeue_packet`. -/
theorem dequeuePacket_eq_some {b : OfpPacketIn} (h : dequeuePacket w = some (b, w')) :
    ∃ port nextTxPort rest, w.queues port = b :: rest ∧
      w' = { w with
        nextTxPort
        nQueued := w.nQueued - 1
        queues := Function.update w.queues port rest } := by
  cases hfind : nextQueued w with
  | none =>
    rw [dequeuePacket, hfind] at h
    cases h
  | some port =>
    rw [dequeuePacket, hfind] at h
    obtain ⟨rest, hqueue, rfl⟩ := queuePopHead_eq_some h
    exact ⟨_, _, rest, hqueue, rfl⟩

/-- In the common case a packet is not constrained. -/
theorem localPacketCb_normal (random : LimiterPort → ℕ) {opi : OfpPacketIn}
    (hreason : opi.reason ≠ .action) (h : w.nQueued = 0 ∧ 1000 ≤ w.tokens) :
    localPacketCb s random (some opi) w = some (false,
      { w with
        tokens := w.tokens - 1000
        removed := w.removed + 1000
        nNormal := w.nNormal + 1
        through := w.through ++ [w.now] }) := by
  rw [localPacketCb, if_neg hreason, if_pos h.1, getToken, if_pos h.2]

/-- Otherwise it is queued, and another one may have to be dropped for it. -/
theorem localPacketCb_limited (random : LimiterPort → ℕ) {opi : OfpPacketIn}
    (hreason : opi.reason ≠ .action) (h : ¬ (w.nQueued = 0 ∧ 1000 ≤ w.tokens)) :
    localPacketCb s random (some opi) w =
      (if s.burstLimit ≤ w.nQueued then dropPacket random w else some w).map fun w =>
        (true, enqueue opi w) := by
  have htoken : (if w.nQueued = 0 then getToken w else (false, w)) = (false, w) := by
    split
    next hempty => exact if_neg fun htoken => h ⟨hempty, htoken⟩
    next => rfl
  rw [localPacketCb, if_neg hreason, htoken]

/-- A packet that is queued. -/
theorem changes_enqueue {random : LimiterPort → ℕ} {w₁ : LimiterRun} (opi : OfpPacketIn)
    (hle : w.nQueued ≤ s.burstLimit)
    (h : (if s.burstLimit ≤ w.nQueued then dropPacket random w else some w) = some w₁) :
    Changes s fresh w (enqueue opi w₁) := by
  split at h
  next hfull =>
    obtain ⟨longest, b, rest, hqueue, rfl⟩ := dropPacket_eq_some h
    refine .head (.drop hfull hqueue) (.single (.push opi ?_))
    show w.nQueued - 1 < s.burstLimit
    omega
  next hroom =>
    cases h
    exact .single (.push opi (not_le.1 hroom))

/-- `rate_limit_local_packet_cb`. -/
theorem changes_localPacketCb {random : LimiterPort → ℕ} {opi : Option OfpPacketIn} {taken : Bool}
    (hle : w.nQueued ≤ s.burstLimit)
    (hfresh : ∀ p, opi = some p → p.reason ≠ .action → w.nQueued = 0 → 1000 ≤ w.tokens → fresh →
      w.credit s ≤ 1000 * (s.burstLimit + 1))
    (h : localPacketCb s random opi w = some (taken, w')) : Changes s fresh w w' := by
  cases opi with
  | none =>
    cases h
    exact .refl
  | some opi =>
    by_cases hreason : opi.reason = .action
    · rw [localPacketCb, if_pos hreason] at h
      cases h
      exact .refl
    · by_cases hnormal : w.nQueued = 0 ∧ 1000 ≤ w.tokens
      · rw [localPacketCb_normal random hreason hnormal] at h
        cases h
        exact .single (.normal hnormal.1 hnormal.2 (hfresh opi rfl hreason hnormal.1 hnormal.2))
      · rw [localPacketCb_limited random hreason hnormal] at h
        simp only [Option.map_eq_some_iff, Prod.mk.injEq] at h
        obtain ⟨w₁, hdrop, -, rfl⟩ := h
        exact changes_enqueue opi hle hdrop

/-- The loop of `rate_limit_periodic_cb`. -/
theorem changes_drain {errors : ℕ → Bool} {n : ℕ}
    (hfresh : fresh → w.credit s ≤ 1000 * (s.burstLimit + 1))
    (h : drain errors n w = some w') : Changes s fresh w w' := by
  induction n generalizing w with
  | zero =>
    rw [drain] at h
    split at h
    next =>
      cases h
      exact .refl
    next hqueued =>
      cases h
      unfold getToken
      split
      next htoken => exact .single (.waste htoken hqueued)
      next => exact .refl
  | succ n ih =>
    rw [drain] at h
    by_cases hqueued : w.nQueued = 0
    · rw [if_pos hqueued] at h
      cases h
      exact .refl
    · rw [if_neg hqueued] at h
      by_cases htoken : 1000 ≤ w.tokens
      · rw [getToken, if_pos htoken] at h
        cases hdequeue : dequeuePacket { w with
            tokens := w.tokens - 1000
            removed := w.removed + 1000 } with
        | none =>
          simp only [hdequeue] at h
          cases h
        | some r =>
          obtain ⟨b, w₁⟩ := r
          simp only [hdequeue] at h
          obtain ⟨port, nextTxPort, rest, hqueue, rfl⟩ := dequeuePacket_eq_some hdequeue
          have hsend : Change s fresh w (transmit (errors n) b
              { w with
                tokens := w.tokens - 1000
                removed := w.removed + 1000
                nextTxPort
                nQueued := w.nQueued - 1
                queues := Function.update w.queues port rest }) :=
            .send (errors n) nextTxPort htoken hqueue hfresh
          refine .head hsend (ih (fun hf => ?_) h)
          -- a token less is less credit
          have hcredit := hfresh hf
          unfold transmit credit at *
          split <;> simp only <;> omega
      · rw [getToken, if_neg htoken] at h
        cases h
        exact .refl

/-- The packets that a callback lets through are let through on a credit of at most one packet more
than the bucket holds. -/
def Fresh (s : LimitSettings) (w : LimiterRun) : LimiterEvent → Prop
  | .localPacket now _ opi => ∀ p, opi = some p → p.reason ≠ .action → w.nQueued = 0 →
      1000 ≤ w.tokens → credit s { w with now } ≤ 1000 * (s.burstLimit + 1)
  | .periodic now _ => (refillBucket s { w with now }).credit s ≤ 1000 * (s.burstLimit + 1)

/-- Callbacks are made of changes. -/
theorem changes_next (fresh : Prop) {e : LimiterEvent} (hle : w.nQueued ≤ s.burstLimit)
    (hfresh : fresh → w.Fresh s e) (h : Step s w e w') : Changes s fresh w w' := by
  obtain ⟨hnow, hnext⟩ := h
  cases e with
  | localPacket now random opi =>
    obtain ⟨⟨taken, w₁⟩, hcb, rfl⟩ := Option.map_eq_some_iff.1 hnext
    have hchanges := changes_localPacketCb (w := { w with now }) hle
      (fun p hp hreason hempty htoken hf => hfresh hf p hp hreason hempty htoken) hcb
    exact .head (.tick now hnow) hchanges
  | periodic now errors =>
    have hchanges := changes_drain hfresh hnext
    exact .head (.tick now hnow) (.head .refill hchanges)

/-- A packet takes the normal path. -/
theorem step_normal (s : LimitSettings) (w : LimiterRun) {now : ℤ} (random : LimiterPort → ℕ)
    {opi : OfpPacketIn} (hnow : w.now ≤ now) (hreason : opi.reason ≠ .action)
    (h : w.nQueued = 0 ∧ 1000 ≤ w.tokens) :
    Step s w (.localPacket now random (some opi))
      { w with
        now
        tokens := w.tokens - 1000
        removed := w.removed + 1000
        nNormal := w.nNormal + 1
        through := w.through ++ [now] } :=
  ⟨hnow, congrArg (Option.map Prod.snd)
    (localPacketCb_normal (s := s) (w := { w with now }) random hreason h)⟩

/-- The periodic callback finds no packets. -/
theorem step_idle (s : LimitSettings) (w : LimiterRun) {now : ℤ} (errors : ℕ → Bool)
    (hnow : w.now ≤ now) (h : w.nQueued = 0) :
    Step s w (.periodic now errors) (refillBucket s { w with now }) := by
  have hempty : (refillBucket s { w with now }).nQueued = 0 := by
    unfold refillBucket
    simp only
    split <;> exact h
  refine ⟨hnow, ?_⟩
  rw [next, periodicCb, drain, if_pos hempty]

end LimiterRun

end OfAgent
