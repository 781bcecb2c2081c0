import OfAgent.Secchan.RateLimit

/-!
# Packets and tokens of the rate limiter

What becomes of the packets that have been limited, and what the tokens have been taken for.

* `LimiterRun.Conserved`: every limited packet has been handed over, has been dropped, or is in a
  queue, and the queues are as long as the code says.
* `LimiterRun.Accounted`: drops are counted, and tokens are taken for packets.
* `LimiterRun.Fits`: no queue overflows, and the periodic callback does not run out of turns.
* `LimiterRun.conserved_and_accounted`: the first is right in every run. `drop_packet` does not
  count, and the loop of the periodic callback takes a token before it looks at its turns, so the
  second is right in the runs in which the third is.
-/

open scoped BigOperators

namespace OfAgent

namespace LimiterRun

variable {s : LimitSettings} {w w' : LimiterRun} {fresh : Prop}

/-! ### Packets -/

/-- Packets are conserved. -/
structure Conserved (s : LimitSettings) (w : LimiterRun) : Prop where
  /-- The number of queued packets. -/
  nQueued_eq : w.nQueued = ∑ port, ((w.queues port).length : ℤ)
  /-- They are no more than the burst limit. -/
  nQueued_le : w.nQueued ≤ s.burstLimit
  /-- Every packet received while limiting is accounted for once. -/
  packets : (w.handed : Multiset OfpPacketIn) + w.dropped + Lanes.contents w.queues = w.limited
  /-- The packets received while limiting are counted. -/
  nLimited_eq : w.nLimited = w.limited.length
  /-- So are those that have been refused. -/
  nTxDropped_eq : w.nTxDropped = w.refused.length
  /-- A refused packet has been handed over. -/
  refused_sublist : w.refused.Sublist w.handed

/-- Every change keeps packets conserved. -/
theorem Conserved.change (h : w.Conserved s) (hchange : Change s fresh w w') : w'.Conserved s := by
  cases hchange with
  | tick now _ => exact ⟨h.1, h.2, h.3, h.4, h.5, h.6⟩
  | refill =>
    unfold refillBucket
    simp only
    split
    next => exact ⟨h.1, h.2, h.3, h.4, h.5, h.6⟩
    next => exact h
  | normal _ _ _ => exact ⟨h.1, h.2, h.3, h.4, h.5, h.6⟩
  | @drop port b rest hfull hqueue =>
    refine ⟨?_, ?_, ?_, h.nLimited_eq, h.nTxDropped_eq, h.refused_sublist⟩
    · rw [Lanes.sum_length_pop hqueue, h.nQueued_eq]
    · have hle := h.nQueued_le
      show w.nQueued - 1 ≤ s.burstLimit
      omega
    · have hpackets := h.packets
      rw [Lanes.contents_pop hqueue, Multiset.add_cons] at hpackets
      rw [Lanes.coe_concat, Multiset.add_cons, Multiset.cons_add, hpackets]
  | push opi hroom =>
    refine ⟨?_, ?_, ?_, ?_, h.nTxDropped_eq, h.refused_sublist⟩
    · rw [enqueue, Lanes.sum_length_push, h.nQueued_eq]
    · show w.nQueued + 1 ≤ s.burstLimit
      omega
    · rw [enqueue, Lanes.contents_push, Multiset.add_cons, h.packets, Lanes.coe_concat]
    · show w.nLimited + 1 = (w.limited ++ [opi]).length
      rw [List.length_append, h.nLimited_eq]
      rfl
  | @send error nextTxPort port b rest htoken hqueue _ =>
    -- the packet moves from the queues to those that have been handed over
    have hpackets : ((w.handed ++ [b] : List OfpPacketIn) : Multiset OfpPacketIn) + w.dropped +
        Lanes.contents (Function.update w.queues port rest) = w.limited := by
      rw [Lanes.coe_concat, Multiset.cons_add, Multiset.cons_add, ← h.packets,
        Lanes.contents_pop hqueue, Multiset.add_cons]
    have hqueued : w.nQueued - 1 =
        ∑ q, ((Function.update w.queues port rest q).length : ℤ) := by
      rw [Lanes.sum_length_pop hqueue, h.nQueued_eq]
    have hle : w.nQueued - 1 ≤ s.burstLimit := (Int.sub_le_self _ (by decide)).trans h.nQueued_le
    cases error with
    | false =>
      exact ⟨hqueued, hle, hpackets, h.nLimited_eq, h.nTxDropped_eq,
        h.refused_sublist.trans (List.sublist_append_left _ _)⟩
    | true =>
      refine ⟨hqueued, hle, hpackets, h.nLimited_eq, ?_, h.refused_sublist.append (.refl _)⟩
      show w.nTxDropped + 1 = (w.refused ++ [b]).length
      rw [List.length_append, h.nTxDropped_eq]
      rfl
  | waste _ _ => exact ⟨h.1, h.2, h.3, h.4, h.5, h.6⟩

theorem Conserved.step (h : w.Conserved s) {e : LimiterEvent} (hstep : Step s w e w') :
    w'.Conserved s :=
  (changes_next False h.nQueued_le False.elim hstep).invariant (Conserved s)
    (fun _ _ hw hchange => hw.change hchange) h

/-! ### Crashes -/

theorem queuePopHead_isSome {port : LimiterPort} (h : w.queues port ≠ []) :
    ∃ r, queuePopHead w port = some r := by
  obtain ⟨b, rest, hqueue⟩ := List.exists_cons_of_ne_nil h
  exact ⟨_, by rw [queuePopHead, hqueue]⟩

/-- While there are packets, `drop_packet` finds one. -/
theorem dropPacket_isSome (h : w.Conserved s) (hpos : 0 < w.nQueued) (random : LimiterPort → ℕ) :
    ∃ w', dropPacket random w = some w' := by
  obtain ⟨port, hport⟩ := Lanes.exists_ne_nil (h.nQueued_eq ▸ hpos)
  have hle := (Lanes.length_le_longest w.queues
    (fun q nLongest => random q % nLongest = 0) (Lanes.round (LimiterPort.of 0)) (.of 0) 1).2 port
    (Lanes.mem_round _ port)
  obtain ⟨⟨b, w₁⟩, hpop⟩ := queuePopHead_isSome (List.ne_nil_of_length_pos
    ((List.length_pos_of_ne_nil hport).trans_le hle))
  exact ⟨_, by rw [dropPacket, hpop]⟩

/-- While there are packets, `dequeue_packet` finds one. -/
theorem dequeuePacket_isSome (h : w.Conserved s) (hpos : 0 < w.nQueued) :
    ∃ r, dequeuePacket w = some r := by
  obtain ⟨port, hport⟩ := Lanes.exists_ne_nil (h.nQueued_eq ▸ hpos)
  obtain ⟨q, hfind, hq⟩ := Lanes.exists_roundRobin hport w.nextTxPort
  obtain ⟨r, hpop⟩ := queuePopHead_isSome (w := { w with
    nextTxPort := .of (q + 1)
    nQueued := w.nQueued - 1 }) hq
  refine ⟨r, ?_⟩
  rw [dequeuePacket, nextQueued, hfind]
  exact hpop

/-- One turn of the loop of the periodic callback. -/
theorem drain_succ (errors : ℕ → Bool) (n : ℕ) (h : w.Conserved s) (hqueued : w.nQueued ≠ 0)
    (htoken : 1000 ≤ w.tokens) :
    ∃ b w₁, drain errors (n + 1) w = drain errors n (transmit (errors n) b w₁) ∧
      (transmit (errors n) b w₁).Conserved s ∧ w₁.nQueued = w.nQueued - 1 ∧
      w₁.tokens = w.tokens - 1000 ∧ w₁.removed = w.removed + 1000 ∧ w₁.handed = w.handed ∧
      w₁.nNormal = w.nNormal ∧ w₁.nQueueDropped = w.nQueueDropped ∧ w₁.dropped = w.dropped := by
  have hcard : 0 ≤ ∑ port, ((w.queues port).length : ℤ) :=
    Finset.sum_nonneg fun port _ => Int.natCast_nonneg _
  have hpos : 0 < w.nQueued := lt_of_le_of_ne (h.nQueued_eq ▸ hcard) (Ne.symm hqueued)
  -- taking a token leaves the queues alone
  have htaken : Conserved s { w with tokens := w.tokens - 1000, removed := w.removed + 1000 } :=
    h.change (.waste htoken hqueued : Change s False w _)
  obtain ⟨⟨b, w₁⟩, hdequeue⟩ := dequeuePacket_isSome htaken hpos
  obtain ⟨port, nextTxPort, rest, hqueue, rfl⟩ := dequeuePacket_eq_some hdequeue
  have hsend : Change s False w _ := .send (errors n) nextTxPort htoken hqueue False.elim
  refine ⟨b, _, ?_, h.change hsend, rfl, rfl, rfl, rfl, rfl, rfl, rfl⟩
  rw [drain, if_neg hqueued, getToken, if_pos htoken]
  simp only [hdequeue]

/-- The loop of the periodic callback ends without a crash. -/
theorem drain_isSome (h : w.Conserved s) (errors : ℕ → Bool) (n : ℕ) :
    ∃ w', drain errors n w = some w' := by
  induction n generalizing w with
  | zero =>
    rw [drain]
    split
    · exact ⟨_, rfl⟩
    · exact ⟨_, rfl⟩
  | succ n ih =>
    by_cases hqueued : w.nQueued = 0
    · exact ⟨w, by rw [drain, if_pos hqueued]⟩
    · by_cases htoken : 1000 ≤ w.tokens
      · obtain ⟨b, w₁, hdrain, hconserved, -⟩ := drain_succ errors n h hqueued htoken
        rw [hdrain]
        exact ih hconserved
      · exact ⟨w, by rw [drain, if_neg hqueued, getToken, if_neg htoken]⟩

/-- So does the callback for a packet. -/
theorem localPacketCb_isSome (h : w.Conserved s) (random : LimiterPort → ℕ)
    (opi : Option OfpPacketIn) : ∃ r, localPacketCb s random opi w = some r := by
  cases opi with
  | none => exact ⟨_, rfl⟩
  | some opi =>
    by_cases hreason : opi.reason = .action
    · exact ⟨(false, w), by rw [localPacketCb, if_pos hreason]⟩
    · by_cases hnormal : w.nQueued = 0 ∧ 1000 ≤ w.tokens
      · exact ⟨_, localPacketCb_normal random hreason hnormal⟩
      · rw [localPacketCb_limited random hreason hnormal]
        split
        next hfull =>
          -- the burst limit is positive, so there is a packet to drop
          have hburst := s.burstLimit_pos
          obtain ⟨w₁, hdrop⟩ := dropPacket_isSome h (by omega) random
          exact ⟨_, by rw [hdrop]; rfl⟩
        next => exact ⟨_, rfl⟩

/-- Every callback ends without a crash. -/
theorem next_isSome (h : w.Conserved s) (e : LimiterEvent) : ∃ w', w.next s e = some w' := by
  cases e with
  | localPacket now random opi =>
    have hnow : Conserved s { w with now } := ⟨h.1, h.2, h.3, h.4, h.5, h.6⟩
    obtain ⟨r, hr⟩ := localPacketCb_isSome hnow random opi
    exact ⟨r.2, by rw [next, hr]; rfl⟩
  | periodic now errors =>
    have hnow : Conserved s { w with now } := ⟨h.1, h.2, h.3, h.4, h.5, h.6⟩
    exact drain_isSome (hnow.change (.refill : Change s False _ _)) errors 50

/-! ### Counts -/

/-- Drops from queues are counted, and every thousand tokens have been taken for one packet. -/
structure Accounted (w : LimiterRun) : Prop where
  /-- Every drop is counted once. -/
  nQueueDropped_eq : w.nQueueDropped = w.dropped.length
  /-- A packet has been let through for the tokens. -/
  removed_eq : w.removed = 1000 * (w.nNormal + w.handed.length : ℕ)

/-- No queue overflows, and the tokens or the packets are used up in fifty turns. -/
def Fits (s : LimitSettings) (w : LimiterRun) : LimiterEvent → Prop
  | .localPacket _ _ opi => ∀ p, opi = some p → p.reason ≠ .action → w.nQueued < s.burstLimit
  | .periodic now _ => w.nQueued ≤ 50 ∨ (refillBucket s { w with now }).tokens < 51000

/-- The loop of the periodic callback takes tokens for packets exactly if it does not run out of
turns. -/
theorem drain_accounted_iff {errors : ℕ → Bool} {n : ℕ} (h : w.Conserved s) (hw : w.Accounted)
    (hdrain : drain errors n w = some w') :
    w'.Accounted ↔ w.nQueued ≤ n ∨ w.tokens < 1000 * (n + 1) := by
  induction n generalizing w with
  | zero =>
    have hcard : 0 ≤ w.nQueued :=
      h.nQueued_eq ▸ Finset.sum_nonneg fun port _ => Int.natCast_nonneg _
    rw [drain] at hdrain
    by_cases hqueued : w.nQueued = 0
    · rw [if_pos hqueued] at hdrain
      cases hdrain
      exact iff_of_true hw (.inl hqueued.le)
    · rw [if_neg hqueued, getToken] at hdrain
      split at hdrain
      next htoken =>
        -- a token is gone, and no packet
        cases hdrain
        refine iff_of_false (fun hw' => ?_) fun hfits => ?_
        · have hbefore := hw.removed_eq
          have hafter : w.removed + 1000 = 1000 * (w.nNormal + w.handed.length : ℕ) :=
            hw'.removed_eq
          omega
        · push_cast at hfits
          omega
      next htoken =>
        cases hdrain
        exact iff_of_true hw (.inr (by push_cast; omega))
  | succ n ih =>
    by_cases hqueued : w.nQueued = 0
    · rw [drain, if_pos hqueued] at hdrain
      cases hdrain
      exact iff_of_true hw (.inl (by omega))
    · by_cases htoken : 1000 ≤ w.tokens
      · obtain ⟨b, w₁, hnext, hconserved, hn, ht, hremoved, hhanded, hnormal, hcount, hdropped⟩ :=
          drain_succ errors n h hqueued htoken
        rw [hnext] at hdrain
        have haccounted : (transmit (errors n) b w₁).Accounted := by
          have hdrops := hw.nQueueDropped_eq
          have htokens := hw.removed_eq
          have hlength : (w₁.handed ++ [b]).length = w.handed.length + 1 := by
            rw [hhanded, List.length_append]
            rfl
          unfold transmit
          split
          · exact ⟨by rw [hcount, hdropped, hdrops],
              by simp only [hremoved, hnormal, hlength]; omega⟩
          · exact ⟨by rw [hcount, hdropped, hdrops],
              by simp only [hremoved, hnormal, hlength]; omega⟩
        have hrest := ih hconserved haccounted hdrain
        have hqueues : (transmit (errors n) b w₁).nQueued = w.nQueued - 1 := by
          unfold transmit
          split <;> exact hn
        have htokens : (transmit (errors n) b w₁).tokens = w.tokens - 1000 := by
          unfold transmit
          split <;> exact ht
        rw [hrest, hqueues, htokens]
        push_cast
        omega
      · rw [drain, if_neg hqueued, getToken, if_neg htoken] at hdrain
        cases hdrain
        exact iff_of_true hw (.inr (by push_cast; omega))

/-- The callback for a packet counts its drop exactly if it drops none. -/
theorem localPacketCb_accounted_iff {random : LimiterPort → ℕ} {opi : Option OfpPacketIn}
    {taken : Bool} (hw : w.Accounted) (hcb : localPacketCb s random opi w = some (taken, w')) :
    w'.Accounted ↔ ∀ p, opi = some p → p.reason ≠ .action → w.nQueued < s.burstLimit := by
  cases opi with
  | none =>
    cases hcb
    exact iff_of_true hw fun p hp => by cases hp
  | some opi =>
    by_cases hreason : opi.reason = .action
    · rw [localPacketCb, if_pos hreason] at hcb
      cases hcb
      exact iff_of_true hw fun p hp hne => by
        cases hp
        exact absurd hreason hne
    · by_cases hnormal : w.nQueued = 0 ∧ 1000 ≤ w.tokens
      · rw [localPacketCb_normal random hreason hnormal] at hcb
        cases hcb
        have hburst := s.burstLimit_pos
        have htokens := hw.removed_eq
        refine iff_of_true ⟨hw.nQueueDropped_eq, ?_⟩ fun p _ _ => by omega
        show w.removed + 1000 = 1000 * (w.nNormal + 1 + w.handed.length : ℕ)
        push_cast
        omega
      · rw [localPacketCb_limited random hreason hnormal] at hcb
        simp only [Option.map_eq_some_iff, Prod.mk.injEq] at hcb
        obtain ⟨w₁, hdrop, -, rfl⟩ := hcb
        split at hdrop
        next hfull =>
          -- the drop is not counted
          obtain ⟨port, b, rest, -, rfl⟩ := dropPacket_eq_some hdrop
          refine iff_of_false (fun hw' => ?_) fun hfits => ?_
          · have hbefore := hw.nQueueDropped_eq
            have hafter : w.nQueueDropped = (w.dropped ++ [b]).length := hw'.nQueueDropped_eq
            rw [List.length_append, List.length_singleton] at hafter
            omega
          · exact absurd hfull (not_le.2 (hfits opi rfl hreason))
        next hroom =>
          cases hdrop
          exact iff_of_true ⟨hw.nQueueDropped_eq, hw.removed_eq⟩ fun _ _ _ => not_le.1 hroom

/-- A callback counts right exactly if no queue overflows, and the tokens or the packets are used up
in fifty turns. -/
theorem accounted_iff (h : w.Conserved s) (hw : w.Accounted) {e : LimiterEvent}
    (hnext : w.next s e = some w') : w'.Accounted ↔ w.Fits s e := by
  cases e with
  | localPacket now random opi =>
    obtain ⟨⟨taken, w₁⟩, hcb, rfl⟩ := Option.map_eq_some_iff.1 hnext
    have hnow : Accounted { w with now } := ⟨hw.1, hw.2⟩
    exact localPacketCb_accounted_iff (w := { w with now }) hnow hcb
  | periodic now errors =>
    have hnow : Conserved s { w with now } := ⟨h.1, h.2, h.3, h.4, h.5, h.6⟩
    have hrefill : (refillBucket s { w with now }).Accounted ∧
        (refillBucket s { w with now }).nQueued = w.nQueued := by
      unfold refillBucket
      simp only
      split
      · exact ⟨⟨hw.1, hw.2⟩, rfl⟩
      · exact ⟨⟨hw.1, hw.2⟩, rfl⟩
    have hdrain := drain_accounted_iff (hnow.change (.refill : Change s False _ _)) hrefill.1 hnext
    rw [hrefill.2] at hdrain
    exact hdrain

/-! ### Runs -/

variable {now : ℤ}

theorem conserved_start : (start s now).Conserved s := by
  have hburst : 0 ≤ s.burstLimit := le_trans (by decide) s.burstLimit_pos
  have hempty : Lanes.contents (start s now).queues = 0 := Finset.sum_eq_zero fun port _ => rfl
  refine ⟨(Finset.sum_eq_zero fun port _ => rfl).symm, hburst, ?_, rfl, rfl, .refl _⟩
  rw [hempty]
  rfl

/-- Packets are conserved in every run. -/
theorem conserved_of_reachable (h : Transition.Reachable (Step s) (start s now) w) :
    w.Conserved s :=
  h.invariant (Conserved s) conserved_start fun _ _ _ hw _ hstep => hw.step hstep

/-- In every run, packets are conserved and every callback ends without a crash. In the runs in
which no queue overflows and fifty turns are enough, every drop is counted and every thousand tokens
are taken for one packet; a callback keeps this exactly if it meets these conditions. -/
theorem conserved_and_accounted (s : LimitSettings) (w : LimiterRun) :
    (Transition.Reachable (Step s) (start s now) w →
      (w.nQueued = ∑ port, ((w.queues port).length : ℤ) ∧ w.nQueued ≤ s.burstLimit ∧
        (w.handed : Multiset OfpPacketIn) + w.dropped + Lanes.contents w.queues = w.limited ∧
        w.nTxDropped = w.refused.length ∧ w.refused.Sublist w.handed) ∧
      ∀ e, (∃ w', w.next s e = some w') ∧
        (w.Accounted → ∀ w', w.next s e = some w' → (w'.Accounted ↔ w.Fits s e))) ∧
    (Transition.ReachableVia (Step s) (Fits s) (start s now) w →
      w.nQueueDropped = w.dropped.length ∧
        w.removed = 1000 * (w.nNormal + w.handed.length : ℕ)) := by
  refine ⟨fun h => ?_, fun h => ?_⟩
  · have hw := conserved_of_reachable h
    exact ⟨⟨hw.nQueued_eq, hw.nQueued_le, hw.packets, hw.nTxDropped_eq, hw.refused_sublist⟩,
      fun e => ⟨next_isSome hw e, fun haccounted w' hnext => accounted_iff hw haccounted hnext⟩⟩
  · have hboth : w.Conserved s ∧ w.Accounted :=
      h.invariant (fun w => w.Conserved s ∧ w.Accounted) ⟨conserved_start, ⟨rfl, rfl⟩⟩
        fun _ _ _ hw hfits hstep =>
          ⟨hw.1.step hstep, (accounted_iff hw.1 hw.2 hstep.2).2 hfits⟩
    exact ⟨hboth.2.nQueueDropped_eq, hboth.2.removed_eq⟩

/-- A packet that a table did not match. -/
def unmatched : OfpPacketIn := ⟨18, 0, 60, 1, .noMatch, []⟩

/-- The default limit. -/
def defaultLimit : LimitSettings := .parseOptions 1000 none (by decide) (by decide)

/-- The first packet takes the normal path, for one thousand tokens. -/
theorem conserved_and_accounted_normal : ∃ w : LimiterRun,
    Transition.Reachable (Step defaultLimit) (start defaultLimit 0) w ∧ w.tokens = 99000 ∧
      w.nQueueDropped = w.dropped.length ∧
        w.removed = 1000 * (w.nNormal + w.handed.length : ℕ) := by
  have hstep := step_normal defaultLimit (start defaultLimit 0) (fun _ => 0) le_rfl
    (show unmatched.reason ≠ .action by decide) (by decide)
  have hfits : (start defaultLimit 0).Fits defaultLimit
      (.localPacket 0 (fun _ => 0) (some unmatched)) := fun _ _ _ => by decide
  have hrun : Transition.ReachableVia (Step defaultLimit) (Fits defaultLimit)
      (start defaultLimit 0) _ := .tail .refl hfits hstep
  exact ⟨_, hrun.reachable, by decide, (conserved_and_accounted defaultLimit _).2 hrun⟩

/-- The smallest limit. -/
def smallestLimit : LimitSettings := .parseOptions 1 none (by decide) (by decide)

/-- The second packet that is queued overflows a queue, and its drop is not counted. -/
theorem not_conserved_and_accounted : ¬ ∀ (s : LimitSettings) (w : LimiterRun),
    Transition.Reachable (Step s) (start s 0) w →
      w.nQueueDropped = w.dropped.length ∧
        w.removed = 1000 * (w.nNormal + w.handed.length : ℕ) := by
  intro hall
  have hqueued := localPacketCb_limited (s := smallestLimit) (w := start smallestLimit 0)
    (fun _ => 0) (show unmatched.reason ≠ .action by decide) (by decide)
  have hfirst : Step smallestLimit (start smallestLimit 0)
      (.localPacket 0 (fun _ => 0) (some unmatched)) (enqueue unmatched (start smallestLimit 0)) :=
    ⟨le_rfl, congrArg (Option.map Prod.snd) hqueued⟩
  have hreach := Transition.Reachable.step .refl hfirst
  have hconserved := conserved_of_reachable hreach
  obtain ⟨w', hnext⟩ := next_isSome hconserved (.localPacket 0 (fun _ => 0) (some unmatched))
  have hbefore := hall _ _ hreach
  have hafter := hall _ _ (hreach.step ⟨le_rfl, hnext⟩)
  have hfits := (accounted_iff hconserved ⟨hbefore.1, hbefore.2⟩ hnext).1 ⟨hafter.1, hafter.2⟩
  exact absurd (hfits unmatched rfl (by decide)) (by decide)

end LimiterRun

end OfAgent
