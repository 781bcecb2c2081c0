import OfAgent.Conn.Greeting

/-!
# Both ends of a connection

Two ends of a connection that run the handshake of `vconn.c` against each other, with calls that
interleave in any way.

* `VconnPair.Step`: a call at one end, or a change of the transport.
* `VconnPair.Meeting`: what both ends have done; `VconnPair.meeting_of_reachable`: in every run.
* `VconnPair.ends_agree`: both ends settle on the version of the protocol, and each returns the
  messages of the other in order.
* `VconnPair.connects_of_reachable`: both ends get connected, as soon as the transport is prompt.
-/

namespace OfAgent

/-- Both ends of a connection. They share the transport. -/
abbrev VconnPair (σ : Type*) : Type _ := VconnEnd → VconnRun σ

namespace VconnPair

variable {σ : Type*} (T : VconnTransport σ)

/-- New ends. -/
def init (connectStatus minVersion : VconnEnd → ℤ) (t : σ) : VconnPair σ :=
  fun d => VconnRun.init (connectStatus d) (minVersion d) t

/-- Both ends when one of them has got to `w`. -/
def advance (s : VconnPair σ) (d : VconnEnd) (w : VconnRun σ) : VconnPair σ :=
  fun d' => if d' = d then w else { s d' with transport := w.transport }

/-- A call at one end, or a change of the transport that moves no message. -/
def Step (s : VconnPair σ) (e : VconnEnd × VconnRun.Event σ) (s' : VconnPair σ) : Prop :=
  (∀ t, e.2 = .transport t → T.Quiet (s e.1).transport t) ∧
    ∃ w, VconnRun.Step (T.cls e.1) (s e.1) e.2 w ∧ s' = s.advance e.1 w

/-- What both ends have done, which accept these versions at first. -/
structure Meeting (minVersion : VconnEnd → ℤ) (s : VconnPair σ) : Prop where
  /-- They share the transport. -/
  shared : ∀ d d', (s d).transport = (s d').transport
  /-- What the transport has accepted from one end has arrived at the other one or is under way. -/
  linked : ∀ d, (s d).Linked T d ((s d.other).accepted.map fun m => m.1.bytes)
    ((s d.other).arrived.map OfpMessage.bytes)
  /-- Each end is in order. -/
  greeted : ∀ d, (s d).Greeted T.Fails (minVersion d)
  /-- So are its messages. -/
  orderly : ∀ d, (s d).Orderly

variable {T} {s s' : VconnPair σ} {d : VconnEnd} {minVersion : VconnEnd → ℤ}

@[simp]
theorem advance_self {w : VconnRun σ} : s.advance d w d = w := if_pos rfl

@[simp]
theorem advance_other {w : VconnRun σ} :
    s.advance d w d.other = { s d.other with transport := w.transport } := if_neg d.other_ne

theorem beginsWithHello {w : VconnRun σ} {v : ℤ} (h : w.Greeted T.Fails v) :
    VconnRun.BeginsWithHello (w.accepted.map fun m => m.1.bytes) := by
  intro m hm
  rcases h.accepted with hnil | ⟨xid, rest, hrest, -⟩
  · rw [hnil] at hm
    cases hm
  · rw [hrest] at hm
    exact ⟨xid, (Option.some.inj hm).symm⟩

/-- What one end does, it does for both. -/
theorem Meeting.advance (h : s.Meeting T minVersion) {w : VconnRun σ}
    (hgreeted : w.Greeted T.Fails (minVersion d)) (horderly : w.Orderly)
    (hlinked : w.Linked T d ((s d.other).accepted.map fun m => m.1.bytes)
      ((s d.other).arrived.map OfpMessage.bytes)) : (s.advance d w).Meeting T minVersion := by
  have hends : ∀ d', d' = d ∨ d' = d.other := fun d' =>
    (eq_or_ne d' d).imp_right VconnEnd.eq_other_of_ne
  have htransport : ∀ d', (s.advance d w d').transport = w.transport := by
    intro d'
    rcases hends d' with rfl | rfl <;> simp
  constructor
  · intro d' d''
    rw [htransport, htransport]
  · intro d'
    rcases hends d' with rfl | rfl
    · rw [advance_self, advance_other]
      exact hlinked
    · rw [VconnEnd.other_other, advance_self, advance_other]
      -- what one end sends is what the other one receives
      exact ⟨hlinked.intact, hlinked.outgoing, by rw [VconnEnd.other_other]; exact hlinked.incoming⟩
  · intro d'
    rcases hends d' with rfl | rfl
    · rwa [advance_self]
    · rw [advance_other]
      obtain ⟨hmin, haccepted, hreturned, hsettled⟩ := h.greeted d.other
      exact ⟨hmin, haccepted, hreturned, hsettled⟩
  · intro d'
    rcases hends d' with rfl | rfl
    · rwa [advance_self]
    · rw [advance_other]
      exact h.orderly _

theorem Meeting.step (hT : T.Fifo) (h : s.Meeting T minVersion)
    {e : VconnEnd × VconnRun.Event σ} (hstep : Step T s e s') : s'.Meeting T minVersion := by
  obtain ⟨hquiet, w, ⟨fuel, retval, hrun⟩, rfl⟩ := hstep
  obtain ⟨hgreeted, hlinked⟩ := (h.greeted e.1).next hT (h.orderly e.1) (h.linked e.1)
    (beginsWithHello (h.greeted e.1.other)) hquiet hrun
  exact h.advance hgreeted (VconnRun.orderly_next (h.orderly e.1) hrun).1 hlinked

/-- New ends have done nothing. -/
theorem meeting_init {connectStatus : VconnEnd → ℤ} {t : σ} (hintact : T.Intact t)
    (hempty : ∀ d, T.inFlight d t = [])
    (hstatus : ∀ d, connectStatus d ≠ 0 → connectStatus d ≠ eAgain → T.Fails (connectStatus d)) :
    (init connectStatus minVersion t).Meeting T minVersion := by
  refine ⟨fun _ _ => rfl, fun d => ⟨hintact, hempty d, hempty d.other⟩, fun d => ?_,
    fun d => VconnRun.orderly_init _ _ t⟩
  refine ⟨rfl, .inl rfl, rfl, ?_⟩
  unfold init VconnRun.init VconnRun.Settled
  by_cases hagain : connectStatus d = eAgain
  · simp only [if_pos hagain]
    exact ⟨trivial, trivial⟩
  · by_cases hzero : connectStatus d = 0
    · simp only [if_neg hagain, if_pos hzero]
      exact ⟨trivial, trivial⟩
    · simp only [if_neg hagain, if_neg hzero]
      exact .inl (hstatus d hzero hagain)

/-! ### Progress -/

/-- A call of `vconn_connect` at one end: when the other one has said HELLO, this one is connected
behind it. -/
theorem Meeting.connect (hT : T.Fifo) (hprompt : T.Prompt) (h : s.Meeting T minVersion)
    (d : VconnEnd) (hmin : 0 ≤ minVersion d ∧ minVersion d ≤ ofpVersion.toNat) :
    ∃ w, Step T s (d, .connect) (s.advance d w) ∧ w.accepted ≠ [] ∧
      ((s d.other).accepted ≠ [] → w.state = .connected) := by
  obtain ⟨r, w, hrun, haccepted, hconnected⟩ := VconnRun.vconnConnect_of_prompt hT hprompt
    (h.greeted d) (h.linked d) (beginsWithHello (h.greeted d.other)) hmin.2 hmin.1
  refine ⟨w, ⟨fun t ht => (by cases ht), w, ⟨1, r, hrun⟩, rfl⟩, haccepted, fun hne => ?_⟩
  exact hconnected fun hnil => hne (List.map_eq_nil_iff.1 hnil)

/-- Both ends are connected behind three calls of `vconn_connect`, in whatever state a run has left
them. -/
theorem Meeting.connects (hT : T.Fifo) (hprompt : T.Prompt) (h : s.Meeting T minVersion)
    (d : VconnEnd) (hmin : ∀ d, 0 ≤ minVersion d ∧ minVersion d ≤ ofpVersion.toNat) :
    ∃ s₁ s₂ s₃, Step T s (d, .connect) s₁ ∧ Step T s₁ (d.other, .connect) s₂ ∧
      Step T s₂ (d, .connect) s₃ ∧ ∀ d', (s₃ d').state = .connected := by
  obtain ⟨w₁, hstep₁, haccepted₁, -⟩ := h.connect hT hprompt d (hmin d)
  -- the first end has said HELLO, so the other one is connected behind the next call
  have h₁ := h.step hT hstep₁
  obtain ⟨w₂, hstep₂, haccepted₂, hconnected₂⟩ := h₁.connect hT hprompt d.other (hmin _)
  rw [VconnEnd.other_other, advance_self] at hconnected₂
  have h₂ := h₁.step hT hstep₂
  obtain ⟨w₃, hstep₃, -, hconnected₃⟩ := h₂.connect hT hprompt d (hmin d)
  rw [advance_self] at hconnected₃
  refine ⟨_, _, _, hstep₁, hstep₂, hstep₃, fun d' => ?_⟩
  rcases eq_or_ne d' d with rfl | hd
  · rw [advance_self]
    exact hconnected₃ haccepted₂
  · rw [VconnEnd.eq_other_of_ne hd, advance_other, advance_self]
    exact hconnected₂ haccepted₁

/-- A transport `T'` takes over from `T`: it has the same messages under way, and no end has been
disconnected before. -/
structure Resumes (T T' : VconnTransport σ) (s : VconnPair σ) : Prop where
  /-- The transport is intact. -/
  intact : ∀ d, T'.Intact (s d).transport
  /-- The messages under way. -/
  inFlight : ∀ d d', T'.inFlight d (s d').transport = T.inFlight d (s d').transport
  /-- No end is disconnected. -/
  alive : ∀ d, (s d).state ≠ .disconnected

/-- Over that transport the ends stay in order. -/
theorem Meeting.resume {T' : VconnTransport σ} (h : s.Meeting T minVersion)
    (hresumes : Resumes T T' s) : s.Meeting T' minVersion where
  shared := h.shared
  linked d :=
    { intact := hresumes.intact d
      incoming := by rw [hresumes.inFlight]; exact (h.linked d).incoming
      outgoing := by rw [hresumes.inFlight]; exact (h.linked d).outgoing }
  greeted d :=
    { minVersion_eq := (h.greeted d).minVersion_eq
      accepted := (h.greeted d).accepted
      returned := (h.greeted d).returned
      settled := by
        have hsettled := (h.greeted d).settled
        have hopen := hresumes.alive d
        unfold VconnRun.Settled at hsettled ⊢
        -- only what has been disconnected knows the errors of the transport
        cases hstate : (s d).state <;> simp only [hstate] at hsettled hopen ⊢
        case disconnected => exact absurd rfl hopen
        all_goals exact hsettled }
  orderly := h.orderly

/-! ### Queues -/

/-- A transport that keeps a queue of messages to each end. -/
def queueTransport : VconnTransport (VconnEnd → List OfpMessage) where
  cls d :=
    { connect := fun t => (0, t)
      recv := fun t =>
        match t d with
        | [] => (.error ⟨eAgain, eAgain_ne_zero⟩, t)
        | msg :: ms => (.ok msg, Function.update t d ms)
      send := fun t msg => (0, Function.update t d.other (t d.other ++ [msg]))
      allocXid := fun t => (1, t) }
  inFlight d t := (t d).map OfpMessage.bytes
  Intact _ := True
  Fails _ := False

theorem fifo_queueTransport : queueTransport.Fifo where
  connect d t t' r _ h := by
    obtain ⟨rfl, rfl⟩ := Prod.mk.inj h
    exact ⟨⟨trivial, fun _ => rfl⟩, fun hzero => absurd rfl hzero⟩
  allocXid d t t' xid _ h := by
    obtain ⟨rfl, rfl⟩ := Prod.mk.inj h
    exact ⟨trivial, fun _ => rfl⟩
  recv_ok d t t' msg _ h := by
    simp only [queueTransport] at h
    split at h
    next => cases (Prod.mk.inj h).1
    next msg' ms hqueue =>
      obtain ⟨hmsg, rfl⟩ := Prod.mk.inj h
      obtain rfl := Except.ok.inj hmsg
      refine ⟨trivial, ?_, ?_⟩
      · simp [queueTransport, hqueue]
      · simp [queueTransport, d.other_ne]
  recv_error d t t' errno _ h := by
    simp only [queueTransport] at h
    split at h
    next =>
      obtain ⟨hmsg, rfl⟩ := Prod.mk.inj h
      obtain rfl := Except.error.inj hmsg
      exact ⟨⟨trivial, fun _ => rfl⟩, fun hne => absurd rfl hne⟩
    next => cases (Prod.mk.inj h).1
  send d t t' r msg _ h := by
    obtain ⟨rfl, rfl⟩ := Prod.mk.inj h
    refine ⟨trivial, ?_, ?_, fun hzero => absurd rfl hzero⟩
    · simp [queueTransport, d.other_ne.symm]
    · simp [queueTransport]

theorem prompt_queueTransport : queueTransport.Prompt where
  connect _ _ _ := rfl
  send _ _ _ _ := rfl
  recv d t _ hne := by
    cases hqueue : t d with
    | nil => exact absurd (congrArg (List.map OfpMessage.bytes) hqueue) hne
    | cons msg ms => exact ⟨msg, Function.update t d ms, by simp [queueTransport, hqueue]⟩
  never _ h := h

/-! ### Runs -/

/-- The messages that the transport has accepted from the callers. -/
def sentByCallers (w : VconnRun σ) : List OfpMessage :=
  (w.accepted.filter fun m => !m.2).map Prod.fst

/-- Behind the HELLO, an end that accepts the version of the protocol sends messages of its callers
only. -/
theorem map_sentByCallers {w : VconnRun σ} {v : ℤ} (h : w.Greeted T.Fails v)
    (hmin : v ≤ ofpVersion.toNat) :
    (sentByCallers w).map OfpMessage.bytes = (w.accepted.map fun m => m.1.bytes).drop 1 := by
  unfold sentByCallers
  rcases h.accepted with hnil | ⟨xid, rest, hrest, hown⟩
  · rw [hnil]
    rfl
  · have hall : rest.filter (fun m => !m.2) = rest := by
      rw [List.filter_eq_self]
      intro m hm
      rw [hown (h.minVersion_eq.trans_le hmin) m hm]
      rfl
    rw [hrest, List.filter_cons_of_neg (by simp), hall, List.map_map]
    rfl

variable {connectStatus : VconnEnd → ℤ} {t : σ}

/-- Both ends are in order in every run. -/
theorem meeting_of_reachable (hT : T.Fifo) (hintact : T.Intact t)
    (hempty : ∀ d, T.inFlight d t = [])
    (hstatus : ∀ d, connectStatus d ≠ 0 → connectStatus d ≠ eAgain → T.Fails (connectStatus d))
    (h : Transition.Reachable (Step T) (init connectStatus minVersion t) s) :
    s.Meeting T minVersion :=
  h.invariant (·.Meeting T minVersion) (meeting_init hintact hempty hstatus)
    fun _ _ _ hs _ hstep => hs.step hT hstep

/-- **Agreement and delivery.** Both ends of a connection run their handshakes and exchange
messages, with calls that interleave in any way, over a transport that keeps messages in order. An
end that is connected has settled on the version of the protocol, which it accepts. An end that
accepts this version is only disconnected when the transport fails. What it returns to its callers
is what the callers of the other end have sent, as far as it passes, in order: a prefix of this, and
all of it when nothing is under way. -/
theorem ends_agree (hT : T.Fifo) (hintact : T.Intact t) (hempty : ∀ d, T.inFlight d t = [])
    (hstatus : ∀ d, connectStatus d ≠ 0 → connectStatus d ≠ eAgain → T.Fails (connectStatus d))
    (h : Transition.Reachable (Step T) (init connectStatus minVersion t) s) (d : VconnEnd) :
    ((s d).state = .connected →
      (s d).version = ofpVersion.toNat ∧ minVersion d ≤ ofpVersion.toNat) ∧
    (minVersion d ≤ ofpVersion.toNat →
      (s d).state ≠ .sendError ∧ ((s d).state = .disconnected → T.Fails (s d).error)) ∧
    (minVersion d.other ≤ ofpVersion.toNat →
      (s d).returned.map OfpMessage.bytes <+:
        ((sentByCallers (s d.other)).filter (passes ofpVersion.toNat)).map OfpMessage.bytes ∧
      (T.inFlight d (s d).transport = [] → (s d).returned.map OfpMessage.bytes =
        ((sentByCallers (s d.other)).filter (passes ofpVersion.toNat)).map OfpMessage.bytes)) := by
  have hmeeting := meeting_of_reachable hT hintact hempty hstatus h
  have hgreeted := hmeeting.greeted d
  have hmin := hgreeted.minVersion_eq
  have hsettled := hgreeted.settled
  unfold VconnRun.Settled at hsettled
  refine ⟨fun hstate => ?_, fun hle => ⟨fun hstate => ?_, fun hstate => ?_⟩, fun hle => ?_⟩
  · obtain ⟨-, -, hversion, hle⟩ := hgreeted.connected hstate
    exact ⟨hversion, hmin ▸ hle⟩
  · rw [hstate] at hsettled
    have hlow := hsettled.2.2.2
    rw [hmin] at hlow
    omega
  · rw [hstate] at hsettled
    refine hsettled.resolve_right fun hlow => ?_
    rw [hmin] at hlow
    omega
  · have hincoming := (hmeeting.linked d).incoming
    have hcallers := map_sentByCallers (hmeeting.greeted d.other) hle
    rw [map_filter_passes, hcallers, ← hincoming, hgreeted.returned, map_filter_passes,
      List.map_drop]
    refine ⟨((List.prefix_append _ _).drop 1).filter _, fun hnil => ?_⟩
    rw [hnil, List.append_nil]

/-- Ends that have got connected over two queues. -/
theorem agrees_queues :
    ∃ s, Transition.Reachable (Step queueTransport)
        (init (fun _ => eAgain) (fun _ => 1) fun _ => []) s ∧
      ∀ d, (s d).state = .connected ∧ (s d).version = 1 := by
  have hmeeting : (init (fun _ => eAgain) (fun _ => 1) fun _ => []).Meeting queueTransport
      fun _ => 1 := meeting_init trivial (fun _ => rfl) fun _ _ hne => absurd rfl hne
  obtain ⟨s₁, s₂, s₃, h₁, h₂, h₃, hconnected⟩ := hmeeting.connects fifo_queueTransport
    prompt_queueTransport .active fun _ => ⟨Int.one_nonneg, le_refl (1 : ℤ)⟩
  have hreachable := ((Transition.Reachable.step .refl h₁).step h₂).step h₃
  refine ⟨s₃, hreachable, fun d => ⟨hconnected d, ?_⟩⟩
  exact ((ends_agree fifo_queueTransport trivial (fun _ => rfl) (fun _ _ hne => absurd rfl hne)
    hreachable d).1 (hconnected d)).1

/-- **Progress.** In whatever state a run has left the ends, over a transport that may refuse calls
and fail: as long as no end is disconnected, and as soon as the transport is prompt, three calls of
`vconn_connect` connect both. -/
theorem connects_of_reachable {T' : VconnTransport σ} (hT : T.Fifo) (hT' : T'.Fifo)
    (hprompt : T'.Prompt) (hintact : T.Intact t) (hempty : ∀ d, T.inFlight d t = [])
    (hstatus : ∀ d, connectStatus d ≠ 0 → connectStatus d ≠ eAgain → T.Fails (connectStatus d))
    (hmin : ∀ d, 0 ≤ minVersion d ∧ minVersion d ≤ ofpVersion.toNat)
    (h : Transition.Reachable (Step T) (init connectStatus minVersion t) s)
    (hresumes : Resumes T T' s) (d : VconnEnd) :
    ∃ s₁ s₂ s₃, Step T' s (d, .connect) s₁ ∧ Step T' s₁ (d.other, .connect) s₂ ∧
      Step T' s₂ (d, .connect) s₃ ∧ ∀ d', (s₃ d').state = .connected :=
  ((meeting_of_reachable hT hintact hempty hstatus h).resume hresumes).connects hT' hprompt d hmin

/-- Queues that take messages and hand out none. -/
def withholdingTransport : VconnTransport (VconnEnd → List OfpMessage) :=
  { queueTransport with
    cls := fun d => { queueTransport.cls d with
      recv := fun t => (.error ⟨eAgain, eAgain_ne_zero⟩, t) } }

theorem fifo_withholdingTransport : withholdingTransport.Fifo :=
  { fifo_queueTransport with
    recv_ok := fun d t t' msg _ h => by cases (Prod.mk.inj h).1
    recv_error := fun d t t' errno _ h => by
      obtain ⟨hmsg, rfl⟩ := Prod.mk.inj h
      obtain rfl := Except.error.inj hmsg
      exact ⟨⟨trivial, fun _ => rfl⟩, fun hne => absurd rfl hne⟩ }

/-- Ends whose HELLOs have been withheld, and then are handed out. -/
theorem connects_of_reachable_withheld :
    ∃ s s₁ s₂ s₃, Transition.Reachable (Step withholdingTransport)
        (init (fun _ => eAgain) (fun _ => 1) fun _ => []) s ∧
      (∀ d, (s d).state = .recvHello) ∧ Step queueTransport s (.active, .connect) s₁ ∧
      Step queueTransport s₁ (.passive, .connect) s₂ ∧
      Step queueTransport s₂ (.active, .connect) s₃ ∧ ∀ d', (s₃ d').state = .connected := by
  have hrun : ∃ s, Transition.Reachable (Step withholdingTransport)
      (init (fun _ => eAgain) (fun _ => 1) fun _ => []) s ∧ ∀ d, (s d).state = .recvHello := by
    refine ⟨_, (Transition.Reachable.step .refl (e := (.active, .connect))
      ⟨fun _ h => (by cases h), _, ⟨1, _, rfl⟩, rfl⟩).step (e := (.passive, .connect))
      ⟨fun _ h => (by cases h), _, ⟨1, _, rfl⟩, rfl⟩, fun d => ?_⟩
    cases d <;> rfl
  obtain ⟨s, hreach, hstate⟩ := hrun
  obtain ⟨s₁, s₂, s₃, hconnects⟩ := connects_of_reachable fifo_withholdingTransport
    fifo_queueTransport prompt_queueTransport trivial (fun _ => rfl)
    (fun _ _ hne => absurd rfl hne) (fun _ => ⟨Int.one_nonneg, le_refl (1 : ℤ)⟩) hreach
    ⟨fun _ => trivial, fun _ _ => rfl, fun d hd => by rw [hstate d] at hd; cases hd⟩ .active
  exact ⟨s, s₁, s₂, s₃, hreach, hstate, hconnects⟩

end VconnPair

end OfAgent
