import Mathlib.Data.List.Chain
import OfAgent.Conn.Rconn

/-!
# Emergency flows

`emerg-flow.c` of the secure channel: a periodic callback tells the datapath, by an option of a
vendor message, that the connection to the controller has been lost or made again.

* `EmergFlowContext`: the state of the module; `EmergFlowRun`: both connections and the options
  beside it. The queue of the local connection is shown as far as it holds options.
* `EmergFlowRun.rconnSend`, `EmergFlowRun.emergFlowPeriodicCb`.
* `EmergFlowRun.Kept`: what a callback records can be sent, and what is sent is not lost.
* `EmergFlowRun.options_alternate`: the callback records the new state before it sends the option,
  and does not take it back when that fails, so the options alternate and agree with the state of
  the connection in the runs in which nothing is lost.
-/

namespace OfAgent

/-! ### State -/

/-- The options `PRIVATEOPT_EMERG_FLOW_*` of a vendor message. -/
inductive EmergFlowOption
  | protection
  | restoration
  deriving DecidableEq, Repr

/-- `struct emerg_flow_context`, without the connections. -/
structure EmergFlowContext where
  /-- `prev_state`. -/
  prevState : EmergFlowOption
  /-- `state`. -/
  state : EmergFlowOption
  deriving DecidableEq, Repr

/-- The module with its connections and the options it has sent. -/
structure EmergFlowRun extends EmergFlowContext where
  /-- `rconn_is_connected(context->remote_rconn)`. -/
  remoteUp : Bool
  /-- `rconn_is_connected(context->local_rconn)`. -/
  localUp : Bool
  /-- The options in the queue of the local connection. -/
  txq : List EmergFlowOption
  /-- The options that have been handed to the local connection while it was up. -/
  handed : List EmergFlowOption
  /-- Those that have been delivered to the datapath. -/
  delivered : List EmergFlowOption
  /-- A callback has seen the remote connection up. -/
  beenUp : Bool
  deriving DecidableEq, Repr

namespace EmergFlowRun

/-! ### Functions -/

/-- `rconn_send` of an option, with what `try_send` finds if the queue is empty. -/
def rconnSend (option : EmergFlowOption) (result : Outcome) (w : EmergFlowRun) :
    ℤ × EmergFlowRun :=
  if w.localUp then
    let w := { w with handed := w.handed ++ [option], txq := w.txq ++ [option] }
    match w.txq, result with
    | [option], .ok => (0, { w with txq := [], delivered := w.delivered ++ [option] })
    -- the connection is lost, with its queue
    | [_], .fail _ => (0, { w with localUp := false, txq := [] })
    -- another packet may be in front of it as well
    | _, _ => (0, w)
  else (RconnRun.eNotConn, w)

/-- `emerg_flow_periodic_cb`. An error of `rconn_send` is only logged. -/
def emergFlowPeriodicCb (result : Outcome) (w : EmergFlowRun) : EmergFlowRun :=
  let w := { w with beenUp := w.beenUp || w.remoteUp }
  if w.remoteUp then
    if w.state = .protection then
      (rconnSend .restoration result { w with prevState := w.state, state := .restoration }).2
    else w
  else if w.state = .restoration then
    (rconnSend .protection result { w with prevState := w.state, state := .protection }).2
  else w

/-- `emerg_flow_start`. -/
def start : EmergFlowRun where
  prevState := .protection
  state := .protection
  remoteUp := false
  localUp := false
  txq := []
  handed := []
  delivered := []
  beenUp := false

end EmergFlowRun

/-! ### Runs -/

/-- What can happen. -/
inductive EmergFlowEvent
  /-- The remote connection goes up or down. -/
  | remote (up : Bool)
  /-- The local connection is made. -/
  | localConnect
  /-- It is lost, with what is in its queue. -/
  | localDisconnect
  /-- It transmits the first option of its queue. -/
  | transmit
  /-- The periodic callback runs. -/
  | periodic (result : Outcome)

namespace EmergFlowRun

/-- The module behind an event. -/
def next (w : EmergFlowRun) : EmergFlowEvent → EmergFlowRun
  | .remote up => { w with remoteUp := up }
  | .localConnect => { w with localUp := true }
  | .localDisconnect => { w with localUp := false, txq := [] }
  | .transmit =>
      match w.txq with
      | [] => w
      | option :: rest => { w with txq := rest, delivered := w.delivered ++ [option] }
  | .periodic result => emergFlowPeriodicCb result w

/-- The step relation. -/
def Step (w : EmergFlowRun) (e : EmergFlowEvent) (w' : EmergFlowRun) : Prop := w' = w.next e

/-- The option for a state of the remote connection. -/
def optionFor : Bool → EmergFlowOption
  | true => .restoration
  | false => .protection

/-- The callback changes the state. -/
def Changes (w : EmergFlowRun) : Prop := w.state ≠ optionFor w.remoteUp

instance (w : EmergFlowRun) : Decidable w.Changes := inferInstanceAs (Decidable (¬ _ = _))

/-- When the callback changes the state, the local connection is up and does not fail, and it is not
lost with an option in its queue. -/
def Kept (w : EmergFlowRun) : EmergFlowEvent → Prop
  | .periodic result =>
      w.Changes → w.localUp = true ∧ (w.txq = [] → ∀ errno, result ≠ .fail errno)
  | .localDisconnect => w.txq = []
  | .remote _ | .localConnect | .transmit => True

variable {w w' : EmergFlowRun}

/-- The options that have been handed over alternate, they have been delivered or are in the queue,
and the last one is the state. -/
structure Synchronized (w : EmergFlowRun) : Prop where
  /-- No option is lost. -/
  handed_eq : w.handed = w.delivered ++ w.txq
  /-- No option is followed by itself. -/
  alternate : w.handed.IsChain (· ≠ ·)
  /-- The last one is the state. -/
  state_eq : w.state = w.handed.getLast?.getD .protection
  /-- There is one since the remote connection has been up. -/
  beenUp : w.beenUp = true → w.handed ≠ []

theorem isChain_concat {options : List EmergFlowOption} {option : EmergFlowOption}
    (h : options.IsChain (· ≠ ·)) (hne : ∀ last ∈ options.getLast?, last ≠ option) :
    (options ++ [option]).IsChain (· ≠ ·) :=
  h.append (List.isChain_singleton option) fun x hx y hy => by
    cases hy
    exact hne x hx

/-- What sending an option leaves, if the connection is up and does not fail. -/
theorem rconnSend_spec (option : EmergFlowOption) (result : Outcome) (hup : w.localUp = true)
    (hfail : w.txq = [] → ∀ errno, result ≠ .fail errno) :
    ∃ txq delivered, (rconnSend option result w).2 =
        { w with handed := w.handed ++ [option], txq := txq, delivered := delivered } ∧
      delivered ++ txq = w.delivered ++ w.txq ++ [option] := by
  unfold rconnSend
  rw [if_pos hup]
  cases htxq : w.txq with
  | nil =>
    cases result with
    | ok => exact ⟨[], w.delivered ++ [option], rfl, by simp⟩
    | again => exact ⟨[option], w.delivered, rfl, by simp⟩
    | fail errno => exact absurd rfl (hfail htxq errno)
  | cons first rest =>
    refine ⟨first :: rest ++ [option], w.delivered, ?_, by simp⟩
    cases rest <;> rfl

/-- The state changes, and the option for it is handed over. -/
theorem Synchronized.change (h : w.Synchronized) {option : EmergFlowOption} {result : Outcome}
    {beenUp : Bool} (hne : w.state ≠ option) (hup : w.localUp = true)
    (hfail : w.txq = [] → ∀ errno, result ≠ .fail errno) :
    (rconnSend option result
      { w with beenUp := beenUp, prevState := w.state, state := option }).2.Synchronized := by
  obtain ⟨txq, delivered, hsend, hqueue⟩ := rconnSend_spec
    (w := { w with beenUp := beenUp, prevState := w.state, state := option }) option result hup
      hfail
  rw [hsend]
  refine ⟨?_, ?_, ?_, ?_⟩
  · show w.handed ++ [option] = delivered ++ txq
    rw [hqueue, h.handed_eq]
  · refine isChain_concat h.alternate fun last hlast heq => hne ?_
    rw [h.state_eq, hlast, Option.getD_some, heq]
  · show option = (w.handed ++ [option]).getLast?.getD .protection
    rw [List.getLast?_concat, Option.getD_some]
  · intro _
    exact List.concat_ne_nil option w.handed

/-- What the callback does: nothing, or it records the state of the remote connection and sends
it. -/
theorem emergFlowPeriodicCb_eq (result : Outcome) (w : EmergFlowRun) :
    emergFlowPeriodicCb result w =
      if w.Changes then
        (rconnSend (optionFor w.remoteUp) result { w with
          beenUp := w.beenUp || w.remoteUp
          prevState := w.state
          state := optionFor w.remoteUp }).2
      else { w with beenUp := w.beenUp || w.remoteUp } := by
  obtain ⟨⟨prevState, state⟩, remoteUp, localUp, txq, handed, delivered, beenUp⟩ := w
  cases remoteUp <;> cases state <;> rfl

/-- A callback that can send what it records keeps this. -/
theorem Synchronized.emergFlowPeriodicCb (h : w.Synchronized) {result : Outcome}
    (hkept : w.Kept (.periodic result)) :
    (EmergFlowRun.emergFlowPeriodicCb result w).Synchronized := by
  rw [emergFlowPeriodicCb_eq]
  split
  next hchanges => exact h.change hchanges (hkept hchanges).1 (hkept hchanges).2
  next hsame =>
    refine ⟨h.handed_eq, h.alternate, h.state_eq, ?_⟩
    intro hup hnil
    have hstate : w.state = .protection := by
      rw [h.state_eq, hnil]
      rfl
    obtain hbefore | hnow := Bool.or_eq_true_iff.1 hup
    · exact h.beenUp hbefore hnil
    · unfold Changes at hsame
      rw [hnow, hstate] at hsame
      exact hsame (by decide)

/-- Behind it the state is that of the remote connection, which stays as it is. -/
theorem state_emergFlowPeriodicCb (result : Outcome) (w : EmergFlowRun)
    (hkept : w.Kept (.periodic result)) :
    (EmergFlowRun.emergFlowPeriodicCb result w).state = optionFor w.remoteUp ∧
      (EmergFlowRun.emergFlowPeriodicCb result w).beenUp = (w.beenUp || w.remoteUp) := by
  rw [emergFlowPeriodicCb_eq]
  split
  next hchanges =>
    obtain ⟨txq, delivered, hsend, -⟩ := rconnSend_spec
      (w := { w with
        beenUp := w.beenUp || w.remoteUp, prevState := w.state, state := optionFor w.remoteUp })
      (optionFor w.remoteUp) result (hkept hchanges).1 (hkept hchanges).2
    rw [hsend]
    exact ⟨rfl, rfl⟩
  next hsame => exact ⟨not_not.1 hsame, rfl⟩

/-- Every event keeps it. -/
theorem Synchronized.step (h : w.Synchronized) {e : EmergFlowEvent} (hkept : w.Kept e) :
    (w.next e).Synchronized := by
  cases e with
  | remote up => exact ⟨h.1, h.2, h.3, h.4⟩
  | localConnect => exact ⟨h.1, h.2, h.3, h.4⟩
  | localDisconnect =>
    refine ⟨?_, h.2, h.3, h.4⟩
    have hempty : w.txq = [] := hkept
    show w.handed = w.delivered ++ []
    rw [h.handed_eq, hempty]
  | transmit =>
    unfold next
    cases htxq : w.txq with
    | nil => exact h
    | cons option rest =>
      refine ⟨?_, h.2, h.3, h.4⟩
      show w.handed = w.delivered ++ [option] ++ rest
      rw [h.handed_eq, htxq, List.append_assoc, List.singleton_append]
  | periodic result => exact h.emergFlowPeriodicCb hkept

/-- It holds in every run in which nothing is lost. -/
theorem synchronized_of_reachable (h : Transition.ReachableVia Step Kept start w) :
    w.Synchronized := by
  have hstart : start.Synchronized := ⟨rfl, .nil, rfl, fun hup => by cases hup⟩
  refine h.invariant Synchronized hstart fun w e w' hw hkept hstep => ?_
  rw [hstep]
  exact hw.step hkept

/-- The last option that has been handed over agrees with the remote connection. -/
def Agrees (w : EmergFlowRun) : Prop :=
  (w.remoteUp = true → w.handed.getLast? = some .restoration) ∧
    (w.remoteUp = false → w.beenUp = true → w.handed.getLast? = some .protection)

instance (w : EmergFlowRun) : Decidable w.Agrees := inferInstanceAs (Decidable (_ ∧ _))

/-- The remote connection does not change while the callback runs. -/
theorem remoteUp_emergFlowPeriodicCb (result : Outcome) (w : EmergFlowRun) :
    (EmergFlowRun.emergFlowPeriodicCb result w).remoteUp = w.remoteUp := by
  rw [emergFlowPeriodicCb_eq]
  split
  next =>
    unfold rconnSend
    dsimp only
    split
    · split <;> rfl
    · rfl
  next => rfl

/-- In the runs in which no option is lost, the options that have been delivered alternate, and
behind a callback the last option that has been handed over agrees with the remote connection. -/
theorem options_alternate (h : Transition.ReachableVia Step Kept start w) :
    w.delivered.IsChain (· ≠ ·) ∧
      ∀ result, w.Kept (.periodic result) → (w.next (.periodic result)).localUp = true →
        (w.next (.periodic result)).Agrees := by
  have hsync := synchronized_of_reachable h
  refine ⟨?_, fun result hkept _ => ?_⟩
  · have halternate := hsync.alternate
    rw [hsync.handed_eq] at halternate
    exact halternate.left_of_append
  · have hafter := hsync.step hkept
    obtain ⟨hstate, hbeen⟩ := state_emergFlowPeriodicCb result w hkept
    have hremote := remoteUp_emergFlowPeriodicCb result w
    have hlast : ∀ option, (w.next (.periodic result)).handed ≠ [] →
        (w.next (.periodic result)).state = option →
        (w.next (.periodic result)).handed.getLast? = some option := by
      intro option hne hoption
      rw [hafter.state_eq] at hoption
      rw [List.getLast?_eq_some_getLast hne, Option.getD_some] at hoption
      rw [List.getLast?_eq_some_getLast hne, hoption]
    refine ⟨fun hup => ?_, fun hdown hup => ?_⟩
    · have hw : w.remoteUp = true := hremote.symm.trans hup
      refine hlast _ (hafter.beenUp ?_) (hstate.trans (by rw [hw]; rfl))
      exact hbeen.trans (by rw [hw, Bool.or_true])
    · have hw : w.remoteUp = false := hremote.symm.trans hdown
      exact hlast _ (hafter.beenUp hup) (hstate.trans (by rw [hw]; rfl))

/-- The controller is reached, and then lost while the datapath is connected: it is told of both. -/
theorem options_alternate_lost : ∃ w : EmergFlowRun,
    Transition.Reachable Step start w ∧ w.delivered = [.restoration] ∧
      (w.next (.periodic .ok)).delivered = [.restoration, .protection] ∧
      w.delivered.IsChain (· ≠ ·) ∧ (w.next (.periodic .ok)).Agrees := by
  have hkept : ∀ w : EmergFlowRun, w.localUp = true → w.Kept (.periodic .ok) :=
    fun w hup _ => ⟨hup, fun _ errno h => by cases h⟩
  have hremote : Transition.ReachableVia Step Kept start (start.next (.remote true)) :=
    .tail (e := EmergFlowEvent.remote true) .refl trivial rfl
  have hlocal := hremote.tail (e := EmergFlowEvent.localConnect) trivial rfl
  have htold := hlocal.tail (e := EmergFlowEvent.periodic .ok) (hkept _ rfl) rfl
  have hlost := htold.tail (e := EmergFlowEvent.remote false) trivial rfl
  obtain ⟨halternate, hagrees⟩ := options_alternate hlost
  exact ⟨_, hlost.reachable, rfl, rfl, halternate, hagrees .ok (hkept _ rfl) rfl⟩

/-- The datapath is not connected when the controller is lost: it is not told when it connects
again, and it is told a second time that the controller has been reached. -/
theorem not_options_alternate :
    (¬ ∀ w, Transition.Reachable Step start w → w.delivered.IsChain (· ≠ ·)) ∧
      ¬ ∀ w, Transition.Reachable Step start w → ∀ result,
        (w.next (.periodic result)).localUp = true → (w.next (.periodic result)).Agrees := by
  have hmissed : Transition.Reachable Step start _ :=
    Transition.reachable_of_foldl [.remote true, .localConnect, .periodic .ok, .localDisconnect,
      .remote false, .periodic .ok, .localConnect] start
  constructor
  · intro hall
    have htwice := (hmissed.step (e := .remote true) rfl).step (e := .periodic .ok) rfl
    exact absurd (hall _ htwice) (by decide)
  · intro hall
    exact absurd (hall _ hmissed .ok rfl) (by decide)

end EmergFlowRun

end OfAgent
