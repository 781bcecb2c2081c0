import OfAgent.Packet.Boundaries

/-!
# The ports of an action list

Which ports the execution of a list sends the packet to.

* `actionPort`: the port that an action names. `outputsTo_of_virtual`: a virtual port is named by an
  output, because queues are those of physical ports.
* `executeList_congr`: the execution of a list depends on the output function only at the ports that
  its actions name.
-/

namespace OfAgent

/-- The port that an action sends packets to. -/
def actionPort (a : List Byte) : Option (BitVec 16) :=
  if actionType a = ofpatOutput ∨ actionType a = ofpatEnqueue then some (be16 a 4) else none

/-- An accepted action that names a virtual port, other than the input port, is an output to it. -/
theorem AcceptedAction.outputsTo_of_virtual {key : SwFlowKey} {a : List Byte} {port : BitVec 16}
    (h : AcceptedAction key a) (hmax : ofppMax < port) (hin : port ≠ ofppInPort)
    (hport : actionPort a = some port) : outputsTo port a = true := by
  unfold actionPort at hport
  split at hport
  next htype =>
    have hport := Option.some.inj hport
    rcases htype with hout | henq
    · simp [outputsTo, hout, hport]
    · -- the check of a queue refuses the port
      exfalso
      obtain ⟨act, hact, -, -, hval⟩ := h.known
      rw [henq] at hact
      cases hact
      have hval := hval _ rfl
      rw [validateQueue, hport] at hval
      simp only [hmax, decide_true, Bool.true_and, bne_iff_ne, ne_eq, hin, not_false_eq_true,
        if_true] at hval
      exact absurd hval (by decide)
  next => cases hport

section Congr

variable {σ : Type*} {out out' : OutputCall → σ → Except ForwardFault σ} {P : BitVec 16 → Prop}

/-- The port that is left over from an action is one that it names. -/
theorem executeAction_prevPort {a : List Byte} {s s' : ExecState σ}
    (h : executeAction a s = .ok s') :
    s'.prevPort = s.prevPort ∨ ∃ port, actionPort a = some port ∧ s'.prevPort = some port := by
  unfold executeAction executeOther at h
  unfold actionPort
  repeat' split at h
  all_goals
    cases h
    try exact .inl rfl
  next hout _ => exact .inr ⟨_, if_pos (.inl hout), rfl⟩
  next henq _ => exact .inr ⟨_, if_pos (.inr henq), rfl⟩

/-- A turn of the loop begins without a port, so that the one it leaves over is its action's. -/
theorem executeTurn_prevPort {inPort port : BitVec 16} {k : ℕ} {a : List Byte}
    {s s' : ExecState σ} (h : executeTurn out inPort k a s = .ok s')
    (hport : s'.prevPort = some port) : actionPort a = some port := by
  unfold executeTurn at h
  split at h
  next => cases h
  next s₀ hs₀ =>
    have hnone : s₀.prevPort = none := by
      unfold flushOutput at hs₀
      repeat' split at hs₀
      · exact Except.ok.inj hs₀ ▸ ‹_›
      · cases hs₀
      · exact Except.ok.inj hs₀ ▸ rfl
    rcases executeAction_prevPort h with heq | ⟨port', ha, heq⟩
    · rw [heq, hnone] at hport
      cases hport
    · rw [ha, ← hport, heq]

/-- The output that is left over depends on the output function only at its port. -/
theorem flushOutput_congr (hout : ∀ call w, P call.outPort → out call w = out' call w)
    (inPort : BitVec 16) {s : ExecState σ} (hs : ∀ port, s.prevPort = some port → P port) :
    flushOutput out inPort s = flushOutput out' inPort s := by
  unfold flushOutput
  cases hp : s.prevPort with
  | none => rfl
  | some port => simp only [hout ⟨_, _, _, port, _⟩ _ (hs port hp)]

/-- The last output depends on the output function only at its port. -/
theorem finishActions_congr (hout : ∀ call w, P call.outPort → out call w = out' call w)
    (inPort : BitVec 16) {s : ExecState σ} (hs : ∀ port, s.prevPort = some port → P port) :
    finishActions out inPort s = finishActions out' inPort s := by
  unfold finishActions
  cases hp : s.prevPort with
  | none => rfl
  | some port => exact hout ⟨_, _, _, port, _⟩ _ (hs port hp)

/-- The execution of a list depends on the output function only at the ports that it names. -/
theorem executeList_congr (hout : ∀ call w, P call.outPort → out call w = out' call w)
    {as : List (List Byte)} (has : ∀ a ∈ as, ∀ port, actionPort a = some port → P port)
    (buffer : Ofpbuf) (key : SwFlowKey) (w : σ) :
    executeList out buffer key as w = executeList out' buffer key as w := by
  -- the port that is left over is always one of the list
  have hfold : ∀ s : ExecState σ, (∀ port, s.prevPort = some port → P port) →
      as.foldlM (fun s a => executeTurn out key.flow.inPort 0 a s) s =
          as.foldlM (fun s a => executeTurn out' key.flow.inPort 0 a s) s ∧
        ∀ s', as.foldlM (fun s a => executeTurn out key.flow.inPort 0 a s) s = .ok s' →
          ∀ port, s'.prevPort = some port → P port := by
    induction as with
    | nil =>
      intro s hs
      exact ⟨rfl, fun s' h => Except.ok.inj h ▸ hs⟩
    | cons a as ih =>
      intro s hs
      have hturn : executeTurn out key.flow.inPort 0 a s =
          executeTurn out' key.flow.inPort 0 a s := by
        rw [executeTurn, executeTurn, flushOutput_congr hout _ hs]
      simp only [List.foldlM_cons, ← hturn]
      cases hok : executeTurn out key.flow.inPort 0 a s with
      | error e => exact ⟨rfl, fun s' h => by cases h⟩
      | ok s₁ =>
        refine ih (fun x hx => has x (List.mem_cons_of_mem _ hx)) s₁ fun port hport => ?_
        exact has a List.mem_cons_self port (executeTurn_prevPort hok hport)
  obtain ⟨heq, hports⟩ := hfold (.init buffer key w) fun port h => by cases h
  unfold executeList
  rw [← heq]
  cases hok : as.foldlM (fun s a => executeTurn out key.flow.inPort 0 a s)
      (.init buffer key w) with
  | error e => rfl
  | ok s => exact finishActions_congr hout _ (hports s hok)

end Congr

end OfAgent
