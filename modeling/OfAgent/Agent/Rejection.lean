import OfAgent.Agent.System

/-!
# Rejected flow modifications

A flow modification that the datapath answers with an error, or does not know, is meant to leave
the agent alone. The agent handles the message before the datapath checks it, so an addition that
is rejected has already been recorded and its actions have been applied.

* `Rejects`: the datapath answers with an error or does not know the command.
* `agent_unchanged_iff`: the agent stays as it is exactly when the message is no addition, or the
  agent's table is full.
-/

namespace OfAgent

/-- The datapath rejects the message: it answers with an error, or does not know the command. -/
def Datapath.Rejects (now : BitVec 64) (dp : Datapath) (ofm : OfpFlowMod) : Prop :=
  (∃ e size, DpOutput.errorMsg e size ∈ (dp.recvFlowTables now ofm).2.1) ∨
    ofm.knownCommand = none

variable {σ : Type*} {platform : Option (DevProperties σ)}

/-- Processing the message ends and leaves the agent as it was. -/
def LeavesAgent (platform : Option (DevProperties σ)) (now : BitVec 64) (s : System σ)
    (ofm : OfpFlowMod) : Prop :=
  ∃ s' outputs code, recvFlow platform now s ofm = .ok (s', outputs, code) ∧ s'.agent = s.agent

/-- Only the handler matters. -/
theorem leavesAgent_iff {now : BitVec 64} {s : System σ} {ofm : OfpFlowMod} :
    LeavesAgent platform now s ofm ↔ handleFlowMod platform s.agent ofm = .ok s.agent := by
  unfold LeavesAgent recvFlow
  cases handleFlowMod platform s.agent ofm with
  | error e => simp
  | ok agent =>
    simp only [Except.ok.injEq]
    constructor
    · rintro ⟨s', outputs, code, heq, hagent⟩
      have hs' : System.mk _ agent = s' := congrArg Prod.fst heq
      rw [← hagent, ← hs']
    · rintro rfl
      exact ⟨_, _, _, rfl, rfl⟩

/-- A deletion is not rejected. -/
theorem not_rejects_of_delete {now : BitVec 64} {dp : Datapath} {ofm : OfpFlowMod}
    (h : ofm.knownCommand = some .delete) : ¬ dp.Rejects now ofm := by
  rintro (⟨e, size, hmem⟩ | hnone)
  · simp only [Datapath.recvFlowTables, h, Datapath.deleteFlow, List.mem_filterMap] at hmem
    obtain ⟨flow, -, hflow⟩ := hmem
    unfold dpSendFlowEnd at hflow
    simp only at hflow
    split at hflow
    · cases hflow
    · split at hflow <;> cases hflow
  · rw [h] at hnone
    cases hnone

/-- A message that the datapath rejects leaves the agent as it was exactly when the hardware is
not recognized, the message is no addition, or the agent's table is full. -/
theorem agent_unchanged_iff {now : BitVec 64} {s : System σ} {ofm : OfpFlowMod}
    (hrej : s.dp.Rejects now ofm) : LeavesAgent platform now s ofm ↔
      platform = none ∨ ofm.knownCommand ≠ some .add ∨
        maxNumberOfFlows ≤ s.agent.insertedFlows.length := by
  rw [leavesAgent_iff]
  cases platform with
  | none => simp [handleFlowMod]
  | some dev =>
    by_cases hfull : maxNumberOfFlows ≤ s.agent.insertedFlows.length
    · simp [handleFlowMod_of_full hfull, hfull]
    by_cases hadd : ofm.knownCommand = some .add
    · simp only [hadd, hfull, reduceCtorEq, ne_eq, not_true_eq_false, or_self, iff_false]
      intro h
      -- an addition appends a record
      obtain ⟨-, hl | ⟨hl, -⟩⟩ | ⟨-, -, device, applied, -, heq⟩ | ⟨-, hdel, -⟩ :=
        handleFlowMod_cases h
      · exact hfull hl
      · exact hl hadd
      · have := congrArg (fun a : Agent σ => a.insertedFlows.length) heq
        simp at this
      · rw [hadd] at hdel
        cases hdel
    · have hdel : ofm.knownCommand ≠ some .delete := fun hd => not_rejects_of_delete hd hrej
      simp only [hadd, ne_eq, not_false_eq_true, true_or, or_true, iff_true]
      rw [handleFlowMod_of_not_full hfull]
      split
      next h => exact absurd h hadd
      next h => exact absurd h hdel
      next => rfl

/-- The system with the Zyxel device when the program starts. -/
def newSystem : System ZyxelState := .init .source 0 .init

/-- A message with an unknown command leaves the agent as it was. -/
theorem agent_unchanged_unknown :
    LeavesAgent zyxelPlatform 0 newSystem (outputFlowMod 7 (wanMatch 1 10 1) 2) :=
  (agent_unchanged_iff (.inr (by decide))).2 (.inr (.inl (by decide)))

/-- An addition with an output to `OFPP_NONE` is rejected by `validate_actions`, when its record has
been filled and its service set up. -/
theorem not_agent_unchanged : ¬ ∀ (sizes : TableSizes) (s : System ZyxelState),
    System.Reachable zyxelPlatform sizes .init s → ∀ (now : BitVec 64) (ofm : OfpFlowMod),
      s.dp.Rejects now ofm → LeavesAgent zyxelPlatform now s ofm := by
  intro hall
  have h := hall .source newSystem ⟨0, .refl⟩ 0 (outputFlowMod 0 (wanMatch 1 10 1) ofppNone)
    (.inl ⟨.badAction ofpbacBadOutPort, 80, by decide +kernel⟩)
  rw [leavesAgent_iff] at h
  exact absurd h (by decide +kernel)

end OfAgent
