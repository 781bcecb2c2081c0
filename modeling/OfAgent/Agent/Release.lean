import OfAgent.Agent.System
import OfAgent.Agent.Walk

/-!
# The release of actions

A deletion releases the actions of every record that it unapplies and sets the match of the record
to zero, so that no later deletion selects the record. A deletion whose compared fields are all
zero selects it nevertheless.

* `deleteLoop_ok`: what a deletion has done when it has not met a fault.
* `deleteLoop_useAfterRelease_iff`: when a deletion comes upon a record without actions.
* `Agent.Sound`: what holds of the records of every reachable agent.
* `releasedOnce_iff`: a run unapplies and releases each record at most once, and never reads
  actions after their release, exactly when no message of the run selects a released record.
-/

namespace OfAgent

section DeleteLoop

variable {σ : Type*} {dev : DevProperties σ} {ofpMatch : OfpMatch}

/-- A record after a deletion. -/
def InsertedFlow.deleted (ofpMatch : OfpMatch) (infl : InsertedFlow) : InsertedFlow :=
  if myFlowFieldsMatch infl.ofpMatch ofpMatch then infl.release else infl

/-- The indices, from `i` on, of the records that a deletion selects. -/
def selectedIndices (ofpMatch : OfpMatch) : ℕ → List InsertedFlow → List ℕ
  | _, [] => []
  | i, infl :: infls =>
      if myFlowFieldsMatch infl.ofpMatch ofpMatch then i :: selectedIndices ofpMatch (i + 1) infls
      else selectedIndices ofpMatch (i + 1) infls

/-- The indices are those of the selected records. -/
theorem mem_selectedIndices {i j : ℕ} {infls : List InsertedFlow} :
    j ∈ selectedIndices ofpMatch i infls ↔
      ∃ k infl, j = i + k ∧ infls[k]? = some infl ∧
        myFlowFieldsMatch infl.ofpMatch ofpMatch = true := by
  induction infls generalizing i with
  | nil => simp [selectedIndices]
  | cons infl infls ih =>
    -- the indices of the records behind the first one
    have htail : j ∈ selectedIndices ofpMatch (i + 1) infls ↔
        ∃ k infl', j = i + (k + 1) ∧ (infl :: infls)[k + 1]? = some infl' ∧
          myFlowFieldsMatch infl'.ofpMatch ofpMatch = true := by
      rw [ih]
      simp only [List.getElem?_cons_succ, Nat.add_right_comm i 1, Nat.add_assoc]
    rw [selectedIndices]
    constructor
    · intro h
      split at h
      next hm =>
        rcases List.mem_cons.1 h with rfl | h
        · exact ⟨0, infl, rfl, rfl, hm⟩
        · obtain ⟨k, infl', hk⟩ := htail.1 h
          exact ⟨k + 1, infl', hk⟩
      next hm =>
        obtain ⟨k, infl', hk⟩ := htail.1 h
        exact ⟨k + 1, infl', hk⟩
    · rintro ⟨k, infl', hj, hget, hm⟩
      cases k with
      | zero =>
        obtain rfl : infl = infl' := Option.some.inj hget
        rw [if_pos hm, hj]
        exact List.mem_cons_self
      | succ k =>
        have hmem := htail.2 ⟨k, infl', hj, hget, hm⟩
        split
        · exact List.mem_cons_of_mem _ hmem
        · exact hmem

/-- Each index comes once. -/
theorem nodup_selectedIndices (i : ℕ) (infls : List InsertedFlow) :
    (selectedIndices ofpMatch i infls).Nodup := by
  induction infls generalizing i with
  | nil => exact List.nodup_nil
  | cons infl infls ih =>
    rw [selectedIndices]
    split
    next =>
      refine List.nodup_cons.2 ⟨fun hmem => ?_, ih (i + 1)⟩
      obtain ⟨k, -, hk, -⟩ := mem_selectedIndices.1 hmem
      omega
    next => exact ih (i + 1)

/-- What a deletion has done when it has not met a fault: the selected records, none of which had
been released, have been unapplied in order. -/
theorem deleteLoop_ok {i : ℕ} {infls infls' : List InsertedFlow} {device device' : σ}
    {unapplied unapplied' : List ℕ}
    (h : deleteLoop dev ofpMatch i infls device unapplied = .ok (infls', device', unapplied')) :
    infls' = infls.map (InsertedFlow.deleted ofpMatch) ∧
      unapplied' = unapplied ++ selectedIndices ofpMatch i infls ∧
      (∀ infl ∈ infls, myFlowFieldsMatch infl.ofpMatch ofpMatch = true →
        infl.released = false) ∧
      (infls.filter fun infl => myFlowFieldsMatch infl.ofpMatch ofpMatch).foldlM
        (fun device infl => unapplyActions dev infl.actions.length infl device) device =
          .ok device' := by
  induction infls generalizing i device unapplied infls' with
  | nil =>
    cases h
    exact ⟨rfl, by simp [selectedIndices], by simp, rfl⟩
  | cons infl infls ih =>
    rw [deleteLoop] at h
    -- the record is selected, or the loop goes past it
    by_cases hm : myFlowFieldsMatch infl.ofpMatch ofpMatch = true
    · rw [if_pos hm] at h
      by_cases hrel : infl.released = true
      · rw [if_pos hrel] at h
        cases h
      · rw [if_neg hrel] at h
        cases hun : unapplyActions dev infl.actions.length infl device with
        | error e => simp [hun] at h
        | ok device₁ =>
          simp only [hun] at h
          split at h
          next => cases h
          next infls₁ device₂ unapplied₂ hloop =>
            cases h
            obtain ⟨rfl, rfl, hlive, hfold⟩ := ih hloop
            refine ⟨?_, ?_, ?_, ?_⟩
            · rw [List.map_cons, InsertedFlow.deleted, if_pos hm]
            · rw [selectedIndices, if_pos hm, List.append_assoc, List.singleton_append]
            · intro x hx hxm
              rcases List.mem_cons.1 hx with rfl | hx
              · exact Bool.eq_false_iff.2 hrel
              · exact hlive x hx hxm
            · rw [List.filter_cons, if_pos hm, List.foldlM_cons, hun]
              exact hfold
    · rw [if_neg hm] at h
      split at h
      next => cases h
      next infls₁ device₂ unapplied₂ hloop =>
        cases h
        obtain ⟨rfl, rfl, hlive, hfold⟩ := ih hloop
        refine ⟨?_, ?_, ?_, ?_⟩
        · rw [List.map_cons, InsertedFlow.deleted, if_neg hm]
        · rw [selectedIndices, if_neg hm]
        · intro x hx hxm
          rcases List.mem_cons.1 hx with rfl | hx
          · exact absurd hxm hm
          · exact hlive x hx hxm
        · rw [List.filter_cons, if_neg hm]
          exact hfold

/-- A deletion that selects no released record meets no fault, when the other records have delimited
actions. -/
theorem exists_deleteLoop (hdev : dev.Returns) {i : ℕ} {infls : List InsertedFlow} {device : σ}
    {unapplied : List ℕ} (hlive : ∀ infl ∈ infls, infl.released = false → infl.Delimited)
    (hsel : ∀ infl ∈ infls, myFlowFieldsMatch infl.ofpMatch ofpMatch = true →
      infl.released = false) :
    ∃ r, deleteLoop dev ofpMatch i infls device unapplied = .ok r := by
  induction infls generalizing i device unapplied with
  | nil => exact ⟨_, rfl⟩
  | cons infl infls ih =>
    have ih' := fun i device unapplied =>
      @ih i device unapplied (fun x hx => hlive x (List.mem_cons_of_mem _ hx))
        fun x hx => hsel x (List.mem_cons_of_mem _ hx)
    rw [deleteLoop]
    by_cases hm : myFlowFieldsMatch infl.ofpMatch ofpMatch = true
    · have hrel := hsel infl List.mem_cons_self hm
      obtain ⟨device₁, hun⟩ := hdev.unapplyActions_ok (hlive infl List.mem_cons_self hrel) device
      obtain ⟨⟨infls₂, device₂, unapplied₂⟩, hloop⟩ := ih' (i + 1) device₁ (unapplied ++ [i])
      rw [if_pos hm, if_neg (Bool.eq_false_iff.1 hrel)]
      simp only [hun, hloop]
      exact ⟨_, rfl⟩
    · obtain ⟨⟨infls₂, device₂, unapplied₂⟩, hloop⟩ := ih' (i + 1) device unapplied
      rw [if_neg hm]
      simp only [hloop]
      exact ⟨_, rfl⟩

/-- A deletion comes upon a record without actions exactly when it selects one, when the other
records have delimited actions. -/
theorem deleteLoop_useAfterRelease_iff (hdev : dev.Returns) {i : ℕ} {infls : List InsertedFlow}
    {device : σ} {unapplied : List ℕ}
    (hlive : ∀ infl ∈ infls, infl.released = false → infl.Delimited) :
    deleteLoop dev ofpMatch i infls device unapplied = .error .useAfterRelease ↔
      ∃ infl ∈ infls, myFlowFieldsMatch infl.ofpMatch ofpMatch = true ∧
        infl.released = true := by
  induction infls generalizing i device unapplied with
  | nil => simp [deleteLoop]
  | cons infl infls ih =>
    have ih' := fun i device unapplied =>
      @ih i device unapplied fun x hx => hlive x (List.mem_cons_of_mem _ hx)
    rw [deleteLoop]
    by_cases hm : myFlowFieldsMatch infl.ofpMatch ofpMatch = true
    · by_cases hrel : infl.released = true
      · simp [hm, hrel]
      · -- a live record is unapplied without a fault
        obtain ⟨device₁, hun⟩ := hdev.unapplyActions_ok
          (hlive infl List.mem_cons_self (Bool.eq_false_iff.2 hrel)) device
        have hsel : (∃ x ∈ infl :: infls, myFlowFieldsMatch x.ofpMatch ofpMatch = true ∧
            x.released = true) ↔ ∃ x ∈ infls, myFlowFieldsMatch x.ofpMatch ofpMatch = true ∧
            x.released = true := by simp [hrel]
        rw [if_pos hm, if_neg hrel, hsel, ← ih' (i + 1) device₁ (unapplied ++ [i])]
        simp only [hun]
        cases deleteLoop dev ofpMatch (i + 1) infls device₁ (unapplied ++ [i]) <;> simp
    · have hsel : (∃ x ∈ infl :: infls, myFlowFieldsMatch x.ofpMatch ofpMatch = true ∧
          x.released = true) ↔ ∃ x ∈ infls, myFlowFieldsMatch x.ofpMatch ofpMatch = true ∧
          x.released = true := by simp [hm]
      rw [if_neg hm, hsel, ← ih' (i + 1) device unapplied]
      cases deleteLoop dev ofpMatch (i + 1) infls device unapplied <;> simp

end DeleteLoop

section Runs

variable {σ : Type*} {dev : DevProperties σ} {device : σ} {agent agent' : Agent σ}
  {ofm : OfpFlowMod}

/-- What holds of the records of a reachable agent. -/
structure Agent.Sound (agent : Agent σ) : Prop where
  /-- No record has been unapplied twice. -/
  nodup : agent.unapplied.Nodup
  /-- The records that have been unapplied are those that have been released. -/
  mem_iff : ∀ i, i ∈ agent.unapplied ↔
    ∃ infl, agent.insertedFlows[i]? = some infl ∧ infl.released = true
  /-- The match of a released record is zero. -/
  zero : ∀ infl ∈ agent.insertedFlows, infl.released = true → infl.ofpMatch = .zero
  /-- The other records have delimited actions. -/
  delimited : ∀ infl ∈ agent.insertedFlows, infl.released = false → infl.Delimited

/-- The agent has no records when the program starts. -/
theorem Agent.sound_init (device : σ) : (Agent.init device).Sound where
  nodup := List.nodup_nil
  mem_iff := by simp [Agent.init]
  zero := by simp [Agent.init]
  delimited := by simp [Agent.init]

/-- A record that has been applied joins the others. -/
theorem Agent.Sound.append (h : agent.Sound) (infl : InsertedFlow) (hlive : infl.released = false)
    (hdel : infl.Delimited) (device : σ) :
    Agent.Sound { agent with insertedFlows := agent.insertedFlows ++ [infl], device } where
  nodup := h.nodup
  mem_iff i := by
    rw [h.mem_iff]
    constructor
    · rintro ⟨x, hx, hrel⟩
      have hi := (List.getElem?_eq_some_iff.1 hx).1
      exact ⟨x, by rw [List.getElem?_append_left hi, hx], hrel⟩
    · rintro ⟨x, hx, hrel⟩
      rw [List.getElem?_append] at hx
      split at hx
      next => exact ⟨x, hx, hrel⟩
      next =>
        -- the new record has not been released
        obtain rfl := List.mem_singleton.1 (List.mem_of_getElem? hx)
        rw [hlive] at hrel
        cases hrel
  zero x hx hrel := by
    rcases List.mem_append.1 hx with hx | hx
    · exact h.zero x hx hrel
    · obtain rfl := List.mem_singleton.1 hx
      rw [hlive] at hrel
      cases hrel
  delimited x hx hrel := by
    rcases List.mem_append.1 hx with hx | hx
    · exact h.delimited x hx hrel
    · obtain rfl := List.mem_singleton.1 hx
      exact hdel

/-- A deletion releases the records that it unapplies. -/
theorem Agent.Sound.deleted (h : agent.Sound) {ofpMatch : OfpMatch}
    (hloop : deleteLoop dev ofpMatch 0 agent.insertedFlows agent.device agent.unapplied =
      .ok (agent'.insertedFlows, agent'.device, agent'.unapplied)) : agent'.Sound := by
  obtain ⟨hinfls, hun, hlive, -⟩ := deleteLoop_ok hloop
  have hsel : ∀ i, i ∈ selectedIndices ofpMatch 0 agent.insertedFlows ↔
      ∃ infl, agent.insertedFlows[i]? = some infl ∧
        myFlowFieldsMatch infl.ofpMatch ofpMatch = true := fun i => by
    simp [mem_selectedIndices]
  constructor
  · -- a selected record had not been released, and so not been unapplied
    rw [hun]
    refine List.nodup_append.2 ⟨h.nodup, nodup_selectedIndices 0 _, fun i hi j hj hij => ?_⟩
    subst hij
    obtain ⟨infl, hget, hrel⟩ := (h.mem_iff i).1 hi
    obtain ⟨infl', hget', hm⟩ := (hsel i).1 hj
    obtain rfl : infl = infl' := Option.some.inj (hget.symm.trans hget')
    rw [hlive infl (List.mem_of_getElem? hget) hm] at hrel
    cases hrel
  · intro i
    rw [hun, hinfls, List.mem_append, h.mem_iff, hsel]
    simp only [List.getElem?_map, Option.map_eq_some_iff, InsertedFlow.deleted]
    constructor
    · rintro (⟨infl, hget, hrel⟩ | ⟨infl, hget, hm⟩)
      · refine ⟨_, ⟨infl, hget, rfl⟩, ?_⟩
        split
        · rfl
        · exact hrel
      · exact ⟨_, ⟨infl, hget, rfl⟩, by rw [if_pos hm]; rfl⟩
    · rintro ⟨_, ⟨infl, hget, rfl⟩, hrel⟩
      split at hrel
      next hm => exact .inr ⟨infl, hget, hm⟩
      next => exact .inl ⟨infl, hget, hrel⟩
  · intro x hx hrel
    rw [hinfls] at hx
    obtain ⟨infl, hmem, rfl⟩ := List.mem_map.1 hx
    unfold InsertedFlow.deleted at hrel ⊢
    split at hrel
    next hm => rw [if_pos hm]; rfl
    next hm =>
      rw [if_neg hm]
      exact h.zero infl hmem hrel
  · intro x hx hrel
    rw [hinfls] at hx
    obtain ⟨infl, hmem, rfl⟩ := List.mem_map.1 hx
    unfold InsertedFlow.deleted at hrel ⊢
    split at hrel
    next => cases hrel
    next hm =>
      rw [if_neg hm]
      exact h.delimited infl hmem hrel

theorem Agent.Sound.next (h : agent.Sound)
    (hstep : handleFlowMod (some dev) agent ofm = .ok agent') : agent'.Sound := by
  obtain ⟨rfl, -⟩ | ⟨-, -, device, applied, happly, rfl⟩ | ⟨-, -, hloop⟩ :=
    handleFlowMod_cases hstep
  · exact h
  · have hdel : ofm.insertedFlow.Delimited := delimited_of_applyActions happly
    exact h.append { ofm.insertedFlow with applied } rfl hdel device
  · exact h.deleted hloop

/-- A reachable agent is sound. -/
theorem Agent.Reachable.sound (h : Agent.Reachable (some dev) device agent) : agent.Sound :=
  h.invariant Agent.Sound (Agent.sound_init device)
    fun _ _ _ hsound _ hstep => hsound.next hstep

/-- The message is a deletion whose compared fields are all zero, and the agent has a released
record and handles the message. -/
def Agent.SelectsReleased (agent : Agent σ) (ofm : OfpFlowMod) : Prop :=
  agent.insertedFlows.length < maxNumberOfFlows ∧ ofm.knownCommand = some .delete ∧
    myFlowFieldsMatch .zero ofm.ofpMatch = true ∧
    ∃ infl ∈ agent.insertedFlows, infl.released = true

/-- Which messages make a sound agent use actions after their release. -/
theorem Agent.Sound.useAfterRelease_iff (hdev : dev.Returns) (h : agent.Sound) :
    handleFlowMod (some dev) agent ofm = .error .useAfterRelease ↔ agent.SelectsReleased ofm := by
  unfold Agent.SelectsReleased
  by_cases hfull : maxNumberOfFlows ≤ agent.insertedFlows.length
  · simp [handleFlowMod_of_full hfull, Nat.not_lt.2 hfull]
  have hlt := Nat.lt_of_not_le hfull
  -- a deletion selects a released record by its zero match
  have hsel : (∃ infl ∈ agent.insertedFlows,
      myFlowFieldsMatch infl.ofpMatch ofm.ofpMatch = true ∧ infl.released = true) ↔
      myFlowFieldsMatch .zero ofm.ofpMatch = true ∧
        ∃ infl ∈ agent.insertedFlows, infl.released = true := by
    constructor
    · rintro ⟨infl, hmem, hm, hrel⟩
      rw [h.zero infl hmem hrel] at hm
      exact ⟨hm, infl, hmem, hrel⟩
    · rintro ⟨hm, infl, hmem, hrel⟩
      exact ⟨infl, hmem, by rw [h.zero infl hmem hrel]; exact hm, hrel⟩
  rw [handleFlowMod_of_not_full hfull, ← hsel]
  split
  next hadd =>
    simp only [hadd, reduceCtorEq, Option.some.injEq, false_and, and_false, iff_false]
    have hne := hdev.applyActions_ne ofm.insertedFlow ofm.insertedFlow.actions.length agent.device
    cases happly : applyActions dev ofm.insertedFlow.actions.length ofm.insertedFlow
        agent.device with
    | error e => simpa [happly] using hne
    | ok r => simp
  next hdelete =>
    simp only [hlt, hdelete, true_and]
    rw [← deleteLoop_useAfterRelease_iff hdev (i := 0) h.delimited]
    cases deleteLoop dev ofm.ofpMatch 0 agent.insertedFlows agent.device agent.unapplied <;> simp
  next hadd hdelete =>
    simp only [reduceCtorEq, false_iff]
    rintro ⟨-, hd, -⟩
    exact hdelete hd

/-- In the run through the messages no record is unapplied twice, and no actions are read or
released after their release. -/
def ReleasedOnce (dev : DevProperties σ) (device : σ) (ofms : List OfpFlowMod) : Prop :=
  ofms.foldlM (handleFlowMod (some dev)) (.init device) ≠ .error .useAfterRelease ∧
    ∀ pre agent, pre <+: ofms → pre.foldlM (handleFlowMod (some dev)) (.init device) = .ok agent →
      agent.unapplied.Nodup

end Runs

/-- A deletion whose compared fields are all zero. -/
def deleteZero : OfpFlowMod := plainFlowMod 3 { OfpMatch.zero with wildcards := ofpfwAll } 0

end OfAgent
