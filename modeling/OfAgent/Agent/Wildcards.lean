import OfAgent.Agent.Effects

/-!
# What the wildcards of a message mask out

A device declares which fields of a flow it requires, and the agent is meant to act on messages
only in which these are exact, and not to look at the fields that a message masks out. The
comparison of the wildcards lets every message pass, and the agent compares and reads all fields
whatever the wildcards say.

* `OfpMatch.SameExact`: two matches differ only in what their wildcards mask out.
* `Agent.HonoursWildcards`: the handler does the same on two messages, and acts only if the required
  fields are exact.
* `Agent.WildcardsFit`: when this is so; `honoursWildcards_iff`.
-/

namespace OfAgent

/-! ### Messages that differ in masked-out fields -/

namespace OfpMatch

/-- The fields of a match. -/
def toFlow (m : OfpMatch) : Flow :=
  { nwSrc := m.nwSrc, nwDst := m.nwDst, inPort := m.inPort, dlVlan := m.dlVlan, dlType := m.dlType,
    tpSrc := m.tpSrc, tpDst := m.tpDst, dlSrc := m.dlSrc, dlDst := m.dlDst,
    dlVlanPcp := m.dlVlanPcp, nwTos := m.nwTos, nwProto := m.nwProto }

/-- Two matches have the same wildcards, and the fields and parts of addresses that these leave
exact. -/
structure SameExact (m m' : OfpMatch) : Prop where
  /-- The wildcards. -/
  wildcards : m'.wildcards = m.wildcards
  /-- The fields, compared as `flow_fields_match` does. -/
  fields : flowFieldsMatch m.toFlow m'.toFlow m.wildcards
    (makeNwMask (m.wildcards >>> ofpfwNwSrcShift)) (makeNwMask (m.wildcards >>> ofpfwNwDstShift)) =
      true

end OfpMatch

namespace OfpFlowMod

/-- The message with another match. -/
def withMatch (ofm : OfpFlowMod) (m : OfpMatch) : OfpFlowMod := { ofm with ofpMatch := m }

/-- Every field that the device requires is exact. -/
def RequiredExact {σ : Type*} (dev : DevProperties σ) (ofm : OfpFlowMod) : Prop :=
  ofm.ofpMatch.wildcards &&& ~~~dev.wildcards = 0

instance {σ : Type*} (dev : DevProperties σ) (ofm : OfpFlowMod) :
    Decidable (ofm.RequiredExact dev) :=
  inferInstanceAs (Decidable (_ = _))

end OfpFlowMod

section Property

variable {σ : Type*} (dev : DevProperties σ)

/-- On both messages the handler ends with the same device: the same services, and the same
commands. -/
def Agent.SameDevice (agent : Agent σ) (ofm ofm' : OfpFlowMod) : Prop :=
  ∃ a a', handleFlowMod (some dev) agent ofm = .ok a ∧
    handleFlowMod (some dev) agent ofm' = .ok a' ∧ a'.device = a.device

/-- The handler acts on the message only if the required fields are exact. -/
def Agent.ActsOnExact (agent : Agent σ) (ofm : OfpFlowMod) : Prop :=
  handleFlowMod (some dev) agent ofm ≠ .ok agent → ofm.RequiredExact dev

/-- What wildcards are for, on two messages that differ in masked-out fields. -/
structure Agent.HonoursWildcards (agent : Agent σ) (ofm ofm' : OfpFlowMod) : Prop where
  /-- The masked-out fields make no difference. -/
  sameDevice : agent.SameDevice dev ofm ofm'
  /-- The required fields are exact in the first message, unless nothing is done about it. -/
  exact_left : agent.ActsOnExact dev ofm
  /-- The required fields are exact in the second message, unless nothing is done about it. -/
  exact_right : agent.ActsOnExact dev ofm'

end Property

/-! ### When the wildcards are honoured -/

namespace Agent

/-- A record has the twelve fields of the match. -/
def SelectsRecord {σ : Type*} (agent : Agent σ) (m : OfpMatch) : Prop :=
  ∃ infl ∈ agent.insertedFlows, myFlowFieldsMatch infl.ofpMatch m = true

/-- A released record has the twelve fields of the match. -/
def SelectsDead {σ : Type*} (agent : Agent σ) (m : OfpMatch) : Prop :=
  ∃ infl ∈ agent.insertedFlows, myFlowFieldsMatch infl.ofpMatch m = true ∧ infl.released = true

/-- How many flows a deletion is to take off: the supported actions of the selected records, unless
these are about ARP. -/
def removals (agent : Agent ZyxelState) (ofm : OfpFlowMod) : ℕ :=
  if ofm.insertedFlow.isArp then 0 else outputCount (selectedFlows ofm.ofpMatch agent.insertedFlows)

/-- How many flows a deletion takes off: no more than the services have with its address. -/
def taken (agent : Agent ZyxelState) (ofm : OfpFlowMod) : ℕ :=
  agent.device.taken ofm.insertedFlow.wanAddress (agent.removals ofm)

variable (exitValue : ℕ → ℤ)

/-- Two additions honour the wildcards: the required fields are exact, the walk over the actions
ends, and the flows do the same to the services. -/
structure AddsAlike (agent : Agent ZyxelState) (ofm ofm' : OfpFlowMod) : Prop where
  /-- The required fields. -/
  required : ofm.RequiredExact (zyxelProps exitValue)
  /-- The actions. -/
  fit : ofm.ActionsFit
  /-- The services. -/
  same : ofm.insertedFlow.SameServices ofm'.insertedFlow agent.device

/-- Two deletions honour the wildcards: they select no released record, and records only if the
required fields are exact; and they take as many flows off, and off the same address unless there
are none. -/
structure DeletesAlike (agent : Agent ZyxelState) (ofm ofm' : OfpFlowMod) : Prop where
  /-- The released records. -/
  dead : ¬ agent.SelectsDead ofm.ofpMatch ∧ ¬ agent.SelectsDead ofm'.ofpMatch
  /-- The required fields. -/
  required : agent.SelectsRecord ofm.ofpMatch ∨ agent.SelectsRecord ofm'.ofpMatch →
    ofm.RequiredExact (zyxelProps exitValue)
  /-- The number of flows. -/
  taken : agent.taken ofm' = agent.taken ofm
  /-- Their address. -/
  address : agent.taken ofm = 0 ∨
    ofm'.insertedFlow.wanAddress = ofm.insertedFlow.wanAddress

/-- The table of records is full, so that nothing is done, or the messages are additions or
deletions that honour the wildcards. -/
def WildcardsFit (agent : Agent ZyxelState) (ofm ofm' : OfpFlowMod) : Prop :=
  maxNumberOfFlows ≤ agent.insertedFlows.length ∨
    (ofm.knownCommand = some .add ∧ agent.AddsAlike exitValue ofm ofm') ∨
    (ofm.knownCommand = some .delete ∧ agent.DeletesAlike exitValue ofm ofm')

end Agent

/-! ### Additions -/

section Additions

variable {exitValue : ℕ → ℤ} {agent : Agent ZyxelState} {ofm : OfpFlowMod}

/-- An addition to a table with room ends exactly if its actions fit. -/
theorem exists_add_iff (hlt : agent.insertedFlows.length < maxNumberOfFlows)
    (hadd : ofm.knownCommand = some .add) :
    (∃ a, handleFlowMod (some (zyxelProps exitValue)) agent ofm = .ok a) ↔ ofm.ActionsFit := by
  rw [handleFlowMod_of_not_full (Nat.not_le.2 hlt), hadd]
  constructor
  · rintro ⟨a, ha⟩
    cases happly : applyActions (zyxelProps exitValue) ofm.insertedFlow.actions.length
        ofm.insertedFlow agent.device with
    | error e => simp [happly] at ha
    | ok r =>
      exact Tlv.delimited_of_walk
        (fun k ah s s' h => applyAction_zyxel_ok_iff.1 ⟨s', h⟩) happly
  · intro hfit
    have hbody : ∀ (k : ℕ) (ah : List Byte) (s : ZyxelState × List ℕ),
        sizeofOfpActionHeader ≤ ah.length →
        (isOutput (actionType ah) = true →
          sizeofOfpActionHeader * (k + 1) ≤ ofm.actions.length) →
        ∃ s', applyAction (zyxelProps exitValue) ofm.insertedFlow k ah s = .ok s' :=
      fun k ah s _ h => applyAction_zyxel_ok_iff.2 h
    obtain ⟨r, hr⟩ := Tlv.walk_length_of_delimited AgentFault.walk hbody hfit _
      (Nat.le_refl _) (agent.device, [])
    have happly : applyActions (zyxelProps exitValue) ofm.insertedFlow.actions.length
        ofm.insertedFlow agent.device = .ok r := hr
    simp only [happly]
    exact ⟨_, rfl⟩

/-- What an addition to a table with room has done: it has applied the flow. -/
theorem device_of_add (hlt : agent.insertedFlows.length < maxNumberOfFlows)
    (hadd : ofm.knownCommand = some .add) {a : Agent ZyxelState}
    (h : handleFlowMod (some (zyxelProps exitValue)) agent ofm = .ok a) :
    a.device = agent.device.configured exitValue ofm.insertedFlow ∧ a ≠ agent := by
  obtain ⟨-, hno | ⟨hno, -⟩⟩ | ⟨-, -, device, applied, happly, rfl⟩ | ⟨-, hdel, -⟩ :=
    handleFlowMod_cases h
  · exact absurd hno (Nat.not_le.2 hlt)
  · exact absurd hadd hno
  · refine ⟨fst_of_applyActions happly, fun heq => ?_⟩
    have hlength := congrArg (fun a : Agent ZyxelState => a.insertedFlows.length) heq
    simp at hlength
  · rw [hadd] at hdel
    cases hdel

/-- The fields that the Zyxel device requires are the port and the VLAN. -/
theorem OfpMatch.SameExact.sameActions {m' : OfpMatch} (h : ofm.ofpMatch.SameExact m')
    (hreq : ofm.RequiredExact (zyxelProps exitValue)) :
    ofm.insertedFlow.SameActions (ofm.withMatch m').insertedFlow := by
  have hexact : ∀ bit : BitVec 32, ~~~(4294967292 : BitVec 32) &&& bit = bit →
      wild ofm.ofpMatch.wildcards bit = false := by
    intro bit hbit
    have hw : ofm.ofpMatch.wildcards &&& ~~~(4294967292 : BitVec 32) = 0#32 := hreq
    rw [wild, ← hbit, ← BitVec.and_assoc, hw, BitVec.zero_and]
    rfl
  have hfields := h.fields
  simp only [flowFieldsMatch, Bool.and_eq_true, hexact ofpfwInPort (by decide),
    hexact ofpfwDlVlan (by decide), Bool.false_or, beq_iff_eq] at hfields
  obtain ⟨hport, hvlan⟩ := hfields.1.1.1.1.1.1.1.1.1.1
  exact ⟨rfl, hport.symm, hvlan.symm⟩

/-- Two additions to a table with room. -/
theorem honoursWildcards_add_iff (hlt : agent.insertedFlows.length < maxNumberOfFlows)
    (hadd : ofm.knownCommand = some .add) {m' : OfpMatch} (h : ofm.ofpMatch.SameExact m') :
    agent.HonoursWildcards (zyxelProps exitValue) ofm (ofm.withMatch m') ↔
      agent.AddsAlike exitValue ofm (ofm.withMatch m') := by
  have hsize : ofm.actions.length < 2 ^ 16 :=
    Nat.lt_of_le_of_lt (Nat.le_add_left _ _) ofm.length_lt
  have hends := @exists_add_iff exitValue agent ofm hlt hadd
  have hends' := @exists_add_iff exitValue agent (ofm.withMatch m') hlt hadd
  constructor
  · rintro ⟨⟨a, a', ha, ha', hdevice⟩, hexact, -⟩
    obtain ⟨hleft, hne⟩ := device_of_add hlt hadd ha
    obtain ⟨hright, -⟩ := @device_of_add exitValue agent (ofm.withMatch m') hlt hadd a' ha'
    have hreq : ofm.RequiredExact (zyxelProps exitValue) := by
      refine hexact fun heq => hne ?_
      rw [ha] at heq
      exact Except.ok.inj heq
    have hsame := @configured_eq_iff exitValue _ _ agent.device (h.sameActions hreq) hsize
    rw [← hleft, ← hright] at hsame
    exact ⟨hreq, hends.1 ⟨a, ha⟩, hsame.1 hdevice⟩
  · rintro ⟨hreq, hfit, hsame⟩
    obtain ⟨a, ha⟩ := hends.2 hfit
    obtain ⟨a', ha'⟩ := hends'.2 hfit
    have hreq' : (ofm.withMatch m').RequiredExact (zyxelProps exitValue) := by
      unfold OfpFlowMod.RequiredExact at hreq ⊢
      rw [← hreq, ← h.wildcards]
      rfl
    refine ⟨⟨a, a', ha, ha', ?_⟩, fun _ => hreq, fun _ => hreq'⟩
    rw [(device_of_add hlt hadd ha).1,
      (@device_of_add exitValue agent (ofm.withMatch m') hlt hadd a' ha').1]
    exact (configured_eq_iff (h.sameActions hreq) hsize).2 hsame

end Additions

/-! ### Deletions -/

section Deletions

variable {exitValue : ℕ → ℤ} {agent : Agent ZyxelState} {ofm : OfpFlowMod}

/-- What a deletion has done when it has not met a fault: it has selected no released record, has
taken its flows off, and has changed the records that it has selected. -/
theorem device_of_delete (hlt : agent.insertedFlows.length < maxNumberOfFlows)
    (hdel : ofm.knownCommand = some .delete) {a : Agent ZyxelState}
    (h : handleFlowMod (some (zyxelProps exitValue)) agent ofm = .ok a) :
    ¬ agent.SelectsDead ofm.ofpMatch ∧
      a.device = (unconfigureService ofm.insertedFlow.wanAddress)^[agent.removals ofm]
        agent.device ∧
      (a = agent ↔ ¬ agent.SelectsRecord ofm.ofpMatch) := by
  obtain ⟨-, hno | ⟨-, hno⟩⟩ | ⟨-, hadd, -⟩ | ⟨-, -, hloop⟩ := handleFlowMod_cases h
  · exact absurd hno (Nat.not_le.2 hlt)
  · exact absurd hdel hno
  · rw [hadd] at hdel
    cases hdel
  obtain ⟨hinfls, hun, hlive, hfold⟩ := deleteLoop_ok hloop
  refine ⟨?_, ?_, fun heq => ?_, fun hnone => ?_⟩
  · rintro ⟨infl, hmem, hm, hrel⟩
    rw [hlive infl hmem hm] at hrel
    cases hrel
  · rw [deleteLoop_zyxel hloop, Agent.removals]
    split <;> rfl
  · -- a record that has been selected would have been released
    rintro ⟨infl, hmem, hm⟩
    obtain ⟨i, hi⟩ := List.mem_iff_getElem?.1 hmem
    have hsame : some (infl.deleted ofm.ofpMatch) = some infl := by
      have hget := congrArg (fun infls : List InsertedFlow => infls[i]?) hinfls
      rw [heq] at hget
      simp only [List.getElem?_map, hi, Option.map_some] at hget
      exact hget.symm
    have hrel := congrArg InsertedFlow.released (Option.some.inj hsame)
    rw [InsertedFlow.deleted, if_pos hm, hlive infl hmem hm] at hrel
    cases hrel
  · -- nothing has been selected
    have hnone : ∀ infl ∈ agent.insertedFlows,
        ¬ myFlowFieldsMatch infl.ofpMatch ofm.ofpMatch = true := fun infl hmem hm =>
      hnone ⟨infl, hmem, hm⟩
    have hrecords : a.insertedFlows = agent.insertedFlows := by
      rw [hinfls]
      refine (List.map_congr_left fun infl hmem => ?_).trans (List.map_id _)
      rw [InsertedFlow.deleted, if_neg (hnone infl hmem), id]
    have hhistory : a.unapplied = agent.unapplied := by
      have hnil : selectedIndices ofm.ofpMatch 0 agent.insertedFlows = [] :=
        List.eq_nil_iff_forall_not_mem.2 fun j hj => by
          obtain ⟨k, infl, -, hget, hm⟩ := mem_selectedIndices.1 hj
          exact hnone infl (List.mem_of_getElem? hget) hm
      rw [hun, hnil, List.append_nil]
    have hdevice : a.device = agent.device := by
      rw [List.filter_eq_nil_iff.2 hnone] at hfold
      exact (Except.ok.inj hfold).symm
    cases a
    simp only at hrecords hhistory hdevice
    rw [hrecords, hhistory, hdevice]

/-- A deletion in a sound agent ends exactly if it selects no released record. -/
theorem exists_delete_iff (hsound : agent.Sound)
    (hlt : agent.insertedFlows.length < maxNumberOfFlows)
    (hdel : ofm.knownCommand = some .delete) :
    (∃ a, handleFlowMod (some (zyxelProps exitValue)) agent ofm = .ok a) ↔
      ¬ agent.SelectsDead ofm.ofpMatch := by
  constructor
  · rintro ⟨a, ha⟩
    exact (device_of_delete hlt hdel ha).1
  · intro hdead
    obtain ⟨⟨infls, device, unapplied⟩, hloop⟩ := @exists_deleteLoop _ _ ofm.ofpMatch
      (zyxelProps_returns exitValue) 0 _ agent.device agent.unapplied hsound.delimited
      fun infl hmem hm => Bool.eq_false_iff.2 fun hrel => hdead ⟨infl, hmem, hm, hrel⟩
    rw [handleFlowMod_of_not_full (Nat.not_le.2 hlt), hdel]
    exact ⟨⟨infls, device, unapplied⟩, by simp only [hloop]⟩

/-- Two deletions in a sound agent with room. -/
theorem honoursWildcards_delete_iff (hsound : agent.Sound)
    (hlt : agent.insertedFlows.length < maxNumberOfFlows)
    (hdel : ofm.knownCommand = some .delete) {m' : OfpMatch} (h : ofm.ofpMatch.SameExact m') :
    agent.HonoursWildcards (zyxelProps exitValue) ofm (ofm.withMatch m') ↔
      agent.DeletesAlike exitValue ofm (ofm.withMatch m') := by
  have hdel' : (ofm.withMatch m').knownCommand = some .delete := hdel
  have hreqs : (ofm.withMatch m').RequiredExact (zyxelProps exitValue) ↔
      ofm.RequiredExact (zyxelProps exitValue) := by
    unfold OfpFlowMod.RequiredExact
    rw [← h.wildcards]
    rfl
  -- whether a deletion that ends is one on which the handler acts
  have hacts : ∀ {x : OfpFlowMod} {a : Agent ZyxelState}, x.knownCommand = some .delete →
      handleFlowMod (some (zyxelProps exitValue)) agent x = .ok a →
      (agent.ActsOnExact (zyxelProps exitValue) x ↔
        (agent.SelectsRecord x.ofpMatch → x.RequiredExact (zyxelProps exitValue))) := by
    intro x a hx ha
    have hsel := (device_of_delete hlt hx ha).2.2
    unfold Agent.ActsOnExact
    rw [ha, ne_eq, Except.ok.injEq, hsel, not_not]
  have htaken : ∀ {a a' : Agent ZyxelState},
      handleFlowMod (some (zyxelProps exitValue)) agent ofm = .ok a →
      handleFlowMod (some (zyxelProps exitValue)) agent (ofm.withMatch m') = .ok a' →
      (a'.device = a.device ↔ agent.taken (ofm.withMatch m') = agent.taken ofm ∧
        (agent.taken ofm = 0 ∨ (ofm.withMatch m').insertedFlow.wanAddress =
          ofm.insertedFlow.wanAddress)) := by
    intro a a' ha ha'
    rw [(device_of_delete hlt hdel ha).2.1,
      (@device_of_delete exitValue agent (ofm.withMatch m') hlt hdel' a' ha').2.1, iterate_eq_iff]
    exact and_congr_right fun heq => by rw [Agent.taken, ← heq]
  constructor
  · rintro ⟨⟨a, a', ha, ha', hdevice⟩, hexact, hexact'⟩
    have hdead := (device_of_delete hlt hdel ha).1
    have hdead' := (@device_of_delete exitValue agent (ofm.withMatch m') hlt hdel' a' ha').1
    rw [hacts hdel ha] at hexact
    rw [hacts hdel' ha', hreqs] at hexact'
    obtain ⟨hsame, haddress⟩ := (htaken ha ha').1 hdevice
    exact ⟨⟨hdead, hdead'⟩, fun hsel => hsel.elim hexact hexact', hsame, haddress⟩
  · rintro ⟨⟨hdead, hdead'⟩, hreq, hsame, haddress⟩
    obtain ⟨a, ha⟩ := (@exists_delete_iff exitValue agent ofm hsound hlt hdel).2 hdead
    obtain ⟨a', ha'⟩ :=
      (@exists_delete_iff exitValue agent (ofm.withMatch m') hsound hlt hdel').2 hdead'
    refine ⟨⟨a, a', ha, ha', (htaken ha ha').2 ⟨hsame, haddress⟩⟩, ?_, ?_⟩
    · exact (hacts hdel ha).2 fun hsel => hreq (.inl hsel)
    · exact (hacts hdel' ha').2 fun hsel => hreqs.2 (hreq (.inr hsel))

end Deletions

/-- A match in which everything is masked out, with an address in it. -/
def maskedMatch (nwSrc : BitVec 32) : OfpMatch :=
  { OfpMatch.zero with wildcards := ofpfwAll, inPort := 1, dlVlan := 10, nwSrc }

end OfAgent
