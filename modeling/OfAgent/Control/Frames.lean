import OfAgent.Control.Dumps

/-!
# Other connections

What the events of other connections, packets and timeouts leave alone: the dump of a connection and
the messages that have been sent to it alone.

* `Control.Local`: an invariant that anything may keep that concerns one sender at most;
  `Local.receive`: the handling of its messages keeps it.
* `Control.OwnDumps`: every dump answers the connection whose dump it is; `Step.ownDumps`.
* `Control.sentTo`: what has been sent to a connection alone; `Step.frame`: it stays as it is, and
  so does its dump, while something else happens.
-/

namespace OfAgent

open Monitored

/-- An invariant that does not depend on the switch and the description, and that messages to
everybody or to one sender and new dumps of this sender keep. -/
structure Control.Local (sender : Sender) (P : Control → Prop) : Prop where
  /-- The switch. -/
  switch : ∀ {ctl : Control} (sw : Switch), P ctl → P { ctl with toSwitch := sw }
  /-- The description. -/
  desc : ∀ {ctl : Control} (dpDesc : List Byte), P ctl → P { ctl with dpDesc }
  /-- A new dump. -/
  start : ∀ {ctl : Control} (state : StatsState), P ctl →
    P { ctl with
      cbDump := Function.update ctl.cbDump sender.remote (some ⟨false, sender, state⟩) }
  /-- A message to everybody, or to the sender. -/
  send : ∀ {ctl : Control} {m : OfpOutgoing}, (∀ r ∈ m.remote, r = sender.remote) → P ctl →
    P { ctl with messages := ctl.messages ++ [m] }

namespace Control.Local

variable {P : Control → Prop} {env : Surroundings} {sender : Sender} {oh : Memory}

/-- The handlers that answer, or change the configuration or queues, keep it. -/
theorem keptBy (h : Local sender P) : KeptBy sender P where
  reply _ := .modify fun _ hP => h.send (fun _ hr => (Option.some.inj hr).symm) hP
  start state hP := h.start state hP
  desc dpDesc hP := h.desc dpDesc hP
  config _ _ hP := h.switch _ hP
  queues _ _ hP := h.switch _ hP

/-- A message about a removed entry goes to everybody. -/
theorem perform_flowRemoved (h : Local sender P) (sender' : Sender) (ofr : OfpFlowRemoved) :
    Keeps P (perform env sender' oh (.flowRemoved ofr)) :=
  (keeps_putOpenflowXid _).bind fun _ =>
    .modify fun _ hP => h.send (fun _ hr => absurd hr (Option.not_mem_none _)) hP

theorem performAll (h : Local sender P) (outputs : List DpOutput) :
    Keeps P (performAll env sender oh outputs) := by
  refine keeps_performAll fun output _ => ?_
  cases output with
  | errorMsg error length => exact h.keptBy.dpSendErrorMsg _ _ _
  | flowRemoved ofr => exact h.perform_flowRemoved sender ofr
  | executeActions buffer inPort actions => exact keeps_forward fun _ sw hP _ => h.switch sw hP
  | packetIn buffer bufferId => exact .pure _

theorem setDatapath (h : Local sender P) (dp : Datapath) (outputs : List DpOutput) :
    Keeps P (do OfAgent.setDatapath dp; OfAgent.performAll env sender oh outputs) :=
  Keeps.bind (.modify fun _ hP => h.switch _ hP) fun _ => h.performAll outputs

/-- The handling of a message of the sender. -/
theorem receive {remote : Remote} {msg : OfpMessage} (h : Local ⟨remote, msg.xid⟩ P) :
    Keeps P (receive env remote msg) := by
  refine h.keptBy.receive (fun _ => ?_) (fun _ => ?_) (fun _ => ?_) fun _ _ ctl => ?_
  · exact keeps_recvFeaturesRequest (fun _ sw _ _ hP => h.switch sw hP) fun _ _ =>
      .modify fun _ hP => h.send (fun _ hr => (Option.some.inj hr).symm) hP
  · exact keeps_recvPortMod fun _ sw _ _ hP => h.switch sw hP
  · exact keeps_recvFlow fun ctl => h.setDatapath _ _ ctl
  · exact h.setDatapath _ _ ctl

theorem packet (h : Local sender P) (portNo : BitVec 16) (bytes : List Byte) :
    Keeps P (ControlEvent.packet env portNo bytes).run := by
  refine .get_bind_all fun ctl => ?_
  cases ctl.dpLookupPort portNo with
  | none => exact .pure _
  | some p => exact keeps_forward fun _ sw hP _ => h.switch sw hP

theorem timeouts (h : Local sender P) : Keeps P (ControlEvent.timeouts env).run := by
  refine .get_bind_all fun ctl => Keeps.bind (.modify fun _ hP => h.switch _ hP) fun _ => ?_
  refine keeps_performAll fun output hmem => ?_
  obtain ⟨ofr, rfl⟩ := Datapath.flowRemoved_of_mem_dpRun hmem
  exact h.perform_flowRemoved _ ofr

end Control.Local

namespace Control

variable {ctl ctl' : Control} {e : ControlEvent} {remote : Remote}

/-! ### Dumps of their own -/

/-- Every dump answers the connection whose dump it is. -/
def OwnDumps (ctl : Control) : Prop :=
  ∀ remote cb, ctl.cbDump remote = some cb → cb.sender.remote = remote

theorem OwnDumps.update (h : ctl.OwnDumps) {cb : Option StatsDumpCb}
    (hcb : ∀ c ∈ cb, c.sender.remote = remote) :
    OwnDumps { ctl with cbDump := Function.update ctl.cbDump remote cb } := by
  intro remote' cb' hcb'
  by_cases heq : remote' = remote
  · rw [heq] at hcb' ⊢
    exact hcb cb' ((Function.update_self remote cb ctl.cbDump).symm.trans hcb')
  · exact h remote' cb' ((Function.update_of_ne heq cb ctl.cbDump).symm.trans hcb')

/-- A message starts no dump of another connection. -/
theorem local_ownDumps (sender : Sender) : Local sender OwnDumps where
  switch _ h := h
  desc _ h := h
  start state h := h.update fun c hc => by
    cases hc
    rfl
  send _ h := h

/-- Every event leaves the dumps with their connections. -/
theorem Step.ownDumps (h : Step ctl e ctl') (hown : ctl.OwnDumps) : ctl'.OwnDumps := by
  refine (meets_any_iff (Q := fun _ s => OwnDumps s)).1 ?_ _ _ h.2
  cases e with
  | message env remote msg =>
    exact Keeps.bind (local_ownDumps _).receive (fun _ => .pure _) ctl hown
  | packet env portNo bytes => exact (local_ownDumps ⟨0, 0⟩).packet portNo bytes ctl hown
  | timeouts env => exact (local_ownDumps ⟨0, 0⟩).timeouts ctl hown
  | close remote => exact (meets_modify _).2 (hown.update fun c hc => by cases hc)
  | dump now err2 remote =>
    obtain ⟨cb, hcb⟩ := Option.isSome_iff_exists.1 h.1
    refine (meets_runDump hcb fun _ _ _ _ _ _ _ => trivial).mono ?_
    rintro - ctl' ⟨next, sent, hturn, rfl⟩
    exact hown.update fun c hc => (hturn.sender_eq.1 c hc).symm ▸ hown remote cb hcb

/-- A datapath that has just been created has no dumps. -/
theorem Initial.ownDumps {sizes : TableSizes} (h : Initial sizes ctl) : ctl.OwnDumps := by
  cases h
  intro remote cb hcb
  cases hcb

/-! ### One connection -/

/-- The messages that have been sent to one connection alone. -/
def sentTo (ctl : Control) (remote : Remote) : List OfpOutgoing :=
  ctl.messages.filter fun m => m.remote = some remote

/-- The dump of a connection and what has been sent to it alone are as before. -/
structure Frame (remote : Remote) (before ctl : Control) : Prop where
  /-- The dump. -/
  cbDump_eq : ctl.cbDump remote = before.cbDump remote
  /-- The messages. -/
  sentTo_eq : ctl.sentTo remote = before.sentTo remote

/-- Messages to somebody else are not sent to the connection. -/
theorem sentTo_append {sent : List OfpOutgoing} (h : ∀ m ∈ sent, m.remote ≠ some remote)
    (cbDump : Remote → Option StatsDumpCb) :
    sentTo { ctl with cbDump, messages := ctl.messages ++ sent } remote = ctl.sentTo remote := by
  have hnone : sent.filter (fun m => m.remote = some remote) = [] :=
    List.filter_eq_nil_iff.2 fun m hm => by simpa using h m hm
  unfold sentTo
  rw [List.filter_append, hnone, List.append_nil]

/-- What concerns another sender leaves a connection alone. -/
theorem local_frame {sender : Sender} (hne : sender.remote ≠ remote) (before : Control) :
    Local sender (Frame remote before) where
  switch _ h := ⟨h.1, h.2⟩
  desc _ h := ⟨h.1, h.2⟩
  start _ h := ⟨(Function.update_of_ne hne.symm _ _).trans h.1, h.2⟩
  send {ctl m} hm h := by
    refine ⟨h.1, (sentTo_append (fun m' hm' hremote => ?_) ctl.cbDump).trans h.2⟩
    rw [List.mem_singleton.1 hm'] at hremote
    exact hne (hm remote hremote).symm

end Control

/-- The event does not concern the connection by itself. -/
def ControlEvent.IsElsewhere (remote : Remote) : ControlEvent → Prop
  | message _ r _ | dump _ _ r | close r => r ≠ remote
  | packet _ _ _ | timeouts _ => True

/-- What happens elsewhere leaves a connection alone. -/
theorem Control.Step.frame {ctl ctl' : Control} {e : ControlEvent} {remote : Remote}
    (h : Step ctl e ctl') (hown : ctl.OwnDumps) (helse : e.IsElsewhere remote) :
    Frame remote ctl ctl' := by
  refine (meets_any_iff (Q := fun _ s => Frame remote ctl s)).1 ?_ _ _ h.2
  have hsame : Frame remote ctl ctl := ⟨rfl, rfl⟩
  have hsome : (⟨remote + 1, 0⟩ : Sender).remote ≠ remote := Nat.succ_ne_self remote
  cases e with
  | message env r msg =>
    have hne : (⟨r, msg.xid⟩ : Sender).remote ≠ remote := helse
    exact Keeps.bind (local_frame hne ctl).receive (fun _ => .pure _) ctl hsame
  | packet env portNo bytes => exact (local_frame hsome ctl).packet portNo bytes ctl hsame
  | timeouts env => exact (local_frame hsome ctl).timeouts ctl hsame
  | close r => exact (meets_modify _).2 ⟨Function.update_of_ne (Ne.symm helse) _ _, rfl⟩
  | dump now err2 r =>
    have hne : r ≠ remote := helse
    obtain ⟨cb, hcb⟩ := Option.isSome_iff_exists.1 h.1
    refine (meets_runDump hcb fun _ _ _ _ _ _ _ => trivial).mono ?_
    rintro - ctl' ⟨next, sent, hturn, rfl⟩
    refine ⟨Function.update_of_ne hne.symm _ _, sentTo_append (fun m hm hremote => ?_) _⟩
    rw [hturn.sender_eq.2 m hm, hown r cb hcb] at hremote
    exact hne (Option.some.inj hremote)

end OfAgent
