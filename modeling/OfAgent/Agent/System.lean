import OfAgent.Agent.Zyxel
import OfAgent.Datapath
import OfAgent.Lib.Transition

/-!
# The datapath with its agent

`recv_flow` hands every flow modification to the agent first and then changes the tables. The
other events do not reach the agent.

* `System`: the datapath and the agent; `System.exec`: an event, which may meet a fault.
* `System.Reachable`: the systems that runs without faults reach.
* `Agent.Reachable`: the agents that sequences of flow modifications without faults reach.
* `System.agent_reachable`: the agent of a reachable system is reachable.
-/

namespace OfAgent

/-- The agent when the program starts. -/
def Agent.init {σ : Type*} (device : σ) : Agent σ := ⟨[], device, []⟩

/-- The datapath and the agent. -/
structure System (σ : Type*) where
  /-- The datapath. -/
  dp : Datapath
  /-- The agent. -/
  agent : Agent σ

section System

variable {σ : Type*} (platform : Option (DevProperties σ))

/-- `recv_flow`: the system, what the datapath sends, and the return code. -/
def recvFlow (now : BitVec 64) (s : System σ) (ofm : OfpFlowMod) :
    Except AgentFault (System σ × List DpOutput × ℤ) :=
  match handleFlowMod platform s.agent ofm with
  | .error e => .error e
  | .ok agent =>
      let (dp, outputs, code) := s.dp.recvFlowTables now ofm
      .ok (⟨dp, agent⟩, outputs, code)

/-- The system after an event. -/
def System.exec (s : System σ) : DatapathEvent → Except AgentFault (System σ)
  | .flowMod now ofm =>
      match recvFlow platform now s ofm with
      | .error e => .error e
      | .ok (s', _, _) => .ok s'
  | e => .ok { s with dp := s.dp.next e }

/-- The system when the program starts. -/
def System.init (sizes : TableSizes) (now : BitVec 64) (device : σ) : System σ :=
  ⟨.init sizes now, .init device⟩

/-- The systems that runs without faults reach. -/
def System.Reachable (sizes : TableSizes) (device : σ) (s : System σ) : Prop :=
  ∃ now, Transition.Reachable (Transition.StepOf (System.exec platform))
    (System.init sizes now device) s

/-- The agents that sequences of flow modifications reach without faults. -/
def Agent.Reachable (device : σ) (agent : Agent σ) : Prop :=
  Transition.Reachable (Transition.StepOf (handleFlowMod platform)) (Agent.init device) agent

variable {platform}

/-- An event is a flow modification for both halves, or an event of the datapath alone. -/
theorem System.exec_cases {s s' : System σ} {e : DatapathEvent}
    (h : s.exec platform e = .ok s') :
    s'.dp = s.dp.next e ∧
      ((∃ now ofm, e = .flowMod now ofm ∧ handleFlowMod platform s.agent ofm = .ok s'.agent) ∨
        (∀ now ofm, e ≠ .flowMod now ofm) ∧ s'.agent = s.agent) := by
  cases e with
  | flowMod now ofm =>
    simp only [exec, recvFlow] at h
    cases hagent : handleFlowMod platform s.agent ofm with
    | error x => simp [hagent] at h
    | ok agent =>
      simp only [hagent, Except.ok.injEq] at h
      subst h
      exact ⟨rfl, .inl ⟨now, ofm, rfl, hagent⟩⟩
  | packet now flow buffer =>
    cases h
    exact ⟨rfl, .inr ⟨fun _ _ => by simp, rfl⟩⟩
  | toController now buffer =>
    cases h
    exact ⟨rfl, .inr ⟨fun _ _ => by simp, rfl⟩⟩
  | run now =>
    cases h
    exact ⟨rfl, .inr ⟨fun _ _ => by simp, rfl⟩⟩
  | protection now =>
    cases h
    exact ⟨rfl, .inr ⟨fun _ _ => by simp, rfl⟩⟩

/-- The agent of a reachable system is reachable. -/
theorem System.agent_reachable {sizes : TableSizes} {device : σ} {s : System σ}
    (h : System.Reachable platform sizes device s) : Agent.Reachable platform device s.agent := by
  obtain ⟨now, hrun⟩ := h
  refine hrun.simulation (f := System.agent) fun s e s' _ hstep => ?_
  obtain ⟨-, ⟨now, ofm, -, hagent⟩ | ⟨-, hagent⟩⟩ := System.exec_cases hstep
  · exact .tail .refl trivial hagent
  · rw [hagent]
    exact .refl

/-- The datapath of a reachable system is reachable. -/
theorem System.dp_reachable {sizes : TableSizes} {device : σ} {s : System σ}
    (h : System.Reachable platform sizes device s) : Datapath.Reachable sizes s.dp := by
  obtain ⟨now, hrun⟩ := h
  exact ⟨now, hrun.simulation (f := System.dp) fun s e s' _ hstep =>
    .tail .refl trivial (System.exec_cases hstep).1⟩

end System

/-- A message with one output action. -/
def outputFlowMod (command : BitVec 16) (ofpMatch : OfpMatch) (port : BitVec 16) : OfpFlowMod :=
  { plainFlowMod command ofpMatch 1 with
    actions := [0, 0, 0, 8, port.extractLsb' 8 8, port.extractLsb' 0 8, 0, 0]
    length_lt := by simp [sizeofOfpFlowMod] }

/-- A match for the IP packets of an address that come from a port. -/
def wanMatch (inPort : BitVec 16) (vlan : BitVec 16) (wanAddress : BitVec 32) : OfpMatch :=
  { OfpMatch.zero with
    wildcards := ofpfwDlSrc ||| ofpfwDlDst
    inPort
    dlVlan := vlan
    dlType := ethTypeIp
    nwSrc := wanAddress }

/-- The Zyxel platform when every command succeeds. -/
def zyxelPlatform : Option (DevProperties ZyxelState) := some (zyxelProps fun _ => 0)

/-- The system after a list of events, when none of them faults. -/
def System.runEvents {σ : Type*} (platform : Option (DevProperties σ)) (s : System σ)
    (es : List DatapathEvent) : System σ :=
  Transition.runTo (System.exec platform) s es

/-- Running a new system through a list of events without a fault reaches the system it
computes. -/
theorem System.reachable_runEvents {σ : Type*} {platform : Option (DevProperties σ)}
    {sizes : TableSizes} {now : BitVec 64} {device : σ} {es : List DatapathEvent}
    (h : (es.foldlM (System.exec platform)
      (System.init sizes now device)).toOption.isSome = true) :
    System.Reachable platform sizes device
      ((System.init sizes now device).runEvents platform es) :=
  ⟨now, Transition.reachable_runTo h⟩

/-- The agent after a list of messages, when none of them faults. -/
def Agent.runMessages {σ : Type*} (platform : Option (DevProperties σ)) (agent : Agent σ)
    (ofms : List OfpFlowMod) : Agent σ :=
  Transition.runTo (handleFlowMod platform) agent ofms

end OfAgent
