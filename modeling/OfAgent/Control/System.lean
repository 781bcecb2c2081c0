import OfAgent.Control.Dispatch
import OfAgent.Forward.Headroom

/-!
# Runs of the datapath

What `dp_run` makes a datapath with its connections do: it handles messages and packets, carries on
with the dumps of statistics, and lets entries time out.

* `dumpState`, `statsDumpCallback`: one reply to a statistics request; `runDump`: what `remote_run`
  does with it.
* `ControlEvent`, `Control.Step`: what can happen, and when. A fault ends the run.
-/

namespace OfAgent

open Monitored

/-! ### Dumps -/

/-- `OFPQ_ALL`: all queues. -/
def ofpqAll : BitVec 32 := 0xffffffff

/-- `port_stats_dump`: the numbers of the ports that it puts. -/
def portStatsDump (portNo : BitVec 16) (sw : Switch) : List (BitVec 16) :=
  if portNo = ofppNone then
    ((List.range' 1 (dpMaxPorts - 1)).filterMap fun i =>
        (portInUse sw (BitVec.ofNat 16 i)).map SwPort.portNo) ++
      (sw.localPort.map SwPort.portNo).toList
  else ((portInUse sw portNo).map SwPort.portNo).toList

/-- The part of `queue_stats_dump` for one port. -/
def dumpQueueStats (queueId : BitVec 32) (p : SwPort) : ControlM (List OfpQueueStats) := do
  let queues ← walkQueues p
  let queues := if queueId = ofpqAll then queues else (p.lookupQueue queueId).toList
  pure (queues.map fun q => ⟨p.portNo, q.queueId⟩)

/-- The loop of `queue_stats_dump` over all ports. -/
def dumpAllQueueStats (queueId : BitVec 32) : List SwPort → ControlM (List OfpQueueStats)
  | [] => pure []
  | p :: ps => do
      let entries ← if p.portNo < ofppMax then dumpQueueStats queueId p else pure []
      let rest ← dumpAllQueueStats queueId ps
      pure (entries ++ rest)

/-- `queue_stats_dump`. -/
def queueStatsDump (portNo : BitVec 16) (queueId : BitVec 32) : ControlM (List OfpQueueStats) := do
  let ctl ← get
  if portNo = ofppAll then dumpAllQueueStats queueId ctl.listedPorts
  else
    match ctl.dpLookupPort portNo with
    | none => pure []
    | some p => dumpQueueStats queueId p

/-- The functions `dump` of `stats`: the body of the reply, the new state, and whether the function
should be called again. -/
def dumpState (now : BitVec 64) : StatsState → ControlM (OfpStats × StatsState × Bool)
  | .desc => do
      let ctl ← get
      pure (.desc ctl.dpDesc, .desc, false)
  | .flow s => do
      let ctl ← get
      let (reply, s) := statsDump ctl.chain now s
      pure (.flow reply.body, .flow s, reply.more)
  | .aggregate rq => do
      let ctl ← get
      pure (.aggregate (aggregateStatsDump ctl.chain rq), .aggregate rq, false)
  | .table => do
      let ctl ← get
      pure (.table ((List.range ctl.chain.tables.length).map (BitVec.ofNat 8)), .table, false)
  | .port portNo => do
      let ctl ← get
      pure (.port (portStatsDump portNo ctl.toSwitch), .port portNo, false)
  | .queue portNo queueId => do
      let entries ← queueStatsDump portNo queueId
      pure (.queue entries, .queue portNo queueId, false)

/-- A new value of `cb_dump` and `cb_aux` of a connection. -/
def setDump (remote : Remote) (cb : Option StatsDumpCb) : ControlM PUnit :=
  modify fun ctl => { ctl with cbDump := Function.update ctl.cbDump remote cb }

/-- `stats_dump`, when `send_openflow_buffer` returns `err2`. -/
def statsDumpCallback (now : BitVec 64) (err2 : ℤ) (remote : Remote) (cb : StatsDumpCb) :
    ControlM ℤ :=
  if cb.done then pure 0
  else do
    putOpenflowXid sizeofOfpStatsReply
    let (stats, state, more) ← dumpState now cb.state
    setDump remote (some { cb with state, done := !more })
    sendOpenflowBuffer (some cb.sender) (.statsReply more stats)
    if err2 ≠ 0 then pure err2 else pure (if more then 1 else 0)

/-- The part of `remote_run` that carries on with a dump. -/
def runDump (now : BitVec 64) (err2 : ℤ) (remote : Remote) : ControlM PUnit := do
  let ctl ← get
  match ctl.cbDump remote with
  | none => pure ⟨⟩
  | some cb => do
      let error ← statsDumpCallback now err2 remote cb
      if error ≤ 0 then setDump remote none else pure ⟨⟩

/-! ### Events -/

/-- The timeouts of `dp_run`. -/
def runTimeouts (env : Surroundings) : ControlM PUnit := do
  let ctl ← get
  let (dp, outputs) := ctl.toDatapath.dpRun env.now
  setDatapath dp
  -- there is no message to quote
  performAll env ⟨0, 0⟩ (fun _ => 0) outputs

/-- What can happen to a datapath with its connections. -/
inductive ControlEvent
  /-- A connection hands over a message. -/
  | message (env : Surroundings) (remote : Remote) (msg : OfpMessage)
  /-- The dump of a connection is carried on. -/
  | dump (now : BitVec 64) (err2 : ℤ) (remote : Remote)
  /-- A packet is received on a port. -/
  | packet (env : Surroundings) (portNo : BitVec 16) (bytes : List Byte)
  /-- Entries time out. -/
  | timeouts (env : Surroundings)
  /-- A connection is destroyed. -/
  | close (remote : Remote)

namespace ControlEvent

/-- What the datapath does. -/
def run : ControlEvent → ControlM PUnit
  | message env remote msg => do
      let _error ← receive env remote msg
      pure ⟨⟩
  | dump now err2 remote => runDump now err2 remote
  | packet env portNo bytes => do
      let ctl ← get
      match ctl.dpLookupPort portNo with
      | none => pure ⟨⟩
      | some p => forward (Switch.fwdPortInput env.now env.fuel (received bytes) p)
  | timeouts env => runTimeouts env
  | close remote => setDump remote none

/-- When it can happen: messages are taken from a connection without a dump, and packets fit into
the buffer that `dp_run` has for them. -/
def Enabled (ctl : Control) : ControlEvent → Prop
  | message _ remote msg => ctl.cbDump remote = none ∧ doRecv ofpVersion msg = true
  | dump _ _ remote => (ctl.cbDump remote).isSome = true
  | packet _ portNo bytes => portNo ∈ ctl.portList ∧ bytes.length ≤ 18 + 1024
  | timeouts _ | close _ => True

end ControlEvent

/-- The step relation of a datapath with its connections. -/
def Control.Step (ctl : Control) (e : ControlEvent) (ctl' : Control) : Prop :=
  e.Enabled ctl ∧ (e.run ctl).2 = .ok (⟨⟩, ctl')

/-- The datapaths that have just been created: there are no entries, and nothing has been sent. -/
inductive Control.Initial (sizes : TableSizes) : Control → Prop
  | start {sw : Switch} {now : BitVec 64} (hdp : sw.toDatapath = .init sizes now)
    (hsent : sw.sent = []) (id : BitVec 64) (dpDesc : List Byte) :
    Initial sizes (.start sw id dpDesc)

end OfAgent
