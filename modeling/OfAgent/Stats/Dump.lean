import OfAgent.Datapath
import OfAgent.Lib.Batching
import OfAgent.Table.Iterate

/-!
# Statistics replies

The flow and aggregate statistics of `datapath.c`. A flow statistics request is answered by
several replies: `stats_dump` calls `flow_stats_dump`, which fills a buffer until it holds 4096
bytes and saves where it was stopped, until a buffer stays below that.

* `statsIterate`: the loop over the tables that both kinds of statistics share.
* `flowStatsDump`, `statsDump`: one reply; `flowStatsReplies`: the replies to a request.
* `aggregateStatsDump`: the totals.
-/

namespace OfAgent

/-- `struct ofp_flow_stats`. -/
structure OfpFlowStats where
  /-- Length of this entry. -/
  length : BitVec 16
  /-- ID of table flow came from. -/
  tableId : BitVec 8
  /-- Description of fields. -/
  ofpMatch : OfpMatch
  /-- Time flow has been alive in seconds. -/
  durationSec : BitVec 32
  /-- Time flow has been alive in nanoseconds beyond `durationSec`. -/
  durationNsec : BitVec 32
  /-- Priority of the entry. -/
  priority : BitVec 16
  /-- Number of seconds idle before expiration. -/
  idleTimeout : BitVec 16
  /-- Number of seconds before expiration. -/
  hardTimeout : BitVec 16
  /-- Opaque controller-issued identifier. -/
  cookie : BitVec 64
  /-- Number of packets in flow. -/
  packetCount : BitVec 64
  /-- Number of bytes in flow. -/
  byteCount : BitVec 64
  /-- The bytes of the actions. -/
  actions : List Byte
  deriving DecidableEq, Repr

/-- `sizeof(struct ofp_flow_stats)`. -/
def sizeofOfpFlowStats : ℕ := 88

/-- `sizeof(struct ofp_stats_reply)`. -/
def sizeofOfpStatsReply : ℕ := 12

/-- `MAX_FLOW_STATS_BYTES`. -/
def maxFlowStatsBytes : ℕ := 4096

/-- `EMERG_TABLE_ID_FOR_STATS`. -/
def emergTableIdForStats : BitVec 8 := 0xfe

/-- The table number that asks for all tables. -/
def allTablesForStats : BitVec 8 := 0xff

/-- The bytes that `fill_flow_stats` puts for an entry. -/
def flowStatsLength (e : ℕ × SwFlow) : ℕ := sizeofOfpFlowStats + e.2.actions.length

/-- What `fill_flow_stats` puts. -/
def fillFlowStats (flow : SwFlow) (tableIdx : ℕ) (now : BitVec 64) : OfpFlowStats :=
  let tdiff := now - flow.created
  let sec := (tdiff / 1000).setWidth 32
  { length := BitVec.ofNat 16 (flowStatsLength (tableIdx, flow))
    tableId := BitVec.ofNat 8 tableIdx
    ofpMatch :=
      { wildcards := flow.key.wildcards
        inPort := flow.key.flow.inPort
        dlSrc := flow.key.flow.dlSrc
        dlDst := flow.key.flow.dlDst
        dlVlan := flow.key.flow.dlVlan
        dlVlanPcp := flow.key.flow.dlVlanPcp
        dlType := flow.key.flow.dlType
        nwTos := flow.key.flow.nwTos
        nwProto := flow.key.flow.nwProto
        nwSrc := flow.key.flow.nwSrc
        nwDst := flow.key.flow.nwDst
        tpSrc := flow.key.flow.tpSrc
        tpDst := flow.key.flow.tpDst }
    durationSec := sec
    durationNsec := ((tdiff - (sec * 1000).setWidth 64) * 1000000).setWidth 32
    priority := flow.priority
    idleTimeout := flow.idleTimeout
    hardTimeout := flow.hardTimeout
    cookie := flow.cookie
    packetCount := flow.packetCount
    byteCount := flow.byteCount
    actions := flow.actions }

/-! ### Iterating over the tables -/

/-- A working table. -/
inductive SwTable
  /-- A table made by `table_hash2_create`. -/
  | hash2 (t2 : SwTableHash2)
  /-- A table made by `table_linear_create`. -/
  | linear (tl : SwTableLinear)

/-- The function pointer `iterate` of a table. -/
def SwTable.iterate {σ : Type*} (key : SwFlowKey) (outPort : BitVec 16)
    (callback : σ → SwFlow → σ × ℤ) (position : SwTablePosition) (s : σ) :
    SwTable → σ × SwTablePosition × ℤ
  | .hash2 t2 => t2.iterate key outPort callback position s
  | .linear tl => tl.iterate key outPort callback position s

/-- `chain->tables`. -/
def SwChain.tables (ch : SwChain) : List SwTable := [.hash2 ch.hash2, .linear ch.linear]

/-- The request reads the table with a given number. -/
def OfpFlowStatsRequest.reads (rq : OfpFlowStatsRequest) (tableIdx : ℕ) : Prop :=
  rq.tableId = allTablesForStats ∨ rq.tableId.toNat = tableIdx

instance (rq : OfpFlowStatsRequest) (tableIdx : ℕ) : Decidable (rq.reads tableIdx) :=
  inferInstanceAs (Decidable (_ ∨ _))

/-- The key of a request. -/
def OfpFlowStatsRequest.matchKey (rq : OfpFlowStatsRequest) : SwFlowKey :=
  flowExtractMatch rq.ofpMatch

/-- The loop over the tables from number `tableIdx` on: the state of the callback, the table and
the position where it was stopped, and the error. -/
def iterateTables {σ : Type*} (rq : OfpFlowStatsRequest) (callback : σ → ℕ × SwFlow → σ × ℤ) :
    List SwTable → ℕ × SwTablePosition → σ → σ × (ℕ × SwTablePosition) × ℤ
  | [], c, s => (s, c, 0)
  | table :: tables, (tableIdx, position), s =>
      if rq.reads tableIdx then
        match table.iterate rq.matchKey rq.outPort (fun s flow => callback s (tableIdx, flow))
            position s with
        | (s, position, error) =>
            if error ≠ 0 then (s, (tableIdx, position), error)
            else iterateTables rq callback tables (tableIdx + 1, .zero) s
      else (s, (tableIdx, position), 0)

/-- The body of `flow_stats_dump` and of `aggregate_stats_dump`: the emergency table, or the loop
over the working tables. -/
def statsIterate {σ : Type*} (ch : SwChain) (rq : OfpFlowStatsRequest)
    (callback : σ → ℕ × SwFlow → σ × ℤ) (c : ℕ × SwTablePosition) (s : σ) :
    σ × (ℕ × SwTablePosition) × ℤ :=
  if rq.tableId = emergTableIdForStats then
    match ch.emergTable.iterate rq.matchKey rq.outPort (fun s flow => callback s (c.1, flow)) c.2 s
      with
    | (s, position, error) => (s, (c.1, position), error)
  else iterateTables rq callback (ch.tables.drop c.1) c s

/-- The table and the position at which both kinds of statistics begin. -/
def statsStart (rq : OfpFlowStatsRequest) : ℕ × SwTablePosition :=
  (if rq.tableId = allTablesForStats then 0 else rq.tableId.toNat, .zero)

/-! ### Flow statistics -/

/-- The buffer of a reply: the entries that have been put into it, each with the number of its
table, and `buffer->size`. -/
abbrev StatsBuffer : Type := List (ℕ × SwFlow) × ℕ

/-- `struct flow_stats_state`, without the buffer and the time, which last for one call only. -/
structure FlowStatsState where
  /-- The table and the position where the iteration goes on. -/
  cursor : ℕ × SwTablePosition
  /-- The request. -/
  rq : OfpFlowStatsRequest

/-- `flow_stats_init`. -/
def flowStatsInit (rq : OfpFlowStatsRequest) : FlowStatsState := ⟨statsStart rq, rq⟩

/-- `flow_stats_dump_callback`. -/
def flowStatsDumpCallback (buffer : StatsBuffer) (e : ℕ × SwFlow) : StatsBuffer × ℤ :=
  let size := buffer.2 + flowStatsLength e
  ((buffer.1 ++ [e], size), if maxFlowStatsBytes ≤ size then 1 else 0)

/-- `flow_stats_dump`: the state, the buffer, and the return value. -/
def flowStatsDump (ch : SwChain) (s : FlowStatsState) (buffer : StatsBuffer) :
    FlowStatsState × StatsBuffer × Bool :=
  match statsIterate ch s.rq flowStatsDumpCallback s.cursor buffer with
  | (buffer, cursor, _) => ({ s with cursor }, buffer, decide (maxFlowStatsBytes ≤ buffer.2))

/-- A reply to a flow statistics request. -/
structure StatsReply where
  /-- The flag `OFPSF_REPLY_MORE`. -/
  more : Bool
  /-- The time of the reply. -/
  now : BitVec 64
  /-- The entries in the body. -/
  entries : List (ℕ × SwFlow)

/-- The body of a reply. -/
def StatsReply.body (r : StatsReply) : List OfpFlowStats :=
  r.entries.map fun e => fillFlowStats e.2 e.1 r.now

/-- `stats_dump` for flow statistics: the reply that is sent and the state. -/
def statsDump (ch : SwChain) (now : BitVec 64) (s : FlowStatsState) :
    StatsReply × FlowStatsState :=
  match flowStatsDump ch s ([], sizeofOfpStatsReply) with
  | (s, buffer, more) => (⟨more, now, buffer.1⟩, s)

/-- The replies of at most `fuel` calls of `stats_dump`, the calls being made at the times `nows`;
the calls end when the dump is done. -/
def flowStatsReplies (ch : SwChain) (nows : ℕ → BitVec 64) (rq : OfpFlowStatsRequest)
    (fuel : ℕ) : List StatsReply :=
  Batching.run (fun k => statsDump ch (nows k)) StatsReply.more fuel 0 (flowStatsInit rq)

/-! ### Aggregate statistics -/

/-- `struct ofp_aggregate_stats_reply`. -/
structure OfpAggregateStatsReply where
  /-- Number of packets in flows. -/
  packetCount : BitVec 64
  /-- Number of bytes in flows. -/
  byteCount : BitVec 64
  /-- Number of flows. -/
  flowCount : BitVec 32
  deriving DecidableEq, Repr

/-- `aggregate_stats_dump_callback`. -/
def aggregateStatsDumpCallback (rpy : OfpAggregateStatsReply) (e : ℕ × SwFlow) :
    OfpAggregateStatsReply × ℤ :=
  (⟨rpy.packetCount + e.2.packetCount, rpy.byteCount + e.2.byteCount, rpy.flowCount + 1⟩, 0)

/-- `aggregate_stats_dump`. -/
def aggregateStatsDump (ch : SwChain) (rq : OfpFlowStatsRequest) : OfpAggregateStatsReply :=
  (statsIterate ch rq aggregateStatsDumpCallback (statsStart rq) ⟨0, 0, 0⟩).1

end OfAgent
