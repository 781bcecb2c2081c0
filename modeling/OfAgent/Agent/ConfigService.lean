import OfAgent.Lib.Dict
import OfAgent.Lib.Separated
import OfAgent.Lib.Transition

/-!
# The queue configuration service

`configService.py`: a dictionary of queues that is changed by requests, and that is written to a
file after every one of them. The file is read when the service starts.

* `ConfigValue`, `QueueConf`: the values of a request. Of the ones that are no strings only their
  text matters, which may be any.
* `ConfigService`: the dictionary and the file; `saveConfig`, `readConfig`, `doPut`, `doDelete`: the
  functions. A dictionary is written in some order.
* `ConfigService.saved_iff`: reading the file gives the dictionary back exactly if it consists of
  strings without commas and ends of lines.
-/

namespace OfAgent

/-! ### Queues -/

/-- A string of Python. -/
abbrev Text := List Char

/-- A JSON value: a string, or one of the other values `ν`. -/
inductive ConfigValue (ν : Type*)
  | string (s : Text)
  | other (v : ν)
  deriving DecidableEq, Repr

/-- The configuration of a queue, with the attributes of a request that are written. -/
structure QueueConf (ν : Type*) where
  /-- `port-id`. -/
  portId : ConfigValue ν
  /-- `min-rate`. -/
  minRate : ConfigValue ν
  /-- `max-rate`. -/
  maxRate : ConfigValue ν
  deriving DecidableEq, Repr

/-- `global_data`. -/
abbrev QueueTable (ν : Type*) := List (Text × QueueConf ν)

section Functions

variable {ν : Type*} (str : ν → Text)

/-- `'%s' % value`, where `str` is the text of a value that is no string. -/
def ConfigValue.text : ConfigValue ν → Text
  | string s => s
  | other v => str v

/-- The configuration in a JSON object, unless an attribute is missing. -/
def QueueConf.ofJson (members : List (Text × ConfigValue ν)) : Option (QueueConf ν) := do
  let portId ← members.lookup "port-id".toList
  let minRate ← members.lookup "min-rate".toList
  let maxRate ← members.lookup "max-rate".toList
  pure { portId, minRate, maxRate }

/-- The columns of a queue. -/
def queueRow (p : Text × QueueConf ν) : List Text :=
  [p.1, p.2.portId.text str, p.2.minRate.text str, p.2.maxRate.text str]

/-- `save_config`, for the items of the dictionary in some order. -/
def saveConfig (items : QueueTable ν) : Text := Separated.encode ',' '\n' (items.map (queueRow str))

/-- One turn of the loop of `read_config`, unless an index is out of range. -/
def readRow (globalData : QueueTable ν) : List Text → Option (QueueTable ν)
  | queueId :: portId :: minRate :: maxRate :: _ =>
      some (Dict.set queueId ⟨.string portId, .string minRate, .string maxRate⟩ globalData)
  | _ => none

/-- `read_config` in a new process. -/
def readConfig (file : Text) : Option (QueueTable ν) :=
  (Separated.decode ',' '\n' file).foldlM readRow []

/-- `do_PUT`, unless an attribute is missing. -/
def doPut (queueId : Text) (json : List (Text × ConfigValue ν)) (globalData : QueueTable ν) :
    Option (QueueTable ν) :=
  (QueueConf.ofJson json).map fun conf => Dict.set queueId conf globalData

/-- `do_DELETE`, unless there is no such queue. -/
def doDelete (queueId : Text) (globalData : QueueTable ν) : Option (QueueTable ν) :=
  if (globalData.lookup queueId).isNone then none
  else some (globalData.filter fun p => p.1 ≠ queueId)

end Functions

/-! ### The service -/

/-- A request. -/
inductive ConfigRequest (ν : Type*)
  | put (queueId : Text) (json : List (Text × ConfigValue ν))
  | delete (queueId : Text)

/-- The service with its file. -/
structure ConfigService (ν : Type*) where
  /-- `global_data`. -/
  globalData : QueueTable ν
  /-- The file. -/
  file : Text

namespace ConfigService

variable {ν : Type*} {str : ν → Text} {s₀ s s' : ConfigService ν} {request : ConfigRequest ν}

/-- The dictionary behind a successful request. -/
def change (globalData : QueueTable ν) : ConfigRequest ν → Option (QueueTable ν)
  | .put queueId json => doPut queueId json globalData
  | .delete queueId => doDelete queueId globalData

/-- A successful request. -/
def Step (str : ν → Text) (s : ConfigService ν) (request : ConfigRequest ν) (s' : ConfigService ν) :
    Prop :=
  change s.globalData request = some s'.globalData ∧
    ∃ items : QueueTable ν, items.Perm s'.globalData ∧ s'.file = saveConfig str items

/-- The service has been started. -/
def Started (s : ConfigService ν) : Prop := readConfig s.file = some s.globalData

/-! ### Dictionaries -/

/-- No queue is there twice. -/
def Distinct (globalData : QueueTable ν) : Prop := globalData.Pairwise fun p q => p.1 ≠ q.1

/-- The value is a string that can stand in a column. -/
def PlainString (value : ConfigValue ν) : Prop :=
  ∃ s, value = .string s ∧ Separated.Plain ',' '\n' s

/-- The queue consists of such strings. -/
def PlainQueue (p : Text × QueueConf ν) : Prop :=
  Separated.Plain ',' '\n' p.1 ∧
    PlainString p.2.portId ∧ PlainString p.2.minRate ∧ PlainString p.2.maxRate

/-- The same queues with the same values. -/
def SameQueues (d d' : QueueTable ν) : Prop := ∀ queueId, d.lookup queueId = d'.lookup queueId

/-- A request leaves every queue there once. -/
theorem Distinct.change {d d' : QueueTable ν} (h : Distinct d)
    (hchange : change d request = some d') : Distinct d' := by
  cases request with
  | put queueId json =>
    obtain ⟨conf, -, rfl⟩ := Option.map_eq_some_iff.1 hchange
    exact Dict.pairwise_set h queueId conf
  | delete queueId =>
    rw [ConfigService.change, doDelete] at hchange
    split at hchange
    · cases hchange
    · cases hchange
      exact h.filter _

/-- What is read. -/
theorem readRow_eq_some {d d' : QueueTable ν} {row : List Text} (h : readRow d row = some d') :
    ∃ queueId portId minRate maxRate rest,
      row = queueId :: portId :: minRate :: maxRate :: rest ∧
        d' = Dict.set queueId ⟨.string portId, .string minRate, .string maxRate⟩ d := by
  unfold readRow at h
  split at h
  next queueId portId minRate maxRate rest =>
    exact ⟨queueId, portId, minRate, maxRate, rest, rfl, (Option.some.inj h).symm⟩
  next => cases h

/-- What is read consists of columns, and no queue is there twice. -/
theorem of_readRows {rows : List (List Text)} {d d' : QueueTable ν}
    (hplain : ∀ row ∈ rows, ∀ field ∈ row, Separated.Plain ',' '\n' field)
    (hd : Distinct d ∧ ∀ p ∈ d, PlainQueue p) (h : rows.foldlM readRow d = some d') :
    Distinct d' ∧ ∀ p ∈ d', PlainQueue p := by
  induction rows generalizing d with
  | nil =>
    cases h
    exact hd
  | cons row rows ih =>
    rw [List.foldlM_cons] at h
    obtain ⟨d₁, hrow, hrest⟩ := Option.bind_eq_some_iff.1 h
    obtain ⟨queueId, portId, minRate, maxRate, rest, rfl, rfl⟩ := readRow_eq_some hrow
    have hfields := hplain _ List.mem_cons_self
    simp only [List.mem_cons, forall_eq_or_imp] at hfields
    refine ih (fun r hr => hplain r (List.mem_cons_of_mem _ hr))
      ⟨Dict.pairwise_set hd.1 _ _, fun p hp => ?_⟩ hrest
    obtain rfl | ⟨hp, -⟩ := Dict.mem_set_iff.1 hp
    · exact ⟨hfields.1, ⟨_, rfl, hfields.2.1⟩, ⟨_, rfl, hfields.2.2.1⟩, ⟨_, rfl, hfields.2.2.2.1⟩⟩
    · exact hd.2 p hp

theorem of_readConfig {file : Text} {d : QueueTable ν} (h : readConfig file = some d) :
    Distinct d ∧ ∀ p ∈ d, PlainQueue p :=
  of_readRows (fun _ hrow _ hfield => Separated.plain_of_mem_decode hrow hfield)
    ⟨.nil, fun _ hp => absurd hp List.not_mem_nil⟩ h

/-- Reading the columns of queues that consist of plain strings sets these queues. -/
theorem readRows_queueRow {items : QueueTable ν} (hplain : ∀ p ∈ items, PlainQueue p)
    (d : QueueTable ν) :
    (items.map (queueRow str)).foldlM readRow d =
      some (items.foldl (fun d p => Dict.set p.1 p.2 d) d) := by
  induction items generalizing d with
  | nil => rfl
  | cons p items ih =>
    obtain ⟨queueId, portId, minRate, maxRate⟩ := p
    obtain ⟨-, ⟨portId, rfl, -⟩, ⟨minRate, rfl, -⟩, ⟨maxRate, rfl, -⟩⟩ :=
      hplain _ List.mem_cons_self
    rw [List.map_cons, List.foldlM_cons]
    exact ih (fun q hq => hplain q (List.mem_cons_of_mem _ hq)) _

/-- Reading what has been written gives the queues back, if they consist of plain strings. -/
theorem readConfig_saveConfig {items : QueueTable ν} (hplain : ∀ p ∈ items, PlainQueue p) :
    readConfig (saveConfig str items) = some (Dict.ofPairs items) := by
  have hrows : ∀ row ∈ items.map (queueRow str),
      row ≠ [] ∧ ∀ field ∈ row, Separated.Plain ',' '\n' field := by
    intro row hrow
    obtain ⟨⟨queueId, portId, minRate, maxRate⟩, hp, rfl⟩ := List.mem_map.1 hrow
    obtain ⟨hid, ⟨portId, rfl, hport⟩, ⟨minRate, rfl, hmin⟩, ⟨maxRate, rfl, hmax⟩⟩ := hplain _ hp
    refine ⟨List.cons_ne_nil _ _, ?_⟩
    simp only [queueRow, ConfigValue.text, List.mem_cons, List.not_mem_nil, or_false,
      forall_eq_or_imp, forall_eq]
    exact ⟨hid, hport, hmin, hmax⟩
  rw [readConfig, saveConfig, Separated.decode_encode (by decide) hrows, readRows_queueRow hplain]
  rfl

theorem sameQueues_of_mem_iff {d d' : QueueTable ν} (hd : Distinct d) (hd' : Distinct d')
    (h : ∀ p, p ∈ d ↔ p ∈ d') : SameQueues d d' := by
  intro queueId
  refine Option.ext fun conf => ?_
  rw [Dict.lookup_iff hd, Dict.lookup_iff hd', h]

/-- A dictionary that is read back consists of plain strings. -/
theorem plain_of_sameQueues {file : Text} {d globalData : QueueTable ν}
    (hdistinct : Distinct globalData) (hread : readConfig file = some d)
    (hsame : SameQueues d globalData) : ∀ p ∈ globalData, PlainQueue p := by
  intro p hp
  obtain ⟨hd, hplain⟩ := of_readConfig hread
  have hlookup := (Dict.lookup_iff hdistinct).2 hp
  rw [← hsame] at hlookup
  exact hplain p ((Dict.lookup_iff hd).1 hlookup)

/-! ### Runs -/

theorem distinct_of_reachable (hstart : s₀.Started) (hrun : Transition.Reachable (Step str) s₀ s) :
    Distinct s.globalData :=
  hrun.invariant (fun s => Distinct s.globalData) (of_readConfig hstart).1
    fun _ _ _ hs _ hstep => hs.change hstep.1

/-- In every run, reading the file behind a request in a new process gives the same queues with the
same values exactly if all of them are strings without commas and ends of lines. -/
theorem saved_iff (str : ν → Text) (hstart : s₀.Started)
    (hrun : Transition.Reachable (Step str) s₀ s) (hstep : Step str s request s') :
    (∃ d, readConfig s'.file = some d ∧ SameQueues d s'.globalData) ↔
      ∀ p ∈ s'.globalData, PlainQueue p := by
  have hdistinct : Distinct s'.globalData := distinct_of_reachable hstart (hrun.step hstep)
  obtain ⟨-, items, hperm, hfile⟩ := hstep
  constructor
  · rintro ⟨d, hread, hsame⟩
    exact plain_of_sameQueues hdistinct hread hsame
  · intro hplain
    have hitems : Distinct items := (hperm.pairwise_iff fun h => Ne.symm h).2 hdistinct
    refine ⟨Dict.ofPairs items, ?_, sameQueues_of_mem_iff (Dict.pairwise_ofPairs _) hdistinct
      fun p => ?_⟩
    · rw [hfile]
      exact readConfig_saveConfig fun p hp => hplain p (hperm.mem_iff.1 hp)
    · rw [Dict.mem_ofPairs_of_distinct hitems, hperm.mem_iff]

/-- The service with an empty file. -/
def empty : ConfigService ν := ⟨[], []⟩

/-- A request for a queue with one value for all attributes. -/
def putAll (queueId : Text) (value : ConfigValue ν) : ConfigRequest ν :=
  .put queueId [("port-id".toList, value), ("min-rate".toList, value), ("max-rate".toList, value)]

theorem step_putAll (str : ν → Text) (queueId : Text) (value : ConfigValue ν) :
    Step str empty (putAll queueId value)
      ⟨[(queueId, ⟨value, value, value⟩)], saveConfig str [(queueId, ⟨value, value, value⟩)]⟩ :=
  ⟨rfl, _, .refl _, rfl⟩

/-- Strings come back. -/
theorem saved_iff_string : ∃ (s : ConfigService ℕ) (d : QueueTable ℕ),
    Step (Nat.toDigits 10) empty (putAll ['5'] (.string ['7'])) s ∧ readConfig s.file = some d ∧
      SameQueues d s.globalData := by
  have hstep := step_putAll (Nat.toDigits 10) ['5'] (.string ['7'])
  have hplain : PlainString (.string ['7'] : ConfigValue ℕ) := ⟨_, rfl, by decide⟩
  have hstart : (empty : ConfigService ℕ).Started := rfl
  obtain ⟨d, hread, hsame⟩ := (saved_iff (Nat.toDigits 10) hstart .refl hstep).2 fun p hp => by
    rw [List.mem_singleton.1 hp]
    exact ⟨by decide, hplain, hplain, hplain⟩
  exact ⟨_, d, hstep, hread, hsame⟩

/-- Numbers come back as strings, and a queue with a comma in its id does not come back at all. -/
theorem not_saved :
    (¬ ∀ s : ConfigService ℕ, Step (Nat.toDigits 10) empty (putAll ['5'] (.other 7)) s →
      ∃ d, readConfig s.file = some d ∧ SameQueues d s.globalData) ∧
    ¬ ∀ s : ConfigService ℕ,
      Step (Nat.toDigits 10) empty (putAll ['5', ',', '6'] (.string ['7'])) s →
        ∃ d, readConfig s.file = some d ∧ SameQueues d s.globalData := by
  constructor
  · intro hall
    obtain ⟨d, hread, hsame⟩ := hall _ (step_putAll _ _ _)
    obtain ⟨-, ⟨s, hs, -⟩, -⟩ := plain_of_sameQueues (List.pairwise_singleton _ _) hread hsame _
      List.mem_cons_self
    cases hs
  · intro hall
    obtain ⟨d, hread, hsame⟩ := hall _ (step_putAll _ _ _)
    obtain ⟨hid, -⟩ := plain_of_sameQueues (List.pairwise_singleton _ _) hread hsame _
      List.mem_cons_self
    exact absurd hid (by decide)

end ConfigService

end OfAgent
