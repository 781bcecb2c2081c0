import OfAgent.Agent.ConfigService
import OfAgent.OpenFlow

/-!
# Failed requests to the configuration service

`do_PUT`, `do_DELETE` and `save_config` of `configService.py` with everything that makes them fail:
bodies of any type, values that cannot be written, and a file that cannot be opened. Strings that
come from the file or from a URL consist of bytes, and strings of a body of characters.

* `JsonBody`, `RequestBody`: the body of a request; `StoredConf`: what the dictionary holds.
* `configLine`: the line of a queue, or the exception.
* `ConfigServer`: the dictionary and the file; `ConfigServer.handle`: a request, with the error and
  what the error leaves behind.
* `Writable`: what can be written.
* `ConfigServer.Spared`, `ConfigServer.keepsOnError_iff`: the requests that change nothing when they
  fail.
-/

namespace OfAgent

/-! ### Requests -/

/-- The value of `request.json`. -/
inductive JsonBody (ν : Type*)
  /-- `None`: no JSON, or `null`. -/
  | null
  /-- A number or a truth value. -/
  | other (v : ν)
  /-- A string. -/
  | string (s : Text)
  /-- A list. -/
  | array (elements : List (ConfigValue ν))
  /-- A dictionary, by what it has for a key. -/
  | object (members : Text → Option (ConfigValue ν))

/-- The body of a request, as `request.json` finds it. -/
inductive RequestBody (ν : Type*)
  /-- The content is not JSON by its type. -/
  | absent
  /-- There are more than `MEMFILE_MAX` bytes. -/
  | tooLarge
  /-- The content is no JSON. -/
  | malformed
  /-- A JSON value. -/
  | json (value : JsonBody ν)

/-- A request. -/
inductive ServerRequest (ν : Type*)
  | put (queueId : List Byte) (body : RequestBody ν)
  | delete (queueId : List Byte)

/-- An error response or an exception. -/
inductive ConfigError
  | httpError (status : ℕ) (text : String)
  | typeError
  | valueError
  | keyError (key : String)
  | ioError
  | unicodeDecodeError
  | unicodeEncodeError
  deriving DecidableEq, Repr

/-- The attributes that `do_PUT` looks for. -/
def configAttributes : List String := ["port-id", "min-rate", "max-rate"]

section Functions

variable {ν : Type*}

/-- The value is this string. -/
def ConfigValue.isString (t : Text) : ConfigValue ν → Bool
  | string s => s == t
  | other _ => false

/-- `attr in json`. -/
def JsonBody.contains (attr : String) : JsonBody ν → Except ConfigError Bool
  | null => .error .typeError
  | other _ => .error .typeError
  | string s => .ok (decide (attr.toList <:+: s))
  | array elements => .ok (elements.any (ConfigValue.isString attr.toList))
  | object members => .ok (members attr.toList).isSome

/-- The loop of `do_PUT`. -/
def checkAttributes (json : JsonBody ν) : List String → Except ConfigError Unit
  | [] => .ok ()
  | attr :: attrs =>
    match json.contains attr with
    | .error e => .error e
    | .ok false => .error (.httpError 400 ("Missing attribute: " ++ attr))
    | .ok true => checkAttributes json attrs

/-- `request.json`. -/
def RequestBody.read : RequestBody ν → Except ConfigError (JsonBody ν)
  | absent => .ok .null
  | tooLarge => .error (.httpError 413 "Request to large")
  | malformed => .error .valueError
  | json value => .ok value

/-- What `do_PUT` stores, unless it refuses the body. -/
def acceptBody (body : RequestBody ν) : Except ConfigError (JsonBody ν) :=
  match body.read with
  | .error e => .error e
  | .ok json =>
    match checkAttributes json configAttributes with
    | .error e => .error e
    | .ok () => .ok json

/-! ### Lines -/

/-- The configuration of a queue, as it is stored. -/
inductive StoredConf (ν : Type*)
  /-- By `read_config`. -/
  | ofFile (portId minRate maxRate : List Byte)
  /-- By `do_PUT`. -/
  | ofRequest (json : JsonBody ν)

/-- A value of a line. -/
inductive Column (ν : Type*)
  /-- A string of bytes. -/
  | bytes (b : List Byte)
  /-- A value of a body. -/
  | value (v : ConfigValue ν)

/-- `queue_conf[attr]`. -/
def StoredConf.getItem (attr : String) : StoredConf ν → Except ConfigError (Column ν)
  | ofFile portId minRate maxRate =>
      if attr = "port-id" then .ok (.bytes portId)
      else if attr = "min-rate" then .ok (.bytes minRate)
      else if attr = "max-rate" then .ok (.bytes maxRate)
      else .error (.keyError attr)
  | ofRequest (.object members) =>
    match members attr.toList with
    | some v => .ok (.value v)
    | none => .error (.keyError attr)
  -- the indices of lists and strings are numbers, and other values have none
  | ofRequest _ => .error .typeError

/-- The values for the attributes. -/
def StoredConf.columns (conf : StoredConf ν) : List String → Except ConfigError (List (Column ν))
  | [] => .ok []
  | attr :: attrs =>
    match conf.getItem attr with
    | .error e => .error e
    | .ok column =>
      match conf.columns attrs with
      | .error e => .error e
      | .ok columns => .ok (column :: columns)

namespace Column

/-- The value is a string of characters. -/
def isUnicode : Column ν → Bool
  | value (.string _) => true
  | _ => false

/-- The value is not a string of bytes with a byte that is not ASCII. -/
def decodes : Column ν → Bool
  | bytes b => b.all fun byte => byte.toNat < 128
  | value _ => true

/-- The value is not a string of characters with a character that is not ASCII. -/
def encodes : Column ν → Bool
  | value (.string s) => s.all fun c => c.toNat < 128
  | _ => true

/-- The bytes of the value, where `str` are those of a value that is no string. -/
def text (str : ν → List Byte) : Column ν → List Byte
  | bytes b => b
  | value (.string s) => s.map fun c => BitVec.ofNat 8 c.toNat
  | value (.other v) => str v

end Column

variable (str : ν → List Byte)

/-- `f.write("%s,%s,%s,%s\n" % columns)`: the bytes. A line with a string of characters is one
itself: its strings of bytes are decoded, and then it is encoded, both as ASCII. -/
def formatLine (columns : List (Column ν)) : Except ConfigError (List Byte) :=
  if columns.any Column.isUnicode ∧ ¬ columns.all Column.decodes then .error .unicodeDecodeError
  else if ¬ columns.all Column.encodes then .error .unicodeEncodeError
  else .ok (List.intercalate [0x2c] (columns.map (Column.text str)) ++ [0x0a])

/-- The line of a queue. -/
def configLine (p : List Byte × StoredConf ν) : Except ConfigError (List Byte) :=
  match p.2.columns configAttributes with
  | .error e => .error e
  | .ok columns => formatLine str (.bytes p.1 :: columns)

/-- The loop of `save_config`: the exception, and what the file holds behind it. -/
def writeLines : List (List Byte × StoredConf ν) → List Byte → Option ConfigError × List Byte
  | [], file => (none, file)
  | p :: items, file =>
    match configLine str p with
    | .error e => (some e, file)
    | .ok line => writeLines items (file ++ line)

end Functions

/-! ### The service -/

/-- `global_data`. -/
structure ConfigTable (ν : Type*) where
  /-- The queues. -/
  entries : List (List Byte × StoredConf ν)
  /-- No queue is there twice. -/
  distinct : entries.Pairwise fun p q => p.1 ≠ q.1

/-- What the service depends on. -/
structure ConfigEnv (ν : Type*) where
  /-- The text of a value that is no string. -/
  str : ν → List Byte
  /-- The file can be opened. -/
  opens : Bool
  /-- `global_data.items()`: the queues in some order. -/
  items : ConfigTable ν → List (List Byte × StoredConf ν)
  /-- All queues are there. -/
  items_perm : ∀ table, (items table).Perm table.entries

/-- The service with its file. -/
structure ConfigServer (ν : Type*) where
  /-- `global_data`. -/
  globalData : ConfigTable ν
  /-- What the file holds. -/
  file : List Byte

namespace ConfigTable

variable {ν : Type*}

/-- No queues. -/
def empty : ConfigTable ν := ⟨[], .nil⟩

/-- `global_data[queue_id]`, if there is such a queue. -/
def lookup (table : ConfigTable ν) (queueId : List Byte) : Option (StoredConf ν) :=
  table.entries.lookup queueId

/-- The queue with another configuration, in its place. -/
def replaceConf (queueId : List Byte) (conf : StoredConf ν) (p : List Byte × StoredConf ν) :
    List Byte × StoredConf ν :=
  if p.1 = queueId then (queueId, conf) else p

theorem fst_replaceConf (queueId : List Byte) (conf : StoredConf ν)
    (p : List Byte × StoredConf ν) : (replaceConf queueId conf p).1 = p.1 := by
  unfold replaceConf
  split
  next heq => exact heq.symm
  next => rfl

theorem distinct_replace (table : ConfigTable ν) (queueId : List Byte) (conf : StoredConf ν) :
    (table.entries.map (replaceConf queueId conf)).Pairwise fun p q => p.1 ≠ q.1 := by
  refine List.pairwise_map.2 (table.distinct.imp fun hne => ?_)
  rwa [fst_replaceConf, fst_replaceConf]

theorem distinct_concat {table : ConfigTable ν} {queueId : List Byte}
    (h : table.lookup queueId = none) (conf : StoredConf ν) :
    (table.entries ++ [(queueId, conf)]).Pairwise fun p q => p.1 ≠ q.1 := by
  refine List.pairwise_append.2 ⟨table.distinct, List.pairwise_singleton _ _, ?_⟩
  intro p hp q hq heq
  obtain rfl := List.mem_singleton.1 hq
  exact bne_iff_ne.1 (List.lookup_eq_none_iff.1 h p hp) heq.symm

/-- `global_data[queue_id] = conf`: a queue that is there keeps its place. -/
def set (queueId : List Byte) (conf : StoredConf ν) (table : ConfigTable ν) : ConfigTable ν :=
  if h : table.lookup queueId =
    none then ⟨table.entries ++ [(queueId, conf)], distinct_concat h conf⟩
  else ⟨table.entries.map (replaceConf queueId conf), table.distinct_replace queueId conf⟩

/-- `del global_data[queue_id]`. -/
def erase (queueId : List Byte) (table : ConfigTable ν) : ConfigTable ν :=
  ⟨table.entries.filter fun p => p.1 ≠ queueId, table.distinct.filter _⟩

end ConfigTable

namespace ConfigServer

variable {ν : Type*} (env : ConfigEnv ν)

/-- `save_config`: the file is truncated when it is opened. -/
def saveConfig (s : ConfigServer ν) : Option ConfigError × ConfigServer ν :=
  if env.opens then
    let (e, file) := writeLines env.str (env.items s.globalData) []
    (e, { s with file })
  else (some .ioError, s)

/-- `do_PUT`. -/
def doPut (queueId : List Byte) (body : RequestBody ν) (s : ConfigServer ν) :
    Option ConfigError × ConfigServer ν :=
  match acceptBody body with
  | .error e => (some e, s)
  | .ok json => saveConfig env { s with globalData := s.globalData.set queueId (.ofRequest json) }

/-- `do_DELETE`. -/
def doDelete (queueId : List Byte) (s : ConfigServer ν) : Option ConfigError × ConfigServer ν :=
  match s.globalData.lookup queueId with
  | none => (some (.httpError 404 "Queue not found"), s)
  | some _ => saveConfig env { s with globalData := s.globalData.erase queueId }

/-- A request: the error, if there is one, and what the request leaves behind. -/
def handle (s : ConfigServer ν) : ServerRequest ν → Option ConfigError × ConfigServer ν
  | .put queueId body => s.doPut env queueId body
  | .delete queueId => s.doDelete env queueId

/-- A request that ends in an error leaves the dictionary and the file as they were. -/
def KeepsOnError (s : ConfigServer ν) (request : ServerRequest ν) : Prop :=
  (s.handle env request).1 ≠ none →
    (∀ queueId, (s.handle env request).2.globalData.lookup queueId = s.globalData.lookup queueId) ∧
      (s.handle env request).2.file = s.file

end ConfigServer

/-! ### What is accepted -/

section Accepted

variable {ν : Type*} {attr : String} {json : JsonBody ν} {body : RequestBody ν}

theorem error_ne_ok {α : Type*} {e : ConfigError} {a : α} :
    (.error e : Except ConfigError α) ≠ .ok a := by
  rintro ⟨⟩

/-- The body has the name: as a key, as an element or as a part of a string. -/
def JsonBody.Holds (attr : String) : JsonBody ν → Prop
  | null => False
  | other _ => False
  | string s => attr.toList <:+: s
  | array elements => .string attr.toList ∈ elements
  | object members => members attr.toList ≠ none

theorem ConfigValue.isString_iff {t : Text} {v : ConfigValue ν} :
    v.isString t = true ↔ v = .string t := by
  cases v with
  | string s => exact beq_iff_eq.trans (by rw [ConfigValue.string.injEq])
  | other v => exact iff_of_false Bool.false_ne_true (by rintro ⟨⟩)

theorem JsonBody.contains_iff : json.contains attr = .ok true ↔ json.Holds attr := by
  cases json with
  | null => exact iff_of_false error_ne_ok id
  | other v => exact iff_of_false error_ne_ok id
  | string s =>
    show Except.ok (decide (attr.toList <:+: s)) = .ok true ↔ attr.toList <:+: s
    rw [Except.ok.injEq, decide_eq_true_eq]
  | array elements =>
    show Except.ok (elements.any (ConfigValue.isString attr.toList)) = .ok true ↔ _ ∈ elements
    rw [Except.ok.injEq, List.any_eq_true]
    constructor
    · rintro ⟨v, hv, hstring⟩
      exact ConfigValue.isString_iff.1 hstring ▸ hv
    · exact fun hv => ⟨_, hv, ConfigValue.isString_iff.2 rfl⟩
  | object members =>
    show Except.ok (members attr.toList).isSome = .ok true ↔ members attr.toList ≠ none
    rw [Except.ok.injEq, Option.isSome_iff_ne_none]

theorem checkAttributes_iff {attrs : List String} :
    checkAttributes json attrs = .ok () ↔ ∀ attr ∈ attrs, json.Holds attr := by
  induction attrs with
  | nil => exact iff_of_true rfl fun _ h => absurd h List.not_mem_nil
  | cons attr attrs ih =>
    rw [List.forall_mem_cons, ← ih, ← JsonBody.contains_iff, checkAttributes]
    cases hcontains : json.contains attr with
    | error e => exact iff_of_false error_ne_ok fun h => error_ne_ok h.1
    | ok found =>
      cases found with
      | false =>
        exact iff_of_false error_ne_ok fun h => Bool.false_ne_true (Except.ok.inj h.1)
      | true => exact (and_iff_right rfl).symm

/-- The body is accepted when it is a JSON value that has the names. -/
theorem acceptBody_iff :
    acceptBody body = .ok json ↔
      body.read = .ok json ∧ ∀ attr ∈ configAttributes, json.Holds attr := by
  unfold acceptBody
  cases body.read with
  | error e => exact iff_of_false error_ne_ok fun h => error_ne_ok h.1
  | ok value =>
    dsimp only
    cases hcheck : checkAttributes value configAttributes with
    | error e =>
      refine iff_of_false error_ne_ok fun h => ?_
      obtain rfl := Except.ok.inj h.1
      exact error_ne_ok (hcheck.symm.trans (checkAttributes_iff.2 h.2))
    | ok =>
      refine (and_iff_left_of_imp fun h => ?_).symm
      exact Except.ok.inj h ▸ checkAttributes_iff.1 hcheck

end Accepted

/-! ### What can be written -/

section Written

variable {ν : Type*} {str : ν → List Byte} {p : List Byte × StoredConf ν}

/-- The queue can be written: what comes from the file always can. Of what comes from a request it
must be a dictionary, and its strings consist of ASCII characters, and so does the identifier if
there is a string. -/
def Writable (p : List Byte × StoredConf ν) : Prop :=
  match p.2 with
  | .ofFile .. => True
  | .ofRequest (.object members) =>
      (∀ attr ∈ configAttributes, members attr.toList ≠ none) ∧
        ((∃ attr ∈ configAttributes, ∃ s, members attr.toList = some (.string s)) →
          ∀ byte ∈ p.1, byte.toNat < 128) ∧
        ∀ attr ∈ configAttributes, ∀ s, members attr.toList = some (.string s) →
          ∀ c ∈ s, c.toNat < 128
  | .ofRequest _ => False

theorem Column.any_isUnicode_iff {columns : List (Column ν)} :
    columns.any Column.isUnicode = true ↔ ∃ s, .value (.string s) ∈ columns := by
  rw [List.any_eq_true]
  constructor
  · rintro ⟨column, hcolumn, hunicode⟩
    cases column with
    | bytes b => exact absurd hunicode Bool.false_ne_true
    | value v =>
      cases v with
      | string s => exact ⟨s, hcolumn⟩
      | other v => exact absurd hunicode Bool.false_ne_true
  · rintro ⟨s, hs⟩
    exact ⟨_, hs, rfl⟩

theorem Column.all_decodes_iff {columns : List (Column ν)} :
    columns.all Column.decodes = true ↔ ∀ b, .bytes b ∈ columns → ∀ byte ∈ b, byte.toNat < 128 := by
  rw [List.all_eq_true]
  constructor
  · intro h b hb byte hbyte
    exact of_decide_eq_true (List.all_eq_true.1 (h _ hb) byte hbyte)
  · intro h column hcolumn
    cases column with
    | bytes b => exact List.all_eq_true.2 fun byte hbyte => decide_eq_true (h b hcolumn byte hbyte)
    | value v => rfl

theorem Column.all_encodes_iff {columns : List (Column ν)} :
    columns.all Column.encodes = true ↔
      ∀ s, .value (.string s) ∈ columns → ∀ c ∈ s, c.toNat < 128 := by
  rw [List.all_eq_true]
  constructor
  · intro h s hs c hc
    exact of_decide_eq_true (List.all_eq_true.1 (h _ hs) c hc)
  · intro h column hcolumn
    cases column with
    | bytes b => rfl
    | value v =>
      cases v with
      | string s => exact List.all_eq_true.2 fun c hc => decide_eq_true (h s hcolumn c hc)
      | other v => rfl

/-- A line is written unless a string of it cannot be decoded or encoded. -/
theorem formatLine_iff {columns : List (Column ν)} :
    (∃ line, formatLine str columns = .ok line) ↔
      ((∃ s, .value (.string s) ∈ columns) →
        ∀ b, .bytes b ∈ columns → ∀ byte ∈ b, byte.toNat < 128) ∧
      ∀ s, .value (.string s) ∈ columns → ∀ c ∈ s, c.toNat < 128 := by
  rw [← Column.any_isUnicode_iff, ← Column.all_decodes_iff, ← Column.all_encodes_iff, formatLine]
  by_cases hdecode : columns.any Column.isUnicode ∧ ¬ columns.all Column.decodes
  · rw [if_pos hdecode]
    exact iff_of_false (fun ⟨_, h⟩ => error_ne_ok h) fun h => hdecode.2 (h.1 hdecode.1)
  · rw [if_neg hdecode]
    have hdecodes := fun hunicode => not_not.1 fun h => hdecode ⟨hunicode, h⟩
    by_cases hencode : columns.all Column.encodes = true
    · rw [if_neg (not_not.2 hencode)]
      exact iff_of_true ⟨_, rfl⟩ ⟨hdecodes, hencode⟩
    · rw [if_pos hencode]
      exact iff_of_false (fun ⟨_, h⟩ => error_ne_ok h) fun h => hencode h.2

/-- All values are there, or there is an exception. -/
theorem StoredConf.columns_spec (conf : StoredConf ν) (attrs : List String) :
    ((∀ attr ∈ attrs, ∃ column, conf.getItem attr = .ok column) ∧
      ∃ columns, conf.columns attrs = .ok columns ∧
        ∀ column, column ∈ columns ↔ ∃ attr ∈ attrs, conf.getItem attr = .ok column) ∨
    (¬ (∀ attr ∈ attrs, ∃ column, conf.getItem attr = .ok column) ∧
      ∃ e, conf.columns attrs = .error e) := by
  induction attrs with
  | nil =>
    refine .inl ⟨fun _ h => absurd h List.not_mem_nil, [], rfl, fun column => ?_⟩
    exact iff_of_false List.not_mem_nil fun ⟨_, h, _⟩ => List.not_mem_nil h
  | cons attr attrs ih =>
    rw [List.forall_mem_cons, StoredConf.columns]
    cases hitem : conf.getItem attr with
    | error e => exact .inr ⟨fun h => h.1.elim fun _ h => error_ne_ok h, e, rfl⟩
    | ok column =>
      obtain ⟨hall, columns, hcolumns, hmem⟩ | ⟨hnot, e, he⟩ := ih
      · refine .inl ⟨⟨⟨column, rfl⟩, hall⟩, column :: columns, by rw [hcolumns], fun c => ?_⟩
        rw [List.mem_cons, hmem, List.exists_mem_cons_iff, hitem, Except.ok.injEq, eq_comm]
      · exact .inr ⟨fun h => hnot h.2, e, by rw [he]⟩

/-- A queue has a line if its values are there and a string of characters meets ASCII alone. -/
theorem exists_configLine_iff {queueId : List Byte} {conf : StoredConf ν} :
    (∃ line, configLine str (queueId, conf) = .ok line) ↔
      (∀ attr ∈ configAttributes, ∃ column, conf.getItem attr = .ok column) ∧
        ((∃ attr ∈ configAttributes, ∃ s, conf.getItem attr = .ok (.value (.string s))) →
          (∀ byte ∈ queueId, byte.toNat < 128) ∧ ∀ attr ∈ configAttributes, ∀ b,
            conf.getItem attr = .ok (.bytes b) → ∀ byte ∈ b, byte.toNat < 128) ∧
        ∀ attr ∈ configAttributes, ∀ s,
          conf.getItem attr = .ok (.value (.string s)) → ∀ c ∈ s, c.toNat < 128 := by
  unfold configLine
  obtain ⟨hall, columns, hcolumns, hmem⟩ | ⟨hnot, e, he⟩ := conf.columns_spec configAttributes
  · rw [and_iff_right hall, hcolumns]
    dsimp only
    -- the first column is the identifier, and the others are the values of the attributes
    rw [formatLine_iff]
    simp only [List.mem_cons, hmem, reduceCtorEq, false_or, Column.bytes.injEq]
    constructor
    · rintro ⟨hdecode, hencode⟩
      refine ⟨?_, fun attr hattr s hitem => hencode s ⟨attr, hattr, hitem⟩⟩
      rintro ⟨attr, hattr, s, hitem⟩
      have hbytes := hdecode ⟨s, attr, hattr, hitem⟩
      exact ⟨hbytes _ (.inl rfl), fun attr hattr b hitem => hbytes b (.inr ⟨attr, hattr, hitem⟩)⟩
    · rintro ⟨hdecode, hencode⟩
      refine ⟨?_, fun s ⟨attr, hattr, hitem⟩ => hencode attr hattr s hitem⟩
      rintro ⟨s, attr, hattr, hitem⟩
      obtain ⟨hid, hrest⟩ := hdecode ⟨attr, hattr, s, hitem⟩
      rintro b (rfl | ⟨attr, hattr, hitem⟩)
      · exact hid
      · exact hrest attr hattr b hitem
  · rw [he]
    exact iff_of_false (fun ⟨_, h⟩ => error_ne_ok h) fun h => hnot h.1

theorem StoredConf.getItem_ofFile (portId minRate maxRate : List Byte) {attr : String}
    (h : attr ∈ configAttributes) :
    ∃ b, (StoredConf.ofFile portId minRate maxRate : StoredConf ν).getItem attr =
      .ok (.bytes b) := by
  simp only [configAttributes, List.mem_cons, List.not_mem_nil, or_false] at h
  obtain rfl | rfl | rfl := h
  · exact ⟨portId, rfl⟩
  · exact ⟨minRate, rfl⟩
  · exact ⟨maxRate, rfl⟩

theorem StoredConf.getItem_object_iff {members : Text → Option (ConfigValue ν)} {attr : String}
    {column : Column ν} :
    (StoredConf.ofRequest (.object members)).getItem attr = .ok column ↔
      ∃ v, members attr.toList = some v ∧ .value v = column := by
  unfold StoredConf.getItem
  dsimp only
  cases members attr.toList with
  | none => exact iff_of_false error_ne_ok fun ⟨_, h, _⟩ => Option.some_ne_none _ h.symm
  | some v =>
    rw [Except.ok.injEq]
    constructor
    · exact fun h => ⟨v, rfl, h⟩
    · rintro ⟨w, hw, h⟩
      obtain rfl := Option.some.inj hw
      rw [h]

/-- A queue has a line if and only if it can be written. -/
theorem configLine_iff (str : ν → List Byte) :
    (∃ line, configLine str p = .ok line) ↔ Writable p := by
  obtain ⟨queueId, conf⟩ := p
  rw [exists_configLine_iff]
  cases conf with
  | ofFile portId minRate maxRate =>
    -- no string of characters is involved, so that nothing is decoded or encoded
    have hbytes : ∀ attr ∈ configAttributes, ∀ s,
        (StoredConf.ofFile portId minRate maxRate : StoredConf ν).getItem attr ≠
          .ok (.value (.string s)) := by
      intro attr hattr s hs
      obtain ⟨b, hb⟩ := StoredConf.getItem_ofFile (ν := ν) portId minRate maxRate hattr
      exact absurd (Except.ok.inj (hb.symm.trans hs)) (by rintro ⟨⟩)
    refine iff_of_true ⟨fun attr hattr => ?_, ?_, fun attr hattr s hs => ?_⟩ trivial
    · obtain ⟨b, hb⟩ := StoredConf.getItem_ofFile (ν := ν) portId minRate maxRate hattr
      exact ⟨_, hb⟩
    · rintro ⟨attr, hattr, s, hs⟩
      exact absurd hs (hbytes attr hattr s)
    · exact absurd hs (hbytes attr hattr s)
  | ofRequest json =>
    have hfirst : "port-id" ∈ configAttributes := List.mem_cons_self
    cases json with
    | object members =>
      have hvalue : ∀ attr v, (StoredConf.ofRequest (.object members)).getItem attr =
          .ok (.value v) ↔ members attr.toList = some v := by
        intro attr v
        rw [StoredConf.getItem_object_iff]
        simp only [Column.value.injEq, exists_eq_right]
      have hcolumn : ∀ attr, (∃ column, (StoredConf.ofRequest (.object members)).getItem attr =
          .ok column) ↔ members attr.toList ≠ none := by
        intro attr
        rw [Option.ne_none_iff_exists']
        constructor
        · rintro ⟨column, hitem⟩
          obtain ⟨v, hv, -⟩ := StoredConf.getItem_object_iff.1 hitem
          exact ⟨v, hv⟩
        · rintro ⟨v, hv⟩
          exact ⟨_, (hvalue attr v).2 hv⟩
      have hbytes : ∀ attr b, (StoredConf.ofRequest (.object members)).getItem attr ≠
          .ok (.bytes b) := by
        intro attr b hitem
        obtain ⟨v, -, hv⟩ := StoredConf.getItem_object_iff.1 hitem
        exact absurd hv (by rintro ⟨⟩)
      unfold Writable
      dsimp only
      simp only [hcolumn, hvalue]
      -- its values are no strings of bytes, so that only the identifier is decoded
      refine and_congr_right' (and_congr_left' (imp_congr_right fun _ => ?_))
      exact and_iff_left fun attr _ b hitem => absurd hitem (hbytes attr b)
    | null => exact iff_of_false (fun h => (h.1 _ hfirst).elim fun _ h => error_ne_ok h) id
    | other v => exact iff_of_false (fun h => (h.1 _ hfirst).elim fun _ h => error_ne_ok h) id
    | string s => exact iff_of_false (fun h => (h.1 _ hfirst).elim fun _ h => error_ne_ok h) id
    | array elements =>
      exact iff_of_false (fun h => (h.1 _ hfirst).elim fun _ h => error_ne_ok h) id

/-- The lines in front of the first queue that cannot be written. -/
def writtenLines (str : ν → List Byte) : List (List Byte × StoredConf ν) → List Byte
  | [] => []
  | p :: items =>
    match configLine str p with
    | .error _ => []
    | .ok line => line ++ writtenLines str items

/-- All lines are written, or those in front of one that cannot be. -/
theorem writeLines_spec (str : ν → List Byte) (items : List (List Byte × StoredConf ν))
    (file : List Byte) :
    (writeLines str items file).2 = file ++ writtenLines str items ∧
      ((writeLines str items file).1 = none ↔ ∀ p ∈ items, Writable p) := by
  induction items generalizing file with
  | nil =>
    exact ⟨(List.append_nil file).symm, iff_of_true rfl fun _ h => absurd h List.not_mem_nil⟩
  | cons p items ih =>
    rw [List.forall_mem_cons, ← configLine_iff str, writeLines, writtenLines]
    cases configLine str p with
    | error e =>
      refine ⟨(List.append_nil file).symm, iff_of_false (Option.some_ne_none e) fun h => ?_⟩
      exact h.1.elim fun _ h => error_ne_ok h
    | ok line =>
      obtain ⟨hfile, hnone⟩ := ih (file ++ line)
      refine ⟨hfile.trans (List.append_assoc _ _ _), hnone.trans (and_iff_right ⟨line, rfl⟩).symm⟩

end Written

/-! ### The dictionary -/

namespace ConfigTable

variable {ν : Type*} {table : ConfigTable ν} {queueId : List Byte} {conf : StoredConf ν}

theorem lookup_eq_none_iff : table.lookup queueId = none ↔ ∀ p ∈ table.entries, p.1 ≠ queueId := by
  rw [lookup, List.lookup_eq_none_iff]
  exact forall₂_congr fun p _ => by rw [bne_iff_ne, ne_comm]

theorem lookup_eq_some_iff : table.lookup queueId = some conf ↔ (queueId, conf) ∈ table.entries :=
  Dict.lookup_iff table.distinct

/-- The queues behind an assignment. -/
theorem mem_set_iff {p : List Byte × StoredConf ν} :
    p ∈ (table.set queueId conf).entries ↔
      p = (queueId, conf) ∨ (p ∈ table.entries ∧ p.1 ≠ queueId) := by
  unfold set
  split
  next h =>
    rw [lookup_eq_none_iff] at h
    rw [List.mem_append, List.mem_singleton, or_comm]
    exact or_congr_right (and_iff_left_of_imp (h p)).symm
  next h =>
    obtain ⟨old, hold⟩ := Option.ne_none_iff_exists'.1 h
    rw [lookup_eq_some_iff] at hold
    rw [List.mem_map]
    constructor
    · rintro ⟨q, hq, rfl⟩
      unfold replaceConf
      split
      next => exact .inl rfl
      next hne => exact .inr ⟨hq, hne⟩
    · rintro (rfl | ⟨hp, hne⟩)
      · exact ⟨_, hold, if_pos rfl⟩
      · exact ⟨p, hp, if_neg hne⟩

theorem lookup_set_self : (table.set queueId conf).lookup queueId = some conf :=
  lookup_eq_some_iff.2 (mem_set_iff.2 (.inl rfl))

/-- An assignment of what is there changes nothing. -/
theorem set_of_lookup (h : table.lookup queueId = some conf) : table.set queueId conf = table := by
  have hsome : table.lookup queueId ≠ none := fun hnone =>
    Option.some_ne_none conf (h.symm.trans hnone)
  rw [lookup_eq_some_iff] at h
  have hsame : table.entries.map (replaceConf queueId conf) = table.entries := by
    refine (List.map_congr_left fun p hp => ?_).trans (List.map_id _)
    unfold replaceConf
    split
    next heq =>
      have hp : table.lookup queueId = some p.2 := lookup_eq_some_iff.2 (heq ▸ hp)
      rw [lookup_eq_some_iff.2 h] at hp
      exact Prod.ext heq.symm (Option.some.inj hp)
    next => rfl
  unfold set
  rw [dif_neg hsome]
  congr 1

theorem mem_erase_iff {p : List Byte × StoredConf ν} :
    p ∈ (table.erase queueId).entries ↔ p ∈ table.entries ∧ p.1 ≠ queueId := by
  rw [erase, List.mem_filter, decide_eq_true_iff]

theorem lookup_erase_self : (table.erase queueId).lookup queueId = none :=
  lookup_eq_none_iff.2 fun _ hp => (mem_erase_iff.1 hp).2

end ConfigTable

/-! ### When an error changes nothing -/

namespace ConfigServer

variable {ν : Type*} {env : ConfigEnv ν} {s : ConfigServer ν}

/-- The request is refused, or it succeeds, or the dictionary has the configuration already and the
file cannot be opened or holds what will be left of it. -/
def Spared (env : ConfigEnv ν) (s : ConfigServer ν) : ServerRequest ν → Prop
  | .put queueId body => ∀ json, body.read = .ok json →
      (∀ attr ∈ configAttributes, json.Holds attr) →
      (env.opens = true ∧ Writable (queueId, .ofRequest json) ∧
        ∀ p ∈ s.globalData.entries, p.1 ≠ queueId → Writable p) ∨
      (s.globalData.lookup queueId = some (.ofRequest json) ∧
        (env.opens = true → s.file = writtenLines env.str (env.items s.globalData)))
  | .delete queueId =>
      s.globalData.lookup queueId = none ∨
      (env.opens = true ∧ ∀ p ∈ s.globalData.entries, p.1 ≠ queueId → Writable p)

/-- What `save_config` does to the dictionary and the file. -/
theorem saveConfig_spec (env : ConfigEnv ν) (s : ConfigServer ν) :
    (s.saveConfig env).2.globalData = s.globalData ∧
      ((s.saveConfig env).1 = none ↔
        env.opens = true ∧ ∀ p ∈ s.globalData.entries, Writable p) ∧
      (s.saveConfig env).2.file =
        if env.opens then writtenLines env.str (env.items s.globalData) else s.file := by
  unfold saveConfig
  by_cases hopens : env.opens = true
  · obtain ⟨hfile, hnone⟩ := writeLines_spec env.str (env.items s.globalData) []
    rw [if_pos hopens, if_pos hopens]
    refine ⟨rfl, hnone.trans ?_, hfile⟩
    rw [and_iff_right hopens]
    exact forall_congr' fun p => by rw [(env.items_perm s.globalData).mem_iff]
  · rw [if_neg hopens, if_neg hopens]
    exact ⟨rfl, iff_of_false (Option.some_ne_none _) fun h => hopens h.1, rfl⟩

/-- When a change of the dictionary that is saved changes nothing, if it fails. -/
theorem keeps_saveConfig_iff (s : ConfigServer ν) (table : ConfigTable ν) :
    ((saveConfig env { s with globalData := table }).1 ≠ none →
      (∀ queueId, (saveConfig env { s with globalData := table }).2.globalData.lookup queueId =
        s.globalData.lookup queueId) ∧
      (saveConfig env { s with globalData := table }).2.file = s.file) ↔
    (env.opens = true ∧ ∀ p ∈ table.entries, Writable p) ∨
      ((∀ queueId, table.lookup queueId = s.globalData.lookup queueId) ∧
        (env.opens = true → s.file = writtenLines env.str (env.items table))) := by
  obtain ⟨htable, hnone, hfile⟩ := saveConfig_spec env { s with globalData := table }
  rw [htable, hfile, ne_eq, hnone, ← or_iff_not_imp_left]
  refine or_congr_right (and_congr_right' ?_)
  by_cases hopens : env.opens = true
  · rw [if_pos hopens, eq_comm]
    exact ⟨fun h _ => h, fun h => h hopens⟩
  · rw [if_neg hopens]
    exact iff_of_true rfl fun h => absurd h hopens

/-- A PUT request that fails. -/
theorem keeps_put_iff (env : ConfigEnv ν) (s : ConfigServer ν) (queueId : List Byte)
    (body : RequestBody ν) :
    s.KeepsOnError env (.put queueId body) ↔ s.Spared env (.put queueId body) := by
  rw [KeepsOnError, Spared, handle, doPut]
  cases haccept : acceptBody body with
  | error e =>
    refine iff_of_true (fun _ => ⟨fun _ => rfl, rfl⟩) fun json hread hholds => ?_
    exact absurd (haccept.symm.trans (acceptBody_iff.2 ⟨hread, hholds⟩)) error_ne_ok
  | ok json =>
    obtain ⟨hread, hholds⟩ := acceptBody_iff.1 haccept
    -- an assignment changes the dictionary unless it assigns what is there
    have hset : (∀ id, (s.globalData.set queueId (.ofRequest json)).lookup id =
        s.globalData.lookup id) ↔ s.globalData.lookup queueId = some (.ofRequest json) :=
      ⟨fun h => (h queueId).symm.trans ConfigTable.lookup_set_self, fun h _ => by
        rw [ConfigTable.set_of_lookup h]⟩
    have hwritable : (∀ p ∈ (s.globalData.set queueId (.ofRequest json)).entries, Writable p) ↔
        Writable (queueId, .ofRequest json) ∧
          ∀ p ∈ s.globalData.entries, p.1 ≠ queueId → Writable p := by
      simp only [ConfigTable.mem_set_iff, forall_eq_or_imp, and_imp]
    dsimp only
    rw [keeps_saveConfig_iff, hset, hwritable]
    constructor
    · rintro h json' hread' -
      obtain rfl : json = json' := Except.ok.inj (hread.symm.trans hread')
      refine h.imp_right fun ⟨hlookup, hfile⟩ => ⟨hlookup, fun hopens => ?_⟩
      rw [hfile hopens, ConfigTable.set_of_lookup hlookup]
    · refine fun h => (h json hread hholds).imp_right fun ⟨hlookup, hfile⟩ => ⟨hlookup, ?_⟩
      rw [ConfigTable.set_of_lookup hlookup]
      exact hfile

/-- A DELETE request that fails. -/
theorem keeps_delete_iff (env : ConfigEnv ν) (s : ConfigServer ν) (queueId : List Byte) :
    s.KeepsOnError env (.delete queueId) ↔ s.Spared env (.delete queueId) := by
  rw [KeepsOnError, Spared, handle, doDelete]
  cases hlookup : s.globalData.lookup queueId with
  | none => exact iff_of_true (fun _ => ⟨fun _ => rfl, rfl⟩) (.inl rfl)
  | some conf =>
    -- a queue that is deleted is missed, so that only a save that succeeds is spared
    have herased : ¬ ∀ id, (s.globalData.erase queueId).lookup id = s.globalData.lookup id :=
      fun h => Option.some_ne_none conf
        (hlookup.symm.trans ((h queueId).symm.trans ConfigTable.lookup_erase_self))
    have hwritable : (∀ p ∈ (s.globalData.erase queueId).entries, Writable p) ↔
        ∀ p ∈ s.globalData.entries, p.1 ≠ queueId → Writable p := by
      simp only [ConfigTable.mem_erase_iff, and_imp]
    dsimp only
    rw [keeps_saveConfig_iff, hwritable, or_iff_left fun h => herased h.1,
      or_iff_right (Option.some_ne_none conf)]

/-- A request that fails leaves the dictionary and the file as they were exactly if it is spared. -/
theorem keepsOnError_iff (env : ConfigEnv ν) (s : ConfigServer ν) (request : ServerRequest ν) :
    s.KeepsOnError env request ↔ s.Spared env request := by
  cases request with
  | put queueId body => exact keeps_put_iff env s queueId body
  | delete queueId => exact keeps_delete_iff env s queueId

/-! ### A list -/

/-- The dictionary is written from its end, and the file can be opened. -/
def envFromEnd : ConfigEnv ℕ where
  str := fun _ => []
  opens := true
  items := fun table => table.entries.reverse
  items_perm := fun table => table.entries.reverse_perm

/-- The service with queue 7, which is attached to port 1 and has the rates 2 and 3, and its
file. -/
def withQueue7 : ConfigServer ℕ where
  globalData := ConfigTable.empty.set [0x37] (.ofFile [0x31] [0x32] [0x33])
  file := [0x37, 0x2c, 0x31, 0x2c, 0x32, 0x2c, 0x33, 0x0a]

/-- A list of the names of the attributes. -/
def listOfNames : JsonBody ℕ := .array (configAttributes.map fun attr => .string attr.toList)

/-- A list of the names is stored as the configuration of queue 8, and the file loses queue 7. -/
theorem list_is_stored :
    ¬ withQueue7.KeepsOnError envFromEnd (.put [0x38] (.json listOfNames)) := by
  intro h
  have herror : (withQueue7.handle envFromEnd (.put [0x38] (.json listOfNames))).1 ≠ none := by
    decide
  obtain ⟨hlookup, -⟩ := h herror
  exact absurd (congrArg Option.isSome (hlookup [0x38])) (by decide)

end ConfigServer

end OfAgent
