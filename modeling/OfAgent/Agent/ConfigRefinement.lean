import OfAgent.Agent.ConfigErrors

/-!
# Successful requests to the configuration service

The service with its errors as the service of texts, in which a byte is the character with its
number. As long as the dictionary holds configurations with all attributes, requests that succeed
are requests to that service.

* `ofBytes`, `queueOf`: bytes and queues as texts.
* `ConfigServer.Represents`: the dictionary and the file as texts.
* `ConfigServer.Represents.handle`, `ConfigServer.represents_of_run`: a successful request, and a
  run of such requests.
-/

namespace OfAgent

/-! ### Bytes -/

/-- The characters with the numbers of the bytes. -/
def ofBytes (bytes : List Byte) : Text := bytes.map fun byte => Char.ofNat byte.toNat

theorem toNat_ofNat_byte (byte : Byte) : (Char.ofNat byte.toNat).toNat = byte.toNat := by
  have hlt : byte.toNat < 2 ^ 8 := byte.isLt
  have hvalid : byte.toNat.isValidChar := .inl (by omega)
  rw [Char.ofNat, dif_pos hvalid]
  rfl

theorem ofBytes_injective : Function.Injective ofBytes := by
  refine List.map_injective_iff.2 fun a b h => BitVec.eq_of_toNat_eq ?_
  rw [← toNat_ofNat_byte a, ← toNat_ofNat_byte b, h]

theorem ofBytes_append (a b : List Byte) : ofBytes (a ++ b) = ofBytes a ++ ofBytes b :=
  List.map_append

theorem ofBytes_ascii {s : Text} (h : ∀ c ∈ s, c.toNat < 128) :
    ofBytes (s.map fun c => BitVec.ofNat 8 c.toNat) = s := by
  rw [ofBytes, List.map_map]
  refine (List.map_congr_left fun c hc => ?_).trans (List.map_id s)
  have hlt := h c hc
  have hmod : c.toNat % 2 ^ 8 = c.toNat := Nat.mod_eq_of_lt (by omega)
  rw [Function.comp_apply, BitVec.toNat_ofNat, hmod, Char.ofNat_toNat, id]

theorem ofBytes_intercalate (fields : List (List Byte)) :
    ofBytes ([0x2c].intercalate fields) = [','].intercalate (fields.map ofBytes) := by
  induction fields with
  | nil => rfl
  | cons a fields ih =>
    cases fields with
    | nil => rw [List.map_singleton, List.intercalate_singleton, List.intercalate_singleton]
    | cons b fields =>
      rw [List.intercalate_cons_cons, List.map_cons, List.map_cons, List.intercalate_cons_cons,
        ofBytes_append, ofBytes_append, ih, List.map_cons]
      rfl

/-! ### Queues -/

section Queues

variable {ν : Type*} {str : ν → List Byte} {conf : StoredConf ν} {q : Text × QueueConf ν}

/-- A value of a line as a value of a body. -/
def Column.configValue : Column ν → ConfigValue ν
  | bytes b => .string (ofBytes b)
  | value v => v

/-- The configuration as texts, if it has all attributes. -/
def StoredConf.queueConf : StoredConf ν → Option (QueueConf ν)
  | ofFile portId minRate maxRate => some {
      portId := .string (ofBytes portId)
      minRate := .string (ofBytes minRate)
      maxRate := .string (ofBytes maxRate) }
  | ofRequest (.object members) => do
      let portId ← members "port-id".toList
      let minRate ← members "min-rate".toList
      let maxRate ← members "max-rate".toList
      pure { portId, minRate, maxRate }
  | ofRequest _ => none

/-- The queue as texts, if it has all attributes. -/
def queueOf (p : List Byte × StoredConf ν) : Option (Text × QueueConf ν) :=
  p.2.queueConf.map fun conf => (ofBytes p.1, conf)

theorem queueOf_eq_some_iff {p : List Byte × StoredConf ν} :
    queueOf p = some q ↔ q.1 = ofBytes p.1 ∧ p.2.queueConf = some q.2 := by
  rw [queueOf, Option.map_eq_some_iff]
  constructor
  · rintro ⟨conf, hconf, rfl⟩
    exact ⟨rfl, hconf⟩
  · exact fun ⟨hid, hconf⟩ => ⟨q.2, hconf, Prod.ext hid.symm rfl⟩

theorem StoredConf.queueConf_object_iff {members : Text → Option (ConfigValue ν)}
    {queue : QueueConf ν} :
    (StoredConf.ofRequest (.object members)).queueConf = some queue ↔
      members "port-id".toList = some queue.portId ∧
        members "min-rate".toList = some queue.minRate ∧
          members "max-rate".toList = some queue.maxRate := by
  constructor
  · intro h
    obtain ⟨portId, hport, h⟩ := Option.bind_eq_some_iff.1 h
    obtain ⟨minRate, hmin, h⟩ := Option.bind_eq_some_iff.1 h
    obtain ⟨maxRate, hmax, h⟩ := Option.bind_eq_some_iff.1 h
    obtain rfl := Option.some.inj h
    exact ⟨hport, hmin, hmax⟩
  · rintro ⟨hport, hmin, hmax⟩
    unfold StoredConf.queueConf
    dsimp only
    rw [hport, hmin, hmax]
    rfl

/-- The bytes of a value that can be written are its text. -/
theorem Column.ofBytes_text (str : ν → List Byte) {column : Column ν}
    (h : column.encodes = true) :
    ofBytes (column.text str) = column.configValue.text fun v => ofBytes (str v) := by
  cases column with
  | bytes b => rfl
  | value v =>
    cases v with
    | string s =>
      exact ofBytes_ascii fun c hc => of_decide_eq_true (List.all_eq_true.1 h c hc)
    | other v => rfl

/-- The columns of a configuration with all attributes. -/
theorem StoredConf.exists_columns {queue : QueueConf ν} (h : conf.queueConf = some queue) :
    ∃ portId minRate maxRate, conf.columns configAttributes = .ok [portId, minRate, maxRate] ∧
      portId.configValue = queue.portId ∧ minRate.configValue = queue.minRate ∧
        maxRate.configValue = queue.maxRate := by
  cases conf with
  | ofFile portId minRate maxRate =>
    obtain rfl := Option.some.inj h
    exact ⟨.bytes portId, .bytes minRate, .bytes maxRate, rfl, rfl, rfl, rfl⟩
  | ofRequest json =>
    cases json with
    | object members =>
      obtain ⟨hport, hmin, hmax⟩ := StoredConf.queueConf_object_iff.1 h
      refine ⟨.value queue.portId, .value queue.minRate, .value queue.maxRate, ?_, rfl, rfl, rfl⟩
      have hitem := fun (attr : String) (v : ConfigValue ν) (hv : members attr.toList = some v) =>
        StoredConf.getItem_object_iff.2 ⟨v, hv, rfl⟩
      simp only [configAttributes, StoredConf.columns, hitem _ _ hport, hitem _ _ hmin,
        hitem _ _ hmax]
    | null => cases h
    | other v => cases h
    | string s => cases h
    | array elements => cases h

/-- The line of a queue is its row. -/
theorem ofBytes_configLine {p : List Byte × StoredConf ν} {line : List Byte}
    (hq : queueOf p = some q) (hline : configLine str p = .ok line) :
    ofBytes line = Separated.line ',' '\n' (queueRow (fun v => ofBytes (str v)) q) := by
  obtain ⟨hid, hconf⟩ := queueOf_eq_some_iff.1 hq
  obtain ⟨portId, minRate, maxRate, hcolumns, hport, hmin, hmax⟩ :=
    StoredConf.exists_columns hconf
  rw [configLine, hcolumns] at hline
  dsimp only at hline
  unfold formatLine at hline
  split at hline
  next => cases hline
  next =>
    split at hline
    next => cases hline
    next hencodes =>
      obtain rfl := Except.ok.inj hline
      have hencodes := List.all_eq_true.1 (not_not.1 hencodes)
      have htext := fun column hcolumn =>
        Column.ofBytes_text str (hencodes column hcolumn)
      simp only [List.mem_cons, List.not_mem_nil, or_false, forall_eq_or_imp, forall_eq] at htext
      obtain ⟨-, hport', hmin', hmax'⟩ := htext
      rw [ofBytes_append, ofBytes_intercalate, Separated.line, queueRow, hid, ← hport, ← hmin,
        ← hmax, ← hport', ← hmin', ← hmax']
      rfl

/-- A file with all lines is what the service of texts writes. -/
theorem ofBytes_writeLines {items : List (List Byte × StoredConf ν)} {file : List Byte}
    (hitems : ∀ p ∈ items, ∃ q, queueOf p = some q)
    (hsuccess : (writeLines str items file).1 = none) :
    ofBytes (writeLines str items file).2 =
      ofBytes file ++ saveConfig (fun v => ofBytes (str v)) (items.filterMap queueOf) := by
  induction items generalizing file with
  | nil => exact (List.append_nil _).symm
  | cons p items ih =>
    obtain ⟨⟨q, hq⟩, hrest⟩ := List.forall_mem_cons.1 hitems
    rw [writeLines] at hsuccess ⊢
    cases hline : configLine str p with
    | error e =>
      rw [hline] at hsuccess
      cases hsuccess
    | ok line =>
      rw [hline] at hsuccess
      dsimp only at hsuccess ⊢
      rw [ih hrest hsuccess, ofBytes_append, ofBytes_configLine hq hline, List.append_assoc,
        List.filterMap_cons_some hq]
      rfl

end Queues

/-! ### Dictionaries -/

namespace ConfigTable

variable {ν : Type*} {table : ConfigTable ν} {d : QueueTable ν} {queueId : List Byte}
  {conf : StoredConf ν}

/-- The dictionary as texts: all queues have all attributes. -/
def Represents (table : ConfigTable ν) (d : QueueTable ν) : Prop :=
  (table.entries.map queueOf).Perm (d.map some)

theorem Represents.exists_queueOf (h : table.Represents d) {p : List Byte × StoredConf ν}
    (hp : p ∈ table.entries) : ∃ q ∈ d, queueOf p = some q := by
  obtain ⟨q, hq, heq⟩ := List.mem_map.1 (h.mem_iff.1 (List.mem_map_of_mem hp))
  exact ⟨q, hq, heq.symm⟩

theorem Represents.lookup_ne_none (h : table.Represents d) (hlookup : table.lookup queueId ≠ none) :
    d.lookup (ofBytes queueId) ≠ none := by
  obtain ⟨conf, hconf⟩ := Option.ne_none_iff_exists'.1 hlookup
  obtain ⟨q, hq, hqueue⟩ := h.exists_queueOf (lookup_eq_some_iff.1 hconf)
  intro hnone
  exact bne_iff_ne.1 (List.lookup_eq_none_iff.1 hnone q hq) (queueOf_eq_some_iff.1 hqueue).1.symm

theorem Represents.erase (h : table.Represents d) (queueId : List Byte) :
    (table.erase queueId).Represents (d.filter fun q => q.1 ≠ ofBytes queueId) := by
  have hkept : ∀ p ∈ table.entries, decide (p.1 ≠ queueId) =
      (queueOf p).any fun q => decide (q.1 ≠ ofBytes queueId) := by
    intro p hp
    obtain ⟨q, -, hq⟩ := h.exists_queueOf hp
    rw [hq, Option.any_some, (queueOf_eq_some_iff.1 hq).1]
    exact decide_eq_decide.2 (not_congr ofBytes_injective.eq_iff.symm)
  have hfilter := h.filter (Option.any fun q => decide (q.1 ≠ ofBytes queueId))
  rw [List.filter_map, List.filter_map] at hfilter
  unfold Represents ConfigTable.erase
  dsimp only
  rw [List.filter_congr hkept]
  exact hfilter

/-- A queue that is assigned stands beside the others. -/
theorem perm_set (table : ConfigTable ν) (queueId : List Byte) (conf : StoredConf ν) :
    (table.set queueId conf).entries.Perm ((queueId, conf) :: (table.erase queueId).entries) := by
  have hnodup : ∀ table : ConfigTable ν, table.entries.Nodup := fun table =>
    table.distinct.imp fun hne heq => hne (congrArg Prod.fst heq)
  refine (List.perm_ext_iff_of_nodup (hnodup _) (List.nodup_cons.2 ⟨?_, hnodup _⟩)).2 fun p => ?_
  · exact fun hmem => (mem_erase_iff.1 hmem).2 rfl
  · rw [mem_set_iff, List.mem_cons, mem_erase_iff]

theorem Represents.set (h : table.Represents d) {queue : QueueConf ν}
    (hconf : conf.queueConf = some queue) :
    (table.set queueId conf).Represents (Dict.set (ofBytes queueId) queue d) := by
  have hqueue : queueOf (queueId, conf) = some (ofBytes queueId, queue) :=
    queueOf_eq_some_iff.2 ⟨rfl, hconf⟩
  refine ((perm_set table queueId conf).map queueOf).trans ?_
  rw [List.map_cons, hqueue, Dict.set, List.map_cons]
  exact (h.erase queueId).cons _

end ConfigTable

/-! ### Requests -/

/-- The request with texts. -/
def ServerRequest.Represents {ν : Type*} : ServerRequest ν → ConfigRequest ν → Prop
  | put queueId body, .put queueId' json =>
      queueId' = ofBytes queueId ∧ ∃ members, body = .json (.object members) ∧
        ∀ attr ∈ configAttributes, json.lookup attr.toList = members attr.toList
  | delete queueId, .delete queueId' => queueId' = ofBytes queueId
  | _, _ => False

namespace ConfigServer

variable {ν : Type*} {env : ConfigEnv ν} {s s₀ s' : ConfigServer ν} {t t₀ : ConfigService ν}

/-- The dictionary and the file as texts. -/
structure Represents (s : ConfigServer ν) (t : ConfigService ν) : Prop where
  globalData : s.globalData.Represents t.globalData
  file : t.file = ofBytes s.file

/-- A dictionary that is saved. -/
theorem represents_saveConfig {d : QueueTable ν} (h : s.globalData.Represents d)
    (hsuccess : (s.saveConfig env).1 = none) :
    ∃ file, (s.saveConfig env).2.Represents ⟨d, file⟩ ∧ ∃ items : QueueTable ν,
      items.Perm d ∧ file = OfAgent.saveConfig (fun v => ofBytes (env.str v)) items := by
  have hperm := env.items_perm s.globalData
  have hitems : ∀ p ∈ env.items s.globalData, ∃ q, queueOf p = some q := by
    intro p hp
    obtain ⟨q, -, hq⟩ := h.exists_queueOf (hperm.mem_iff.1 hp)
    exact ⟨q, hq⟩
  unfold saveConfig at hsuccess ⊢
  by_cases hopens : env.opens = true
  · rw [if_pos hopens] at hsuccess ⊢
    refine ⟨_, ⟨h, rfl⟩, (env.items s.globalData).filterMap queueOf, ?_, ?_⟩
    · have hmap := ((hperm.map queueOf).trans h).filterMap id
      rw [List.filterMap_map, List.filterMap_map] at hmap
      exact hmap.trans (List.Perm.of_eq List.filterMap_some)
    · exact ofBytes_writeLines hitems hsuccess
  · rw [if_neg hopens] at hsuccess
    cases hsuccess

/-- What is stored by a request that succeeds. -/
theorem of_doPut {queueId : List Byte} {body : RequestBody ν}
    (hsuccess : (s.doPut env queueId body).1 = none) :
    ∃ members queue, body = .json (.object members) ∧
      (StoredConf.ofRequest (.object members)).queueConf = some queue ∧
      acceptBody body = .ok (.object members) := by
  unfold doPut at hsuccess
  cases haccept : acceptBody body with
  | error e =>
    rw [haccept] at hsuccess
    cases hsuccess
  | ok json =>
    rw [haccept] at hsuccess
    -- the new queue has been written with the others
    have hwritable := ((saveConfig_spec env _).2.1.1 hsuccess).2 (queueId, .ofRequest json)
      (ConfigTable.mem_set_iff.2 (.inl rfl))
    cases json with
    | object members =>
      obtain ⟨hall, -⟩ := hwritable
      simp only [configAttributes, List.mem_cons, List.not_mem_nil, or_false, forall_eq_or_imp,
        forall_eq, Option.ne_none_iff_exists'] at hall
      obtain ⟨⟨portId, hport⟩, ⟨minRate, hmin⟩, ⟨maxRate, hmax⟩⟩ := hall
      refine ⟨members, ⟨portId, minRate, maxRate⟩, ?_,
        StoredConf.queueConf_object_iff.2 ⟨hport, hmin, hmax⟩, rfl⟩
      cases body with
      | json value => exact congrArg _ (Except.ok.inj (acceptBody_iff.1 haccept).1)
      | absent => cases (acceptBody_iff.1 haccept).1
      | tooLarge => cases (acceptBody_iff.1 haccept).1
      | malformed => cases (acceptBody_iff.1 haccept).1
    | null => exact hwritable.elim
    | other v => exact hwritable.elim
    | string s => exact hwritable.elim
    | array elements => exact hwritable.elim

/-- A request that succeeds is one to the service of texts. -/
theorem Represents.handle {request : ServerRequest ν} (h : s.Represents t)
    (hsuccess : (s.handle env request).1 = none) :
    ∃ request' t', request.Represents request' ∧ (s.handle env request).2.Represents t' ∧
      ConfigService.Step (fun v => ofBytes (env.str v)) t request' t' := by
  cases request with
  | put queueId body =>
    obtain ⟨members, queue, rfl, hqueue, haccept⟩ := of_doPut hsuccess
    obtain ⟨hport, hmin, hmax⟩ := StoredConf.queueConf_object_iff.1 hqueue
    -- an object with the attributes alone
    let json := [("port-id".toList, queue.portId), ("min-rate".toList, queue.minRate),
      ("max-rate".toList, queue.maxRate)]
    have hjson : ∀ attr ∈ configAttributes, json.lookup attr.toList = members attr.toList := by
      simp only [configAttributes, List.mem_cons, List.not_mem_nil, or_false, forall_eq_or_imp,
        forall_eq]
      exact ⟨hport.symm, hmin.symm, hmax.symm⟩
    have hchange : ConfigService.change t.globalData (.put (ofBytes queueId) json) =
        some (Dict.set (ofBytes queueId) queue t.globalData) := rfl
    unfold ConfigServer.handle doPut at hsuccess ⊢
    dsimp only at hsuccess ⊢
    rw [haccept] at hsuccess ⊢
    obtain ⟨file, hrep, hfile⟩ := represents_saveConfig (h.globalData.set hqueue) hsuccess
    exact ⟨.put (ofBytes queueId) json, _, ⟨rfl, members, rfl, hjson⟩, hrep, hchange, hfile⟩
  | delete queueId =>
    unfold ConfigServer.handle doDelete at hsuccess ⊢
    dsimp only at hsuccess ⊢
    cases hlookup : s.globalData.lookup queueId with
    | none =>
      rw [hlookup] at hsuccess
      cases hsuccess
    | some conf =>
      rw [hlookup] at hsuccess
      have hfound : (t.globalData.lookup (ofBytes queueId)).isNone = false := by
        refine Option.isNone_eq_false_iff.2 (Option.isSome_iff_ne_none.2 ?_)
        exact h.globalData.lookup_ne_none (hlookup.trans_ne (Option.some_ne_none conf))
      have hchange : ConfigService.change t.globalData (.delete (ofBytes queueId)) =
          some (t.globalData.filter fun q => q.1 ≠ ofBytes queueId) := by
        rw [ConfigService.change, OfAgent.doDelete, hfound]
        exact if_neg Bool.false_ne_true
      obtain ⟨file, hrep, hfile⟩ := represents_saveConfig (h.globalData.erase queueId) hsuccess
      exact ⟨.delete (ofBytes queueId), _, rfl, hrep, hchange, hfile⟩

/-- A request that succeeds. -/
def Step (env : ConfigEnv ν) (s : ConfigServer ν) (request : ServerRequest ν)
    (s' : ConfigServer ν) : Prop :=
  s.handle env request = (none, s')

/-- A run of requests that succeed is a run of the service of texts on these requests. -/
theorem represents_of_run (h : s₀.Represents t₀) {requests : List (ServerRequest ν)}
    (hrun : Transition.Run (Step env) s₀ requests s) :
    ∃ requests' t, List.Forall₂ ServerRequest.Represents requests requests' ∧ s.Represents t ∧
      Transition.Run (ConfigService.Step fun v => ofBytes (env.str v)) t₀ requests' t := by
  refine hrun.simulation (fun s t request s' hrep hstep => ?_) h
  have hnext := hrep.handle (congrArg Prod.fst hstep)
  rwa [hstep] at hnext

/-- A request for queue 8, in which all attributes are 4. -/
def putQueue8 : ServerRequest ℕ := .put [0x38] (.json (.object fun name =>
  if name ∈ configAttributes.map String.toList then some (.string ['4']) else none))

/-- Queue 8 is put beside queue 7, and queue 7 is deleted. -/
theorem represents_of_run_delete :
    ∃ requests' t,
      List.Forall₂ ServerRequest.Represents [putQueue8, .delete [0x37]] requests' ∧
      ((withQueue7.handle envFromEnd putQueue8).2.handle envFromEnd
        (.delete [0x37])).2.Represents t ∧
      Transition.Run (ConfigService.Step fun v => ofBytes (envFromEnd.str v))
        ⟨[(['7'], ⟨.string ['1'], .string ['2'], .string ['3']⟩)], ofBytes withQueue7.file⟩
        requests' t := by
  have hput : Transition.Run (Step envFromEnd) withQueue7 ([] ++ [putQueue8])
      (withQueue7.handle envFromEnd putQueue8).2 := .tail .refl (Prod.ext (by decide) rfl)
  exact represents_of_run ⟨.of_eq rfl, rfl⟩
    (hput.tail (e := .delete [0x37]) (Prod.ext (by decide) rfl))

end ConfigServer

end OfAgent
