import Mathlib.Data.Fintype.Card
import Mathlib.Data.List.FinRange
import OfAgent.Forward.Switch
import OfAgent.Lib.Lru

/-!
# MAC learning

`mac-learning.c`: the table from which the learning switch and the in-band control know the ports of
Ethernet addresses. Its entries are on a free list or on a list in the order of their use, and on
the list of a bucket in the latter case. The lists are lists of indexes of `entries`.

* `MacLearning`: the table with `learn`, `lookup`, `flush` and `run`.
* `MacLearning.Valid`: every entry is on one of the two lists, the buckets hold the entries in use,
  and no pair of an address and a VLAN has two of them.
* `MacLearning.view`: the entries in use as a table of least recently used entries.
  `view_learn`, `view_run`, `view_flush`: what the functions do to it.
-/

namespace OfAgent

/-- `MAC_HASH_BITS`, which is also used where `MAC_HASH_MASK` is meant. -/
def macHashBits : BitVec 32 := 10

/-- `MAC_MAX`. -/
def macMax : ℕ := 1024

/-- `eth_addr_is_multicast`. -/
def ethAddrIsMulticast (ea : BitVec 48) : Bool := ea.getLsbD 40

/-- `struct mac_entry`. -/
structure MacEntry where
  /-- Expiration time. -/
  expires : ℤ
  /-- Known MAC address. -/
  mac : BitVec 48
  /-- VLAN tag. -/
  vlan : BitVec 16
  /-- Port on which MAC was most recently seen. -/
  port : ℤ
  /-- Tag for this learning entry. -/
  tag : BitVec 32

/-- The hash functions of a table. -/
structure MacHash where
  /-- `mac_table_hash`. -/
  macTableHash : BitVec 48 → BitVec 16 → BitVec 32
  /-- `make_unknown_mac_tag`, which depends on the secret of the table. -/
  makeUnknownMacTag : BitVec 48 → BitVec 16 → BitVec 32

/-- The index of `mac_table_bucket`. -/
def MacHash.macTableBucket (h : MacHash) (mac : BitVec 48) (vlan : BitVec 16) : ℕ :=
  (h.macTableHash mac vlan &&& macHashBits).toNat

/-- `struct mac_learning`. -/
structure MacLearning where
  /-- Not-in-use entries. -/
  free : List (Fin macMax)
  /-- In-use entries, least recently used at the front, most recently used at the back. -/
  lrus : List (Fin macMax)
  /-- Hash table. -/
  table : ℕ → List (Fin macMax)
  /-- All entries. -/
  entries : Fin macMax → MacEntry

/-- `mac_learning_create`, with what is in its memory before. -/
def macLearningCreate (garbage : Fin macMax → MacEntry) : MacLearning where
  free := (List.finRange macMax).foldl (fun free s => s :: free) []
  lrus := []
  table _ := []
  entries := garbage

namespace MacLearning

variable (h : MacHash) (ml : MacLearning)

/-- The pair of an entry. -/
def pair (e : Fin macMax) : BitVec 48 × BitVec 16 := ((ml.entries e).mac, (ml.entries e).vlan)

/-- `search_bucket`. -/
def searchBucket (bucket : ℕ) (mac : BitVec 48) (vlan : BitVec 16) : Option (Fin macMax) :=
  (ml.table bucket).find? fun e => (ml.entries e).mac = mac ∧ (ml.entries e).vlan = vlan

/-- `get_lru`. -/
def getLru : Option (Fin macMax) := ml.lrus.head?

/-- `list_remove` of `hash_node`. -/
def removeHashNode (e : Fin macMax) : MacLearning :=
  { ml with table := fun bucket => (ml.table bucket).erase e }

/-- `list_remove` of `lru_node`. -/
def removeLruNode (e : Fin macMax) : MacLearning :=
  { ml with free := ml.free.erase e, lrus := ml.lrus.erase e }

/-- `free_mac_entry`. -/
def freeMacEntry (e : Fin macMax) : MacLearning :=
  let ml := (ml.removeHashNode e).removeLruNode e
  { ml with free := e :: ml.free }

/-- The entry that `mac_learning_learn` takes for a pair without one: a free one, or the least
recently used one. There is none only if no entry is on any list. -/
def takeEntry : Option (MacLearning × Fin macMax) :=
  match ml.free with
  | e :: _ => some (ml, e)
  | [] => ml.lrus.head?.map fun e => (ml.removeHashNode e, e)

/-- The pair is put into an entry. -/
def initEntry (e : Fin macMax) (mac : BitVec 48) (vlan : BitVec 16) : MacLearning :=
  let bucket := h.macTableBucket mac vlan
  { ml with
    table := Function.update ml.table bucket (e :: ml.table bucket)
    entries := Function.update ml.entries e
      { ml.entries e with mac, vlan, port := -1, tag := h.makeUnknownMacTag mac vlan } }

/-- The entry of a pair, which is made if there is none. -/
def findOrTake (mac : BitVec 48) (vlan : BitVec 16) : Option (MacLearning × Fin macMax) :=
  match ml.searchBucket (h.macTableBucket mac vlan) mac vlan with
  | some e => some (ml, e)
  | none => ml.takeEntry.map fun r => (r.1.initEntry h r.2 mac vlan, r.2)

/-- The entry becomes the most recently used one and expires after a minute. -/
def useEntry (now : ℤ) (e : Fin macMax) : MacLearning :=
  let ml := ml.removeLruNode e
  { ml with
    lrus := ml.lrus ++ [e]
    entries := Function.update ml.entries e { ml.entries e with expires := now + 60 } }

/-- The end of `mac_learning_learn`: the port of the entry, and the tag of flows that now need
revalidation. -/
def setPort (e : Fin macMax) (srcPort : BitVec 16) (randomTag : BitVec 32) :
    MacLearning × BitVec 32 :=
  if (ml.entries e).port ≠ srcPort.toNat then
    ({ ml with
        entries := Function.update ml.entries e
          { ml.entries e with port := srcPort.toNat, tag := randomTag } },
      (ml.entries e).tag)
  else (ml, 0)

/-- `mac_learning_learn`, with the values of `time_now` and `tag_create_random`. -/
def learn (now : ℤ) (srcMac : BitVec 48) (vlan srcPort : BitVec 16) (randomTag : BitVec 32) :
    Option (MacLearning × BitVec 32) :=
  if ethAddrIsMulticast srcMac then some (ml, 0)
  else (ml.findOrTake h srcMac vlan).map fun r =>
    (r.1.useEntry now r.2).setPort r.2 srcPort randomTag

/-- `mac_learning_lookup_tag`: the port, and the tag with what is added to it. -/
def lookupTag (dst : BitVec 48) (vlan : BitVec 16) (tag : BitVec 32) : BitVec 16 × BitVec 32 :=
  if ethAddrIsMulticast dst then (ofppFlood, tag)
  else
    match ml.searchBucket (h.macTableBucket dst vlan) dst vlan with
    | some e => (BitVec.ofInt 16 (ml.entries e).port, tag ||| (ml.entries e).tag)
    | none => (ofppFlood, tag ||| h.makeUnknownMacTag dst vlan)

/-- `mac_learning_lookup`. -/
def lookup (dst : BitVec 48) (vlan : BitVec 16) : BitVec 16 := (ml.lookupTag h dst vlan 0).1

/-- The loop of `mac_learning_flush`. -/
def flushLoop : ℕ → MacLearning → MacLearning
  | 0, ml => ml
  | turns + 1, ml =>
      match ml.getLru with
      | some e => flushLoop turns (ml.freeMacEntry e)
      | none => ml

/-- `mac_learning_flush`. Every turn of its loop frees an entry. -/
def flush : MacLearning := flushLoop macMax ml

/-- The loop of `mac_learning_run`, with what `time_now` returns in its turns. The tags of the
entries are added to the set. -/
def runLoop (clock : ℕ → ℤ) :
    ℕ → ℕ → MacLearning × List (BitVec 32) → MacLearning × List (BitVec 32)
  | 0, _, (ml, tags) => (ml, tags)
  | turns + 1, i, (ml, tags) =>
      match ml.getLru with
      | some e =>
          if (ml.entries e).expires ≤ clock i then
            runLoop clock turns (i + 1) (ml.freeMacEntry e, tags ++ [(ml.entries e).tag])
          else (ml, tags)
      | none => (ml, tags)

/-- `mac_learning_run`. -/
def run (clock : ℕ → ℤ) : MacLearning × List (BitVec 32) := runLoop clock macMax 0 (ml, [])

/-! ### The table as one of least recently used entries -/

/-- What an entry says: its pair, its port and its expiration time. -/
def item (e : Fin macMax) : (BitVec 48 × BitVec 16) × (ℤ × ℤ) :=
  (ml.pair e, ((ml.entries e).port, (ml.entries e).expires))

/-- The entries in use. -/
def view : List ((BitVec 48 × BitVec 16) × (ℤ × ℤ)) := ml.lrus.map ml.item

/-- The lists fit together. -/
structure Valid : Prop where
  /-- Every entry is on one of the two lists, -/
  mem_lists : ∀ e, e ∈ ml.free ++ ml.lrus
  /-- and on no more. -/
  nodup : (ml.free ++ ml.lrus).Nodup
  /-- The entries of a bucket are the entries in use with the hash of the bucket. -/
  mem_table : ∀ bucket e, e ∈ ml.table bucket ↔
    e ∈ ml.lrus ∧ h.macTableBucket (ml.entries e).mac (ml.entries e).vlan = bucket
  /-- None is twice in a bucket. -/
  nodup_table : ∀ bucket, (ml.table bucket).Nodup
  /-- A pair has one entry. -/
  nodup_pairs : (ml.lrus.map ml.pair).Nodup

variable {h : MacHash} {ml : MacLearning}

theorem keys_view (ml : MacLearning) : Lru.keys ml.view = ml.lrus.map ml.pair := by
  rw [Lru.keys, view, List.map_map]
  rfl

/-- A new table is valid, and nothing is in use. -/
theorem valid_macLearningCreate (h : MacHash) (garbage : Fin macMax → MacEntry) :
    (macLearningCreate garbage).Valid h := by
  have hfree : (macLearningCreate garbage).free = (List.finRange macMax).reverse := by
    simp only [macLearningCreate]
    rw [List.foldl_flip_cons_eq_append', List.append_nil]
  have hlrus : (macLearningCreate garbage).lrus = [] := rfl
  constructor
  · intro e
    rw [hfree, hlrus, List.append_nil, List.mem_reverse]
    exact List.mem_finRange e
  · rw [hfree, hlrus, List.append_nil, List.nodup_reverse]
    exact List.nodup_finRange _
  · intro bucket e
    exact iff_of_false List.not_mem_nil fun hmem => List.not_mem_nil hmem.1
  · exact fun _ => List.nodup_nil
  · exact List.nodup_nil

namespace Valid

variable (hml : ml.Valid h)
include hml

theorem nodup_lrus : ml.lrus.Nodup := (List.nodup_append.1 hml.nodup).2.1

theorem length_lists : ml.free.length + ml.lrus.length = macMax := by
  rw [← List.length_append, ← List.toFinset_card_of_nodup hml.nodup,
    Finset.eq_univ_iff_forall.2 fun e => List.mem_toFinset.2 (hml.mem_lists e), Finset.card_univ,
    Fintype.card_fin]

theorem eq_of_pair_eq {e e' : Fin macMax} (he : e ∈ ml.lrus) (he' : e' ∈ ml.lrus)
    (h : ml.pair e = ml.pair e') : e = e' := List.inj_on_of_nodup_map hml.nodup_pairs he he' h

/-- `search_bucket` finds the entry of a pair. -/
theorem searchBucket_eq_some_iff {mac : BitVec 48} {vlan : BitVec 16} {e : Fin macMax} :
    ml.searchBucket (h.macTableBucket mac vlan) mac vlan = some e ↔
      e ∈ ml.lrus ∧ ml.pair e = (mac, vlan) := by
  have hfound : ∀ e', ml.searchBucket (h.macTableBucket mac vlan) mac vlan = some e' →
      e' ∈ ml.lrus ∧ ml.pair e' = (mac, vlan) := by
    intro e' hsearch
    have hmem := List.mem_of_find?_eq_some hsearch
    have hkey := List.find?_some hsearch
    exact ⟨((hml.mem_table _ _).1 hmem).1, by simpa [pair] using hkey⟩
  refine ⟨hfound e, ?_⟩
  rintro ⟨he, hkey⟩
  have hkeys := Prod.ext_iff.1 hkey
  have hmem : e ∈ ml.table (h.macTableBucket mac vlan) :=
    (hml.mem_table _ _).2 ⟨he, congrArg₂ h.macTableBucket hkeys.1 hkeys.2⟩
  cases hsearch : ml.searchBucket (h.macTableBucket mac vlan) mac vlan with
  | none =>
    have hnot := List.find?_eq_none.1 hsearch e hmem
    exact absurd (by simpa [pair] using hkey) hnot
  | some e' =>
    obtain ⟨he', hkey'⟩ := hfound e' hsearch
    rw [hml.eq_of_pair_eq he' he (hkey'.trans hkey.symm)]

/-- It finds none for a pair without one. -/
theorem searchBucket_eq_none_iff {mac : BitVec 48} {vlan : BitVec 16} :
    ml.searchBucket (h.macTableBucket mac vlan) mac vlan = none ↔
      (mac, vlan) ∉ Lru.keys ml.view := by
  rw [keys_view, ← Option.not_isSome_iff_eq_none, Option.isSome_iff_exists, not_iff_not]
  simp only [hml.searchBucket_eq_some_iff, List.mem_map]

/-- The other entries, where an entry is the only one that may have the pair and has it. -/
theorem others_view {k : BitVec 48 × BitVec 16} {e : Fin macMax}
    (hself : e ∈ ml.lrus → ml.pair e = k)
    (hothers : ∀ e' ∈ ml.lrus, e' ≠ e → ml.pair e' ≠ k) :
    Lru.others k ml.view = (ml.lrus.erase e).map ml.item := by
  rw [Lru.others, view, List.filter_map, hml.nodup_lrus.erase_eq_filter]
  refine congrArg _ (List.filter_congr fun e' he' => ?_)
  by_cases heq : e' = e
  · rw [heq]
    simp [item, hself (heq ▸ he')]
  · have hne := hothers e' he' heq
    simp [item, heq, hne]

end Valid

/-! ### Learning -/

/-- What `mac_learning_learn` has done when it has got the entry of a pair: the entry is in the
bucket of the pair and in no other one, and the rest of the entries in use are those that stay. -/
structure Prepared (h : MacHash) (mac : BitVec 48) (vlan : BitVec 16) (ml ml₁ : MacLearning)
    (e : Fin macMax) : Prop where
  free_eq : ml₁.free = ml.free
  lrus_eq : ml₁.lrus = ml.lrus
  pair_eq : ml₁.pair e = (mac, vlan)
  entries_eq : ∀ e', e' ≠ e → ml₁.entries e' = ml.entries e'
  mem_table : ∀ bucket e', e' ∈ ml₁.table bucket ↔
    if e' = e then bucket = h.macTableBucket mac vlan else e' ∈ ml.table bucket
  nodup_table : ∀ bucket, (ml₁.table bucket).Nodup
  pair_ne : ∀ e' ∈ ml.lrus, e' ≠ e → ml.pair e' ≠ (mac, vlan)
  kept_eq : Lru.kept macMax (mac, vlan) ml.view = (ml.lrus.erase e).map ml.item

variable {mac : BitVec 48} {vlan : BitVec 16} {e : Fin macMax}

/-- An entry that a search finds. -/
theorem Valid.prepared_found (hml : ml.Valid h)
    (hsearch : ml.searchBucket (h.macTableBucket mac vlan) mac vlan = some e) :
    Prepared h mac vlan ml ml e := by
  obtain ⟨he, hkey⟩ := hml.searchBucket_eq_some_iff.1 hsearch
  have hne : ∀ e' ∈ ml.lrus, e' ≠ e → ml.pair e' ≠ (mac, vlan) := fun e' he' hne hkey' =>
    hne (hml.eq_of_pair_eq he' he (hkey'.trans hkey.symm))
  have hlen := hml.length_lists
  have hpos := List.length_pos_of_mem he
  refine ⟨rfl, rfl, hkey, fun _ _ => rfl, fun bucket e' => ?_, hml.nodup_table, hne, ?_⟩
  · split_ifs with heq
    · have hkeys := Prod.ext_iff.1 hkey
      rw [heq, hml.mem_table, show (ml.entries e).mac = mac from hkeys.1,
        show (ml.entries e).vlan = vlan from hkeys.2]
      exact ⟨fun hmem => hmem.2.symm, fun hbucket => ⟨he, hbucket.symm⟩⟩
    · exact Iff.rfl
  · rw [Lru.kept, hml.others_view (fun _ => hkey) hne, if_pos]
    rw [List.length_map, List.length_erase_of_mem he]
    omega

/-- A pair that is put into an entry, which no bucket has. -/
theorem prepared_initEntry {ml₀ : MacLearning} (hfree : ml₀.free = ml.free)
    (hlrus : ml₀.lrus = ml.lrus) (hentries : ml₀.entries = ml.entries)
    (hmem : ∀ bucket e', e' ∈ ml₀.table bucket ↔ e' ≠ e ∧ e' ∈ ml.table bucket)
    (hnodup : ∀ bucket, (ml₀.table bucket).Nodup)
    (hne : ∀ e' ∈ ml.lrus, e' ≠ e → ml.pair e' ≠ (mac, vlan))
    (hkept : Lru.kept macMax (mac, vlan) ml.view = (ml.lrus.erase e).map ml.item) :
    Prepared h mac vlan ml (ml₀.initEntry h e mac vlan) e := by
  constructor
  · exact hfree
  · exact hlrus
  · simp [pair, initEntry]
  · intro e' he'
    rw [← hentries]
    exact Function.update_of_ne he' _ _
  · intro bucket e'
    simp only [initEntry]
    -- only the bucket of the new pair has the entry
    by_cases hbucket : bucket = h.macTableBucket mac vlan
    · subst hbucket
      rw [Function.update_self, List.mem_cons, hmem]
      split_ifs with heq
      · simp [heq]
      · simp [heq]
    · rw [Function.update_of_ne hbucket, hmem]
      split_ifs with heq
      · simp [heq, hbucket]
      · simp [heq]
  · intro bucket
    simp only [initEntry]
    by_cases hbucket : bucket = h.macTableBucket mac vlan
    · subst hbucket
      rw [Function.update_self, List.nodup_cons, hmem]
      exact ⟨fun hself => hself.1 rfl, hnodup _⟩
    · rw [Function.update_of_ne hbucket]
      exact hnodup bucket
  · exact hne
  · exact hkept

/-- There always is an entry for a pair. -/
theorem Valid.findOrTake (hml : ml.Valid h) (mac : BitVec 48) (vlan : BitVec 16) :
    ∃ ml₁ e, ml.findOrTake h mac vlan = some (ml₁, e) ∧ Prepared h mac vlan ml ml₁ e := by
  unfold MacLearning.findOrTake
  cases hsearch : ml.searchBucket (h.macTableBucket mac vlan) mac vlan with
  | some e => exact ⟨ml, e, rfl, hml.prepared_found hsearch⟩
  | none =>
    rw [hml.searchBucket_eq_none_iff, keys_view] at hsearch
    have hne : ∀ e ∈ ml.lrus, ml.pair e ≠ (mac, vlan) := fun e he hkey =>
      hsearch (hkey ▸ List.mem_map_of_mem he)
    have hlen := hml.length_lists
    unfold takeEntry
    cases hfree : ml.free with
    | cons e free =>
      -- a free entry is in no bucket
      have he : e ∉ ml.lrus := fun he =>
        (List.nodup_append.1 hml.nodup).2.2 e (hfree ▸ List.mem_cons_self) e he rfl
      refine ⟨_, e, rfl, prepared_initEntry rfl rfl rfl (fun bucket e' => ?_) hml.nodup_table
        (fun e' he' _ => hne e' he') ?_⟩
      · refine ⟨fun hmem => ⟨?_, hmem⟩, fun hmem => hmem.2⟩
        rintro rfl
        exact he ((hml.mem_table _ _).1 hmem).1
      · rw [Lru.kept, hml.others_view (fun hself => absurd hself he) fun e' he' _ => hne e' he',
          if_pos]
        rw [List.length_map, List.erase_of_not_mem he]
        rw [hfree, List.length_cons] at hlen
        omega
    | nil =>
      cases hlrus : ml.lrus with
      | nil =>
        rw [hfree, hlrus] at hlen
        cases hlen
      | cons e lrus =>
        -- the least recently used entry is taken from its bucket
        refine ⟨(ml.removeHashNode e).initEntry h e mac vlan, e, rfl, prepared_initEntry rfl rfl rfl
          (fun bucket e' => (hml.nodup_table bucket).mem_erase_iff)
          (fun bucket => (hml.nodup_table bucket).erase e) (fun e' he' _ => hne e' he') ?_⟩
        have hothers : Lru.others (mac, vlan) ml.view = ml.view := by
          apply Lru.others_of_notMem
          rw [keys_view]
          exact hsearch
        rw [Lru.kept, hothers, view, hlrus, if_neg, List.erase_cons_head]
        · rfl
        · rw [hfree, hlrus, List.length_nil] at hlen
          rw [List.length_map]
          omega

/-- Setting the port of an entry leaves the lists alone, -/
theorem setPort_lists (ml : MacLearning) (e : Fin macMax) (srcPort : BitVec 16)
    (randomTag : BitVec 32) :
    (ml.setPort e srcPort randomTag).1.free = ml.free ∧
      (ml.setPort e srcPort randomTag).1.lrus = ml.lrus ∧
        (ml.setPort e srcPort randomTag).1.table = ml.table := by
  unfold setPort
  split_ifs <;> exact ⟨rfl, rfl, rfl⟩

theorem setPort_entries_of_ne (ml : MacLearning) (srcPort : BitVec 16) (randomTag : BitVec 32)
    {e' : Fin macMax} (hne : e' ≠ e) :
    (ml.setPort e srcPort randomTag).1.entries e' = ml.entries e' := by
  unfold setPort
  split_ifs
  · exact Function.update_of_ne hne _ _
  · rfl

/-- The entry has the port afterwards, if it has not had it before. -/
theorem item_setPort (ml : MacLearning) (e : Fin macMax) (srcPort : BitVec 16)
    (randomTag : BitVec 32) :
    (ml.setPort e srcPort randomTag).1.item e =
      (ml.pair e, ((srcPort.toNat : ℤ), (ml.entries e).expires)) := by
  unfold setPort
  split_ifs with hport
  · simp [item, pair]
  · rw [not_not] at hport
    rw [item, hport]

/-- The entry that has been got is the most recently used one in the end. -/
theorem Prepared.valid_view {ml₁ ml' : MacLearning} {p : ℤ × ℤ} (hml : ml.Valid h)
    (hprepared : Prepared h mac vlan ml ml₁ e) (hfree : ml'.free = ml.free.erase e)
    (hlrus : ml'.lrus = ml.lrus.erase e ++ [e]) (htable : ml'.table = ml₁.table)
    (hentries : ∀ e', e' ≠ e → ml'.entries e' = ml.entries e')
    (hitem : ml'.item e = ((mac, vlan), p)) :
    ml'.Valid h ∧ ml'.view = Lru.use macMax ((mac, vlan), p) ml.view := by
  have hnodup := List.nodup_append.1 hml.nodup
  have hother : ∀ e' ∈ ml.lrus.erase e, e' ≠ e ∧ e' ∈ ml.lrus := fun e' he' =>
    hnodup.2.1.mem_erase_iff.1 he'
  have hpair : ∀ e', e' ≠ e → ml'.pair e' = ml.pair e' := by
    intro e' hne
    rw [pair, hentries e' hne, pair]
  have hself : ml'.pair e = (mac, vlan) := congrArg Prod.fst hitem
  -- the entry is the last one now, and the others keep their order
  have hview : ml'.view = Lru.use macMax ((mac, vlan), p) ml.view := by
    rw [view, hlrus, List.map_append, List.map_singleton, hitem, Lru.use, hprepared.kept_eq]
    refine congrArg (· ++ _) (List.map_congr_left fun e' he' => ?_)
    rw [item, item, hpair e' (hother e' he').1, hentries e' (hother e' he').1]
  refine ⟨⟨fun e' => ?_, ?_, fun bucket e' => ?_, ?_, ?_⟩, hview⟩
  · rw [hfree, hlrus, ← List.append_assoc, List.mem_append, List.mem_append,
      hnodup.1.mem_erase_iff, hnodup.2.1.mem_erase_iff, List.mem_singleton]
    have hmem := List.mem_append.1 (hml.mem_lists e')
    tauto
  · rw [hfree, hlrus, List.nodup_append, List.nodup_append]
    refine ⟨hnodup.1.erase e, ⟨hnodup.2.1.erase e, List.nodup_singleton e, ?_⟩, ?_⟩
    · rintro e₁ he₁ e₂ he₂ rfl
      exact (hother e₁ he₁).1 (List.mem_singleton.1 he₂)
    · rintro e₁ he₁ e₂ he₂ rfl
      obtain ⟨hne, he₁⟩ := hnodup.1.mem_erase_iff.1 he₁
      obtain he₂ | he₂ := List.mem_append.1 he₂
      · exact hnodup.2.2 e₁ he₁ e₁ (hother e₁ he₂).2 rfl
      · exact hne (List.mem_singleton.1 he₂)
  · rw [htable, hprepared.mem_table, hlrus, List.mem_append, List.mem_singleton]
    split_ifs with heq
    · rw [heq, show (ml'.entries e).mac = mac from congrArg Prod.fst hself,
        show (ml'.entries e).vlan = vlan from congrArg Prod.snd hself]
      exact ⟨fun hbucket => ⟨.inr rfl, hbucket.symm⟩, fun hmem => hmem.2.symm⟩
    · rw [hml.mem_table, hentries e' heq, hnodup.2.1.mem_erase_iff]
      simp [heq]
  · rw [htable]
    exact hprepared.nodup_table
  · rw [← keys_view, hview]
    apply Lru.nodup_keys_use
    rw [keys_view]
    exact hml.nodup_pairs

/-- A pair that is learned becomes the most recently used one. -/
theorem Valid.learn (hml : ml.Valid h) (now : ℤ) (hmac : ethAddrIsMulticast mac = false)
    (vlan srcPort : BitVec 16) (randomTag : BitVec 32) :
    ∃ ml' tag, ml.learn h now mac vlan srcPort randomTag = some (ml', tag) ∧ ml'.Valid h ∧
      ml'.view = Lru.use macMax ((mac, vlan), ((srcPort.toNat : ℤ), now + 60)) ml.view := by
  obtain ⟨ml₁, e, hfound, hprepared⟩ := hml.findOrTake mac vlan
  unfold MacLearning.learn
  rw [hmac, if_neg (by simp), hfound, Option.map_some]
  obtain ⟨hfree, hlrus, htable⟩ := (ml₁.useEntry now e).setPort_lists e srcPort randomTag
  refine ⟨((ml₁.useEntry now e).setPort e srcPort randomTag).1,
    ((ml₁.useEntry now e).setPort e srcPort randomTag).2, rfl,
    hprepared.valid_view hml ?_ ?_ ?_ ?_ ?_⟩
  · rw [hfree, ← hprepared.free_eq]
    rfl
  · rw [hlrus, ← hprepared.lrus_eq]
    rfl
  · exact htable
  · intro e' hne
    rw [setPort_entries_of_ne _ _ _ hne, ← hprepared.entries_eq e' hne]
    exact Function.update_of_ne hne _ _
  · rw [item_setPort, ← hprepared.pair_eq]
    simp [useEntry, removeLruNode, pair]

theorem learn_of_multicast (ml : MacLearning) (now : ℤ) (hmac : ethAddrIsMulticast mac = true)
    (vlan srcPort : BitVec 16) (randomTag : BitVec 32) :
    ml.learn h now mac vlan srcPort randomTag = some (ml, 0) := if_pos hmac

/-- The port of a pair, which `mac_learning_lookup` returns. -/
theorem Valid.lookup_eq (hml : ml.Valid h) (hmac : ethAddrIsMulticast mac = false)
    (vlan : BitVec 16) :
    ml.lookup h mac vlan =
      ((Lru.find (mac, vlan) ml.view).map fun p => BitVec.ofInt 16 p.1).getD ofppFlood := by
  unfold lookup lookupTag
  rw [hmac, if_neg (by simp)]
  have hnodup : (Lru.keys ml.view).Nodup := by
    rw [keys_view]
    exact hml.nodup_pairs
  cases hsearch : ml.searchBucket (h.macTableBucket mac vlan) mac vlan with
  | none =>
    rw [Lru.find_eq_none_iff.2 (hml.searchBucket_eq_none_iff.1 hsearch)]
    rfl
  | some e =>
    obtain ⟨he, hpair⟩ := hml.searchBucket_eq_some_iff.1 hsearch
    have hmem : ((mac, vlan), ((ml.entries e).port, (ml.entries e).expires)) ∈ ml.view := by
      rw [← hpair]
      exact List.mem_map_of_mem he
    rw [(Lru.find_eq_some_iff hnodup).2 hmem]
    rfl

/-- An address that has just been learned is looked up at its port. -/
theorem Valid.lookup_learn (hml : ml.Valid h) (now : ℤ) (hmac : ethAddrIsMulticast mac = false)
    (vlan srcPort : BitVec 16) (randomTag : BitVec 32) :
    ∃ ml' tag, ml.learn h now mac vlan srcPort randomTag = some (ml', tag) ∧ ml'.Valid h ∧
      ml'.lookup h mac vlan = srcPort := by
  obtain ⟨ml', tag, hlearn, hvalid, hview⟩ := hml.learn now hmac vlan srcPort randomTag
  have hnodup : (Lru.keys ml.view).Nodup := by
    rw [keys_view]
    exact hml.nodup_pairs
  refine ⟨ml', tag, hlearn, hvalid, ?_⟩
  rw [hvalid.lookup_eq hmac, hview, Lru.find_use_self hnodup]
  simp

/-! ### Expiration -/

/-- The least recently used entry is freed. -/
theorem Valid.freeMacEntry (hml : ml.Valid h) {lrus : List (Fin macMax)}
    (hlrus : ml.lrus = e :: lrus) :
    (ml.freeMacEntry e).Valid h ∧ (ml.freeMacEntry e).lrus = lrus ∧
      (ml.freeMacEntry e).entries = ml.entries := by
  have hnodup := List.nodup_append.1 hml.nodup
  have he : e ∈ ml.lrus := hlrus ▸ List.mem_cons_self
  -- an entry is either used or free
  have hfresh : e ∉ ml.free := fun hmem => hnodup.2.2 e hmem e he rfl
  have hrest : (ml.freeMacEntry e).lrus = lrus := by
    show ml.lrus.erase e = lrus
    rw [hlrus, List.erase_cons_head]
  have hfree : (ml.freeMacEntry e).free = e :: ml.free := by
    show e :: ml.free.erase e = _
    rw [List.erase_of_not_mem hfresh]
  have hheadTail := List.nodup_cons.1 (hlrus ▸ hnodup.2.1)
  refine ⟨⟨fun e' => ?_, ?_, fun bucket e' => ?_, fun bucket => ?_, ?_⟩, hrest, rfl⟩
  · have hmem := hml.mem_lists e'
    rw [hlrus] at hmem
    rw [hfree, hrest]
    simp only [List.mem_append, List.mem_cons] at hmem ⊢
    tauto
  · rw [hfree, hrest, List.cons_append, List.nodup_cons]
    have hall := hml.nodup
    rw [hlrus, List.nodup_middle, List.nodup_cons] at hall
    exact hall
  · show e' ∈ (ml.table bucket).erase e ↔ _
    rw [(hml.nodup_table bucket).mem_erase_iff, hml.mem_table, hrest, hlrus, List.mem_cons]
    constructor
    · rintro ⟨hne, hmem, hbucket⟩
      exact ⟨hmem.resolve_left hne, hbucket⟩
    · rintro ⟨hmem, hbucket⟩
      refine ⟨?_, .inr hmem, hbucket⟩
      rintro rfl
      exact hheadTail.1 hmem
  · exact (hml.nodup_table bucket).erase e
  · rw [hrest]
    have hpairs := hml.nodup_pairs
    rw [hlrus, List.map_cons, List.nodup_cons] at hpairs
    exact hpairs.2

/-- The entries that stay when those at the front are freed that have expired in a turn. -/
def unexpired {κ : Type} (clock : ℕ → ℤ) : ℕ → List (κ × (ℤ × ℤ)) → List (κ × (ℤ × ℤ))
  | _, [] => []
  | i, x :: l => if x.2.2 ≤ clock i then unexpired clock (i + 1) l else x :: l

/-- A run frees entries at the front, and ends before its turns do. -/
theorem Valid.runLoop (hml : ml.Valid h) (clock : ℕ → ℤ) {turns : ℕ} (i : ℕ)
    (hturns : ml.lrus.length ≤ turns) (tags : List (BitVec 32)) :
    (runLoop clock turns i (ml, tags)).1.Valid h ∧
      (MacLearning.runLoop clock turns i (ml, tags)).1.view = unexpired clock i ml.view := by
  induction turns generalizing ml i tags with
  | zero =>
    have hlrus := List.eq_nil_of_length_eq_zero (Nat.le_zero.1 hturns)
    refine ⟨hml, ?_⟩
    show ml.view = _
    rw [view, hlrus]
    rfl
  | succ turns ih =>
    unfold MacLearning.runLoop getLru
    cases hlrus : ml.lrus with
    | nil =>
      refine ⟨hml, ?_⟩
      show ml.view = _
      rw [view, hlrus]
      rfl
    | cons e lrus =>
      rw [hlrus, List.length_cons] at hturns
      have hview : ml.view = ml.item e :: lrus.map ml.item := by
        rw [view, hlrus, List.map_cons]
      have hitem : (ml.item e).2.2 = (ml.entries e).expires := rfl
      simp only [List.head?_cons]
      rw [hview, unexpired, hitem]
      by_cases hexpired : (ml.entries e).expires ≤ clock i
      · -- the entry has expired and is freed, and the run goes on behind it
        obtain ⟨hvalid, hrest, hentries⟩ := hml.freeMacEntry hlrus
        have hloop := ih hvalid (i + 1) (by rw [hrest]; omega) (tags ++ [(ml.entries e).tag])
        have hrestview : (ml.freeMacEntry e).view = lrus.map ml.item := by
          rw [view, hrest]
          unfold item pair
          rw [hentries]
        rw [hrestview] at hloop
        rw [if_pos hexpired, if_pos hexpired]
        exact hloop
      · rw [if_neg hexpired, if_neg hexpired]
        exact ⟨hml, hview⟩

theorem Valid.run (hml : ml.Valid h) (clock : ℕ → ℤ) :
    (ml.run clock).1.Valid h ∧ (ml.run clock).1.view = unexpired clock 0 ml.view :=
  hml.runLoop clock 0 (by have hlen := hml.length_lists; omega) []

/-- A flush frees all entries, and ends before its turns do. -/
theorem Valid.flushLoop (hml : ml.Valid h) {turns : ℕ} (hturns : ml.lrus.length ≤ turns) :
    (MacLearning.flushLoop turns ml).Valid h ∧ (MacLearning.flushLoop turns ml).view = [] := by
  have hnil : ∀ ml : MacLearning, ml.lrus = [] → ml.view = [] := by
    intro ml hlrus
    rw [view, hlrus]
    rfl
  induction turns generalizing ml with
  | zero => exact ⟨hml, hnil ml (List.eq_nil_of_length_eq_zero (Nat.le_zero.1 hturns))⟩
  | succ turns ih =>
    unfold MacLearning.flushLoop getLru
    cases hlrus : ml.lrus with
    | nil => exact ⟨hml, hnil ml hlrus⟩
    | cons e lrus =>
      rw [hlrus, List.length_cons] at hturns
      obtain ⟨hvalid, hrest, -⟩ := hml.freeMacEntry hlrus
      exact ih hvalid (by rw [hrest]; omega)

theorem Valid.flush (hml : ml.Valid h) : ml.flush.Valid h ∧ ml.flush.view = [] :=
  hml.flushLoop (by have hlen := hml.length_lists; omega)

end MacLearning

end OfAgent
