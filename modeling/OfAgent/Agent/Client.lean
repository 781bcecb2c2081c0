import OfAgent.Lib.Dict
import OfAgent.Agent.Slots

/-!
# The client of the device

`zyxel_client.py`. Each run reads the WAN interfaces of the device from a page of its web server,
into a dictionary from the VLAN of an interface to its id, and takes the first id that is not
among the values of the dictionary.

* `WanMap`: the device as a map from ids to services; `ListsRows`: a page that lists them.
* `getAllWan`, `setWanInterface`, `delWanInterface`: the functions of the client.
* `wanKey`: what the client reads of a VLAN; two rows with one key leave one entry.
* `lookup_getAllWan_iff`, `mem_values_getAllWan_iff`: what the dictionary holds.
-/

namespace OfAgent

open Transition

/-- A line of a page. -/
abbrev Line := List Char

/-- `WAN_INTERFACES`. -/
def wanInterfaces : List ℕ := List.range' 1 8

/-- The device: the address and the VLAN of each WAN interface that is configured. -/
abbrev WanMap := ℕ → Option (BitVec 32 × BitVec 16)

/-- `line.find('wan%d' % i) != -1`. -/
def mentions (i : ℕ) (line : Line) : Bool := decide (['w', 'a', 'n'] ++ Nat.toDigits 10 i <:+: line)

/-- The group of `<td>(\d+)</td>` in a match at the front of the line. -/
def cellAt : Line → Option Line
  | '<' :: 't' :: 'd' :: '>' :: rest =>
      let digits := rest.takeWhile Char.isDigit
      if digits ≠ [] ∧ ['<', '/', 't', 'd', '>'] <+: rest.dropWhile Char.isDigit then some digits
      else none
  | _ => none

/-- `parse_vlan`: the group of the first match in the line, or `None`. -/
def parseVlan : Line → Option Line
  | [] => none
  | c :: line => match cellAt (c :: line) with
    | some digits => some digits
    | none => parseVlan line

/-- The inner loop of `get_all_WAN`: what it reads in the fourth line behind the first one with
the name of the interface. -/
def scanWan (i : ℕ) : Bool → ℕ → List Line → Option (Option Line)
  | _, _, [] => none
  | found, foundCnt, line :: lines =>
      if found = false ∧ mentions i line = true then scanWan i true foundCnt lines
      else if found = true ∧ foundCnt < 3 then scanWan i found (foundCnt + 1) lines
      else if found = true ∧ 3 ≤ foundCnt then some (parseVlan line)
      else scanWan i found foundCnt lines

/-- `get_all_WAN`, for the page that the device returns. -/
def getAllWan (page : List Line) : List (Option Line × ℕ) :=
  wanInterfaces.foldl (fun services i =>
    match scanWan i false 0 page with
    | some vlan => Dict.set vlan i services
    | none => services) []

/-- `assign_wan`. -/
def assignWan (services : List (Option Line × ℕ)) : Option ℕ :=
  wanInterfaces.find? fun wanId => !(services.map Prod.snd).contains wanId

/-- `%d` of a VLAN, which is of type `short`. -/
def decimal (vlanTag : BitVec 16) : Line :=
  if vlanTag.toInt < 0 then '-' :: Nat.toDigits 10 vlanTag.toInt.natAbs
  else Nat.toDigits 10 vlanTag.toInt.natAbs

/-- `set_wan_interface`: the id that is assigned, or the exit without one, and the device. -/
def setWanInterface (page : WanMap → List Line) (svc : BitVec 32 × BitVec 16) (device : WanMap) :
    Option ℕ × WanMap :=
  match assignWan (getAllWan (page device)) with
  | none => (none, device)
  | some wanId => (some wanId, Function.update device wanId (some svc))

/-- `del_wan_interface`: the device. Every id is true in `if wan_id`. -/
def delWanInterface (page : WanMap → List Line) (vlanTag : BitVec 16) (device : WanMap) : WanMap :=
  match (getAllWan (page device)).lookup (some (decimal vlanTag)) with
  | none => device
  | some wanId => Function.update device wanId none

/-! ### What the client reads -/

/-- What the client reads of the VLAN of a row: a negative number is no match. -/
def wanKey (vlanTag : BitVec 16) : Option Line :=
  if vlanTag.toInt < 0 then none else some (decimal vlanTag)

/-- The line with the VLAN of a row: one cell, with anything but tags around it. -/
def IsCell (vlanTag : BitVec 16) (line : Line) : Prop :=
  ∃ pre post, '<' ∉ pre ∧ '<' ∉ post ∧
    line = pre ++ ['<', 't', 'd', '>'] ++ decimal vlanTag ++ ['<', '/', 't', 'd', '>'] ++ post

/-- The page has the name of the interface in a line, and the VLAN in the fourth line behind it. -/
def ListsRow (page : List Line) (i : ℕ) (vlanTag : BitVec 16) : Prop :=
  ∃ pre name line₁ line₂ line₃ cell post,
    page = pre ++ name :: line₁ :: line₂ :: line₃ :: cell :: post ∧
      (∀ line ∈ pre, mentions i line = false) ∧ mentions i name = true ∧ IsCell vlanTag cell

/-- The page of the device lists every interface that is configured, and does not mention the
others. -/
def ListsRows (page : WanMap → List Line) : Prop :=
  ∀ device : WanMap, ∀ i ∈ wanInterfaces,
    (device i = none → ∀ line ∈ page device, mentions i line = false) ∧
      ∀ svc, device i = some svc → ListsRow (page device) i svc.2

section Parse

theorem parseVlan_cons_of_ne {c : Char} (h : c ≠ '<') (line : Line) :
    parseVlan (c :: line) = parseVlan line := by
  have hcell : cellAt (c :: line) = none := by
    unfold cellAt
    split
    next heq => exact absurd (List.cons.inj heq).1 h
    next => rfl
  rw [parseVlan, hcell]

/-- What stands in front of the first tag is skipped. -/
theorem parseVlan_append_of_notMem {pre : Line} (h : '<' ∉ pre) (line : Line) :
    parseVlan (pre ++ line) = parseVlan line := by
  induction pre with
  | nil => rfl
  | cons c pre ih =>
    obtain ⟨hc, hpre⟩ := not_or.1 (mt List.mem_cons.2 h)
    rw [List.cons_append, parseVlan_cons_of_ne (Ne.symm hc), ih hpre]

theorem parseVlan_of_notMem {line : Line} (h : '<' ∉ line) : parseVlan line = none := by
  have hskip := parseVlan_append_of_notMem h []
  rwa [List.append_nil] at hskip

theorem isDigit_of_mem_decimal {vlanTag : BitVec 16} (h : ¬ vlanTag.toInt < 0) :
    ∀ c ∈ decimal vlanTag, c.isDigit = true := by
  rw [decimal, if_neg h]
  exact fun c hc => Nat.isDigit_of_mem_toDigits (by decide) (by decide) hc

/-- A number consists of digits, behind a sign perhaps. -/
theorem notMem_decimal (vlanTag : BitVec 16) {c : Char} (hdigit : c.isDigit = false)
    (hsign : c ≠ '-') : c ∉ decimal vlanTag := by
  have hdigits : ∀ n, c ∉ Nat.toDigits 10 n := by
    intro n hmem
    have hmem := Nat.isDigit_of_mem_toDigits (by decide) (by decide) hmem
    rw [hdigit] at hmem
    cases hmem
  unfold decimal
  split
  · intro hmem
    obtain heq | hmem := List.mem_cons.1 hmem
    · exact hsign heq
    · exact hdigits _ hmem
  · exact hdigits _

/-- A number that is not negative determines the VLAN. -/
theorem decimal_injective {v w : BitVec 16} (hv : ¬ v.toInt < 0) (hw : ¬ w.toInt < 0)
    (h : decimal v = decimal w) : v = w := by
  rw [decimal, decimal, if_neg hv, if_neg hw] at h
  have hnat := congrArg (Nat.ofDigitChars 10 · 0) h
  simp only [Nat.ofDigitChars_ten_toDigits] at hnat
  exact BitVec.eq_of_toInt_eq (by omega)

/-- The client reads the VLAN of a cell. -/
theorem parseVlan_cell {vlanTag : BitVec 16} {line : Line} (h : IsCell vlanTag line) :
    parseVlan line = wanKey vlanTag := by
  obtain ⟨pre, post, hpre, hpost, rfl⟩ := h
  have hend : parseVlan (['<', '/', 't', 'd', '>'] ++ post) = none := by
    have htail : '<' ∉ ['/', 't', 'd', '>'] ++ post := by
      simp [hpost]
    have hfirst : parseVlan (['<', '/', 't', 'd', '>'] ++ post) =
        parseVlan (['/', 't', 'd', '>'] ++ post) := rfl
    rw [hfirst, parseVlan_of_notMem htail]
  simp only [List.append_assoc]
  rw [parseVlan_append_of_notMem hpre]
  unfold wanKey
  by_cases hneg : vlanTag.toInt < 0
  · -- the sign is no digit, and behind the number there is no further cell
    rw [if_pos hneg]
    have hsign : cellAt (['<', 't', 'd', '>'] ++
        (decimal vlanTag ++ (['<', '/', 't', 'd', '>'] ++ post))) = none := by
      rw [decimal, if_pos hneg]
      rfl
    have hskip : parseVlan (['<', 't', 'd', '>'] ++
        (decimal vlanTag ++ (['<', '/', 't', 'd', '>'] ++ post))) =
          parseVlan (['t', 'd', '>'] ++
            (decimal vlanTag ++ (['<', '/', 't', 'd', '>'] ++ post))) := by
      simp only [List.cons_append, List.nil_append] at hsign ⊢
      rw [parseVlan, hsign]
    rw [hskip, parseVlan_append_of_notMem (by decide),
      parseVlan_append_of_notMem (notMem_decimal vlanTag (by decide) (by decide)), hend]
  · rw [if_neg hneg]
    have hdigits := isDigit_of_mem_decimal hneg
    have hne : decimal vlanTag ≠ [] := by
      rw [decimal, if_neg hneg]
      exact Nat.toDigits_ne_nil
    have htake : (decimal vlanTag ++ (['<', '/', 't', 'd', '>'] ++ post)).takeWhile Char.isDigit =
        decimal vlanTag := by
      rw [List.takeWhile_append_of_pos hdigits]
      exact List.append_nil _
    have hdrop : (decimal vlanTag ++ (['<', '/', 't', 'd', '>'] ++ post)).dropWhile Char.isDigit =
        ['<', '/', 't', 'd', '>'] ++ post := by
      rw [List.dropWhile_append_of_pos hdigits]
      rfl
    have hcell : cellAt (['<', 't', 'd', '>'] ++
        (decimal vlanTag ++ (['<', '/', 't', 'd', '>'] ++ post))) = some (decimal vlanTag) := by
      simp only [List.cons_append, List.nil_append] at htake hdrop ⊢
      rw [cellAt, htake, hdrop, if_pos ⟨hne, List.prefix_append _ _⟩]
    simp only [List.cons_append, List.nil_append] at hcell ⊢
    rw [parseVlan, hcell]

/-- The VLAN of a row is looked up when it is the VLAN of the command and not negative. -/
theorem wanKey_eq_decimal_iff {v w : BitVec 16} :
    wanKey w = some (decimal v) ↔ 0 ≤ v.toInt ∧ w = v := by
  unfold wanKey
  by_cases hw : w.toInt < 0
  · rw [if_pos hw]
    refine iff_of_false (fun h => by cases h) ?_
    rintro ⟨hv, rfl⟩
    omega
  · rw [if_neg hw, Option.some.injEq]
    constructor
    · intro h
      -- a negative number begins with a sign, which is no digit
      have hv : ¬ v.toInt < 0 := by
        intro hv
        have hsign : '-' ∈ decimal w := by
          rw [h, decimal, if_pos hv]
          exact List.mem_cons_self
        exact absurd (isDigit_of_mem_decimal hw _ hsign) (by decide)
      exact ⟨Int.not_lt.1 hv, decimal_injective hw hv h⟩
    · rintro ⟨-, rfl⟩
      rfl

end Parse

section Scan

variable {page : WanMap → List Line} {device : WanMap} {i : ℕ}

/-- Lines that do not mention the interface are skipped. -/
theorem scanWan_append {pre : List Line} (h : ∀ line ∈ pre, mentions i line = false)
    (lines : List Line) : scanWan i false 0 (pre ++ lines) = scanWan i false 0 lines := by
  induction pre with
  | nil => rfl
  | cons line pre ih =>
    rw [List.forall_mem_cons] at h
    rw [List.cons_append, scanWan]
    simp only [h.1, Bool.false_eq_true, and_false, false_and, if_false]
    exact ih h.2

/-- The scan of a page finds an interface if and only if it is configured. -/
theorem scanWan_eq (hpage : ListsRows page) (hi : i ∈ wanInterfaces) :
    scanWan i false 0 (page device) = (device i).map fun svc => wanKey svc.2 := by
  obtain ⟨hnone, hsome⟩ := hpage device i hi
  cases hrow : device i with
  | none =>
    have hscan := scanWan_append (hnone hrow) []
    rwa [List.append_nil] at hscan
  | some svc =>
    obtain ⟨pre, name, line₁, line₂, line₃, cell, post, heq, hpre, hname, hcell⟩ := hsome svc hrow
    rw [heq, scanWan_append hpre]
    simp [scanWan, hname, parseVlan_cell hcell]

/-- The entries that the loop of `get_all_WAN` sets. -/
def wanPairs (device : WanMap) : List (Option Line × ℕ) :=
  wanInterfaces.filterMap fun i => (device i).map fun svc => (wanKey svc.2, i)

theorem mem_wanPairs_iff {key : Option Line} : (key, i) ∈ wanPairs device ↔
    i ∈ wanInterfaces ∧ ∃ svc, device i = some svc ∧ wanKey svc.2 = key := by
  simp only [wanPairs, List.mem_filterMap, Option.map_eq_some_iff, Prod.mk.injEq]
  constructor
  · rintro ⟨j, hj, svc, hsvc, hkey, rfl⟩
    exact ⟨hj, svc, hsvc, hkey⟩
  · rintro ⟨hi, svc, hsvc, hkey⟩
    exact ⟨i, hi, svc, hsvc, hkey, rfl⟩

theorem pairwise_wanInterfaces : wanInterfaces.Pairwise (· < ·) := List.pairwise_lt_range'

/-- The entries are set in the order of the ids. -/
theorem pairwise_wanPairs : (wanPairs device).Pairwise fun p q => p.2 < q.2 := by
  refine List.Pairwise.filterMap _ (fun i j hij p hp q hq => ?_) pairwise_wanInterfaces
  obtain ⟨svc, -, rfl⟩ := Option.map_eq_some_iff.1 hp
  obtain ⟨svc', -, rfl⟩ := Option.map_eq_some_iff.1 hq
  exact hij

/-- The dictionary of `get_all_WAN`. -/
theorem getAllWan_eq (hpage : ListsRows page) :
    getAllWan (page device) = Dict.ofPairs (wanPairs device) := by
  have hfold : ∀ (ids : List ℕ) (services : List (Option Line × ℕ)),
      (∀ i ∈ ids, i ∈ wanInterfaces) →
      ids.foldl (fun services i =>
        match scanWan i false 0 (page device) with
        | some vlan => Dict.set vlan i services
        | none => services) services =
      (ids.filterMap fun i => (device i).map fun svc => (wanKey svc.2, i)).foldl
        (fun d p => Dict.set p.1 p.2 d) services := by
    intro ids
    induction ids with
    | nil => exact fun _ _ => rfl
    | cons i ids ih =>
      intro services hids
      rw [List.forall_mem_cons] at hids
      rw [List.foldl_cons, scanWan_eq hpage hids.1, ih _ hids.2]
      cases hrow : device i with
      | none => simp [hrow]
      | some svc => simp [hrow]
  exact hfold wanInterfaces [] fun i hi => hi

/-- The dictionary leads from a VLAN to the highest row with it. -/
theorem lookup_getAllWan_iff (hpage : ListsRows page) {key : Option Line} :
    (getAllWan (page device)).lookup key = some i ↔
      (key, i) ∈ wanPairs device ∧ ∀ j, (key, j) ∈ wanPairs device → j ≤ i := by
  rw [getAllWan_eq hpage, Dict.lookup_ofPairs_iff, Dict.mem_ofPairs_iff pairwise_wanPairs]
  refine and_congr_right fun _ => ⟨fun h j hj => h _ hj rfl, ?_⟩
  rintro h ⟨key', j⟩ hj rfl
  exact h j hj

/-- The row is configured, and a higher row leaves no entry of it. -/
def Hidden (device : WanMap) (i : ℕ) : Prop :=
  ∃ svc, device i = some svc ∧ ∃ j ∈ wanInterfaces, i < j ∧
    ∃ svc', device j = some svc' ∧ wanKey svc'.2 = wanKey svc.2

/-- The used ids that `assign_wan` knows of. -/
theorem mem_values_getAllWan_iff (hpage : ListsRows page) (hi : i ∈ wanInterfaces) :
    i ∈ (getAllWan (page device)).map Prod.snd ↔ device i ≠ none ∧ ¬ Hidden device i := by
  rw [getAllWan_eq hpage]
  simp only [List.mem_map, Dict.mem_ofPairs_iff pairwise_wanPairs]
  constructor
  · rintro ⟨⟨key, i⟩, ⟨hmem, hmax⟩, rfl⟩
    obtain ⟨-, svc, hsvc, rfl⟩ := mem_wanPairs_iff.1 hmem
    refine ⟨by simp [hsvc], ?_⟩
    rintro ⟨svc₁, hsvc₁, j, hj, hlt, svc', hsvc', hkey⟩
    obtain rfl : svc = svc₁ := Option.some.inj (hsvc.symm.trans hsvc₁)
    have hle := hmax (wanKey svc.2, j) (mem_wanPairs_iff.2 ⟨hj, svc', hsvc', hkey⟩) rfl
    exact absurd hlt (not_lt_of_ge hle)
  · rintro ⟨hne, hhidden⟩
    obtain ⟨svc, hsvc⟩ := Option.ne_none_iff_exists'.1 hne
    refine ⟨(wanKey svc.2, i), ⟨mem_wanPairs_iff.2 ⟨hi, svc, hsvc, rfl⟩, ?_⟩, rfl⟩
    rintro ⟨key, j⟩ hj rfl
    obtain ⟨hj, svc', hsvc', hkey⟩ := mem_wanPairs_iff.1 hj
    by_contra hlt
    exact hhidden ⟨svc, hsvc, j, hj, not_le.1 hlt, svc', hsvc', hkey⟩

/-- The id that is assigned is the least one that `assign_wan` does not know to be used. -/
theorem assignWan_iff {services : List (Option Line × ℕ)} :
    assignWan services = some i ↔ i ∈ wanInterfaces ∧ i ∉ services.map Prod.snd ∧
      ∀ j ∈ wanInterfaces, j < i → j ∈ services.map Prod.snd := by
  rw [assignWan, FirstMatch.find?_eq_some_iff_of_ascending pairwise_wanInterfaces]
  simp only [Bool.not_eq_true', List.contains_iff_mem, ← Bool.not_eq_true, not_not]

end Scan

/-! ### Runs of the client -/

/-- The device, and the row that the last run for a service has created for it. -/
structure WanState where
  /-- The rows of the device. -/
  device : WanMap
  /-- The id of the row of a service. -/
  created : BitVec 32 × BitVec 16 → Option ℕ

/-- A device on which the client has created nothing. -/
def WanState.start (device : WanMap) : WanState := ⟨device, fun _ => none⟩

/-- A run of the client, for the page of the device. -/
def runClient (page : WanMap → List Line) (st : WanState) : DeviceCommand → WanState
  | .setwan wanAddress _ vlanTag _ =>
      let (wanId, device) := setWanInterface page (wanAddress, vlanTag) st.device
      ⟨device, Function.update st.created (wanAddress, vlanTag) wanId⟩
  | .delwan wanAddress _ vlanTag _ =>
      ⟨delWanInterface page vlanTag st.device,
        Function.update st.created (wanAddress, vlanTag) none⟩

namespace DeviceCommand

/-- The command does what it is for: the id that it assigns is not configured, or it removes
exactly the row that has been created for the service. -/
def Fits (page : WanMap → List Line) (st : WanState) : DeviceCommand → Prop
  | .setwan .. => ∀ wanId, assignWan (getAllWan (page st.device)) = some wanId →
      st.device wanId = none
  | .delwan wanAddress _ vlanTag _ => delWanInterface page vlanTag st.device =
      match st.created (wanAddress, vlanTag) with
      | none => st.device
      | some wanId => Function.update st.device wanId none

/-- The rows in which a command fits. When an id is assigned, there is a free one below every row
that leaves no entry; when a service is removed, no other row with its VLAN is above its own, and
its VLAN is not negative if it has a row. -/
def RowsFit (st : WanState) : DeviceCommand → Prop
  | .setwan .. => ∀ i ∈ wanInterfaces, Hidden st.device i →
      ∃ j ∈ wanInterfaces, j < i ∧ st.device j = none
  | .delwan wanAddress _ vlanTag _ =>
      (st.created (wanAddress, vlanTag) ≠ none → 0 ≤ vlanTag.toInt) ∧
        (0 ≤ vlanTag.toInt → ∀ j ∈ wanInterfaces, ∀ svc, st.device j = some svc →
          svc.2 = vlanTag → ∃ wanId, st.created (wanAddress, vlanTag) = some wanId ∧ j ≤ wanId)

end DeviceCommand

/-- The rows that have been created are there. -/
def WanState.Tracks (st : WanState) : Prop :=
  ∀ svc wanId, st.created svc = some wanId → wanId ∈ wanInterfaces ∧ st.device wanId = some svc

section Runs

variable {page : WanMap → List Line} {device : WanMap} {st : WanState}

/-- An id is assigned that is not configured if and only if no row that leaves no entry is below
every free id. -/
theorem assignWan_free_iff (hpage : ListsRows page) :
    (∀ wanId, assignWan (getAllWan (page device)) = some wanId → device wanId = none) ↔
      ∀ i ∈ wanInterfaces, Hidden device i → ∃ j ∈ wanInterfaces, j < i ∧ device j = none := by
  constructor
  · intro h i hi hhidden
    -- a hidden row is not among the ids that are known, so that its id may be assigned
    have hunknown : i ∉ (getAllWan (page device)).map Prod.snd := fun hmem =>
      ((mem_values_getAllWan_iff hpage hi).1 hmem).2 hhidden
    cases hassign : assignWan (getAllWan (page device)) with
    | none =>
      have hall := List.find?_eq_none.1 hassign i hi
      simp [hunknown] at hall
    | some wanId =>
      have hfree := h wanId hassign
      obtain ⟨hmem, -, hbelow⟩ := assignWan_iff.1 hassign
      obtain ⟨svc, hsvc, -⟩ := hhidden
      refine ⟨wanId, hmem, ?_, hfree⟩
      by_contra hle
      obtain heq | hlt := Nat.eq_or_lt_of_le (Nat.le_of_not_lt hle)
      · rw [← heq, hsvc] at hfree
        cases hfree
      · exact hunknown (hbelow i hi hlt)
  · intro h wanId hassign
    obtain ⟨hmem, hunknown, hbelow⟩ := assignWan_iff.1 hassign
    by_contra hne
    have hhidden : Hidden device wanId := by
      by_contra hnot
      exact hunknown ((mem_values_getAllWan_iff hpage hmem).2 ⟨hne, hnot⟩)
    obtain ⟨j, hj, hlt, hfree⟩ := h wanId hmem hhidden
    exact ((mem_values_getAllWan_iff hpage hj).1 (hbelow j hj hlt)).1 hfree

/-- The entries for the VLAN of a command are the rows with that VLAN. -/
theorem mem_wanPairs_decimal_iff {v : BitVec 16} {i : ℕ} :
    (some (decimal v), i) ∈ wanPairs device ↔
      0 ≤ v.toInt ∧ i ∈ wanInterfaces ∧ ∃ svc, device i = some svc ∧ svc.2 = v := by
  simp only [mem_wanPairs_iff, wanKey_eq_decimal_iff]
  constructor
  · rintro ⟨hi, svc, hsvc, hv, heq⟩
    exact ⟨hv, hi, svc, hsvc, heq⟩
  · rintro ⟨hv, hi, svc, hsvc, heq⟩
    exact ⟨hi, svc, hsvc, hv, heq⟩

/-- A removal for a service without a row leaves the device as it is if and only if no row has its
VLAN. -/
theorem delWanInterface_eq_self_iff (hpage : ListsRows page) {v : BitVec 16} :
    delWanInterface page v device = device ↔
      (0 ≤ v.toInt → ∀ j ∈ wanInterfaces, ∀ svc, device j = some svc → svc.2 ≠ v) := by
  unfold delWanInterface
  cases hlookup : (getAllWan (page device)).lookup (some (decimal v)) with
  | none =>
    refine iff_of_true rfl fun hv j hj svc hsvc heq => ?_
    -- the highest row with the VLAN would have been found
    have hmem : (some (decimal v), j) ∈ wanPairs device :=
      mem_wanPairs_decimal_iff.2 ⟨hv, hj, svc, hsvc, heq⟩
    rw [getAllWan_eq hpage] at hlookup
    have hnone := List.lookup_eq_none_iff.1 hlookup
    obtain ⟨i, hi⟩ : ∃ i, (some (decimal v), i) ∈ Dict.ofPairs (wanPairs device) :=
      Dict.exists_mem_ofPairs hmem
    exact absurd (hnone _ hi) (by simp)
  | some wanId =>
    obtain ⟨hmem, -⟩ := (lookup_getAllWan_iff hpage).1 hlookup
    obtain ⟨hv, hid, svc, hsvc, heq⟩ := mem_wanPairs_decimal_iff.1 hmem
    refine iff_of_false (fun h => ?_) fun h => h hv wanId hid svc hsvc heq
    have hrow : Function.update device wanId none wanId = device wanId := congrFun h wanId
    rw [Function.update_self, hsvc] at hrow
    cases hrow

/-- A removal takes a given row of the service if and only if the VLAN is not negative and no
other row with it is above. -/
theorem delWanInterface_eq_update_iff (hpage : ListsRows page) {svc : BitVec 32 × BitVec 16}
    {wanId : ℕ} (hid : wanId ∈ wanInterfaces) (hrow : device wanId = some svc) :
    delWanInterface page svc.2 device = Function.update device wanId none ↔
      0 ≤ svc.2.toInt ∧ ∀ j ∈ wanInterfaces, ∀ svc', device j = some svc' → svc'.2 = svc.2 →
        j ≤ wanId := by
  constructor
  · intro h
    -- the row is gone, so that it is the one that has been looked up
    have hlookup : (getAllWan (page device)).lookup (some (decimal svc.2)) = some wanId := by
      have hgone := congrFun h wanId
      rw [Function.update_self] at hgone
      unfold delWanInterface at hgone
      cases hlookup : (getAllWan (page device)).lookup (some (decimal svc.2)) with
      | none =>
        rw [hlookup] at hgone
        exact absurd (hrow.symm.trans hgone) (by simp)
      | some i =>
        simp only [hlookup] at hgone
        by_cases hi : wanId = i
        · rw [hi]
        · rw [Function.update_of_ne hi, hrow] at hgone
          cases hgone
    obtain ⟨hmem, hmax⟩ := (lookup_getAllWan_iff hpage).1 hlookup
    obtain ⟨hv, -⟩ := mem_wanPairs_decimal_iff.1 hmem
    exact ⟨hv, fun j hj svc' hsvc' heq =>
      hmax j (mem_wanPairs_decimal_iff.2 ⟨hv, hj, svc', hsvc', heq⟩)⟩
  · rintro ⟨hv, hmax⟩
    have hlookup : (getAllWan (page device)).lookup (some (decimal svc.2)) = some wanId := by
      refine (lookup_getAllWan_iff hpage).2
        ⟨mem_wanPairs_decimal_iff.2 ⟨hv, hid, svc, hrow, rfl⟩, fun j hj => ?_⟩
      obtain ⟨-, hj, svc', hsvc', heq⟩ := mem_wanPairs_decimal_iff.1 hj
      exact hmax j hj svc' hsvc' heq
    simp only [delWanInterface, hlookup]

/-- A command fits exactly in the rows that `DeviceCommand.RowsFit` describes. -/
theorem fits_iff (hpage : ListsRows page) (hst : st.Tracks) (c : DeviceCommand) :
    c.Fits page st ↔ c.RowsFit st := by
  cases c with
  | setwan wan mask vlan pcp => exact assignWan_free_iff hpage
  | delwan wan mask vlan pcp =>
    simp only [DeviceCommand.Fits, DeviceCommand.RowsFit]
    cases hcreated : st.created (wan, vlan) with
    | none =>
      rw [delWanInterface_eq_self_iff hpage]
      simp
    | some wanId =>
      obtain ⟨hid, hrow⟩ := hst (wan, vlan) wanId hcreated
      refine (delWanInterface_eq_update_iff hpage hid hrow).trans ?_
      simp only [ne_eq, reduceCtorEq, not_false_eq_true, true_imp_iff, Option.some.injEq,
        exists_eq_left']
      exact and_congr_right fun hv => ⟨fun h _ => h, fun h => h hv⟩

/-- A command that fits keeps track of the rows. -/
theorem WanState.Tracks.runClient (hst : st.Tracks) {c : DeviceCommand} (h : c.Fits page st) :
    (runClient page st c).Tracks := by
  cases c with
  | setwan wan mask vlan pcp =>
    intro svc wanId hcreated
    simp only [DeviceCommand.Fits] at h
    simp only [OfAgent.runClient, setWanInterface] at hcreated ⊢
    cases hassign : assignWan (getAllWan (page st.device)) with
    | none =>
      simp only [hassign] at hcreated ⊢
      by_cases hsvc : svc = (wan, vlan)
      · rw [hsvc, Function.update_self] at hcreated
        cases hcreated
      · rw [Function.update_of_ne hsvc] at hcreated
        exact hst svc wanId hcreated
    | some i =>
      simp only [hassign] at hcreated ⊢
      by_cases hsvc : svc = (wan, vlan)
      · rw [hsvc, Function.update_self] at hcreated
        obtain rfl := Option.some.inj hcreated
        exact ⟨(assignWan_iff.1 hassign).1, by rw [Function.update_self, hsvc]⟩
      · rw [Function.update_of_ne hsvc] at hcreated
        obtain ⟨hid, hrow⟩ := hst svc wanId hcreated
        -- the id that is assigned was free
        have hne : wanId ≠ i := by
          rintro rfl
          rw [h wanId hassign] at hrow
          cases hrow
        exact ⟨hid, by rw [Function.update_of_ne hne, hrow]⟩
  | delwan wan mask vlan pcp =>
    intro svc wanId hcreated
    simp only [DeviceCommand.Fits] at h
    simp only [OfAgent.runClient] at hcreated ⊢
    by_cases hsvc : svc = (wan, vlan)
    · rw [hsvc, Function.update_self] at hcreated
      cases hcreated
    · rw [Function.update_of_ne hsvc] at hcreated
      obtain ⟨hid, hrow⟩ := hst svc wanId hcreated
      rw [h]
      refine ⟨hid, ?_⟩
      cases hown : st.created (wan, vlan) with
      | none => exact hrow
      | some i =>
        have hne : wanId ≠ i := by
          rintro rfl
          rw [(hst (wan, vlan) wanId hown).2] at hrow
          exact hsvc (Option.some.inj hrow).symm
        simp only [Function.update_of_ne hne]
        exact hrow

/-- In a run of the client whose commands meet rows in which they fit, the rows that have been
created are there, and the next command does what it is for exactly when the rows fit. -/
theorem rows_fit_iff (hpage : ListsRows page)
    (h : ReachableVia (fun st c st' => st' = runClient page st c) (fun st c => c.RowsFit st)
      (.start device) st) :
    st.Tracks ∧ ∀ c : DeviceCommand, c.Fits page st ↔ c.RowsFit st := by
  have htracks : st.Tracks := by
    refine h.invariant WanState.Tracks ?_ fun st c st' hst hok hstep => ?_
    · intro svc wanId hcreated
      cases hcreated
    · rw [hstep]
      exact hst.runClient ((fits_iff hpage hst c).2 hok)
  exact ⟨htracks, fits_iff hpage htracks⟩

end Runs

/-! ### A page with five lines for each row -/

/-- The lines of a row: its name, three empty ones, and the VLAN. -/
def plainRow (i : ℕ) (svc : BitVec 32 × BitVec 16) : List Line :=
  [['w', 'a', 'n'] ++ Nat.toDigits 10 i, [], [], [],
    ['<', 't', 'd', '>'] ++ decimal svc.2 ++ ['<', '/', 't', 'd', '>']]

/-- A page with the rows that are configured. -/
def plainPage (device : WanMap) : List Line :=
  wanInterfaces.flatMap fun i => ((device i).map (plainRow i)).getD []

theorem mentions_of_notMem {i : ℕ} {line : Line} (h : 'w' ∉ line) : mentions i line = false :=
  decide_eq_false fun hsub => h (hsub.subset (by simp))

/-- The lines of a row have no name but its own. -/
theorem mentions_plainRow {i j : ℕ} (hi : i ∈ wanInterfaces) (hj : j ∈ wanInterfaces) (h : j ≠ i)
    (svc : BitVec 32 × BitVec 16) : ∀ line ∈ plainRow j svc, mentions i line = false := by
  have hnames : ∀ i ∈ wanInterfaces, ∀ j ∈ wanInterfaces, j ≠ i →
      mentions i (['w', 'a', 'n'] ++ Nat.toDigits 10 j) = false := by decide +kernel
  have hcell : 'w' ∉ ['<', 't', 'd', '>'] ++ decimal svc.2 ++ ['<', '/', 't', 'd', '>'] := by
    simp [notMem_decimal svc.2 (c := 'w') (by decide) (by decide)]
  simp only [plainRow, List.forall_mem_cons]
  have hempty : mentions i [] = false := mentions_of_notMem List.not_mem_nil
  exact ⟨hnames i hi j hj h, hempty, hempty, hempty, mentions_of_notMem hcell,
    fun line hline => absurd hline List.not_mem_nil⟩

/-- The rows in front of a row do not mention it. -/
theorem mentions_flatMap_plainRow {device : WanMap} {i : ℕ} (hi : i ∈ wanInterfaces)
    {ids : List ℕ} (hids : ∀ j ∈ ids, j ∈ wanInterfaces ∧ (j ≠ i ∨ device j = none)) :
    ∀ line ∈ ids.flatMap fun j => ((device j).map (plainRow j)).getD [],
      mentions i line = false := by
  intro line hline
  obtain ⟨j, hj, hmem⟩ := List.mem_flatMap.1 hline
  cases hrow : device j with
  | none => simp [hrow] at hmem
  | some svc =>
    obtain ⟨hj, hne | hnone⟩ := hids j hj
    · rw [hrow] at hmem
      exact mentions_plainRow hi hj hne svc line hmem
    · rw [hrow] at hnone
      cases hnone

/-- The page lists the rows. -/
theorem listsRows_plainPage : ListsRows plainPage := by
  intro device i hi
  refine ⟨fun hnone => ?_, fun svc hsvc => ?_⟩
  · refine mentions_flatMap_plainRow hi fun j hj => ⟨hj, ?_⟩
    by_cases hne : j = i
    · exact .inr (hne ▸ hnone)
    · exact .inl hne
  · obtain ⟨pre, post, heq⟩ := List.append_of_mem hi
    have hascend := pairwise_wanInterfaces
    rw [heq, List.pairwise_append] at hascend
    have hpre : ∀ j ∈ pre, j ∈ wanInterfaces ∧ (j ≠ i ∨ device j = none) := fun j hj =>
      ⟨by simp [heq, hj], .inl (Nat.ne_of_lt (hascend.2.2 j hj i List.mem_cons_self))⟩
    have hname : mentions i (['w', 'a', 'n'] ++ Nat.toDigits 10 i) = true :=
      decide_eq_true List.infix_rfl
    have hcell : IsCell svc.2
        (['<', 't', 'd', '>'] ++ decimal svc.2 ++ ['<', '/', 't', 'd', '>']) :=
      ⟨[], [], List.not_mem_nil, List.not_mem_nil, by simp⟩
    refine ⟨_, _, [], [], [], _, post.flatMap fun j => ((device j).map (plainRow j)).getD [], ?_,
      mentions_flatMap_plainRow hi hpre, hname, hcell⟩
    rw [plainPage, heq, List.flatMap_append, List.flatMap_cons, hsvc]
    rfl

/-- The service of an address and a VLAN is set up and removed on an empty device. -/
theorem rows_fit_iff_removed : (DeviceCommand.delwan 1 0 10 0).Fits plainPage
    (runClient plainPage (.start fun _ => none) (.setwan 1 0 10 0)) := by
  have hset : (DeviceCommand.setwan 1 0 10 0).RowsFit (.start fun _ => none) := by
    rintro i - ⟨svc, hsvc, -⟩
    cases hsvc
  have hassign : setWanInterface plainPage (1, 10) (fun _ => none) =
      (some 1, Function.update (fun _ => none : WanMap) 1 (some (1, 10))) := by
    have hfirst : assignWan (getAllWan (plainPage fun _ => none)) = some 1 := by decide +kernel
    rw [setWanInterface, hfirst]
  refine ((rows_fit_iff listsRows_plainPage (.tail .refl hset rfl)).2 _).2 ⟨fun _ => by decide, ?_⟩
  rintro - j - svc hsvc -
  simp only [runClient, WanState.start, hassign] at hsvc ⊢
  refine ⟨1, Function.update_self .., ?_⟩
  by_contra hne
  rw [Function.update_of_ne (by omega)] at hsvc
  cases hsvc

/-- Two services with one VLAN and different addresses leave one entry in the dictionary, and the
next service gets the id of the first one. -/
theorem not_rows_fit : ¬ ∀ s : ZyxelState,
    ReachableVia (StepOf (ServiceCall.exec fun _ => 0))
      (fun s call => call.KeepsConsistent (fun _ => 0) s) .init s →
    ∀ pre c post, s.commands = pre ++ c :: post →
      c.Fits plainPage (pre.foldl (runClient plainPage) (.start fun _ => none)) := by
  intro hall
  have hok : ∀ {vlan : BitVec 16} {wan : BitVec 32}, ((serviceRecord vlan wan).vlanTag 0).toNat <
      2 ^ 15 → ∀ s, (ServiceCall.conf (serviceRecord vlan wan) 0).KeepsConsistent (fun _ => 0) s :=
    keepsConsistent_of_vlanTag_lt
  have hstep1 : StepOf (ServiceCall.exec fun _ => 0) .init (.conf (serviceRecord 10 1) 0)
      (deviceAfter [.conf (serviceRecord 10 1) 0]) := by
    unfold StepOf
    decide +kernel
  have hstep2 : StepOf (ServiceCall.exec fun _ => 0) (deviceAfter [.conf (serviceRecord 10 1) 0])
      (.conf (serviceRecord 10 2) 0)
      (deviceAfter [.conf (serviceRecord 10 1) 0, .conf (serviceRecord 10 2) 0]) := by
    unfold StepOf
    decide +kernel
  have hstep3 : StepOf (ServiceCall.exec fun _ => 0)
      (deviceAfter [.conf (serviceRecord 10 1) 0, .conf (serviceRecord 10 2) 0])
      (.conf (serviceRecord 20 3) 0)
      (deviceAfter [.conf (serviceRecord 10 1) 0, .conf (serviceRecord 10 2) 0,
        .conf (serviceRecord 20 3) 0]) := by
    unfold StepOf
    decide +kernel
  have hcommands : (deviceAfter [.conf (serviceRecord 10 1) 0, .conf (serviceRecord 10 2) 0,
      .conf (serviceRecord 20 3) 0]).commands =
        [.setwan 1 0 10 0, .setwan 2 0 10 0] ++ .setwan 3 0 20 0 :: [] := by decide +kernel
  have hfits := hall _ (.tail (.tail (.tail .refl (hok (by decide +kernel) _) hstep1)
    (hok (by decide +kernel) _) hstep2) (hok (by decide +kernel) _) hstep3) _ _ _ hcommands
  -- the rows are those of the first two services, and the dictionary has the second one only
  have hassign : assignWan (getAllWan (plainPage ([DeviceCommand.setwan 1 0 10 0,
      .setwan 2 0 10 0].foldl (runClient plainPage) (.start fun _ => none)).device)) = some 1 := by
    decide +kernel
  have hused : ([DeviceCommand.setwan 1 0 10 0, .setwan 2 0 10 0].foldl (runClient plainPage)
      (.start fun _ => none)).device 1 ≠ none := by decide +kernel
  exact hused (hfits 1 hassign)

end OfAgent
