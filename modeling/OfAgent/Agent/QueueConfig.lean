import Mathlib.Algebra.Order.Ring.Int
import Mathlib.Data.List.Forall2
import Mathlib.Data.List.Perm.Subperm
import OfAgent.Agent.ConfigService
import OfAgent.Lib.Decimal

/-!
# The queues of the agent

`read_queue_config` of `ofagent.c` reads the file that the configuration service has written into an
array of fixed size.

* `QueueEntry`, `QueueArray`: the array `queues`.
* `fgets`, `sscanf`: the functions of the C library, as far as they are used.
* `readQueueConfig`: the function. It enables an entry before it looks whether the line is right,
  and returns at the first one that is not.
* `scanNumbers`, `pieces`: the numbers of a line, and the pieces that a file is read in.
* `readQueues_of_complete`, `complete_of_fresh`: what is read from complete pieces, and why all of
  them have to be.
* `queueConfig_iff`: whatever the array has held, its entries are those of the queues, and come from
  lines of four numbers, exactly if these are the numbers that are read from each piece.
-/

namespace OfAgent

/-! ### The array -/

/-- `queue_conf`. -/
structure QueueEntry where
  /-- `queue_id`. -/
  queueId : BitVec 32
  /-- `port_id`: attached port to queue. -/
  portId : BitVec 32
  /-- `min_rate`. -/
  minRate : BitVec 32
  /-- `max_rate`. -/
  maxRate : BitVec 32
  /-- `enabled`. -/
  enabled : Bool
  deriving DecidableEq, Repr

/-- `MAX_QUEUES`. -/
def maxQueues : ℕ := 100

/-- `queues`. -/
structure QueueArray where
  /-- The elements. -/
  entries : List QueueEntry
  /-- There are `MAX_QUEUES` of them. -/
  length_eq : entries.length = maxQueues

/-! ### The library -/

/-- `fgets` with room for `n` characters: these, and what is left of the file. -/
def fgets : ℕ → Text → Text × Text
  | 0, file => ([], file)
  | _ + 1, [] => ([], [])
  | n + 1, c :: file =>
      if c = '\n' then ([c], file) else (c :: (fgets n file).1, (fgets n file).2)

/-- The size of `buffer`, without the character at the end of a string. -/
def bufferSize : ℕ := 10239

/-- What `%d` stores: a `long` at most, of which an `int` is left. -/
def storeInt (z : ℤ) : BitVec 32 := BitVec.ofInt 32 (max (-2 ^ 63) (min z (2 ^ 63 - 1)))

/-- What `sscanf` stores for a number of `%d` with commas between them. -/
def sscanf : ℕ → Text → List (BitVec 32)
  | 0, _ => []
  | n + 1, text =>
      match Decimal.scan text with
      | none => []
      | some (z, rest) =>
          -- behind a number only a comma itself goes on, no space in front of it
          match rest with
          | ',' :: rest => storeInt z :: sscanf n rest
          | _ => [storeInt z]

/-- The characters of a string. -/
def cString (text : Text) : Text := text.takeWhile (· ≠ '\x00')

/-! ### The function -/

/-- The entry with the numbers that have been stored. -/
def QueueEntry.store (q : QueueEntry) (values : List (BitVec 32)) : QueueEntry where
  queueId := values.getD 0 q.queueId
  portId := values.getD 1 q.portId
  minRate := values.getD 2 q.minRate
  maxRate := values.getD 3 q.maxRate
  enabled := true

/-- The loops of `read_queue_config` on the rest of the array and the rest of the file. -/
def readQueues : List QueueEntry → Text → List QueueEntry
  | [], _ => []
  | q :: queues, file =>
      if file = [] then
        -- these queue configs was not read from file
        (q :: queues).map fun q => { q with enabled := false }
      else
        let (buffer, file) := fgets bufferSize file
        let values := sscanf 4 (cString buffer)
        -- at a line that is not right the function returns: the entry has been enabled already, and
        -- those behind it stay as they are
        if values.length ≠ 4 then q.store values :: queues
        else q.store values :: readQueues queues file

/-- The array keeps its size. -/
theorem length_readQueues (queues : List QueueEntry) (file : Text) :
    (readQueues queues file).length = queues.length := by
  induction queues generalizing file with
  | nil => rfl
  | cons q queues ih =>
    unfold readQueues
    split
    · exact List.length_map _
    · dsimp only
      split
      · rfl
      · rw [List.length_cons, List.length_cons, ih]

/-- `read_queue_config`, when the file can be opened or not. -/
def readQueueConfig (fp : Option Text) (queues : QueueArray) : QueueArray :=
  match fp with
  | none => queues
  | some file =>
      { entries := readQueues queues.entries file
        length_eq := (length_readQueues _ file).trans queues.length_eq }

/-! ### Numbers -/

/-- The numbers that `sscanf` finds for `%d` with commas between them. -/
def scanNumbers : ℕ → Text → List ℤ
  | 0, _ => []
  | n + 1, text =>
      match Decimal.scan text with
      | none => []
      | some (z, rest) =>
          match rest with
          | ',' :: rest => z :: scanNumbers n rest
          | _ => [z]

/-- They are stored. -/
theorem sscanf_eq_map (n : ℕ) (text : Text) :
    sscanf n text = (scanNumbers n text).map storeInt := by
  induction n generalizing text with
  | zero => rfl
  | succ n ih =>
    rw [sscanf, scanNumbers]
    cases Decimal.scan text with
    | none => rfl
    | some number =>
      obtain ⟨z, rest⟩ := number
      cases rest with
      | nil => rfl
      | cons c rest =>
        by_cases hc : c = ','
        · subst hc
          exact congrArg _ (ih rest)
        · simp [hc]

/-- A number needs a comma before the next one. -/
theorem length_scanNumbers_le (n : ℕ) (text : Text) :
    (scanNumbers n text).length ≤ text.count ',' + 1 := by
  induction n generalizing text with
  | zero => exact Nat.zero_le _
  | succ n ih =>
    rw [scanNumbers]
    cases hscan : Decimal.scan text with
    | none => exact Nat.zero_le _
    | some number =>
      obtain ⟨z, rest⟩ := number
      dsimp only
      split
      next rest =>
        have hcount := (Decimal.suffix_of_scan hscan).sublist.count_le ','
        rw [List.count_cons_self] at hcount
        have hle := ih rest
        rw [List.length_cons]
        omega
      next => exact Nat.le_add_left _ _

/-- There are no more than have been asked for. -/
theorem length_sscanf_le (n : ℕ) (text : Text) : (sscanf n text).length ≤ n := by
  induction n generalizing text with
  | zero => exact le_refl _
  | succ n ih =>
    rw [sscanf]
    cases Decimal.scan text with
    | none => exact Nat.zero_le _
    | some number =>
      dsimp only
      split
      · exact Nat.succ_le_succ (ih _)
      · exact Nat.succ_le_succ (Nat.zero_le n)

theorem storeInt_toInt (v : BitVec 32) : storeInt v.toInt = v := by
  have hlt := BitVec.toInt_lt (x := v)
  have hle := BitVec.le_toInt (x := v)
  have hmin : min v.toInt (2 ^ 63 - 1) = v.toInt := min_eq_left (by omega)
  have hmax : max (-2 ^ 63) v.toInt = v.toInt := max_eq_right (by omega)
  rw [storeInt, hmin, hmax, BitVec.ofInt_toInt]

namespace QueueEntry

variable (q : QueueEntry)

/-- The values of an entry, in the order of a line. -/
def values : List (BitVec 32) := [q.queueId, q.portId, q.minRate, q.maxRate]

/-- The numbers of an entry. -/
def numbers : List ℤ := q.values.map BitVec.toInt

variable {q}

/-- The values that have been stored are those of the entry. -/
theorem values_store {values : List (BitVec 32)} (h : values.length = 4) :
    (q.store values).values = values := by
  match values, h with
  | [_, _, _, _], _ => rfl

/-- The last value stays when fewer have been stored. -/
theorem maxRate_store {values : List (BitVec 32)} (h : values.length < 4) :
    (q.store values).maxRate = q.maxRate := by
  change values.getD 3 q.maxRate = q.maxRate
  rw [List.getD_eq_getElem?_getD, List.getElem?_eq_none (Nat.le_of_lt_succ h),
    Option.getD_none]

theorem numbers_inj {q' : QueueEntry} : q.numbers = q'.numbers ↔ q.values = q'.values :=
  (List.map_injective_iff.2 fun _ _ => BitVec.eq_of_toInt_eq).eq_iff

theorem eq_of_values {q' : QueueEntry} (h : q.values = q'.values)
    (henabled : q.enabled = q'.enabled) : q = q' := by
  cases q
  cases q'
  simp only [values, List.cons.injEq, and_true] at h
  obtain ⟨rfl, rfl, rfl, rfl⟩ := h
  exact congrArg _ henabled

end QueueEntry

/-- Where these numbers have been found, the values of the entry are stored. -/
theorem sscanf_of_numbers {n : ℕ} {text : Text} {q : QueueEntry}
    (h : scanNumbers n text = q.numbers) : sscanf n text = q.values := by
  rw [sscanf_eq_map, h, QueueEntry.numbers, List.map_map]
  exact (List.map_congr_left fun v _ => storeInt_toInt v).trans (List.map_id _)

/-! ### Related lists -/

/-- What is related element by element is so at every place. -/
theorem exists_right_of_forall₂ {α β : Type*} {R : α → β → Prop} {as : List α} {bs : List β}
    (h : List.Forall₂ R as bs) {i : ℕ} {a : α} (hi : as[i]? = some a) :
    ∃ b, bs[i]? = some b ∧ R a b := by
  induction h generalizing i with
  | nil => cases hi
  | cons hab _ ih =>
    cases i with
    | zero =>
      cases hi
      exact ⟨_, rfl, hab⟩
    | succ i => exact ih hi

theorem exists_left_of_forall₂ {α β : Type*} {R : α → β → Prop} {as : List α} {bs : List β}
    (h : List.Forall₂ R as bs) {i : ℕ} {b : β} (hi : bs[i]? = some b) :
    ∃ a, as[i]? = some a ∧ R a b :=
  exists_right_of_forall₂ (R := fun b a => R a b) h.flip hi

/-- Relations compose element by element. -/
theorem forall₂_comp {α β γ : Type*} {R : α → β → Prop} {S : β → γ → Prop} {T : α → γ → Prop}
    (hcomp : ∀ a b c, R a b → S b c → T a c) {as : List α} {bs : List β} {cs : List γ}
    (h : List.Forall₂ R as bs) (h' : List.Forall₂ S bs cs) : List.Forall₂ T as cs := by
  induction h generalizing cs with
  | nil =>
    cases h'
    exact .nil
  | cons hab _ ih =>
    obtain _ | ⟨hbc, h'⟩ := h'
    exact .cons (hcomp _ _ _ hab hbc) (ih h')

/-- Lists with the same elements that agree but for the last possible one are the same. -/
theorem eq_of_perm_of_take {α : Type*} {as bs : List α} {n : ℕ} (hperm : as.Perm bs)
    (hlength : as.length ≤ n + 1) (h : as.take n = bs.take n) : as = bs := by
  rw [← List.take_append_drop n as, ← List.take_append_drop n bs, h, List.perm_append_left_iff]
    at hperm
  have hone : (as.drop n).length ≤ 1 := by
    rw [List.length_drop]
    omega
  have hdrop : as.drop n = bs.drop n := by
    match hdrop : as.drop n, hone with
    | [], _ => exact (List.nil_perm.1 (hdrop ▸ hperm)).symm
    | [a], _ => exact List.singleton_perm.1 (hdrop ▸ hperm)
  rw [← List.take_append_drop n as, ← List.take_append_drop n bs, h, hdrop]

/-! ### Pieces -/

/-- What `fgets` reads and what it leaves is the file. -/
theorem fgets_append_fgets (n : ℕ) (file : Text) : (fgets n file).1 ++ (fgets n file).2 = file := by
  induction n generalizing file with
  | zero => rfl
  | succ n ih =>
    cases file with
    | nil => rfl
    | cons c file =>
      rw [fgets]
      split
      next hc => rfl
      next => exact congrArg _ (ih file)

/-- What follows the end of a line is not read with it. -/
theorem fgets_append_of_mem {l : Text} (h : '\n' ∈ l) (n : ℕ) (rest : Text) :
    fgets n (l ++ rest) = ((fgets n l).1, (fgets n l).2 ++ rest) := by
  induction n generalizing l with
  | zero => rfl
  | succ n ih =>
    cases l with
    | nil => cases h
    | cons c l =>
      rw [List.cons_append, fgets, fgets]
      split
      next => rfl
      next hc => rw [ih ((List.mem_cons.1 h).resolve_left (Ne.symm hc))]

/-- The pieces of the file that `fgets` reads, `n` of them at most. -/
def pieces : ℕ → Text → List Text
  | 0, _ => []
  | n + 1, file =>
      if file = [] then [] else (fgets bufferSize file).1 :: pieces n (fgets bufferSize file).2

/-- What is stored of a piece. -/
def stored (piece : Text) : List (BitVec 32) := sscanf 4 (cString piece)

/-- A piece without commas has one number at most. -/
theorem count_of_stored {piece : Text} (h : (stored piece).length = 4) : 3 ≤ piece.count ',' := by
  have hle := length_scanNumbers_le 4 (cString piece)
  have hcount := (List.takeWhile_sublist (· ≠ '\x00') (l := piece)).count_le ','
  rw [stored, sscanf_eq_map, List.length_map] at h
  unfold cString at hle h
  omega

section Reading

variable {q : QueueEntry} {queues : List QueueEntry} {file : Text}

/-- A complete piece is followed by the next one. -/
theorem readQueues_cons (hfile : file ≠ [])
    (h : (stored (fgets bufferSize file).1).length = 4) :
    readQueues (q :: queues) file = q.store (stored (fgets bufferSize file).1) ::
      readQueues queues (fgets bufferSize file).2 := by
  rw [readQueues, if_neg hfile]
  exact if_neg (not_not.2 h)

theorem readQueues_cons_of_ne (hfile : file ≠ [])
    (h : (stored (fgets bufferSize file).1).length ≠ 4) :
    readQueues (q :: queues) file = q.store (stored (fgets bufferSize file).1) :: queues := by
  rw [readQueues, if_neg hfile]
  exact if_pos h

/-- Complete pieces enable an entry each, with what is stored of them, and no other ones. -/
theorem readQueues_of_complete
    (h : ∀ piece ∈ pieces queues.length file, (stored piece).length = 4) :
    ∃ read others, readQueues queues file = read ++ others ∧
      List.Forall₂ (fun piece q => q.enabled = true ∧ stored piece = q.values)
        (pieces queues.length file) read ∧ ∀ q ∈ others, q.enabled = false := by
  induction queues generalizing file with
  | nil => exact ⟨[], [], rfl, .nil, List.forall_mem_nil _⟩
  | cons q queues ih =>
    rw [List.length_cons, pieces] at h ⊢
    by_cases hfile : file = []
    · rw [if_pos hfile, readQueues, if_pos hfile]
      refine ⟨[], _, (List.nil_append _).symm, .nil, fun q' hq' => ?_⟩
      obtain ⟨q'', -, rfl⟩ := List.mem_map.1 hq'
      rfl
    · rw [if_neg hfile] at h ⊢
      obtain ⟨hfirst, hrest⟩ := List.forall_mem_cons.1 h
      obtain ⟨read, others, hread, hpieces, hothers⟩ := ih hrest
      rw [readQueues_cons hfile hfirst, hread]
      exact ⟨_ :: read, others, rfl,
        .cons ⟨rfl, (QueueEntry.values_store hfirst).symm⟩ hpieces, hothers⟩

/-- When the entries have been enabled before, with a value that they do not have now, all pieces
are complete. -/
theorem complete_of_fresh {v : BitVec 32}
    (hold : ∀ q ∈ queues, q.enabled = true ∧ q.maxRate = v)
    (hfresh : ∀ q ∈ readQueues queues file, q.enabled = true → q.maxRate ≠ v) :
    ∀ piece ∈ pieces queues.length file, (stored piece).length = 4 := by
  induction queues generalizing file with
  | nil => exact List.forall_mem_nil _
  | cons q queues ih =>
    obtain ⟨hq, hqueues⟩ := List.forall_mem_cons.1 hold
    rw [List.length_cons, pieces]
    by_cases hfile : file = []
    · rw [if_pos hfile]
      exact List.forall_mem_nil _
    · rw [if_neg hfile]
      by_cases hlength : (stored (fgets bufferSize file).1).length = 4
      · rw [readQueues_cons hfile hlength] at hfresh
        exact List.forall_mem_cons.2
          ⟨hlength, ih hqueues fun q' hq' => hfresh q' (List.mem_cons_of_mem _ hq')⟩
      · -- the entry of an incomplete piece keeps its last value
        rw [readQueues_cons_of_ne hfile hlength] at hfresh
        have hle := length_sscanf_le 4 (cString (fgets bufferSize file).1)
        refine absurd ?_ (hfresh _ List.mem_cons_self rfl)
        exact (QueueEntry.maxRate_store (Nat.lt_of_le_of_ne hle hlength)).trans hq.2

end Reading

/-- The array when all its entries are enabled, with the same last value. -/
def QueueArray.stale (v : BitVec 32) : QueueArray :=
  ⟨List.replicate maxQueues ⟨0, 0, 0, v, true⟩, List.length_replicate⟩

/-- The pieces are complete if the entries that are read over it do not have its value. -/
theorem complete_of_stale {v : BitVec 32} {file : Text}
    (hfresh : ∀ q ∈ (readQueueConfig (some file) (.stale v)).entries, q.enabled = true →
      q.maxRate ≠ v) : ∀ piece ∈ pieces maxQueues file, (stored piece).length = 4 := by
  have hold : ∀ q ∈ (QueueArray.stale v).entries, q.enabled = true ∧ q.maxRate = v := by
    intro q hq
    rw [List.eq_of_mem_replicate hq]
    exact ⟨rfl, rfl⟩
  have hcomplete := complete_of_fresh hold hfresh
  rwa [(QueueArray.stale v).length_eq] at hcomplete

/-- What complete pieces leave in the array. -/
theorem entries_of_complete {file : Text} (queues : QueueArray)
    (h : ∀ piece ∈ pieces maxQueues file, (stored piece).length = 4) :
    ∃ read others, (readQueueConfig (some file) queues).entries = read ++ others ∧
      List.Forall₂ (fun piece q => q.enabled = true ∧ stored piece = q.values)
        (pieces maxQueues file) read ∧ ∀ q ∈ others, q.enabled = false := by
  rw [← queues.length_eq] at h ⊢
  exact readQueues_of_complete h

/-- Of these, the entries that are enabled. -/
theorem filter_of_complete {file : Text} (queues : QueueArray)
    (h : ∀ piece ∈ pieces maxQueues file, (stored piece).length = 4) :
    List.Forall₂ (fun piece q => q.enabled = true ∧ stored piece = q.values) (pieces maxQueues file)
      ((readQueueConfig (some file) queues).entries.filter fun q => q.enabled) := by
  obtain ⟨read, others, hentries, hpieces, hothers⟩ := entries_of_complete queues h
  have hread : read.filter (fun q => q.enabled) = read := by
    refine List.filter_eq_self.2 fun q hq => ?_
    obtain ⟨i, hi⟩ := List.mem_iff_getElem?.1 hq
    obtain ⟨-, -, henabled, -⟩ := exists_left_of_forall₂ hpieces hi
    exact henabled
  have hnone : others.filter (fun q => q.enabled) = [] := by
    refine List.filter_eq_nil_iff.2 fun q hq => ?_
    rw [hothers q hq]
    exact Bool.false_ne_true
  rw [hentries, List.filter_append, hread, hnone, List.append_nil]
  exact hpieces

/-- Few values are not all that there are. -/
theorem exists_fresh {l : List (BitVec 32)} (h : l.length ≤ maxQueues) : ∃ v, v ∉ l := by
  by_contra hall
  have hmem : ∀ v, v ∈ l := fun v => not_not.1 (not_exists.1 hall v)
  have hnodup : ((List.range (maxQueues + 1)).map (BitVec.ofNat 32)).Nodup := by decide
  have hle := (List.subperm_of_subset hnodup fun v _ => hmem v).length_le
  rw [List.length_map, List.length_range] at hle
  omega

/-! ### The entries and the lines -/

/-- The line consists of four numbers that an `int` can hold. -/
def WellFormedLine (l : Text) : Prop := ∃ q : QueueEntry, scanNumbers 4 (cString l) = q.numbers

/-- Every entry that is enabled has the numbers of the line of the file at its place. -/
def FromLines (file : Text) (queues : List QueueEntry) : Prop :=
  ∀ (i : ℕ) (q : QueueEntry), queues[i]? = some q → q.enabled = true →
    ∃ l, (Separated.lines '\n' file)[i]? = some l ∧ scanNumbers 4 (cString l) = q.numbers

/-- Each of the first `n` pieces of the file gives the numbers of the line at its place, which are
four that an `int` can hold. -/
def PiecesOfLines (n : ℕ) (file : Text) : Prop :=
  ∀ (i : ℕ) (piece : Text), (pieces n file)[i]? = some piece →
    ∃ (l : Text) (q : QueueEntry), (Separated.lines '\n' file)[i]? = some l ∧
      scanNumbers 4 (cString l) = q.numbers ∧ stored piece = q.values

/-- Whatever the array has held, its entries come from the lines exactly if the pieces do. -/
theorem fromLines_readQueueConfig_iff (file : Text) :
    (∀ queues, FromLines file (readQueueConfig (some file) queues).entries) ↔
      PiecesOfLines maxQueues file := by
  constructor
  · intro h
    -- a value that the first lines do not have
    obtain ⟨v, hv⟩ := exists_fresh (l := ((Separated.lines '\n' file).take maxQueues).map
      fun l => (sscanf 4 (cString l)).getD 3 0)
      (by rw [List.length_map]; exact List.length_take_le _ _)
    have hfresh : ∀ q ∈ (readQueueConfig (some file) (.stale v)).entries, q.enabled = true →
        q.maxRate ≠ v := by
      rintro q hq henabled rfl
      obtain ⟨i, hi⟩ := List.mem_iff_getElem?.1 hq
      obtain ⟨l, hl, hnumbers⟩ := h _ i q hi henabled
      have hlt : i < maxQueues := by
        rw [← (readQueueConfig (some file) (.stale q.maxRate)).length_eq]
        exact (List.getElem?_eq_some_iff.1 hi).1
      rw [← List.getElem?_take_of_lt hlt] at hl
      refine hv (List.mem_map.2 ⟨l, List.mem_of_getElem? hl, ?_⟩)
      rw [sscanf_of_numbers hnumbers]
      rfl
    obtain ⟨read, others, hread, hpieces, -⟩ :=
      entries_of_complete (.stale v) (complete_of_stale hfresh)
    intro i piece hi
    obtain ⟨q, hq, henabled, hstored⟩ := exists_right_of_forall₂ hpieces hi
    have hentry : (readQueueConfig (some file) (.stale v)).entries[i]? = some q := by
      rw [hread, List.getElem?_append_left (List.getElem?_eq_some_iff.1 hq).1, hq]
    obtain ⟨l, hl, hnumbers⟩ := h _ i q hentry henabled
    exact ⟨l, q, hl, hnumbers, hstored⟩
  · intro h queues i q hi henabled
    have hcomplete : ∀ piece ∈ pieces maxQueues file, (stored piece).length = 4 := by
      intro piece hpiece
      obtain ⟨i, hi⟩ := List.mem_iff_getElem?.1 hpiece
      obtain ⟨l, q, -, -, hstored⟩ := h i piece hi
      rw [hstored]
      rfl
    obtain ⟨read, others, hread, hpieces, hothers⟩ := entries_of_complete queues hcomplete
    rw [hread] at hi
    -- the entry is one of those that are read
    have hread : read[i]? = some q := by
      obtain hlt | hge := Nat.lt_or_ge i read.length
      · rwa [List.getElem?_append_left hlt] at hi
      · rw [List.getElem?_append_right hge] at hi
        have hdisabled := hothers q (List.mem_of_getElem? hi)
        rw [henabled] at hdisabled
        cases hdisabled
    obtain ⟨piece, hpiece, -, hstored⟩ := exists_left_of_forall₂ hpieces hread
    obtain ⟨l, q', hl, hnumbers, hstored'⟩ := h i piece hpiece
    refine ⟨l, hl, hnumbers.trans (QueueEntry.numbers_inj.2 ?_)⟩
    rw [← hstored', hstored]

/-! ### Lines that fit into the buffer -/

/-- A line that fits is read with its end, and so is a last one that has none. -/
theorem fgets_of_lt {l : Text} (h : '\n' ∉ l) {n : ℕ} (hlen : l.length < n) :
    fgets n (l ++ ['\n']) = (l ++ ['\n'], []) ∧ fgets n l = (l, []) := by
  induction n generalizing l with
  | zero => exact absurd hlen (Nat.not_lt_zero _)
  | succ n ih =>
    cases l with
    | nil => exact ⟨rfl, rfl⟩
    | cons c l =>
      obtain ⟨hc, hl⟩ := not_or.1 (mt List.mem_cons.2 h)
      obtain ⟨hread, hread'⟩ := ih hl (Nat.lt_of_succ_lt_succ hlen)
      rw [List.cons_append, fgets, fgets, if_neg (Ne.symm hc), if_neg (Ne.symm hc), hread, hread']
      exact ⟨rfl, rfl⟩

/-- The end of a line leaves its numbers alone. -/
theorem scanNumbers_concat (n : ℕ) (text : Text) :
    scanNumbers n (text ++ ['\n']) = scanNumbers n text := by
  induction n generalizing text with
  | zero => rfl
  | succ n ih =>
    rw [scanNumbers, scanNumbers, Decimal.scan_concat text (c := '\n') (by decide)]
    cases Decimal.scan text with
    | none => rfl
    | some number =>
      obtain ⟨z, rest⟩ := number
      cases rest with
      | nil => rfl
      | cons c rest =>
        by_cases hc : c = ','
        · subst hc
          exact congrArg _ (ih rest)
        · simp [hc]

/-- So it does when the line is read as a string. -/
theorem scanNumbers_cString_concat (n : ℕ) (l : Text) :
    scanNumbers n (cString (l ++ ['\n'])) = scanNumbers n (cString l) := by
  have hcases : cString (l ++ ['\n']) = cString l ++ ['\n'] ∨
      cString (l ++ ['\n']) = cString l := by
    unfold cString
    induction l with
    | nil => exact .inl rfl
    | cons c l ih =>
      by_cases hc : c = '\x00'
      · exact .inr (by simp [hc])
      · simpa [hc] using ih
  obtain h | h := hcases
  · rw [h, scanNumbers_concat]
  · rw [h]

/-- A file that begins with a line that fits: the line is read, with its end if it has one. -/
theorem fgets_line {l file rest : Text} (hend : '\n' ∉ l) (hlen : l.length < bufferSize)
    (h : file = l ++ '\n' :: rest ∨ file = l ∧ rest = []) :
    ∃ piece, (piece = l ∨ piece = l ++ ['\n']) ∧ fgets bufferSize file = (piece, rest) := by
  obtain ⟨hread, hread'⟩ := fgets_of_lt hend hlen
  obtain rfl | ⟨rfl, rfl⟩ := h
  · have hfgets := fgets_append_of_mem (List.mem_append_right l (List.mem_singleton_self '\n'))
      bufferSize rest
    rw [hread, List.append_assoc, List.singleton_append, List.nil_append] at hfgets
    exact ⟨_, .inr rfl, hfgets⟩
  · exact ⟨_, .inl rfl, hread'⟩

theorem stored_of_line {l piece : Text} {q : QueueEntry} (h : piece = l ∨ piece = l ++ ['\n'])
    (hnumbers : scanNumbers 4 (cString l) = q.numbers) : stored piece = q.values := by
  obtain rfl | rfl := h
  · exact sscanf_of_numbers hnumbers
  · exact sscanf_of_numbers ((scanNumbers_cString_concat 4 l).trans hnumbers)

/-- The pieces of lines that fit give their numbers, if the lines consist of four. -/
theorem piecesOfLines_of_wellFormed {n : ℕ} {file : Text}
    (hfit : ∀ l ∈ (Separated.lines '\n' file).take n, l.length < bufferSize)
    (h : ∀ l ∈ (Separated.lines '\n' file).take n, WellFormedLine l) : PiecesOfLines n file := by
  induction n generalizing file with
  | zero =>
    intro i piece hi
    cases hi
  | succ n ih =>
    intro i piece hi
    rw [pieces] at hi
    by_cases hfile : file = []
    · rw [if_pos hfile] at hi
      cases hi
    · obtain ⟨l, rest, hend, hlines, htext⟩ := Separated.exists_lines_eq_cons '\n' hfile
      rw [hlines, List.take_succ_cons, List.forall_mem_cons] at hfit h
      obtain ⟨piece', hpiece', hfgets⟩ := fgets_line hend hfit.1 htext
      rw [if_neg hfile, hfgets] at hi
      rw [hlines]
      cases i with
      | zero =>
        cases hi
        obtain ⟨q, hq⟩ := h.1
        exact ⟨l, q, rfl, hq, stored_of_line hpiece' hq⟩
      | succ i => exact ih hfit.2 h.2 i piece hi

/-- Lines that fit consist of four numbers, if the entries come from them. -/
theorem wellFormed_of_fromLines {queues : List QueueEntry} {file : Text}
    (hfit : ∀ l ∈ (Separated.lines '\n' file).take queues.length, l.length < bufferSize)
    (h : FromLines file (readQueues queues file)) :
    ∀ l ∈ (Separated.lines '\n' file).take queues.length, WellFormedLine l := by
  induction queues generalizing file with
  | nil =>
    rw [List.length_nil, List.take_zero]
    exact List.forall_mem_nil _
  | cons q queues ih =>
    by_cases hfile : file = []
    · rw [hfile, Separated.lines_nil, List.take_nil]
      exact List.forall_mem_nil _
    · obtain ⟨l, rest, hend, hlines, htext⟩ := Separated.exists_lines_eq_cons '\n' hfile
      rw [hlines, List.length_cons, List.take_succ_cons, List.forall_mem_cons] at hfit ⊢
      obtain ⟨piece, hpiece, hfgets⟩ := fgets_line hend hfit.1 htext
      -- the entry is enabled in any case
      have hfirst : (readQueues (q :: queues) file)[0]? = some (q.store (stored piece)) := by
        by_cases hlength : (stored (fgets bufferSize file).1).length = 4
        · rw [readQueues_cons hfile hlength, hfgets]
          rfl
        · rw [readQueues_cons_of_ne hfile hlength, hfgets]
          rfl
      obtain ⟨l', hl', hnumbers⟩ := h 0 _ hfirst rfl
      rw [hlines] at hl'
      obtain rfl := Option.some.inj hl'
      have hlength : (stored (fgets bufferSize file).1).length = 4 := by
        rw [hfgets, stored_of_line hpiece hnumbers]
        rfl
      refine ⟨⟨_, hnumbers⟩, ih hfit.2 fun i q' hi henabled => ?_⟩
      have hnext : (readQueues (q :: queues) file)[i + 1]? = some q' := by
        rw [readQueues_cons hfile hlength, hfgets]
        exact hi
      obtain ⟨l', hl', hnumbers'⟩ := h (i + 1) q' hnext henabled
      rw [hlines] at hl'
      exact ⟨l', hl', hnumbers'⟩

/-! ### The entries and the queues -/

/-- The text is the number, which may have spaces around it. -/
def NumberText (s : Text) (z : ℤ) : Prop :=
  ∃ rest, Decimal.scan s = some (z, rest) ∧ ∀ c ∈ rest, Decimal.isSpace c = true

theorem scan_append_comma {s rest : Text} {z : ℤ} (h : Decimal.scan s = some (z, rest))
    (behind : Text) : Decimal.scan (s ++ ',' :: behind) = some (z, rest ++ ',' :: behind) :=
  Decimal.scan_append h fun c hc => by
    cases hc
    rfl

theorem scanNumbers_cons {s behind : Text} {z : ℤ} (h : Decimal.scan s = some (z, [])) {n : ℕ} :
    scanNumbers (n + 1) (s ++ ',' :: behind) = z :: scanNumbers n behind := by
  rw [scanNumbers, scan_append_comma h]
  rfl

/-- A space is none. -/
theorem ne_comma_of_isSpace {c : Char} (h : Decimal.isSpace c = true) : c ≠ ',' := by
  rintro rfl
  cases h

namespace NumberText

variable {s : Text} {z : ℤ}

/-- It has no other characters. -/
theorem not_mem (h : NumberText s z) {c : Char} (hdigit : c.isDigit = false)
    (hspace : Decimal.isSpace c = false) (hplus : c ≠ '+') (hminus : c ≠ '-') : c ∉ s := by
  obtain ⟨rest, hscan, hrest⟩ := h
  obtain ⟨spaces, sign, digits, factor, rfl, hspaces, hsign, -, hdigits, -⟩ :=
    Decimal.scan_eq_some_iff.1 hscan
  have hno : ∀ {l : Text}, (∀ x ∈ l, Decimal.isSpace x = true) → c ∉ l := fun hl hc => by
    rw [hl c hc] at hspace
    cases hspace
  have hsign : c ∉ sign := by
    cases hsign with
    | none => exact List.not_mem_nil
    | plus => exact mt List.mem_singleton.1 hplus
    | minus => exact mt List.mem_singleton.1 hminus
  have hdigit : c ∉ digits := fun hc => by
    rw [hdigits c hc] at hdigit
    cases hdigit
  simp only [List.mem_append, not_or]
  exact ⟨hno hspaces, hsign, hdigit, hno hrest⟩

theorem unique {z' : ℤ} (h : NumberText s z) (h' : NumberText s z') : z = z' := by
  obtain ⟨rest, hscan, -⟩ := h
  obtain ⟨rest', hscan', -⟩ := h'
  rw [hscan] at hscan'
  exact congrArg Prod.fst (Option.some.inj hscan')

/-- In front of a comma behind which a number is found, there is nothing behind the number. -/
theorem scan_of_length {n m : ℕ} {behind : Text} (h : NumberText s z)
    (hmore : (scanNumbers (n + 1) (s ++ ',' :: behind)).length = m + 2) :
    Decimal.scan s = some (z, []) ∧ (scanNumbers n behind).length = m + 1 := by
  obtain ⟨rest, hscan, hrest⟩ := h
  cases rest with
  | nil =>
    rw [scanNumbers_cons hscan] at hmore
    exact ⟨hscan, Nat.succ.inj hmore⟩
  | cons c rest =>
    have hc := ne_comma_of_isSpace (hrest c List.mem_cons_self)
    rw [scanNumbers, scan_append_comma hscan] at hmore
    simp [hc] at hmore

/-- At the end of a line, it is read. -/
theorem scanNumbers_concat (h : NumberText s z) (n : ℕ) :
    scanNumbers (n + 1) (s ++ ['\n']) = [z] := by
  obtain ⟨rest, hscan, hrest⟩ := h
  rw [OfAgent.scanNumbers_concat, scanNumbers, hscan]
  cases rest with
  | nil => rfl
  | cons c rest =>
    have hc := ne_comma_of_isSpace (hrest c List.mem_cons_self)
    simp [hc]

end NumberText

section Saved

variable {ν : Type*} {str : ν → Text} {items : QueueTable ν} {p : Text × QueueConf ν}
  {q q' : QueueEntry}

/-- The entry has the numbers that are written for the queue. -/
def SameValues (str : ν → Text) (p : Text × QueueConf ν) (q : QueueEntry) : Prop :=
  List.Forall₂ NumberText (queueRow str p) q.numbers

/-- The enabled entries are one for each of these queues, with its values. -/
def OneEntryEach (str : ν → Text) (items : QueueTable ν) (queues : List QueueEntry) : Prop :=
  ∃ entries, entries.Perm (queues.filter fun q => q.enabled) ∧
    List.Forall₂ (SameValues str) items entries

/-- The pieces that are read of the file of these queues are one for each, as far as there is room
for them, and give its numbers. -/
def ReadBack (str : ν → Text) (n : ℕ) (items : QueueTable ν) : Prop :=
  List.Forall₂ (fun p piece => ∃ q, SameValues str p q ∧ stored piece = q.values)
    (items.take n) (pieces n (saveConfig str items))

theorem sameValues_iff : SameValues str p q ↔ NumberText p.1 q.queueId.toInt ∧
    NumberText (p.2.portId.text str) q.portId.toInt ∧
    NumberText (p.2.minRate.text str) q.minRate.toInt ∧
    NumberText (p.2.maxRate.text str) q.maxRate.toInt := by
  simp [SameValues, queueRow, QueueEntry.numbers, QueueEntry.values]

theorem SameValues.values_eq (h : SameValues str p q) (h' : SameValues str p q') :
    q.values = q'.values :=
  QueueEntry.numbers_inj.1
    (List.right_unique_forall₂' (fun _ _ _ hz hz' => hz.unique hz') h h')

theorem SameValues.congr (h : SameValues str p q) (hvalues : q.values = q'.values) :
    SameValues str p q' := by
  unfold SameValues at *
  rwa [← QueueEntry.numbers_inj.2 hvalues]

/-- The line of a queue. -/
def queueLine (str : ν → Text) (p : Text × QueueConf ν) : Text :=
  Separated.line ',' '\n' (queueRow str p)

theorem saveConfig_cons (p : Text × QueueConf ν) (items : QueueTable ν) :
    saveConfig str (p :: items) = queueLine str p ++ saveConfig str items := rfl

theorem queueLine_eq (p : Text × QueueConf ν) : queueLine str p = p.1 ++ ',' ::
    (p.2.portId.text str ++ ',' :: (p.2.minRate.text str ++ ',' ::
      (p.2.maxRate.text str ++ ['\n']))) := by
  simp [queueLine, Separated.line, queueRow, List.intercalate_cons_cons]

/-- The line of a queue with numbers has the commas between them only, and no null character. -/
theorem SameValues.queueLine (h : SameValues str p q) :
    (queueLine str p).count ',' = 3 ∧ cString (queueLine str p) = queueLine str p := by
  obtain ⟨h0, h1, h2, h3⟩ := sameValues_iff.1 h
  have hno : ∀ {s : Text} {z : ℤ}, NumberText s z → s.count ',' = 0 ∧ '\x00' ∉ s := fun hs =>
    ⟨List.count_eq_zero.2 (hs.not_mem (by decide) (by decide) (by decide) (by decide)),
      hs.not_mem (by decide) (by decide) (by decide) (by decide)⟩
  rw [queueLine_eq]
  constructor
  · simp [(hno h0).1, (hno h1).1, (hno h2).1, (hno h3).1]
  · refine List.takeWhile_eq_self_iff.2 fun c hc => decide_eq_true fun hnul => ?_
    rw [hnul] at hc
    simp [(hno h0).2, (hno h1).2, (hno h2).2, (hno h3).2] at hc

/-- The line of a queue is one that fits into the buffer. -/
def FitsLine (str : ν → Text) (p : Text × QueueConf ν) : Prop :=
  '\n' ∉ [','].intercalate (queueRow str p) ∧
    ([','].intercalate (queueRow str p)).length < bufferSize

instance (str : ν → Text) (p : Text × QueueConf ν) : Decidable (FitsLine str p) :=
  inferInstanceAs (Decidable (_ ∧ _))

/-- The texts of a queue are numbers that an `int` can hold, and only behind the last one there may
be spaces. -/
def ReadableQueue (str : ν → Text) (p : Text × QueueConf ν) : Prop :=
  ∃ q : QueueEntry, Decimal.scan p.1 = some (q.queueId.toInt, []) ∧
    Decimal.scan (p.2.portId.text str) = some (q.portId.toInt, []) ∧
    Decimal.scan (p.2.minRate.text str) = some (q.minRate.toInt, []) ∧
    NumberText (p.2.maxRate.text str) q.maxRate.toInt

/-- The line of such a queue gives its numbers. -/
theorem ReadableQueue.stored (h : ReadableQueue str p) :
    ∃ q, SameValues str p q ∧ OfAgent.stored (queueLine str p) = q.values := by
  obtain ⟨q, h0, h1, h2, h3⟩ := h
  have hnumber : ∀ {s : Text} {z : ℤ}, Decimal.scan s = some (z, []) → NumberText s z :=
    fun hs => ⟨[], hs, List.forall_mem_nil _⟩
  have hsame : SameValues str p q := sameValues_iff.2 ⟨hnumber h0, hnumber h1, hnumber h2, h3⟩
  refine ⟨q, hsame, sscanf_of_numbers ?_⟩
  rw [hsame.queueLine.2, queueLine_eq, scanNumbers_cons h0, scanNumbers_cons h1,
    scanNumbers_cons h2, h3.scanNumbers_concat 0]
  rfl

/-- Numbers of which four are stored are those of such a queue. -/
theorem SameValues.readable (h : SameValues str p q)
    (hstored : (OfAgent.stored (OfAgent.queueLine str p)).length = 4) : ReadableQueue str p := by
  obtain ⟨h0, h1, h2, h3⟩ := sameValues_iff.1 h
  rw [OfAgent.stored, sscanf_eq_map, List.length_map, h.queueLine.2, queueLine_eq] at hstored
  obtain ⟨hscan0, hlength⟩ := h0.scan_of_length hstored
  obtain ⟨hscan1, hlength⟩ := h1.scan_of_length hlength
  exact ⟨q, hscan0, hscan1, (h2.scan_of_length hlength).1, h3⟩

/-- When all pieces are complete, those before the last possible one are the lines of the queues,
and give their numbers. -/
theorem stored_of_complete {n : ℕ} (hnumbers : ∀ p ∈ items.take n, ∃ q, SameValues str p q)
    (hcomplete : ∀ piece ∈ pieces n (saveConfig str items), (stored piece).length = 4) {i : ℕ}
    {piece : Text} (hi : i + 1 < n) (hp : items[i]? = some p)
    (hpiece : (pieces n (saveConfig str items))[i]? = some piece) :
    ∃ q, SameValues str p q ∧ stored piece = q.values := by
  induction n generalizing items i with
  | zero => exact absurd hi (Nat.not_lt_zero _)
  | succ n ih =>
    cases items with
    | nil => cases hp
    | cons p' items =>
      rw [List.take_succ_cons, List.forall_mem_cons] at hnumbers
      obtain ⟨⟨q', hq'⟩, hnumbers⟩ := hnumbers
      have hend : '\n' ∈ queueLine str p' := by
        rw [queueLine_eq]
        simp
      have hfile : queueLine str p' ++ saveConfig str items ≠ [] :=
        List.append_ne_nil_of_left_ne_nil (List.ne_nil_of_mem hend) _
      rw [saveConfig_cons, pieces, if_neg hfile, fgets_append_of_mem hend] at hcomplete hpiece
      dsimp only at hcomplete hpiece
      obtain ⟨hfirst, hrest⟩ := List.forall_mem_cons.1 hcomplete
      have happend := fgets_append_fgets bufferSize (queueLine str p')
      -- nothing is left of the first line, since there would be no commas in it
      have hleft : (fgets bufferSize (queueLine str p')).2 = [] := by
        by_contra hne
        have hcount := count_of_stored hfirst
        have hcommas := hq'.queueLine.1
        rw [← happend, List.count_append] at hcommas
        have hmem : '\n' ∈ (fgets bufferSize (queueLine str p')).2 := by
          refine List.mem_of_getLast? ?_
          rw [← List.getLast?_append_of_ne_nil (fgets bufferSize (queueLine str p')).1 hne, happend]
          exact List.getLast?_concat
        obtain ⟨n, rfl⟩ := Nat.exists_eq_add_of_lt (Nat.lt_of_succ_lt_succ hi)
        rw [pieces, if_neg (List.append_ne_nil_of_left_ne_nil hne _),
          fgets_append_of_mem hmem] at hrest
        have hnext := count_of_stored (List.forall_mem_cons.1 hrest).1
        dsimp only at hnext
        have hsplit := congrArg (List.count ',')
          (fgets_append_fgets bufferSize (fgets bufferSize (queueLine str p')).2)
        rw [List.count_append] at hsplit
        omega
      rw [hleft, List.append_nil] at happend
      rw [hleft, List.nil_append] at hrest hpiece
      cases i with
      | zero =>
        cases hp
        cases hpiece
        rw [happend] at hfirst ⊢
        exact (hq'.readable hfirst).stored
      | succ i => exact ih hnumbers hrest (Nat.lt_of_succ_lt_succ hi) hp hpiece

/-- If the enabled entries are one for each queue, whatever the array has held, all pieces are
complete. -/
theorem complete_of_oneEntryEach
    (h : ∀ queues, OneEntryEach str (items.take maxQueues)
      (readQueueConfig (some (saveConfig str items)) queues).entries) :
    ∀ piece ∈ pieces maxQueues (saveConfig str items), (stored piece).length = 4 := by
  -- a value that the queues do not have
  obtain ⟨v, hv⟩ := exists_fresh (l := (items.take maxQueues).map fun p =>
    ((Decimal.scan (p.2.maxRate.text str)).map fun number => BitVec.ofInt 32 number.1).getD 0)
    (by rw [List.length_map]; exact List.length_take_le _ _)
  refine complete_of_stale (v := v) ?_
  rintro q hq henabled rfl
  obtain ⟨entries, hperm, hsame⟩ := h (.stale q.maxRate)
  obtain ⟨i, hi⟩ := List.mem_iff_getElem?.1 (hperm.mem_iff.2 (List.mem_filter.2 ⟨hq, henabled⟩))
  obtain ⟨p, hp, hpq⟩ := exists_left_of_forall₂ hsame hi
  obtain ⟨-, -, -, rest, hscan, -⟩ := sameValues_iff.1 hpq
  refine hv (List.mem_map.2 ⟨p, List.mem_of_getElem? hp, ?_⟩)
  rw [hscan, Option.map_some, Option.getD_some, BitVec.ofInt_toInt]

/-- Entries with the values of the queues are those of the complete pieces at their places, but for
the last possible one. -/
theorem getElem?_eq_of_complete {n : ℕ} {entries read : List QueueEntry}
    (hcomplete : ∀ piece ∈ pieces n (saveConfig str items), (stored piece).length = 4)
    (hsame : List.Forall₂ (SameValues str) (items.take n) entries)
    (henabled : ∀ q ∈ entries, q.enabled = true)
    (hread : List.Forall₂ (fun piece q => q.enabled = true ∧ stored piece = q.values)
      (pieces n (saveConfig str items)) read) {i : ℕ} (hi : i + 1 < n) {q q' : QueueEntry}
    (hq : entries[i]? = some q) (hq' : read[i]? = some q') : q = q' := by
  obtain ⟨p, hp, hpq⟩ := exists_left_of_forall₂ hsame hq
  rw [List.getElem?_take_of_lt (Nat.lt_of_succ_lt hi)] at hp
  obtain ⟨piece, hpiece, henabled', hstored⟩ := exists_left_of_forall₂ hread hq'
  have hnumbers : ∀ p ∈ items.take n, ∃ q, SameValues str p q := by
    intro p hp
    obtain ⟨j, hj⟩ := List.mem_iff_getElem?.1 hp
    obtain ⟨q, -, hq⟩ := exists_right_of_forall₂ hsame hj
    exact ⟨q, hq⟩
  obtain ⟨q'', hpq'', hstored''⟩ := stored_of_complete hnumbers hcomplete hi hp hpiece
  refine QueueEntry.eq_of_values ?_ ((henabled q (List.mem_of_getElem? hq)).trans henabled'.symm)
  calc q.values = q''.values := hpq.values_eq hpq''
    _ = stored piece := hstored''.symm
    _ = q'.values := hstored

/-- Whatever the array has held, its enabled entries are one for each queue that there is room for,
exactly if the pieces give the numbers of these queues. -/
theorem oneEntryEach_readQueueConfig_iff (str : ν → Text) (items : QueueTable ν) :
    (∀ queues, OneEntryEach str (items.take maxQueues)
      (readQueueConfig (some (saveConfig str items)) queues).entries) ↔
      ReadBack str maxQueues items := by
  constructor
  · intro h
    have hcomplete := complete_of_oneEntryEach h
    obtain ⟨entries, hperm, hsame⟩ := h (.stale 0)
    -- the entries may be permuted, but at each place but the last one there are the same values
    have hread := filter_of_complete (.stale 0) hcomplete
    have henabled : ∀ q ∈ entries, q.enabled = true := fun q hq =>
      (List.mem_filter.1 (hperm.mem_iff.1 hq)).2
    have hlength : entries.length ≤ 99 + 1 := by
      rw [← hsame.length_eq]
      exact List.length_take_le maxQueues items
    have htake : entries.take 99 =
        ((readQueueConfig (some (saveConfig str items)) (.stale 0)).entries.filter
          fun q => q.enabled).take 99 := by
      refine List.ext_getElem (by rw [List.length_take, List.length_take, hperm.length_eq]) ?_
      intro i hi hi'
      rw [List.length_take] at hi hi'
      rw [List.getElem_take, List.getElem_take]
      exact getElem?_eq_of_complete hcomplete hsame henabled hread
        (show i + 1 < 100 by omega) (List.getElem?_eq_getElem (by omega))
        (List.getElem?_eq_getElem (by omega))
    rw [← eq_of_perm_of_take hperm hlength htake] at hread
    exact forall₂_comp (fun p q piece hsame hstored => ⟨q, hsame, hstored.2⟩) hsame hread.flip
  · intro h queues
    have hcomplete : ∀ piece ∈ pieces maxQueues (saveConfig str items),
        (stored piece).length = 4 := by
      intro piece hpiece
      obtain ⟨i, hi⟩ := List.mem_iff_getElem?.1 hpiece
      obtain ⟨p, -, q, -, hstored⟩ := exists_left_of_forall₂ h hi
      rw [hstored]
      rfl
    refine ⟨_, .refl _, forall₂_comp ?_ h (filter_of_complete queues hcomplete)⟩
    rintro p piece q ⟨q', hsame, hstored⟩ ⟨-, hstored'⟩
    exact hsame.congr (hstored.symm.trans hstored')

/-- The pieces of lines that fit are the lines of the queues. -/
theorem pieces_saveConfig {n : ℕ} (h : ∀ p ∈ items.take n, FitsLine str p) :
    pieces n (saveConfig str items) = (items.take n).map (queueLine str) := by
  induction n generalizing items with
  | zero => rfl
  | succ n ih =>
    cases items with
    | nil => rfl
    | cons p items =>
      rw [List.take_succ_cons, List.forall_mem_cons] at h
      obtain ⟨⟨hend, hlength⟩, hrest⟩ := h
      have hline : queueLine str p = [','].intercalate (queueRow str p) ++ ['\n'] := rfl
      have hmem : '\n' ∈ queueLine str p := by
        rw [hline]
        exact List.mem_append_right _ (List.mem_singleton_self _)
      have hread : fgets bufferSize (queueLine str p) = (queueLine str p, []) :=
        (fgets_of_lt hend hlength).1
      rw [saveConfig_cons, pieces,
        if_neg (List.append_ne_nil_of_left_ne_nil (List.ne_nil_of_mem hmem) _),
        fgets_append_of_mem hmem, hread, List.take_succ_cons, List.map_cons]
      exact congrArg _ (ih hrest)

/-- Queues whose lines fit into the buffer are read back exactly if they are readable. -/
theorem readBack_iff {n : ℕ} (h : ∀ p ∈ items.take n, FitsLine str p) :
    ReadBack str n items ↔ ∀ p ∈ items.take n, ReadableQueue str p := by
  rw [ReadBack, pieces_saveConfig h, List.forall₂_map_right_iff, List.forall₂_same]
  refine forall₂_congr fun p _ => ⟨?_, ReadableQueue.stored⟩
  rintro ⟨q, hsame, hstored⟩
  exact hsame.readable (hstored ▸ rfl)

end Saved

/-- Whatever the array of `read_queue_config` has held, its enabled entries are one for each queue
of a file of the service, as far as there is room, exactly if the pieces that are read give the
numbers of these queues; and every enabled entry has the numbers of the line of the file at its
place, exactly if the pieces do. Where the lines fit into the buffer, this is so exactly if the
texts of the queues are numbers, and exactly if the lines consist of four. -/
theorem queueConfig_iff {ν : Type*} (str : ν → Text) (items : QueueTable ν) (file : Text) :
    ((∀ queues, OneEntryEach str (items.take maxQueues)
        (readQueueConfig (some (saveConfig str items)) queues).entries) ↔
      ReadBack str maxQueues items) ∧
    ((∀ p ∈ items.take maxQueues, FitsLine str p) →
      (ReadBack str maxQueues items ↔ ∀ p ∈ items.take maxQueues, ReadableQueue str p)) ∧
    ((∀ queues, FromLines file (readQueueConfig (some file) queues).entries) ↔
      PiecesOfLines maxQueues file) ∧
    ((∀ l ∈ (Separated.lines '\n' file).take maxQueues, l.length < bufferSize) → ∀ queues,
      (FromLines file (readQueueConfig (some file) queues).entries ↔
        ∀ l ∈ (Separated.lines '\n' file).take maxQueues, WellFormedLine l)) := by
  refine ⟨oneEntryEach_readQueueConfig_iff str items, readBack_iff,
    fromLines_readQueueConfig_iff file, fun hfit queues => ⟨fun h => ?_, fun h => ?_⟩⟩
  · rw [← queues.length_eq] at hfit ⊢
    exact wellFormed_of_fromLines hfit h
  · exact (fromLines_readQueueConfig_iff file).2 (piecesOfLines_of_wellFormed hfit h) queues

/-- The dictionary with one queue. -/
def oneQueue (queueId portId : Text) : QueueTable ℕ :=
  [(queueId, ⟨.string portId, .string [' ', '0'], .other 1000⟩)]

/-- A queue with numbers gets its entry, however they are written, and a line of four numbers is
where an entry comes from. -/
theorem queueConfig_iff_one :
    (∀ queues, OneEntryEach (Nat.toDigits 10) ((oneQueue ['0', '5'] ['+', '7']).take maxQueues)
      (readQueueConfig (some (saveConfig (Nat.toDigits 10) (oneQueue ['0', '5'] ['+', '7'])))
        queues).entries) ∧
    ∀ queues, FromLines ['6', ',', ' ', '1', ',', '2', ',', '3', '\r']
      (readQueueConfig (some ['6', ',', ' ', '1', ',', '2', ',', '3', '\r']) queues).entries := by
  obtain ⟨hentries, hreadable, -, hlines⟩ := queueConfig_iff (Nat.toDigits 10)
    (oneQueue ['0', '5'] ['+', '7']) ['6', ',', ' ', '1', ',', '2', ',', '3', '\r']
  refine ⟨hentries.2 ((hreadable ?_).2 ?_), fun queues => (hlines ?_ queues).2 ?_⟩
  · decide
  · intro p hp
    obtain rfl := List.mem_singleton.1 hp
    exact ⟨⟨5, 7, 0, 1000, true⟩, by decide, by decide, by decide, [], by decide,
      List.forall_mem_nil _⟩
  · decide
  · intro l hl
    obtain rfl := List.mem_singleton.1 hl
    exact ⟨⟨6, 1, 2, 3, true⟩, by decide⟩

/-- A queue whose port is no number gets no entry of its own, and the entry that is enabled for it
comes from no line of four numbers. -/
theorem not_queueConfig :
    (¬ ∀ (items : QueueTable ℕ) (queues : QueueArray), ConfigService.Distinct items →
      OneEntryEach (Nat.toDigits 10) (items.take maxQueues)
        (readQueueConfig (some (saveConfig (Nat.toDigits 10) items)) queues).entries) ∧
    ¬ ∀ (file : Text) (queues : QueueArray),
      (∃ l ∈ Separated.lines '\n' file, ¬ WellFormedLine l) →
        FromLines file (readQueueConfig (some file) queues).entries := by
  constructor
  · intro hall
    obtain ⟨entries, -, hsame⟩ :=
      hall (oneQueue ['5'] ['x']) (.stale 0) (List.pairwise_singleton _ _)
    obtain ⟨q, -, hq, -, -⟩ := List.forall₂_cons_left_iff.1 hsame
    obtain ⟨-, ⟨rest, hscan, -⟩, -⟩ := sameValues_iff.1 hq
    cases hscan
  · intro hall
    have hlines : Separated.lines '\n' ['x', '\n'] = [['x']] := rfl
    have hline : ¬ WellFormedLine ['x'] := by
      rintro ⟨q, hq⟩
      cases hq
    have hfrom : FromLines ['x', '\n'] (readQueues (QueueArray.stale 0).entries ['x', '\n']) :=
      hall ['x', '\n'] (.stale 0) ⟨['x'], hlines ▸ List.mem_cons_self, hline⟩
    refine hline (wellFormed_of_fromLines ?_ hfrom ['x'] ?_)
    · rw [hlines]
      decide
    · rw [hlines]
      exact List.mem_cons_self

end OfAgent
