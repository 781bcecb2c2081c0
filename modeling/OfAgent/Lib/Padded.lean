import Mathlib.Algebra.BigOperators.Group.List.Basic
import Mathlib.Algebra.GroupWithZero.Nat
import Mathlib.Algebra.Order.BigOperators.Group.Finset
import Mathlib.Algebra.Order.BigOperators.Group.List
import Mathlib.Logic.Function.Basic

/-!
# Padded option lists

Options in a byte area: a code, a length, and as many bytes as the length says. A pad takes one
byte, and the list ends at a stop, at the end of the area, or at an option that the area cuts off.

* `read`: the options in an area; `encode`: options put into one; `read_encode`: reading them back.
* `weight_read_le`: options take as many bytes as their payloads, and two more for each of them.
* `collect`: what the options of one code say together; `payloadsOf_items`.
* `span`, `least`: the fewest bytes that hold a payload; `sum_least_append_le`.
* `chunks`: a long payload cut into short ones; `flatten_chunks`, `length_le_of_mem_chunks`.
-/

namespace Padded

variable {α κ : Type*}

/-! ### Writing and reading -/

/-- An option is put in front of its length and its payload. -/
def encode (ofLen : ℕ → α) (item : α × List α) : List α :=
  item.1 :: ofLen item.2.length :: item.2

/-- The bytes that options take: their payloads, and two more for each of them. -/
def weight (items : List (κ × List α)) : ℕ := (items.map fun item => 2 + item.2.length).sum

@[simp]
theorem weight_cons (item : κ × List α) (items : List (κ × List α)) :
    weight (item :: items) = 2 + item.2.length + weight items := by
  simp [weight]

theorem weight_map {ι : Type*} (code : κ → ι) (items : List (κ × List α)) :
    weight (items.map fun item => (code item.1, item.2)) = weight items := by
  rw [weight, List.map_map]
  rfl

section

variable [DecidableEq α] (pad stop : α) (len : α → ℕ)

/-- The options at the front of an area. -/
def read : ℕ → List α → List (α × List α)
  | 0, _ => []
  | _ + 1, [] => []
  | fuel + 1, code :: rest =>
      if code = stop then []
      else if code = pad then read fuel rest
      else
        match rest with
        | [] => []
        | l :: rest =>
            if rest.length < len l then []
            else (code, rest.take (len l)) :: read fuel (rest.drop (len l))

variable {pad stop len}

theorem read_nil (fuel : ℕ) : read pad stop len fuel [] = [] := by
  cases fuel <;> rfl

theorem read_stop (fuel : ℕ) (rest : List α) : read pad stop len fuel (stop :: rest) = [] := by
  cases fuel with
  | zero => rfl
  | succ fuel => exact if_pos rfl

/-- Pads hold no options. -/
theorem read_replicate_pad (hne : pad ≠ stop) (fuel n : ℕ) :
    read pad stop len fuel (List.replicate n pad) = [] := by
  induction n generalizing fuel with
  | zero => exact read_nil fuel
  | succ n ih =>
    cases fuel with
    | zero => rfl
    | succ fuel =>
      rw [List.replicate_succ]
      exact ((if_neg hne).trans (if_pos rfl)).trans (ih fuel)

/-- No option has the code of a pad or a stop. -/
theorem code_of_mem_read {fuel : ℕ} {bs : List α} {item : α × List α}
    (h : item ∈ read pad stop len fuel bs) : item.1 ≠ pad ∧ item.1 ≠ stop := by
  induction fuel generalizing bs with
  | zero => cases h
  | succ fuel ih =>
    cases bs with
    | nil => cases h
    | cons code rest =>
      unfold read at h
      split_ifs at h with hstop hpad
      · cases h
      · exact ih h
      · cases rest with
        | nil => cases h
        | cons l rest =>
          dsimp only at h
          split_ifs at h
          · cases h
          · rcases List.mem_cons.mp h with rfl | h
            · exact ⟨hpad, hstop⟩
            · exact ih h

/-- A payload is as long as a length byte says. -/
theorem length_of_mem_read {fuel : ℕ} {bs : List α} {item : α × List α}
    (h : item ∈ read pad stop len fuel bs) : ∃ l, item.2.length = len l := by
  induction fuel generalizing bs with
  | zero => cases h
  | succ fuel ih =>
    cases bs with
    | nil => cases h
    | cons code rest =>
      unfold read at h
      split_ifs at h
      · cases h
      · exact ih h
      · cases rest with
        | nil => cases h
        | cons l rest =>
          dsimp only at h
          split_ifs at h with hlen
          · cases h
          · rcases List.mem_cons.mp h with rfl | h
            · exact ⟨l, List.length_take_of_le (Nat.not_lt.mp hlen)⟩
            · exact ih h

/-- The options in an area take no more bytes than it has. -/
theorem weight_read_le (fuel : ℕ) (bs : List α) :
    weight (read pad stop len fuel bs) ≤ bs.length := by
  induction fuel generalizing bs with
  | zero => exact Nat.zero_le _
  | succ fuel ih =>
    cases bs with
    | nil => exact Nat.zero_le _
    | cons code rest =>
      unfold read
      split_ifs
      · exact Nat.zero_le _
      · exact (ih rest).trans (Nat.le_succ _)
      · cases rest with
        | nil => exact Nat.zero_le _
        | cons l rest =>
          dsimp only
          split_ifs with hlen
          · exact Nat.zero_le _
          · have hrest := ih (rest.drop (len l))
            rw [List.length_drop] at hrest
            rw [weight_cons, List.length_take, List.length_cons, List.length_cons]
            omega

/-- An area that begins with options that can be encoded. -/
theorem read_encode {ofLen : ℕ → α} {items : List (α × List α)}
    (hcode : ∀ item ∈ items, item.1 ≠ pad ∧ item.1 ≠ stop)
    (hlen : ∀ item ∈ items, len (ofLen item.2.length) = item.2.length) (fuel : ℕ) (rest : List α) :
    read pad stop len (items.length + fuel) (items.flatMap (encode ofLen) ++ rest) =
      items ++ read pad stop len fuel rest := by
  induction items with
  | nil => rw [List.length_nil, Nat.zero_add]; rfl
  | cons item items ih =>
    obtain ⟨hpad, hstop⟩ := hcode item List.mem_cons_self
    have hl := hlen item List.mem_cons_self
    have ih := ih (fun item h => hcode item (List.mem_cons_of_mem _ h))
      fun item h => hlen item (List.mem_cons_of_mem _ h)
    rw [List.length_cons, Nat.add_right_comm, List.flatMap_cons, encode]
    simp only [List.cons_append, read, if_neg hpad, if_neg hstop, hl, List.append_assoc]
    rw [if_neg (by simp), List.take_left, List.drop_left, ih]

end

/-! ### The options of one code -/

section

variable [DecidableEq κ]

/-- What is known of a code, behind a payload for one of them. -/
def append (s : κ → Option (List α)) (k : κ) (payload : List α) : κ → Option (List α) :=
  Function.update s k (some ((s k).getD [] ++ payload))

/-- The payloads for a code, in front of which `known` has been known. -/
def collect (known : Option (List α)) (payloads : List (List α)) : Option (List α) :=
  match payloads with
  | [] => known
  | _ :: _ => some (known.getD [] ++ payloads.flatten)

/-- The payloads that a list of options has for a code. -/
def payloadsOf (items : List (κ × List α)) (k : κ) : List (List α) :=
  (items.filter fun item => item.1 = k).map Prod.snd

@[simp]
theorem payloadsOf_append (items items' : List (κ × List α)) (k : κ) :
    payloadsOf (items ++ items') k = payloadsOf items k ++ payloadsOf items' k := by
  rw [payloadsOf, List.filter_append, List.map_append]
  rfl

/-- A list of options without a code has no payload for it. -/
theorem payloadsOf_eq_nil {items : List (κ × List α)} {k : κ} (h : ∀ item ∈ items, item.1 ≠ k) :
    payloadsOf items k = [] := by
  rw [payloadsOf, List.filter_eq_nil_iff.mpr, List.map_nil]
  intro item hitem
  rw [decide_eq_true_iff]
  exact h item hitem

/-- Options of one code have the payloads they are made of. -/
theorem payloadsOf_map_mk (k : κ) (payloads : List (List α)) :
    payloadsOf (payloads.map (Prod.mk k)) k = payloads := by
  rw [payloadsOf, List.filter_eq_self.mpr, List.map_map]
  · exact List.map_id _
  · intro item hitem
    obtain ⟨_, _, rfl⟩ := List.mem_map.mp hitem
    exact decide_eq_true rfl

/-- Options of one code have no payload for another one. -/
theorem payloadsOf_map_mk_of_ne {k k' : κ} (hne : k' ≠ k) (payloads : List (List α)) :
    payloadsOf (payloads.map (Prod.mk k')) k = [] := by
  refine payloadsOf_eq_nil fun item hitem => ?_
  obtain ⟨_, _, rfl⟩ := List.mem_map.mp hitem
  exact hne

/-- Behind a list of options, each code has the payloads that the list has for it. -/
theorem foldl_append_apply (items : List (κ × List α)) (s : κ → Option (List α)) (k : κ) :
    items.foldl (fun s item => append s item.1 item.2) s k =
      collect (s k) (payloadsOf items k) := by
  induction items generalizing s with
  | nil => rfl
  | cons item items ih =>
    rw [List.foldl_cons, ih, payloadsOf, payloadsOf]
    rcases eq_or_ne item.1 k with rfl | hne
    · rw [List.filter_cons_of_pos (by simp), append, Function.update_self]
      cases hrest : (items.filter fun i => i.1 = item.1).map Prod.snd with
      | nil => simp [collect, hrest]
      | cons p ps => simp [collect, hrest]
    · rw [List.filter_cons_of_neg (by simpa using hne), append, Function.update_of_ne hne.symm]

/-- The options with the codes of a list, each in its own payloads. -/
def items (keys : List κ) (payloads : κ → List (List α)) : List (κ × List α) :=
  keys.flatMap fun k => (payloads k).map (Prod.mk k)

omit [DecidableEq κ] in
/-- What is one of the options of a list of codes. -/
theorem mem_items {keys : List κ} {payloads : κ → List (List α)} {item : κ × List α} :
    item ∈ items keys payloads ↔ item.1 ∈ keys ∧ item.2 ∈ payloads item.1 := by
  obtain ⟨k, payload⟩ := item
  constructor
  · intro h
    obtain ⟨k', hk', h⟩ := List.mem_flatMap.mp h
    obtain ⟨payload', hpayload, heq⟩ := List.mem_map.mp h
    obtain ⟨rfl, rfl⟩ := Prod.mk.inj heq
    exact ⟨hk', hpayload⟩
  · rintro ⟨hk, hpayload⟩
    exact List.mem_flatMap.mpr ⟨k, hk, List.mem_map.mpr ⟨payload, hpayload, rfl⟩⟩

/-- Codes that are listed once have the payloads they have been given. -/
theorem payloadsOf_items {keys : List κ} (hkeys : keys.Nodup) {payloads : κ → List (List α)}
    {k : κ} (h : k ∈ keys) : payloadsOf (items keys payloads) k = payloads k := by
  induction keys with
  | nil => cases h
  | cons k' keys ih =>
    obtain ⟨hk', hkeys⟩ := List.nodup_cons.mp hkeys
    have hcons : items (k' :: keys) payloads =
      (payloads k').map (Prod.mk k') ++ items keys payloads := rfl
    rw [hcons, payloadsOf_append]
    rcases List.mem_cons.mp h with rfl | h
    · rw [payloadsOf_map_mk, @payloadsOf_eq_nil _ _ _ (items keys payloads), List.append_nil]
      rintro item hitem rfl
      exact hk' (mem_items.mp hitem).1
    · have hne : k' ≠ k := by
        rintro rfl
        exact hk' h
      rw [ih hkeys h, payloadsOf_map_mk_of_ne hne, List.nil_append]

end

/-! ### The fewest bytes -/

section

variable (limit : ℕ)

/-- The fewest bytes for a payload of `n` bytes, when no option has more than `limit` of them. -/
def span (n : ℕ) : ℕ := n + 2 * max 1 ((n + (limit - 1)) / limit)

/-- The fewest bytes for what is known of a code. -/
def least : Option (List α) → ℕ
  | none => 0
  | some bs => span limit bs.length

variable {limit}

/-- A longer payload takes no fewer bytes. -/
theorem span_mono {m n : ℕ} (h : m ≤ n) : span limit m ≤ span limit n := by
  have hdiv : (m + (limit - 1)) / limit ≤ (n + (limit - 1)) / limit :=
    Nat.div_le_div_right (Nat.add_le_add_right h _)
  have hmax := max_le_max_left 1 hdiv
  simp only [span]
  omega

theorem span_of_le {n : ℕ} (h : n ≤ limit) (hpos : 0 < limit) : span limit n = 2 + n := by
  have hdiv : (n + (limit - 1)) / limit ≤ 1 := by
    rw [Nat.div_le_iff_le_mul_add_pred hpos]
    omega
  rw [span, max_eq_left hdiv, Nat.add_comm]

/-- An option adds its own bytes to the fewest at most. -/
theorem least_append_le {known : Option (List α)} {payload : List α}
    (h : payload.length ≤ limit) (hpos : 0 < limit) :
    least limit (some (known.getD [] ++ payload)) ≤
      least limit known + (2 + payload.length) := by
  cases known with
  | none => exact (span_of_le h hpos).le.trans (Nat.le_add_left _ _)
  | some bs =>
    have hdiv : (bs.length + payload.length + (limit - 1)) / limit ≤
        (bs.length + (limit - 1)) / limit + 1 := by
      rw [← Nat.add_div_right _ hpos]
      exact Nat.div_le_div_right (by omega)
    simp only [least, span, Option.getD_some, List.length_append]
    omega

/-- Options that are read one after another leave no more to hold than they weigh. -/
theorem sum_least_append_le [DecidableEq κ] (keys : Finset κ) (s : κ → Option (List α)) (k : κ)
    {payload : List α} (h : payload.length ≤ limit) (hpos : 0 < limit) :
    ∑ key ∈ keys, least limit (append s k payload key) ≤
      ∑ key ∈ keys, least limit (s key) + (2 + payload.length) := by
  by_cases hk : k ∈ keys
  · rw [← Finset.sum_erase_add _ _ hk, ← Finset.sum_erase_add _ _ hk, append,
      Function.update_self, Nat.add_assoc]
    refine Nat.add_le_add (Finset.sum_le_sum fun key hkey => ?_) (least_append_le h hpos)
    rw [Function.update_of_ne (Finset.ne_of_mem_erase hkey)]
  · refine (Finset.sum_le_sum fun key hkey => ?_).trans (Nat.le_add_right _ _)
    have hne : key ≠ k := by
      rintro rfl
      exact hk hkey
    rw [append, Function.update_of_ne hne]

end

/-! ### Chunks -/

section

variable (limit step : ℕ)

/-- A payload that is longer than `limit` is cut after `step` bytes. -/
def chunks : ℕ → List α → List (List α)
  | 0, _ => []
  | _ + 1, [] => []
  | fuel + 1, b :: bs =>
      let n := if limit < (b :: bs).length then step else (b :: bs).length
      (b :: bs).take n :: chunks fuel ((b :: bs).drop n)

variable {limit step}

/-- The chunks make up the payload. -/
theorem flatten_chunks (hstep : 0 < step) {fuel : ℕ} {bs : List α} (h : bs.length ≤ fuel) :
    (chunks limit step fuel bs).flatten = bs := by
  induction fuel generalizing bs with
  | zero => rw [List.eq_nil_of_length_eq_zero (Nat.le_zero.mp h)]; rfl
  | succ fuel ih =>
    cases bs with
    | nil => rfl
    | cons b bs =>
      unfold chunks
      dsimp only
      rw [List.flatten_cons, ih, List.take_append_drop]
      rw [List.length_drop]
      rw [List.length_cons] at h ⊢
      split_ifs <;> omega

/-- No chunk is longer than the limit. -/
theorem length_le_of_mem_chunks (hle : step ≤ limit) {fuel : ℕ} {bs c : List α}
    (h : c ∈ chunks limit step fuel bs) : c.length ≤ limit := by
  induction fuel generalizing bs with
  | zero => cases h
  | succ fuel ih =>
    cases bs with
    | nil => cases h
    | cons b bs =>
      rcases List.mem_cons.mp h with rfl | h
      · rw [List.length_take]
        split_ifs <;> omega
      · exact ih h

/-- A short payload is one chunk. -/
theorem chunks_of_length_le {fuel : ℕ} {bs : List α} (hne : bs ≠ []) (hle : bs.length ≤ limit)
    (h : bs.length ≤ fuel) : chunks limit step fuel bs = [bs] := by
  cases bs with
  | nil => exact absurd rfl hne
  | cons b bs =>
    cases fuel with
    | zero => cases h
    | succ fuel =>
      unfold chunks
      dsimp only
      rw [if_neg (Nat.not_lt.mpr hle), List.take_length, List.drop_length]
      cases fuel <;> rfl

/-- A payload has chunks unless it is empty. -/
theorem chunks_ne_nil {fuel : ℕ} {bs : List α} (hne : bs ≠ []) (h : bs.length ≤ fuel) :
    chunks limit step fuel bs ≠ [] := by
  cases bs with
  | nil => exact absurd rfl hne
  | cons b bs =>
    cases fuel with
    | zero => cases h
    | succ fuel => exact List.cons_ne_nil _ _

end

end Padded
