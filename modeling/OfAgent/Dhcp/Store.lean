import OfAgent.Dhcp.Message
import OfAgent.Lib.Padded
import Mathlib.Algebra.BigOperators.Group.Finset.Piecewise

/-!
# The storage of a DHCP message

`dhcp.c`: the bytes of a message's options lie one behind another in `data`, which is replaced by a
larger area when the next bytes do not fit.

* `DhcpStore`: `options`, `data_used` and `data_allocated` of a message. Its fields say what the
  assertion in `copy_data` and the copies of `append_data` ask for.
* `DhcpStore.put`: `dhcp_msg_put`. `DhcpStore.Moves`: whether it replaces `data`.
* `DhcpStore.putAll`: options put one after another; `options_putAll`, `sum_least_putAll_le`.
* `DhcpStore.Stays`: none of them replaces `data`.
-/

namespace OfAgent

/-- `DHCP_N_OPTIONS`. -/
def dhcpNOptions : ℕ := 512

/-- `DHCP_CODE_PAD`. -/
def dhcpCodePad : ℕ := 0

/-- `DHCP_CODE_END`. -/
def dhcpCodeEnd : ℕ := 255

/-- `options[code].n`. -/
def optionLen (options : ℕ → Option (List Byte)) (code : ℕ) : ℕ := ((options code).getD []).length

/-- The bytes of the options whose codes are below `n`. -/
def optionsLen (options : ℕ → Option (List Byte)) (n : ℕ) : ℕ :=
  ∑ code ∈ Finset.range n, optionLen options code

/-- More bytes of one option. -/
theorem optionsLen_append_le (options : ℕ → Option (List Byte)) (code n : ℕ) (payload : List Byte) :
    optionsLen (Padded.append options code payload) n ≤ optionsLen options n + payload.length := by
  have hlen : ∀ code', optionLen (Padded.append options code payload) code' =
      optionLen options code' + if code' = code then payload.length else 0 := by
    intro code'
    rcases eq_or_ne code' code with rfl | hne
    · rw [optionLen, Padded.append, Function.update_self, if_pos rfl, Option.getD_some,
        List.length_append, optionLen]
    · rw [optionLen, Padded.append, Function.update_of_ne hne, if_neg hne, optionLen, Nat.add_zero]
  rw [optionsLen, Finset.sum_congr rfl fun code' _ => hlen code', Finset.sum_add_distrib,
    Finset.sum_ite_eq']
  refine Nat.add_le_add_left ?_ _
  split_ifs <;> omega

/-- The part of `struct dhcp_msg` that `dhcp_msg_put` keeps. -/
structure DhcpStore where
  /-- The options by their codes. An option that is absent has no `data`. -/
  options : ℕ → Option (List Byte)
  /-- Where in `data` the bytes of an option begin. -/
  offset : ℕ → ℕ
  /-- `data_used`. -/
  used : ℕ
  /-- `data_allocated`. There is no `data` before any has been allocated. -/
  allocated : ℕ
  /-- All options lie in the bytes that are in use. -/
  optionsLen_le : optionsLen options dhcpNOptions ≤ used
  /-- The bytes that are in use have been allocated. -/
  used_le : used ≤ allocated

namespace DhcpStore

/-- `dhcp_msg_init`: no options. -/
def empty : DhcpStore where
  options _ := none
  offset _ := 0
  used := 0
  allocated := 0
  optionsLen_le := (Finset.sum_eq_zero fun _ _ => rfl).le
  used_le := Nat.le_refl 0

/-! ### Room for more bytes -/

/-- `copy_data`: the options in an area of `allocated` bytes, by their codes. What is in use never
exceeds the area, as its assertion says, because it does not exceed what has been in use. -/
def copyData (s : DhcpStore) (allocated : ℕ) (h : s.used ≤ allocated) : DhcpStore where
  options := s.options
  offset := optionsLen s.options
  used := optionsLen s.options dhcpNOptions
  allocated := allocated
  optionsLen_le := Nat.le_refl _
  used_le := s.optionsLen_le.trans h

@[simp]
theorem used_copyData (s : DhcpStore) (allocated : ℕ) (h : s.used ≤ allocated) :
    (s.copyData allocated h).used = optionsLen s.options dhcpNOptions := by
  rw [copyData]

@[simp]
theorem allocated_copyData (s : DhcpStore) (allocated : ℕ) (h : s.used ≤ allocated) :
    (s.copyData allocated h).allocated = allocated := by
  rw [copyData]

/-- `prealloc_data`. -/
def prealloc (s : DhcpStore) (n : ℕ) : DhcpStore :=
  if s.used + n ≤ s.allocated then s
  else
    have h : s.used ≤ max ((s.used + n) * 2) 64 := by omega
    if s.allocated = 0 then { s with allocated := max ((s.used + n) * 2) 64, used_le := h }
    else s.copyData (max ((s.used + n) * 2) 64) h

variable {s : DhcpStore}

@[simp]
theorem options_prealloc (n : ℕ) : (s.prealloc n).options = s.options := by
  unfold prealloc
  split_ifs <;> rfl

/-- Behind `prealloc_data` there is room for the bytes that it has been asked for. -/
theorem used_prealloc_add_le (n : ℕ) : (s.prealloc n).used + n ≤ (s.prealloc n).allocated := by
  have hle := s.optionsLen_le
  unfold prealloc
  split_ifs with hfits
  · exact hfits
  · change s.used + n ≤ max ((s.used + n) * 2) 64
    omega
  · rw [used_copyData, allocated_copyData]
    omega

/-- `prealloc_data` gives nothing back. -/
theorem allocated_le_prealloc (n : ℕ) : s.allocated ≤ (s.prealloc n).allocated := by
  unfold prealloc
  split_ifs with hfits
  · exact Nat.le_refl _
  all_goals
    change s.allocated ≤ max ((s.used + n) * 2) 64
    omega

/-! ### One option -/

/-- Where the bytes of an option begin when more are put behind them: where they are, if they are
the last ones in use, and otherwise behind those, where `dhcp_msg_put` copies them to. -/
def start (s : DhcpStore) (code : ℕ) : ℕ :=
  if optionLen s.options code ≠ 0 ∧ s.used - optionLen s.options code = s.offset code then
    s.offset code
  else s.used

theorem start_le (code : ℕ) : s.start code ≤ s.used := by
  unfold start
  split_ifs with hlast
  · omega
  · exact Nat.le_refl _

theorem used_le_start_add (code : ℕ) : s.used ≤ s.start code + optionLen s.options code := by
  unfold start
  split_ifs with hlast <;> omega

/-- The part of `dhcp_msg_put` behind `prealloc_data`. Where nothing has been allocated there is
nothing to put, and the option's `data` stays null. -/
def extend (s : DhcpStore) (code : ℕ) (payload : List Byte)
    (h : s.used + (payload.length + optionLen s.options code) ≤ s.allocated) : DhcpStore :=
  if s.allocated = 0 then s
  else
    { options := Padded.append s.options code payload
      offset := Function.update s.offset code (s.start code)
      used := s.start code + optionLen s.options code + payload.length
      allocated := s.allocated
      optionsLen_le := by
        have happend := optionsLen_append_le s.options code dhcpNOptions payload
        have hle := s.optionsLen_le
        have hstart := @used_le_start_add s code
        omega
      used_le := by
        have hstart := @start_le s code
        omega }

/-- `dhcp_msg_put`. -/
def put (s : DhcpStore) (code : ℕ) (payload : List Byte) : DhcpStore :=
  if code = dhcpCodePad ∨ code = dhcpCodeEnd then s
  else
    (s.prealloc (payload.length + optionLen s.options code)).extend code payload (by
      rw [options_prealloc]
      exact used_prealloc_add_le _)

/-- Whether `dhcp_msg_put` replaces `data`. -/
def Moves (s : DhcpStore) (code n : ℕ) : Prop :=
  code ≠ dhcpCodePad ∧ code ≠ dhcpCodeEnd ∧ s.allocated < s.used + (n + optionLen s.options code)

instance (code n : ℕ) : Decidable (s.Moves code n) := inferInstanceAs (Decidable (_ ∧ _ ∧ _))

/-- `dhcp_msg_put` appends to one option, or does nothing. -/
theorem options_put_eq_or (code : ℕ) (payload : List Byte) :
    (s.put code payload).options = s.options ∨
      (s.put code payload).options = Padded.append s.options code payload := by
  unfold put extend
  split_ifs
  · exact Or.inl rfl
  · exact Or.inl (options_prealloc _)
  · exact Or.inr (congrArg (Padded.append · code payload) (options_prealloc _))

/-- `dhcp_msg_put` appends to an option unless there is nothing to put, or nothing to put it in. -/
theorem options_put {code : ℕ} {payload : List Byte}
    (hcode : code ≠ dhcpCodePad ∧ code ≠ dhcpCodeEnd) (h : s.allocated ≠ 0 ∨ payload ≠ []) :
    (s.put code payload).options = Padded.append s.options code payload ∧
      (s.put code payload).allocated ≠ 0 := by
  have hroom := @used_prealloc_add_le s (payload.length + optionLen s.options code)
  have hmore := @allocated_le_prealloc s (payload.length + optionLen s.options code)
  have hpos : (s.prealloc (payload.length + optionLen s.options code)).allocated ≠ 0 := by
    rcases h with h | h
    · omega
    · have hlen := List.length_pos_of_ne_nil h
      omega
  unfold put extend
  rw [if_neg (not_or.mpr hcode), if_neg hpos]
  exact ⟨congrArg (Padded.append · code payload) (options_prealloc _), hpos⟩

theorem allocated_le_put (code : ℕ) (payload : List Byte) :
    s.allocated ≤ (s.put code payload).allocated := by
  have hmore := @allocated_le_prealloc s (payload.length + optionLen s.options code)
  unfold put extend
  split_ifs
  · exact Nat.le_refl _
  · exact hmore
  · exact hmore

/-! ### Options one after another -/

/-- Options put one after another. -/
def putAll (s : DhcpStore) (items : List (ℕ × List Byte)) : DhcpStore :=
  items.foldl (fun s item => s.put item.1 item.2) s

/-- None of the options makes `dhcp_msg_put` replace `data`. -/
def Stays (s : DhcpStore) : List (ℕ × List Byte) → Prop
  | [] => True
  | item :: items => ¬ s.Moves item.1 item.2.length ∧ (s.put item.1 item.2).Stays items

/-- Each option has the bytes that have been put behind those it had, if the first one that is put
has bytes where nothing has been allocated. -/
theorem options_putAll {items : List (ℕ × List Byte)}
    (hcode : ∀ item ∈ items, item.1 ≠ dhcpCodePad ∧ item.1 ≠ dhcpCodeEnd)
    (halloc : s.allocated ≠ 0 ∨ ∀ item ∈ items.head?, item.2 ≠ []) (code : ℕ) :
    (s.putAll items).options code =
      Padded.collect (s.options code) (Padded.payloadsOf items code) := by
  rw [← Padded.foldl_append_apply]
  refine congrFun ?_ code
  induction items generalizing s with
  | nil => rfl
  | cons item items ih =>
    obtain ⟨hoptions, hpos⟩ := options_put (hcode item List.mem_cons_self)
      (halloc.imp_right fun h => h item rfl)
    rw [List.foldl_cons, ← hoptions]
    exact ih (fun item h => hcode item (List.mem_cons_of_mem _ h)) (Or.inl hpos)

/-- What has been allocated stays allocated. -/
theorem allocated_le_putAll (items : List (ℕ × List Byte)) :
    s.allocated ≤ (s.putAll items).allocated := by
  induction items generalizing s with
  | nil => exact Nat.le_refl _
  | cons item items ih => exact (allocated_le_put item.1 item.2).trans ih

/-- An option that is not among those that are put stays as it is. -/
theorem options_putAll_of_ne {items : List (ℕ × List Byte)} {code : ℕ}
    (h : ∀ item ∈ items, item.1 ≠ code) : (s.putAll items).options code = s.options code := by
  induction items generalizing s with
  | nil => rfl
  | cons item items ih =>
    have hstep : (s.put item.1 item.2).options code = s.options code := by
      rcases @options_put_eq_or s item.1 item.2 with hput | hput
      · rw [hput]
      · rw [hput, Padded.append, Function.update_of_ne (h item List.mem_cons_self).symm]
    exact (ih fun item hitem => h item (List.mem_cons_of_mem _ hitem)).trans hstep

/-- The options of a message need no more bytes than those that have been put. -/
theorem sum_least_putAll_le {limit : ℕ} (hpos : 0 < limit) (codes : Finset ℕ)
    {items : List (ℕ × List Byte)} (hlen : ∀ item ∈ items, item.2.length ≤ limit) :
    ∑ code ∈ codes, Padded.least limit ((s.putAll items).options code) ≤
      ∑ code ∈ codes, Padded.least limit (s.options code) + Padded.weight items := by
  induction items generalizing s with
  | nil => exact Nat.le_add_right _ _
  | cons item items ih =>
    have hitem := hlen item List.mem_cons_self
    have ih := @ih (s.put item.1 item.2) fun item h => hlen item (List.mem_cons_of_mem _ h)
    have hstep : ∑ code ∈ codes, Padded.least limit ((s.put item.1 item.2).options code) ≤
        ∑ code ∈ codes, Padded.least limit (s.options code) + (2 + item.2.length) := by
      rcases @options_put_eq_or s item.1 item.2 with hput | hput
      · rw [hput]
        exact Nat.le_add_right _ _
      · rw [hput]
        exact Padded.sum_least_append_le codes s.options item.1 hitem hpos
    rw [Padded.weight_cons]
    calc ∑ code ∈ codes, Padded.least limit (((s.put item.1 item.2).putAll items).options code)
        ≤ ∑ code ∈ codes, Padded.least limit ((s.put item.1 item.2).options code) +
            Padded.weight items := ih
      _ ≤ ∑ code ∈ codes, Padded.least limit (s.options code) + (2 + item.2.length) +
            Padded.weight items := Nat.add_le_add_right hstep _
      _ = _ := Nat.add_assoc _ _ _

end DhcpStore

end OfAgent
