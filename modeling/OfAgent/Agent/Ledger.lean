import OfAgent.Agent.Services

/-!
# Services that count references

A service is meant to count the actions that refer to its address and VLAN. The array of services
is then a ledger of the references: each pair of an address and a VLAN with references has one
active slot, whose counter is the number of references.

* `Ledger`: the array keeps the given numbers of references.
* `Ledger.replace`: one reference more, in the slot where it belongs.
* `loss`: how many flows each slot loses in several withdrawals from an address.
* `iterate_withdraw`: the array after several withdrawals, slot by slot.
* `Ledger.withdraw`: the withdrawals keep the ledger when each slot loses what it should.
-/

namespace OfAgent

open FirstMatch

/-- The array of services keeps the numbers `refs` of references to addresses and VLANs. -/
structure Ledger (slots : List ZyxelServiceParams) (refs : BitVec 32 → BitVec 16 → ℕ) :
    Prop where
  /-- The counter of an active slot is the number of references to its address and VLAN. -/
  active : ∀ slot ∈ slots, slot.inPort ≠ 0 → slot.vlanTag ≠ 0 ∧
    0 < refs slot.wanAddress slot.vlanTag ∧
    slot.flowCounter.toInt = refs slot.wanAddress slot.vlanTag
  /-- The other slots are clear. -/
  inactive : ∀ slot ∈ slots, slot.inPort = 0 →
    slot.wanAddress = 0 ∧ slot.vlanTag = 0 ∧ slot.flowCounter = 0
  /-- Active slots differ in address or VLAN. -/
  distinct : slots.Pairwise fun a b => a.inPort ≠ 0 → b.inPort ≠ 0 →
    ¬ (a.wanAddress = b.wanAddress ∧ a.vlanTag = b.vlanTag)
  /-- Where there are references there is an active slot. -/
  complete : ∀ wan vlan, 0 < refs wan vlan →
    ∃ slot ∈ slots, slot.inPort ≠ 0 ∧ slot.wanAddress = wan ∧ slot.vlanTag = vlan

namespace Ledger

variable {slots pre post : List ZyxelServiceParams} {refs : BitVec 32 → BitVec 16 → ℕ}
  {slot : ZyxelServiceParams}

/-- One reference more: the only slot that may be the one of the address and the VLAN is replaced
by a slot that counts one more. -/
theorem replace (h : Ledger (pre ++ slot :: post) refs) (slot' : ZyxelServiceParams)
    (hvlan : slot'.vlanTag ≠ 0) (hactive : slot'.inPort ≠ 0)
    (hcount : slot'.flowCounter.toInt = refs slot'.wanAddress slot'.vlanTag + 1)
    (hother : ∀ x ∈ pre ++ post, x.inPort ≠ 0 →
      ¬ (x.wanAddress = slot'.wanAddress ∧ x.vlanTag = slot'.vlanTag))
    (hslot : slot.inPort ≠ 0 →
      slot.wanAddress = slot'.wanAddress ∧ slot.vlanTag = slot'.vlanTag) :
    Ledger (pre ++ slot' :: post) fun wan vlan =>
      refs wan vlan + if wan = slot'.wanAddress ∧ vlan = slot'.vlanTag then 1 else 0 := by
  -- every slot but the new one has been there before
  have hmem : ∀ x, x ∈ pre ++ slot' :: post → x = slot' ∨ x ∈ pre ++ post ∧
      x ∈ pre ++ slot :: post := by
    intro x hx
    simp only [List.mem_append, List.mem_cons] at hx ⊢
    tauto
  constructor
  · intro x hx hx0
    rcases hmem x hx with rfl | ⟨hx, hx'⟩
    · simp only [and_self, if_true]
      exact ⟨hvlan, Nat.succ_pos _, by rw [hcount]; rfl⟩
    · rw [if_neg (hother x hx hx0)]
      exact h.active x hx' hx0
  · intro x hx hx0
    rcases hmem x hx with rfl | ⟨-, hx'⟩
    · exact absurd hx0 hactive
    · exact h.inactive x hx' hx0
  · have hpair := h.distinct
    rw [List.pairwise_append, List.pairwise_cons] at hpair ⊢
    obtain ⟨hpre, ⟨-, hpost⟩, hcross⟩ := hpair
    refine ⟨hpre, ⟨fun x hx _ hx0 heq => ?_, hpost⟩, fun x hx y hy hx0 hy0 => ?_⟩
    · exact hother x (List.mem_append_right _ hx) hx0 ⟨heq.1.symm, heq.2.symm⟩
    · rcases List.mem_cons.1 hy with rfl | hy
      · exact hother x (List.mem_append_left _ hx) hx0
      · exact hcross x hx y (List.mem_cons_of_mem _ hy) hx0 hy0
  · intro wan vlan hpos
    -- the reference that has come is in the new slot; the others stay where they are
    by_cases hkey : wan = slot'.wanAddress ∧ vlan = slot'.vlanTag
    · exact ⟨slot', by simp, hactive, hkey.1.symm, hkey.2.symm⟩
    · rw [if_neg hkey, Nat.add_zero] at hpos
      obtain ⟨x, hx, hx0, rfl, rfl⟩ := h.complete wan vlan hpos
      refine ⟨x, ?_, hx0, rfl, rfl⟩
      simp only [List.mem_append, List.mem_cons] at hx ⊢
      rcases hx with hx | rfl | hx
      · exact .inl hx
      · exact absurd (hslot hx0) hkey
      · exact .inr (.inr hx)

/-- Two active slots in different places differ in address or VLAN. -/
theorem ne_of_split (h : Ledger (pre ++ slot :: post) refs) (hslot : slot.inPort ≠ 0)
    {x : ZyxelServiceParams} (hx : x ∈ pre ++ post) (hx0 : x.inPort ≠ 0) :
    ¬ (x.wanAddress = slot.wanAddress ∧ x.vlanTag = slot.vlanTag) := by
  have hpair := h.distinct
  rw [List.pairwise_append, List.pairwise_cons] at hpair
  obtain ⟨-, ⟨hpost, -⟩, hcross⟩ := hpair
  rcases List.mem_append.1 hx with hx | hx
  · exact hcross x hx slot List.mem_cons_self hx0 hslot
  · exact fun heq => hpost x hx hslot hx0 ⟨heq.1.symm, heq.2.symm⟩

end Ledger

/-! ### Withdrawals slot by slot -/

/-- The number of flows that the slot counts. -/
def ZyxelServiceParams.count (slot : ZyxelServiceParams) : ℕ := slot.flowCounter.toInt.toNat

/-- The slot is as one that is not in use, up to its priority. -/
structure ZyxelServiceParams.Clear (slot : ZyxelServiceParams) : Prop where
  /-- It has no port. -/
  inPort : slot.inPort = 0
  /-- It has no address. -/
  wanAddress : slot.wanAddress = 0
  /-- It has no mask. -/
  wanMask : slot.wanMask = 0
  /-- It has no VLAN. -/
  vlanTag : slot.vlanTag = 0
  /-- It counts no flows. -/
  flowCounter : slot.flowCounter = 0

/-- The slot is clear, or it is active and counts flows. -/
structure ZyxelServiceParams.Tame (slot : ZyxelServiceParams) : Prop where
  /-- It has no mask. -/
  wanMask : slot.wanMask = 0
  /-- Without a port it is clear. -/
  clear : slot.inPort = 0 → slot.Clear
  /-- With a port it counts flows. -/
  counts : slot.inPort ≠ 0 → 0 < slot.flowCounter.toInt

/-- The slots of a ledger. -/
theorem Ledger.tame {slots : List ZyxelServiceParams} {refs : BitVec 32 → BitVec 16 → ℕ}
    (h : Ledger slots refs) (hmask : ∀ slot ∈ slots, slot.wanMask = 0) {slot : ZyxelServiceParams}
    (hslot : slot ∈ slots) : slot.Tame where
  wanMask := hmask slot hslot
  clear h0 := by
    obtain ⟨hwan, hvlan, hcount⟩ := h.inactive slot hslot h0
    exact ⟨h0, hwan, hmask slot hslot, hvlan, hcount⟩
  counts h0 := by
    obtain ⟨-, hpos, hcount⟩ := h.active slot hslot h0
    omega

namespace ZyxelServiceParams

variable {slot : ZyxelServiceParams}

theorem Clear.count (h : slot.Clear) : slot.count = 0 := by
  rw [ZyxelServiceParams.count, h.flowCounter]
  rfl

/-- Withdrawals leave a clear slot as it is. -/
theorem Clear.withdrawn (h : slot.Clear) : slot.withdrawn = slot := by
  obtain ⟨hport, hwan, hmask, hvlan, hcount⟩ := h
  have hle : ¬ 1 < slot.flowCounter.toInt := by
    rw [hcount]
    decide
  rw [ZyxelServiceParams.withdrawn, if_neg hle]
  cases slot
  simp_all [ZyxelServiceParams.cleared]

theorem Tame.count_eq (h : slot.Tame) (hport : slot.inPort ≠ 0) :
    (slot.count : ℤ) = slot.flowCounter.toInt :=
  Int.toNat_of_nonneg (Int.le_of_lt (h.counts hport))

/-- Fewer withdrawals than the slot counts flows change nothing but the counter. -/
theorem Tame.iterate_lt (h : slot.Tame) {m : ℕ} (hm : m < slot.count) :
    (withdrawn^[m] slot).inPort = slot.inPort ∧
      (withdrawn^[m] slot).wanAddress = slot.wanAddress ∧
      (withdrawn^[m] slot).wanMask = slot.wanMask ∧
      (withdrawn^[m] slot).vlanTag = slot.vlanTag ∧
      (withdrawn^[m] slot).flowCounter.toInt = slot.flowCounter.toInt - m := by
  have hport : slot.inPort ≠ 0 := fun h0 => by
    rw [(h.clear h0).count] at hm
    omega
  have hcount := h.count_eq hport
  induction m with
  | zero => simp
  | succ m ih =>
    obtain ⟨h1, h2, h3, h4, h5⟩ := ih (by omega)
    have hmany : 1 < (withdrawn^[m] slot).flowCounter.toInt := by omega
    rw [Function.iterate_succ_apply', ZyxelServiceParams.withdrawn, if_pos hmany]
    refine ⟨h1, h2, h3, h4, ?_⟩
    rw [countDown, toInt_sub_one (by omega), h5]
    omega

/-- As many withdrawals as the slot counts flows, or more, clear it. -/
theorem Tame.iterate_ge (h : slot.Tame) {m : ℕ} (hm : slot.count ≤ m) :
    (withdrawn^[m] slot).Clear := by
  induction m, hm using Nat.le_induction with
  | base =>
    by_cases hport : slot.inPort = 0
    · rw [(h.clear hport).count]
      exact h.clear hport
    · -- the last flow clears the slot
      have hcount := h.count_eq hport
      have hpos := h.counts hport
      obtain ⟨m, hm⟩ : ∃ m, slot.count = m + 1 := Nat.exists_eq_add_one.2 (by omega)
      obtain ⟨-, -, hmask, -, hlast⟩ := h.iterate_lt (m := m) (by omega)
      have hone : ¬ 1 < (withdrawn^[m] slot).flowCounter.toInt := by omega
      rw [hm, Function.iterate_succ_apply', ZyxelServiceParams.withdrawn, if_neg hone]
      exact ⟨rfl, rfl, rfl, rfl, rfl⟩
  | succ m _ ih =>
    rw [Function.iterate_succ_apply', ih.withdrawn]
    exact ih

/-- Withdrawals beyond the number of flows change nothing. -/
theorem Tame.iterate_min (h : slot.Tame) (m : ℕ) :
    withdrawn^[m] slot = withdrawn^[min slot.count m] slot := by
  rcases Nat.le_total m slot.count with hle | hle
  · rw [Nat.min_eq_right hle]
  · rw [Nat.min_eq_left hle]
    induction m, hle using Nat.le_induction with
    | base => rfl
    | succ m hle ih => rw [Function.iterate_succ_apply', (h.iterate_ge hle).withdrawn, ih]

theorem holds_iff (hmask : slot.wanMask = 0) {wan : BitVec 32} :
    slot.holds wan = true ↔ slot.wanAddress = wan := by
  rw [holds, hmask, Bool.and_eq_true, beq_iff_eq, beq_self_eq_true, eq_self, and_true]
  exact eq_comm

end ZyxelServiceParams

/-- How many flows each slot loses in `n` withdrawals from an address: the first slot with the
address loses the flows that it counts, the next one what is left, and so on. A slot that has been
cleared has the address zero, and takes all further withdrawals from it. -/
def loss (wan : BitVec 32) : ℕ → List ZyxelServiceParams → List ℕ
  | _, [] => []
  | n, slot :: slots =>
      if slot.wanAddress = wan then
        min slot.count n :: loss wan (if wan = 0 then 0 else n - slot.count) slots
      else 0 :: loss wan n slots

/-- Without withdrawals no slot loses anything. -/
theorem zipWith_loss_zero (wan : BitVec 32) (slots : List ZyxelServiceParams) :
    List.zipWith (fun slot m => ZyxelServiceParams.withdrawn^[m] slot) slots (loss wan 0 slots) =
      slots := by
  induction slots with
  | nil => rfl
  | cons slot slots ih =>
    rw [loss]
    split
    · simp [ih]
    · simp [ih]

/-- One withdrawal more. -/
theorem withdraw_zipWith_loss (wan : BitVec 32) {slots : List ZyxelServiceParams}
    (h : ∀ slot ∈ slots, slot.Tame) (n : ℕ) :
    withdraw wan (List.zipWith (fun slot m => ZyxelServiceParams.withdrawn^[m] slot) slots
        (loss wan n slots)) =
      List.zipWith (fun slot m => ZyxelServiceParams.withdrawn^[m] slot) slots
        (loss wan (n + 1) slots) := by
  induction slots generalizing n with
  | nil => rfl
  | cons slot slots ih =>
    have hslot := h slot List.mem_cons_self
    have ih := ih fun x hx => h x (List.mem_cons_of_mem _ hx)
    by_cases hwan : slot.wanAddress = wan
    · simp only [loss, if_pos hwan, List.zipWith_cons_cons, ← hslot.iterate_min, withdraw,
        modifyFirst]
      by_cases hmany : n < slot.count
      · -- the slot still has the address, and loses one flow more
        obtain ⟨-, haddr, hmask, -⟩ := hslot.iterate_lt hmany
        have hholds := (ZyxelServiceParams.holds_iff (hmask.trans hslot.wanMask)).2
          (haddr.trans hwan)
        have hrest : n - slot.count = 0 ∧ n + 1 - slot.count = 0 := by omega
        rw [if_pos hholds, ← Function.iterate_succ_apply' ZyxelServiceParams.withdrawn, hrest.1,
          hrest.2]
      · have hclear := hslot.iterate_ge (Nat.not_lt.1 hmany)
        have hmore := hslot.iterate_ge (m := n + 1) (by omega)
        have hsame : ZyxelServiceParams.withdrawn^[n + 1] slot =
            ZyxelServiceParams.withdrawn^[n] slot := by
          rw [Function.iterate_succ_apply', hclear.withdrawn]
        by_cases hzero : wan = 0
        · -- the slot has been cleared, and takes the withdrawal nevertheless
          subst hzero
          have hholds := (ZyxelServiceParams.holds_iff hclear.wanMask).2 hclear.wanAddress
          rw [if_pos hholds, hclear.withdrawn, hsame]
          simp only [if_true]
        · have hholds : ¬ (ZyxelServiceParams.withdrawn^[n] slot).holds wan = true := fun hh =>
            hzero (((ZyxelServiceParams.holds_iff hclear.wanMask).1 hh).symm.trans
              hclear.wanAddress)
          have hrest : n + 1 - slot.count = n - slot.count + 1 := by omega
          rw [if_neg hholds, hsame, hrest]
          simp only [if_neg hzero]
          exact congrArg _ (ih (n - slot.count))
    · have hholds : ¬ slot.holds wan = true := fun hh =>
        hwan ((ZyxelServiceParams.holds_iff hslot.wanMask).1 hh)
      simp only [loss, if_neg hwan, List.zipWith_cons_cons, Function.iterate_zero, id_eq, withdraw,
        modifyFirst, if_neg hholds]
      exact congrArg _ (ih n)

/-- The array after several withdrawals. -/
theorem iterate_withdraw (wan : BitVec 32) {slots : List ZyxelServiceParams}
    (h : ∀ slot ∈ slots, slot.Tame) (n : ℕ) :
    (withdraw wan)^[n] slots =
      List.zipWith (fun slot m => ZyxelServiceParams.withdrawn^[m] slot) slots
        (loss wan n slots) := by
  induction n with
  | zero => rw [zipWith_loss_zero, Function.iterate_zero, id_eq]
  | succ n ih => rw [Function.iterate_succ_apply', ih, withdraw_zipWith_loss wan h]

/-- Withdrawals keep the ledger when each slot loses as many flows as references are given up. -/
theorem Ledger.withdraw {slots : List ZyxelServiceParams}
    {refs refs' lost : BitVec 32 → BitVec 16 → ℕ} (h : Ledger slots refs)
    (hmask : ∀ slot ∈ slots, slot.wanMask = 0)
    (hrefs : ∀ wan vlan, refs wan vlan = refs' wan vlan + lost wan vlan) {wan : BitVec 32} {n : ℕ}
    (hloss : slots.map (fun slot => lost slot.wanAddress slot.vlanTag) = loss wan n slots) :
    Ledger ((OfAgent.withdraw wan)^[n] slots) refs' := by
  have htame : ∀ slot ∈ slots, slot.Tame := fun slot hslot => h.tame hmask hslot
  rw [iterate_withdraw wan htame, ← hloss, List.zipWith_map_right, List.zipWith_self]
  -- a slot either keeps its port, address and VLAN, or is cleared
  have hslot : ∀ slot ∈ slots,
      (slot.inPort ≠ 0 ∧ 0 < refs' slot.wanAddress slot.vlanTag ∧
        lost slot.wanAddress slot.vlanTag < slot.count) ∨
      (ZyxelServiceParams.withdrawn^[lost slot.wanAddress slot.vlanTag] slot).Clear ∧
        (slot.inPort ≠ 0 → refs' slot.wanAddress slot.vlanTag = 0) := by
    intro slot hslot
    have hsum := hrefs slot.wanAddress slot.vlanTag
    by_cases hport : slot.inPort = 0
    · right
      exact ⟨(htame slot hslot).iterate_ge (by rw [((htame slot hslot).clear hport).count]; omega),
        fun h0 => absurd hport h0⟩
    · obtain ⟨-, hpos, hcount⟩ := h.active slot hslot hport
      have heq := (htame slot hslot).count_eq hport
      by_cases hlt : lost slot.wanAddress slot.vlanTag < slot.count
      · exact .inl ⟨hport, by omega, hlt⟩
      · exact .inr ⟨(htame slot hslot).iterate_ge (Nat.not_lt.1 hlt), fun _ => by omega⟩
  constructor
  · intro x hx hx0
    obtain ⟨slot, hmem, rfl⟩ := List.mem_map.1 hx
    rcases hslot slot hmem with ⟨hport, hpos, hlt⟩ | ⟨hclear, -⟩
    · obtain ⟨-, hwan, -, hvlan, hcount⟩ := (htame slot hmem).iterate_lt hlt
      obtain ⟨hv, -, hc⟩ := h.active slot hmem hport
      rw [hwan, hvlan, hcount, hc, hrefs slot.wanAddress slot.vlanTag]
      exact ⟨hv, hpos, by omega⟩
    · exact absurd hclear.inPort hx0
  · intro x hx hx0
    obtain ⟨slot, hmem, rfl⟩ := List.mem_map.1 hx
    rcases hslot slot hmem with ⟨hport, -, hlt⟩ | ⟨hclear, -⟩
    · rw [((htame slot hmem).iterate_lt hlt).1] at hx0
      exact absurd hx0 hport
    · exact ⟨hclear.wanAddress, hclear.vlanTag, hclear.flowCounter⟩
  · refine List.pairwise_map.2 (h.distinct.imp_of_mem fun {a b} ha hb hne ha0 hb0 => ?_)
    rcases hslot a ha with ⟨hpa, -, hla⟩ | ⟨hclear, -⟩
    · rcases hslot b hb with ⟨hpb, -, hlb⟩ | ⟨hclear, -⟩
      · obtain ⟨-, hwa, -, hva, -⟩ := (htame a ha).iterate_lt hla
        obtain ⟨-, hwb, -, hvb, -⟩ := (htame b hb).iterate_lt hlb
        rw [hwa, hva, hwb, hvb]
        exact hne hpa hpb
      · exact absurd hclear.inPort hb0
    · exact absurd hclear.inPort ha0
  · intro wan' vlan hpos
    obtain ⟨slot, hmem, hport, rfl, rfl⟩ := h.complete wan' vlan
      (by rw [hrefs]; exact Nat.lt_of_lt_of_le hpos (Nat.le_add_right _ _))
    rcases hslot slot hmem with ⟨-, -, hlt⟩ | ⟨-, hnone⟩
    · obtain ⟨hp, hw, -, hv, -⟩ := (htame slot hmem).iterate_lt hlt
      exact ⟨_, List.mem_map_of_mem hmem, hp ▸ hport, hw, hv⟩
    · rw [hnone hport] at hpos
      exact absurd hpos (Nat.lt_irrefl 0)

end OfAgent
