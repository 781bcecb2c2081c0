import OfAgent.Datapath

/-!
# Packet buffers over time

The packets that wait for the controller are kept in slots, which are used in turn; the id of a
packet is its slot with a cookie that counts what has been put there. Ids come from the controller,
which may send them late, twice, or make them up.

* `BufferEvent`, `PacketBuffers.LoggedStep`: what happens to the buffers, and a log of it.
* `PacketBuffers.Records`: the slots hold what the log says.
* `PacketBuffers.retrieve_iff`: exactly what an id is good for, after any run.
* `PacketBuffers.kept_and_fresh`: how long a packet is kept, and how long its id is not given again.
-/

namespace OfAgent

/-- What happens to the packet buffers. -/
inductive BufferEvent
  /-- `save_buffer` at a time in milliseconds. -/
  | save (now : BitVec 64) (packet : List Byte)
  /-- `retrieve_buffer`, or `discard_buffer`. -/
  | retrieve (id : BitVec 32)
  deriving DecidableEq, Repr

/-- What has happened to the packet buffers. -/
inductive BufferRecord
  /-- A packet has been saved, and has got an id. -/
  | saved (id : BitVec 32) (packet : List Byte)
  /-- The packet of an id has been asked for. -/
  | retrieved (id : BitVec 32)
  deriving DecidableEq, Repr

namespace PacketBuffers

/-- The buffers after an event. -/
def next (bs : PacketBuffers) : BufferEvent → PacketBuffers
  | .save now packet => (bs.saveBuffer now packet).1
  | .retrieve id => (bs.retrieveBuffer id).2

/-- What an event leaves in the log. -/
def record (bs : PacketBuffers) : BufferEvent → BufferRecord
  | .save now packet => .saved (bs.saveBuffer now packet).2 packet
  | .retrieve id => .retrieved id

/-- A step, and the log. -/
def LoggedStep (s : PacketBuffers × List BufferRecord) (e : BufferEvent)
    (s' : PacketBuffers × List BufferRecord) : Prop :=
  s'.1 = s.1.next e ∧ s'.2 = s.2 ++ [s.1.record e]

/-! ### Ids -/

/-- The number of different cookies. -/
abbrev numCookies : ℕ := 2 ^ 24 - 1

/-- The id of a slot with a cookie. -/
def idOf (i : Fin nPktBuffers) (cookie : BitVec 32) : BitVec 32 :=
  BitVec.ofNat 32 i ||| cookie <<< 8

variable {i : Fin nPktBuffers} {cookie id id' : BitVec 32}

theorem toNat_idOf (h : cookie.toNat < 2 ^ 24) :
    (idOf i cookie).toNat = i + cookie.toNat * 2 ^ 8 := by
  have hi : (i : ℕ) < 2 ^ 8 := i.isLt
  unfold idOf
  rw [BitVec.toNat_or, BitVec.toNat_shiftLeft, BitVec.toNat_ofNat, Nat.mod_eq_of_lt (by omega),
    Nat.shiftLeft_eq, Nat.mod_eq_of_lt (by omega), Nat.or_comm, ← Nat.shiftLeft_eq,
    ← Nat.shiftLeft_add_eq_or_of_lt hi, Nat.shiftLeft_eq, Nat.add_comm]

theorem slotOf_idOf (h : cookie.toNat < 2 ^ 24) : slotOf (idOf i cookie) = i := by
  have hi : (i : ℕ) < 2 ^ 8 := i.isLt
  ext
  change (idOf i cookie).toNat % 256 = i
  rw [toNat_idOf h]
  omega

theorem ushiftRight_idOf (h : cookie.toNat < 2 ^ 24) : idOf i cookie >>> 8 = cookie := by
  have hi : (i : ℕ) < 2 ^ 8 := i.isLt
  apply BitVec.eq_of_toNat_eq
  rw [BitVec.toNat_ushiftRight, toNat_idOf h, Nat.shiftRight_eq_div_pow]
  omega

theorem idOf_slotOf (id : BitVec 32) : idOf (slotOf id) (id >>> 8) = id := by
  have hcookie : (id >>> 8).toNat = id.toNat / 2 ^ 8 := by
    rw [BitVec.toNat_ushiftRight, Nat.shiftRight_eq_div_pow]
  have hlt := id.isLt
  apply BitVec.eq_of_toNat_eq
  rw [toNat_idOf (by omega), hcookie]
  change id.toNat % 256 + _ = _
  omega

/-- No packet has the id of no buffer: the greatest cookie is not used. -/
theorem idOf_ne_noBuffer (h : cookie.toNat < numCookies) : idOf i cookie ≠ noBuffer := by
  intro heq
  have hcookie : idOf i cookie >>> 8 = cookie := ushiftRight_idOf (Nat.lt_succ_of_lt h)
  rw [heq] at hcookie
  rw [← hcookie] at h
  exact absurd h (by decide)

/-- The cookie after another one, in `save_buffer`. -/
def nextCookie (cookie : BitVec 32) : BitVec 32 :=
  if cookie + 1 ≥ (1 <<< 24) - 1 then 0 else cookie + 1

theorem toNat_nextCookie_lt (cookie : BitVec 32) : (nextCookie cookie).toNat < numCookies := by
  unfold nextCookie
  split
  next => decide
  next hlt => exact BitVec.lt_def.1 (BitVec.not_le.1 hlt)

/-- Cookies are counted up, round and round. -/
theorem toNat_nextCookie (h : cookie.toNat < numCookies) :
    (nextCookie cookie).toNat = (cookie.toNat + 1) % numCookies := by
  have hsucc : (cookie + 1).toNat = cookie.toNat + 1 := by
    rw [BitVec.toNat_add, Nat.mod_eq_of_lt]
    · rfl
    · exact Nat.lt_of_le_of_lt h (by decide)
  unfold nextCookie
  split
  next hle =>
    have hle' : numCookies ≤ (cookie + 1).toNat := BitVec.le_def.1 hle
    have hlast : cookie.toNat + 1 = numCookies := by omega
    rw [hlast, Nat.mod_self]
    rfl
  next hlt =>
    have hlt' : (cookie + 1).toNat < numCookies := BitVec.lt_def.1 (BitVec.not_le.1 hlt)
    rw [hsucc] at hlt' ⊢
    exact (Nat.mod_eq_of_lt hlt').symm

/-! ### What the operations do -/

variable {bs : PacketBuffers} {now : BitVec 64} {packet p : List Byte}

/-- The slot is one that `save_buffer` does not overwrite. -/
def Refuses (bs : PacketBuffers) (now : BitVec 64) (i : Fin nPktBuffers) : Prop :=
  (bs.slots i).buffer.isSome = true ∧ timeNow now < (bs.slots i).timeout

theorem saveBuffer_of_refuses (h : bs.Refuses now (bs.bufferIdx + 1)) :
    bs.saveBuffer now packet = ({ bs with bufferIdx := bs.bufferIdx + 1 }, noBuffer) := by
  unfold saveBuffer
  simp only
  rw [if_pos]
  simpa [Refuses] using h

/-- A packet that is put into the next slot. -/
theorem saveBuffer_of_not_refuses (h : ¬ bs.Refuses now (bs.bufferIdx + 1)) :
    bs.saveBuffer now packet =
      ({ slots := Function.update bs.slots (bs.bufferIdx + 1)
          ⟨some packet, nextCookie (bs.slots (bs.bufferIdx + 1)).cookie, timeNow now + 1⟩
         bufferIdx := bs.bufferIdx + 1 },
        idOf (bs.bufferIdx + 1) (nextCookie (bs.slots (bs.bufferIdx + 1)).cookie)) := by
  unfold saveBuffer
  simp only
  rw [if_neg]
  · rfl
  · simpa [Refuses] using h

/-- The slot of an id with the right cookie is emptied. -/
theorem retrieveBuffer_of_cookie (h : (bs.slots (slotOf id)).cookie = id >>> 8) :
    bs.retrieveBuffer id = ((bs.slots (slotOf id)).buffer,
      { bs with
        slots := Function.update bs.slots (slotOf id)
          { bs.slots (slotOf id) with buffer := none } }) := by
  unfold retrieveBuffer
  exact if_pos h

theorem retrieveBuffer_of_ne (h : (bs.slots (slotOf id)).cookie ≠ id >>> 8) :
    bs.retrieveBuffer id = (none, bs) := by
  unfold retrieveBuffer
  exact if_neg h

theorem retrieveBuffer_eq_some_iff :
    (bs.retrieveBuffer id).1 = some p ↔
      (bs.slots (slotOf id)).cookie = id >>> 8 ∧ (bs.slots (slotOf id)).buffer = some p := by
  by_cases hcookie : (bs.slots (slotOf id)).cookie = id >>> 8
  · rw [retrieveBuffer_of_cookie hcookie]
    exact (and_iff_right hcookie).symm
  · rw [retrieveBuffer_of_ne hcookie]
    exact iff_of_false (fun h => by cases h) fun h => hcookie h.1

/-- After a packet has been saved, its id leads to it, and ids of other slots to what they led to
before. -/
theorem retrieve_saveBuffer_iff :
    (((bs.saveBuffer now packet).1).retrieveBuffer id).1 = some p ↔
      ((bs.saveBuffer now packet).2 = id ∧ packet = p ∧ id ≠ noBuffer) ∨
        ¬ ((bs.saveBuffer now packet).2 ≠ noBuffer ∧
          slotOf (bs.saveBuffer now packet).2 = slotOf id) ∧
            (bs.retrieveBuffer id).1 = some p := by
  by_cases hrefuses : bs.Refuses now (bs.bufferIdx + 1)
  · rw [saveBuffer_of_refuses hrefuses, retrieveBuffer_eq_some_iff, retrieveBuffer_eq_some_iff]
    constructor
    · exact fun h => .inr ⟨fun hne => hne.1 rfl, h⟩
    · rintro (⟨hid, -, hne⟩ | ⟨-, h⟩)
      · exact absurd hid.symm hne
      · exact h
  · rw [saveBuffer_of_not_refuses hrefuses]
    generalize hc : nextCookie (bs.slots (bs.bufferIdx + 1)).cookie = c
    have hlt : c.toNat < numCookies := hc ▸ toNat_nextCookie_lt _
    have hne := idOf_ne_noBuffer (i := bs.bufferIdx + 1) hlt
    have hlt' : c.toNat < 2 ^ 24 := Nat.lt_succ_of_lt hlt
    rw [retrieveBuffer_eq_some_iff, retrieveBuffer_eq_some_iff]
    simp only [slotOf_idOf hlt', hne, ne_eq, not_false_eq_true, true_and]
    by_cases hslot : bs.bufferIdx + 1 = slotOf id
    · rw [hslot, Function.update_self]
      simp only [not_true_eq_false, false_and, or_false, Option.some.injEq]
      constructor
      · rintro ⟨hcookie, hp⟩
        have hid : idOf (slotOf id) c = id := by rw [hcookie, idOf_slotOf]
        exact ⟨hid, hp, hid ▸ hslot ▸ hne⟩
      · rintro ⟨hid, hp, -⟩
        exact ⟨hid ▸ (ushiftRight_idOf hlt').symm, hp⟩
    · rw [Function.update_of_ne (Ne.symm hslot)]
      have hid : idOf (bs.bufferIdx + 1) c ≠ id := fun heq =>
        hslot (by rw [← heq, slotOf_idOf hlt'])
      simp only [hid, false_and, hslot, not_false_eq_true, true_and, false_or]

/-- After a packet has been asked for, its id leads nowhere, and other ids to what they led to
before. -/
theorem retrieve_retrieveBuffer_iff :
    (((bs.retrieveBuffer id).2).retrieveBuffer id').1 = some p ↔
      id ≠ id' ∧ (bs.retrieveBuffer id').1 = some p := by
  by_cases hcookie : (bs.slots (slotOf id)).cookie = id >>> 8
  · rw [retrieveBuffer_of_cookie hcookie, retrieveBuffer_eq_some_iff, retrieveBuffer_eq_some_iff]
    by_cases hslot : slotOf id = slotOf id'
    · simp only [← hslot, Function.update_self, reduceCtorEq, and_false, false_iff, not_and]
      -- two ids of a slot have different cookies
      intro hne hcookie'
      refine absurd ?_ hne
      rw [← idOf_slotOf id, ← idOf_slotOf id', ← hcookie, ← hcookie', hslot]
    · simp only [Function.update_of_ne (Ne.symm hslot)]
      exact (and_iff_right fun heq => hslot (congrArg slotOf heq)).symm
  · rw [retrieveBuffer_of_ne hcookie]
    refine ⟨fun h => ⟨fun heq => hcookie ?_, h⟩, fun h => h.2⟩
    rw [heq]
    exact (retrieveBuffer_eq_some_iff.1 h).1

/-! ### What an id is good for -/

/-- What ends the use of an id: its packet is asked for, or its slot is used again. -/
def Ends (id : BitVec 32) : BufferRecord → Prop
  | .saved id' _ => id' ≠ noBuffer ∧ slotOf id' = slotOf id
  | .retrieved id' => id' = id

/-- The slots hold what the log says. -/
def Accounts (bs : PacketBuffers) (log : List BufferRecord) : Prop :=
  ∀ id p, (bs.retrieveBuffer id).1 = some p ↔
    Transition.Since (fun _ r => r = .saved id p ∧ id ≠ noBuffer) (fun _ r => Ends id r) log

variable {log : List BufferRecord}

theorem accounts_init : Accounts init [] := fun _ _ =>
  iff_of_false (fun h => by cases (retrieveBuffer_eq_some_iff.1 h).2) Transition.not_since_nil

/-- Every event keeps the account. -/
theorem Accounts.next (h : Accounts bs log) (e : BufferEvent) :
    Accounts (bs.next e) (log ++ [bs.record e]) := by
  intro id p
  rw [Transition.since_concat, ← h id p]
  cases e with
  | save now packet =>
    refine retrieve_saveBuffer_iff.trans (or_congr ?_ Iff.rfl)
    rw [record, BufferRecord.saved.injEq, and_assoc]
  | retrieve id' =>
    refine retrieve_retrieveBuffer_iff.trans ?_
    simp only [record, reduceCtorEq, false_and, false_or]
    exact Iff.rfl

/-- **Exactly what ids are good for.** Packets are saved and asked for in any order, with any ids.
An id leads to a packet exactly when this packet has got the id, and since then neither has the id
been asked for nor has the slot been used again: every packet is handed out once at most, under its
own id only, and an id that has never been given, or that of no buffer, leads nowhere. -/
theorem retrieve_iff (h : Transition.Reachable LoggedStep (init, []) (bs, log)) (id : BitVec 32)
    (p : List Byte) :
    (bs.retrieveBuffer id).1 = some p ↔
      Transition.Since (fun _ r => r = .saved id p ∧ id ≠ noBuffer) (fun _ r => Ends id r) log := by
  have haccounts : Accounts bs log := by
    refine h.invariant (fun s => Accounts s.1 s.2) accounts_init fun s e s' hs _ hstep => ?_
    rw [hstep.1, hstep.2]
    exact hs.next e
  exact haccounts id p

/-- Packets that are saved and asked for, the first one twice. -/
theorem retrieve_iff_twice :
    let s := [BufferEvent.save 0 [1], .save 0 [2], .retrieve 257].foldl
      (fun s e => (s.1.next e, s.2 ++ [s.1.record e])) (init, [])
    Transition.Since (fun _ r => r = .saved 258 [2] ∧ (258 : BitVec 32) ≠ noBuffer)
        (fun _ r => Ends 258 r) s.2 ∧
      ¬ ∃ p, Transition.Since (fun _ r => r = .saved 257 p ∧ (257 : BitVec 32) ≠ noBuffer)
        (fun _ r => Ends 257 r) s.2 := by
  intro s
  have hreach : Transition.Reachable LoggedStep (init, []) (s.1, s.2) :=
    ((Transition.Reachable.step .refl (e := .save 0 [1]) ⟨rfl, rfl⟩).step (e := .save 0 [2])
      ⟨rfl, rfl⟩).step (e := .retrieve 257) ⟨rfl, rfl⟩
  constructor
  · exact (retrieve_iff hreach 258 [2]).1 (by decide +kernel)
  · rintro ⟨p, hp⟩
    have hp' := (retrieve_iff hreach 257 p).2 hp
    have hnone : (s.1.retrieveBuffer 257).1 = none := by decide +kernel
    rw [hnone] at hp'
    cases hp'

/-! ### How long -/

/-- The buffers after a list of events. -/
def run (bs : PacketBuffers) (es : List BufferEvent) : PacketBuffers := es.foldl next bs

/-- How many packets the events save, or try to. -/
def saves (es : List BufferEvent) : ℕ :=
  es.countP fun
    | .save _ _ => true
    | .retrieve _ => false

variable {es : List BufferEvent} {now' : BitVec 64} {packet' : List Byte} {bs' : PacketBuffers}

theorem run_concat (bs : PacketBuffers) (es : List BufferEvent) (e : BufferEvent) :
    bs.run (es ++ [e]) = (bs.run es).next e := List.foldl_concat ..

theorem saves_concat_save :
    saves (es ++ [.save now' packet']) = saves es + 1 := by
  unfold saves
  rw [List.countP_append]
  rfl

theorem saves_concat_retrieve : saves (es ++ [.retrieve id']) = saves es := by
  unfold saves
  rw [List.countP_append]
  rfl

theorem bufferIdx_saveBuffer : (bs.saveBuffer now packet).1.bufferIdx = bs.bufferIdx + 1 := by
  by_cases hrefuses : bs.Refuses now (bs.bufferIdx + 1)
  · rw [saveBuffer_of_refuses hrefuses]
  · rw [saveBuffer_of_not_refuses hrefuses]

theorem bufferIdx_retrieveBuffer : (bs.retrieveBuffer id).2.bufferIdx = bs.bufferIdx := by
  by_cases hcookie : (bs.slots (slotOf id)).cookie = id >>> 8
  · rw [retrieveBuffer_of_cookie hcookie]
  · rw [retrieveBuffer_of_ne hcookie]

/-- The slot that a run has come to. -/
theorem bufferIdx_run (bs : PacketBuffers) (es : List BufferEvent) :
    ((bs.run es).bufferIdx : ℕ) = (bs.bufferIdx + saves es) % nPktBuffers := by
  induction es using List.reverseRecOn with
  | nil => exact (Nat.mod_eq_of_lt bs.bufferIdx.isLt).symm
  | append_singleton es e ih =>
    rw [run_concat]
    cases e with
    | save now packet =>
      rw [saves_concat_save, next, bufferIdx_saveBuffer, Fin.val_add, ih]
      change (_ + 1) % nPktBuffers = _
      rw [Nat.mod_add_mod, Nat.add_assoc]
    | retrieve id => rw [saves_concat_retrieve, next, bufferIdx_retrieveBuffer, ih]

theorem exists_saves_eq (hidx : bs.bufferIdx = i) (hturn : (bs.run es).bufferIdx + 1 = i) :
    ∃ rounds, saves es + 1 = rounds * nPktBuffers := by
  have hval := congrArg Fin.val hturn
  rw [Fin.val_add, bufferIdx_run, hidx] at hval
  change ((i + saves es) % 256 + 1) % 256 = i at hval
  have hi : (i : ℕ) < 256 := i.isLt
  exact ⟨(saves es + 1) / 256, by change _ = _ * 256; omega⟩

/-- A slot is left alone by an id that is not its own. -/
theorem slots_retrieveBuffer (h : idOf i (bs.slots i).cookie ≠ id) :
    (bs.retrieveBuffer id).2.slots i = bs.slots i := by
  by_cases hcookie : (bs.slots (slotOf id)).cookie = id >>> 8
  · rw [retrieveBuffer_of_cookie hcookie]
    refine Function.update_of_ne (fun hslot => h ?_) _ _
    rw [hslot, hcookie, idOf_slotOf]
  · rw [retrieveBuffer_of_ne hcookie]

/-- So it is by a packet that is put elsewhere, or nowhere. -/
theorem slots_saveBuffer (h : bs.bufferIdx + 1 = i → bs.Refuses now i) :
    (bs.saveBuffer now packet).1.slots i = bs.slots i := by
  by_cases hrefuses : bs.Refuses now (bs.bufferIdx + 1)
  · rw [saveBuffer_of_refuses hrefuses]
  · rw [saveBuffer_of_not_refuses hrefuses]
    refine Function.update_of_ne (fun hslot => hrefuses ?_) _ _
    rw [← hslot]
    exact h hslot.symm

/-- What a packet that gets an id leaves behind. -/
theorem saved_of_ne (h : bs.saveBuffer now packet = (bs', id)) (hid : id ≠ noBuffer) :
    bs'.bufferIdx = slotOf id ∧ bs'.slots (slotOf id) = ⟨some packet, id >>> 8, timeNow now + 1⟩ ∧
      (id >>> 8).toNat < numCookies := by
  by_cases hrefuses : bs.Refuses now (bs.bufferIdx + 1)
  · rw [saveBuffer_of_refuses hrefuses] at h
    exact absurd (Prod.mk.inj h).2.symm hid
  · rw [saveBuffer_of_not_refuses hrefuses] at h
    obtain ⟨rfl, rfl⟩ := Prod.mk.inj h
    have hlt := toNat_nextCookie_lt (bs.slots (bs.bufferIdx + 1)).cookie
    rw [slotOf_idOf (Nat.lt_succ_of_lt hlt), ushiftRight_idOf (Nat.lt_succ_of_lt hlt)]
    exact ⟨rfl, Function.update_self .., hlt⟩

/-- A packet stays in its slot until it is asked for, the slot's next turn, or a second later. -/
theorem slots_run (hidx : bs.bufferIdx = slotOf id)
    (hslot : bs.slots (slotOf id) = ⟨some packet, id >>> 8, timeNow now + 1⟩)
    (hid : .retrieve id ∉ es)
    (hearly : saves es < nPktBuffers ∨
      ∀ now' packet', .save now' packet' ∈ es → timeNow now' < timeNow now + 1) :
    (bs.run es).slots (slotOf id) = ⟨some packet, id >>> 8, timeNow now + 1⟩ := by
  induction es using List.reverseRecOn with
  | nil => exact hslot
  | append_singleton es e ih =>
    have hid' : .retrieve id ∉ es := fun hmem => hid (List.mem_append_left _ hmem)
    rw [run_concat]
    cases e with
    | save now' packet' =>
      rw [saves_concat_save] at hearly
      have hih := ih hid' (hearly.imp (fun hlt => Nat.lt_of_succ_lt hlt)
        fun hall now' packet' hmem => hall now' packet' (List.mem_append_left _ hmem))
      rw [next, slots_saveBuffer, hih]
      -- when it is the slot's turn again, the packet is still young
      intro hturn
      refine ⟨by rw [hih]; rfl, ?_⟩
      rw [hih]
      rcases hearly with hlt | hall
      · obtain ⟨rounds, hrounds⟩ := exists_saves_eq hidx hturn
        rw [hrounds] at hlt
        have hpos : 0 < rounds := Nat.pos_of_ne_zero fun hzero => by simp [hzero] at hrounds
        exact absurd hlt (Nat.not_lt.2 (Nat.le_mul_of_pos_left _ hpos))
      · exact hall now' packet' (by simp)
    | retrieve id' =>
      rw [saves_concat_retrieve] at hearly
      have hih := ih hid' (hearly.imp_right fun hall now' packet' hmem =>
        hall now' packet' (List.mem_append_left _ hmem))
      have hne : id ≠ id' := fun heq => hid (by simp [heq])
      rw [next, slots_retrieveBuffer, hih]
      rw [hih, idOf_slotOf]
      exact hne

/-- The cookie of a slot counts the packets that have been put there. -/
theorem cookie_run (hidx : bs.bufferIdx = i) (hlt : (bs.slots i).cookie.toNat < numCookies)
    (es : List BufferEvent) :
    ∃ n, n * nPktBuffers ≤ saves es ∧
      ((bs.run es).slots i).cookie.toNat = ((bs.slots i).cookie.toNat + n) % numCookies := by
  induction es using List.reverseRecOn with
  | nil => exact ⟨0, Nat.le_of_eq (Nat.zero_mul _), (Nat.mod_eq_of_lt hlt).symm⟩
  | append_singleton es e ih =>
    obtain ⟨n, hn, hcookie⟩ := ih
    rw [run_concat]
    cases e with
    | save now packet =>
      rw [saves_concat_save, next]
      by_cases hput : (bs.run es).bufferIdx + 1 = i ∧ ¬ (bs.run es).Refuses now i
      · obtain ⟨hturn, hnot⟩ := hput
        refine ⟨n + 1, ?_, ?_⟩
        · obtain ⟨rounds, hrounds⟩ := exists_saves_eq hidx hturn
          rw [hrounds]
          refine Nat.mul_le_mul_right _ (Nat.lt_of_mul_lt_mul_right (a := nPktBuffers) ?_)
          rw [← hrounds]
          exact Nat.lt_succ_of_le hn
        · rw [saveBuffer_of_not_refuses (hturn.symm ▸ hnot), hturn]
          simp only [Function.update_self]
          rw [toNat_nextCookie, hcookie, Nat.mod_add_mod, Nat.add_assoc]
          rw [hcookie]
          exact Nat.mod_lt _ (by decide)
      · refine ⟨n, Nat.le_succ_of_le hn, ?_⟩
        rw [slots_saveBuffer, hcookie]
        exact fun hturn => not_not.1 fun hnot => hput ⟨hturn, hnot⟩
    | retrieve id =>
      rw [saves_concat_retrieve, next]
      refine ⟨n, hn, hcookie ▸ ?_⟩
      by_cases h : ((bs.run es).slots (slotOf id)).cookie = id >>> 8
      · rw [retrieveBuffer_of_cookie h]
        simp only
        rw [Function.update_apply]
        split
        next heq => rw [heq]
        next => rfl
      · rw [retrieveBuffer_of_ne h]

/-- **How long a packet is kept, and its id.** A packet that has got an id can be had under it until
it is asked for, as long as fewer than 256 packets have been saved after it, or all of these within
the second. Its id is not given again before 256 · (2 ^ 24 - 1) packets have been saved, so that no
id that comes late, by fewer packets, leads to another one. -/
theorem kept_and_fresh (h : bs.saveBuffer now packet = (bs', id)) (hid : id ≠ noBuffer)
    (es : List BufferEvent) :
    (.retrieve id ∉ es → (saves es < nPktBuffers ∨
        ∀ now' packet', .save now' packet' ∈ es → timeNow now' < timeNow now + 1) →
      ((bs'.run es).retrieveBuffer id).1 = some packet) ∧
    (∀ now' packet', ((bs'.run es).saveBuffer now' packet').2 = id →
      nPktBuffers * numCookies ≤ saves es + 1) := by
  obtain ⟨hidx, hslot, hlt⟩ := saved_of_ne h hid
  constructor
  · intro hes hearly
    have hrun := slots_run hidx hslot hes hearly
    exact retrieveBuffer_eq_some_iff.2 ⟨by rw [hrun], by rw [hrun]⟩
  · intro now' packet' hagain
    obtain ⟨n, hn, hcookie⟩ := cookie_run hidx (by rw [hslot]; exact hlt) es
    have hrefuses : ¬ (bs'.run es).Refuses now' ((bs'.run es).bufferIdx + 1) := by
      intro hrefuses
      rw [saveBuffer_of_refuses hrefuses] at hagain
      exact hid hagain.symm
    rw [saveBuffer_of_not_refuses hrefuses] at hagain
    have hnew := toNat_nextCookie_lt ((bs'.run es).slots ((bs'.run es).bufferIdx + 1)).cookie
    -- the slot has come round, and so have its cookies
    have hturn : (bs'.run es).bufferIdx + 1 = slotOf id := by
      rw [← hagain, slotOf_idOf (Nat.lt_succ_of_lt hnew)]
    simp only [hturn] at hagain hnew
    have hsame : nextCookie ((bs'.run es).slots (slotOf id)).cookie = id >>> 8 := by
      rw [← ushiftRight_idOf (Nat.lt_succ_of_lt hnew), hagain]
    replace hsame := congrArg BitVec.toNat hsame
    rw [toNat_nextCookie (hcookie ▸ Nat.mod_lt _ (by decide)), hcookie, hslot, Nat.mod_add_mod]
      at hsame
    obtain ⟨rounds, hrounds⟩ := exists_saves_eq hidx hturn
    have hlast : n < rounds := by
      refine Nat.lt_of_mul_lt_mul_right (a := nPktBuffers) ?_
      rw [← hrounds]
      exact Nat.lt_succ_of_le hn
    have hround : numCookies ≤ n + 1 := by
      change ((id >>> 8).toNat + n + 1) % 16777215 = (id >>> 8).toNat at hsame
      change (id >>> 8).toNat < 16777215 at hlt
      change 16777215 ≤ n + 1
      omega
    rw [hrounds, Nat.mul_comm]
    exact Nat.mul_le_mul_right _ (hround.trans hlast)

/-- A packet that is kept while others are saved and asked for. -/
theorem kept_and_fresh_first :
    ((((init.saveBuffer 0 [1]).1.run [.save 5 [2], .retrieve 258, .save 3000 [3]]).retrieveBuffer
      257).1 = some [1]) :=
  have hsave : init.saveBuffer 0 [1] = ((init.saveBuffer 0 [1]).1, 257) :=
    Prod.ext rfl (by decide +kernel)
  (kept_and_fresh hsave (by decide) _).1 (by decide) (.inl (by decide))

end PacketBuffers

end OfAgent
