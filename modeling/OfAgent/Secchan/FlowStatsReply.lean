import OfAgent.Secchan.LearningSwitch
import Mathlib.Computability.StateTransition

/-!
# Walks over the statistics of flows

The two loops in which the learning switch goes through a reply with the statistics of flows, with
nothing but a number of turns to stop them: the one over the flows, of `process_stats_reply`, and
the one over the actions of a flow, of `process_flow_stats`.

* `Completes`: a computation comes to its end and reads only the first bytes of the message; there
  is a rule for each operation.
* `Inspect.nextAction`, `Inspect.nextFlowStats`: where a loop goes from where it is.
* `Inspect.EndsInside`: some number of turns is enough, and only the message is read.
* `Inspect.endsInside_iff`: that is so exactly when the loop over actions never comes to an action
  at which it stays (`Inspect.Advances`). `flow_stats_next` always gets on, as it refuses lengths
  that are too small; the loop over actions has no such check.
-/

namespace OfAgent

open Monitored StateTransition

/-! ### Computations that end -/

/-- The computation does not stop, reads only the first `size` bytes of a message, and its value
satisfies `P`. -/
def Completes {α : Type} (size : ℕ) (x : InspectM α) (P : α → Prop) : Prop :=
  Meets x ⟨Access.Within size, fun _ => False⟩ (fun a _ => P a) ⟨⟩

section Rules

variable {α β : Type} {size off : ℕ} {m : Memory} {x : InspectM α} {f : α → InspectM β}
  {P Q : α → Prop} {R : β → Prop}

/-- A value alone. -/
@[simp]
theorem completes_pure (a : α) : Completes size (pure a) P ↔ P a := by simp [Completes]

/-- A computation and what follows it. -/
@[simp]
theorem completes_bind :
    Completes size (x >>= f) R ↔ Completes size x fun a => Completes size (f a) R := by
  simp [Completes]

/-- A stop. -/
@[simp]
theorem not_completes_fail (e : InspectFault) :
    ¬ Completes size (Monitored.fail e : InspectM α) P := by
  simp [Completes]

theorem completes_ite {p : Prop} [Decidable p] {y : InspectM α} :
    Completes size (if p then x else y) P ↔
      (p → Completes size x P) ∧ (¬ p → Completes size y P) := meets_ite

theorem Completes.mono (h : Completes size x P) (hP : ∀ a, P a → Q a) : Completes size x Q :=
  Meets.mono h fun a _ => hP a

/-- A computation that ends has a value, so that a demand on none is true. -/
theorem completes_const_iff {p : Prop} :
    (Completes size x fun _ => p) ↔ (Completes size x fun _ => True) ∧ p := by
  unfold Completes Meets
  rcases (x ⟨⟩).2 with e | ⟨a, s⟩
  · simp
  · simp

/-- A 16-bit number. -/
@[simp]
theorem completes_read16 {P : BitVec 16 → Prop} :
    Completes size (Inspect.read16 m off) P ↔ off + 2 ≤ size ∧ P (m.get16 off) := by
  simp [Completes, Inspect.read16, Access.Within]

/-- A 32-bit number. -/
@[simp]
theorem completes_read32 {P : BitVec 32 → Prop} :
    Completes size (Inspect.read32 m off) P ↔ off + 4 ≤ size ∧ P (m.get32 off) := by
  simp [Completes, Inspect.read32, Access.Within]

/-- Some bytes. -/
@[simp]
theorem completes_readBytes {P : List Byte → Prop} (n : ℕ) :
    Completes size (Inspect.readBytes m off n) P ↔ off + n ≤ size ∧ P (m.slice off n) := by
  simp [Completes, Inspect.readBytes, Access.Within]

/-- The length in the header, which must be that of the structure at least. -/
@[simp]
theorem completes_lengthWithout {P : ℕ → Prop} (n : ℕ) :
    Completes size (Inspect.lengthWithout m n) P ↔
      4 ≤ size ∧ n ≤ (m.get16 2).toNat ∧ P ((m.get16 2).toNat - n) := by
  simp [Completes, Inspect.lengthWithout, Inspect.read16, Access.Within]

/-- What follows a computation has to be known for the values only that it can have. -/
theorem bind_eq_bind_of_readsWithin {g : α → InspectM β}
    (h : ReadsWithin size x fun a => f a = g a) : x >>= f = x >>= g := by
  funext s
  exact bind_eq_bind_of_meets (Meets.mono h fun a s' hfg => congrFun hfg s')

theorem pure_bind_eq (a : α) : pure a >>= f = f a := by
  funext s
  rfl

/-- What follows a read of a number has to be known for this number only. -/
theorem read16_bind_eq_bind {f g : BitVec 16 → InspectM α}
    (h : f (m.get16 off) = g (m.get16 off)) :
    Inspect.read16 m off >>= f = Inspect.read16 m off >>= g :=
  bind_eq_bind_of_readsWithin (Inspect.readsWithin_read16.2 ⟨le_rfl, h⟩)

theorem read32_bind_eq_bind {f g : BitVec 32 → InspectM α}
    (h : f (m.get32 off) = g (m.get32 off)) :
    Inspect.read32 m off >>= f = Inspect.read32 m off >>= g :=
  bind_eq_bind_of_readsWithin (Inspect.readsWithin_read32.2 ⟨le_rfl, h⟩)

end Rules

namespace Inspect

variable (m : Memory) (sw : Lswitch)

/-! ### The loops -/

/-- The loop over actions of `process_flow_stats` again, which is stopped after some turns. -/
def anyOutputIn (stop : ℕ) : ℕ → ℕ → InspectM Bool
  | 0, _ => Monitored.fail .endless
  | turns + 1, a =>
      if a < stop then do
        let len ← read16 m (a + 2)
        if stop - a < len.toNat then pure false
        else if len.toNat % 8 ≠ 0 then pure false
        else do
          let type ← read16 m a
          if type = ofpatOutput then do
            let port ← read16 m (a + 4)
            if sw.maySend port then anyOutputIn stop turns (a + len.toNat) else pure true
          else anyOutputIn stop turns (a + len.toNat)
      else pure false

/-- `process_flow_stats`, with a number of turns for its loop. -/
def processFlowStatsIn (turns ofs : ℕ) : InspectM PUnit := do
  let length ← read16 m ofs
  let actions := ofs + sizeofOfpFlowStats
  let stop := ofs + length.toNat
  let wildcards ← read32 m (ofs + 4)
  let noRecv ← if wildcards &&& ofpfwInPort = 0 then do
      let inPort ← read16 m (ofs + 8)
      pure (!sw.mayRecv inPort (actions < stop))
    else pure false
  let delete ← if noRecv then pure true else anyOutputIn m sw stop turns actions
  if delete then do
    let _ ← readBytes m (ofs + 4) 40
    pure ⟨⟩
  else pure ⟨⟩

/-- `flow_stats_next` and the loop of `process_stats_reply`, with a number of turns for the loop
inside it, and one for itself. -/
def processAllFlowStatsIn (inner stop : ℕ) : ℕ → ℕ → InspectM PUnit
  | 0, _ => Monitored.fail .endless
  | turns + 1, pos =>
      if stop - pos < sizeofOfpFlowStats then pure ⟨⟩
      else do
        let length ← read16 m pos
        if length.toNat < sizeofOfpFlowStats ∨ stop - pos < length.toNat
            ∨ (length.toNat - sizeofOfpFlowStats) % sizeofOfpActionHeader ≠ 0 then pure ⟨⟩
        else do
          processFlowStatsIn m sw inner pos
          processAllFlowStatsIn inner stop turns (pos + length.toNat)

/-- `process_stats_reply`, with a number of turns for each of its loops. -/
def processStatsReplyIn (turns : ℕ) : InspectM Lswitch :=
  if sw.queried then do
    let type ← read16 m 8
    if type = ofpstFlow then do
      let xid ← read32 m 4
      if xid = sw.queryXid then do
        let length ← lengthWithout m sizeofOfpStatsReply
        processAllFlowStatsIn m sw turns (sizeofOfpStatsReply + length) turns sizeofOfpStatsReply
        let flags ← read16 m 10
        pure { sw with queried := flags &&& ofpsfReplyMore != 0 }
      else pure sw
    else pure sw
  else pure sw

/-- The loops come to their ends, and only the message is read. -/
def EndsInside (msg : OfpMessage) (sw : Lswitch) : Prop :=
  ∃ turns, Completes msg.length (processStatsReplyIn msg.mem sw turns) fun _ => True

/-! ### Where the loops go -/

/-- The offset at which the loop over actions goes on, if it does. -/
def nextAction (stop a : ℕ) : Option ℕ :=
  let len := (m.get16 (a + 2)).toNat
  if a < stop ∧ len ≤ stop - a ∧ len % 8 = 0 ∧
      (m.get16 a = ofpatOutput → sw.maySend (m.get16 (a + 4)) = true) then
    some (a + len)
  else none

/-- The position behind the flow that `flow_stats_next` returns, if it returns one. -/
def nextFlowStats (stop pos : ℕ) : Option ℕ :=
  let length := (m.get16 pos).toNat
  if stop - pos < sizeofOfpFlowStats ∨ length < sizeofOfpFlowStats ∨ stop - pos < length
      ∨ (length - sizeofOfpFlowStats) % sizeofOfpActionHeader ≠ 0 then none
  else some (pos + length)

/-- The flow is deleted as its port does not receive, before the actions are looked at. -/
def NoRecv (ofs : ℕ) : Prop :=
  m.get32 (ofs + 4) &&& ofpfwInPort = 0 ∧
    sw.mayRecv (m.get16 (ofs + 8)) (ofs + sizeofOfpFlowStats < ofs + (m.get16 ofs).toNat) = false

/-- The loop over the actions of a flow never stays where it is. -/
def ActionsAdvance (ofs : ℕ) : Prop :=
  ∀ a, Reaches (nextAction m sw (ofs + (m.get16 ofs).toNat)) (ofs + sizeofOfpFlowStats) a →
    nextAction m sw (ofs + (m.get16 ofs).toNat) a ≠ some a

/-- If the reply is looked at, then its flows are deleted for their ports, or the loop over their
actions never stays where it is. -/
def Advances (msg : OfpMessage) (sw : Lswitch) : Prop :=
  sw.queried = true → msg.mem.get16 8 = ofpstFlow → msg.mem.get32 4 = sw.queryXid →
    ∀ pos, Reaches (nextFlowStats msg.mem msg.length) sizeofOfpStatsReply pos →
      (nextFlowStats msg.mem msg.length pos).isSome → ¬ NoRecv msg.mem sw pos →
        ActionsAdvance msg.mem sw pos

/-! ### The loop over actions -/

section Actions

variable {m : Memory} {sw : Lswitch} {size stop turns a b : ℕ}

/-- The next action starts after whole blocks, and before the end of the actions. -/
theorem nextAction_spec (h : nextAction m sw stop a = some b) :
    a < stop ∧ a ≤ b ∧ b ≤ stop ∧ (b - a) % 8 = 0 := by
  unfold nextAction at h
  dsimp only at h
  split_ifs at h with hnext
  rw [Option.some.injEq] at h
  omega

/-- One turn of the loop. -/
theorem completes_anyOutputIn_succ (hstop : stop ≤ size) (h8 : (stop - a) % 8 = 0) :
    Completes size (anyOutputIn m sw stop (turns + 1) a) (fun _ => True) ↔
      ∀ b, nextAction m sw stop a = some b →
        Completes size (anyOutputIn m sw stop turns b) fun _ => True := by
  rw [anyOutputIn, nextAction]
  simp only [completes_ite, completes_bind, completes_read16, completes_pure]
  split_ifs with hnext
  · obtain ⟨hlt, hle, hlen8, hsend⟩ := hnext
    simp only [Option.some.injEq, forall_eq']
    have hroom : a + 2 + 2 ≤ size ∧ a + 2 ≤ size ∧ a + 4 + 2 ≤ size := by omega
    by_cases htype : m.get16 a = ofpatOutput
    · simp [hlt, hle, hlen8, hroom, htype, hsend htype]
    · simp [hlt, hle, hlen8, hroom, htype]
  · refine iff_of_true ⟨fun hlt => ⟨by omega, fun _ => trivial, fun hle => ⟨fun _ => trivial,
      fun hlen8 => ⟨by omega, fun htype => ⟨by omega, fun hsend => ?_, fun _ => trivial⟩,
        fun htype => ?_⟩⟩⟩, fun _ => trivial⟩ fun b hb => hb.elim
    · -- only an output that may not be sent ends the loop here
      exact absurd ⟨hlt, not_lt.1 hle, not_not.1 hlen8, fun _ => hsend⟩ hnext
    · exact absurd ⟨hlt, not_lt.1 hle, not_not.1 hlen8, fun h => absurd h htype⟩ hnext

/-- A loop that ends stays at no action. -/
theorem nextAction_ne_self (hstop : stop ≤ size) (h8 : (stop - a) % 8 = 0)
    (h : Completes size (anyOutputIn m sw stop turns a) fun _ => True)
    (hb : Reaches (nextAction m sw stop) a b) : nextAction m sw stop b ≠ some b := by
  induction turns generalizing a with
  | zero => exact absurd h (not_completes_fail _)
  | succ turns ih =>
    rw [completes_anyOutputIn_succ hstop h8] at h
    obtain rfl | ⟨c, hc, hcb⟩ := hb.cases_head
    · -- staying here would use up all turns
      intro hself
      exact ih h8 (h a hself) Relation.ReflTransGen.refl hself
    · have hspec := nextAction_spec hc
      exact ih (by omega) (h c hc) hcb

/-- A loop that stays at no action ends, in no more turns than bytes. -/
theorem completes_anyOutputIn (hstop : stop ≤ size) (h8 : (stop - a) % 8 = 0)
    (h : ∀ b, Reaches (nextAction m sw stop) a b → nextAction m sw stop b ≠ some b)
    (hturns : stop - a < turns) :
    Completes size (anyOutputIn m sw stop turns a) fun _ => True := by
  induction turns generalizing a with
  | zero => omega
  | succ turns ih =>
    rw [completes_anyOutputIn_succ hstop h8]
    intro b hb
    have hspec := nextAction_spec hb
    have hne : b ≠ a := by
      rintro rfl
      exact h b Relation.ReflTransGen.refl hb
    exact ih (by omega) (fun c hc => h c (Relation.ReflTransGen.head hb hc)) (by omega)

/-- With the check for progress, too, the loop does the same. -/
theorem anyOutput_eq_anyOutputIn {turns' : ℕ}
    (h : ∀ b, Reaches (nextAction m sw stop) a b → nextAction m sw stop b ≠ some b)
    (hturns : stop - a ≤ turns) (hturns' : stop - a < turns') :
    anyOutput m sw stop turns a = anyOutputIn m sw stop turns' a := by
  induction turns generalizing a turns' with
  | zero =>
    obtain ⟨turns', rfl⟩ := Nat.exists_eq_succ_of_ne_zero (show turns' ≠ 0 by omega)
    rw [anyOutput, anyOutputIn, if_neg (by omega)]
  | succ turns ih =>
    obtain ⟨turns', rfl⟩ := Nat.exists_eq_succ_of_ne_zero (show turns' ≠ 0 by omega)
    rw [anyOutput, anyOutputIn]
    by_cases hlt : a < stop
    · rw [if_pos hlt, if_pos hlt]
      -- what follows a read needs to agree for the number that is there only
      apply read16_bind_eq_bind
      by_cases hle : stop - a < (m.get16 (a + 2)).toNat
      · rw [if_pos hle, if_pos hle]
      rw [if_neg hle, if_neg hle]
      by_cases hlen8 : (m.get16 (a + 2)).toNat % 8 ≠ 0
      · rw [if_pos hlen8, if_pos hlen8]
      rw [if_neg hlen8, if_neg hlen8]
      have hgo : (m.get16 a = ofpatOutput → sw.maySend (m.get16 (a + 4)) = true) →
          (if m.get16 (a + 2) = 0 then Monitored.fail .endless
            else anyOutput m sw stop turns (a + (m.get16 (a + 2)).toNat)) =
            anyOutputIn m sw stop turns' (a + (m.get16 (a + 2)).toNat) := by
        intro hsend
        have hnext : nextAction m sw stop a = some (a + (m.get16 (a + 2)).toNat) :=
          if_pos ⟨hlt, not_lt.1 hle, not_not.1 hlen8, hsend⟩
        have hlen : m.get16 (a + 2) ≠ 0 := by
          intro hlen
          rw [hlen] at hnext
          exact h a Relation.ReflTransGen.refl hnext
        have hpos : (m.get16 (a + 2)).toNat ≠ 0 := fun hzero => hlen (BitVec.eq_of_toNat_eq hzero)
        rw [if_neg hlen]
        apply ih (fun c hc => h c (Relation.ReflTransGen.head hnext hc)) <;> omega
      apply read16_bind_eq_bind
      by_cases htype : m.get16 a = ofpatOutput
      · rw [if_pos htype, if_pos htype]
        apply read16_bind_eq_bind
        by_cases hsend : sw.maySend (m.get16 (a + 4)) = true
        · rw [if_pos hsend, if_pos hsend]
          exact hgo fun _ => hsend
        · rw [if_neg hsend, if_neg hsend]
      · rw [if_neg htype, if_neg htype]
        exact hgo fun h => absurd h htype
    · rw [if_neg hlt, if_neg hlt]

end Actions

/-! ### The loop over flows -/

section Flows

variable {m : Memory} {sw : Lswitch} {size stop inner turns pos pos' : ℕ}

/-- The next flow starts behind all of this one, which is inside the message. -/
theorem nextFlowStats_eq_some_iff :
    nextFlowStats m stop pos = some pos' ↔
      sizeofOfpFlowStats ≤ stop - pos ∧ sizeofOfpFlowStats ≤ (m.get16 pos).toNat ∧
        (m.get16 pos).toNat ≤ stop - pos ∧
          ((m.get16 pos).toNat - sizeofOfpFlowStats) % sizeofOfpActionHeader = 0 ∧
            pos + (m.get16 pos).toNat = pos' := by
  unfold nextFlowStats
  dsimp only
  split_ifs with hend
  · refine iff_of_false (fun h => h.elim) ?_
    omega
  · rw [Option.some.injEq]
    omega

/-- The statistics of one flow. -/
theorem completes_processFlowStatsIn (hnext : nextFlowStats m stop pos = some pos')
    (hstop : stop ≤ size) :
    Completes size (processFlowStatsIn m sw turns pos) (fun _ => True) ↔
      (¬ NoRecv m sw pos → Completes size
        (anyOutputIn m sw (pos + (m.get16 pos).toNat) turns (pos + sizeofOfpFlowStats))
          fun _ => True) := by
  rw [nextFlowStats_eq_some_iff] at hnext
  obtain ⟨hleft, hmin, hmax, -, -⟩ := hnext
  change 88 ≤ _ at hleft
  change 88 ≤ _ at hmin
  have hroom : pos + 2 ≤ size ∧ pos + 4 + 4 ≤ size ∧ pos + 8 + 2 ≤ size ∧ pos + 4 + 40 ≤ size := by
    omega
  -- the deletion at the end can always be made
  have hdelete : ∀ delete : Bool, (delete = true → pos + 4 + 40 ≤ size ∧ True) ∧
      (¬ delete = true → True) := fun delete => ⟨fun _ => ⟨by omega, trivial⟩, fun _ => trivial⟩
  simp only [processFlowStatsIn, completes_bind, completes_read16, completes_read32, completes_ite,
    completes_pure, completes_readBytes, hdelete, implies_true, true_and]
  unfold NoRecv
  by_cases hport : m.get32 (pos + 4) &&& ofpfwInPort = 0#32
  · simp [hroom, hport]
  · simp [hroom, hport]

/-- One turn of the loop. -/
theorem completes_processAllFlowStatsIn_succ (hstop : stop ≤ size) :
    Completes size (processAllFlowStatsIn m sw inner stop (turns + 1) pos) (fun _ => True) ↔
      ∀ q, nextFlowStats m stop pos = some q →
        Completes size (processFlowStatsIn m sw inner pos) (fun _ => True) ∧
          Completes size (processAllFlowStatsIn m sw inner stop turns q) fun _ => True := by
  rw [processAllFlowStatsIn]
  have hsize : sizeofOfpFlowStats = 88 := rfl
  simp only [completes_ite, completes_bind, completes_read16, completes_pure,
    nextFlowStats_eq_some_iff]
  rw [completes_const_iff]
  constructor
  · rintro h q ⟨hleft, hmin, hmax, h8, rfl⟩
    exact (h.2 (by omega)).2.2 (by omega)
  · intro h
    refine ⟨fun _ => trivial, fun hleft => ⟨by omega, fun _ => trivial, fun hlength => ?_⟩⟩
    rw [not_or, not_or, not_not] at hlength
    obtain ⟨hmin, hmax, h8⟩ := hlength
    exact h _ ⟨by omega, by omega, by omega, h8, rfl⟩

/-- If the loop over flows ends, it has handled every flow. -/
theorem completes_flow_of_completes (hstop : stop ≤ size)
    (h : Completes size (processAllFlowStatsIn m sw inner stop turns pos) fun _ => True)
    {p : ℕ} (hp : Reaches (nextFlowStats m stop) pos p)
    (hnext : (nextFlowStats m stop p).isSome) :
    Completes size (processFlowStatsIn m sw inner p) fun _ => True := by
  induction turns generalizing pos with
  | zero => exact absurd h (not_completes_fail _)
  | succ turns ih =>
    rw [completes_processAllFlowStatsIn_succ hstop] at h
    obtain rfl | ⟨q, hq, hqp⟩ := hp.cases_head
    · obtain ⟨q, hq⟩ := Option.isSome_iff_exists.1 hnext
      exact (h q hq).1
    · exact ih (h q hq).2 hqp

/-- If it can handle every flow, it ends: it gets on with each. -/
theorem completes_processAllFlowStatsIn (hstop : stop ≤ size) (hturns : stop - pos < turns)
    (h : ∀ p, Reaches (nextFlowStats m stop) pos p → (nextFlowStats m stop p).isSome →
      Completes size (processFlowStatsIn m sw inner p) fun _ => True) :
    Completes size (processAllFlowStatsIn m sw inner stop turns pos) fun _ => True := by
  induction turns generalizing pos with
  | zero => omega
  | succ turns ih =>
    rw [completes_processAllFlowStatsIn_succ hstop]
    intro q hq
    have hleft : stop - q < turns := by
      have hspec := nextFlowStats_eq_some_iff.1 hq
      have hsize : sizeofOfpFlowStats = 88 := rfl
      omega
    refine ⟨h pos Relation.ReflTransGen.refl (Option.isSome_iff_exists.2 ⟨q, hq⟩), ?_⟩
    exact ih hleft fun p hp => h p (Relation.ReflTransGen.head hq hp)

/-- The actions of a flow are whole blocks inside the message. -/
theorem actions_of_nextFlowStats (hstop : stop ≤ size)
    (hnext : nextFlowStats m stop pos = some pos') :
    pos + (m.get16 pos).toNat ≤ size ∧
      (pos + (m.get16 pos).toNat - (pos + sizeofOfpFlowStats)) % 8 = 0 := by
  obtain ⟨hleft, hmin, hmax, h8, -⟩ := nextFlowStats_eq_some_iff.1 hnext
  have hsize : sizeofOfpFlowStats = 88 := rfl
  change (_ - 88) % 8 = 0 at h8
  omega

/-- If a flow is handled, then the loop over its actions is not entered or stays at none. -/
theorem actionsAdvance_of_completes (hstop : stop ≤ size)
    (hnext : (nextFlowStats m stop pos).isSome)
    (h : Completes size (processFlowStatsIn m sw turns pos) fun _ => True)
    (hrecv : ¬ NoRecv m sw pos) : ActionsAdvance m sw pos := by
  obtain ⟨q, hq⟩ := Option.isSome_iff_exists.1 hnext
  obtain ⟨hend, h8⟩ := actions_of_nextFlowStats hstop hq
  rw [completes_processFlowStatsIn hq hstop] at h
  exact fun a ha => nextAction_ne_self hend h8 (h hrecv) ha

/-- If that is so, then it is handled, in no more turns than bytes. -/
theorem completes_of_actionsAdvance (hstop : stop ≤ size)
    (hnext : (nextFlowStats m stop pos).isSome) (hturns : size < turns)
    (h : ¬ NoRecv m sw pos → ActionsAdvance m sw pos) :
    Completes size (processFlowStatsIn m sw turns pos) fun _ => True := by
  obtain ⟨q, hq⟩ := Option.isSome_iff_exists.1 hnext
  obtain ⟨hend, h8⟩ := actions_of_nextFlowStats hstop hq
  rw [completes_processFlowStatsIn hq hstop]
  intro hrecv
  apply completes_anyOutputIn hend h8 (h hrecv)
  omega

/-- With the check for progress, too, a flow is handled alike. -/
theorem processFlowStats_eq_processFlowStatsIn (hturns : (m.get16 pos).toNat < turns)
    (h : ¬ NoRecv m sw pos → ActionsAdvance m sw pos) :
    processFlowStats m sw pos = processFlowStatsIn m sw turns pos := by
  have hactions : ¬ NoRecv m sw pos →
      anyOutput m sw (pos + (m.get16 pos).toNat) (m.get16 pos).toNat (pos + sizeofOfpFlowStats) =
        anyOutputIn m sw (pos + (m.get16 pos).toNat) turns (pos + sizeofOfpFlowStats) := by
    intro hrecv
    apply anyOutput_eq_anyOutputIn (h hrecv) <;> omega
  unfold processFlowStats processFlowStatsIn
  apply read16_bind_eq_bind
  apply read32_bind_eq_bind
  by_cases hrecv : NoRecv m sw pos
  · -- the loop is not entered
    simp only [if_pos hrecv.1]
    apply read16_bind_eq_bind
    simp only [hrecv.2, pure_bind_eq, Bool.not_false, if_true]
  · simp only [hactions hrecv]

/-- And so are all flows. -/
theorem processAllFlowStats_eq_processAllFlowStatsIn {turns' : ℕ}
    (h : ∀ p, Reaches (nextFlowStats m stop) pos p → (nextFlowStats m stop p).isSome →
      ¬ NoRecv m sw p → ActionsAdvance m sw p)
    (hinner : stop < inner) (hturns : stop - pos ≤ turns) (hturns' : stop - pos < turns') :
    processAllFlowStats m sw stop turns pos = processAllFlowStatsIn m sw inner stop turns' pos := by
  have hsize : sizeofOfpFlowStats = 88 := rfl
  induction turns generalizing pos turns' with
  | zero =>
    obtain ⟨turns', rfl⟩ := Nat.exists_eq_succ_of_ne_zero (show turns' ≠ 0 by omega)
    rw [processAllFlowStats, processAllFlowStatsIn, if_pos (by omega)]
  | succ turns ih =>
    obtain ⟨turns', rfl⟩ := Nat.exists_eq_succ_of_ne_zero (show turns' ≠ 0 by omega)
    rw [processAllFlowStats, processAllFlowStatsIn]
    by_cases hleft : stop - pos < sizeofOfpFlowStats
    · rw [if_pos hleft, if_pos hleft]
    rw [if_neg hleft, if_neg hleft]
    apply read16_bind_eq_bind
    split_ifs with hlength
    · rfl
    -- the next flow is reached, and less is left
    · have hnext : nextFlowStats m stop pos = some (pos + (m.get16 pos).toNat) := by
        rw [nextFlowStats_eq_some_iff]
        omega
      have hrest : processAllFlowStats m sw stop turns (pos + (m.get16 pos).toNat) =
          processAllFlowStatsIn m sw inner stop turns' (pos + (m.get16 pos).toNat) := by
        apply ih (fun p hp => h p (Relation.ReflTransGen.head hnext hp)) <;> omega
      have hflow : processFlowStats m sw pos = processFlowStatsIn m sw inner pos :=
        processFlowStats_eq_processFlowStatsIn (by omega)
          (h pos Relation.ReflTransGen.refl (Option.isSome_iff_exists.2 ⟨_, hnext⟩))
      rw [hrest, hflow]

end Flows

/-! ### Replies -/

section Replies

variable {msg : OfpMessage} {sw : Lswitch}

/-- Whether a reply is handled in so many turns is up to its loop over flows, if it is one that the
switch waits for. -/
theorem completes_processStatsReplyIn_iff (h : sizeofOfpStatsReply ≤ msg.length) (turns : ℕ) :
    Completes msg.length (processStatsReplyIn msg.mem sw turns) (fun _ => True) ↔
      (sw.queried = true → msg.mem.get16 8 = ofpstFlow → msg.mem.get32 4 = sw.queryXid →
        Completes msg.length (processAllFlowStatsIn msg.mem sw turns msg.length turns
          sizeofOfpStatsReply) fun _ => True) := by
  have hsize : (msg.mem.get16 2).toNat = msg.length := rfl
  have h12 : sizeofOfpStatsReply = 12 := rfl
  have hstop : sizeofOfpStatsReply + (msg.length - sizeofOfpStatsReply) = msg.length := by omega
  have hroom : 8 + 2 ≤ msg.length ∧ 4 + 4 ≤ msg.length ∧ 4 ≤ msg.length ∧ 10 + 2 ≤ msg.length := by
    omega
  simp [processStatsReplyIn, completes_ite, hroom, hsize, h, hstop]

/-- The loops over a reply that ends always get on. -/
theorem EndsInside.advances (hends : EndsInside msg sw) (h : sizeofOfpStatsReply ≤ msg.length) :
    Advances msg sw := by
  obtain ⟨turns, hturns⟩ := hends
  intro hqueried htype hxid pos hpos hsome
  have hall := (completes_processStatsReplyIn_iff h turns).1 hturns hqueried htype hxid
  apply actionsAdvance_of_completes le_rfl hsome
  exact completes_flow_of_completes le_rfl hall hpos hsome

/-- If they always get on, they end, in no more turns than bytes. -/
theorem Advances.endsInside (hadvances : Advances msg sw) (h : sizeofOfpStatsReply ≤ msg.length) :
    EndsInside msg sw := by
  refine ⟨msg.length + 1, (completes_processStatsReplyIn_iff h _).2 fun hqueried htype hxid => ?_⟩
  apply completes_processAllFlowStatsIn le_rfl (by omega)
  intro pos hpos hsome
  exact completes_of_actionsAdvance le_rfl hsome (by omega)
    (hadvances hqueried htype hxid pos hpos hsome)

/-- They do what the loops do that are stopped where they make no progress. -/
theorem Advances.processStatsReply_eq (hadvances : Advances msg sw)
    (h : sizeofOfpStatsReply ≤ msg.length) :
    processStatsReply msg.mem sw = processStatsReplyIn msg.mem sw (msg.length + 1) := by
  have hsize : (msg.mem.get16 2).toNat = msg.length := rfl
  have hstop : sizeofOfpStatsReply + (msg.length - sizeofOfpStatsReply) = msg.length := by omega
  have hlength : ReadsWithin msg.length (lengthWithout msg.mem sizeofOfpStatsReply)
      (· = msg.length - sizeofOfpStatsReply) := by
    rw [readsWithin_lengthWithout, hsize]
    exact ⟨by change 12 ≤ _ at h; omega, h, rfl⟩
  unfold processStatsReply processStatsReplyIn
  by_cases hqueried : sw.queried = true
  · rw [if_pos hqueried, if_pos hqueried]
    apply read16_bind_eq_bind
    by_cases htype : msg.mem.get16 8 = ofpstFlow
    · rw [if_pos htype, if_pos htype]
      apply read32_bind_eq_bind
      by_cases hxid : msg.mem.get32 4 = sw.queryXid
      · rw [if_pos hxid, if_pos hxid]
        refine bind_eq_bind_of_readsWithin (hlength.mono ?_)
        rintro _ rfl
        -- each turn makes progress, so that the bound on turns is not met
        have hflows : processAllFlowStats msg.mem sw msg.length
              (msg.length - sizeofOfpStatsReply) sizeofOfpStatsReply =
            processAllFlowStatsIn msg.mem sw (msg.length + 1) msg.length (msg.length + 1)
              sizeofOfpStatsReply := by
          apply processAllFlowStats_eq_processAllFlowStatsIn (hadvances hqueried htype hxid)
            <;> omega
        rw [hstop, hflows]
      · rw [if_neg hxid, if_neg hxid]
    · rw [if_neg htype, if_neg htype]
  · rw [if_neg hqueried, if_neg hqueried]

end Replies

/-- The loops over a reply come to their ends, and read only the message, exactly when the loop over
actions never stays where it is. -/
theorem endsInside_iff (msg : OfpMessage) (sw : Lswitch) (h : sizeofOfpStatsReply ≤ msg.length) :
    EndsInside msg sw ↔ Advances msg sw :=
  ⟨fun hends => hends.advances h, fun hadvances => hadvances.endsInside h⟩

/-- A reply with a flow from any port, whose action is an output to port 1 of the given length. -/
def outputFlowReply (len : Byte) : OfpMessage :=
  .ofBytes ([1, 17, 0, 108, 0, 0, 0, 0, 0, 1, 0, 0] ++ [0, 96, 0, 0, 0, 0, 0, 1]
    ++ List.replicate 80 0 ++ [0, 0, 0, len, 0, 1, 0, 0])
    (by decide +revert)

/-- A switch that has asked for flows, with all ports forwarding. -/
def askingSwitch : Lswitch where
  maxIdle := -1
  datapathId := 1
  capabilities := ofpcStp
  ml := none
  queried := true
  portStates _ := .forwarding
  queryXid := 0

/-- The loop gets over an action of eight bytes. -/
theorem endsInside_iff_output : EndsInside (outputFlowReply 8) askingSwitch := by
  refine (endsInside_iff _ _ (by decide +kernel)).2 fun _ _ _ pos hpos hsome _ a ha => ?_
  have hflow : nextFlowStats (outputFlowReply 8).mem (outputFlowReply 8).length
      sizeofOfpStatsReply = some 108 := by decide +kernel
  have haction : nextAction (outputFlowReply 8).mem askingSwitch 108 100 = some 108 := by
    decide +kernel
  -- there is nothing behind the only action of the only flow
  have hactions : nextAction (outputFlowReply 8).mem askingSwitch 108 108 = none := by
    decide +kernel
  have hflows : nextFlowStats (outputFlowReply 8).mem (outputFlowReply 8).length 108 = none := by
    decide +kernel
  obtain rfl | ⟨q, hq, hqp⟩ := hpos.cases_head
  · obtain rfl | ⟨b, hb, hba⟩ := ha.cases_head
    · decide +kernel
    · obtain rfl : 108 = b := Option.some.inj (haction.symm.trans hb)
      obtain rfl | ⟨c, hc, -⟩ := hba.cases_head
      · decide +kernel
      · exact absurd (hactions.symm.trans hc) (Option.some_ne_none c).symm
  · obtain rfl : 108 = q := Option.some.inj (hflow.symm.trans hq)
    obtain rfl | ⟨c, hc, -⟩ := hqp.cases_head
    · exact absurd hsome (by decide +kernel)
    · exact absurd (hflows.symm.trans hc) (Option.some_ne_none c).symm

/-- It stays at one of no bytes. -/
theorem not_endsInside : ¬ ∀ (msg : OfpMessage) (sw : Lswitch), sizeofOfpStatsReply ≤ msg.length →
    EndsInside msg sw := by
  intro h
  have hlength : sizeofOfpStatsReply ≤ (outputFlowReply 0).length := by decide +kernel
  have hadvances := (h (outputFlowReply 0) askingSwitch hlength).advances hlength
  exact hadvances rfl rfl rfl sizeofOfpStatsReply Relation.ReflTransGen.refl (by decide +kernel)
    (by unfold NoRecv; decide +kernel) 100 Relation.ReflTransGen.refl (by decide +kernel)

end Inspect

end OfAgent
