import Mathlib.Data.List.Basic
import Mathlib.Order.Interval.Set.Basic
import Mathlib.Tactic.Ring
import Mathlib.Tactic.Linarith

/-!
# Credit that grows with time

Every event costs something, which is paid out of a credit. The credit grows with time at a rate,
may be forfeited at any time, and is bounded when an event is paid for. Then no window of time has
more events than the bound and the growth within the window pay for.

* `Metered`: the times of the events so far, and what is left of the credit.
* `Metered.advance`, `Metered.spend`: time goes by, and an event is paid for.
* `Metered.window`: the events of a window.
-/

namespace Meter

/-! ### Windows -/

/-- Behind the earlier times of a sorted log are those from `t` on. -/
theorem exists_append_filter_ge {log : List ℤ} (h : log.Pairwise (· ≤ ·)) (t : ℤ) :
    ∃ pre, log = pre ++ log.filter (t ≤ ·) := by
  induction log with
  | nil => exact ⟨[], rfl⟩
  | cons x log ih =>
    obtain ⟨hx, hlog⟩ := List.pairwise_cons.1 h
    by_cases hle : t ≤ x
    · -- all later times are in it
      have hall : ∀ y ∈ x :: log, decide (t ≤ y) = true := fun y hy => by
        rcases List.mem_cons.1 hy with rfl | hy
        · exact decide_eq_true hle
        · exact decide_eq_true (hle.trans (hx y hy))
      exact ⟨[], (List.filter_eq_self.2 hall).symm⟩
    · obtain ⟨pre, hpre⟩ := ih hlog
      refine ⟨x :: pre, ?_⟩
      rw [List.filter_cons_of_neg (by simpa using hle), List.cons_append, ← hpre]

/-- In front of the later times of a sorted log are those up to `u`. -/
theorem exists_filter_le_append {log : List ℤ} (h : log.Pairwise (· ≤ ·)) (u : ℤ) :
    ∃ post, log = log.filter (· ≤ u) ++ post := by
  induction log with
  | nil => exact ⟨[], rfl⟩
  | cons x log ih =>
    obtain ⟨hx, hlog⟩ := List.pairwise_cons.1 h
    by_cases hle : x ≤ u
    · obtain ⟨post, hpost⟩ := ih hlog
      refine ⟨post, ?_⟩
      rw [List.filter_cons_of_pos (by simpa using hle), List.cons_append, ← hpost]
    · -- none of the later times is in it
      have hnone : ∀ y ∈ x :: log, ¬ decide (y ≤ u) = true := fun y hy => by
        rcases List.mem_cons.1 hy with rfl | hy
        · simpa using hle
        · simpa using (not_le.1 hle).trans_le (hx y hy)
      exact ⟨x :: log, by rw [List.filter_eq_nil_iff.2 hnone, List.nil_append]⟩

/-- The times of a sorted log in a window stand together. -/
theorem exists_infix_window {log : List ℤ} (h : log.Pairwise (· ≤ ·)) (t u : ℤ) :
    ∃ pre post, log = pre ++ log.filter (fun x => t ≤ x ∧ x ≤ u) ++ post := by
  obtain ⟨pre, hpre⟩ := exists_append_filter_ge h t
  obtain ⟨post, hpost⟩ := exists_filter_le_append (h.filter (t ≤ ·)) u
  refine ⟨pre, post, ?_⟩
  have hboth : (log.filter (t ≤ ·)).filter (· ≤ u) = log.filter fun x => t ≤ x ∧ x ≤ u := by
    rw [List.filter_filter]
    refine List.filter_congr fun x _ => ?_
    simp [Bool.and_comm]
  rw [List.append_assoc, ← hboth, ← hpost, ← hpre]

/-! ### Credit -/

variable {cost cap rate now now' credit credit' : ℤ} {log : List ℤ}

/-- A log of events that have been paid for, and the credit that is left. -/
structure Metered (cost cap rate now credit : ℤ) (log : List ℤ) : Prop where
  /-- The times are in order. -/
  sorted : log.Pairwise (· ≤ ·)
  /-- They are not in the future. -/
  le_now : ∀ x ∈ log, x ≤ now
  /-- From any event on, events and credit are covered by the bound and the growth since. -/
  backed : ∀ pre first mid, log = pre ++ first :: mid →
    cost * (mid.length + 1) + credit ≤ cap + rate * (now - first)
  /-- From any event to any later one, events are covered by the bound and the growth between. -/
  paced : ∀ pre first mid post, log = pre ++ first :: mid ++ post →
    cost * (mid.length + 1) ≤ cap + rate * (mid.getLastD first - first)

namespace Metered

theorem nil : Metered cost cap rate now credit [] where
  sorted := .nil
  le_now x hx := absurd hx List.not_mem_nil
  backed pre first mid h := by simp at h
  paced pre first mid post h := by simp at h

/-- Time goes by, and the credit grows by no more than the rate allows. -/
theorem advance (h : Metered cost cap rate now credit log) (hnow : now ≤ now')
    (hcredit : credit' ≤ credit + rate * (now' - now)) :
    Metered cost cap rate now' credit' log where
  sorted := h.sorted
  le_now x hx := (h.le_now x hx).trans hnow
  backed pre first mid hlog := by
    have hbacked := h.backed pre first mid hlog
    have hgrowth : rate * (now' - first) = rate * (now - first) + rate * (now' - now) := by ring
    linarith
  paced := h.paced

theorem forfeit (h : Metered cost cap rate now credit log) (hcredit : credit' ≤ credit) :
    Metered cost cap rate now credit' log :=
  h.advance le_rfl (by rw [sub_self, mul_zero, add_zero]; exact hcredit)

/-- The last event of a log with one more event. -/
theorem eq_concat_of_append {pre mid : List ℤ} {first x : ℤ}
    (h : log ++ [x] = pre ++ first :: mid) :
    pre = log ∧ first = x ∧ mid = [] ∨ ∃ mid', mid = mid' ++ [x] ∧ log = pre ++ first :: mid' := by
  rcases List.eq_nil_or_concat mid with rfl | ⟨mid', y, rfl⟩
  · obtain ⟨hlog, hx⟩ := List.append_inj' h rfl
    exact .inl ⟨hlog.symm, (List.singleton_injective hx).symm, rfl⟩
  · rw [List.concat_eq_append, ← List.cons_append, ← List.append_assoc] at h
    obtain ⟨hlog, hx⟩ := List.append_inj' h rfl
    exact .inr ⟨mid', by rw [List.concat_eq_append, List.singleton_injective hx], hlog⟩

/-- An event is paid for. -/
theorem spend (h : Metered cost cap rate now credit log) (hcap : credit ≤ cap)
    (hcost : cost ≤ credit) : Metered cost cap rate now (credit - cost) (log ++ [now]) := by
  have hbacked : ∀ pre first mid, log ++ [now] = pre ++ first :: mid →
      cost * (mid.length + 1) + (credit - cost) ≤ cap + rate * (now - first) := by
    intro pre first mid hlog
    rcases eq_concat_of_append hlog with ⟨-, rfl, rfl⟩ | ⟨mid', rfl, hlog'⟩
    · simp only [List.length_nil, sub_self]
      push_cast
      linarith
    · have hbefore := h.backed pre first mid' hlog'
      rw [List.length_append, List.length_singleton]
      push_cast
      linarith
  refine ⟨?_, ?_, hbacked, ?_⟩
  · rw [List.pairwise_append]
    refine ⟨h.sorted, List.pairwise_singleton _ _, fun x hx y hy => ?_⟩
    rw [List.mem_singleton.1 hy]
    exact h.le_now x hx
  · intro x hx
    rcases List.mem_append.1 hx with hx | hx
    · exact h.le_now x hx
    · exact (List.mem_singleton.1 hx).le
  · intro pre first mid post hlog
    rcases List.eq_nil_or_concat post with rfl | ⟨post', y, rfl⟩
    · -- the last event is the new one
      rw [List.append_nil] at hlog
      have hnew := hbacked pre first mid hlog
      have hlast : mid.getLastD first = now := by
        rcases eq_concat_of_append hlog with ⟨-, rfl, rfl⟩ | ⟨mid', rfl, -⟩
        · rfl
        · exact List.getLastD_concat
      rw [hlast]
      linarith
    · rw [List.concat_eq_append, ← List.append_assoc] at hlog
      exact h.paced pre first mid post' (List.append_inj' hlog rfl).1

/-- In a window of time there are no more events than the bound and the growth within it pay for. -/
theorem window (h : Metered cost cap rate now credit log) (hrate : 0 ≤ rate) (hcap : 0 ≤ cap)
    (t : ℤ) {duration : ℤ} (hduration : 0 ≤ duration) :
    cost * (log.countP fun x => t ≤ x ∧ x ≤ t + duration) ≤ cap + rate * duration := by
  obtain ⟨pre, post, hlog⟩ := exists_infix_window h.sorted t (t + duration)
  rw [List.countP_eq_length_filter]
  cases hwindow : log.filter fun x => t ≤ x ∧ x ≤ t + duration with
  | nil =>
    have hgrowth := mul_nonneg hrate hduration
    rw [List.length_nil, Nat.cast_zero, mul_zero]
    linarith
  | cons first mid =>
    rw [hwindow] at hlog
    have hin : ∀ x ∈ first :: mid, t ≤ x ∧ x ≤ t + duration := fun x hx => by
      rw [← hwindow] at hx
      simpa using (List.mem_filter.1 hx).2
    have hfirst := hin first List.mem_cons_self
    have hlast := (hin _ (List.getLastD_mem_cons (l := mid) (a := first))).2
    have hpaced := h.paced pre first mid post hlog
    have hgrowth : rate * (mid.getLastD first - first) ≤ rate * duration :=
      mul_le_mul_of_nonneg_left (by linarith) hrate
    rw [List.length_cons, Nat.cast_succ]
    linarith

end Metered

end Meter
