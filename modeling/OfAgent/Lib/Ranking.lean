import Mathlib.Logic.Function.Iterate
import Mathlib.Order.Monotone.Basic
import OfAgent.Lib.Transition

/-!
# Rankings

Runs with the list of their events, how often an event can happen in them, and how often an
operation has to be repeated.

* `RunVia Step ok init es s`: a run from `init` on the events `es` leads to `s`, and every step of
  it satisfies the side condition `ok`.
* `RunVia.invariant`: what every admitted step keeps holds at the end of a run.
* `RunVia.countP_add_le`: events that lower a rank, which no event raises, happen at most as often
  as the rank at the beginning says.
* `iterate_eq_iterate_iff`: an operation that raises a rank wherever it does anything.
-/

namespace Transition

variable {σ ε : Type*}

/-- The runs of `Step` from `init` whose steps satisfy `ok`, with their events. -/
inductive RunVia (Step : σ → ε → σ → Prop) (ok : σ → ε → Prop) (init : σ) : List ε → σ → Prop
  | refl : RunVia Step ok init [] init
  | tail {es : List ε} {s s' : σ} {e : ε} :
      RunVia Step ok init es s → ok s e → Step s e s' → RunVia Step ok init (es ++ [e]) s'

namespace RunVia

variable {Step : σ → ε → σ → Prop} {ok : σ → ε → Prop} {init s : σ} {es : List ε}

/-- The invariant rule for runs with their events. -/
theorem invariant (Inv : σ → Prop) (h0 : Inv init)
    (hstep : ∀ s e s', Inv s → ok s e → Step s e s' → Inv s')
    (h : RunVia Step ok init es s) : Inv s := by
  induction h with
  | refl => exact h0
  | tail _ hok hs ih => exact hstep _ _ _ ih hok hs

/-- If each admitted step lowers the rank by one on the events `p`, and never raises it, these
events happen at most as often as the rank says. -/
theorem countP_add_le (Inv : σ → Prop) (rank : σ → ℕ) (p : ε → Bool) (h0 : Inv init)
    (hstep : ∀ s e s', Inv s → ok s e → Step s e s' → Inv s')
    (hrank : ∀ s e s', Inv s → ok s e → Step s e s' → (if p e then 1 else 0) + rank s' ≤ rank s)
    (h : RunVia Step ok init es s) : es.countP p + rank s ≤ rank init := by
  induction h with
  | refl => exact Nat.le_of_eq (Nat.zero_add _)
  | @tail es s s' e hrun hok hs ih =>
    have hlower := hrank s e s' (hrun.invariant Inv h0 hstep) hok hs
    rw [List.countP_append, List.countP_singleton]
    omega

end RunVia

/-- Of an operation that raises a rank wherever it does anything, two numbers of repetitions have
the same result only if they are equal, or if the smaller one is enough. -/
theorem iterate_eq_iterate_iff {f : σ → σ} {rank : σ → ℤ}
    (hrank : ∀ s, f s = s ∨ rank s < rank (f s)) {m n : ℕ} (hmn : m ≤ n) (s : σ) :
    f^[m] s = f^[n] s ↔ m = n ∨ f (f^[m] s) = f^[m] s := by
  constructor
  · intro h
    refine or_iff_not_imp_left.2 fun hne => ?_
    have hmono : Monotone fun i => rank (f^[i] s) := monotone_nat_of_le_succ fun i => by
      rw [Function.iterate_succ_apply']
      rcases hrank (f^[i] s) with heq | hlt
      · rw [heq]
      · exact le_of_lt hlt
    -- a further repetition would raise the rank above the one at the end
    rcases hrank (f^[m] s) with heq | hlt
    · exact heq
    · have hle : rank (f^[m + 1] s) ≤ rank (f^[n] s) := hmono (Nat.lt_of_le_of_ne hmn hne)
      rw [Function.iterate_succ_apply', ← h] at hle
      exact absurd hlt (not_lt_of_ge hle)
  · rintro (rfl | hfix)
    · rfl
    · obtain ⟨d, rfl⟩ := Nat.exists_eq_add_of_le' hmn
      rw [Function.iterate_add_apply, Function.iterate_fixed hfix]

end Transition
