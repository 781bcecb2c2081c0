import Mathlib.Order.Bounds.Basic
import Mathlib.Order.Lattice.Nat

/-!
# Shortest routes

Routes over links with lengths, and potentials that tell how long the shortest one is.

* `Route`: the lengths of the routes from a source.
* `Route.le_of_potential`: no route is shorter than a potential that no link lowers.
* `isLeast_of_potential`: if moreover the potential leads back to the source over links that it
  rises by their lengths, it is the length of a shortest route.
-/

/-- There is a route of a length from the source to a node. -/
inductive Route {V : Type*} (link : V → V → ℕ → Prop) (source : V) : V → ℕ → Prop
  /-- The route without a link. -/
  | start : Route link source source 0
  /-- One link more. -/
  | extend {x y : V} {length step : ℕ} :
      Route link source x length → link x y step → Route link source y (length + step)

namespace Route

variable {V : Type*} {link : V → V → ℕ → Prop} {source x : V} {potential : V → ℕ}

/-- A potential that rises by no more than the length of each link is no greater than the length of
any route. -/
theorem le_of_potential {length : ℕ} (h : Route link source x length)
    (hsource : potential source = 0)
    (hlink : ∀ {x y step}, link x y step → potential y ≤ potential x + step) :
    potential x ≤ length := by
  induction h with
  | start => exact hsource.le
  | @extend x y length step _ hstep ih =>
    calc potential y ≤ potential x + step := hlink hstep
      _ ≤ length + step := Nat.add_le_add_right ih step

/-- When every other node that satisfies `p` has a link from one of lower potential that satisfies
it, by which the potential rises by its length, there is a route of this length. -/
theorem of_potential {p : V → Prop} (hsource : potential source = 0)
    (hback : ∀ y, p y → y ≠ source →
      ∃ x step, p x ∧ link x y step ∧ potential y = potential x + step ∧ 0 < step)
    (hx : p x) : Route link source x (potential x) := by
  induction hn : potential x using Nat.strong_induction_on generalizing x with
  | _ n ih =>
    by_cases heq : x = source
    · rw [← hn, heq, hsource]
      exact .start
    · obtain ⟨w, step, hw, hstep, hpotential, hpos⟩ := hback x hx heq
      rw [← hn, hpotential]
      exact .extend (ih _ (by omega) hw rfl) hstep

/-- Such a potential is the length of a shortest route. -/
theorem isLeast_of_potential (potential : V → ℕ) (p : V → Prop) (hsource : potential source = 0)
    (hlink : ∀ {x y step}, link x y step → potential y ≤ potential x + step)
    (hback : ∀ y, p y → y ≠ source →
      ∃ x step, p x ∧ link x y step ∧ potential y = potential x + step ∧ 0 < step)
    (hx : p x) : IsLeast {length | Route link source x length} (potential x) :=
  ⟨of_potential hsource hback hx, fun _ h => h.le_of_potential hsource hlink⟩

end Route
