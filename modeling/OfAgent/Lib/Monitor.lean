import Mathlib.Data.List.Basic

/-!
# Monitored computations

Computations with a state that may fail and that are seen to do things on the way, and a calculus
of weakest preconditions for them whose rules are equivalences: what a computation needs is exactly
what its parts need.

* `Monitored ω ε σ`: the monad. `observe`, `fail`, `get`, `modify` and `attempt` are its operations.
* `Contract`: what is asked of every thing that is seen, and of a failure.
* `Meets x c Q s`: from `s`, the computation `x` keeps the contract `c`, and its result satisfies
  `Q`. `meets_bind` and the rules for the operations reduce it to arithmetic and logic.
* `Meets.mono`, `Meets.of_result`: from one demand to another.
* `Keeps P x`: the computation `x` keeps an invariant of the state, with a rule for each operation.
-/

universe u

/-- A computation from a state: what it is seen to do, and its failure, or its value and its last
state. -/
def Monitored (ω ε σ α : Type u) : Type u := σ → List ω × Except ε (α × σ)

namespace Monitored

variable {ω ε σ α β : Type u}

/-- A step that follows a computation, unless that has failed. -/
def andThen (x : Monitored ω ε σ α) (f : α → Monitored ω ε σ β) : Monitored ω ε σ β := fun s =>
  match x s with
  | (log, .error e) => (log, .error e)
  | (log, .ok (a, s')) => (log ++ (f a s').1, (f a s').2)

instance : Monad (Monitored ω ε σ) where
  pure a := fun s => ([], .ok (a, s))
  bind := andThen

/-- Something is seen. -/
def observe (o : ω) : Monitored ω ε σ PUnit := fun s => ([o], .ok (⟨⟩, s))

/-- A failure. -/
def fail (e : ε) : Monitored ω ε σ α := fun _ => ([], .error e)

/-- The state. -/
def get : Monitored ω ε σ σ := fun s => ([], .ok (s, s))

/-- A change of the state. -/
def modify (f : σ → σ) : Monitored ω ε σ PUnit := fun s => ([], .ok (⟨⟩, f s))

/-- A change of the state that may fail. -/
def attempt (f : σ → Except ε σ) : Monitored ω ε σ PUnit := fun s =>
  match f s with
  | .error e => ([], .error e)
  | .ok s' => ([], .ok (⟨⟩, s'))

/-- What is asked of a computation, apart from its result. -/
structure Contract (ω ε : Type u) where
  /-- What is asked of everything that it is seen to do. -/
  seen : ω → Prop
  /-- What is asked of its failure. -/
  failed : ε → Prop

/-- The contract that asks for nothing. -/
def Contract.any : Contract ω ε := ⟨fun _ => True, fun _ => True⟩

/-- From a state, a computation keeps a contract, and its value and its last state satisfy `Q`. -/
def Meets (x : Monitored ω ε σ α) (c : Contract ω ε) (Q : α → σ → Prop) (s : σ) : Prop :=
  (∀ o ∈ (x s).1, c.seen o) ∧
    match (x s).2 with
    | .error e => c.failed e
    | .ok (a, s') => Q a s'

/-! ### Rules -/

variable {x : Monitored ω ε σ α} {f : α → Monitored ω ε σ β} {c : Contract ω ε}
  {Q Q' : α → σ → Prop} {R : β → σ → Prop} {s s' : σ}

/-- A value alone. -/
@[simp]
theorem meets_pure (a : α) : Meets (pure a : Monitored ω ε σ α) c Q s ↔ Q a s := by
  change (∀ o ∈ ([] : List ω), c.seen o) ∧ Q a s ↔ Q a s
  simp

/-- A computation and what follows it. -/
@[simp]
theorem meets_bind :
    Meets (x >>= f) c R s ↔ Meets x c (fun a s' => Meets (f a) c R s') s := by
  change Meets (andThen x f) c R s ↔ _
  unfold Meets andThen
  rcases hx : x s with ⟨log, e | ⟨a, s'⟩⟩
  · exact Iff.rfl
  · simp only [List.mem_append]
    -- what is seen is seen by one of the two
    constructor
    · rintro ⟨hseen, hrest⟩
      exact ⟨fun o ho => hseen o (.inl ho), fun o ho => hseen o (.inr ho), hrest⟩
    · rintro ⟨hx, hf, hrest⟩
      exact ⟨fun o ho => ho.elim (hx o) (hf o), hrest⟩

/-- Something that is seen. -/
@[simp]
theorem meets_observe {Q : PUnit → σ → Prop} (o : ω) :
    Meets (observe o : Monitored ω ε σ PUnit) c Q s ↔ c.seen o ∧ Q ⟨⟩ s := by
  simp [Meets, observe]

/-- A failure. -/
@[simp]
theorem meets_fail (e : ε) : Meets (fail e : Monitored ω ε σ α) c Q s ↔ c.failed e := by
  simp [Meets, fail]

/-- The state. -/
@[simp]
theorem meets_get {Q : σ → σ → Prop} : Meets (get : Monitored ω ε σ σ) c Q s ↔ Q s s := by
  simp [Meets, get]

/-- A change of the state. -/
@[simp]
theorem meets_modify {Q : PUnit → σ → Prop} (g : σ → σ) :
    Meets (modify g : Monitored ω ε σ PUnit) c Q s ↔ Q ⟨⟩ (g s) := by
  simp [Meets, modify]

/-- A change of the state that may fail. -/
@[simp]
theorem meets_attempt {Q : PUnit → σ → Prop} (g : σ → Except ε σ) :
    Meets (attempt g : Monitored ω ε σ PUnit) c Q s ↔
      match g s with
      | .error e => c.failed e
      | .ok s' => Q ⟨⟩ s' := by
  unfold Meets attempt
  cases g s <;> simp

theorem meets_ite {p : Prop} [Decidable p] {y : Monitored ω ε σ α} :
    Meets (if p then x else y) c Q s ↔ (p → Meets x c Q s) ∧ (¬ p → Meets y c Q s) := by
  by_cases hp : p <;> simp [hp]

theorem Meets.mono (h : Meets x c Q s) (hQ : ∀ a s', Q a s' → Q' a s') : Meets x c Q' s := by
  obtain ⟨hseen, hresult⟩ := h
  refine ⟨hseen, ?_⟩
  rcases hx : (x s).2 with e | ⟨a, s'⟩
  · rw [hx] at hresult
    exact hresult
  · rw [hx] at hresult
    exact hQ a s' hresult

/-- What is asked of a result holds of the result that there is. -/
theorem Meets.of_result (h : Meets x c Q s) {a : α} (hx : (x s).2 = .ok (a, s')) : Q a s' := by
  have hresult := h.2
  rw [hx] at hresult
  exact hresult

/-- A contract that asks for nothing is about the result only. -/
theorem meets_any_iff : Meets x .any Q s ↔ ∀ a s', (x s).2 = .ok (a, s') → Q a s' := by
  refine ⟨fun h a s' hx => h.of_result hx, fun h => ⟨fun _ _ => trivial, ?_⟩⟩
  rcases hx : (x s).2 with e | ⟨a, s'⟩
  · trivial
  · exact h a s' hx

/-- A computation that may not fail has a result. -/
theorem Meets.exists_ok (h : Meets x ⟨fun _ => True, fun _ => False⟩ Q s) :
    ∃ a s', (x s).2 = .ok (a, s') ∧ Q a s' := by
  obtain ⟨-, hresult⟩ := h
  rcases hx : (x s).2 with e | ⟨a, s'⟩
  · rw [hx] at hresult
    exact hresult.elim
  · rw [hx] at hresult
    exact ⟨a, s', rfl, hresult⟩

/-- What follows a computation has to be known for the results only that it can have. -/
theorem bind_eq_bind_of_meets {g : α → Monitored ω ε σ β}
    (h : Meets x c (fun a s' => f a s' = g a s') s) : (x >>= f) s = (x >>= g) s := by
  show andThen x f s = andThen x g s
  unfold andThen
  rcases hx : x s with ⟨log, e | ⟨a, s'⟩⟩
  · rfl
  · have hresult : f a s' = g a s' := h.of_result (congrArg Prod.snd hx)
    simp only [hresult]

/-- A contract that asks nothing of what is seen is about the failure only. -/
theorem meets_iff_failure {failed : ε → Prop} :
    Meets x ⟨fun _ => True, failed⟩ (fun _ _ => True) s ↔ ∀ e, (x s).2 = .error e → failed e := by
  unfold Meets
  rcases (x s).2 with e | ⟨a, s'⟩
  · simp
  · simp

/-- A contract that asks nothing of a failure is about what is seen only. -/
theorem meets_iff_seen {seen : ω → Prop} :
    Meets x ⟨seen, fun _ => True⟩ (fun _ _ => True) s ↔ ∀ o ∈ (x s).1, seen o := by
  unfold Meets
  rcases (x s).2 with e | ⟨a, s'⟩ <;> simp

/-! ### Invariants -/

/-- The computation leads from states that satisfy `P` to such states, if it does not fail. -/
def Keeps (P : σ → Prop) (x : Monitored ω ε σ α) : Prop :=
  ∀ s, P s → Meets x .any (fun _ s' => P s') s

namespace Keeps

variable {P : σ → Prop}

theorem pure (a : α) : Keeps P (Pure.pure a : Monitored ω ε σ α) :=
  fun _ hP => (meets_pure a).2 hP

theorem bind (hx : Keeps P x) (hf : ∀ a, Keeps P (f a)) : Keeps P (x >>= f) :=
  fun s hP => meets_bind.2 ((hx s hP).mono fun a s' hP' => hf a s' hP')

theorem bind_of {V : α → Prop} (hx : ∀ s, P s → Meets x .any (fun a s' => V a ∧ P s') s)
    (hf : ∀ a, V a → Keeps P (f a)) : Keeps P (x >>= f) :=
  fun s hP => meets_bind.2 ((hx s hP).mono fun a s' hV => hf a hV.1 s' hV.2)

theorem observe (o : ω) : Keeps P (Monitored.observe o : Monitored ω ε σ PUnit) :=
  fun _ hP => (meets_observe o).2 ⟨trivial, hP⟩

theorem fail (e : ε) : Keeps P (Monitored.fail e : Monitored ω ε σ α) :=
  fun _ _ => (meets_fail e).2 trivial

/-- The state, and what is done with one that satisfies the invariant. -/
theorem get_bind {f : σ → Monitored ω ε σ β}
    (hf : ∀ s, P s → Meets (f s) .any (fun _ s' => P s') s) :
    Keeps P (Monitored.get >>= f) :=
  fun s hP => meets_bind.2 (meets_get.2 (hf s hP))

theorem get_bind_all {f : σ → Monitored ω ε σ β} (hf : ∀ s, Keeps P (f s)) :
    Keeps P (Monitored.get >>= f) :=
  get_bind fun s hP => hf s s hP

theorem modify {g : σ → σ} (hg : ∀ s, P s → P (g s)) :
    Keeps P (Monitored.modify g : Monitored ω ε σ PUnit) :=
  fun s hP => (meets_modify g).2 (hg s hP)

/-- A change of the state that may fail. -/
theorem attempt {g : σ → Except ε σ} (hg : ∀ s s', P s → g s = .ok s' → P s') :
    Keeps P (Monitored.attempt g : Monitored ω ε σ PUnit) := by
  intro s hP
  rw [meets_attempt]
  cases h : g s with
  | error e => trivial
  | ok s' => exact hg s s' hP h

theorem ite {p : Prop} [Decidable p] {y : Monitored ω ε σ α} (hx : p → Keeps P x)
    (hy : ¬ p → Keeps P y) : Keeps P (if p then x else y) := by
  by_cases hp : p
  · rw [if_pos hp]
    exact hx hp
  · rw [if_neg hp]
    exact hy hp

end Keeps

end Monitored
