import Mathlib.Data.List.Forall2

/-!
# Labelled transition systems

Runs of a labelled step relation and the rules that carry a fact about one step to every state
a run reaches.

* `ReachableVia Step ok init s`: some run from `init` leads to `s`, and every step of it, taken
  from state `s₁` on event `e`, satisfies the side condition `ok s₁ e`. `Reachable` is the case
  without a side condition.
* `ReachableVia.invariant`: what holds initially and is kept by every admitted step holds in
  every reached state.
* `ReachableVia.simulation`: a projection that maps each step to a run maps runs to runs.
* `Run Step init es s`: some run from `init` leads to `s`, on the events `es`; `Run.simulation`: if
  related states have related steps, related states have related runs, event by event.
* `Since p q l`: an entry of a log satisfies `p`, and no later one satisfies `q`.
* `reachable_of_foldl`, `reachable_of_foldlM`: an executable step that runs through a list of
  events reaches the state it computes; `foldlM_eq_error_iff`: where it meets a fault.
-/

namespace Transition

variable {σ τ ε δ φ : Type*}

/-- The states that runs of `Step` from `init` reach when every step satisfies `ok`. -/
inductive ReachableVia (Step : σ → ε → σ → Prop) (ok : σ → ε → Prop) (init : σ) : σ → Prop
  | refl : ReachableVia Step ok init init
  | tail {s s' : σ} {e : ε} :
      ReachableVia Step ok init s → ok s e → Step s e s' → ReachableVia Step ok init s'

/-- The states that runs of `Step` from `init` reach. -/
abbrev Reachable (Step : σ → ε → σ → Prop) (init : σ) : σ → Prop :=
  ReachableVia Step (fun _ _ => True) init

variable {Step : σ → ε → σ → Prop} {ok ok' : σ → ε → Prop} {init s s' : σ}

theorem Reachable.step {e : ε} (h : Reachable Step init s) (hs : Step s e s') :
    Reachable Step init s' :=
  h.tail trivial hs

namespace ReachableVia

variable (Inv : σ → Prop)

/-- The invariant rule: initial states satisfy `Inv` and admitted steps keep it. -/
theorem invariant (h0 : Inv init)
    (hstep : ∀ s e s', Inv s → ok s e → Step s e s' → Inv s')
    (h : ReachableVia Step ok init s) : Inv s := by
  induction h with
  | refl => exact h0
  | tail _ hok hs ih => exact hstep _ _ _ ih hok hs

/-- The invariant rule when the step may also use that its source is reached. -/
theorem invariant_of_reached (h0 : Inv init)
    (hstep : ∀ s e s', ReachableVia Step ok init s → Inv s → ok s e → Step s e s' → Inv s')
    (h : ReachableVia Step ok init s) : Inv s := by
  induction h with
  | refl => exact h0
  | tail hr hok hs ih => exact hstep _ _ _ hr ih hok hs

/-- A weaker side condition admits more runs. -/
theorem mono (himp : ∀ s e, ok s e → ok' s e) (h : ReachableVia Step ok init s) :
    ReachableVia Step ok' init s := by
  induction h with
  | refl => exact .refl
  | tail _ hok hs ih => exact .tail ih (himp _ _ hok) hs

theorem reachable (h : ReachableVia Step ok init s) : Reachable Step init s :=
  h.mono fun _ _ _ => trivial

theorem trans {s₂ : σ} (h : ReachableVia Step ok init s) (h' : ReachableVia Step ok s s₂) :
    ReachableVia Step ok init s₂ := by
  induction h' with
  | refl => exact h
  | tail _ hok hs ih => exact .tail ih hok hs

/-- If `f` maps each admitted step to a run of the other system, it maps runs to runs. -/
theorem simulation {Step' : τ → δ → τ → Prop} {ok' : τ → δ → Prop} {f : σ → τ}
    (hsim : ∀ s e s', ok s e → Step s e s' → ReachableVia Step' ok' (f s) (f s'))
    (h : ReachableVia Step ok init s) : ReachableVia Step' ok' (f init) (f s) := by
  induction h with
  | refl => exact .refl
  | tail _ hok hs ih => exact ih.trans (hsim _ _ _ hok hs)

end ReachableVia

/-- The runs of `Step` from `init`, with their events. -/
inductive Run (Step : σ → ε → σ → Prop) (init : σ) : List ε → σ → Prop
  | refl : Run Step init [] init
  | tail {es : List ε} {e : ε} {s s' : σ} :
      Run Step init es s → Step s e s' → Run Step init (es ++ [e]) s'

/-- If every step from a state has one from each related state, on a related event, then every run
has such a run. -/
theorem Run.simulation {Step' : τ → δ → τ → Prop} {R : σ → τ → Prop} {L : ε → δ → Prop}
    (hsim : ∀ s t e s', R s t → Step s e s' → ∃ e' t', L e e' ∧ R s' t' ∧ Step' t e' t')
    {init' : τ} (h0 : R init init') {es : List ε} (h : Run Step init es s) :
    ∃ es' t, List.Forall₂ L es es' ∧ R s t ∧ Run Step' init' es' t := by
  induction h with
  | refl => exact ⟨[], init', .nil, h0, .refl⟩
  | tail _ hstep ih =>
    obtain ⟨es', t, hes, hrel, hrun⟩ := ih
    obtain ⟨e', t', he, hrel', hstep'⟩ := hsim _ _ _ _ hrel hstep
    exact ⟨es' ++ [e'], t', List.rel_append hes (.cons he .nil), hrel', hrun.tail hstep'⟩

/-- The state computed by running a total step function through a list of events is reachable. -/
theorem reachable_of_foldl {next : σ → ε → σ} (es : List ε) (s : σ) :
    Reachable (fun s e s' => s' = next s e) s (es.foldl next s) := by
  induction es generalizing s with
  | nil => exact .refl
  | cons e es ih => exact (Reachable.step .refl rfl).trans (ih (next s e))

/-- An executable step, read as a step relation: the step does not fault. -/
def StepOf (exec : σ → ε → Except φ σ) (s : σ) (e : ε) (s' : σ) : Prop := exec s e = .ok s'

/-- The state computed by running an executable step through a list of events is reachable. -/
theorem reachable_of_foldlM {exec : σ → ε → Except φ σ} {es : List ε} {s s' : σ}
    (h : es.foldlM exec s = .ok s') : Reachable (StepOf exec) s s' := by
  induction es generalizing s with
  | nil =>
    simp only [List.foldlM_nil, pure, Except.pure, Except.ok.injEq] at h
    exact h ▸ .refl
  | cons e es ih =>
    rw [List.foldlM_cons] at h
    cases hs : exec s e with
    | error x => simp [hs, bind, Except.bind] at h
    | ok s₁ =>
      simp only [hs, bind, Except.bind] at h
      exact (Reachable.step .refl hs).trans (ih h)

/-- The state behind a list of events, when none of them meets a fault. -/
def runTo (exec : σ → ε → Except φ σ) (s : σ) (es : List ε) : σ :=
  (es.foldlM exec s).toOption.getD s

/-- A run without faults reaches the state that it computes. -/
theorem reachable_runTo {exec : σ → ε → Except φ σ} {es : List ε} {s : σ}
    (h : (es.foldlM exec s).toOption.isSome = true) :
    Reachable (StepOf exec) s (runTo exec s es) := by
  cases hrun : es.foldlM exec s with
  | error e => simp [hrun, Except.toOption] at h
  | ok s' =>
    have hs : runTo exec s es = s' := by
      rw [runTo, hrun]
      rfl
    rw [hs]
    exact reachable_of_foldlM hrun

/-- An executable step that runs through a list of events meets a fault at one of them. -/
theorem foldlM_eq_error_iff {exec : σ → ε → Except φ σ} {es : List ε} {s : σ} {x : φ} :
    es.foldlM exec s = .error x ↔
      ∃ pre e post s', es = pre ++ e :: post ∧ pre.foldlM exec s = .ok s' ∧
        exec s' e = .error x := by
  constructor
  · intro h
    induction es generalizing s with
    | nil => cases h
    | cons e es ih =>
      rw [List.foldlM_cons] at h
      cases hs : exec s e with
      | error y =>
        rw [hs] at h
        exact ⟨[], e, es, s, rfl, rfl, hs.trans h⟩
      | ok s₁ =>
        rw [hs] at h
        obtain ⟨pre, e', post, s', rfl, hpre, he'⟩ := ih h
        refine ⟨e :: pre, e', post, s', rfl, ?_, he'⟩
        rw [List.foldlM_cons, hs]
        exact hpre
  · rintro ⟨pre, e, post, s', rfl, hpre, he⟩
    rw [List.foldlM_append, hpre]
    simp only [bind, Except.bind, List.foldlM_cons, he]

/-- An entry of the log satisfies `p`, and no later entry satisfies `q`. Both may depend on the
position of the entry. -/
def Since (p q : ℕ → ε → Prop) (l : List ε) : Prop :=
  ∃ i e, l[i]? = some e ∧ p i e ∧ ∀ j e', i < j → l[j]? = some e' → ¬ q j e'

section Since

variable {p q : ℕ → ε → Prop}

/-- An empty log has no entry. -/
@[simp]
theorem not_since_nil : ¬ Since p q [] := by
  rintro ⟨i, e, h, -⟩
  cases h

/-- One more entry: it satisfies `p`, or it does not end what held before. -/
theorem since_concat {l : List ε} {e : ε} :
    Since p q (l ++ [e]) ↔ p l.length e ∨ (¬ q l.length e ∧ Since p q l) := by
  have hlast : (l ++ [e])[l.length]? = some e := by simp
  constructor
  · rintro ⟨i, x, hi, hp, hq⟩
    have hle : i < l.length + 1 := by
      have hlt := (List.getElem?_eq_some_iff.1 hi).1
      rwa [List.length_append, List.length_singleton] at hlt
    -- the entry that satisfies `p` is the last one or an earlier one
    obtain rfl | hlt := Nat.eq_or_lt_of_le (Nat.le_of_lt_succ hle)
    · rw [hlast] at hi
      exact .inl (Option.some.inj hi ▸ hp)
    · refine .inr ⟨hq _ _ hlt hlast, i, x, ?_, hp, fun j y hj hy => hq j y hj ?_⟩
      · rwa [List.getElem?_append_left hlt] at hi
      · rwa [List.getElem?_append_left (List.getElem?_eq_some_iff.1 hy).1]
  · rintro (hp | ⟨hq, i, x, hi, hp, hbefore⟩)
    · refine ⟨l.length, e, hlast, hp, fun j y hj hy => ?_⟩
      have hlt := (List.getElem?_eq_some_iff.1 hy).1
      rw [List.length_append, List.length_singleton] at hlt
      omega
    · have hlt := (List.getElem?_eq_some_iff.1 hi).1
      refine ⟨i, x, ?_, hp, fun j y hj hy => ?_⟩
      · rwa [List.getElem?_append_left hlt]
      · obtain hjl | hjl := Nat.lt_or_ge j l.length
        · rw [List.getElem?_append_left hjl] at hy
          exact hbefore j y hj hy
        · have hjlt := (List.getElem?_eq_some_iff.1 hy).1
          rw [List.length_append, List.length_singleton] at hjlt
          obtain rfl : j = l.length := by omega
          rw [hlast] at hy
          exact Option.some.inj hy ▸ hq

end Since

end Transition
