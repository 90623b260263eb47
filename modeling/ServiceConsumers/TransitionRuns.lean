import Mathlib.Data.List.Basic

set_option autoImplicit false

/-!
# Runs of a machine whose steps may fault

A step either yields the next state or stops with a fault. `Reach` collects the
states of every run whose steps all satisfy a side condition on the state before
the step and the event; an invariant of the steps is an invariant of the runs.
-/

namespace ServiceConsumers.TransitionRuns

variable {State Event Fault : Type}

/-- A bind succeeds exactly when both of its halves do. -/
theorem bind_eq_ok {α β : Type} {x : Except Fault α} {f : α → Except Fault β} {b : β} :
    (x >>= f) = .ok b ↔ ∃ a, x = .ok a ∧ f a = .ok b := by
  cases x with
  | error e => simp [bind, Except.bind]
  | ok a => simp [bind, Except.bind]

/-- A run from what is seen of its end. -/
theorem exists_of_observed {S V : Type} {x : Except Fault S} {f : S → V} {v : V}
    (h : x.toOption.map f = some v) : ∃ s, x = .ok s ∧ f s = v := by
  cases x with
  | error e => cases h
  | ok s => exact ⟨s, rfl, Option.some.inj h⟩

/-- What the items of a list preserve, a loop over the list preserves. The relation
may mention the items still to come, so that the loop can consume them. -/
theorem foldlM_ok_induction {α : Type} {f : State → α → Except Fault State}
    (P : List α → State → Prop)
    (hstep : ∀ x xs s s', P (x :: xs) s → f s x = .ok s' → P xs s') :
    ∀ (xs : List α) (s s' : State), P xs s → xs.foldlM f s = .ok s' → P [] s' := by
  intro xs
  induction xs with
  | nil =>
      intro s s' hP h
      simp only [List.foldlM_nil, pure, Except.pure, Except.ok.injEq] at h
      exact h ▸ hP
  | cons x xs ih =>
      intro s s' hP h
      rw [List.foldlM_cons] at h
      obtain ⟨u, hu, hrest⟩ := bind_eq_ok.1 h
      exact ih u s' (hstep x xs s u hP hu) hrest

theorem foldlM_append_singleton {α : Type} {f : State → α → Except Fault State} {xs : List α}
    {x : α} {s t u : State} (hxs : xs.foldlM f s = .ok t) (hx : f t x = .ok u) :
    (xs ++ [x]).foldlM f s = .ok u := by
  rw [List.foldlM_append, hxs]
  simp [bind, Except.bind, hx, pure, Except.pure]

/-! ## Outcomes -/

/-- The outcome of a computation satisfies `Q`, or it is a fault that `F` allows. -/
def Outcome {α : Type} (F : Fault → Prop) (Q : α → Prop) : Except Fault α → Prop
  | .ok a => Q a
  | .error f => F f

namespace Outcome

variable {α β : Type} {F G : Fault → Prop} {P Q : α → Prop} {x : Except Fault α}

theorem of_cases (hok : ∀ a, x = .ok a → Q a) (herror : ∀ f, x = .error f → F f) :
    Outcome F Q x := by
  cases x with
  | ok a => exact hok a rfl
  | error f => exact herror f rfl

theorem ok {a : α} (h : Outcome F Q x) (hx : x = .ok a) : Q a := by
  subst hx
  exact h

theorem error {f : Fault} (h : Outcome F Q x) (hx : x = .error f) : F f := by
  subst hx
  exact h

theorem mono (h : Outcome F P x) (hPQ : ∀ a, P a → Q a) (hFG : ∀ f, F f → G f) :
    Outcome G Q x := by
  cases x with
  | ok a => exact hPQ a h
  | error f => exact hFG f h

theorem bind {R : β → Prop} {f : α → Except Fault β} (hx : Outcome F P x)
    (hf : ∀ a, P a → Outcome F R (f a)) : Outcome F R (x >>= f) := by
  cases x with
  | ok a => exact hf a hx
  | error e => exact hx

/-- As `bind`, with what the first half yields at hand. -/
theorem bind_ok {R : β → Prop} {f : α → Except Fault β} (hx : Outcome F (fun _ => True) x)
    (hf : ∀ a, x = .ok a → Outcome F R (f a)) : Outcome F R (x >>= f) := by
  cases x with
  | ok a => exact hf a rfl
  | error e => exact hx

/-- A loop whose items keep `P` ends in it, or in a fault of one of the items. -/
theorem foldlM {f : State → α → Except Fault State} (P : List α → State → Prop)
    (hstep : ∀ x xs s, P (x :: xs) s → Outcome F (P xs) (f s x)) :
    ∀ (xs : List α) (s : State), P xs s → Outcome F (P []) (xs.foldlM f s) := by
  intro xs
  induction xs with
  | nil => exact fun s hP => hP
  | cons x xs ih =>
      intro s hP
      rw [List.foldlM_cons]
      exact (hstep x xs s hP).bind ih

end Outcome

/-! ## Runs -/

/-- States reached from `init` by steps that do not fault and satisfy `good`. -/
inductive Reach (step : State → Event → Except Fault State) (good : State → Event → Prop)
    (init : State) : State → Prop where
  | init : Reach step good init init
  | next {w w' : State} {e : Event} (run : Reach step good init w) (cond : good w e)
      (fires : step w e = .ok w') : Reach step good init w'

variable {step : State → Event → Except Fault State} {good good' : State → Event → Prop}
  {init : State}

theorem Reach.invariant (I : State → Prop) (h0 : I init)
    (hstep : ∀ w e w', Reach step good init w → I w → good w e → step w e = .ok w' → I w')
    {w : State} (h : Reach step good init w) : I w := by
  induction h with
  | init => exact h0
  | next run cond fires ih => exact hstep _ _ _ run ih cond fires

theorem Reach.mono (hgood : ∀ w e, good w e → good' w e) {w : State}
    (h : Reach step good init w) : Reach step good' init w := by
  induction h with
  | init => exact .init
  | next _ cond fires ih => exact .next ih (hgood _ _ cond) fires

/-- Runs whose steps are unconstrained. -/
abbrev Reachable (step : State → Event → Except Fault State) (init : State) : State → Prop :=
  Reach step (fun _ _ => True) init

theorem Reach.reachable {w : State} (h : Reach step good init w) : Reachable step init w :=
  h.mono fun _ _ _ => trivial

/-! ## Concrete runs -/

/-- The state after an event; a fault leaves the state where it was. -/
def advance (step : State → Event → Except Fault State) (w : State) (e : Event) : State :=
  match step w e with
  | .ok w' => w'
  | .error _ => w

theorem step_eq_advance {w : State} {e : Event} (h : (step w e).toBool = true) :
    step w e = .ok (advance step w e) := by
  unfold advance
  cases hstep : step w e with
  | ok w' => rfl
  | error f =>
      rw [hstep] at h
      cases h

/-- The events satisfy the condition, each in the state the ones before it lead to. -/
def GoodFrom (step : State → Event → Except Fault State) (good : State → Event → Prop) :
    State → List Event → Prop
  | _, [] => True
  | w, e :: es => good w e ∧ GoodFrom step good (advance step w e) es

theorem Reach.advance {w : State} {e : Event} (h : Reach step good init w) (hgood : good w e) :
    Reach step good init (advance step w e) := by
  unfold TransitionRuns.advance
  cases hstep : step w e with
  | ok w' => exact .next h hgood hstep
  | error f => exact h

theorem Reach.of_goodFrom (es : List Event) {w : State} (h : Reach step good init w)
    (hgood : GoodFrom step good w es) :
    Reach step good init (es.foldl (TransitionRuns.advance step) w) := by
  induction es generalizing w with
  | nil => exact h
  | cons e es ih => exact ih (h.advance hgood.1) hgood.2

/-- Without a condition every list of events leads to a reachable state. -/
theorem Reachable.of_events (es : List Event) :
    Reachable step init (es.foldl (TransitionRuns.advance step) init) := by
  refine Reach.of_goodFrom es .init ?_
  generalize init = w
  induction es generalizing w with
  | nil => exact trivial
  | cons e es ih => exact ⟨trivial, ih _⟩

/-! ## Histories

A machine that also keeps a record of its run. The steps do not read the record. -/

section History

variable {Record : Type} (record : State → Event → Record → Record)

def withHistory (step : State → Event → Except Fault State) (p : State × Record) (e : Event) :
    Except Fault (State × Record) := do
  let w ← step p.1 e
  .ok (w, record p.1 e p.2)

variable {record} {r : Record}

theorem withHistory_eq_ok {p q : State × Record} {e : Event} :
    withHistory record step p e = .ok q ↔ step p.1 e = .ok q.1 ∧ q.2 = record p.1 e p.2 := by
  simp only [withHistory, bind_eq_ok, Except.ok.injEq]
  constructor
  · rintro ⟨w, hw, rfl⟩
    exact ⟨hw, rfl⟩
  · rintro ⟨hw, hq⟩
    exact ⟨q.1, hw, Prod.ext rfl hq.symm⟩

/-- The history does not restrict the runs. -/
theorem Reach.withHistory {w : State} (h : Reach step good init w) :
    ∃ q, Reach (withHistory record step) (fun p e => good p.1 e) (init, r) (w, q) := by
  induction h with
  | init => exact ⟨r, .init⟩
  | next run cond fires ih =>
      obtain ⟨q, hq⟩ := ih
      exact ⟨_, .next hq cond (withHistory_eq_ok.2 ⟨fires, rfl⟩)⟩

theorem Reach.forget {good : State × Record → Event → Prop} {p : State × Record}
    (h : Reach (TransitionRuns.withHistory record step) good (init, r) p) :
    Reachable step init p.1 := by
  induction h with
  | init => exact .init
  | next run cond fires ih => exact .next ih trivial (withHistory_eq_ok.1 fires).1

end History

end ServiceConsumers.TransitionRuns
