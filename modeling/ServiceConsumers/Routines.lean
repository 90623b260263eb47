import ServiceConsumers.TransitionRuns

set_option autoImplicit false

/-!
# Routines that call their environment back

A routine runs until it ends or calls its environment. In a call it hands out its state
and goes on with whatever state the environment hands back.
-/

namespace ServiceConsumers.Routines

open TransitionRuns

inductive Routine (State Fault : Type) where
  | ended (outcome : Except Fault State)
  | calling (w : State) (rest : State → Routine State Fault)

namespace Routine

variable {State Fault α : Type}

/-- A computation without calls, then a routine. -/
def after (x : Except Fault α) (f : α → Routine State Fault) : Routine State Fault :=
  match x with
  | .ok a => f a
  | .error e => .ended (.error e)

def andThen (r : Routine State Fault) (f : State → Routine State Fault) : Routine State Fault :=
  match r with
  | .ended (.ok w) => f w
  | .ended (.error e) => .ended (.error e)
  | .calling w rest => .calling w fun v => (rest v).andThen f

def loop (f : State → α → Routine State Fault) : List α → State → Routine State Fault
  | [], w => .ended (.ok w)
  | a :: as, w => (f w a).andThen (loop f as)

/-! ## A silent environment -/

/-- The outcome when the environment hands back the state as it is. -/
def run : Routine State Fault → Except Fault State
  | .ended outcome => outcome
  | .calling w rest => (rest w).run

@[simp] theorem run_after (x : Except Fault α) (f : α → Routine State Fault) :
    (after x f).run = x >>= fun a => (f a).run := by
  cases x <;> rfl

@[simp] theorem run_andThen (r : Routine State Fault) (f : State → Routine State Fault) :
    (r.andThen f).run = r.run >>= fun w => (f w).run := by
  induction r with
  | ended outcome => cases outcome <;> rfl
  | calling w rest ih => exact ih w

@[simp] theorem run_loop (f : State → α → Routine State Fault) (as : List α) (w : State) :
    (loop f as w).run = as.foldlM (fun v a => (f v a).run) w := by
  induction as generalizing w with
  | nil => rfl
  | cons a as ih =>
      rw [loop, run_andThen, List.foldlM_cons]
      exact congrArg (_ >>= ·) (funext ih)

/-! ## What an environment can rely on, and what it must keep -/

/-- In its calls and at its end the routine hands out a state that satisfies `C`, as long as
the environment hands back such states; it may end in a fault that `F` allows. -/
def Keeps (F : Fault → Prop) (C : State → Prop) : Routine State Fault → Prop
  | .ended outcome => Outcome F C outcome
  | .calling w rest => C w ∧ ∀ v, C v → (rest v).Keeps F C

variable {F : Fault → Prop} {C : State → Prop}

theorem Keeps.after {P : α → Prop} {x : Except Fault α} {f : α → Routine State Fault}
    (hx : Outcome F P x) (hf : ∀ a, P a → (f a).Keeps F C) : (Routine.after x f).Keeps F C := by
  cases x with
  | ok a => exact hf a hx
  | error e => exact hx

theorem Keeps.andThen {r : Routine State Fault} {f : State → Routine State Fault}
    (hr : r.Keeps F C) (hf : ∀ w, C w → (f w).Keeps F C) : (r.andThen f).Keeps F C := by
  induction r with
  | ended outcome =>
      cases outcome with
      | ok w => exact hf w hr
      | error e => exact hr
  | calling w rest ih => exact ⟨hr.1, fun v hv => ih v (hr.2 v hv)⟩

theorem Keeps.loop {f : State → α → Routine State Fault}
    (hf : ∀ w a, C w → (f w a).Keeps F C) (as : List α) {w : State} (hw : C w) :
    (Routine.loop f as w).Keeps F C := by
  induction as generalizing w with
  | nil => exact hw
  | cons a as ih => exact (hf w a hw).andThen fun v hv => ih hv

end Routine

end ServiceConsumers.Routines
