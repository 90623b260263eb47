import ServiceConsumers.TransitionRuns

set_option autoImplicit false

/-!
# Event loops

An application is a state machine with a queue of events of its own, on top of a library that
has events too. A handler may move the machine; then the state that it leaves and the state
that it enters are signalled.
-/

namespace ServiceConsumers.EventLoops

open TransitionRuns

variable {Q Own Lib W Fault : Type}

inductive Signal (Own Lib : Type) where
  | entry
  | exit
  | own (e : Own)
  | library (e : Lib)

/-- `takes` says whether the queue takes what is posted, and `exited` is the status of the
process once it has ended itself. -/
structure Loop (Q Own W : Type) where
  state : Q
  queue : List Own := []
  world : W
  takes : Bool := true
  exited : Option ℕ := none

namespace Loop

def post (m : Loop Q Own W) (e : Own) : Loop Q Own W :=
  if m.takes then { m with queue := m.queue ++ [e] } else m

def postAll (m : Loop Q Own W) (es : List Own) : Loop Q Own W := es.foldl post m

def goto (m : Loop Q Own W) (q : Q) : Loop Q Own W := { m with state := q }

variable {m : Loop Q Own W} {es : List Own}

theorem postAll_of_takes (h : m.takes = true) :
    m.postAll es = { m with queue := m.queue ++ es } := by
  induction es generalizing m with
  | nil => rw [postAll, List.foldl_nil, List.append_nil]
  | cons e es ih =>
      rw [postAll, List.foldl_cons, post, if_pos h, ← postAll, ih (by exact h)]
      simp only [List.append_assoc, List.singleton_append]

theorem postAll_of_full (h : m.takes = false) : m.postAll es = m := by
  induction es with
  | nil => rfl
  | cons e es ih =>
      rw [postAll, List.foldl_cons, post, if_neg (by rw [h]; exact Bool.false_ne_true), ← postAll]
      exact ih

theorem postAll_eq : m.postAll es =
    { m with queue := m.queue ++ if m.takes = true then es else [] } := by
  cases h : m.takes with
  | true =>
      rw [postAll_of_takes h, if_pos rfl, h]
  | false =>
      rw [postAll_of_full h, if_neg Bool.false_ne_true, List.append_nil, ← h]

theorem post_eq {e : Own} : m.post e =
    { m with queue := m.queue ++ if m.takes = true then [e] else [] } :=
  show m.postAll [e] = _ from postAll_eq

theorem postAll_state : (m.postAll es).state = m.state := by
  rw [postAll_eq]

end Loop

/-! ## Logs -/

section Logs

variable {O : Type} {log : List O}

/-- What a log that starts with the newest entry has more than before, the oldest first. -/
def observedSince (log log' : List O) : List O := (log'.take (log'.length - log.length)).reverse

theorem observedSince_append (new : List O) : observedSince log (new ++ log) = new.reverse := by
  rw [observedSince, List.length_append, Nat.add_sub_cancel, List.take_left]

end Logs

/-- What a state does with a signal. -/
abbrev Handler (Q Own Lib W Fault : Type) :=
  Q → Signal Own Lib → Loop Q Own W → Except Fault (Loop Q Own W)

variable [DecidableEq Q]

def dispatch (handle : Handler Q Own Lib W Fault) (signal : Signal Own Lib) (m : Loop Q Own W) :
    Except Fault (Loop Q Own W) := do
  let m' ← handle m.state signal m
  if m'.state = m.state then .ok m'
  else do
    let m'' ← handle m.state .exit m'
    handle m'.state .entry m''

/-- The next event of the queue, or an event for the library, with what the queue takes. -/
inductive Event (Lib : Type) where
  | next (takes : Bool)
  | library (e : Lib) (takes : Bool)

def next (handle : Handler Q Own Lib W Fault) (m : Loop Q Own W) (takes : Bool) :
    Except Fault (Loop Q Own W) :=
  match m.queue with
  | [] => .ok m
  | e :: rest => dispatch handle (.own e) { m with queue := rest, takes := takes }

def step (handle : Handler Q Own Lib W Fault) (m : Loop Q Own W) (e : Event Lib) :
    Except Fault (Loop Q Own W) :=
  if m.exited = none then
    match e with
    | .next takes => next handle m takes
    | .library e takes => dispatch handle (.library e) { m with takes := takes }
  else .ok m

variable {handle : Handler Q Own Lib W Fault} {m m' : Loop Q Own W} {signal : Signal Own Lib}

/-- A handler that stays where it is. -/
theorem dispatch_stay (h : handle m.state signal m = .ok m') (hstate : m'.state = m.state) :
    dispatch handle signal m = .ok m' := by
  unfold dispatch
  rw [h]
  exact if_pos hstate

theorem dispatch_error {fault : Fault} (h : handle m.state signal m = .error fault) :
    dispatch handle signal m = .error fault := by
  unfold dispatch
  rw [h]
  rfl

/-- A handler that moves on, where leaving a state does nothing. -/
theorem dispatch_move (h : handle m.state signal m = .ok m') (hstate : m'.state ≠ m.state)
    (hexit : handle m.state .exit m' = .ok m') :
    dispatch handle signal m = handle m'.state .entry m' := by
  unfold dispatch
  rw [h]
  refine (if_neg hstate).trans ?_
  rw [hexit]
  rfl

theorem step_of_exited {e : Event Lib} (h : m.exited ≠ none) : step handle m e = .ok m := if_neg h

theorem step_next_nil {takes : Bool} (h : m.queue = []) : step handle m (.next takes) = .ok m := by
  by_cases hexited : m.exited = none
  · rw [step, if_pos hexited]
    unfold next
    rw [h]
  · exact step_of_exited hexited

theorem step_next_cons {takes : Bool} {e : Own} {rest : List Own} (hexited : m.exited = none)
    (hqueue : m.queue = e :: rest) : step handle m (.next takes) =
      dispatch handle (.own e) { m with queue := rest, takes := takes } := by
  rw [step, if_pos hexited]
  unfold next
  rw [hqueue]

theorem step_library {takes : Bool} {e : Lib} (hexited : m.exited = none) :
    step handle m (.library e takes) =
      dispatch handle (.library e) { m with takes := takes } :=
  if_pos hexited

/-- Runs go through where every step does. -/
theorem run_total {S E : Type} {move : S → E → Except Fault S} {I : S → Prop}
    (hstep : ∀ s e, I s → ∃ s', move s e = .ok s' ∧ I s') (es : List E) {s : S} (hs : I s) :
    ∃ s', es.foldlM move s = .ok s' := by
  induction es generalizing s with
  | nil => exact ⟨s, rfl⟩
  | cons e es ih =>
      obtain ⟨t, ht, hI⟩ := hstep s e hs
      obtain ⟨s', hs'⟩ := ih hI
      refine ⟨s', ?_⟩
      rw [List.foldlM_cons, ht]
      exact hs'

/-! ## First outcomes

Events that decide how a run goes on: what one of them settles stays settled.
-/

section FirstOutcomes

variable {S E V : Type} {move : S → E → Except Fault S} {decides : S → E → Option V}
  {Waiting : S → Prop} {Decided : V → S → Prop} {s s' : S} {es : List E} {v : V}

/-- What the first deciding event of a run says. -/
def firstOutcome (move : S → E → Except Fault S) (decides : S → E → Option V) :
    S → List E → Option V
  | _, [] => none
  | s, e :: es =>
      match decides s e, move s e with
      | some v, _ => some v
      | none, .ok s' => firstOutcome move decides s' es
      | none, .error _ => none

/-- A run waits until an event decides. -/
structure DecidedByFirst (move : S → E → Except Fault S) (decides : S → E → Option V)
    (Waiting : S → Prop) (Decided : V → S → Prop) : Prop where
  waits : ∀ s e s', Waiting s → move s e = .ok s' → decides s e = none → Waiting s'
  decided : ∀ s e s' v, Waiting s → move s e = .ok s' → decides s e = some v → Decided v s'
  kept : ∀ s e s' v, Decided v s → move s e = .ok s' → Decided v s'

theorem firstOutcome_cons_none {e : E} (hdecides : decides s e = none) (hmove : move s e = .ok s') :
    firstOutcome move decides s (e :: es) = firstOutcome move decides s' es := by
  rw [firstOutcome, hdecides, hmove]

theorem firstOutcome_cons_some {e : E} (hdecides : decides s e = some v) :
    firstOutcome move decides s (e :: es) = some v := by
  rw [firstOutcome, hdecides]

namespace DecidedByFirst

theorem run_kept (h : DecidedByFirst move decides Waiting Decided) (hs : Decided v s)
    (hrun : es.foldlM move s = .ok s') : Decided v s' :=
  foldlM_ok_induction (fun _ => Decided v) (fun e _ t t' ht hmove => h.kept t e t' v ht hmove)
    es s s' hs hrun

/-- It is enough to say where each step goes. -/
theorem of_steps
    (hwaits : ∀ s e, Waiting s → ∃ s', move s e = .ok s' ∧ (decides s e = none → Waiting s') ∧
      ∀ v, decides s e = some v → Decided v s')
    (hkept : ∀ s e v, Decided v s → ∃ s', move s e = .ok s' ∧ Decided v s') :
    DecidedByFirst move decides Waiting Decided := by
  constructor
  · intro s e s' hs hmove hdecides
    obtain ⟨t, ht, hnone, -⟩ := hwaits s e hs
    obtain rfl := Except.ok.inj (hmove.symm.trans ht)
    exact hnone hdecides
  · intro s e s' v hs hmove hdecides
    obtain ⟨t, ht, -, hsome⟩ := hwaits s e hs
    obtain rfl := Except.ok.inj (hmove.symm.trans ht)
    exact hsome v hdecides
  · intro s e s' v hs hmove
    obtain ⟨t, ht, hdecided⟩ := hkept s e v hs
    obtain rfl := Except.ok.inj (hmove.symm.trans ht)
    exact hdecided

/-- The end of a run is decided as its first outcome says. -/
theorem run (h : DecidedByFirst move decides Waiting Decided) (hs : Waiting s)
    (hrun : es.foldlM move s = .ok s') :
    (firstOutcome move decides s es = none → Waiting s') ∧
      ∀ v, firstOutcome move decides s es = some v → Decided v s' := by
  induction es generalizing s with
  | nil =>
      obtain rfl := Except.ok.inj hrun
      refine ⟨fun _ => hs, fun v hv => ?_⟩
      cases hv
  | cons e es ih =>
      rw [List.foldlM_cons, bind_eq_ok] at hrun
      obtain ⟨t, hmove, hrun⟩ := hrun
      cases hdecides : decides s e with
      | none =>
          rw [firstOutcome_cons_none hdecides hmove]
          exact ih (h.waits s e t hs hmove hdecides) hrun
      | some u =>
          rw [firstOutcome_cons_some hdecides]
          constructor
          · intro hnone
            cases hnone
          · intro v hv
            obtain rfl := Option.some.inj hv
            exact h.run_kept (h.decided s e t u hs hmove hdecides) hrun

end DecidedByFirst

end FirstOutcomes

end ServiceConsumers.EventLoops
