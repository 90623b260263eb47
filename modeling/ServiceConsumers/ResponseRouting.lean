import ServiceConsumers.AnswerFrames
import ServiceConsumers.OperationFaults

set_option autoImplicit false

/-!
# Whose answer it is (`mb_smf_sc_process_event`)

A transaction refers to its sender through an SBI object only, which sessions and TMGIs may
share. The event loop takes the first session and the first TMGI that hold the object.
-/

namespace ServiceConsumers.ResponseRouting

open ObjectStore PublicSessions ConsumerState TmgiOperations SubscriptionOperations
  SessionOperations ResponseHandlers ProcessEvent TransitionRuns TransactionLog SessionEffects
  PushEffects AnswerEffects EventEffects StepDecomposition RunInvariants SessionCallbacks TmgiSteps
  TmgiRegistry AllocationMatching TmgiCallbacks OperationFaults AnswerFrames

variable {w w' v v' : World} {e : Event} {x : Xact} {o : TransactionOutcome} {rsp : Response}
  {s t : Ref} {n : ℕ}

/-! ## The law -/

/-- What a step put into the log. -/
def said (w w' : World) : List Observation := w'.log.take (w'.log.length - w.log.length)

def SessionHolds (w : World) (o s : Ref) : Prop :=
  ∃ y, w.sessionStore s = some y ∧ y.sbiObject = some o

theorem find_session_eq_none {o : Ref} : contextSbiObjectToSession w o = none ↔
    ∀ q ∈ w.mbsSessions, ¬ SessionHolds w o q := by
  simp [contextSbiObjectToSession, List.find?_eq_none, SessionHolds, Option.any_eq_true]

/-- A TMGI is allocated, and sessions are given it. -/
def givenRun (sessions : List Ref) : List Event :=
  .tmgi (.create none) :: sessions.map (fun _ => Event.session (.newIpv4 none none)) ++
    sessions.map fun s => Event.session (.setTmgi s (some 1))

end ServiceConsumers.ResponseRouting
