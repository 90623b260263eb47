import ServiceConsumers.ConsumerState

set_option autoImplicit false

/-!
# Status subscriptions (`mbs-status-subscription.c` and the subscription functions of
`mbs-session.c`)
-/

namespace ServiceConsumers.SubscriptionOperations

open ObjectStore KeyedTable JsonDocuments PublicSessions ConsumerState

/-- One of the three event types is asked for. -/
def hasEvents (flags : BitVec 32) : Bool := flags &&& 7#32 ≠ 0

/-! ## The intrusive lists -/

def listOf (x : MbsSession) : ListName → List Ref
  | .newSubscriptions => x.newSubscriptions
  | .deletedSubscriptions => x.deletedSubscriptions

def setList (x : MbsSession) (name : ListName) (us : List Ref) : MbsSession :=
  match name with
  | .newSubscriptions => { x with newSubscriptions := us }
  | .deletedSubscriptions => { x with deletedSubscriptions := us }

/-- `ogs_list_add`: appends, and overwrites the links of a node that is still in a list,
which breaks that list. -/
def ogsListAdd (w : World) (s : Ref) (name : ListName) (u : Ref) : Except Fault World := do
  let x ← w.sessionAt s
  let n ← w.subscriptionAt u
  if n.node.isSome then .error .nodeAlreadyLinked
  else
    .ok ((w.setSession s (setList x name (listOf x name ++ [u]))).modifySubscription u
      fun n => { n with node := some { session := s, list := name } })

/-- `ogs_list_remove` of a member. -/
def ogsListRemove (w : World) (s : Ref) (name : ListName) (u : Ref) : Except Fault World := do
  let x ← w.sessionAt s
  if u ∈ listOf x name then
    .ok ((w.setSession s (setList x name ((listOf x name).erase u))).modifySubscription u
      fun n => { n with node := none })
  else .error .notAMember

/-- `_mbs_status_subscription_delete`. -/
def mbsStatusSubscriptionFree (w : World) (u : Ref) : World :=
  { w with subscriptionStore := w.subscriptionStore.free u }

/-! ## Requests -/

def subscriptionBody (n : StatusSubscription) : SubscriptionBody :=
  { areaSessionId := n.areaSessionId
    flags := n.flags
    correlationId := n.correlationId
    expiryTime := n.expiryTime }

/-- `_mbs_session_patch_list`: without a previous session there is nothing to compare. -/
def mbsSessionPatchList (x : MbsSession) : Except Fault (List PatchItem) :=
  match x.previousSession with
  | none => .ok []
  | some previous =>
      match publicPatchList previous x.session with
      | none => .error .nullPatchValue
      | some patches => .ok patches

/-- `_nmbsmf_mbs_session_build_status_subscription_create`; the session id is made from the
TMGI object. -/
def buildStatusSubscriptionCreate (w : World) (x : MbsSession) (u : Ref)
    (n : StatusSubscription) : Except Fault Request := do
  let _ ← w.tmgiContent x.session.tmgi
  .ok (.subscribe u (subscriptionBody n))

/-- `_nmbsmf_mbs_session_build_status_subscription_update`: the patches of the session. -/
def buildStatusSubscriptionUpdate (x : MbsSession) (u : Ref) (n : StatusSubscription) :
    Except Fault Request := do
  let patches ← mbsSessionPatchList x
  .ok (.subscriptionUpdate u n.id patches)

/-- `_nmbsmf_mbs_session_build_status_subscription_delete`. -/
def buildStatusSubscriptionDelete (u : Ref) (n : StatusSubscription) : Except Fault Request :=
  .ok (.subscriptionDelete u n.id)

/-- The three `_mbs_status_subscription_send_*` functions: an unattached subscription sends
nothing, an attached one sends on the SBI object of its own session. -/
def mbsStatusSubscriptionSend
    (build : World → MbsSession → StatusSubscription → Except Fault Request)
    (w : World) (u : Ref) : Except Fault World := do
  let n ← w.subscriptionAt u
  match n.session with
  | none => .ok w
  | some s => do
      let x ← w.sessionAt s
      w.sbiXactAdd x.sbiObject (.session s) (build w x n)

def mbsStatusSubscriptionSendCreate (w : World) (u : Ref) : Except Fault World :=
  mbsStatusSubscriptionSend (fun w x n => buildStatusSubscriptionCreate w x u n) w u

def mbsStatusSubscriptionSendUpdate (w : World) (u : Ref) : Except Fault World :=
  mbsStatusSubscriptionSend (fun _ x n => buildStatusSubscriptionUpdate x u n) w u

def mbsStatusSubscriptionSendDelete (w : World) (u : Ref) : Except Fault World :=
  mbsStatusSubscriptionSend (fun _ _ n => buildStatusSubscriptionDelete u n) w u

/-! ## Attaching and detaching -/

/-- The part of `mb_smf_sc_mbs_session_add_subscription` for a subscription with an id. -/
def forgetId (w : World) (u : Ref) : Except Fault World := do
  let n ← w.subscriptionAt u
  match n.id with
  | none => .ok w
  | some id =>
      match n.session with
      | none => .error .nullSession
      | some s => do
          let x ← w.sessionAt s
          match x.activeSubscriptions with
          | none => .error .notAHashTable
          | some table => do
              let w := w.setSession s { x with activeSubscriptions := some (table.erase id) }
              let w ← mbsStatusSubscriptionSendDelete w u
              .ok (w.modifySubscription u fun n => { n with id := none })

/-- `mb_smf_sc_mbs_session_add_subscription`. -/
def mbsSessionAddSubscription (w : World) (s u : Ref) : Except Fault World := do
  let x ← w.sessionAt s
  let _ ← w.subscriptionAt u
  if x.deleted then .ok w
  else do
    let w := w.setSession s { x with activeSubscriptions := some x.active }
    let w ← forgetId w u
    let w ← ogsListAdd w s .newSubscriptions u
    .ok ((w.modifySubscription u fun n => { n with session := some s, changed := true }).say
      (.attached u s))

/-- `mb_smf_sc_mbs_session_remove_subscription`. -/
def mbsSessionRemoveSubscription (w : World) (s u : Ref) : Except Fault World := do
  let x ← w.sessionAt s
  let n ← w.subscriptionAt u
  if x.deleted ∨ n.session ≠ some s then .ok w
  else
    match n.id with
    | some id => do
        let w := w.setSession s
          { x with activeSubscriptions := x.activeSubscriptions.map fun t => t.erase id }
        let w ← ogsListAdd w s .deletedSubscriptions u
        .ok (w.modifySubscription u fun n => { n with changed := true })
    | none =>
        if u ∈ x.newSubscriptions then do
          -- The source also sets the flag of the object that it has just freed.
          let w ← ogsListRemove w s .newSubscriptions u
          .ok (mbsStatusSubscriptionFree w u)
        else .ok w

/-- `mb_smf_sc_mbs_status_subscription_delete`. -/
def mbsStatusSubscriptionDelete (w : World) (u : Ref) : Except Fault World := do
  let n ← w.subscriptionAt u
  match n.session with
  | some s => mbsSessionRemoveSubscription w s u
  | none => if n.id.isSome then .ok w else .ok (mbsStatusSubscriptionFree w u)

/-! ## Pushing -/

/-- A new subscription is requested when it has changed since it was requested last. -/
def updateNewSubscription (w : World) (u : Ref) : Except Fault World := do
  let n ← w.subscriptionAt u
  let w ← (if n.changed then mbsStatusSubscriptionSendCreate w u else .ok w)
  .ok (w.modifySubscription u fun n => { n with changed := false })

/-- `__update_status_subscription`. -/
def updateStatusSubscription (w : World) (u : Ref) : Except Fault World := do
  let n ← w.subscriptionAt u
  if n.changed then do
    let w ← mbsStatusSubscriptionSendUpdate w u
    .ok (w.modifySubscription u fun n => { n with changed := false })
  else .ok w

def removePendingSubscription (s : Ref) (w : World) (u : Ref) : Except Fault World := do
  let w ← mbsStatusSubscriptionSendDelete w u
  let w ← ogsListRemove w s .deletedSubscriptions u
  .ok (mbsStatusSubscriptionFree w u)

/-- `_mbs_session_subscriptions_update`. -/
def mbsSessionSubscriptionsUpdate (w : World) (s : Ref) : Except Fault World := do
  let x ← w.sessionAt s
  let w ← x.newSubscriptions.foldlM updateNewSubscription w
  let w ← (x.active.map Prod.snd).foldlM updateStatusSubscription w
  x.deletedSubscriptions.foldlM (removePendingSubscription s) w

/-! ## Finding -/

/-- `_mbs_session_find_subscription`: the new list first, then the table in the order it is
visited. -/
def mbsSessionFindSubscription (w : World) (s : Ref) (correlationId : Option String) :
    Option Ref :=
  match w.sessionStore s with
  | none => none
  | some x =>
      if x.deleted then none
      else
        (x.newSubscriptions ++ x.active.map Prod.snd).find? fun u =>
          (w.subscriptionStore u).any fun n => n.correlationId = correlationId

/-! ## Calls of the application -/

/-- The fields of a subscription that have a setter. -/
inductive SubscriptionSetting where
  | areaSessionId (value : ℕ)
  | eventTypeFlags (value : BitVec 32)
  | correlationId (value : Option String)
  | expiryTime (value : ℤ)

/-- What a setter writes, before it compares. -/
def SubscriptionSetting.write (n : StatusSubscription) : SubscriptionSetting → StatusSubscription
  | .areaSessionId value => { n with areaSessionId := value }
  | .eventTypeFlags value => { n with flags := value }
  | .correlationId value => { n with correlationId := value }
  | .expiryTime value => { n with expiryTime := value }

/-- A setter raises the flag only when the value is another one. -/
def mbsStatusSubscriptionSet (setting : SubscriptionSetting) (n : StatusSubscription) :
    StatusSubscription :=
  if setting.write n = n then n else { setting.write n with changed := true }

inductive SubscriptionCall where
  | new (areaSessionId : ℕ) (flags : BitVec 32) (correlationId : Option String) (expiryTime : ℤ)
  | set (u : Ref) (setting : SubscriptionSetting)
  | add (s u : Ref)
  | remove (s u : Ref)
  | delete (u : Ref)

def subscriptionStep (w : World) : SubscriptionCall → Except Fault World
  | .new areaSessionId flags correlationId expiryTime =>
      .ok { w with
        subscriptionStore := w.subscriptionStore.set w.next
          { areaSessionId := areaSessionId, flags := flags, correlationId := correlationId,
            expiryTime := expiryTime }
        next := w.next + 1 }
  | .set u setting => do
      let _ ← w.subscriptionAt u
      .ok (w.modifySubscription u (mbsStatusSubscriptionSet setting))
  | .add s u => mbsSessionAddSubscription w s u
  | .remove s u => mbsSessionRemoveSubscription w s u
  | .delete u => mbsStatusSubscriptionDelete w u

end ServiceConsumers.SubscriptionOperations
