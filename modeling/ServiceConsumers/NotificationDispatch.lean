import ServiceConsumers.ConsumerState

set_option autoImplicit false

/-!
# Dispatch of notifications (`context.c`)

A notification names no subscription: the server it arrives on and the path of its URL have
to lead back to one. The search takes the sessions of the context in order and looks
through the list of new subscriptions and the table of active ones of each. The event asks for
a content type first, which a header never has.
-/

namespace ServiceConsumers.NotificationDispatch

open ConsumerState ObjectStore KeyedTable

/-- Where notifications for a subscription go to, in its `cache`. -/
structure SubscriptionCache where
  notifServer : Option Ref := none
  notifUrl : Option String := none
  deriving DecidableEq, Repr

/-- `ogs_hash_do`: it reads the table it is given, and a missing one is no table. -/
def ogsHashDo {ρ : Type} (callback : ρ → String → Ref → ρ × ℤ) (r : ρ) :
    Option (Table String Ref) → Except Fault (ρ × ℤ)
  | none => .error .notAHashTable
  | some t => .ok (Table.visit callback r t)

section Search

-- What `yuarel_parse` makes of a URL: `none` when it fails, else the path if there is one.
variable (parseUrl : String → Option (Option String))
variable (cache : Ref → Option SubscriptionCache)
variable (server : Ref) (path : Option String)

/-! ## The two searches -/

/-- `path[0] == '/'` is stepped over. -/
def withoutLeadingSlash (path : String) : String :=
  match path.toList with
  | '/' :: rest => String.ofList rest
  | _ => path

/-- `__url_path_equal`. -/
def urlPathEqual : Option String → Option String → Bool
  | none, none => true
  | none, some _ => false
  | some _, none => false
  | some url, some path =>
      match parseUrl url with
      | none => false
      | some none => withoutLeadingSlash path = ""
      | some (some urlPath) => urlPath = withoutLeadingSlash path

def hasServer (u : Ref) : Bool :=
  match cache u with
  | none => false
  | some c => c.notifServer = some server

def hasServerAndPath (u : Ref) : Bool :=
  match cache u with
  | none => false
  | some c => c.notifServer = some server && urlPathEqual parseUrl c.notifUrl path

/-- `__check_notification_server`. -/
def checkNotificationServer (r : Unit) (_key : String) (u : Ref) : Unit × ℤ :=
  if hasServer cache server u then (r, 0) else (r, 1)

/-- `_context_is_notification_server`. -/
def isNotificationServer : List MbsSession → Except Fault Bool
  | [] => .ok false
  | x :: xs =>
      if x.newSubscriptions.any (hasServer cache server) then .ok true
      else if x.activeSubscriptions.isNone then isNotificationServer xs
      else do
        let (_, result) ←
          ogsHashDo (checkNotificationServer cache server) () x.activeSubscriptions
        if result = 0 then .ok true else isNotificationServer xs

/-- `__filter_subscription`: the record holds the subscription that was found. -/
def filterSubscription (filter : Option Ref) (_key : String) (u : Ref) : Option Ref × ℤ :=
  if hasServerAndPath parseUrl cache server path u then (some u, 0) else (filter, 1)

/-- `_context_find_subscription`. Unlike its sibling it does not ask whether there is a table. -/
def findSubscription : List MbsSession → Except Fault (Option Ref)
  | [] => .ok none
  | x :: xs =>
      match x.newSubscriptions.find? (hasServerAndPath parseUrl cache server path) with
      | some u => .ok (some u)
      | none => do
          let (filter, result) ←
            ogsHashDo (filterSubscription parseUrl cache server path) none x.activeSubscriptions
          if result = 0 then .ok filter else findSubscription xs

/-! ## The event -/

inductive NotificationBody where
  | notJson
  | invalid
  | valid
  deriving DecidableEq, Repr

def ogsSbiContentJsonType : String := "application/json"

/-- A request on one of the library's own servers; `server` is what its stream leads to. -/
structure NotificationRequest where
  server : Option Ref
  headerParsed : Bool := true
  contentType : Option String := some ogsSbiContentJsonType
  methodPost : Bool := true
  body : NotificationBody := .valid
  uri : Option String
  deriving DecidableEq, Repr

/-- What the message has of a request. -/
structure NotificationMessage where
  contentType : Option String := none
  methodPost : Bool
  deriving DecidableEq, Repr

/-- `ogs_sbi_parse_header` on a request. The `Content-Type` is among the HTTP headers, which it
does not read. -/
def parseRequestHeader (request : NotificationRequest) : Option NotificationMessage :=
  if request.headerParsed then some { methodPost := request.methodPost } else none

/-- What becomes of a request: it is left for others, or answered with a status after the
event reports went to a subscription. -/
inductive NotificationAnswer where
  | notTaken
  | answered (status : ℕ) (deliveredTo : Option Ref)
  deriving DecidableEq, Repr

def NotificationAnswer.deliveredTo : NotificationAnswer → Option Ref
  | notTaken => none
  | answered _ u => u

/-- `mb_smf_sc_process_event` on `OGS_EVENT_SBI_SERVER`. -/
def processServerEvent (xs : List MbsSession) (request : NotificationRequest) :
    Except Fault NotificationAnswer :=
  match request.server with
  | none => .ok .notTaken
  | some server => do
      let taken ← isNotificationServer cache server xs
      if !taken then .ok .notTaken
      else
        match parseRequestHeader request with
        | none => .ok .notTaken
        | some message =>
            if message.contentType ≠ some ogsSbiContentJsonType then .ok (.answered 400 none)
            else if !message.methodPost then .ok (.answered 405 none)
            else
              match request.body with
              | .notJson | .invalid => .ok (.answered 400 none)
              | .valid => do
                  let subsc ← findSubscription parseUrl cache server request.uri xs
                  .ok (.answered 200 subsc)

/-! ## What the dispatch is for -/

/-- A subscription some session holds as a new or as an active one. -/
def Held (xs : List MbsSession) (u : Ref) : Prop :=
  ∃ x ∈ xs, u ∈ x.newSubscriptions ∨ u ∈ x.active.map Prod.snd

/-- The path of a URL, empty when it has none, is the one requested. -/
def PathOf : Option String → Option String → Prop
  | none, path => path = none
  | some url, path =>
      ∃ urlPath requested, parseUrl url = some urlPath ∧ path = some requested ∧
        urlPath.getD "" = withoutLeadingSlash requested

def ServedBy (u : Ref) : Prop := ∃ c, cache u = some c ∧ c.notifServer = some server

def AddressedBy (u : Ref) : Prop :=
  ∃ c, cache u = some c ∧ c.notifServer = some server ∧ PathOf parseUrl c.notifUrl path

/-- Both searches end, the first says whether any subscription is served by the server, and
the second and the event end at a subscription that is addressed, if there is one. -/
structure Dispatches (xs : List MbsSession) : Prop where
  isServer : ∃ b, isNotificationServer cache server xs = .ok b ∧
    (b = true ↔ ∃ u, Held xs u ∧ ServedBy cache server u)
  finds : ∃ r, findSubscription parseUrl cache server path xs = .ok r ∧
    (∀ u, r = some u → Held xs u ∧ AddressedBy parseUrl cache server path u) ∧
    (r = none → ∀ u, Held xs u → ¬ AddressedBy parseUrl cache server path u)
  delivers : ∃ a, processServerEvent parseUrl cache xs { server := some server, uri := path } = .ok a ∧
    (∀ u, a.deliveredTo = some u → Held xs u ∧ AddressedBy parseUrl cache server path u) ∧
    (a.deliveredTo = none → ∀ u, Held xs u → ¬ AddressedBy parseUrl cache server path u)

/-- A session without a table comes after a session that holds an addressed subscription, or
has one among its own new ones. -/
def TablesWhereRead (xs : List MbsSession) : Prop :=
  ∀ before x after, xs = before ++ x :: after → x.activeSubscriptions = none →
    (∃ u, Held before u ∧ AddressedBy parseUrl cache server path u) ∨
      ∃ u ∈ x.newSubscriptions, AddressedBy parseUrl cache server path u

/-! ## The searches find what they look for -/

section Specification

variable {parseUrl cache server path}
variable {x : MbsSession} {xs : List MbsSession} {u : Ref}

theorem urlPathEqual_iff {url : Option String} :
    urlPathEqual parseUrl url path = true ↔ PathOf parseUrl url path := by
  cases url with
  | none => cases path <;> simp [urlPathEqual, PathOf]
  | some url =>
      cases path with
      | none => simp [urlPathEqual, PathOf]
      | some requested =>
          simp only [urlPathEqual, PathOf, Option.some.injEq, exists_and_left, exists_eq_left']
          cases parseUrl url with
          | none => simp
          | some urlPath =>
              cases urlPath with
              | none => exact decide_eq_true_iff.trans ⟨fun h => ⟨none, rfl, h.symm⟩,
                  fun ⟨_, hp, h⟩ => by cases hp; exact h.symm⟩
              | some p => exact decide_eq_true_iff.trans ⟨fun h => ⟨some p, rfl, h⟩,
                  fun ⟨_, hp, h⟩ => by cases hp; exact h⟩

theorem hasServer_iff : hasServer cache server u = true ↔ ServedBy cache server u := by
  unfold hasServer ServedBy
  cases cache u <;> simp

theorem hasServerAndPath_iff :
    hasServerAndPath parseUrl cache server path u = true ↔
      AddressedBy parseUrl cache server path u := by
  unfold hasServerAndPath AddressedBy
  cases cache u <;> simp [urlPathEqual_iff]

theorem held_cons : Held (x :: xs) u ↔
    u ∈ x.newSubscriptions ∨ u ∈ x.active.map Prod.snd ∨ Held xs u := by
  simp only [Held, List.mem_cons, exists_eq_or_imp, or_assoc]

/-- With a table at hand the filter leaves the first addressed entry in its record. -/
theorem ogsHashDo_filterSubscription {t : Table String Ref} :
    ogsHashDo (filterSubscription parseUrl cache server path) none (some t) =
      .ok (((t.map Prod.snd).find? (hasServerAndPath parseUrl cache server path)).elim
        (none, 1) fun u => (some u, 0)) := by
  refine congrArg Except.ok (Table.visit_eq_find _ _ some ?_ ?_ none t)
  · intro r k u hu
    simp [filterSubscription, hu]
  · intro r k u hu
    simp [filterSubscription, hu]

theorem ogsHashDo_checkNotificationServer {t : Table String Ref} :
    ogsHashDo (checkNotificationServer cache server) () (some t) =
      .ok (((t.map Prod.snd).find? (hasServer cache server)).elim ((), 1) fun _ => ((), 0)) := by
  refine congrArg Except.ok (Table.visit_eq_find _ _ (fun _ => ()) ?_ ?_ () t)
  · intro r k u hu
    simp [checkNotificationServer, hu]
  · intro r k u hu
    simp [checkNotificationServer, hu]

variable (cache server) in
/-- The guarded search reads only tables that are there, so it always ends. -/
theorem isNotificationServer_spec (xs : List MbsSession) :
    ∃ b, isNotificationServer cache server xs = .ok b ∧
      (b = true ↔ ∃ u, Held xs u ∧ ServedBy cache server u) := by
  induction xs with
  | nil => exact ⟨false, rfl, by simp [Held]⟩
  | cons x xs ih =>
      obtain ⟨b, hb, hiff⟩ := ih
      by_cases hnew : x.newSubscriptions.any (hasServer cache server)
      · obtain ⟨u, hu, hserved⟩ := List.any_eq_true.1 hnew
        refine ⟨true, by simp [isNotificationServer, hnew], iff_of_true rfl ?_⟩
        exact ⟨u, held_cons.2 (.inl hu), hasServer_iff.1 hserved⟩
      · have hnone : ∀ u ∈ x.newSubscriptions, ¬ ServedBy cache server u := by
          intro u hu hserved
          exact hnew (List.any_eq_true.2 ⟨u, hu, hasServer_iff.2 hserved⟩)
        cases htable : x.activeSubscriptions with
        | none =>
            refine ⟨b, by simp [isNotificationServer, hnew, htable, hb], hiff.trans ?_⟩
            simp only [held_cons, MbsSession.active, htable]
            grind
        | some t =>
            simp only [isNotificationServer, hnew, htable, ogsHashDo_checkNotificationServer]
            cases hfind : (t.map Prod.snd).find? (hasServer cache server) with
            | some u =>
                refine ⟨true, rfl, iff_of_true rfl ⟨u, held_cons.2 (.inr (.inl ?_)), ?_⟩⟩
                · simpa [MbsSession.active, htable] using List.mem_of_find?_eq_some hfind
                · exact hasServer_iff.1 (List.find?_some hfind)
            | none =>
                have hmiss : ∀ u ∈ t.map Prod.snd, ¬ ServedBy cache server u := by
                  intro u hu hserved
                  exact List.find?_eq_none.1 hfind u hu (hasServer_iff.2 hserved)
                refine ⟨b, hb, hiff.trans ?_⟩
                simp only [held_cons, MbsSession.active, htable, Option.getD_some]
                grind

/-- The tables read from a list of sessions on: the search ends in the first session, or it
reads the first table and goes on when that has no addressed entry. -/
theorem tablesWhereRead_cons :
    TablesWhereRead parseUrl cache server path (x :: xs) ↔
      (∃ u ∈ x.newSubscriptions, AddressedBy parseUrl cache server path u) ∨
        ∃ t, x.activeSubscriptions = some t ∧
          ((∃ u ∈ t.map Prod.snd, AddressedBy parseUrl cache server path u) ∨
            TablesWhereRead parseUrl cache server path xs) := by
  constructor
  · intro h
    by_cases hnew : ∃ u ∈ x.newSubscriptions, AddressedBy parseUrl cache server path u
    · exact .inl hnew
    cases htable : x.activeSubscriptions with
    | none =>
        obtain ⟨u, ⟨y, hy, -⟩, -⟩ | hmatch := h [] x xs rfl htable
        · cases hy
        · exact .inl hmatch
    | some t =>
        refine .inr ⟨t, rfl, ?_⟩
        by_cases hactive : ∃ u ∈ t.map Prod.snd, AddressedBy parseUrl cache server path u
        · exact .inl hactive
        refine .inr fun before y after hxs hy => ?_
        obtain ⟨u, hheld, hu⟩ | hmatch := h (x :: before) y after (by rw [hxs]; rfl) hy
        · obtain hu' | hu' | hheld := held_cons.1 hheld
          · exact absurd ⟨u, hu', hu⟩ hnew
          · simp only [MbsSession.active, htable, Option.getD_some] at hu'
            exact absurd ⟨u, hu', hu⟩ hactive
          · exact .inl ⟨u, hheld, hu⟩
        · exact .inr hmatch
  · intro h before y after hxs hy
    cases before with
    | nil =>
        obtain ⟨rfl, rfl⟩ := List.cons.inj hxs
        obtain hnew | ⟨t, ht, -⟩ := h
        · exact .inr hnew
        · exact absurd (ht.symm.trans hy) (by simp)
    | cons z before =>
        obtain ⟨rfl, rfl⟩ := List.cons.inj hxs
        obtain ⟨u, hu, hmatch⟩ | ⟨t, ht, ⟨u, hu, hmatch⟩ | hrest⟩ := h
        · exact .inl ⟨u, held_cons.2 (.inl hu), hmatch⟩
        · refine .inl ⟨u, held_cons.2 (.inr (.inl ?_)), hmatch⟩
          simpa [MbsSession.active, ht] using hu
        · obtain ⟨u, hheld, hmatch⟩ | hmatch := hrest before y after rfl hy
          · exact .inl ⟨u, held_cons.2 (.inr (.inr hheld)), hmatch⟩
          · exact .inr hmatch

variable (parseUrl cache server path) in
/-- The search ends at the first addressed subscription, or it runs into a missing table. -/
theorem findSubscription_spec (xs : List MbsSession) :
    (TablesWhereRead parseUrl cache server path xs ∧
      ∃ r, findSubscription parseUrl cache server path xs = .ok r ∧
        (∀ u, r = some u → Held xs u ∧ AddressedBy parseUrl cache server path u) ∧
        (r = none → ∀ u, Held xs u → ¬ AddressedBy parseUrl cache server path u)) ∨
    (¬ TablesWhereRead parseUrl cache server path xs ∧
      findSubscription parseUrl cache server path xs = .error .notAHashTable) := by
  induction xs with
  | nil =>
      refine .inl ⟨fun before x after h => ?_, none, rfl, nofun, fun _ u => ?_⟩
      · exact absurd h.symm (by simp)
      · rintro ⟨x, hx, -⟩
        cases hx
  | cons x xs ih =>
      rw [tablesWhereRead_cons]
      cases hnew : x.newSubscriptions.find? (hasServerAndPath parseUrl cache server path) with
      | some u =>
          have hmem := List.mem_of_find?_eq_some hnew
          have hu : AddressedBy parseUrl cache server path u :=
            hasServerAndPath_iff.1 (List.find?_some hnew)
          refine .inl ⟨.inl ⟨u, hmem, hu⟩, some u, by simp [findSubscription, hnew], ?_, nofun⟩
          rintro _ ⟨⟩
          exact ⟨held_cons.2 (.inl hmem), hu⟩
      | none =>
          have hnone : ∀ u ∈ x.newSubscriptions, ¬ AddressedBy parseUrl cache server path u :=
            fun u hu h => List.find?_eq_none.1 hnew u hu (hasServerAndPath_iff.2 h)
          have hnot : ¬ ∃ u ∈ x.newSubscriptions, AddressedBy parseUrl cache server path u :=
            fun ⟨u, hu, h⟩ => hnone u hu h
          cases htable : x.activeSubscriptions with
          | none =>
              refine .inr ⟨by simpa using hnone, ?_⟩
              simp only [findSubscription, hnew, htable]
              rfl
          | some t =>
              simp only [findSubscription, hnew, htable, ogsHashDo_filterSubscription]
              cases hfind :
                  (t.map Prod.snd).find? (hasServerAndPath parseUrl cache server path) with
              | some u =>
                  have hmem := List.mem_of_find?_eq_some hfind
                  have hu : AddressedBy parseUrl cache server path u :=
                    hasServerAndPath_iff.1 (List.find?_some hfind)
                  refine .inl ⟨.inr ⟨t, rfl, .inl ⟨u, hmem, hu⟩⟩, some u, rfl, ?_, nofun⟩
                  rintro _ ⟨⟩
                  refine ⟨held_cons.2 (.inr (.inl ?_)), hu⟩
                  simpa only [MbsSession.active, htable, Option.getD_some] using hmem
              | none =>
                  have hmiss : ∀ u ∈ t.map Prod.snd,
                      ¬ AddressedBy parseUrl cache server path u :=
                    fun u hu h => List.find?_eq_none.1 hfind u hu (hasServerAndPath_iff.2 h)
                  obtain ⟨htables, r, hr, hsome, hno⟩ | ⟨htables, herror⟩ := ih
                  · refine .inl ⟨.inr ⟨t, rfl, .inr htables⟩, r, hr, ?_, ?_⟩
                    · intro u hu
                      exact ⟨held_cons.2 (.inr (.inr (hsome u hu).1)), (hsome u hu).2⟩
                    · intro hr' u hu
                      simp only [held_cons, MbsSession.active, htable, Option.getD_some] at hu
                      obtain hu | hu | hu := hu
                      · exact hnone u hu
                      · exact hmiss u hu
                      · exact hno hr' u hu
                  · refine .inr ⟨?_, herror⟩
                    rintro (h | ⟨t', ht', ⟨u, hu, h⟩ | h⟩)
                    · exact hnot h
                    · obtain rfl := Option.some.inj ht'
                      exact hmiss u hu h
                    · exact htables h

/-! ## The event delivers nothing -/

/-- The message has no content type, so no request gets as far as the search. -/
theorem deliveredTo_eq_none {request : NotificationRequest} {a : NotificationAnswer}
    (h : processServerEvent parseUrl cache xs request = .ok a) : a.deliveredTo = none := by
  unfold processServerEvent at h
  split at h
  · rw [Except.ok.injEq] at h
    exact h ▸ rfl
  · rename_i s hs
    obtain ⟨taken, htaken, -⟩ := isNotificationServer_spec cache s xs
    simp only [htaken, bind, Except.bind, parseRequestHeader] at h
    cases taken with
    | false =>
        simp only [Bool.not_false, if_true, Except.ok.injEq] at h
        exact h ▸ rfl
    | true =>
        cases hparsed : request.headerParsed with
        | false =>
            simp only [hparsed, Bool.not_true, Bool.false_eq_true, if_false, Except.ok.injEq] at h
            exact h ▸ rfl
        | true =>
            simp only [hparsed, Bool.not_true, Bool.false_eq_true, if_false, if_true, ne_eq,
              reduceCtorEq, not_false_eq_true, Except.ok.injEq] at h
            exact h ▸ rfl

theorem processServerEvent_isOk (request : NotificationRequest) :
    ∃ a, processServerEvent parseUrl cache xs request = .ok a := by
  unfold processServerEvent
  split
  · exact ⟨_, rfl⟩
  · rename_i s hs
    obtain ⟨taken, htaken, -⟩ := isNotificationServer_spec cache s xs
    simp only [htaken, bind, Except.bind, parseRequestHeader]
    cases taken with
    | false => exact ⟨_, rfl⟩
    | true => cases request.headerParsed <;> exact ⟨_, rfl⟩

/-! ## When dispatch works -/

/-- Where nothing is addressed the search reads every table. -/
theorem tablesWhereRead_iff_of_unaddressed
    (hnone : ∀ u, Held xs u → ¬ AddressedBy parseUrl cache server path u) :
    TablesWhereRead parseUrl cache server path xs ↔
      ∀ x ∈ xs, x.activeSubscriptions.isSome = true := by
  constructor
  · intro h x hx
    obtain ⟨before, after, rfl⟩ := List.append_of_mem hx
    cases htable : x.activeSubscriptions with
    | some t => rfl
    | none =>
        obtain ⟨u, ⟨y, hy, hu⟩, haddressed⟩ | ⟨u, hu, haddressed⟩ := h before x after rfl htable
        · exact absurd haddressed (hnone u ⟨y, List.mem_append_left _ hy, hu⟩)
        · exact absurd haddressed (hnone u ⟨x, hx, .inl hu⟩)
  · rintro h before x after rfl hx
    have hsome := h x (List.mem_append_right _ List.mem_cons_self)
    rw [hx] at hsome
    cases hsome

/-- Dispatch does its work exactly when there is nothing to deliver and every session has a
table. -/
theorem dispatches_iff (xs : List MbsSession) :
    Dispatches parseUrl cache server path xs ↔
      (∀ x ∈ xs, x.activeSubscriptions.isSome = true) ∧
        ∀ u, Held xs u → ¬ AddressedBy parseUrl cache server path u := by
  constructor
  · intro h
    obtain ⟨a, ha, -, hnone⟩ := h.delivers
    have hunaddressed := hnone (deliveredTo_eq_none ha)
    refine ⟨(tablesWhereRead_iff_of_unaddressed hunaddressed).1 ?_, hunaddressed⟩
    obtain ⟨r, hr, -⟩ := h.finds
    obtain ⟨htables, -⟩ | ⟨-, herror⟩ := findSubscription_spec parseUrl cache server path xs
    · exact htables
    · exact absurd (herror.symm.trans hr) (by simp)
  · rintro ⟨htables, hunaddressed⟩
    obtain ⟨-, r, hr, hsome, hnone⟩ | ⟨hnot, -⟩ := findSubscription_spec parseUrl cache server
      path xs
    swap
    · exact absurd ((tablesWhereRead_iff_of_unaddressed hunaddressed).2 htables) hnot
    obtain ⟨a, ha⟩ : ∃ a, processServerEvent parseUrl cache xs { server := some server, uri := path } =
        .ok a := processServerEvent_isOk _
    refine ⟨isNotificationServer_spec cache server xs, ⟨r, hr, hsome, hnone⟩, a, ha,
      fun u hu => ?_, fun _ => hunaddressed⟩
    rw [deliveredTo_eq_none ha] at hu
    cases hu

end Specification

end Search

/-! ## A notification that is refused -/

def notifiedSessions : List MbsSession := [{ activeSubscriptions := some [("sub-1", 4)] }]

def cacheOfFour : Ref → Option SubscriptionCache := fun u =>
  if u = 4 then some { notifServer := some 7, notifUrl := some "http://host/n" } else none

def parseHostUrl : String → Option (Option String) := fun url =>
  if url = "http://host/n" then some (some "n") else none

theorem addressedBy_four : AddressedBy parseHostUrl cacheOfFour 7 (some "/n") 4 :=
  hasServerAndPath_iff.1 (by decide)

/-- The notification for the only subscription does not reach it. -/
theorem addressed_notification_is_refused :
    ¬ Dispatches parseHostUrl cacheOfFour 7 (some "/n") notifiedSessions := by
  intro h
  obtain ⟨a, ha, -, hnone⟩ := h.delivers
  exact hnone (deliveredTo_eq_none ha) 4 ⟨_, List.mem_cons_self, .inr List.mem_cons_self⟩
    addressedBy_four

-- The search would not get past a session that never had a subscription either.
example : findSubscription parseHostUrl cacheOfFour 7 (some "/n") ({} :: notifiedSessions) =
    .error .notAHashTable := rfl

end ServiceConsumers.NotificationDispatch
