import ServiceConsumers.AnswerEffects

set_option autoImplicit false

/-!
# The events, case by case
-/

namespace ServiceConsumers.EventEffects

open ObjectStore KeyedTable PublicSessions ConsumerState TmgiOperations SubscriptionOperations
  SessionOperations ResponseHandlers ProcessEvent TransitionRuns TransactionLog TmgiEffects
  SessionEffects PushEffects AnswerEffects

variable {w w' : World}

/-! ## Answers to session requests -/

/-- The ways in which an answer to a session request is handled. -/
inductive SessionAnswer (w : World) (x : Xact) (rsp : Response) : Option Ref → World → Prop where
  | ignored (session : Option Ref) : SessionAnswer w x rsp session w
  | unparsable {s : Ref} {w' : World} (hparsed : rsp.parsed = false)
      (h : mbsSessionDoCallback w x.id s .create .ogsError rsp.problemDetails = .ok w') :
      SessionAnswer w x rsp (some s) w'
  | created {s : Ref} {w' : World} {carried : PublicSession Tmgi}
      {embedded : Option (Ref × SubscriptionBody)} (hparsed : rsp.parsed = true)
      (hrequest : x.request = .create carried embedded)
      (h : handleCreateResponse w x.id s rsp = .ok w') : SessionAnswer w x rsp (some s) w'
  | removed {s : Ref} {w' : World} {id : String} {y : MbsSession} (hparsed : rsp.parsed = true)
      (hrequest : x.request = .remove (some id)) (hid : id ≠ "subscriptions")
      (hy : w.sessionStore s = some y)
      (h : nmbsmfMbsSessionDeleteResponse (w.refCountSbiObjectRef y.sbiObject) x.id s = .ok w') :
      SessionAnswer w x rsp (some s) w'
  | updated {s : Ref} {w' : World} {id : String} {patches : List JsonDocuments.PatchItem}
      {carried : PublicSession Tmgi} (hparsed : rsp.parsed = true)
      (hrequest : x.request = .update (some id) patches carried) (hid : id ≠ "subscriptions")
      (h : mbsSessionDoCallback w x.id s .update .ogsOk none = .ok w') :
      SessionAnswer w x rsp (some s) w'

theorem processSessionResponse_cases {x : Xact} {session : Option Ref} {rsp : Response}
    (hservice : x.request.isTmgi = false)
    (h : processSessionResponse w x session rsp = .ok w') : SessionAnswer w x rsp session w' := by
  have ignored : ∀ v, (.ok w : Except Fault World) = .ok v → SessionAnswer w x rsp session v := by
    intro v hv
    rw [Except.ok.injEq] at hv
    exact hv ▸ .ignored session
  unfold processSessionResponse at h
  cases hparsed : rsp.parsed with
  | false =>
      simp only [hparsed, Bool.not_false, if_true] at h
      cases session with
      | none => exact ignored _ h
      | some s => exact .unparsable hparsed h
  | true =>
      simp only [hparsed, Bool.not_true, Bool.false_eq_true, if_false] at h
      cases hrequest : x.request with
      | create carried embedded =>
          cases session with
          | none =>
              simp only [hrequest, Request.component1, Request.method] at h
              split at h
              · cases h
              · exact ignored _ h
          | some s =>
              simp only [hrequest, Request.component1, Request.method] at h
              exact .created hparsed hrequest h
      | update id patches carried =>
          cases id with
          | none =>
              simp only [hrequest, Request.component1, Request.method] at h
              exact ignored _ h
          | some id =>
              by_cases hid : id = "subscriptions"
              · simp only [hrequest, Request.component1, Request.component2, Request.method,
                  if_pos hid] at h
                exact ignored _ h
              · cases session with
                | none =>
                    simp only [hrequest, Request.component1, Request.component2, Request.method,
                      if_neg hid] at h
                    exact ignored _ h
                | some s =>
                    simp only [hrequest, Request.component1, Request.component2, Request.method,
                      if_neg hid, nmbsmfMbsSessionPatchResponse_header] at h
                    exact .updated hparsed hrequest hid h
      | remove id =>
          cases id with
          | none =>
              simp only [hrequest, Request.component1, Request.method] at h
              exact ignored _ h
          | some id =>
              by_cases hid : id = "subscriptions"
              · simp only [hrequest, Request.component1, Request.component2, Request.method,
                  if_pos hid] at h
                exact ignored _ h
              · cases session with
                | none =>
                    simp only [hrequest, Request.component1, Request.component2, Request.method,
                      if_neg hid] at h
                    cases h
                | some s =>
                    simp only [hrequest, Request.component1, Request.component2, Request.method,
                      if_neg hid, bind_eq_ok, World.sessionAt_eq_ok] at h
                    obtain ⟨y, hy, h⟩ := h
                    exact .removed hparsed hrequest hid hy h
      | subscribe u body =>
          cases session with
          | none =>
              simp only [hrequest, Request.component1, Request.component2, Request.method,
                if_true] at h
              exact ignored _ h
          | some s =>
              simp only [hrequest, Request.component1, Request.component2, Request.method,
                if_true] at h
              rw [nmbsmfMbsSessionSubscriptionResponse_header h]
              exact .ignored _
      | subscriptionUpdate u id patches =>
          cases id <;>
            simp only [hrequest, Request.component1, Request.component2, Request.method,
              if_true] at h <;>
            exact ignored _ h
      | subscriptionDelete u id =>
          cases id <;>
            simp only [hrequest, Request.component1, Request.component2, Request.method,
              if_true] at h <;>
            exact ignored _ h
      | tmgiAllocate n refresh => rw [hrequest] at hservice; cases hservice
      | tmgiDeallocate tmgis => rw [hrequest] at hservice; cases hservice

/-! ## Responses -/

/-- How a response is processed: it answers nothing that was sent, or nothing that anybody
waits for, or it is handled. -/
theorem processResponse_cases {n : ℕ} {rsp : Response} (h : processResponse w n rsp = .ok w') :
    (w.findSent n = none ∧ w' = w) ∨ ∃ sent, w.findSent n = some sent ∧
      ((w' = w.say (.answered sent rsp) ∧ ∀ x, w.findXact n = some x →
          contextSbiObjectToSession w x.sbiObject = none ∧
          contextSbiObjectToTmgi w x.sbiObject = none) ∨
      ∃ x session tmgi v held, w.findXact n = some x ∧
        session = contextSbiObjectToSession w x.sbiObject ∧
        tmgi = contextSbiObjectToTmgi w x.sbiObject ∧ ¬(session = none ∧ tmgi = none) ∧
        (if x.request.isTmgi then
          processTmgiResponse ((w.say (.answered sent rsp)).say (.handled n session tmgi)) x tmgi rsp
        else processSessionResponse
          ((w.say (.answered sent rsp)).say (.handled n session tmgi)) x session rsp) = .ok v ∧
        w' = finishEvent n held v) := by
  unfold processResponse at h
  cases hsent : w.findSent n with
  | none =>
      simp only [hsent, Except.ok.injEq] at h
      exact .inl ⟨rfl, h.symm⟩
  | some sent =>
      refine .inr ⟨sent, rfl, ?_⟩
      have hfind : (w.say (.answered sent rsp)).findXact n = w.findXact n := rfl
      simp only [hsent, hfind] at h
      cases hx : w.findXact n with
      | none =>
          simp only [hx, Except.ok.injEq] at h
          exact .inl ⟨h.symm, fun x hx' => by cases hx'⟩
      | some x =>
          simp only [hx] at h
          split at h
          · rename_i hnone
            rw [Except.ok.injEq] at h
            refine .inl ⟨h.symm, ?_⟩
            intro y hy
            rw [Option.some.injEq] at hy
            exact hy ▸ hnone
          · rename_i hsome
            simp only [bind_eq_ok, Except.ok.injEq] at h
            obtain ⟨v, hv, rfl⟩ := h
            exact .inr ⟨x, _, _, v, _, rfl, rfl, rfl, hsome, hv, rfl⟩

theorem processTimeout_cases {n : ℕ} (h : processTimeout w n = .ok w') :
    (w.findXact n = none ∧ w' = w) ∨ ∃ x, w.findXact n = some x ∧
      ((contextSbiObjectToSession w x.sbiObject = none ∧ w' = w.say (.timedOut x)) ∨
      ∃ s v, contextSbiObjectToSession w x.sbiObject = some s ∧
        reportTimeout ((w.say (.timedOut x)).say
          (.handled n (some s) (contextSbiObjectToTmgi w x.sbiObject))) x s
          (contextSbiObjectToTmgi w x.sbiObject) = .ok v ∧
        w' = v.removeXact n) := by
  unfold processTimeout at h
  cases hx : w.findXact n with
  | none =>
      simp only [hx, Except.ok.injEq] at h
      exact .inl ⟨rfl, h.symm⟩
  | some x =>
      refine .inr ⟨x, rfl, ?_⟩
      have hfind : contextSbiObjectToSession (w.say (.timedOut x)) x.sbiObject =
          contextSbiObjectToSession w x.sbiObject := rfl
      simp only [hx, hfind] at h
      cases hs : contextSbiObjectToSession w x.sbiObject with
      | none =>
          simp only [hs, Except.ok.injEq] at h
          exact .inl ⟨rfl, h.symm⟩
      | some s =>
          simp only [hs, bind_eq_ok, Except.ok.injEq] at h
          obtain ⟨v, hv, rfl⟩ := h
          exact .inr ⟨s, v, rfl, hv, rfl⟩

theorem reportTimeout_cases {x : Xact} {s : Ref} {tmgi : Option Ref}
    (h : reportTimeout w x s tmgi = .ok w') :
    (∃ t, x.request.isTmgi = true ∧ tmgi = some t ∧
      tmgiDoCallback w x.id t .ogsTimedOut none = .ok w') ∨
    (x.request.isCreate = true ∧
      mbsSessionDoCallback w x.id s .create .ogsTimedOut none = .ok w') ∨
    (x.request.isCreate = false ∧ w' = w) := by
  unfold reportTimeout at h
  cases hrequest : x.request with
  | tmgiAllocate n refresh =>
      cases tmgi with
      | none =>
          simp only [hrequest] at h
          cases h
      | some t =>
          simp only [hrequest] at h
          exact .inl ⟨t, rfl, rfl, h⟩
  | create carried embedded =>
      simp only [hrequest] at h
      exact .inr (.inl ⟨rfl, h⟩)
  | _ =>
      simp only [hrequest, Except.ok.injEq] at h
      exact .inr (.inr ⟨rfl, h.symm⟩)

theorem processDiscovery_cases (w : World) (n : ℕ) (found : Bool) :
    processDiscovery w n found = w ∨ processDiscovery w n found = w.removeXact n := by
  unfold processDiscovery
  cases w.findXact n with
  | none => exact .inl rfl
  | some x =>
      by_cases hnone : contextSbiObjectToSession w x.sbiObject = none ∧
          contextSbiObjectToTmgi w x.sbiObject = none
      · exact .inl (by simp only [if_pos hnone])
      · cases found with
        | true => exact .inl (by simp only [if_neg hnone, if_true])
        | false => exact .inr (by simp only [if_neg hnone, Bool.false_eq_true, if_false])

/-! ## The create answer -/

/-- How an answer to a create request is handled: it is refused, or it is not understood, or
the session is created and its changes are pushed. -/
theorem handleCreateResponse_cases {n : ℕ} {s : Ref} {rsp : Response}
    (h : handleCreateResponse w n s rsp = .ok w') :
    (isSuccess rsp.status = false ∧
      mbsSessionDoCallback w n s .create .ogsError rsp.problemDetails = .ok w') ∨
    (isSuccess rsp.status = true ∧ ∃ v, nmbsmfMbsSessionParse w s rsp = .ok (v, false) ∧
      mbsSessionDoCallback v n s .create .ogsError none = .ok w') ∨
    (isSuccess rsp.status = true ∧ ∃ v v', nmbsmfMbsSessionParse w s rsp = .ok (v, true) ∧
      mbsSessionDoCallback v n s .create .ogsOk none = .ok v' ∧
      mbsSessionPushChanges v' s = .ok w') := by
  unfold handleCreateResponse at h
  cases hstatus : isSuccess rsp.status with
  | false =>
      simp only [hstatus, Bool.false_eq_true, if_false] at h
      exact .inl ⟨rfl, h⟩
  | true =>
      simp only [hstatus, if_true, bind_eq_ok, Prod.exists] at h
      obtain ⟨v, understood, hparse, h⟩ := h
      cases understood with
      | false =>
          simp only [Bool.false_eq_true, if_false] at h
          exact .inr (.inl ⟨rfl, v, hparse, h⟩)
      | true =>
          simp only [if_true, bind_eq_ok] at h
          obtain ⟨v', hv', h⟩ := h
          exact .inr (.inr ⟨rfl, v, v', hparse, hv', h⟩)

/-! ## The answer to an update -/

/-- The answer to an update leaves the sessions, their copies and the TMGIs as they are. -/
theorem stores_of_updateAnswer {n : ℕ} {rsp : Response} {x : Xact} {id : Option String}
    {patches : List JsonDocuments.PatchItem} {carried : PublicSession Tmgi}
    (hx : w.findXact n = some x) (hrequest : x.request = .update id patches carried)
    (h : processResponse w n rsp = .ok w') :
    w'.sessionStore = w.sessionStore ∧ w'.tmgiStore = w.tmgiStore := by
  rcases processResponse_cases h with ⟨-, rfl⟩ | ⟨sent, -, ⟨rfl, -⟩ |
    ⟨x', session, tmgi, v, held, hx', -, -, -, hv, rfl⟩⟩
  · exact ⟨rfl, rfl⟩
  · exact ⟨rfl, rfl⟩
  obtain rfl := Option.some.inj (hx.symm.trans hx')
  have hservice : x.request.isTmgi = false := by
    rw [hrequest]
    rfl
  simp only [hservice, Bool.false_eq_true, if_false] at hv
  have hhandled : v.sessionStore = w.sessionStore ∧ v.tmgiStore = w.tmgiStore := by
    cases processSessionResponse_cases hservice hv with
    | ignored => exact ⟨rfl, rfl⟩
    | unparsable hparsed hcallback =>
        obtain ⟨hsessions, htmgis⟩ := callback_keeps_stores hcallback
        exact ⟨hsessions, htmgis⟩
    | created hparsed hcreate =>
        rw [hrequest] at hcreate
        cases hcreate
    | removed hparsed hremove =>
        rw [hrequest] at hremove
        cases hremove
    | updated hparsed hupdate hid hcallback =>
        obtain ⟨hsessions, htmgis⟩ := callback_keeps_stores hcallback
        exact ⟨hsessions, htmgis⟩
  exact ⟨(tmgiEffect_finishEvent n held).sessionStore.trans hhandled.1,
    (World.refCountSbiObjectUnref_tmgiStore _ _).trans hhandled.2⟩

end ServiceConsumers.EventEffects
