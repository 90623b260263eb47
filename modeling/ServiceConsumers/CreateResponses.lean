import ServiceConsumers.AllocationMatching
import ServiceConsumers.TmgiRegistry

set_option autoImplicit false

/-!
# Create responses

A create response is read field by field, and each field is stored as soon as it is read. An
error return comes behind some of these writes.
-/

namespace ServiceConsumers.CreateResponses

open ObjectStore ServiceAreas PublicSessions ConsumerState TmgiOperations SessionOperations
  ResponseHandlers ProcessEvent TransitionRuns EventEffects StepDecomposition RunInvariants
  TmgiEffects AnswerEffects SessionCopies TmgiContents Quiescence SessionCallbacks TmgiSteps
  AllocationMatching SessionTmgis TmgiRegistry

/-! ## What is to hold -/

/-- The session, the registry and the TMGI objects are as they were. -/
structure LeftAsBefore (w w' : World) (x y : MbsSession) : Prop where
  id : y.id = x.id
  tunnel : y.session.mbUpfUdpTunnel = x.session.mbUpfUdpTunnel
  tmgi : y.session.tmgi = x.session.tmgi
  ssm : y.session.ssm = x.session.ssm
  previous : y.previousSession = x.previousSession
  registry : w'.tmgis = w.tmgis
  objects : ∀ t z, w.tmgiStore t = some z → w'.tmgiStore t = some z

/-- The TMGI of the response, with its expiry time. -/
structure TmgiFrom (m : CreatedSession) (c : Tmgi) : Prop where
  tmgi : ∃ api, m.tmgi = some api ∧ c.mbsServiceId = api.mbsServiceId ∧
    c.plmn.mcc = api.mccNumber ∧ c.plmn.mnc = api.mncNumber
  expiryTime : m.expirationTime = some (.seconds c.expiryTime)

/-- A response without addresses does not change the SSM. -/
def ssmFrom (before : Option SsmAddr) : Option SsmAnswer → Option SsmAddr
  | some (.ipv4 source dest) => some { family := .inet, source := source, destMc := dest }
  | some (.ipv6 source dest) => some { family := .inet6, source := source, destMc := dest }
  | some .unusable | none => before

/-- The copy that is kept has what the response brought. -/
structure KeptFrom (w' : World) (p : PublicSession Ref) (current : PublicSession Ref) : Prop where
  tunnel : p.mbUpfUdpTunnel = current.mbUpfUdpTunnel
  ssm : p.ssm = current.ssm
  tmgi : w'.tmgiContent p.tmgi = w'.tmgiContent current.tmgi

/-- Everything is set from the response. Tunnels and a TMGI that were not requested are not
looked for. -/
structure SetFrom (w' : World) (x y : MbsSession) (id : String) (m : CreatedSession) : Prop where
  id : y.id = some id
  tunnel : if x.session.tunnelReq then m.ingressTunAddr = some y.session.mbUpfUdpTunnel
    else y.session.mbUpfUdpTunnel = x.session.mbUpfUdpTunnel
  tmgi : if x.session.tmgiReq then ∃ t z, y.session.tmgi = some t ∧ t ∈ w'.tmgis ∧
      w'.tmgiStore t = some z ∧ TmgiFrom m z.tmgi
    else y.session.tmgi = x.session.tmgi
  ssm : ∃ answer, m.mbsSessionId = some answer ∧ y.session.ssm = ssmFrom x.session.ssm answer
  previous : ∃ p, y.previousSession = some p ∧ KeptFrom w' p y.session

def ParsesAtomically (w : World) (s : Ref) (rsp : Response) (x : MbsSession) : Prop :=
  ∃ w' y understood, nmbsmfMbsSessionParse w s rsp = .ok (w', understood) ∧
    w'.sessionStore s = some y ∧
    (understood = false → LeftAsBefore w w' x y) ∧
    (understood = true → ∃ id m, rsp.createLocation = .resource id ∧
      rsp.createRspData = some (some m) ∧ SetFrom w' x y id m)

/-! ## The condition -/

/-- What the rest of the function needs of a response that has all that was requested. -/
structure Answerable (w : World) (x : MbsSession) (m : CreatedSession) : Prop where
  sessionId : ∃ answer, m.mbsSessionId = some answer ∧
    (answer = some .unusable → x.session.ssm.isSome = true)
  strings : StringsPresent x.session.mbsServiceInfo
  previousTmgi : x.session.tmgiReq = true → ∀ p d, x.previousSession = some p → p.tmgi = some d →
    d ≠ w.next → (w.tmgiStore d).isSome = true

/-- What is stored before an error return was there already, and nothing is missing behind the
last one. -/
structure Intact (w : World) (x : MbsSession) (rsp : Response) : Prop where
  id : ∀ id, rsp.createLocation = .resource id → createUnderstood x rsp = false → x.id = some id
  tunnel : ∀ id m addresses, rsp.createLocation = .resource id →
    rsp.createRspData = some (some m) → createUnderstood x rsp = false →
    x.session.tunnelReq = true → m.ingressTunAddr = some addresses →
    x.session.mbUpfUdpTunnel = addresses
  answered : ∀ m, rsp.createRspData = some (some m) → createUnderstood x rsp = true →
    Answerable w x m

/-- The next object is not in use yet. -/
structure NextUnused (w : World) : Prop where
  store : w.tmgiStore w.next = none
  registry : w.next ∉ w.tmgis

variable {w w' v v' : World} {s t : Ref} {rsp : Response} {x y : MbsSession}
  {id : String} {m : CreatedSession}

/-! ## Addresses in turn -/

/-- The objects that there are came before the next one. -/
structure InTurn (w : World) : Prop where
  store : ∀ t, (w.tmgiStore t).isSome = true → t < w.next
  registry : ∀ t ∈ w.tmgis, t < w.next

namespace InTurn

variable {dst src : PublicSession Ref}

theorem nextUnused (h : InTurn w) : NextUnused w := by
  refine ⟨?_, fun hmem => lt_irrefl _ (h.registry _ hmem)⟩
  cases hx : w.tmgiStore w.next with
  | none => rfl
  | some x => exact absurd (h.store w.next (by rw [hx]; rfl)) (lt_irrefl _)

theorem of_shrinks (h : InTurn w) (hshrinks : Shrinks w w') : InTurn w' := by
  refine ⟨fun t ht => ?_, fun t ht => ?_⟩
  · rw [hshrinks.isSome] at ht
    exact lt_of_lt_of_le (h.store t ht) hshrinks.next
  · exact lt_of_lt_of_le (h.registry t (hshrinks.subset ht)) hshrinks.next

theorem of_same (h : InTurn w) (hsame : SameTmgis w w') : InTurn w' :=
  h.of_shrinks (.of_same hsame)

theorem withTmgi (h : InTurn w) (x : PrivTmgi) : InTurn (withTmgi w x) := by
  refine ⟨fun t ht => ?_, fun t ht => ?_⟩
  · by_cases hnext : t = w.next
    · exact hnext ▸ Nat.lt_succ_self _
    · refine (h.store t ?_).trans (Nat.lt_succ_self _)
      exact (congrArg Option.isSome (Store.set_of_ne _ _ _ hnext)).symm.trans ht
  · rcases List.mem_append.1 ht with ht | ht
    · exact (h.registry t ht).trans (Nat.lt_succ_self _)
    · exact List.mem_singleton.1 ht ▸ Nat.lt_succ_self _

theorem withoutTmgi (h : InTurn w) (t : Ref) : InTurn (withoutTmgi w t) :=
  ⟨fun q hq => h.store q (Store.isSome_of_free hq),
    fun q hq => h.registry q (List.mem_of_mem_erase hq)⟩

theorem modifyTmgi (h : InTurn w) (f : PrivTmgi → PrivTmgi) : InTurn (w.modifyTmgi t f) :=
  ⟨fun q hq => h.store q ((Store.isSome_modify w.tmgiStore t q f).symm.trans hq), h.registry⟩

theorem discarded {x : PrivTmgi} (h : InTurn w)
    (htmgis : w'.tmgis = (w.tmgis ++ [w.next]).erase w.next)
    (hstore : w'.tmgiStore = w.tmgiStore.set w.next x) (hnext : w'.next = w.next + 1) :
    InTurn w' := by
  obtain ⟨hlive, hregistered⟩ := h.withTmgi x
  refine ⟨fun t ht => ?_, fun t ht => ?_⟩
  · rw [hstore] at ht
    rw [hnext]
    exact hlive t ht
  · rw [htmgis] at ht
    rw [hnext]
    exact hregistered t (List.mem_of_mem_erase ht)

theorem frees {p : PublicSession Ref} (h : InTurn w) (hfrees : Frees w p w') : InTurn w' := by
  obtain ⟨v, hv, hsame | ⟨t, -, -, -, hsame⟩⟩ := hfrees
  · exact (h.of_same hv).of_same hsame
  · exact ((h.of_same hv).withoutTmgi t).of_same hsame

theorem copyEffect (h : InTurn w) (hcopy : CopyEffect w dst src w') : InTurn w' := by
  cases hcopy with
  | shared same => exact h.of_same same
  | freed req source target registered live same => exact (h.withoutTmgi _).of_same same
  | overwritten req source target other live same => exact (h.modifyTmgi _).of_same same
  | made req source target live same => exact (h.withTmgi _).of_same same

theorem foldlM {α : Type} {f : World → α → Except Fault World} {xs : List α}
    (hstep : ∀ x v v', InTurn v → f v x = .ok v' → InTurn v') (h : InTurn w)
    (hrun : xs.foldlM f w = .ok w') : InTurn w' :=
  foldlM_ok_induction (fun _ v => InTurn v) (fun x _ v v' hv hf => hstep x v v' hv hf) xs w w' h
    hrun

theorem takeAllocated {n : ℕ} {e : ℤ} {api : ApiTmgi} (h : InTurn w)
    (hrun : takeAllocated n e w api = .ok w') : InTurn w' := by
  unfold ResponseHandlers.takeAllocated at hrun
  split at hrun
  · rw [Except.ok.injEq] at hrun
    exact hrun ▸ h
  · rename_i t hfind
    exact (((h.modifyTmgi _).modifyTmgi _).modifyTmgi _).of_same
      (SameTmgis.tmgiDoCallback (List.mem_of_find?_eq_some hfind) hrun)

theorem reportRefused {n : ℕ} {problem : Option ProblemDetails} {c : Tmgi} (h : InTurn w)
    (hrun : reportRefused n problem w c = .ok w') : InTurn w' := by
  unfold ResponseHandlers.reportRefused at hrun
  split at hrun
  · rw [Except.ok.injEq] at hrun
    exact hrun ▸ h
  · rename_i hfind
    exact h.of_same (SameTmgis.tmgiDoCallback (List.mem_of_find?_eq_some hfind) hrun)

theorem doTmgiRemove {n : ℕ} {c : Tmgi} (h : InTurn w)
    (hrun : doTmgiRemove n rsp w c = .ok w') : InTurn w' := by
  cases hfind : tmgiFindMatchingOpenapiType w (tmgiToOpenapiType c) with
  | none =>
      rw [doTmgiRemove_not_found hfind, Except.ok.injEq] at hrun
      exact hrun ▸ h
  | some t => exact h.of_shrinks (doTmgiRemove_found hfind hrun).1

theorem part {e : Event} (hw : InTurn w) (h : InTurn v) (hpart : TmgiPart w e v v') :
    InTurn v' := by
  cases hpart with
  | quiet same => exact h.of_same same
  | create event => exact hw.withTmgi _
  | free event run => exact (hw.withoutTmgi _).of_same (withoutTmgi_of_tmgiFree run).2.2
  | set event setting run =>
      simp only [tmgiSet, bind_eq_ok, Except.ok.injEq] at run
      obtain ⟨x, -, rfl⟩ := run
      exact hw.modifyTmgi _
  | allocated event answers method same run =>
      unfold nmbsmfTmgiAllocated at run
      split at run
      · split at run
        · rw [Except.ok.injEq] at run
          exact run ▸ h
        · exact h.foldlM (fun _ _ _ hv hrun => hv.takeAllocated hrun) run
      · exact h.foldlM (fun _ _ _ hv hrun => hv.reportRefused hrun) run
  | deallocated event answers method same run =>
      exact h.foldlM (fun _ _ _ hv hrun => hv.doTmgiRemove hrun) run
  | parse event answers request status run =>
      obtain ⟨y, hy, -⟩ := nmbsmfMbsSessionParse_eq_ok run
      cases parseEffect hy run with
      | nothing idle same => exact h.of_same same
      | discarded misunderstood tmgis store next called => exact h.discarded tmgis store next
      | granted req understood made source copied =>
          exact ((h.withTmgi _).of_same made).copyEffect copied
  | left event answers request usable same sessions run =>
      obtain ⟨y, hy⟩ := live_of_contextRemoveMbsSession run
      obtain ⟨u, hu, hfrees⟩ := frees_contextRemoveMbsSession hy run
      rcases hu with hsame | ⟨p, -, hp⟩
      · exact (h.of_same hsame).frees hfrees
      · exact (h.frees hp).frees hfrees

end InTurn

/-- In every state of every run the next object is not in use. -/
theorem nextUnused_of_run {good : World → Event → Prop} (h : Run good w) : NextUnused w := by
  refine InTurn.nextUnused ?_
  refine h.invariant InTurn ⟨fun t ht => (by cases ht), fun t ht => absurd ht List.not_mem_nil⟩ ?_
  intro w e w' hrun hw _ hstep
  have hparts := step_tmgiParts (sound_of_run hrun).xacts hstep
  clear hstep
  induction hparts with
  | refl => exact hw
  | tail _ hlast ih => exact hw.part ih hlast

/-! ## The TMGI -/

/-- What a new object is given of a TMGI. -/
def named (api : ApiTmgi) : PrivTmgi :=
  tmgiSetPlmn api.mccNumber api.mncNumber (tmgiSetMbsServiceId api.mbsServiceId {})

theorem tmgiCreate_named (api : ApiTmgi) :
    ((tmgiCreate w none).1.modifyTmgi w.next (tmgiSetMbsServiceId api.mbsServiceId)).modifyTmgi
      w.next (tmgiSetPlmn api.mccNumber api.mncNumber) = withTmgi w (named api) := by
  simp only [tmgiCreate, World.modifyTmgi, withTmgi, Store.modify_set]
  rfl

theorem tmgiFrom_granted {api : ApiTmgi} {e : ℤ} (hapi : m.tmgi = some api)
    (hstamp : m.expirationTime = some (.seconds e)) : TmgiFrom m (granted api e {}).tmgi := by
  have hplmn : (granted api e {}).tmgi.plmn.mcc = api.mccNumber ∧
      (granted api e {}).tmgi.plmn.mnc = api.mncNumber := by
    change (named api).tmgi.plmn.mcc = _ ∧ (named api).tmgi.plmn.mnc = _
    rw [named, tmgiSetPlmn_plmn]
    split
    · exact ⟨rfl, rfl⟩
    · rename_i hsame
      push Not at hsame
      exact hsame
  refine ⟨⟨api, hapi, ?_, hplmn⟩, hstamp⟩
  change (named api).tmgi.mbsServiceId = _
  rw [named, tmgiSetPlmn_mbsServiceId]
  rfl

theorem createdTmgi_malformed {api : ApiTmgi} (s : Ref) (hapi : m.tmgi = some api)
    (hstamp : m.expirationTime = some .malformed) : createdTmgi w s m =
      (contextRemoveTmgi (withTmgi w (named api)) w.next).bind fun v => .ok (v, none) := by
  simp only [createdTmgi, hapi, hstamp, ← tmgiCreate_named]
  rfl

theorem createdTmgi_seconds {api : ApiTmgi} {e : ℤ} (hx : w.sessionStore s = some x)
    (hapi : m.tmgi = some api) (hstamp : m.expirationTime = some (.seconds e)) :
    createdTmgi w s m = (tmgiReplaceSbiObject (withTmgi w (granted api e {}))
      w.next x.sbiObject).bind fun v => .ok (v, some w.next) := by
  have hset : (withTmgi w (named api)).modifyTmgi w.next (tmgiSetExpiryTime e) =
      withTmgi w (granted api e {}) := by
    simp only [World.modifyTmgi, withTmgi, Store.modify_set]
    rfl
  have hsession : (withTmgi w (granted api e {})).sessionAt s = .ok x :=
    World.sessionAt_eq_ok.2 hx
  rw [← hset, ← tmgiCreate_named] at hsession ⊢
  simp only [createdTmgi, hapi, hstamp]
  exact congrArg (fun r => bind r _) hsession

/-- An object that is made for a malformed time stamp leaves the registry again. -/
theorem createdTmgi_refused (s : Ref) (hnext : NextUnused w)
    (h : (m.tmgi.isSome && m.expirationTime.any (· != .malformed)) = false) :
    ∃ v, createdTmgi w s m = .ok (v, none) ∧ v.sessionStore = w.sessionStore ∧
      v.tmgis = w.tmgis ∧ ∀ t z, w.tmgiStore t = some z → v.tmgiStore t = some z := by
  cases htmgi : m.tmgi with
  | none => exact ⟨w, by simp only [createdTmgi, htmgi], rfl, rfl, fun _ _ hz => hz⟩
  | some api =>
      cases hstamp : m.expirationTime with
      | none => exact ⟨w, by simp only [createdTmgi, htmgi, hstamp], rfl, rfl, fun _ _ hz => hz⟩
      | some stamp =>
          cases stamp with
          | seconds e =>
              rw [htmgi, hstamp] at h
              cases h
          | malformed =>
              have hmem : w.next ∈ (withTmgi w (named api)).tmgis :=
                List.mem_append_right _ List.mem_cons_self
              have herase : (withTmgi w (named api)).tmgis.erase w.next = w.tmgis := by
                rw [withTmgi, List.erase_append_right _ hnext.registry, List.erase_cons_head,
                  List.append_nil]
              have hremove := contextRemoveTmgi_eq_ok.2 ⟨hmem, rfl⟩
              refine ⟨{ withTmgi w (named api) with
                tmgis := (withTmgi w (named api)).tmgis.erase w.next }, ?_, rfl, herase, ?_⟩
              · rw [createdTmgi_malformed s htmgi hstamp, hremove]
                rfl
              intro t z hz
              have hne : t ≠ w.next := by
                rintro rfl
                rw [hnext.store] at hz
                cases hz
              exact (Store.set_of_ne _ _ _ hne).trans hz

theorem createdTmgi_granted (hx : w.sessionStore s = some x)
    (h : (m.tmgi.isSome && m.expirationTime.any (· != .malformed)) = true) :
    ∃ v z, createdTmgi w s m = .ok (v, some w.next) ∧ v.sessionStore = w.sessionStore ∧
      w.next ∈ v.tmgis ∧ v.tmgiStore w.next = some z ∧ TmgiFrom m z.tmgi ∧
      ∀ t, t ≠ w.next → v.tmgiStore t = w.tmgiStore t := by
  cases htmgi : m.tmgi with
  | none =>
      rw [htmgi] at h
      cases h
  | some api =>
      cases hstamp : m.expirationTime with
      | none =>
          rw [htmgi, hstamp] at h
          cases h
      | some stamp =>
          cases stamp with
          | malformed =>
              rw [htmgi, hstamp] at h
              cases h
          | seconds e =>
              have hmade : (withTmgi w (granted api e {})).tmgiStore w.next =
                  some (granted api e {}) := Store.set_self _ _ _
              have hreplace : tmgiReplaceSbiObject (withTmgi w (granted api e {})) w.next
                  x.sbiObject = .ok _ := tmgiReplaceSbiObject_eq_ok.2 ⟨_, hmade, rfl⟩
              refine ⟨_, { granted api e {} with sbiObject := x.sbiObject },
                by rw [createdTmgi_seconds hx htmgi hstamp, hreplace]; rfl, ?_, ?_, ?_, ?_, ?_⟩
              · simp [World.modifyTmgi, withTmgi]
              · simp [World.modifyTmgi, withTmgi]
              · simp [World.modifyTmgi, hmade]
              · exact tmgiFrom_granted htmgi hstamp
              · intro t hne
                simp only [World.modifyTmgi, Store.modify_of_ne _ _ _ hne,
                  World.refCountSbiObjectRef_tmgiStore, World.refCountSbiObjectUnref_tmgiStore]
                exact Store.set_of_ne _ _ _ hne

/-! ## The session before and behind the error returns -/

/-- The session as a refused response leaves it. -/
def leftBehind (x : MbsSession) (rsp : Response) : MbsSession :=
  match rsp.createLocation, rsp.createRspData with
  | .resource id, some (some m) =>
      if x.session.tunnelReq && m.ingressTunAddr.isNone then { x with id := some id }
      else parsedHead x id m
  | .resource id, _ => { x with id := some id }
  | _, _ => x

/-- What a refused response leaves: the registry and the objects of before, and a session that
may have taken its id and its tunnels. -/
theorem parse_refused (hx : w.sessionStore s = some x) (hnext : NextUnused w)
    (h : createUnderstood x rsp = false) :
    ∃ w', nmbsmfMbsSessionParse w s rsp = .ok (w', false) ∧
      w'.sessionStore s = some (leftBehind x rsp) ∧ w'.tmgis = w.tmgis ∧
      ∀ t z, w.tmgiStore t = some z → w'.tmgiStore t = some z := by
  have hat : w.sessionAt s = .ok x := World.sessionAt_eq_ok.2 hx
  have hset : ∀ y : MbsSession, (w.setSession s y).sessionStore s = some y :=
    fun y => Store.set_self _ _ _
  cases hloc : rsp.createLocation with
  | absent | unparsable | noResource =>
      refine ⟨w, ?_, ?_, rfl, fun _ _ hz => hz⟩
      · simp only [nmbsmfMbsSessionParse, hat, hloc, bind, Except.bind]
      · rw [leftBehind, hloc, hx]
  | resource id =>
      cases hdata : rsp.createRspData with
      | none =>
          refine ⟨w.setSession s { x with id := some id }, ?_, ?_, rfl, fun _ _ hz => hz⟩
          · simp only [nmbsmfMbsSessionParse, hat, hloc, hdata, bind, Except.bind]
          · rw [leftBehind, hloc, hdata, hset]
      | some data =>
          cases data with
          | none =>
              refine ⟨w.setSession s { x with id := some id }, ?_, ?_, rfl, fun _ _ hz => hz⟩
              · simp only [nmbsmfMbsSessionParse, hat, hloc, hdata, bind, Except.bind]
              · rw [leftBehind, hloc, hdata, hset]
          | some m =>
              cases htunnel : x.session.tunnelReq && m.ingressTunAddr.isNone with
              | true =>
                  refine ⟨w.setSession s { x with id := some id }, ?_, ?_, rfl, fun _ _ hz => hz⟩
                  · have hboth : x.session.tunnelReq = true ∧ m.ingressTunAddr = none := by
                      simpa using htunnel
                    simp only [nmbsmfMbsSessionParse, hat, hloc, hdata, bind, Except.bind,
                      if_pos hboth]
                  · rw [leftBehind, hloc, hdata, hset]
                    exact congrArg some (if_pos htunnel).symm
              | false =>
                  have hlacks : x.session.tmgiReq = true ∧
                      (m.tmgi.isSome && m.expirationTime.any (· != .malformed)) = false := by
                    simp only [createUnderstood, hloc, hdata, htunnel, Bool.not_false,
                      Bool.true_and, Bool.or_eq_false_iff, Bool.not_eq_false'] at h
                    exact h
                  obtain ⟨v, hv, hsessions, htmgis, hobjects⟩ :=
                    createdTmgi_refused (w := w.setSession s (parsedHead x id m)) s
                      ⟨hnext.store, hnext.registry⟩ hlacks.2
                  refine ⟨v, ?_, ?_, htmgis, hobjects⟩
                  · rw [nmbsmfMbsSessionParse_eq hx hloc hdata htunnel, if_pos hlacks.1, hv]
                    rfl
                  · rw [hsessions, leftBehind, hloc, hdata, hset]
                    exact congrArg some (if_neg (Bool.eq_false_iff.1 htunnel)).symm

/-- The session when only its identifiers are left to be read: it has its id, its tunnels and
its TMGI, which is the next object. -/
structure Headed (w v : World) (x y : MbsSession) (id : String) (m : CreatedSession) : Prop where
  id : y.id = some id
  tunnel : if x.session.tunnelReq then m.ingressTunAddr = some y.session.mbUpfUdpTunnel
    else y.session.mbUpfUdpTunnel = x.session.mbUpfUdpTunnel
  req : y.session.tmgiReq = x.session.tmgiReq
  granted : x.session.tmgiReq = true → y.session.tmgi = some w.next ∧ w.next ∈ v.tmgis ∧
    ∃ z, v.tmgiStore w.next = some z ∧ TmgiFrom m z.tmgi
  kept : x.session.tmgiReq = false → y.session.tmgi = x.session.tmgi
  ssm : y.session.ssm = x.session.ssm
  info : y.session.mbsServiceInfo = x.session.mbsServiceInfo
  previous : y.previousSession = x.previousSession
  objects : ∀ t, t ≠ w.next → v.tmgiStore t = w.tmgiStore t

theorem parsedHead_session (x : MbsSession) (id : String) (m : CreatedSession) :
    (parsedHead x id m).session =
      { x.session with mbUpfUdpTunnel := (parsedHead x id m).session.mbUpfUdpTunnel } := by
  unfold parsedHead
  split <;> rfl

theorem parsedHead_tunnel (id : String)
    (htunnel : (x.session.tunnelReq && m.ingressTunAddr.isNone) = false) :
    if x.session.tunnelReq then m.ingressTunAddr = some (parsedHead x id m).session.mbUpfUdpTunnel
    else (parsedHead x id m).session.mbUpfUdpTunnel = x.session.mbUpfUdpTunnel := by
  cases hreq : x.session.tunnelReq with
  | false => simp [parsedHead, hreq]
  | true =>
      rw [hreq, Bool.true_and, Option.isNone_eq_false_iff] at htunnel
      obtain ⟨addresses, hsome⟩ := Option.isSome_iff_exists.1 htunnel
      simp [parsedHead, hreq, hsome]

theorem parse_understood (hx : w.sessionStore s = some x) (h : createUnderstood x rsp = true) :
    ∃ id m v y, rsp.createLocation = .resource id ∧ rsp.createRspData = some (some m) ∧
      nmbsmfMbsSessionParse w s rsp = (parseSessionId v s m).bind (fun w => .ok (w, true)) ∧
      v.sessionStore s = some y ∧ Headed w v x y id m ∧
      y.session = { x.session with
        mbUpfUdpTunnel := y.session.mbUpfUdpTunnel
        tmgi := y.session.tmgi } := by
  obtain ⟨id, m, hloc, hdata, htunnel, hhas⟩ : ∃ id m, rsp.createLocation = .resource id ∧
      rsp.createRspData = some (some m) ∧
      (x.session.tunnelReq && m.ingressTunAddr.isNone) = false ∧
      (x.session.tmgiReq = true →
        (m.tmgi.isSome && m.expirationTime.any (· != .malformed)) = true) := by
    unfold createUnderstood at h
    split at h
    · rename_i id m hloc hdata
      rw [Bool.and_eq_true, Bool.not_eq_true', Bool.or_eq_true, Bool.not_eq_true'] at h
      refine ⟨id, m, hloc, hdata, h.1, fun hreq => h.2.resolve_left ?_⟩
      rw [hreq]
      decide
    · cases h
  have hparse := nmbsmfMbsSessionParse_eq hx hloc hdata htunnel
  have hset : (w.setSession s (parsedHead x id m)).sessionStore s = some (parsedHead x id m) :=
    Store.set_self _ _ _
  have htunnels := parsedHead_tunnel id htunnel
  have hsession := parsedHead_session x id m
  have hnotTmgi : (parsedHead x id m).session.tmgiReq = x.session.tmgiReq ∧
      (parsedHead x id m).session.tmgi = x.session.tmgi ∧
      (parsedHead x id m).session.ssm = x.session.ssm ∧
      (parsedHead x id m).session.mbsServiceInfo = x.session.mbsServiceInfo := by
    rw [hsession]
    exact ⟨rfl, rfl, rfl, rfl⟩
  obtain ⟨hsameReq, hsameTmgi, hsameSsm, hsameInfo⟩ := hnotTmgi
  cases hreq : x.session.tmgiReq with
  | false =>
      have hskip : ¬ x.session.tmgiReq = true := by
        rw [hreq]
        exact Bool.false_ne_true
      exact ⟨id, m, _, _, hloc, hdata, hparse.trans (if_neg hskip), hset,
        ⟨rfl, htunnels, hsameReq, fun h => absurd h hskip, fun _ => hsameTmgi, hsameSsm, hsameInfo,
          rfl, fun _ _ => rfl⟩, by rw [hsession]⟩
  | true =>
      obtain ⟨v, z, hv, hsessions, hmem, hz, hfrom, hothers⟩ := createdTmgi_granted hset (hhas hreq)
      rw [if_pos hreq, hv] at hparse
      have hstored : (v.modifySession s (storeTmgi w.next)).sessionStore s =
          some (storeTmgi w.next (parsedHead x id m)) := by
        simp [World.modifySession, hsessions]
      refine ⟨id, m, _, _, hloc, hdata, hparse, hstored, ⟨rfl, htunnels, hsameReq,
        fun _ => ⟨rfl, hmem, z, hz, hfrom⟩, fun h => ?_, hsameSsm, hsameInfo, rfl, hothers⟩, ?_⟩
      · rw [hreq] at h
        cases h
      · rw [storeTmgi, hsession]

/-! ## The rest of the response -/

theorem mem_of_copyEffect {dst src : PublicSession Ref} (h : CopyEffect w dst src w')
    (hsrc : src.tmgi = some t) {q : Ref} (hq : q ∈ w.tmgis) : q ∈ w'.tmgis := by
  cases h with
  | shared same => exact same.tmgis ▸ hq
  | freed req source target registered live same =>
      rw [hsrc] at source
      cases source
  | overwritten req source target other live same => exact same.tmgis ▸ hq
  | made req source target live same => exact same.tmgis ▸ List.mem_append_left _ hq

/-- The SSM is set from the response, unless an object comes to be for nothing. -/
theorem answeredSession_ssm_iff {p : PublicSession Ref} {answer : Option SsmAnswer} :
    (answeredSession p answer).ssm = ssmFrom p.ssm answer ↔
      (answer = some .unusable → p.ssm.isSome = true) := by
  cases answer with
  | none => simp [answeredSession, ssmFrom]
  | some a =>
      cases a with
      | ipv4 source dest => simp [answeredSession, answeredSsm, ssmFrom]
      | ipv6 source dest => simp [answeredSession, answeredSsm, ssmFrom]
      | unusable =>
          cases hssm : p.ssm <;> simp [answeredSession, answeredSsm, ssmFrom, hssm]

theorem copyTmgi_sessionStore {dst src : PublicSession Ref} {r : Option Ref}
    (h : copyTmgi w dst src = .ok (w', r)) : w'.sessionStore = w.sessionStore := by
  unfold copyTmgi at h
  split at h
  · exact (tmgiEffect_tmgiCopy h).sessionStore
  · rw [Except.ok.injEq, Prod.mk.injEq] at h
    rw [h.1]

/-- A copy of the answered session has its TMGI, and could be written to. -/
theorem copyTmgi_answered {u : World} {r : Option Ref} {dst src : PublicSession Ref}
    (hhead : Headed w v x y id m) (htmgi : src.tmgi = y.session.tmgi)
    (hreq : src.tmgiReq = y.session.tmgiReq) (h : copyTmgi v dst src = .ok (u, r)) :
    u.tmgiContent r = u.tmgiContent src.tmgi ∧
      (x.session.tmgiReq = true → contentAt u w.next = contentAt v w.next) ∧
      (x.session.tmgiReq = true → ∀ d, dst.tmgi = some d → d ≠ w.next →
        (w.tmgiStore d).isSome = true) := by
  cases hx : x.session.tmgiReq with
  | false =>
      have hskip : ¬ src.tmgiReq = true := by
        rw [hreq, hhead.req, hx]
        exact Bool.false_ne_true
      rw [copyTmgi, if_neg hskip, Except.ok.injEq, Prod.mk.injEq] at h
      obtain ⟨rfl, rfl⟩ := h
      exact ⟨rfl, fun _ => rfl, fun h => absurd h Bool.false_ne_true⟩
  | true =>
      have hsource : src.tmgi = some w.next := htmgi.trans (hhead.granted hx).1
      rw [copyTmgi, if_pos (hreq.trans (hhead.req.trans hx)), hsource] at h
      by_cases hsame : dst.tmgi = some w.next
      · rw [hsame, tmgiCopy_self, Except.ok.injEq, Prod.mk.injEq] at h
        obtain ⟨rfl, rfl⟩ := h
        refine ⟨by rw [hsource], fun _ => rfl, fun _ d hd hne => absurd ?_ hne⟩
        exact Option.some.inj (hd.symm.trans hsame)
      · obtain ⟨d, q, hq, rfl, hcopy, hown⟩ := contentAt_tmgiCopy hsame h
        refine ⟨?_, fun _ => ?_, fun _ d' hd' hne => ?_⟩
        · rw [hsource, tmgiContent_some_eq_ok.2 ⟨_, hcopy, rfl⟩,
            tmgiContent_some_eq_ok.2 ⟨_, hown, rfl⟩]
        · rw [hown, contentAt, hq]
          rfl
        · obtain ⟨q', -, htarget, -⟩ := (tmgiCopy_some_eq_ok hsame).1 h
          rw [hd'] at htarget
          rw [← hhead.objects d' hne]
          exact htarget

theorem copyTmgi_answers {dst src : PublicSession Ref}
    (hhead : Headed w v x y id m) (htmgi : src.tmgi = y.session.tmgi)
    (hreq : src.tmgiReq = y.session.tmgiReq)
    (hlive : x.session.tmgiReq = true → ∀ d, dst.tmgi = some d → d ≠ w.next →
      (w.tmgiStore d).isSome = true) :
    ∃ u r, copyTmgi v dst src = .ok (u, r) := by
  cases hx : x.session.tmgiReq with
  | false =>
      have hskip : ¬ src.tmgiReq = true := by
        rw [hreq, hhead.req, hx]
        exact Bool.false_ne_true
      exact ⟨v, src.tmgi, if_neg hskip⟩
  | true =>
      obtain ⟨hgranted, -, z, hz, -⟩ := hhead.granted hx
      have hplace : TmgisInPlace v dst src := by
        refine ⟨fun t ht => ?_, fun _ d hd hne => ⟨?_, fun hnone => ?_⟩⟩
        · rw [htmgi, hgranted, Option.some.injEq] at ht
          rw [← ht, hz]
          rfl
        · have hother : d ≠ w.next := by
            rintro rfl
            exact hne (htmgi.trans hgranted)
          rw [hhead.objects d hother]
          exact hlive hx d hd hother
        · rw [htmgi, hgranted] at hnone
          cases hnone
      obtain ⟨u, r, -, hrun, -⟩ := copyTmgi_of_inPlace hplace
      exact ⟨u, r, hrun⟩

theorem Headed.setSession (hhead : Headed w v x y id m) (y' : MbsSession) :
    Headed w (v.setSession s y') x y id m :=
  ⟨hhead.id, hhead.tunnel, hhead.req, hhead.granted, hhead.kept, hhead.ssm, hhead.info,
    hhead.previous, hhead.objects⟩

def keeping (copy : PublicSession Ref) (x : MbsSession) : MbsSession :=
  { x with previousSession := some copy }

/-- How the rest of the function runs on a response with identifiers. -/
theorem parseSessionId_eq_ok {answer : Option SsmAnswer} (hy : v.sessionStore s = some y)
    (hanswer : m.mbsSessionId = some answer) : parseSessionId v s m = .ok w' ↔
      ∃ u r, copyTmgi (v.setSession s { y with session := answeredSession y.session answer })
          (y.previousSession.getD {}) (answeredSession y.session answer) = .ok (u, r) ∧
        StringsPresent (answeredSession y.session answer).mbsServiceInfo ∧
        w' = u.modifySession s (keeping
          (copiedSession (y.previousSession.getD {}) (answeredSession y.session answer) r)) := by
  rw [parseSessionId_eq hy hanswer, refreshPrevious_eq_ok]
  constructor
  · rintro ⟨u, copy, hcopy, rfl⟩
    obtain ⟨r, hr, rfl, hstrings⟩ := mbsSessionPublicCopy_iff.1 hcopy
    exact ⟨u, r, hr, hstrings, rfl⟩
  · rintro ⟨u, r, hr, hstrings, rfl⟩
    exact ⟨u, _, mbsSessionPublicCopy_iff.2 ⟨r, hr, rfl, hstrings⟩, rfl⟩

theorem setFrom_iff (hy : v.sessionStore s = some y) (hhead : Headed w v x y id m) :
    (∃ w' y', parseSessionId v s m = .ok w' ∧ w'.sessionStore s = some y' ∧
      SetFrom w' x y' id m) ↔ Answerable w x m := by
  have hafter : ∀ {answer u r}, copyTmgi (v.setSession s
      { y with session := answeredSession y.session answer }) (y.previousSession.getD {})
      (answeredSession y.session answer) = .ok (u, r) → ∀ copy,
      (u.modifySession s (keeping copy)).sessionStore s =
        some (keeping copy { y with session := answeredSession y.session answer }) := by
    intro answer u r hr copy
    have hstore : u.sessionStore s = some { y with session := answeredSession y.session answer } := by
      rw [copyTmgi_sessionStore hr]
      exact Store.set_self _ _ _
    simp [World.modifySession, Store.modify_self, hstore]
  have hpart : ∀ answer, (answeredSession y.session answer).tmgi = y.session.tmgi ∧
      (answeredSession y.session answer).tmgiReq = y.session.tmgiReq ∧
      (answeredSession y.session answer).mbsServiceInfo = y.session.mbsServiceInfo ∧
      (answeredSession y.session answer).mbUpfUdpTunnel = y.session.mbUpfUdpTunnel := by
    intro answer
    cases answer <;> exact ⟨rfl, rfl, rfl, rfl⟩
  constructor
  · rintro ⟨w', y', hparse, hy', hset⟩
    obtain ⟨answer, hanswer, hssm⟩ := hset.ssm
    obtain ⟨u, r, hr, hstrings, rfl⟩ := (parseSessionId_eq_ok hy hanswer).1 hparse
    rw [hafter hr, Option.some.injEq] at hy'
    subst hy'
    obtain ⟨htmgi, hreq, hinfo, -⟩ := hpart answer
    refine ⟨⟨answer, hanswer, ?_⟩, ?_, fun hgranted p d hp hd hne => ?_⟩
    · rw [← hhead.ssm]
      refine answeredSession_ssm_iff.1 ?_
      rw [hhead.ssm]
      exact hssm
    · rw [← hhead.info, ← hinfo]
      exact hstrings
    · refine (copyTmgi_answered (hhead.setSession _) htmgi hreq hr).2.2 hgranted d ?_ hne
      rw [hhead.previous, hp]
      exact hd
  · intro h
    obtain ⟨answer, hanswer, hssm⟩ := h.sessionId
    obtain ⟨htmgi, hreq, hinfo, htunnel⟩ := hpart answer
    have hlive : x.session.tmgiReq = true → ∀ d, (y.previousSession.getD {}).tmgi = some d →
        d ≠ w.next → (w.tmgiStore d).isSome = true := by
      rw [hhead.previous]
      intro hgranted d hd hne
      cases hp : x.previousSession with
      | none =>
          rw [hp] at hd
          cases hd
      | some p =>
          rw [hp] at hd
          exact h.previousTmgi hgranted p d hp hd hne
    obtain ⟨u, r, hr⟩ := copyTmgi_answers
      (hhead.setSession { y with session := answeredSession y.session answer }) htmgi hreq hlive
    obtain ⟨hsame, hcontent, -⟩ := copyTmgi_answered (hhead.setSession _) htmgi hreq hr
    have htunnels := hhead.tunnel
    rw [← htunnel] at htunnels
    refine ⟨_, _, (parseSessionId_eq_ok hy hanswer).2 ⟨u, r, hr, ?_, rfl⟩, hafter hr _, ?_⟩
    · rw [hinfo, hhead.info]
      exact h.strings
    refine ⟨hhead.id, htunnels, ?_, ⟨answer, hanswer, ?_⟩, ⟨_, rfl, rfl, rfl, hsame⟩⟩
    · cases hgranted : x.session.tmgiReq with
      | false => exact htmgi.trans (hhead.kept hgranted)
      | true =>
          obtain ⟨hnew, hmem, z, hz, hfrom⟩ := hhead.granted hgranted
          have hsource := htmgi.trans hnew
          have hmem' := mem_of_copyEffect (copyEffect_copyTmgi hr) hsource hmem
          have hstored : contentAt u w.next = some z.tmgi := by
            rw [hcontent hgranted, contentAt]
            exact congrArg (Option.map PrivTmgi.tmgi) hz
          obtain ⟨z', hz', heq⟩ := Option.map_eq_some_iff.1 hstored
          exact ⟨w.next, z', hsource, hmem', hz', heq ▸ hfrom⟩
    · rw [← hhead.ssm]
      refine answeredSession_ssm_iff.2 ?_
      rw [hhead.ssm]
      exact hssm

/-! ## Both outcomes -/

theorem leftBehind_kept (x : MbsSession) (rsp : Response) :
    (leftBehind x rsp).session.tmgi = x.session.tmgi ∧
      (leftBehind x rsp).session.ssm = x.session.ssm ∧
      (leftBehind x rsp).previousSession = x.previousSession := by
  unfold leftBehind
  split
  · split
    · exact ⟨rfl, rfl, rfl⟩
    · rw [parsedHead_session]
      exact ⟨rfl, rfl, rfl⟩
  · exact ⟨rfl, rfl, rfl⟩
  · exact ⟨rfl, rfl, rfl⟩

theorem leftBehind_id_iff : (leftBehind x rsp).id = x.id ↔
    ∀ id, rsp.createLocation = .resource id → x.id = some id := by
  cases hloc : rsp.createLocation with
  | absent | unparsable | noResource => simp [leftBehind, hloc]
  | resource id =>
      have hid : (leftBehind x rsp).id = some id := by
        unfold leftBehind
        rw [hloc]
        cases hdata : rsp.createRspData with
        | none => rfl
        | some data =>
            cases data with
            | none => rfl
            | some m =>
                change (if _ then _ else _ : MbsSession).id = _
                split <;> rfl
      rw [hid]
      constructor
      · rintro h _ ⟨⟩
        exact h.symm
      · exact fun h => (h id rfl).symm

theorem leftBehind_tunnel_iff : (leftBehind x rsp).session.mbUpfUdpTunnel = x.session.mbUpfUdpTunnel ↔
    ∀ id m addresses, rsp.createLocation = .resource id → rsp.createRspData = some (some m) →
      x.session.tunnelReq = true → m.ingressTunAddr = some addresses →
      x.session.mbUpfUdpTunnel = addresses := by
  unfold leftBehind
  split
  · rename_i id m hloc hdata
    split
    · rename_i hmissing
      refine ⟨fun _ id' m' addresses _ hdata' _ hsome => ?_, fun _ => rfl⟩
      rw [hdata, Option.some.injEq, Option.some.injEq] at hdata'
      rw [← hdata'] at hsome
      rw [hsome, Option.isNone_some, Bool.and_false] at hmissing
      cases hmissing
    · rename_i hthere
      have htunnels := parsedHead_tunnel id (Bool.eq_false_iff.2 hthere)
      cases hreq : x.session.tunnelReq with
      | false =>
          rw [hreq, if_neg Bool.false_ne_true] at htunnels
          exact ⟨fun _ _ _ _ _ _ h => absurd h Bool.false_ne_true, fun _ => htunnels⟩
      | true =>
          rw [hreq, if_pos rfl] at htunnels
          constructor
          · intro h id' m' addresses _ hdata' _ hsome
            rw [hdata, Option.some.injEq, Option.some.injEq] at hdata'
            rw [← hdata', htunnels, Option.some.injEq] at hsome
            exact h.symm.trans hsome
          · exact fun h => (h id m _ hloc hdata rfl htunnels).symm
  · rename_i id hloc hno
    exact ⟨fun _ _ m _ _ hdata => (hno m hdata).elim, fun _ => rfl⟩
  · rename_i hno
    exact ⟨fun _ id m _ hloc hdata => (hno id m hloc hdata).elim, fun _ => rfl⟩

/-- A create response is parsed atomically exactly when what is stored before an error return
was there already, and nothing is missing behind the last one. -/
theorem parsesAtomically_iff (w : World) (s : Ref) (rsp : Response) (x : MbsSession)
    (hx : w.sessionStore s = some x) (hnext : NextUnused w) :
    ParsesAtomically w s rsp x ↔ Intact w x rsp := by
  cases hunderstood : createUnderstood x rsp with
  | false =>
      obtain ⟨w', hrun, hstore, htmgis, hobjects⟩ := parse_refused hx hnext hunderstood
      obtain ⟨htmgi, hssm, hprevious⟩ := leftBehind_kept x rsp
      constructor
      · rintro ⟨v, y, understood, hv, hy, hleft, -⟩
        rw [hrun, Except.ok.injEq, Prod.mk.injEq] at hv
        obtain ⟨rfl, rfl⟩ := hv
        rw [hstore, Option.some.injEq] at hy
        subst hy
        have hbefore := hleft rfl
        refine ⟨fun id hloc _ => leftBehind_id_iff.1 hbefore.id id hloc,
          fun id m addresses hloc hdata _ => leftBehind_tunnel_iff.1 hbefore.tunnel id m addresses hloc
            hdata, fun m _ h => ?_⟩
        rw [hunderstood] at h
        cases h
      · intro h
        refine ⟨w', _, false, hrun, hstore, fun _ => ⟨?_, ?_, htmgi, hssm, hprevious, htmgis,
          hobjects⟩, fun h => by cases h⟩
        · exact leftBehind_id_iff.2 fun id hloc => h.id id hloc hunderstood
        · exact leftBehind_tunnel_iff.2 fun id m addresses hloc hdata =>
            h.tunnel id m addresses hloc hdata hunderstood
  | true =>
      obtain ⟨id, m, v, y, hloc, hdata, hrun, hy, hhead, -⟩ := parse_understood hx hunderstood
      have hanswerable : Intact w x rsp ↔ Answerable w x m := by
        constructor
        · exact fun h => h.answered m hdata hunderstood
        · intro h
          refine ⟨fun _ _ hfalse => ?_, fun _ _ _ _ _ hfalse => ?_, fun m' hdata' _ => ?_⟩
          · rw [hunderstood] at hfalse
            cases hfalse
          · rw [hunderstood] at hfalse
            cases hfalse
          · rw [hdata, Option.some.injEq, Option.some.injEq] at hdata'
            exact hdata' ▸ h
      rw [hanswerable, ← setFrom_iff hy hhead, ParsesAtomically, hrun]
      constructor
      · rintro ⟨w', y', understood, hparse, hy', -, hset⟩
        obtain ⟨u, hu, heq⟩ := bind_eq_ok.1 hparse
        rw [Except.ok.injEq, Prod.mk.injEq] at heq
        obtain ⟨rfl, rfl⟩ := heq
        obtain ⟨id', m', hloc', hdata', hset⟩ := hset rfl
        rw [hloc, LocationHeader.resource.injEq] at hloc'
        rw [hdata, Option.some.injEq, Option.some.injEq] at hdata'
        subst hloc' hdata'
        exact ⟨u, y', hu, hy', hset⟩
      · rintro ⟨w', y', hparse, hy', hset⟩
        exact ⟨w', y', true, bind_eq_ok.2 ⟨w', hparse, rfl⟩, hy', fun h => (by cases h),
          fun _ => ⟨id, m, hloc, hdata, hset⟩⟩

/-! ## A session that asks for a tunnel and a TMGI -/

def askingSession : MbsSession :=
  { session := { tunnelReq := true, tmgiReq := true } }

def askingWorld : World := { sessionStore := Store.empty.set 1 askingSession, next := 2 }

def fullResponse : Response :=
  { status := 201
    createLocation := .resource "7"
    createRspData := some (some
      { ingressTunAddr := some [{ family := .inet, address := "192.0.2.1", port := 2152 }]
        tmgi := some { mbsServiceId := some "000001", mcc := "001", mnc := "01", mccNumber := 1,
                       mncNumber := 1 }
        expirationTime := some (.seconds 1000) }) }

theorem parsesAtomically_full : ParsesAtomically askingWorld 1 fullResponse askingSession := by
  refine (parsesAtomically_iff askingWorld 1 fullResponse askingSession rfl
    ⟨rfl, List.not_mem_nil⟩).2 ⟨fun _ _ h => ?_, fun _ _ _ _ _ h => ?_, ?_⟩
  · cases h
  · cases h
  · rintro m hm -
    obtain rfl := Option.some.inj (Option.some.inj hm)
    refine ⟨⟨none, rfl, fun h => ?_⟩, fun _ _ h => ?_, fun _ _ _ h => ?_⟩
    · cases h
    · cases h
    · cases h

/-- The id of a response without a body stays behind. -/
theorem not_parsesAtomically_noBody :
    ¬ ParsesAtomically askingWorld 1 { status := 201, createLocation := .resource "7" }
      askingSession := by
  rintro ⟨w', y, understood, hrun, hy, hleft, -⟩
  have hparse : nmbsmfMbsSessionParse askingWorld 1
      { status := 201, createLocation := .resource "7" } =
      .ok (askingWorld.setSession 1 { askingSession with id := some "7" }, false) := rfl
  rw [hparse, Except.ok.injEq, Prod.mk.injEq] at hrun
  obtain ⟨rfl, rfl⟩ := hrun
  obtain rfl := Option.some.inj hy
  cases (hleft rfl).id

end ServiceConsumers.CreateResponses
