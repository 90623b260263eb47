import ServiceConsumers.TmgiContents

set_option autoImplicit false

/-!
# Matching the answer to an allocate request (`nmbsmf-tmgi-handle.c`)

The handler gives every TMGI of the answer to the first registered object that fits. It does
not look at the transaction that is answered.
-/

namespace ServiceConsumers.AllocationMatching

open ObjectStore ServiceAreas PublicSessions ConsumerState TmgiOperations ResponseHandlers
  ProcessEvent TransitionRuns TransactionLog TmgiContents

/-! ## Transactions and what they are answered with -/

/-- An allocate transaction with the two lists that it was sent for. -/
structure AllocateXact where
  xact : Xact
  newTmgis : List Ref
  refreshTmgis : List Ref
  requester : xact.requester = .tmgis (newTmgis ++ refreshTmgis)
  request : ∃ refresh, xact.request = .tmgiAllocate newTmgis.length refresh

namespace AllocateXact

def Includes (a : AllocateXact) (t : Ref) : Prop := t ∈ a.newTmgis ∨ t ∈ a.refreshTmgis

end AllocateXact

/-- The TMGIs that an answer lists. -/
def listedTmgis (rsp : Response) : List ApiTmgi :=
  match rsp.tmgiAllocated with
  | none => []
  | some answer => answer.tmgiList.filterMap id

/-- The TMGIs that the loop reaches. -/
def reachedTmgis (rsp : Response) : List ApiTmgi :=
  match rsp.tmgiAllocated with
  | none => []
  | some answer => (answer.tmgiList.takeWhile Option.isSome).filterMap id

def expiryOf (rsp : Response) : ℤ :=
  match rsp.tmgiAllocated with
  | none => 0
  | some answer => answer.expiryTime

def identity (api : ApiTmgi) : Option String × String × String :=
  (api.mbsServiceId, api.mcc, api.mnc)

def identityOf (x : PrivTmgi) : Option String × String × String :=
  (x.tmgi.mbsServiceId, plmnIdMccString x.tmgi.plmn, plmnIdMncString x.tmgi.plmn)

/-- An object carries a TMGI of a message. -/
def CarriedBy (w : World) (api : ApiTmgi) (t : Ref) : Prop :=
  ∃ x, w.tmgiStore t = some x ∧ identityOf x = identity api

/-- What the handler makes of an object that it gives a TMGI to. -/
def granted (api : ApiTmgi) (expiryTime : ℤ) (x : PrivTmgi) : PrivTmgi :=
  tmgiSetExpiryTime expiryTime
    (tmgiSetPlmn api.mccNumber api.mncNumber (tmgiSetMbsServiceId api.mbsServiceId x))

/-- The loop over the answer, with the object that each TMGI is given to. -/
inductive Updates (n : ℕ) (expiryTime : ℤ) :
    World → List ApiTmgi → List (Option Ref) → World → Prop where
  | nil (w : World) : Updates n expiryTime w [] [] w
  | cons {w v w' : World} {api : ApiTmgi} {apis : List ApiTmgi} {ts : List (Option Ref)}
      (head : takeAllocated n expiryTime w api = .ok v)
      (tail : Updates n expiryTime v apis ts w') :
      Updates n expiryTime w (api :: apis) (tmgiFindMatchingOpenapiType w api :: ts) w'

/-! ## The law -/

/-- An answer that is handled with the objects `ts`, one for each TMGI it lists. -/
structure Matched (a : AllocateXact) (rsp : Response) (w w' : World) (ts : List Ref) : Prop where
  handled : nmbsmfTmgiAllocated w a.xact rsp = .ok w'
  updates : Updates a.xact.id (expiryOf rsp) w (reachedTmgis rsp) (ts.map some) w'
  included : ∀ t ∈ ts, a.Includes t
  distinct : ts.Nodup
  carried : List.Forall₂ (CarriedBy w') (listedTmgis rsp) ts
  refreshed : List.Forall₂ (fun api t => (∃ r ∈ a.refreshTmgis, CarriedBy w api r) →
    t ∈ a.refreshTmgis ∧ CarriedBy w api t) (listedTmgis rsp) ts
  registry : w'.tmgis = w.tmgis
  others : ∀ t, ¬ a.Includes t → w'.tmgiStore t = w.tmgiStore t
  callbacks : ∃ new, w'.log = new ++ w.log ∧
    ∀ o ∈ new, ∃ t cb, a.Includes t ∧ o = .tmgiCallback a.xact.id t cb .ogsOk none

def AllocationMatched (a : AllocateXact) (rsp : Response) (w : World) : Prop :=
  ∃ w' ts, Matched a rsp w w' ts

/-! ## The condition -/

def fits (w : World) (api : ApiTmgi) (t : Ref) : Bool := (w.tmgiStore t).any (tmgiMatches api)

/-- The object is of the transaction, it is refreshed if the TMGI is one that is refreshed,
and its PLMN reads as the one of the TMGI once it is set. -/
structure Intended (a : AllocateXact) (w : World) (api : ApiTmgi) (t : Ref) : Prop where
  included : a.Includes t
  refreshed : (∃ r ∈ a.refreshTmgis, CarriedBy w api r) → t ∈ a.refreshTmgis ∧ CarriedBy w api t
  plmn : ∀ x, w.tmgiStore t = some x →
    plmnIdMccString (tmgiSetPlmn api.mccNumber api.mncNumber x).tmgi.plmn = api.mcc ∧
      plmnIdMncString (tmgiSetPlmn api.mccNumber api.mncNumber x).tmgi.plmn = api.mnc

/-- The first registered object that fits each TMGI, leaving out those that are taken, is an
intended one. -/
def InTurn (a : AllocateXact) (w : World) : List Ref → List ApiTmgi → Prop
  | _, [] => True
  | taken, api :: apis =>
      ∃ t, (w.tmgis.filter (· ∉ taken)).find? (fits w api) = some t ∧ Intended a w api t ∧
        InTurn a w (t :: taken) apis

structure ServedInTurn (a : AllocateXact) (rsp : Response) (w : World) : Prop where
  reached : reachedTmgis rsp = listedTmgis rsp
  distinct : ((listedTmgis rsp).map identity).Nodup
  inTurn : InTurn a w [] (listedTmgis rsp)

/-! ## One TMGI of the answer -/

variable {a : AllocateXact} {rsp : Response} {w w' v v' : World} {n : ℕ} {e : ℤ}
  {api : ApiTmgi} {apis : List ApiTmgi} {t : Ref}

theorem tmgiFind_eq : tmgiFindMatchingOpenapiType w api = w.tmgis.find? (fits w api) := rfl

theorem takeAllocated_of_none (h : tmgiFindMatchingOpenapiType w api = none) :
    takeAllocated n e w api = .ok w := by
  rw [takeAllocated, h]

theorem tmgiSetPlmn_plmn (mcc mnc : ℕ) (x : PrivTmgi) : (tmgiSetPlmn mcc mnc x).tmgi.plmn =
    if x.tmgi.plmn.mcc ≠ mcc ∨ x.tmgi.plmn.mnc ≠ mnc then
      plmnIdBuild mcc mnc (if mnc < 100 then 2 else 3)
    else x.tmgi.plmn := by
  unfold tmgiSetPlmn
  split <;> rfl

theorem tmgiSetPlmn_mbsServiceId (mcc mnc : ℕ) (x : PrivTmgi) :
    (tmgiSetPlmn mcc mnc x).tmgi.mbsServiceId = x.tmgi.mbsServiceId := by
  unfold tmgiSetPlmn
  split <;> rfl

theorem identityOf_granted {x : PrivTmgi} : identityOf (granted api e x) = identity api ↔
    plmnIdMccString (tmgiSetPlmn api.mccNumber api.mncNumber x).tmgi.plmn = api.mcc ∧
      plmnIdMncString (tmgiSetPlmn api.mccNumber api.mncNumber x).tmgi.plmn = api.mnc := by
  have hplmn : (granted api e x).tmgi.plmn =
      (tmgiSetPlmn api.mccNumber api.mncNumber x).tmgi.plmn := by
    change (tmgiSetPlmn _ _ (tmgiSetMbsServiceId _ x)).tmgi.plmn = _
    rw [tmgiSetPlmn_plmn, tmgiSetPlmn_plmn]
    rfl
  have hid : (granted api e x).tmgi.mbsServiceId = api.mbsServiceId := by
    change (tmgiSetPlmn _ _ (tmgiSetMbsServiceId _ x)).tmgi.mbsServiceId = _
    rw [tmgiSetPlmn_mbsServiceId]
    rfl
  rw [identityOf, identity, hplmn, hid]
  simp

/-- The object that fits takes the TMGI, and its callback is called. -/
theorem takeAllocated_of_some (h : tmgiFindMatchingOpenapiType w api = some t) :
    ∃ x v, w.tmgiStore t = some x ∧ tmgiMatches api x = true ∧
      takeAllocated n e w api = .ok v ∧ v.tmgis = w.tmgis ∧
      v.tmgiStore = w.tmgiStore.modify t (granted api e) ∧
      v.log = (x.callback.map fun cb => .tmgiCallback n t cb .ogsOk none).toList ++ w.log := by
  have hfits := List.find?_some h
  obtain ⟨x, hx, hmatch⟩ := (Option.any_eq_true _ _).1 hfits
  have hstore : ((w.tmgiStore.modify t (tmgiSetMbsServiceId api.mbsServiceId)).modify t
      (tmgiSetPlmn api.mccNumber api.mncNumber)).modify t (tmgiSetExpiryTime e) =
        w.tmgiStore.modify t (granted api e) := by
    funext q
    by_cases hq : q = t
    · subst hq
      simp [hx, granted]
    · simp only [Store.modify_of_ne _ _ _ hq]
  have hlive : (w.tmgiStore.modify t (granted api e)) t = some (granted api e x) := by
    rw [Store.modify_self, hx, Option.map_some]
  have hcallback : (granted api e x).callback = x.callback := rfl
  refine ⟨x, ?_⟩
  cases hcb : x.callback with
  | none =>
      refine ⟨{ w with tmgiStore := w.tmgiStore.modify t (granted api e) }, hx, hmatch, ?_, rfl,
        rfl, rfl⟩
      simp only [takeAllocated, h, World.modifyTmgi, hstore, tmgiDoCallback, bind_eq_ok,
        World.tmgiAt_eq_ok]
      exact ⟨_, hlive, by rw [hcallback, hcb]⟩
  | some cb =>
      refine ⟨({ w with tmgiStore := w.tmgiStore.modify t (granted api e) } : World).say
        (.tmgiCallback n t cb .ogsOk none), hx, hmatch, ?_, rfl, rfl, rfl⟩
      simp only [takeAllocated, h, World.modifyTmgi, hstore, tmgiDoCallback, bind_eq_ok,
        World.tmgiAt_eq_ok]
      exact ⟨_, hlive, by rw [hcallback, hcb]⟩

/-! ## The loop -/

variable {ts : List Ref}

theorem Updates.foldlM {os : List (Option Ref)} (h : Updates n e w apis os w') :
    apis.foldlM (takeAllocated n e) w = .ok w' := by
  induction h with
  | nil w => rfl
  | cons head tail ih =>
      rw [List.foldlM_cons, bind_eq_ok]
      exact ⟨_, head, ih⟩

/-- A TMGI that is given to an object, by one step of the loop. -/
structure Gives (n : ℕ) (e : ℤ) (w v : World) (api : ApiTmgi) (t : Ref) : Prop where
  found : tmgiFindMatchingOpenapiType w api = some t
  store : v.tmgiStore = w.tmgiStore.modify t (granted api e)
  registry : v.tmgis = w.tmgis
  said : ∃ new, v.log = new ++ w.log ∧ ∀ o ∈ new, ∃ cb, o = .tmgiCallback n t cb .ogsOk none

theorem gives_of_takeAllocated (hfind : tmgiFindMatchingOpenapiType w api = some t)
    (h : takeAllocated n e w api = .ok v) : Gives n e w v api t := by
  obtain ⟨x, v', hx, -, hv, hregistry, hstore, hlog⟩ := takeAllocated_of_some (n := n) (e := e) hfind
  obtain rfl : v = v' := Except.ok.inj (h.symm.trans hv)
  refine ⟨hfind, hstore, hregistry, _, hlog, fun o ho => ?_⟩
  obtain ⟨cb, -, hcb⟩ := Option.map_eq_some_iff.1 (Option.mem_toList.1 ho)
  exact ⟨cb, hcb.symm⟩

/-- What the loop leaves alone. -/
theorem Updates.frame (h : Updates n e w apis (ts.map some) w') :
    w'.tmgis = w.tmgis ∧ (∀ t ∉ ts, w'.tmgiStore t = w.tmgiStore t) ∧
      ∃ new, w'.log = new ++ w.log ∧ ∀ o ∈ new, ∃ t ∈ ts, ∃ cb,
        o = .tmgiCallback n t cb .ogsOk none := by
  induction apis generalizing w ts with
  | nil =>
      cases ts with
      | nil =>
          cases h
          exact ⟨rfl, fun _ _ => rfl, [], rfl, fun o ho => absurd ho List.not_mem_nil⟩
      | cons t ts => cases h
  | cons api apis ih =>
      cases ts with
      | nil => cases h
      | cons t ts =>
          rw [List.map_cons] at h
          generalize hhead : some t = o at h
          cases h with
          | cons head tail =>
          obtain ⟨-, hstore, hregistry, new, hlog, hsaid⟩ := gives_of_takeAllocated hhead.symm head
          obtain ⟨hregistry', hothers, new', hlog', hsaid'⟩ := ih tail
          refine ⟨hregistry'.trans hregistry, ?_, new' ++ new, by rw [hlog', hlog,
            List.append_assoc], ?_⟩
          · intro q hq
            rw [List.mem_cons, not_or] at hq
            rw [hothers q hq.2, hstore, Store.modify_of_ne _ _ _ hq.1]
          · intro o ho
            rcases List.mem_append.1 ho with ho | ho
            · obtain ⟨q, hq, hcb⟩ := hsaid' o ho
              exact ⟨q, List.mem_cons_of_mem t hq, hcb⟩
            · exact ⟨t, List.mem_cons_self, hsaid o ho⟩

/-! ## Objects that are given away -/

theorem not_tmgiMatches_of_identity {x : PrivTmgi} (hallocated : x.allocated = true)
    (h : identityOf x ≠ identity api) : tmgiMatches api x = false := by
  rw [Bool.eq_false_iff]
  intro hmatch
  apply h
  simp only [tmgiMatches, hallocated, Bool.and_eq_true, Bool.not_true, Bool.false_or,
    beq_iff_eq] at hmatch
  obtain ⟨hid, hmcc, hmnc⟩ := hmatch
  rw [identityOf, identity, hmcc, hmnc]
  cases hapi : api.mbsServiceId <;> cases hx : x.tmgi.mbsServiceId <;>
    simp_all

theorem tmgiMatches_of_identity {x : PrivTmgi} (h : identityOf x = identity api) :
    tmgiMatches api x = true := by
  simp only [identityOf, identity, Prod.mk.injEq] at h
  obtain ⟨hid, hmcc, hmnc⟩ := h
  rw [tmgiMatches, hid, hmcc, hmnc]
  cases api.mbsServiceId <;> simp

/-- Fitting depends on the identity of the TMGI only. -/
theorem fits_congr {api' : ApiTmgi} (h : identity api' = identity api) (t : Ref) :
    fits w api' t = fits w api t := by
  simp only [identity, Prod.mk.injEq] at h
  unfold fits tmgiMatches
  rw [h.1, h.2.1, h.2.2]

/-- The state after some TMGIs were given to objects: each object carries the TMGI that it
was given, and was the first that fitted. -/
structure Given (w v : World) (done : List (ApiTmgi × Ref)) : Prop where
  registry : v.tmgis = w.tmgis
  others : ∀ t, t ∉ done.map Prod.snd → v.tmgiStore t = w.tmgiStore t
  carried : ∀ p ∈ done, ∃ x, v.tmgiStore p.2 = some x ∧ x.allocated = true ∧
    identityOf x = identity p.1
  first : ∀ p ∈ done, ∃ before after, w.tmgis = before ++ p.2 :: after ∧
    ∀ t ∈ before, t ∉ done.map Prod.snd → fits w p.1 t = false

namespace Given

variable {done : List (ApiTmgi × Ref)}

theorem fits_of_not_mem (h : Given w v done) (ht : t ∉ done.map Prod.snd) :
    fits v api t = fits w api t := by
  rw [fits, fits, h.others t ht]

/-- A TMGI that is not listed again finds its object among those that are left. -/
theorem find_eq (h : Given w v done) (hnew : identity api ∉ done.map fun p => identity p.1) :
    tmgiFindMatchingOpenapiType v api =
      (w.tmgis.filter (· ∉ done.map Prod.snd)).find? (fits w api) := by
  rw [tmgiFind_eq, h.registry, List.find?_filter]
  congr 1
  funext t
  by_cases ht : t ∈ done.map Prod.snd
  · obtain ⟨p, hp, rfl⟩ := List.mem_map.1 ht
    obtain ⟨x, hx, hallocated, hidentity⟩ := h.carried p hp
    have hne : identityOf x ≠ identity api := by
      intro heq
      exact hnew (List.mem_map.2 ⟨p, hp, hidentity.symm.trans heq⟩)
    have hfits : fits v api p.2 = false := by
      rw [fits, hx, Option.any_some, not_tmgiMatches_of_identity hallocated hne]
    simp [hfits, ht]
  · simp [h.fits_of_not_mem ht, ht]

/-- A TMGI that is listed twice finds an object that was taken. -/
theorem taken_of_repeated (h : Given w v done) (hmem : identity api ∈ done.map fun p => identity p.1)
    (hfind : tmgiFindMatchingOpenapiType v api = some t) : t ∈ done.map Prod.snd := by
  by_contra ht
  obtain ⟨p, hp, hidentity⟩ := List.mem_map.1 hmem
  obtain ⟨before, after, hsplit, hfirst⟩ := h.first p hp
  obtain ⟨x, hx, -, hcarried⟩ := h.carried p hp
  have hagain : fits v api p.2 = true := by
    rw [fits, hx, Option.any_some, tmgiMatches_of_identity (hcarried.trans hidentity)]
  have hfits : fits w p.1 t = true := by
    rw [fits_congr hidentity, ← h.fits_of_not_mem ht]
    exact List.find?_some hfind
  -- The object that was given this TMGI before stops the search.
  rw [tmgiFind_eq, h.registry, hsplit, List.find?_append] at hfind
  cases hbefore : before.find? (fits v api) with
  | none =>
      rw [hbefore, Option.none_or, List.find?_cons, hagain] at hfind
      obtain rfl := Option.some.inj hfind
      exact ht (List.mem_map_of_mem hp)
  | some q =>
      rw [hbefore, Option.some_or] at hfind
      obtain rfl := Option.some.inj hfind
      have hnone := hfirst q (List.mem_of_find?_eq_some hbefore) ht
      rw [hfits] at hnone
      cases hnone

theorem cons (h : Given w v done) (hgives : Gives n e v v' api t) (ht : t ∉ done.map Prod.snd)
    (hcarried : ∃ x, v'.tmgiStore t = some x ∧ x.allocated = true ∧ identityOf x = identity api) :
    Given w v' ((api, t) :: done) := by
  refine ⟨hgives.registry.trans h.registry, ?_, ?_, ?_⟩
  · intro q hq
    rw [List.map_cons, List.mem_cons, not_or] at hq
    rw [hgives.store, Store.modify_of_ne _ _ _ hq.1, h.others q hq.2]
  · intro p hp
    rcases List.mem_cons.1 hp with rfl | hp
    · exact hcarried
    · obtain ⟨x, hx, hrest⟩ := h.carried p hp
      refine ⟨x, ?_, hrest⟩
      have hne : p.2 ≠ t := fun heq => ht (heq ▸ List.mem_map_of_mem hp)
      rw [hgives.store, Store.modify_of_ne _ _ _ hne, hx]
  · intro p hp
    rcases List.mem_cons.1 hp with rfl | hp
    · obtain ⟨-, before, after, hsplit, hbefore⟩ := List.find?_eq_some_iff_append.1
        (tmgiFind_eq.symm.trans hgives.found)
      refine ⟨before, after, h.registry ▸ hsplit, fun q hq hfree => ?_⟩
      rw [List.map_cons, List.mem_cons, not_or] at hfree
      rw [← h.fits_of_not_mem hfree.2]
      simpa using hbefore q hq
    · obtain ⟨before, after, hsplit, hfirst⟩ := h.first p hp
      refine ⟨before, after, hsplit, fun q hq hfree => ?_⟩
      rw [List.map_cons, List.mem_cons, not_or] at hfree
      exact hfirst q hq hfree.2

end Given

theorem Given.initial : Given w w [] :=
  ⟨rfl, fun _ _ => rfl, fun _ hp => absurd hp List.not_mem_nil, fun _ hp =>
    absurd hp List.not_mem_nil⟩

/-! ## The condition and the law -/

variable {done : List (ApiTmgi × Ref)}

/-- The object that a step of the loop gives a TMGI to, before and after. -/
theorem Gives.object (h : Gives n e v v' api t) : ∃ x, v.tmgiStore t = some x ∧
    v'.tmgiStore t = some (granted api e x) := by
  obtain ⟨x, -, hx, -⟩ := takeAllocated_of_some (n := n) (e := e) h.found
  refine ⟨x, hx, ?_⟩
  rw [h.store, Store.modify_self, hx, Option.map_some]

theorem updates_of_inTurn (hgiven : Given w v done) (hnodup : (apis.map identity).Nodup)
    (hnew : ∀ api ∈ apis, identity api ∉ done.map fun p => identity p.1)
    (hturn : InTurn a w (done.map Prod.snd) apis) :
    ∃ ts w', Updates n e v apis (ts.map some) w' ∧ ts.Nodup ∧
      (∀ t ∈ ts, t ∉ done.map Prod.snd) ∧ List.Forall₂ (Intended a w) apis ts ∧
      List.Forall₂ (CarriedBy w') apis ts := by
  induction apis generalizing v done with
  | nil => exact ⟨[], v, .nil v, List.nodup_nil, fun _ h => absurd h List.not_mem_nil, .nil, .nil⟩
  | cons api apis ih =>
      obtain ⟨t, hfree, hintended, hrest⟩ := hturn
      rw [List.map_cons, List.nodup_cons] at hnodup
      have hfind : tmgiFindMatchingOpenapiType v api = some t :=
        (hgiven.find_eq (hnew api List.mem_cons_self)).trans hfree
      have ht : t ∉ done.map Prod.snd := by
        have hmem := List.mem_of_find?_eq_some hfree
        rw [List.mem_filter, decide_eq_true_iff] at hmem
        exact hmem.2
      obtain ⟨x, v', hx, -, hhead, -⟩ := takeAllocated_of_some (n := n) (e := e) hfind
      have hgives := gives_of_takeAllocated hfind hhead
      obtain ⟨y, hy, hy'⟩ := hgives.object
      have hidentity : identityOf (granted api e y) = identity api :=
        identityOf_granted.2 (hintended.plmn y ((hgiven.others t ht).symm.trans hy))
      have hgiven' := hgiven.cons hgives ht ⟨_, hy', rfl, hidentity⟩
      have hnew' : ∀ api' ∈ apis, identity api' ∉ ((api, t) :: done).map fun p => identity p.1 := by
        intro api' hmem
        rw [List.map_cons, List.mem_cons, not_or]
        refine ⟨fun heq => hnodup.1 (List.mem_map.2 ⟨api', hmem, heq⟩), ?_⟩
        exact hnew api' (List.mem_cons_of_mem api hmem)
      obtain ⟨ts, w', htail, hdistinct, hfresh, hall, hcarried⟩ := ih hgiven' hnodup.2 hnew' hrest
      have hmem : t ∉ ts := fun hmem => hfresh t hmem (by simp)
      refine ⟨t :: ts, w', ?_, List.nodup_cons.2 ⟨hmem, hdistinct⟩, ?_, .cons hintended hall,
        .cons ⟨_, ?_, hidentity⟩ hcarried⟩
      · rw [List.map_cons, ← hfind]
        exact .cons hhead htail
      · intro q hq
        rcases List.mem_cons.1 hq with rfl | hq
        · exact ht
        · exact fun hq' => hfresh q hq (by rw [List.map_cons]; exact List.mem_cons_of_mem _ hq')
      · rw [htail.frame.2.1 t hmem, hy']

theorem inTurn_of_updates (hgiven : Given w v done)
    (hupdates : Updates n e v apis (ts.map some) w') (hnodup : ts.Nodup)
    (hfresh : ∀ t ∈ ts, t ∉ done.map Prod.snd) (hincluded : ∀ t ∈ ts, a.Includes t)
    (hcarried : List.Forall₂ (CarriedBy w') apis ts)
    (hrefreshed : List.Forall₂ (fun api t => (∃ r ∈ a.refreshTmgis, CarriedBy w api r) →
      t ∈ a.refreshTmgis ∧ CarriedBy w api t) apis ts) :
    (apis.map identity).Nodup ∧
      (∀ api ∈ apis, identity api ∉ done.map fun p => identity p.1) ∧
      InTurn a w (done.map Prod.snd) apis := by
  induction hcarried generalizing v done with
  | nil => exact ⟨List.nodup_nil, fun _ h => absurd h List.not_mem_nil, trivial⟩
  | @cons api t apis ts hhead htail ih =>
      obtain ⟨hrefresh, hrefreshed⟩ := List.forall₂_cons.1 hrefreshed
      rw [List.nodup_cons] at hnodup
      rw [List.map_cons] at hupdates
      generalize hfind : some t = o at hupdates
      cases hupdates with
      | cons hstep hupdates =>
      have ht := hfresh t List.mem_cons_self
      have hnew : identity api ∉ done.map fun p => identity p.1 :=
        fun hmem => ht (hgiven.taken_of_repeated hmem hfind.symm)
      have hgives := gives_of_takeAllocated hfind.symm hstep
      obtain ⟨x, hx, hx'⟩ := hgives.object
      obtain ⟨y, hy, hidentity⟩ := hhead
      rw [hupdates.frame.2.1 t hnodup.1, hx'] at hy
      obtain rfl := Option.some.inj hy
      have hgiven' := hgiven.cons hgives ht ⟨_, hx', rfl, hidentity⟩
      have hfresh' : ∀ q ∈ ts, q ∉ ((api, t) :: done).map Prod.snd := by
        intro q hq
        rw [List.map_cons, List.mem_cons, not_or]
        refine ⟨?_, hfresh q (List.mem_cons_of_mem t hq)⟩
        rintro rfl
        exact hnodup.1 hq
      obtain ⟨hdistinct, hnew', hturn⟩ := ih hgiven' hupdates hnodup.2 hfresh'
        (fun q hq => hincluded q (List.mem_cons_of_mem t hq)) hrefreshed
      refine ⟨?_, ?_, t, ?_, ⟨hincluded t List.mem_cons_self, hrefresh, ?_⟩, hturn⟩
      · rw [List.map_cons, List.nodup_cons]
        refine ⟨fun hmem => ?_, hdistinct⟩
        obtain ⟨api', hmem', heq⟩ := List.mem_map.1 hmem
        exact hnew' api' hmem' (by rw [heq]; exact List.mem_cons_self)
      · intro api' hmem
        rcases List.mem_cons.1 hmem with rfl | hmem
        · exact hnew
        · exact fun hold => hnew' api' hmem (List.mem_cons_of_mem _ hold)
      · rw [← hgiven.find_eq hnew]
        exact hfind.symm
      · intro z hz
        rw [← hgiven.others t ht, hx] at hz
        obtain rfl := Option.some.inj hz
        exact identityOf_granted.1 hidentity

/-- The handler of an answer without an error is the loop. -/
theorem nmbsmfTmgiAllocated_of_success {x : Xact} (hok : isSuccess rsp.resStatus = true) :
    nmbsmfTmgiAllocated w x rsp =
      (reachedTmgis rsp).foldlM (takeAllocated x.id (expiryOf rsp)) w := by
  rw [nmbsmfTmgiAllocated, if_pos hok, reachedTmgis, expiryOf]
  cases rsp.tmgiAllocated <;> rfl

/-- The loop reaches a prefix of what is listed. -/
theorem reachedTmgis_isInitial (rsp : Response) : reachedTmgis rsp <+: listedTmgis rsp := by
  unfold reachedTmgis listedTmgis
  cases rsp.tmgiAllocated with
  | none => exact List.prefix_rfl
  | some answer => exact (List.takeWhile_prefix _).filterMap id

theorem Updates.length_eq {os : List (Option Ref)} (h : Updates n e w apis os w') :
    os.length = apis.length := by
  induction h with
  | nil w => rfl
  | cons head tail ih => rw [List.length_cons, List.length_cons, ih]

/-- Exactly when does an accepted allocation reach the objects of its own transaction. -/
theorem allocation_matched_iff (hok : isSuccess rsp.resStatus = true) :
    AllocationMatched a rsp w ↔ ServedInTurn a rsp w := by
  constructor
  · rintro ⟨w', ts, h⟩
    have hlength : (reachedTmgis rsp).length = (listedTmgis rsp).length := by
      rw [← h.updates.length_eq, List.length_map, h.carried.length_eq]
    have hreached : reachedTmgis rsp = listedTmgis rsp :=
      (reachedTmgis_isInitial rsp).eq_of_length hlength
    have hupdates := h.updates
    rw [hreached] at hupdates
    obtain ⟨hnodup, -, hturn⟩ := inTurn_of_updates Given.initial hupdates h.distinct
      (fun _ _ => List.not_mem_nil) h.included h.carried h.refreshed
    exact ⟨hreached, hnodup, hturn⟩
  · rintro ⟨hreached, hnodup, hturn⟩
    obtain ⟨ts, w', hupdates, hdistinct, -, hintended, hcarried⟩ :=
      updates_of_inTurn (n := a.xact.id) (e := expiryOf rsp) Given.initial hnodup
        (fun _ _ => List.not_mem_nil) hturn
    obtain ⟨hregistry, hothers, new, hlog, hsaid⟩ := hupdates.frame
    have hflip : List.Forall₂ (fun t api => a.Includes t ∧ Intended a w api t) ts
        (listedTmgis rsp) := (hintended.imp fun _ _ h => ⟨h.included, h⟩).flip
    have hincluded : ∀ t ∈ ts, a.Includes t := ((List.forall₂_and_left ts _).1 hflip).1
    refine ⟨w', ts, ?_, by rw [hreached]; exact hupdates, hincluded, hdistinct, hcarried,
      hintended.imp fun _ _ h => h.refreshed, hregistry, ?_, new, hlog, ?_⟩
    · rw [nmbsmfTmgiAllocated_of_success hok, hreached]
      exact hupdates.foldlM
    · exact fun t ht => hothers t fun hmem => ht (hincluded t hmem)
    · intro o ho
      obtain ⟨t, ht, cb, hcb⟩ := hsaid o ho
      exact ⟨t, cb, hincluded t ht, hcb⟩

/-! ## The transactions that are sent -/

theorem allocateXact_of_add {news refresh : List Ref} {sbi : Option Ref}
    (h : w.sbiXactAdd sbi (.tmgis (news ++ refresh)) (nmbsmfTmgiBuildCreate w news refresh) =
      .ok w') :
    ∃ a : AllocateXact, a.xact ∈ w'.xacts ∧ a.newTmgis = news ∧ a.refreshTmgis = refresh := by
  obtain ⟨o, r, -, hr, rfl⟩ := sbiXactAdd_eq_ok.1 h
  simp only [nmbsmfTmgiBuildCreate, bind_eq_ok, Except.ok.injEq] at hr
  obtain ⟨contents, -, rfl⟩ := hr
  exact ⟨⟨_, news, refresh, rfl, contents, rfl⟩, List.mem_append_right _ List.mem_cons_self, rfl, rfl⟩

theorem allocateXact_of_send {news refresh : Option (List Ref)}
    (h : tmgiListSendAllocate w news refresh = .ok w') :
    news = none ∧ refresh = none ∨ ∃ a : AllocateXact, a.xact ∈ w'.xacts ∧
      a.newTmgis = news.getD [] ∧ a.refreshTmgis = refresh.getD [] := by
  cases news with
  | none =>
      cases refresh with
      | none => exact .inl ⟨rfl, rfl⟩
      | some refresh =>
          cases refresh with
          | nil => cases h
          | cons t refresh =>
              simp only [tmgiListSendAllocate, bind_eq_ok] at h
              obtain ⟨x, -, h⟩ := h
              have hadd : w.sbiXactAdd x.sbiObject (.tmgis ([] ++ t :: refresh))
                  (nmbsmfTmgiBuildCreate w [] (t :: refresh)) = .ok w' := h
              exact .inr (allocateXact_of_add hadd)
  | some news =>
      simp only [tmgiListSendAllocate, bind_eq_ok] at h
      obtain ⟨v, -, h⟩ := h
      split at h
      · cases h
      · exact .inr (allocateXact_of_add h)

/-! ## Two answers -/

/-- One TMGI is granted. -/
def oneTmgi : Response :=
  { status := 201, resStatus := 201, tmgiAllocated :=
      some { tmgiList := [some ⟨some "000001", "001", "01", 1, 1⟩], expiryTime := 0 } }

/-- A TMGI that is kept for later, and one that is requested at once. -/
def competingState : World :=
  [Event.tmgi .new, .tmgi (.create (some ⟨1, 1⟩))].foldl (advance step) World.initial

def competingXact : AllocateXact where
  xact := ⟨4, 3, .tmgis [2], .tmgiAllocate 1 []⟩
  newTmgis := [2]
  refreshTmgis := []
  requester := rfl
  request := ⟨[], rfl⟩

/-- The TMGI that was never requested takes the answer. -/
theorem unsent_tmgi_takes_the_answer : competingState.xacts = [competingXact.xact] ∧
    isSuccess oneTmgi.resStatus = true ∧
    ¬ AllocationMatched competingXact oneTmgi competingState := by
  refine ⟨rfl, rfl, ?_⟩
  rintro ⟨w', ts, h⟩
  have hreached : reachedTmgis oneTmgi = [⟨some "000001", "001", "01", 1, 1⟩] := rfl
  have hfind : tmgiFindMatchingOpenapiType competingState ⟨some "000001", "001", "01", 1, 1⟩ =
      some 1 := by decide +kernel
  have hupdates := h.updates
  rw [hreached] at hupdates
  generalize hos : ts.map some = os at hupdates
  cases hupdates with
  | cons head rest =>
    rw [hfind] at hos
    cases ts with
    | nil => cases hos
    | cons t ts =>
        obtain ⟨ht, -⟩ := List.cons.inj hos
        obtain rfl := Option.some.inj ht
        rcases h.included 1 List.mem_cons_self with hmem | hmem
        · exact absurd hmem (by decide)
        · exact absurd hmem (by decide)

/-- A TMGI that is requested at once, without others. -/
def requestedState : World :=
  [Event.tmgi (.create (some ⟨1, 1⟩))].foldl (advance step) World.initial

def requestedXact : AllocateXact where
  xact := ⟨3, 2, .tmgis [1], .tmgiAllocate 1 []⟩
  newTmgis := [1]
  refreshTmgis := []
  requester := rfl
  request := ⟨[], rfl⟩

theorem requested_tmgi_takes_the_answer :
    requestedState.xacts = [requestedXact.xact] ∧
      AllocationMatched requestedXact oneTmgi requestedState := by
  refine ⟨rfl, (allocation_matched_iff rfl).2 ⟨rfl, by decide, 1, by decide +kernel, ?_, trivial⟩⟩
  refine ⟨.inl (by decide), fun ⟨r, hr, _⟩ => absurd hr List.not_mem_nil, fun x hx => ?_⟩
  have hlive : requestedState.tmgiStore 1 = some { callback := some ⟨1, 1⟩, sbiObject := some 2 } :=
    by decide +kernel
  obtain rfl := Option.some.inj (hlive.symm.trans hx)
  decide +kernel

end ServiceConsumers.AllocationMatching
