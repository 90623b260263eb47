import Mathlib.Data.List.Find
import ServiceConsumers.AllocationMatching
import ServiceConsumers.FirstFits
import ServiceConsumers.SbiObjectCounts
import ServiceConsumers.TmgiCallbacks

set_option autoImplicit false

/-!
# TMGIs that were granted (`tmgi.c`, `nmbsmf-tmgi-handle.c`)

A TMGI that the MB-SMF granted is the library's to give back. What was granted and not
released can be read off the log, and must be accounted for by the registry or by a
deallocation on its way.
-/

namespace ServiceConsumers.GrantedTmgis

open ObjectStore ServiceAreas PublicSessions ConsumerState TmgiOperations ResponseHandlers
  ProcessEvent TransitionRuns TransactionLog TmgiEffects EventEffects StepDecomposition
  RunInvariants SbiReferences SbiBalance SessionReferences SbiObjectCounts TmgiSteps SessionTmgis
  TmgiRegistry TmgiCallbacks AllocationMatching FirstFits

/-! ## Grants -/

abbrev Identity := Option String × String × String

def contentIdentity (c : Tmgi) : Identity :=
  (c.mbsServiceId, plmnIdMccString c.plmn, plmnIdMncString c.plmn)

/-- The TMGIs that a request gives back. -/
def returnedTmgis : Request → List Identity
  | .tmgiDeallocate contents => contents.map contentIdentity
  | _ => []

def isAllocate : Request → Bool
  | .tmgiAllocate .. => true
  | _ => false

def grantsOf : Observation → List Identity
  | .answered x rsp =>
      if isAllocate x.request && isSuccess rsp.status then (listedTmgis rsp).map identity else []
  | _ => []

def releasesOf : Observation → List Identity
  | .answered x rsp => if isSuccess rsp.status then returnedTmgis x.request else []
  | _ => []

/-- The TMGI was granted, and not released since. -/
def Granted (g : Identity) : List Observation → Prop
  | [] => False
  | o :: log => g ∈ grantsOf o ∨ g ∉ releasesOf o ∧ Granted g log

instance decidableGranted (g : Identity) : (log : List Observation) → Decidable (Granted g log)
  | [] => inferInstanceAs (Decidable False)
  | o :: log =>
      have : Decidable (Granted g log) := decidableGranted g log
      inferInstanceAs (Decidable (g ∈ grantsOf o ∨ g ∉ releasesOf o ∧ Granted g log))

/-- An object that was never allocated has no identity. -/
def identityAt (w : World) (t : Ref) : Option Identity :=
  (w.tmgiStore t).bind fun x => if x.allocated then some (identityOf x) else none

def registered (w : World) : List (Option Identity) := w.tmgis.map (identityAt w)

def Accounted (carried : List (Option Identity)) (inFlight : List Xact) (g : Identity) : Prop :=
  some g ∈ carried ∨ ∃ x ∈ inFlight, g ∈ returnedTmgis x.request

/-- Every TMGI that was granted and not released is the identity of a registered object, or a
deallocation in flight names it. -/
def NoGrantLeaked (w : World) : Prop :=
  ∀ g, Granted g w.log → Accounted (registered w) w.xacts g

/-! ## The condition -/

/-- Creation, allocation, refresh, deallocation and release of TMGIs, and the network. -/
def ManagesTmgis : Event → Prop
  | .tmgi (.setMbsServiceId ..) | .tmgi (.setPlmn ..) | .tmgi (.setExpiryTime ..) => False
  | .tmgi _ | .network _ => True
  | .subscription _ | .session _ => False

/-- The call gives up the last reference to the SBI object of the transaction. -/
def EndedBy (w : World) (call : TmgiCall) (x : Xact) : Prop :=
  w.sbiObjects x.sbiObject ≤ tmgiDrops w call x.sbiObject

instance (w : World) (call : TmgiCall) (x : Xact) : Decidable (EndedBy w call x) :=
  inferInstanceAs (Decidable (_ ≤ _))

/-- The call takes an object with the identity out of the registry, or a deallocation that
names it from the outstanding transactions. -/
def Takes (w : World) (call : TmgiCall) (g : Identity) : Prop :=
  (∃ t, call = .free t ∧ identityAt w t = some g) ∨
    ∃ x ∈ w.xacts, EndedBy w call x ∧ g ∈ returnedTmgis x.request

/-- Besides the objects `lost` and the transactions `ended` there is a registered object with the
identity, or an outstanding deallocation that names it. -/
def Elsewhere (w : World) (lost : Ref → Prop) (ended : Xact → Prop) (g : Identity) : Prop :=
  (∃ q ∈ w.tmgis, ¬lost q ∧ identityAt w q = some g) ∨
    ∃ x ∈ w.xacts, ¬ended x ∧ g ∈ returnedTmgis x.request

def Reads (p : PlmnId) (api : ApiTmgi) : Prop :=
  plmnIdMccString p = api.mcc ∧ plmnIdMncString p = api.mnc

/-- The codes are written as they were received, whether or not they replace others. -/
structure CodesKept (api : ApiTmgi) : Prop where
  unset : Reads (tmgiSetPlmn api.mccNumber api.mncNumber {}).tmgi.plmn api
  rebuilt : Reads (plmnIdBuild api.mccNumber api.mncNumber (if api.mncNumber < 100 then 2 else 3)) api

/-- The answer is handled to its end, and there is an object for each TMGI that it lists. -/
structure Placed (w : World) (n : ℕ) (rsp : Response) (x : Xact) : Prop where
  answers : TmgiAnswers w n rsp x
  understood : isSuccess rsp.resStatus = true
  reached : reachedTmgis rsp = listedTmgis rsp
  room : HasRoom (registered w) ((listedTmgis rsp).map identity)

/-- What a step takes away of a TMGI that was granted is not the last of it, what is freed has
not left the registry before, and the TMGIs that are granted reach objects. -/
structure GrantsKept (w : World) (e : Event) : Prop where
  manages : ManagesTmgis e
  freed : ∀ t, e = .tmgi (.free t) → t ∈ w.tmgis
  taken : ∀ call g, e = .tmgi call → Granted g w.log → Takes w call g →
    Elsewhere w (fun q => call = .free q) (EndedBy w call) g
  undiscovered : ∀ n x g, e = .network (.discovery n false) → w.findXact n = some x →
    contextSbiObjectToTmgi w x.sbiObject ≠ none → Granted g w.log →
    g ∈ returnedTmgis x.request → Elsewhere w (fun _ => False) (fun y => y.id = n) g
  refused : ∀ n rsp x contents g, e = .network (.response n rsp) → w.findXact n = some x →
    contextSbiObjectToTmgi w x.sbiObject ≠ none → x.request = .tmgiDeallocate contents →
    isSuccess rsp.status = false → Granted g w.log → g ∈ contents.map contentIdentity →
    Elsewhere w (fun q => rsp.parsed = true ∧ q ∈ foundInTurn w.tmgiStore w.tmgis contents)
      (fun y => y.id = n) g
  codes : ∀ n rsp x, e = .network (.response n rsp) → TmgiAnswers w n rsp x →
    isAllocate x.request = true → isSuccess rsp.resStatus = true →
    ∀ api ∈ reachedTmgis rsp, CodesKept api
  placed : ∀ n rsp x, e = .network (.response n rsp) → w.findSent n = some x →
    isAllocate x.request = true → isSuccess rsp.status = true → listedTmgis rsp ≠ [] →
    Placed w n rsp x

/-! ## Reading the log -/

variable {w w' v v' : World} {e : Event} {g : Identity} {t : Ref} {n : ℕ} {rsp : Response}
  {x : Xact}

theorem granted_append {new log : List Observation}
    (hnew : ∀ o ∈ new, grantsOf o = [] ∧ releasesOf o = []) :
    Granted g (new ++ log) ↔ Granted g log := by
  induction new with
  | nil => exact Iff.rfl
  | cons o new ih =>
      rw [List.forall_mem_cons] at hnew
      change (g ∈ grantsOf o ∨ g ∉ releasesOf o ∧ Granted g (new ++ log)) ↔ _
      rw [hnew.1.1, hnew.1.2, ih hnew.2]
      simp

/-- Only answers grant and release TMGIs. -/
theorem granted_of_extends {A : Observation → Prop} (h : Extends A w w')
    (hA : ∀ o, A o → grantsOf o = [] ∧ releasesOf o = []) :
    Granted g w'.log ↔ Granted g w.log := by
  obtain ⟨⟨new, hlog, hnew, -⟩, -⟩ := h
  rw [hlog]
  exact granted_append fun o ho => hA o (hnew o ho)

theorem granted_of_tmgiEffect (h : TmgiEffect w w') : Granted g w'.log ↔ Granted g w.log :=
  granted_of_extends h.log fun o ho => by
    cases o with
    | answered x rsp => exact ho.elim
    | _ => exact ⟨rfl, rfl⟩

theorem Elsewhere.accounted {lost : Ref → Prop} {ended : Xact → Prop}
    {carried : List (Option Identity)} {inFlight : List Xact} (h : Elsewhere w lost ended g)
    (hcarried : ∀ q ∈ w.tmgis, ¬lost q → identityAt w q = some g → some g ∈ carried)
    (hleft : ∀ x ∈ w.xacts, ¬ended x → x ∈ inFlight) : Accounted carried inFlight g := by
  rcases h with ⟨q, hq, hnot, hidentity⟩ | ⟨x, hx, hnot, hg⟩
  · exact .inl (hcarried q hq hnot hidentity)
  · exact .inr ⟨x, hleft x hx hnot, hg⟩

/-- The transactions other than those with a number. -/
def otherXacts (w : World) (n : ℕ) : List Xact := w.xacts.filter fun x => x.id ≠ n

theorem mem_otherXacts_of_ne (hx : x ∈ w.xacts) (hne : ¬x.id = n) : x ∈ otherXacts w n :=
  List.mem_filter.2 ⟨hx, decide_eq_true hne⟩

/-- The registry without the first object that fits each content. -/
def registeredWithout (w : World) (contents : List Tmgi) : List (Option Identity) :=
  (contents.map contentIdentity).foldl (fun ps c => vacate c ps) (registered w)

theorem accounted_mono {carried carried' : List (Option Identity)} {inFlight inFlight' : List Xact}
    (h : Accounted carried inFlight g) (hcarried : some g ∈ carried → some g ∈ carried')
    (hsub : ∀ x ∈ inFlight, x ∈ inFlight') : Accounted carried' inFlight' g := by
  rcases h with h | ⟨x, hx, hg⟩
  · exact .inl (hcarried h)
  · exact .inr ⟨x, hsub x hx, hg⟩

/-! ## Registries -/

/-- The registered objects are live and listed once, and those that were never allocated are
as they were created. -/
structure Registry (w : World) : Prop where
  nodup : w.tmgis.Nodup
  live : ∀ t ∈ w.tmgis, (w.tmgiStore t).isSome = true
  unset : ∀ t x, w.tmgiStore t = some x → x.allocated = false →
    x.tmgi.mbsServiceId = none ∧ x.tmgi.plmn = {}

theorem identityAt_of_store (h : (w'.tmgiStore t).map withoutSbi = (w.tmgiStore t).map withoutSbi) :
    identityAt w' t = identityAt w t := by
  have hread : ∀ y : Option PrivTmgi, (y.bind fun x => if x.allocated then some (identityOf x) else none) =
      (y.map withoutSbi).bind fun x => if x.allocated then some (identityOf x) else none := by
    intro y
    cases y <;> rfl
  rw [identityAt, identityAt, hread, h, ← hread]

theorem registered_of_same (h : SameTmgis w w') : registered w' = registered w := by
  rw [registered, registered, h.tmgis]
  exact List.map_congr_left fun t _ => identityAt_of_store (h.store t)

namespace Registry

theorem of_store (h : Registry w) (hnodup : w'.tmgis.Nodup) (hsub : w'.tmgis ⊆ w.tmgis)
    (hstore : ∀ t, (w'.tmgiStore t).map withoutSbi = (w.tmgiStore t).map withoutSbi) :
    Registry w' := by
  refine ⟨hnodup, fun t ht => ?_, fun t y hy hy0 => ?_⟩
  · have hsome := congrArg Option.isSome (hstore t)
    rw [Option.isSome_map, Option.isSome_map] at hsome
    rw [hsome]
    exact h.live t (hsub ht)
  · have hmap := hstore t
    rw [hy, Option.map_some] at hmap
    obtain ⟨x, hx, heq⟩ := Option.map_eq_some_iff.1 hmap.symm
    have hcontent : (withoutSbi x).tmgi = (withoutSbi y).tmgi := by rw [heq]
    have hallocated : (withoutSbi x).allocated = (withoutSbi y).allocated := by rw [heq]
    change x.tmgi = y.tmgi at hcontent
    have hunset := h.unset t x hx (hallocated.trans hy0)
    rwa [hcontent] at hunset

theorem of_same (h : Registry w) (hsame : SameTmgis w w') : Registry w' :=
  h.of_store (hsame.tmgis ▸ h.nodup) (hsame.tmgis ▸ List.Subset.refl _) hsame.store

/-- An object is written, and is an allocated one then or as it was created. -/
theorem modifyTmgi (h : Registry w) {f : PrivTmgi → PrivTmgi}
    (hf : ∀ y, w.tmgiStore t = some y → (f y).allocated = false →
      (f y).tmgi.mbsServiceId = none ∧ (f y).tmgi.plmn = {}) : Registry (w.modifyTmgi t f) := by
  refine ⟨h.nodup, fun q hq => ?_, fun q y hy hy0 => ?_⟩
  · change ((w.tmgiStore.modify t f) q).isSome = true
    rw [Store.isSome_modify]
    exact h.live q hq
  · change (w.tmgiStore.modify t f) q = some y at hy
    by_cases hqt : q = t
    · subst hqt
      rw [Store.modify_self] at hy
      obtain ⟨z, hz, rfl⟩ := Option.map_eq_some_iff.1 hy
      exact hf z hz hy0
    · rw [Store.modify_of_ne _ _ _ hqt] at hy
      exact h.unset q y hy hy0

theorem tmgiCreate (h : Registry w) (hfresh : w.tmgiStore w.next = none)
    (callback : Option ResultCallback) : Registry (tmgiCreate w callback).1 := by
  have hnot : w.next ∉ w.tmgis := by
    intro hmem
    have hlive := h.live _ hmem
    rw [hfresh] at hlive
    cases hlive
  refine ⟨List.nodup_append_comm.1 (List.nodup_cons.2 ⟨hnot, h.nodup⟩), fun t ht => ?_,
    fun t y hy hy0 => ?_⟩
  · change ((w.tmgiStore.set w.next { callback := callback }) t).isSome = true
    rw [Store.set_apply]
    split
    · rfl
    · rename_i hne
      rcases List.mem_append.1 ht with ht | ht
      · exact h.live t ht
      · exact absurd (List.mem_singleton.1 ht) hne
  · change (w.tmgiStore.set w.next { callback := callback }) t = some y at hy
    rw [Store.set_apply] at hy
    split at hy
    · obtain rfl := Option.some.inj hy
      exact ⟨rfl, rfl⟩
    · exact h.unset t y hy hy0

theorem withoutTmgi (h : Registry w) (t : Ref) : Registry (withoutTmgi w t) := by
  refine ⟨h.nodup.erase t, fun q hq => ?_, fun q y hy hy0 => ?_⟩
  · change ((w.tmgiStore.free t) q).isSome = true
    obtain ⟨hne, hmem⟩ := h.nodup.mem_erase_iff.1 hq
    rw [Store.free_of_ne _ _ _ hne]
    exact h.live q hmem
  · change (w.tmgiStore.free t) q = some y at hy
    rw [Store.free_apply] at hy
    split at hy
    · cases hy
    · exact h.unset q y hy hy0

end Registry

theorem registered_tmgiCreate (h : Registry w) (hfresh : w.tmgiStore w.next = none)
    (callback : Option ResultCallback) :
    registered (tmgiCreate w callback).1 = registered w ++ [none] := by
  have hold : ∀ t ∈ w.tmgis, identityAt (tmgiCreate w callback).1 t = identityAt w t := by
    intro t ht
    have hne : t ≠ w.next := by
      rintro rfl
      have hlive := h.live _ ht
      rw [hfresh] at hlive
      cases hlive
    change ((w.tmgiStore.set w.next { callback := callback }) t).bind _ = _
    rw [Store.set_of_ne _ _ _ hne]
    rfl
  have hnew : identityAt (tmgiCreate w callback).1 w.next = none := by
    change ((w.tmgiStore.set w.next { callback := callback }) w.next).bind _ = _
    rw [Store.set_self]
    rfl
  change (w.tmgis ++ [w.next]).map _ = _
  rw [List.map_append, List.map_congr_left hold, List.map_singleton, hnew]
  rfl

theorem registered_withoutTmgi (h : Registry w) (t : Ref) :
    registered (withoutTmgi w t) = (w.tmgis.erase t).map (identityAt w) := by
  refine List.map_congr_left fun q hq => ?_
  obtain ⟨hne, -⟩ := h.nodup.mem_erase_iff.1 hq
  change ((w.tmgiStore.free t) q).bind _ = _
  rw [Store.free_of_ne _ _ _ hne]
  rfl

/-! ## The handlers -/

/-- A handler leaves the transactions and the SBI objects alone. -/
structure SameXacts (w w' : World) : Prop where
  xacts : w'.xacts = w.xacts
  objects : w'.sbiObjects = w.sbiObjects

namespace SameXacts

theorem refl (w : World) : SameXacts w w := ⟨rfl, rfl⟩

theorem trans {w'' : World} (h₁ : SameXacts w w') (h₂ : SameXacts w' w'') : SameXacts w w'' :=
  ⟨h₂.xacts.trans h₁.xacts, h₂.objects.trans h₁.objects⟩

theorem foldlM {α : Type} {f : World → α → Except Fault World} {as : List α}
    (hf : ∀ a v v', f v a = .ok v' → SameXacts v v') (h : as.foldlM f w = .ok w') :
    SameXacts w w' :=
  foldlM_ok_induction (fun _ v => SameXacts w v)
    (fun a _ v v' hv hrun => hv.trans (hf a v v' hrun)) as w w' (refl w) h

theorem tmgiDoCallback {result : CallbackResult} {problem : Option ProblemDetails}
    (h : tmgiDoCallback w n t result problem = .ok w') : SameXacts w w' := by
  simp only [ResponseHandlers.tmgiDoCallback, bind_eq_ok] at h
  obtain ⟨y, -, h⟩ := h
  split at h
  · exact Except.ok.inj h ▸ refl w
  · exact Except.ok.inj h ▸ ⟨rfl, rfl⟩

theorem contextRemoveTmgi (h : contextRemoveTmgi w t = .ok w') : SameXacts w w' := by
  obtain ⟨-, rfl⟩ := TmgiContents.contextRemoveTmgi_eq_ok.1 h
  exact ⟨rfl, rfl⟩

theorem takeAllocated {expiryTime : ℤ} {api : ApiTmgi}
    (h : takeAllocated n expiryTime w api = .ok w') : SameXacts w w' := by
  unfold ResponseHandlers.takeAllocated at h
  split at h
  · exact Except.ok.inj h ▸ refl w
  · have hcallback := tmgiDoCallback h
    exact ⟨hcallback.xacts, hcallback.objects⟩

theorem reportRefused {problem : Option ProblemDetails} {c : Tmgi}
    (h : reportRefused n problem w c = .ok w') : SameXacts w w' := by
  unfold ResponseHandlers.reportRefused at h
  split at h
  · exact Except.ok.inj h ▸ refl w
  · exact tmgiDoCallback h

theorem doTmgiRemove {c : Tmgi} (h : doTmgiRemove n rsp w c = .ok w') : SameXacts w w' := by
  unfold ResponseHandlers.doTmgiRemove at h
  split at h
  · exact Except.ok.inj h ▸ refl w
  · simp only [bind_eq_ok] at h
    obtain ⟨v, hv, h⟩ := h
    refine SameXacts.trans ?_ (contextRemoveTmgi h)
    split at hv
    · exact tmgiDoCallback hv
    · exact tmgiDoCallback hv

end SameXacts

/-- A registered object fits a TMGI of a message when it has the same identity or none. -/
theorem fits_eq_takes {api : ApiTmgi} (h : Registry w) (ht : t ∈ w.tmgis) :
    fits w api t = takes (identity api) (identityAt w t) := by
  obtain ⟨y, hy⟩ := Option.isSome_iff_exists.1 (h.live t ht)
  rw [fits, hy, Option.any_some, identityAt, hy, Option.bind_some]
  cases hallocated : y.allocated with
  | false =>
      obtain ⟨hid, -⟩ := h.unset t y hy hallocated
      rw [if_neg Bool.false_ne_true, takes_none, tmgiMatches, hid, hallocated]
      cases api.mbsServiceId <;> rfl
  | true =>
      rw [if_pos rfl]
      by_cases hsame : identityOf y = identity api
      · rw [tmgiMatches_of_identity hsame, takes_some.2 hsame]
      · rw [not_tmgiMatches_of_identity hallocated hsame]
        exact (Bool.eq_false_iff.2 fun htakes => hsame (takes_some.1 htakes)).symm

theorem tmgiFind_eq_takes {api : ApiTmgi} (h : Registry w) : tmgiFindMatchingOpenapiType w api =
    w.tmgis.find? fun t => takes (identity api) (identityAt w t) :=
  List.find?_congr fun _ ht => fits_eq_takes h ht

theorem identityOf_granted_of_codes {api : ApiTmgi} {y : PrivTmgi} {expiryTime : ℤ}
    (hcodes : CodesKept api) (hmatch : tmgiMatches api y = true)
    (hunset : y.allocated = false → y.tmgi.plmn = {}) :
    identityOf (granted api expiryTime y) = identity api := by
  refine identityOf_granted.2 ?_
  rw [tmgiSetPlmn_plmn]
  by_cases hother : y.tmgi.plmn.mcc ≠ api.mccNumber ∨ y.tmgi.plmn.mnc ≠ api.mncNumber
  · rw [if_pos hother]
    exact hcodes.rebuilt
  · rw [if_neg hother]
    cases hallocated : y.allocated with
    | false =>
        have hkept := hcodes.unset
        rw [Reads, tmgiSetPlmn_plmn] at hkept
        rw [hunset hallocated] at hother ⊢
        rwa [if_neg hother] at hkept
    | true =>
        simp only [tmgiMatches, hallocated, Bool.not_true, Bool.false_or, Bool.and_eq_true,
          beq_iff_eq] at hmatch
        exact ⟨hmatch.2.1.symm, hmatch.2.2.symm⟩

/-- A TMGI of the answer goes to the first object that takes it. -/
theorem registered_takeAllocated {expiryTime : ℤ} {api : ApiTmgi} (hreg : Registry w)
    (hcodes : CodesKept api) (h : takeAllocated n expiryTime w api = .ok w') :
    Registry w' ∧ registered w' = put (identity api) (registered w) := by
  cases hfind : tmgiFindMatchingOpenapiType w api with
  | none =>
      rw [takeAllocated_of_none hfind] at h
      obtain rfl := Except.ok.inj h
      rw [tmgiFind_eq_takes hreg] at hfind
      exact ⟨hreg, (put_eq_self (takes_eq_false_of_find hfind)).symm⟩
  | some t =>
      obtain ⟨y, v, hy, hmatch, hv, htmgis, hstore, -⟩ :=
        takeAllocated_of_some (n := n) (e := expiryTime) hfind
      obtain rfl : w' = v := Except.ok.inj (h.symm.trans hv)
      have hidentity : identityOf (granted api expiryTime y) = identity api :=
        identityOf_granted_of_codes hcodes hmatch fun h0 => (hreg.unset t y hy h0).2
      have hwritten : Registry (w.modifyTmgi t (granted api expiryTime)) :=
        hreg.modifyTmgi fun z _ h0 => by cases h0
      refine ⟨⟨htmgis ▸ hwritten.nodup, fun q hq => ?_, fun q z hz => ?_⟩, ?_⟩
      · rw [hstore]
        exact hwritten.live q (htmgis ▸ hq)
      · rw [hstore] at hz
        exact hwritten.unset q z hz
      · rw [tmgiFind_eq_takes hreg] at hfind
        rw [registered, htmgis]
        refine map_eq_put hfind hreg.nodup ?_ fun q hq => ?_
        · rw [identityAt, hstore, Store.modify_self, hy, Option.map_some, Option.bind_some,
            ← hidentity]
          rfl
        · rw [identityAt, hstore, Store.modify_of_ne _ _ _ hq]
          rfl

theorem registered_takeAll {expiryTime : ℤ} {apis : List ApiTmgi} (hreg : Registry w)
    (hcodes : ∀ api ∈ apis, CodesKept api)
    (h : apis.foldlM (takeAllocated n expiryTime) w = .ok w') :
    Registry w' ∧
      registered w' = (apis.map identity).foldl (fun ps a => put a ps) (registered w) := by
  induction apis generalizing w with
  | nil =>
      rw [List.foldlM_nil] at h
      obtain rfl := Except.ok.inj h
      exact ⟨hreg, rfl⟩
  | cons api apis ih =>
      rw [List.forall_mem_cons] at hcodes
      rw [List.foldlM_cons] at h
      obtain ⟨v, hv, hrest⟩ := bind_eq_ok.1 h
      obtain ⟨hregv, hput⟩ := registered_takeAllocated hreg hcodes.1 hv
      obtain ⟨hreg', hfold⟩ := ih hregv hcodes.2 hrest
      refine ⟨hreg', ?_⟩
      rw [hfold, hput]
      rfl

/-- A content that is given back takes the first object that fits out of the registry. -/
theorem registered_doTmgiRemove {c : Tmgi} (hreg : Registry w)
    (h : doTmgiRemove n rsp w c = .ok w') :
    Registry w' ∧ registered w' = vacate (contentIdentity c) (registered w) := by
  cases hfind : tmgiFindMatchingOpenapiType w (tmgiToOpenapiType c) with
  | none =>
      rw [doTmgiRemove_not_found hfind] at h
      obtain rfl := Except.ok.inj h
      rw [tmgiFind_eq_takes hreg] at hfind
      refine ⟨hreg, (List.eraseP_of_forall_not fun p hp => ?_).symm⟩
      have hnot := takes_eq_false_of_find hfind p hp
      rw [show identity (tmgiToOpenapiType c) = contentIdentity c from rfl] at hnot
      rw [hnot]
      exact Bool.false_ne_true
  | some t =>
      obtain ⟨hshrinks, htmgis⟩ := doTmgiRemove_found hfind h
      rw [tmgiFind_eq_takes hreg] at hfind
      refine ⟨hreg.of_store (htmgis ▸ hreg.nodup.erase t) hshrinks.subset hshrinks.store, ?_⟩
      have hidentities : registered w' = (w.tmgis.erase t).map (identityAt w) := by
        rw [registered, htmgis]
        exact List.map_congr_left fun q _ => identityAt_of_store (hshrinks.store q)
      rw [hidentities]
      exact map_erase_eq_vacate hfind

theorem registered_removeAll {contents : List Tmgi} (hreg : Registry w)
    (h : contents.foldlM (doTmgiRemove n rsp) w = .ok w') :
    Registry w' ∧ registered w' = registeredWithout w contents := by
  induction contents generalizing w with
  | nil =>
      rw [List.foldlM_nil] at h
      obtain rfl := Except.ok.inj h
      exact ⟨hreg, rfl⟩
  | cons c contents ih =>
      rw [List.foldlM_cons] at h
      obtain ⟨v, hv, hrest⟩ := bind_eq_ok.1 h
      obtain ⟨hregv, hvacate⟩ := registered_doTmgiRemove hreg hv
      obtain ⟨hreg', hfold⟩ := ih hregv hrest
      refine ⟨hreg', ?_⟩
      rw [hfold, registeredWithout, hvacate]
      rfl

/-- An object that no content finds in its turn stays. -/
theorem mem_registeredWithout {contents : List Tmgi} {ts : List Ref} (hreg : Registry w)
    (hsub : ts ⊆ w.tmgis) (hmem : t ∈ ts) (hnot : t ∉ foundInTurn w.tmgiStore ts contents) :
    identityAt w t ∈ (contents.map contentIdentity).foldl (fun ps c => vacate c ps)
      (ts.map (identityAt w)) := by
  induction contents generalizing ts with
  | nil => exact List.mem_map_of_mem hmem
  | cons c contents ih =>
      have hfits : (ts.find? fun q => (w.tmgiStore q).any (tmgiMatches (tmgiToOpenapiType c))) =
          ts.find? fun q => takes (contentIdentity c) (identityAt w q) :=
        List.find?_congr fun q hq => fits_eq_takes hreg (hsub hq)
      rw [foundInTurn, hfits] at hnot
      rw [List.map_cons, List.foldl_cons]
      cases hfind : ts.find? fun q => takes (contentIdentity c) (identityAt w q) with
      | none =>
          rw [hfind] at hnot
          have hsame : vacate (contentIdentity c) (ts.map (identityAt w)) =
              ts.map (identityAt w) := by
            refine List.eraseP_of_forall_not fun p hp => ?_
            rw [takes_eq_false_of_find hfind p hp]
            exact Bool.false_ne_true
          rw [hsame]
          exact ih hsub hmem hnot
      | some q =>
          rw [hfind, List.mem_cons, not_or] at hnot
          rw [← map_erase_eq_vacate hfind]
          exact ih (fun p hp => hsub (List.mem_of_mem_erase hp)) ((List.mem_erase_of_ne hnot.1).2 hmem) hnot.2

theorem sameTmgis_reportRefused {problem : Option ProblemDetails} {c : Tmgi}
    (h : reportRefused n problem w c = .ok w') : SameTmgis w w' := by
  unfold reportRefused at h
  split at h
  · exact Except.ok.inj h ▸ .refl w
  · rename_i hfind
    exact SameTmgis.tmgiDoCallback (List.mem_of_find?_eq_some hfind) h

/-! ## Calls -/

/-- What holds in every run that manages TMGIs. -/
structure Managed (w : World) : Prop where
  registry : Registry w
  sessions : w.mbsSessions = []
  requests : ∀ x ∈ w.xacts, x.request.isTmgi = true

theorem registered_of_call {call : TmgiCall} (hreg : Registry w)
    (hfresh : w.tmgiStore w.next = none) (hcall : ManagesTmgis (.tmgi call))
    (h : tmgiStep w call = .ok w') :
    Registry w' ∧ ∀ q ∈ w.tmgis, call ≠ .free q → identityAt w q ∈ registered w' := by
  have hsame : ∀ {v : World}, SameTmgis w v → Registry v ∧ ∀ q ∈ w.tmgis, call ≠ .free q →
      identityAt w q ∈ registered v := by
    intro v hv
    refine ⟨hreg.of_same hv, fun q hq _ => ?_⟩
    rw [registered_of_same hv]
    exact List.mem_map_of_mem hq
  have hcreated : ∀ {v : World} (callback : Option ResultCallback),
      SameTmgis (tmgiCreate w callback).1 v → Registry v ∧ ∀ q ∈ w.tmgis, call ≠ .free q →
        identityAt w q ∈ registered v := by
    intro v callback hv
    refine ⟨(hreg.tmgiCreate hfresh callback).of_same hv, fun q hq _ => ?_⟩
    rw [registered_of_same hv, registered_tmgiCreate hreg hfresh]
    exact List.mem_append_left _ (List.mem_map_of_mem hq)
  cases call <;> simp only [tmgiStep] at h
  case create callback => exact hcreated callback (SameTmgis.tmgiListSendAllocate h)
  case new => exact Except.ok.inj h ▸ hcreated none (.refl _)
  case free t =>
    obtain ⟨-, -, hfreed⟩ := withoutTmgi_of_tmgiFree h
    refine ⟨(hreg.withoutTmgi t).of_same hfreed, fun q hq hne => ?_⟩
    rw [registered_of_same hfreed, registered_withoutTmgi hreg]
    refine List.mem_map_of_mem ((List.mem_erase_of_ne ?_).2 hq)
    rintro rfl
    exact hne rfl
  case setMbsServiceId t mbsServiceId => exact hcall.elim
  case setPlmn t mcc mnc => exact hcall.elim
  case setExpiryTime t expiryTime => exact hcall.elim
  case setCallback t callback =>
    simp only [tmgiSet, bind_eq_ok, Except.ok.injEq] at h
    obtain ⟨y, -, rfl⟩ := h
    refine ⟨hreg.modifyTmgi fun z hz h0 => hreg.unset t z hz h0, fun p hp _ => ?_⟩
    have hidentity : registered (w.modifyTmgi t (tmgiSetCallback callback)) = registered w := by
      refine List.map_congr_left fun q _ => ?_
      change ((w.tmgiStore.modify t (tmgiSetCallback callback)) q).bind _ = _
      rw [Store.modify_apply, identityAt]
      split
      · cases w.tmgiStore q <;> rfl
      · rfl
    rw [hidentity]
    exact List.mem_map_of_mem hp
  case sendDeallocate t => exact hsame (SameTmgis.tmgiListSendDeallocate h)
  all_goals exact hsame (SameTmgis.tmgiListSendAllocate h)

theorem managed_of_tmgiEffect (hw : Managed w) (heffect : TmgiEffect w w') (hreg : Registry w') :
    Managed w' := by
  refine ⟨hreg, heffect.mbsSessions.trans hw.sessions, fun x hx => ?_⟩
  rcases heffect.log.of_mem_xacts hx with hsent | hold
  · exact hsent
  · exact hw.requests x hold

theorem kept_of_call {call : TmgiCall} (hw : Managed w) (hc : Counted (fun _ => 0) w)
    (hkept : GrantsKept w (.tmgi call)) (hgrants : NoGrantLeaked w)
    (h : tmgiStep w call = .ok w') : Managed w' ∧ NoGrantLeaked w' := by
  have heffect := tmgiEffect_tmgiStep h
  have hbalanced := balanced_tmgiStep (fun _ => le_refl _) hc h
  obtain ⟨hreg, hregistered⟩ :=
    registered_of_call hw.registry (hc.tmgis _ (le_refl _)) hkept.manages h
  refine ⟨managed_of_tmgiEffect hw heffect hreg, fun g hg => ?_⟩
  rw [granted_of_tmgiEffect heffect] at hg
  have hleft : Elsewhere w (fun q => call = .free q) (EndedBy w call) g := by
    by_cases htaken : Takes w call g
    · exact hkept.taken call g rfl hg htaken
    · simp only [Takes, not_or, not_exists, not_and] at htaken
      rcases hgrants g hg with hmem | ⟨x, hx, hnamed⟩
      · obtain ⟨q, hq, hidentity⟩ := List.mem_map.1 hmem
        exact .inl ⟨q, hq, fun hfree => htaken.1 q hfree hidentity, hidentity⟩
      · exact .inr ⟨x, hx, fun hended => htaken.2 x hx hended hnamed, hnamed⟩
  refine hleft.accounted (fun q hq hne hidentity => ?_) fun x hx hnot => ?_
  · rw [← hidentity]
    exact hregistered q hq hne
  · exact (hbalanced.givesUp x.sbiObject (by simpa using not_le.1 hnot)).2 x hx rfl

/-! ## The network -/

theorem find_session_eq_none (hw : Managed w) (o : Ref) : contextSbiObjectToSession w o = none := by
  rw [contextSbiObjectToSession, hw.sessions, List.find?_nil]

/-- The transactions other than the one that a number finds. -/
theorem mem_otherXacts (hs : XactsSound w) (hx : w.findXact n = some x) {y : Xact}
    (hy : y ∈ w.xacts) (hne : y ≠ x) : y ∈ otherXacts w n := by
  refine mem_otherXacts_of_ne hy fun hid => hne ?_
  have hfound := hs.findXact_eq hy
  rw [hid, hx] at hfound
  exact (Option.some.inj hfound).symm

/-- A TMGI that the transaction does not give back is accounted for without it. -/
theorem accounted_others (hs : XactsSound w) (hx : w.findXact n = some x)
    (h : Accounted (registered w) w.xacts g) (hnot : g ∉ returnedTmgis x.request) :
    Accounted (registered w) (otherXacts w n) g := by
  rcases h with hmem | ⟨y, hy, hg⟩
  · exact .inl hmem
  · refine .inr ⟨y, mem_otherXacts hs hx hy ?_, hg⟩
    rintro rfl
    exact hnot hg

theorem kept_of_discovery {found : Bool} (hw : Managed w) (hs : XactsSound w)
    (hkept : GrantsKept w (.network (.discovery n found))) (hgrants : NoGrantLeaked w) :
    Managed (processDiscovery w n found) ∧ NoGrantLeaked (processDiscovery w n found) := by
  unfold processDiscovery
  cases hx : w.findXact n with
  | none => exact ⟨hw, hgrants⟩
  | some x =>
      dsimp only
      split
      · exact ⟨hw, hgrants⟩
      · rename_i hsome
        cases found with
        | true => exact ⟨hw, hgrants⟩
        | false =>
            have htmgi : contextSbiObjectToTmgi w x.sbiObject ≠ none :=
              fun hnone => hsome ⟨find_session_eq_none hw _, hnone⟩
            have hsame : SameTmgis w (w.removeXact n) := .of_rfl rfl rfl rfl rfl
            refine ⟨⟨hw.registry.of_same hsame, hw.sessions, fun y hy => ?_⟩, fun g hg => ?_⟩
            · exact hw.requests y (List.mem_filter.1 hy).1
            · change Accounted (registered (w.removeXact n)) (otherXacts w n) g
              rw [registered_of_same hsame]
              by_cases hnamed : g ∈ returnedTmgis x.request
              · exact (hkept.undiscovered n x g rfl hx htmgi hg hnamed).accounted
                  (fun q hq _ hidentity => hidentity ▸ List.mem_map_of_mem hq)
                  fun y hy hne => mem_otherXacts_of_ne hy hne
              · exact accounted_others hs hx (hgrants g hg) hnamed

/-- Without sessions nobody's timer is the library's. -/
theorem kept_of_timeout (hw : Managed w) (hgrants : NoGrantLeaked w)
    (h : processTimeout w n = .ok w') : Managed w' ∧ NoGrantLeaked w' := by
  rcases processTimeout_cases h with ⟨-, rfl⟩ | ⟨x, -, ⟨-, rfl⟩ | ⟨s, v, hs, -⟩⟩
  · exact ⟨hw, hgrants⟩
  · have hsame : SameTmgis w (w.say (.timedOut x)) := .of_rfl rfl rfl rfl rfl
    refine ⟨⟨hw.registry.of_same hsame, hw.sessions, hw.requests⟩, fun g hg => ?_⟩
    rw [registered_of_same hsame]
    have hsilent : ∀ o ∈ [Observation.timedOut x], grantsOf o = [] ∧ releasesOf o = [] := by
      intro o ho
      rw [List.mem_singleton.1 ho]
      exact ⟨rfl, rfl⟩
    exact hgrants g ((granted_append hsilent).1 hg)
  · rw [find_session_eq_none hw] at hs
    cases hs

/-- What is granted once an answer is recorded. -/
theorem granted_answered {log : List Observation} (h : Granted g (.answered x rsp :: log)) :
    (isAllocate x.request = true ∧ isSuccess rsp.status = true ∧
      g ∈ (listedTmgis rsp).map identity) ∨
    (isSuccess rsp.status = true → g ∉ returnedTmgis x.request) ∧ Granted g log := by
  rcases h with hgrant | ⟨hkept, hold⟩
  · rw [grantsOf] at hgrant
    split at hgrant
    · rename_i hcond
      rw [Bool.and_eq_true] at hcond
      exact .inl ⟨hcond.1, hcond.2, hgrant⟩
    · cases hgrant
  · refine .inr ⟨fun hstatus hmem => hkept ?_, hold⟩
    rw [releasesOf, if_pos hstatus]
    exact hmem

/-- An answer that finds no transaction, or no holder of its SBI object. -/
theorem kept_of_unhandled (hw : Managed w) (hkept : GrantsKept w (.network (.response n rsp)))
    (hgrants : NoGrantLeaked w) (hsent : w.findSent n = some x)
    (hnone : ∀ y, w.findXact n = some y → contextSbiObjectToSession w y.sbiObject = none ∧
      contextSbiObjectToTmgi w y.sbiObject = none) :
    Managed (w.say (.answered x rsp)) ∧ NoGrantLeaked (w.say (.answered x rsp)) := by
  have hsame : SameTmgis w (w.say (.answered x rsp)) := .of_rfl rfl rfl rfl rfl
  refine ⟨⟨hw.registry.of_same hsame, hw.sessions, hw.requests⟩, fun g hg => ?_⟩
  rw [registered_of_same hsame]
  rcases granted_answered hg with ⟨hallocate, hstatus, hmem⟩ | ⟨-, hold⟩
  · have hlisted : listedTmgis rsp ≠ [] := by
      intro hnil
      rw [hnil] at hmem
      cases hmem
    have hanswers := (hkept.placed n rsp x rfl hsent hallocate hstatus hlisted).answers
    exact absurd (hnone x hanswers.outstanding) hanswers.found
  · exact hgrants g hold

/-! ## Answers that are handled -/

/-- What an answer leaves of the registry. -/
def answeredRegistry (w : World) (x : Xact) (rsp : Response) : List (Option Identity) :=
  if !rsp.parsed then registered w
  else
    match x.request with
    | .tmgiAllocate .. =>
        if isSuccess rsp.resStatus then
          ((reachedTmgis rsp).map identity).foldl (fun ps a => put a ps) (registered w)
        else registered w
    | .tmgiDeallocate contents => registeredWithout w contents
    | _ => registered w

structure Answered (w v : World) (x : Xact) (t : Ref) (rsp : Response) : Prop where
  registry : Registry v
  registered : registered v = answeredRegistry w x rsp
  xacts : SameXacts (w.refCountSbiObjectRef (heldByTmgiResponse w x (some t) rsp)) v

theorem answered_allocate {newTmgis : ℕ} {refresh : List Tmgi} (hreg : Registry w)
    (hrequest : x.request = .tmgiAllocate newTmgis refresh)
    (hcodes : isSuccess rsp.resStatus = true → ∀ api ∈ reachedTmgis rsp, CodesKept api)
    (hparsed : rsp.parsed = true) (h : nmbsmfTmgiAllocated w x rsp = .ok v) :
    Answered w v x t rsp := by
  have hheld : heldByTmgiResponse w x (some t) rsp = none := by
    rw [heldByTmgiResponse, hrequest, hparsed]
    rfl
  have hleft : answeredRegistry w x rsp = if isSuccess rsp.resStatus then
      ((reachedTmgis rsp).map identity).foldl (fun ps a => put a ps) (registered w)
        else registered w := by
    rw [answeredRegistry, hparsed, hrequest]
    rfl
  cases hok : isSuccess rsp.resStatus with
  | true =>
      rw [nmbsmfTmgiAllocated_of_success hok] at h
      obtain ⟨hregv, htaken⟩ := registered_takeAll hreg (hcodes hok) h
      refine ⟨hregv, ?_, ?_⟩
      · rw [hleft, hok, if_pos rfl, htaken]
      · rw [hheld]
        exact SameXacts.foldlM (fun _ _ _ => SameXacts.takeAllocated) h
  | false =>
      rw [nmbsmfTmgiAllocated, hok, if_neg Bool.false_ne_true] at h
      have hsame : SameTmgis w v := SameTmgis.foldlM (fun _ _ _ => sameTmgis_reportRefused) h
      refine ⟨hreg.of_same hsame, ?_, ?_⟩
      · rw [hleft, hok, if_neg Bool.false_ne_true, registered_of_same hsame]
      · rw [hheld]
        exact SameXacts.foldlM (fun _ _ _ => SameXacts.reportRefused) h

theorem answered_deallocate {contents : List Tmgi} {y : PrivTmgi} (hreg : Registry w)
    (hrequest : x.request = .tmgiDeallocate contents) (hparsed : rsp.parsed = true)
    (hy : w.tmgiStore t = some y)
    (h : nmbsmfTmgiDeallocated (w.refCountSbiObjectRef y.sbiObject) x rsp = .ok v) :
    Answered w v x t rsp := by
  have hheld : heldByTmgiResponse w x (some t) rsp = y.sbiObject := by
    rw [heldByTmgiResponse, hrequest, hparsed]
    change (w.tmgiStore t).bind PrivTmgi.sbiObject = y.sbiObject
    rw [hy]
    rfl
  have hsame : SameTmgis w (w.refCountSbiObjectRef y.sbiObject) := .refCountSbiObjectRef _
  have hcontents : requestTmgis x.request = contents := by
    rw [hrequest]
    rfl
  rw [nmbsmfTmgiDeallocated, hcontents] at h
  obtain ⟨hregv, hremoved⟩ := registered_removeAll (hreg.of_same hsame) h
  refine ⟨hregv, ?_, ?_⟩
  · rw [hremoved, answeredRegistry, hparsed, hrequest, registeredWithout,
      registered_of_same hsame]
    rfl
  · rw [hheld]
    exact SameXacts.foldlM (fun _ _ _ => SameXacts.doTmgiRemove) h

theorem answered_of_processTmgiResponse (hreg : Registry w) (ht : t ∈ w.tmgis)
    (hservice : x.request.isTmgi = true)
    (hcodes : rsp.parsed = true → isAllocate x.request = true → isSuccess rsp.resStatus = true →
      ∀ api ∈ reachedTmgis rsp, CodesKept api)
    (h : processTmgiResponse w x (some t) rsp = .ok v) : Answered w v x t rsp := by
  unfold processTmgiResponse at h
  cases hparsed : rsp.parsed with
  | false =>
      rw [hparsed, Bool.not_false, if_pos rfl] at h
      have hheld : heldByTmgiResponse w x (some t) rsp = none := by
        rw [heldByTmgiResponse, hparsed]
        rfl
      have hsame := SameTmgis.tmgiDoCallback ht h
      refine ⟨hreg.of_same hsame, ?_, ?_⟩
      · rw [registered_of_same hsame, answeredRegistry, hparsed]
        rfl
      · rw [hheld]
        exact SameXacts.tmgiDoCallback h
  | true =>
      rw [hparsed, Bool.not_true, if_neg Bool.false_ne_true] at h
      cases hrequest : x.request with
      | tmgiAllocate newTmgis refresh =>
          rw [hrequest] at h
          exact answered_allocate hreg hrequest
            (hcodes hparsed (by rw [hrequest]; rfl)) hparsed h
      | tmgiDeallocate contents =>
          rw [hrequest] at h
          simp only [Request.method, bind_eq_ok, World.tmgiAt_eq_ok] at h
          obtain ⟨y, hy, h⟩ := h
          exact answered_deallocate hreg hrequest hparsed hy h
      | _ =>
          rw [hrequest] at hservice
          cases hservice

/-- The end of the event drops the transaction, and no other one. -/
theorem finishEvent_xacts {held : Option Ref} (hlive : ∀ o, held = some o → v.sbiObjects o ≠ 1) :
    (finishEvent n held v).xacts = v.xacts.filter fun x => x.id ≠ n := by
  unfold finishEvent
  cases held with
  | none => rfl
  | some o =>
      rw [refCountSbiObjectUnref_xacts]
      exact if_neg (hlive o rfl)

theorem finishEvent_log (n : ℕ) (held : Option Ref) :
    Granted g (finishEvent n held v).log ↔ Granted g v.log :=
  granted_of_tmgiEffect (tmgiEffect_finishEvent n held)

/-- What an allocation grants comes to objects, and what was granted before stays. -/
theorem accounted_allocated (hs : XactsSound w) (hkept : GrantsKept w (.network (.response n rsp)))
    (hgrants : NoGrantLeaked w) (hx : w.findXact n = some x) {newTmgis : ℕ}
    {refresh : List Tmgi} (hrequest : x.request = .tmgiAllocate newTmgis refresh)
    (hg : Granted g (.answered x rsp :: w.log)) :
    Accounted (answeredRegistry w x rsp) (otherXacts w n) g := by
  have hleft := answeredRegistry.eq_1 w x rsp
  have hallocate : isAllocate x.request = true := by
    rw [hrequest]
    rfl
  have hreturned : g ∉ returnedTmgis x.request := by
    rw [hrequest]
    exact List.not_mem_nil
  have hkeeps : some g ∈ registered w → some g ∈ answeredRegistry w x rsp := by
    intro hmem
    rw [hleft, hrequest]
    cases rsp.parsed with
    | false => exact hmem
    | true =>
        change some g ∈ if isSuccess rsp.resStatus then _ else _
        split
        · exact mem_foldl_put hmem
        · exact hmem
  rcases granted_answered hg with ⟨-, hstatus, hlisted⟩ | ⟨-, hold⟩
  · have hsome : listedTmgis rsp ≠ [] := by
      intro hnil
      rw [hnil] at hlisted
      cases hlisted
    have hplaced := hkept.placed n rsp x rfl (findSent_of_findXact hs hx) hallocate hstatus hsome
    refine .inl ?_
    rw [hleft, hrequest, hplaced.answers.parsed]
    change some g ∈ if isSuccess rsp.resStatus then _ else _
    rw [if_pos hplaced.understood, hplaced.reached]
    exact mem_foldl_put_of_hasRoom hplaced.room hlisted
  · exact accounted_mono (accounted_others hs hx (hgrants g hold) hreturned) hkeeps fun _ hy => hy

/-- What a deallocation names is released, or is elsewhere. -/
theorem accounted_deallocated (hreg : Registry w) (hs : XactsSound w)
    (hkept : GrantsKept w (.network (.response n rsp))) (hgrants : NoGrantLeaked w)
    (hx : w.findXact n = some x) (hfound : contextSbiObjectToTmgi w x.sbiObject ≠ none)
    {contents : List Tmgi} (hrequest : x.request = .tmgiDeallocate contents)
    (hg : Granted g (.answered x rsp :: w.log)) :
    Accounted (answeredRegistry w x rsp) (otherXacts w n) g := by
  have hreturned : returnedTmgis x.request = contents.map contentIdentity := by
    rw [hrequest]
    rfl
  have hleft : answeredRegistry w x rsp =
      if rsp.parsed then registeredWithout w contents else registered w := by
    rw [answeredRegistry.eq_1 w x rsp, hrequest]
    cases rsp.parsed <;> rfl
  rw [hleft]
  rcases granted_answered hg with ⟨hallocate, -⟩ | ⟨hreleased, hold⟩
  · rw [hrequest] at hallocate
    cases hallocate
  · by_cases hnamed : g ∈ contents.map contentIdentity
    · have hrefused : isSuccess rsp.status = false := by
        rw [← Bool.not_eq_true]
        intro hstatus
        exact hreleased hstatus (hreturned ▸ hnamed)
      have helse := hkept.refused n rsp x contents g rfl hx hfound hrequest hrefused hold hnamed
      refine helse.accounted (fun q hq hstays hidentity => ?_) fun y hy hne =>
        mem_otherXacts_of_ne hy hne
      rw [← hidentity]
      split
      · rename_i hparsed
        exact mem_registeredWithout hreg (List.Subset.refl _) hq fun hfound =>
          hstays ⟨hparsed, hfound⟩
      · exact List.mem_map_of_mem hq
    · refine accounted_mono (accounted_others hs hx (hgrants g hold) (hreturned ▸ hnamed))
        (fun hmem => ?_) fun _ hy => hy
      split
      · exact mem_foldl_vacate hmem hnamed
      · exact hmem

/-- What an answer grants and what it releases is accounted for by what it leaves. -/
theorem accounted_answered (hreg : Registry w) (hs : XactsSound w)
    (hkept : GrantsKept w (.network (.response n rsp))) (hgrants : NoGrantLeaked w)
    (hx : w.findXact n = some x) (htmgi : contextSbiObjectToTmgi w x.sbiObject = some t)
    (hservice : x.request.isTmgi = true) (hg : Granted g (.answered x rsp :: w.log)) :
    Accounted (answeredRegistry w x rsp) (otherXacts w n) g := by
  cases hrequest : x.request with
  | tmgiAllocate newTmgis refresh => exact accounted_allocated hs hkept hgrants hx hrequest hg
  | tmgiDeallocate contents =>
      refine accounted_deallocated hreg hs hkept hgrants hx ?_ hrequest hg
      rw [htmgi]
      exact Option.some_ne_none t
  | _ =>
      rw [hrequest] at hservice
      cases hservice

theorem kept_of_handled (hw : Managed w) (hs : XactsSound w) (hc : Counted (fun _ => 0) w)
    (hkept : GrantsKept w (.network (.response n rsp))) (hgrants : NoGrantLeaked w)
    (hx : w.findXact n = some x) (htmgi : contextSbiObjectToTmgi w x.sbiObject = some t)
    (h : processTmgiResponse (handlingState w x rsp) x (some t) rsp = .ok v) :
    Managed (finishEvent n (heldByTmgiResponse (handlingState w x rsp) x (some t) rsp) v) ∧
      NoGrantLeaked (finishEvent n (heldByTmgiResponse (handlingState w x rsp) x (some t) rsp) v) := by
  obtain ⟨hmem, -⟩ := findXact_eq_some hx
  have hservice := hw.requests x hmem
  have hfound : ¬(contextSbiObjectToSession w x.sbiObject = none ∧
      contextSbiObjectToTmgi w x.sbiObject = none) := by
    rw [htmgi]
    exact fun hnone => by cases hnone.2
  have hstart : SameTmgis w (handlingState w x rsp) := sameTmgis_handlingState
  have hcodes : rsp.parsed = true → isAllocate x.request = true → isSuccess rsp.resStatus = true →
      ∀ api ∈ reachedTmgis rsp, CodesKept api := fun hparsed hallocate hok =>
    hkept.codes n rsp x rfl ⟨hx, hfound, hservice, hparsed⟩ hallocate hok
  have hanswered := answered_of_processTmgiResponse (hw.registry.of_same hstart)
    (List.mem_of_find?_eq_some htmgi) hservice hcodes h
  have heffect := tmgiEffect_processTmgiResponse h
  generalize hheld : heldByTmgiResponse (handlingState w x rsp) x (some t) rsp = held
  have hlive : ∀ o, held = some o → v.sbiObjects o ≠ 1 := by
    intro o ho
    subst ho
    -- The held object is the one of the TMGI that was found, which refers to it as well.
    have hobjects := hanswered.xacts.objects
    rw [hheld] at hobjects
    have hcount : v.sbiObjects o = w.sbiObjects o + 1 := by
      rw [hobjects]
      exact Function.update_self _ _ _
    rw [heldByTmgiResponse] at hheld
    split at hheld
    · change (w.tmgiStore t).bind PrivTmgi.sbiObject = some o at hheld
      obtain ⟨y, hy, hyo⟩ := Option.bind_eq_some_iff.1 hheld
      have hpos := hc.lt_of_tmgi_holds hy hyo
      omega
    · cases hheld
  have hxacts : (finishEvent n held v).xacts = otherXacts w n := by
    rw [finishEvent_xacts hlive, hanswered.xacts.xacts]
    cases heldByTmgiResponse (handlingState w x rsp) x (some t) rsp <;> rfl
  have hsame : SameTmgis v (finishEvent n held v) := .finishEvent n held
  have hregistered : registered (finishEvent n held v) = answeredRegistry w x rsp := by
    have hstarted : registered (handlingState w x rsp) = registered w := registered_of_same hstart
    rw [registered_of_same hsame, hanswered.registered]
    unfold answeredRegistry registeredWithout
    rw [hstarted]
  refine ⟨⟨hanswered.registry.of_same hsame, ?_, fun y hy => ?_⟩, fun g hg => ?_⟩
  · have hfinish := tmgiEffect_finishEvent (w := v) n held
    rw [hfinish.mbsSessions, heffect.mbsSessions]
    exact hw.sessions
  · rw [hxacts] at hy
    exact hw.requests y (List.mem_filter.1 hy).1
  · rw [finishEvent_log, granted_of_tmgiEffect heffect] at hg
    have hhandled : Granted g (.answered x rsp :: w.log) := by
      rcases hg with hnone | ⟨-, hg⟩
      · cases hnone
      · exact hg
    rw [hregistered, hxacts]
    exact accounted_answered hw.registry hs hkept hgrants hx htmgi hservice hhandled

theorem kept_of_response (hw : Managed w) (hs : XactsSound w) (hc : Counted (fun _ => 0) w)
    (hkept : GrantsKept w (.network (.response n rsp))) (hgrants : NoGrantLeaked w)
    (h : processResponse w n rsp = .ok w') : Managed w' ∧ NoGrantLeaked w' := by
  unfold processResponse at h
  cases hsent : w.findSent n with
  | none =>
      rw [hsent] at h
      exact Except.ok.inj h ▸ ⟨hw, hgrants⟩
  | some x =>
      have hfind : (w.say (.answered x rsp)).findXact n = w.findXact n := rfl
      simp only [hsent, hfind] at h
      cases hx : w.findXact n with
      | none =>
          simp only [hx] at h
          refine Except.ok.inj h ▸ kept_of_unhandled hw hkept hgrants hsent fun y hy => ?_
          rw [hx] at hy
          cases hy
      | some y =>
          obtain rfl : y = x := Option.some.inj ((findSent_of_findXact hs hx).symm.trans hsent)
          obtain ⟨hmem, hid⟩ := findXact_eq_some hx
          have hsession : contextSbiObjectToSession (w.say (.answered y rsp)) y.sbiObject = none :=
            find_session_eq_none hw y.sbiObject
          simp only [hx, hsession, true_and] at h
          cases htmgi : contextSbiObjectToTmgi w y.sbiObject with
          | none =>
              have hnone : contextSbiObjectToTmgi (w.say (.answered y rsp)) y.sbiObject = none :=
                htmgi
              rw [if_pos hnone] at h
              refine Except.ok.inj h ▸ kept_of_unhandled hw hkept hgrants hsent fun z hz => ?_
              obtain rfl := Option.some.inj (hx.symm.trans hz)
              exact ⟨find_session_eq_none hw _, htmgi⟩
          | some t =>
              have hsome : contextSbiObjectToTmgi (w.say (.answered y rsp)) y.sbiObject = some t :=
                htmgi
              have hservice := hw.requests y hmem
              simp only [hsome, reduceCtorEq, if_false, hservice, if_true, bind_eq_ok] at h
              obtain ⟨v, hv, h⟩ := h
              have hstate : (w.say (.answered y rsp)).say (.handled n none (some t)) =
                  handlingState w y rsp := by
                rw [handlingState, hid, htmgi, find_session_eq_none hw]
              rw [hstate] at hv h
              exact Except.ok.inj h ▸ kept_of_handled hw hs hc hkept hgrants hx htmgi hv

/-! ## Every run -/

theorem kept_of_step (hw : Managed w) (hs : XactsSound w) (hc : Counted (fun _ => 0) w)
    (hkept : GrantsKept w e) (hgrants : NoGrantLeaked w) (h : step w e = .ok w') :
    Managed w' ∧ NoGrantLeaked w' := by
  cases e with
  | tmgi call => exact kept_of_call hw hc hkept hgrants h
  | subscription call => exact hkept.manages.elim
  | session call => exact hkept.manages.elim
  | network event =>
      cases event with
      | discovery n found => exact Except.ok.inj h ▸ kept_of_discovery hw hs hkept hgrants
      | response n rsp => exact kept_of_response hw hs hc hkept hgrants h
      | timeout n => exact kept_of_timeout hw hgrants h

theorem managed_of_run (h : Run GrantsKept w) : Managed w ∧ NoGrantLeaked w := by
  refine h.invariant (fun w => Managed w ∧ NoGrantLeaked w) ⟨⟨⟨List.nodup_nil, ?_, ?_⟩, rfl, ?_⟩, ?_⟩ ?_
  · exact fun t ht => absurd ht List.not_mem_nil
  · exact fun t x hx => by cases hx
  · exact fun x hx => absurd hx List.not_mem_nil
  · exact fun g hg => hg.elim
  · intro w e w' hrun ⟨hw, hgrants⟩ hkept hstep
    have hc : Counted (fun _ => 0) w := invariant_of_run (careful_of_reachable hrun.reachable)
    exact kept_of_step hw (sound_of_run hrun).xacts hc hkept hgrants hstep

/-- In a run whose steps keep the grants no TMGI that was granted is leaked. -/
theorem grants_accounted (h : Run GrantsKept w) : NoGrantLeaked w := (managed_of_run h).2

/-! ## A TMGI that is freed -/

/-- The MB-SMF grants the TMGI that was asked for. -/
def grantEvent : Event :=
  .network (.response 3
    { status := 200, resStatus := 200,
      tmgiAllocated := some
        { tmgiList := [some ⟨some "000001", "001", "01", 1, 1⟩], expiryTime := 1000 } })

def freedRun : List Event := [.tmgi (.create none), grantEvent, .tmgi (.free 1)]

def freedState (k : ℕ) : World := (freedRun.take k).foldl (advance step) World.initial

/-- The object is forgotten, and nobody has told the MB-SMF. -/
theorem freed_tmgi_is_leaked : ¬∀ w, Run (fun _ e => ManagesTmgis e) w → NoGrantLeaked w := by
  intro hall
  have hrun : Run (fun _ e => ManagesTmgis e) (freedState 3) :=
    Reach.of_goodFrom freedRun .init ⟨trivial, trivial, trivial, trivial⟩
  have hgranted : Granted (some "000001", "001", "01") (freedState 3).log := by decide +kernel
  rcases hall _ hrun _ hgranted with hmem | ⟨x, hx, -⟩
  · have hnone : registered (freedState 3) = [] := by decide +kernel
    rw [hnone] at hmem
    cases hmem
  · have hnone : (freedState 3).xacts = [] := rfl
    rw [hnone] at hx
    cases hx

/-! ## A TMGI that is freed while its deallocation is on the way -/

/-- Two TMGIs are allocated together, so that the SBI object outlives the first of them. -/
def returnedRun : List Event :=
  [.tmgi .new, .tmgi .new, .tmgi .sendAllocateAll,
   .network (.response 4
     { status := 200, resStatus := 200,
       tmgiAllocated := some
         { tmgiList := [some ⟨some "000001", "001", "01", 1, 1⟩,
             some ⟨some "000002", "001", "01", 1, 1⟩],
           expiryTime := 1000 } }),
   .tmgi (.sendDeallocate 1), .tmgi (.free 1)]

def returnedState (k : ℕ) : World := (returnedRun.take k).foldl (advance step) World.initial

theorem GrantsKept.of_call {call : TmgiCall} (hmanages : ManagesTmgis (.tmgi call))
    (hfreed : ∀ t, call = .free t → t ∈ w.tmgis)
    (htaken : ∀ g, Takes w call g → Elsewhere w (fun q => call = .free q) (EndedBy w call) g) :
    GrantsKept w (.tmgi call) := by
  refine ⟨hmanages, fun t he => ?_, fun _ g he _ htakes => ?_, fun _ _ _ he => ?_,
    fun _ _ _ _ _ he => ?_, fun _ _ _ he => ?_, fun _ _ _ he => ?_⟩
  · cases he
    exact hfreed t rfl
  · cases he
    exact htaken g htakes
  all_goals cases he

/-- Nothing is outstanding, and nothing is freed. -/
theorem GrantsKept.of_idle {call : TmgiCall} (hmanages : ManagesTmgis (.tmgi call))
    (hxacts : w.xacts = []) (hfree : ∀ t, call ≠ .free t) : GrantsKept w (.tmgi call) := by
  refine .of_call hmanages (fun t hcall => absurd hcall (hfree t)) fun g htakes => ?_
  rcases htakes with ⟨t, hcall, -⟩ | ⟨x, hx, -⟩
  · exact absurd hcall (hfree t)
  · rw [hxacts] at hx
    cases hx

theorem GrantsKept.of_allocation (hx : w.findXact n = some x) (hsent : w.findSent n = some x)
    (hallocate : isAllocate x.request = true) (hcodes : ∀ api ∈ reachedTmgis rsp, CodesKept api)
    (hplaced : Placed w n rsp x) : GrantsKept w (.network (.response n rsp)) := by
  refine ⟨trivial, fun _ he => ?_, fun _ _ he => ?_, fun _ _ _ he => ?_,
    fun _ _ y _ _ he hy _ hrequest => ?_, fun _ _ _ he _ _ _ => ?_, fun _ _ y he hy _ _ _ => ?_⟩
  · cases he
  · cases he
  · cases he
  · cases he
    obtain rfl := Option.some.inj (hx.symm.trans hy)
    rw [hrequest] at hallocate
    cases hallocate
  · cases he
    exact hcodes
  · cases he
    obtain rfl := Option.some.inj (hsent.symm.trans hy)
    exact hplaced

theorem returnedRun_kept : GoodFrom step GrantsKept World.initial returnedRun := by
  refine ⟨.of_idle trivial rfl nofun, .of_idle trivial rfl nofun, .of_idle trivial rfl nofun, ?_,
    .of_idle trivial rfl nofun, ?_, trivial⟩
  · refine .of_allocation (w := returnedState 3) rfl rfl rfl (fun api hapi => ?_)
      ⟨⟨rfl, by decide +kernel, rfl, rfl⟩, rfl, rfl, ?_⟩
    · rcases List.mem_cons.1 hapi with rfl | hapi
      · exact ⟨⟨by decide +kernel, by decide +kernel⟩, ⟨by decide +kernel, by decide +kernel⟩⟩
      · rw [List.mem_singleton.1 hapi]
        exact ⟨⟨by decide +kernel, by decide +kernel⟩, ⟨by decide +kernel, by decide +kernel⟩⟩
    · exact ⟨⟨none, by decide +kernel, rfl⟩, ⟨none, by decide +kernel, rfl⟩, trivial⟩
  · refine .of_call (w := returnedState 5) trivial (fun t hcall => ?_) fun g htakes => ?_
    · cases hcall
      decide +kernel
    have hidentity : identityAt (returnedState 5) 1 = some (some "000001", "001", "01") := by
      decide +kernel
    have hlasts : ∀ x ∈ (returnedState 5).xacts, ¬EndedBy (returnedState 5) (.free 1) x := by
      decide +kernel
    rcases htakes with ⟨t, hcall, hcarried⟩ | ⟨x, hx, hended, -⟩
    · cases hcall
      obtain rfl := Option.some.inj (hidentity.symm.trans hcarried)
      exact .inr ⟨_, List.mem_cons_self, hlasts _ List.mem_cons_self, by decide +kernel⟩
    · exact absurd hended (hlasts x hx)

/-- The TMGI has no object any more, and the deallocation still names it. -/
theorem freed_tmgi_is_returned : NoGrantLeaked (returnedState 6) ∧
    Granted (some "000001", "001", "01") (returnedState 6).log ∧
    registered (returnedState 6) = [some (some "000002", "001", "01")] :=
  ⟨grants_accounted (Reach.of_goodFrom returnedRun .init returnedRun_kept), by decide +kernel,
    by decide +kernel⟩

end ServiceConsumers.GrantedTmgis
