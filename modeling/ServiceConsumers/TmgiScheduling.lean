import ServiceConsumers.SbiBalance
import ServiceConsumers.TmgiSteps

set_option autoImplicit false

/-!
# Requests for new TMGIs and for longer ones (`tmgi.c`)
-/

namespace ServiceConsumers.TmgiScheduling

open ObjectStore PublicSessions ConsumerState TmgiOperations TransitionRuns TransactionLog
  SbiReferences TmgiContents TmgiSteps

/-- The functions that send `TmgiAllocate` requests. -/
inductive SendCall where
  | allocate (t : Ref)
  | allocateAll
  | refresh (t : Ref)
  | refreshAll (now : ℤ)
  | allocateAndRefreshAll (now : ℤ)

def SendCall.send (w : World) : SendCall → Except Fault World
  | .allocate t => tmgiSendAllocate w t
  | .allocateAll => tmgiSendAllocateAll w
  | .refresh t => tmgiSendRefresh w t
  | .refreshAll now => tmgiSendRefreshAll w now
  | .allocateAndRefreshAll now => tmgiSendAllocateAndRefreshAll w now

/-- The TMGIs that a call is about: the one it is given, or those of the registry that were
never allocated, or whose time is over, or both. -/
def SendCall.selected (w : World) : SendCall → List Ref
  | .allocate t | .refresh t => [t]
  | .allocateAll => registeredWhere w fun x => !x.allocated
  | .refreshAll now => registeredWhere w fun x => x.allocated && isExpired now x
  | .allocateAndRefreshAll now => registeredWhere w fun x => !x.allocated || isExpired now x

def isAllocated (w : World) (t : Ref) : Bool := (w.tmgiStore t).any PrivTmgi.allocated

/-- One request was sent: it asks for as many TMGIs as were not allocated and lists the others,
on an SBI object that is still held. -/
def SentFor (w w' : World) (ts : List Ref) : Prop :=
  ∃ x contents, sentOf w'.log = sentOf w.log ++ [x] ∧ w'.sbiObjects x.sbiObject ≠ 0 ∧
    tmgiContents w (ts.filter (isAllocated w)) = .ok contents ∧
    x.request = .tmgiAllocate (ts.filter fun t => !isAllocated w t).length contents

/-- A call sends the request for the TMGIs that it selects, and none when it selects none. -/
def Schedules (w : World) (c : SendCall) : Prop :=
  ∃ w', c.send w = .ok w' ∧
    if c.selected w = [] then sentOf w'.log = sentOf w.log else SentFor w w' (c.selected w)

/-- A TMGI with an SBI object that is still held. -/
def HoldsSbiObject (w : World) (t : Ref) : Prop :=
  ∃ x o, w.tmgiStore t = some x ∧ x.sbiObject = some o ∧ w.sbiObjects o ≠ 0

/-- The calls that may ask for new TMGIs have one to ask for, and the others have one to
refresh, the first of which has an SBI object. -/
def Schedulable (w : World) : SendCall → Prop
  | .allocate t => ∃ x, w.tmgiStore t = some x ∧ x.allocated = false
  | .refresh t => (∃ x, w.tmgiStore t = some x ∧ x.allocated = true) ∧ HoldsSbiObject w t
  | .allocateAll | .allocateAndRefreshAll _ =>
      ∃ t ∈ w.tmgis, ∃ x, w.tmgiStore t = some x ∧ x.allocated = false
  | .refreshAll now => ∃ t,
      (registeredWhere w fun x => x.allocated && isExpired now x).head? = some t ∧
        HoldsSbiObject w t

/-- The SBI objects of the TMGIs have been made. -/
def SbiObjectsMade (w : World) : Prop :=
  ∀ t x o, w.tmgiStore t = some x → x.sbiObject = some o → o < w.next

variable {w w' v : World} {t : Ref} {ts : List Ref} {o : Ref} {c : SendCall}

/-- They are made as long as the references are counted right. -/
theorem sbiObjectsMade_of_counted (h : Counted (fun _ => 0) w) : SbiObjectsMade w := by
  intro t x o hx ho
  have hlt := h.lt_of_tmgi_holds hx ho
  refine h.lt_of_object fun hzero => ?_
  rw [hzero] at hlt
  exact absurd hlt (lt_irrefl _)

/-! ## Contents -/

theorem tmgiContents_cons {contents : List Tmgi} :
    tmgiContents w (t :: ts) = .ok contents ↔ ∃ x rest, w.tmgiStore t = some x ∧
      tmgiContents w ts = .ok rest ∧ contents = x.tmgi :: rest := by
  simp only [tmgiContents, List.mapM_cons, bind_eq_ok, World.tmgiAt_eq_ok, Except.ok.injEq, pure,
    Except.pure]
  constructor
  · rintro ⟨_, ⟨x, hx, rfl⟩, rest, hrest, rfl⟩
    exact ⟨x, rest, hx, hrest, rfl⟩
  · rintro ⟨x, rest, hx, hrest, rfl⟩
    exact ⟨_, ⟨x, hx, rfl⟩, rest, hrest, rfl⟩

theorem exists_tmgiContents (hlive : ∀ t ∈ ts, (w.tmgiStore t).isSome = true) :
    ∃ contents, tmgiContents w ts = .ok contents := by
  induction ts with
  | nil => exact ⟨[], rfl⟩
  | cons t ts ih =>
      obtain ⟨x, hx⟩ := Option.isSome_iff_exists.1 (hlive t List.mem_cons_self)
      obtain ⟨rest, hrest⟩ := ih fun q hq => hlive q (List.mem_cons_of_mem t hq)
      exact ⟨_, tmgiContents_cons.2 ⟨x, rest, hx, hrest, rfl⟩⟩

theorem tmgiContents_of_same (h : SameTmgis w v) {contents : List Tmgi}
    (hc : tmgiContents w ts = .ok contents) : tmgiContents v ts = .ok contents := by
  induction ts generalizing contents with
  | nil => exact hc
  | cons t ts ih =>
      obtain ⟨x, rest, hx, hrest, rfl⟩ := tmgiContents_cons.1 hc
      obtain ⟨y, hy, heq⟩ := h.forth hx
      have hcontent : (withoutSbi y).tmgi = (withoutSbi x).tmgi := by rw [heq]
      exact tmgiContents_cons.2 ⟨y, rest, hy, ih hrest, by rw [show y.tmgi = x.tmgi from hcontent]⟩

/-! ## Sharing a new SBI object -/

theorem sentOf_unref (w : World) (o : Option Ref) :
    sentOf (w.refCountSbiObjectUnref o).log = sentOf w.log := by
  have hdropped : ∀ xs : List Xact, sentOf (xs.map .dropped) = [] := by
    intro xs
    simp [sentOf, List.filterMap_map, Function.comp_def, sentXact]
  cases o with
  | none => rfl
  | some o =>
      simp only [World.refCountSbiObjectUnref]
      split_ifs
      · change sentOf (_ ++ w.log) = _
        rw [sentOf_append, hdropped, List.append_nil]
      · rfl

theorem sentOf_ref (w : World) (o : Option Ref) :
    sentOf (w.refCountSbiObjectRef o).log = sentOf w.log := by
  cases o <;> rfl

theorem sentOf_cons_sent (x : Xact) (log : List Observation) :
    sentOf (.sent x :: log) = sentOf log ++ [x] := sentOf_append [.sent x] log

/-- While the TMGIs of a list take the object `o`, it is held besides. -/
structure Sharing (o : Ref) (w v : World) : Prop where
  same : SameTmgis w v
  sent : sentOf v.log = sentOf w.log
  held : 1 ≤ v.sbiObjects o
  shared : ∀ t x, v.tmgiStore t = some x → x.sbiObject = some o → 2 ≤ v.sbiObjects o

theorem unref_count {x : Option Ref} (hpos : 1 ≤ w.sbiObjects o)
    (hshared : x = some o → 2 ≤ w.sbiObjects o) :
    1 ≤ (w.refCountSbiObjectUnref x).sbiObjects o := by
  have hcount : ∀ q, (w.refCountSbiObjectUnref (some q)).sbiObjects =
      Function.update w.sbiObjects q (w.sbiObjects q - 1) := by
    intro q
    simp only [World.refCountSbiObjectUnref]
    split_ifs <;> rfl
  cases x with
  | none => exact hpos
  | some q =>
      rw [hcount]
      by_cases hq : q = o
      · subst hq
        have := hshared rfl
        rw [Function.update_self]
        omega
      · rwa [Function.update_of_ne (Ne.symm hq)]

theorem sharing_step {x : PrivTmgi} (h : Sharing o w v) (hx : v.tmgiStore t = some x) :
    ∃ v', shareSbiObject o v t = .ok v' ∧ Sharing o w v' ∧ 2 ≤ v'.sbiObjects o := by
  have hat : v.tmgiAt t = .ok x := World.tmgiAt_eq_ok.2 hx
  have hshare : shareSbiObject o v t = .ok
      (((v.refCountSbiObjectUnref x.sbiObject).refCountSbiObjectRef (some o)).modifyTmgi t
        fun x => { x with sbiObject := some o }) := by
    rw [shareSbiObject, hat]
    rfl
  have hcount := unref_count h.held fun hxo => h.shared t x hx hxo
  have htwo :
      2 ≤ ((v.refCountSbiObjectUnref x.sbiObject).refCountSbiObjectRef (some o)).sbiObjects o := by
    simp only [World.refCountSbiObjectRef, Function.update_self]
    omega
  refine ⟨_, hshare, ⟨h.same.trans (SameTmgis.shareSbiObject hshare), ?_, ?_, ?_⟩, htwo⟩
  · change sentOf ((v.refCountSbiObjectUnref x.sbiObject).refCountSbiObjectRef (some o)).log = _
    rw [sentOf_ref, sentOf_unref, h.sent]
  · exact Nat.le_of_succ_le htwo
  · exact fun _ _ _ _ => htwo

theorem sharing_foldlM (hlive : ∀ t ∈ ts, (w.tmgiStore t).isSome = true) (h : Sharing o w v) :
    ∃ v', ts.foldlM (shareSbiObject o) v = .ok v' ∧ Sharing o w v' ∧
      (ts ≠ [] → 2 ≤ v'.sbiObjects o) := by
  induction ts generalizing v with
  | nil => exact ⟨v, rfl, h, fun hne => absurd rfl hne⟩
  | cons t ts ih =>
      have ht : (v.tmgiStore t).isSome = true := by
        rw [h.same.isSome t]
        exact hlive t List.mem_cons_self
      obtain ⟨x, hx⟩ := Option.isSome_iff_exists.1 ht
      obtain ⟨v₁, hv₁, hsharing, htwo⟩ := sharing_step h hx
      obtain ⟨v', hv', hsharing', hrest⟩ :=
        ih (fun q hq => hlive q (List.mem_cons_of_mem t hq)) hsharing
      refine ⟨v', ?_, hsharing', fun _ => ?_⟩
      · rw [List.foldlM_cons, hv₁]
        exact hv'
      · by_cases hts : ts = []
        · subst hts
          cases hv'
          exact htwo
        · exact hrest hts

/-! ## The two kinds of requests -/

/-- What a request that is built leaves behind. -/
theorem exists_sbiXactAdd (o : Ref) (requester : Requester) {build : Except Fault Request}
    {request : Request} (hbuild : build = .ok request) :
    ∃ w' x, w.sbiXactAdd (some o) requester build = .ok w' ∧
      sentOf w'.log = sentOf w.log ++ [x] ∧ w'.sbiObjects = w.sbiObjects ∧
      x.sbiObject = o ∧ x.request = request :=
  ⟨_, ⟨w.next, o, requester, request⟩, sbiXactAdd_eq_ok.2 ⟨o, request, rfl, hbuild, rfl⟩,
    sentOf_cons_sent _ _, rfl, rfl, rfl⟩

/-- A request for new TMGIs goes out on a new SBI object, which they share. -/
theorem sendNew (hmade : SbiObjectsMade w) (hts : ts ≠ [])
    (hlive : ∀ t ∈ ts, (w.tmgiStore t).isSome = true) (refresh : Option (List Ref))
    (hrefresh : ∀ t ∈ refresh.getD [], (w.tmgiStore t).isSome = true) :
    ∃ w' x contents, tmgiListSendAllocate w (some ts) refresh = .ok w' ∧
      sentOf w'.log = sentOf w.log ++ [x] ∧ w'.sbiObjects x.sbiObject ≠ 0 ∧
      tmgiContents w (refresh.getD []) = .ok contents ∧
      x.request = .tmgiAllocate ts.length contents := by
  obtain ⟨contents, hcontents⟩ := exists_tmgiContents hrefresh
  have hnew : Sharing w.next w w.refCountSbiObjectNew.1 := by
    refine ⟨SameTmgis.of_eq rfl rfl (Nat.le_succ _) rfl, rfl, ?_, fun t x hx hxo => ?_⟩
    · simp [World.refCountSbiObjectNew]
    · exact absurd (hmade t x w.next hx hxo) (lt_irrefl _)
  obtain ⟨v, hv, hsharing, htwo⟩ := sharing_foldlM hlive hnew
  have hheld := unref_count (x := some w.next) hsharing.held fun _ => htwo hts
  have hbuild : nmbsmfTmgiBuildCreate (v.refCountSbiObjectUnref (some w.next)) ts
      (refresh.getD []) = .ok (.tmgiAllocate ts.length contents) := by
    have hc := tmgiContents_of_same
      (hsharing.same.trans (SameTmgis.refCountSbiObjectUnref (some w.next))) hcontents
    rw [nmbsmfTmgiBuildCreate, hc]
    rfl
  obtain ⟨w', x, hsend, hsent, hcounts, hobject, hrequest⟩ :=
    exists_sbiXactAdd w.next (.tmgis (ts ++ refresh.getD [])) hbuild
  refine ⟨w', x, contents, ?_, ?_, ?_, hcontents, hrequest⟩
  · simp only [tmgiListSendAllocate]
    refine bind_eq_ok.2 ⟨v, hv, ?_⟩
    rw [if_neg hts]
    exact hsend
  · rw [hsent, sentOf_unref, hsharing.sent]
  · rw [hcounts, hobject]
    exact Nat.one_le_iff_ne_zero.1 hheld

/-- A request for longer TMGIs goes out on the SBI object of the first. -/
theorem sendRefresh (hlive : ∀ q ∈ t :: ts, (w.tmgiStore q).isSome = true)
    (hholds : HoldsSbiObject w t) :
    ∃ w' x contents, tmgiListSendAllocate w none (some (t :: ts)) = .ok w' ∧
      sentOf w'.log = sentOf w.log ++ [x] ∧ w'.sbiObjects x.sbiObject ≠ 0 ∧
      tmgiContents w (t :: ts) = .ok contents ∧ x.request = .tmgiAllocate 0 contents := by
  obtain ⟨y, o, hy, ho, hheld⟩ := hholds
  obtain ⟨contents, hcontents⟩ := exists_tmgiContents hlive
  have hbuild : nmbsmfTmgiBuildCreate w [] (t :: ts) = .ok (.tmgiAllocate 0 contents) := by
    rw [nmbsmfTmgiBuildCreate, hcontents]
    rfl
  obtain ⟨w', x, hsend, hsent, hcounts, hobject, hrequest⟩ :=
    exists_sbiXactAdd o (.tmgis (t :: ts)) hbuild
  refine ⟨w', x, contents, ?_, hsent, ?_, hcontents, hrequest⟩
  · simp only [tmgiListSendAllocate]
    refine bind_eq_ok.2 ⟨y, World.tmgiAt_eq_ok.2 hy, ?_⟩
    rw [ho]
    exact hsend
  · rw [hcounts, hobject]
    exact hheld

/-- When it was sent on an object that is held, the first TMGI holds that object. -/
theorem holds_of_sendRefresh (h : tmgiListSendAllocate w none (some (t :: ts)) = .ok w')
    {x : Xact} (hsent : sentOf w'.log = sentOf w.log ++ [x])
    (hheld : w'.sbiObjects x.sbiObject ≠ 0) : HoldsSbiObject w t := by
  simp only [tmgiListSendAllocate, bind_eq_ok, World.tmgiAt_eq_ok] at h
  obtain ⟨y, hy, h⟩ := h
  obtain ⟨o, request, ho, -, rfl⟩ := sbiXactAdd_eq_ok.1 h
  rw [sentOf_cons_sent] at hsent
  obtain rfl := List.singleton_inj.1 (List.append_cancel_left hsent)
  exact ⟨y, o, hy, ho, hheld⟩

/-- Nothing is sent, and nothing is returned, for an empty list of new TMGIs. -/
theorem not_send_nil {refresh : Option (List Ref)} :
    tmgiListSendAllocate w (some []) refresh ≠ .ok w' := by
  intro h
  simp only [tmgiListSendAllocate, bind_eq_ok] at h
  obtain ⟨v, -, h⟩ := h
  cases h

/-! ## Selections -/

theorem live_of_registeredWhere {p : PrivTmgi → Bool} (h : t ∈ registeredWhere w p) :
    (w.tmgiStore t).isSome = true := by
  have hany := (List.mem_filter.1 h).2
  cases hx : w.tmgiStore t with
  | none => simp [hx] at hany
  | some x => rfl

theorem registeredWhere_allocated (p : PrivTmgi → Bool) :
    (registeredWhere w p).filter (isAllocated w) =
      registeredWhere w fun x => x.allocated && p x := by
  rw [registeredWhere, List.filter_filter]
  refine List.filter_congr fun t _ => ?_
  cases hx : w.tmgiStore t <;> simp [isAllocated, hx]

theorem registeredWhere_unallocated (p : PrivTmgi → Bool) :
    (registeredWhere w p).filter (fun t => !isAllocated w t) =
      registeredWhere w fun x => !x.allocated && p x := by
  rw [registeredWhere, List.filter_filter]
  refine List.filter_congr fun t _ => ?_
  cases hx : w.tmgiStore t <;> simp [isAllocated, hx]

theorem registeredWhere_unallocated_ne_nil :
    registeredWhere w (fun x => !x.allocated) ≠ [] ↔
      ∃ t ∈ w.tmgis, ∃ x, w.tmgiStore t = some x ∧ x.allocated = false := by
  rw [registeredWhere, Ne, List.filter_eq_nil_iff]
  push Not
  refine exists_congr fun t => and_congr_right fun _ => ?_
  cases hx : w.tmgiStore t <;> simp

theorem registeredWhere_congr {p q : PrivTmgi → Bool} (h : ∀ x, p x = q x) :
    registeredWhere w p = registeredWhere w q := by
  rw [funext h]

theorem registeredWhere_false : (registeredWhere w fun _ => false) = [] := by
  rw [registeredWhere, List.filter_eq_nil_iff]
  intro t _
  cases w.tmgiStore t <;> simp

/-- The TMGIs that were never allocated, and those that are to be refreshed, apart. -/
theorem unallocated_apart :
    ((registeredWhere w fun x => !x.allocated).filter fun t => !isAllocated w t) =
        registeredWhere w (fun x => !x.allocated) ∧
      (registeredWhere w fun x => !x.allocated).filter (isAllocated w) = [] := by
  rw [registeredWhere_unallocated, registeredWhere_allocated]
  refine ⟨registeredWhere_congr fun x => Bool.and_self _, ?_⟩
  rw [registeredWhere_congr fun x => Bool.and_not_self _]
  exact registeredWhere_false

theorem expired_apart (now : ℤ) :
    ((registeredWhere w fun x => x.allocated && isExpired now x).filter
        fun t => !isAllocated w t) = [] ∧
      (registeredWhere w fun x => x.allocated && isExpired now x).filter (isAllocated w) =
        registeredWhere w (fun x => x.allocated && isExpired now x) := by
  rw [registeredWhere_unallocated, registeredWhere_allocated]
  constructor
  · rw [registeredWhere_congr (q := fun _ => false) fun x => by cases x.allocated <;> rfl]
    exact registeredWhere_false
  · exact registeredWhere_congr fun x => by cases x.allocated <;> rfl

theorem both_apart (now : ℤ) :
    ((registeredWhere w fun x => !x.allocated || isExpired now x).filter
        fun t => !isAllocated w t) = registeredWhere w (fun x => !x.allocated) ∧
      (registeredWhere w fun x => !x.allocated || isExpired now x).filter (isAllocated w) =
        registeredWhere w (fun x => x.allocated && isExpired now x) := by
  rw [registeredWhere_unallocated, registeredWhere_allocated]
  exact ⟨registeredWhere_congr fun x => by cases x.allocated <;> rfl,
    registeredWhere_congr fun x => by cases x.allocated <;> rfl⟩

/-! ## Scheduling -/

/-- A call that is about some TMGIs is right exactly when it sends what they need. -/
theorem schedules_of_send {n : ℕ} {contents : List Tmgi} {x : Xact} (hsend : c.send w = .ok w')
    (hsent : sentOf w'.log = sentOf w.log ++ [x]) (hheld : w'.sbiObjects x.sbiObject ≠ 0)
    (hrequest : x.request = .tmgiAllocate n contents) (hne : c.selected w ≠ []) :
    Schedules w c ↔ ((c.selected w).filter fun t => !isAllocated w t).length = n ∧
      tmgiContents w ((c.selected w).filter (isAllocated w)) = .ok contents := by
  constructor
  · rintro ⟨w'', h, hright⟩
    rw [hsend] at h
    cases h
    rw [if_neg hne] at hright
    obtain ⟨y, contents', hsent', -, hcontents, hrequest'⟩ := hright
    rw [hsent] at hsent'
    obtain rfl := List.singleton_inj.1 (List.append_cancel_left hsent')
    rw [hrequest] at hrequest'
    cases hrequest'
    exact ⟨rfl, hcontents⟩
  · rintro ⟨rfl, hcontents⟩
    refine ⟨w', hsend, ?_⟩
    rw [if_neg hne]
    exact ⟨x, contents, hsent, hheld, hcontents, hrequest⟩

theorem not_schedules_of_fault (h : ∀ w', c.send w ≠ .ok w') : ¬ Schedules w c := by
  rintro ⟨w', hsend, -⟩
  exact h w' hsend

theorem allocate_iff (hmade : SbiObjectsMade w) (t : Ref) :
    Schedules w (.allocate t) ↔ Schedulable w (.allocate t) := by
  cases hx : w.tmgiStore t with
  | none =>
      have hfault : ∀ w', SendCall.send w (.allocate t) ≠ .ok w' := by
        intro w' h
        simp only [SendCall.send, tmgiSendAllocate, tmgiListSendAllocate, List.foldlM_cons,
          shareSbiObject, bind_eq_ok, World.tmgiAt_eq_ok] at h
        obtain ⟨v, ⟨v', ⟨y, hy, -⟩, -⟩, -⟩ := h
        rw [show w.refCountSbiObjectNew.1.tmgiStore t = w.tmgiStore t from rfl, hx] at hy
        cases hy
      exact iff_of_false (not_schedules_of_fault hfault) (by simp [Schedulable, hx])
  | some x =>
      have hlive : ∀ q ∈ [t], (w.tmgiStore q).isSome = true := by simp [hx]
      obtain ⟨w', y, contents, hsend, hsent, hheld, hcontents, hrequest⟩ :=
        sendNew hmade (List.cons_ne_nil t []) hlive none (by simp)
      cases hcontents
      rw [schedules_of_send (c := .allocate t) hsend hsent hheld hrequest (List.cons_ne_nil t [])]
      cases hallocated : x.allocated <;>
        simp [SendCall.selected, isAllocated, Schedulable, hx, hallocated, tmgiContents, pure,
          Except.pure]

/-- A call for a refresh is right exactly when the first of its TMGIs has an SBI object, and
all of them are allocated. -/
theorem schedules_refresh_iff (hselected : c.selected w = t :: ts)
    (hsend : c.send w = tmgiListSendAllocate w none (some (t :: ts)))
    (hlive : ∀ q ∈ t :: ts, (w.tmgiStore q).isSome = true) :
    Schedules w c ↔ HoldsSbiObject w t ∧
      ((t :: ts).filter fun q => !isAllocated w q) = [] := by
  have hne : c.selected w ≠ [] := by
    rw [hselected]
    exact List.cons_ne_nil t ts
  constructor
  · intro h
    have hholds : HoldsSbiObject w t := by
      obtain ⟨w', hok, hright⟩ := h
      rw [if_neg hne] at hright
      obtain ⟨x, -, hsent, hheld, -, -⟩ := hright
      exact holds_of_sendRefresh (hsend.symm.trans hok) hsent hheld
    obtain ⟨w', x, contents, hok, hsent, hheld, -, hrequest⟩ := sendRefresh hlive hholds
    have hcount := ((schedules_of_send (hsend.trans hok) hsent hheld hrequest hne).1 h).1
    rw [hselected] at hcount
    exact ⟨hholds, List.eq_nil_of_length_eq_zero hcount⟩
  · rintro ⟨hholds, hnone⟩
    obtain ⟨w', x, contents, hok, hsent, hheld, hcontents, hrequest⟩ := sendRefresh hlive hholds
    refine (schedules_of_send (hsend.trans hok) hsent hheld hrequest hne).2 ?_
    have hall : (t :: ts).filter (isAllocated w) = t :: ts := by
      refine List.filter_eq_self.2 fun q hq => ?_
      have hq' := List.filter_eq_nil_iff.1 hnone q hq
      simpa using hq'
    rw [hselected, hall, hnone]
    exact ⟨rfl, hcontents⟩

theorem refresh_iff (t : Ref) : Schedules w (.refresh t) ↔ Schedulable w (.refresh t) := by
  cases hx : w.tmgiStore t with
  | none =>
      have hfault : ∀ w', SendCall.send w (.refresh t) ≠ .ok w' := by
        intro w' h
        simp only [SendCall.send, tmgiSendRefresh, tmgiListSendAllocate, bind_eq_ok,
          World.tmgiAt_eq_ok, hx] at h
        obtain ⟨y, hy, -⟩ := h
        cases hy
      exact iff_of_false (not_schedules_of_fault hfault) (by simp [Schedulable, hx])
  | some x =>
      rw [schedules_refresh_iff (c := .refresh t) rfl rfl (by simp [hx]), and_comm]
      refine and_congr_left fun _ => ?_
      cases hallocated : x.allocated <;> simp [isAllocated, hx, hallocated]

theorem refreshAll_iff (now : ℤ) :
    Schedules w (.refreshAll now) ↔ Schedulable w (.refreshAll now) := by
  change _ ↔ ∃ t, (SendCall.selected w (.refreshAll now)).head? = some t ∧ HoldsSbiObject w t
  cases hselected : SendCall.selected w (.refreshAll now) with
  | nil =>
      have hfault : ∀ w', SendCall.send w (.refreshAll now) ≠ .ok w' := by
        intro w' h
        have hnil : tmgiListSendAllocate w none (some []) = .ok w' := hselected ▸ h
        cases hnil
      exact iff_of_false (not_schedules_of_fault hfault) (by simp)
  | cons t ts =>
      have hapart := (expired_apart (w := w) now).1
      rw [show (registeredWhere w fun x => x.allocated && isExpired now x) = t :: ts
        from hselected] at hapart
      have hlive : ∀ q ∈ t :: ts, (w.tmgiStore q).isSome = true := by
        rw [← hselected]
        exact fun q hq => live_of_registeredWhere hq
      have hsend : SendCall.send w (.refreshAll now) =
          tmgiListSendAllocate w none (some (t :: ts)) := by
        rw [← hselected]
        rfl
      rw [schedules_refresh_iff hselected hsend hlive]
      simp [hapart]

/-- A call that may ask for new TMGIs is right exactly when there are some. -/
theorem schedules_new_iff (hmade : SbiObjectsMade w) {refresh : Option (List Ref)}
    (hsend : c.send w =
      tmgiListSendAllocate w (some (registeredWhere w fun x => !x.allocated)) refresh)
    (hnew : ((c.selected w).filter fun t => !isAllocated w t) =
      registeredWhere w fun x => !x.allocated)
    (hrefresh : (c.selected w).filter (isAllocated w) = refresh.getD [])
    (hlive : ∀ t ∈ c.selected w, (w.tmgiStore t).isSome = true) :
    Schedules w c ↔ ∃ t ∈ w.tmgis, ∃ x, w.tmgiStore t = some x ∧ x.allocated = false := by
  rw [← registeredWhere_unallocated_ne_nil]
  by_cases hnone : (registeredWhere w fun x => !x.allocated) = []
  · rw [hnone] at hsend
    refine iff_of_false (not_schedules_of_fault fun w' h => ?_) (not_not.2 hnone)
    exact not_send_nil (hsend.symm.trans h)
  · have hne : c.selected w ≠ [] := by
      intro hselected
      rw [hselected] at hnew
      exact hnone hnew.symm
    obtain ⟨w', x, contents, hok, hsent, hheld, hcontents, hrequest⟩ := sendNew hmade hnone
      (fun t ht => live_of_registeredWhere ht) refresh
      (fun t ht => hlive t (List.mem_of_mem_filter (hrefresh ▸ ht)))
    rw [schedules_of_send (hsend.trans hok) hsent hheld hrequest hne, hnew, hrefresh]
    exact iff_of_true ⟨rfl, hcontents⟩ hnone

/-- Requests for TMGIs are sent as they should be exactly when the call finds what it always
asks for. -/
theorem schedules_iff (w : World) (hmade : SbiObjectsMade w) (c : SendCall) :
    Schedules w c ↔ Schedulable w c := by
  cases c with
  | allocate t => exact allocate_iff hmade t
  | allocateAll =>
      obtain ⟨hnew, hnone⟩ := unallocated_apart (w := w)
      exact schedules_new_iff hmade rfl hnew hnone fun t ht => live_of_registeredWhere ht
  | refresh t => exact refresh_iff t
  | refreshAll now => exact refreshAll_iff now
  | allocateAndRefreshAll now =>
      obtain ⟨hnew, hrefresh⟩ := both_apart (w := w) now
      exact schedules_new_iff hmade rfl hnew hrefresh fun t ht => live_of_registeredWhere ht

/-- The registry of one TMGI, allocated or not. -/
def oneTmgi (allocated : Bool) : World :=
  { tmgis := [1]
    tmgiStore := Store.empty.set 1 { allocated := allocated, sbiObject := some 2 }
    sbiObjects := fun o => if o = 2 then 1 else 0
    next := 3 }

theorem schedules_unallocated : Schedules (oneTmgi false) .allocateAll := by
  refine (schedules_iff (oneTmgi false) (fun t x o hx ho => ?_) .allocateAll).2
    ⟨1, List.mem_singleton_self 1, _, rfl, rfl⟩
  by_cases ht : t = 1
  · subst ht
    cases hx
    cases ho
    decide
  · rw [show (oneTmgi false).tmgiStore t = none from Store.set_of_ne _ _ _ ht] at hx
    cases hx

/-- A TMGI that is allocated is not refreshed, another is asked for. -/
theorem not_schedules_allocated : ¬ Schedules (oneTmgi true) (.allocate 1) := by
  rintro ⟨w', hsend, x, contents, hsent, -, -, hrequest⟩
  cases hsend
  cases hsent
  cases hrequest

end ServiceConsumers.TmgiScheduling
