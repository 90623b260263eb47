import ServiceConsumers.SbiReferences
import ServiceConsumers.TmgiContents

set_option autoImplicit false

/-!
# The operations keep the balance of references
-/

namespace ServiceConsumers.SbiBalance

open ObjectStore KeyedTable PublicSessions ConsumerState TmgiOperations SubscriptionOperations
  SessionOperations ResponseHandlers ProcessEvent TransitionRuns TransactionLog TmgiEffects
  SessionEffects PushEffects AnswerEffects HolderCounts SbiReferences TmgiContents

variable {held : Ref → ℤ} {w w' v v' : World} {s t u : Ref}

/-! ## TMGIs -/

/-- What a TMGI, if there is one, gives up when it goes. -/
def tmgiShare (w : World) (t : Option Ref) : Ref → ℕ :=
  share (t.bind fun q => (w.tmgiStore q).bind PrivTmgi.sbiObject)

theorem tmgiShare_some {x : PrivTmgi} (hx : w.tmgiStore t = some x) :
    tmgiShare w (some t) = share x.sbiObject := by
  unfold tmgiShare
  rw [Option.bind_some, hx]
  rfl

theorem balanced_contextRemoveTmgi (hc : Counted held w) (h : contextRemoveTmgi w t = .ok w') :
    Balanced held (fun _ => 0) w w' := by
  unfold contextRemoveTmgi at h
  split at h
  · rw [Except.ok.injEq] at h
    subst h
    exact .of_eq hc rfl rfl rfl rfl (Nat.le_refl _)
  · cases h

theorem stays_tmgiFree {x : PrivTmgi} {o : Ref} (hx : w.tmgiStore t = some x)
    (hlast : x.sbiObject = some o → w.sbiObjects o ≠ 1) (h : tmgiFree w t = .ok w') :
    Stays o w w' := by
  obtain ⟨x', hx', -, rfl⟩ := tmgiFree_eq_ok.1 h
  obtain rfl := Option.some.inj (hx.symm.trans hx')
  have hstays : Stays o { w with tmgis := w.tmgis.erase t } _ := stays_refCountSbiObjectUnref hlast
  exact hstays

/-- The object that is freed counts itself. -/
theorem balanced_tmgiFree {x : PrivTmgi} (hc : Counted held w) (hx : w.tmgiStore t = some x)
    (hpos : ∀ o, x.sbiObject = some o → w.sbiObjects o ≠ 0)
    (hlast : ∀ o, 0 < held o → x.sbiObject = some o → w.sbiObjects o ≠ 1)
    (h : tmgiFree w t = .ok w') : Balanced held (share x.sbiObject) w w' := by
  have hstays : ∀ o, 0 < held o → Stays o w w' := fun o ho =>
    stays_tmgiFree hx (hlast o ho) h
  obtain ⟨x', hx', hmem, rfl⟩ := tmgiFree_eq_ok.1 h
  obtain rfl := Option.some.inj (hx.symm.trans hx')
  have hleft := balanced_contextRemoveTmgi hc (contextRemoveTmgi_eq_ok.2 ⟨hmem, rfl⟩)
  have hlive : (World.refCountSbiObjectUnref { w with tmgis := w.tmgis.erase t }
      x.sbiObject).tmgiStore t = some x := by
    rw [World.refCountSbiObjectUnref_tmgiStore]
    exact hx
  have hstore : w.tmgiStore.free t = (World.refCountSbiObjectUnref
      { w with tmgis := w.tmgis.erase t } x.sbiObject).tmgiStore.free t := by
    rw [World.refCountSbiObjectUnref_tmgiStore]
  rw [hstore] at hstays ⊢
  refine ⟨?_, ?_, hstays⟩
  · exact ((hleft.counted.unref hpos).freeTmgi hlive).of_held fun o => by omega
  · intro o ho
    exact givesUp_refCountSbiObjectUnref (w := { w with tmgis := w.tmgis.erase t })
      x.sbiObject o ho

section Held

variable (hheld : ∀ o, 0 ≤ held o)

include hheld

theorem tmgi_counts {x : PrivTmgi} (hc : Counted held w) (hx : w.tmgiStore t = some x) :
    (∀ o, x.sbiObject = some o → w.sbiObjects o ≠ 0) ∧
      ∀ o, 0 < held o → x.sbiObject = some o → w.sbiObjects o ≠ 1 := by
  refine ⟨fun o ho => ?_, fun o hpos ho => ?_⟩
  · have hlt := hc.lt_of_tmgi_holds hx ho
    have := hheld o
    omega
  · have hlt := hc.lt_of_tmgi_holds hx ho
    omega

theorem session_counts {x : MbsSession} (hc : Counted held w) (hx : w.sessionStore s = some x) :
    (∀ o, x.sbiObject = some o → w.sbiObjects o ≠ 0) ∧
      ∀ o, 0 < held o → x.sbiObject = some o → w.sbiObjects o ≠ 1 := by
  refine ⟨fun o ho => ?_, fun o hpos ho => ?_⟩
  · have hlt := hc.lt_of_session_holds hx ho
    have := hheld o
    omega
  · have hlt := hc.lt_of_session_holds hx ho
    omega

/-- The new reference is taken after the old one was dropped. -/
theorem balanced_tmgiReplaceSbiObject {x : PrivTmgi} {b : Option Ref} (hc : Counted held w)
    (hx : w.tmgiStore t = some x) (hb : ∀ o, b = some o → o < w.next)
    (h : tmgiReplaceSbiObject w t b = .ok w') : Balanced held (share x.sbiObject) w w' := by
  simp only [tmgiReplaceSbiObject, bind_eq_ok, World.tmgiAt_eq_ok, Except.ok.injEq] at h
  obtain ⟨x', hx', rfl⟩ := h
  obtain rfl := Option.some.inj (hx.symm.trans hx')
  obtain ⟨hpos, hlast⟩ := tmgi_counts hheld hc hx
  have hlt : ∀ o, b = some o → o < (w.refCountSbiObjectUnref x.sbiObject).next := by
    rw [World.refCountSbiObjectUnref_next]
    exact hb
  have hlive : ((w.refCountSbiObjectUnref x.sbiObject).refCountSbiObjectRef b).tmgiStore t =
      some x := by
    rw [World.refCountSbiObjectRef_tmgiStore, World.refCountSbiObjectUnref_tmgiStore]
    exact hx
  refine ⟨?_, ?_, ?_⟩
  · refine (((hc.unref hpos).ref hlt).modifyTmgi
      (f := fun x => { x with sbiObject := b }) hlive).of_held fun o => ?_
    dsimp only
    omega
  · have hdrop := (givesUp_refCountSbiObjectUnref (w := w) x.sbiObject).trans
      (givesUp_refCountSbiObjectRef b)
    intro o ho
    exact hdrop o ho
  · intro o ho
    exact (stays_refCountSbiObjectUnref fun ha => hlast o ho ha).trans
      (stays_refCountSbiObjectRef o b)

theorem balanced_tmgiFree_held {x : PrivTmgi} (hc : Counted held w)
    (hx : w.tmgiStore t = some x) (h : tmgiFree w t = .ok w') :
    Balanced held (share x.sbiObject) w w' :=
  balanced_tmgiFree hc hx (tmgi_counts hheld hc hx).1 (tmgi_counts hheld hc hx).2 h

end Held

/-- A new TMGI holds nothing. -/
theorem balanced_newTmgi {x : PrivTmgi} {ts : List Ref} (hc : Counted held w)
    (hx : x.sbiObject = none) :
    Balanced held (fun _ => 0) w
      { w with tmgis := ts, tmgiStore := w.tmgiStore.set w.next x, next := w.next + 1 } := by
  have hnext : Balanced held (fun _ => 0) w { w with tmgis := ts, next := w.next + 1 } :=
    .of_eq hc rfl rfl rfl rfl (Nat.le_succ _)
  refine ⟨?_, hnext.givesUp, hnext.stays⟩
  have hset := hnext.counted.changeTmgi (t := w.next) (Nat.lt_succ_self _)
    (w.tmgiStore.set w.next x) fun q hq => Store.set_of_ne _ _ _ hq
  refine hset.of_held fun o => ?_
  change held o = held o + share ((w.tmgiStore w.next).bind PrivTmgi.sbiObject) o -
    share (((w.tmgiStore.set w.next x) w.next).bind PrivTmgi.sbiObject) o
  rw [hc.tmgis _ (Nat.le_refl _), Store.set_self, Option.bind_some, hx]
  simp

theorem balanced_tmgiCreate (callback : Option ResultCallback) (hc : Counted held w) :
    Balanced held (fun _ => 0) w (tmgiCreate w callback).1 :=
  balanced_newTmgi hc rfl

theorem balanced_tmgiCopy (hheld : ∀ o, 0 ≤ held o) {dest src d : Option Ref}
    (hc : Counted held w) (h : tmgiCopy w dest src = .ok (w', d)) :
    Balanced held (tmgiShare w dest) w w' := by
  have hnone : ∀ o, w.sbiObjects o ≠ 0 → 0 ≤ tmgiShare w dest o := fun _ _ => Nat.zero_le _
  unfold tmgiCopy at h
  split at h
  · rw [Except.ok.injEq, Prod.mk.injEq] at h
    obtain ⟨rfl, -⟩ := h
    exact (Balanced.refl hc).mono hnone
  · cases src with
    | none =>
        cases dest with
        | none =>
            simp only [Except.ok.injEq, Prod.mk.injEq] at h
            obtain ⟨rfl, -⟩ := h
            exact (Balanced.refl hc).mono hnone
        | some d =>
            simp only [bind_eq_ok, Except.ok.injEq, Prod.mk.injEq] at h
            obtain ⟨v, hv, rfl, -⟩ := h
            obtain ⟨x, hx, -, -⟩ := tmgiFree_eq_ok.1 hv
            rw [tmgiShare_some hx]
            exact balanced_tmgiFree_held hheld hc hx hv
    | some t =>
        simp only [bind_eq_ok, World.tmgiAt_eq_ok] at h
        obtain ⟨x, hx, h⟩ := h
        have hlt : ∀ o, x.sbiObject = some o → o < w.next := fun o ho =>
          hc.lt_of_object ((tmgi_counts hheld hc hx).1 o ho)
        cases dest with
        | none =>
            simp only [Except.ok.injEq, Prod.mk.injEq] at h
            obtain ⟨y, hy, v, hv, rfl, -⟩ := h
            have hnew := balanced_tmgiCreate x.callback hc
            obtain rfl := Option.some.inj ((Store.set_self _ _ _).symm.trans hy)
            have hwrite := hnew.tail (Balanced.modifyTmgi (t := w.next)
              (f := fun y => { y with tmgi := x.tmgi }) hnew.counted fun _ => rfl)
            have hstored : ((tmgiCreate w x.callback).1.modifyTmgi w.next
                fun y => { y with tmgi := x.tmgi }).tmgiStore w.next =
                some { callback := x.callback, tmgi := x.tmgi } := by
              change (Store.modify (Store.set _ _ _) _ _) _ = _
              rw [Store.modify_self, Store.set_self]
              rfl
            have hreplace := balanced_tmgiReplaceSbiObject hheld hwrite.counted hstored
              (fun o ho => Nat.lt_succ_of_lt (hlt o ho)) hv
            exact (hwrite.trans hreplace).mono fun o _ => Nat.zero_le _
        | some d =>
            simp only [Except.ok.injEq, Prod.mk.injEq] at h
            obtain ⟨y, hy, v, hv, rfl, -⟩ := h
            have hwrite := Balanced.modifyTmgi (t := d)
              (f := fun y => { y with tmgi := x.tmgi }) hc fun _ => rfl
            have hstored : (w.modifyTmgi d fun y => { y with tmgi := x.tmgi }).tmgiStore d =
                some { y with tmgi := x.tmgi } := by
              change (Store.modify _ _ _) _ = _
              rw [Store.modify_self, hy]
              rfl
            have hreplace := balanced_tmgiReplaceSbiObject hheld hwrite.counted hstored hlt hv
            rw [tmgiShare_some hy]
            exact (hwrite.trans hreplace).mono fun o _ => by simp

/-! ## Requests about TMGIs -/

theorem balanced_sbiXactAdd {sbi : Option Ref} {requester : Requester}
    {build : Except Fault Request} (hc : Counted held w)
    (hlive : ∀ o, sbi = some o → w.sbiObjects o ≠ 0)
    (h : w.sbiXactAdd sbi requester build = .ok w') : Balanced held (fun _ => 0) w w' := by
  obtain ⟨o, request, ho, -, rfl⟩ := sbiXactAdd_eq_ok.1 h
  exact .sent hc (hlive o ho)

theorem balanced_newObject (hheld : ∀ o, 0 ≤ held o) (hc : Counted held w) :
    GivesUp (fun _ => 0) w w.refCountSbiObjectNew.1 ∧ held w.next = 0 := by
  refine ⟨?_, ?_⟩
  · intro o ho
    have hne : o ≠ w.next := Nat.ne_of_lt (hc.lt_of_object (Nat.ne_of_gt ho))
    refine ⟨?_, fun x hx _ => hx⟩
    change _ ≤ Function.update w.sbiObjects w.next 1 o + 0
    rw [Function.update_of_ne hne]
    exact Nat.le_refl _
  · have hcount := hc.counts w.next
    rw [hc.objects _ (Nat.le_refl _)] at hcount
    have := hheld w.next
    omega

/-- How many TMGIs of a list hold an object. -/
def holdersIn (w : World) (ts : List Ref) (o : Ref) : ℕ :=
  ts.countP fun t => (w.tmgiStore t).bind PrivTmgi.sbiObject = some o

/-- What a loop over a list takes from other objects, when the list shares `o`. -/
def sharingDrops (w : World) (o : Ref) (ts : List Ref) (r : Ref) : ℕ :=
  if r = o then ts.length else holdersIn w ts r

theorem shareSbiObject_store {o : Ref} (h : shareSbiObject o w t = .ok v) :
    ∃ x, w.tmgiStore t = some x ∧ v.tmgiStore t = some { x with sbiObject := some o } ∧
      ∀ q, q ≠ t → v.tmgiStore q = w.tmgiStore q := by
  simp only [shareSbiObject, bind_eq_ok, World.tmgiAt_eq_ok, Except.ok.injEq] at h
  obtain ⟨x, hx, rfl⟩ := h
  have hstore : ((w.refCountSbiObjectUnref x.sbiObject).refCountSbiObjectRef (some o)).tmgiStore =
      w.tmgiStore := by
    rw [World.refCountSbiObjectRef_tmgiStore, World.refCountSbiObjectUnref_tmgiStore]
  refine ⟨x, hx, ?_, ?_⟩
  · change (Store.modify _ _ _) _ = _
    rw [hstore, Store.modify_self, hx]
    rfl
  · intro q hq
    change (Store.modify _ _ _) _ = _
    rw [hstore]
    exact Store.modify_of_ne _ _ _ hq

theorem sharingDrops_cons {o : Ref} {ts : List Ref} {x : PrivTmgi}
    (hx : w.tmgiStore t = some x) (ht : v.tmgiStore t = some { x with sbiObject := some o })
    (hother : ∀ q, q ≠ t → v.tmgiStore q = w.tmgiStore q) (r : Ref) :
    share x.sbiObject r + sharingDrops v o ts r ≤ sharingDrops w o (t :: ts) r := by
  have hshare : share x.sbiObject r ≤ 1 := by
    unfold share
    split <;> omega
  unfold sharingDrops
  split
  · rw [List.length_cons]
    omega
  · rename_i hr
    have hmono : holdersIn v ts r ≤ holdersIn w ts r := by
      refine List.countP_mono_left fun q _ hq => ?_
      by_cases hqt : q = t
      · subst hqt
        rw [ht] at hq
        exact absurd (Option.some.inj (of_decide_eq_true hq)).symm hr
      · rwa [hother q hqt] at hq
    have hcons : holdersIn w (t :: ts) r = holdersIn w ts r + share x.sbiObject r := by
      unfold holdersIn share
      rw [List.countP_cons, hx]
      simp
    omega

/-- While the shared object is held besides, the loop keeps the balance. -/
theorem balanced_shareAll (hheld : ∀ o, 0 ≤ held o) {o : Ref} (ho : 0 < held o) (ts : List Ref)
    (hc : Counted held w) (h : ts.foldlM (shareSbiObject o) w = .ok w') :
    Balanced held (sharingDrops w o ts) w w' := by
  induction ts generalizing w with
  | nil =>
      simp only [List.foldlM_nil, pure, Except.pure, Except.ok.injEq] at h
      subst h
      exact (Balanced.refl hc).mono fun _ _ => Nat.zero_le _
  | cons t ts ih =>
      rw [List.foldlM_cons] at h
      obtain ⟨v, hv, hrest⟩ := bind_eq_ok.1 h
      obtain ⟨x, hx, ht, hother⟩ := shareSbiObject_store hv
      have hlive : w.sbiObjects o ≠ 0 := by
        have hcount := hc.counts o
        omega
      have hreplace : tmgiReplaceSbiObject w t (some o) = .ok v := hv
      have hhead := balanced_tmgiReplaceSbiObject hheld hc hx
        (fun r hr => Option.some.inj hr ▸ hc.lt_of_object hlive) hreplace
      exact (hhead.trans (ih hhead.counted hrest)).mono fun r _ =>
        sharingDrops_cons hx ht hother r

/-- After the loop every TMGI of the list holds the shared object. -/
theorem shareAll_holds {o : Ref} (ts : List Ref)
    (h : ts.foldlM (shareSbiObject o) w = .ok w') :
    ∀ t, (t ∈ ts ∨ ∃ x, w.tmgiStore t = some x ∧ x.sbiObject = some o) →
      ∃ x, w'.tmgiStore t = some x ∧ x.sbiObject = some o := by
  induction ts generalizing w with
  | nil =>
      simp only [List.foldlM_nil, pure, Except.pure, Except.ok.injEq] at h
      subst h
      rintro t (ht | hx)
      · cases ht
      · exact hx
  | cons q ts ih =>
      rw [List.foldlM_cons] at h
      obtain ⟨v, hv, hrest⟩ := bind_eq_ok.1 h
      obtain ⟨x, -, hq, hother⟩ := shareSbiObject_store hv
      intro t ht
      refine ih hrest t ?_
      by_cases htq : t = q
      · subst htq
        exact .inr ⟨_, hq, rfl⟩
      · rcases ht with hmem | hx
        · exact .inl ((List.mem_cons.1 hmem).resolve_left htq)
        · rw [hother t htq]
          exact .inr hx

/-- A new object passes from the request to the TMGIs of its list, which give up what they
held before. -/
theorem balanced_sendAllocateNew (hheld : ∀ o, 0 ≤ held o) {ts : List Ref}
    {refresh : Option (List Ref)} (hc : Counted held w)
    (h : tmgiListSendAllocate w (some ts) refresh = .ok w') :
    Balanced held (holdersIn w ts) w w' := by
  obtain ⟨hnew, hfree⟩ := balanced_newObject hheld hc
  simp only [tmgiListSendAllocate, bind_eq_ok] at h
  obtain ⟨v, hv, h⟩ := h
  have hheld' : ∀ o, 0 ≤ held o + share (some w.next) o := fun o => by
    have := hheld o
    omega
  have hone : 0 < held w.next + share (some w.next) w.next := by
    rw [share_self, hfree]
    decide
  have hshared := balanced_shareAll hheld' hone ts hc.newObject hv
  have hlive : v.sbiObjects w.next ≠ 0 := by
    have hcount := hshared.counted.counts w.next
    omega
  have hdropped : Balanced held (holdersIn w ts) w (v.refCountSbiObjectUnref (some w.next)) := by
    refine ⟨?_, ?_, ?_⟩
    · exact (hshared.counted.unref fun o ho => Option.some.inj ho ▸ hlive).of_held fun o => by omega
    · refine ((hnew.trans hshared.givesUp).trans
        (givesUp_refCountSbiObjectUnref (some w.next))).mono fun r hr => ?_
      have hne : r ≠ w.next := Nat.ne_of_lt (hc.lt_of_object hr)
      have hshare : share (some w.next) r = 0 :=
        share_of_ne fun heq => hne (Option.some.inj heq).symm
      rw [hshare, sharingDrops, if_neg hne]
      change 0 + holdersIn w ts r + 0 ≤ holdersIn w ts r
      omega
    · intro r hr
      have hne : w.next ≠ r := by
        rintro rfl
        omega
      have hfirst : Stays r w v := hshared.stays r (by omega)
      exact hfirst.trans
        (stays_refCountSbiObjectUnref fun heq => absurd (Option.some.inj heq) hne)
  split at h
  · cases h
  · rename_i hts
    obtain ⟨t, rest, rfl⟩ := List.exists_cons_of_ne_nil hts
    obtain ⟨x, hx, hxo⟩ := shareAll_holds _ hv t (.inl List.mem_cons_self)
    have hstored : (v.refCountSbiObjectUnref (some w.next)).tmgiStore t = some x := by
      rw [World.refCountSbiObjectUnref_tmgiStore]
      exact hx
    have hcount := (tmgi_counts hheld hdropped.counted hstored).1 w.next hxo
    exact hdropped.tail (balanced_sbiXactAdd hdropped.counted
      (fun o ho => Option.some.inj ho ▸ hcount) h)

theorem balanced_sendRefresh (hheld : ∀ o, 0 ≤ held o) {refresh : Option (List Ref)}
    (hc : Counted held w) (h : tmgiListSendAllocate w none refresh = .ok w') :
    Balanced held (fun _ => 0) w w' := by
  cases refresh with
  | none =>
      rw [tmgiListSendAllocate, Except.ok.injEq] at h
      subst h
      exact .refl hc
  | some ts =>
      cases ts with
      | nil => cases h
      | cons t ts =>
          simp only [tmgiListSendAllocate, bind_eq_ok, World.tmgiAt_eq_ok] at h
          obtain ⟨x, hx, h⟩ := h
          exact balanced_sbiXactAdd hc (tmgi_counts hheld hc hx).1 h

theorem balanced_tmgiListSendDeallocate (hheld : ∀ o, 0 ≤ held o) {ts : List Ref}
    (hc : Counted held w) (h : tmgiListSendDeallocate w ts = .ok w') :
    Balanced held (fun _ => 0) w w' := by
  cases ts with
  | nil =>
      rw [tmgiListSendDeallocate, Except.ok.injEq] at h
      subst h
      exact .refl hc
  | cons t ts =>
      simp only [tmgiListSendDeallocate, bind_eq_ok, World.tmgiAt_eq_ok] at h
      obtain ⟨x, hx, h⟩ := h
      cases ho : x.sbiObject with
      | some o =>
          simp only [ho] at h
          exact balanced_sbiXactAdd hc
            (fun r hr => (tmgi_counts hheld hc hx).1 r (ho.trans hr)) h
      | none =>
          simp only [ho] at h
          obtain ⟨hnew, hfree⟩ := balanced_newObject hheld hc
          have hstored : w.refCountSbiObjectNew.1.tmgiStore t = some x := hx
          have hgiven : Balanced held (fun _ => 0) w (w.refCountSbiObjectNew.1.modifyTmgi t
              fun x => { x with sbiObject := some w.next }) := by
            refine ⟨?_, hnew, fun _ _ _ hz _ => hz⟩
            refine (hc.newObject.modifyTmgi (f := fun x => { x with sbiObject := some w.next })
              hstored).of_held fun o => ?_
            rw [ho]
            simp
          refine hgiven.tail (balanced_sbiXactAdd hgiven.counted (fun o heq => ?_) h)
          obtain rfl := Option.some.inj heq
          have hholds : (w.refCountSbiObjectNew.1.modifyTmgi t
              fun x => { x with sbiObject := some w.next }).tmgiStore t =
              some { x with sbiObject := some w.next } := by
            change (Store.modify _ _ _) _ = _
            rw [Store.modify_self, hstored]
            rfl
          exact (tmgi_counts hheld hgiven.counted hholds).1 _ rfl

end ServiceConsumers.SbiBalance
