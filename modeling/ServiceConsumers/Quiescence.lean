import ServiceConsumers.AnswerEffects
import ServiceConsumers.SessionCopies
import ServiceConsumers.TmgiContents

set_option autoImplicit false

/-!
# Quiescence

After an accepted create the library keeps a copy of the session. A push without any edit
compares the session with that copy, and is quiet when the two are equal. An accepted update
leaves the copy as it was.
-/

namespace ServiceConsumers.Quiescence

open ObjectStore PublicSessions ConsumerState TmgiOperations SessionOperations ResponseHandlers
  TransitionRuns TransactionLog TmgiEffects PushEffects AnswerEffects SessionCopies TmgiContents

variable {w w' : World} {dst src copy : PublicSession Ref}

/-! ## Copies of sessions in a state -/

/-- The TMGI objects that a copy reads and replaces are there, and one that it frees is
registered. -/
structure TmgisInPlace (w : World) (dst src : PublicSession Ref) : Prop where
  source : ∀ t, src.tmgi = some t → (w.tmgiStore t).isSome
  target : src.tmgiReq = true → ∀ d, dst.tmgi = some d → src.tmgi ≠ some d →
    (w.tmgiStore d).isSome ∧ (src.tmgi = none → d ∈ w.tmgis)

/-- The TMGI step of a copy. -/
def copyTmgi (w : World) (dst src : PublicSession Ref) : Except Fault (World × Option Ref) :=
  if src.tmgiReq then tmgiCopy w dst.tmgi src.tmgi else .ok (w, src.tmgi)

theorem mbsSessionPublicCopy_iff {dest : Option (PublicSession Ref)} :
    mbsSessionPublicCopy w dest src = .ok (w', copy) ↔
      ∃ r, copyTmgi w (dest.getD {}) src = .ok (w', r) ∧
        copy = copiedSession (dest.getD {}) src r ∧ StringsPresent src.mbsServiceInfo := by
  simp only [mbsSessionPublicCopy, bind_eq_ok, Prod.exists]
  constructor
  · rintro ⟨v, r, hr, h⟩
    split at h
    · cases h
    · rename_i c hc
      rw [Except.ok.injEq, Prod.mk.injEq] at h
      obtain ⟨rfl, rfl⟩ := h
      exact ⟨r, hr, publicCopyFields_eq_some.1 hc⟩
  · rintro ⟨r, hr, hcopy⟩
    refine ⟨w', r, hr, ?_⟩
    rw [publicCopyFields_eq_some.2 hcopy]

theorem mbsSessionPublicEqual_iff {a b : PublicSession Ref} :
    mbsSessionPublicEqual w a b = .ok true ↔ ∃ c c', w.tmgiContent a.tmgi = .ok c ∧
      w.tmgiContent b.tmgi = .ok c' ∧ publicEqual (a.content c) (b.content c') = some true := by
  simp only [mbsSessionPublicEqual, World.sessionContent, bind_eq_ok, Except.ok.injEq]
  constructor
  · rintro ⟨_, ⟨c, hc, rfl⟩, _, ⟨c', hc', rfl⟩, h⟩
    refine ⟨c, c', hc, hc', ?_⟩
    split at h
    · cases h
    · rename_i equal hequal
      rw [Except.ok.injEq] at h
      rw [hequal, h]
  · rintro ⟨c, c', hc, hc', h⟩
    refine ⟨_, ⟨c, hc, rfl⟩, _, ⟨c', hc', rfl⟩, ?_⟩
    rw [h]

/-- Where the TMGI of the copy and that of the source can be read, they say the same, and the
objects were in place. -/
theorem copyTmgi_reads {r : Option Ref} {c c' : Option Tmgi} (h : copyTmgi w dst src = .ok (w', r))
    (hc : w'.tmgiContent r = .ok c) (hc' : w'.tmgiContent src.tmgi = .ok c') :
    TmgisInPlace w dst src ∧ c = c' := by
  unfold copyTmgi at h
  have hshared : ∀ {p : Option Ref}, w.tmgiContent p = .ok c → p = src.tmgi →
      ∀ t, src.tmgi = some t → (w.tmgiStore t).isSome := by
    rintro p hp rfl t ht
    rw [ht, tmgiContent_some_eq_ok] at hp
    obtain ⟨y, hy, -⟩ := hp
    rw [← contentAt_isSome, hy]
    rfl
  by_cases hreq : src.tmgiReq
  swap
  · rw [if_neg hreq, Except.ok.injEq, Prod.mk.injEq] at h
    obtain ⟨rfl, rfl⟩ := h
    refine ⟨⟨hshared hc rfl, fun hreq' => absurd hreq' hreq⟩, ?_⟩
    exact Except.ok.inj (hc.symm.trans hc')
  rw [if_pos hreq] at h
  by_cases hsame : dst.tmgi = src.tmgi
  · rw [hsame, tmgiCopy_self, Except.ok.injEq, Prod.mk.injEq] at h
    obtain ⟨rfl, rfl⟩ := h
    refine ⟨⟨hshared hc rfl, fun _ d hd hne => absurd (hsame.symm.trans hd) hne⟩, ?_⟩
    exact Except.ok.inj (hc.symm.trans hc')
  cases hsrc : src.tmgi with
  | none =>
      rw [hsrc] at h hsame hc'
      obtain ⟨d, hd⟩ := Option.ne_none_iff_exists'.1 hsame
      rw [hd, tmgiCopy_none_eq_ok] at h
      obtain ⟨hfree, rfl⟩ := h
      obtain ⟨x, hx, hmem, -⟩ := tmgiFree_eq_ok.1 hfree
      refine ⟨⟨fun t ht => ?_, fun _ d' hd' _ => ?_⟩, Except.ok.inj (hc.symm.trans hc')⟩
      · rw [hsrc] at ht
        cases ht
      · obtain rfl := Option.some.inj (hd.symm.trans hd')
        exact ⟨by rw [hx]; rfl, fun _ => hmem⟩
  | some t =>
      rw [hsrc] at h hsame hc'
      obtain ⟨d, x, hx, rfl, hd, ht⟩ := contentAt_tmgiCopy hsame h
      refine ⟨⟨fun t' ht' => ?_, fun _ d' hd' _ => ⟨?_, fun hnone => ?_⟩⟩, ?_⟩
      · obtain rfl := Option.some.inj (hsrc.symm.trans ht')
        rw [hx]
        rfl
      · obtain ⟨x', -, htarget, -, -⟩ := (tmgiCopy_some_eq_ok hsame).1 h
        rw [hd'] at htarget
        exact htarget
      · rw [hsrc] at hnone
        cases hnone
      · rw [tmgiContent_some_eq_ok] at hc hc'
        obtain ⟨y, hy, rfl⟩ := hc
        obtain ⟨y', hy', rfl⟩ := hc'
        rw [← Option.some.inj (hd.symm.trans hy), ← Option.some.inj (ht.symm.trans hy')]

/-- With the objects in place the copy reads back what the source says. -/
theorem copyTmgi_of_inPlace (h : TmgisInPlace w dst src) :
    ∃ w' r c, copyTmgi w dst src = .ok (w', r) ∧ w'.tmgiContent r = .ok c ∧
      w'.tmgiContent src.tmgi = .ok c := by
  unfold copyTmgi
  have hread : ∃ c, w.tmgiContent src.tmgi = .ok c := by
    cases hsrc : src.tmgi with
    | none => exact ⟨none, rfl⟩
    | some t =>
        obtain ⟨x, hx⟩ := Option.isSome_iff_exists.1 (h.source t hsrc)
        exact ⟨some x.tmgi, tmgiContent_some_eq_ok.2 ⟨x.tmgi, by simp [contentAt, hx], rfl⟩⟩
  by_cases hreq : src.tmgiReq
  swap
  · obtain ⟨c, hc⟩ := hread
    exact ⟨w, src.tmgi, c, if_neg hreq, hc, hc⟩
  rw [if_pos hreq]
  by_cases hsame : dst.tmgi = src.tmgi
  · obtain ⟨c, hc⟩ := hread
    rw [hsame, tmgiCopy_self]
    exact ⟨w, src.tmgi, c, rfl, hc, hc⟩
  cases hsrc : src.tmgi with
  | none =>
      rw [hsrc] at hsame
      obtain ⟨d, hd⟩ := Option.ne_none_iff_exists'.1 hsame
      obtain ⟨hlive, hmem⟩ := h.target hreq d hd (by rw [hsrc]; simp)
      obtain ⟨x, hx⟩ := Option.isSome_iff_exists.1 hlive
      obtain ⟨v, hv⟩ : ∃ v, tmgiFree w d = .ok v :=
        ⟨_, tmgiFree_eq_ok.2 ⟨x, hx, hmem hsrc, rfl⟩⟩
      rw [hd]
      exact ⟨v, none, none, tmgiCopy_none_eq_ok.2 ⟨hv, rfl⟩, rfl, rfl⟩
  | some t =>
      rw [hsrc] at hsame
      obtain ⟨x, hx⟩ := Option.isSome_iff_exists.1 (h.source t hsrc)
      have htarget : ((copyTarget w x dst.tmgi).1.tmgiStore (copyTarget w x dst.tmgi).2).isSome := by
        cases hd : dst.tmgi with
        | none => simp [copyTarget, tmgiCreate]
        | some d =>
            rw [hd] at hsame
            exact (h.target hreq d hd (by rw [hsrc]; exact Ne.symm hsame)).1
      obtain ⟨y, hy⟩ := Option.isSome_iff_exists.1 htarget
      obtain ⟨v, hv⟩ : ∃ v, tmgiCopy w dst.tmgi (some t) = .ok (v, some (copyTarget w x dst.tmgi).2) :=
        ⟨_, (tmgiCopy_some_eq_ok hsame).2 ⟨x, hx, htarget, rfl,
          tmgiReplaceSbiObject_eq_ok.2 ⟨{ y with tmgi := x.tmgi }, by simp [hy], rfl⟩⟩⟩
      obtain ⟨d, x', hx', hd, hcopy, hsource⟩ := contentAt_tmgiCopy hsame hv
      rw [Option.some.injEq] at hd
      subst hd
      exact ⟨v, _, some x'.tmgi, hv, tmgiContent_some_eq_ok.2 ⟨_, hcopy, rfl⟩,
        tmgiContent_some_eq_ok.2 ⟨_, hsource, rfl⟩⟩

/-- Copying a session's TMGI leaves what the source's pointer says. -/
theorem copyTmgi_source {dst src : PublicSession Ref} {r : Option Ref} {c : Option Tmgi}
    (h : copyTmgi w dst src = .ok (w', r)) (hc : w'.tmgiContent src.tmgi = .ok c) :
    w.tmgiContent src.tmgi = .ok c := by
  unfold copyTmgi at h
  by_cases hreq : src.tmgiReq
  swap
  · rw [if_neg hreq, Except.ok.injEq, Prod.mk.injEq] at h
    rw [h.1]
    exact hc
  rw [if_pos hreq] at h
  cases hsrc : src.tmgi with
  | none =>
      rw [hsrc] at hc
      exact hc
  | some t =>
      by_cases hsame : dst.tmgi = some t
      · rw [hsame, hsrc, tmgiCopy_self, Except.ok.injEq, Prod.mk.injEq] at h
        rw [h.1, ← hsrc]
        exact hc
      · rw [hsrc] at h hc
        obtain ⟨d, z, hz, rfl, -, ht⟩ := contentAt_tmgiCopy hsame h
        rw [tmgiContent_some_eq_ok] at hc ⊢
        obtain ⟨q, hq, rfl⟩ := hc
        refine ⟨q, ?_, rfl⟩
        rw [contentAt, hz, Option.map_some, Option.some.inj (ht.symm.trans hq)]

/-- The TMGI objects are in place, and the value keeps everything that is compared. -/
def CopyFaithful (w : World) (dest : Option (PublicSession Ref)) (src : PublicSession Ref) : Prop :=
  TmgisInPlace w (dest.getD {}) src ∧ Faithful (dest.getD {}) src

/-- The comparison of a push: the copy on the left, the session on the right. -/
theorem copy_equal_iff {dest : Option (PublicSession Ref)}
    (hkeys : EveryTable KeyedByNumber src.mbsServiceInfo) :
    (∃ w' copy, mbsSessionPublicCopy w dest src = .ok (w', copy) ∧
      mbsSessionPublicEqual w' copy src = .ok true) ↔ CopyFaithful w dest src := by
  constructor
  · rintro ⟨w', copy, hcopy, hequal⟩
    obtain ⟨r, hr, rfl, hstrings⟩ := mbsSessionPublicCopy_iff.1 hcopy
    obtain ⟨c, c', hc, hc', hpublic⟩ := mbsSessionPublicEqual_iff.1 hequal
    obtain ⟨hplace, rfl⟩ := copyTmgi_reads hr hc hc'
    exact ⟨hplace, (publicEqual_copiedSession hkeys hstrings r c).1.1 hpublic⟩
  · rintro ⟨hplace, hfaithful⟩
    obtain ⟨w', r, c, hr, hc, hc'⟩ := copyTmgi_of_inPlace hplace
    refine ⟨w', _, mbsSessionPublicCopy_iff.2 ⟨r, hr, rfl, hfaithful.strings⟩, ?_⟩
    exact mbsSessionPublicEqual_iff.2 ⟨c, c, hc, hc',
      (publicEqual_copiedSession hkeys hfaithful.strings r c).1.2 hfaithful⟩

variable {s : Ref} {x : MbsSession}

/-- A push of the session finds it equal to the copy that is kept. -/
def PushIsQuiet (w : World) (s : Ref) : Prop :=
  ∃ x, w.sessionStore s = some x ∧ pushDecision w x = .ok .unchanged

/-- A quiet push sends requests about subscriptions only. -/
theorem PushIsQuiet.extends_subscriptionSent (h : PushIsQuiet w s)
    (hpush : mbsSessionPushChanges w s = .ok w') : Extends SessionEffects.SubscriptionSent w w' := by
  obtain ⟨x, hx, hunchanged⟩ := h
  obtain ⟨y, decision, hy, hdecision, hout⟩ := mbsSessionPushChanges_eq_ok.1 hpush
  obtain rfl := Option.some.inj (hx.symm.trans hy)
  obtain rfl := Except.ok.inj (hunchanged.symm.trans hdecision)
  exact (pushEffect_mbsSessionSubscriptionsUpdate hout).log

theorem pushDecision_eq_unchanged {previous : PublicSession Ref} (hdeleted : x.deleted = false)
    (hprevious : x.previousSession = some previous) :
    pushDecision w x = .ok .unchanged ↔
      mbsSessionPublicEqual w previous x.session = .ok true := by
  simp only [pushDecision, hdeleted, hprevious, Bool.false_eq_true, if_false, bind_eq_ok]
  constructor
  · rintro ⟨equal, hequal, h⟩
    cases equal with
    | true => exact hequal
    | false =>
        simp only [Bool.false_eq_true, if_false] at h
        split at h
        · cases h
        · simp only [bind_eq_ok] at h
          obtain ⟨same, -, h⟩ := h
          split at h <;> cases h
  · intro h
    exact ⟨true, h, rfl⟩

/-- What the handlers of accepted requests do with the copy that is kept. -/
def refreshPrevious (w : World) (s : Ref) (x : MbsSession) : Except Fault World := do
  let (w, copy) ← mbsSessionPublicCopy w x.previousSession x.session
  .ok (w.modifySession s fun x => { x with previousSession := some copy })

theorem refreshPrevious_eq_ok : refreshPrevious w s x = .ok w' ↔
    ∃ v copy, mbsSessionPublicCopy w x.previousSession x.session = .ok (v, copy) ∧
      w' = v.modifySession s fun x => { x with previousSession := some copy } := by
  simp only [refreshPrevious, bind_eq_ok, Prod.exists, Except.ok.injEq]
  exact exists_congr fun v => exists_congr fun copy => and_congr_right fun _ => eq_comm

theorem refreshPrevious_quiet_iff (hx : w.sessionStore s = some x) (hdeleted : x.deleted = false)
    (hkeys : EveryTable KeyedByNumber x.session.mbsServiceInfo) :
    (∃ w', refreshPrevious w s x = .ok w' ∧ PushIsQuiet w' s) ↔
      CopyFaithful w x.previousSession x.session := by
  rw [← copy_equal_iff hkeys]
  have hquiet : ∀ v copy, mbsSessionPublicCopy w x.previousSession x.session = .ok (v, copy) →
      (PushIsQuiet (v.modifySession s fun x => { x with previousSession := some copy }) s ↔
        mbsSessionPublicEqual v copy x.session = .ok true) := by
    intro v copy hcopy
    have hstore : v.sessionStore s = some x := by
      rw [(mbsSessionPublicCopy_eq_ok hcopy).1.sessionStore]
      exact hx
    have hdecision := pushDecision_eq_unchanged (w := v.modifySession s fun x =>
      { x with previousSession := some copy }) (x := { x with previousSession := some copy })
      hdeleted rfl
    unfold PushIsQuiet
    simp only [World.modifySession, Store.modify_self, hstore, Option.map_some, Option.some.injEq,
      exists_eq_left']
    exact hdecision
  constructor
  · rintro ⟨w', href, hw'⟩
    obtain ⟨v, copy, hcopy, rfl⟩ := refreshPrevious_eq_ok.1 href
    exact ⟨v, copy, hcopy, (hquiet v copy hcopy).1 hw'⟩
  · rintro ⟨v, copy, hcopy, hequal⟩
    exact ⟨_, refreshPrevious_eq_ok.2 ⟨v, copy, hcopy, rfl⟩, (hquiet v copy hcopy).2 hequal⟩

/-- The session value behind the identifiers of a create response. -/
def answeredSession (p : PublicSession Ref) : Option SsmAnswer → PublicSession Ref
  | none => p
  | some answer => { p with ssm := answeredSsm p.ssm answer }

theorem parseSessionId_eq {m : CreatedSession} {answer : Option SsmAnswer}
    (hx : w.sessionStore s = some x) (hm : m.mbsSessionId = some answer) :
    parseSessionId w s m =
      refreshPrevious (w.setSession s { x with session := answeredSession x.session answer }) s
        { x with session := answeredSession x.session answer } := by
  have hat : w.sessionAt s = .ok x := World.sessionAt_eq_ok.2 hx
  simp only [parseSessionId, hm, hat, bind, Except.bind]
  cases answer <;> rfl

theorem tmgiContent_congr (h : w'.tmgiStore = w.tmgiStore) (r : Option Ref) :
    w'.tmgiContent r = w.tmgiContent r := by
  cases r with
  | none => rfl
  | some t => simp only [World.tmgiContent, World.tmgiAt, h]

theorem pushDecision_congr (h : w'.tmgiStore = w.tmgiStore) (x : MbsSession) :
    pushDecision w' x = pushDecision w x := by
  simp only [pushDecision, mbsSessionPublicEqual, tmgiPointersEqual, World.sessionContent,
    tmgiContent_congr h]

end ServiceConsumers.Quiescence
