import ServiceConsumers.TmgiEffects

set_option autoImplicit false

/-!
# What TMGI objects say

The copy of a session copies the TMGI that the session asked for. Followed here is what can
be read from the TMGI objects on the way.
-/

namespace ServiceConsumers.TmgiContents

open ObjectStore PublicSessions ConsumerState TmgiOperations TransitionRuns TransactionLog
  TmgiEffects

variable {w w' : World} {t d : Ref}

/-- What a TMGI object says, if it is there. -/
def contentAt (w : World) (t : Ref) : Option Tmgi := (w.tmgiStore t).map PrivTmgi.tmgi

theorem contentAt_isSome : (contentAt w t).isSome = (w.tmgiStore t).isSome := Option.isSome_map

theorem tmgiContent_some_eq_ok {c : Option Tmgi} :
    w.tmgiContent (some t) = .ok c ↔ ∃ y, contentAt w t = some y ∧ c = some y := by
  simp only [World.tmgiContent, bind_eq_ok, World.tmgiAt_eq_ok, Except.ok.injEq, contentAt,
    Option.map_eq_some_iff]
  constructor
  · rintro ⟨x, hx, rfl⟩
    exact ⟨x.tmgi, ⟨x, hx, rfl⟩, rfl⟩
  · rintro ⟨_, ⟨x, hx, rfl⟩, rfl⟩
    exact ⟨x, hx, rfl⟩

theorem contentAt_modifyTmgi (f : PrivTmgi → PrivTmgi) (q : Ref) :
    contentAt (w.modifyTmgi t f) q =
      if q = t then (w.tmgiStore t).map fun x => (f x).tmgi else contentAt w q := by
  by_cases hq : q = t
  · subst hq
    simp [contentAt, Function.comp_def]
  · simp [contentAt, Store.modify_of_ne _ _ _ hq, hq]

theorem contentAt_of_tmgiStore (h : w'.tmgiStore = w.tmgiStore) (q : Ref) :
    contentAt w' q = contentAt w q := by
  rw [contentAt, contentAt, h]

/-! ## Setting the SBI object -/

theorem tmgiReplaceSbiObject_eq_ok {sbi : Option Ref} :
    tmgiReplaceSbiObject w t sbi = .ok w' ↔ ∃ x, w.tmgiStore t = some x ∧
      w' = ((w.refCountSbiObjectUnref x.sbiObject).refCountSbiObjectRef sbi).modifyTmgi t
        fun x => { x with sbiObject := sbi } := by
  simp only [tmgiReplaceSbiObject, bind_eq_ok, World.tmgiAt_eq_ok, Except.ok.injEq]
  exact exists_congr fun x => and_congr_right fun _ => eq_comm

theorem contentAt_tmgiReplaceSbiObject {sbi : Option Ref}
    (h : tmgiReplaceSbiObject w t sbi = .ok w') (q : Ref) : contentAt w' q = contentAt w q := by
  obtain ⟨x, hx, rfl⟩ := tmgiReplaceSbiObject_eq_ok.1 h
  rw [contentAt_modifyTmgi]
  split
  · rename_i hq
    subst hq
    simp [contentAt]
  · exact contentAt_of_tmgiStore (by simp) q

/-! ## Freeing -/

theorem contextRemoveTmgi_eq_ok :
    contextRemoveTmgi w t = .ok w' ↔ t ∈ w.tmgis ∧ w' = { w with tmgis := w.tmgis.erase t } := by
  unfold contextRemoveTmgi
  split
  · rename_i ht
    simp [ht, eq_comm]
  · rename_i ht
    simp [ht]

theorem tmgiFree_eq_ok :
    tmgiFree w t = .ok w' ↔ ∃ x, w.tmgiStore t = some x ∧ t ∈ w.tmgis ∧
      w' = { ({ w with tmgis := w.tmgis.erase t } : World).refCountSbiObjectUnref x.sbiObject with
        tmgiStore := w.tmgiStore.free t } := by
  simp only [tmgiFree, bind_eq_ok, World.tmgiAt_eq_ok, contextRemoveTmgi_eq_ok, Except.ok.injEq]
  constructor
  · rintro ⟨x, hx, v, ⟨ht, rfl⟩, rfl⟩
    exact ⟨x, hx, ht, by simp⟩
  · rintro ⟨x, hx, ht, rfl⟩
    exact ⟨x, hx, _, ⟨ht, rfl⟩, by simp⟩

/-! ## Copying -/

/-- The destination of a copy of a TMGI that is there: its own object, or a new one. -/
def copyTarget (w : World) (x : PrivTmgi) : Option Ref → World × Ref
  | none => tmgiCreate w x.callback
  | some d => (w, d)

theorem tmgiCopy_self (r : Option Ref) : tmgiCopy w r r = .ok (w, r) := by
  simp [tmgiCopy]

theorem tmgiCopy_none_eq_ok {r : Option Ref} :
    tmgiCopy w (some d) none = .ok (w', r) ↔ tmgiFree w d = .ok w' ∧ r = none := by
  simp only [tmgiCopy, reduceCtorEq, if_false, bind_eq_ok, Except.ok.injEq, Prod.mk.injEq]
  constructor
  · rintro ⟨v, hv, rfl, rfl⟩
    exact ⟨hv, rfl⟩
  · rintro ⟨hv, rfl⟩
    exact ⟨w', hv, rfl, rfl⟩

theorem tmgiCopy_some_eq_ok {dest r : Option Ref} (hne : dest ≠ some t) :
    tmgiCopy w dest (some t) = .ok (w', r) ↔ ∃ x, w.tmgiStore t = some x ∧
      ((copyTarget w x dest).1.tmgiStore (copyTarget w x dest).2).isSome ∧
      r = some (copyTarget w x dest).2 ∧
      tmgiReplaceSbiObject
        ((copyTarget w x dest).1.modifyTmgi (copyTarget w x dest).2 fun y => { y with tmgi := x.tmgi })
        (copyTarget w x dest).2 x.sbiObject = .ok w' := by
  rw [tmgiCopy, if_neg hne]
  simp only [bind_eq_ok, World.tmgiAt_eq_ok, Except.ok.injEq, Prod.mk.injEq]
  simp only [Option.isSome_iff_exists]
  constructor
  · rintro ⟨x, hx, y, hy, v, hv, rfl, rfl⟩
    exact ⟨x, hx, ⟨y, hy⟩, rfl, hv⟩
  · rintro ⟨x, hx, ⟨y, hy⟩, rfl, hv⟩
    exact ⟨x, hx, y, hy, w', hv, rfl, rfl⟩

/-- After the copy of a TMGI that is there, source and destination say the same. -/
theorem contentAt_tmgiCopy {dest r : Option Ref} (hne : dest ≠ some t)
    (h : tmgiCopy w dest (some t) = .ok (w', r)) :
    ∃ d x, w.tmgiStore t = some x ∧ r = some d ∧ contentAt w' d = some x.tmgi ∧
      contentAt w' t = some x.tmgi := by
  obtain ⟨x, hx, htarget, rfl, hreplace⟩ := (tmgiCopy_some_eq_ok hne).1 h
  have hcontent := contentAt_tmgiReplaceSbiObject hreplace
  refine ⟨_, x, hx, rfl, ?_, ?_⟩
  · obtain ⟨y, hy⟩ := Option.isSome_iff_exists.1 htarget
    rw [hcontent, contentAt_modifyTmgi, if_pos rfl, hy]
    rfl
  · rw [hcontent, contentAt_modifyTmgi]
    split
    · rename_i ht
      obtain ⟨y, hy⟩ := Option.isSome_iff_exists.1 htarget
      rw [hy]
      rfl
    · rename_i ht
      cases dest with
      | some d => simp [copyTarget, contentAt, hx]
      | none =>
          have hnext : t ≠ w.next := ht
          simp [copyTarget, tmgiCreate, contentAt, Store.set_of_ne _ _ _ hnext, hx]

end ServiceConsumers.TmgiContents
