import ServiceConsumers.ProcessEvent

set_option autoImplicit false

/-!
# Transactions and the log

Every operation appends to the log, and the transactions it leaves outstanding are earlier
ones and those it sent itself, under new numbers.
-/

namespace ServiceConsumers.TransactionLog

open ConsumerState TmgiOperations SubscriptionOperations SessionOperations ResponseHandlers
  ProcessEvent TransitionRuns

def sentXact : Observation → Option Xact
  | .sent x => some x
  | _ => none

/-- The transactions that a stretch of the log sent, oldest first. -/
def sentOf (os : List Observation) : List Xact := (os.filterMap sentXact).reverse

@[simp] theorem sentOf_nil : sentOf [] = [] := rfl

theorem sentOf_append (new old : List Observation) :
    sentOf (new ++ old) = sentOf old ++ sentOf new := by
  rw [sentOf, List.filterMap_append, List.reverse_append]
  rfl

theorem mem_sentOf {os : List Observation} {x : Xact} : x ∈ sentOf os ↔ .sent x ∈ os := by
  rw [sentOf, List.mem_reverse, List.mem_filterMap]
  constructor
  · rintro ⟨o, ho, hx⟩
    cases o <;> simp only [sentXact, Option.some.injEq, reduceCtorEq] at hx
    exact hx ▸ ho
  · intro h
    exact ⟨.sent x, h, rfl⟩

theorem sentOf_singleton_of_none {o : Observation} (h : sentXact o = none) :
    sentOf [o] = [] := by
  simp [sentOf, h]

/-! ## Extending the log -/

/-- From `w` to `w'` the log grew by observations that satisfy `A`. -/
structure Extends (A : Observation → Prop) (w w' : World) : Prop where
  grows : ∃ new, w'.log = new ++ w.log ∧ (∀ o ∈ new, A o) ∧
    w'.xacts.Sublist (w.xacts ++ sentOf new) ∧
    (∀ x ∈ sentOf new, w.next ≤ x.id ∧ x.id < w'.next) ∧ ((sentOf new).map Xact.id).Nodup
  next : w.next ≤ w'.next

namespace Extends

variable {A B : Observation → Prop} {w w' w'' : World}

/-- Nothing is said, and transactions at most leave. -/
theorem of_silent (hlog : w'.log = w.log) (hxacts : w'.xacts.Sublist w.xacts)
    (hnext : w.next ≤ w'.next) : Extends A w w' := by
  refine ⟨⟨[], hlog, ?_, ?_, ?_, ?_⟩, hnext⟩
  · intro o ho
    cases ho
  · rw [sentOf_nil, List.append_nil]
    exact hxacts
  · intro x hx
    cases hx
  · exact List.nodup_nil

theorem refl (w : World) : Extends A w w :=
  of_silent rfl (List.Sublist.refl _) (le_refl _)

theorem trans (h₁ : Extends A w w') (h₂ : Extends A w' w'') : Extends A w w'' := by
  obtain ⟨⟨new₁, hlog₁, hA₁, hx₁, hid₁, hnd₁⟩, hn₁⟩ := h₁
  obtain ⟨⟨new₂, hlog₂, hA₂, hx₂, hid₂, hnd₂⟩, hn₂⟩ := h₂
  have hsent : sentOf (new₂ ++ new₁) = sentOf new₁ ++ sentOf new₂ := sentOf_append new₂ new₁
  refine ⟨⟨new₂ ++ new₁, ?_, ?_, ?_, ?_, ?_⟩, le_trans hn₁ hn₂⟩
  · rw [hlog₂, hlog₁, List.append_assoc]
  · intro o ho
    rcases List.mem_append.1 ho with ho | ho
    · exact hA₂ o ho
    · exact hA₁ o ho
  · rw [hsent, ← List.append_assoc]
    exact hx₂.trans (hx₁.append_right _)
  · intro x hx
    rw [hsent] at hx
    rcases List.mem_append.1 hx with hx | hx
    · have := hid₁ x hx
      omega
    · have := hid₂ x hx
      omega
  · rw [hsent, List.map_append]
    refine List.Nodup.append hnd₁ hnd₂ ?_
    intro n hn₁' hn₂'
    obtain ⟨x, hx, rfl⟩ := List.mem_map.1 hn₁'
    obtain ⟨y, hy, hxy⟩ := List.mem_map.1 hn₂'
    have hlt := (hid₁ x hx).2
    have hge := (hid₂ y hy).1
    omega

theorem mono (hAB : ∀ o, A o → B o) (h : Extends A w w') : Extends B w w' := by
  obtain ⟨⟨new, hlog, hA, hrest⟩, hnext⟩ := h
  exact ⟨⟨new, hlog, fun o ho => hAB o (hA o ho), hrest⟩, hnext⟩

/-- An observation that sends nothing. -/
theorem say {o : Observation} (hA : A o) (ho : sentXact o = none) : Extends A w (w.say o) := by
  refine ⟨⟨[o], rfl, ?_, ?_, ?_, ?_⟩, le_refl _⟩
  · intro p hp
    rw [List.mem_singleton.1 hp]
    exact hA
  · rw [sentOf_singleton_of_none ho, List.append_nil]
    exact List.Sublist.refl _
  · rw [sentOf_singleton_of_none ho]
    intro x hx
    cases hx
  · rw [sentOf_singleton_of_none ho]
    exact List.nodup_nil

theorem mem_log (h : Extends A w w') {o : Observation} (ho : o ∈ w.log) : o ∈ w'.log := by
  obtain ⟨⟨new, hlog, -⟩, -⟩ := h
  rw [hlog]
  exact List.mem_append_right new ho

/-- What is new in the log satisfies the condition. -/
theorem of_mem_log (h : Extends A w w') {o : Observation} (ho : o ∈ w'.log) :
    A o ∨ o ∈ w.log := by
  obtain ⟨⟨new, hlog, hA, -⟩, -⟩ := h
  rw [hlog] at ho
  exact (List.mem_append.1 ho).imp_left (hA o)

theorem of_mem_xacts (h : Extends A w w') {x : Xact} (hx : x ∈ w'.xacts) :
    A (.sent x) ∨ x ∈ w.xacts := by
  obtain ⟨⟨new, -, hA, hsub, -⟩, -⟩ := h
  rcases List.mem_append.1 (hsub.subset hx) with hx | hx
  · exact .inr hx
  · exact .inl (hA _ (mem_sentOf.1 hx))

/-- A loop extends the log as its items do. -/
theorem foldlM {α : Type} {f : World → α → Except Fault World} {xs : List α}
    (hstep : ∀ x ∈ xs, ∀ v v', f v x = .ok v' → Extends A v v')
    (h : xs.foldlM f w = .ok w') : Extends A w w' := by
  refine foldlM_ok_induction
    (fun rest v => (∀ x ∈ rest, ∀ u u', f u x = .ok u' → Extends A u u') ∧ Extends A w v)
    ?_ xs w w' ⟨hstep, refl w⟩ h |>.2
  intro x rest v v' ⟨hrest, hv⟩ hf
  have hx := hrest x List.mem_cons_self v v' hf
  exact ⟨fun y hy => hrest y (List.mem_cons_of_mem x hy), hv.trans hx⟩

end Extends

/-! ## The bookkeeping of transactions -/

theorem findXact_eq_some {w : World} {n : ℕ} {x : Xact} (h : w.findXact n = some x) :
    x ∈ w.xacts ∧ x.id = n := by
  refine ⟨List.mem_of_find?_eq_some h, ?_⟩
  simpa using List.find?_some h

theorem findSent_eq_some {w : World} {n : ℕ} {x : Xact} (h : w.findSent n = some x) :
    x ∈ sentOf w.log ∧ x.id = n := by
  obtain ⟨o, ho, hox⟩ := List.exists_of_findSome?_eq_some h
  cases o with
  | sent z =>
      dsimp only at hox
      split at hox
      · rename_i hz
        rw [Option.some.injEq] at hox
        exact ⟨hox ▸ mem_sentOf.2 ho, hox ▸ hz⟩
      · cases hox
  | _ => cases hox

/-- Outstanding transactions were sent, and no number was used twice. -/
structure XactsSound (w : World) : Prop where
  sent : w.xacts.Sublist (sentOf w.log)
  nodup : ((sentOf w.log).map Xact.id).Nodup
  fresh : ∀ x ∈ sentOf w.log, x.id < w.next

namespace XactsSound

variable {A : Observation → Prop} {w w' : World}

theorem initial : XactsSound World.initial :=
  ⟨List.Sublist.refl _, List.nodup_nil, fun _ h => by cases h⟩

theorem of_extends (h : XactsSound w) (he : Extends A w w') : XactsSound w' := by
  obtain ⟨⟨new, hlog, -, hx, hid, hnd⟩, hn⟩ := he
  have hsent : sentOf w'.log = sentOf w.log ++ sentOf new := by
    rw [hlog, sentOf_append]
  refine ⟨?_, ?_, ?_⟩
  · rw [hsent]
    exact hx.trans (h.sent.append_right _)
  · rw [hsent, List.map_append]
    refine List.Nodup.append h.nodup hnd ?_
    intro n hn₁ hn₂
    obtain ⟨x, hx', rfl⟩ := List.mem_map.1 hn₁
    obtain ⟨y, hy, hxy⟩ := List.mem_map.1 hn₂
    have hlt := h.fresh x hx'
    have hge := (hid y hy).1
    omega
  · intro x hx'
    rw [hsent] at hx'
    rcases List.mem_append.1 hx' with hx' | hx'
    · have := h.fresh x hx'
      omega
    · exact (hid x hx').2

theorem mem_sentOf_of_mem (h : XactsSound w) {x : Xact} (hx : x ∈ w.xacts) :
    x ∈ sentOf w.log := h.sent.subset hx

theorem eq_of_id (h : XactsSound w) {x y : Xact} (hx : x ∈ sentOf w.log)
    (hy : y ∈ sentOf w.log) (hid : x.id = y.id) : x = y :=
  List.inj_on_of_nodup_map h.nodup hx hy hid

/-- An outstanding transaction is found under its number. -/
theorem findXact_eq (h : XactsSound w) {x : Xact} (hx : x ∈ w.xacts) :
    w.findXact x.id = some x := by
  have hsome : (w.findXact x.id).isSome := by
    rw [World.findXact, List.find?_isSome]
    exact ⟨x, hx, by simp⟩
  obtain ⟨y, hy⟩ := Option.isSome_iff_exists.1 hsome
  have hmem : y ∈ w.xacts := List.mem_of_find?_eq_some hy
  have hid : y.id = x.id := by simpa using List.find?_some hy
  rw [hy, h.eq_of_id (h.mem_sentOf_of_mem hmem) (h.mem_sentOf_of_mem hx) hid]

/-- A request that was sent is found under its number. -/
theorem findSent_eq (h : XactsSound w) {x : Xact} (hx : x ∈ sentOf w.log) :
    w.findSent x.id = some x := by
  have hsome : (w.findSent x.id).isSome := by
    rw [World.findSent, List.findSome?_isSome_iff]
    exact ⟨.sent x, mem_sentOf.1 hx, by simp⟩
  obtain ⟨y, hy⟩ := Option.isSome_iff_exists.1 hsome
  obtain ⟨hmem, hid⟩ := findSent_eq_some hy
  rw [hy, h.eq_of_id hmem hx hid]

end XactsSound

/-- An outstanding transaction is the one that was sent under its number. -/
theorem findSent_of_findXact {w : World} {n : ℕ} {x : Xact} (h : XactsSound w)
    (hx : w.findXact n = some x) : w.findSent n = some x := by
  obtain ⟨hmem, hid⟩ := findXact_eq_some hx
  rw [← hid]
  exact h.findSent_eq (h.mem_sentOf_of_mem hmem)

theorem eq_of_findXact {w : World} {n : ℕ} {x sent : Xact} (h : XactsSound w)
    (hx : w.findXact n = some x) (hsent : w.findSent n = some sent) : sent = x :=
  Option.some.inj (hsent.symm.trans (findSent_of_findXact h hx))

/-! ## The primitive operations -/

section Primitives

variable {A : Observation → Prop} {w w' : World}

theorem extends_refCountSbiObjectRef (o : Option ObjectStore.Ref) :
    Extends A w (w.refCountSbiObjectRef o) := by
  cases o with
  | none => exact Extends.refl w
  | some o => exact Extends.of_silent rfl (List.Sublist.refl _) (le_refl _)

theorem sentOf_dropped (xs : List Xact) : sentOf (xs.map Observation.dropped) = [] := by
  simp [sentOf, List.filterMap_map, Function.comp_def, sentXact]

theorem extends_sbiXactRemoveAll (hA : ∀ x, A (.dropped x)) (o : ObjectStore.Ref) :
    Extends A w (w.sbiXactRemoveAll o) := by
  refine ⟨⟨_, rfl, ?_, ?_, ?_, ?_⟩, le_refl _⟩
  · intro p hp
    obtain ⟨x, -, rfl⟩ := List.mem_map.1 hp
    exact hA x
  · rw [sentOf_dropped, List.append_nil]
    exact List.filter_sublist
  · rw [sentOf_dropped]
    intro x hx
    cases hx
  · rw [sentOf_dropped]
    exact List.nodup_nil

/-- Releasing an object says nothing but which transactions it drops. -/
theorem extends_refCountSbiObjectUnref (hA : ∀ x, A (.dropped x)) (o : Option ObjectStore.Ref) :
    Extends A w (w.refCountSbiObjectUnref o) := by
  cases o with
  | none => exact Extends.refl w
  | some o =>
      have hcount : Extends A w
          { w with sbiObjects := Function.update w.sbiObjects o (w.sbiObjects o - 1) } :=
        Extends.of_silent rfl (List.Sublist.refl _) (le_refl _)
      by_cases h1 : w.sbiObjects o = 1
      · simp only [World.refCountSbiObjectUnref, if_pos h1]
        exact hcount.trans (extends_sbiXactRemoveAll hA o)
      · simp only [World.refCountSbiObjectUnref, if_neg h1]
        exact hcount

/-- What adding a transaction does. -/
theorem sbiXactAdd_eq_ok {sbi : Option ObjectStore.Ref} {requester : Requester}
    {build : Except Fault Request} :
    w.sbiXactAdd sbi requester build = .ok w' ↔ ∃ o request, sbi = some o ∧
      build = .ok request ∧
      w' = { w with
        xacts := w.xacts ++ [⟨w.next, o, requester, request⟩]
        log := .sent ⟨w.next, o, requester, request⟩ :: w.log
        next := w.next + 1 } := by
  cases sbi with
  | none => simp [World.sbiXactAdd]
  | some o =>
      simp only [World.sbiXactAdd, bind_eq_ok, Except.ok.injEq, Option.some.injEq]
      constructor
      · rintro ⟨request, hbuild, rfl⟩
        exact ⟨o, request, rfl, hbuild, rfl⟩
      · rintro ⟨o', request, rfl, hbuild, rfl⟩
        exact ⟨request, hbuild, rfl⟩

theorem extends_sent {x : Xact} (hA : A (.sent x)) (hid : x.id = w.next) :
    Extends A w
      { w with xacts := w.xacts ++ [x], log := .sent x :: w.log, next := w.next + 1 } := by
  have hsent : sentOf [.sent x] = [x] := rfl
  refine ⟨⟨[.sent x], rfl, ?_, ?_, ?_, ?_⟩, Nat.le_succ _⟩
  · intro p hp
    rw [List.mem_singleton.1 hp]
    exact hA
  · rw [hsent]
  · intro y hy
    rw [hsent, List.mem_singleton] at hy
    subst hy
    exact ⟨hid.ge, by simp only; omega⟩
  · rw [hsent]
    exact List.nodup_singleton _

theorem extends_sbiXactAdd {sbi : Option ObjectStore.Ref} {requester : Requester}
    {build : Except Fault Request}
    (hA : ∀ n o request, build = .ok request → A (.sent ⟨n, o, requester, request⟩))
    (h : w.sbiXactAdd sbi requester build = .ok w') : Extends A w w' := by
  obtain ⟨o, request, -, hbuild, rfl⟩ := sbiXactAdd_eq_ok.1 h
  exact extends_sent (hA _ o request hbuild) rfl

theorem extends_removeXact (n : ℕ) : Extends A w (w.removeXact n) :=
  Extends.of_silent rfl List.filter_sublist (le_refl _)

theorem extends_finishEvent (hA : ∀ x, A (.dropped x)) (n : ℕ) (held : Option ObjectStore.Ref) :
    Extends A w (finishEvent n held w) :=
  (extends_removeXact n).trans (extends_refCountSbiObjectUnref hA held)

end Primitives

end ServiceConsumers.TransactionLog
