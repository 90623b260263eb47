import Mathlib.Data.List.Nodup

set_option autoImplicit false

/-!
# Values in the first place that takes them

A row of places, each empty or with a value. A value goes to the first place that is empty
or has that value already, and a place is given up the same way.
-/

namespace ServiceConsumers.FirstFits

variable {α β : Type} [DecidableEq α]

def takes (a : α) (place : Option α) : Bool := place = none ∨ place = some a

def put (a : α) : List (Option α) → List (Option α)
  | [] => []
  | p :: ps => if takes a p then some a :: ps else p :: put a ps

def vacate (a : α) (ps : List (Option α)) : List (Option α) := ps.eraseP (takes a)

/-- Each of the values finds a place when its turn comes. -/
def HasRoom : List (Option α) → List α → Prop
  | _, [] => True
  | ps, a :: as => (∃ p ∈ ps, takes a p = true) ∧ HasRoom (put a ps) as

variable {a b : α} {p : Option α} {ps : List (Option α)} {as : List α}

@[simp] theorem takes_none : takes a none = true := by simp [takes]

theorem takes_some : takes a (some b) = true ↔ b = a := by simp [takes]

theorem put_cons_of_takes (h : takes a p = true) : put a (p :: ps) = some a :: ps := by
  rw [put, if_pos h]

theorem put_cons_of_not_takes (h : takes a p = false) : put a (p :: ps) = p :: put a ps := by
  rw [put, h, if_neg Bool.false_ne_true]

theorem put_eq_self (h : ∀ p ∈ ps, takes a p = false) : put a ps = ps := by
  induction ps with
  | nil => rfl
  | cons p ps ih =>
      rw [List.forall_mem_cons] at h
      rw [put_cons_of_not_takes h.1, ih h.2]

/-- The values that have a place keep one. -/
theorem mem_put (h : some b ∈ ps) : some b ∈ put a ps := by
  induction ps with
  | nil => cases h
  | cons p ps ih =>
      cases htakes : takes a p with
      | true =>
          rw [put_cons_of_takes htakes]
          rcases List.mem_cons.1 h with rfl | hmem
          · rw [takes_some.1 htakes]
            exact List.mem_cons_self
          · exact List.mem_cons_of_mem _ hmem
      | false =>
          rw [put_cons_of_not_takes htakes]
          rcases List.mem_cons.1 h with rfl | hmem
          · exact List.mem_cons_self
          · exact List.mem_cons_of_mem _ (ih hmem)

theorem mem_put_self (h : ∃ p ∈ ps, takes a p = true) : some a ∈ put a ps := by
  induction ps with
  | nil =>
      obtain ⟨p, hp, -⟩ := h
      cases hp
  | cons p ps ih =>
      cases htakes : takes a p with
      | true =>
          rw [put_cons_of_takes htakes]
          exact List.mem_cons_self
      | false =>
          obtain ⟨q, hq, hfits⟩ := h
          rw [put_cons_of_not_takes htakes]
          rcases List.mem_cons.1 hq with rfl | hmem
          · rw [htakes] at hfits
            cases hfits
          · exact List.mem_cons_of_mem _ (ih ⟨q, hmem, hfits⟩)

theorem mem_foldl_put (h : some b ∈ ps) : some b ∈ as.foldl (fun ps a => put a ps) ps := by
  induction as generalizing ps with
  | nil => exact h
  | cons a as ih => exact ih (mem_put h)

theorem mem_foldl_put_of_hasRoom (hroom : HasRoom ps as) (hb : b ∈ as) :
    some b ∈ as.foldl (fun ps a => put a ps) ps := by
  induction as generalizing ps with
  | nil => cases hb
  | cons a as ih =>
      obtain ⟨hfits, hrest⟩ := hroom
      rcases List.mem_cons.1 hb with rfl | hmem
      · change some b ∈ as.foldl (fun ps a => put a ps) (put b ps)
        exact mem_foldl_put (mem_put_self hfits)
      · exact ih hrest hmem

/-- Only the value itself loses its place. -/
theorem mem_vacate (h : some b ∈ ps) (hne : b ≠ a) : some b ∈ vacate a ps := by
  have hnot : ¬ takes a (some b) = true := fun htakes => hne (takes_some.1 htakes)
  exact (List.mem_eraseP_of_neg hnot).2 h

theorem mem_foldl_vacate (h : some b ∈ ps) (hne : b ∉ as) :
    some b ∈ as.foldl (fun ps a => vacate a ps) ps := by
  induction as generalizing ps with
  | nil => exact h
  | cons a as ih =>
      rw [List.mem_cons, not_or] at hne
      exact ih (mem_vacate h hne.1) hne.2

/-! ## Places that are labelled -/

section Labels

variable {f g : β → Option α} {c : β} {cs : List β}

/-- Writing the value at the first label that takes it. -/
theorem map_eq_put (hfind : cs.find? (fun c => takes a (f c)) = some c) (hnodup : cs.Nodup)
    (hc : g c = some a) (hother : ∀ d, d ≠ c → g d = f d) : cs.map g = put a (cs.map f) := by
  induction cs with
  | nil => cases hfind
  | cons d cs ih =>
      rw [List.nodup_cons] at hnodup
      cases htakes : takes a (f d) with
      | true =>
          simp only [List.find?_cons, htakes, Option.some.injEq] at hfind
          subst hfind
          have hrest : cs.map g = cs.map f :=
            List.map_congr_left fun q hq => hother q fun heq => hnodup.1 (heq ▸ hq)
          rw [List.map_cons, List.map_cons, put_cons_of_takes htakes, hc, hrest]
      | false =>
          simp only [List.find?_cons, htakes] at hfind
          have hne : d ≠ c := by
            rintro rfl
            exact hnodup.1 (List.mem_of_find?_eq_some hfind)
          rw [List.map_cons, List.map_cons, put_cons_of_not_takes htakes, hother d hne,
            ih hfind hnodup.2]

theorem map_erase_eq_vacate [DecidableEq β]
    (hfind : cs.find? (fun c => takes a (f c)) = some c) :
    (cs.erase c).map f = vacate a (cs.map f) := by
  induction cs with
  | nil => cases hfind
  | cons d cs ih =>
      cases htakes : takes a (f d) with
      | true =>
          simp only [List.find?_cons, htakes, Option.some.injEq] at hfind
          subst hfind
          rw [List.erase_cons_head, List.map_cons, vacate, List.eraseP_cons_of_pos htakes]
      | false =>
          have hneg : ¬ takes a (f d) = true := by
            rw [htakes]
            exact Bool.false_ne_true
          simp only [List.find?_cons, htakes] at hfind
          have hne : d ≠ c := by
            rintro rfl
            exact hneg (List.find?_some (p := fun c => takes a (f c)) hfind)
          rw [List.erase_cons_tail (by simpa using hne), List.map_cons, List.map_cons, vacate,
            List.eraseP_cons_of_neg hneg, ih hfind]
          rfl

/-- A value that no label takes. -/
theorem takes_eq_false_of_find (hfind : cs.find? (fun c => takes a (f c)) = none) :
    ∀ p ∈ cs.map f, takes a p = false := by
  intro p hp
  obtain ⟨c, hc, rfl⟩ := List.mem_map.1 hp
  exact Bool.eq_false_iff.2 (List.find?_eq_none.1 hfind c hc)

end Labels

/-! ## Taking out what fits first -/

section TakingOut

variable {γ : Type} {fits : β → γ → Bool} {out p : γ → Bool} {c : γ} {row : List γ} {bs : List β}

/-- For each of the values in turn, the first place that fits is taken out. -/
def takeOut (fits : β → γ → Bool) (row : List γ) (bs : List β) : List γ :=
  bs.foldl (fun row b => row.eraseP (fits b)) row

/-- Each of the values finds none but the places to be taken out, and all of those are found. -/
def TakesOut (fits : β → γ → Bool) (out : γ → Bool) : List γ → List β → Prop
  | row, [] => ∀ c ∈ row, out c = false
  | row, b :: bs => (∀ c, row.find? (fits b) = some c → out c = true) ∧
      TakesOut fits out (row.eraseP (fits b)) bs

theorem eraseP_eq_self_of_find?_eq_none (h : row.find? p = none) : row.eraseP p = row :=
  List.eraseP_of_forall_not (List.find?_eq_none.1 h)

/-- The place that is found is the one that is taken out. -/
theorem exists_of_find?_eq_some (h : row.find? p = some c) :
    ∃ xs ys, row = xs ++ c :: ys ∧ row.eraseP p = xs ++ ys := by
  obtain ⟨hc, xs, ys, hrow, hxs⟩ := List.find?_eq_some_iff_append.1 h
  refine ⟨xs, ys, hrow, ?_⟩
  have hnot : ∀ b ∈ xs, ¬ p b = true := fun b hb => by simpa using hxs b hb
  rw [hrow, List.eraseP_append_right _ hnot, List.eraseP_cons_of_pos hc]

theorem erase_eq_eraseP_of_find? [DecidableEq γ] (h : row.find? p = some c) :
    row.erase c = row.eraseP p := by
  obtain ⟨hc, xs, ys, hrow, hxs⟩ := List.find?_eq_some_iff_append.1 h
  have hnot : ∀ b ∈ xs, ¬ p b = true := fun b hb => by simpa using hxs b hb
  have hmem : c ∉ xs := fun hmem => hnot c hmem hc
  rw [hrow, List.erase_append_right _ hmem, List.erase_cons_head,
    List.eraseP_append_right _ hnot, List.eraseP_cons_of_pos hc]

theorem takeOut_sublist : (takeOut fits row bs).Sublist row := by
  induction bs generalizing row with
  | nil => exact List.Sublist.refl row
  | cons b bs ih =>
      have hrest : (takeOut fits (row.eraseP (fits b)) bs).Sublist (row.eraseP (fits b)) := ih
      exact hrest.trans List.eraseP_sublist

/-- A place that is to stay and is found is missing from then on. -/
theorem takeOut_ne_of_stays {row' : List γ} (h : row.find? p = some c) (hstays : out c = false)
    (hsub : row'.Sublist (row.eraseP p)) : row' ≠ row.filter fun c => !out c := by
  obtain ⟨xs, ys, hrow, herase⟩ := exists_of_find?_eq_some h
  intro heq
  have hlength : (row'.filter fun c => !out c).length ≤
      ((row.eraseP p).filter fun c => !out c).length := (hsub.filter _).length_le
  rw [heq, List.filter_filter, herase, hrow] at hlength
  simp only [Bool.and_self, List.filter_append, List.filter_cons, hstays, Bool.not_false,
    if_true, List.length_append, List.length_cons] at hlength
  omega

/-- What is left are the places that are to stay, exactly when each value takes out what is
to go. -/
theorem takeOut_eq_filter_iff :
    takeOut fits row bs = row.filter (fun c => !out c) ↔ TakesOut fits out row bs := by
  induction bs generalizing row with
  | nil =>
      change row = row.filter (fun c => !out c) ↔ ∀ c ∈ row, out c = false
      rw [eq_comm, List.filter_eq_self]
      simp only [Bool.not_eq_true']
  | cons b bs ih =>
      change takeOut fits (row.eraseP (fits b)) bs = _ ↔ _ ∧ TakesOut fits out _ bs
      cases hfind : row.find? (fits b) with
      | none =>
          rw [eraseP_eq_self_of_find?_eq_none hfind, ih]
          simp
      | some c =>
          obtain ⟨xs, ys, hrow, herase⟩ := exists_of_find?_eq_some hfind
          cases hout : out c with
          | true =>
              have hfilter : (row.eraseP (fits b)).filter (fun c => !out c) =
                  row.filter fun c => !out c := by
                rw [herase, hrow, List.filter_append, List.filter_append, List.filter_cons, hout]
                simp
              rw [← hfilter, ih]
              simp [hout]
          | false =>
              refine iff_of_false (takeOut_ne_of_stays hfind hout takeOut_sublist) fun h => ?_
              have hc := h.1 c rfl
              rw [hout] at hc
              cases hc

/-- Nothing is to be taken out: no value fits anything. -/
theorem takesOut_nothing_iff (hout : ∀ c, out c = false) :
    TakesOut fits out row bs ↔ ∀ b ∈ bs, ∀ c ∈ row, fits b c = false := by
  induction bs generalizing row with
  | nil => simp [TakesOut, hout]
  | cons b bs ih =>
      rw [TakesOut, List.forall_mem_cons]
      cases hfind : row.find? (fits b) with
      | none =>
          have hnone : ∀ c ∈ row, fits b c = false := fun c hc => by
            simpa using List.find?_eq_none.1 hfind c hc
          rw [eraseP_eq_self_of_find?_eq_none hfind, ih]
          exact ⟨fun h => ⟨hnone, h.2⟩, fun h => ⟨fun c hc => (by cases hc), h.2⟩⟩
      | some c =>
          refine iff_of_false (fun h => ?_) fun h => ?_
          · have hc := h.1 c rfl
            rw [hout] at hc
            cases hc
          · have hc := h.1 c (List.mem_of_find?_eq_some hfind)
            rw [List.find?_some hfind] at hc
            cases hc

end TakingOut

end ServiceConsumers.FirstFits
