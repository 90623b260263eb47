import ServiceConsumers.UnorderedArrays

set_option autoImplicit false

/-!
# Patches for another document

A patch that was written for one document is applied to a document without its members. Either
it fails, or it leaves a member there that the document did not have.
-/

namespace ServiceConsumers.ForeignPatches

open JsonDocuments UnorderedArrays

/-- The operations on one member: a single one on the member itself, or all below it. -/
def Segment (k : String) (ps : List PatchItem) : Prop :=
  (∃ op v, ps = [⟨op, [.key k], v⟩]) ∨ ∀ p ∈ ps, ∃ t ts, p.path = .key k :: t :: ts

variable {ms : Members} {k : String} {ps : List PatchItem} {doc : Json}

theorem applyPatch_nil (doc : Json) : applyPatch doc [] = some doc := rfl

theorem applyPatch_cons (doc : Json) (p : PatchItem) (ps : List PatchItem) :
    applyPatch doc (p :: ps) = (applyItem doc p).bind fun doc' => applyPatch doc' ps := by
  rw [applyPatch, List.foldlM_cons]
  rfl

theorem applyPatch_append (doc : Json) (ps qs : List PatchItem) :
    applyPatch doc (ps ++ qs) = (applyPatch doc ps).bind fun doc' => applyPatch doc' qs := by
  rw [applyPatch, List.foldlM_append]
  rfl

/-- Below a member that is missing nothing can be done. -/
theorem applyItem_below (hk : Members.lookup k ms = none) (op : PatchOperation)
    (v : Option Json) (t : Token) (ts : Pointer) :
    applyItem (.obj ms) ⟨op, .key k :: t :: ts, v⟩ = none := by
  simp [applyItem, applyPath, within, hk]

/-- Of a member that is missing there is only the addition. -/
theorem applyItem_at (hk : Members.lookup k ms = none) {op : PatchOperation} {v : Option Json}
    (h : applyItem (.obj ms) ⟨op, [.key k], v⟩ = some doc) :
    ∃ j, doc = .obj (Members.insert k j ms) := by
  cases op with
  | add =>
      cases v with
      | none => cases h
      | some j => exact ⟨j, (Option.some.inj h).symm⟩
  | remove => simp [applyItem, applyPath, applyAt, hk] at h
  | replace => cases v <;> simp [applyItem, applyPath, applyAt, hk] at h

theorem applyPatch_segment (hk : Members.lookup k ms = none) (hseg : Segment k ps)
    (h : applyPatch (.obj ms) ps = some doc) :
    (ps = [] ∧ doc = .obj ms) ∨ ∃ j, doc = .obj (Members.insert k j ms) := by
  rcases hseg with ⟨op, v, rfl⟩ | hbelow
  · rw [applyPatch_cons, Option.bind_eq_some_iff] at h
    obtain ⟨doc', hdoc', h⟩ := h
    rw [applyPatch_nil, Option.some.injEq] at h
    exact .inr (applyItem_at hk (h ▸ hdoc'))
  · cases ps with
    | nil => exact .inl ⟨rfl, (Option.some.inj h).symm⟩
    | cons p ps =>
        obtain ⟨t, ts, hpath⟩ := hbelow p List.mem_cons_self
        obtain ⟨op, path, v⟩ := p
        obtain rfl : path = .key k :: t :: ts := hpath
        rw [applyPatch_cons, applyItem_below hk] at h
        cases h

/-- Segments for different members, none of which the document has, leave every member that
they are not empty for. -/
theorem applyPatch_segments {segments : List (String × List PatchItem)}
    (hnames : (segments.map Prod.fst).Nodup) (hseg : ∀ p ∈ segments, Segment p.1 p.2)
    (hmissing : ∀ p ∈ segments, Members.lookup p.1 ms = none)
    (h : applyPatch (.obj ms) (segments.flatMap Prod.snd) = some doc) :
    ∃ ms', doc = .obj ms' ∧
      (∀ name, name ∉ segments.map Prod.fst → Members.lookup name ms' = Members.lookup name ms) ∧
      ∀ p ∈ segments, p.2 ≠ [] → (Members.lookup p.1 ms').isSome := by
  induction segments generalizing ms with
  | nil => exact ⟨ms, (Option.some.inj h).symm, fun _ _ => rfl, nofun⟩
  | cons p segments ih =>
      obtain ⟨k, ps⟩ := p
      rw [List.map_cons, List.nodup_cons] at hnames
      rw [List.flatMap_cons, applyPatch_append, Option.bind_eq_some_iff] at h
      obtain ⟨doc', hdoc', h⟩ := h
      have hother : ∀ q ∈ segments, q.1 ≠ k := fun q hq heq =>
        hnames.1 (List.mem_map.2 ⟨q, hq, heq⟩)
      have hrest := fun q hq => hseg q (List.mem_cons_of_mem (k, ps) hq)
      have hnone : Members.lookup k ms = none := hmissing (k, ps) List.mem_cons_self
      have hlater := fun q hq => hmissing q (List.mem_cons_of_mem (k, ps) hq)
      rcases applyPatch_segment hnone (hseg (k, ps) List.mem_cons_self) hdoc' with
        ⟨rfl, rfl⟩ | ⟨j, rfl⟩
      · obtain ⟨ms', rfl, hkeep, hthere⟩ := ih hnames.2 hrest hlater h
        refine ⟨ms', rfl, fun name hname => hkeep name fun hn => ?_, fun q hq hne => ?_⟩
        · exact hname (List.mem_cons_of_mem _ hn)
        · rcases List.mem_cons.1 hq with rfl | hq
          · exact absurd rfl hne
          · exact hthere q hq hne
      · have hmissing' : ∀ q ∈ segments, Members.lookup q.1 (Members.insert k j ms) = none := by
          intro q hq
          rw [lookup_insert, if_neg (Ne.symm (hother q hq))]
          exact hlater q hq
        obtain ⟨ms', rfl, hkeep, hthere⟩ := ih hnames.2 hrest hmissing' h
        refine ⟨ms', rfl, fun name hname => ?_, fun q hq hne => ?_⟩
        · rw [List.map_cons, List.mem_cons, not_or] at hname
          rw [hkeep name hname.2, lookup_insert, if_neg (Ne.symm hname.1)]
        · rcases List.mem_cons.1 hq with rfl | hq
          · rw [hkeep k hnames.1, lookup_insert, if_pos rfl]
            rfl
          · exact hthere q hq hne

/-- A patch of segments turns a document without their members into another one without them
only when it is empty. -/
theorem applyPatch_segments_eq {segments : List (String × List PatchItem)} {ms' : Members}
    (hnames : (segments.map Prod.fst).Nodup) (hseg : ∀ p ∈ segments, Segment p.1 p.2)
    (hmissing : ∀ p ∈ segments, Members.lookup p.1 ms = none)
    (hmissing' : ∀ p ∈ segments, Members.lookup p.1 ms' = none) :
    applyPatch (.obj ms) (segments.flatMap Prod.snd) = some (.obj ms') ↔
      segments.flatMap Prod.snd = [] ∧ ms = ms' := by
  constructor
  · intro h
    have hempty : segments.flatMap Prod.snd = [] := by
      rw [List.flatMap_eq_nil_iff]
      intro p hp
      obtain ⟨ms'', heq, -, hthere⟩ := applyPatch_segments hnames hseg hmissing h
      rw [Json.obj.injEq] at heq
      by_contra hne
      have hsome := hthere p hp hne
      rw [← heq, hmissing' p hp] at hsome
      cases hsome
    rw [hempty, applyPatch_nil, Option.some.injEq, Json.obj.injEq] at h
    exact ⟨hempty, h⟩
  · rintro ⟨hempty, rfl⟩
    rw [hempty, applyPatch_nil]

end ServiceConsumers.ForeignPatches
