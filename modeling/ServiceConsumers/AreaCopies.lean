import Mathlib.Order.Lattice.Nat
import ServiceConsumers.OwnedBlocks
import ServiceConsumers.Snapshots

set_option autoImplicit false

/-!
# Copies of geographic areas in memory (`geographic-area.c`)

An area owns what its pointers lead to: the optional members, the points of a polygon, and the area
that a local origin is given by.
-/

namespace ServiceConsumers.AreaCopies

open OwnedBlocks ExternalServiceAreas Snapshots

/-! ## Areas with their pointers -/

/-- A relative point, whose height is a pointer. -/
structure RelativePointObject where
  x : ℚ
  y : ℚ
  z : Option (Owned ℚ)

/-- `mb_smf_sc_geographic_area_t`. -/
inductive AreaObject where
  | none
  | point (point : GeographicCoordinate)
  | pointUncertaintyCircle (point : GeographicCoordinate) (uncertainty : ℚ)
  | pointUncertaintyEllipse (point : GeographicCoordinate) (ellipse : UncertaintyEllipse)
      (confidence : ℕ)
  | polygon (points : List (Owned GeographicCoordinate))
  | pointAltitude (point : GeographicCoordinate) (altitude : ℚ)
  | pointAltitudeUncertainty (point : GeographicCoordinate) (altitude : ℚ)
      (ellipse : UncertaintyEllipse) (uncertaintyAltitude : ℚ) (confidence : ℕ)
      (vConfidence : Option (Owned ℕ))
  | ellipsoidArc (point : GeographicCoordinate) (innerRadius : ℕ) (uncertaintyRadius : ℚ)
      (offsetAngle includedAngle confidence : ℕ)
  | local2dPointUncertaintyEllipse (coordinateId : Option (Owned String))
      (origin : Option (Owned GeographicCoordinate)) (area : Option (Owned AreaObject))
      (horizAxesOrientation : ℕ) (point : RelativePointObject) (ellipse : UncertaintyEllipse)
      (confidence : ℕ)
  | local3dPointUncertaintyEllipsoid (coordinateId : Option (Owned String))
      (origin : Option (Owned GeographicCoordinate)) (area : Option (Owned AreaObject))
      (horizAxesOrientation : ℕ) (point : RelativePointObject) (ellipse : UncertaintyEllipse)
      (confidence : ℕ) (vConfidence : Option (Owned ℕ))

def relativeValue (point : RelativePointObject) : RelativePoint :=
  { x := point.x, y := point.y, z := valueOf point.z }

/-- The values of all the members, at every level. -/
def areaValue : AreaObject → GeographicArea
  | .none => .none
  | .point point => .point point
  | .pointUncertaintyCircle point uncertainty => .pointUncertaintyCircle point uncertainty
  | .pointUncertaintyEllipse point ellipse confidence =>
      .pointUncertaintyEllipse point ellipse confidence
  | .polygon points => .polygon (points.map Owned.value)
  | .pointAltitude point altitude => .pointAltitude point altitude
  | .pointAltitudeUncertainty point altitude ellipse uncertaintyAltitude confidence vConfidence =>
      .pointAltitudeUncertainty point altitude ellipse uncertaintyAltitude confidence
        (valueOf vConfidence)
  | .ellipsoidArc point innerRadius uncertaintyRadius offsetAngle includedAngle confidence =>
      .ellipsoidArc point innerRadius uncertaintyRadius offsetAngle includedAngle confidence
  | .local2dPointUncertaintyEllipse coordinateId origin area horiz point ellipse confidence =>
      .local2dPointUncertaintyEllipse (valueOf coordinateId) (valueOf origin)
        (match area with
         | Option.none => Option.none
         | some ⟨_, inner⟩ => some (areaValue inner))
        horiz (relativeValue point) ellipse confidence
  | .local3dPointUncertaintyEllipsoid coordinateId origin area horiz point ellipse confidence
      vConfidence =>
      .local3dPointUncertaintyEllipsoid (valueOf coordinateId) (valueOf origin)
        (match area with
         | Option.none => Option.none
         | some ⟨_, inner⟩ => some (areaValue inner))
        horiz (relativeValue point) ellipse confidence (valueOf vConfidence)

/-- The blocks of all the members, at every level. -/
def areaBlocks : AreaObject → List ℕ
  | .polygon points => points.map Owned.address
  | .pointAltitudeUncertainty _ _ _ _ _ vConfidence => blockOf vConfidence
  | .local2dPointUncertaintyEllipse coordinateId origin area _ point _ _ =>
      blockOf coordinateId ++ (blockOf origin ++
        ((match area with
          | Option.none => []
          | some ⟨address, inner⟩ => address :: areaBlocks inner) ++ blockOf point.z))
  | .local3dPointUncertaintyEllipsoid coordinateId origin area _ point _ _ vConfidence =>
      blockOf coordinateId ++ (blockOf origin ++
        ((match area with
          | Option.none => []
          | some ⟨address, inner⟩ => address :: areaBlocks inner) ++ (blockOf point.z ++
            blockOf vConfidence)))
  | _ => []

/-! ## Clearing and copying -/

/-- The blocks that `_geographic_area_clear` gives back. The points of a polygon are left: the
source has a TODO there. An area that an origin is given by is freed as `_geographic_area_free`
does. -/
def geographicAreaClear : AreaObject → List ℕ
  | .pointAltitudeUncertainty _ _ _ _ _ vConfidence => blockOf vConfidence
  | .local2dPointUncertaintyEllipse coordinateId origin area _ point _ _ =>
      blockOf coordinateId ++ (blockOf origin ++
        ((match area with
          | Option.none => []
          | some ⟨address, inner⟩ => geographicAreaClear inner ++ [address]) ++ blockOf point.z))
  | .local3dPointUncertaintyEllipsoid coordinateId origin area _ point _ _ vConfidence =>
      blockOf coordinateId ++ (blockOf origin ++
        ((match area with
          | Option.none => []
          | some ⟨address, inner⟩ => geographicAreaClear inner ++ [address]) ++ (blockOf point.z ++
            blockOf vConfidence)))
  | _ => []

/-- `_geographic_area_free`. -/
def geographicAreaFree (area : Owned AreaObject) : List ℕ :=
  geographicAreaClear area.value ++ [area.address]

/-- `_geographic_area_copy` from its `memcpy` on: the members are those of the source, pointers
and all, until the `switch` writes those anew that are not `NULL`. The list of a polygon is made
empty. An area that an origin is given by is copied to one that is not there yet. -/
def copyMembers (heap : Allocator) : AreaObject → Finset ℕ → AreaObject × Finset ℕ
  | .polygon _, live => (.polygon [], live)
  | .pointAltitudeUncertainty point altitude ellipse uncertaintyAltitude confidence vConfidence,
      live =>
      let vConfidence := duplicate heap live vConfidence
      (.pointAltitudeUncertainty point altitude ellipse uncertaintyAltitude confidence
        vConfidence.1, vConfidence.2)
  | .local2dPointUncertaintyEllipse coordinateId origin area horiz point ellipse confidence, live =>
      let coordinateId := duplicate heap live coordinateId
      let origin := duplicate heap coordinateId.2 origin
      let area : Option (Owned AreaObject) × Finset ℕ :=
        match area with
        | Option.none => (Option.none, origin.2)
        | some ⟨_, inner⟩ =>
            let address := heap.malloc origin.2
            let inner := copyMembers heap inner (insert address origin.2)
            (some { address := address, value := inner.1 }, inner.2)
      let z := duplicate heap area.2 point.z
      (.local2dPointUncertaintyEllipse coordinateId.1 origin.1 area.1 horiz { point with z := z.1 }
        ellipse confidence, z.2)
  | .local3dPointUncertaintyEllipsoid coordinateId origin area horiz point ellipse confidence
      vConfidence, live =>
      let coordinateId := duplicate heap live coordinateId
      let origin := duplicate heap coordinateId.2 origin
      let area : Option (Owned AreaObject) × Finset ℕ :=
        match area with
        | Option.none => (Option.none, origin.2)
        | some ⟨_, inner⟩ =>
            let address := heap.malloc origin.2
            let inner := copyMembers heap inner (insert address origin.2)
            (some { address := address, value := inner.1 }, inner.2)
      let z := duplicate heap area.2 point.z
      let vConfidence := duplicate heap z.2 vConfidence
      (.local3dPointUncertaintyEllipsoid coordinateId.1 origin.1 area.1 horiz
        { point with z := z.1 } ellipse confidence vConfidence.1, vConfidence.2)
  | area, live => (area, live)

/-- Where the copy is put: a new area, or the old one cleared. -/
def destination (heap : Allocator) (live : Finset ℕ) : Option (Owned AreaObject) → ℕ × Finset ℕ
  | Option.none => (heap.malloc live, insert (heap.malloc live) live)
  | some dst => (dst.address, live \ (geographicAreaClear dst.value).toFinset)

/-- `_geographic_area_copy`. -/
def geographicAreaObjectCopy (heap : Allocator) (live : Finset ℕ) (dst src : Option (Owned AreaObject)) :
    Option (Owned AreaObject) × Finset ℕ :=
  match src with
  | Option.none =>
      match dst with
      | Option.none => (Option.none, live)
      | some dst => (Option.none, live \ (geographicAreaFree dst).toFinset)
  | some src =>
      let place := destination heap live dst
      let members := copyMembers heap src.value place.2
      (some { address := place.1, value := members.1 }, members.2)

/-! ## What is copied, and to where -/

theorem mem_areaBlocks_of_clear (area : AreaObject) :
    ∀ b ∈ geographicAreaClear area, b ∈ areaBlocks area := by
  induction area using areaValue.induct with
  | case1 | case2 | case3 | case4 | case5 | case6 | case8 => exact nofun
  | case7 => exact fun b hb => hb
  | case9 coordinateId origin area horiz point ellipse confidence ih =>
      intro b hb
      cases area with
      | none => exact hb
      | some inner =>
          simp only [geographicAreaClear, areaBlocks, List.mem_append, List.mem_cons] at hb ⊢
          have hinner := ih b
          tauto
  | case10 coordinateId origin area horiz point ellipse confidence vConfidence ih =>
      intro b hb
      cases area with
      | none => exact hb
      | some inner =>
          simp only [geographicAreaClear, areaBlocks, List.mem_append, List.mem_cons] at hb ⊢
          have hinner := ih b
          tauto

/-- The values of the copy, of which only polygons are not those of the source. -/
theorem areaValue_copyMembers (heap : Allocator) (area : AreaObject) (live : Finset ℕ) :
    areaValue (copyMembers heap area live).1 = geographicAreaCopy (areaValue area) := by
  induction area using areaValue.induct generalizing live with
  | case1 | case2 | case3 | case4 | case5 | case6 | case8 => rfl
  | case7 point altitude ellipse uncertaintyAltitude confidence vConfidence =>
      simp only [copyMembers, areaValue, geographicAreaCopy, valueOf_duplicate]
  | case9 coordinateId origin area horiz point ellipse confidence ih =>
      cases area with
      | none =>
          simp only [copyMembers, areaValue, geographicAreaCopy, valueOf_duplicate, relativeValue]
      | some inner =>
          simp only [copyMembers, areaValue, geographicAreaCopy, valueOf_duplicate, relativeValue, ih]
  | case10 coordinateId origin area horiz point ellipse confidence vConfidence ih =>
      cases area with
      | none =>
          simp only [copyMembers, areaValue, geographicAreaCopy, valueOf_duplicate, relativeValue]
      | some inner =>
          simp only [copyMembers, areaValue, geographicAreaCopy, valueOf_duplicate, relativeValue, ih]

/-- All that the copy owns, at every level, was not in use before. -/
theorem takes_copyMembers (heap : Allocator) (area : AreaObject) (live : Finset ℕ) :
    Takes live (areaBlocks (copyMembers heap area live).1) (copyMembers heap area live).2 := by
  induction area using areaValue.induct generalizing live with
  | case1 | case2 | case3 | case4 | case5 | case6 | case8 => exact Takes.nil
  | case7 point altitude ellipse uncertaintyAltitude confidence vConfidence =>
      exact takes_duplicate heap live vConfidence
  | case9 coordinateId origin area horiz point ellipse confidence ih =>
      cases area with
      | none =>
          simp only [copyMembers, areaBlocks]
          apply (takes_duplicate heap live coordinateId).append
          apply (takes_duplicate heap _ origin).append
          exact takes_duplicate heap _ point.z
      | some inner =>
          simp only [copyMembers, areaBlocks]
          apply (takes_duplicate heap live coordinateId).append
          apply (takes_duplicate heap _ origin).append
          apply Takes.append _ (takes_duplicate heap _ point.z)
          exact (takes_malloc heap _).append (ih _)
  | case10 coordinateId origin area horiz point ellipse confidence vConfidence ih =>
      cases area with
      | none =>
          simp only [copyMembers, areaBlocks]
          apply (takes_duplicate heap live coordinateId).append
          apply (takes_duplicate heap _ origin).append
          apply (takes_duplicate heap _ point.z).append
          exact takes_duplicate heap _ vConfidence
      | some inner =>
          simp only [copyMembers, areaBlocks]
          apply (takes_duplicate heap live coordinateId).append
          apply (takes_duplicate heap _ origin).append
          apply Takes.append ((takes_malloc heap _).append (ih _))
          apply (takes_duplicate heap _ point.z).append
          exact takes_duplicate heap _ vConfidence

/-! ## The copy of an area -/

/-- All that an area owns, with its own block. -/
def ownedBlocks (area : Owned AreaObject) : List ℕ := area.address :: areaBlocks area.value

/-- The blocks of an area that may not be there. -/
def maybeBlocks : Option (Owned AreaObject) → List ℕ
  | Option.none => []
  | some area => ownedBlocks area

/-- A source and a place for its copy, with the memory in use. Neither shares anything with the
other. -/
structure CopyCall where
  dst : Option (Owned AreaObject)
  src : Owned AreaObject
  live : Finset ℕ
  apart : Holds live (maybeBlocks dst ++ ownedBlocks src)

/-- An area is made that has the values of the source and shares nothing with it. The source keeps
all that it owns. -/
def Copied (heap : Allocator) (call : CopyCall) : Prop :=
  ∃ copy live', geographicAreaObjectCopy heap call.live call.dst (some call.src) = (some copy, live') ∧
    areaValue copy.value = areaValue call.src.value ∧
    Holds live' (ownedBlocks copy ++ ownedBlocks call.src)

/-- The block of the copy is in use and is none of the source's. -/
theorem holds_destination (heap : Allocator) (call : CopyCall) :
    Holds (destination heap call.live call.dst).2
      ((destination heap call.live call.dst).1 :: ownedBlocks call.src) := by
  obtain ⟨dst, src, live, hapart⟩ := call
  cases dst with
  | none => exact (takes_malloc heap live).holds_append hapart
  | some dst =>
      have hperm : (ownedBlocks dst ++ ownedBlocks src).Perm
          (areaBlocks dst.value ++ dst.address :: ownedBlocks src) := List.perm_middle.symm
      exact (hapart.perm hperm).free (mem_areaBlocks_of_clear dst.value)

/-- Whatever is copied, the copy and the source are apart. -/
theorem holds_copy (heap : Allocator) (call : CopyCall) :
    Holds (copyMembers heap call.src.value (destination heap call.live call.dst).2).2
      ((destination heap call.live call.dst).1 ::
        (areaBlocks (copyMembers heap call.src.value (destination heap call.live call.dst).2).1 ++
          ownedBlocks call.src)) :=
  ((takes_copyMembers heap call.src.value _).holds_append (holds_destination heap call)).perm
    List.perm_middle

/-- The copy of an area is as it is to be exactly when no polygon in it has points. -/
theorem copied_iff (heap : Allocator) (call : CopyCall) :
    Copied heap call ↔ PointsFree (areaValue call.src.value) := by
  rw [← geographicAreaCopy_eq_iff,
    ← areaValue_copyMembers heap call.src.value (destination heap call.live call.dst).2]
  constructor
  · rintro ⟨copy, live', hcopy, hvalue, -⟩
    cases hcopy
    exact hvalue
  · intro hvalue
    exact ⟨_, _, rfl, hvalue, holds_copy heap call⟩

/-- Memory that is never used again. -/
def growingHeap : Allocator where
  malloc := fun live => live.sup id + 1
  fresh := fun _ hmem => Nat.not_succ_le_self _ (Finset.le_sup (f := id) hmem)

/-- A triangle, and no area to copy it to. -/
def triangleCall : CopyCall where
  dst := Option.none
  src := { address := 1, value := .polygon [{ address := 2, value := ⟨0, 0⟩ },
    { address := 3, value := ⟨1, 0⟩ }, { address := 4, value := ⟨0, 1⟩ }] }
  live := {1, 2, 3, 4}
  apart := ⟨by decide, by decide⟩

/-- A polygon loses its points. -/
theorem triangle_not_copied : ¬ Copied growingHeap triangleCall := by
  rintro ⟨copy, live', hcopy, hvalue, -⟩
  cases hcopy
  cases hvalue

end ServiceConsumers.AreaCopies
