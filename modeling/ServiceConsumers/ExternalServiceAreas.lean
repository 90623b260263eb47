import ServiceConsumers.ServiceAreas

set_option autoImplicit false

/-!
# External MBS service areas (`geographic-area.c`, `civic-address.c`,
`ext-mbs-service-area.c`)
-/

namespace ServiceConsumers.ExternalServiceAreas

open JsonDocuments PatchLists ServiceAreas GreedyMatching

structure GeographicCoordinate where
  longitude : ℚ
  latitude : ℚ
  deriving DecidableEq, Inhabited

def geographicCoordinateToJson (c : GeographicCoordinate) : Json :=
  .obj (Members.ofList [("lon", some (.num c.longitude)), ("lat", some (.num c.latitude))])

structure UncertaintyEllipse where
  semiMajor : ℚ
  semiMinor : ℚ
  orientationMajor : ℕ
  deriving DecidableEq, Inhabited

structure RelativePoint where
  x : ℚ
  y : ℚ
  z : Option ℚ
  deriving DecidableEq, Inhabited

/-- One constructor for each shape of the union. The two local shapes hold the origin
they are relative to, which may itself be an area. -/
inductive GeographicArea where
  | none
  | point (point : GeographicCoordinate)
  | pointUncertaintyCircle (point : GeographicCoordinate) (uncertainty : ℚ)
  | pointUncertaintyEllipse (point : GeographicCoordinate) (ellipse : UncertaintyEllipse)
      (confidence : ℕ)
  | polygon (points : List GeographicCoordinate)
  | pointAltitude (point : GeographicCoordinate) (altitude : ℚ)
  | pointAltitudeUncertainty (point : GeographicCoordinate) (altitude : ℚ)
      (ellipse : UncertaintyEllipse) (uncertaintyAltitude : ℚ) (confidence : ℕ)
      (vConfidence : Option ℕ)
  | ellipsoidArc (point : GeographicCoordinate) (innerRadius : ℕ) (uncertaintyRadius : ℚ)
      (offsetAngle includedAngle confidence : ℕ)
  | local2dPointUncertaintyEllipse (coordinateId : Option String)
      (origin : Option GeographicCoordinate) (area : Option GeographicArea)
      (horizAxesOrientation : ℕ) (point : RelativePoint) (ellipse : UncertaintyEllipse)
      (confidence : ℕ)
  | local3dPointUncertaintyEllipsoid (coordinateId : Option String)
      (origin : Option GeographicCoordinate) (area : Option GeographicArea)
      (horizAxesOrientation : ℕ) (point : RelativePoint) (ellipse : UncertaintyEllipse)
      (confidence : ℕ) (vConfidence : Option ℕ)

/-- A polygon's points are left out of the copy: the source leaves them as a TODO. -/
def geographicAreaCopy : GeographicArea → GeographicArea
  | .polygon _ => .polygon []
  | .local2dPointUncertaintyEllipse cid origin area horiz point ellipse conf =>
      .local2dPointUncertaintyEllipse cid origin
        (match area with
         | Option.none => Option.none
         | some inner => some (geographicAreaCopy inner))
        horiz point ellipse conf
  | .local3dPointUncertaintyEllipsoid cid origin area horiz point ellipse conf vconf =>
      .local3dPointUncertaintyEllipsoid cid origin
        (match area with
         | Option.none => Option.none
         | some inner => some (geographicAreaCopy inner))
        horiz point ellipse conf vconf
  | area => area

/-- Two distinct objects never compare equal: the comparison is a TODO of the source. -/
def geographicAreaEqual (_ _ : GeographicArea) : Bool := false

def geographicAreaToJson : GeographicArea → Json
  | .point p => .obj (Members.ofList [("shape", some (.str "POINT")),
      ("point", some (geographicCoordinateToJson p))])
  | _ => .obj []

def geographicAreasToJson (areas : List GeographicArea) : Json :=
  .arr (areas.map geographicAreaToJson)

def geographicAreasEqual (a b : List GeographicArea) : Bool :=
  match a, b with
  | [], [] => true
  | _, _ => a.length == b.length && matchAll geographicAreaEqual a (b.map geographicAreaCopy)

/-- Always replaces, so areas that did not change are sent again. -/
def geographicAreasPatchList (a b : List GeographicArea) : Option (List PatchItem) :=
  indexPatchList (fun _ => .last) (fun g => some (geographicAreaToJson g))
    (fun gs => some (geographicAreasToJson gs))
    (fun idx _ y => some [jsonPatchNew .replace [.index idx] (some (geographicAreaToJson y))]) a b

structure CivicAddress where
  country : Option String := none
  a1 : Option String := none
  a2 : Option String := none
  a3 : Option String := none
  a4 : Option String := none
  a5 : Option String := none
  a6 : Option String := none
  prd : Option String := none
  pod : Option String := none
  sts : Option String := none
  hno : Option String := none
  hns : Option String := none
  lmk : Option String := none
  loc : Option String := none
  nam : Option String := none
  pc : Option String := none
  bld : Option String := none
  unit : Option String := none
  flr : Option String := none
  room : Option String := none
  plc : Option String := none
  pcn : Option String := none
  pobox : Option String := none
  addcode : Option String := none
  seat : Option String := none
  rd : Option String := none
  rdsec : Option String := none
  rdbr : Option String := none
  rdsubbr : Option String := none
  prm : Option String := none
  pom : Option String := none
  usageRules : Option String := none
  method : Option String := none
  providedBy : Option String := none
  deriving DecidableEq, Inhabited

/-- The attribute names of an address with their values, in the order of the source. -/
def civicAddressFields (c : CivicAddress) : List (String × Option String) :=
  [("country", c.country), ("A1", c.a1), ("A2", c.a2), ("A3", c.a3), ("A4", c.a4),
   ("A5", c.a5), ("A6", c.a6), ("PRD", c.prd), ("POD", c.pod), ("STS", c.sts),
   ("HNO", c.hno), ("HNS", c.hns), ("LMK", c.lmk), ("LOC", c.loc), ("NAM", c.nam),
   ("PC", c.pc), ("BLD", c.bld), ("UNIT", c.unit), ("FLR", c.flr), ("ROOM", c.room),
   ("PLC", c.plc), ("PCN", c.pcn), ("POBOX", c.pobox), ("ADDCODE", c.addcode),
   ("SEAT", c.seat), ("RD", c.rd), ("RDSEC", c.rdsec), ("RDBR", c.rdbr),
   ("RDSUBBR", c.rdsubbr), ("PRM", c.prm), ("POM", c.pom), ("usageRules", c.usageRules),
   ("method", c.method), ("providedBy", c.providedBy)]

/-- Every field is duplicated, absent ones stay absent. -/
def civicAddressCopy (src : CivicAddress) : CivicAddress := src

def civicAddressEqual (a b : CivicAddress) : Bool :=
  civicAddressFields a == civicAddressFields b

def civicAddressToJson (c : CivicAddress) : Json :=
  .obj (Members.ofList ((civicAddressFields c).map fun f => (f.1, f.2.map Json.str)))

def civicAddressesToJson (cs : List CivicAddress) : Json := .arr (cs.map civicAddressToJson)

def civicAddressesEqual (a b : List CivicAddress) : Bool :=
  match a, b with
  | [], [] => true
  | _, _ => a.length == b.length && matchAll civicAddressEqual a (b.map civicAddressCopy)

def civicAddressesPatchList (a b : List CivicAddress) : Option (List PatchItem) :=
  indexPatchList (fun _ => .last) (fun c => some (civicAddressToJson c))
    (fun cs => some (civicAddressesToJson cs))
    (replaceUnlessEqual civicAddressEqual fun c => some (civicAddressToJson c)) a b

structure ExtMbsServiceArea where
  geographicAreas : List GeographicArea := []
  civicAddresses : List CivicAddress := []
  deriving Inhabited

def extMbsServiceAreaCopy (src : ExtMbsServiceArea) : ExtMbsServiceArea :=
  { geographicAreas := src.geographicAreas.map geographicAreaCopy,
    civicAddresses := src.civicAddresses.map civicAddressCopy }

def extMbsServiceAreaEqual (a b : ExtMbsServiceArea) : Bool :=
  geographicAreasEqual a.geographicAreas b.geographicAreas &&
    civicAddressesEqual a.civicAddresses b.civicAddresses

/-- `_geographic_area_to_openapi` gives `NULL` for every area, and a list with a `NULL`
entry has no encoding, so an area with any geographic area has none. -/
def extMbsServiceAreaToJson (area : ExtMbsServiceArea) : Option Json :=
  match area.geographicAreas with
  | [] => some (.obj (Members.ofList
      [("civicAddressList",
        if area.civicAddresses = [] then none else some (civicAddressesToJson area.civicAddresses))]))
  | _ :: _ => none

def extMbsServiceAreaPatchList (a b : Option ExtMbsServiceArea) : Option (List PatchItem) :=
  structurePatchList extMbsServiceAreaToJson
    (fun x y => do
      let patches ← appendPatches [] (geographicAreasPatchList x.geographicAreas y.geographicAreas)
        [.key "geographicAreaList"]
      appendPatches patches (civicAddressesPatchList x.civicAddresses y.civicAddresses)
        [.key "civicAddressList"])
    a b

end ServiceConsumers.ExternalServiceAreas
