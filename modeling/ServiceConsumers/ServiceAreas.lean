import ServiceConsumers.GreedyMatching
import ServiceConsumers.PatchLists
import ServiceConsumers.WireText

set_option autoImplicit false

/-!
# MBS service areas (`tai.c`, `ncgi.c`, `ncgi-tai.c`, `mbs-service-area.c`)
-/

namespace ServiceConsumers.ServiceAreas

open JsonDocuments PatchLists WireText GreedyMatching

/-- A PLMN identity, by what its accessors return. A zeroed one reads as `000`-`000`. -/
structure PlmnId where
  mcc : ℕ := 0
  mnc : ℕ := 0
  mncLen : ℕ := 3
  deriving DecidableEq, Repr, Inhabited

/-- `ogs_plmn_id_build`. -/
def plmnIdBuild (mcc mnc mncLen : ℕ) : PlmnId := { mcc := mcc, mnc := mnc, mncLen := mncLen }

def plmnIdMccString (p : PlmnId) : String := padDecimal 3 p.mcc

def plmnIdMncString (p : PlmnId) : String := padDecimal p.mncLen p.mnc

def plmnIdToJson (p : PlmnId) : Json :=
  .obj (Members.ofList [("mcc", some (.str (plmnIdMccString p))),
    ("mnc", some (.str (plmnIdMncString p)))])

structure Tai where
  plmnId : PlmnId := {}
  tac : ℕ := 0
  nid : Option ℕ := none
  deriving DecidableEq, Repr, Inhabited

def taiCopy (src : Tai) : Tai := { plmnId := src.plmnId, tac := src.tac, nid := src.nid }

/-- Compares the MCC and MNC as numbers, so `01` and `001` are the same MNC here. -/
def taiEqual (a b : Tai) : Bool :=
  a.tac == b.tac && a.nid == b.nid && a.plmnId.mcc == b.plmnId.mcc && a.plmnId.mnc == b.plmnId.mnc

def nidToJson (nid : ℕ) : Json := .str (uint64ToHexStr nid 11 11)

def taiToJson (tai : Tai) : Json :=
  .obj (Members.ofList [("plmnId", some (plmnIdToJson tai.plmnId)),
    ("tac", some (.str (uint32ToHexStr tai.tac 4 6))), ("nid", tai.nid.map nidToJson)])

def taisToJson (tais : List Tai) : Json := .arr (tais.map taiToJson)

def taisPatchList (a b : List Tai) : Option (List PatchItem) :=
  prefixPatchList taiEqual (fun _ => .last) (fun t => some (taiToJson t))
    (fun ts => some (taisToJson ts)) a b

structure Ncgi where
  plmnId : PlmnId := {}
  nrCellId : ℕ := 0
  nid : Option ℕ := none
  deriving DecidableEq, Repr, Inhabited

def ncgiToJson (ncgi : Ncgi) : Json :=
  .obj (Members.ofList [("plmnId", some (plmnIdToJson ncgi.plmnId)),
    ("nrCellId", some (.str (uint64ToHexStr ncgi.nrCellId 9 9))), ("nid", ncgi.nid.map nidToJson)])

def ncgisToJson (ncgis : List Ncgi) : Json := .arr (ncgis.map ncgiToJson)

def ncgiEqual (a b : Ncgi) : Bool :=
  a.nrCellId == b.nrCellId && a.plmnId == b.plmnId && a.nid == b.nid

def ncgisPatchList (a b : List Ncgi) : Option (List PatchItem) :=
  prefixPatchList ncgiEqual .index (fun n => some (ncgiToJson n))
    (fun ns => some (ncgisToJson ns)) a b

structure NcgiTai where
  tai : Tai := {}
  ncgis : List Ncgi := []
  deriving DecidableEq, Repr, Inhabited

/-- The cells are not copied: the source leaves them as a TODO. -/
def ncgiTaiCopy (src : NcgiTai) : NcgiTai := { tai := taiCopy src.tai, ncgis := [] }

/-- The cells are not compared either. -/
def ncgiTaiEqual (a b : NcgiTai) : Bool := taiEqual a.tai b.tai

def ncgiTaiToJson (n : NcgiTai) : Json :=
  .obj (Members.ofList [("tai", some (taiToJson n.tai)), ("cellList", some (ncgisToJson n.ncgis))])

def ncgiTaisToJson (ns : List NcgiTai) : Json := .arr (ns.map ncgiTaiToJson)

def ncgiTaisPatchList (a b : List NcgiTai) : Option (List PatchItem) :=
  prefixPatchList ncgiTaiEqual .index (fun n => some (ncgiTaiToJson n))
    (fun ns => some (ncgiTaisToJson ns)) a b

structure MbsServiceArea where
  ncgiTais : List NcgiTai := []
  tais : List Tai := []
  deriving DecidableEq, Repr, Inhabited

def mbsServiceAreaCopy (src : MbsServiceArea) : MbsServiceArea :=
  { ncgiTais := src.ncgiTais.map ncgiTaiCopy, tais := src.tais.map taiCopy }

def mbsServiceAreaEqual (a b : MbsServiceArea) : Bool :=
  a.ncgiTais.length == b.ncgiTais.length && a.tais.length == b.tais.length &&
    matchAll ncgiTaiEqual a.ncgiTais (mbsServiceAreaCopy b).ncgiTais &&
    matchAll taiEqual a.tais (mbsServiceAreaCopy b).tais

def mbsServiceAreaToJson (area : MbsServiceArea) : Json :=
  .obj (Members.ofList
    [("ncgiList", if area.ncgiTais = [] then none else some (ncgiTaisToJson area.ncgiTais)),
     ("taiList", if area.tais = [] then none else some (taisToJson area.tais))])

def mbsServiceAreaPatchList (a b : Option MbsServiceArea) : Option (List PatchItem) :=
  structurePatchList (fun area => some (mbsServiceAreaToJson area))
    (fun x y => do
      let patches ← appendPatches [] (ncgiTaisPatchList x.ncgiTais y.ncgiTais) [.key "ncgiList"]
      appendPatches patches (taisPatchList x.tais y.tais) [.key "taiList"])
    a b

end ServiceConsumers.ServiceAreas
