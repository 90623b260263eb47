import ServiceConsumers.CarriedPatches
import ServiceConsumers.ExternalServiceAreas
import ServiceConsumers.OptionalTexts

set_option autoImplicit false

/-!
# Civic addresses (`civic-address.c`)

The copy, the comparison, the differ and the encoder each go through the fields of an address
on their own. Each is written out here as the source has it, and they are compared.
-/

namespace ServiceConsumers.CivicAddresses

open JsonDocuments PatchLists ForeignPatches MemberPatches CarriedPatches
  ExternalServiceAreas OptionalTexts

/-! ## The traversals -/

def civicAddressClear (c : CivicAddress) : CivicAddress :=
  { c with
    country := none, a1 := none, a2 := none, a3 := none, a4 := none, a5 := none, a6 := none,
      prd := none, pod := none, sts := none, hno := none, hns := none, lmk := none, loc := none,
      nam := none, pc := none, bld := none, unit := none, flr := none, room := none, plc := none,
      pcn := none, pobox := none, addcode := none, seat := none, rd := none, rdsec := none,
      rdbr := none, rdsubbr := none, prm := none, pom := none, usageRules := none, method := none,
      providedBy := none }

/-- A field of the source that is there is written over that of the destination. -/
def copyField (dst src : Option String) : Option String :=
  match src with
  | none => dst
  | some s => some s

/-- The destination is new, or is cleared. -/
def civicAddressCopyInto (dst : Option CivicAddress) (src : CivicAddress) : CivicAddress :=
  let new : CivicAddress := match dst with
    | none => {}
    | some d => civicAddressClear d
  { new with
    country := copyField new.country src.country, a1 := copyField new.a1 src.a1,
      a2 := copyField new.a2 src.a2, a3 := copyField new.a3 src.a3, a4 := copyField new.a4 src.a4,
      a5 := copyField new.a5 src.a5, a6 := copyField new.a6 src.a6,
      prd := copyField new.prd src.prd, pod := copyField new.pod src.pod,
      sts := copyField new.sts src.sts, hno := copyField new.hno src.hno,
      hns := copyField new.hns src.hns, lmk := copyField new.lmk src.lmk,
      loc := copyField new.loc src.loc, nam := copyField new.nam src.nam,
      pc := copyField new.pc src.pc, bld := copyField new.bld src.bld,
      unit := copyField new.unit src.unit, flr := copyField new.flr src.flr,
      room := copyField new.room src.room, plc := copyField new.plc src.plc,
      pcn := copyField new.pcn src.pcn, pobox := copyField new.pobox src.pobox,
      addcode := copyField new.addcode src.addcode, seat := copyField new.seat src.seat,
      rd := copyField new.rd src.rd, rdsec := copyField new.rdsec src.rdsec,
      rdbr := copyField new.rdbr src.rdbr, rdsubbr := copyField new.rdsubbr src.rdsubbr,
      prm := copyField new.prm src.prm, pom := copyField new.pom src.pom,
      usageRules := copyField new.usageRules src.usageRules,
      method := copyField new.method src.method,
      providedBy := copyField new.providedBy src.providedBy }

/-- The fields whose presence is compared, first of all. -/
def presenceChecks (a b : CivicAddress) : List (Option String × Option String) :=
  [(a.country, b.country), (a.a1, b.a1), (a.a2, b.a2), (a.a3, b.a3), (a.a4, b.a4), (a.a5, b.a5),
   (a.a6, b.a6), (a.prd, b.prd), (a.pod, b.pod), (a.sts, b.sts), (a.hno, b.hno), (a.hns, b.hns),
   (a.lmk, b.lmk), (a.loc, b.loc), (a.nam, b.nam), (a.pc, b.pc), (a.bld, b.bld), (a.unit, b.unit),
   (a.flr, b.flr), (a.room, b.room), (a.plc, b.plc), (a.pcn, b.pcn), (a.pobox, b.pobox),
   (a.addcode, b.addcode), (a.seat, b.seat), (a.rd, b.rd), (a.rdsec, b.rdsec), (a.rdbr, b.rdbr),
   (a.rdsubbr, b.rdsubbr), (a.prm, b.prm), (a.pom, b.pom), (a.usageRules, b.usageRules),
   (a.method, b.method), (a.providedBy, b.providedBy)]

/-- The fields whose strings are compared, after that. -/
def stringChecks (a b : CivicAddress) : List (Option String × Option String) :=
  [(a.country, b.country), (a.a1, b.a1), (a.a2, b.a2), (a.a3, b.a3), (a.a4, b.a4), (a.a5, b.a5),
   (a.a6, b.a6), (a.prd, b.prd), (a.pod, b.pod), (a.sts, b.sts), (a.hno, b.hno), (a.hns, b.hns),
   (a.lmk, b.lmk), (a.loc, b.loc), (a.nam, b.nam), (a.pc, b.pc), (a.bld, b.bld), (a.unit, b.unit),
   (a.flr, b.flr), (a.room, b.room), (a.plc, b.plc), (a.pcn, b.pcn), (a.pobox, b.pobox),
   (a.addcode, b.addcode), (a.seat, b.seat), (a.rd, b.rd), (a.rdsec, b.rdsec), (a.rdbr, b.rdbr),
   (a.rdsubbr, b.rdsubbr), (a.prm, b.prm), (a.pom, b.pom), (a.usageRules, b.usageRules),
   (a.method, b.method), (a.providedBy, b.providedBy)]

def civicAddressCompare (a b : CivicAddress) : Option Bool :=
  if (presenceChecks a b).all fun f => f.1.isSome == f.2.isSome then
    (stringChecks a b).allM fun f => stringAgrees f.1 f.2
  else some false

/-- The invocations of `PATCH_FIELD`. -/
def patchFields (a b : CivicAddress) : List (String × Option String × Option String) :=
  [("country", a.country, b.country), ("A1", a.a1, b.a1), ("A2", a.a2, b.a2), ("A3", a.a3, b.a3),
   ("A4", a.a4, b.a4), ("A5", a.a5, b.a5), ("A6", a.a6, b.a6), ("PRD", a.prd, b.prd),
   ("POD", a.pod, b.pod), ("STS", a.sts, b.sts), ("HNO", a.hno, b.hno), ("HNS", a.hns, b.hns),
   ("LMK", a.lmk, b.lmk), ("LOC", a.loc, b.loc), ("NAM", a.nam, b.nam), ("PC", a.pc, b.pc),
   ("BLD", a.bld, b.bld), ("UNIT", a.unit, b.unit), ("FLR", a.flr, b.flr), ("ROOM", a.room, b.room),
   ("PLC", a.plc, b.plc), ("PCN", a.pcn, b.pcn), ("POBOX", a.pobox, b.pobox),
   ("ADDCODE", a.addcode, b.addcode), ("SEAT", a.seat, b.seat), ("RD", a.rd, b.rd),
   ("RDSEC", a.rdsec, b.rdsec), ("RDBR", a.rdbr, b.rdbr), ("RDSUBBR", a.rdsubbr, b.rdsubbr),
   ("PRM", a.prm, b.prm), ("POM", a.pom, b.pom), ("usageRules", a.usageRules, b.usageRules),
   ("method", a.method, b.method), ("providedBy", a.providedBy, b.providedBy)]

def civicAddressPatchList (a b : CivicAddress) : List PatchItem :=
  (patchFields a b).flatMap fun f => optionalPatch f.1 Json.str f.2.1 f.2.2

/-- What the constructor of an address is called with. -/
def civicAddressToOpenapi (c : CivicAddress) : List (Option String) :=
  [c.country, c.a1, c.a2, c.a3, c.a4, c.a5, c.a6, c.prd, c.pod, c.sts, c.hno, c.hns, c.lmk,
   c.loc, c.nam, c.pc, c.bld, c.unit, c.flr, c.room, c.plc, c.pcn, c.pobox, c.addcode, c.seat, c.rd,
   c.rdsec, c.rdbr, c.rdsubbr, c.prm, c.pom, c.usageRules, c.method, c.providedBy]

/-- The attributes of an address, in the order in which its constructor takes them. -/
def civicAddressAttributes : List String :=
  ["country", "A1", "A2", "A3", "A4", "A5", "A6", "PRD", "POD", "STS", "HNO", "HNS", "LMK", "LOC",
   "NAM", "PC", "BLD", "UNIT", "FLR", "ROOM", "PLC", "PCN", "POBOX", "ADDCODE", "SEAT", "RD",
   "RDSEC", "RDBR", "RDSUBBR", "PRM", "POM", "usageRules", "method", "providedBy"]

def openapiCivicAddressToJson (members : List (Option String)) : Json :=
  .obj (Members.ofList
    (List.zipWith (fun name v => (name, v.map Json.str)) civicAddressAttributes members))

def civicAddressEncode (c : CivicAddress) : Json :=
  openapiCivicAddressToJson (civicAddressToOpenapi c)

/-! ## They cover the same fields -/

variable (dst : Option CivicAddress) (a b c : CivicAddress)

theorem civicAddressClear_eq : civicAddressClear c = {} := rfl

theorem copyField_none (src : Option String) : copyField none src = src := by
  cases src <;> rfl

/-- Nothing of the destination stays. -/
theorem civicAddressCopyInto_eq : civicAddressCopyInto dst c = civicAddressCopy c := by
  cases dst <;>
    simp [civicAddressCopyInto, civicAddressClear_eq, copyField_none, civicAddressCopy]

theorem stringChecks_eq : stringChecks a b = presenceChecks a b := rfl

theorem patchFields_eq : (patchFields a b).map Prod.snd = presenceChecks a b := rfl

theorem patchFields_names : (patchFields a b).map Prod.fst = civicAddressAttributes := rfl

theorem civicAddressEncode_eq : civicAddressEncode c = civicAddressToJson c := rfl

theorem presenceChecks_iff : (∀ f ∈ presenceChecks a b, f.1 = f.2) ↔ a = b := by
  cases a
  cases b
  simp [presenceChecks]

theorem civicAddressEqual_iff : civicAddressEqual a b = true ↔ a = b := by
  rw [civicAddressEqual, beq_iff_eq]
  cases a
  cases b
  simp [civicAddressFields]

/-- The comparison always comes to an end, and finds whether the addresses are the same. -/
theorem civicAddressCompare_eq : civicAddressCompare a b = some (decide (a = b)) := by
  unfold civicAddressCompare
  split
  · rename_i hpresence
    simp only [List.all_eq_true, beq_iff_eq] at hpresence
    rw [stringChecks_eq, allM_stringAgrees hpresence, Option.some.injEq, Bool.eq_iff_iff,
      List.all_eq_true, decide_eq_true_eq, ← presenceChecks_iff]
    simp only [beq_iff_eq]
  · rename_i hpresence
    have hne : a ≠ b := by
      rintro rfl
      refine hpresence (List.all_eq_true.2 fun f hf => ?_)
      rw [(presenceChecks_iff a a).2 rfl f hf]
      exact beq_self_eq_true _
    rw [decide_eq_false hne]

theorem civicAddressCompare_eq_equal : civicAddressCompare a b = some (civicAddressEqual a b) := by
  rw [civicAddressCompare_eq, Option.some.injEq, Bool.eq_iff_iff, decide_eq_true_eq,
    civicAddressEqual_iff]

/-! ## What they do together -/

theorem civicAddressPatchList_eq_nil : civicAddressPatchList a b = [] ↔ a = b := by
  rw [civicAddressPatchList, List.flatMap_eq_nil_iff, ← presenceChecks_iff, ← patchFields_eq,
    List.forall_mem_map]
  refine forall₂_congr fun f _ => ?_
  rw [optionalPatch_eq, List.map_eq_nil_iff, optionalItems_eq_nil]

/-- The fields, as members with their patches. -/
def addressRows (a b : CivicAddress) : List MemberPatch :=
  (patchFields a b).map fun f =>
    ⟨f.1, f.2.1.map Json.str, optionalItems Json.str f.2.1 f.2.2, f.2.2.map Json.str⟩

theorem civicAddressPatchList_rows : civicAddressPatchList a b = objectPatch (addressRows a b) := by
  rw [civicAddressPatchList, objectPatch, addressRows, List.flatMap_map]
  simp only [optionalPatch_eq]

theorem applyPatch_civicAddressPatchList :
    applyPatch (civicAddressEncode a) (civicAddressPatchList a b) =
      some (civicAddressEncode b) := by
  have hnames : ((addressRows a b).map MemberPatch.name).Nodup := by
    have hattributes : (addressRows a b).map MemberPatch.name = civicAddressAttributes := rfl
    rw [hattributes]
    decide
  have hbefore : objectBefore (addressRows a b) = civicAddressEncode a := rfl
  have hafter : objectAfter (addressRows a b) = civicAddressEncode b := rfl
  rw [civicAddressPatchList_rows, ← hbefore, ← hafter, applyPatch_object_iff hnames]
  intro r hr
  obtain ⟨f, -, rfl⟩ := List.mem_map.1 hr
  exact patch_optional Json.str f.2.1 f.2.2

/-- A copy equals what it was made of, the patch between two addresses is empty exactly when
they are equal, and it turns the encoding of the one into that of the other. -/
theorem civicAddress_operations_agree :
    civicAddressCompare (civicAddressCopyInto dst a) a = some true ∧
      (civicAddressPatchList a b = [] ↔ civicAddressCompare a b = some true) ∧
      applyPatch (civicAddressEncode a) (civicAddressPatchList a b) =
        some (civicAddressEncode b) := by
  refine ⟨?_, ?_, applyPatch_civicAddressPatchList a b⟩
  · rw [civicAddressCopyInto_eq, civicAddressCopy, civicAddressCompare_eq, decide_eq_true rfl]
  · rw [civicAddressPatchList_eq_nil, civicAddressCompare_eq, Option.some.injEq,
      decide_eq_true_eq]

end ServiceConsumers.CivicAddresses
