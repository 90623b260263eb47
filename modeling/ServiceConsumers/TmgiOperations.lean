import ServiceConsumers.ConsumerState

set_option autoImplicit false

/-!
# TMGI objects and their requests (`tmgi.c`, `nmbsmf-tmgi-build.c`)
-/

namespace ServiceConsumers.TmgiOperations

open ObjectStore ServiceAreas PublicSessions ConsumerState

/-- `_tmgi_create`: a new object at the end of the registry. -/
def tmgiCreate (w : World) (callback : Option ResultCallback) : World × Ref :=
  ({ w with
      tmgis := w.tmgis ++ [w.next]
      tmgiStore := w.tmgiStore.set w.next { callback := callback }
      next := w.next + 1 }, w.next)

/-- `_context_remove_tmgi`. An object that has left the registry would be unlinked from the
neighbours that it had then, which loses what was added since; the model stops there. -/
def contextRemoveTmgi (w : World) (t : Ref) : Except Fault World :=
  if t ∈ w.tmgis then .ok { w with tmgis := w.tmgis.erase t } else .error .notAMember

def tmgiFree (w : World) (t : Ref) : Except Fault World := do
  let x ← w.tmgiAt t
  let w ← contextRemoveTmgi w t
  let w := w.refCountSbiObjectUnref x.sbiObject
  .ok { w with tmgiStore := w.tmgiStore.free t }

/-! ## Setters -/

def tmgiSetMbsServiceId (mbsServiceId : Option String) (x : PrivTmgi) : PrivTmgi :=
  { x with allocated := true, tmgi := { x.tmgi with mbsServiceId := mbsServiceId } }

def tmgiSetPlmn (mcc mnc : ℕ) (x : PrivTmgi) : PrivTmgi :=
  { x with
    allocated := true
    tmgi :=
      if x.tmgi.plmn.mcc ≠ mcc ∨ x.tmgi.plmn.mnc ≠ mnc then
        { x.tmgi with plmn := plmnIdBuild mcc mnc (if mnc < 100 then 2 else 3) }
      else x.tmgi }

def tmgiSetExpiryTime (expiryTime : ℤ) (x : PrivTmgi) : PrivTmgi :=
  { x with allocated := true, tmgi := { x.tmgi with expiryTime := expiryTime } }

def tmgiSetCallback (callback : Option ResultCallback) (x : PrivTmgi) : PrivTmgi :=
  { x with callback := callback }

/-- `_tmgi_replace_sbi_object`. -/
def tmgiReplaceSbiObject (w : World) (t : Ref) (sbi : Option Ref) : Except Fault World := do
  let x ← w.tmgiAt t
  let w := w.refCountSbiObjectUnref x.sbiObject
  let w := w.refCountSbiObjectRef sbi
  .ok (w.modifyTmgi t fun x => { x with sbiObject := sbi })

/-- `_tmgi_copy`: the destination takes the source's content and SBI object; without one it
becomes a new registered object. -/
def tmgiCopy (w : World) (dest src : Option Ref) : Except Fault (World × Option Ref) :=
  if dest = src then .ok (w, dest)
  else
    match src with
    | none =>
        match dest with
        | none => .ok (w, none)
        | some d => do
            let w ← tmgiFree w d
            .ok (w, none)
    | some t => do
        let x ← w.tmgiAt t
        let (w, d) := match dest with
          | none => tmgiCreate w x.callback
          | some d => (w, d)
        let _ ← w.tmgiAt d
        let w := w.modifyTmgi d fun y => { y with tmgi := x.tmgi }
        let w ← tmgiReplaceSbiObject w d x.sbiObject
        .ok (w, some d)

/-! ## Requests -/

def tmgiContents (w : World) (ts : List Ref) : Except Fault (List Tmgi) :=
  ts.mapM fun t => do
    let x ← w.tmgiAt t
    .ok x.tmgi

/-- `_nmbsmf_tmgi_build_create`. -/
def nmbsmfTmgiBuildCreate (w : World) (newTmgis refreshTmgis : List Ref) :
    Except Fault Request := do
  let refresh ← tmgiContents w refreshTmgis
  .ok (.tmgiAllocate newTmgis.length refresh)

/-- `_nmbsmf_tmgi_build_remove`. -/
def nmbsmfTmgiBuildRemove (w : World) (tmgis : List Ref) : Except Fault Request := do
  let contents ← tmgiContents w tmgis
  .ok (.tmgiDeallocate contents)

/-- One node of the new list gives up its SBI object for the shared one. -/
def shareSbiObject (o : Ref) (w : World) (t : Ref) : Except Fault World := do
  let x ← w.tmgiAt t
  let w := w.refCountSbiObjectUnref x.sbiObject
  let w := w.refCountSbiObjectRef (some o)
  .ok (w.modifyTmgi t fun x => { x with sbiObject := some o })

/-- `_tmgi_list_send_allocate`: the new TMGIs of one request share a new SBI object. With an
empty list nobody holds it, and it is gone when the transaction is added. -/
def tmgiListSendAllocate (w : World) (newTmgis refreshTmgis : Option (List Ref)) :
    Except Fault World :=
  match newTmgis, refreshTmgis with
  | none, none => .ok w
  | some ts, refresh => do
      let (w, o) := w.refCountSbiObjectNew
      let w ← ts.foldlM (shareSbiObject o) w
      let w := w.refCountSbiObjectUnref (some o)
      if ts = [] then .error .danglingSbiObject
      else
        w.sbiXactAdd (some o) (.tmgis (ts ++ refresh.getD []))
          (nmbsmfTmgiBuildCreate w ts (refresh.getD []))
  | none, some [] => .error .emptyRefreshList
  | none, some (t :: ts) => do
      let x ← w.tmgiAt t
      w.sbiXactAdd x.sbiObject (.tmgis (t :: ts)) (nmbsmfTmgiBuildCreate w [] (t :: ts))

def tmgiSendAllocate (w : World) (t : Ref) : Except Fault World :=
  tmgiListSendAllocate w (some [t]) none

/-- The registered TMGIs that satisfy a condition, in registry order. -/
def registeredWhere (w : World) (p : PrivTmgi → Bool) : List Ref :=
  w.tmgis.filter fun t => (w.tmgiStore t).any p

def isExpired (now : ℤ) (x : PrivTmgi) : Bool :=
  x.tmgi.expiryTime ≠ 0 && x.tmgi.expiryTime ≤ now

def tmgiSendAllocateAll (w : World) : Except Fault World :=
  tmgiListSendAllocate w (some (registeredWhere w fun x => !x.allocated)) none

def tmgiSendRefresh (w : World) (t : Ref) : Except Fault World :=
  tmgiListSendAllocate w none (some [t])

def tmgiSendRefreshAll (w : World) (now : ℤ) : Except Fault World :=
  tmgiListSendAllocate w none (some (registeredWhere w fun x => x.allocated && isExpired now x))

def tmgiSendAllocateAndRefreshAll (w : World) (now : ℤ) : Except Fault World :=
  tmgiListSendAllocate w (some (registeredWhere w fun x => !x.allocated))
    (some (registeredWhere w fun x => x.allocated && isExpired now x))

/-- `_tmgi_list_send_deallocate`. -/
def tmgiListSendDeallocate (w : World) (tmgis : List Ref) : Except Fault World :=
  match tmgis with
  | [] => .ok w
  | t :: ts => do
      let x ← w.tmgiAt t
      match x.sbiObject with
      | some o => w.sbiXactAdd (some o) (.tmgis (t :: ts)) (nmbsmfTmgiBuildRemove w (t :: ts))
      | none =>
          let (w, o) := w.refCountSbiObjectNew
          let w := w.modifyTmgi t fun x => { x with sbiObject := some o }
          w.sbiXactAdd (some o) (.tmgis (t :: ts)) (nmbsmfTmgiBuildRemove w (t :: ts))

def tmgiSendDeallocate (w : World) (t : Ref) : Except Fault World :=
  tmgiListSendDeallocate w [t]

/-! ## Matching TMGIs of messages -/

/-- `_tmgi_to_openapi_type`. -/
def tmgiToOpenapiType (c : Tmgi) : ApiTmgi :=
  { mbsServiceId := c.mbsServiceId
    mcc := plmnIdMccString c.plmn
    mnc := plmnIdMncString c.plmn
    mccNumber := c.plmn.mcc
    mncNumber := c.plmn.mnc }

/-- A TMGI without a service id that was never allocated may stand for any service id. -/
def tmgiMatches (api : ApiTmgi) (x : PrivTmgi) : Bool :=
  (match api.mbsServiceId, x.tmgi.mbsServiceId with
    | some i, some j => i == j
    | some _, none => !x.allocated
    | none, some _ => false
    | none, none => true) &&
  (!x.allocated ||
    (api.mcc == plmnIdMccString x.tmgi.plmn && api.mnc == plmnIdMncString x.tmgi.plmn))

def tmgiFindMatchingOpenapiType (w : World) (api : ApiTmgi) : Option Ref :=
  w.tmgis.find? fun t => (w.tmgiStore t).any (tmgiMatches api)

/-! ## Calls of the application -/

inductive TmgiCall where
  | create (callback : Option ResultCallback)
  | new
  | free (t : Ref)
  | setMbsServiceId (t : Ref) (mbsServiceId : Option String)
  | setPlmn (t : Ref) (mcc mnc : ℕ)
  | setExpiryTime (t : Ref) (expiryTime : ℤ)
  | setCallback (t : Ref) (callback : Option ResultCallback)
  | sendAllocate (t : Ref)
  | sendDeallocate (t : Ref)
  | sendAllocateAll
  | sendRefresh (t : Ref)
  | sendRefreshAll (now : ℤ)
  | sendAllocateAndRefreshAll (now : ℤ)

/-- A setter called on a live TMGI. -/
def tmgiSet (w : World) (t : Ref) (f : PrivTmgi → PrivTmgi) : Except Fault World := do
  let _ ← w.tmgiAt t
  .ok (w.modifyTmgi t f)

def tmgiStep (w : World) : TmgiCall → Except Fault World
  | .create callback =>
      let (w, t) := tmgiCreate w callback
      tmgiSendAllocate w t
  | .new => .ok (tmgiCreate w none).1
  | .free t => tmgiFree w t
  | .setMbsServiceId t mbsServiceId => tmgiSet w t (tmgiSetMbsServiceId mbsServiceId)
  | .setPlmn t mcc mnc => tmgiSet w t (tmgiSetPlmn mcc mnc)
  | .setExpiryTime t expiryTime => tmgiSet w t (tmgiSetExpiryTime expiryTime)
  | .setCallback t callback => tmgiSet w t (tmgiSetCallback callback)
  | .sendAllocate t => tmgiSendAllocate w t
  | .sendDeallocate t => tmgiSendDeallocate w t
  | .sendAllocateAll => tmgiSendAllocateAll w
  | .sendRefresh t => tmgiSendRefresh w t
  | .sendRefreshAll now => tmgiSendRefreshAll w now
  | .sendAllocateAndRefreshAll now => tmgiSendAllocateAndRefreshAll w now

end ServiceConsumers.TmgiOperations
