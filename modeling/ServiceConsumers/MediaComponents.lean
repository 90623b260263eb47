import ServiceConsumers.PatchLists
import ServiceConsumers.WireText

set_option autoImplicit false

/-!
# Media components (`flow-description.c`, `mbs-media-info.c`, `arp.c`, `mbs-qos-req.c`,
`mbs-media-comp.c`)
-/

namespace ServiceConsumers.MediaComponents

open JsonDocuments PatchLists WireText

structure FlowDescription where
  string : Option String := none
  deriving DecidableEq, Repr, Inhabited

/-- A description without its string has no copy; the caller then links a `NULL` node. -/
def flowDescriptionCopy (src : FlowDescription) : Option FlowDescription :=
  src.string.map fun s => { string := some s }

def flowDescriptionsCopy (src : List FlowDescription) : Option (List FlowDescription) :=
  src.mapM flowDescriptionCopy

/-- Only the lengths decide: `found` starts out true in the source, so a description
without a match is never reported. The copy of `b` is made first. -/
def flowDescriptionsEqual (a b : Option (List FlowDescription)) : Option Bool :=
  match a, b with
  | none, none => some true
  | some xs, some ys =>
      if xs.length = ys.length then (flowDescriptionsCopy ys).map fun _ => true else some false
  | _, _ => some false

def flowDescriptionToJson (f : FlowDescription) : Option Json := f.string.map .str

/-- An entry without a string adds nothing to the array. -/
def flowDescriptionsToJson (fs : List FlowDescription) : Option Json :=
  if fs = [] then none else some (.arr (fs.filterMap flowDescriptionToJson))

def flowDescriptionPatchList (a b : FlowDescription) : List PatchItem :=
  match a.string, b.string with
  | none, none => []
  | none, some _ => [jsonPatchNew .add [] (flowDescriptionToJson b)]
  | some _, none => [jsonPatchNew .remove [] none]
  | some x, some y =>
      if x = y then [] else [jsonPatchNew .replace [] (flowDescriptionToJson b)]

def flowDescriptionsPatchList (a b : Option (List FlowDescription)) : Option (List PatchItem) :=
  indexPatchList (fun _ => .last) flowDescriptionToJson flowDescriptionsToJson
    (fun idx x y => jsonPatchesAppendList [] (flowDescriptionPatchList x y) [.index idx])
    (a.getD []) (b.getD [])

inductive MediaType where
  | null
  | audio
  | video
  | data
  | application
  | control
  | text
  | message
  | other
  deriving DecidableEq, Repr, Inhabited

def mediaTypeToString : MediaType → String
  | .null => "NULL"
  | .audio => "AUDIO"
  | .video => "VIDEO"
  | .data => "DATA"
  | .application => "APPLICATION"
  | .control => "CONTROL"
  | .text => "TEXT"
  | .message => "MESSAGE"
  | .other => "OTHER"

structure MbsMediaInfo where
  mbsMediaType : MediaType := .null
  maxRequestedMbsBandwidthDownlink : Option ℕ := none
  minRequestedMbsBandwidthDownlink : Option ℕ := none
  codec0 : Option String := none
  codec1 : Option String := none
  deriving DecidableEq, Repr, Inhabited

/-- The codecs with the first slot filled first. -/
def codecSlots (info : MbsMediaInfo) : Option String × Option String :=
  match info.codec0 with
  | some c => (some c, info.codec1)
  | none => (info.codec1, none)

def mbsMediaInfoCopy (src : MbsMediaInfo) : MbsMediaInfo :=
  { src with codec0 := (codecSlots src).1, codec1 := (codecSlots src).2 }

/-- The comparison of the two codec slots, in either order. -/
def codecsEqual (a b : Option String × Option String) : Bool :=
  match a, b with
  | (none, none), (none, none) => true
  | (some x, none), (some y, none) => x == y
  | (some x1, some x2), (some y1, some y2) =>
      if x1 == y1 then x2 == y2 else x1 == y2 && x2 == y1
  | _, _ => false

/-- The bandwidths are compared for presence only. -/
def mbsMediaInfoEqual (a b : Option MbsMediaInfo) : Bool :=
  match a, b with
  | none, none => true
  | some x, some y =>
      x.mbsMediaType == y.mbsMediaType &&
        x.maxRequestedMbsBandwidthDownlink.isSome == y.maxRequestedMbsBandwidthDownlink.isSome &&
        x.minRequestedMbsBandwidthDownlink.isSome == y.minRequestedMbsBandwidthDownlink.isSome &&
        codecsEqual (codecSlots x) (codecSlots y)
  | _, _ => false

def bitrateToJson (br : ℕ) : Json := .str (bitrateToStr br)

def mbsMediaInfoToJson (info : MbsMediaInfo) : Json :=
  .obj (Members.ofList
    [("mbsMedType", if info.mbsMediaType = .null then none
        else some (.str (mediaTypeToString info.mbsMediaType))),
     ("maxReqMbsBwDl", info.maxRequestedMbsBandwidthDownlink.map bitrateToJson),
     ("minReqMbsBwDl", info.minRequestedMbsBandwidthDownlink.map bitrateToJson),
     ("codecs", match info.codec0, info.codec1 with
        | none, none => none
        | c, d => some (.arr (c.toList.map .str ++ d.toList.map .str)))])

def mediaTypePatch (a b : MediaType) : List PatchItem :=
  if a = b then []
  else if a = .null then
    [jsonPatchNew .add [.key "mbsMedType"] (some (.str (mediaTypeToString b)))]
  else if b = .null then [jsonPatchNew .remove [.key "mbsMedType"] none]
  else [jsonPatchNew .replace [.key "mbsMedType"] (some (.str (mediaTypeToString b)))]

/-- The two codec slots in turn, as the source compares them. -/
def codecsPatch (a b : Option String × Option String) : List PatchItem :=
  (match a.1, b.1 with
    | none, none => []
    | none, some c => [jsonPatchNew .add [.key "codecs", .last] (some (.str c))]
    | some _, none => [jsonPatchNew .remove [.key "codecs"] none]
    | some x, some c =>
        if x = c then [] else [jsonPatchNew .replace [.key "codecs", .index 0] (some (.str c))]) ++
  (match a.2, b.2 with
    | none, none => []
    | none, some c => [jsonPatchNew .add [.key "codecs", .last] (some (.str c))]
    | some _, none =>
        if b.1.isSome then [jsonPatchNew .remove [.key "codecs", .index 1] none] else []
    | some x, some c =>
        if x = c then [] else [jsonPatchNew .replace [.key "codecs", .index 1] (some (.str c))])

def mbsMediaInfoPatchList (a b : Option MbsMediaInfo) : Option (List PatchItem) :=
  structurePatchList (fun info => some (mbsMediaInfoToJson info))
    (fun x y => some
      (mediaTypePatch x.mbsMediaType y.mbsMediaType ++
        optionalPatch "maxReqMbsBwDl" bitrateToJson x.maxRequestedMbsBandwidthDownlink
          y.maxRequestedMbsBandwidthDownlink ++
        optionalPatch "minReqMbsBwDl" bitrateToJson x.minRequestedMbsBandwidthDownlink
          y.minRequestedMbsBandwidthDownlink ++
        codecsPatch (codecSlots x) (codecSlots y)))
    a b

inductive PreemptionCapability where
  | null
  | notPreempt
  | mayPreempt
  deriving DecidableEq, Repr, Inhabited

def preemptionCapabilityToString : PreemptionCapability → String
  | .null => "NULL"
  | .notPreempt => "NOT_PREEMPT"
  | .mayPreempt => "MAY_PREEMPT"

inductive PreemptionVulnerability where
  | null
  | notPreemptable
  | preemptable
  deriving DecidableEq, Repr, Inhabited

def preemptionVulnerabilityToString : PreemptionVulnerability → String
  | .null => "NULL"
  | .notPreemptable => "NOT_PREEMPTABLE"
  | .preemptable => "PREEMPTABLE"

structure Arp where
  priorityLevel : ℕ := 0
  preemptionCapability : PreemptionCapability := .null
  preemptionVulnerability : PreemptionVulnerability := .null
  deriving DecidableEq, Repr, Inhabited

def arpToJson (arp : Arp) : Json :=
  .obj (Members.ofList
    [("priorityLevel", some (.num arp.priorityLevel)),
     ("preemptCap", some (.str (preemptionCapabilityToString arp.preemptionCapability))),
     ("preemptVuln", some (.str (preemptionVulnerabilityToString arp.preemptionVulnerability)))])

/-- A required member, replaced when it differs. -/
def requiredPatch {α : Type} [DecidableEq α] (name : String) (toJson : α → Json) (a b : α) :
    List PatchItem :=
  if a = b then [] else [jsonPatchNew .replace [.key name] (some (toJson b))]

def arpPatchList (a b : Option Arp) : Option (List PatchItem) :=
  structurePatchList (fun arp => some (arpToJson arp))
    (fun x y => some
      (requiredPatch "priorityLevel" (fun n : ℕ => .num n) x.priorityLevel y.priorityLevel ++
        requiredPatch "preemptCap" (fun c => .str (preemptionCapabilityToString c))
          x.preemptionCapability y.preemptionCapability ++
        requiredPatch "preemptVuln" (fun v => .str (preemptionVulnerabilityToString v))
          x.preemptionVulnerability y.preemptionVulnerability))
    a b

structure MbsQosReq where
  fiveQi : ℕ := 0
  guarenteedBitRate : Option ℕ := none
  maxBitRate : Option ℕ := none
  averagingWindow : Option ℕ := none
  reqMbsArp : Option Arp := none
  deriving DecidableEq, Repr, Inhabited

def mbsQosReqEqual (a b : Option MbsQosReq) : Bool := a == b

def averagingWindowToJson (w : ℕ) : Json := .num w

def mbsQosReqToJson (q : MbsQosReq) : Json :=
  .obj (Members.ofList
    [("5qi", some (.num q.fiveQi)),
     ("guarBitRate", q.guarenteedBitRate.map bitrateToJson),
     ("maxBitRate", q.maxBitRate.map bitrateToJson),
     ("averWindow", q.averagingWindow.map averagingWindowToJson),
     ("reqMbsArp", q.reqMbsArp.map arpToJson)])

/-- The differ names the 5QI `5Qi` and the ARP `regMbsArp`; the encoder has `5qi` and
`reqMbsArp`. -/
def mbsQosReqPatchList (a b : Option MbsQosReq) : Option (List PatchItem) :=
  structurePatchList (fun q => some (mbsQosReqToJson q))
    (fun x y =>
      appendPatches
        (requiredPatch "5Qi" (fun n : ℕ => .num n) x.fiveQi y.fiveQi ++
          optionalPatch "guarBitRate" bitrateToJson x.guarenteedBitRate y.guarenteedBitRate ++
          optionalPatch "maxBitRate" bitrateToJson x.maxBitRate y.maxBitRate ++
          optionalPatch "averWindow" averagingWindowToJson x.averagingWindow y.averagingWindow)
        (arpPatchList x.reqMbsArp y.reqMbsArp) [.key "regMbsArp"])
    a b

structure MbsMediaComp where
  id : ℤ := 0
  flowDescriptions : Option (List FlowDescription) := none
  mbsSdfReservePriority : ℕ := 0
  mediaInfo : Option MbsMediaInfo := none
  qosRef : Option String := none
  mbsQosReq : Option MbsQosReq := none
  deriving DecidableEq, Repr, Inhabited

def mbsMediaCompCopy (src : MbsMediaComp) : Option MbsMediaComp := do
  let flows ← match src.flowDescriptions with
    | none => some none
    | some fs => (flowDescriptionsCopy fs).map some
  return { src with flowDescriptions := flows, mediaInfo := src.mediaInfo.map mbsMediaInfoCopy }

/-- The component numbers are not compared. -/
def mbsMediaCompEqual (a b : MbsMediaComp) : Option Bool :=
  if a.mbsSdfReservePriority ≠ b.mbsSdfReservePriority ∨ a.qosRef ≠ b.qosRef then some false
  else do
    let flows ← flowDescriptionsEqual a.flowDescriptions b.flowDescriptions
    return flows && mbsMediaInfoEqual a.mediaInfo b.mediaInfo &&
      mbsQosReqEqual a.mbsQosReq b.mbsQosReq

/-- `PRIO_1` to `PRIO_16`; zero is an unset priority. -/
def reservePriorityToJson (prio : ℕ) : Json := .str ("PRIO_" ++ toString prio)

def reservePriority (prio : ℕ) : Option ℕ := if prio = 0 then none else some prio

def mediaCompNumberToJson (id : ℤ) : Json := .num id

/-- The media info, else the QoS reference, else the QoS requirements are sent. -/
def mbsMediaCompToJson (c : MbsMediaComp) : Json :=
  .obj (Members.ofList
    [("mbsMedCompNum", some (mediaCompNumberToJson c.id)),
     ("mbsFlowDescs", flowDescriptionsToJson (c.flowDescriptions.getD [])),
     ("mbsSdfResPrio", (reservePriority c.mbsSdfReservePriority).map reservePriorityToJson),
     ("mbsMediaInfo", c.mediaInfo.map mbsMediaInfoToJson),
     ("qosRef", if c.mediaInfo.isSome then none else c.qosRef.map .str),
     ("mbsQoSReq", if c.mediaInfo.isSome || c.qosRef.isSome then none
        else c.mbsQosReq.map mbsQosReqToJson)])

def reservePriorityPatch (a b : ℕ) : List PatchItem :=
  optionalPatch "mbsSdfResPrio" reservePriorityToJson (reservePriority a) (reservePriority b)

/-- Two references that are both set are not compared: the guard looks at presence. -/
def qosRefPatch (a b : Option String) : List PatchItem :=
  if a.isSome = b.isSome then [] else optionalPatch "qosRef" .str a b

def mbsMediaCompPatchList (a b : MbsMediaComp) : Option (List PatchItem) := do
  let patches ← appendPatches
    (requiredPatch "mbsMedCompNum" mediaCompNumberToJson a.id b.id)
    (flowDescriptionsPatchList a.flowDescriptions b.flowDescriptions) [.key "mbsFlowDescs"]
  let patches ← appendPatches
    (patches ++ reservePriorityPatch a.mbsSdfReservePriority b.mbsSdfReservePriority)
    (mbsMediaInfoPatchList a.mediaInfo b.mediaInfo) [.key "mbsMediaInfo"]
  appendPatches (patches ++ qosRefPatch a.qosRef b.qosRef)
    (mbsQosReqPatchList a.mbsQosReq b.mbsQosReq) [.key "mbsQoSReq"]

/-- The components of a hash table, in the order of its iterator; the key of a component
is its own number. -/
abbrev MediaCompTable := List MbsMediaComp

def findMediaComp (t : MediaCompTable) (id : ℤ) : Option MbsMediaComp :=
  t.find? fun c => c.id = id

def mediaCompKey (id : ℤ) : Token := .key (toString id)

def mbsMediaCompsToJson (t : MediaCompTable) : Json :=
  .obj (Members.ofList (t.map fun c => (toString c.id, some (mbsMediaCompToJson c))))

/-- First the components of `a`: gone ones are removed, others compared. Then the
components only `b` has, where the path is formatted from the missing `a_comp`. -/
def mbsMediaCompsPatchList (a b : MediaCompTable) : Option (List PatchItem) :=
  match a, b with
  | [], [] => some []
  | [], c :: cs => some [jsonPatchNew .add [] (some (mbsMediaCompsToJson (c :: cs)))]
  | _ :: _, [] => some [jsonPatchNew .remove [] none]
  | c :: cs, d :: ds => do
      let patches ← (c :: cs).foldlM (fun patches x =>
        match findMediaComp (d :: ds) x.id with
        | none => some (patches ++ [jsonPatchNew .remove [mediaCompKey x.id] none])
        | some y => appendPatches patches (mbsMediaCompPatchList x y) [mediaCompKey x.id]) []
      (d :: ds).foldlM (fun patches y =>
        match findMediaComp (c :: cs) y.id with
        | none => none
        | some _ => some patches) patches

end ServiceConsumers.MediaComponents
