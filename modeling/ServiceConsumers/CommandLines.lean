import ServiceConsumers.EndpointTexts
import ServiceConsumers.PlmnRoundTrips

set_option autoImplicit false

/-!
# Command lines of the tools (`options.c` and `init.c`)

`getopt_long` hands out the options one after the other. Some are stored, some are passed on to
Open5GS in an array of fixed length.
-/

namespace ServiceConsumers.CommandLines

open TransitionRuns EndpointTexts PlmnRoundTrips

/-- How the program ends while it reads its command line. -/
inductive End where
  | exit (status : ℕ) (message : String)
  | overrun
  deriving DecidableEq, Repr

/-- `MBS_SERVICE_TOOL_MAX_ARGS` and `PCF_POLICYAUTH_MAX_ARGS`. -/
def maxArgs : ℕ := 16

/-- An assignment to the next element of `ret_argv`. -/
def pushArg (argv : List (Option String)) (arg : Option String) :
    Except End (List (Option String)) :=
  if argv.length < maxArgs then .ok (argv ++ [arg]) else .error .overrun

/-- What `getopt_long` returns: one of the tool's own options, `-e`, `-l` or `-m` with its
argument, `-h`, or `?`. -/
inductive Argument (A : Type) where
  | own (a : A)
  | passed (name value : String)
  | help
  | unknown

section Parsing

variable {O A : Type}

structure CommandLine (O : Type) where
  options : O
  argv : List (Option String)

/-- One turn of the loop of `app_options_parse`. -/
def readArgument (store : O → A → Except String O) (s : CommandLine O) :
    Argument A → Except End (CommandLine O)
  | .own a =>
      match store s.options a with
      | .ok options => .ok { s with options := options }
      | .error message => .error (.exit 1 message)
  | .passed name value => do
      let argv ← pushArg s.argv (some name)
      let argv ← pushArg argv (some value)
      .ok { s with argv := argv }
  | .help => .error (.exit 0 "")
  | .unknown => .error (.exit 1 "")

/-- `app_options_parse`: the operands are what is left of the arguments. -/
def parse (store : O → A → Except String O) (check : O → Except String Unit) (empty : O)
    (command : String) (args : List (Argument A)) (operands : List String) :
    Except End (CommandLine O) := do
  let s ← args.foldlM (readArgument store) { options := empty, argv := [some command] }
  if operands ≠ [] then .error (.exit 1 "Command only takes option arguments\n")
  else
    match check s.options with
    | .error message => .error (.exit 1 message)
    | .ok () => do
        let argv ← pushArg s.argv none
        .ok { s with argv := argv }

/-- The file name of the configuration is added, and a last `NULL` behind it. -/
def addConfigFile (filename : String) (argv : List (Option String)) :
    Except End (List (Option String)) := do
  let argv ← pushArg argv (some "-c")
  let argv ← pushArg argv (some filename)
  pushArg argv none

/-- The arguments that a reader of the array finds, which stops at the first `NULL`. -/
def argumentsRead (argv : List (Option String)) : List String :=
  (argv.takeWhile Option.isSome).filterMap id

end Parsing

/-! ## PLMN options -/

/-- `_split_mcc_and_mnc`. -/
def splitMccAndMnc (str : String) : Except String (String × String) :=
  let cs := str.toList
  if cs.length < 6 ∨ 7 < cs.length ∨ cs[3]? ≠ some '-' then
    .error "PLMN value is the MCC (3 digits) followed by a '-' and then the MNC (2 or 3 digits).\n"
  else if !(cs.take 3).all Char.isDigit then .error "PLMN MCC must be given as 3 digits.\n"
  else if !(cs.drop 4).all Char.isDigit then .error "PLMN MNC must be given as 2 or 3 digits.\n"
  else .ok (String.ofList (cs.take 3), String.ofList (cs.drop 4))

/-- The texts that are taken are a code of three digits, a dash and one of two or three. -/
theorem splitMccAndMnc_eq_ok {str mcc mnc : String} : splitMccAndMnc str = .ok (mcc, mnc) ↔
    IsCode 3 mcc ∧ (IsCode 2 mnc ∨ IsCode 3 mnc) ∧ str = mcc ++ "-" ++ mnc := by
  constructor
  · intro h
    simp only [splitMccAndMnc] at h
    split at h
    · cases h
    · rename_i hshape
      split at h
      · cases h
      · rename_i hmcc
        split at h
        · cases h
        · rename_i hmnc
          obtain ⟨rfl, rfl⟩ := Prod.mk.inj (Except.ok.inj h)
          rw [not_or, not_or, not_not] at hshape
          obtain ⟨hlow, hhigh, hdash⟩ := hshape
          rw [Bool.not_eq_true, Bool.not_eq_false', List.all_eq_true] at hmcc hmnc
          have hthree : IsCode 3 (String.ofList (str.toList.take 3)) := by
            rw [IsCode, String.toList_ofList, List.length_take]
            exact ⟨by omega, hmcc⟩
          refine ⟨hthree, ?_, ?_⟩
          · rw [IsCode, IsCode, String.toList_ofList, List.length_drop]
            by_cases hsix : str.toList.length = 6
            · exact .inl ⟨by omega, hmnc⟩
            · exact .inr ⟨by omega, hmnc⟩
          · refine String.toList_inj.1 ?_
            have hsplit : str.toList = str.toList.take 3 ++ '-' :: str.toList.drop 4 := by
              conv_lhs => rw [← List.take_append_drop 3 str.toList]
              rw [List.drop_eq_getElem?_toList_append, hdash]
              rfl
            simp only [String.toList_append, String.toList_ofList, List.append_assoc]
            exact hsplit
  · rintro ⟨⟨hmcc, hmccDigits⟩, hmnc, rfl⟩
    have hmncDigits : ∀ c ∈ mnc.toList, c.isDigit = true := hmnc.elim (fun h => h.2) fun h => h.2
    have hmncLength : mnc.toList.length = 2 ∨ mnc.toList.length = 3 :=
      hmnc.imp (fun h => h.1) fun h => h.1
    have htext : (mcc ++ "-" ++ mnc).toList = mcc.toList ++ '-' :: mnc.toList := by
      simp only [String.toList_append, List.append_assoc]
      rfl
    have htake : (mcc.toList ++ '-' :: mnc.toList).take 3 = mcc.toList := by
      rw [← hmcc, List.take_left]
    have hdrop : (mcc.toList ++ '-' :: mnc.toList).drop 4 = mnc.toList := by
      rw [List.drop_append, hmcc, List.drop_eq_nil_of_le (by omega)]
      rfl
    have hdash : (mcc.toList ++ '-' :: mnc.toList)[3]? = some '-' := by
      rw [List.getElem?_append_right (by omega), hmcc]
      rfl
    have hlength : (mcc.toList ++ '-' :: mnc.toList).length = mnc.toList.length + 4 := by
      rw [List.length_append, List.length_cons, hmcc]
      omega
    simp only [splitMccAndMnc, htext, htake, hdrop, hdash, hlength]
    rw [if_neg (by simp; omega), if_neg (by simpa using hmccDigits), if_neg (by simpa using hmncDigits),
      String.ofList_toList, String.ofList_toList]

/-! ## `tmgi-tool` -/

structure TmgiToolOptions where
  deleteTmgi : Bool := false
  mbsServiceId : Option String := none
  mcc : Option String := none
  mnc : Option String := none
  nrfAddress : Option String := none
  nrfPort : BitVec 16 := 0
  scpAddress : Option String := none
  scpPort : BitVec 16 := 0
  deriving DecidableEq, Repr

inductive TmgiToolArgument where
  | delete
  | mbsServiceId (value : String)
  | nrfAddress (value : String)
  | plmn (value : String)
  | scpAddress (value : String)

def TmgiToolOptions.store (o : TmgiToolOptions) : TmgiToolArgument → Except String TmgiToolOptions
  | .delete => .ok { o with deleteTmgi := true }
  | .mbsServiceId value => .ok { o with mbsServiceId := some value }
  | .nrfAddress value => do
      let (address, port) ← splitAddressAndPort value
      .ok { o with nrfAddress := some address, nrfPort := port }
  | .plmn value => do
      let (mcc, mnc) ← splitMccAndMnc value
      .ok { o with mcc := some mcc, mnc := some mnc }
  | .scpAddress value => do
      let (address, port) ← splitAddressAndPort value
      .ok { o with scpAddress := some address, scpPort := port }

/-- The text for a deletion that misses something has a line for each. -/
def TmgiToolOptions.check (o : TmgiToolOptions) : Except String Unit :=
  if o.deleteTmgi ∧ (o.mbsServiceId = none ∨ o.mcc = none ∨ o.mnc = none) then
    .error ((if o.mbsServiceId = none then
        "Must specify an MBS Service ID when requesting deletion.\n" else "") ++
      if o.mcc = none ∨ o.mnc = none then "Must specify a PLMN when requesting deletion.\n" else "")
  else if !o.deleteTmgi ∧ (o.mcc.isSome ∨ o.mnc.isSome ∨ o.mbsServiceId.isSome) then
    .error "Cannot specify PLMN or MBS Service Id when allocating a TMGI.\n"
  else if o.scpAddress = none ∧ o.nrfAddress = none then
    .error "Must provide at least one of an SCP address or an NRF address\n"
  else .ok ()

/-- `app_options_parse` of `tmgi-tool`. -/
def tmgiToolOptions (command : String) (args : List (Argument TmgiToolArgument))
    (operands : List String) : Except End (CommandLine TmgiToolOptions) :=
  parse TmgiToolOptions.store TmgiToolOptions.check {} command args operands

/-! ## `mbs-service-tool` -/

structure MbsServiceToolOptions where
  isMulticast : Bool := false
  ssm : Option (String × String) := none
  tmgiId : Option String := none
  mcc : Option String := none
  mnc : Option String := none
  reqTmgi : Bool := false
  reqTunnel : Bool := false
  nrfAddress : Option String := none
  nrfPort : BitVec 16 := 0
  scpAddress : Option String := none
  scpPort : BitVec 16 := 0
  deriving DecidableEq, Repr

inductive MbsServiceToolArgument where
  | multicast
  | nrfAddress (value : String)
  | plmn (value : String)
  | scpAddress (value : String)
  | ssm (value : String)
  | tmgi (value : String)
  | allocateTmgi
  | allocateTunnel

/-- `_split_ssm_address`. -/
def splitSsmAddress (str : String) : Except String (String × String) :=
  match strrchr str ':' with
  | none => .error "SSM Addresses must be separated by a ':'\n"
  | some pair => .ok pair

def MbsServiceToolOptions.store (o : MbsServiceToolOptions) :
    MbsServiceToolArgument → Except String MbsServiceToolOptions
  | .multicast => .ok { o with isMulticast := true }
  | .nrfAddress value => do
      let (address, port) ← splitAddressAndPort value
      .ok { o with nrfAddress := some address, nrfPort := port }
  | .plmn value => do
      let (mcc, mnc) ← splitMccAndMnc value
      .ok { o with mcc := some mcc, mnc := some mnc }
  | .scpAddress value => do
      let (address, port) ← splitAddressAndPort value
      .ok { o with scpAddress := some address, scpPort := port }
  | .ssm value => do
      let pair ← splitSsmAddress value
      .ok { o with ssm := some pair }
  | .tmgi value => .ok { o with tmgiId := some value }
  | .allocateTmgi => .ok { o with reqTmgi := true }
  | .allocateTunnel => .ok { o with reqTunnel := true }

/-- A PLMN without a TMGI is only warned about. -/
def MbsServiceToolOptions.check (o : MbsServiceToolOptions) : Except String Unit :=
  if !o.reqTmgi ∧ o.tmgiId = none ∧ o.ssm = none then
    .error "Must either request a TMGI, specify a TMGI or provide an SSM address pair.\n"
  else if o.reqTmgi ∧ o.tmgiId.isSome then
    .error ("Cannot request a TMGI and specify a TMGI at the same time " ++
      "-t and -T are mutually exclusive.\n")
  else if o.isMulticast ∧ o.ssm = none then
    .error "Must provide an SSM address pair if a multicast MBS Service is requested.\n"
  else if !o.reqTunnel ∧ o.ssm = none then
    .error "Must provide an SSM address pair if not requesting a UDP tunnel.\n"
  else if o.scpAddress = none ∧ o.nrfAddress = none then
    .error "Must provide at least one of an SCP address or an NRF address\n"
  else .ok ()

/-- `app_options_parse` of `mbs-service-tool`. -/
def mbsServiceToolOptions (command : String) (args : List (Argument MbsServiceToolArgument))
    (operands : List String) : Except End (CommandLine MbsServiceToolOptions) :=
  parse MbsServiceToolOptions.store MbsServiceToolOptions.check {} command args operands

/-! ## `pcf-policyauthorization` -/

/-- `OpenAPI_media_type_e`. -/
inductive MediaType where
  | audio
  | video
  | data
  | application
  | control
  | text
  | message
  | other
  deriving DecidableEq, Repr

def mediaTypes : List (String × MediaType) :=
  [("audio", .audio), ("video", .video), ("data", .data), ("application", .application),
    ("app", .application), ("control", .control), ("text", .text), ("message", .message),
    ("other", .other)]

/-- `_string_to_media_type`. -/
def stringToMediaType (str : String) : Except String MediaType :=
  match mediaTypes.find? fun entry => CacheAges.sameText str.toList entry.1.toList with
  | some entry => .ok entry.2
  | none => .error ("Unsupported MediaType '" ++ str ++ "'\n")

/-- A bit rate is a `double` there; here it is the text that `atof` reads. -/
structure PolicyAuthOptions where
  ueAddress : Option String := none
  uePort : BitVec 16 := 0
  remoteAddress : Option String := none
  remotePort : BitVec 16 := 0
  protocol : IpProto := .ip
  mediaType : Option MediaType := none
  minDlBitRate : Option String := none
  maxDlBitRate : Option String := none
  minUlBitRate : Option String := none
  maxUlBitRate : Option String := none
  nrfAddress : Option String := none
  nrfPort : BitVec 16 := 0
  pcfAddress : Option String := none
  pcfPort : BitVec 16 := 0
  deriving DecidableEq, Repr

inductive PolicyAuthArgument where
  | ueAddress (value : String)
  | minDlBw (value : String)
  | maxDlBw (value : String)
  | nrfAddress (value : String)
  | pcfAddress (value : String)
  | remoteAddress (value : String)
  | mediaType (value : String)
  | minUlBw (value : String)
  | maxUlBw (value : String)

/-- The two sides have one protocol between them. -/
def PolicyAuthOptions.store (o : PolicyAuthOptions) :
    PolicyAuthArgument → Except String PolicyAuthOptions
  | .ueAddress value => do
      let e ← splitAddressPortAndProtocol value
        { address := o.ueAddress, port := o.uePort, protocol := o.protocol }
      .ok { o with ueAddress := e.address, uePort := e.port, protocol := e.protocol }
  | .minDlBw value => .ok { o with minDlBitRate := some value }
  | .maxDlBw value => .ok { o with maxDlBitRate := some value }
  | .nrfAddress value => do
      let (address, port) ← splitAddressAndPort value
      .ok { o with nrfAddress := some address, nrfPort := port }
  | .pcfAddress value => do
      let (address, port) ← splitAddressAndPort value
      .ok { o with pcfAddress := some address, pcfPort := port }
  | .remoteAddress value => do
      let e ← splitAddressPortAndProtocol value
        { address := o.remoteAddress, port := o.remotePort, protocol := o.protocol }
      .ok { o with remoteAddress := e.address, remotePort := e.port, protocol := e.protocol }
  | .mediaType value => do
      let mediaType ← stringToMediaType value
      .ok { o with mediaType := some mediaType }
  | .minUlBw value => .ok { o with minUlBitRate := some value }
  | .maxUlBw value => .ok { o with maxUlBitRate := some value }

def PolicyAuthOptions.check (o : PolicyAuthOptions) : Except String Unit :=
  if o.ueAddress = none then .error "Must provide a UE address\n"
  else if o.pcfAddress = none ∧ o.nrfAddress = none then
    .error "Must provide either the PCF address or an NRF address\n"
  else .ok ()

/-- `app_options_parse` of `pcf-policyauthorization`. -/
def policyAuthOptions (command : String) (args : List (Argument PolicyAuthArgument))
    (operands : List String) : Except End (CommandLine PolicyAuthOptions) :=
  parse PolicyAuthOptions.store PolicyAuthOptions.check {} command args operands

/-! ## The arguments of Open5GS -/

section Arguments

variable {O A : Type} {store : O → A → Except String O} {check : O → Except String Unit}
  {empty o : O} {command filename : String} {args : List (Argument A)} {operands : List String}
  {s s' : CommandLine O} {argv argv' : List (Option String)}

def Argument.passedOn : Argument A → List String
  | .passed name value => [name, value]
  | _ => []

def Argument.ownOption : Argument A → Option A
  | .own a => some a
  | _ => none

/-- What is passed on to Open5GS. -/
def passedOn (args : List (Argument A)) : List String := args.flatMap Argument.passedOn

/-- Neither `-h` nor `?`. -/
def Argument.plain : Argument A → Prop
  | .help | .unknown => False
  | _ => True

theorem pushArg_eq_ok {arg : Option String} :
    pushArg argv arg = .ok argv' ↔ argv' = argv ++ [arg] ∧ argv'.length ≤ maxArgs := by
  unfold pushArg
  constructor
  · intro h
    split at h
    · rename_i hlt
      obtain rfl := Except.ok.inj h
      refine ⟨rfl, ?_⟩
      rw [List.length_append, List.length_singleton]
      exact hlt
    · cases h
  · rintro ⟨rfl, hle⟩
    rw [List.length_append, List.length_singleton] at hle
    exact if_pos hle

/-- The array holds what was passed on so far. -/
theorem readArgument_argv {a : Argument A} (h : readArgument store s a = .ok s') :
    s'.argv = s.argv ++ a.passedOn.map some ∧
      (s.argv.length ≤ maxArgs → s'.argv.length ≤ maxArgs) := by
  cases a with
  | own a =>
      rw [readArgument] at h
      split at h
      · obtain rfl := Except.ok.inj h
        exact ⟨(List.append_nil _).symm, id⟩
      · cases h
  | passed name value =>
      simp only [readArgument, bind_eq_ok, pushArg_eq_ok] at h
      obtain ⟨argv, ⟨rfl, -⟩, argv', ⟨rfl, hle⟩, hs⟩ := h
      obtain rfl := Except.ok.inj hs
      refine ⟨?_, fun _ => hle⟩
      simp [Argument.passedOn]
  | help => cases h
  | unknown => cases h

theorem readArguments_argv (h : args.foldlM (readArgument store) s = .ok s') :
    s'.argv = s.argv ++ (passedOn args).map some ∧
      (s.argv.length ≤ maxArgs → s'.argv.length ≤ maxArgs) := by
  induction args generalizing s with
  | nil =>
      obtain rfl := Except.ok.inj h
      exact ⟨(List.append_nil _).symm, id⟩
  | cons a args ih =>
      rw [List.foldlM_cons, bind_eq_ok] at h
      obtain ⟨t, ha, hargs⟩ := h
      obtain ⟨hone, hbound⟩ := readArgument_argv ha
      obtain ⟨hrest, hbound'⟩ := ih hargs
      refine ⟨?_, fun hs => hbound' (hbound hs)⟩
      rw [hrest, hone, passedOn, passedOn, List.flatMap_cons, List.map_append, List.append_assoc]

theorem even_length_passedOn (args : List (Argument A)) : Even (passedOn args).length := by
  induction args with
  | nil => exact ⟨0, rfl⟩
  | cons a args ih =>
      rw [passedOn, List.flatMap_cons, List.length_append, ← passedOn]
      refine Even.add ?_ ih
      cases a with
      | passed name value => exact ⟨1, rfl⟩
      | own a => exact ⟨0, rfl⟩
      | help => exact ⟨0, rfl⟩
      | unknown => exact ⟨0, rfl⟩

/-- The loop goes through when the array is long enough and every option can be stored. -/
theorem readArguments_ok (hplain : ∀ a ∈ args, a.plain)
    (hstore : (args.filterMap Argument.ownOption).foldlM store s.options = .ok o)
    (hbound : s.argv.length + (passedOn args).length ≤ maxArgs) :
    ∃ s', args.foldlM (readArgument store) s = .ok s' ∧ s'.options = o := by
  induction args generalizing s with
  | nil => exact ⟨s, rfl, Except.ok.inj hstore⟩
  | cons a args ih =>
      rw [List.forall_mem_cons] at hplain
      rw [passedOn, List.flatMap_cons, List.length_append, ← passedOn] at hbound
      rw [List.foldlM_cons]
      cases a with
      | own a =>
          rw [List.filterMap_cons, Argument.ownOption, List.foldlM_cons, bind_eq_ok] at hstore
          obtain ⟨options, ha, hrest⟩ := hstore
          obtain ⟨s', hs', hoptions⟩ := ih (s := { s with options := options }) hplain.2 hrest
            (by simpa [Argument.passedOn] using hbound)
          refine ⟨s', ?_, hoptions⟩
          rw [readArgument, ha]
          exact hs'
      | passed name value =>
          change (args.filterMap Argument.ownOption).foldlM store s.options = .ok o at hstore
          have hlength : (s.argv ++ [some name, some value]).length = s.argv.length + 2 :=
            List.length_append
          change s.argv.length + (2 + (passedOn args).length) ≤ maxArgs at hbound
          obtain ⟨s', hs', hoptions⟩ := ih
            (s := { s with argv := s.argv ++ [some name, some value] }) hplain.2 hstore (by
              change (s.argv ++ [some name, some value]).length + (passedOn args).length ≤ maxArgs
              omega)
          refine ⟨s', ?_, hoptions⟩
          have hread : readArgument store s (.passed name value) =
              .ok { s with argv := s.argv ++ [some name, some value] } := by
            simp only [readArgument, bind_eq_ok, pushArg_eq_ok]
            refine ⟨_, ⟨rfl, ?_⟩, _, ⟨rfl, ?_⟩, ?_⟩
            · rw [List.length_append, List.length_singleton]
              omega
            · rw [List.length_append, List.length_append, List.length_singleton,
                List.length_singleton]
              omega
            · rw [List.append_assoc]
              rfl
          rw [hread]
          exact hs'
      | help => exact absurd hplain.1 id
      | unknown => exact absurd hplain.1 id

theorem parse_eq_ok : parse store check empty command args operands = .ok s ↔
    ∃ t, args.foldlM (readArgument store) { options := empty, argv := [some command] } = .ok t ∧
      operands = [] ∧ check t.options = .ok () ∧ t.argv.length < maxArgs ∧
        s = { t with argv := t.argv ++ [none] } := by
  rw [parse, bind_eq_ok]
  refine exists_congr fun t => and_congr_right fun _ => ?_
  by_cases hoperands : operands = []
  · rw [if_neg (not_not_intro hoperands)]
    cases hcheck : check t.options with
    | error message =>
        constructor
        · intro h
          cases h
        · rintro ⟨-, h, -⟩
          cases h
    | ok u =>
        simp only [bind_eq_ok, pushArg_eq_ok]
        constructor
        · rintro ⟨argv, ⟨rfl, hle⟩, hs⟩
          rw [List.length_append, List.length_singleton] at hle
          exact ⟨hoperands, trivial, hle, (Except.ok.inj hs).symm⟩
        · rintro ⟨-, -, hlt, rfl⟩
          refine ⟨_, ⟨rfl, ?_⟩, rfl⟩
          rw [List.length_append, List.length_singleton]
          exact hlt
  · rw [if_pos hoperands]
    constructor
    · intro h
      cases h
    · rintro ⟨h, -⟩
      exact absurd h hoperands

/-- What the stored options have in common the options of the command line have. -/
theorem parse_keeps (P : O → Prop) (hempty : P empty)
    (hstore : ∀ o a o', P o → store o a = .ok o' → P o')
    (h : parse store check empty command args operands = .ok s) :
    P s.options ∧ check s.options = .ok () := by
  obtain ⟨t, ht, -, hcheck, -, rfl⟩ := parse_eq_ok.1 h
  refine ⟨?_, hcheck⟩
  refine foldlM_ok_induction (fun _ t => P t.options) (fun a _ s s' hs hread => ?_) args _ _
    hempty ht
  cases a with
  | own a =>
      rw [readArgument] at hread
      split at hread
      · rename_i o' ho
        obtain rfl := Except.ok.inj hread
        exact hstore _ _ _ hs ho
      · cases hread
  | passed name value =>
      simp only [readArgument, bind_eq_ok] at hread
      obtain ⟨argv, -, argv', -, hs'⟩ := hread
      obtain rfl := Except.ok.inj hs'
      exact hs
  | help => cases hread
  | unknown => cases hread

theorem addConfigFile_eq_ok : addConfigFile filename argv = .ok argv' ↔
    argv' = argv ++ [some "-c", some filename, none] ∧ argv'.length ≤ maxArgs := by
  simp only [addConfigFile, bind_eq_ok, pushArg_eq_ok]
  constructor
  · rintro ⟨argv₁, ⟨rfl, -⟩, argv₂, ⟨rfl, -⟩, rfl, hle⟩
    refine ⟨?_, hle⟩
    simp only [List.append_assoc, List.cons_append, List.nil_append]
  · rintro ⟨rfl, hle⟩
    rw [List.length_append] at hle
    change argv.length + 3 ≤ maxArgs at hle
    refine ⟨_, ⟨rfl, ?_⟩, _, ⟨rfl, ?_⟩, ?_, ?_⟩
    · rw [List.length_append, List.length_singleton]
      omega
    · rw [List.length_append, List.length_append, List.length_singleton, List.length_singleton]
      omega
    · simp only [List.append_assoc, List.cons_append, List.nil_append]
    · rw [List.length_append]
      exact hle

/-- A line that is in order otherwise runs over the array exactly when it passes on more than
ten arguments, and the name of the configuration file is behind the first `NULL`. -/
theorem arguments_fit_iff (hplain : ∀ a ∈ args, a.plain)
    (hstore : (args.filterMap Argument.ownOption).foldlM store empty = .ok o)
    (hcheck : check o = .ok ()) :
    ((∃ s argv, parse store check empty command args [] = .ok s ∧
        addConfigFile filename s.argv = .ok argv) ↔ (passedOn args).length ≤ 10) ∧
      ∀ s argv, parse store check empty command args [] = .ok s →
        addConfigFile filename s.argv = .ok argv →
          s.options = o ∧ argumentsRead argv = command :: passedOn args := by
  have hshape : ∀ s argv, parse store check empty command args [] = .ok s →
      addConfigFile filename s.argv = .ok argv →
        argv = some command :: (passedOn args).map some ++
          [none, some "-c", some filename, none] ∧ argv.length ≤ maxArgs := by
    intro s argv hparse hfile
    obtain ⟨t, ht, -, -, -, rfl⟩ := parse_eq_ok.1 hparse
    obtain ⟨rfl, hle⟩ := addConfigFile_eq_ok.1 hfile
    refine ⟨?_, hle⟩
    rw [(readArguments_argv ht).1]
    simp only [List.append_assoc, List.cons_append, List.nil_append]
  have hlength : (some command :: (passedOn args).map some ++
      [none, some "-c", some filename, none] : List (Option String)).length =
        (passedOn args).length + 5 := by
    rw [List.length_append, List.length_cons, List.length_map]
    rfl
  refine ⟨⟨?_, fun hle => ?_⟩, fun s argv hparse hfile => ⟨?_, ?_⟩⟩
  · rintro ⟨s, argv, hparse, hfile⟩
    obtain ⟨hargv, hle⟩ := hshape s argv hparse hfile
    rw [hargv, hlength] at hle
    have heleven : (passedOn args).length ≤ 11 := Nat.le_of_add_le_add_right hle
    obtain ⟨k, hk⟩ := even_length_passedOn args
    omega
  · obtain ⟨t, ht, hoptions⟩ := readArguments_ok (s := { options := empty, argv := [some command] })
      hplain hstore (by
        change 1 + (passedOn args).length ≤ 16
        omega)
    have hargv := (readArguments_argv ht).1
    have ht' : t.argv.length = (passedOn args).length + 1 := by
      rw [hargv, List.length_append, List.length_map]
      exact Nat.add_comm _ _
    refine ⟨_, _, parse_eq_ok.2 ⟨t, ht, rfl, ?_, ?_, rfl⟩, addConfigFile_eq_ok.2 ⟨rfl, ?_⟩⟩
    · rw [hoptions]
      exact hcheck
    · change t.argv.length < 16
      omega
    · rw [List.length_append, List.length_append, ht']
      change (passedOn args).length + 1 + 1 + 3 ≤ 16
      omega
  · obtain ⟨t, ht, -, -, -, rfl⟩ := parse_eq_ok.1 hparse
    have hargv : 1 + (passedOn args).length ≤ maxArgs := by
      obtain ⟨heq, hle⟩ := hshape _ argv hparse hfile
      rw [heq, hlength] at hle
      exact (Nat.add_comm _ _).trans_le ((Nat.add_le_add_left (by decide) _).trans hle)
    obtain ⟨t', ht', hoptions⟩ := readArguments_ok
      (s := { options := empty, argv := [some command] }) hplain hstore hargv
    obtain rfl := Except.ok.inj (ht.symm.trans ht')
    exact hoptions
  · rw [(hshape s argv hparse hfile).1, argumentsRead, List.takeWhile_append_of_pos (by simp)]
    simp

end Arguments

/-- Six log options are one too many. -/
theorem six_passed_options_overrun : ¬∃ s argv, tmgiToolOptions "tmgi-tool"
    (.own (.scpAddress "127.0.0.1:7777") :: List.replicate 6 (.passed "-e" "debug")) [] = .ok s ∧
      addConfigFile "tmgi-tool-yaml" s.argv = .ok argv := by
  intro hfits
  have hplain : ∀ a ∈ .own (TmgiToolArgument.scpAddress "127.0.0.1:7777") :: List.replicate 6
      (Argument.passed "-e" "debug"), Argument.plain a := by
    intro a ha
    rcases List.mem_cons.1 ha with rfl | ha
    · trivial
    · rw [List.eq_of_mem_replicate ha]
      trivial
  have hfew := (arguments_fit_iff (o := { scpAddress := some "127.0.0.1", scpPort := 7777 }) hplain
    rfl rfl).1.1 hfits
  exact absurd hfew (by decide)

end ServiceConsumers.CommandLines
