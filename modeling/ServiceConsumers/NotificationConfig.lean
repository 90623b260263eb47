import ServiceConsumers.NumberTexts

set_option autoImplicit false

/-!
# The configuration of the notification address (`_context_parse_config` in `context.c`)

Sections of a configuration file are looked for by their keys, four levels deep. What one of
them says about the address and the port is put together at its end.
-/

namespace ServiceConsumers.NotificationConfig

open NumberTexts

/-! ## Configuration files -/

inductive Yaml where
  | scalar (text : String)
  | mapping (pairs : List (String × Yaml))

abbrev Pairs := List (String × Yaml)

/-- What an iterator over a node goes through. -/
def yamlPairs : Yaml → Pairs
  | .scalar _ => []
  | .mapping pairs => pairs

/-- `ogs_yaml_iter_value`. -/
def yamlValue : Yaml → Option String
  | .scalar text => some text
  | .mapping _ => none

/-! ## Addresses -/

/-- An address with its port, as the two bytes that the port is in memory. -/
structure BindAddress (Host : Type) where
  host : Host
  port : ℕ × ℕ
  deriving DecidableEq

/-- What names resolve to, the IPv4 address for any, and the byte order of the machine. -/
structure Network (Host : Type) where
  resolve : String → Option Host
  anyHost : Host
  littleEndian : Bool

def networkOrder (port : ℕ) : ℕ × ℕ := (port / 256, port % 256)

def hostOrder {Host : Type} (net : Network Host) (port : ℕ) : ℕ × ℕ :=
  if net.littleEndian then (port % 256, port / 256) else networkOrder port

inductive Status where
  | ok
  | error
  deriving DecidableEq, Repr

/-- What is returned, and `notification_bind_address` after that. -/
structure Outcome (Host : Type) where
  status : Status
  bindAddress : Option (BindAddress Host)
  deriving DecidableEq

/-! ## The loops -/

section Loops

variable {Host α β : Type}

/-- A loop that an error ends. -/
def forEach (body : Option (BindAddress Host) → α → Option (Outcome Host)) :
    Option (BindAddress Host) → List α → Option (Outcome Host)
  | s, [] => some ⟨.ok, s⟩
  | s, x :: xs =>
      (body s x).bind fun o => if o.status = .error then some o else forEach body o.bindAddress xs

/-- A loop over a mapping that goes into the values of one key. -/
def forEachKey (key : String) (body : Option (BindAddress Host) → Yaml → Option (Outcome Host)) :
    Option (BindAddress Host) → Pairs → Option (Outcome Host) :=
  forEach fun s p => if p.1 = key then body s p.2 else some ⟨.ok, s⟩

end Loops

structure SectionKeys where
  addr : Option String := none
  port : Option String := none
  deriving DecidableEq

/-- What is kept for the port is a copy of the address. -/
def readKey (keys : SectionKeys) (p : String × Yaml) : SectionKeys :=
  if p.1 = "address" then { keys with addr := yamlValue p.2 }
  else if p.1 = "port" then { keys with port := (yamlValue p.2).bind fun _ => keys.addr }
  else keys

def readSection (pairs : Pairs) : SectionKeys := pairs.foldl readKey {}

section Sections

variable {Host : Type} (net : Network Host)

/-- `strtoul` must be given a string. -/
def strtoul (text : Option String) : Option (ℕ × List Char) :=
  text.map fun s => strtoull s.toList

/-- `ogs_getaddrinfo` must be given a name. It fails where the name does not resolve. -/
def getaddrinfo (addr : Option String) (port : ℕ) : Option (Option (BindAddress Host)) :=
  addr.map fun name => (net.resolve name).map fun host => ⟨host, networkOrder port⟩

/-- The number of the port, unless there is an error. -/
def portNumber (port : Option String) : Option (Option ℕ) :=
  if port.isSome then
    (strtoul port).map fun r => if r.2 ≠ [] ∨ 65536 ≤ r.1 then none else some r.1
  else some (some 0)

/-- The port is written as it is where no address is given. -/
def bindTo (addr : Option String) (port : ℕ) : Option (Outcome Host) :=
  if addr.isSome then
    (getaddrinfo net addr port).map fun found => ⟨if found.isSome then .ok else .error, found⟩
  else some ⟨.ok, some ⟨net.anyHost, hostOrder net port⟩⟩

def configureSection (s : Option (BindAddress Host)) (pairs : Pairs) : Option (Outcome Host) :=
  let keys := readSection pairs
  if keys.addr.isSome ∨ keys.port.isSome then
    (portNumber keys.port).bind fun portNum =>
      match portNum with
      | none => some ⟨.error, s⟩
      | some port => bindTo net keys.addr port
  else some ⟨.ok, s⟩

def contextParseConfig (localName : String) : Option (BindAddress Host) → Pairs →
    Option (Outcome Host) :=
  forEachKey localName fun s v =>
    forEachKey "notifications" (fun s v =>
      forEachKey "mbsmf" (fun s v => configureSection net s (yamlPairs v)) s (yamlPairs v))
      s (yamlPairs v)

end Sections

/-! ## The sections of a configuration file -/

section Runs

variable {Host α β : Type} {s : Option (BindAddress Host)}
  {body : Option (BindAddress Host) → α → Option (Outcome Host)}

theorem forEach_total (h : ∀ s x, ∃ o, body s x = some o) (xs : List α) :
    ∃ o, forEach body s xs = some o := by
  induction xs generalizing s with
  | nil => exact ⟨_, rfl⟩
  | cons x xs ih =>
      obtain ⟨o, ho⟩ := h s x
      rw [forEach, ho, Option.bind_some]
      split
      · exact ⟨o, rfl⟩
      · exact ih

theorem forEach_append (xs ys : List α) : forEach body s (xs ++ ys) =
    (forEach body s xs).bind fun o =>
      if o.status = .error then some o else forEach body o.bindAddress ys := by
  induction xs generalizing s with
  | nil => rfl
  | cons x xs ih =>
      rw [List.cons_append, forEach, forEach, Option.bind_assoc]
      congr 1
      funext o
      split
      · rename_i herror
        rw [Option.bind_some, if_pos herror]
      · exact ih

/-- A loop within a loop goes through all that the inner ones go through. -/
theorem forEach_flatMap (g : β → List α) (ys : List β) :
    forEach (fun s y => forEach body s (g y)) s ys = forEach body s (ys.flatMap g) := by
  induction ys generalizing s with
  | nil => rfl
  | cons y ys ih =>
      rw [forEach, List.flatMap_cons, forEach_append]
      congr 1
      funext o
      split
      · rfl
      · exact ih

def valuesOf (key : String) (pairs : Pairs) : List Yaml :=
  (pairs.filter fun p => p.1 = key).map Prod.snd

theorem forEachKey_eq (key : String)
    (body : Option (BindAddress Host) → Yaml → Option (Outcome Host)) (pairs : Pairs) :
    forEachKey key body s pairs = forEach body s (valuesOf key pairs) := by
  induction pairs generalizing s with
  | nil => rfl
  | cons p pairs ih =>
      rw [forEachKey, forEach]
      by_cases hp : p.1 = key
      · have hvalues : valuesOf key (p :: pairs) = p.2 :: valuesOf key pairs := by
          simp [valuesOf, hp]
        rw [if_pos hp, hvalues, forEach]
        congr 1
        funext o
        split
        · rfl
        · exact ih
      · have hvalues : valuesOf key (p :: pairs) = valuesOf key pairs := by
          simp [valuesOf, hp]
        rw [if_neg hp, hvalues]
        exact ih

def mbsmfSections (localName : String) (doc : Pairs) : List Pairs :=
  (valuesOf localName doc).flatMap fun v =>
    (valuesOf "notifications" (yamlPairs v)).flatMap fun v =>
      (valuesOf "mbsmf" (yamlPairs v)).map yamlPairs

theorem contextParseConfig_eq (net : Network Host) (localName : String) (doc : Pairs) :
    contextParseConfig net localName s doc =
      forEach (configureSection net) s (mbsmfSections localName doc) := by
  have hmap : ∀ (s : Option (BindAddress Host)) (vs : List Yaml),
      forEach (fun s v => configureSection net s (yamlPairs v)) s vs =
        forEach (configureSection net) s (vs.map yamlPairs) := by
    intro s vs
    induction vs generalizing s with
    | nil => rfl
    | cons v vs ih =>
        rw [List.map_cons, forEach, forEach]
        simp only [ih]
  simp only [contextParseConfig, forEachKey_eq, hmap, forEach_flatMap]
  rfl

end Runs

/-! ## What is to hold -/

/-- What a section says, in the order in which it says it. -/
inductive Given where
  | address (a : String)
  | port (p : String)
  | addressPort (a p : String)
  | portAddress (p a : String)

namespace Given

def pairs : Given → Pairs
  | address a => [("address", .scalar a)]
  | port p => [("port", .scalar p)]
  | addressPort a p => [("address", .scalar a), ("port", .scalar p)]
  | portAddress p a => [("port", .scalar p), ("address", .scalar a)]

def addr : Given → Option String
  | address a | addressPort a _ | portAddress _ a => some a
  | port _ => none

/-- The number that a text is, if it is the number of a port. -/
def readPort (text : String) : Option ℕ :=
  let (num, rest) := NumberTexts.strtoull text.toList
  if rest = [] ∧ num < 65536 then some num else none

/-- The port that is asked for, unless it is out of range. -/
def portNum : Given → Option ℕ
  | address _ => some 0
  | port p | addressPort _ p | portAddress p _ => readPort p

end Given

def relevant (pairs : Pairs) : Pairs := pairs.filter fun p => p.1 = "address" ∨ p.1 = "port"

section Sections

variable {Host : Type} (net : Network Host) (g : Given)

/-- The address that is asked for, which is any if none is given. -/
def hostOf : Option Host :=
  match g.addr with
  | none => some net.anyHost
  | some a => net.resolve a

def Resolves : Prop := (hostOf net g).isSome

/-- The address that is asked for is set with the port in network byte order, unless the port is
out of range, which is an error. -/
def ConfiguredAs (result : Option (Outcome Host)) : Prop :=
  ∃ o, result = some o ∧
    match g.portNum with
    | none => o.status = .error
    | some port => o.status = .ok ∧
        o.bindAddress = (hostOf net g).map fun host => ⟨host, networkOrder port⟩

/-! ## The condition -/

/-- Where the address comes first, it is what is read for the port. Where the port comes first,
it is not read at all, and a port alone has no effect. -/
def PortRead : Given → Prop
  | .address _ => True
  | .port _ => False
  | .addressPort a p => Given.readPort a = Given.readPort p
  | .portAddress p _ => Given.readPort p = some 0

/-! ## Sections -/

variable {net g}

theorem readKey_other {keys : SectionKeys} {p : String × Yaml}
    (h : ¬ (p.1 = "address" ∨ p.1 = "port")) : readKey keys p = keys := by
  rw [not_or] at h
  rw [readKey, if_neg h.1, if_neg h.2]

theorem foldl_readKey_relevant (pairs : Pairs) (keys : SectionKeys) :
    pairs.foldl readKey keys = (relevant pairs).foldl readKey keys := by
  induction pairs generalizing keys with
  | nil => rfl
  | cons p pairs ih =>
      by_cases hp : p.1 = "address" ∨ p.1 = "port"
      · have hrelevant : relevant (p :: pairs) = p :: relevant pairs := by simp [relevant, hp]
        rw [hrelevant, List.foldl_cons, List.foldl_cons, ih]
      · have hrelevant : relevant (p :: pairs) = relevant pairs := by simp [relevant, hp]
        rw [hrelevant, List.foldl_cons, readKey_other hp, ih]

def Given.keys : Given → SectionKeys
  | address a => { addr := some a }
  | port _ => {}
  | addressPort a _ => { addr := some a, port := some a }
  | portAddress _ a => { addr := some a }

theorem readSection_given {pairs : Pairs} (h : relevant pairs = g.pairs) :
    readSection pairs = g.keys := by
  rw [readSection, foldl_readKey_relevant, h]
  cases g <;> rfl

theorem portNumber_some (text : String) : portNumber (some text) = some (Given.readPort text) := by
  simp only [portNumber, strtoul, Option.isSome_some, if_true, Option.map_some, Given.readPort,
    Option.some.injEq]
  by_cases hrest : (NumberTexts.strtoull text.toList).2 = []
  · by_cases hnum : (NumberTexts.strtoull text.toList).1 < 65536
    · rw [if_neg (by simp [hrest, hnum]), if_pos ⟨hrest, hnum⟩]
    · rw [if_pos (.inr (Nat.not_lt.1 hnum)), if_neg fun h => hnum h.2]
  · rw [if_pos (.inl hrest), if_neg fun h => hrest h.1]

theorem bindTo_some {a : String} {port : ℕ} {host : Host} (h : net.resolve a = some host) :
    bindTo net (some a) port = some ⟨.ok, some ⟨host, networkOrder port⟩⟩ := by
  simp [bindTo, getaddrinfo, h]

theorem configureSection_total (s : Option (BindAddress Host)) (pairs : Pairs) :
    ∃ o, configureSection net s pairs = some o := by
  have hbind : ∀ addr port, ∃ o, bindTo net addr port = some o := by
    intro addr port
    cases addr <;> exact ⟨_, rfl⟩
  have hport : ∀ port, ∃ n, portNumber port = some n := by
    intro port
    cases port <;> exact ⟨_, rfl⟩
  rw [configureSection]
  split
  · obtain ⟨n, hn⟩ := hport (readSection pairs).port
    rw [hn, Option.bind_some]
    cases n with
    | none => exact ⟨_, rfl⟩
    | some port => exact hbind _ port
  · exact ⟨_, rfl⟩

theorem networkOrder_inj {p q : ℕ} (h : networkOrder p = networkOrder q) : p = q := by
  simp only [networkOrder, Prod.mk.injEq] at h
  omega

variable {s : Option (BindAddress Host)} {pairs : Pairs} {a : String} {host : Host}

theorem configureSection_address (hkeys : readSection pairs = { addr := some a })
    (hhost : net.resolve a = some host) :
    configureSection net s pairs = some ⟨.ok, some ⟨host, networkOrder 0⟩⟩ := by
  simp only [configureSection, hkeys, Option.isSome_some, true_or, if_true]
  exact bindTo_some hhost

theorem configureSection_both (hkeys : readSection pairs = { addr := some a, port := some a })
    (hhost : net.resolve a = some host) : configureSection net s pairs =
      some ((Given.readPort a).elim ⟨.error, s⟩ fun n => ⟨.ok, some ⟨host, networkOrder n⟩⟩) := by
  simp only [configureSection, hkeys, Option.isSome_some, true_or, if_true, portNumber_some,
    Option.bind_some]
  cases Given.readPort a with
  | none => rfl
  | some n => exact bindTo_some hhost

theorem configuredAs_found (hhost : hostOf net g = some host) {n : ℕ} :
    ConfiguredAs net g (some ⟨.ok, some ⟨host, networkOrder n⟩⟩) ↔ g.portNum = some n := by
  simp only [ConfiguredAs, hhost, Option.some.injEq, exists_eq_left', Option.map_some]
  cases g.portNum with
  | none => simp
  | some q =>
      refine ⟨fun h => ?_, fun h => ?_⟩
      · have hports : networkOrder n = networkOrder q := by simpa using h
        rw [networkOrder_inj hports]
      · rw [Option.some.inj h]
        simp

theorem configuredAs_error :
    ConfiguredAs net g (some ⟨.error, s⟩) ↔ g.portNum = none := by
  simp only [ConfiguredAs, Option.some.injEq, exists_eq_left']
  cases g.portNum <;> simp

theorem not_configuredAs_nothing (hhost : hostOf net g = some host) :
    ¬ ConfiguredAs net g (some ⟨.ok, none⟩) := by
  simp only [ConfiguredAs, hhost, Option.some.injEq, exists_eq_left', Option.map_some]
  cases g.portNum <;> simp

/-- A section is taken as it should be exactly when its port is read, where there was no address
before. -/
theorem configureSection_iff (hpairs : relevant pairs = g.pairs) (hresolves : Resolves net g) :
    (PortRead g → ConfiguredAs net g (configureSection net s pairs)) ∧
      (ConfiguredAs net g (configureSection net none pairs) → PortRead g) := by
  have hkeys := readSection_given hpairs
  obtain ⟨host, hhost⟩ := Option.isSome_iff_exists.1 hresolves
  cases g with
  | address a =>
      refine ⟨fun _ => ?_, fun _ => trivial⟩
      rw [configureSection_address hkeys hhost]
      exact (configuredAs_found hhost).2 rfl
  | port p =>
      have hnothing : configureSection net none pairs = some ⟨.ok, none⟩ := by
        simp [configureSection, hkeys, Given.keys]
      rw [hnothing]
      exact ⟨False.elim, fun h => not_configuredAs_nothing hhost h⟩
  | addressPort a p =>
      rw [configureSection_both hkeys hhost, configureSection_both hkeys hhost, PortRead]
      cases Given.readPort a with
      | none => exact ⟨fun h => configuredAs_error.2 h.symm, fun h => (configuredAs_error.1 h).symm⟩
      | some n =>
          have hfound := @configuredAs_found _ net (.addressPort a p) host hhost n
          exact ⟨fun h => hfound.2 h.symm, fun h => (hfound.1 h).symm⟩
  | portAddress p a =>
      rw [configureSection_address hkeys hhost, configureSection_address hkeys hhost]
      have hfound := @configuredAs_found _ net (.portAddress p a) host hhost 0
      exact ⟨hfound.2, hfound.1⟩

/-! ## Configuration files -/

theorem forEach_single {body : Option (BindAddress Host) → Pairs → Option (Outcome Host)} :
    forEach body s [pairs] = body s pairs := by
  rw [forEach]
  cases body s pairs with
  | none => rfl
  | some o =>
      obtain ⟨status, bindAddress⟩ := o
      cases status <;> rfl

def SectionsGive (sections : List Pairs) (gs : List Given) : Prop :=
  List.Forall₂ (fun pairs g => relevant pairs = g.pairs) sections gs

/-- A section with its port in range does not end the run. -/
theorem forEach_cons_of_portNum (sections : List Pairs) {g' : Given}
    (hright : ConfiguredAs net g' (configureSection net s pairs)) (hport : g'.portNum ≠ none) :
    ∃ s', forEach (configureSection net) s (pairs :: sections) =
      forEach (configureSection net) s' sections := by
  obtain ⟨o, ho, hright⟩ := hright
  obtain ⟨port, hport⟩ := Option.ne_none_iff_exists'.1 hport
  rw [hport] at hright
  refine ⟨o.bindAddress, ?_⟩
  rw [forEach, ho, Option.bind_some, hright.1, if_neg (by decide)]

/-- The last section decides, or the first whose port is out of range. -/
theorem configuredAs_of_sections {sections : List Pairs} {gs rest : List Given}
    (hgive : SectionsGive sections (gs ++ g :: rest)) (hlast : rest = [] ∨ g.portNum = none)
    (hread : ∀ h ∈ gs ++ [g], Resolves net h ∧ PortRead h) (hports : ∀ h ∈ gs, h.portNum ≠ none) :
    ConfiguredAs net g (forEach (configureSection net) s sections) := by
  induction gs generalizing s sections with
  | nil =>
      cases hgive with
      | @cons pairs _ sections _ hpairs hrest =>
          obtain ⟨hresolves, hport⟩ := hread g List.mem_cons_self
          have hright := (configureSection_iff (s := s) hpairs hresolves).1 hport
          rcases hlast with rfl | hnone
          · cases hrest
            rwa [forEach_single]
          · obtain ⟨o, ho, hstatus⟩ := hright
            rw [hnone] at hstatus
            refine ⟨o, ?_, by rw [hnone]; exact hstatus⟩
            rw [forEach, ho, Option.bind_some, if_pos hstatus]
  | cons h gs ih =>
      cases hgive with
      | @cons pairs _ sections _ hpairs hrest =>
          obtain ⟨⟨hresolves, hport⟩, hread⟩ := List.forall_mem_cons.1 hread
          obtain ⟨hnum, hports⟩ := List.forall_mem_cons.1 hports
          have hright := (configureSection_iff (s := s) hpairs hresolves).1 hport
          obtain ⟨s', hs'⟩ := forEach_cons_of_portNum sections hright hnum
          rw [hs']
          exact ih hrest hread hports

/-- Every configuration file can be gone through. The one section of a file is taken as it
should be exactly when its port is read, and so are repeated sections when theirs are. -/
theorem contextParseConfig_iff (net : Network Host) (localName : String) (doc : Pairs) :
    (∀ s, ∃ o, contextParseConfig net localName s doc = some o) ∧
    (∀ pairs g, mbsmfSections localName doc = [pairs] → relevant pairs = g.pairs →
      Resolves net g →
      (ConfiguredAs net g (contextParseConfig net localName none doc) ↔ PortRead g)) ∧
    ∀ s gs g rest, SectionsGive (mbsmfSections localName doc) (gs ++ g :: rest) →
      (rest = [] ∨ g.portNum = none) → (∀ h ∈ gs ++ [g], Resolves net h ∧ PortRead h) →
      (∀ h ∈ gs, h.portNum ≠ none) →
      ConfiguredAs net g (contextParseConfig net localName s doc) := by
  refine ⟨fun s => ?_, fun pairs g hdoc hpairs hresolves => ?_,
    fun s gs g rest hgive hlast hread hports => ?_⟩
  · rw [contextParseConfig_eq]
    exact forEach_total configureSection_total _
  · rw [contextParseConfig_eq, hdoc, forEach_single]
    have hiff := configureSection_iff (s := none) hpairs hresolves
    exact ⟨hiff.2, hiff.1⟩
  · rw [contextParseConfig_eq]
    exact configuredAs_of_sections hgive hlast hread hports

/-- A port that is given alone is not set. -/
theorem port_alone_ignored : ¬ ∀ (net : Network Unit) localName doc pairs g,
    mbsmfSections localName doc = [pairs] → relevant pairs = g.pairs → Resolves net g →
      ConfiguredAs net g (contextParseConfig net localName none doc) := by
  intro h
  have hright := h ⟨fun _ => none, (), true⟩ "app"
    [("app", .mapping
      [("notifications", .mapping [("mbsmf", .mapping [("port", .scalar "7777")])])])]
    [("port", .scalar "7777")] (.port "7777") (by rfl) rfl rfl
  exact not_configuredAs_nothing rfl hright

end Sections

end ServiceConsumers.NotificationConfig
