import ServiceConsumers.CacheAges

set_option autoImplicit false

/-!
# Addresses on the command line (`options.c` and `init.c` of `pcf-policyauthorization`)

An address, a port and a protocol are split out of one text. The port is kept in a `short int`.
-/

namespace ServiceConsumers.EndpointTexts

open NumberTexts CacheAges

/-! ## The splitters -/

/-- What is before the last such character, and what is after it. -/
def splitLast (c : Char) : List Char → Option (List Char × List Char)
  | [] => none
  | x :: xs =>
      match splitLast c xs with
      | some (before, after) => some (x :: before, after)
      | none => if x = c then some ([], xs) else none

/-- `strrchr`, which points between two texts. -/
def strrchr (str : String) (c : Char) : Option (String × String) :=
  (splitLast c str.toList).map fun parts => (String.ofList parts.1, String.ofList parts.2)

/-- The `IPPROTO_` constants, of which `IPPROTO_IP` is for none. -/
inductive IpProto where
  | ip
  | icmp
  | tcp
  | udp
  | sctp
  deriving DecidableEq, Repr

def protocols : List (String × IpProto) :=
  [("tcp", .tcp), ("udp", .udp), ("icmp", .icmp), ("sctp", .sctp)]

/-- `_protocol_string_to_enum`. -/
def protocolStringToEnum (pstr : String) : Except String IpProto :=
  match protocols.find? fun entry => sameText pstr.toList entry.1.toList with
  | some entry => .ok entry.2
  | none => .error ("Unsupported IP protocol '" ++ pstr ++ "'\n")

/-- A `short int` of the number that a text starts with. -/
def readPort (str : String) : BitVec 16 := BitVec.ofInt 16 (atoi str.toList)

/-- `_split_address_and_port`; an error ends the program. -/
def splitAddressAndPort (str : String) : Except String (String × BitVec 16) :=
  match strrchr str ':' with
  | none => .error "Address and port pair must contain a ':'\n"
  | some (address, port) => .ok (address, readPort port)

/-- The options of one side; the protocol is common to both. -/
structure Endpoint where
  address : Option String := none
  port : BitVec 16 := 0
  protocol : IpProto := .ip
  deriving DecidableEq, Repr

/-- An address is stored unless it is empty. -/
def storedAddress (address : String) : Option String := if address = "" then none else some address

/-- The protocol that a text names, unless another one is set. -/
def agreedProtocol (protocol : IpProto) (pstr : String) : Except String IpProto :=
  match protocolStringToEnum pstr with
  | .error message => .error message
  | .ok proto =>
      if protocol ≠ .ip ∧ protocol ≠ proto then
        .error "Cannot have two different protocols on the UE<=>Remote connection\n"
      else .ok proto

/-- `_split_address_port_and_protocol`. -/
def splitAddressPortAndProtocol (str : String) (e : Endpoint) : Except String Endpoint :=
  if e.address.isSome then .error ("Address already set, cannot change to " ++ str ++ "\n")
  else
    match strrchr str ':' with
    | some (address, port) =>
        match strrchr str '/' with
        | some (_, pstr) =>
            (agreedProtocol e.protocol pstr).map fun proto =>
              { address := storedAddress address, port := readPort port, protocol := proto }
        | none => .ok { e with address := storedAddress address, port := readPort port }
    | none =>
        match strrchr str '/' with
        | some (address, pstr) =>
            (agreedProtocol e.protocol pstr).map fun proto =>
              { e with address := storedAddress address, protocol := proto }
        | none => .ok { e with address := storedAddress str }

/-- The `uri` of the configuration file, which prints the port with `%i`. -/
def nrfUri (nrfAddress : String) (nrfPort : BitVec 16) : String :=
  "http://" ++ nrfAddress ++ ":" ++ toString nrfPort.toInt

/-! ## Texts and their last separators -/

theorem splitLast_eq_none {c : Char} {cs : List Char} (h : c ∉ cs) : splitLast c cs = none := by
  induction cs with
  | nil => rfl
  | cons x xs ih =>
      rw [List.mem_cons, not_or] at h
      rw [splitLast, ih h.2]
      exact if_neg (Ne.symm h.1)

theorem splitLast_append {c : Char} {after : List Char} (h : c ∉ after) (before : List Char) :
    splitLast c (before ++ c :: after) = some (before, after) := by
  induction before with
  | nil =>
      rw [List.nil_append, splitLast, splitLast_eq_none h]
      exact if_pos rfl
  | cons x xs ih => rw [List.cons_append, splitLast, ih]

theorem strrchr_eq_none {c : Char} {str : String} (h : c ∉ str.toList) : strrchr str c = none := by
  rw [strrchr, splitLast_eq_none h]
  rfl

theorem strrchr_append {c : Char} {separator before after : String}
    (hseparator : separator.toList = [c]) (h : c ∉ after.toList) :
    strrchr (before ++ separator ++ after) c = some (before, after) := by
  have hlist : (before ++ separator ++ after).toList = before.toList ++ c :: after.toList := by
    rw [String.toList_append, String.toList_append, hseparator, List.append_assoc]
    rfl
  rw [strrchr, hlist, splitLast_append h, Option.map_some, String.ofList_toList, String.ofList_toList]

theorem notMem_joined {c : Char} {before separator after : String} (hbefore : c ∉ before.toList)
    (hseparator : c ∉ separator.toList) (hafter : c ∉ after.toList) :
    c ∉ (before ++ separator ++ after).toList := by
  rw [String.toList_append, String.toList_append, List.mem_append, List.mem_append]
  rintro ((h | h) | h)
  · exact hbefore h
  · exact hseparator h
  · exact hafter h

/-! ## Ports as texts -/

theorem toList_toString (n : ℕ) : (toString n).toList = Nat.toDigits 10 n := by
  rw [Nat.toString_eq_repr, Nat.toList_repr]

theorem notMem_toString {c : Char} (hc : digitValue c = none) (n : ℕ) : c ∉ (toString n).toList := by
  intro hmem
  rw [toList_toString] at hmem
  obtain ⟨d, hd, rfl⟩ := mem_toDigits (by decide) hmem
  rw [digitValue_digitChar (by omega)] at hc
  cases hc

/-- A text that starts with a number has it read, when nothing after it is a digit. -/
theorem atoi_toString_append {n : ℕ} (hn : n < 2 ^ 31) {rest : List Char}
    (hrest : (readDigits 10 n rest).1 = n) : atoi ((toString n).toList ++ rest) = n := by
  have hplain : ∀ d < 10, isSpace (Nat.digitChar d) = false ∧ Nat.digitChar d ≠ '-' ∧
      Nat.digitChar d ≠ '+' := by decide +kernel
  have hread : readDigits 10 0 (Nat.toDigits 10 n) = (n, []) := by
    have hdigits : ∀ d < 10, digitValue (id (Nat.digitChar d)) = some d :=
      fun d hd => digitValue_digitChar (by omega)
    have h := readDigits_map_toDigits (by decide) hdigits n
    rwa [List.map_id] at h
  have hdigits := readDigits_append hread rest
  rw [toList_toString]
  obtain ⟨c, cs, hcs⟩ := List.exists_cons_of_ne_nil (Nat.toDigits_ne_nil (n := n) (b := 10))
  obtain ⟨d, hd, rfl⟩ := mem_toDigits (c := c) (by decide) (hcs ▸ List.mem_cons_self)
  obtain ⟨hspace, hminus, hplus⟩ := hplain d hd
  have hdrop : (Nat.toDigits 10 n ++ rest).dropWhile isSpace = Nat.toDigits 10 n ++ rest := by
    rw [hcs, List.cons_append, List.dropWhile_cons, hspace]
    rfl
  have hsign : readSign (Nat.toDigits 10 n ++ rest) = (false, Nat.toDigits 10 n ++ rest) := by
    rw [hcs, List.cons_append, readSign]
    · exact fun _ h => hminus (List.cons.inj h).1
    · exact fun _ h => hplus (List.cons.inj h).1
  simp only [atoi, hdrop, hsign, hdigits, hrest, Bool.false_eq_true, if_false]
  rw [min_eq_left (by omega), Int.bmod_eq_of_le (by omega) (by omega)]

theorem readPort_of_atoi {str : String} {n : ℕ} (hn : n < 2 ^ 15) (h : atoi str.toList = n) :
    (readPort str).toInt = n := by
  rw [readPort, h, BitVec.toInt_ofInt]
  exact Int.bmod_eq_of_le (by omega) (by omega)

theorem readPort_toString {n : ℕ} (hn : n < 2 ^ 15) : (readPort (toString n)).toInt = n := by
  apply readPort_of_atoi hn
  have h : atoi ((toString n).toList ++ []) = n := atoi_toString_append (by omega) rfl
  rwa [List.append_nil] at h

/-- The protocol after a port does not get into its number. -/
theorem readPort_toString_append {n : ℕ} (hn : n < 2 ^ 15) (pstr : String) :
    (readPort (toString n ++ "/" ++ pstr)).toInt = n := by
  apply readPort_of_atoi hn
  rw [String.toList_append, String.toList_append, List.append_assoc]
  exact atoi_toString_append (by omega) rfl

/-! ## Protocols as texts -/

/-- A text names the protocol of an entry, in letters of any case. -/
def Names (pstr : String) (proto : IpProto) : Prop :=
  ∃ entry ∈ protocols, entry.2 = proto ∧ sameText pstr.toList entry.1.toList = true

theorem protocolStringToEnum_eq {pstr : String} {proto : IpProto} (h : Names pstr proto) :
    protocolStringToEnum pstr = .ok proto := by
  have hall : ∀ entry ∈ protocols, (protocols.find? fun other =>
      lower entry.1.toList == lower other.1.toList) = some entry := by decide +kernel
  obtain ⟨entry, hentry, rfl, hsame⟩ := h
  have hlower : lower pstr.toList = lower entry.1.toList := beq_iff_eq.1 hsame
  have hfind : (protocols.find? fun other => sameText pstr.toList other.1.toList) = some entry := by
    simp only [sameText, hlower]
    exact hall entry hentry
  rw [protocolStringToEnum, hfind]

/-- No separator is in the name of a protocol. -/
theorem notMem_of_names {pstr : String} {proto : IpProto} (h : Names pstr proto) {c : Char}
    (hc : c = ':' ∨ c = '/') : c ∉ pstr.toList := by
  have hall : ∀ entry ∈ protocols, ':' ∉ lower entry.1.toList ∧ '/' ∉ lower entry.1.toList := by
    decide +kernel
  obtain ⟨entry, hentry, -, hsame⟩ := h
  have hlower : lower pstr.toList = lower entry.1.toList := beq_iff_eq.1 hsame
  have hnone := hall entry hentry
  rw [← hlower] at hnone
  intro hmem
  have hmap : c.toLower ∈ lower pstr.toList := List.mem_map_of_mem hmem
  rcases hc with rfl | rfl
  · exact hnone.1 hmap
  · exact hnone.2 hmap

theorem agreedProtocol_eq {protocol proto : IpProto} {pstr : String} (hnames : Names pstr proto)
    (h : protocol = .ip ∨ protocol = proto) : agreedProtocol protocol pstr = .ok proto := by
  rw [agreedProtocol, protocolStringToEnum_eq hnames]
  apply if_neg
  intro hdiffers
  exact h.elim hdiffers.1 hdiffers.2

/-! ## Round trips -/

/-- The text of an IPv4 or IPv6 address, or any other that is not empty and has no `/`. -/
structure AddressText where
  text : String
  nonempty : text ≠ ""
  noSlash : '/' ∉ text.toList

/-- A protocol can be given with the options that are set. -/
def CanTake (e : Endpoint) (proto : IpProto) : Prop :=
  e.address = none ∧ (e.protocol = .ip ∨ e.protocol = proto)

/-- The splitters recover an address and a port, with and without a protocol, and the URI of the NRF
shows the port. An address without a colon is also recovered when there is no port. -/
structure RoundTrips (a : AddressText) (port : ℕ) : Prop where
  pair : ∃ p : BitVec 16, p.toInt = port ∧
    splitAddressAndPort (a.text ++ ":" ++ toString port) = .ok (a.text, p) ∧
    nrfUri a.text p = "http://" ++ a.text ++ ":" ++ toString port
  withPort : ∀ e : Endpoint, e.address = none → ∃ p : BitVec 16, p.toInt = port ∧
    splitAddressPortAndProtocol (a.text ++ ":" ++ toString port) e =
      .ok { e with address := some a.text, port := p }
  withProtocol : ∀ (e : Endpoint) (pstr : String) (proto : IpProto), Names pstr proto →
    CanTake e proto → ∃ p : BitVec 16, p.toInt = port ∧
      splitAddressPortAndProtocol (a.text ++ ":" ++ (toString port ++ "/" ++ pstr)) e =
        .ok { address := some a.text, port := p, protocol := proto }
  alone : ':' ∉ a.text.toList → ∀ e : Endpoint, e.address = none →
    splitAddressPortAndProtocol a.text e = .ok { e with address := some a.text }
  withoutPort : ':' ∉ a.text.toList → ∀ (e : Endpoint) (pstr : String) (proto : IpProto),
    Names pstr proto → CanTake e proto →
      splitAddressPortAndProtocol (a.text ++ "/" ++ pstr) e =
        .ok { e with address := some a.text, protocol := proto }

section

variable {a : AddressText} {port : ℕ} {e : Endpoint} {pstr : String} {proto : IpProto}

theorem storedAddress_text : storedAddress a.text = some a.text := if_neg a.nonempty

theorem strrchr_port : strrchr (a.text ++ ":" ++ toString port) ':' = some (a.text, toString port) :=
  strrchr_append rfl (notMem_toString (by decide) port)

theorem split_pair : splitAddressAndPort (a.text ++ ":" ++ toString port) =
    .ok (a.text, readPort (toString port)) := by
  rw [splitAddressAndPort, strrchr_port]

theorem split_port (haddress : e.address = none) :
    splitAddressPortAndProtocol (a.text ++ ":" ++ toString port) e =
      .ok { e with address := some a.text, port := readPort (toString port) } := by
  have hslash : '/' ∉ (a.text ++ ":" ++ toString port).toList :=
    notMem_joined a.noSlash (by decide) (notMem_toString (by decide) port)
  rw [splitAddressPortAndProtocol, haddress, strrchr_port, strrchr_eq_none hslash]
  simp only [Option.isSome_none, Bool.false_eq_true, if_false, storedAddress_text]

theorem split_protocol (hnames : Names pstr proto) (he : CanTake e proto) :
    splitAddressPortAndProtocol (a.text ++ ":" ++ (toString port ++ "/" ++ pstr)) e =
      .ok { address := some a.text, port := readPort (toString port ++ "/" ++ pstr),
            protocol := proto } := by
  have hcolon : ':' ∉ (toString port ++ "/" ++ pstr).toList :=
    notMem_joined (notMem_toString (by decide) port) (by decide) (notMem_of_names hnames (.inl rfl))
  have hslash : strrchr (a.text ++ ":" ++ (toString port ++ "/" ++ pstr)) '/' =
      some (a.text ++ ":" ++ toString port, pstr) := by
    rw [← String.append_assoc, ← String.append_assoc]
    exact strrchr_append rfl (notMem_of_names hnames (.inr rfl))
  rw [splitAddressPortAndProtocol, he.1, strrchr_append rfl hcolon, hslash]
  simp only [Option.isSome_none, Bool.false_eq_true, if_false, agreedProtocol_eq hnames he.2,
    storedAddress_text]
  rfl

theorem split_alone (hcolon : ':' ∉ a.text.toList) (haddress : e.address = none) :
    splitAddressPortAndProtocol a.text e = .ok { e with address := some a.text } := by
  rw [splitAddressPortAndProtocol, haddress, strrchr_eq_none hcolon, strrchr_eq_none a.noSlash]
  simp only [Option.isSome_none, Bool.false_eq_true, if_false, storedAddress_text]

theorem split_withoutPort (hcolon : ':' ∉ a.text.toList) (hnames : Names pstr proto)
    (he : CanTake e proto) : splitAddressPortAndProtocol (a.text ++ "/" ++ pstr) e =
      .ok { e with address := some a.text, protocol := proto } := by
  have hnone : ':' ∉ (a.text ++ "/" ++ pstr).toList :=
    notMem_joined hcolon (by decide) (notMem_of_names hnames (.inl rfl))
  rw [splitAddressPortAndProtocol, he.1, strrchr_eq_none hnone,
    strrchr_append rfl (notMem_of_names hnames (.inr rfl))]
  simp only [Option.isSome_none, Bool.false_eq_true, if_false, agreedProtocol_eq hnames he.2,
    storedAddress_text]
  rfl

end

/-- An endpoint comes back out of its text exactly when the port fits in a signed number of 16 bits. -/
theorem roundTrips_iff (a : AddressText) (port : ℕ) : RoundTrips a port ↔ port ≤ 32767 := by
  constructor
  · intro h
    obtain ⟨p, hp, -⟩ := h.pair
    have hlt := BitVec.two_mul_toInt_lt (x := p)
    omega
  · intro h
    have hport : (readPort (toString port)).toInt = port := readPort_toString (by omega)
    constructor
    · refine ⟨readPort (toString port), hport, split_pair, ?_⟩
      rw [nrfUri, hport]
      rfl
    · intro e haddress
      exact ⟨readPort (toString port), hport, split_port haddress⟩
    · intro e pstr proto hnames he
      exact ⟨readPort (toString port ++ "/" ++ pstr), readPort_toString_append (by omega) pstr,
        split_protocol hnames he⟩
    · intro hcolon e haddress
      exact split_alone hcolon haddress
    · intro hcolon e pstr proto hnames he
      exact split_withoutPort hcolon hnames he

def localhostText : AddressText where
  text := "127.0.0.1"
  nonempty := by decide
  noSlash := by decide

/-- The port comes out negative, and in the URI too. -/
theorem high_port_not_recovered :
    splitAddressAndPort "127.0.0.1:50000" = .ok ("127.0.0.1", BitVec.ofInt 16 (-15536)) ∧
      nrfUri "127.0.0.1" (BitVec.ofInt 16 (-15536)) = "http://127.0.0.1:-15536" ∧
      ¬ RoundTrips localhostText 50000 := by
  refine ⟨by decide +kernel, by decide +kernel, ?_⟩
  intro h
  obtain ⟨p, hp, -⟩ := h.pair
  have hlt := BitVec.two_mul_toInt_lt (x := p)
  omega

end ServiceConsumers.EndpointTexts
