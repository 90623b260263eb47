import ServiceConsumers.AllocationMatching

set_option autoImplicit false

/-!
# PLMN identities of TMGIs (`tmgi.c`, `nmbsmf-tmgi-handle.c`, `nmbsmf-mbs-session-handle.c`)

A PLMN arrives as two strings, is stored as numbers with a length for the MNC, and is written
out again from these.
-/

namespace ServiceConsumers.PlmnRoundTrips

open TransitionRuns ObjectStore WireText ServiceAreas PublicSessions ConsumerState TmgiOperations
  ResponseHandlers AllocationMatching

/-! ## Strings of digits -/

/-- A string of `n` decimal digits. -/
def IsCode (n : ℕ) (s : String) : Prop :=
  s.toList.length = n ∧ ∀ c ∈ s.toList, c.isDigit = true

/-- `atoi` on a string of digits. -/
def codeValue (s : String) : ℕ := Nat.ofDigitChars 10 s.toList 0

theorem codeValue_padDecimal (n v : ℕ) : codeValue (padDecimal n v) = v := by
  simp only [codeValue, padDecimal, String.toList_ofList, Nat.ofDigitChars_append,
    Nat.ofDigitChars_replicate_zero, Nat.mul_zero, Nat.ofDigitChars_ten_toDigits]

theorem isDigit_padDecimal (n v : ℕ) : ∀ c ∈ (padDecimal n v).toList, c.isDigit = true := by
  intro c hc
  simp only [padDecimal, String.toList_ofList, List.mem_append, List.mem_replicate] at hc
  rcases hc with ⟨-, rfl⟩ | hc
  · rfl
  · exact Nat.isDigit_of_mem_toDigits (by decide) (by decide) hc

theorem digitValue_lt {c : Char} (hc : c.isDigit = true) : c.toNat - '0'.toNat < 10 := by
  have hle := (Char.isDigit_iff_toNat.1 hc).2
  change c.toNat ≤ 57 at hle
  change c.toNat - 48 < 10
  omega

theorem digitValue_inj {c d : Char} (hc : c.isDigit = true) (hd : d.isDigit = true)
    (h : c.toNat - '0'.toNat = d.toNat - '0'.toNat) : c = d := by
  have hc0 := (Char.isDigit_iff_toNat.1 hc).1
  have hd0 := (Char.isDigit_iff_toNat.1 hd).1
  exact Char.toNat_inj.1 (by omega)

theorem ofDigitChars_cons_eq (c : Char) (cs : List Char) : Nat.ofDigitChars 10 (c :: cs) 0 =
    10 ^ cs.length * (c.toNat - '0'.toNat) + Nat.ofDigitChars 10 cs 0 := by
  rw [Nat.ofDigitChars_cons, Nat.ofDigitChars_eq_ofDigitChars_zero, Nat.mul_zero, Nat.zero_add]

theorem ofDigitChars_lt {cs : List Char} (h : ∀ c ∈ cs, c.isDigit = true) :
    Nat.ofDigitChars 10 cs 0 < 10 ^ cs.length := by
  induction cs with
  | nil => exact Nat.one_pos
  | cons c cs ih =>
      rw [List.forall_mem_cons] at h
      have hrest := ih h.2
      have hfirst : 10 ^ cs.length * (c.toNat - '0'.toNat) ≤ 10 ^ cs.length * 9 :=
        Nat.mul_le_mul_left _ (Nat.le_of_lt_succ (digitValue_lt h.1))
      rw [ofDigitChars_cons_eq, List.length_cons, Nat.pow_succ]
      omega

/-- Digits are read differently unless they are the same. -/
theorem ofDigitChars_inj {cs ds : List Char} (hcs : ∀ c ∈ cs, c.isDigit = true)
    (hds : ∀ d ∈ ds, d.isDigit = true) (hlength : cs.length = ds.length)
    (h : Nat.ofDigitChars 10 cs 0 = Nat.ofDigitChars 10 ds 0) : cs = ds := by
  induction cs generalizing ds with
  | nil => exact (List.eq_nil_of_length_eq_zero hlength.symm).symm
  | cons c cs ih =>
      cases ds with
      | nil => cases hlength
      | cons d ds =>
          rw [List.forall_mem_cons] at hcs hds
          have hrest : cs.length = ds.length := Nat.succ.inj hlength
          rw [ofDigitChars_cons_eq, ofDigitChars_cons_eq, hrest] at h
          have hltc := ofDigitChars_lt hcs.2
          have hltd := ofDigitChars_lt hds.2
          rw [hrest] at hltc
          have hdigit : c.toNat - '0'.toNat = d.toNat - '0'.toNat := by
            have hdiv := congrArg (· / 10 ^ ds.length) h
            simpa only [Nat.mul_add_div (Nat.pow_pos (by decide : 0 < 10)), Nat.div_eq_of_lt hltc,
              Nat.div_eq_of_lt hltd, Nat.add_zero] using hdiv
          rw [hdigit, Nat.add_left_cancel_iff] at h
          rw [digitValue_inj hcs.1 hds.1 hdigit, ih hcs.2 hds.2 hrest h]

theorem codeValue_lt {n : ℕ} {s : String} (hs : IsCode n s) : codeValue s < 10 ^ n := by
  have hlt := ofDigitChars_lt hs.2
  rw [hs.1] at hlt
  exact hlt

theorem padDecimal_codeValue {n : ℕ} {s : String} (hn : 0 < n) (hs : IsCode n s) :
    padDecimal n (codeValue s) = s := by
  refine String.toList_inj.1 (ofDigitChars_inj (isDigit_padDecimal _ _) hs.2 ?_ ?_)
  · rw [length_padDecimal hn (codeValue_lt hs), hs.1]
  · exact codeValue_padDecimal n (codeValue s)

/-! ## The law -/

/-- The two codes of a message, with what a function makes of them. -/
def received (number : String → ℕ) (mbsServiceId : Option String) (mcc mnc : String) : ApiTmgi :=
  { mbsServiceId := mbsServiceId, mcc := mcc, mnc := mnc, mccNumber := number mcc,
    mncNumber := number mnc }

/-- Requests for the object name the TMGI that was received, and the object is found by it. -/
structure NamedAs (api : ApiTmgi) (x : PrivTmgi) : Prop where
  named : identityOf x = identity api
  found : tmgiMatches api x = true

/-- Both codes are read as decimal numbers. An MNC that is already stored is written with the
received digits, and a new one below 100 was received with two. -/
structure PlmnKept (number : String → ℕ) (mcc mnc : String) (p : PlmnId) : Prop where
  readMcc : number mcc = codeValue mcc
  readMnc : number mnc = codeValue mnc
  digits : if p.mcc = number mcc ∧ p.mnc = number mnc then plmnIdMncString p = mnc
    else codeValue mnc < 100 → mnc.length = 2

variable {number : String → ℕ} {mcc mnc : String} {p : PlmnId} {x : PrivTmgi}

def storedPlmn (number : String → ℕ) (mcc mnc : String) (p : PlmnId) : PlmnId :=
  if p.mcc ≠ number mcc ∨ p.mnc ≠ number mnc then
    plmnIdBuild (number mcc) (number mnc) (if number mnc < 100 then 2 else 3)
  else p

theorem storedPlmn_mcc : (storedPlmn number mcc mnc p).mcc = number mcc := by
  unfold storedPlmn
  split
  · rfl
  · rename_i h
    rw [not_or, not_not] at h
    exact h.1

theorem storedPlmn_mnc : (storedPlmn number mcc mnc p).mnc = number mnc := by
  unfold storedPlmn
  split
  · rfl
  · rename_i h
    rw [not_or, not_not, not_not] at h
    exact h.2

/-- The stored PLMN is written as it was received. -/
theorem storedPlmn_texts_iff (hmcc : IsCode 3 mcc) (hmnc : IsCode 2 mnc ∨ IsCode 3 mnc) :
    (plmnIdMccString (storedPlmn number mcc mnc p) = mcc ∧
      plmnIdMncString (storedPlmn number mcc mnc p) = mnc) ↔ PlmnKept number mcc mnc p := by
  have hmccText : plmnIdMccString (storedPlmn number mcc mnc p) = padDecimal 3 (number mcc) := by
    rw [plmnIdMccString, storedPlmn_mcc]
  constructor
  · rintro ⟨hmcctext, hmnctext⟩
    have hreadMcc : number mcc = codeValue mcc := by
      rw [hmccText] at hmcctext
      rw [← codeValue_padDecimal 3 (number mcc), hmcctext]
    have hreadMnc : number mnc = codeValue mnc := by
      have hvalue := congrArg codeValue hmnctext
      rw [plmnIdMncString, codeValue_padDecimal, storedPlmn_mnc] at hvalue
      exact hvalue
    refine ⟨hreadMcc, hreadMnc, ?_⟩
    split
    · rename_i hsame
      rw [storedPlmn, if_neg (by rw [not_or, not_not, not_not]; exact hsame)] at hmnctext
      exact hmnctext
    · rename_i hnew
      intro hlt
      rw [storedPlmn, if_pos (not_and_or.1 hnew), hreadMnc, if_pos hlt] at hmnctext
      have hlength := length_padDecimal (n := 2) (by decide) hlt
      rw [show padDecimal 2 (codeValue mnc) = mnc from hmnctext] at hlength
      exact hlength
  · rintro ⟨hreadMcc, hreadMnc, hdigits⟩
    refine ⟨?_, ?_⟩
    · rw [hmccText, hreadMcc, padDecimal_codeValue (by decide) hmcc]
    · split at hdigits
      · rename_i hsame
        rw [storedPlmn, if_neg (by rw [not_or, not_not, not_not]; exact hsame)]
        exact hdigits
      · rename_i hnew
        rw [storedPlmn, if_pos (not_and_or.1 hnew), hreadMnc]
        change padDecimal (if codeValue mnc < 100 then 2 else 3) (codeValue mnc) = mnc
        split
        · rename_i hlt
          refine padDecimal_codeValue (by decide) ⟨hdigits hlt, ?_⟩
          exact hmnc.elim (fun h => h.2) fun h => h.2
        · rename_i hge
          refine padDecimal_codeValue (by decide) (hmnc.resolve_left fun h => ?_)
          exact hge (codeValue_lt h)

/-- An object is found by the TMGI that it names. -/
theorem namedAs_iff {api : ApiTmgi} : NamedAs api x ↔ identityOf x = identity api := by
  constructor
  · exact NamedAs.named
  · intro hnamed
    refine ⟨hnamed, ?_⟩
    simp only [identityOf, identity, Prod.mk.injEq] at hnamed
    obtain ⟨hid, hmcc, hmnc⟩ := hnamed
    simp only [tmgiMatches, hid, hmcc, hmnc]
    cases api.mbsServiceId <;> simp

theorem namedAs_granted_iff (hmcc : IsCode 3 mcc) (hmnc : IsCode 2 mnc ∨ IsCode 3 mnc)
    (mbsServiceId : Option String) (e : ℤ) (x : PrivTmgi) :
    NamedAs (received number mbsServiceId mcc mnc) (granted (received number mbsServiceId mcc mnc) e x)
      ↔ PlmnKept number mcc mnc x.tmgi.plmn := by
  rw [namedAs_iff, identityOf_granted, ← storedPlmn_texts_iff hmcc hmnc, tmgiSetPlmn_plmn]
  rfl

/-! ## The answer to a create request -/

/-- The new object of a create response has what a fresh object is granted. -/
theorem createdTmgi_tmgi {w v : World} {s t : Ref} {m : CreatedSession} {api : ApiTmgi} {e : ℤ}
    (hapi : m.tmgi = some api) (hstamp : m.expirationTime = some (.seconds e))
    (h : createdTmgi w s m = .ok (v, some t)) :
    ∃ x, v.tmgiStore t = some x ∧ x.tmgi = (granted api e {}).tmgi := by
  simp only [createdTmgi, hapi, hstamp, tmgiCreate, tmgiReplaceSbiObject, bind_eq_ok] at h
  obtain ⟨y, -, u, ⟨z, hz, hu⟩, h⟩ := h
  simp only [Except.ok.injEq, Prod.mk.injEq, Option.some.injEq] at hu h
  obtain ⟨rfl, rfl⟩ := h
  subst hu
  rw [World.tmgiAt_eq_ok] at hz
  obtain rfl : granted api e {} = z := by simpa [granted] using hz
  refine ⟨{ granted api e {} with sbiObject := y.sbiObject }, ?_, rfl⟩
  simp only [World.modifyTmgi, World.refCountSbiObjectUnref_tmgiStore,
    World.refCountSbiObjectRef_tmgiStore, Store.modify_self, Store.set_self, Option.map_some]
  rfl

/-! ## When the codes survive -/

/-- The codes of a PLMN survive an allocation or create response exactly when they are read as
decimal numbers and the guessed length of the MNC is the received one. -/
theorem plmn_round_trips_iff (number : String → ℕ) (mbsServiceId : Option String) {mcc mnc : String}
    (hmcc : IsCode 3 mcc) (hmnc : IsCode 2 mnc ∨ IsCode 3 mnc) (w : World) :
    (∀ n e t x, tmgiFindMatchingOpenapiType w (received number mbsServiceId mcc mnc) = some t →
      w.tmgiStore t = some x →
        ((∃ v y, takeAllocated n e w (received number mbsServiceId mcc mnc) = .ok v ∧
          v.tmgiStore t = some y ∧ NamedAs (received number mbsServiceId mcc mnc) y) ↔
            PlmnKept number mcc mnc x.tmgi.plmn)) ∧
    ∀ s m e v t, m.tmgi = some (received codeValue mbsServiceId mcc mnc) →
      m.expirationTime = some (.seconds e) → createdTmgi w s m = .ok (v, some t) →
        ((∃ y, v.tmgiStore t = some y ∧ NamedAs (received codeValue mbsServiceId mcc mnc) y) ↔
          PlmnKept codeValue mcc mnc {}) := by
  constructor
  · intro n e t x hfind hx
    obtain ⟨x', v, hx', -, hv, -, hstore, -⟩ := takeAllocated_of_some (n := n) (e := e) hfind
    obtain rfl := Option.some.inj (hx.symm.trans hx')
    have hafter : v.tmgiStore t = some (granted (received number mbsServiceId mcc mnc) e x) := by
      rw [hstore, Store.modify_self, hx, Option.map_some]
    rw [← namedAs_granted_iff hmcc hmnc mbsServiceId e x]
    constructor
    · rintro ⟨v', y, hv', hy, hnamed⟩
      obtain rfl := Except.ok.inj (hv.symm.trans hv')
      obtain rfl := Option.some.inj (hafter.symm.trans hy)
      exact hnamed
    · intro hnamed
      exact ⟨v, _, hv, hafter, hnamed⟩
  · intro s m e v t hapi hstamp hcreated
    obtain ⟨y, hy, hsame⟩ := createdTmgi_tmgi hapi hstamp hcreated
    have hidentity : identityOf y =
        identityOf (granted (received codeValue mbsServiceId mcc mnc) e {}) := by
      rw [identityOf, identityOf, hsame]
    rw [← namedAs_granted_iff hmcc hmnc mbsServiceId e {}, namedAs_iff, ← hidentity, ← namedAs_iff]
    constructor
    · rintro ⟨y', hy', hnamed⟩
      obtain rfl := Option.some.inj (hy.symm.trans hy')
      exact hnamed
    · exact fun hnamed => ⟨y, hy, hnamed⟩

/-- A world with one TMGI that waits for an allocation. -/
def waitingWorld : World := (tmgiCreate {} none).1

theorem isCode_three (mnc : String) (h : mnc.toList.length = 3 ∧ mnc.toList.all Char.isDigit = true) :
    IsCode 3 mnc := ⟨h.1, List.all_eq_true.1 h.2⟩

theorem mnc_150_survives : ∃ v y, takeAllocated 0 9 waitingWorld
      (received codeValue (some "000001") "234" "150") = .ok v ∧ v.tmgiStore 1 = some y ∧
      NamedAs (received codeValue (some "000001") "234" "150") y := by
  have hmcc : IsCode 3 "234" := isCode_three _ (by decide)
  have hmnc : IsCode 3 "150" := isCode_three _ (by decide)
  refine ((plmn_round_trips_iff codeValue (some "000001") hmcc (.inr hmnc) waitingWorld).1 0 9 1 {}
    (by decide) rfl).2 ⟨rfl, rfl, ?_⟩
  rw [if_neg (by decide)]
  exact fun h => absurd h (by decide)

/-- An MNC with leading zeros loses one of them. -/
theorem mnc_001_is_shortened : ¬∀ mcc mnc, IsCode 3 mcc → IsCode 2 mnc ∨ IsCode 3 mnc →
    ∀ w t, tmgiFindMatchingOpenapiType w (received codeValue (some "000001") mcc mnc) = some t →
      ∃ v y, takeAllocated 0 9 w (received codeValue (some "000001") mcc mnc) = .ok v ∧
        v.tmgiStore t = some y ∧ NamedAs (received codeValue (some "000001") mcc mnc) y := by
  intro h
  have hmcc : IsCode 3 "234" := isCode_three _ (by decide)
  have hmnc : IsCode 3 "001" := isCode_three _ (by decide)
  obtain ⟨v, y, hv, hy, hnamed⟩ := h "234" "001" hmcc (.inr hmnc) waitingWorld 1 (by decide)
  obtain ⟨x, v', hx, -, hv', -, hstore, -⟩ := takeAllocated_of_some (n := 0) (e := 9)
    (show tmgiFindMatchingOpenapiType waitingWorld
      (received codeValue (some "000001") "234" "001") = some 1 by decide)
  obtain rfl := Except.ok.inj (hv.symm.trans hv')
  obtain rfl : x = {} := (Option.some.inj hx).symm
  rw [hstore, Store.modify_self, hx, Option.map_some] at hy
  obtain rfl := Option.some.inj hy
  have hdigits := ((namedAs_granted_iff hmcc (.inr hmnc) (some "000001") 9 {}).1 hnamed).digits
  rw [if_neg (by decide)] at hdigits
  exact absurd (hdigits (by decide)) (by decide)

end ServiceConsumers.PlmnRoundTrips
