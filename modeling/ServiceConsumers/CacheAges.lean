import Mathlib.Data.List.Induction
import ServiceConsumers.NumberTexts

set_option autoImplicit false

/-!
# How long a response may be kept (`utils.c` of both libraries)

The directives of a `Cache-Control` header are read one after the other, and the headers of a
response in the order of their hash table.
-/

namespace ServiceConsumers.CacheAges

open NumberTexts

/-! ## Texts -/

/-- `atoi`, which is `strtol` cut down to an `int`. -/
def atoi (s : List Char) : ℤ :=
  let (negative, digits) := readSign (s.dropWhile isSpace)
  let n : ℤ := (readDigits 10 0 digits).1
  Int.bmod (if negative then max (-n) (-2 ^ 63) else min n (2 ^ 63 - 1)) (2 ^ 32)

/-- The tokens between commas that `strtok_r` finds. It skips those that are empty. -/
def tokens (s : List Char) : List (List Char) := (s.splitOn ',').filter fun t => t ≠ []

/-- `ogs_trimwhitespace`. -/
def trim (s : List Char) : List Char :=
  ((s.dropWhile isSpace).reverse.dropWhile isSpace).reverse

def lower (s : List Char) : List Char := s.map Char.toLower

/-- `strcasecmp` finds no difference. -/
def sameText (s t : List Char) : Bool := lower s == lower t

/-- `strncasecmp` finds no difference in as many characters as the prefix has. -/
def hasPrefix (s start : List Char) : Bool := sameText (s.take start.length) start

/-! ## Directives -/

def noCache : List Char := "no-cache".toList

def noStore : List Char := "no-store".toList

def maxAgeIs : List Char := "max-age=".toList

/-- The loop over the directives. -/
def readDirectives : ℤ → List (List Char) → ℤ
  | ret, [] => ret
  | ret, ptr :: ptrs =>
      let op := trim ptr
      if sameText op noCache || sameText op noStore then 0
      else if hasPrefix op maxAgeIs then readDirectives (atoi (op.drop 8)) ptrs
      else readDirectives ret ptrs

def cacheControlToCacheAge (cacheControl : List Char) : ℤ :=
  readDirectives 0 (tokens cacheControl)

/-- A directive with the white space around it. -/
structure Directive where
  text : List Char
  noComma : ',' ∉ text

namespace Directive

def restrictive (d : Directive) : Bool :=
  sameText (trim d.text) noCache || sameText (trim d.text) noStore

def maxAge (d : Directive) : Option ℤ :=
  if hasPrefix (trim d.text) maxAgeIs then some (atoi ((trim d.text).drop 8)) else none

end Directive

def headerOf (ds : List Directive) : List Char := [','].intercalate (ds.map Directive.text)

/-- No age if a directive restricts it, else that of the last directive that gives one. -/
def ageOf (ds : List Directive) : ℤ :=
  if ds.any Directive.restrictive then 0 else ((ds.filterMap Directive.maxAge).getLast?).getD 0

variable {ds ds' : List Directive}

/-- The restriction counts wherever it stands. -/
theorem readDirectives_eq (ret : ℤ) (ds : List Directive) :
    readDirectives ret (ds.map Directive.text) = if ds.any Directive.restrictive then 0
      else ((ds.filterMap Directive.maxAge).getLast?).getD ret := by
  induction ds generalizing ret with
  | nil => rfl
  | cons d ds ih =>
      have hloop : readDirectives ret (d.text :: ds.map Directive.text) =
          if d.restrictive then 0
          else readDirectives (d.maxAge.getD ret) (ds.map Directive.text) := by
        rw [readDirectives, Directive.restrictive, Directive.maxAge]
        split
        · rfl
        · split <;> rfl
      rw [List.map_cons, hloop, ih, List.any_cons]
      cases d.restrictive with
      | true => rfl
      | false =>
          rw [Bool.false_or, if_neg Bool.false_ne_true]
          split
          · rfl
          · cases hage : d.maxAge with
            | none => rw [List.filterMap_cons_none hage, Option.getD_none]
            | some n =>
                rw [List.filterMap_cons_some hage, List.getLast?_cons, Option.getD_some,
                  Option.getD_some]

theorem readDirectives_filter (ret : ℤ) (ts : List (List Char)) :
    readDirectives ret (ts.filter fun t => t ≠ []) = readDirectives ret ts := by
  induction ts generalizing ret with
  | nil => rfl
  | cons t ts ih =>
      cases t with
      | nil => exact ih ret
      | cons c cs =>
          rw [List.filter_cons_of_pos (by simp), readDirectives, readDirectives]
          simp only [ih]

theorem readDirectives_tokens (ret : ℤ) (ds : List Directive) :
    readDirectives ret (tokens (headerOf ds)) = readDirectives ret (ds.map Directive.text) := by
  cases ds with
  | nil => rfl
  | cons d ds =>
      have hcommas : ∀ t ∈ (d :: ds).map Directive.text, ',' ∉ t := by
        intro t ht
        obtain ⟨d', -, rfl⟩ := List.mem_map.1 ht
        exact d'.noComma
      rw [tokens, readDirectives_filter, headerOf,
        List.splitOn_intercalate ',' hcommas (List.cons_ne_nil _ _)]

theorem cacheControlToCacheAge_eq (ds : List Directive) :
    cacheControlToCacheAge (headerOf ds) = ageOf ds := by
  rw [cacheControlToCacheAge, readDirectives_tokens, readDirectives_eq, ageOf]

theorem ageOf_perm (h : ds.Perm ds') (hage : (ds.filterMap Directive.maxAge).length ≤ 1) :
    ageOf ds = ageOf ds' := by
  have hany : ds.any Directive.restrictive = ds'.any Directive.restrictive := h.any_eq
  have hages := h.filterMap Directive.maxAge
  have hsame : ds.filterMap Directive.maxAge = ds'.filterMap Directive.maxAge := by
    cases hds : ds.filterMap Directive.maxAge with
    | nil =>
        rw [hds] at hages
        exact (List.nil_perm.1 hages).symm
    | cons n ns =>
        rw [hds, List.length_cons] at hage
        obtain rfl : ns = [] := List.eq_nil_of_length_eq_zero (by omega)
        rw [hds] at hages
        exact (List.singleton_perm.1 hages)
  rw [ageOf, ageOf, hany, hsame]

theorem exists_headerOf (cacheControl : List Char) :
    ∃ d ds, headerOf (d :: ds) = cacheControl := by
  induction cacheControl with
  | nil => exact ⟨⟨[], List.not_mem_nil⟩, [], rfl⟩
  | cons c cs ih =>
      obtain ⟨d, ds, hcs⟩ := ih
      by_cases hc : ',' = c
      · refine ⟨⟨[], List.not_mem_nil⟩, d :: ds, ?_⟩
        rw [← hcs, ← hc]
        rfl
      · refine ⟨⟨c :: d.text, by simp [hc, d.noComma]⟩, ds, ?_⟩
        rw [← hcs]
        cases ds <;> rfl

/-- A header with a restrictive directive gives no age, another that of its last maximum age, and
with at most one of these the order of the directives does not matter. -/
theorem cacheControl_parsed :
    (∀ cacheControl, ∃ d ds, headerOf (d :: ds) = cacheControl) ∧
    (∀ ds, cacheControlToCacheAge (headerOf ds) = ageOf ds) ∧
    ∀ ds ds', ds.Perm ds' → (ds.filterMap Directive.maxAge).length ≤ 1 →
      cacheControlToCacheAge (headerOf ds) = cacheControlToCacheAge (headerOf ds') := by
  refine ⟨exists_headerOf, cacheControlToCacheAge_eq, fun ds ds' h hage => ?_⟩
  rw [cacheControlToCacheAge_eq, cacheControlToCacheAge_eq, ageOf_perm h hage]

example : cacheControlToCacheAge "Max-Age=60,, private , NO-store".toList = 0 := by decide +kernel

/-! ## Headers -/

/-- The time now, and the time that a date denotes, both in microseconds. -/
structure Clock where
  now : ℤ
  fromGmt : List Char → ℤ

structure Header where
  name : List Char
  value : List Char

structure ExpiryState where
  baseTime : ℤ
  maxAge : ℤ
  currentAge : ℤ

def ageName : List Char := "Age".toList

def cacheControlName : List Char := "Cache-Control".toList

def dateName : List Char := "Date".toList

section Expiry

variable (clock : Clock)

def readHeader (s : ExpiryState) (h : Header) : ExpiryState :=
  if sameText h.name ageName then { s with currentAge := atoi h.value }
  else if sameText h.name cacheControlName then
    { s with maxAge := cacheControlToCacheAge h.value }
  else if sameText h.name dateName then { s with baseTime := clock.fromGmt h.value }
  else s

/-- The headers come in the order of their hash table. What is left of the age is in seconds, and
is added to the time as it is. -/
def responseToExpiryTime (headers : List Header) : ℤ :=
  let s := headers.foldl (readHeader clock) { baseTime := clock.now, maxAge := 5, currentAge := 0 }
  let maxAge := s.maxAge - s.currentAge
  s.baseTime + if maxAge < 0 then 0 else maxAge

/-! ## What is to hold -/

def valuesOf (name : List Char) (headers : List Header) : List (List Char) :=
  (headers.filter fun h => sameText h.name name).map Header.value

/-- The value of a header with the name, or none where there is no such header. -/
def OneOf (name : List Char) (headers : List Header) : Option (List Char) → Prop
  | none => valuesOf name headers = []
  | some v => v ∈ valuesOf name headers

def baseTime (date : Option (List Char)) : ℤ := date.elim clock.now clock.fromGmt

def remaining (cacheControl age : Option (List Char)) : ℤ :=
  max 0 (cacheControl.elim 5 cacheControlToCacheAge - age.elim 0 atoi)

/-- The time of the date and, in microseconds, what is left of the age. -/
def expiryTime (date cacheControl age : Option (List Char)) : ℤ :=
  baseTime clock date + remaining cacheControl age * 10 ^ 6

/-- In any order of the headers the time is that of the headers. -/
def ExpiresRightly (headers : List Header) : Prop :=
  ∃ date cacheControl age, OneOf dateName headers date ∧
    OneOf cacheControlName headers cacheControl ∧ OneOf ageName headers age ∧
    ∀ headers', headers'.Perm headers →
      responseToExpiryTime clock headers' = expiryTime clock date cacheControl age

/-! ## The condition -/

/-- No time is left, whichever headers count, and their dates are of one time. -/
structure NothingLeft (headers : List Header) : Prop where
  remaining_eq : ∀ cacheControl age, OneOf cacheControlName headers cacheControl →
    OneOf ageName headers age → remaining cacheControl age = 0
  one_date : ∀ date date', OneOf dateName headers date → OneOf dateName headers date' →
    baseTime clock date = baseTime clock date'

/-! ## The last header of a name -/

def lastOf (name : List Char) (headers : List Header) : Option (List Char) :=
  (valuesOf name headers).getLast?

variable {clock} {name : List Char} {headers headers' : List Header} {h : Header}

theorem sameText_iff {s t : List Char} : sameText s t = true ↔ lower s = lower t := beq_iff_eq

theorem valuesOf_append : valuesOf name (headers ++ headers') =
    valuesOf name headers ++ valuesOf name headers' := by
  rw [valuesOf, List.filter_append, List.map_append]
  rfl

theorem valuesOf_single_same (hname : sameText h.name name = true) :
    valuesOf name [h] = [h.value] := by
  simp [valuesOf, hname]

theorem valuesOf_single_other (hname : sameText h.name name = false) : valuesOf name [h] = [] := by
  simp [valuesOf, hname]

theorem lastOf_concat : lastOf name (headers ++ [h]) =
    if sameText h.name name then some h.value else lastOf name headers := by
  rw [lastOf, valuesOf_append]
  split
  · rename_i hname
    rw [valuesOf_single_same hname, List.getLast?_concat]
  · rename_i hname
    rw [valuesOf_single_other (Bool.eq_false_iff.2 hname), List.append_nil]
    rfl

theorem oneOf_lastOf (name : List Char) (headers : List Header) :
    OneOf name headers (lastOf name headers) := by
  unfold lastOf
  cases hlast : (valuesOf name headers).getLast? with
  | none => exact List.getLast?_eq_none_iff.1 hlast
  | some v => exact List.mem_of_getLast? hlast

theorem oneOf_perm {v : Option (List Char)} (hperm : headers'.Perm headers)
    (hv : OneOf name headers' v) : OneOf name headers v := by
  have hvalues : (valuesOf name headers').Perm (valuesOf name headers) :=
    (hperm.filter _).map _
  cases v with
  | none =>
      have hv : valuesOf name headers' = [] := hv
      rw [hv] at hvalues
      exact List.nil_perm.1 hvalues
  | some v => exact hvalues.subset hv

/-- A header is moved to the end, past those with other names. -/
theorem exists_last {v : Option (List Char)} (hv : OneOf name headers v) :
    ∃ headers', headers'.Perm headers ∧ lastOf name headers' = v ∧
      ∀ other, lower other ≠ lower name → valuesOf other headers' = valuesOf other headers := by
  cases v with
  | none =>
      have hv : valuesOf name headers = [] := hv
      exact ⟨headers, .refl _, by rw [lastOf, hv]; rfl, fun _ _ => rfl⟩
  | some v =>
      obtain ⟨h, hmem, rfl⟩ := List.mem_map.1 hv
      obtain ⟨hmem, hname⟩ := List.mem_filter.1 hmem
      obtain ⟨front, back, rfl⟩ := List.append_of_mem hmem
      refine ⟨front ++ back ++ [h], ?_, ?_, fun other hother => ?_⟩
      · rw [List.append_assoc]
        exact (List.perm_append_singleton h back).append_left front
      · rw [lastOf_concat, if_pos hname]
      · have hne : sameText h.name other = false := by
          refine Bool.eq_false_iff.2 fun heq => hother ?_
          rw [← sameText_iff.1 heq, sameText_iff.1 hname]
        have hcons : h :: back = [h] ++ back := rfl
        rw [hcons, valuesOf_append, valuesOf_append, valuesOf_append, valuesOf_append,
          valuesOf_single_other hne, List.append_nil, List.nil_append]

theorem sameText_other {s : List Char} (other : List Char) (hs : sameText s name = true)
    (hne : lower other ≠ lower name) : sameText s other = false := by
  refine Bool.eq_false_iff.2 fun heq => hne ?_
  rw [← sameText_iff.1 heq, sameText_iff.1 hs]

/-- The last header of each name counts. -/
theorem foldl_readHeader (s : ExpiryState) (headers : List Header) :
    headers.foldl (readHeader clock) s =
      { baseTime := (lastOf dateName headers).elim s.baseTime clock.fromGmt
        maxAge := (lastOf cacheControlName headers).elim s.maxAge cacheControlToCacheAge
        currentAge := (lastOf ageName headers).elim s.currentAge atoi } := by
  induction headers using List.reverseRecOn with
  | nil => rfl
  | append_singleton headers h ih =>
      rw [List.foldl_append, List.foldl_cons, List.foldl_nil, ih, readHeader, lastOf_concat,
        lastOf_concat, lastOf_concat]
      by_cases hage : sameText h.name ageName = true
      · have hcontrol := sameText_other cacheControlName hage (by decide)
        have hdate := sameText_other dateName hage (by decide)
        simp [hage, hcontrol, hdate]
      · by_cases hcontrol : sameText h.name cacheControlName = true
        · have hdate := sameText_other dateName hcontrol (by decide)
          simp [hage, hcontrol, hdate]
        · by_cases hdate : sameText h.name dateName = true
          · simp [hage, hcontrol, hdate]
          · simp [hage, hcontrol, hdate]

theorem responseToExpiryTime_eq (headers : List Header) : responseToExpiryTime clock headers =
    baseTime clock (lastOf dateName headers) +
      remaining (lastOf cacheControlName headers) (lastOf ageName headers) := by
  rw [responseToExpiryTime, foldl_readHeader, remaining, baseTime]
  dsimp only
  congr 1
  split <;> omega

/-! ## The expiry time -/

/-- Whichever headers of each name there are, they are the last in some order. -/
theorem exists_order {date cacheControl age : Option (List Char)}
    (hdate : OneOf dateName headers date) (hcontrol : OneOf cacheControlName headers cacheControl)
    (hage : OneOf ageName headers age) : ∃ headers', headers'.Perm headers ∧
      responseToExpiryTime clock headers' = baseTime clock date + remaining cacheControl age := by
  obtain ⟨headers₁, hperm₁, hlast₁, -⟩ := exists_last hdate
  obtain ⟨headers₂, hperm₂, hlast₂, hkeep₂⟩ := exists_last (oneOf_perm hperm₁.symm hcontrol)
  have hperm₂₁ := hperm₂.trans hperm₁
  obtain ⟨headers₃, hperm₃, hlast₃, hkeep₃⟩ := exists_last (oneOf_perm hperm₂₁.symm hage)
  have hdate₃ : lastOf dateName headers₃ = date := by
    rw [← hlast₁, lastOf, hkeep₃ dateName (by decide), hkeep₂ dateName (by decide), lastOf]
  have hcontrol₃ : lastOf cacheControlName headers₃ = cacheControl := by
    rw [← hlast₂, lastOf, hkeep₃ cacheControlName (by decide), lastOf]
  refine ⟨headers₃, hperm₃.trans hperm₂₁, ?_⟩
  rw [responseToExpiryTime_eq, hdate₃, hcontrol₃, hlast₃]

/-- The time is right exactly when nothing is left, so that the unit does not matter. -/
theorem expiresRightly_iff (clock : Clock) (headers : List Header) :
    ExpiresRightly clock headers ↔ NothingLeft clock headers := by
  constructor
  · rintro ⟨date, cacheControl, age, hdate, hcontrol, hage, hright⟩
    have hany : ∀ date' cacheControl' age', OneOf dateName headers date' →
        OneOf cacheControlName headers cacheControl' → OneOf ageName headers age' →
        baseTime clock date' + remaining cacheControl' age' =
          baseTime clock date + remaining cacheControl age * 10 ^ 6 := by
      intro date' cacheControl' age' hdate' hcontrol' hage'
      obtain ⟨headers', hperm, heq⟩ := @exists_order clock _ _ _ _ hdate' hcontrol' hage'
      rw [← heq]
      exact hright headers' hperm
    have hself := hany _ _ _ hdate hcontrol hage
    constructor
    · intro cacheControl' age' hcontrol' hage'
      have hother := hany _ _ _ hdate hcontrol' hage'
      omega
    · intro date₁ date₂ hdate₁ hdate₂
      have hfirst := hany _ _ _ hdate₁ hcontrol hage
      have hsecond := hany _ _ _ hdate₂ hcontrol hage
      omega
  · intro h
    refine ⟨_, _, _, oneOf_lastOf _ _, oneOf_lastOf _ _, oneOf_lastOf _ _,
      fun headers' hperm => ?_⟩
    have hleft' := h.remaining_eq _ _ (oneOf_perm hperm (oneOf_lastOf cacheControlName headers'))
      (oneOf_perm hperm (oneOf_lastOf ageName headers'))
    have hleft := h.remaining_eq _ _ (oneOf_lastOf cacheControlName headers)
      (oneOf_lastOf ageName headers)
    rw [responseToExpiryTime_eq, expiryTime, hleft, hleft',
      h.one_date _ _ (oneOf_perm hperm (oneOf_lastOf dateName headers')) (oneOf_lastOf _ headers)]
    omega

/-- Without any header five microseconds are left, and not five seconds. -/
theorem five_microseconds : ¬ ∀ clock headers, ExpiresRightly clock headers := by
  intro h
  obtain ⟨date, cacheControl, age, hdate, hcontrol, hage, hright⟩ := h ⟨0, fun _ => 0⟩ []
  obtain rfl : date = none := Option.eq_none_iff_forall_not_mem.2 fun v hv => by
    rw [hv] at hdate
    cases hdate
  obtain rfl : cacheControl = none := Option.eq_none_iff_forall_not_mem.2 fun v hv => by
    rw [hv] at hcontrol
    cases hcontrol
  obtain rfl : age = none := Option.eq_none_iff_forall_not_mem.2 fun v hv => by
    rw [hv] at hage
    cases hage
  have htime := hright [] (.refl _)
  revert htime
  decide +kernel

end Expiry

end ServiceConsumers.CacheAges
