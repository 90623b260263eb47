import Mathlib.Data.Nat.Digits.Defs

set_option autoImplicit false

/-!
# Numbers in texts (`strtoull` and `"%p"`)
-/

namespace ServiceConsumers.NumberTexts

/-- The value of a digit or a letter. -/
def digitValue (c : Char) : Option ℕ :=
  if '0' ≤ c ∧ c ≤ '9' then some (c.toNat - '0'.toNat)
  else if 'a' ≤ c ∧ c ≤ 'z' then some (c.toNat - 'a'.toNat + 10)
  else if 'A' ≤ c ∧ c ≤ 'Z' then some (c.toNat - 'A'.toNat + 10)
  else none

def isDigitOf (base : ℕ) (c : Char) : Bool := (digitValue c).any fun d => d < base

/-- `isspace`. -/
def isSpace (c : Char) : Bool := c = ' ' ∨ '\t' ≤ c ∧ c ≤ '\r'

/-- The number that digits continue, and what follows them. -/
def readDigits (base : ℕ) : ℕ → List Char → ℕ × List Char
  | n, [] => (n, [])
  | n, c :: cs =>
      match digitValue c with
      | none => (n, c :: cs)
      | some d => if d < base then readDigits base (base * n + d) cs else (n, c :: cs)

/-- The sign, and what follows it. -/
def readSign : List Char → Bool × List Char
  | '-' :: cs => (true, cs)
  | '+' :: cs => (false, cs)
  | cs => (false, cs)

/-- The base that a prefix stands for, and what follows the prefix. -/
def readBase : List Char → ℕ × List Char
  | '0' :: x :: d :: cs =>
      if (x = 'x' ∨ x = 'X') ∧ isDigitOf 16 d then (16, d :: cs) else (8, '0' :: x :: d :: cs)
  | '0' :: cs => (8, '0' :: cs)
  | cs => (10, cs)

/-- `strtoull` with base 0: the number, and the text at `endptr`. A number out of range is the
largest one, and a text that starts with no number is left as it is. -/
def strtoull (s : List Char) : ℕ × List Char :=
  let (negative, body) := readSign (s.dropWhile isSpace)
  let (base, digits) := readBase body
  match digits with
  | [] => (0, s)
  | d :: _ =>
      if isDigitOf base d then
        let (n, rest) := readDigits base 0 digits
        (if 2 ^ 64 ≤ n then 2 ^ 64 - 1 else if negative then (2 ^ 64 - n) % 2 ^ 64 else n, rest)
      else (0, s)

/-- `"%p"`. -/
def formatPointer (p : ℕ) : String :=
  if p = 0 then "(nil)" else String.ofList ('0' :: 'x' :: Nat.toDigits 16 p)

theorem digitValue_digitChar {d : ℕ} (h : d < 16) : digitValue d.digitChar = some d := by
  have hall : ∀ d < 16, digitValue (Nat.digitChar d) = some d := by decide +kernel
  exact hall d h

theorem readDigits_append {base n : ℕ} {cs : List Char} {m : ℕ}
    (h : readDigits base n cs = (m, [])) (ds : List Char) :
    readDigits base n (cs ++ ds) = readDigits base m ds := by
  induction cs generalizing n with
  | nil =>
      obtain rfl := (Prod.mk.inj h).1
      rfl
  | cons c cs ih =>
      rw [readDigits] at h
      rw [List.cons_append, readDigits]
      split at h
      · cases h
      · split at h
        · rename_i d hd hlt
          rw [if_pos hlt]
          exact ih h
        · cases h

/-- Leading zeros are read as nothing. -/
theorem readDigits_zeros {base : ℕ} (hbase : 0 < base) (k : ℕ) (cs : List Char) :
    readDigits base 0 (List.replicate k '0' ++ cs) = readDigits base 0 cs := by
  have hzero : digitValue '0' = some 0 := by decide
  induction k with
  | zero => rfl
  | succ k ih =>
      rw [List.replicate_succ, List.cons_append, readDigits, hzero]
      simp only [hbase, if_true, Nat.mul_zero, Nat.add_zero]
      exact ih

/-- The digits of a number are read back, in whatever form they are written. -/
theorem readDigits_map_toDigits {base : ℕ} {f : Char → Char} (hbase : 1 < base)
    (hf : ∀ d < base, digitValue (f (Nat.digitChar d)) = some d) (n : ℕ) :
    readDigits base 0 ((Nat.toDigits base n).map f) = (n, []) := by
  induction n using Nat.strong_induction_on with
  | _ n ih =>
      by_cases hn : n < base
      · rw [Nat.toDigits_of_lt_base hn, List.map_singleton, readDigits, hf n hn]
        simp [hn, readDigits]
      · have hdigit : n % base < base := Nat.mod_lt n (Nat.zero_lt_of_lt hbase)
        have hpos : 0 < n := Nat.lt_of_lt_of_le (Nat.zero_lt_of_lt hbase) (Nat.not_lt.1 hn)
        have hfirst := ih (n / base) (Nat.div_lt_self hpos hbase)
        rw [Nat.toDigits_of_base_le hbase (Nat.not_lt.1 hn), List.map_append,
          readDigits_append hfirst, List.map_singleton, readDigits, hf _ hdigit]
        simp [hdigit, readDigits, Nat.div_add_mod]

theorem readDigits_toDigits (n : ℕ) : readDigits 16 0 (Nat.toDigits 16 n) = (n, []) := by
  have h := readDigits_map_toDigits (f := id) (by decide) (fun d => digitValue_digitChar) n
  rwa [List.map_id] at h

theorem mem_toDigits {base n : ℕ} {c : Char} (hbase : 1 < base) (hc : c ∈ Nat.toDigits base n) :
    ∃ d < base, c = Nat.digitChar d := by
  induction n using Nat.strong_induction_on with
  | _ n ih =>
      by_cases hn : n < base
      · rw [Nat.toDigits_of_lt_base hn, List.mem_singleton] at hc
        exact ⟨n, hn, hc⟩
      · have hpos : 0 < n := Nat.lt_of_lt_of_le (Nat.zero_lt_of_lt hbase) (Nat.not_lt.1 hn)
        rw [Nat.toDigits_of_base_le hbase (Nat.not_lt.1 hn), List.mem_append,
          List.mem_singleton] at hc
        rcases hc with hc | hc
        · exact ih (n / base) (Nat.div_lt_self hpos hbase) hc
        · exact ⟨n % base, Nat.mod_lt n (Nat.zero_lt_of_lt hbase), hc⟩

theorem isDigitOf_toDigits {n : ℕ} {d : Char} (hd : d ∈ Nat.toDigits 16 n) :
    isDigitOf 16 d = true := by
  have hsmall : ∀ m < 16, isDigitOf 16 (Nat.digitChar m) = true := by decide +kernel
  obtain ⟨m, hm, rfl⟩ := mem_toDigits (by decide) hd
  exact hsmall m hm

/-- A pointer that was printed is read back. -/
theorem strtoull_formatPointer {p : ℕ} (hp : p ≠ 0) (hlt : p < 2 ^ 64) :
    strtoull (formatPointer p).toList = (p, []) := by
  obtain ⟨d, ds, hdigits⟩ := List.exists_cons_of_ne_nil (Nat.toDigits_ne_nil (n := p) (b := 16))
  have hd : isDigitOf 16 d = true := isDigitOf_toDigits (hdigits ▸ List.mem_cons_self)
  have hread := readDigits_toDigits p
  have hdrop : ('0' :: 'x' :: d :: ds).dropWhile isSpace = '0' :: 'x' :: d :: ds := rfl
  have hsign : readSign ('0' :: 'x' :: d :: ds) = (false, '0' :: 'x' :: d :: ds) := rfl
  have hbase : readBase ('0' :: 'x' :: d :: ds) = (16, d :: ds) := if_pos ⟨.inl rfl, hd⟩
  rw [formatPointer, if_neg hp, String.toList_ofList]
  rw [hdigits] at hread ⊢
  simp only [strtoull, hdrop, hsign, hbase, hd, if_true, hread, Nat.not_le.2 hlt, if_false,
    Bool.false_eq_true]

end ServiceConsumers.NumberTexts
