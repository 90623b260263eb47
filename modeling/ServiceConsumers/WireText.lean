import Mathlib.Data.Nat.Digits.Defs

set_option autoImplicit false

/-!
# Textual encodings of identifiers and bit rates (`utils.c`)
-/

namespace ServiceConsumers.WireText

/-- `"%0*u"`. -/
def padDecimal (width n : ℕ) : String :=
  let digits := Nat.toDigits 10 n
  String.ofList (List.replicate (width - digits.length) '0' ++ digits)

theorem length_padDecimal {n v : ℕ} (hn : 0 < n) (hv : v < 10 ^ n) :
    (padDecimal n v).toList.length = n := by
  have hle := (Nat.length_toDigits_le_iff (b := 10) (by decide) hn).2 hv
  simp only [padDecimal, String.toList_ofList, List.length_append, List.length_replicate]
  omega

/-- `"%.*llX"`. A zero has no digits but those that fill it up. -/
def toHexString (v minDigits : ℕ) : String :=
  let digits := if v = 0 then [] else (Nat.toDigits 16 v).map Char.toUpper
  String.ofList (List.replicate (minDigits - digits.length) '0' ++ digits)

def uint32ToHexStr (v minDigits maxDigits : ℕ) : String :=
  toHexString (v % 2 ^ min 32 (4 * maxDigits)) minDigits

def uint64ToHexStr (v minDigits maxDigits : ℕ) : String :=
  toHexString (v % 2 ^ min 64 (4 * maxDigits)) minDigits

/-- Division rounded to the nearest integer, ties to even. -/
def roundedDiv (a b : ℕ) : ℕ :=
  if 2 * (a % b) < b then a / b
  else if b < 2 * (a % b) then a / b + 1
  else if a / b % 2 = 0 then a / b else a / b + 1

/-- The unit of a bit rate and the power of ten it stands for. -/
def bitrateUnit (bitrate : ℕ) : ℕ × String :=
  if bitrate ≥ 10 ^ 12 then (12, "Tbps")
  else if bitrate ≥ 10 ^ 9 then (9, "Gbps")
  else if bitrate ≥ 10 ^ 6 then (6, "Mbps")
  else if bitrate ≥ 10 ^ 3 then (3, "Kbps")
  else (0, "bps")

/-- An integer as a `double`, which keeps 53 significant bits. -/
def asDouble (n : ℕ) : ℕ := roundedDiv n (2 ^ (Nat.log2 n - 52)) * 2 ^ (Nat.log2 n - 52)

/-- `"%.6f %s"` of the bit rate in its unit; the division is done exactly here. -/
def bitrateText (bitrate : ℕ) : String :=
  let millionths := roundedDiv (bitrate * 10 ^ 6) (10 ^ (bitrateUnit bitrate).1)
  toString (millionths / 10 ^ 6) ++ "." ++ padDecimal 6 (millionths % 10 ^ 6) ++ " " ++
    (bitrateUnit bitrate).2

/-- The bit rate is passed as a `double`. -/
def bitrateToStr (bitrate : ℕ) : String := bitrateText (asDouble bitrate)

example : bitrateToStr 1500000 = "1.500000 Mbps" := by decide
example : uint32ToHexStr 0xABC 4 6 = "0ABC" := by decide

end ServiceConsumers.WireText
