import ServiceConsumers.NumberTexts
import ServiceConsumers.ServiceAreas

set_option autoImplicit false

/-!
# Hexadecimal texts (`utils.c`) and the TAC of a TAI

A number is masked to the most digits and filled up to the fewest. Between the two, a text has
as many digits as its number happens to need.
-/

namespace ServiceConsumers.HexTexts

open JsonDocuments WireText NumberTexts ServiceAreas

/-! ## What is to hold -/

def upperHexDigits : List Char := "0123456789ABCDEF".toList

/-- A text of at least and at most so many upper-case digits that reads as the number, as far
as its most digits hold it. -/
structure HexTextOf (v minDigits maxDigits : ℕ) (text : String) : Prop where
  min_le : minDigits ≤ text.length
  le_max : text.length ≤ maxDigits
  digits : ∀ c ∈ text.toList, c ∈ upperHexDigits
  reads : readDigits 16 0 text.toList = (v % 16 ^ maxDigits, [])

/-- A TAC is a bit field of 24 bits. -/
def TacInRange (t : Tai) : Prop := t.tac < 2 ^ 24

/-- The TAC that a TAI is sent with. -/
def sentTac (t : Tai) : String := uint32ToHexStr t.tac 4 6

theorem taiToJson_tac (t : Tai) : ∃ ms, taiToJson t = .obj ms ∧
    Members.lookup "tac" ms = some (.str (sentTac t)) := by
  refine ⟨_, rfl, ?_⟩
  cases t.nid <;> rfl

/-- The TAC has four digits or six, and is that of no other TAI with another TAC. -/
def TacRight (t : Tai) : Prop :=
  ((sentTac t).length = 4 ∨ (sentTac t).length = 6) ∧
    ∀ u, TacInRange u → sentTac u = sentTac t → u.tac = t.tac

/-! ## Digits -/

variable {v k minDigits maxDigits : ℕ}

def hexDigits (v : ℕ) : List Char := if v = 0 then [] else (Nat.toDigits 16 v).map Char.toUpper

theorem toHexString_toList (v minDigits : ℕ) : (toHexString v minDigits).toList =
    List.replicate (minDigits - (hexDigits v).length) '0' ++ hexDigits v :=
  String.toList_ofList

theorem length_hexDigits_le : (hexDigits v).length ≤ k ↔ v < 16 ^ k := by
  unfold hexDigits
  split
  · rename_i hv
    simp [hv]
  · rename_i hv
    rw [List.length_map]
    cases k with
    | zero => simp [hv]
    | succ k => exact Nat.length_toDigits_le_iff (by decide) (Nat.succ_pos k)

theorem length_toHexString (v minDigits : ℕ) :
    (toHexString v minDigits).length = max minDigits (hexDigits v).length := by
  rw [← String.length_toList, toHexString_toList, List.length_append, List.length_replicate]
  omega

theorem mem_hexDigits {c : Char} (hc : c ∈ hexDigits v) : c ∈ upperHexDigits := by
  have hupper : ∀ d < 16, (Nat.digitChar d).toUpper ∈ upperHexDigits := by decide +kernel
  unfold hexDigits at hc
  split at hc
  · cases hc
  · obtain ⟨c', hc', rfl⟩ := List.mem_map.1 hc
    obtain ⟨d, hd, rfl⟩ := mem_toDigits (by decide) hc'
    exact hupper d hd

theorem mem_toHexString {c : Char} (hc : c ∈ (toHexString v minDigits).toList) :
    c ∈ upperHexDigits := by
  rw [toHexString_toList, List.mem_append] at hc
  rcases hc with hc | hc
  · rw [List.eq_of_mem_replicate hc]
    decide
  · exact mem_hexDigits hc

theorem readDigits_toHexString (v minDigits : ℕ) :
    readDigits 16 0 (toHexString v minDigits).toList = (v, []) := by
  have hupper : ∀ d < 16, digitValue (Nat.digitChar d).toUpper = some d := by decide +kernel
  rw [toHexString_toList, readDigits_zeros (by decide)]
  unfold hexDigits
  split
  · rename_i hv
    rw [hv]
    rfl
  · exact readDigits_map_toDigits (by decide) hupper v

/-! ## The encoders -/

theorem hexTextOf_toHexString (h : minDigits ≤ maxDigits) :
    HexTextOf v minDigits maxDigits (toHexString (v % 16 ^ maxDigits) minDigits) where
  min_le := by
    rw [length_toHexString]
    exact le_max_left _ _
  le_max := by
    have hlt : v % 16 ^ maxDigits < 16 ^ maxDigits := Nat.mod_lt v (Nat.pow_pos (by decide))
    rw [length_toHexString]
    exact max_le h (length_hexDigits_le.2 hlt)
  digits _ := mem_toHexString
  reads := readDigits_toHexString _ _

/-- The mask has no more bits than the type, and loses none of its own. -/
theorem mod_mask {w : ℕ} (hv : v < 2 ^ w) (maxDigits : ℕ) :
    v % 2 ^ min w (4 * maxDigits) = v % 16 ^ maxDigits := by
  have hpow : 16 ^ maxDigits = 2 ^ (4 * maxDigits) := by rw [Nat.pow_mul]
  rw [hpow]
  rcases le_total w (4 * maxDigits) with hle | hle
  · have hlt : v < 2 ^ (4 * maxDigits) := Nat.lt_of_lt_of_le hv (Nat.pow_le_pow_right two_pos hle)
    rw [min_eq_left hle, Nat.mod_eq_of_lt hv, Nat.mod_eq_of_lt hlt]
  · rw [min_eq_right hle]

theorem uint32ToHexStr_eq (hv : v < 2 ^ 32) (minDigits maxDigits : ℕ) :
    uint32ToHexStr v minDigits maxDigits = toHexString (v % 16 ^ maxDigits) minDigits := by
  rw [uint32ToHexStr, mod_mask hv]

theorem uint64ToHexStr_eq (hv : v < 2 ^ 64) (minDigits maxDigits : ℕ) :
    uint64ToHexStr v minDigits maxDigits = toHexString (v % 16 ^ maxDigits) minDigits := by
  rw [uint64ToHexStr, mod_mask hv]

/-! ## TACs -/

variable {t : Tai}

theorem sentTac_eq (ht : TacInRange t) : sentTac t = toHexString t.tac 4 := by
  have hlt : t.tac < 16 ^ 6 := ht
  have hword : t.tac < 2 ^ 32 := Nat.lt_trans ht (by decide)
  rw [sentTac, uint32ToHexStr_eq hword, Nat.mod_eq_of_lt hlt]

theorem tac_of_sentTac {u : Tai} (ht : TacInRange t) (hu : TacInRange u)
    (h : sentTac u = sentTac t) : u.tac = t.tac := by
  rw [sentTac_eq ht, sentTac_eq hu] at h
  have hread := readDigits_toHexString u.tac 4
  rw [h, readDigits_toHexString] at hread
  exact (congrArg Prod.fst hread).symm

/-- Four digits do not grow to six at once. -/
theorem length_sentTac (ht : TacInRange t) : ((sentTac t).length = 4 ∨ (sentTac t).length = 6) ↔
    (t.tac < 16 ^ 4 ∨ 16 ^ 5 ≤ t.tac) := by
  have hfour := @length_hexDigits_le t.tac 4
  have hfive := @length_hexDigits_le t.tac 5
  have hsix := (@length_hexDigits_le t.tac 6).2 ht
  rw [sentTac_eq ht, length_toHexString]
  omega

theorem tacRight_iff (ht : TacInRange t) : TacRight t ↔ (t.tac < 16 ^ 4 ∨ 16 ^ 5 ≤ t.tac) := by
  rw [← length_sentTac ht]
  exact and_iff_left fun u hu h => tac_of_sentTac ht hu h

/-- The encoders are right within their bounds. The TAC of a TAI is so unless it needs five
digits. -/
theorem hex_texts_iff (t : Tai) :
    (∀ v minDigits maxDigits, v < 2 ^ 32 → minDigits ≤ maxDigits → maxDigits ≤ 15 →
      HexTextOf v minDigits maxDigits (uint32ToHexStr v minDigits maxDigits)) ∧
    (∀ v minDigits maxDigits, v < 2 ^ 64 → minDigits ≤ maxDigits → maxDigits ≤ 15 →
      HexTextOf v minDigits maxDigits (uint64ToHexStr v minDigits maxDigits)) ∧
    (TacInRange t → (TacRight t ↔ (t.tac < 16 ^ 4 ∨ 16 ^ 5 ≤ t.tac))) := by
  refine ⟨fun v minDigits maxDigits hv hmin _ => ?_, fun v minDigits maxDigits hv hmin _ => ?_,
    fun ht => tacRight_iff ht⟩
  · rw [uint32ToHexStr_eq hv]
    exact hexTextOf_toHexString hmin
  · rw [uint64ToHexStr_eq hv]
    exact hexTextOf_toHexString hmin

theorem hex_texts_in_range : HexTextOf 0x1A 4 6 (uint32ToHexStr 0x1A 4 6) ∧
    HexTextOf 0x1A 4 6 (uint64ToHexStr 0x1A 4 6) ∧ TacRight { tac := 0xABCDEF } := by
  have hrange : TacInRange { tac := 0xABCDEF } := by
    unfold TacInRange
    decide
  obtain ⟨htext, htext', htac⟩ := hex_texts_iff { tac := 0xABCDEF }
  exact ⟨htext 0x1A 4 6 (by decide) (by decide) (by decide),
    htext' 0x1A 4 6 (by decide) (by decide) (by decide), (htac hrange).2 (.inr (by decide))⟩

/-- A TAC that needs five digits is sent with five. -/
theorem five_digits_sent : ¬ ∀ t, TacInRange t → TacRight t := by
  intro h
  have hrange : TacInRange { tac := 0x12345 } := by
    unfold TacInRange
    decide
  have hlength := (h { tac := 0x12345 } hrange).1
  revert hlength
  decide +kernel

end ServiceConsumers.HexTexts
