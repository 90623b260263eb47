import Mathlib.Data.Rat.Defs
import Mathlib.Tactic.FieldSimp
import Mathlib.Tactic.Linarith
import Mathlib.Tactic.Ring
import ServiceConsumers.NumberTexts
import ServiceConsumers.WireText

set_option autoImplicit false

/-!
# What the text of a bit rate denotes

A bit rate is sent as a number of its unit with six decimals. The unit is chosen by magnitude,
so that below a thousandth of a gigabit nothing is lost, and above it what is less than a
millionth of the unit.
-/

namespace ServiceConsumers.BitrateTexts

open WireText NumberTexts

/-! ## Reading a bit rate -/

def unitFactor : List Char → Option ℕ
  | ['b', 'p', 's'] => some 1
  | ['K', 'b', 'p', 's'] => some (10 ^ 3)
  | ['M', 'b', 'p', 's'] => some (10 ^ 6)
  | ['G', 'b', 'p', 's'] => some (10 ^ 9)
  | ['T', 'b', 'p', 's'] => some (10 ^ 12)
  | _ => none

/-- A number with or without decimals, a space and a unit. -/
def readBitrate (text : List Char) : Option ℚ :=
  let (whole, rest) := readDigits 10 0 text
  match rest with
  | ' ' :: unit => (unitFactor unit).map fun f : ℕ => (whole : ℚ) * (f : ℚ)
  | '.' :: decimals =>
      let (frac, rest') := readDigits 10 0 decimals
      let places := decimals.length - rest'.length
      match rest' with
      | ' ' :: unit =>
          (unitFactor unit).map fun f : ℕ =>
            ((whole : ℚ) + (frac : ℚ) / 10 ^ places) * (f : ℚ)
      | _ => none
  | _ => none

/-- The bits per second that a text denotes. -/
def bitrateOf (text : String) : Option ℚ := readBitrate text.toList

/-! ## Rounding -/

variable {a b q n : ℕ}

theorem roundedDiv_near (hb : 0 < b) :
    2 * a ≤ 2 * (roundedDiv a b * b) + b ∧ 2 * (roundedDiv a b * b) ≤ 2 * a + b := by
  have hmod := Nat.mod_add_div a b
  have hlt := Nat.mod_lt a hb
  rw [Nat.mul_comm b] at hmod
  unfold roundedDiv
  split_ifs with h1 h2 h3
  · omega
  · rw [Nat.add_mul, Nat.one_mul]
    omega
  · omega
  · rw [Nat.add_mul, Nat.one_mul]
    omega

/-- What is nearer than half is what is rounded to. -/
theorem roundedDiv_eq (hb : 0 < b) (hlow : 2 * (q * b) < 2 * a + b)
    (hhigh : 2 * a < 2 * (q * b) + b) : roundedDiv a b = q := by
  obtain ⟨hle, hge⟩ := @roundedDiv_near a b hb
  rcases Nat.lt_trichotomy (roundedDiv a b) q with hlt | heq | hgt
  · have hmul := Nat.mul_le_mul_right b (Nat.succ_le_of_lt hlt)
    rw [Nat.succ_mul] at hmul
    omega
  · exact heq
  · have hmul := Nat.mul_le_mul_right b (Nat.succ_le_of_lt hgt)
    rw [Nat.succ_mul] at hmul
    omega

theorem roundedDiv_mul (hb : 0 < b) (q : ℕ) : roundedDiv (q * b) b = q :=
  roundedDiv_eq hb (by omega) (by omega)

theorem roundedDiv_scale {c : ℕ} (hc : 0 < c) : roundedDiv (a * c) (b * c) = roundedDiv a b := by
  unfold roundedDiv
  rw [Nat.mul_mod_mul_right, Nat.mul_div_mul_right _ _ hc, ← Nat.mul_assoc]
  simp only [Nat.mul_lt_mul_right hc]

theorem asDouble_of_lt (hn : n < 2 ^ 53) : asDouble n = n := by
  have hlog : Nat.log2 n - 52 = 0 := by
    by_cases h0 : n = 0
    · rw [h0]
      rfl
    · have := (Nat.log2_lt h0).2 hn
      omega
  rw [asDouble, hlog, Nat.pow_zero, Nat.mul_one]
  have h := roundedDiv_mul Nat.one_pos n
  rwa [Nat.mul_one] at h

/-- A 64-bit number is off by at most half of the eleven bits that are lost. -/
theorem asDouble_near (hn : n < 2 ^ 64) : n ≤ asDouble n + 1024 ∧ asDouble n ≤ n + 1024 := by
  have hlog : Nat.log2 n - 52 ≤ 11 := by
    by_cases h0 : n = 0
    · rw [h0]
      decide
    · have := (Nat.log2_lt h0).2 hn
      omega
  have hpow : 2 ^ (Nat.log2 n - 52) ≤ 2 ^ 11 := Nat.pow_le_pow_right two_pos hlog
  obtain ⟨hle, hge⟩ := @roundedDiv_near n (2 ^ (Nat.log2 n - 52)) (Nat.pow_pos two_pos)
  rw [asDouble]
  omega

/-- What is near a multiple is rounded to that multiple. -/
theorem roundedDiv_mul_eq_iff {c d r : ℕ} (hc : 0 < c) (hlow : 2 * r < 2 * d + c)
    (hhigh : 2 * d < 2 * r + c) : roundedDiv d c * c = r ↔ c ∣ r := by
  constructor
  · exact fun h => ⟨roundedDiv d c, by rw [← h, Nat.mul_comm]⟩
  · rintro ⟨q, rfl⟩
    rw [Nat.mul_comm c q] at hlow hhigh ⊢
    rw [roundedDiv_eq hc hlow hhigh]

/-! ## Writing and reading back -/

/-- The millionths of its unit that a bit rate is sent as. -/
def millionthsOf (bitrate : ℕ) : ℕ :=
  roundedDiv (bitrate * 10 ^ 6) (10 ^ (bitrateUnit bitrate).1)

theorem unitFactor_bitrateUnit (bitrate : ℕ) :
    unitFactor (bitrateUnit bitrate).2.toList = some (10 ^ (bitrateUnit bitrate).1) := by
  unfold bitrateUnit
  split_ifs <;> rfl

theorem readDigits_ten (n : ℕ) : readDigits 10 0 (Nat.toDigits 10 n) = (n, []) := by
  have hdigit : ∀ d < 10, digitValue (id (Nat.digitChar d)) = some d :=
    fun d hd => digitValue_digitChar (Nat.lt_trans hd (by decide))
  have h := readDigits_map_toDigits (by decide) hdigit n
  rwa [List.map_id] at h

theorem padDecimal_toList (width n : ℕ) : (padDecimal width n).toList =
    List.replicate (width - (Nat.toDigits 10 n).length) '0' ++ Nat.toDigits 10 n :=
  String.toList_ofList

theorem readDigits_padDecimal (n : ℕ) : readDigits 10 0 (padDecimal 6 n).toList = (n, []) := by
  rw [padDecimal_toList, readDigits_zeros (by decide), readDigits_ten]

theorem bitrateText_toList (bitrate : ℕ) : (bitrateText bitrate).toList =
    Nat.toDigits 10 (millionthsOf bitrate / 10 ^ 6) ++
      '.' :: ((padDecimal 6 (millionthsOf bitrate % 10 ^ 6)).toList ++
        ' ' :: (bitrateUnit bitrate).2.toList) := by
  simp only [bitrateText, String.toList_append, Nat.toString_eq_ofList_toDigits,
    String.toList_ofList, List.append_assoc]
  rfl

/-- A number with six decimals is read as it is written. -/
theorem readBitrate_decimals {whole frac factor : ℕ} {decimals unit : List Char}
    (hdecimals : readDigits 10 0 decimals = (frac, [])) (hlength : decimals.length = 6)
    (hunit : unitFactor unit = some factor) :
    readBitrate (Nat.toDigits 10 whole ++ '.' :: (decimals ++ ' ' :: unit)) =
      some (((whole : ℚ) + (frac : ℚ) / 10 ^ 6) * factor) := by
  have hwhole : readDigits 10 whole ('.' :: (decimals ++ ' ' :: unit)) =
      (whole, '.' :: (decimals ++ ' ' :: unit)) := rfl
  have hfrac : readDigits 10 frac (' ' :: unit) = (frac, ' ' :: unit) := rfl
  rw [readBitrate, readDigits_append (readDigits_ten _), hwhole]
  simp only [readDigits_append hdecimals, hfrac, List.length_append, Nat.add_sub_cancel, hlength,
    hunit, Option.map_some]

/-- A bit rate is read as the millionths of its unit that were written. -/
theorem bitrateOf_bitrateText (bitrate : ℕ) : bitrateOf (bitrateText bitrate) =
    some ((millionthsOf bitrate : ℚ) / 10 ^ 6 * 10 ^ (bitrateUnit bitrate).1) := by
  have hlt : millionthsOf bitrate % 10 ^ 6 < 10 ^ 6 := Nat.mod_lt _ (by decide)
  rw [bitrateOf, bitrateText_toList, readBitrate_decimals (readDigits_padDecimal _)
    (length_padDecimal (by decide) hlt) (unitFactor_bitrateUnit bitrate), Option.some.injEq]
  have hmillionths := Nat.div_add_mod (millionthsOf bitrate) (10 ^ 6)
  generalize millionthsOf bitrate / 10 ^ 6 = whole at hmillionths ⊢
  generalize millionthsOf bitrate % 10 ^ 6 = frac at hmillionths ⊢
  rw [← hmillionths]
  push_cast
  ring

/-! ## What a 64-bit bit rate is sent as -/

/-- The bits per second that a bit rate is sent as. -/
def sentRate (bitrate : ℕ) : ℚ :=
  (millionthsOf (asDouble bitrate) : ℚ) / 10 ^ 6 * 10 ^ (bitrateUnit (asDouble bitrate)).1

/-- Below a gigabit per second, whole kilobits below a terabit, and whole megabits. -/
def SentExactly (bitrate : ℕ) : Prop :=
  bitrate < 10 ^ 9 ∨ (bitrate < 10 ^ 12 ∧ 10 ^ 3 ∣ bitrate) ∨ 10 ^ 6 ∣ bitrate

theorem sentRate_eq_iff (r : ℕ) : sentRate r = r ↔
    millionthsOf (asDouble r) * 10 ^ (bitrateUnit (asDouble r)).1 = r * 10 ^ 6 := by
  rw [sentRate, div_mul_eq_mul_div, div_eq_iff (by norm_num)]
  exact_mod_cast Iff.rfl

/-- Six decimals are enough for units up to a megabit. -/
theorem millionthsOf_small {d e : ℕ} (he : (bitrateUnit d).1 = e) (hle : e ≤ 6) :
    millionthsOf d * 10 ^ e = d * 10 ^ 6 := by
  have hsplit : d * 10 ^ 6 = d * 10 ^ (6 - e) * 10 ^ e := by
    rw [Nat.mul_assoc, ← Nat.pow_add, Nat.sub_add_cancel hle]
  rw [millionthsOf, he, hsplit, roundedDiv_mul (Nat.pow_pos (by decide))]

/-- A larger unit has so many digits below its millionth. -/
theorem millionthsOf_large {d e : ℕ} (he : (bitrateUnit d).1 = e + 6) :
    millionthsOf d = roundedDiv d (10 ^ e) := by
  rw [millionthsOf, he, Nat.pow_add, roundedDiv_scale (by decide)]

theorem sentRate_large_iff {r e : ℕ} (he : (bitrateUnit (asDouble r)).1 = e + 6)
    (hlow : 2 * r < 2 * asDouble r + 10 ^ e) (hhigh : 2 * asDouble r < 2 * r + 10 ^ e) :
    sentRate r = r ↔ 10 ^ e ∣ r := by
  rw [sentRate_eq_iff, millionthsOf_large he, he, Nat.pow_add, ← Nat.mul_assoc,
    Nat.mul_left_inj (by decide)]
  exact roundedDiv_mul_eq_iff (Nat.pow_pos (by decide)) hlow hhigh

theorem sentRate_exact_iff {r : ℕ} (hr : r < 2 ^ 64) : sentRate r = r ↔ SentExactly r := by
  unfold SentExactly
  by_cases htera : 10 ^ 12 ≤ asDouble r
  · have hunit : (bitrateUnit (asDouble r)).1 = 6 + 6 := by
      rw [bitrateUnit, if_pos htera]
    obtain ⟨hle, hge⟩ := asDouble_near hr
    have hlarge : 10 ^ 12 ≤ r := by
      by_cases hsmall : r < 2 ^ 53
      · rwa [asDouble_of_lt hsmall] at htera
      · omega
    rw [sentRate_large_iff hunit (by omega) (by omega)]
    omega
  · have hsmall : r < 2 ^ 53 := by
      have := (asDouble_near hr).1
      omega
    have hdouble := asDouble_of_lt hsmall
    rw [hdouble] at htera
    by_cases hgiga : 10 ^ 9 ≤ r
    · have hunit : (bitrateUnit (asDouble r)).1 = 3 + 6 := by
        rw [hdouble, bitrateUnit, if_neg htera, if_pos hgiga]
      rw [sentRate_large_iff hunit (by omega) (by omega)]
      omega
    · refine iff_of_true ?_ (.inl (Nat.not_le.1 hgiga))
      have hunit : (bitrateUnit (asDouble r)).1 ≤ 6 := by
        rw [hdouble, bitrateUnit, if_neg htera, if_neg hgiga]
        split_ifs <;> decide
      rw [sentRate_eq_iff, millionthsOf_small rfl hunit, hdouble]

/-- What is sent is off by at most half a millionth of the unit. -/
theorem sentRate_near (r : ℕ) :
    |sentRate r - asDouble r| * (2 * 10 ^ 6) ≤ 10 ^ (bitrateUnit (asDouble r)).1 := by
  obtain ⟨hle, hge⟩ := @roundedDiv_near (asDouble r * 10 ^ 6)
    (10 ^ (bitrateUnit (asDouble r)).1) (Nat.pow_pos (by decide))
  change 2 * (asDouble r * 10 ^ 6) ≤ 2 * (millionthsOf (asDouble r) * _) + _ at hle
  change 2 * (millionthsOf (asDouble r) * _) ≤ 2 * (asDouble r * 10 ^ 6) + _ at hge
  have hle' : (2 * (asDouble r * 10 ^ 6) : ℚ) ≤ 2 * (millionthsOf (asDouble r) *
      10 ^ (bitrateUnit (asDouble r)).1) + 10 ^ (bitrateUnit (asDouble r)).1 := by
    exact_mod_cast hle
  have hge' : (2 * (millionthsOf (asDouble r) * 10 ^ (bitrateUnit (asDouble r)).1) : ℚ) ≤
      2 * (asDouble r * 10 ^ 6) + 10 ^ (bitrateUnit (asDouble r)).1 := by
    exact_mod_cast hge
  rw [← le_div_iff₀ (by norm_num), abs_le, sentRate]
  constructor
  · linarith
  · linarith

/-- A bit rate is sent rounded to the millionth of its unit. That is the bit rate itself below a
gigabit, for whole kilobits below a terabit and for whole megabits, and of these no two are sent
alike. -/
theorem bitrate_texts {r : ℕ} (hr : r < 2 ^ 64) :
    bitrateOf (bitrateToStr r) = some (sentRate r) ∧
      |sentRate r - asDouble r| * (2 * 10 ^ 6) ≤ 10 ^ (bitrateUnit (asDouble r)).1 ∧
      (sentRate r = r ↔ SentExactly r) ∧
      ∀ r' < 2 ^ 64, SentExactly r → SentExactly r' → bitrateToStr r = bitrateToStr r' →
        r = r' := by
  refine ⟨bitrateOf_bitrateText _, sentRate_near r, sentRate_exact_iff hr,
    fun r' hr' h h' heq => ?_⟩
  have hsent : sentRate r = sentRate r' := by
    have hread := congrArg bitrateOf heq
    rw [bitrateToStr, bitrateToStr, bitrateOf_bitrateText, bitrateOf_bitrateText] at hread
    exact Option.some.inj hread
  rw [(sentRate_exact_iff hr).2 h, (sentRate_exact_iff hr').2 h'] at hsent
  exact_mod_cast hsent

theorem bitrate_texts_kilobits :
    bitrateOf (bitrateToStr 1234567000) = some 1234567000 := by
  have h := bitrate_texts (r := 1234567000) (by decide)
  rw [h.1, h.2.2.1.2 (.inr (.inl ⟨by decide, by decide⟩))]
  rfl

/-- One bit more than a gigabit is lost. -/
theorem lost_bit_per_second :
    ¬ ∀ r < 2 ^ 64, bitrateOf (bitrateToStr r) = some (r : ℚ) := by
  intro h
  have hsent : sentRate 1000000001 = (1000000001 : ℕ) :=
    Option.some.inj ((bitrateOf_bitrateText _).symm.trans (h 1000000001 (by decide)))
  rw [sentRate_exact_iff (by decide), SentExactly] at hsent
  revert hsent
  decide

end ServiceConsumers.BitrateTexts
