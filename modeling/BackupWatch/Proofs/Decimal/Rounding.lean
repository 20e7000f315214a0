import BackupWatch.Decimal.Binary
import Mathlib

/-!
Rounding of floating-point numbers. A mantissa with a round bit and a sticky bit tells on which side
of the middle between two whole numbers a value lies, and keeps telling so when it is shifted.
Rounded to fifty-three binary digits, a number is off by half a unit of the last digit at most.
-/

namespace BackupWatch.Decimal

open Float.Model Float.Model.UnpackedFloat

/-! ## Extended mantissas -/

/-- What the bits of an extended mantissa say of a value. -/
def Describes (em : ExtendedMantissa) (x : ℚ) : Prop :=
  match em.roundBit, em.stickyBit with
  | false, false => x = em.mantissa
  | false, true => em.mantissa < x ∧ x < em.mantissa + 1 / 2
  | true, false => x = em.mantissa + 1 / 2
  | true, true => em.mantissa + 1 / 2 < x ∧ x < em.mantissa + 1

/-- The round bit and the sticky bit go on to describe a value that is halved. -/
theorem Describes.shiftRightOne {em : ExtendedMantissa} {x : ℚ} (h : Describes em x) :
    Describes em.shiftRightOne (x / 2) := by
  obtain ⟨m, round, sticky⟩ := em
  obtain ⟨half, rfl | rfl⟩ := Nat.even_or_odd' m
  · have heven : ExtendedMantissa.shiftRightOne ⟨2 * half, round, sticky⟩ =
        ⟨half, false, round || sticky⟩ := by
      simp [ExtendedMantissa.shiftRightOne]
    rw [heven]
    cases round <;> cases sticky <;> simp only [Describes, Bool.or_true, Bool.or_false] at h ⊢ <;>
      push_cast at h <;> first | linarith | constructor <;> linarith
  · have hodd : ExtendedMantissa.shiftRightOne ⟨2 * half + 1, round, sticky⟩ =
        ⟨half, true, round || sticky⟩ := by
      simp [ExtendedMantissa.shiftRightOne]
      omega
    rw [hodd]
    cases round <;> cases sticky <;> simp only [Describes, Bool.or_true, Bool.or_false] at h ⊢ <;>
      push_cast at h <;> first | linarith | constructor <;> linarith

theorem Describes.shiftRight {em : ExtendedMantissa} {x : ℚ} (h : Describes em x) (n : ℕ) :
    Describes (em >>> n) (x / 2 ^ n) := by
  change Describes (n.repeat ExtendedMantissa.shiftRightOne em) _
  induction n with
  | zero => simpa [Nat.repeat] using h
  | succ n ih =>
    rw [pow_succ, ← div_div]
    exact ih.shiftRightOne

theorem Describes.mantissa_le {em : ExtendedMantissa} {x : ℚ} (h : Describes em x) :
    (em.mantissa : ℚ) ≤ x ∧ x < em.mantissa + 1 := by
  obtain ⟨m, round, sticky⟩ := em
  cases round <;> cases sticky <;> simp only [Describes] at h ⊢ <;> constructor <;> linarith

/-- The nearest whole number is off by a half at most. -/
theorem Describes.abs_rounded_sub_le {em : ExtendedMantissa} {x : ℚ} (h : Describes em x) :
    |(em.roundedMantissa : ℚ) - x| ≤ 1 / 2 := by
  obtain ⟨m, round, sticky⟩ := em
  have hparity : (m % 2 : ℕ) ≤ 1 := by omega
  have hlast : ((m % 2 : ℕ) : ℚ) ≤ 1 := by exact_mod_cast hparity
  have hpos : (0 : ℚ) ≤ (m % 2 : ℕ) := Nat.cast_nonneg _
  rw [abs_le]
  cases round <;> cases sticky <;>
    simp only [Describes, ExtendedMantissa.roundedMantissa, ExtendedMantissa.accuracy,
      Accuracy.roundToNearestEven] at h ⊢ <;> push_cast <;> constructor <;> linarith

theorem mantissa_ofMantissaAndAccuracy (m : ℕ) (accuracy : Accuracy) :
    (ExtendedMantissa.ofMantissaAndAccuracy m accuracy).mantissa = m := by
  obtain _ | _ | _ | _ := accuracy <;> rfl

theorem describes_exact (m : ℕ) : Describes (.ofMantissaAndAccuracy m .exact) m := rfl

/-- A quotient is described by its whole part and its remainder. -/
theorem describes_quotient (num : ℕ) {den : ℕ} (hden : 0 < den) :
    Describes (.ofMantissaAndAccuracy (num / den) (accuracyOfFraction (num % den) den))
      (num / den : ℚ) := by
  have hpos : (0 : ℚ) < den := by exact_mod_cast hden
  have hsplit : (num : ℚ) / den = (num / den : ℕ) + (num % den : ℕ) / (den : ℚ) := by
    rw [div_eq_iff hpos.ne', add_mul, div_mul_cancel₀ _ hpos.ne', mul_comm]
    exact_mod_cast (Nat.div_add_mod num den).symm
  have hless : ((num % den : ℕ) : ℚ) / den < 1 := by
    rw [div_lt_one hpos]
    exact_mod_cast Nat.mod_lt num hden
  rw [hsplit]
  generalize num / den = whole
  generalize num % den = rest at hless ⊢
  unfold accuracyOfFraction
  split
  · next hzero => simp [Describes, ExtendedMantissa.ofMantissaAndAccuracy, hzero]
  · next hrest =>
    have hover : (0 : ℚ) < rest / den :=
      div_pos (by exact_mod_cast Nat.pos_of_ne_zero hrest) hpos
    rcases horder : compare (2 * rest) den with _ | _ | _
    · have hhalf : (2 * rest : ℚ) < den := by exact_mod_cast Nat.compare_eq_lt.mp horder
      have hquotient : (rest : ℚ) / den < 1 / 2 := by
        rw [div_lt_iff₀ hpos]
        linarith
      change (whole : ℚ) < _ ∧ _ < (whole : ℚ) + 1 / 2
      exact ⟨by linarith, by linarith⟩
    · have hhalf : (2 * rest : ℚ) = den := by exact_mod_cast Nat.compare_eq_eq.mp horder
      have hquotient : (rest : ℚ) / den = 1 / 2 := by
        rw [div_eq_iff hpos.ne']
        linarith
      change (whole : ℚ) + rest / den = whole + 1 / 2
      rw [hquotient]
    · have hhalf : (den : ℚ) < 2 * rest := by exact_mod_cast Nat.compare_eq_gt.mp horder
      have hquotient : (1 : ℚ) / 2 < rest / den := by
        rw [lt_div_iff₀ hpos]
        linarith
      change (whole : ℚ) + 1 / 2 < _ ∧ _ < (whole : ℚ) + 1
      exact ⟨by linarith, by linarith⟩

/-! ## Numbers in binary64 -/

theorem two_zpow_pos (e : ℤ) : (0 : ℚ) < 2 ^ e := zpow_pos (by norm_num) e

theorem two_zpow_le {a b : ℤ} (h : a ≤ b) : (2 : ℚ) ^ a ≤ 2 ^ b :=
  zpow_le_zpow_right₀ (by norm_num) h

theorem lt_of_two_zpow_lt {a b : ℤ} (h : (2 : ℚ) ^ a < 2 ^ b) : a < b :=
  (zpow_lt_zpow_iff_right₀ one_lt_two).mp h

theorem two_zpow_add (a b : ℤ) : (2 : ℚ) ^ (a + b) = 2 ^ a * 2 ^ b :=
  zpow_add₀ (by norm_num) a b

/-- A number that is not negative, in the form that is packed: with all digits, or with the least
exponent. -/
inductive Stands : UnpackedFloat → ℚ → Prop
  | zero : Stands (.zero .positive) 0
  | finite {m : ℕ} {e : ℤ} (hpos : 0 < m) (hm : m < 9007199254740992) (hlow : -1074 ≤ e)
      (hhigh : e ≤ 971) (hfull : 4503599627370496 ≤ m ∨ e = -1074) :
      Stands (.finite .positive m e hpos) (m * 2 ^ e)

/-- The number nearest to `v` in fifty-three binary digits, or one of the two: a multiple of the
last digit, and off by half of that at most. -/
def Nearest (v z : ℚ) : Prop :=
  ∀ k : ℤ, 2 ^ (k - 1) ≤ v → v < 2 ^ k →
    |z - v| ≤ 2 ^ (k - 54) ∧ ∃ j : ℕ, z = j * 2 ^ (k - 53)

/-- A finite number is packed with its biased exponent if it has all digits, and else with none. -/
theorem pack_finite (s : Sign) {m : ℕ} {e : ℤ} {biased : ℕ} (hpos : 0 < m)
    (hbiased : e + 1075 = biased) (hrange : biased < 2047) :
    UnpackedFloat.pack .binary64 (.finite s m e hpos) =
      packComponents .binary64 s
        (if m.log2 + 1 = 53 then BitVec.ofNat 11 biased else 0#11) (BitVec.ofNat 52 m) := by
  have hexponent : (e + 1023 + 52).toNat = biased := by omega
  change (if 2048 ≤ (e + 1023 + 52).toNat + 1 then packedInfinity .binary64 s
    else if m.log2 + 1 = 53 then packComponents .binary64 s
      (BitVec.ofNat 11 (e + 1023 + 52).toNat) (BitVec.ofNat 52 m)
    else packComponents .binary64 s 0#11 (BitVec.ofNat 52 m)) = _
  rw [hexponent, if_neg (by omega)]
  split <;> rfl

/-- A number with an exponent has a leading digit that is not packed. -/
theorem unpack_full (s : Sign) {exponent : BitVec 11} (digits : BitVec 52)
    (hpos : 0 < exponent.toNat) (hrange : exponent.toNat < 2047) :
    UnpackedFloat.unpack .binary64 (packComponents .binary64 s exponent digits) =
      .finite s (4503599627370496 + digits.toNat) (exponent.toNat - 1075)
        (Nat.add_pos_left (by decide) _) := by
  have hones : exponent ≠ -1#11 := by
    rintro rfl
    exact absurd hrange (by decide)
  have hzero : exponent ≠ 0#11 := by
    rintro rfl
    exact absurd hpos (by decide)
  have hdigits : (1#1 ++ digits).toNat = 4503599627370496 + digits.toNat := by
    rw [BitVec.toNat_append, ← Nat.shiftLeft_add_eq_or_of_lt digits.isLt]
    rfl
  simp only [UnpackedFloat.unpack, unpackMantissa_packComponents, unpackExponent_packComponents,
    unpackSign_packComponents, Sign.ofBitVec_toBitVec, hones, hzero, if_false, hdigits]
  rfl

/-- A number without an exponent has the least one there is. -/
theorem unpack_least (s : Sign) {digits : BitVec 52} (hpos : 0 < digits.toNat) :
    UnpackedFloat.unpack .binary64 (packComponents .binary64 s 0#11 digits) =
      .finite s digits.toNat (-1074) hpos := by
  have hones : 0#11 ≠ -1#11 := by decide
  have hzero : digits ≠ 0#52 := by
    rintro rfl
    exact absurd hpos (by decide)
  simp only [UnpackedFloat.unpack, unpackMantissa_packComponents, unpackExponent_packComponents,
    unpackSign_packComponents, Sign.ofBitVec_toBitVec, hones, hzero, if_false, if_true, dif_neg,
    not_false_eq_true]
  rfl

/-- The exponent and the digits that a number other than zero is packed into. -/
theorem exists_components (s : Sign) {m : ℕ} {e : ℤ} (hpos : 0 < m) (hm : m < 9007199254740992)
    (hlow : -1074 ≤ e) (hhigh : e ≤ 971) (hfull : 4503599627370496 ≤ m ∨ e = -1074) :
    ∃ (exponent : BitVec 11) (digits : BitVec 52),
      UnpackedFloat.pack .binary64 (.finite s m e hpos) =
        packComponents .binary64 s exponent digits ∧ exponent.toNat < 2047 ∧
      (exponent = 0#11 ∧ m = digits.toNat ∧ e = -1074 ∨
        0 < exponent.toNat ∧ m = 4503599627370496 + digits.toNat ∧ e = exponent.toNat - 1075) := by
  obtain ⟨biased, hbiased⟩ : ∃ biased : ℕ, e + 1075 = biased := ⟨(e + 1075).toNat, by omega⟩
  have hdigits : (BitVec.ofNat 52 m).toNat = m % 4503599627370496 := BitVec.toNat_ofNat ..
  refine ⟨_, _, pack_finite s hpos hbiased (by omega), ?_⟩
  by_cases hall : 4503599627370496 ≤ m
  · have hlog : m.log2 = 52 := (Nat.log2_eq_iff hpos.ne').mpr ⟨hall, hm⟩
    have hexponent : (BitVec.ofNat 11 biased).toNat = biased := by
      rw [BitVec.toNat_ofNat, Nat.mod_eq_of_lt (by omega)]
    rw [if_pos (by omega), hexponent]
    exact ⟨by omega, Or.inr ⟨by omega, by omega, by omega⟩⟩
  · have hlog : m.log2 ≠ 52 := fun h => hall ((Nat.log2_eq_iff hpos.ne').mp h).1
    rw [if_neg (by omega)]
    exact ⟨by decide, Or.inl ⟨rfl, by omega, hfull.resolve_left hall⟩⟩

theorem unpack_pack_finite (s : Sign) {m : ℕ} {e : ℤ} (hpos : 0 < m) (hm : m < 9007199254740992)
    (hlow : -1074 ≤ e) (hhigh : e ≤ 971) (hfull : 4503599627370496 ≤ m ∨ e = -1074) :
    (pack (.finite s m e hpos)).unpack = .finite s m e hpos := by
  change UnpackedFloat.unpack .binary64 (UnpackedFloat.pack .binary64 _) = _
  obtain ⟨exponent, digits, hpack, hrange, ⟨rfl, rfl, rfl⟩ | ⟨hexponent, rfl, rfl⟩⟩ :=
    exists_components s hpos hm hlow hhigh hfull
  · rw [hpack, unpack_least s hpos]
  · rw [hpack, unpack_full s digits hexponent hrange]

theorem unpack_pack {f : UnpackedFloat} {x : ℚ} (h : Stands f x) : (pack f).unpack = f := by
  cases h with
  | zero => exact unpack_packedZero
  | finite hpos hm hlow hhigh hfull => exact unpack_pack_finite _ hpos hm hlow hhigh hfull

/-! ## Results of rounding -/

theorem binade_unique {v : ℚ} {j k : ℤ} (hj : 2 ^ (j - 1) ≤ v ∧ v < 2 ^ j)
    (hk : 2 ^ (k - 1) ≤ v ∧ v < 2 ^ k) : j = k := by
  have hjk := lt_of_two_zpow_lt (hj.1.trans_lt hk.2)
  have hkj := lt_of_two_zpow_lt (hk.1.trans_lt hj.2)
  omega

theorem targetExponent_of (total : ℤ) :
    Format.targetExponent .binary64 total = max (total - 53) (-1074) := rfl

theorem targetExponent_eq (m : ℕ) (e : ℤ) :
    Format.targetExponent .binary64 (totalExponent m e) = max (m.log2 + e - 52) (-1074) := by
  rw [targetExponent_of, totalExponent]
  omega

/-- A mantissa with too many digits is shifted until the last is a unit of the result. -/
theorem shiftToTargetExponent_eq {m shift : ℕ} {e : ℤ} (accuracy : Accuracy)
    (hshift : (max ((m.log2 : ℤ) + e - 52) (-1074) - e).toNat = shift) :
    shiftToTargetExponent .binary64 m e accuracy =
      (ExtendedMantissa.ofMantissaAndAccuracy m accuracy >>> shift, e + shift) := by
  simp only [shiftToTargetExponent, targetExponent_eq, shiftToExponent, hshift]

/-- A rounded mantissa that has not been carried stays as it is. -/
theorem shiftToTargetExponent_rounded {r : ℕ} {e : ℤ} (hless : r < 9007199254740992)
    (hmin : -1074 ≤ e) :
    shiftToTargetExponent .binary64 r e .exact = (.ofMantissaAndAccuracy r .exact, e) := by
  have hlog : r.log2 ≤ 52 := by
    obtain rfl | hpos := Nat.eq_zero_or_pos r
    · decide
    · exact Nat.lt_succ_iff.mp ((Nat.log2_lt hpos.ne').mpr hless)
  have hshift : (max ((r.log2 : ℤ) + e - 52) (-1074) - e).toNat = 0 := by omega
  rw [shiftToTargetExponent_eq .exact hshift, Int.natCast_zero, add_zero]
  rfl

/-- A carry moves the exponent and not the value. -/
theorem shiftToTargetExponent_carried {e : ℤ} (hmin : -1074 ≤ e) :
    shiftToTargetExponent .binary64 9007199254740992 e .exact =
      (.ofMantissaAndAccuracy 4503599627370496 .exact, e + 1) := by
  have hlog : Nat.log2 9007199254740992 = 53 := (Nat.log2_eq_iff (by decide)).mpr (by decide)
  have hshift : (max ((Nat.log2 9007199254740992 : ℤ) + e - 52) (-1074) - e).toNat = 1 := by
    rw [hlog]
    omega
  exact shiftToTargetExponent_eq .exact hshift

/-- The last step of rounding does not change the value. -/
theorem stands_carry {r : ℕ} {e : ℤ} (hr : 4503599627370496 ≤ r) (hcarry : r ≤ 9007199254740992)
    (hmin : -1074 ≤ e) (hmax : e < 971) :
    Stands
      (if h : (shiftToTargetExponent .binary64 r e .exact).1.mantissa = 0 then .zero .positive
      else .finite .positive (shiftToTargetExponent .binary64 r e .exact).1.mantissa
        (shiftToTargetExponent .binary64 r e .exact).2 (Nat.pos_of_ne_zero h)) (r * 2 ^ e) := by
  obtain hless | rfl := hcarry.lt_or_eq
  · have hsome : ¬ (ExtendedMantissa.ofMantissaAndAccuracy r .exact).mantissa = 0 :=
      fun h => absurd hr (by rw [show r = 0 from h]; decide)
    simp only [shiftToTargetExponent_rounded hless hmin, dif_neg hsome]
    exact .finite (by omega) hless hmin hmax.le (Or.inl hr)
  · have hvalue : ((9007199254740992 : ℕ) : ℚ) * 2 ^ e = (4503599627370496 : ℕ) * 2 ^ (e + 1) := by
      rw [two_zpow_add]
      norm_num
      ring
    simp only [shiftToTargetExponent_carried hmin]
    rw [hvalue, dif_neg (by decide)]
    exact .finite (by decide) (by decide) (by omega) (by omega) (Or.inl le_rfl)

theorem value_in_units (x : ℚ) (e : ℤ) (shift : ℕ) :
    x * 2 ^ e = x / 2 ^ shift * 2 ^ (e + shift) := by
  rw [two_zpow_add, zpow_natCast]
  field_simp

/-- In units of its last digit a value has fifty-three digits in front of the point. -/
theorem bounds_in_units {x : ℚ} {e : ℤ} {shift : ℕ} (hlow : 2 ^ (e + shift + 53 - 1) ≤ x * 2 ^ e)
    (hhigh : x * 2 ^ e < 2 ^ (e + shift + 53)) :
    4503599627370496 ≤ x / 2 ^ shift ∧ x / 2 ^ shift < 9007199254740992 := by
  have hunit := two_zpow_pos (e + shift)
  have hleast : (2 : ℚ) ^ (e + shift + 53 - 1) = 4503599627370496 * 2 ^ (e + shift) := by
    rw [show e + shift + 53 - 1 = 52 + (e + shift) by omega, two_zpow_add]
    norm_num
  have hmost : (2 : ℚ) ^ (e + shift + 53) = 9007199254740992 * 2 ^ (e + shift) := by
    rw [show e + shift + 53 = 53 + (e + shift) by omega, two_zpow_add]
    norm_num
  rw [value_in_units x e shift, hleast] at hlow
  rw [value_in_units x e shift, hmost] at hhigh
  exact ⟨le_of_mul_le_mul_right hlow hunit, lt_of_mul_lt_mul_right hhigh hunit.le⟩

/-- How many digits a mantissa has can be told from the value that it describes. -/
theorem Describes.log2_eq {m shift : ℕ} {accuracy : Accuracy} {x : ℚ}
    (hx : Describes (.ofMantissaAndAccuracy m accuracy) x) (hlow : 4503599627370496 ≤ x / 2 ^ shift)
    (hhigh : x / 2 ^ shift < 9007199254740992) : m.log2 = shift + 52 := by
  obtain ⟨hm, hx⟩ := hx.mantissa_le
  rw [mantissa_ofMantissaAndAccuracy] at hm hx
  rw [le_div_iff₀ (by positivity)] at hlow
  rw [div_lt_iff₀ (by positivity)] at hhigh
  have hleast : 4503599627370496 * 2 ^ shift < m + 1 := by exact_mod_cast hlow.trans_lt hx
  have hmost : m < 9007199254740992 * 2 ^ shift := by exact_mod_cast hm.trans_lt hhigh
  refine (Nat.log2_eq_iff (by omega)).mpr ⟨?_, ?_⟩
  · rw [pow_add]
    omega
  · rw [pow_succ, pow_add]
    omega

/-- Rounding a described mantissa gives a number that is nearest to its value. -/
theorem stands_roundWithAccuracy {m : ℕ} {e k : ℤ} {accuracy : Accuracy} {x : ℚ}
    (hx : Describes (.ofMantissaAndAccuracy m accuracy) x) (hlow : 2 ^ (k - 1) ≤ x * 2 ^ e)
    (hhigh : x * 2 ^ e < 2 ^ k) (hmin : -1021 ≤ k) (hmax : k ≤ 1000) (he : e ≤ k - 53) :
    ∃ z, Stands (roundWithAccuracy .binary64 .positive m e accuracy) z ∧ Nearest (x * 2 ^ e) z := by
  obtain ⟨shift, rfl⟩ : ∃ shift : ℕ, k = e + shift + 53 := ⟨(k - 53 - e).toNat, by omega⟩
  obtain ⟨hleast, hmost⟩ := bounds_in_units hlow hhigh
  have hrounded := (hx.shiftRight shift).abs_rounded_sub_le
  have hlog := hx.log2_eq hleast hmost
  have hshift : (max ((m.log2 : ℤ) + e - 52) (-1074) - e).toNat = shift := by omega
  rw [roundWithAccuracy, shiftToTargetExponent_eq accuracy hshift]
  dsimp only
  generalize (ExtendedMantissa.ofMantissaAndAccuracy m accuracy >>> shift).roundedMantissa = r
    at hrounded ⊢
  obtain ⟨hunder, hover⟩ := abs_le.mp hrounded
  have hr : 4503599627370495 < r ∧ r < 9007199254740993 := by
    have hleast' : (4503599627370495 : ℚ) < r := by linarith
    have hmost' : (r : ℚ) < 9007199254740993 := by linarith
    exact ⟨by exact_mod_cast hleast', by exact_mod_cast hmost'⟩
  refine ⟨r * 2 ^ (e + shift), stands_carry (by omega) (by omega) (by omega) (by omega), ?_⟩
  intro k' hlow' hhigh'
  obtain rfl := binade_unique ⟨hlow', hhigh'⟩ ⟨hlow, hhigh⟩
  have hhalf : (2 : ℚ) ^ (e + shift + 53 - 54) = 1 / 2 * 2 ^ (e + shift) := by
    rw [show e + shift + 53 - 54 = -1 + (e + shift) by omega, two_zpow_add]
    norm_num
  have hunit := two_zpow_pos (e + shift)
  constructor
  · rw [value_in_units x e shift, ← sub_mul, abs_mul, abs_of_pos hunit, hhalf]
    exact mul_le_mul_of_nonneg_right hrounded hunit.le
  · exact ⟨r, by rw [show e + shift + 53 - 53 = e + shift by omega]⟩

theorem binade_mantissa {m : ℕ} (hpos : 0 < m) (e : ℤ) :
    (2 : ℚ) ^ ((m.log2 : ℤ) + 1 + e - 1) ≤ m * 2 ^ e ∧
      (m : ℚ) * 2 ^ e < 2 ^ ((m.log2 : ℤ) + 1 + e) := by
  have hleast : (2 : ℚ) ^ (m.log2 : ℤ) ≤ m := by exact_mod_cast Nat.log2_self_le hpos.ne'
  have hmost : (m : ℚ) < 2 ^ ((m.log2 : ℤ) + 1) := by exact_mod_cast Nat.lt_log2_self
  rw [show (m.log2 : ℤ) + 1 + e - 1 = m.log2 + e by omega, two_zpow_add, two_zpow_add _ e]
  exact ⟨mul_le_mul_of_nonneg_right hleast (two_zpow_pos e).le,
    mul_lt_mul_of_pos_right hmost (two_zpow_pos e)⟩

/-- Decreasing the exponent does not change the value. -/
theorem decreaseExponent_value (m : ℕ) (e target : ℤ) :
    ((decreaseExponent m e target).1 : ℚ) * 2 ^ (decreaseExponent m e target).2 = m * 2 ^ e := by
  simp only [decreaseExponent]
  generalize (e - target).toNat = shift
  rw [Nat.shiftLeft_eq, Nat.cast_mul, Nat.cast_pow, mul_assoc]
  have hexponent : (2 : ℚ) ^ e = 2 ^ (shift : ℤ) * 2 ^ (e - shift) := by
    rw [← two_zpow_add]
    congr 1
    omega
  rw [hexponent]
  norm_cast

theorem decreaseExponent_le (m : ℕ) (e target : ℤ) :
    (decreaseExponent m e target).2 ≤ target := by
  simp only [decreaseExponent]
  omega

theorem decreaseExponent_exponent (m : ℕ) {e target : ℤ} (h : target ≤ e) :
    (decreaseExponent m e target).2 = target := by
  simp only [decreaseExponent]
  omega

def Normal (v : ℚ) : Prop := 2 ^ (-1022 : ℤ) ≤ v ∧ v < 2 ^ (1000 : ℤ)

theorem not_normal_zero : ¬ Normal 0 := fun h => absurd h.1 (not_le.mpr (two_zpow_pos _))

theorem Normal.mantissa_pos {m : ℕ} {e : ℤ} (h : Normal (m * 2 ^ e)) : 0 < m := by
  refine Nat.pos_of_ne_zero fun hzero => not_normal_zero ?_
  rwa [hzero, Nat.cast_zero, zero_mul] at h

theorem Normal.binade {v : ℚ} (h : Normal v) :
    ∃ k : ℤ, (2 ^ (k - 1) ≤ v ∧ v < 2 ^ k) ∧ -1021 ≤ k ∧ k ≤ 1000 := by
  obtain ⟨j, hj, hj'⟩ :=
    exists_mem_Ico_zpow ((two_zpow_pos _).trans_le h.1) (one_lt_two : (1 : ℚ) < 2)
  have hmin := lt_of_two_zpow_lt (h.1.trans_lt hj')
  have hmax := lt_of_two_zpow_lt (hj.trans_lt h.2)
  refine ⟨j + 1, ⟨?_, hj'⟩, by omega, by omega⟩
  rwa [add_sub_cancel_right]

theorem normal_of_bounds {v : ℚ} (hlow : 2 ^ (-30 : ℤ) ≤ v) (hhigh : v ≤ 2 ^ (64 : ℤ)) : Normal v :=
  ⟨(two_zpow_le (by decide)).trans hlow,
    hhigh.trans_lt (zpow_lt_zpow_right₀ one_lt_two (by decide))⟩

theorem Nearest.abs_sub_le {v z : ℚ} (h : Nearest v z) (hv : Normal v) {k : ℤ} (hk : v < 2 ^ k) :
    |z - v| ≤ 2 ^ (k - 54) := by
  obtain ⟨j, hj, -, -⟩ := hv.binade
  have hless := lt_of_two_zpow_lt (hj.1.trans_lt hk)
  exact (h j hj.1 hj.2).1.trans (two_zpow_le (by omega))

theorem stands_round {m : ℕ} {e : ℤ} (h : Normal (m * 2 ^ e)) :
    ∃ z, Stands (round .binary64 .positive m e) z ∧ Nearest (m * 2 ^ e) z := by
  obtain ⟨k, hk, hmin, hmax⟩ := h.binade
  obtain rfl := binade_unique (binade_mantissa h.mantissa_pos e) hk
  unfold UnpackedFloat.round
  rw [← decreaseExponent_value m e _] at hk ⊢
  exact stands_roundWithAccuracy (describes_exact _) hk.1 hk.2 hmin hmax
    ((decreaseExponent_le m e _).trans (by rw [targetExponent_eq]; omega))

/-- A mantissa with enough digits to reach a binade is a multiple of the last digit there. -/
theorem exists_multiple {m : ℕ} {e k : ℤ} (hm : m < 9007199254740992)
    (h : (2 : ℚ) ^ (k - 1) ≤ m * 2 ^ e) : ∃ j : ℕ, (m : ℚ) * 2 ^ e = j * 2 ^ (k - 53) := by
  have hless : (2 : ℚ) ^ (k - 1) < 2 ^ (53 + e) := by
    refine h.trans_lt ?_
    rw [two_zpow_add]
    refine mul_lt_mul_of_pos_right ?_ (two_zpow_pos e)
    norm_num
    exact_mod_cast hm
  have hexponent := lt_of_two_zpow_lt hless
  obtain ⟨shift, hshift⟩ : ∃ shift : ℕ, e = shift + (k - 53) := ⟨(e - (k - 53)).toNat, by omega⟩
  refine ⟨m * 2 ^ shift, ?_⟩
  rw [hshift, two_zpow_add, zpow_natCast]
  push_cast
  ring

theorem Stands.nearest {f : UnpackedFloat} {x : ℚ} (h : Stands f x) : Nearest x x := by
  intro k hlow _
  refine ⟨by rw [sub_self, abs_zero]; exact (two_zpow_pos _).le, ?_⟩
  cases h with
  | zero => exact absurd hlow (not_le.mpr (two_zpow_pos _))
  | finite _ hm => exact exists_multiple hm hlow

theorem stands_normalize {m : ℕ} {e : ℤ} (h : Normal (m * 2 ^ e)) :
    ∃ z, Stands (normalize .binary64 m e .positive) z ∧ Nearest (m * 2 ^ e) z := by
  have hpos := h.mantissa_pos
  have hsign : compare (m : ℤ) 0 = .gt := Int.compare_eq_gt.mpr (by omega)
  unfold UnpackedFloat.normalize
  rw [hsign]
  exact stands_round h

/-- A sum is the number nearest to the exact sum. -/
theorem stands_add {f g : UnpackedFloat} {x y : ℚ} (hf : Stands f x) (hg : Stands g y)
    (h : Normal (x + y)) :
    ∃ z, Stands (UnpackedFloat.add .binary64 f g) z ∧ Nearest (x + y) z := by
  cases hf with
  | zero =>
    rw [zero_add] at h ⊢
    cases hg with
    | zero => exact absurd h not_normal_zero
    | finite hpos hm hlow hhigh hfull =>
      exact ⟨_, .finite hpos hm hlow hhigh hfull, (Stands.finite hpos hm hlow hhigh hfull).nearest⟩
  | @finite m e hpos hm hlow hhigh hfull =>
    cases hg with
    | zero =>
      rw [add_zero]
      exact ⟨_, .finite hpos hm hlow hhigh hfull, (Stands.finite hpos hm hlow hhigh hfull).nearest⟩
    | @finite n d hpos' hn hlow' hhigh' hfull' =>
      have hsum : (m : ℚ) * 2 ^ e + n * 2 ^ d = ((decreaseExponent m e (min e d)).1 +
          (decreaseExponent n d (min e d)).1 : ℕ) * 2 ^ (min e d) := by
        have hx := decreaseExponent_value m e (min e d)
        have hy := decreaseExponent_value n d (min e d)
        rw [decreaseExponent_exponent _ (min_le_left e d)] at hx
        rw [decreaseExponent_exponent _ (min_le_right e d)] at hy
        rw [Nat.cast_add, add_mul, hx, hy]
      rw [hsum] at h ⊢
      exact stands_normalize h

/-- A quotient has no fewer digits than the exponents of its parts tell. -/
theorem totalExponent_sub_le {m n : ℕ} {e d k : ℤ} (hm : 0 < m) (hn : 0 < n)
    (h : (m : ℚ) * 2 ^ e / (n * 2 ^ d) < 2 ^ k) : totalExponent m e - totalExponent n d ≤ k := by
  have hdivisor : (0 : ℚ) < n * 2 ^ d := mul_pos (by exact_mod_cast hn) (two_zpow_pos d)
  have hless : (2 : ℚ) ^ ((m.log2 : ℤ) + 1 + e - 1) < 2 ^ (k + ((n.log2 : ℤ) + 1 + d)) := by
    rw [two_zpow_add]
    calc (2 : ℚ) ^ ((m.log2 : ℤ) + 1 + e - 1) ≤ m * 2 ^ e := (binade_mantissa hm e).1
      _ < 2 ^ k * (n * 2 ^ d) := (div_lt_iff₀ hdivisor).mp h
      _ ≤ _ := mul_le_mul_of_nonneg_left (binade_mantissa hn d).2.le (two_zpow_pos k).le
  have hexponent := lt_of_two_zpow_lt hless
  rw [totalExponent, totalExponent]
  omega

theorem quotient_value (m n : ℕ) {e d target : ℤ} (h : target ≤ e - d) :
    (m : ℚ) * 2 ^ e / (n * 2 ^ d) = (m <<< (e - d - target).toNat : ℕ) / n * 2 ^ target := by
  have hnum := decreaseExponent_value m (e - d) target
  rw [decreaseExponent_exponent _ h] at hnum
  change ((m <<< (e - d - target).toNat : ℕ) : ℚ) * 2 ^ target = m * 2 ^ (e - d) at hnum
  rw [div_mul_eq_mul_div, hnum, zpow_sub₀ (by norm_num)]
  field_simp

/-- A quotient is the number nearest to the exact quotient. -/
theorem stands_div {f g : UnpackedFloat} {x y : ℚ} (hf : Stands f x) (hg : Stands g y)
    (h : Normal (x / y)) :
    ∃ z, Stands (UnpackedFloat.div .binary64 f g) z ∧ Nearest (x / y) z := by
  cases hf with
  | zero =>
    rw [zero_div] at h
    exact absurd h not_normal_zero
  | @finite m e hpos hm hlow hhigh hfull =>
    cases hg with
    | zero =>
      rw [div_zero] at h
      exact absurd h not_normal_zero
    | @finite n d hpos' hn hlow' hhigh' hfull' =>
      obtain ⟨k, hk, hmin, hmax⟩ := h.binade
      have htotal := totalExponent_sub_le hpos hpos' hk.2
      have hexponent : max (totalExponent m e - totalExponent n d - 53) (-1074) ≤ k - 53 := by omega
      rw [quotient_value m n (min_le_left (e - d) _)] at hk ⊢
      exact stands_roundWithAccuracy (describes_quotient _ hpos') hk.1 hk.2 hmin hmax
        ((min_le_right _ _).trans hexponent)

/-! ## Packed numbers -/

/-- No mantissa that is read off a number has more than fifty-three digits. -/
theorem Binary.mantissa_lt {x : Float} {negative : Bool} {m : ℕ} {e : ℤ}
    (h : Binary.ofFloat x = .finite negative m e) : m < 9007199254740992 := by
  unfold Binary.ofFloat Binary.ofBits at h
  have hfraction : x.toBits.toNat % 4503599627370496 < 4503599627370496 :=
    Nat.mod_lt _ (by decide)
  dsimp only at h
  split at h
  · split at h <;> cases h
  · split at h <;> cases h <;> omega

/-- A packed number that stands for a value. -/
def IsValue (x : Float) (v : ℚ) : Prop := ∃ f, Stands f v ∧ x = ⟨pack f⟩

theorem IsValue.nonneg {x : Float} {v : ℚ} (h : IsValue x v) : 0 ≤ v := by
  obtain ⟨f, hf, -⟩ := h
  cases hf with
  | zero => exact le_rfl
  | finite => exact mul_nonneg (Nat.cast_nonneg _) (two_zpow_pos _).le

theorem IsValue.add {a b : Float} {x y : ℚ} (ha : IsValue a x) (hb : IsValue b y)
    (h : Normal (x + y)) : ∃ z, IsValue (a + b) z ∧ Nearest (x + y) z := by
  obtain ⟨f, hf, rfl⟩ := ha
  obtain ⟨g, hg, rfl⟩ := hb
  obtain ⟨z, hz, hnearest⟩ := stands_add hf hg h
  refine ⟨z, ⟨_, hz, ?_⟩, hnearest⟩
  change (⟨pack (UnpackedFloat.add .binary64 (pack f).unpack (pack g).unpack)⟩ : Float) = _
  rw [unpack_pack hf, unpack_pack hg]

theorem IsValue.div {a b : Float} {x y : ℚ} (ha : IsValue a x) (hb : IsValue b y)
    (h : Normal (x / y)) : ∃ z, IsValue (a / b) z ∧ Nearest (x / y) z := by
  obtain ⟨f, hf, rfl⟩ := ha
  obtain ⟨g, hg, rfl⟩ := hb
  obtain ⟨z, hz, hnearest⟩ := stands_div hf hg h
  refine ⟨z, ⟨_, hz, ?_⟩, hnearest⟩
  change (⟨pack (UnpackedFloat.div .binary64 (pack f).unpack (pack g).unpack)⟩ : Float) = _
  rw [unpack_pack hf, unpack_pack hg]

/-- Multiples of a unit that are less than it apart are the same. -/
theorem multiple_unique {i j : ℕ} {unit : ℚ} (hunit : 0 < unit)
    (h : |(i : ℚ) * unit - j * unit| < unit) : i = j := by
  rw [← sub_mul, abs_mul, abs_of_pos hunit] at h
  have hless : |(i : ℚ) - j| < 1 := by
    refine lt_of_mul_lt_mul_right ?_ hunit.le
    rwa [one_mul]
  have hsame : (i : ℤ) - j = 0 := Int.abs_lt_one_iff.mp (by exact_mod_cast hless)
  omega

/-- A number that needs no more digits than there are is not rounded. -/
theorem Nearest.eq_of_multiple {v z : ℚ} (h : Nearest v z) {k : ℤ} (hlow : 2 ^ (k - 1) ≤ v)
    (hhigh : v < 2 ^ k) {j : ℕ} (hv : v = j * 2 ^ (k - 53)) : z = v := by
  obtain ⟨hclose, i, rfl⟩ := h k hlow hhigh
  have hhalf : (2 : ℚ) ^ (k - 54) < 2 ^ (k - 53) := zpow_lt_zpow_right₀ one_lt_two (by omega)
  rw [hv] at hclose ⊢
  rw [multiple_unique (two_zpow_pos _) (hclose.trans_lt hhalf)]

theorem isValue_toFloat_zero : IsValue (0 : UInt64).toFloat 0 := ⟨_, .zero, rfl⟩

/-- A word is converted to the number nearest to it. -/
theorem isValue_toFloat {n : UInt64} (hpos : 0 < n.toNat) :
    ∃ z, IsValue n.toFloat z ∧ Nearest n.toNat z := by
  have hnormal : Normal ((n.toNat : ℚ) * 2 ^ (0 : ℤ)) := by
    have hleast : (1 : ℚ) ≤ n.toNat := by exact_mod_cast hpos
    have hmost : (n.toNat : ℚ) < 2 ^ (64 : ℤ) := by exact_mod_cast n.toNat_lt
    rw [zpow_zero, mul_one]
    exact normal_of_bounds ((zpow_le_one_of_nonpos₀ one_le_two (by decide)).trans hleast) hmost.le
  obtain ⟨z, hz, hnearest⟩ := stands_normalize hnormal
  rw [zpow_zero, mul_one] at hnearest
  exact ⟨z, ⟨_, hz, rfl⟩, hnearest⟩

/-- A whole number that needs no more digits than there are arrives as it is. -/
theorem isValue_toFloat_of_multiple {n : UInt64} {k : ℤ} {j : ℕ}
    (hlow : (2 : ℚ) ^ (k - 1) ≤ n.toNat) (hhigh : (n.toNat : ℚ) < 2 ^ k)
    (hn : (n.toNat : ℚ) = j * 2 ^ (k - 53)) : IsValue n.toFloat n.toNat := by
  have hpos : 0 < n.toNat := by exact_mod_cast (two_zpow_pos _).trans_le hlow
  obtain ⟨z, hz, hnearest⟩ := isValue_toFloat hpos
  rwa [← hnearest.eq_of_multiple hlow hhigh hn]

/-- A word of fifty-three digits is converted exactly. -/
theorem isValue_toFloat_of_lt {n : UInt64} (h : n.toNat < 9007199254740992) :
    IsValue n.toFloat n.toNat := by
  obtain hzero | hpos := Nat.eq_zero_or_pos n.toNat
  · rw [hzero, Nat.cast_zero, show n = 0 from UInt64.toNat_inj.mp hzero]
    exact isValue_toFloat_zero
  · have hbinade := binade_mantissa hpos 0
    obtain ⟨j, hj⟩ := exists_multiple h hbinade.1
    rw [zpow_zero, mul_one] at hbinade hj
    exact isValue_toFloat_of_multiple hbinade.1 hbinade.2 hj

theorem toNat_packComponents (exponent : BitVec 11) (digits : BitVec 52) :
    (packComponents .binary64 .positive exponent digits).toNat =
      exponent.toNat * 4503599627370496 + digits.toNat := by
  rw [packComponents, BitVec.toNat_append, BitVec.toNat_append,
    ← Nat.shiftLeft_add_eq_or_of_lt digits.isLt, ← Nat.shiftLeft_add_eq_or_of_lt exponent.isLt,
    Nat.shiftLeft_eq, Nat.shiftLeft_eq]
  change (0 * 2 ^ 11 + exponent.toNat) * 2 ^ 52 + digits.toNat = _
  omega

/-- The fields of a word in which a positive number is packed. -/
theorem ofBits_eq {bits : UInt64} {exponent fraction : ℕ}
    (hbits : bits.toNat = exponent * 4503599627370496 + fraction) (hexponent : exponent < 2047)
    (hfraction : fraction < 4503599627370496) :
    Binary.ofBits bits = if exponent = 0 then .finite false fraction (-1074)
      else .finite false (4503599627370496 + fraction) (exponent - 1075) := by
  have hsign : bits.toNat >>> 63 = 0 := by
    rw [Nat.shiftRight_eq_div_pow]
    omega
  have hbiased : (bits.toNat >>> 52) % 2048 = exponent := by
    rw [Nat.shiftRight_eq_div_pow]
    omega
  have hrest : bits.toNat % 4503599627370496 = fraction := by omega
  simp only [Binary.ofBits, hsign, hbiased, hrest, if_neg (show ¬ exponent = 2047 by omega)]
  rfl

/-- What a packed number stands for is read off its bits. -/
theorem IsValue.ofFloat {x : Float} {v : ℚ} (h : IsValue x v) :
    ∃ (m : ℕ) (e : ℤ), Binary.ofFloat x = .finite false m e ∧ v = m * 2 ^ e := by
  obtain ⟨f, hf, rfl⟩ := h
  cases hf with
  | zero => exact ⟨0, -1074, rfl, by simp⟩
  | @finite m e hpos hm hlow hhigh hfull =>
    refine ⟨m, e, ?_, rfl⟩
    obtain ⟨exponent, digits, hpack, hrange, hcases⟩ :=
      exists_components .positive hpos hm hlow hhigh hfull
    have hbits : (Float.toBits ⟨pack (.finite .positive m e hpos)⟩).toNat =
        exponent.toNat * 4503599627370496 + digits.toNat := by
      rw [← toNat_packComponents, ← hpack]
      rfl
    rw [Binary.ofFloat, ofBits_eq hbits hrange digits.isLt]
    obtain ⟨rfl, rfl, rfl⟩ | ⟨hexponent, rfl, rfl⟩ := hcases
    · rfl
    · rw [if_neg (by omega)]

end BackupWatch.Decimal
