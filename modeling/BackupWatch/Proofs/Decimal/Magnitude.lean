import BackupWatch.Proofs.Decimal.Rounding

/-!
Magnitudes of floating-point numbers. Of a sum or a product it is often enough to know a power of
two that it stays below, whatever its sign: rounding does not more than double a number, and what
stays below 2^1024 is finite.
-/

namespace BackupWatch.Decimal

open Float.Model Float.Model.UnpackedFloat

/-- A finite number whose absolute value is below `2 ^ k`, in the form that is packed. -/
inductive Within (k : ℤ) : UnpackedFloat → Prop
  | zero (s : Sign) : Within k (.zero s)
  | finite (s : Sign) {m : ℕ} {e : ℤ} (hpos : 0 < m) (hm : m < 9007199254740992)
      (hlow : -1074 ≤ e) (hhigh : e ≤ k - 53) (hfull : 4503599627370496 ≤ m ∨ e = -1074) :
      Within k (.finite s m e hpos)

theorem Within.mono {j k : ℤ} {f : UnpackedFloat} (h : Within j f) (hle : j ≤ k) : Within k f := by
  cases h with
  | zero s => exact .zero s
  | finite s hpos hm hlow hhigh hfull => exact .finite s hpos hm hlow (by omega) hfull

theorem Within.unpack_pack {k : ℤ} {f : UnpackedFloat} (h : Within k f) (hk : k ≤ 1024) :
    (pack f).unpack = f := by
  cases h with
  | zero s => exact unpack_packedZero
  | finite s hpos hm hlow hhigh hfull =>
    exact unpack_pack_finite s hpos hm hlow (by omega) hfull

theorem value_lt {m : ℕ} {e k : ℤ} (hm : m < 9007199254740992) (he : e ≤ k - 53) :
    (m : ℚ) * 2 ^ e < 2 ^ k := by
  have hmost : (m : ℚ) < 2 ^ (53 : ℤ) := by norm_num; exact_mod_cast hm
  calc (m : ℚ) * 2 ^ e < 2 ^ (53 : ℤ) * 2 ^ e := mul_lt_mul_of_pos_right hmost (two_zpow_pos e)
    _ = 2 ^ (53 + e) := (two_zpow_add 53 e).symm
    _ ≤ 2 ^ k := two_zpow_le (by omega)

/-! ## Rounding -/

/-- A rounded mantissa that may have been carried is packed below the next power of two. -/
theorem within_carry (s : Sign) {r : ℕ} {e k : ℤ} (hcarry : r ≤ 9007199254740992)
    (hfull : 4503599627370496 ≤ r ∨ e = -1074) (hmin : -1074 ≤ e) (hmax : e ≤ k - 54) :
    Within k
      (if h : (shiftToTargetExponent .binary64 r e .exact).1.mantissa = 0 then .zero s
      else .finite s (shiftToTargetExponent .binary64 r e .exact).1.mantissa
        (shiftToTargetExponent .binary64 r e .exact).2 (Nat.pos_of_ne_zero h)) := by
  obtain hless | rfl := hcarry.lt_or_eq
  · simp only [shiftToTargetExponent_rounded hless hmin]
    split
    · exact .zero s
    · exact .finite s _ hless hmin (by omega) hfull
  · simp only [shiftToTargetExponent_carried hmin]
    rw [dif_neg (by decide)]
    exact .finite s (by decide) (by decide) (by omega) (by omega) (Or.inl (by decide))

/-- A mantissa that is shifted to all its digits, or to the least exponent, is rounded to as many
digits or carried once. -/
theorem rounded_of_shift {m shift : ℕ} (hmost : m.log2 ≤ shift + 52) :
    (ExtendedMantissa.ofMantissaAndAccuracy m .exact >>> shift).roundedMantissa ≤
        9007199254740992 ∧
      (m.log2 = shift + 52 → 4503599627370496 ≤
        (ExtendedMantissa.ofMantissaAndAccuracy m .exact >>> shift).roundedMantissa) := by
  have hrounded := ((describes_exact m).shiftRight shift).abs_rounded_sub_le
  generalize (ExtendedMantissa.ofMantissaAndAccuracy m .exact >>> shift).roundedMantissa = r
    at hrounded ⊢
  obtain ⟨hunder, hover⟩ := abs_le.mp hrounded
  have hunit : (0 : ℚ) < 2 ^ shift := by positivity
  constructor
  · have hless : m < 9007199254740992 * 2 ^ shift := by
      calc m < 2 ^ (m.log2 + 1) := Nat.lt_log2_self
        _ ≤ 2 ^ (53 + shift) := Nat.pow_le_pow_right (by decide) (by omega)
        _ = 9007199254740992 * 2 ^ shift := by rw [pow_add]; norm_num
    have hquotient : (m : ℚ) / 2 ^ shift < 9007199254740992 :=
      (div_lt_iff₀ hunit).mpr (by exact_mod_cast hless)
    have hr : (r : ℚ) < 9007199254740993 := by linarith
    exact Nat.lt_succ_iff.mp (by exact_mod_cast hr)
  · intro hlog
    have hleast : 4503599627370496 * 2 ^ shift ≤ m := by
      obtain rfl | hpos := Nat.eq_zero_or_pos m
      · rw [Nat.log2_zero] at hlog
        omega
      · calc 4503599627370496 * 2 ^ shift = 2 ^ (52 + shift) := by rw [pow_add]; norm_num
          _ = 2 ^ m.log2 := by rw [hlog, Nat.add_comm]
          _ ≤ m := Nat.log2_self_le hpos.ne'
    have hquotient : (4503599627370496 : ℚ) ≤ m / 2 ^ shift :=
      (le_div_iff₀ hunit).mpr (by exact_mod_cast hleast)
    have hr : (4503599627370495 : ℚ) < r := by linarith
    exact Nat.succ_le_iff.mpr (by exact_mod_cast hr)

/-- Rounding can carry a number past one power of two at most. -/
theorem within_roundWithAccuracy (s : Sign) {m : ℕ} {e k : ℤ} (hk : -1021 ≤ k)
    (htotal : (m.log2 : ℤ) + 1 + e ≤ k) (he : e ≤ max ((m.log2 : ℤ) + e - 52) (-1074)) :
    Within (k + 1) (roundWithAccuracy .binary64 s m e .exact) := by
  obtain ⟨shift, hshift⟩ : ∃ shift : ℕ, max ((m.log2 : ℤ) + e - 52) (-1074) = e + shift :=
    ⟨(max ((m.log2 : ℤ) + e - 52) (-1074) - e).toNat, by omega⟩
  have hmost : m.log2 ≤ shift + 52 := by omega
  have htoNat : (max ((m.log2 : ℤ) + e - 52) (-1074) - e).toNat = shift := by omega
  obtain ⟨hcarry, hfull⟩ := rounded_of_shift hmost
  rw [roundWithAccuracy, shiftToTargetExponent_eq .exact htoNat]
  exact within_carry s hcarry (by omega) (by omega) (by omega)

/-- A number below `2 ^ k` is rounded below `2 ^ (k + 1)`, and so to a finite one. -/
theorem within_round (s : Sign) {m : ℕ} {e k : ℤ} (hpos : 0 < m) (hk : -1021 ≤ k)
    (h : (m : ℚ) * 2 ^ e < 2 ^ k) : Within (k + 1) (UnpackedFloat.round .binary64 s m e) := by
  have htotal := lt_of_two_zpow_lt ((binade_mantissa hpos e).1.trans_lt h)
  have htarget := targetExponent_eq m e
  unfold UnpackedFloat.round
  generalize Format.targetExponent .binary64 (totalExponent m e) = target at htarget ⊢
  have hless := decreaseExponent_le m e target
  have hvalue := decreaseExponent_value m e target
  dsimp only
  generalize (decreaseExponent m e target).1 = n at hvalue ⊢
  generalize (decreaseExponent m e target).2 = d at hvalue hless ⊢
  have hn : 0 < n := by
    refine Nat.pos_of_ne_zero fun hzero => ?_
    rw [hzero, Nat.cast_zero, zero_mul] at hvalue
    exact (mul_pos (by exact_mod_cast hpos) (two_zpow_pos e)).ne hvalue
  have hsame : (n.log2 : ℤ) + 1 + d = m.log2 + 1 + e :=
    binade_unique (binade_mantissa hn d) (by rw [hvalue]; exact binade_mantissa hpos e)
  exact within_roundWithAccuracy s hk (by omega) (by omega)

/-! ## Sums and products -/

/-- The bound of a product is the product of the bounds, and a carry. -/
theorem Within.mul {j k : ℤ} {f g : UnpackedFloat} (hf : Within j f) (hg : Within k g)
    (hjk : -1021 ≤ j + k) : Within (j + k + 1) (UnpackedFloat.mul .binary64 f g) := by
  cases hf with
  | zero s =>
    cases hg with
    | zero t => exact .zero (s * t)
    | finite t => exact .zero (s * t)
  | @finite s m e hpos hm hlow hhigh hfull =>
    cases hg with
    | zero t => exact .zero (s * t)
    | @finite t n d hpos' hn hlow' hhigh' hfull' =>
      have hmost : (m * n).log2 < 106 := by
        refine (Nat.log2_lt (Nat.mul_pos hpos hpos').ne').mpr ?_
        calc m * n < 9007199254740992 * 9007199254740992 := Nat.mul_lt_mul'' hm hn
          _ = 2 ^ 106 := by norm_num
      have hleast : 4503599627370496 ≤ m * n → 52 ≤ (m * n).log2 := fun h =>
        (Nat.le_log2 (Nat.mul_pos hpos hpos').ne').mpr h
      -- without all digits in either factor there is no lesser exponent to round to
      have hexponent : 52 ≤ (m * n).log2 ∨ e + d ≤ -1074 := by
        rcases hfull with hm' | rfl
        · exact Or.inl (hleast (hm'.trans (Nat.le_mul_of_pos_right m hpos')))
        · rcases hfull' with hn' | rfl
          · exact Or.inl (hleast (hn'.trans (Nat.le_mul_of_pos_left n hpos)))
          · exact Or.inr (by decide)
      exact within_roundWithAccuracy (s * t) hjk (by omega) (by omega)

/-- The sign plays no part in how large a number is after rounding. -/
theorem within_normalize {n : ℤ} {e k : ℤ} (t : Sign) (hk : -1021 ≤ k)
    (h : (n.natAbs : ℚ) * 2 ^ e < 2 ^ k) :
    Within (k + 1) (UnpackedFloat.normalize .binary64 n e t) := by
  unfold UnpackedFloat.normalize
  rcases horder : compare n 0 with _ | _ | _
  · have hneg := Int.compare_eq_lt.mp horder
    exact within_round .negative (by omega) hk (by rwa [show (-n).toNat = n.natAbs by omega])
  · exact .zero t
  · have hpos := Int.compare_eq_gt.mp horder
    exact within_round .positive (by omega) hk (by rwa [show n.toNat = n.natAbs by omega])

/-- The bound of a sum is twice that of its terms, and a carry. -/
theorem Within.add {k : ℤ} {f g : UnpackedFloat} (hf : Within k f) (hg : Within k g)
    (hk : -1021 ≤ k) : Within (k + 2) (UnpackedFloat.add .binary64 f g) := by
  have hle : k ≤ k + 2 := by omega
  cases hf with
  | zero s =>
    cases hg with
    | zero t => cases s <;> cases t <;> exact .zero _
    | finite t hpos' hn hlow' hhigh' hfull' =>
      exact (Within.finite t hpos' hn hlow' hhigh' hfull').mono hle
  | @finite s m e hpos hm hlow hhigh hfull =>
    cases hg with
    | zero t => exact (Within.finite s hpos hm hlow hhigh hfull).mono hle
    | @finite t n d hpos' hn hlow' hhigh' hfull' =>
      have hx := decreaseExponent_value m e (min e d)
      have hy := decreaseExponent_value n d (min e d)
      rw [decreaseExponent_exponent _ (min_le_left e d)] at hx
      rw [decreaseExponent_exponent _ (min_le_right e d)] at hy
      have hless : ((s.apply ((decreaseExponent m e (min e d)).1 : ℤ) +
          t.apply ((decreaseExponent n d (min e d)).1 : ℤ)).natAbs : ℚ) * 2 ^ min e d <
            2 ^ (k + 1) := by
        generalize (decreaseExponent m e (min e d)).1 = m' at hx ⊢
        generalize (decreaseExponent n d (min e d)).1 = n' at hy ⊢
        have hsum : (s.apply (m' : ℤ) + t.apply (n' : ℤ)).natAbs ≤ m' + n' := by
          cases s <;> cases t <;> simp only [Sign.apply] <;> omega
        calc ((s.apply (m' : ℤ) + t.apply (n' : ℤ)).natAbs : ℚ) * 2 ^ min e d
            ≤ (m' + n') * 2 ^ min e d :=
              mul_le_mul_of_nonneg_right (by exact_mod_cast hsum) (two_zpow_pos _).le
          _ = m * 2 ^ e + n * 2 ^ d := by rw [add_mul, hx, hy]
          _ < 2 ^ k + 2 ^ k := add_lt_add (value_lt hm hhigh) (value_lt hn hhigh')
          _ = 2 ^ (k + 1) := by rw [two_zpow_add, zpow_one, mul_two]
      rw [show k + 2 = k + 1 + 1 by omega]
      exact within_normalize .positive (by omega) hless

/-! ## Packed numbers -/

def Small (k : ℤ) (x : Float) : Prop := Within k x.toModel.unpack

theorem Small.mul {j k : ℤ} {x y : Float} (hx : Small j x) (hy : Small k y)
    (hlow : -1021 ≤ j + k) (hhigh : j + k < 1024) : Small (j + k + 1) (x * y) := by
  have hproduct := Within.mul hx hy hlow
  have hunpack := hproduct.unpack_pack (by omega)
  unfold Small
  exact hunpack.symm ▸ hproduct

theorem Small.add {k : ℤ} {x y : Float} (hx : Small k x) (hy : Small k y) (hlow : -1021 ≤ k)
    (hhigh : k ≤ 1022) : Small (k + 2) (x + y) := by
  have hsum := Within.add hx hy hlow
  have hunpack := hsum.unpack_pack (by omega)
  unfold Small
  exact hunpack.symm ▸ hsum

theorem Small.mono {j k : ℤ} {x : Float} (h : Small j x) (hle : j ≤ k) : Small k x :=
  Within.mono h hle

/-- The mantissa that is unpacked has all digits, or the exponent is the least. -/
theorem shape_of_unpack {bits : BitVec (Format.numBits .binary64)} {s : Sign} {m : ℕ} {e : ℤ}
    {hpos : 0 < m} (h : UnpackedFloat.unpack .binary64 bits = .finite s m e hpos) :
    m < 9007199254740992 ∧ -1074 ≤ e ∧ (4503599627370496 ≤ m ∨ e = -1074) := by
  unfold UnpackedFloat.unpack at h
  have hdigits : (unpackMantissa bits).toNat < 4503599627370496 := (unpackMantissa bits).isLt
  have hall : (1#1 ++ unpackMantissa bits).toNat =
      4503599627370496 + (unpackMantissa bits).toNat := by
    rw [BitVec.toNat_append, ← Nat.shiftLeft_add_eq_or_of_lt hdigits]
    rfl
  dsimp only at h
  split at h
  · split at h <;> cases h
  · split at h
    · next hleast =>
      split at h
      · cases h
      · cases h
        refine ⟨by omega, ?_, Or.inr ?_⟩ <;> rw [hleast] <;> rfl
    · next hmore =>
      have hexponent : 0 < (unpackExponent bits).toNat :=
        Nat.pos_of_ne_zero fun hzero => hmore (BitVec.toNat_inj.mp hzero)
      cases h
      refine ⟨by omega, ?_, Or.inl (by omega)⟩
      change -1074 ≤ ((unpackExponent bits).toNat : ℤ) - 1075
      omega

theorem le_iff_unpack {x y : Float} : x ≤ y ↔ x.toModel.unpack.le y.toModel.unpack = true := by
  change decide (x.toModel.unpack.le y.toModel.unpack = true) = true ↔ _
  exact decide_eq_true_iff

theorem lt_iff_unpack {x y : Float} : x < y ↔ x.toModel.unpack.lt y.toModel.unpack = true := by
  change decide (x.toModel.unpack.lt y.toModel.unpack = true) = true ↔ _
  exact decide_eq_true_iff

theorem small_of_unpack {x : Float} {s : Sign} {m : ℕ} {e k : ℤ} {hpos : 0 < m}
    (h : x.toModel.unpack = .finite s m e hpos) (he : e ≤ k - 53) : Small k x := by
  obtain ⟨hm, hmin, hfull⟩ := shape_of_unpack h
  unfold Small
  rw [h]
  exact .finite s hpos hm hmin he hfull

theorem unpack_one :
    (1.0 : Float).toModel.unpack = .finite .positive 4503599627370496 (-52) (by decide) := rfl

/-- Between -1 and 1 there is no infinite number, and what is no number compares with none. -/
theorem small_of_le {x : Float} (hlow : -1.0 ≤ x) (hhigh : x ≤ 1.0) : Small 1 x := by
  have hminus : (-1.0 : Float).toModel.unpack =
    .finite .negative 4503599627370496 (-52) (by decide) := rfl
  rw [le_iff_unpack, hminus, UnpackedFloat.le] at hlow
  rw [le_iff_unpack, unpack_one, UnpackedFloat.le] at hhigh
  cases hx : x.toModel.unpack with
  | notANumber =>
    rw [hx] at hlow
    cases hlow
  | infinity s =>
    rw [hx] at hlow hhigh
    cases s with
    | positive => cases hhigh
    | negative => cases hlow
  | zero s =>
    unfold Small
    rw [hx]
    exact .zero s
  | finite s m e hpos =>
    rw [hx] at hlow hhigh
    refine small_of_unpack hx (not_lt.mp fun hgreat => ?_)
    cases s with
    | positive =>
      have horder : compare e (-52) = .gt := Int.compare_eq_gt.mpr hgreat
      simp [UnpackedFloat.compare, horder] at hhigh
    | negative =>
      have horder : compare (-52) e = .lt := Int.compare_eq_lt.mpr hgreat
      simp [UnpackedFloat.compare, horder] at hlow

/-- A small number is what its parts are packed into. -/
theorem Small.eq_pack {k : ℤ} {x : Float} (h : Small k x) (hk : k ≤ 1024) :
    x = ⟨pack x.toModel.unpack⟩ := by
  obtain ⟨⟨⟨bits⟩, hvalid⟩⟩ := x
  have hround := Within.unpack_pack h hk
  have hpack : UnpackedFloat.pack .binary64 (UnpackedFloat.unpack .binary64 bits) = _ :=
    UnpackedFloat.pack_unpack _
  change Within k (UnpackedFloat.unpack .binary64 bits) at h
  change UnpackedFloat.unpack .binary64 (UnpackedFloat.pack .binary64
    (UnpackedFloat.unpack .binary64 bits)) = UnpackedFloat.unpack .binary64 bits at hround
  split at hpack
  -- what is no number may be packed otherwise, but is not small
  · rw [hpack, unpack_packedNaN] at hround
    rw [← hround] at h
    cases h
  · have hmodel : (⟨⟨bits⟩, hvalid⟩ : Float.Model) =
        pack (Float.Model.unpack ⟨⟨bits⟩, hvalid⟩) := by
      unfold Float.Model.pack Float.Model.unpack
      simp only [hpack]
    exact congrArg Float.ofModel hmodel

/-- A small number above zero stands for its value. -/
theorem Small.isValue {k : ℤ} {x : Float} (h : Small k x) (hk : k ≤ 1024) (hpos : 0.0 < x) :
    ∃ v, IsValue x v ∧ v < 2 ^ k := by
  have hzero : (0.0 : Float).toModel.unpack = .zero .positive := rfl
  have heq := h.eq_pack hk
  rw [lt_iff_unpack, hzero] at hpos
  unfold Small at h
  generalize x.toModel.unpack = f at h hpos heq
  cases h with
  | zero s => cases hpos
  | finite s hm' hm hlow hhigh hfull =>
    cases s with
    | positive =>
      exact ⟨_, ⟨_, .finite hm' hm hlow (by omega) hfull, heq⟩, value_lt hm hhigh⟩
    | negative => cases hpos

end BackupWatch.Decimal
