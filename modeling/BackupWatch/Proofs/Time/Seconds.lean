import BackupWatch.Proofs.Decimal.Rounding
import BackupWatch.Time.Seconds

/-!
Lengths of time and floating-point seconds. A length that was read from floating-point seconds is
read back from its own seconds: below 2^23 seconds these are off by less than half a nanosecond,
and from there on they are the number that the length was read from.
-/

namespace BackupWatch.Time

open Decimal

/-! ## Rounding to nanoseconds -/

/-- Rounding moves a fraction by at most one half. -/
theorem abs_roundHalfEven_sub_le (num : ℕ) {den : ℕ} (hden : 0 < den) :
    |(roundHalfEven num den : ℚ) - num / den| ≤ 1 / 2 := by
  have hpos : (0 : ℚ) < den := by exact_mod_cast hden
  have hnum : (num : ℚ) = den * (num / den : ℕ) + (num % den : ℕ) := by
    exact_mod_cast (Nat.div_add_mod num den).symm
  have hrest : num % den < den := Nat.mod_lt num hden
  rw [← mul_le_mul_iff_left₀ hpos, ← abs_of_pos hpos, ← abs_mul, sub_mul, abs_of_pos hpos,
    div_mul_cancel₀ _ hpos.ne', hnum, roundHalfEven]
  generalize num / den = q
  generalize num % den = r at hrest ⊢
  have hrest' : (r : ℚ) < den := by exact_mod_cast hrest
  have hr : (0 : ℚ) ≤ r := r.cast_nonneg
  split_ifs with hbelow habove
  · have : (2 * r : ℚ) < den := by exact_mod_cast hbelow
    rw [abs_le]
    constructor <;> linarith
  · have : (den : ℚ) < 2 * r := by exact_mod_cast habove
    rw [abs_le]
    push_cast
    constructor <;> linarith
  · have : (2 * r : ℚ) = den := by exact_mod_cast (by omega : 2 * r = den)
    have hlast : ((q % 2 : ℕ) : ℚ) = 0 ∨ ((q % 2 : ℕ) : ℚ) = 1 := by
      obtain h | h := Nat.mod_two_eq_zero_or_one q <;> simp [h]
    rw [abs_le]
    push_cast at hlast ⊢
    obtain h | h := hlast <;> rw [h] <;> constructor <;> linarith

/-- A fraction closer than one half to a number is rounded to it. -/
theorem roundHalfEven_eq {num den n : ℕ} (hden : 0 < den) (h : |(num / den : ℚ) - n| < 1 / 2) :
    roundHalfEven num den = n := by
  have hclose := abs_roundHalfEven_sub_le num hden
  have hless : |(roundHalfEven num den : ℚ) - n| < 1 := by
    calc |(roundHalfEven num den : ℚ) - n|
        ≤ |(roundHalfEven num den : ℚ) - num / den| + |(num / den : ℚ) - n| := abs_sub_le _ _ _
      _ < 1 := by linarith
  have hsame : (roundHalfEven num den : ℤ) - n = 0 :=
    Int.abs_lt_one_iff.mp (by exact_mod_cast hless)
  omega

theorem roundHalfEven_mul (num den : ℕ) {c : ℕ} (hc : 0 < c) :
    roundHalfEven (num * c) (den * c) = roundHalfEven num den := by
  simp only [roundHalfEven, Nat.mul_div_mul_right _ _ hc, Nat.mul_mod_mul_right, ← Nat.mul_assoc,
    Nat.mul_lt_mul_right hc]

/-- Equal fractions are rounded alike. -/
theorem roundHalfEven_congr {num den num' den' : ℕ} (hden : 0 < den) (hden' : 0 < den')
    (h : (num / den : ℚ) = num' / den') : roundHalfEven num den = roundHalfEven num' den' := by
  have hpos : (den : ℚ) ≠ 0 := by exact_mod_cast hden.ne'
  have hpos' : (den' : ℚ) ≠ 0 := by exact_mod_cast hden'.ne'
  have hcross : num * den' = num' * den := by
    rw [div_eq_div_iff hpos hpos'] at h
    exact_mod_cast h
  rw [← roundHalfEven_mul num den hden', hcross, Nat.mul_comm den, roundHalfEven_mul _ _ hden]

def nanosecondsIn (m : ℕ) (e : ℤ) : ℕ :=
  roundHalfEven ((m <<< e.toNat) * 1000000000) (1 <<< (-e).toNat)

theorem quotient_eq (m : ℕ) (e : ℤ) :
    (((m <<< e.toNat) * 1000000000 : ℕ) : ℚ) / (1 <<< (-e).toNat : ℕ) =
      m * 2 ^ e * 1000000000 := by
  have hexponent : (2 : ℚ) ^ e = 2 ^ e.toNat / 2 ^ (-e).toNat := by
    rw [← zpow_natCast, ← zpow_natCast, ← zpow_sub₀ (by norm_num)]
    congr 1
    omega
  rw [Nat.shiftLeft_eq, Nat.shiftLeft_eq, hexponent]
  push_cast
  ring

theorem one_shiftLeft_pos (n : ℕ) : 0 < 1 <<< n := by
  rw [Nat.shiftLeft_eq]
  positivity

theorem abs_nanosecondsIn_sub_le (m : ℕ) (e : ℤ) :
    |(nanosecondsIn m e : ℚ) - m * 2 ^ e * 1000000000| ≤ 1 / 2 := by
  rw [← quotient_eq]
  exact abs_roundHalfEven_sub_le _ (one_shiftLeft_pos _)

/-- A number of seconds is read as the number of nanoseconds that it is closest to. -/
theorem nanosecondsIn_eq {m n : ℕ} {e : ℤ}
    (h : |(m : ℚ) * 2 ^ e * 1000000000 - n| < 1 / 2) : nanosecondsIn m e = n := by
  rw [← quotient_eq] at h
  exact roundHalfEven_eq (one_shiftLeft_pos _) h

/-- Two binary forms of one number are the same duration. -/
theorem nanosecondsIn_congr {m n : ℕ} {e d : ℤ} (h : (m : ℚ) * 2 ^ e = n * 2 ^ d) :
    nanosecondsIn m e = nanosecondsIn n d :=
  roundHalfEven_congr (one_shiftLeft_pos _) (one_shiftLeft_pos _) (by
    rw [quotient_eq, quotient_eq, h])

theorem nanosecondsIn_zero (e : ℤ) : nanosecondsIn 0 e = 0 :=
  nanosecondsIn_eq (by norm_num)

namespace Duration

theorem ofSeconds?_of_ofFloat {x : Float} {m : ℕ} {e : ℤ}
    (h : Binary.ofFloat x = .finite false m e)
    (hless : nanosecondsIn m e < 18446744073709551616 * 1000000000) :
    ofSeconds? x = .ok ⟨nanosecondsIn m e⟩ := by
  rw [ofSeconds?, h]
  dsimp only
  split
  · next hzero => rw [hzero, nanosecondsIn_zero]
  · unfold nanosecondsIn at hless ⊢
    simp only [Bool.false_eq_true, if_false, if_pos hless]

/-- A length is read from a number that is not negative, and is the nearest to it. -/
theorem exists_of_ofSeconds?_eq_ok {x : Float} {d : Duration} (h : ofSeconds? x = .ok d) :
    ∃ (m : ℕ) (e : ℤ), m < 9007199254740992 ∧ d.nanoseconds = nanosecondsIn m e ∧
      d.nanoseconds < 18446744073709551616 * 1000000000 := by
  unfold ofSeconds? at h
  cases hx : Binary.ofFloat x with
  | nan => rw [hx] at h; cases h
  | infinite negative => rw [hx] at h; cases h
  | finite negative m e =>
    rw [hx] at h
    dsimp only at h
    split at h
    · next hzero =>
      cases h
      exact ⟨0, 0, by decide, (nanosecondsIn_zero 0).symm, by decide⟩
    · split at h
      · cases h
      · split at h
        · next hless =>
          cases h
          exact ⟨m, e, Binary.mantissa_lt hx, rfl, hless⟩
        · cases h

theorem ofSeconds?_of_isValue {x : Float} {v : ℚ} {d : Duration} (hx : IsValue x v)
    (hd : d.nanoseconds < 18446744073709551616 * 1000000000)
    (h : ∀ (m : ℕ) (e : ℤ), v = m * 2 ^ e → nanosecondsIn m e = d.nanoseconds) :
    ofSeconds? x = .ok d := by
  obtain ⟨m, e, hread, rfl⟩ := hx.ofFloat
  have hsame := h m e rfl
  rw [ofSeconds?_of_ofFloat hread (hsame ▸ hd), hsame]

/-! ## Seconds and their fraction -/

theorem isValue_billion : IsValue 1e9 1000000000 := by
  have hvalue : (1000000000 : ℚ) = (8388608000000000 : ℕ) * 2 ^ (-23 : ℤ) := by norm_num
  rw [hvalue]
  exact ⟨_, .finite (by decide) (by decide) (by decide) (by decide) (by decide), rfl⟩

theorem isValue_toUInt64 {n : ℕ} (h : n < 9007199254740992) : IsValue n.toUInt64.toFloat n := by
  have hword : n.toUInt64.toNat = n := UInt64.toNat_ofNat_of_lt' (by
    unfold UInt64.size
    omega)
  have hvalue := isValue_toFloat_of_lt (n := n.toUInt64) (hword.trans_lt h)
  rwa [hword] at hvalue

/-- The fraction of a second is off by 2^-54 at most. -/
theorem exists_fraction {n : ℕ} (hn : n < 1000000000) :
    ∃ q, IsValue (n.toUInt64.toFloat / 1e9) q ∧ |q - n / 1000000000| ≤ 2 ^ (-54 : ℤ) ∧
      (n = 0 → q = 0) := by
  obtain rfl | hpos := Nat.eq_zero_or_pos n
  · exact ⟨0, ⟨_, .zero, rfl⟩, by norm_num, fun _ => rfl⟩
  · have hleast : (1 : ℚ) ≤ n := by exact_mod_cast hpos
    have hmost : (n : ℚ) < 1000000000 := by exact_mod_cast hn
    have hunder : (n : ℚ) / 1000000000 < 2 ^ (0 : ℤ) := by
      rw [zpow_zero, div_lt_one (by norm_num)]
      exact hmost
    have hnormal : Normal ((n : ℚ) / 1000000000) := by
      refine normal_of_bounds ?_ (hunder.le.trans (two_zpow_le (by decide)))
      rw [le_div_iff₀ (by norm_num)]
      norm_num
      linarith
    obtain ⟨q, hq, hnearest⟩ := (isValue_toUInt64 (by omega)).div isValue_billion hnormal
    exact ⟨q, hq, hnearest.abs_sub_le hnormal hunder, fun hzero => by omega⟩

theorem subsecond_lt (d : Duration) : d.subsecond < 1000000000 := Nat.mod_lt _ (by decide)

theorem nanoseconds_eq (d : Duration) :
    (d.nanoseconds : ℚ) = d.seconds * 1000000000 + d.subsecond := by
  exact_mod_cast (Nat.div_add_mod' d.nanoseconds 1000000000).symm

theorem toNat_seconds {d : Duration} (hd : d.nanoseconds < 18446744073709551616 * 1000000000) :
    d.seconds.toUInt64.toNat = d.seconds :=
  UInt64.toNat_ofNat_of_lt' (Nat.div_lt_of_lt_mul (by rwa [Nat.mul_comm]))

/-- The seconds of a length are rounded once from a sum that is hardly off. -/
theorem exists_sum {d : Duration} (hpos : 0 < d.nanoseconds)
    (hless : d.seconds < 9007199254740992) :
    ∃ v y : ℚ, (d.seconds ≤ v ∧ v < d.seconds + 1) ∧
      |v * 1000000000 - d.nanoseconds| ≤ 1 / 16777216 ∧ Normal v ∧
      IsValue d.toSeconds y ∧ Nearest v y := by
  obtain ⟨q, hq, hclose, -⟩ := exists_fraction d.subsecond_lt
  have hsplit := nanoseconds_eq d
  have hrest : (d.subsecond : ℚ) ≤ 999999999 := by exact_mod_cast Nat.le_of_lt_succ d.subsecond_lt
  have hleast : (1 : ℚ) ≤ d.nanoseconds := by exact_mod_cast hpos
  have hmost : (d.seconds : ℚ) < 9007199254740992 := by exact_mod_cast hless
  norm_num at hclose
  rw [abs_le] at hclose
  have hbelow : (d.seconds : ℚ) + q < d.seconds + 1 := by linarith
  have hnormal : Normal (d.seconds + q) := by
    refine normal_of_bounds ?_ (hbelow.le.trans ?_) <;> norm_num <;> linarith
  obtain ⟨y, hy, hnearest⟩ := (isValue_toUInt64 hless).add hq hnormal
  refine ⟨d.seconds + q, y, ⟨by linarith [hq.nonneg], hbelow⟩, ?_, hnormal, hy, hnearest⟩
  rw [abs_le]
  constructor <;> linarith

/-- Below 2^23 seconds the seconds of a length are off by less than half a nanosecond. -/
theorem short_seconds {d : Duration} (hshort : d.seconds < 8388608) :
    ∃ y, IsValue d.toSeconds y ∧ |y * 1000000000 - d.nanoseconds| < 1 / 2 := by
  obtain hzero | hpos := Nat.eq_zero_or_pos d.nanoseconds
  · obtain ⟨_⟩ := d
    cases hzero
    exact ⟨0, ⟨_, .zero, rfl⟩, by norm_num⟩
  · obtain ⟨v, y, ⟨-, hbelow⟩, hclose, hnormal, hy, hnearest⟩ := exists_sum hpos (by omega)
    have hseconds : (d.seconds : ℚ) + 1 ≤ 8388608 := by exact_mod_cast hshort
    have hless : v < 2 ^ (23 : ℤ) := hbelow.trans_le (by norm_num; linarith)
    have hsum := hnearest.abs_sub_le hnormal hless
    norm_num at hsum
    refine ⟨y, hy, ?_⟩
    rw [abs_le] at hclose hsum
    rw [abs_lt]
    constructor <;> linarith

/-- From 2^23 seconds on a number that a length was read from is at least the power of two below
its seconds, and so a multiple of the last digit of these. -/
theorem exists_multiple_of_long {d : Duration} {m : ℕ} {e : ℤ} (hm : m < 9007199254740992)
    (hread : |(d.nanoseconds : ℚ) - m * 2 ^ e * 1000000000| ≤ 1 / 2) {k : ℤ} (hk : 24 ≤ k)
    (hlow : (2 : ℚ) ^ (k - 1) ≤ d.seconds) : ∃ j : ℕ, (m : ℚ) * 2 ^ e = j * 2 ^ (k - 53) := by
  have hsplit := nanoseconds_eq d
  have hrest : (0 : ℚ) ≤ d.subsecond := Nat.cast_nonneg _
  have hunder : (2 : ℚ) ^ (k - 1) - 1 / 2000000000 ≤ m * 2 ^ e := by
    rw [abs_le] at hread
    linarith
  refine exists_multiple hm (not_lt.mp fun hless => ?_)
  -- below the power of two the numbers lie closer together, but not so close
  have hgap : (1 : ℚ) / 2000000000 < 2 ^ (k - 54) :=
    lt_of_lt_of_le (by norm_num) (two_zpow_le (by omega : -30 ≤ k - 54))
  have hhalf : (2 : ℚ) ^ (k - 1) = 2 ^ (k - 2) + 2 ^ (k - 2) := by
    rw [show k - 1 = k - 2 + 1 by omega, two_zpow_add]
    norm_num
    ring
  have hone : (1 : ℚ) ≤ 2 ^ (k - 2) := one_le_zpow₀ one_le_two (by omega)
  obtain ⟨j, hj⟩ := exists_multiple (e := e) (k := k - 1) hm (by
    rw [show k - 1 - 1 = k - 2 by omega]
    linarith)
  rw [show k - 1 - 53 = k - 54 by omega] at hj
  have hpower : (2 : ℚ) ^ (k - 1) = (9007199254740992 : ℕ) * 2 ^ (k - 54) := by
    rw [show k - 1 = 53 + (k - 54) by omega, two_zpow_add]
    norm_num
  have hunit := two_zpow_pos (k - 54)
  rw [hj, hpower] at hunder hless
  generalize (2 : ℚ) ^ (k - 54) = unit at hunder hless hunit hgap
  have hclose : |(j : ℚ) * unit - (9007199254740992 : ℕ) * unit| < unit := by
    generalize ((9007199254740992 : ℕ) : ℚ) * unit = power at hunder hless ⊢
    generalize (j : ℚ) * unit = value at hunder hless ⊢
    rw [abs_lt]
    constructor <;> linarith
  rw [multiple_unique hunit hclose] at hless
  exact lt_irrefl _ hless

/-- A duration within half a nanosecond of a whole second is that second. -/
theorem whole_of_close {d : Duration} {n : ℕ}
    (h : |(d.nanoseconds : ℚ) - n * 1000000000| ≤ 1 / 2) : d.seconds = n ∧ d.subsecond = 0 := by
  have hless : |(d.nanoseconds : ℤ) - n * 1000000000| < 1 := by
    refine (Int.cast_lt (R := ℚ)).mp ?_
    rw [Int.cast_abs, Int.cast_sub, Int.cast_mul, Int.cast_natCast, Int.cast_natCast,
      Int.cast_ofNat, Int.cast_one]
    exact h.trans_lt (by norm_num)
  have hsame := Int.abs_lt_one_iff.mp hless
  unfold seconds subsecond
  omega

section Long

variable {d : Duration} {digits j : ℕ}

/-- While the last digit is less than a second, the seconds and their fraction sum up to within half
of it and a half nanosecond, so that no other multiple of it is as close. -/
theorem fractional_seconds (hdigits : 23 ≤ digits) (hfew : digits < 52)
    (hlow : 2 ^ digits ≤ d.seconds) (hhigh : d.seconds < 2 ^ (digits + 1))
    (hread : |(d.nanoseconds : ℚ) - j * 2 ^ ((digits : ℤ) - 52) * 1000000000| ≤ 1 / 2) :
    IsValue d.toSeconds (j * 2 ^ ((digits : ℤ) - 52)) := by
  have hless : d.seconds < 9007199254740992 :=
    hhigh.trans_le (Nat.pow_le_pow_right (by decide) (by omega : digits + 1 ≤ 53))
  have hpos : 0 < d.nanoseconds := by
    have hsome := (Nat.two_pow_pos digits).trans_le hlow
    exact Nat.pos_of_ne_zero fun hzero => by simp [seconds, hzero] at hsome
  obtain ⟨v, y, ⟨hover, hbelow⟩, hclose, -, hy, hnearest⟩ := exists_sum hpos hless
  have hlow' : (2 : ℚ) ^ (digits : ℤ) ≤ d.seconds := by exact_mod_cast hlow
  have hnext : (d.seconds : ℚ) + 1 ≤ 2 ^ ((digits : ℤ) + 1) := by exact_mod_cast hhigh
  obtain ⟨hsum, i, rfl⟩ := hnearest (digits + 1)
    (by rw [add_sub_cancel_right]; exact hlow'.trans hover) (hbelow.trans_le hnext)
  rw [show (digits : ℤ) + 1 - 53 = digits - 52 by omega] at hy hsum
  have hhalf : (2 : ℚ) ^ ((digits : ℤ) - 52) = 2 * 2 ^ ((digits : ℤ) + 1 - 54) := by
    rw [show (digits : ℤ) - 52 = 1 + ((digits : ℤ) + 1 - 54) by omega, two_zpow_add, zpow_one]
  have hgap : (1 : ℚ) / 1073741824 ≤ 2 ^ ((digits : ℤ) + 1 - 54) :=
    le_trans (by norm_num) (two_zpow_le (by omega : -30 ≤ (digits : ℤ) + 1 - 54))
  have hsame : i = j := by
    refine multiple_unique (two_zpow_pos ((digits : ℤ) - 52)) ?_
    generalize (i : ℚ) * 2 ^ ((digits : ℤ) - 52) = y at hsum ⊢
    generalize (j : ℚ) * 2 ^ ((digits : ℤ) - 52) = x at hread ⊢
    rw [hhalf]
    rw [abs_le] at hsum hclose hread
    rw [abs_lt]
    constructor <;> linarith
  rwa [← hsame]

/-- From 2^52 seconds on the number is whole, and so is the length. -/
theorem whole_seconds (hd : d.nanoseconds < 18446744073709551616 * 1000000000)
    (hmany : 52 ≤ digits) (hlow : 2 ^ digits ≤ d.seconds) (hhigh : d.seconds < 2 ^ (digits + 1))
    (hread : |(d.nanoseconds : ℚ) - j * 2 ^ ((digits : ℤ) - 52) * 1000000000| ≤ 1 / 2) :
    IsValue d.toSeconds (j * 2 ^ ((digits : ℤ) - 52)) := by
  have hword := toNat_seconds hd
  obtain ⟨shift, hshift⟩ : ∃ shift : ℕ, (digits : ℤ) - 52 = shift := ⟨digits - 52, by omega⟩
  have hwhole : (j : ℚ) * 2 ^ ((digits : ℤ) - 52) = (j * 2 ^ shift : ℕ) := by
    rw [hshift, zpow_natCast]
    push_cast
    rfl
  rw [hwhole] at hread ⊢
  obtain ⟨hseconds, hnone⟩ := whole_of_close hread
  obtain ⟨q, hq, -, hzero⟩ := exists_fraction d.subsecond_lt
  obtain rfl := hzero hnone
  rw [← hseconds] at hwhole ⊢
  have hmultiple : (d.seconds : ℚ) = j * 2 ^ ((digits : ℤ) + 1 - 53) := by
    rw [show (digits : ℤ) + 1 - 53 = digits - 52 by omega, hwhole]
  have hlow' : (2 : ℚ) ^ ((digits : ℤ) + 1 - 1) ≤ d.seconds := by
    rw [add_sub_cancel_right]
    exact_mod_cast hlow
  have hhigh' : (d.seconds : ℚ) < 2 ^ ((digits : ℤ) + 1) := by exact_mod_cast hhigh
  have hz := isValue_toFloat_of_multiple (n := d.seconds.toUInt64) (hword.symm ▸ hlow')
    (hword.symm ▸ hhigh') (hword.symm ▸ hmultiple)
  rw [hword] at hz
  have hnormal : Normal ((d.seconds : ℚ) + 0) := by
    have hmost : (d.seconds : ℚ) < 2 ^ (64 : ℤ) := by
      exact_mod_cast hword ▸ d.seconds.toUInt64.toNat_lt
    rw [add_zero]
    exact normal_of_bounds ((two_zpow_le (by omega)).trans hlow') hmost.le
  obtain ⟨y, hy, hsum⟩ := hz.add hq hnormal
  rw [add_zero] at hsum
  rwa [hsum.eq_of_multiple hlow' hhigh' hmultiple] at hy

end Long

/-- The seconds of a length of 2^23 seconds or more are the number that it was read from. -/
theorem long_seconds {d : Duration} {m : ℕ} {e : ℤ} (hm : m < 9007199254740992)
    (hd : d.nanoseconds < 18446744073709551616 * 1000000000)
    (hread : |(d.nanoseconds : ℚ) - m * 2 ^ e * 1000000000| ≤ 1 / 2)
    (hlong : 8388608 ≤ d.seconds) : IsValue d.toSeconds (m * 2 ^ e) := by
  obtain ⟨digits, hlow, hhigh⟩ :
      ∃ digits : ℕ, 2 ^ digits ≤ d.seconds ∧ d.seconds < 2 ^ (digits + 1) :=
    ⟨d.seconds.log2, Nat.log2_self_le (by omega), Nat.lt_log2_self⟩
  have hdigits : 23 ≤ digits := by
    have hpower : 2 ^ 23 < 2 ^ (digits + 1) := lt_of_le_of_lt hlong hhigh
    exact Nat.lt_succ_iff.mp ((Nat.pow_lt_pow_iff_right (by decide)).mp hpower)
  obtain ⟨j, hj⟩ := exists_multiple_of_long (k := digits + 1) hm hread (by omega) (by
    rw [add_sub_cancel_right]
    exact_mod_cast hlow)
  rw [show (digits : ℤ) + 1 - 53 = digits - 52 by omega] at hj
  rw [hj] at hread ⊢
  obtain hfew | hmany := Nat.lt_or_ge digits 52
  · exact fractional_seconds hdigits hfew hlow hhigh hread
  · exact whole_seconds hd hmany hlow hhigh hread

/-- A length that was read from floating-point seconds is read back from its own. -/
theorem ofSeconds?_toSeconds {x : Float} {d : Duration} (h : ofSeconds? x = .ok d) :
    ofSeconds? d.toSeconds = .ok d := by
  obtain ⟨m, e, hm, hread, hd⟩ := exists_of_ofSeconds?_eq_ok h
  obtain hshort | hlong := Nat.lt_or_ge d.seconds 8388608
  · obtain ⟨y, hy, hclose⟩ := short_seconds hshort
    exact ofSeconds?_of_isValue hy hd fun n f hn => nanosecondsIn_eq (hn ▸ hclose)
  · have hclose := abs_nanosecondsIn_sub_le m e
    rw [← hread] at hclose
    exact ofSeconds?_of_isValue (long_seconds hm hd hclose hlong) hd fun n f hn =>
      (nanosecondsIn_congr hn.symm).trans hread.symm

end Duration
end BackupWatch.Time
