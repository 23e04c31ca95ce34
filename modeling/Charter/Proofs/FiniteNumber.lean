import Charter.Proofs.Numeral

/-!
Which numbers are finite. Neither the sign nor the fraction decides it, and a decimal is read as a finite number
exactly if its value is below the midpoint between the largest finite number and the power of two behind it.
-/

namespace Charter

namespace Binary64
open Float.Model (Format UnpackedFloat)
open Float.Model.UnpackedFloat

-- To negate a number is to change its sign, and nothing else of its bits.
theorem pack_neg (x : UnpackedFloat) : ∃ sign sign' scale fraction,
    pack Format.binary64 x = packComponents Format.binary64 sign scale fraction ∧
      pack Format.binary64 x.neg = packComponents Format.binary64 sign' scale fraction := by
  cases x with
  | notANumber => exact ⟨_, _, _, _, rfl, rfl⟩
  | infinity sign => exact ⟨_, _, _, _, rfl, rfl⟩
  | zero sign => exact ⟨_, _, _, _, rfl, rfl⟩
  | finite sign mantissa exponent positive =>
      unfold neg pack
      dsimp only
      split
      · exact ⟨_, _, _, _, rfl, rfl⟩
      · split
        · exact ⟨_, _, _, _, rfl, rfl⟩
        · exact ⟨_, _, _, _, rfl, rfl⟩

theorem magnitude_neg (x : Float) : (-x).toBits.toNat % signPlace = x.toBits.toNat % signPlace := by
  obtain ⟨sign, sign', scale, fraction, same, negated⟩ := pack_neg x.toModel.unpack
  have own : x.toBits.toNat = (packComponents Format.binary64 sign scale fraction).toNat := by
    rw [← same]
    exact congrArg BitVec.toNat (pack_unpack_of_valid x.toModel.valid).symm
  have other : (-x).toBits.toNat = (packComponents Format.binary64 sign' scale fraction).toNat :=
    congrArg BitVec.toNat negated
  have upper : scale.toNat < 2 ^ 11 := scale.isLt
  have lower : fraction.toNat < 2 ^ 52 := fraction.isLt
  have dropped (sign : Sign) : (packComponents Format.binary64 sign scale fraction).toNat % signPlace =
      scale.toNat * 2 ^ 52 + fraction.toNat := by
    rw [toNat_packComponents]
    unfold signPlace
    omega
  rw [own, other, dropped, dropped]

theorem isFinite_eq (x : Float) : isFinite x = (x.toBits.toNat % signPlace / mantissaPlace != 2047) := by
  unfold isFinite read
  dsimp only
  by_cases full : (x.toBits.toNat % signPlace / mantissaPlace == 2047) = true
  · rw [if_pos full, bne, full]
    by_cases whole : (x.toBits.toNat % signPlace % mantissaPlace == 0) = true
    · rw [if_pos whole]; rfl
    · rw [if_neg whole]; rfl
  · rw [if_neg full, bne, Bool.eq_false_of_not_eq_true full]
    by_cases least : (x.toBits.toNat % signPlace / mantissaPlace == 0) = true
    · rw [if_pos least]; rfl
    · rw [if_neg least]; rfl

theorem isFinite_neg (x : Float) : isFinite (-x) = isFinite x := by rw [isFinite_eq, isFinite_eq, magnitude_neg]

-- The magnitudes below that of infinity are finite.
theorem isFinite_ofMagnitude {negative : Bool} {magnitude : Nat} (bound : magnitude ≤ infinityPattern) :
    isFinite (ofMagnitude negative magnitude) = true ↔ magnitude < infinityPattern := by
  have bits : (ofMagnitude negative magnitude).toBits.toNat = (if negative then 2 ^ 63 else 0) + magnitude :=
    toBits_ofMagnitude bound
  rw [isFinite_eq, bits, bne_iff_ne]
  unfold signPlace mantissaPlace
  unfold infinityPattern mantissaPlace at bound ⊢
  cases negative <;> simp <;> omega

section Rounding
variable {num den k : Nat} {exponent : Int}

-- A quotient is rounded up from the middle on, where the number above is even.
theorem roundQuotient_lt (positive : 0 < den) (even : k % 2 = 0) :
    roundQuotient num den < k ↔ 2 * num + den < 2 * (den * k) := by
  have parts : den * (num / den) + num % den = num := Nat.div_add_mod num den
  have small : num % den < den := Nat.mod_lt num positive
  unfold roundQuotient
  dsimp only
  generalize num / den = floor at parts
  generalize num % den = rest at parts small
  rcases Nat.lt_trichotomy (floor + 1) k with below | next | above
  · have room : den * (floor + 2) ≤ den * k := Nat.mul_le_mul_left den below
    rw [Nat.mul_add] at room
    split <;> [skip; split] <;> omega
  · subst next
    rw [Nat.mul_add]
    split <;> [skip; split] <;> omega
  · have room : den * k ≤ den * floor := Nat.mul_le_mul_left den (Nat.le_of_lt_succ above)
    split <;> [skip; split] <;> omega

theorem scaled_positive (positive : 0 < den) : 0 < (scaled num den exponent).2 := by
  unfold scaled
  split
  · rw [Nat.shiftLeft_eq]; positivity
  · exact positive

theorem scaled_ratio : ((scaled num den exponent).1 / (scaled num den exponent).2 : ℚ) = num / den / 2 ^ exponent := by
  unfold scaled
  split
  · next grows =>
    obtain ⟨n, rfl⟩ := Int.eq_ofNat_of_zero_le grows
    simp [Nat.shiftLeft_eq, div_div]
  · next shrinks =>
    obtain ⟨n, rfl⟩ : ∃ n : Nat, exponent = -(n : Int) := ⟨(-exponent).toNat, by omega⟩
    simp [Nat.shiftLeft_eq]
    ring

-- The binary logarithms tell a ratio up to a factor of two on either side.
theorem log_ratio (positive : 0 < num) (positive' : 0 < den) :
    (2 : ℚ) ^ ((num.log2 : Int) - den.log2 - 1) < num / den ∧
      (num / den : ℚ) < 2 ^ ((num.log2 : Int) - den.log2 + 1) := by
  have low : (2 ^ num.log2 : ℚ) ≤ num := by exact_mod_cast Nat.log2_self_le positive.ne'
  have high : (num : ℚ) < 2 ^ (num.log2 + 1) := by exact_mod_cast Nat.lt_log2_self
  have low' : (2 ^ den.log2 : ℚ) ≤ den := by exact_mod_cast Nat.log2_self_le positive'.ne'
  have high' : (den : ℚ) < 2 ^ (den.log2 + 1) := by exact_mod_cast Nat.lt_log2_self
  have some : (0 : ℚ) < den := by exact_mod_cast positive'
  constructor
  · rw [show (num.log2 : Int) - den.log2 - 1 = num.log2 - (den.log2 + 1 : Nat) by push_cast; ring,
      zpow_sub₀ two_ne_zero, zpow_natCast, zpow_natCast, div_lt_div_iff₀ (by positivity) some]
    exact mul_lt_mul_of_le_of_lt_of_nonneg_of_pos low high' (by positivity) (by positivity)
  · rw [show (num.log2 : Int) - den.log2 + 1 = (num.log2 + 1 : Nat) - den.log2 by push_cast; ring,
      zpow_sub₀ two_ne_zero, zpow_natCast, zpow_natCast, div_lt_div_iff₀ some (by positivity)]
    exact mul_lt_mul_of_lt_of_le_of_pos_of_nonneg high low' (by positivity) (by positivity)

theorem quotient_lt {bound : Nat} :
    (scaled num den exponent).1 / (scaled num den exponent).2 < bound ↔ (num / den : ℚ) < bound * 2 ^ exponent := by
  have whole := Nat.floor_div_eq_div (K := ℚ) (scaled num den exponent).1 (scaled num den exponent).2
  have power : (0 : ℚ) < 2 ^ exponent := by positivity
  rw [← whole, scaled_ratio, Nat.floor_lt (by positivity), div_lt_iff₀ power]

-- An exponent at which the quotient of a ratio has 53 bits, or fewer at the least exponent.
structure RoundsAt (num den : Nat) (exponent : Int) : Prop where
  least : -1074 ≤ exponent
  upper : (num / den : ℚ) < 2 ^ (exponent + 53)
  lower : -1074 < exponent → 2 ^ (exponent + 52) ≤ (num / den : ℚ)

theorem nearestMagnitude_rounds (positive : 0 < num) (positive' : 0 < den) : ∃ exponent, RoundsAt num den exponent ∧
    nearestMagnitude num den = min ((exponent + 1074).toNat * mantissaPlace +
      roundQuotient (scaled num den exponent).1 (scaled num den exponent).2) infinityPattern := by
  obtain ⟨above, below⟩ := log_ratio positive positive'
  have mono {a b : Int} (le : a ≤ b) : (2 : ℚ) ^ a ≤ 2 ^ b := zpow_le_zpow_right₀ one_le_two le
  let guess : Int := (num.log2 : Int) - den.log2 - 53
  have wide : (scaled num den guess).1 / (scaled num den guess).2 < 2 * mantissaPlace ↔
      (num / den : ℚ) < 2 ^ (guess + 53) := by
    rw [quotient_lt, zpow_add₀ two_ne_zero, mul_comm]
    norm_num [mantissaPlace]
  have unfolded : nearestMagnitude num den = (
      let exponent := max (if (scaled num den guess).1 / (scaled num den guess).2 < 2 * mantissaPlace then guess
        else guess + 1) (-1074)
      min ((exponent + 1074).toNat * mantissaPlace +
        roundQuotient (scaled num den exponent).1 (scaled num den exponent).2) infinityPattern) := by
    unfold nearestMagnitude
    rw [if_neg (by simpa using positive.ne')]
  refine ⟨_, ?_, unfolded⟩
  split
  · next narrow =>
    refine ⟨le_max_right _ _, (wide.mp narrow).trans_le (mono (by omega)), fun more => ?_⟩
    exact (mono (by omega)).trans above.le
  · next full =>
    have full' := not_lt.mp (mt wide.mpr full)
    refine ⟨le_max_right _ _, below.trans_le (mono (by omega)), fun more => ?_⟩
    exact (mono (by omega)).trans full'

theorem rounded_lt (positive : 0 < den) (even : k % 2 = 0) :
    roundQuotient (scaled num den exponent).1 (scaled num den exponent).2 < k ↔
      (num / den : ℚ) < (k - 1 / 2) * 2 ^ exponent := by
  have below : 0 < (scaled num den exponent).2 := scaled_positive positive
  have some : (0 : ℚ) < (scaled num den exponent).2 := by exact_mod_cast below
  have power : (0 : ℚ) < 2 ^ exponent := by positivity
  rw [roundQuotient_lt below even, ← div_lt_iff₀ power, ← scaled_ratio, div_lt_iff₀ some,
    ← Nat.cast_lt (α := ℚ)]
  push_cast
  constructor <;> intro less <;> linarith

-- The midpoint between the largest finite number and the power of two behind it.
def overflow : ℚ := (2 ^ 54 - 1) * 2 ^ (970 : Int)

theorem one_lt_overflow : 1 < overflow := by
  have unit : (1 : ℚ) ≤ 2 ^ (970 : Int) := one_le_zpow₀ one_le_two (by decide)
  unfold overflow
  generalize (2 : ℚ) ^ (970 : Int) = unit at *
  norm_num
  linarith

theorem overflow_lt : overflow < 10 ^ (400 : Int) := by
  have unit : (0 : ℚ) < 2 ^ (970 : Int) := by positivity
  calc overflow < 2 ^ (54 : Int) * 2 ^ (970 : Int) := mul_lt_mul_of_pos_right (by norm_num) unit
    _ = 2 ^ (1024 : Int) := (zpow_add₀ two_ne_zero 54 970).symm
    _ ≤ 2 ^ (1200 : Int) := zpow_le_zpow_right₀ one_le_two (by decide)
    _ = (2 ^ (3 : Int)) ^ (400 : Int) := zpow_mul 2 3 400
    _ ≤ 10 ^ (400 : Int) := zpow_le_zpow_left₀ (by decide) (by positivity) (by norm_num)

-- From the midpoint on, a ratio is rounded to infinity. The last exponent decides: ratios of lesser ones are finite,
-- and those of greater ones are not.
theorem nearestMagnitude_lt_infinity (positive : 0 < den) :
    nearestMagnitude num den < infinityPattern ↔ (num / den : ℚ) < overflow := by
  rcases Nat.eq_zero_or_pos num with rfl | some
  · have none : nearestMagnitude 0 den = 0 := if_pos rfl
    rw [none, Nat.cast_zero, zero_div]
    exact iff_of_true (by decide) (zero_lt_one.trans one_lt_overflow)
  obtain ⟨exponent, ⟨least, upper, lower⟩, rounded⟩ := nearestMagnitude_rounds some positive
  have rounds (k : Nat) := @rounded_lt num den k exponent positive
  have capped (m : Nat) : min m infinityPattern < infinityPattern ↔ m < infinityPattern := by omega
  rw [rounded, capped]
  generalize roundQuotient (scaled num den exponent).1 (scaled num den exponent).2 = mantissa at rounds
  unfold infinityPattern mantissaPlace overflow
  rw [zpow_add₀ two_ne_zero] at upper lower
  generalize (num / den : ℚ) = ratio at *
  have unit : (0 : ℚ) < 2 ^ (970 : Int) := by positivity
  have power : (0 : ℚ) < 2 ^ exponent := by positivity
  rcases lt_trichotomy exponent 971 with small | same | large
  · have top : (2 : ℚ) ^ exponent ≤ 2 ^ (970 : Int) := zpow_le_zpow_right₀ one_le_two (Int.le_of_lt_add_one small)
    generalize (2 : ℚ) ^ exponent = place at *
    generalize (2 : ℚ) ^ (970 : Int) = last at *
    have few : mantissa < 2 ^ 53 + 2 := (rounds (2 ^ 53 + 2) (by decide)).mpr (by norm_num at upper ⊢; linarith)
    exact iff_of_true (by omega) (by norm_num at upper ⊢; linarith)
  · have double : (2 : ℚ) ^ exponent = 2 ^ (970 : Int) * 2 := by rw [same]; exact zpow_add_one₀ two_ne_zero 970
    have middle := rounds (2 ^ 53) (by decide)
    rw [double] at middle
    generalize (2 : ℚ) ^ (970 : Int) = last at middle ⊢
    have half : ((2 ^ 53 : Nat) - 1 / 2) * (last * 2) = (2 ^ 54 - 1) * last := by push_cast; ring
    rw [← half, ← middle]
    omega
  · have bottom : (2 : ℚ) ^ ((970 : Int) + 2) ≤ 2 ^ exponent := zpow_le_zpow_right₀ one_le_two large
    rw [zpow_add₀ two_ne_zero] at bottom
    have enough := lower (by omega)
    generalize (2 : ℚ) ^ exponent = place at *
    generalize (2 : ℚ) ^ (970 : Int) = last at *
    norm_num at enough bottom
    have many : ¬ mantissa < 2 ^ 52 := fun less => by
      have below := (rounds (2 ^ 52) (by decide)).mp less
      norm_num at below
      linarith
    exact iff_of_false (by omega) (by norm_num; linarith)

end Rounding

theorem isFinite_ofRatio {negative : Bool} {num den : Nat} (positive : 0 < den) :
    isFinite (ofRatio negative num den) = true ↔ (num / den : ℚ) < overflow :=
  (isFinite_ofMagnitude (nearestMagnitude_bounded num den)).trans (nearestMagnitude_lt_infinity positive)

end Binary64

namespace Decimal
open Binary64 Text

-- The decimal digits tell a number up to a factor of ten.
theorem length_digits {n : Nat} (positive : 0 < n) :
    10 ^ ((toString n).length - 1) ≤ n ∧ n < 10 ^ (toString n).length ∧ 0 < (toString n).length := by
  have digits : (toString n).length = (Nat.toDigits 10 n).length := by
    rw [← String.length_toList]
    exact congrArg List.length Nat.toList_repr
  rw [digits]
  have some := Nat.length_toDigits_pos (b := 10) (n := n)
  refine ⟨?_, (Nat.length_toDigits_le_iff (by decide) some).mp le_rfl, some⟩
  rcases Nat.eq_or_lt_of_le some with one | more
  · rw [← one]; exact positive
  · by_contra less
    have shorter := (Nat.length_toDigits_le_iff (b := 10) (by decide) (Nat.sub_pos_of_lt more)).mpr (not_le.mp less)
    omega

-- Its digits and its exponent tell a decimal up to a factor of ten.
theorem decimal_bounds {mantissa : Nat} (positive : 0 < mantissa) (exponent : Int) :
    (10 : ℚ) ^ ((toString mantissa).length + exponent - 1) ≤ mantissa * 10 ^ exponent ∧
      (mantissa * 10 ^ exponent : ℚ) < 10 ^ ((toString mantissa).length + exponent) := by
  obtain ⟨low, high, some⟩ := length_digits positive
  have low' : (10 ^ ((toString mantissa).length - 1) : ℚ) ≤ mantissa := by exact_mod_cast low
  have high' : (mantissa : ℚ) < 10 ^ (toString mantissa).length := by exact_mod_cast high
  have ten : (10 : ℚ) ≠ 0 := by norm_num
  have power : (0 : ℚ) < 10 ^ exponent := by positivity
  constructor
  · have less : ((toString mantissa).length : Int) - 1 = ((toString mantissa).length - 1 : Nat) := by omega
    rw [add_sub_right_comm, less, zpow_add₀ ten, zpow_natCast]
    exact mul_le_mul_of_nonneg_right low' power.le
  · rw [zpow_add₀ ten, zpow_natCast]
    exact mul_lt_mul_of_pos_right high' power

theorem powerOfTen_ratio (exponent : Int) :
    0 < (powerOfTen exponent).2 ∧ ((powerOfTen exponent).1 / (powerOfTen exponent).2 : ℚ) = 10 ^ exponent := by
  unfold powerOfTen
  split
  · next grows =>
    obtain ⟨n, rfl⟩ := Int.eq_ofNat_of_zero_le grows
    simp
  · next shrinks =>
    obtain ⟨n, rfl⟩ : ∃ n : Nat, exponent = -(n : Int) := ⟨(-exponent).toNat, by omega⟩
    simp

-- A decimal is read as a finite number exactly if its value is below the midpoint: what is left out for being tiny or
-- huge does not change that.
theorem isFinite_nearest {negative : Bool} {mantissa : Nat} {exponent : Int} :
    isFinite (nearest negative mantissa exponent) = true ↔ (mantissa * 10 ^ exponent : ℚ) < overflow := by
  have zero : isFinite (ofMagnitude negative 0) = true := (isFinite_ofMagnitude (Nat.zero_le _)).mpr (by decide)
  have above := zero_lt_one.trans one_lt_overflow
  have mono {a b : Int} (le : a ≤ b) : (10 : ℚ) ^ a ≤ 10 ^ b := zpow_le_zpow_right₀ (by norm_num) le
  rcases Nat.eq_zero_or_pos mantissa with rfl | positive
  · have none : ((0 : Nat) * 10 ^ exponent : ℚ) = 0 := by simp
    rw [none]
    exact iff_of_true zero above
  obtain ⟨low, high⟩ := decimal_bounds positive exponent
  unfold nearest
  dsimp only
  generalize ((toString mantissa).length : Int) + exponent = top at low high ⊢
  split
  · next tiny =>
    have small : top ≤ 0 := by simp [positive.ne'] at tiny; omega
    exact iff_of_true zero (high.trans_le ((mono small).trans (by simpa using one_lt_overflow.le)))
  · split
    · next huge =>
      have infinite : ¬ isFinite (ofMagnitude negative infinityPattern) = true := fun finite =>
        absurd ((isFinite_ofMagnitude le_rfl).mp finite) (Nat.lt_irrefl _)
      have large := (mono (Int.le_sub_one_of_lt huge)).trans low
      exact iff_of_false infinite (not_lt.mpr (overflow_lt.le.trans large))
    · obtain ⟨down, ratio⟩ := powerOfTen_ratio exponent
      rw [isFinite_ofRatio down, ← ratio, Nat.cast_mul, mul_div_assoc]

theorem ofDigits_lt {digits : List Char} (each : ∀ c ∈ digits, isDigit c = true) :
    ofDigits digits < 10 ^ digits.length := by
  induction digits using List.reverseRecOn with
  | nil => exact Nat.one_pos
  | append_singleton before last ih =>
      obtain ⟨first, digit⟩ := List.forall_mem_append.mp each
      have bounds : last.toNat ≤ 57 :=
        of_decide_eq_true (Bool.and_eq_true_iff.mp (digit last (List.mem_singleton.mpr rfl))).2
      have small := ih first
      rw [ofDigits, List.foldl_append, List.length_append, List.length_singleton, Nat.pow_succ]
      change 10 * ofDigits before + (last.toNat - 48) < _
      omega

-- Digits with a fraction, and no exponent.
theorem unsigned_plain {whole fraction : List Char} (digits : IsDigits whole) (part : IsFraction fraction) :
    unsigned? false (whole ++ fraction) =
      some (nearest false (ofDigits (whole ++ fraction.tail)) (-(fraction.tail.length : Int))) := by
  have read := unsigned_numeral digits part (.inl rfl) (rfl : exponent? [] = some 0)
  rwa [List.append_nil, Int.zero_sub] at read

theorem lt_overflow : (10 : ℚ) ^ 308 < overflow := by
  have whole : 10 ^ 308 < (2 ^ 54 - 1) * 2 ^ 970 := by decide +kernel
  have power : (2 : ℚ) ^ (970 : Int) = 2 ^ 970 := zpow_natCast 2 970
  have factor : ((2 ^ 54 - 1 : Nat) : ℚ) = 2 ^ 54 - 1 := by norm_num
  rw [overflow, power, ← factor]
  exact_mod_cast whole

-- A numeral with no exponent and no more than 308 digits before the point is finite.
theorem isFinite_short {text : String} {n : Float} {whole fraction : List Char} (digits : IsDigits whole)
    (part : IsFraction fraction) (short : whole.length ≤ 308) (form : text.toList = whole ++ fraction)
    (parsed : parse? text = some n) : isFinite n = true := by
  have numeral : IsNumeral text.toList := ⟨whole, fraction, [], digits, part, .inl rfl, by rw [form, List.append_nil]⟩
  rw [parse_numeral numeral, form, unsigned_plain digits part] at parsed
  cases parsed
  have places : ∀ c ∈ fraction.tail, isDigit c = true := by
    rcases part with rfl | ⟨places, ⟨_, each⟩, rfl⟩
    · exact List.forall_mem_nil _
    · exact each
  have bound := ofDigits_lt (List.forall_mem_append.mpr ⟨digits.2, places⟩)
  rw [List.length_append, Nat.pow_add] at bound
  have bound' : (ofDigits (whole ++ fraction.tail) : ℚ) < 10 ^ whole.length * 10 ^ fraction.tail.length := by
    exact_mod_cast bound
  have power : (0 : ℚ) < 10 ^ fraction.tail.length := by positivity
  rw [isFinite_nearest, zpow_neg, zpow_natCast, ← div_eq_mul_inv, div_lt_iff₀ power]
  have wide : (10 : ℚ) ^ whole.length ≤ 10 ^ 308 := pow_le_pow_right₀ (by norm_num) short
  exact bound'.trans_le (mul_le_mul_of_nonneg_right (wide.trans lt_overflow.le) power.le)

end Decimal
end Charter
