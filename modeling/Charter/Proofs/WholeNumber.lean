import Charter.Proofs.Magnitude

/-!
Whole numbers below `2 ^ 53` are exact as doubles: none of them rounds together with another whole number,
one more than such a number is the next one, and the integer that was put in is read out again.
-/

namespace Charter.Binary64
open Float.Model (Format UnpackedFloat)
open Float.Model.UnpackedFloat
variable {n : Nat}

-- The magnitude that a whole number rounds to. The quotient of the guess has a bit too many, so the
-- exponent is always one above the guess.
theorem nearestMagnitude_whole (positive : 0 < n) :
    nearestMagnitude n 1 = min ((n.log2 + 1022) * 2 ^ 52 +
      roundQuotient (scaled n 1 (n.log2 - 52)).1 (scaled n 1 (n.log2 - 52)).2) (2047 * 2 ^ 52) := by
  have least := Nat.log2_self_le positive.ne'
  have wide : ¬ (scaled n 1 (n.log2 - 53)).1 / (scaled n 1 (n.log2 - 53)).2 < 2 * mantissaPlace := by
    unfold scaled mantissaPlace
    split
    · next above =>
      have parts : 2 ^ n.log2 = 2 ^ 53 * 2 ^ (n.log2 - 53) := by rw [← Nat.pow_add]; congr 1; omega
      rw [Nat.not_lt, show ((n.log2 : Int) - 53).toNat = n.log2 - 53 by omega, Nat.shiftLeft_eq, Nat.one_mul,
        Nat.le_div_iff_mul_le (by positivity)]
      omega
    · next below =>
      have parts : 2 ^ n.log2 * 2 ^ (53 - n.log2) = 2 ^ 53 := by rw [← Nat.pow_add]; congr 1; omega
      have grown : 2 ^ n.log2 * 2 ^ (53 - n.log2) ≤ n * 2 ^ (53 - n.log2) := Nat.mul_le_mul_right _ least
      rw [Nat.not_lt, show (-((n.log2 : Int) - 53)).toNat = 53 - n.log2 by omega, Nat.shiftLeft_eq, Nat.div_one]
      omega
  have guess : (n.log2 : Int) - Nat.log2 1 - 53 = n.log2 - 53 := by
    rw [show Nat.log2 1 = 0 from rfl]
    omega
  unfold nearestMagnitude
  rw [if_neg (by simpa using positive.ne')]
  simp only [guess, if_neg wide]
  rw [show max ((n.log2 : Int) - 53 + 1) (-1074) = n.log2 - 52 by omega,
    show ((n.log2 : Int) - 52 + 1074).toNat = n.log2 + 1022 by omega]
  rfl

theorem nearestMagnitude_normal (positive : 0 < n) : Normal (nearestMagnitude n 1) := by
  rw [nearestMagnitude_whole positive]
  exact ⟨by omega, by omega⟩

-- A whole number with its leading bit moved to the place of the leading bit of a mantissa.
theorem mantissa_bounds (positive : 0 < n) (small : n < 2 ^ 53) :
    2 ^ 52 ≤ n * 2 ^ (52 - n.log2) ∧ n * 2 ^ (52 - n.log2) < 2 ^ 53 := by
  have log := (Nat.log2_lt positive.ne').mpr small
  constructor
  · calc 2 ^ 52 = 2 ^ n.log2 * 2 ^ (52 - n.log2) := by rw [← Nat.pow_add]; congr 1; omega
      _ ≤ n * 2 ^ (52 - n.log2) := Nat.mul_le_mul_right _ (Nat.log2_self_le positive.ne')
  · calc n * 2 ^ (52 - n.log2) < 2 ^ (n.log2 + 1) * 2 ^ (52 - n.log2) :=
          Nat.mul_lt_mul_of_pos_right Nat.lt_log2_self (by positivity)
      _ = 2 ^ 53 := by rw [← Nat.pow_add]; congr 1; omega

theorem nearestMagnitude_small (positive : 0 < n) (small : n < 2 ^ 53) :
    nearestMagnitude n 1 = (n.log2 + 1022) * 2 ^ 52 + n * 2 ^ (52 - n.log2) := by
  have log := (Nat.log2_lt positive.ne').mpr small
  have bounds := mantissa_bounds positive small
  have exact : scaled n 1 (n.log2 - 52) = (n * 2 ^ (52 - n.log2), 1) := by
    unfold scaled
    split
    · next full =>
      have top : n.log2 = 52 := by omega
      simp [top]
    · rw [show (-((n.log2 : Int) - 52)).toNat = 52 - n.log2 by omega, Nat.shiftLeft_eq]
  have rounded (m : Nat) : roundQuotient m 1 = m := by simp [roundQuotient, Nat.mod_one]
  rw [nearestMagnitude_whole positive, exact, rounded]
  omega

theorem nearestMagnitude_large (large : 2 ^ 53 ≤ n) : 1076 * 2 ^ 52 ≤ nearestMagnitude n 1 := by
  have positive : 0 < n := by omega
  have log : 53 ≤ n.log2 := (Nat.le_log2 positive.ne').mpr large
  have parts : 2 ^ n.log2 = 2 ^ 52 * 2 ^ (n.log2 - 52) := by rw [← Nat.pow_add]; congr 1; omega
  have quotient : scaled n 1 (n.log2 - 52) = (n, 2 ^ (n.log2 - 52)) := by
    unfold scaled
    rw [if_pos (by omega), show ((n.log2 : Int) - 52).toNat = n.log2 - 52 by omega, Nat.shiftLeft_eq, Nat.one_mul]
  have least : 2 ^ 52 ≤ n / 2 ^ (n.log2 - 52) := by
    rw [Nat.le_div_iff_mul_le (by positivity), ← parts]
    exact Nat.log2_self_le positive.ne'
  have rounded (m d : Nat) : m / d ≤ roundQuotient m d := by
    simp only [roundQuotient]
    split <;> [skip; split] <;> omega
  have bound := least.trans (rounded n (2 ^ (n.log2 - 52)))
  rw [nearestMagnitude_whole positive]
  simp only [quotient]
  omega

theorem nearestMagnitude_lt {m : Nat} (positive : 0 < n) (small : n < 2 ^ 53) (less : n < m) :
    nearestMagnitude n 1 < nearestMagnitude m 1 := by
  have log := (Nat.log2_lt positive.ne').mpr small
  obtain ⟨_, upper⟩ := mantissa_bounds positive small
  rw [nearestMagnitude_small positive small]
  by_cases large : 2 ^ 53 ≤ m
  · have above := nearestMagnitude_large large
    omega
  have positive' : 0 < m := by omega
  obtain ⟨lower, _⟩ := mantissa_bounds positive' (by omega)
  rw [nearestMagnitude_small positive' (by omega)]
  have logs : n.log2 ≤ m.log2 := (Nat.le_log2 positive'.ne').mpr ((Nat.log2_self_le positive.ne').trans less.le)
  rcases logs.eq_or_lt with same | more
  · rw [same]
    have moved := Nat.mul_lt_mul_of_pos_right less (show 0 < 2 ^ (52 - m.log2) by positivity)
    omega
  · omega

theorem unpack_ofInt {k : Int} (nonzero : k ≠ 0) :
    (ofInt k).toModel.unpack = number (k < 0) (nearestMagnitude k.natAbs 1) :=
  unpack_ofMagnitude (nearestMagnitude_normal (Int.natAbs_pos.mpr nonzero))

theorem unpack_ofInt_natCast (positive : 0 < n) : (ofInt n).toModel.unpack = number false (nearestMagnitude n 1) :=
  unpack_ofMagnitude (nearestMagnitude_normal positive)

theorem number_small (positive : 0 < n) (small : n < 2 ^ 53) (shifted : 0 < n * 2 ^ (52 - n.log2)) :
    number false (nearestMagnitude n 1) = .finite .positive (n * 2 ^ (52 - n.log2)) (n.log2 - 52) shifted := by
  have log := (Nat.log2_lt positive.ne').mpr small
  obtain ⟨lower, upper⟩ := mantissa_bounds positive small
  have magnitude := nearestMagnitude_small positive small
  unfold number
  rw [if_neg (by omega)]
  simp only [show 2 ^ 52 + nearestMagnitude n 1 % 2 ^ 52 = n * 2 ^ (52 - n.log2) by omega,
    show ((nearestMagnitude n 1 / 2 ^ 52 : Nat) : Int) - 1075 = n.log2 - 52 by omega]
  rfl

-- A double that equals a whole number other than zero is that number.
theorem ofInt_beq_iff {k : Int} (nonzero : k ≠ 0) {x : Float} : (ofInt k == x) = true ↔ x = ofInt k := by
  change (ofInt k).toModel.unpack.beq x.toModel.unpack = true ↔ _
  rw [unpack_ofInt nonzero, number_beq_iff, ← unpack_ofInt nonzero]
  refine ⟨fun same => ?_, fun same => congrArg (fun x : Float => x.toModel.unpack) same⟩
  have bits := (unpack_inj_of_valid x.toModel.valid (ofInt k).toModel.valid).mp same
  exact Float.toBits_inj.mp (UInt64.toBitVec_inj.mp bits)

-- Of two whole numbers one of which is below 2^53, the doubles are equal only if the numbers are.
theorem ofInt_beq {k : Int} (positive : 0 < n) (small : n < 2 ^ 53 ∨ k < 2 ^ 53) :
    (ofInt k == ofInt n) = decide (k = n) := by
  rw [BEq.comm, Bool.eq_iff_iff, decide_eq_true_iff, ofInt_beq_iff (by omega)]
  refine ⟨fun same => ?_, congrArg ofInt⟩
  have numbers := congrArg (fun x : Float => x.toModel.unpack) same
  simp only [unpack_ofInt_natCast positive] at numbers
  rcases Int.lt_trichotomy k 0 with below | rfl | above
  · rw [unpack_ofInt below.ne, decide_eq_true below] at numbers
    exact absurd numbers number_true_ne
  · exact absurd numbers.symm (number_ne_zero .positive)
  · obtain ⟨m, rfl⟩ := Int.eq_ofNat_of_zero_le above.le
    rw [unpack_ofInt_natCast (by omega), number_inj] at numbers
    rcases Nat.lt_trichotomy m n with less | equal | more
    · have := nearestMagnitude_lt (by omega) (by omega) less
      omega
    · rw [equal]
    · have := nearestMagnitude_lt positive (by omega) more
      omega

theorem ofInt_pos_iff {k : Int} : ofInt 0 < ofInt k ↔ 0 < k := by
  change decide (((UnpackedFloat.zero .positive).compare (ofInt k).toModel.unpack == some .lt) = true) = true ↔ _
  rw [decide_eq_true_iff, beq_iff_eq]
  by_cases zero : k = 0
  · subst zero
    exact iff_of_false nofun (lt_irrefl 0)
  · rw [unpack_ofInt zero, zero_compare_number]
    by_cases below : k < 0
    · rw [decide_eq_true below]
      exact iff_of_false nofun below.le.not_gt
    · rw [decide_eq_false below]
      exact iff_of_true rfl (by omega)

-- What equals a whole number is positive if the number is.
theorem ofInt_zero_lt_iff {x : Float} {k : Int} (same : (ofInt k == x) = true) : ofInt 0 < x ↔ 0 < k := by
  by_cases zero : k = 0
  · subst zero
    have equal : (UnpackedFloat.zero .positive).compare x.toModel.unpack = some .eq := beq_iff_eq.mp same
    change decide (((UnpackedFloat.zero .positive).compare x.toModel.unpack == some .lt) = true) = true ↔ _
    rw [equal]
    exact iff_of_false nofun (lt_irrefl 0)
  · rw [(ofInt_beq_iff zero).mp same]
    exact ofInt_pos_iff

section Sum

theorem shift_exact {m shift : Nat} :
    (⟨m * 2 ^ shift, false, false⟩ : ExtendedMantissa) >>> shift = ⟨m, false, false⟩ := by
  induction shift generalizing m with
  | zero => simp [HShiftRight.hShiftRight, Nat.repeat]
  | succ shift ih =>
      change ExtendedMantissa.shiftRightOne ((_ : ExtendedMantissa) >>> shift) = _
      rw [show m * 2 ^ (shift + 1) = 2 * m * 2 ^ shift by ring, ih]
      simp [ExtendedMantissa.shiftRightOne]

theorem targetExponent_shifted (positive : 0 < n) (shift : Nat) (exponent : Int) :
    Format.binary64.targetExponent (Float.Model.totalExponent (n * 2 ^ shift) exponent) =
      max (n.log2 + shift + exponent - 52) (-1074) := by
  have log : (n * 2 ^ shift).log2 = n.log2 + shift := by
    obtain ⟨least, most⟩ := (Nat.log2_eq_iff positive.ne').mp rfl
    refine (Nat.log2_eq_iff (by positivity)).mpr ⟨?_, ?_⟩
    · rw [Nat.pow_add]
      exact Nat.mul_le_mul_right _ least
    · rw [Nat.add_right_comm, Nat.pow_add]
      exact Nat.mul_lt_mul_of_pos_right most (by positivity)
  unfold Format.targetExponent Float.Model.totalExponent
  rw [log, show (Format.binary64.mantissaBits : Int) = 53 from rfl,
    show Format.binary64.minExponent = -1074 from rfl]
  push_cast
  congr 1
  ring

theorem shiftToTarget_exact (m shift : Nat) (exponent : Int)
    (target : Format.binary64.targetExponent (Float.Model.totalExponent (m * 2 ^ shift) exponent) =
      exponent + shift) :
    shiftToTargetExponent Format.binary64 (m * 2 ^ shift) exponent .exact =
      (⟨m, false, false⟩, exponent + shift) := by
  unfold shiftToTargetExponent shiftToExponent
  simp only [target, show (exponent + shift - exponent).toNat = shift by omega]
  exact Prod.ext shift_exact rfl

theorem roundWithAccuracy_exact {mantissa rounded : Nat} {exponent last : Int}
    (first : shiftToTargetExponent Format.binary64 mantissa exponent .exact = (⟨rounded, false, false⟩, last))
    (second : shiftToTargetExponent Format.binary64 rounded last .exact = (⟨rounded, false, false⟩, last))
    (positive : 0 < rounded) :
    roundWithAccuracy Format.binary64 .positive mantissa exponent .exact =
      .finite .positive rounded last positive := by
  have exact : (⟨rounded, false, false⟩ : ExtendedMantissa).roundedMantissa = rounded := rfl
  unfold roundWithAccuracy
  simp only [first, exact, second, dif_neg positive.ne']

theorem aligned (small : n < 2 ^ 53) (positive : 0 < n) : n * 2 ^ (52 - n.log2) * 2 ^ n.log2 = n * 2 ^ 52 := by
  have log := (Nat.log2_lt positive.ne').mpr small
  rw [Nat.mul_assoc, ← Nat.pow_add]
  congr 2
  omega

-- A whole number below 2^53, in units of 2^-52, is rounded to itself.
theorem round_exact (positive : 0 < n) (small : n < 2 ^ 53) (shifted : 0 < n * 2 ^ (52 - n.log2)) :
    UnpackedFloat.round Format.binary64 .positive (n * 2 ^ 52) (-52) =
      .finite .positive (n * 2 ^ (52 - n.log2)) (n.log2 - 52) shifted := by
  have log := (Nat.log2_lt positive.ne').mpr small
  have target := targetExponent_shifted positive 52 (-52)
  have kept : decreaseExponent (n * 2 ^ 52) (-52) (n.log2 - 52) = (n * 2 ^ 52, -52) := by
    unfold decreaseExponent
    simp only [show ((-52 : Int) - (n.log2 - 52)).toNat = 0 by omega, Nat.shiftLeft_zero, Int.natCast_zero,
      Int.sub_zero]
  have first : shiftToTargetExponent Format.binary64 (n * 2 ^ 52) (-52) .exact =
      (.mk (n * 2 ^ (52 - n.log2)) false false, (n.log2 : Int) - 52) := by
    have parts := (aligned small positive).symm
    rw [parts, shiftToTarget_exact _ _ _ (by rw [← parts, target]; omega)]
    exact Prod.ext rfl (show (-52 : Int) + n.log2 = n.log2 - 52 by omega)
  have second : shiftToTargetExponent Format.binary64 (n * 2 ^ (52 - n.log2)) (n.log2 - 52) .exact =
      (.mk (n * 2 ^ (52 - n.log2)) false false, (n.log2 : Int) - 52) := by
    have settled := targetExponent_shifted positive (52 - n.log2) (n.log2 - 52)
    have whole := shiftToTarget_exact (n * 2 ^ (52 - n.log2)) 0 (n.log2 - 52)
    rw [Nat.pow_zero, Nat.mul_one] at whole
    rw [whole (by rw [settled]; omega)]
    exact Prod.ext rfl (show (n.log2 : Int) - 52 + (0 : Nat) = n.log2 - 52 by omega)
  unfold UnpackedFloat.round
  -- Evaluating powers here would turn the products into unary numbers.
  simp only [target, show max ((n.log2 : Int) + (52 : Nat) + -52 - 52) (-1074) = n.log2 - 52 by omega, kept,
    -Nat.reducePow]
  exact roundWithAccuracy_exact first second shifted

theorem add_one_eq_round (positive : 0 < n) (small : n + 1 < 2 ^ 53)
    (shifted : 0 < n * 2 ^ (52 - n.log2)) (one : 0 < 2 ^ 52) :
    UnpackedFloat.add Format.binary64 (.finite .positive (n * 2 ^ (52 - n.log2)) (n.log2 - 52) shifted)
      (.finite .positive (2 ^ 52) (-52) one) =
      UnpackedFloat.round Format.binary64 .positive ((n + 1) * 2 ^ 52) (-52) := by
  have smaller : min ((n.log2 : Int) - 52) (-52) = -52 := by omega
  have first : decreaseExponent (n * 2 ^ (52 - n.log2)) (n.log2 - 52) (-52) = (n * 2 ^ 52, -52) := by
    unfold decreaseExponent
    simp only [show ((n.log2 : Int) - 52 - -52).toNat = n.log2 by omega, Nat.shiftLeft_eq,
      aligned (by omega) positive, show (n.log2 : Int) - 52 - n.log2 = -52 by omega]
  have second (m : Nat) : decreaseExponent m (-52) (-52) = (m, -52) := by simp [decreaseExponent]
  have sum : Sign.positive.apply (n * 2 ^ 52 : Nat) + Sign.positive.apply (2 ^ 52 : Nat) =
      ((n + 1) * 2 ^ 52 : Nat) := by
    unfold Sign.apply
    push_cast
    ring
  have above : compare (((n + 1) * 2 ^ 52 : Nat) : Int) 0 = .gt := by
    rw [Int.compare_eq_gt]
    positivity
  unfold UnpackedFloat.add
  simp only [smaller, first, second, sum, UnpackedFloat.normalize, above, Int.toNat_natCast]

theorem ofInt_add_one (positive : 0 < n) (small : n + 1 < 2 ^ 53) :
    ofInt n + ofInt 1 = ofInt (n + 1 : Nat) := by
  have least : 0 < 2 ^ 52 := by positivity
  have left : (ofInt n).toModel.unpack = .finite .positive (n * 2 ^ (52 - n.log2)) (n.log2 - 52) (by positivity) :=
    (unpack_ofInt_natCast positive).trans (number_small positive (by omega) _)
  have right : (ofInt 1).toModel.unpack = .finite .positive (2 ^ 52) (-52) least := by
    have one := (unpack_ofInt_natCast one_pos).trans (number_small one_pos (by omega) (by positivity))
    simpa only [show Nat.log2 1 = 0 from rfl, Nat.sub_zero, Nat.one_mul, Int.natCast_zero, Int.zero_sub,
      Int.natCast_one] using one
  change Float.ofModel (.pack (UnpackedFloat.add Format.binary64 (ofInt n).toModel.unpack
    (ofInt 1).toModel.unpack)) = _
  rw [left, right, add_one_eq_round positive small, round_exact (Nat.succ_pos n) small (by positivity),
    ← number_small (Nat.succ_pos n) small]
  exact (ofMagnitude_eq (nearestMagnitude_normal (Nat.succ_pos n))).symm

end Sum

theorem safeInteger?_ofInt (positive : 0 < n) (small : n < 2 ^ 53) : safeInteger? (ofInt n) = some (n : Int) := by
  have log := (Nat.log2_lt positive.ne').mpr small
  obtain ⟨lower, upper⟩ := mantissa_bounds positive small
  have magnitude := nearestMagnitude_small positive small
  have taken : read (ofInt n) = .finite false (n * 2 ^ (52 - n.log2)) (n.log2 - 52) := by
    have normal : read (ofMagnitude false (nearestMagnitude n 1)) = _ :=
      read_ofMagnitude (nearestMagnitude_normal positive) (by omega)
    rw [show 2 ^ 52 + nearestMagnitude n 1 % 2 ^ 52 = n * 2 ^ (52 - n.log2) by omega,
      show ((nearestMagnitude n 1 / 2 ^ 52 : Nat) : Int) - 1075 = n.log2 - 52 by omega] at normal
    exact normal
  have ratio : scaled (n * 2 ^ (52 - n.log2)) 1 (-((n.log2 : Int) - 52)) =
      (n * 2 ^ (52 - n.log2), 2 ^ (52 - n.log2)) := by
    unfold scaled
    rw [if_pos (by omega), show (-((n.log2 : Int) - 52)).toNat = 52 - n.log2 by omega, Nat.shiftLeft_eq,
      Nat.one_mul]
  unfold safeInteger? integral?
  simp only [taken, ratio, Nat.mul_mod_left, Nat.mul_div_cancel _ (Nat.two_pow_pos _)]
  change (if n < 2 * mantissaPlace then some (n : Int) else none) = some (n : Int)
  rw [if_pos (by unfold mantissaPlace; omega)]

end Charter.Binary64
