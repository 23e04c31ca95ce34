import Charter.Number.Binary64
import Mathlib

/-!
The bits of a normal double, and the number that arithmetic takes them apart into. Sums and comparisons of
doubles go by that number.
-/

namespace Charter.Binary64
open Float.Model (Format UnpackedFloat)
open Float.Model.UnpackedFloat

section Packing
variable {sign : Sign} {scale : BitVec 11} {fraction : BitVec 52}

theorem toNat_append {high low : Nat} (upper : BitVec high) (lower : BitVec low) :
    (upper ++ lower).toNat = upper.toNat * 2 ^ low + lower.toNat := by
  rw [BitVec.toNat_append, ← Nat.shiftLeft_add_eq_or_of_lt lower.isLt, Nat.shiftLeft_eq]

theorem toNat_packComponents : (packComponents Format.binary64 sign scale fraction).toNat =
    sign.toBitVec.toNat * 2 ^ 63 + scale.toNat * 2 ^ 52 + fraction.toNat := by
  unfold packComponents
  rw [toNat_append, toNat_append]
  ring

theorem unpack_normal (lower : scale ≠ 0#11) (upper : scale ≠ -1#11) (positive : 0 < 2 ^ 52 + fraction.toNat) :
    unpack Format.binary64 (packComponents Format.binary64 sign scale fraction) =
      .finite sign (2 ^ 52 + fraction.toNat) (scale.toNat - 1075) positive := by
  unfold unpack
  simp only [unpackMantissa_packComponents, unpackExponent_packComponents, unpackSign_packComponents,
    Sign.ofBitVec_toBitVec, if_neg lower, if_neg upper, toNat_append]
  rfl

theorem unpack_infinite :
    unpack Format.binary64 (packComponents Format.binary64 sign (-1#11) 0#52) = .infinity sign := by
  unfold unpack
  simp only [unpackMantissa_packComponents, unpackExponent_packComponents, unpackSign_packComponents,
    Sign.ofBitVec_toBitVec, if_true]

end Packing

-- The magnitudes of normal numbers and of infinity.
structure Normal (magnitude : Nat) : Prop where
  lower : 2 ^ 52 ≤ magnitude
  upper : magnitude ≤ 2047 * 2 ^ 52

def signOf (negative : Bool) : Sign := if negative then .negative else .positive

-- The number of a normal magnitude.
def number (negative : Bool) (magnitude : Nat) : UnpackedFloat :=
  if magnitude = 2047 * 2 ^ 52 then .infinity (signOf negative)
  else .finite (signOf negative) (2 ^ 52 + magnitude % 2 ^ 52) ((magnitude / 2 ^ 52 : Nat) - 1075)
    (Nat.add_pos_left (Nat.two_pow_pos 52) _)

-- The bits of a magnitude.
def components (negative : Bool) (magnitude : Nat) : BitVec 64 :=
  packComponents Format.binary64 (signOf negative) (BitVec.ofNat 11 (magnitude / 2 ^ 52)) (BitVec.ofNat 52 magnitude)

section Magnitude
variable {negative : Bool} {magnitude : Nat}

theorem toBitVec_magnitude (small : magnitude < 2 ^ 63) :
    (UInt64.ofNat (if negative then signPlace + magnitude else magnitude)).toBitVec =
      components negative magnitude := by
  apply BitVec.eq_of_toNat_eq
  unfold components
  rw [toNat_packComponents, UInt64.toNat_toBitVec, UInt64.toNat_ofNat']
  simp only [BitVec.toNat_ofNat]
  cases negative <;> simp [signOf, Sign.toBitVec, signPlace] <;> omega

theorem Normal.scale (normal : Normal magnitude) :
    (BitVec.ofNat 11 (magnitude / 2 ^ 52)).toNat = magnitude / 2 ^ 52 := by
  have := normal.upper
  rw [BitVec.toNat_ofNat]
  omega

theorem Normal.scale_ne_zero (normal : Normal magnitude) : BitVec.ofNat 11 (magnitude / 2 ^ 52) ≠ 0#11 := by
  intro none
  have scale := normal.scale
  have := normal.lower
  rw [none, BitVec.toNat_ofNat] at scale
  omega

theorem Normal.scale_ne_full (normal : Normal magnitude) (finite : magnitude ≠ 2047 * 2 ^ 52) :
    BitVec.ofNat 11 (magnitude / 2 ^ 52) ≠ -1#11 := by
  intro full
  have scale := normal.scale
  have := normal.upper
  rw [full, show (-1#11).toNat = 2047 from rfl] at scale
  omega

theorem unpack_components (normal : Normal magnitude) :
    unpack Format.binary64 (components negative magnitude) = number negative magnitude := by
  unfold number components
  split
  · next top =>
    subst top
    exact unpack_infinite
  · next finite =>
    rw [unpack_normal normal.scale_ne_zero (normal.scale_ne_full finite) (Nat.add_pos_left (Nat.two_pow_pos 52) _)]
    simp only [normal.scale, BitVec.toNat_ofNat]

-- The bits of every magnitude up to that of infinity are a number.
theorem valid_components (bound : magnitude ≤ 2047 * 2 ^ 52) :
    Format.binary64.Valid (components negative magnitude) := by
  refine ⟨fun full nonzero => ?_⟩
  unfold components at full nonzero
  rw [unpackExponent_packComponents] at full
  rw [unpackMantissa_packComponents] at nonzero
  have scale : (BitVec.ofNat 11 (magnitude / 2 ^ 52)).toNat = 2047 := congrArg BitVec.toNat full
  rw [BitVec.toNat_ofNat] at scale
  refine absurd (BitVec.eq_of_toNat_eq ?_) nonzero
  rw [BitVec.toNat_ofNat]
  change magnitude % 2 ^ 52 = 0
  omega

theorem ofMagnitude_eq (normal : Normal magnitude) :
    ofMagnitude negative magnitude = ⟨.pack (number negative magnitude)⟩ := by
  have upper := normal.upper
  change Float.ofModel (.pack (unpack Format.binary64 (UInt64.ofNat _).toBitVec)) = _
  rw [toBitVec_magnitude (by omega), unpack_components normal]

theorem bits_ofMagnitude (bound : magnitude ≤ 2047 * 2 ^ 52) :
    (ofMagnitude negative magnitude).toModel.toBits.toBitVec = components negative magnitude := by
  change pack Format.binary64 (unpack Format.binary64 (UInt64.ofNat _).toBitVec) = _
  rw [toBitVec_magnitude (by omega), pack_unpack_of_valid (valid_components bound)]

theorem toBits_ofMagnitude (bound : magnitude ≤ 2047 * 2 ^ 52) :
    (ofMagnitude negative magnitude).toBits.toNat = (if negative then 2 ^ 63 else 0) + magnitude := by
  change (ofMagnitude negative magnitude).toModel.toBits.toBitVec.toNat = _
  rw [bits_ofMagnitude bound, components, toNat_packComponents, BitVec.toNat_ofNat, BitVec.toNat_ofNat]
  cases negative <;> simp [signOf, Sign.toBitVec] <;> omega

theorem unpack_ofMagnitude (normal : Normal magnitude) :
    (ofMagnitude negative magnitude).toModel.unpack = number negative magnitude := by
  change unpack Format.binary64 (ofMagnitude negative magnitude).toModel.toBits.toBitVec = _
  rw [bits_ofMagnitude normal.upper, unpack_components normal]

theorem read_ofMagnitude (normal : Normal magnitude) (finite : magnitude ≠ 2047 * 2 ^ 52) :
    read (ofMagnitude negative magnitude) =
      .finite negative (2 ^ 52 + magnitude % 2 ^ 52) ((magnitude / 2 ^ 52 : Nat) - 1075) := by
  obtain ⟨lower, upper⟩ := normal
  have bits : (ofMagnitude negative magnitude).toBits.toNat = (if negative then 2 ^ 63 else 0) + magnitude :=
    toBits_ofMagnitude upper
  have sign : decide (signPlace ≤ (if negative then 2 ^ 63 else 0) + magnitude) = negative := by
    cases negative <;> simp [signPlace]
    omega
  have rest : ((if negative then 2 ^ 63 else 0) + magnitude) % signPlace = magnitude := by
    cases negative <;> simp [signPlace] <;> omega
  unfold read
  simp only [bits, sign, rest, mantissaPlace]
  rw [if_neg (by simp; omega), if_neg (by simp; omega)]
  norm_num

theorem number_inj {p q : Nat} : number negative p = number negative q ↔ p = q := by
  unfold number
  split <;> split
  · next top top' => exact iff_of_true rfl (top.trans top'.symm)
  · exact iff_of_false nofun (by omega)
  · exact iff_of_false nofun (by omega)
  · simp only [UnpackedFloat.finite.injEq, true_and]
    omega

theorem number_true_ne {p q : Nat} : number true p ≠ number false q := by
  unfold number
  split <;> split <;> nofun

theorem zero_compare_number {p : Nat} :
    (UnpackedFloat.zero .positive).compare (number negative p) = some (if negative then .gt else .lt) := by
  unfold number
  cases negative <;> split <;> rfl

theorem number_ne_nan : number negative magnitude ≠ .notANumber := by
  unfold number
  split <;> nofun

theorem number_ne_zero (sign : Sign) : number negative magnitude ≠ .zero sign := by
  unfold number
  split <;> nofun

-- What equals the number of a magnitude to a comparison is that number.
theorem number_beq_iff {x : UnpackedFloat} :
    (number negative magnitude).beq x = true ↔ x = number negative magnitude := by
  rw [beq_iff_ne_notANumber_and_eq]
  constructor
  · rintro ⟨_, _, same | ⟨zero, _⟩ | ⟨zero, _⟩⟩
    · exact same.symm
    · exact absurd zero (number_ne_zero _)
    · exact absurd zero (number_ne_zero _)
  · rintro rfl
    exact ⟨number_ne_nan, number_ne_nan, .inl rfl⟩

end Magnitude
end Charter.Binary64
