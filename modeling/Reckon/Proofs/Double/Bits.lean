import Mathlib
import Reckon.Double.Magnitude

/-!
# A double and its parts

A double is its sign and its magnitude, put together again. What is no number is
one double only, with a fixed pattern, although it has no sign and many
magnitudes would be beyond infinity.
-/

namespace Reckon.Double

/-- A double is put together from its sign and its magnitude. -/
theorem ofParts_parts (x : Float) : ofParts (isNegative x) (magnitudeBits x) = x := by
  have parts := toBits_eq_parts x
  have whole : (if isNegative x then signWeight + magnitudeBits x else magnitudeBits x) =
      x.toBits.toNat := by
    rw [parts]
    split
    · rfl
    · rw [Nat.zero_add]
  rw [ofParts, whole, UInt64.ofNat_toNat, Float.ofBits_toBits]

/-- What is no number has the pattern of the only double of that kind, whatever
its sign and the bits of its magnitude were. -/
theorem indefinite_of_lt {x : Float} (beyond : infiniteBits < magnitudeBits x) :
    ofParts false indefiniteBits = x := by
  have bits : x.toBits.toBitVec = Float.Model.UnpackedFloat.packedNaN .binary64 := by
    have number : magnitudeBits x = x.toBits.toBitVec.toNat % 2 ^ 63 := rfl
    have limit : infiniteBits = 2047 * 2 ^ 52 := by decide
    rw [number, limit] at beyond
    apply x.toModel.valid.eq_packedNaN
    · apply BitVec.eq_of_toNat_eq
      rw [Float.Model.UnpackedFloat.unpackExponent_def, BitVec.extractLsb'_toNat,
        Nat.shiftRight_eq_div_pow]
      change x.toBits.toBitVec.toNat / 2 ^ 52 % 2 ^ 11 = 2047
      omega
    · intro zero
      have fraction := congrArg BitVec.toNat zero
      rw [Float.Model.UnpackedFloat.unpackMantissa_def, BitVec.extractLsb'_toNat,
        Nat.shiftRight_zero] at fraction
      change x.toBits.toBitVec.toNat % 2 ^ 52 = 0 at fraction
      omega
  have pattern : x.toBits = UInt64.ofNat indefiniteBits := by
    apply UInt64.toBitVec_inj.mp
    rw [bits]
    decide +kernel
  rw [ofParts, if_neg Bool.false_ne_true, ← pattern, Float.ofBits_toBits]

end Reckon.Double
