import Mathlib
import Addon.Number.Binary64

/-!
# Negation — turning the sign of a double twice

A double is kept as a word of three components: its sign, its exponent and its mantissa. Operations
unpack the word and pack their result. Negation comes through this with nothing but the sign changed
(`pack_neg_unpack`), unless the double is not a number, which has no sign. So a double that is
negated twice is the same double.
-/

namespace Addon.Number

open Float.Model Float.Model.UnpackedFloat

/-- A word is its sign, its exponent and its mantissa. -/
theorem packComponents_unpack (b : BitVec Format.binary64.numBits) :
    packComponents .binary64 (Sign.ofBitVec (unpackSign b)) (unpackExponent b) (unpackMantissa b) =
      b := by
  have hsign : (Sign.ofBitVec (unpackSign b)).toBitVec = unpackSign b := by
    generalize unpackSign b = v
    revert v
    decide
  rw [packComponents, hsign]
  change b.extractLsb' 63 1 ++ b.extractLsb' 52 11 ++ b.extractLsb' 0 52 = b
  rw [BitVec.extractLsb'_append_extractLsb'_eq_extractLsb' (by rfl),
    BitVec.extractLsb'_append_extractLsb'_eq_extractLsb' (by rfl)]
  exact BitVec.extractLsb'_eq_self

theorem ofBitVec_unpackSign (s : Sign) (e : BitVec 11) (m : BitVec 52) :
    Sign.ofBitVec (unpackSign (packComponents .binary64 s e m)) = s := by
  have h : unpackSign (packComponents .binary64 s e m) = s.toBitVec := by
    simp only [packComponents, unpackSign, BitVec.extractLsb]
    ext i hi
    grind
  rw [h]
  cases s <;> rfl

/-- Packing a number that is not too large. The leading bit of a normal mantissa is left out. -/
theorem pack_finite (s : Sign) {m : Nat} {e : Int} (hm : 0 < m) (he : e < 972) :
    UnpackedFloat.pack .binary64 (.finite s m e hm) =
      packComponents .binary64 s (if m.log2 = 52 then BitVec.ofNat 11 (e + 1075).toNat else 0#11)
        (BitVec.ofNat 52 m) := by
  have hbias : (Format.binary64.exponentBias : Int) = 1023 := rfl
  have hbits : Format.binary64.mantissaBits = 53 := rfl
  have hexponent : (e + 1023 + (52 : Nat)).toNat = (e + 1075).toNat := by omega
  simp only [UnpackedFloat.pack, hbias, hbits, hexponent]
  split
  · omega
  · split
    · next hlog => rw [if_pos (by omega)]
    · next hlog => rw [if_neg (by omega)]

/-- **Negation changes the sign** and leaves the other components of a number as they are. -/
theorem pack_neg_unpack (s : Sign) (e : BitVec 11) (m : BitVec 52) (h : e = -1#11 → m = 0#52) :
    UnpackedFloat.pack .binary64
      (UnpackedFloat.unpack .binary64 (packComponents .binary64 s e m)).neg =
      packComponents .binary64 (-s) e m := by
  have hbias : (Format.binary64.exponentBias : Int) = 1023 := rfl
  simp only [UnpackedFloat.unpack, unpackMantissa_packComponents, unpackExponent_packComponents,
    ofBitVec_unpackSign, hbias]
  -- infinity, zero, and the numbers below the normal ones and among them
  split
  · next he =>
    rw [if_pos (h he), UnpackedFloat.neg, UnpackedFloat.pack, packedInfinity, he, h he]
    rfl
  · next he =>
    split
    · next hzero =>
      subst hzero
      split
      · next hm =>
        rw [hm]
        rfl
      · next hm =>
        have hlog : m.toNat.log2 < 52 := by
          rw [Nat.log2_lt (by simpa [BitVec.toNat_eq] using hm)]
          exact m.isLt
        rw [UnpackedFloat.neg, pack_finite _ _ (by decide), if_neg (by omega), BitVec.ofNat_toNat,
          BitVec.setWidth_eq]
    · next hzero =>
      have hmant : (1#1 ++ m).toNat = 2 ^ 52 + m.toNat := by
        rw [BitVec.toNat_append, ← Nat.shiftLeft_add_eq_or_of_lt m.isLt, Nat.shiftLeft_eq]
        rfl
      have hlog : (1#1 ++ m).toNat.log2 = 52 := by
        rw [hmant, Nat.log2_eq_iff (by omega)]
        omega
      have hlarge : e.toNat ≠ 2047 := fun hc => he (BitVec.eq_of_toNat_eq hc)
      rw [UnpackedFloat.neg, pack_finite _ _ (by omega), if_pos hlog]
      congr 1 <;> rw [← BitVec.toNat_inj, BitVec.toNat_ofNat]
      · omega
      · omega

/-- A word that is negated twice. The one that is not a number stays as it is. -/
theorem word_neg_neg {b : BitVec Format.binary64.numBits} (h : Format.binary64.Valid b) :
    UnpackedFloat.pack .binary64 (UnpackedFloat.unpack .binary64
      (UnpackedFloat.pack .binary64 (UnpackedFloat.unpack .binary64 b).neg)).neg = b := by
  by_cases hnumber : unpackExponent b = -1#11 → unpackMantissa b = 0#52
  · have hsign : ∀ s : Sign, - -s = s := by
      rintro (_ | _) <;> rfl
    rw [← packComponents_unpack b, pack_neg_unpack _ _ _ hnumber,
      pack_neg_unpack _ _ _ hnumber, hsign]
  · rw [Classical.not_imp] at hnumber
    rw [h.eq_packedNaN hnumber.1 hnumber.2]
    decide

/-- A double that is negated twice is the same double. -/
theorem float_neg_neg (x : Float) : - -x = x := by
  obtain ⟨⟨bits, hvalid⟩⟩ := x
  have hmodel : Float.Model.neg (Float.Model.neg ⟨bits, hvalid⟩) = ⟨bits, hvalid⟩ := by
    rw [Float.Model.mk.injEq]
    exact congrArg UInt64.ofBitVec (word_neg_neg hvalid)
  exact congrArg Float.ofModel hmodel

end Addon.Number
