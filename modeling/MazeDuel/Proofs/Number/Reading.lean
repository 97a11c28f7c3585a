import MazeDuel.Proofs.Number.Floats
/-!
Reading floats: sign, mantissa and exponent are those that the model of floats unpacks, and a finite
float is a fraction of them.
-/

namespace MazeDuel.Number

open Float.Model Float.Model.UnpackedFloat

/-- What an unpacked float stands for. -/
def Reading.ofUnpacked : UnpackedFloat → Reading
  | .infinity s => .infinite (s == .negative)
  | .notANumber => .notANumber
  | .zero s => .finite (s == .negative) 0 (-1074)
  | .finite s m e _ => .finite (s == .negative) m e

theorem fraction_field (x : Float) :
    (@unpackMantissa Format.binary64 x.toBits.toBitVec).toNat = x.toBits.toNat % hiddenBit := by
  simp [unpackMantissa, hiddenBit, BitVec.extractLsb, BitVec.extractLsb']

theorem sign_field (x : Float) :
    (Sign.ofBitVec (@unpackSign Format.binary64 x.toBits.toBitVec) == .negative) =
      (x.toBits.toNat / 0x8000000000000000 == 1) := by
  have hbits : (@unpackSign Format.binary64 x.toBits.toBitVec).toNat =
      x.toBits.toNat / 0x8000000000000000 := by
    have hlt := x.toBits.toBitVec.isLt
    simp [unpackSign, BitVec.extractLsb, BitVec.extractLsb', Nat.shiftRight_eq_div_pow] at hlt ⊢
    omega
  have hone := (@unpackSign Format.binary64 x.toBits.toBitVec).isLt
  rw [← hbits]
  unfold Sign.ofBitVec
  generalize @unpackSign Format.binary64 x.toBits.toBitVec = b
  revert b
  decide

/-- A float is read as it is unpacked. -/
theorem read_unpack (x : Float) : read x = Reading.ofUnpacked x.toModel.unpack := by
  show read x = Reading.ofUnpacked (UnpackedFloat.unpack Format.binary64 x.toBits.toBitVec)
  have hbias : Format.binary64.exponentBias = 1023 := rfl
  have hones : @unpackExponent Format.binary64 x.toBits.toBitVec = -1#11 ↔
      (@unpackExponent Format.binary64 x.toBits.toBitVec).toNat = 2047 := BitVec.toNat_inj.symm
  have hnone : @unpackExponent Format.binary64 x.toBits.toBitVec = 0#11 ↔
      (@unpackExponent Format.binary64 x.toBits.toBitVec).toNat = 0 := BitVec.toNat_inj.symm
  have hempty : @unpackMantissa Format.binary64 x.toBits.toBitVec = 0#52 ↔
      (@unpackMantissa Format.binary64 x.toBits.toBitVec).toNat = 0 := BitVec.toNat_inj.symm
  have hhidden : (1#1 ++ @unpackMantissa Format.binary64 x.toBits.toBitVec).toNat =
      (@unpackMantissa Format.binary64 x.toBits.toBitVec).toNat + hiddenBit := by
    have hlt : (@unpackMantissa Format.binary64 x.toBits.toBitVec).toNat < 2 ^ 52 :=
      (@unpackMantissa Format.binary64 x.toBits.toBitVec).isLt
    rw [BitVec.toNat_append, Nat.shiftLeft_eq, ← Nat.mul_comm, ← Nat.two_pow_add_eq_or_of_lt hlt]
    simp [hiddenBit]
    omega
  unfold read UnpackedFloat.unpack
  dsimp only
  rw [← exponent_field, ← fraction_field, ← sign_field]
  by_cases hinf : (@unpackExponent Format.binary64 x.toBits.toBitVec).toNat = 2047
  · rw [if_pos hinf, if_pos (hones.mpr hinf)]
    by_cases hzero : (@unpackMantissa Format.binary64 x.toBits.toBitVec).toNat = 0
    · rw [if_pos hzero, if_pos (hempty.mpr hzero)]
      rfl
    · rw [if_neg hzero, if_neg (fun h => hzero (hempty.mp h))]
      rfl
  · rw [if_neg hinf, if_neg (fun h => hinf (hones.mp h))]
    by_cases hsub : (@unpackExponent Format.binary64 x.toBits.toBitVec).toNat = 0
    · rw [if_pos hsub, if_pos (hnone.mpr hsub)]
      by_cases hzero : (@unpackMantissa Format.binary64 x.toBits.toBitVec).toNat = 0
      · rw [dif_pos (hempty.mpr hzero), hzero]
        rfl
      · rw [dif_neg (fun h => hzero (hempty.mp h))]
        simp only [Reading.ofUnpacked, hsub]
        rfl
    · rw [if_neg hsub, if_neg (fun h => hsub (hnone.mp h)), Reading.ofUnpacked, hhidden]
      simp only [hbias]
      congr 1

/-- A finite float as it stands there has its leading bit in place, unless its exponent is the
least. -/
theorem leading_of_unpack {b : BitVec Format.binary64.numBits} {s : Sign} {m : Nat} {e : Int}
    {hm : 0 < m} (h : UnpackedFloat.unpack Format.binary64 b = .finite s m e hm) :
    -1074 ≤ e ∧ (e = -1074 ∨ 2 ^ 52 ≤ m) := by
  have hbias : Format.binary64.exponentBias = 1023 := rfl
  unfold UnpackedFloat.unpack at h
  dsimp only at h
  split at h
  · split at h <;> cases h
  · split at h
    · rename_i hzero
      have hnone := congrArg BitVec.toNat hzero
      split at h
      · cases h
      · injection h with _ _ he
        simp only [BitVec.toNat_ofNat, Nat.zero_mod] at hnone
        omega
    · rename_i hne
      have hpos : (@unpackExponent Format.binary64 b).toNat ≠ 0 :=
        fun h0 => hne (BitVec.eq_of_toNat_eq h0)
      injection h with _ h1 he
      refine ⟨by omega, Or.inr ?_⟩
      rw [← h1, BitVec.toNat_append, Nat.shiftLeft_eq]
      exact le_trans (by simp) Nat.left_le_or

theorem fraction_eq (m : Nat) (e : Int) : fraction m e = (m * 2 ^ e.toNat, 2 ^ (-e).toNat) := by
  unfold fraction
  split
  · simp [Int.toNat_eq_zero.mpr (by omega : -e ≤ 0)]
  · simp [Int.toNat_eq_zero.mpr (by omega : e ≤ 0)]

theorem fraction_pos (m : Nat) (e : Int) : 0 < (fraction m e).2 := by
  rw [fraction_eq]
  exact Nat.two_pow_pos _

end MazeDuel.Number
