import Mathlib
import MazeDuel.Number.Quantity
/-!
Facts about floats that the match depends on. A float that is a number is equal to itself. Adding a
small float to one that is finite, or taking it away, does not overflow: the exact result is far
enough below the first power of two that cannot be written that no carry of its rounding leads
there. So a moment that is soon is a moment of the clock, and a difference can be rounded up to a
whole number.
-/

namespace MazeDuel.Number

open Float.Model Float.Model.UnpackedFloat

/-- The exponent of a finite float is not all ones. -/
theorem isFinite_iff (x : Float) :
    x.isFinite = true ↔ @unpackExponent Format.binary64 x.toBits.toBitVec ≠ -1#_ := by
  show (UnpackedFloat.unpack Format.binary64 x.toBits.toBitVec).isFinite = true ↔ _
  unfold UnpackedFloat.unpack
  dsimp only
  split
  · split <;> simp_all [UnpackedFloat.isFinite]
  · split
    · split <;> simp_all [UnpackedFloat.isFinite]
    · simp_all [UnpackedFloat.isFinite]

theorem exponent_field (x : Float) :
    (@unpackExponent Format.binary64 x.toBits.toBitVec).toNat =
      x.toBits.toNat / hiddenBit % 2048 := by
  simp [unpackExponent, hiddenBit, BitVec.extractLsb, BitVec.extractLsb',
    Nat.shiftRight_eq_div_pow]

theorem read_of_isFinite {x : Float} (h : x.isFinite) :
    ∃ negative mantissa exponent, read x = .finite negative mantissa exponent := by
  have hf : x.toBits.toNat / hiddenBit % 2048 ≠ 2047 := by
    intro he
    refine (isFinite_iff x).mp h ?_
    rw [← BitVec.toNat_inj, exponent_field, he]
    decide
  unfold read
  dsimp only
  rw [if_neg hf]
  split
  · exact ⟨_, _, _, rfl⟩
  · exact ⟨_, _, _, rfl⟩

/-- Every finite float can be rounded up to a whole number. -/
theorem ceiling_isSome {x : Float} (h : x.isFinite) : (ceiling x).isSome := by
  obtain ⟨negative, mantissa, exponent, hread⟩ := read_of_isFinite h
  unfold ceiling
  rw [hread]
  rfl

/-- Whether a float is finite, and has no exponent above a bound. -/
def Within (bound : Int) : UnpackedFloat → Bool
  | .finite _ _ e _ => e ≤ bound
  | .zero _ => true
  | _ => false

/-- The largest exponent of a finite float. -/
def topExponent : Int := 971

/-- What has no larger exponent can be written. -/
theorem isFinite_of_within {u : UnpackedFloat} (h : Within topExponent u) {x : Float}
    (hx : x.toModel = Float.Model.pack u) : x.isFinite := by
  have hbits : x.toBits.toBitVec = UnpackedFloat.pack Format.binary64 u := by
    show x.toModel.toBits.toBitVec = _
    rw [hx]
    rfl
  rw [isFinite_iff, hbits]
  cases u with
  | infinity s => cases h
  | notANumber => cases h
  | zero s => simp [UnpackedFloat.pack, packedZero]
  | finite s m e hm =>
    have he : e ≤ 971 := of_decide_eq_true h
    have hbias : Format.binary64.exponentBias = 1023 := rfl
    have hfield : (e + (Format.binary64.exponentBias : Int) + (52 : Nat)).toNat ≤ 2046 := by omega
    have hones : (-1#11 : BitVec 11).toNat = 2047 := by decide
    unfold UnpackedFloat.pack
    dsimp only
    rw [if_neg (by norm_num; omega)]
    split
    · rw [unpackExponent_packComponents]
      intro heq
      have htop := congrArg BitVec.toNat heq
      rw [BitVec.toNat_ofNat, Nat.mod_eq_of_lt (by norm_num; omega), hones] at htop
      omega
    · rw [unpackExponent_packComponents]
      decide

/-- A finite float as it stands there has at most 53 bits, and no larger exponent. -/
theorem bounds_of_unpack {b : BitVec Format.binary64.numBits} {s : Sign} {m : Nat} {e : Int}
    {hm : 0 < m} (h : UnpackedFloat.unpack Format.binary64 b = .finite s m e hm) :
    m < 2 ^ 53 ∧ e ≤ topExponent := by
  have hbias : Format.binary64.exponentBias = 1023 := rfl
  have hexponent : (@unpackExponent Format.binary64 b).toNat < 2 ^ 11 :=
    (@unpackExponent Format.binary64 b).isLt
  unfold UnpackedFloat.unpack at h
  dsimp only at h
  split at h
  · split at h <;> cases h
  · rename_i hne
    have hlt : (@unpackExponent Format.binary64 b).toNat ≠ 2047 := by
      intro heq
      refine hne (BitVec.eq_of_toNat_eq ?_)
      rw [heq]
      decide
    unfold topExponent
    split at h
    · rename_i hzero
      have hnone := congrArg BitVec.toNat hzero
      split at h
      · cases h
      · have hmantissa : (@unpackMantissa Format.binary64 b).toNat < 2 ^ 52 :=
          (@unpackMantissa Format.binary64 b).isLt
        injection h with _ h1 h2
        rw [hnone] at h2
        simp only [BitVec.toNat_ofNat, Nat.zero_mod] at h2
        omega
    · have hmantissa : (1#1 ++ @unpackMantissa Format.binary64 b).toNat < 2 ^ 53 :=
        (1#1 ++ @unpackMantissa Format.binary64 b).isLt
      injection h with _ h1 h2
      omega

theorem within_of_isFinite {x : Float} (h : x.isFinite) : Within topExponent x.toModel.unpack := by
  have hfinite : x.toModel.unpack.isFinite := h
  cases hu : x.toModel.unpack with
  | infinity s => simp [hu, UnpackedFloat.isFinite] at hfinite
  | notANumber => simp [hu, UnpackedFloat.isFinite] at hfinite
  | zero s => rfl
  | finite s m e hm => exact decide_eq_true (bounds_of_unpack hu).2

/-- A float within some bound is a zero, or has a mantissa and an exponent. -/
theorem unpack_cases {bound : Int} {x : Float} (h : Within bound x.toModel.unpack) :
    (∃ s, x.toModel.unpack = .zero s) ∨
      ∃ s m e hm, x.toModel.unpack = .finite s m e hm ∧ m < 2 ^ 53 ∧ e ≤ bound := by
  cases hu : x.toModel.unpack with
  | infinity s => simp [hu, Within] at h
  | notANumber => simp [hu, Within] at h
  | zero s => exact Or.inl ⟨s, rfl⟩
  | finite s m e hm =>
    rw [hu] at h
    exact Or.inr ⟨s, m, e, hm, rfl, (bounds_of_unpack hu).1, of_decide_eq_true h⟩

theorem unpacked_compare_self {u : UnpackedFloat} (h : u ≠ .notANumber) :
    u.compare u = some .eq := by
  cases u with
  | notANumber => exact absurd rfl h
  | infinity s => cases s <;> rfl
  | zero s => rfl
  | finite s m e hm => cases s <;> simp [UnpackedFloat.compare]

/-- There is one pattern of bits that is no number. -/
theorem bits_of_nan {x : Float} (h : x.toModel.unpack = .notANumber) :
    x.toBits.toBitVec = UnpackedFloat.packedNaN Format.binary64 := by
  unfold Float.Model.unpack UnpackedFloat.unpack at h
  dsimp only at h
  split at h
  · split at h
    · cases h
    · exact x.toModel.valid.eq_packedNaN ‹_› ‹_›
  · split at h
    · split at h <;> cases h
    · cases h

theorem read_of_nan {x : Float} (h : x.toModel.unpack = .notANumber) :
    read x = .notANumber := by
  have hn : x.toBits.toNat = 0x7ff8000000000000 :=
    (congrArg BitVec.toNat (bits_of_nan h)).trans (by decide)
  unfold read
  rw [hn]
  decide

theorem mantissa_shift (em : ExtendedMantissa) (n : Nat) :
    (em >>> n).mantissa = em.mantissa / 2 ^ n := by
  show (n.repeat ExtendedMantissa.shiftRightOne em).mantissa = _
  induction n with
  | zero => simp [Nat.repeat]
  | succ n ih =>
    rw [Nat.repeat, ExtendedMantissa.shiftRightOne, ih, Nat.div_div_eq_div_mul, Nat.pow_succ]

/-- The bit that decides about rounding is the one shifted out last. -/
theorem roundBit_shift (em : ExtendedMantissa) (n : Nat) :
    (em >>> (n + 1)).roundBit = (em.mantissa / 2 ^ n % 2 != 0) := by
  show ((n + 1).repeat ExtendedMantissa.shiftRightOne em).roundBit = _
  rw [← mantissa_shift]
  rfl

theorem roundedMantissa_le (em : ExtendedMantissa) : em.roundedMantissa ≤ em.mantissa + 1 := by
  unfold ExtendedMantissa.roundedMantissa Accuracy.roundToNearestEven
  split <;> omega

theorem roundedMantissa_of_low {em : ExtendedMantissa} (h : em.roundBit = false) :
    em.roundedMantissa = em.mantissa := by
  obtain ⟨m, roundBit, stickyBit⟩ := em
  obtain rfl : roundBit = false := h
  cases stickyBit <;> rfl

/-- A number of 53 ones before the point, and a zero behind it, is rounded down. -/
theorem roundedMantissa_lt {m k : Nat} (h : m < (2 ^ 53 - 1) * 2 ^ (k + 1) + 2 ^ k) :
    (ExtendedMantissa.ofMantissaAndAccuracy m .exact >>> (k + 1)).roundedMantissa < 2 ^ 53 := by
  have hhalf : m / 2 ^ (k + 1) = m / 2 ^ k / 2 := by rw [Nat.pow_succ, Nat.div_div_eq_div_mul]
  have hm := mantissa_shift (ExtendedMantissa.ofMantissaAndAccuracy m .exact) (k + 1)
  change _ = m / 2 ^ (k + 1) at hm
  have htop : m / 2 ^ k < 2 ^ 54 - 1 := by
    refine Nat.div_lt_of_lt_mul ?_
    rw [Nat.pow_succ 2 k] at h
    omega
  by_cases hones : m / 2 ^ k = 2 ^ 54 - 2
  · have hbit := roundBit_shift (ExtendedMantissa.ofMantissaAndAccuracy m .exact) k
    change _ = (m / 2 ^ k % 2 != 0) at hbit
    rw [hones] at hbit
    rw [roundedMantissa_of_low hbit, hm, hhalf, hones]
    decide
  · have hle := roundedMantissa_le (ExtendedMantissa.ofMantissaAndAccuracy m .exact >>> (k + 1))
    rw [hm, hhalf] at hle
    omega

theorem log2_lt_of_lt {n k : Nat} (hk : 0 < k) (h : n < 2 ^ k) : n.log2 < k := by
  by_cases hn : n = 0
  · rw [hn]
    simpa using hk
  · exact (Nat.log2_lt hn).mpr h

theorem log2_shiftLeft {m : Nat} (hm : 0 < m) (j : Nat) : (m <<< j).log2 = m.log2 + j := by
  induction j with
  | zero => rfl
  | succ j ih =>
    have hne : m <<< j ≠ 0 := by simp [hm.ne']
    rw [Nat.shiftLeft_succ, Nat.log2_two_mul hne, ih]
    rfl

theorem targetExponent_eq (m : Nat) (e : Int) :
    Format.binary64.targetExponent (totalExponent m e) = max ((m.log2 : Int) + e - 52) (-1074) := by
  have hbits : (Format.binary64.mantissaBits : Int) = 53 := rfl
  have hmin : Format.binary64.minExponent = -1074 := rfl
  unfold Format.targetExponent totalExponent
  rw [hbits, hmin]
  congr 1
  ring

/-- Once the bits that are too many have been rounded off, a carry may need one shift more. -/
theorem within_roundWithAccuracy (s : Sign) {m : Nat} {e : Int} {k : Nat}
    (hk : k = (Format.binary64.targetExponent (totalExponent m e) - e).toNat)
    (hr : (ExtendedMantissa.ofMantissaAndAccuracy m .exact >>> k).roundedMantissa.log2 +
      (e + k) ≤ 1023) (he : e + k ≤ topExponent) :
    Within topExponent (roundWithAccuracy Format.binary64 s m e .exact) := by
  unfold topExponent at he
  unfold roundWithAccuracy shiftToTargetExponent shiftToExponent
  dsimp only
  rw [← hk]
  generalize (ExtendedMantissa.ofMantissaAndAccuracy m .exact >>> k).roundedMantissa = r at hr ⊢
  split
  · rfl
  · refine decide_eq_true ?_
    rw [targetExponent_eq, topExponent]
    omega

/-- Rounding does not carry over if the number is below the first power of two that cannot be
written by more than half of the last digit. -/
theorem within_round (s : Sign) {m : Nat} {e : Int} {k : Nat} (hk : e + (k + 1 : Nat) = topExponent)
    (hm : 0 < m) (h : m < (2 ^ 53 - 1) * 2 ^ (k + 1) + 2 ^ k) :
    Within topExponent (UnpackedFloat.round Format.binary64 s m e) := by
  have htop : topExponent = 971 := rfl
  have ht := targetExponent_eq m e
  unfold UnpackedFloat.round decreaseExponent
  dsimp only
  generalize hT : Format.binary64.targetExponent (totalExponent m e) = t at ht
  -- either bits are shifted out and rounded, or zeros are filled in and nothing is
  by_cases hte : e ≤ t
  · obtain ⟨j, hj⟩ : ∃ j : Nat, (t - e).toNat = j := ⟨_, rfl⟩
    have hzero : (e - t).toNat = 0 := by omega
    have hlog : m.log2 < 53 + (k + 1) := by
      rw [Nat.log2_lt hm.ne', Nat.pow_add 2 53, Nat.pow_succ 2 k] at *
      omega
    rw [hzero]
    simp only [Nat.shiftLeft_zero, Nat.cast_zero, sub_zero]
    refine within_roundWithAccuracy s (k := j) (by rw [hT, hj]) ?_ (by omega)
    -- only at the largest exponent a carry would be too much
    by_cases hlast : t = topExponent
    · obtain rfl : j = k + 1 := by omega
      have hr := log2_lt_of_lt (k := 53) (by omega) (roundedMantissa_lt h)
      omega
    · have hq : m / 2 ^ j < 2 ^ 53 := by
        refine Nat.div_lt_of_lt_mul ?_
        rw [← Nat.pow_add, ← Nat.log2_lt hm.ne']
        omega
      have hle := roundedMantissa_le (ExtendedMantissa.ofMantissaAndAccuracy m .exact >>> j)
      rw [mantissa_shift] at hle
      change _ ≤ m / 2 ^ j + 1 at hle
      have hr := log2_lt_of_lt (k := 54) (by omega) (Nat.lt_of_le_of_lt hle (by omega))
      omega
  · obtain ⟨j, hj⟩ : ∃ j : Nat, (e - t).toNat = j := ⟨_, rfl⟩
    have hlog := log2_shiftLeft hm j
    have hsame : (Format.binary64.targetExponent (totalExponent (m <<< j) (e - j)) -
        (e - j)).toNat = 0 := by
      rw [targetExponent_eq, hlog]
      omega
    have hr : (ExtendedMantissa.ofMantissaAndAccuracy (m <<< j) .exact >>> 0).roundedMantissa =
      m <<< j := rfl
    rw [hj]
    refine within_roundWithAccuracy s (k := 0) hsame.symm ?_ (by omega)
    rw [hr, hlog]
    omega

theorem within_normalize {m : Int} {e : Int} {k : Nat} (hk : e + (k + 1 : Nat) = topExponent)
    (h : m.natAbs < (2 ^ 53 - 1) * 2 ^ (k + 1) + 2 ^ k) :
    Within topExponent (UnpackedFloat.normalize Format.binary64 m e .positive) := by
  unfold UnpackedFloat.normalize
  split
  · rename_i hm
    have hneg := Int.compare_eq_lt.mp hm
    exact within_round _ hk (by omega) (by omega)
  · rfl
  · rename_i hm
    have hpos := Int.compare_eq_gt.mp hm
    exact within_round _ hk (by omega) (by omega)

/-- The largest exponent of a float that is less than half of the last digit of the largest. -/
def smallExponent : Int := 917

/-- A whole number of last digits that is no more than those of two floats together, of which one is
small. -/
theorem within_together {m m' : Nat} {e e' n : Int} (hb : m < 2 ^ 53) (he : e ≤ topExponent)
    (hb' : m' < 2 ^ 53) (he' : e' ≤ smallExponent)
    (hn : n.natAbs ≤ m <<< (e - min e e').toNat + m' <<< (e' - min e e').toNat) :
    Within topExponent (UnpackedFloat.normalize Format.binary64 n (min e e') .positive) := by
  have htop : topExponent = 971 := rfl
  have hsmallest : smallExponent = 917 := rfl
  obtain ⟨k, hk⟩ : ∃ k : Nat, min e e' + (k + 1 : Nat) = topExponent :=
    ⟨(970 - min e e').toNat, by omega⟩
  have hlarge : m <<< (e - min e e').toNat ≤ (2 ^ 53 - 1) * 2 ^ (k + 1) := by
    rw [Nat.shiftLeft_eq]
    exact Nat.mul_le_mul (by omega) (Nat.pow_le_pow_right (by decide) (by omega))
  have hsmall : m' <<< (e' - min e e').toNat < 2 ^ k := by
    rw [Nat.shiftLeft_eq]
    calc m' * 2 ^ (e' - min e e').toNat
        < 2 ^ 53 * 2 ^ (e' - min e e').toNat := Nat.mul_lt_mul_of_pos_right hb' (Nat.two_pow_pos _)
      _ = 2 ^ (53 + (e' - min e e').toNat) := (Nat.pow_add ..).symm
      _ ≤ 2 ^ k := Nat.pow_le_pow_right (by decide) (by omega)
  exact within_normalize hk (by omega)

theorem natAbs_apply (s : Sign) (n : Nat) : (s.apply n).natAbs = n := by
  cases s <;> simp [Sign.apply]

/-- Taking a small float from one that is finite gives one that is finite. -/
theorem isFinite_sub {x y : Float} (hx : x.isFinite)
    (hy : Within smallExponent y.toModel.unpack) : (x - y).isFinite := by
  have hsmallest : smallExponent ≤ topExponent := by decide
  refine isFinite_of_within ?_ (u := UnpackedFloat.sub Format.binary64 x.toModel.unpack
    y.toModel.unpack) rfl
  rcases unpack_cases (within_of_isFinite hx) with ⟨s, hu⟩ | ⟨s, m, e, hm, hu, hb, he⟩
  · rcases unpack_cases hy with ⟨s', hv⟩ | ⟨s', m', e', hm', hv, -, he'⟩
    · rw [hu, hv]
      unfold UnpackedFloat.sub
      dsimp only
      split <;> rfl
    · rw [hu, hv]
      exact decide_eq_true (he'.trans hsmallest)
  · rcases unpack_cases hy with ⟨s', hv⟩ | ⟨s', m', e', hm', hv, hb', he'⟩
    · rw [hu, hv]
      exact decide_eq_true he
    · rw [hu, hv]
      refine within_together hb he hb' he' ((Int.natAbs_sub_le _ _).trans_eq ?_)
      rw [natAbs_apply, natAbs_apply]

/-- Adding a small float to one that is finite gives one that is finite. -/
theorem isFinite_add {x y : Float} (hx : x.isFinite)
    (hy : Within smallExponent y.toModel.unpack) : (x + y).isFinite := by
  have hsmallest : smallExponent ≤ topExponent := by decide
  refine isFinite_of_within ?_ (u := UnpackedFloat.add Format.binary64 x.toModel.unpack
    y.toModel.unpack) rfl
  rcases unpack_cases (within_of_isFinite hx) with ⟨s, hu⟩ | ⟨s, m, e, hm, hu, hb, he⟩
  · rcases unpack_cases hy with ⟨s', hv⟩ | ⟨s', m', e', hm', hv, -, he'⟩
    · rw [hu, hv]
      unfold UnpackedFloat.add
      dsimp only
      split <;> rfl
    · rw [hu, hv]
      exact decide_eq_true (he'.trans hsmallest)
  · rcases unpack_cases hy with ⟨s', hv⟩ | ⟨s', m', e', hm', hv, hb', he'⟩
    · rw [hu, hv]
      exact decide_eq_true he
    · rw [hu, hv]
      refine within_together hb he hb' he' ((Int.natAbs_add_le _ _).trans_eq ?_)
      rw [natAbs_apply, natAbs_apply]

theorem isFinite_of_small {x : Float} (hx : Within smallExponent x.toModel.unpack) :
    x.isFinite := by
  show x.toModel.unpack.isFinite = true
  rcases unpack_cases hx with ⟨s, hu⟩ | ⟨s, m, e, hm, hu, -⟩ <;> simp [hu, UnpackedFloat.isFinite]

end MazeDuel.Number

namespace MazeDuel

/-- A number that is not below zero is equal to itself. -/
theorem Quantity.same_self {q : Quantity} (h : (Quantity.whole 0).le q) : q.same q := by
  cases q with
  | whole n => simp
  | flag b => cases b <;> decide
  | real x =>
    have hx : x.toModel.unpack ≠ .notANumber := by
      intro hn
      simp [le, lt, compare?, toInt?, toFloat, Number.compareWhole, Number.read_of_nan hn] at h
    have hcompare := Number.unpacked_compare_self hx
    have hsame : (x == x) = true := by
      show x.toModel.unpack.beq x.toModel.unpack = true
      simp [Float.Model.UnpackedFloat.beq, hcompare]
    have hless : ¬ x < x := by
      intro hlt
      have hlt' : x.toModel.unpack.lt x.toModel.unpack = true := of_decide_eq_true hlt
      simp [Float.Model.UnpackedFloat.lt, hcompare] at hlt'
    simp [same, compare?, toInt?, toFloat, hsame, hless]

/-- Whether a quantity is less than `2 ^ 970` as a real: added to any moment of the clock it gives
another, however late that is. -/
def Quantity.isShort (q : Quantity) : Bool :=
  Number.Within Number.smallExponent q.toFloat.toModel.unpack

theorem Quantity.isFinite_add {x : Float} (hx : x.isFinite) {q : Quantity} (h : q.isShort) :
    (x + q.toFloat).isFinite := by
  unfold isShort at h
  exact Number.isFinite_add hx h

theorem Quantity.fitsReal_of_isShort {q : Quantity} (h : q.isShort) : q.fitsReal := by
  simp [fitsReal, Number.isFinite_of_small h]

end MazeDuel
