import MazeDuel.Proofs.Number.Reading
/-!
The order of numbers. Whatever is a number has a place among the rationals and the two infinities,
and quantities of all forms compare as their places do. So their order is that of one line, and
equal numbers can stand for each other, in whatever form they were given.
-/

namespace MazeDuel.Number

open Float.Model Float.Model.UnpackedFloat

/-- The rationals with an infinity at each end. -/
abbrev Line := WithBot (WithTop ℚ)

def Line.ofRat (q : ℚ) : Line := ((q : WithTop ℚ) : Line)

theorem Line.cmp_ofRat (p q : ℚ) : cmp (ofRat p) (ofRat q) = cmp p q :=
  (WithBot.coe_strictMono.comp WithTop.coe_strictMono).cmp_map_eq p q

theorem Line.ofRat_inj {m n : Int} : ofRat m = ofRat n ↔ m = n := by
  simp [ofRat]

theorem Line.ofRat_lt {m n : Int} : ofRat m < ofRat n ↔ m < n := by
  simp [ofRat]

/-- The size `m * 2 ^ e`, with its sign. -/
def signed (negative : Bool) (m : Nat) (e : Int) : ℚ :=
  (if negative then -(m : ℚ) else m) * 2 ^ e

/-- Where a float stands on the line, if it is a number. -/
def Reading.place : Reading → Option Line
  | .finite negative m e => some (Line.ofRat (signed negative m e))
  | .infinite true => some ⊥
  | .infinite false => some ⊤
  | .notANumber => none

theorem fraction_signed (negative : Bool) (m : Nat) (e : Int) :
    (((if negative then -(fraction m e).1 else (fraction m e).1 : Int)) : ℚ) =
      signed negative m e * (fraction m e).2 := by
  have hsize : ((fraction m e).1 : ℚ) = m * 2 ^ e * (fraction m e).2 := by
    rw [fraction_eq]
    rcases le_total 0 e with he | he
    · obtain ⟨k, rfl⟩ := Int.eq_ofNat_of_zero_le he
      simp
    · obtain ⟨k, hk⟩ := Int.eq_ofNat_of_zero_le (by omega : 0 ≤ -e)
      obtain rfl : e = -k := by omega
      simp
  unfold signed
  cases negative
  · simp [hsize]
  · simp [hsize]

theorem compareWhole_eq (n : Int) (x : Float) :
    compareWhole n x = (read x).place.map (cmp (Line.ofRat n)) := by
  unfold compareWhole
  cases read x with
  | finite negative m e =>
    have hden : (0 : ℚ) < (fraction m e).2 := by exact_mod_cast fraction_pos m e
    have hwhole := (Int.cast_strictMono (R := ℚ)).cmp_map_eq (n * (fraction m e).2)
      (if negative then -(fraction m e).1 else (fraction m e).1 : Int)
    rw [fraction_signed, Int.cast_mul, Int.cast_natCast, cmp_mul_pos_right hden] at hwhole
    simp only [Reading.place, Option.map_some, Line.cmp_ofRat, hwhole]
    exact congrArg some (cmp_eq_compare _ _).symm
  | infinite negative =>
    cases negative
    · have hlt : Line.ofRat n < ⊤ := WithBot.coe_lt_coe.mpr (WithTop.coe_lt_top _)
      exact congrArg some ((cmp_eq_lt_iff _ _).mpr hlt).symm
    · have hgt : ⊥ < Line.ofRat n := WithBot.bot_lt_coe _
      exact congrArg some ((cmp_eq_gt_iff _ _).mpr hgt).symm
  | notANumber => rfl

theorem compareWhole_eq_place (n : Int) (x : Float) :
    compareWhole n x = some .eq ↔ (read x).place = some (Line.ofRat n) := by
  rw [compareWhole_eq, Option.map_eq_some_iff]
  constructor
  · rintro ⟨p, hp, heq⟩
    rw [hp, (cmp_eq_eq_iff _ _).mp heq]
  · exact fun hp => ⟨_, hp, cmp_self_eq_eq _⟩

/-- Rounding up does nothing to a float that is whole. -/
theorem ceiling_of_compareWhole {n : Int} {x : Float} (h : compareWhole n x = some .eq) :
    ceiling x = some n := by
  unfold compareWhole at h
  unfold ceiling
  cases hx : read x with
  | finite negative m e =>
    simp only [hx, Option.some.injEq, Int.compare_eq_eq] at h
    have hden : 0 < (fraction m e).2 := fraction_pos m e
    have hden' : (0 : Int) < (fraction m e).2 := by exact_mod_cast hden
    cases negative with
    | true =>
      have hnum : ((fraction m e).1 : Int) = -n * (fraction m e).2 := by
        simp at h
        linarith
      have hquot : -n = ((fraction m e).1 / (fraction m e).2 : Nat) := by
        rw [Int.natCast_ediv, hnum, Int.mul_ediv_cancel _ hden'.ne']
      simp
      omega
    | false =>
      have hnum : ((fraction m e).1 : Int) = n * (fraction m e).2 := by
        simpa using h.symm
      obtain ⟨k, rfl⟩ := Int.eq_ofNat_of_zero_le
        (Int.nonneg_of_mul_nonneg_left (by omega : 0 ≤ n * (fraction m e).2) hden')
      have hnum : (fraction m e).1 = k * (fraction m e).2 := by exact_mod_cast hnum
      have hup : ((fraction m e).1 + (fraction m e).2 - 1) / (fraction m e).2 = k := by
        rw [hnum, Nat.add_sub_assoc hden, Nat.mul_comm, Nat.mul_add_div hden]
        simp [Nat.div_eq_of_lt (Nat.sub_lt hden Nat.one_pos)]
      simp only [Bool.false_eq_true, if_false, hup]
      rfl
  | infinite negative =>
    cases negative <;> simp [hx] at h
  | notANumber => simp [hx] at h

/-! ## Floats beside floats -/

/-- Of two floats as they stand there the one with the larger exponent is larger: its leading bit is
in place. -/
theorem size_lt_of_exponent_lt {m m' : Nat} {e e' : Int} (hb : m < 2 ^ 53) (he : -1074 ≤ e)
    (hl : e' = -1074 ∨ 2 ^ 52 ≤ m') (h : e < e') : (m : ℚ) * 2 ^ e < m' * 2 ^ e' := by
  have hlow : 2 ^ 52 ≤ m' := hl.resolve_left (by omega)
  have htwice : (m : ℚ) < m' * 2 := by exact_mod_cast (by omega : m < m' * 2)
  have hpos : (0 : ℚ) < 2 ^ e := by positivity
  calc (m : ℚ) * 2 ^ e < m' * 2 * 2 ^ e := mul_lt_mul_of_pos_right htwice hpos
    _ = m' * 2 ^ (e + 1) := by rw [zpow_add₀ (by norm_num), zpow_one]; ring
    _ ≤ m' * 2 ^ e' := by
      have hexponents : (2 : ℚ) ^ (e + 1) ≤ 2 ^ e' := zpow_le_zpow_right₀ (by norm_num) (by omega)
      exact mul_le_mul_of_nonneg_left hexponents (Nat.cast_nonneg m')

/-- Exponent and mantissa, in this order, decide between two positive floats. -/
theorem cmp_size {m m' : Nat} {e e' : Int} (hb : m < 2 ^ 53) (hb' : m' < 2 ^ 53) (he : -1074 ≤ e)
    (he' : -1074 ≤ e') (hl : e = -1074 ∨ 2 ^ 52 ≤ m) (hl' : e' = -1074 ∨ 2 ^ 52 ≤ m') :
    cmp ((m : ℚ) * 2 ^ e) (m' * 2 ^ e') = (compare e e').then (compare m m') := by
  rcases lt_trichotomy e e' with h | rfl | h
  · rw [(cmp_eq_lt_iff _ _).mpr (size_lt_of_exponent_lt hb he hl' h), Int.compare_eq_lt.mpr h]
    rfl
  · have hpos : (0 : ℚ) < 2 ^ e := by positivity
    have hcast := (Nat.strictMono_cast (α := ℚ)).cmp_map_eq m m'
    rw [cmp_mul_pos_right hpos, hcast, Int.compare_eq_eq.mpr rfl]
    exact cmp_eq_compare m m'
  · rw [(cmp_eq_gt_iff _ _).mpr (size_lt_of_exponent_lt hb' he' hl h), Int.compare_eq_gt.mpr h]
    rfl

theorem signed_pos {m : Nat} (hm : 0 < m) (e : Int) : 0 < signed false m e := by
  have hcast : (0 : ℚ) < m := by exact_mod_cast hm
  simpa [signed] using mul_pos hcast (by positivity : (0 : ℚ) < 2 ^ e)

theorem signed_true (m : Nat) (e : Int) : signed true m e = -signed false m e := by
  simp [signed]

theorem signed_zero (negative : Bool) (e : Int) : signed negative 0 e = 0 := by
  simp [signed]

/-- Whether an unpacked float stands as floats do: its leading bit is in place, unless the exponent
is the least. -/
def Canonical : UnpackedFloat → Prop
  | .finite _ m e _ => m < 2 ^ 53 ∧ -1074 ≤ e ∧ (e = -1074 ∨ 2 ^ 52 ≤ m)
  | _ => True

theorem canonical_unpack (x : Float) : Canonical x.toModel.unpack := by
  cases h : x.toModel.unpack with
  | finite s m e hm => exact ⟨(bounds_of_unpack h).1, leading_of_unpack h⟩
  | _ => trivial

namespace Line

theorem cmp_bot_ofRat (q : ℚ) : cmp ⊥ (ofRat q) = .lt :=
  (cmp_eq_lt_iff _ _).mpr (WithBot.bot_lt_coe _)

theorem cmp_ofRat_bot (q : ℚ) : cmp (ofRat q) ⊥ = .gt :=
  (cmp_eq_gt_iff _ _).mpr (WithBot.bot_lt_coe _)

theorem cmp_ofRat_top (q : ℚ) : cmp (ofRat q) ⊤ = .lt :=
  (cmp_eq_lt_iff _ _).mpr (WithBot.coe_lt_coe.mpr (WithTop.coe_lt_top q))

theorem cmp_top_ofRat (q : ℚ) : cmp ⊤ (ofRat q) = .gt :=
  (cmp_eq_gt_iff _ _).mpr (WithBot.coe_lt_coe.mpr (WithTop.coe_lt_top q))

theorem cmp_bot_top : cmp (⊥ : Line) ⊤ = .lt := (cmp_eq_lt_iff _ _).mpr bot_lt_top

theorem cmp_top_bot : cmp (⊤ : Line) ⊥ = .gt := (cmp_eq_gt_iff _ _).mpr bot_lt_top

end Line

/-- Where an unpacked float stands on the line. -/
def placeOf (u : UnpackedFloat) : Option Line := (Reading.ofUnpacked u).place

theorem placeOf_zero (s : Sign) : placeOf (.zero s) = some (Line.ofRat 0) := by
  simp [placeOf, Reading.ofUnpacked, Reading.place, signed_zero]

theorem placeOf_positive (m : Nat) (e : Int) (hm : 0 < m) :
    placeOf (.finite .positive m e hm) = some (Line.ofRat (signed false m e)) := rfl

theorem placeOf_negative (m : Nat) (e : Int) (hm : 0 < m) :
    placeOf (.finite .negative m e hm) = some (Line.ofRat (-signed false m e)) := by
  rw [← signed_true]
  rfl

/-- Floats of one sign compare by exponent and mantissa. -/
theorem compare_finite {s : Sign} {m m' : Nat} {e e' : Int} {hm : 0 < m} {hm' : 0 < m'}
    (hu : Canonical (.finite s m e hm)) (hv : Canonical (.finite s m' e' hm')) :
    UnpackedFloat.compare (.finite s m e hm) (.finite s m' e' hm') =
      (do return cmp (← placeOf (.finite s m e hm)) (← placeOf (.finite s m' e' hm'))) := by
  have hsize : cmp (signed false m e) (signed false m' e') =
      (compare e e').then (compare m m') := cmp_size hu.1 hv.1 hu.2.1 hv.2.1 hu.2.2 hv.2.2
  cases s with
  | positive =>
    rw [placeOf_positive, placeOf_positive]
    exact congrArg some (((Line.cmp_ofRat _ _).trans hsize).symm)
  | negative =>
    have hswap : cmp (-signed false m e) (-signed false m' e') =
        ((compare e e').then (compare m m')).swap := by
      have hanti : StrictAnti (Neg.neg : ℚ → ℚ) := fun _ _ h => neg_lt_neg h
      rw [← hsize, cmp_swap, hanti.cmp_map_eq]
    rw [placeOf_negative, placeOf_negative]
    exact congrArg some (((Line.cmp_ofRat _ _).trans hswap).symm)

theorem placeOf_low : placeOf (.infinity .negative) = some ⊥ := rfl

theorem placeOf_high : placeOf (.infinity .positive) = some ⊤ := rfl

theorem compare_infinity (s : Sign) (v : UnpackedFloat) : UnpackedFloat.compare (.infinity s) v =
    (do return cmp (← placeOf (.infinity s)) (← placeOf v)) := by
  have hsign : ∀ r : Sign, compare r r = .eq := by decide
  cases v with
  | notANumber => cases s <;> rfl
  | infinity t =>
    cases s <;> cases t
    · simp [UnpackedFloat.compare, placeOf_low, hsign]
    · exact congrArg some Line.cmp_bot_top.symm
    · exact congrArg some Line.cmp_top_bot.symm
    · simp [UnpackedFloat.compare, placeOf_high, hsign]
  | zero t =>
    rw [placeOf_zero]
    cases s
    · exact congrArg some (Line.cmp_bot_ofRat _).symm
    · exact congrArg some (Line.cmp_top_ofRat _).symm
  | finite t m e hm =>
    cases s <;> cases t
    · exact congrArg some (Line.cmp_bot_ofRat _).symm
    · exact congrArg some (Line.cmp_bot_ofRat _).symm
    · exact congrArg some (Line.cmp_top_ofRat _).symm
    · exact congrArg some (Line.cmp_top_ofRat _).symm

theorem compare_zero (s : Sign) (v : UnpackedFloat) : UnpackedFloat.compare (.zero s) v =
    (do return cmp (← placeOf (.zero s)) (← placeOf v)) := by
  rw [placeOf_zero]
  cases v with
  | notANumber => rfl
  | infinity t =>
    cases t
    · exact congrArg some (Line.cmp_ofRat_bot _).symm
    · exact congrArg some (Line.cmp_ofRat_top _).symm
  | zero t =>
    rw [placeOf_zero]
    exact congrArg some (cmp_self_eq_eq _).symm
  | finite t m e hm =>
    have hpos := signed_pos hm e
    cases t with
    | negative =>
      have hgt := (cmp_eq_gt_iff 0 (-signed false m e)).mpr (neg_lt_zero.mpr hpos)
      rw [placeOf_negative]
      exact congrArg some ((Line.cmp_ofRat _ _).trans hgt).symm
    | positive =>
      have hlt := (cmp_eq_lt_iff 0 (signed false m e)).mpr hpos
      rw [placeOf_positive]
      exact congrArg some ((Line.cmp_ofRat _ _).trans hlt).symm

/-- Floats compare as their places do. -/
theorem compare_eq {u v : UnpackedFloat} (hu : Canonical u) (hv : Canonical v) :
    u.compare v = (do return cmp (← placeOf u) (← placeOf v)) := by
  cases u with
  | notANumber => rfl
  | infinity s => exact compare_infinity s v
  | zero s => exact compare_zero s v
  | finite s m e hm =>
    have hpos := signed_pos hm e
    cases v with
    | notANumber => cases s <;> rfl
    | infinity t =>
      cases s <;> cases t
      · exact congrArg some (Line.cmp_ofRat_bot _).symm
      · exact congrArg some (Line.cmp_ofRat_top _).symm
      · exact congrArg some (Line.cmp_ofRat_bot _).symm
      · exact congrArg some (Line.cmp_ofRat_top _).symm
    | zero t =>
      rw [placeOf_zero]
      cases s with
      | negative =>
        have hlt := (cmp_eq_lt_iff (-signed false m e) 0).mpr (neg_lt_zero.mpr hpos)
        rw [placeOf_negative]
        exact congrArg some ((Line.cmp_ofRat _ _).trans hlt).symm
      | positive =>
        have hgt := (cmp_eq_gt_iff (signed false m e) 0).mpr hpos
        rw [placeOf_positive]
        exact congrArg some ((Line.cmp_ofRat _ _).trans hgt).symm
    | finite t m' e' hm' =>
      have hpos' := signed_pos hm' e'
      have hapart : -signed false m e < signed false m' e' := by linarith
      have hapart' : -signed false m' e' < signed false m e := by linarith
      cases s <;> cases t
      · exact compare_finite hu hv
      · rw [placeOf_negative, placeOf_positive]
        exact congrArg some ((Line.cmp_ofRat _ _).trans ((cmp_eq_lt_iff _ _).mpr hapart)).symm
      · rw [placeOf_negative, placeOf_positive]
        exact congrArg some ((Line.cmp_ofRat _ _).trans ((cmp_eq_gt_iff _ _).mpr hapart')).symm
      · exact compare_finite hu hv

end MazeDuel.Number

namespace MazeDuel.Quantity

open Float.Model Number

/-- Where a quantity stands on the line, if it is a number. -/
def place (q : Quantity) : Option Line :=
  match q.toInt? with
  | some n => some (Line.ofRat n)
  | none => (read q.toFloat).place

theorem float_lt_iff (x y : Float) :
    x < y ↔ x.toModel.unpack.compare y.toModel.unpack = some .lt := by
  have hmodel : x < y ↔ x.toModel.unpack.lt y.toModel.unpack = true :=
    ⟨fun h => of_decide_eq_true h, fun h => decide_eq_true h⟩
  rw [hmodel]
  simp [UnpackedFloat.lt]

theorem float_compare_eq (x y : Float) : x.toModel.unpack.compare y.toModel.unpack =
    (do return cmp (← (read x).place) (← (read y).place)) := by
  rw [read_unpack, read_unpack]
  exact compare_eq (canonical_unpack x) (canonical_unpack y)

theorem compare?_real (x y : Float) : (real x).compare? (real y) =
    (do return cmp (← (read x).place) (← (read y).place)) := by
  have hbeq : (x == y) = true ↔ x.toModel.unpack.compare y.toModel.unpack = some .eq := by
    show x.toModel.unpack.beq y.toModel.unpack = true ↔ _
    simp [UnpackedFloat.beq]
  simp only [compare?, toInt?, toFloat, hbeq, float_lt_iff, float_compare_eq]
  cases (read x).place with
  | none => cases (read y).place <;> simp
  | some p =>
    cases (read y).place with
    | none => simp
    | some q =>
      rcases lt_trichotomy p q with h | rfl | h
      · simp [(cmp_eq_lt_iff _ _).mpr h]
      · simp
      · simp [(cmp_eq_gt_iff _ _).mpr h, (cmp_eq_lt_iff _ _).mpr h]

theorem toInt?_cases (a : Quantity) : (∃ n, a.toInt? = some n) ∨ ∃ x, a = real x := by
  cases a with
  | whole n => exact Or.inl ⟨n, rfl⟩
  | flag b => exact Or.inl ⟨_, rfl⟩
  | real x => exact Or.inr ⟨x, rfl⟩

theorem place_of_toInt? {q : Quantity} {n : Int} (h : q.toInt? = some n) :
    q.place = some (Line.ofRat n) := by
  rw [place, h]

/-- Quantities compare as their places do. -/
theorem compare?_eq (a b : Quantity) :
    a.compare? b = (do return cmp (← a.place) (← b.place)) := by
  have hreal : ∀ x, (real x).toInt? = none := fun _ => rfl
  rcases a.toInt?_cases with ⟨m, ha⟩ | ⟨x, rfl⟩
  · rcases b.toInt?_cases with ⟨n, hb⟩ | ⟨y, rfl⟩
    · have hcast := (Int.cast_strictMono (R := ℚ)).cmp_map_eq m n
      simp only [compare?, place_of_toInt? ha, place_of_toInt? hb, ha, hb]
      exact congrArg some (((Line.cmp_ofRat _ _).trans hcast).trans (cmp_eq_compare m n)).symm
    · simp only [compare?, place_of_toInt? ha, ha, hreal]
      show Number.compareWhole m y = (do return cmp (Line.ofRat m) (← (read y).place))
      rw [compareWhole_eq]
      cases (read y).place <;> rfl
  · rcases b.toInt?_cases with ⟨n, hb⟩ | ⟨y, rfl⟩
    · simp only [compare?, place_of_toInt? hb, hb, hreal]
      show (Number.compareWhole n x).map Ordering.swap = _
      rw [compareWhole_eq]
      show _ = (do return cmp (← (read x).place) (Line.ofRat n))
      cases (read x).place with
      | none => rfl
      | some p => exact congrArg some (cmp_swap _ _)
    · exact compare?_real x y

/-- A quantity is equal to a whole number if it stands at its place. -/
theorem integral?_eq_some {q : Quantity} {n : Int} :
    q.integral? = some n ↔ q.place = some (Line.ofRat n) := by
  rcases q.toInt?_cases with ⟨m, hm⟩ | ⟨x, rfl⟩
  · have hwhole : q.integral? = q.toInt? := by
      cases q with
      | real x => cases hm
      | whole m => rfl
      | flag b => rfl
    rw [hwhole, place_of_toInt? hm, hm, Option.some.injEq, Option.some.injEq, Line.ofRat_inj]
  · show (Number.ceiling x).filter _ = some n ↔ (read x).place = _
    rw [Option.filter_eq_some_iff, beq_iff_eq, ← compareWhole_eq_place]
    exact ⟨fun h => h.2, fun h => ⟨Number.ceiling_of_compareWhole h, h⟩⟩

variable {a b c : Quantity}

theorem lt_iff : a.lt b = true ↔ ∃ p q, a.place = some p ∧ b.place = some q ∧ p < q := by
  rw [lt, beq_iff_eq, compare?_eq]
  cases a.place <;> cases b.place <;> simp

theorem same_iff : a.same b = true ↔ ∃ p, a.place = some p ∧ b.place = some p := by
  rw [same, beq_iff_eq, compare?_eq]
  cases a.place with
  | none => simp
  | some p =>
    cases b.place with
    | none => simp
    | some q => simpa using eq_comm

theorem same_symm (h : a.same b) : b.same a := by
  obtain ⟨p, ha, hb⟩ := same_iff.mp h
  exact same_iff.mpr ⟨p, hb, ha⟩

theorem same_trans (h : a.same b) (h' : b.same c) : a.same c := by
  obtain ⟨p, ha, hb⟩ := same_iff.mp h
  obtain ⟨q, hb', hc⟩ := same_iff.mp h'
  obtain rfl : p = q := Option.some.inj (hb.symm.trans hb')
  exact same_iff.mpr ⟨p, ha, hc⟩

theorem not_lt_of_lt (h : a.lt b = true) : b.lt a = false := by
  obtain ⟨p, q, ha, hb, hpq⟩ := lt_iff.mp h
  rw [← Bool.not_eq_true, lt_iff]
  rintro ⟨q', p', hb', ha', hqp⟩
  rw [ha] at ha'
  rw [hb] at hb'
  cases ha'
  cases hb'
  exact lt_asymm hpq hqp

section Whole

variable {m n : Int}

/-- Quantities that are whole compare as their numbers do, in whatever form they were given. -/
theorem compare?_of_toInt? (ha : a.toInt? = some m) (hb : b.toInt? = some n) :
    a.compare? b = (whole m).compare? (whole n) := by
  simp only [compare?, ha, hb]
  rfl

theorem lt_of_toInt? (ha : a.toInt? = some m) (hb : b.toInt? = some n) :
    a.lt b = decide (m < n) := by
  rw [← lt_whole, lt, lt, compare?_of_toInt? ha hb]

theorem le_of_toInt? (ha : a.toInt? = some m) (hb : b.toInt? = some n) :
    a.le b = decide (m ≤ n) := by
  rw [← le_whole, le, le, lt, lt, compare?_of_toInt? ha hb]

theorem below_iff (h : a.toInt? = some n) : a.below m = true ↔ n < m := by
  rw [below, lt_of_toInt? h rfl, decide_eq_true_iff]

theorem atMost_iff (h : a.toInt? = some n) : a.atMost m = true ↔ n ≤ m := by
  rw [atMost, le_of_toInt? h rfl, decide_eq_true_iff]

theorem toInt?_max (ha : a.toInt? = some m) (hb : b.toInt? = some n) :
    (a.max b).toInt? = some (Max.max m n) := by
  rw [max, lt_of_toInt? ha hb]
  split
  · next h => rw [hb, max_eq_right (of_decide_eq_true h).le]
  · next h => rw [ha, max_eq_left (not_lt.mp fun hlt => h (decide_eq_true hlt))]

theorem toInt?_min (ha : a.toInt? = some m) (hb : b.toInt? = some n) :
    (a.min b).toInt? = some (Min.min m n) := by
  rw [min, lt_of_toInt? hb ha]
  split
  · next h => rw [hb, min_eq_right (of_decide_eq_true h).le]
  · next h => rw [ha, min_eq_left (not_lt.mp fun hlt => h (decide_eq_true hlt))]

theorem toInt?_sub (ha : a.toInt? = some m) (hb : b.toInt? = some n) :
    (a.sub b).toInt? = some (m - n) := by
  simp only [sub, combine, ha, hb]
  rfl

/-- Whole quantities can always be added and taken from each other. -/
theorem combines_of_toInt? (ha : a.toInt? = some m) (hb : b.toInt? = some n) :
    a.combines b = true := by
  simp [combines, ha, hb]

end Whole

end MazeDuel.Quantity
