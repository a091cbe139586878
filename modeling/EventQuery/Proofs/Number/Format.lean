import EventQuery.Number.Binary
import Mathlib.Tactic.Linarith
import Mathlib.Tactic.Ring

/-!
Rounding to a binary format. A magnitude below infinity is a significand times a power of two. The
rounding of a ratio depends on the ratio alone, and a ratio that is close enough to a magnitude from
below is rounded to it. In particular rounding changes no number of the format.
-/

namespace EventQuery.Number

theorem pow2_eq (n : Nat) : pow2 n = 2 ^ n := rfl

theorem log2_le_of_lt {n k : Nat} (h : n < 2 ^ (k + 1)) : n.log2 ≤ k := by
  rcases Nat.eq_zero_or_pos n with rfl | hn
  · simp
  · exact Nat.le_of_lt_succ ((Nat.log2_lt (Nat.ne_of_gt hn)).2 h)

theorem lt_of_log2_lt {n k : Nat} (h : n.log2 < k) : n < 2 ^ k := by
  rcases Nat.eq_zero_or_pos n with rfl | hn
  · exact Nat.two_pow_pos k
  · exact (Nat.log2_lt (Nat.ne_of_gt hn)).1 h

theorem le_log2_of_le {n k : Nat} (h : 2 ^ k ≤ n) : k ≤ n.log2 :=
  (Nat.le_log2 (Nat.ne_of_gt (Nat.lt_of_lt_of_le (Nat.two_pow_pos k) h))).2 h

/-! ### Rounding to whole numbers -/

/-- A ratio is rounded to a whole number that is less than a half away. -/
theorem roundHalfEven_of_near {num den n : Nat} (hlow : 2 * (n * den) < 2 * num + den)
    (hhigh : 2 * num < 2 * (n * den) + den) : roundHalfEven num den = n := by
  have hden : 0 < den := by omega
  unfold roundHalfEven
  dsimp only
  rcases Nat.lt_or_ge num (n * den) with hlt | hge
  · -- The quotient is the whole number before.
    obtain ⟨k, rfl⟩ : ∃ k, n = k + 1 := Nat.exists_eq_succ_of_ne_zero (by rintro rfl; simp at hlt)
    rw [Nat.add_mul, Nat.one_mul] at hlow hlt
    have hquotient : num / den = k := by
      rw [Nat.div_eq_iff hden]
      omega
    have hremainder : num % den = num - k * den := by
      rw [Nat.mod_eq_sub_mul_div, hquotient, Nat.mul_comm]
    rw [hquotient, hremainder, if_pos (.inl (by omega))]
  · have hquotient : num / den = n := by
      rw [Nat.div_eq_iff hden]
      omega
    have hremainder : num % den = num - n * den := by
      rw [Nat.mod_eq_sub_mul_div, hquotient, Nat.mul_comm]
    rw [hquotient, hremainder, if_neg (by omega)]

theorem roundHalfEven_mul_left {k : Nat} (hk : 0 < k) (num den : Nat) :
    roundHalfEven (k * num) (k * den) = roundHalfEven num den := by
  unfold roundHalfEven
  simp only [Nat.mul_div_mul_left _ _ hk, Nat.mul_mod_mul_left, Nat.mul_left_comm 2 k,
    Nat.mul_lt_mul_left hk, Nat.mul_right_inj (Nat.ne_of_gt hk)]

namespace Format

variable {f : Format} {num den num' den' m d s : Nat}

theorem nearest_mul_left {k : Nat} (hk : 0 < k) (num den : Nat) :
    f.nearest (k * num) (k * den) = f.nearest num den := by
  unfold nearest
  rw [Nat.mul_div_mul_left _ _ hk]
  dsimp only
  rw [Nat.mul_assoc, roundHalfEven_mul_left hk]

/-- Rounding depends on the ratio alone. -/
theorem nearest_congr (hden : 0 < den) (hden' : 0 < den') (h : num * den' = num' * den) :
    f.nearest num den = f.nearest num' den' := by
  rw [← nearest_mul_left hden' num den, ← nearest_mul_left hden num' den', Nat.mul_comm den' num,
    Nat.mul_comm den num', h, Nat.mul_comm den den']

@[simp] theorem nearest_zero : f.nearest 0 den = 0 := by
  have hround (n : Nat) : roundHalfEven 0 n = 0 := by
    unfold roundHalfEven
    simp
  unfold nearest
  simp [hround]

/-! ### Magnitudes -/

/-- Every magnitude is a significand times a power of two. The significand has all bits unless the
power is the least. -/
theorem exists_significand (f : Format) (m : Nat) :
    ∃ d s, m = d * 2 ^ f.fractionBits + s ∧ f.units m = s * 2 ^ d ∧ s < 2 ^ (f.fractionBits + 1) ∧
      (d = 0 ∨ 2 ^ f.fractionBits ≤ s) := by
  have hfraction : m % 2 ^ f.fractionBits < 2 ^ f.fractionBits :=
    Nat.mod_lt _ (Nat.two_pow_pos _)
  have hsplit := Nat.div_add_mod' m (2 ^ f.fractionBits)
  have hdouble : 2 ^ (f.fractionBits + 1) = 2 ^ f.fractionBits + 2 ^ f.fractionBits := by
    rw [Nat.pow_succ, Nat.mul_two]
  by_cases hfield : m / 2 ^ f.fractionBits = 0
  · have hunits : f.units m = m % 2 ^ f.fractionBits := if_pos hfield
    rw [hfield, Nat.zero_mul, Nat.zero_add] at hsplit
    exact ⟨0, m % 2 ^ f.fractionBits, by omega, by rw [hunits, Nat.pow_zero, Nat.mul_one],
      by omega, .inl rfl⟩
  · have hunits : f.units m = (2 ^ f.fractionBits + m % 2 ^ f.fractionBits) *
        2 ^ (m / 2 ^ f.fractionBits - 1) := if_neg hfield
    obtain ⟨d, hd⟩ := Nat.exists_eq_succ_of_ne_zero hfield
    rw [hd, Nat.succ_mul] at hsplit
    exact ⟨d, 2 ^ f.fractionBits + m % 2 ^ f.fractionBits, by omega, by rw [hunits, hd]; rfl,
      by omega, .inr (Nat.le_add_right _ _)⟩

/-- A ratio just below a magnitude is rounded to it, also where the ratio has one bit less than the
magnitude and is therefore rounded on a finer grid. -/
theorem nearest_of_close (error : Nat) (hm : m < f.infinity) (hden : 0 < den)
    (hsum : num + error = f.units m * den)
    (hclose : error * 2 ^ (f.fractionBits + 2) < f.units m * den) : f.nearest num den = m := by
  obtain ⟨d, s, rfl, hunits, hs, hfull⟩ := exists_significand f m
  rw [hunits] at hsum hclose
  -- The error is less than half a step of the grid.
  have herror : 2 * error < den * 2 ^ d := by
    have hlt : 2 ^ (f.fractionBits + 1) * (2 * error) <
        2 ^ (f.fractionBits + 1) * (den * 2 ^ d) := by
      calc 2 ^ (f.fractionBits + 1) * (2 * error) = error * 2 ^ (f.fractionBits + 2) := by ring
        _ < s * 2 ^ d * den := hclose
        _ = s * (den * 2 ^ d) := by ring
        _ ≤ _ := Nat.mul_le_mul_right _ hs.le
    exact Nat.lt_of_mul_lt_mul_left hlt
  have hround (d' s' : Nat) (hlog : (num / den).log2 - f.fractionBits = d')
      (hsplit : num + error = s' * (den * 2 ^ d')) (hhalf : 2 * error < den * 2 ^ d')
      (heq : d' * 2 ^ f.fractionBits + s' = d * 2 ^ f.fractionBits + s) :
      f.nearest num den = d * 2 ^ f.fractionBits + s := by
    have hkept : roundHalfEven num (den * 2 ^ d') = s' :=
      roundHalfEven_of_near (by omega) (by omega)
    unfold nearest
    simp only [hlog, pow2_eq, hkept, heq]
    exact Nat.min_eq_left hm.le
  have hupper : num / den < 2 ^ (f.fractionBits + d + 1) := by
    rw [Nat.div_lt_iff_lt_mul hden]
    calc num ≤ s * 2 ^ d * den := by omega
      _ < 2 ^ (f.fractionBits + 1) * 2 ^ d * den := by gcongr
      _ = 2 ^ (f.fractionBits + d + 1) * den := by ring
  by_cases hlog : (num / den).log2 - f.fractionBits = d
  · exact hround d s hlog (by rw [hsum]; ring) herror rfl
  · -- The ratio lies below the power of two that the magnitude is.
    have hle : (num / den).log2 ≤ f.fractionBits + d := log2_le_of_lt hupper
    obtain ⟨k, rfl⟩ : ∃ k, d = k + 1 := Nat.exists_eq_succ_of_ne_zero (by omega)
    have hlower : num < 2 ^ (f.fractionBits + (k + 1)) * den :=
      (Nat.div_lt_iff_lt_mul hden).1 (lt_of_log2_lt (by omega))
    obtain rfl : s = 2 ^ f.fractionBits := by
      refine Nat.le_antisymm (Nat.le_of_not_lt fun hlt => ?_) (hfull.resolve_left (by omega))
      have hmore : (2 ^ f.fractionBits + 1) * 2 ^ (k + 1) * den ≤ s * 2 ^ (k + 1) * den := by
        gcongr
        exact hlt
      have hsplit : (2 ^ f.fractionBits + 1) * 2 ^ (k + 1) * den =
          2 ^ (f.fractionBits + (k + 1)) * den + den * 2 ^ (k + 1) := by ring
      omega
    have hhalf : 2 * error < den * 2 ^ k := by
      have hlt : 2 ^ (f.fractionBits + 1) * (2 * error) <
          2 ^ (f.fractionBits + 1) * (den * 2 ^ k) := by
        calc 2 ^ (f.fractionBits + 1) * (2 * error) = error * 2 ^ (f.fractionBits + 2) := by ring
          _ < 2 ^ f.fractionBits * 2 ^ (k + 1) * den := hclose
          _ = _ := by ring
      exact Nat.lt_of_mul_lt_mul_left hlt
    have hpower : f.fractionBits + k ≤ (num / den).log2 := by
      refine le_log2_of_le ((Nat.le_div_iff_mul_le hden).2 ?_)
      have hstep : den * 2 ^ k ≤ 2 ^ (f.fractionBits + k) * den := by
        rw [Nat.pow_add, Nat.mul_comm den, Nat.mul_assoc]
        exact Nat.le_mul_of_pos_left _ (Nat.two_pow_pos _)
      have hsplit : 2 ^ f.fractionBits * 2 ^ (k + 1) * den =
          2 ^ (f.fractionBits + k) * den + 2 ^ (f.fractionBits + k) * den := by ring
      omega
    exact hround k (2 ^ (f.fractionBits + 1)) (by omega) (by rw [hsum]; ring) hhalf (by ring)

/-- The magnitude of a significand and a power of two. -/
theorem units_significand (hs : s < 2 ^ (f.fractionBits + 1))
    (hfull : d = 0 ∨ 2 ^ f.fractionBits ≤ s) :
    f.units (d * 2 ^ f.fractionBits + s) = s * 2 ^ d := by
  have hpos : 0 < 2 ^ f.fractionBits := Nat.two_pow_pos _
  rcases Nat.lt_or_ge s (2 ^ f.fractionBits) with hlt | hge
  · obtain rfl : d = 0 := hfull.resolve_right (Nat.not_le.2 hlt)
    rw [Nat.zero_mul, Nat.zero_add, Nat.pow_zero, Nat.mul_one]
    unfold units
    simp [pow2_eq, Nat.div_eq_of_lt hlt, Nat.mod_eq_of_lt hlt]
  · obtain ⟨fraction, rfl⟩ := Nat.exists_eq_add_of_le hge
    have hfraction : fraction < 2 ^ f.fractionBits := by
      rw [Nat.pow_succ] at hs
      omega
    have hsplit : d * 2 ^ f.fractionBits + (2 ^ f.fractionBits + fraction) =
        fraction + 2 ^ f.fractionBits * (d + 1) := by ring
    unfold units
    rw [hsplit]
    simp [pow2_eq, Nat.add_mul_div_left _ _ hpos, Nat.div_eq_of_lt hfraction,
      Nat.mod_eq_of_lt hfraction]

theorem eq_zero_of_units (h : f.units m = 0) : m = 0 := by
  obtain ⟨d, s, rfl, hunits, -, hfull⟩ := exists_significand f m
  rw [hunits, Nat.mul_eq_zero, or_iff_left (Nat.ne_of_gt (Nat.two_pow_pos d))] at h
  subst h
  obtain rfl : d = 0 := hfull.resolve_right (Nat.not_le.2 (Nat.two_pow_pos _))
  simp

/-- Rounding changes no number of the format. -/
theorem nearest_units (hm : m < f.infinity) (hden : 0 < den) :
    f.nearest (f.units m * den) den = m := by
  rcases Nat.eq_zero_or_pos (f.units m) with hzero | hpos
  · rw [hzero, Nat.zero_mul, nearest_zero, eq_zero_of_units hzero]
  · exact nearest_of_close 0 hm hden (Nat.add_zero _)
      (by rw [Nat.zero_mul]; exact Nat.mul_pos hpos hden)

theorem units_inj {m' : Nat} (hm : m < f.infinity) (hm' : m' < f.infinity)
    (h : f.units m = f.units m') : m = m' := by
  rw [← nearest_units hm Nat.one_pos, h, nearest_units hm' Nat.one_pos]

/-! ### Words -/

theorem infinity_lt_signWeight (f : Format) : f.infinity < f.signWeight := by
  unfold infinity signWeight
  rw [pow2_eq, pow2_eq, pow2_eq, Nat.pow_add, Nat.mul_comm (2 ^ f.fractionBits)]
  exact Nat.mul_lt_mul_of_pos_right (Nat.sub_lt (Nat.two_pow_pos _) Nat.one_pos)
    (Nat.two_pow_pos _)

theorem decode_pack (hm : m < f.infinity) (negative : Bool) :
    f.decode (f.pack negative m) = .finite negative (f.units m) := by
  have hlt : m < f.signWeight := Nat.lt_trans hm f.infinity_lt_signWeight
  unfold decode pack
  cases negative with
  | false =>
      simp [Nat.mod_eq_of_lt hlt, Nat.not_lt.2 hm.le, Nat.ne_of_lt hm, Nat.not_le.2 hlt]
  | true =>
      simp [Nat.mod_eq_of_lt hlt, Nat.not_lt.2 hm.le, Nat.ne_of_lt hm]

theorem pack_lt (hm : m ≤ f.infinity) (negative : Bool) :
    f.pack negative m < 2 * f.signWeight := by
  have hlt : m < f.signWeight := Nat.lt_of_le_of_lt hm f.infinity_lt_signWeight
  unfold pack
  cases negative <;> simp <;> omega

/-- A word is its sign and its magnitude. -/
theorem pack_decide {w : Nat} (hw : w < 2 * f.signWeight) :
    f.pack (decide (f.signWeight ≤ w)) (w % f.signWeight) = w := by
  unfold pack
  by_cases hsign : f.signWeight ≤ w
  · have hmod : w % f.signWeight = w - f.signWeight := by
      rw [Nat.mod_eq_sub_mod hsign, Nat.mod_eq_of_lt (by omega)]
    simp only [hsign, decide_true, if_true, hmod]
    omega
  · simp [hsign, Nat.mod_eq_of_lt (Nat.not_le.1 hsign)]

/-- A finite word has a magnitude below infinity. -/
theorem decode_finite {w : Nat} {negative : Bool} {units : Nat}
    (h : f.decode w = .finite negative units) :
    w % f.signWeight < f.infinity ∧ f.units (w % f.signWeight) = units := by
  unfold decode at h
  dsimp only at h
  split_ifs at h
  cases h
  exact ⟨by omega, rfl⟩

/-- Words are told apart by what they denote. -/
theorem decode_inj {w w' : Nat} (hw : w < 2 * f.signWeight) (hw' : w' < 2 * f.signWeight)
    (h : f.decode w = f.decode w') : w = w' := by
  have hparts : decide (f.signWeight ≤ w) = decide (f.signWeight ≤ w') ∧
      w % f.signWeight = w' % f.signWeight := by
    unfold decode at h
    dsimp only at h
    split_ifs at h
    · obtain ⟨hsign, hpayload⟩ := Datum.nan.inj h
      exact ⟨hsign, by omega⟩
    · exact ⟨Datum.infinite.inj h, by omega⟩
    · obtain ⟨hsign, hunits⟩ := Datum.finite.inj h
      exact ⟨hsign, units_inj (by omega) (by omega) hunits⟩
  rw [← pack_decide hw, ← pack_decide hw', hparts.1, hparts.2]

theorem decode_pack_infinity (negative : Bool) :
    f.decode (f.pack negative f.infinity) = .infinite negative := by
  have hlt := f.infinity_lt_signWeight
  unfold decode pack
  cases negative <;> simp [Nat.mod_eq_of_lt hlt, Nat.not_le.2 hlt]

theorem decode_pack_nan (hm : f.infinity < m) (hlt : m < f.signWeight) (negative : Bool) :
    f.decode (f.pack negative m) = .nan negative (m - f.infinity) := by
  unfold decode pack
  cases negative <;> simp [Nat.mod_eq_of_lt hlt, Nat.not_le.2 hlt, hm]

end Format

namespace Datum

def isNaN : Datum → Bool
  | .nan .. => true
  | _ => false

/-- Whether a datum is a zero of either sign. -/
def isZero : Datum → Bool
  | .finite _ units => units == 0
  | _ => false

theorem isNaN_of_isZero {a : Datum} (h : a.isZero = true) : a.isNaN = false := by
  cases a <;> simp_all [isZero, isNaN]

theorem signed_inj {s t : Bool} {m n : Nat} (h : signed s m = signed t n) :
    s = t ∧ m = n ∨ m = 0 ∧ n = 0 := by
  unfold signed at h
  split at h <;> split at h <;> simp_all

/-- The order tells apart all data but the two zeros. -/
theorem rank_eq_iff {a b : Datum} :
    a.rank = b.rank ↔ a = b ∨ a.isZero = true ∧ b.isZero = true := by
  refine ⟨fun h => ?_, ?_⟩
  · rcases a with ⟨s, m⟩ | ⟨_ | _⟩ | ⟨_ | _, p⟩ <;> rcases b with ⟨t, n⟩ | ⟨_ | _⟩ | ⟨_ | _, q⟩ <;>
      simp [rank, isZero] at h ⊢
    · exact signed_inj h
    all_goals exact h
  · rintro (rfl | ⟨ha, hb⟩)
    · rfl
    · cases a <;> cases b <;> simp_all [rank, isZero, signed]

end Datum

/-! ### Whole numbers as doubles -/

namespace Double

open Format

theorem datum_ofNatWord {w : Nat} (hw : w < 2 * Format.double.signWeight) :
    (ofNatWord w).datum = Format.double.decode w := by
  have hword : w < 2 ^ 64 := hw
  rw [datum, ofNatWord, UInt64.toNat_ofNat_of_lt' hword]

/-- A number of at most 53 bits, moved up by a power of two in range, is one of the format. -/
theorem exists_units_shift (shift : Nat) {n : Nat} (hn : n < 2 ^ 53) (hlow : 52 ≤ shift)
    (hhigh : shift ≤ 2000) :
    ∃ m, m < Format.double.infinity ∧ Format.double.units m = n * 2 ^ shift := by
  rcases Nat.eq_zero_or_pos n with rfl | hpos
  · exact ⟨0, by decide, by rw [Nat.zero_mul]; rfl⟩
  · -- The leading bit is moved up to the top of the significand.
    have hlog : n.log2 ≤ 52 := log2_le_of_lt hn
    obtain ⟨k, hk⟩ : ∃ k, n.log2 + k = 52 := ⟨52 - n.log2, by omega⟩
    have hbottom : 2 ^ 52 ≤ n * 2 ^ k := by
      rw [← hk, Nat.pow_add]
      exact Nat.mul_le_mul_right _ (Nat.log2_self_le (Nat.ne_of_gt hpos))
    have htop : n * 2 ^ k < 2 ^ 53 := by
      rw [show (53 : Nat) = n.log2 + 1 + k by omega, Nat.pow_add]
      exact Nat.mul_lt_mul_of_pos_right Nat.lt_log2_self (Nat.two_pow_pos k)
    obtain ⟨d, rfl⟩ : ∃ d, shift = k + d := ⟨shift - k, by omega⟩
    refine ⟨d * 2 ^ 52 + n * 2 ^ k, ?_, ?_⟩
    · have hinfinity : Format.double.infinity = 2047 * 2 ^ 52 := by decide
      omega
    · rw [Nat.pow_add, ← Nat.mul_assoc]
      exact units_significand (f := Format.double) htop (.inr hbottom)

/-- The number of units of a whole number, which its double holds exactly. -/
theorem nearest_whole {n : Nat} (hn : n < 2 ^ 53) :
    Format.double.nearest (n * 2 ^ Format.double.unitShift) 1 < Format.double.infinity ∧
      Format.double.units (Format.double.nearest (n * 2 ^ Format.double.unitShift) 1) =
        n * 2 ^ Format.double.unitShift := by
  obtain ⟨m, hm, hunits⟩ :=
    exists_units_shift Format.double.unitShift hn (by decide) (by decide)
  have hnearest := nearest_units hm Nat.one_pos
  rw [hunits, Nat.mul_one] at hnearest
  rw [hnearest]
  exact ⟨hm, hunits⟩

theorem ofInt_eq (i : Int) : ofInt i = ofNatWord (Format.double.pack (i < 0)
    (Format.double.nearest (i.natAbs * 2 ^ Format.double.unitShift) 1)) := by
  rw [ofInt, Format.ofInt, pow2_eq]

theorem datum_ofInt {i : Int} (hi : i.natAbs < 2 ^ 53) :
    (ofInt i).datum = .finite (i < 0) (i.natAbs * 2 ^ Format.double.unitShift) := by
  obtain ⟨hm, hunits⟩ := nearest_whole hi
  rw [ofInt_eq, datum_ofNatWord (pack_lt hm.le _), decode_pack hm, hunits]

theorem signed_natAbs (i : Int) (k : Nat) : signed (i < 0) (i.natAbs * k) = i * k := by
  rcases lt_or_ge i 0 with hneg | hnonneg
  · simp only [signed, hneg, decide_true, if_true]
    rw [Nat.cast_mul, Int.ofNat_natAbs_of_nonpos hneg.le]
    ring
  · simp only [signed, Int.not_lt.2 hnonneg, decide_false, Bool.false_eq_true, if_false]
    rw [Nat.cast_mul, Int.natAbs_of_nonneg hnonneg]

/-- Whole numbers are added exactly. -/
theorem add_ofInt {i j : Int} (hi : i.natAbs < 2 ^ 53) (hj : j.natAbs < 2 ^ 53) :
    (ofInt i).add (ofInt j) = ofInt (i + j) := by
  rw [add, datum_ofInt hi, datum_ofInt hj, Format.add, signed_natAbs, signed_natAbs, ofInt_eq,
    Format.ofUnits, ← Int.add_mul]
  have hpos : 0 < 2 ^ Format.double.unitShift := Nat.two_pow_pos _
  generalize 2 ^ Format.double.unitShift = k at hpos
  have hk : (0 : Int) < k := Int.natCast_pos.2 hpos
  have hsign : (if (i + j) * (k : Int) = 0 then (decide (i < 0) && decide (j < 0))
      else decide ((i + j) * (k : Int) < 0)) = decide (i + j < 0) := by
    by_cases hzero : i + j = 0
    · rw [if_pos (by rw [hzero, Int.zero_mul])]
      simp only [hzero, ← Bool.decide_and, decide_eq_decide]
      omega
    · rw [if_neg (Int.mul_ne_zero hzero (Int.ne_of_gt hk)), decide_eq_decide]
      exact ⟨fun h => Int.not_le.1 fun hn => Int.not_lt.2 (Int.mul_nonneg hn hk.le) h,
        fun h => Int.mul_neg_of_neg_of_pos h hk⟩
  rw [hsign, Int.natAbs_mul, Int.natAbs_natCast]

/-- A whole number times one. -/
theorem ofInt_mul_one {i : Int} (hi : i.natAbs < 2 ^ 53) : (ofInt i).mul (ofInt 1) = ofInt i := by
  have hone := datum_ofInt (i := 1) (by decide)
  rw [mul, datum_ofInt hi, hone, Format.mul, ofInt_eq, pow2_eq]
  have hpos : 0 < 2 ^ Format.double.unitShift := Nat.two_pow_pos _
  generalize 2 ^ Format.double.unitShift = k at hpos
  have hscale : Format.double.nearest (i.natAbs * k * (Int.natAbs 1 * k)) k =
      Format.double.nearest (i.natAbs * k) 1 :=
    nearest_congr hpos Nat.one_pos (by rw [Int.natAbs_one]; ring)
  have hsign : (decide (i < 0) != decide ((1 : Int) < 0)) = decide (i < 0) := Bool.bne_false _
  rw [hscale, hsign]

theorem toNat_lt (x : Double) : x.word.toNat < 2 * Format.double.signWeight := x.word.toNat_lt

theorem eq_of_toNat {x y : Double} (h : x.word.toNat = y.word.toNat) : x = y := by
  cases x
  cases y
  exact congrArg _ (UInt64.toNat_inj.1 h)

theorem datum_inj {x y : Double} (h : x.datum = y.datum) : x = y :=
  eq_of_toNat (decode_inj x.toNat_lt y.toNat_lt h)

/-- Doubles are compared as equal where they are, and the two zeros besides. -/
theorem rank_eq_iff {x y : Double} :
    x.rank = y.rank ↔ x = y ∨ x.datum.isZero = true ∧ y.datum.isZero = true := by
  rw [rank, rank, Datum.rank_eq_iff]
  exact or_congr_left ⟨datum_inj, fun h => h ▸ rfl⟩

end Double

/-! ### Singles as doubles -/

/-- A number in a unit that is a fraction of the unit of its format. -/
def Datum.scaled (ratio : Nat) : Datum → Datum
  | .finite negative units => .finite negative (units * ratio)
  | d => d

section

variable {ratio : Nat} {a b : Datum}

theorem Datum.scaled_inj (hpos : 0 < ratio) (h : a.scaled ratio = b.scaled ratio) : a = b := by
  cases a <;> cases b <;> simp_all [scaled, Nat.ne_of_gt hpos]

theorem Datum.isZero_scaled (hpos : 0 < ratio) (a : Datum) :
    (a.scaled ratio).isZero = a.isZero := by
  cases a <;> simp [scaled, isZero, Nat.ne_of_gt hpos, Bool.beq_eq_decide_eq]

end

namespace Single

open Format

theorem toNat_lt (x : Single) : x.word.toNat < 2 * Format.single.signWeight := x.word.toNat_lt

theorem eq_of_toNat {x y : Single} (h : x.word.toNat = y.word.toNat) : x = y := by
  cases x
  cases y
  exact congrArg _ (UInt32.toNat_inj.1 h)

theorem datum_inj {x y : Single} (h : x.datum = y.datum) : x = y :=
  eq_of_toNat (decode_inj x.toNat_lt y.toNat_lt h)

/-- The double of a single is the same number, in the unit of doubles. -/
theorem datum_toDouble {shift : Nat}
    (hunit : Format.double.unitShift = shift + Format.single.unitShift) {x : Single}
    (h : x.datum.isNaN = false) : x.toDouble.datum = x.datum.scaled (2 ^ shift) := by
  have hshift : shift = 925 := by
    have hunits : Format.double.unitShift = 925 + Format.single.unitShift := by decide
    omega
  rw [toDouble]
  cases hdatum : x.datum with
  | finite negative units =>
      obtain ⟨hm, hunits⟩ := decode_finite hdatum
      obtain ⟨d, s, hsplit, hvalue, hs, -⟩ := exists_significand Format.single
        (x.word.toNat % Format.single.signWeight)
      have hd : d < 255 := by
        have hinfinity : Format.single.infinity = 255 * 2 ^ 23 := by decide
        have hfraction : Format.single.fractionBits = 23 := rfl
        rw [hfraction] at hsplit
        omega
      obtain ⟨m, hfinite, hsame⟩ := Double.exists_units_shift (d + shift)
        (Nat.lt_of_lt_of_le hs (by decide)) (by omega) (by omega)
      rw [Nat.pow_add, ← Nat.mul_assoc, ← hvalue, hunits] at hsame
      have hnearest : Format.double.nearest (units * 2 ^ Format.double.unitShift)
          (2 ^ Format.single.unitShift) = m := by
        rw [hunit, Nat.pow_add, ← Nat.mul_assoc, ← hsame]
        exact nearest_units hfinite (Nat.two_pow_pos _)
      rw [convert, pow2_eq, pow2_eq, hnearest, Double.datum_ofNatWord (pack_lt hfinite.le _),
        decode_pack hfinite, hsame]
      rfl
  | infinite negative =>
      rw [convert, Double.datum_ofNatWord (pack_lt (Nat.le_refl _) _), decode_pack_infinity]
      rfl
  | nan negative payload =>
      rw [hdatum] at h
      cases h

theorem exists_datum_toDouble : ∃ ratio, 0 < ratio ∧
    ∀ x : Single, x.datum.isNaN = false → x.toDouble.datum = x.datum.scaled ratio :=
  ⟨2 ^ 925, Nat.two_pow_pos _, fun _ h => datum_toDouble (by decide) h⟩

theorem isNaN_toDouble (x : Single) : x.toDouble.datum.isNaN = x.datum.isNaN := by
  cases hnan : x.datum.isNaN with
  | false =>
      obtain ⟨ratio, -, hscaled⟩ := exists_datum_toDouble
      rw [hscaled x hnan, ← hnan]
      cases x.datum <;> rfl
  | true =>
      cases hdatum : x.datum with
      | nan negative payload =>
          rw [toDouble, hdatum, convert]
          generalize hbits : payload * pow2 Format.double.fractionBits /
            pow2 Format.single.fractionBits % Format.double.quietBit = bits
          have hlt : bits < Format.double.quietBit := hbits ▸ Nat.mod_lt _ (by decide)
          have hquiet : Format.double.quietBit = 2 ^ 51 := by decide
          have hinfinity : Format.double.infinity = 2047 * 2 ^ 52 := by decide
          have hweight : Format.double.signWeight = 2 ^ 63 := by decide
          have hword : Format.double.pack negative (Format.double.infinity +
              (Format.double.quietBit + bits)) < 2 * Format.double.signWeight := by
            unfold pack
            split <;> omega
          rw [Double.datum_ofNatWord hword, decode_pack_nan (by omega) (by omega)]
          rfl
      | finite negative units =>
          rw [hdatum] at hnan
          cases hnan
      | infinite negative =>
          rw [hdatum] at hnan
          cases hnan

/-- Unless neither is a number, singles are compared as equal where they are, and the two zeros
besides. -/
theorem rank_toDouble_eq_iff {x y : Single} (h : ¬(x.datum.isNaN = true ∧ y.datum.isNaN = true)) :
    x.toDouble.rank = y.toDouble.rank ↔
      x = y ∨ x.datum.isZero = true ∧ y.datum.isZero = true := by
  obtain ⟨ratio, hpos, hscaled⟩ := exists_datum_toDouble
  rw [Double.rank_eq_iff]
  constructor
  · rintro (heq | ⟨hx, hy⟩)
    · -- Equal doubles are of one kind, so that both singles are numbers.
      have hkind : x.datum.isNaN = y.datum.isNaN := by
        rw [← isNaN_toDouble, heq, isNaN_toDouble]
      have hnumber : x.datum.isNaN = false := Bool.eq_false_iff.2 fun hx => h ⟨hx, hkind ▸ hx⟩
      have hdata := congrArg Double.datum heq
      rw [hscaled x hnumber, hscaled y (hkind ▸ hnumber)] at hdata
      exact .inl (datum_inj (Datum.scaled_inj hpos hdata))
    · have hnumber {x : Single} (hx : x.toDouble.datum.isZero = true) : x.datum.isNaN = false :=
        isNaN_toDouble x ▸ Datum.isNaN_of_isZero hx
      rw [hscaled x (hnumber hx), Datum.isZero_scaled hpos] at hx
      rw [hscaled y (hnumber hy), Datum.isZero_scaled hpos] at hy
      exact .inr ⟨hx, hy⟩
  · rintro (rfl | ⟨hx, hy⟩)
    · exact .inl rfl
    · rw [hscaled x (Datum.isNaN_of_isZero hx), hscaled y (Datum.isNaN_of_isZero hy),
        Datum.isZero_scaled hpos, Datum.isZero_scaled hpos]
      exact .inr ⟨hx, hy⟩

end Single

end EventQuery.Number
